import Glet.Machine

/-!
# The exit of a proxy

Inside a proxy, `recvInput` receives run requests into `g_InputQueue`,
`compute` takes them from there into `g_OutputQueue`, and `send_output` takes
them from there and writes their outputs. When the backend wants the proxy to
exit, `control` sets `g_exitFlag`, and each of the two last threads leaves its
loop by a test of its own on the flags and the queues.

The test of `compute` misses that `g_receivingFlag` may be set while nothing is
in the queue: it goes on to take from an empty one. The test of `send_output`
misses the requests that are in neither queue: those `compute` works on, and
the one `recvInput` has received and not yet queued. It reads the flag and the
two queues one after the other.

A push waits for the mutex of its queue, which `compute` has from its wait to
its pop, and `send_output` from its wait to its pop or to the next turn.
-/

namespace Glet.Drain

/-! ## State -/

/-- A message on the input socket. -/
inductive Msg (R : Type) where
  | run (r : R)
  /-- `LOAD_MODEL` or `UNLOAD_MODEL`. -/
  | control
  /-- A `dimlen` above 4. -/
  | strange
  /-- A `dimlen` of 0. -/
  | zero
  | close

/-- Where `recvInput` is. -/
inductive Recv (R : Type) where
  /-- Waits for the next message. -/
  | idle
  /-- Reads the fields and the data of a run request. -/
  | receiving (r : R)
  /-- Has read all of it. -/
  | received (r : R)
  /-- Has cleared `g_receivingFlag` and is about to queue the request. -/
  | cleared (r : R)
  /-- Has left the inner loop. -/
  | closed

/-- Where `compute` is. -/
inductive Compute (R : Type) where
  | waiting
  /-- Has returned from the wait, with `g_IqueueMtx`. -/
  | woken
  /-- About to execute `g_InputQueue.front()` and `pop()`. -/
  | taking
  | computing (r : R)
  | exited

/-- Where `send_output` is in its inner loop. -/
inductive Sender (R : Type) where
  | waiting
  /-- Has returned from the wait, with `g_OqueueMtx`. -/
  | woken
  /-- Has read `g_receivingFlag` as false. -/
  | sawIdle
  /-- Has read the size of `g_InputQueue` as 0 as well. -/
  | sawNoInput
  /-- Some part of the test was false. -/
  | staying
  | writing (r : R)
  | left

structure State (R : Type) where
  stream : List (Msg R)
  recv : Recv R
  receivingFlag : Bool
  inputQueue : List R
  compute : Compute R
  outputQueue : List R
  sender : Sender R
  exitFlag : Bool
  /-- The run requests that were completely received. -/
  received : List R
  /-- The requests whose outputs were written to the output socket. -/
  written : List R
  /-- A message with a strange or zero `dimlen` came after the last complete
  run request. -/
  skipped : Bool

variable {R : Type}

/-- The request `recvInput` has received and not queued. -/
def Recv.hold : Recv R → List R
  | .received r | .cleared r => [r]
  | _ => []

/-- Inside a run request, before the flag is cleared. -/
def Recv.busy : Recv R → Bool
  | .receiving _ | .received _ => true
  | _ => false

/-- Between clearing the flag and queueing the request. -/
def Recv.late : Recv R → Bool
  | .cleared _ => true
  | _ => false

def Compute.hold : Compute R → List R
  | .computing r => [r]
  | _ => []

/-- Has `g_IqueueMtx`. -/
def Compute.hasMtx : Compute R → Bool
  | .woken | .taking => true
  | _ => false

def Sender.hold : Sender R → List R
  | .writing r => [r]
  | _ => []

/-- Has `g_OqueueMtx`. -/
def Sender.hasMtx : Sender R → Bool
  | .woken | .sawIdle | .sawNoInput | .staying => true
  | _ => false

/-- Has read part of the exit test, and all of it was true. -/
def Sender.testing : Sender R → Bool
  | .sawIdle | .sawNoInput => true
  | _ => false

/-- A proxy with its connections, before the first message. -/
def start (stream : List (Msg R)) : State R where
  stream := stream
  recv := .idle
  receivingFlag := false
  inputQueue := []
  compute := .waiting
  outputQueue := []
  sender := .waiting
  exitFlag := false
  received := []
  written := []
  skipped := false

/-! ## Steps -/

inductive Act where
  /-- `control` sees `EXITING`. -/
  | control
  /-- `recvInput` reads the first integer of a message. -/
  | read
  | receive
  | clear
  | push
  /-- `recvInput` accepts a new connection. -/
  | accept
  /-- `compute` returns from its wait. -/
  | wake
  | test
  | take
  /-- `compute` queues the output. -/
  | output
  /-- `send_output` returns from its wait. -/
  | wakeSender
  | readReceiving
  | readInput
  | readOutput
  /-- `send_output` stays in the loop. -/
  | next
  | write

def step : Act → State R → Option (State R)
  | .control, s => some { s with exitFlag := true }
  | .read, s =>
      match s.recv, s.stream with
      | .idle, .run r :: rest =>
          some { s with stream := rest, receivingFlag := true, recv := .receiving r }
      | .idle, .control :: rest => some { s with stream := rest }
      | .idle, .strange :: rest =>
          some { s with stream := rest, receivingFlag := true, skipped := true }
      | .idle, .zero :: rest =>
          some { s with stream := rest, receivingFlag := true, skipped := true, recv := .closed }
      | .idle, .close :: rest => some { s with stream := rest, recv := .closed }
      | _, _ => none
  | .receive, s =>
      match s.recv with
      | .receiving r => some { s with recv := .received r, received := s.received ++ [r] }
      | _ => none
  | .clear, s =>
      match s.recv with
      | .received r => some { s with recv := .cleared r, receivingFlag := false, skipped := false }
      | _ => none
  | .push, s =>
      match s.recv, s.compute.hasMtx with
      | .cleared r, false => some { s with recv := .idle, inputQueue := s.inputQueue ++ [r] }
      | _, _ => none
  | .accept, s =>
      match s.recv, s.exitFlag with
      | .closed, false => some { s with recv := .idle }
      | _, _ => none
  | .wake, s =>
      match s.compute with
      | .waiting =>
          if s.inputQueue.length ≠ 0 ∨ s.exitFlag = true then some { s with compute := .woken }
          else none
      | _ => none
  | .test, s =>
      match s.compute with
      | .woken =>
          if s.inputQueue.length = 0 ∧ s.receivingFlag = false ∧ s.exitFlag = true then
            some { s with compute := .exited }
          else some { s with compute := .taking }
      | _ => none
  | .take, s =>
      match s.compute, s.inputQueue with
      | .taking, r :: rest => some { s with compute := .computing r, inputQueue := rest }
      | _, _ => none
  | .output, s =>
      match s.compute, s.sender.hasMtx with
      | .computing r, false => some { s with compute := .waiting, outputQueue := s.outputQueue ++ [r] }
      | _, _ => none
  | .wakeSender, s =>
      match s.sender with
      | .waiting =>
          if s.outputQueue.length ≠ 0 ∨ s.exitFlag = true then some { s with sender := .woken }
          else none
      | _ => none
  | .readReceiving, s =>
      match s.sender with
      | .woken => some { s with sender := if s.receivingFlag = true then .staying else .sawIdle }
      | _ => none
  | .readInput, s =>
      match s.sender with
      | .sawIdle => some { s with sender := if s.inputQueue.length = 0 then .sawNoInput else .staying }
      | _ => none
  | .readOutput, s =>
      match s.sender with
      | .sawNoInput =>
          some { s with
            sender := if s.outputQueue.length = 0 ∧ s.exitFlag = true then .left else .staying }
      | _ => none
  | .next, s =>
      match s.sender, s.outputQueue with
      | .staying, [] => some { s with sender := .waiting }
      | .staying, r :: rest => some { s with sender := .writing r, outputQueue := rest }
      | _, _ => none
  | .write, s =>
      match s.sender with
      | .writing r => some { s with sender := .waiting, written := s.written ++ [r] }
      | _ => none

variable {s s' : State R} {a : Act}

/-- What the steps do, and when. -/
inductive Steps (s : State R) : Act → State R → Prop
  | control : Steps s .control { s with exitFlag := true }
  | readRun {r : R} {rest : List (Msg R)} : s.recv = .idle → s.stream = .run r :: rest →
      Steps s .read { s with stream := rest, receivingFlag := true, recv := .receiving r }
  | readControl {rest : List (Msg R)} : s.recv = .idle → s.stream = .control :: rest →
      Steps s .read { s with stream := rest }
  | readStrange {rest : List (Msg R)} : s.recv = .idle → s.stream = .strange :: rest →
      Steps s .read { s with stream := rest, receivingFlag := true, skipped := true }
  | readZero {rest : List (Msg R)} : s.recv = .idle → s.stream = .zero :: rest →
      Steps s .read { s with
        stream := rest, receivingFlag := true, skipped := true, recv := .closed }
  | readClose {rest : List (Msg R)} : s.recv = .idle → s.stream = .close :: rest →
      Steps s .read { s with stream := rest, recv := .closed }
  | receive {r : R} : s.recv = .receiving r →
      Steps s .receive { s with recv := .received r, received := s.received ++ [r] }
  | clear {r : R} : s.recv = .received r →
      Steps s .clear { s with recv := .cleared r, receivingFlag := false, skipped := false }
  | push {r : R} : s.recv = .cleared r → s.compute.hasMtx = false →
      Steps s .push { s with recv := .idle, inputQueue := s.inputQueue ++ [r] }
  | accept : s.recv = .closed → s.exitFlag = false → Steps s .accept { s with recv := .idle }
  | wake : s.compute = .waiting → s.inputQueue.length ≠ 0 ∨ s.exitFlag = true →
      Steps s .wake { s with compute := .woken }
  | exit : s.compute = .woken →
      s.inputQueue.length = 0 ∧ s.receivingFlag = false ∧ s.exitFlag = true →
      Steps s .test { s with compute := .exited }
  | go : s.compute = .woken →
      ¬ (s.inputQueue.length = 0 ∧ s.receivingFlag = false ∧ s.exitFlag = true) →
      Steps s .test { s with compute := .taking }
  | take {r : R} {rest : List R} : s.compute = .taking → s.inputQueue = r :: rest →
      Steps s .take { s with compute := .computing r, inputQueue := rest }
  | output {r : R} : s.compute = .computing r → s.sender.hasMtx = false →
      Steps s .output { s with compute := .waiting, outputQueue := s.outputQueue ++ [r] }
  | wakeSender : s.sender = .waiting → s.outputQueue.length ≠ 0 ∨ s.exitFlag = true →
      Steps s .wakeSender { s with sender := .woken }
  | seesReceiving : s.sender = .woken → s.receivingFlag = true →
      Steps s .readReceiving { s with sender := .staying }
  | seesIdle : s.sender = .woken → ¬ s.receivingFlag = true →
      Steps s .readReceiving { s with sender := .sawIdle }
  | seesNoInput : s.sender = .sawIdle → s.inputQueue.length = 0 →
      Steps s .readInput { s with sender := .sawNoInput }
  | seesInput : s.sender = .sawIdle → ¬ s.inputQueue.length = 0 →
      Steps s .readInput { s with sender := .staying }
  | leave : s.sender = .sawNoInput → s.outputQueue.length = 0 ∧ s.exitFlag = true →
      Steps s .readOutput { s with sender := .left }
  | stay : s.sender = .sawNoInput → ¬ (s.outputQueue.length = 0 ∧ s.exitFlag = true) →
      Steps s .readOutput { s with sender := .staying }
  | wait : s.sender = .staying → s.outputQueue = [] → Steps s .next { s with sender := .waiting }
  | next {r : R} {rest : List R} : s.sender = .staying → s.outputQueue = r :: rest →
      Steps s .next { s with sender := .writing r, outputQueue := rest }
  | write {r : R} : s.sender = .writing r →
      Steps s .write { s with sender := .waiting, written := s.written ++ [r] }

theorem step_cases (h : step a s = some s') : Steps s a s' := by
  cases a <;> simp only [step] at h <;> repeat' split at h
  all_goals first
    | (cases h; constructor <;> assumption)
    | cases h

theorem Recv.hold_eq_nil {r : Recv R} (hbusy : r.busy = false) (hlate : r.late = false) :
    r.hold = [] := by
  cases r with
  | idle => rfl
  | receiving _ => rfl
  | received _ => cases hbusy
  | cleared _ => cases hlate
  | closed => rfl

/-! ## The receiving flag -/

/-- The receiving flag says that a request is being received, or that a
malformed message has left it set. -/
def FlagHonest (s : State R) : Prop :=
  s.receivingFlag = (s.recv.busy || s.skipped)

theorem FlagHonest.step (h : FlagHonest s) (hstep : step a s = some s') : FlagHonest s' := by
  unfold FlagHonest at h ⊢
  cases step_cases hstep with
  | readRun | readZero | clear => rfl
  | readStrange => exact (Bool.or_true _).symm
  | readClose hrecv _ | receive hrecv | push hrecv _ | accept hrecv _ =>
      rw [hrecv] at h
      exact h
  | _ => exact h

/-! ## Taking from the input queue -/

/-- When `compute` takes from the input queue, there is something in it. -/
def TakesSome (s : State R) : Prop :=
  s.compute = .taking → s.inputQueue ≠ []

/-- When `compute` tests an empty queue, `recvInput` is not inside a run
request and has skipped no malformed message since the last one. -/
def QuietTest (s : State R) : Act → Prop
  | .test => s.inputQueue = [] → s.recv.busy = false ∧ s.skipped = false
  | _ => True

instance [DecidableEq R] (s : State R) (a : Act) : Decidable (QuietTest s a) := by
  unfold QuietTest
  split <;> infer_instance

structure Fed (s : State R) : Prop where
  flag : FlagHonest s
  woken : s.compute = .woken → s.inputQueue ≠ [] ∨ s.exitFlag = true
  takes : TakesSome s

theorem fed_start (stream : List (Msg R)) : Fed (start stream) :=
  ⟨rfl, fun h => (by cases h), fun h => (by cases h)⟩

/-- `compute` has not got the mutex. -/
theorem fed_of_hasMtx (hflag : FlagHonest s) (hmtx : s.compute.hasMtx = false) : Fed s := by
  refine ⟨hflag, ?_, ?_⟩ <;> intro heq <;> rw [heq] at hmtx <;> cases hmtx

theorem Fed.step (h : Fed s) (hquiet : QuietTest s a) (hstep : step a s = some s') : Fed s' := by
  have hflag := h.flag.step hstep
  cases step_cases hstep with
  | control => exact ⟨hflag, fun _ => Or.inr rfl, h.takes⟩
  | push => exact ⟨hflag, fun _ => Or.inl (by simp), fun _ => by simp⟩
  | wake hwaiting hready =>
      refine ⟨hflag, fun _ => ?_, fun heq => by cases heq⟩
      exact hready.imp_left fun hne heq => hne (List.length_eq_zero_iff.mpr heq)
  | exit => exact fed_of_hasMtx hflag rfl
  | go hwoken hgo =>
      refine ⟨hflag, fun heq => (by cases heq), fun _ hempty => hgo ?_⟩
      have hempty : s.inputQueue = [] := hempty
      obtain ⟨hbusy, hskipped⟩ := hquiet hempty
      have hexit := (h.woken hwoken).resolve_left (fun hne => hne hempty)
      refine ⟨by simp [hempty], ?_, hexit⟩
      rw [h.flag, hbusy, hskipped]
      rfl
  | take => exact fed_of_hasMtx hflag rfl
  | output => exact fed_of_hasMtx hflag rfl
  | _ => exact ⟨hflag, h.woken, h.takes⟩

/-- In every run in which `compute` tests an empty queue only when `recvInput` is
not inside a run request and has skipped no malformed message since the last
one, `compute` never takes from an empty queue. -/
theorem compute_takes_some {acts : List Act} {stream : List (Msg R)}
    (hrun : Machine.run step acts (start stream) = some s)
    (hquiet : Machine.Along step QuietTest acts (start stream)) : TakesSome s :=
  (Machine.run_along (fun _ _ _ hI hC hs => Fed.step hI hC hs) hquiet hrun
    (fed_start stream)).takes

/-- The proxy exits while a second request is being received, `compute` having
taken the first. -/
theorem compute_takes_some_exiting :
    ∃ s, Machine.run step [.read, .receive, .clear, .push, .control, .wake, .test, .read]
        (start [.run 0, .run 1]) = some s ∧ s.inputQueue = [0] ∧ s.receivingFlag = true ∧
      TakesSome s := by
  obtain ⟨s, hs, hp⟩ := (Option.any_eq_true
    (fun s : State Nat => decide (s.inputQueue = [0] ∧ s.receivingFlag = true)) _).mp
    (show Option.any _ (Machine.run step [.read, .receive, .clear, .push, .control, .wake, .test,
        .read] (start [.run 0, .run 1])) = true by decide)
  have hp := of_decide_eq_true hp
  exact ⟨s, hs, hp.1, hp.2, compute_takes_some hs (by decide)⟩

/-- A message with a strange `dimlen` leaves the flag set; at the exit `compute`
takes from the empty queue. -/
theorem compute_takes_none :
    ∃ s, Machine.run step [.read, .control, .wake, .test] (start [Msg.strange (R := Nat)]) = some s ∧
      s.compute = .taking ∧ s.inputQueue = [] ∧ ¬ TakesSome s := by
  refine ⟨_, rfl, rfl, rfl, ?_⟩
  exact fun h => h rfl rfl

/-! ## Draining -/

/-- When `send_output` leaves its loop, the outputs of all requests that were
received have been written. -/
def Drained (s : State R) : Prop :=
  ∀ s', step .readOutput s = some s' → s'.sender = .left → s'.written = s'.received

/-- During the exit test of `send_output` no request is completed by
`recvInput`, none is on its way to the input queue when the flag is read, and
none is on its way between the queues when the size of the input queue is read. -/
def Undisturbed (s : State R) : Act → Prop
  | .receive => s.sender.testing = false
  | .readReceiving => s.recv.late = false
  | .readInput => s.compute.hold = []
  | _ => True

instance [DecidableEq R] (s : State R) (a : Act) : Decidable (Undisturbed s a) := by
  unfold Undisturbed
  split <;> infer_instance

/-- Where the requests are, in the order in which they came. -/
structure Ordered (s : State R) : Prop where
  flag : FlagHonest s
  places : s.received = s.written ++ (s.sender.hold ++ (s.outputQueue ++ (s.compute.hold ++
    (s.inputQueue ++ s.recv.hold))))
  idle : s.sender.testing = true → s.recv.hold = []
  noInput : s.sender = .sawNoInput → s.inputQueue = [] ∧ s.compute.hold = []

theorem ordered_start (stream : List (Msg R)) : Ordered (start stream) :=
  ⟨rfl, rfl, fun _ => rfl, fun _ => ⟨rfl, rfl⟩⟩

theorem Ordered.drained (h : Ordered s) : Drained s := by
  intro s' hstep hleft
  cases step_cases hstep with
  | leave hsender hdone =>
      obtain ⟨hin, hcomp⟩ := h.noInput hsender
      have hrecv := h.idle (by rw [hsender]; rfl)
      have hout := List.length_eq_zero_iff.mp hdone.1
      have hplaces := h.places
      rw [hsender, hin, hcomp, hrecv, hout] at hplaces
      simpa [Sender.hold] using hplaces.symm
  | stay => cases hleft

theorem Ordered.step (h : Ordered s) (hundisturbed : Undisturbed s a)
    (hstep : step a s = some s') : Ordered s' := by
  have hflag := h.flag.step hstep
  have hplaces := h.places
  cases step_cases hstep with
  | control | readControl | readStrange => exact ⟨hflag, hplaces, h.idle, h.noInput⟩
  | readRun hrecv _ | readZero hrecv _ | readClose hrecv _ | accept hrecv _ =>
      rw [hrecv] at hplaces
      exact ⟨hflag, hplaces, fun _ => rfl, h.noInput⟩
  | receive hrecv =>
      rw [hrecv] at hplaces
      refine ⟨hflag, ?_, fun htest => ?_, h.noInput⟩
      · simp only [hplaces, Recv.hold, List.append_assoc, List.nil_append]
      · exact absurd htest (by rw [show s.sender.testing = false from hundisturbed]; decide)
  | clear hrecv =>
      have hidle := h.idle
      rw [hrecv] at hplaces hidle
      exact ⟨hflag, hplaces, hidle, h.noInput⟩
  | push hrecv _ =>
      rw [hrecv] at hplaces
      refine ⟨hflag, ?_, fun _ => rfl, fun hno => ?_⟩
      · simp only [hplaces, Recv.hold, List.append_nil]
      · have hno : s.sender = .sawNoInput := hno
        have hidle := h.idle (by rw [hno]; rfl)
        rw [hrecv] at hidle
        cases hidle
  | wake hcompute _ | exit hcompute _ | go hcompute _ =>
      rw [hcompute] at hplaces
      exact ⟨hflag, hplaces, h.idle, fun hno => ⟨(h.noInput hno).1, rfl⟩⟩
  | take hcompute hinput =>
      rw [hcompute, hinput] at hplaces
      refine ⟨hflag, hplaces, h.idle, fun hno => ?_⟩
      have hempty := (h.noInput hno).1
      rw [hinput] at hempty
      cases hempty
  | output hcompute hmtx =>
      rw [hcompute] at hplaces
      refine ⟨hflag, ?_, h.idle, fun hno => ?_⟩
      · simp only [hplaces, Compute.hold, List.append_assoc, List.nil_append]
      · have hno : s.sender = .sawNoInput := hno
        rw [hno] at hmtx
        cases hmtx
  | seesIdle hsender hset =>
      rw [hsender] at hplaces
      refine ⟨hflag, hplaces, fun _ => ?_, fun hno => by cases hno⟩
      have hlate : s.recv.late = false := hundisturbed
      have hbusy : s.recv.busy = false := by
        have := h.flag
        unfold FlagHonest at this
        cases hb : s.recv.busy with
        | false => rfl
        | true => rw [hb, Bool.true_or] at this; exact absurd this hset
      exact Recv.hold_eq_nil hbusy hlate
  | seesNoInput hsender hempty =>
      have hidle := h.idle (by rw [hsender]; rfl)
      rw [hsender] at hplaces
      exact ⟨hflag, hplaces, fun _ => hidle,
        fun _ => ⟨List.length_eq_zero_iff.mp hempty, hundisturbed⟩⟩
  | wakeSender hsender _ | seesReceiving hsender _ | seesInput hsender _ | leave hsender _
  | stay hsender _ | wait hsender _ =>
      rw [hsender] at hplaces
      exact ⟨hflag, hplaces, fun htest => (by cases htest), fun hno => by cases hno⟩
  | next hsender hout =>
      rw [hsender, hout] at hplaces
      exact ⟨hflag, hplaces, fun htest => (by cases htest), fun hno => by cases hno⟩
  | write hsender =>
      rw [hsender] at hplaces
      refine ⟨hflag, ?_, fun htest => (by cases htest), fun hno => by cases hno⟩
      simp only [hplaces, Sender.hold, List.append_assoc, List.nil_append]

/-- In every run in which the exit test of `send_output` is undisturbed, the
proxy drains before `send_output` leaves. -/
theorem proxy_drains {acts : List Act} {stream : List (Msg R)}
    (hrun : Machine.run step acts (start stream) = some s)
    (hundisturbed : Machine.Along step Undisturbed acts (start stream)) : Drained s :=
  (Machine.run_along (fun _ _ _ hI hC hs => Ordered.step hI hC hs) hundisturbed hrun
    (ordered_start stream)).drained

/-- The output of one request is written before the proxy exits. -/
theorem proxy_drains_one :
    ∃ s s', Machine.run step [.read, .receive, .clear, .push, .wake, .test, .take, .control, .output,
        .wakeSender, .readReceiving, .readInput, .readOutput, .next, .write, .wakeSender,
        .readReceiving, .readInput] (start [.run 0]) = some s ∧
      step .readOutput s = some s' ∧ s'.sender = .left ∧ s'.received = [0] ∧
      s'.written = s'.received := by
  have hrun : Machine.run step [.read, .receive, .clear, .push, .wake, .test, .take, .control,
      .output, .wakeSender, .readReceiving, .readInput, .readOutput, .next, .write, .wakeSender,
      .readReceiving, .readInput] (start [.run (0 : Nat)]) = some _ := rfl
  exact ⟨_, _, hrun, rfl, rfl, rfl, proxy_drains hrun (by decide) _ rfl rfl⟩

/-- `compute` has taken the request and the queues are empty: `send_output`
leaves and the output is never written. -/
theorem exit_while_computing :
    ∃ s s', Machine.run step [.read, .receive, .clear, .push, .wake, .test, .take, .control,
        .wakeSender, .readReceiving, .readInput] (start [.run 0]) = some s ∧
      step .readOutput s = some s' ∧ s'.sender = .left ∧ s'.received = [0] ∧ s'.written = [] ∧
      ¬ Drained s := by
  refine ⟨_, _, rfl, rfl, rfl, rfl, rfl, ?_⟩
  intro h
  exact absurd (h _ rfl rfl) (by decide)

end Glet.Drain
