import Glet.Dataflow
import Glet.Simulation

/-!
# Replies

Everything between the requests of clients and the replies they get. A request
thread makes an `AppInstance` for each request of its client and places a
request on a model queue for every node that an input tensor feeds. The drop
thread and the batching threads work on the queues, output threads mark nodes
and place what follows, and whoever finds an instance late or finished puts it
on the queue of its application, from which a thread answers the client.

Here are the steps of these threads, and what each can change.
-/

namespace Glet

namespace AppSpec

/-- `getModelName`. -/
def getModelName (spec : AppSpec) (id : Nat) : String :=
  ((spec.modelTable[id]?).map (·.name)).getD ""

/-- The ids of `getInputTensorSpecs`. -/
def inputTensors (spec : AppSpec) : List Nat :=
  (spec.modelTable.filter fun c => c.type == .input).map (·.id)

end AppSpec

namespace Replies

/-! ## State -/

/-- A `request`: its instance and the node it is for. -/
structure Request where
  task : Nat
  cgid : Nat
  deriving DecidableEq

/-- An `AppInstance`; the request thread has received `arrived` of its tensors. -/
structure Instance where
  name : String
  spec : AppSpec
  socketFD : Nat
  taskID : Int
  arrived : Nat
  app : AppInstance
  dropped : Bool

/-- The drop thread tests the front of its copy, has found an instance that is
not marked yet, or has marked it and not put it on a queue yet. -/
inductive DropThread where
  | idle
  | testing (copy : List Request)
  | claimed (req : Request) (copy : List Request)
  | marked (req : Request) (copy : List Request)

/-- A batch that was sent: `allocateOutput` has to mark the requests of `toMark`,
`sendBatchedResults` to handle those of `toSend`. It has found the instance of
`report` finished. -/
structure Batch where
  toMark : List Request
  toSend : List Request
  report : Option Nat

/-- `socket_txsize` of a task id to a client; `dropped` is what the instance was
put on the queue with. -/
structure Reply where
  task : Nat
  dropped : Bool
  socketFD : Nat
  taskID : Int

/-- `received` and `reports` have what was read from clients, and every call of
`addtoAppQueue`. -/
structure Server where
  instances : List Instance
  /-- The instance the request thread of a socket is receiving. -/
  current : Nat → Option Nat
  reqList : String → List Request
  dropThread : DropThread
  batching : List (Nat × Request)
  sent : List Batch
  perAppQueue : String → List (Nat × Bool)
  replies : List Reply
  received : List (Nat × Int)
  reports : List (Nat × Bool)

def start : Server where
  instances := []
  current := fun _ => none
  reqList := fun _ => []
  dropThread := .idle
  batching := []
  sent := []
  perAppQueue := fun _ => []
  replies := []
  received := []
  reports := []

/-! ## Steps -/

def Server.update (st : Server) (t : Nat) (f : Instance → Instance) : Server :=
  { st with instances := st.instances.modify t f }

/-- `make_shared<AppInstance>` at the head of the loop of `handleRequest`. -/
def Server.create (st : Server) (name : String) (spec : AppSpec) (fd : Nat) : Server :=
  { st with
    instances := st.instances ++ [⟨name, spec, fd, 0, 0, .new spec, false⟩]
    current := Function.update st.current fd (some st.instances.length) }

/-- `addtoModelQueue`. -/
def Server.addtoModelQueue (st : Server) (name : String) (r : Request) : Server :=
  { st with reqList := Function.update st.reqList name (st.reqList name ++ [r]) }

/-- `addtoModelQueue` for each node of a list. -/
def Server.place (st : Server) (t : Nat) (spec : AppSpec) (dsts : List Nat) : Server :=
  dsts.foldl (fun st dst => st.addtoModelQueue (spec.getModelName dst) ⟨t, dst⟩) st

/-- `addtoAppQueue`. It sets the flag before it takes the lock; this is one step
here, since only the drop thread reads the flag, and what a thread does in between
comes to the other order of two entries of one instance. -/
def Server.addtoAppQueue (st : Server) (name : String) (t : Nat) (dropped : Bool) : Server :=
  { st.update t fun k => { k with dropped } with
    perAppQueue := Function.update st.perAppQueue name (st.perAppQueue name ++ [(t, dropped)])
    reports := st.reports ++ [(t, dropped)] }

/-- What a thread does at a time: one critical section, but several of them in
`recvTensor`, `sendResult` and `report`, which place the requests for all nodes
that follow and put an instance on its queue. -/
inductive Act where
  /-- A request thread reads the name of an application. -/
  | connect (name : String) (fd : Nat)
  /-- It receives a tensor and a task id. -/
  | recvTensor (fd : Nat) (tid : Int)
  /-- The drop thread copies the queue of a model. -/
  | look (name : String)
  /-- It compares the age of the front of its copy, in the lazy or the eager way. -/
  | test (late : Bool)
  /-- `setDropped(true)`. -/
  | mark
  /-- `addtoAppQueue(app, true)`. -/
  | drop
  /-- A batching thread takes a request. -/
  | pop (thread : Nat) (name : String)
  /-- A batching thread sends its batch. -/
  | send (thread : Nat)
  /-- `allocateOutput` for the next request of a batch. -/
  | finish (i : Nat)
  /-- `sendBatchedResults` for the next request of a batch. -/
  | sendResult (i : Nat)
  /-- `addtoAppQueue(app, false)`. -/
  | report (i : Nat)
  /-- The thread of an application answers a client. -/
  | reply (name : String)

/-- The application of a name is the last one in `AppSpecVec`. -/
def connect (apps : List (String × AppSpec)) (name : String) (fd : Nat) (st : Server) :
    Option Server := do
  let app ← apps.reverse.find? fun app => app.1 == name
  if st.current fd = none then some (st.create name app.2 fd) else none

/-- `recvTensor`. An id that is not positive ends the thread; after the last
tensor it makes the next instance. -/
def recvTensor (fd : Nat) (tid : Int) (st : Server) : Option Server := do
  let t ← st.current fd
  let k ← st.instances[t]?
  let id ← k.spec.inputTensors[k.arrived]?
  if tid ≤ 0 then some { st with current := Function.update st.current fd none }
  else
    let st := { st.update t fun k => { k with taskID := tid, arrived := k.arrived + 1 } with
      received := st.received ++ [(fd, tid)] }
    let st := st.place t k.spec (k.spec.getNextDsts id)
    if k.arrived + 1 = k.spec.inputTensors.length then some (st.create k.name k.spec fd)
    else some st

def test (late : Bool) (st : Server) : Option Server :=
  match st.dropThread with
  | .testing [] => some { st with dropThread := .idle }
  | .testing (r :: q) =>
      if late then do
        let k ← st.instances[r.task]?
        if k.dropped then some { st with dropThread := .testing q }
        else some { st with dropThread := .claimed r q }
      else some { st with dropThread := .idle }
  | _ => none

def mark (st : Server) : Option Server :=
  match st.dropThread with
  | .claimed r q =>
      some { st.update r.task fun k => { k with dropped := true } with dropThread := .marked r q }
  | _ => none

def drop (st : Server) : Option Server :=
  match st.dropThread with
  | .marked r q => do
      let k ← st.instances[r.task]?
      some { st.addtoAppQueue k.name r.task true with dropThread := .testing q }
  | _ => none

def look (name : String) (st : Server) : Option Server :=
  match st.dropThread with
  | .idle => some { st with dropThread := .testing (st.reqList name) }
  | _ => none

def pop (thread : Nat) (name : String) (st : Server) : Option Server :=
  match st.reqList name with
  | [] => none
  | r :: q => some { st with
      reqList := Function.update st.reqList name q
      batching := st.batching ++ [(thread, r)] }

def send (thread : Nat) (st : Server) : Option Server :=
  let batch := (st.batching.filter fun e => e.1 == thread).map (·.2)
  if batch = [] then none
  else some { st with
    batching := st.batching.filter fun e => e.1 != thread
    sent := st.sent ++ [⟨batch, [], none⟩] }

def finish (i : Nat) (st : Server) : Option Server := do
  let b ← st.sent[i]?
  match b.toMark with
  | [] => none
  | r :: rest =>
      some { st.update r.task fun k => { k with app := k.app.markFinished r.cgid } with
        sent := st.sent.set i { b with toMark := rest, toSend := b.toSend ++ [r] } }

def sendResult (i : Nat) (st : Server) : Option Server := do
  let b ← st.sent[i]?
  match b.toMark, b.report, b.toSend with
  | [], none, r :: rest => do
      let k ← st.instances[r.task]?
      let st := st.update r.task fun k => { k with app := k.app.isFinished.2 }
      if k.app.isFinished.1 then
        some { st with sent := st.sent.set i { b with toSend := rest, report := some r.task } }
      else
        let st := { st with sent := st.sent.set i { b with toSend := rest } }
        some (st.place r.task k.spec
          ((k.spec.getNextDsts r.cgid).filter fun dst => !k.spec.isOutput dst))
  | _, _, _ => none

def report (i : Nat) (st : Server) : Option Server := do
  let b ← st.sent[i]?
  let t ← b.report
  let k ← st.instances[t]?
  some { st.addtoAppQueue k.name t false with sent := st.sent.set i { b with report := none } }

/-- `initApp` and `sendOutputtoClient`. -/
def reply (name : String) (st : Server) : Option Server :=
  match st.perAppQueue name with
  | [] => none
  | (t, dropped) :: rest => do
      let k ← st.instances[t]?
      some { st with
        perAppQueue := Function.update st.perAppQueue name rest
        replies := st.replies ++ [⟨t, dropped, k.socketFD, k.taskID⟩] }

def step (apps : List (String × AppSpec)) : Act → Server → Option Server
  | .connect name fd => connect apps name fd
  | .recvTensor fd tid => recvTensor fd tid
  | .look name => look name
  | .test late => test late
  | .mark => mark
  | .drop => drop
  | .pop thread name => pop thread name
  | .send thread => send thread
  | .finish i => finish i
  | .sendResult i => sendResult i
  | .report i => report i
  | .reply name => reply name

/-! ## What the steps change -/

variable {apps : List (String × AppSpec)} {st st' : Server} {t u : Nat} {k : Instance}
  {f : Instance → Instance} {name : String} {spec : AppSpec} {dsts : List Nat}

theorem update_get : (st.update t f).instances[u]? =
    if t = u then (st.instances[u]?).map f else st.instances[u]? := by
  rw [Server.update, List.getElem?_modify]
  split
  · rfl
  · exact Option.map_id'

theorem get_of_update {k' : Instance} (h : (st.update t f).instances[u]? = some k') :
    ∃ k, st.instances[u]? = some k ∧ k' = if t = u then f k else k := by
  rw [update_get] at h
  split at h
  case isTrue htu =>
    obtain ⟨k, hk, rfl⟩ := Option.map_eq_some_iff.mp h
    exact ⟨k, hk, (if_pos htu).symm⟩
  case isFalse htu => exact ⟨k', h, (if_neg htu).symm⟩

theorem update_of_get (h : st.instances[u]? = some k) :
    (st.update t f).instances[u]? = some (if t = u then f k else k) := by
  rw [update_get]
  split
  · rw [h]
    rfl
  · exact h

theorem create_of_get {fd : Nat} (h : st.instances[u]? = some k) :
    (st.create name spec fd).instances[u]? = some k := by
  rw [Server.create, List.getElem?_append_left (List.getElem?_eq_some_iff.mp h).1]
  exact h

/-- Placing requests changes the queues only. -/
theorem place_eq : st.place t spec dsts = { st with reqList := (st.place t spec dsts).reqList } := by
  induction dsts generalizing st with
  | nil => rfl
  | cons dst dsts ih =>
      show (st.addtoModelQueue _ _).place t spec dsts = _
      rw [ih]
      rfl

theorem place_reqList : (st.place t spec dsts).reqList name = st.reqList name ++
    (dsts.filter fun dst => spec.getModelName dst == name).map fun dst => ⟨t, dst⟩ := by
  induction dsts generalizing st with
  | nil => exact (List.append_nil _).symm
  | cons dst dsts ih =>
      show ((st.addtoModelQueue _ _).place t spec dsts).reqList name = _
      rw [ih]
      by_cases hn : spec.getModelName dst = name
      · simp [Server.addtoModelQueue, hn]
      · simp [Server.addtoModelQueue, hn, Function.update_of_ne (Ne.symm hn)]

theorem mem_place {r : Request} (h : r ∈ (st.place t spec dsts).reqList name) :
    r ∈ st.reqList name ∨ (r.task = t ∧ spec.getModelName r.cgid = name) := by
  rw [place_reqList] at h
  refine (List.mem_append.mp h).imp_right fun h => ?_
  obtain ⟨dst, hdst, rfl⟩ := List.mem_map.mp h
  exact ⟨rfl, by simpa using (List.mem_filter.mp hdst).2⟩

/-- The client has sent the id of the instance. -/
def Answerable (st : Server) (k : Instance) : Prop :=
  0 < k.arrived ∧ (k.socketFD, k.taskID) ∈ st.received

/-- Instances stay, with their application and socket. -/
structure Grows (st st' : Server) : Prop where
  instances : ∀ (t : Nat) k, st.instances[t]? = some k → ∃ k', st'.instances[t]? = some k' ∧
    k'.name = k.name ∧ k'.spec = k.spec ∧ k'.socketFD = k.socketFD ∧
    (Answerable st k → Answerable st' k')
  received : ∀ e ∈ st.received, e ∈ st'.received

theorem Grows.of_eq (h : st'.instances = st.instances) (hreceived : st'.received = st.received) :
    Grows st st' := by
  refine ⟨fun t k hk => ⟨k, by rw [h]; exact hk, rfl, rfl, rfl, ?_⟩, fun e he => hreceived ▸ he⟩
  rintro ⟨harrived, hmem⟩
  exact ⟨harrived, hreceived ▸ hmem⟩

theorem Grows.of_update (h : st'.instances = (st.update t f).instances)
    (hreceived : st'.received = st.received)
    (hf : ∀ k, (f k).name = k.name ∧ (f k).spec = k.spec ∧ (f k).socketFD = k.socketFD ∧
      (f k).arrived = k.arrived ∧ (f k).taskID = k.taskID) : Grows st st' := by
  refine ⟨fun u k hk => ?_, fun e he => hreceived ▸ he⟩
  obtain ⟨hname, hspec, hfd, harr, hid⟩ := hf k
  refine ⟨_, by rw [h]; exact update_of_get hk, ?_⟩
  split
  · refine ⟨hname, hspec, hfd, fun hans => ?_⟩
    rw [Answerable, harr, hid, hfd, hreceived]
    exact hans
  · refine ⟨rfl, rfl, rfl, fun hans => ?_⟩
    rw [Answerable, hreceived]
    exact hans

theorem Grows.trans {st'' : Server} (h : Grows st st') (h' : Grows st' st'') : Grows st st'' := by
  refine ⟨fun t k hk => ?_, fun e he => h'.received e (h.received e he)⟩
  obtain ⟨k', hk', hname, hspec, hfd, hans⟩ := h.instances t k hk
  obtain ⟨k'', hk'', hname', hspec', hfd', hans'⟩ := h'.instances t k' hk'
  exact ⟨k'', hk'', hname'.trans hname, hspec'.trans hspec, hfd'.trans hfd, fun h => hans' (hans h)⟩

theorem grows_create {fd : Nat} : Grows st (st.create name spec fd) :=
  ⟨fun _ k hk => ⟨k, create_of_get hk, rfl, rfl, rfl, id⟩, fun _ he => he⟩

theorem grows_place (t : Nat) (spec : AppSpec) (dsts : List Nat) :
    Grows st (st.place t spec dsts) := by
  rw [place_eq]
  exact .of_eq rfl rfl

/-- What `recvTensor` does with an id that is positive. -/
theorem recvTensor_cases {fd : Nat} {tid : Int} (h : recvTensor fd tid st = some st') :
    (tid ≤ 0 ∧ st' = { st with current := Function.update st.current fd none }) ∨
    (0 < tid ∧ ∃ t k id, st.current fd = some t ∧ st.instances[t]? = some k ∧
      k.spec.inputTensors[k.arrived]? = some id ∧ ∃ st1 : Server,
      st1 = ({ st.update t fun k => { k with taskID := tid, arrived := k.arrived + 1 } with
        received := st.received ++ [(fd, tid)] }).place t k.spec (k.spec.getNextDsts id) ∧
      (st' = st1 ∨ st' = st1.create k.name k.spec fd)) := by
  obtain ⟨t, ht, h⟩ := Option.bind_eq_some_iff.mp h
  obtain ⟨k, hk, h⟩ := Option.bind_eq_some_iff.mp h
  obtain ⟨id, hid, h⟩ := Option.bind_eq_some_iff.mp h
  split at h
  case isTrue htid => exact Or.inl ⟨htid, (Option.some.inj h).symm⟩
  case isFalse htid =>
    refine Or.inr ⟨Int.not_le.mp htid, t, k, id, ht, hk, hid, _, rfl, ?_⟩
    dsimp only at h
    split at h
    · exact Or.inr (Option.some.inj h).symm
    · exact Or.inl (Option.some.inj h).symm

theorem test_cases {late : Bool} (h : test late st = some st') :
    ∃ d, st' = { st with dropThread := d } ∧ (d = .idle ∨ ∃ r q,
      st.dropThread = .testing (r :: q) ∧ (d = .testing q ∨ (d = .claimed r q ∧
        ∃ k, st.instances[r.task]? = some k ∧ k.dropped = false))) := by
  unfold test at h
  split at h
  case h_1 => exact ⟨.idle, (Option.some.inj h).symm, Or.inl rfl⟩
  case h_2 r q hcopy =>
    split at h
    case isFalse => exact ⟨.idle, (Option.some.inj h).symm, Or.inl rfl⟩
    case isTrue =>
      obtain ⟨k, hk, h⟩ := Option.bind_eq_some_iff.mp h
      split at h
      case isTrue =>
        exact ⟨_, (Option.some.inj h).symm, Or.inr ⟨r, q, hcopy, Or.inl rfl⟩⟩
      case isFalse hnew =>
        refine ⟨_, (Option.some.inj h).symm, Or.inr ⟨r, q, hcopy, Or.inr ⟨rfl, k, hk, ?_⟩⟩⟩
        simpa using hnew
  case h_3 => cases h

theorem mark_cases (h : mark st = some st') : ∃ r q, st.dropThread = .claimed r q ∧
    st' = { st.update r.task fun k => { k with dropped := true } with
      dropThread := .marked r q } := by
  unfold mark at h
  split at h
  case h_1 r q hclaimed => exact ⟨r, q, hclaimed, (Option.some.inj h).symm⟩
  case h_2 => cases h

theorem drop_cases (h : drop st = some st') : ∃ r q k, st.dropThread = .marked r q ∧
    st.instances[r.task]? = some k ∧
    st' = { st.addtoAppQueue k.name r.task true with dropThread := .testing q } := by
  unfold drop at h
  split at h
  case h_1 r q hmarked =>
    obtain ⟨k, hk, h⟩ := Option.bind_eq_some_iff.mp h
    exact ⟨r, q, k, hmarked, hk, (Option.some.inj h).symm⟩
  case h_2 => cases h

theorem look_cases (h : look name st = some st') : st.dropThread = .idle ∧
    st' = { st with dropThread := .testing (st.reqList name) } := by
  unfold look at h
  split at h
  case h_1 hidle => exact ⟨hidle, (Option.some.inj h).symm⟩
  case h_2 => cases h

theorem pop_cases {thread : Nat} (h : pop thread name st = some st') : ∃ r q,
    st.reqList name = r :: q ∧ st' = { st with
      reqList := Function.update st.reqList name q
      batching := st.batching ++ [(thread, r)] } := by
  unfold pop at h
  split at h
  case h_1 => cases h
  case h_2 r q hq => exact ⟨r, q, hq, (Option.some.inj h).symm⟩

theorem send_eq {thread : Nat} (h : send thread st = some st') : st' = { st with
    batching := st.batching.filter fun e => e.1 != thread
    sent := st.sent ++
      [⟨(st.batching.filter fun e => e.1 == thread).map (·.2), [], none⟩] } := by
  unfold send at h
  dsimp only at h
  split at h
  · cases h
  · exact (Option.some.inj h).symm

theorem finish_cases {i : Nat} (h : finish i st = some st') : ∃ b r rest,
    st.sent[i]? = some b ∧ b.toMark = r :: rest ∧
    st' = { st.update r.task fun k => { k with app := k.app.markFinished r.cgid } with
      sent := st.sent.set i { b with toMark := rest, toSend := b.toSend ++ [r] } } := by
  obtain ⟨b, hb, h⟩ := Option.bind_eq_some_iff.mp h
  split at h
  case h_1 => cases h
  case h_2 r rest hmark => exact ⟨b, r, rest, hb, hmark, (Option.some.inj h).symm⟩

theorem sendResult_cases {i : Nat} (h : sendResult i st = some st') : ∃ b r rest k,
    st.sent[i]? = some b ∧ b.toMark = [] ∧ b.report = none ∧ b.toSend = r :: rest ∧
    st.instances[r.task]? = some k ∧ ∃ st1 : Server,
    st1 = (st.update r.task fun k => { k with app := k.app.isFinished.2 }) ∧
    ((k.app.isFinished.1 = true ∧ st' = { st1 with
      sent := st.sent.set i { b with toSend := rest, report := some r.task } }) ∨
    (k.app.isFinished.1 = false ∧
      st' = { st1 with sent := st.sent.set i { b with toSend := rest } }.place r.task k.spec
        ((k.spec.getNextDsts r.cgid).filter fun dst => !k.spec.isOutput dst))) := by
  obtain ⟨b, hb, h⟩ := Option.bind_eq_some_iff.mp h
  split at h
  case h_1 r rest hmark hreport hsend =>
    obtain ⟨k, hk, h⟩ := Option.bind_eq_some_iff.mp h
    refine ⟨b, r, rest, k, hb, hmark, hreport, hsend, hk, _, rfl, ?_⟩
    dsimp only at h
    split at h
    case isTrue hfin => exact Or.inl ⟨hfin, (Option.some.inj h).symm⟩
    case isFalse hfin =>
      exact Or.inr ⟨by simpa using hfin, (Option.some.inj h).symm⟩
  case h_2 => cases h

theorem report_cases {i : Nat} (h : report i st = some st') : ∃ b t k, st.sent[i]? = some b ∧
    b.report = some t ∧ st.instances[t]? = some k ∧
    st' = { st.addtoAppQueue k.name t false with sent := st.sent.set i { b with report := none } } := by
  obtain ⟨b, hb, h⟩ := Option.bind_eq_some_iff.mp h
  obtain ⟨t, ht, h⟩ := Option.bind_eq_some_iff.mp h
  obtain ⟨k, hk, h⟩ := Option.bind_eq_some_iff.mp h
  exact ⟨b, t, k, hb, ht, hk, (Option.some.inj h).symm⟩

theorem reply_cases (h : reply name st = some st') : ∃ t dropped rest k,
    st.perAppQueue name = (t, dropped) :: rest ∧ st.instances[t]? = some k ∧
    st' = { st with
      perAppQueue := Function.update st.perAppQueue name rest
      replies := st.replies ++ [⟨t, dropped, k.socketFD, k.taskID⟩] } := by
  unfold reply at h
  split at h
  case h_1 => cases h
  case h_2 t dropped rest hq =>
    obtain ⟨k, hk, h⟩ := Option.bind_eq_some_iff.mp h
    exact ⟨t, dropped, rest, k, hq, hk, (Option.some.inj h).symm⟩

theorem connect_cases {fd : Nat} (h : connect apps name fd st = some st') :
    ∃ spec, st' = st.create name spec fd := by
  obtain ⟨app, -, h⟩ := Option.bind_eq_some_iff.mp h
  split at h
  · exact ⟨app.2, (Option.some.inj h).symm⟩
  · cases h

/-- A request thread receives an instance of its own socket. -/
def OwnSocket (st : Server) : Prop :=
  ∀ fd t, st.current fd = some t → ∃ k, st.instances[t]? = some k ∧ k.socketFD = fd

theorem grows_recvTensor {fd : Nat} (tid : Int) (hown : OwnSocket st) (ht : st.current fd = some t) :
    Grows st { st.update t fun k => { k with taskID := tid, arrived := k.arrived + 1 } with
      received := st.received ++ [(fd, tid)] } := by
  obtain ⟨k0, hk0, hfd⟩ := hown fd t ht
  refine ⟨fun u k hk => ⟨_, update_of_get hk, ?_⟩, fun e he => List.mem_append_left _ he⟩
  split
  case isTrue htu =>
    subst htu
    obtain rfl := Option.some.inj (hk0.symm.trans hk)
    refine ⟨rfl, rfl, rfl, fun _ => ⟨Nat.succ_pos _, ?_⟩⟩
    exact List.mem_append_right _ (List.mem_singleton.mpr (by rw [← hfd]))
  case isFalse =>
    exact ⟨rfl, rfl, rfl, fun hans => ⟨hans.1, List.mem_append_left _ hans.2⟩⟩

theorem step_grows {act : Act} (hown : OwnSocket st) (h : step apps act st = some st') :
    Grows st st' := by
  cases act with
  | connect name fd =>
      obtain ⟨spec, rfl⟩ := connect_cases h
      exact grows_create
  | recvTensor fd tid =>
      rcases recvTensor_cases h with ⟨-, rfl⟩ | ⟨-, t, k, id, ht, hk, hid, st1, rfl, hst'⟩
      · exact .of_eq rfl rfl
      · have hplaced := (grows_recvTensor tid hown ht).trans
          (grows_place t k.spec (k.spec.getNextDsts id))
        rcases hst' with rfl | rfl
        · exact hplaced
        · exact hplaced.trans grows_create
  | look name =>
      obtain ⟨-, rfl⟩ := look_cases h
      exact .of_eq rfl rfl
  | test late =>
      obtain ⟨d, rfl, -⟩ := test_cases h
      exact .of_eq rfl rfl
  | mark =>
      obtain ⟨r, q, -, rfl⟩ := mark_cases h
      exact .of_update rfl rfl fun _ => ⟨rfl, rfl, rfl, rfl, rfl⟩
  | drop =>
      obtain ⟨r, q, k, -, -, rfl⟩ := drop_cases h
      exact .of_update rfl rfl fun _ => ⟨rfl, rfl, rfl, rfl, rfl⟩
  | pop thread name =>
      obtain ⟨r, q, -, rfl⟩ := pop_cases h
      exact .of_eq rfl rfl
  | send thread =>
      obtain rfl := send_eq h
      exact .of_eq rfl rfl
  | finish i =>
      obtain ⟨b, r, rest, -, -, rfl⟩ := finish_cases h
      exact .of_update rfl rfl fun _ => ⟨rfl, rfl, rfl, rfl, rfl⟩
  | sendResult i =>
      obtain ⟨b, r, rest, k, -, -, -, -, -, st1, rfl, ⟨-, rfl⟩ | ⟨-, rfl⟩⟩ := sendResult_cases h
      · exact .of_update rfl rfl fun _ => ⟨rfl, rfl, rfl, rfl, rfl⟩
      · have hchecked : Grows st { st.update r.task fun k => { k with app := k.app.isFinished.2 } with
            sent := st.sent.set i { b with toSend := rest } } :=
          .of_update rfl rfl fun _ => ⟨rfl, rfl, rfl, rfl, rfl⟩
        exact hchecked.trans (grows_place _ _ _)
  | report i =>
      obtain ⟨b, t, k, -, -, -, rfl⟩ := report_cases h
      exact .of_update rfl rfl fun _ => ⟨rfl, rfl, rfl, rfl, rfl⟩
  | reply name =>
      obtain ⟨t, dropped, rest, k, -, -, rfl⟩ := reply_cases h
      exact .of_eq rfl rfl

end Replies

end Glet
