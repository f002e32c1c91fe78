import Glet.LoadControl

/-!
# Waiting for models to be loaded

`loadModel_sync` marks the proxy `LOADING` and sends a load command for each
model that is not loaded, and then waits until the proxy is `RUNNING`. The
commands go through the backend, which marks the proxy `LOADING` once more
before it writes to the proxy's socket.

`loadControl` marks the proxy `RUNNING` when its own queue is empty, and knows
nothing of commands that are still on the way to it. The wait is sound in runs
in which it does not do so while there are any.
-/

namespace Glet.Proxy

/-! ## State -/

/-- Where `loadModel_sync` is, with the models still to be looked at. -/
inductive Frontend where
  | scanning (todo : List (Int × Int))
  /-- Has marked the proxy `LOADING`. -/
  | marked (id batchSize : Int) (todo : List (Int × Int))
  /-- The backend has marked it as well and not yet sent the command. -/
  | forwarding (id batchSize : Int) (todo : List (Int × Int))
  /-- The final `waitProxy` has returned. -/
  | done
  deriving DecidableEq

structure Sync where
  loader : Loader
  frontend : Frontend
  /-- `LoadedModels` of the frontend. -/
  loadedModels : List Int
  /-- Commands on the proxy's input socket. -/
  socket : List Command
  /-- The command that `recvInput` has read and not queued. -/
  recv : Option Command
  deriving DecidableEq

/-- A booted proxy that has loaded some models, and a call of `loadModel_sync`. -/
def Sync.start (loaded : List Int) (models : List (Int × Int)) : Sync where
  loader := ⟨.running, [], loaded, .waiting⟩
  frontend := .scanning models
  loadedModels := loaded
  socket := []
  recv := none

/-- The models that are not yet sent. -/
def Frontend.todo : Frontend → List (Int × Int)
  | .scanning todo => todo
  | .marked id batchSize todo => (id, batchSize) :: todo
  | .forwarding id batchSize todo => (id, batchSize) :: todo
  | .done => []

def Frontend.isForwarding : Frontend → Bool
  | .forwarding .. => true
  | _ => false

namespace Sync

/-! ## Steps -/

inductive Act where
  /-- The model is loaded already, `checkIfLoaded`. -/
  | skip
  /-- The frontend's `markProxy(LOADING)`. -/
  | mark
  /-- The backend's `markProxy(LOADING)`. -/
  | forward
  /-- The backend writes to the socket. -/
  | send
  /-- `waitProxy` reads the state. -/
  | poll
  /-- `recvInput` reads a command. -/
  | read
  | push
  | take
  | perform
  | test
  /-- `loadControl` marks the proxy `RUNNING`. -/
  | markRunning
  deriving DecidableEq

def step : Act → Sync → Option Sync
  | .skip, s =>
      match s.frontend with
      | .scanning (p :: todo) =>
          if p.1 ∈ s.loadedModels then some { s with frontend := .scanning todo } else none
      | _ => none
  | .mark, s =>
      match s.frontend with
      | .scanning (p :: todo) =>
          if p.1 ∈ s.loadedModels then none
          else some { s with
            loader := s.loader.markProxy .loading
            frontend := .marked p.1 p.2 todo }
      | _ => none
  | .forward, s =>
      match s.frontend with
      | .marked id batchSize todo =>
          some { s with
            loader := s.loader.markProxy .loading
            frontend := .forwarding id batchSize todo }
      | _ => none
  | .send, s =>
      match s.frontend with
      | .forwarding id batchSize todo =>
          some { s with
            socket := s.socket ++ [.load id batchSize]
            loadedModels := s.loadedModels ++ [id]
            frontend := .scanning todo }
      | _ => none
  | .poll, s =>
      match s.frontend with
      | .scanning [] => if s.loader.state = .running then some { s with frontend := .done } else some s
      | _ => none
  | .read, s =>
      match s.recv, s.socket with
      | none, q :: rest => some { s with recv := some q, socket := rest }
      | _, _ => none
  | .push, s =>
      match s.recv with
      | some q => (s.loader.push q).map fun l => { s with loader := l, recv := none }
      | none => none
  | .take, s => (s.loader.take false).map fun l => { s with loader := l }
  | .perform, s => s.loader.perform.map fun l => { s with loader := l }
  | .test, s => s.loader.test.map fun l => { s with loader := l }
  | .markRunning, s => s.loader.mark.map fun l => { s with loader := l }

/-- When the final wait has returned, the proxy has loaded every model of the
list. -/
def Loaded (models : List (Int × Int)) (s : Sync) : Prop :=
  s.frontend = .done → ∀ p ∈ models, p.1 ∈ s.loader.loadedModelIDs

/-- When `loadControl` marks the proxy `RUNNING`, no command is between the
backend's mark and the queue of `loadControl`. -/
def NoneOnTheWay (s : Sync) : Act → Prop
  | .markRunning => s.frontend.isForwarding = false ∧ s.socket = [] ∧ s.recv = none
  | _ => True

instance (s : Sync) (a : Act) : Decidable (NoneOnTheWay s a) := by
  unfold NoneOnTheWay
  split <;> infer_instance

/-! ## Commands on the way -/

/-- The commands that are sent and not carried out, in the order in which they
will be. -/
def onTheWay (s : Sync) : List Command :=
  s.loader.pc.commands ++ (s.loader.queue ++ (s.recv.toList ++ s.socket))

structure Inv (models : List (Int × Int)) (s : Sync) : Prop where
  looked : ∀ p ∈ models, p ∈ s.frontend.todo ∨ p.1 ∈ s.loadedModels
  loads : ∀ q ∈ s.onTheWay, ∃ id batchSize, q = .load id batchSize
  sent : ∀ m ∈ s.loadedModels, m ∈ s.loader.loadedModelIDs ∨ ∃ batchSize,
    .load m batchSize ∈ s.onTheWay
  marking : s.loader.pc = .marking → s.loader.queue = []
  forwarding : s.frontend.isForwarding = true → s.loader.state ≠ .running
  running : s.loader.state = .running → ∀ m ∈ s.loadedModels, m ∈ s.loader.loadedModelIDs
  done : s.frontend = .done → ∀ m ∈ s.loadedModels, m ∈ s.loader.loadedModelIDs

variable {models : List (Int × Int)} {s s' : Sync} {a : Act}

theorem inv_start (loaded : List Int) (models : List (Int × Int)) :
    Inv models (start loaded models) where
  looked := fun _ hp => Or.inl hp
  loads := fun _ hq => (by cases hq)
  sent := fun _ hm => Or.inl hm
  marking := fun _ => rfl
  forwarding := fun h => (by cases h)
  running := fun _ _ hm => hm
  done := fun h => (by cases h)

theorem Inv.loaded (h : Inv models s) : Loaded models s := by
  intro hdone p hp
  rcases h.looked p hp with htodo | hmem
  · rw [hdone] at htodo
    cases htodo
  · exact h.done hdone p.1 hmem

/-- A command moves on towards `loadControl`. -/
theorem Inv.moves (h : Inv models s) (hway : s'.onTheWay = s.onTheWay)
    (hfrontend : s'.frontend = s.frontend) (hmodels : s'.loadedModels = s.loadedModels)
    (hloaded : s'.loader.loadedModelIDs = s.loader.loadedModelIDs)
    (hstate : s'.loader.state = s.loader.state)
    (hmarking : s'.loader.pc = .marking → s'.loader.queue = []) : Inv models s' where
  looked := by
    rw [hfrontend, hmodels]
    exact h.looked
  loads := by
    rw [hway]
    exact h.loads
  sent := by
    rw [hway, hmodels, hloaded]
    exact h.sent
  marking := hmarking
  forwarding := by
    rw [hfrontend, hstate]
    exact h.forwarding
  running := by
    rw [hstate, hmodels, hloaded]
    exact h.running
  done := by
    rw [hfrontend, hmodels, hloaded]
    exact h.done

/-- The frontend or the backend marks the proxy `LOADING`. -/
theorem Inv.markLoading (h : Inv models s) {frontend : Frontend}
    (htodo : frontend.todo = s.frontend.todo) (hdone : frontend ≠ .done) :
    Inv models { s with loader := s.loader.markProxy .loading, frontend := frontend } where
  looked := by
    rw [htodo]
    exact h.looked
  loads := h.loads
  sent := h.sent
  marking := h.marking
  forwarding := fun _ => (by simp [Loader.markProxy])
  running := fun hrun => by cases hrun
  done := fun heq => absurd heq hdone

theorem Inv.step (h : Inv models s) (hnone : NoneOnTheWay s a) (hstep : step a s = some s') :
    Inv models s' := by
  cases a <;> simp only [Sync.step] at hstep
  case skip =>
    split at hstep
    case h_2 => cases hstep
    case h_1 p todo hfrontend =>
      split at hstep <;> cases hstep
      case isTrue hmem =>
        refine ⟨?_, h.loads, h.sent, h.marking, fun heq => (by cases heq), h.running,
          fun heq => by cases heq⟩
        intro p' hp'
        rcases h.looked p' hp' with htodo | hin
        · rw [hfrontend] at htodo
          rcases List.mem_cons.mp htodo with rfl | htail
          · exact Or.inr hmem
          · exact Or.inl htail
        · exact Or.inr hin
  case mark =>
    split at hstep
    case h_2 => cases hstep
    case h_1 p todo hfrontend =>
      split at hstep <;> cases hstep
      exact h.markLoading (by rw [hfrontend]; rfl) (by simp)
  case forward =>
    split at hstep
    case h_2 => cases hstep
    case h_1 id batchSize todo hfrontend =>
      cases hstep
      exact h.markLoading (by rw [hfrontend]; rfl) (by simp)
  case send =>
    split at hstep
    case h_2 => cases hstep
    case h_1 id batchSize todo hfrontend =>
      cases hstep
      have hnot := h.forwarding (by rw [hfrontend]; rfl)
      refine ⟨?_, ?_, ?_, h.marking, fun heq => (by cases heq), fun hrun => absurd hrun hnot,
        fun heq => by cases heq⟩
      · intro p hp
        rcases h.looked p hp with htodo | hin
        · rw [hfrontend] at htodo
          rcases List.mem_cons.mp htodo with rfl | htail
          · exact Or.inr (by simp)
          · exact Or.inl htail
        · exact Or.inr (List.mem_append_left _ hin)
      · intro q hq
        simp only [onTheWay, ← List.append_assoc] at hq
        rcases List.mem_append.mp hq with hold | hnew
        · exact h.loads q (by simpa [onTheWay] using hold)
        · exact ⟨id, batchSize, List.mem_singleton.mp hnew⟩
      · intro m hm
        rcases List.mem_append.mp hm with hold | hnew
        · refine (h.sent m hold).imp_right fun ⟨b, hb⟩ => ⟨b, ?_⟩
          simp only [onTheWay, ← List.append_assoc] at hb ⊢
          exact List.mem_append_left _ hb
        · rw [List.mem_singleton.mp hnew]
          exact Or.inr ⟨batchSize, by simp [onTheWay]⟩
  case poll =>
    split at hstep
    case h_2 => cases hstep
    case h_1 hfrontend =>
      split at hstep <;> cases hstep
      case isFalse => exact h
      case isTrue hrun =>
        refine ⟨?_, h.loads, h.sent, h.marking, fun heq => (by cases heq), h.running,
          fun _ => h.running hrun⟩
        intro p hp
        have := h.looked p hp
        rw [hfrontend] at this
        exact this
  case read =>
    split at hstep
    case h_2 => cases hstep
    case h_1 q rest hrecv hsocket =>
      cases hstep
      exact h.moves (by simp [onTheWay, hrecv, hsocket]) rfl rfl rfl rfl h.marking
  case push =>
    split at hstep
    case h_2 => cases hstep
    case h_1 q hrecv =>
      obtain ⟨l, hl, rfl⟩ := Option.map_eq_some_iff.mp hstep
      obtain ⟨hfree, rfl⟩ := Loader.push_eq_some hl
      refine h.moves (by simp [onTheWay, hrecv]) rfl rfl rfl rfl fun hpc => ?_
      have hpc : s.loader.pc = .marking := hpc
      simp [Loader.mtxFree, hpc] at hfree
  case take =>
    obtain ⟨l, hl, rfl⟩ := Option.map_eq_some_iff.mp hstep
    obtain ⟨hpc, ⟨hexit, -⟩ | ⟨-, q, rest, hq, rfl⟩⟩ := Loader.take_eq_some hl
    · cases hexit
    · exact h.moves (by simp [onTheWay, LoaderPc.commands, hpc, hq]) rfl rfl rfl rfl
        fun heq => by cases heq
  case perform =>
    obtain ⟨l, hl, rfl⟩ := Option.map_eq_some_iff.mp hstep
    obtain ⟨q, hpc, rfl⟩ := Loader.perform_eq_some hl
    obtain ⟨id, batchSize, rfl⟩ := h.loads q (by simp [onTheWay, LoaderPc.commands, hpc])
    have hkeep : ∀ m ∈ s.loader.loadedModelIDs,
        m ∈ Loader.carryOut s.loader.loadedModelIDs (.load id batchSize) :=
      fun m hm => Loader.mem_carryOut_load batchSize (Or.inl hm)
    refine ⟨h.looked, ?_, ?_, fun heq => (by cases heq), h.forwarding,
      fun hrun m hm => hkeep m (h.running hrun m hm), fun hd m hm => hkeep m (h.done hd m hm)⟩
    · intro q hq
      exact h.loads q (List.mem_append_right _ hq)
    · intro m hm
      rcases h.sent m hm with hin | ⟨b, hb⟩
      · exact Or.inl (hkeep m hin)
      · rcases List.mem_append.mp hb with hhead | hrest
        · rw [hpc, LoaderPc.commands, List.mem_singleton] at hhead
          obtain ⟨rfl, -⟩ := Command.load.inj hhead
          exact Or.inl (Loader.mem_carryOut_load batchSize (Or.inr rfl))
        · exact Or.inr ⟨b, hrest⟩
  case test =>
    obtain ⟨l, hl, rfl⟩ := Option.map_eq_some_iff.mp hstep
    obtain ⟨hpc, ⟨hq, -, rfl⟩ | rfl⟩ := Loader.test_eq_some hl
    · exact h.moves (by simp [onTheWay, LoaderPc.commands, hpc]) rfl rfl rfl rfl fun _ => hq
    · exact h.moves (by simp [onTheWay, LoaderPc.commands, hpc]) rfl rfl rfl rfl
        fun heq => by cases heq
  case markRunning =>
    obtain ⟨l, hl, rfl⟩ := Option.map_eq_some_iff.mp hstep
    obtain ⟨hpc, rfl⟩ := Loader.mark_eq_some hl
    obtain ⟨hforward, hsocket, hrecv⟩ := hnone
    have hempty : s.onTheWay = [] := by
      simp [onTheWay, LoaderPc.commands, hpc, h.marking hpc, hrecv, hsocket]
    have hall : ∀ m ∈ s.loadedModels, m ∈ s.loader.loadedModelIDs := by
      intro m hm
      rcases h.sent m hm with hin | ⟨b, hb⟩
      · exact hin
      · rw [hempty] at hb
        cases hb
    refine ⟨h.looked, ?_, fun m hm => Or.inl (hall m hm), fun heq => (by cases heq), ?_,
      fun _ => hall, h.done⟩
    · intro q hq
      exact h.loads q (List.mem_append_right _ hq)
    · intro hf
      rw [show s.frontend.isForwarding = false from hforward] at hf
      cases hf

/-- In every run in which `loadControl` marks the proxy `RUNNING` only when no
command is on the way to it, all models are loaded when `loadModel_sync` is done
waiting. -/
theorem loaded_when_running {acts : List Act} {loaded : List Int}
    (hrun : Machine.run step acts (start loaded models) = some s)
    (hnone : Machine.Along step NoneOnTheWay acts (start loaded models)) : Loaded models s :=
  (Machine.run_along (fun _ _ _ hI hC hs => Inv.step hI hC hs) hnone hrun
    (inv_start loaded models)).loaded

/-- One model is loaded, the other is loaded already. -/
theorem loaded_when_running_one :
    ∃ s, Machine.run step [.mark, .forward, .send, .skip, .read, .push, .poll, .take, .perform, .test,
        .markRunning, .poll] (start [7] [(3, 8), (7, 8)]) = some s ∧ s.frontend = .done ∧
      Loaded [(3, 8), (7, 8)] s := by
  have hrun : Machine.run step [.mark, .forward, .send, .skip, .read, .push, .poll, .take, .perform,
      .test, .markRunning, .poll] (start [7] [(3, 8), (7, 8)]) = some _ := rfl
  exact ⟨_, hrun, rfl, loaded_when_running hrun (by decide)⟩

/-- `loadControl` is done with the first model while the command for the second
is on the socket: it marks the proxy `RUNNING`, and the wait returns. -/
theorem running_before_loaded :
    ∃ s, Machine.run step [.mark, .forward, .send, .read, .push, .take, .mark, .forward, .send,
        .perform, .test, .markRunning, .poll] (start [] [(3, 8), (7, 8)]) = some s ∧
      s.frontend = .done ∧ s.loader.loadedModelIDs = [3] ∧ ¬ Loaded [(3, 8), (7, 8)] s := by
  refine ⟨_, rfl, rfl, rfl, fun h => ?_⟩
  exact absurd (h rfl (7, 8) (by decide)) (by decide)

end Sync

end Glet.Proxy
