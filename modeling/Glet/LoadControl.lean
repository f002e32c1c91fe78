import Glet.Machine

/-!
# Loading and unloading inside a proxy

Frontend, backend and proxy share one word per proxy, its state. Inside the
proxy, `recvInput` queues the load and unload commands it reads and
`loadControl` carries them out, one at a time and with the mutex of the queue.
After each it looks whether the queue is empty and whether the state is
`EXITING`; if not, it marks the proxy `RUNNING`. The test of the state and the
mark are two accesses to the shared word.
-/

namespace Glet.Proxy

/-- `proxy_state`. -/
inductive ProxyState where
  | cold
  | booting
  | running
  | loading
  | exiting
  | flushed
  deriving DecidableEq

/-- A command in `g_ControlQueue`. -/
inductive Command where
  | load (jobID batchSize : Int)
  | unload (jobID : Int)
  deriving DecidableEq

/-- Where `loadControl` is. -/
inductive LoaderPc where
  | waiting
  /-- Has taken a command. -/
  | working (q : Command)
  /-- Has carried it out. -/
  | worked
  /-- Is about to mark the proxy `RUNNING`. -/
  | marking
  | exited
  deriving DecidableEq

/-- The command that was taken and not yet carried out. -/
def LoaderPc.commands : LoaderPc → List Command
  | .working q => [q]
  | _ => []

/-- What `loadControl` works on. -/
structure Loader where
  state : ProxyState
  queue : List Command
  loadedModelIDs : List Int
  pc : LoaderPc
  deriving DecidableEq

namespace Loader

variable {l l' : Loader} {q : Command}

/-- `loadModel` and `unloadModel`. -/
def carryOut (loaded : List Int) : Command → List Int
  | .load jobID _ => if jobID ∈ loaded then loaded else loaded ++ [jobID]
  | .unload jobID => loaded.erase jobID

/-- `g_CqueueMtx` is free. -/
def mtxFree (l : Loader) : Bool := l.pc = .waiting ∨ l.pc = .exited

def markProxy (l : Loader) (state : ProxyState) : Loader := { l with state := state }

/-- `pushToQueue`, by `recvInput`. -/
def push (l : Loader) (q : Command) : Option Loader :=
  if l.mtxFree then some { l with queue := l.queue ++ [q] } else none

/-- The end of the wait; with `g_exitFlag` the thread ends. -/
def take (exitFlag : Bool) (l : Loader) : Option Loader :=
  match l.pc, exitFlag, l.queue with
  | .waiting, true, _ => some { l with pc := .exited }
  | .waiting, false, q :: rest => some { l with queue := rest, pc := .working q }
  | _, _, _ => none

def perform (l : Loader) : Option Loader :=
  match l.pc with
  | .working q => some { l with loadedModelIDs := carryOut l.loadedModelIDs q, pc := .worked }
  | _ => none

def test (l : Loader) : Option Loader :=
  match l.pc with
  | .worked =>
      some { l with pc := if l.queue = [] ∧ l.state ≠ .exiting then .marking else .waiting }
  | _ => none

def mark (l : Loader) : Option Loader :=
  match l.pc with
  | .marking => some { l with state := .running, pc := .waiting }
  | _ => none

theorem push_eq_some (h : l.push q = some l') :
    l.mtxFree = true ∧ l' = { l with queue := l.queue ++ [q] } := by
  unfold push at h
  split at h
  case isFalse => cases h
  case isTrue hfree => exact ⟨hfree, (Option.some.inj h).symm⟩

theorem take_eq_some {exitFlag : Bool} (h : l.take exitFlag = some l') :
    l.pc = .waiting ∧ ((exitFlag = true ∧ l' = { l with pc := .exited }) ∨
      (exitFlag = false ∧ ∃ q rest, l.queue = q :: rest ∧
        l' = { l with queue := rest, pc := .working q })) := by
  unfold take at h
  split at h
  case h_1 hpc => exact ⟨hpc, Or.inl ⟨rfl, (Option.some.inj h).symm⟩⟩
  case h_2 q rest hpc hq => exact ⟨hpc, Or.inr ⟨rfl, q, rest, hq, (Option.some.inj h).symm⟩⟩
  case h_3 => cases h

theorem perform_eq_some (h : l.perform = some l') :
    ∃ q, l.pc = .working q ∧
      l' = { l with loadedModelIDs := carryOut l.loadedModelIDs q, pc := .worked } := by
  unfold perform at h
  split at h
  case h_1 q hpc => exact ⟨q, hpc, (Option.some.inj h).symm⟩
  case h_2 => cases h

theorem test_eq_some (h : l.test = some l') :
    l.pc = .worked ∧
      ((l.queue = [] ∧ l.state ≠ .exiting ∧ l' = { l with pc := .marking }) ∨
        l' = { l with pc := .waiting }) := by
  unfold test at h
  split at h
  case h_2 => cases h
  case h_1 hpc =>
    obtain rfl := Option.some.inj h
    by_cases hmark : l.queue = [] ∧ l.state ≠ .exiting
    · rw [if_pos hmark]
      exact ⟨hpc, Or.inl ⟨hmark.1, hmark.2, rfl⟩⟩
    · rw [if_neg hmark]
      exact ⟨hpc, Or.inr rfl⟩

theorem mark_eq_some (h : l.mark = some l') :
    l.pc = .marking ∧ l' = { l with state := .running, pc := .waiting } := by
  unfold mark at h
  split at h
  case h_1 hpc => exact ⟨hpc, (Option.some.inj h).symm⟩
  case h_2 => cases h

/-- A load leaves the loaded models loaded. -/
theorem mem_carryOut_load {loaded : List Int} {jobID m : Int} (batchSize : Int)
    (h : m ∈ loaded ∨ m = jobID) : m ∈ carryOut loaded (.load jobID batchSize) := by
  simp only [carryOut]
  split
  case isTrue hmem =>
    rcases h with h | rfl
    · exact h
    · exact hmem
  case isFalse => simpa using h

end Loader

end Glet.Proxy
