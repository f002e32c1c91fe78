import Glet.Machine
import Mathlib.Data.List.Count

/-!
# Application instances

An application is a graph of input tensors, models and outputs. While an
instance of it runs, output threads mark the nodes that have finished on the
instance's score board and ask whether the whole application has. Marking and
asking are separate critical sections under `finishMtx`, so between the two
other threads may do either.
-/

namespace Glet

/-! ## Application graphs -/

inductive CompType where
  | input
  | model
  | output
  deriving DecidableEq

/-- A node of an application graph; `input` and `output` are node ids. -/
structure CompDep where
  type : CompType
  name : String
  id : Nat
  input : List Nat
  output : List Nat
  deriving DecidableEq

/-- `_ModelTable`: input tensors, models, outputs. -/
structure AppSpec where
  modelTable : List CompDep

namespace AppSpec

/-- `setupModelDependency`, for the entries of "Input", "Models" and "Output". -/
def setupModelDependency (inputs models outputs : List CompDep) : AppSpec where
  modelTable :=
    inputs.map (fun c => { c with type := .input, name := "Input", input := [] }) ++
    models.map (fun c => { c with type := .model }) ++
    outputs.map (fun c => { c with type := .output, output := [] })

variable (spec : AppSpec)

/-- `getNextDsts`; the table is indexed by node id. -/
def getNextDsts (currId : Nat) : List Nat := ((spec.modelTable[currId]?).map (·.output)).getD []

/-- The input list of a node. -/
def inputsOf (id : Nat) : List Nat := ((spec.modelTable[id]?).map (·.input)).getD []

def isOutput (id : Nat) : Bool := (spec.modelTable[id]?).any fun c => c.type == .output

/-- Is the node a model? -/
def isModel (id : Nat) : Bool := (spec.modelTable[id]?).any fun c => c.type == .model

/-- Is the node an input tensor? -/
def isInput (id : Nat) : Bool := (spec.modelTable[id]?).any fun c => c.type == .input

/-- `getInputforOutput`. -/
def getInputforOutput : List Nat :=
  (spec.modelTable.filter fun c => c.type == .output).flatMap (·.input)

end AppSpec

/-! ## The score board -/

structure AppInstance where
  scoreBoard : Nat → Bool
  outputCheck : List Nat
  reported : Bool

namespace AppInstance

/-- The constructor, with `setupScoreBoard`. -/
def new (spec : AppSpec) : AppInstance where
  scoreBoard := fun _ => false
  outputCheck := spec.getInputforOutput
  reported := false

def markFinished (app : AppInstance) (id : Nat) : AppInstance :=
  { app with scoreBoard := Function.update app.scoreBoard id true }

def isFinished (app : AppInstance) : Bool × AppInstance :=
  if app.reported then (false, app)
  else
    let finished := app.outputCheck.all app.scoreBoard
    (finished, { app with reported := finished })

/-- What a check answers, and what it leaves. -/
theorem isFinished_cases (app : AppInstance) :
    (app.isFinished = (false, app) ∧ (app.reported = true ∨ ∃ id ∈ app.outputCheck,
      app.scoreBoard id = false)) ∨
    (app.isFinished = (true, { app with reported := true }) ∧ app.reported = false ∧
      ∀ id ∈ app.outputCheck, app.scoreBoard id = true) := by
  unfold isFinished
  split
  case isTrue hrep => exact Or.inl ⟨rfl, Or.inl hrep⟩
  case isFalse hrep =>
    have hfalse : app.reported = false := by simpa using hrep
    cases hall : app.outputCheck.all app.scoreBoard with
    | true => exact Or.inr ⟨rfl, hfalse, List.all_eq_true.mp hall⟩
    | false =>
        refine Or.inl ⟨by simp [← hfalse], Or.inr ?_⟩
        obtain ⟨id, hid, hno⟩ := List.all_eq_false.mp hall
        exact ⟨id, hid, by simpa using hno⟩

end AppInstance

/-! ## Threads that mark and check -/

/-- An instance with the threads that have marked a node and not checked yet;
the nodes marked so far and the number of checks that answered `true`. -/
structure Reporting where
  app : AppInstance
  waiting : List Nat
  marked : List Nat
  replies : Nat

namespace Reporting

inductive Act where
  | markFinished (thread id : Nat)
  | isFinished (thread : Nat)

def start (spec : AppSpec) : Reporting where
  app := .new spec
  waiting := []
  marked := []
  replies := 0

/-- Each thread alternates: it marks a node and checks later. -/
def step : Act → Reporting → Option Reporting
  | .markFinished thread id, st =>
      if thread ∈ st.waiting then none
      else some { st with
        app := st.app.markFinished id
        waiting := thread :: st.waiting
        marked := id :: st.marked }
  | .isFinished thread, st =>
      if thread ∈ st.waiting then
        some { st with
          app := st.app.isFinished.2
          waiting := st.waiting.erase thread
          replies := st.replies + if st.app.isFinished.1 then 1 else 0 }
      else none

/-- The board shows what was marked; the flag is set exactly if one check has
answered `true`, which needs all nodes marked; and if they are all marked and
no check has answered, some thread still has to check. -/
structure Inv (fed : List Nat) (st : Reporting) : Prop where
  check : st.app.outputCheck = fed
  board : ∀ id, st.app.scoreBoard id = true ↔ id ∈ st.marked
  replies : st.replies = if st.app.reported then 1 else 0
  reported : st.app.reported = true → ∀ id ∈ fed, id ∈ st.marked
  pending : st.app.reported = false → (∀ id ∈ fed, id ∈ st.marked) → st.waiting ≠ []

variable {fed : List Nat} {st st' : Reporting}

theorem Inv.markFinished (h : Inv fed st) {thread id : Nat}
    (hstep : step (.markFinished thread id) st = some st') : Inv fed st' := by
  simp only [step] at hstep
  split at hstep
  case isTrue => cases hstep
  case isFalse =>
    obtain rfl := Option.some.inj hstep
    refine ⟨h.check, ?_, h.replies, ?_, ?_⟩
    · intro id'
      simp only [AppInstance.markFinished, List.mem_cons]
      by_cases heq : id' = id
      · simp [heq]
      · simp [heq, h.board id']
    · intro hrep id' hid'
      exact List.mem_cons_of_mem _ (h.reported hrep id' hid')
    · intro _ _
      exact List.cons_ne_nil _ _

theorem Inv.isFinished (h : Inv fed st) {thread : Nat}
    (hstep : step (.isFinished thread) st = some st') : Inv fed st' := by
  simp only [step] at hstep
  split at hstep
  case isFalse => cases hstep
  case isTrue =>
    obtain rfl := Option.some.inj hstep
    rcases st.app.isFinished_cases with ⟨heq, hwhy⟩ | ⟨heq, hrep, hall⟩
    · rw [heq]
      refine ⟨h.check, h.board, by simpa using h.replies, h.reported, ?_⟩
      intro hrep hmarked
      rcases hwhy with hyes | ⟨id, hid, hno⟩
      · have hboth : true = false := hyes.symm.trans hrep
        cases hboth
      · rw [h.check] at hid
        rw [(h.board id).mpr (hmarked id hid)] at hno
        cases hno
    · rw [heq]
      refine ⟨h.check, h.board, ?_, ?_, ?_⟩
      · have hzero := h.replies
        rw [hrep] at hzero
        simpa using hzero
      · intro _ id hid
        rw [← h.check] at hid
        exact (h.board id).mp (hall id hid)
      · intro hno
        cases hno

theorem inv_run {spec : AppSpec} (hfed : spec.getInputforOutput ≠ []) {acts : List Act}
    (hrun : Machine.run step acts (start spec) = some st) : Inv spec.getInputforOutput st := by
  refine Machine.run_invariant ?_ hrun ⟨rfl, by simp [start, AppInstance.new], rfl, ?_, ?_⟩
  · intro act st st' h hstep
    cases act with
    | markFinished thread id => exact h.markFinished hstep
    | isFinished thread => exact h.isFinished hstep
  · intro hrep
    cases hrep
  · intro _ hall
    obtain ⟨id, hid⟩ := List.exists_mem_of_ne_nil _ hfed
    cases hall id hid

/-- **Every instance is reported once.** For every graph with a node that feeds
an output, and every interleaving of threads that mark and check: at most one
check answers `true`, none does before all nodes that feed an output are
marked, and exactly one does if they all are and no thread has a check left. -/
theorem reported_once {spec : AppSpec} (hfed : spec.getInputforOutput ≠ []) {acts : List Act}
    (hrun : Machine.run step acts (start spec) = some st) :
    st.replies ≤ 1 ∧
    (1 ≤ st.replies → ∀ id ∈ spec.getInputforOutput, id ∈ st.marked) ∧
    (st.waiting = [] → (∀ id ∈ spec.getInputforOutput, id ∈ st.marked) → st.replies = 1) := by
  have h := inv_run hfed hrun
  have hreplies := h.replies
  cases hrep : st.app.reported with
  | true =>
      rw [hrep] at hreplies
      simp only [if_true] at hreplies
      exact ⟨by omega, fun _ => h.reported hrep, fun _ _ => hreplies⟩
  | false =>
      rw [hrep] at hreplies
      simp only [Bool.false_eq_true, if_false] at hreplies
      exact ⟨by omega, fun hone => by omega, fun hdone hall => absurd hdone (h.pending hrep hall)⟩

/-- The application "traffic": one model on the image, two on its result. -/
def traffic : AppSpec :=
  .setupModelDependency [⟨.input, "Input", 0, [], [1]⟩]
    [⟨.model, "ssd-mobilenetv1", 1, [0], [2, 3]⟩, ⟨.model, "googlenet", 2, [1], [4]⟩,
      ⟨.model, "vgg16", 3, [1], [4]⟩]
    [⟨.output, "None", 4, [2, 3], []⟩]

/-- Two threads mark the last two models before either checks. -/
theorem reported_once_traffic :
    ∃ st, Machine.run step [.markFinished 0 1, .isFinished 0, .markFinished 0 2, .markFinished 1 3,
        .isFinished 1, .isFinished 0] (start traffic) = some st ∧ st.replies = 1 := by
  obtain ⟨st, hrun, hp⟩ := (Option.any_eq_true (fun st : Reporting => decide (st.waiting = [] ∧
    ∀ id ∈ traffic.getInputforOutput, id ∈ st.marked)) _).mp (show Option.any _ (Machine.run step
      [.markFinished 0 1, .isFinished 0, .markFinished 0 2, .markFinished 1 3, .isFinished 1,
        .isFinished 0] (start traffic)) = true by decide)
  obtain ⟨hdone, hall⟩ := of_decide_eq_true hp
  exact ⟨st, hrun, (reported_once (by decide) hrun).2.2 hdone hall⟩

end Reporting

end Glet
