import Glet.AppInstance
import Mathlib.Data.List.Nodup

/-!
# Application graphs as dataflow

A request for a node is placed on its model's queue by `recvTensor` when an
input tensor arrives, and by `sendBatchedResults` when another node has
finished, once for each entry of the `output` list of that node. Nothing looks
at the `input` list of the node that is placed: a node with two inputs is
placed when the first of them has finished, and again for the second. And the
request that finds the application finished places nothing.

For graphs in which every model has one input, and every model that is followed
by models leads to an output through one of them, each model is placed exactly
once, after its input.
-/

namespace Glet

/-! ## Graphs -/

namespace AppSpec

variable {spec : AppSpec}

/-- An acyclic graph whose ids are positions and whose `input` and `output`
lists describe the same edges. -/
structure Acyclic (spec : AppSpec) : Prop where
  ids : ∀ (i : Nat) (c : CompDep), spec.modelTable[i]? = some c → c.id = i
  edges : ∀ a b, (spec.getNextDsts a).count b = (spec.inputsOf b).count a
  tensors : ∀ a, spec.isInput a = true → spec.inputsOf a = []
  ranked : ∃ rank : Nat → Nat, ∀ a b, b ∈ spec.getNextDsts a → rank a < rank b

/-- A graph whose edges go to nodes further down its table, as the application
files have them. -/
theorem acyclic_of_table (hids : spec.modelTable.map (·.id) = List.range spec.modelTable.length)
    (hedges : ∀ a < spec.modelTable.length, ∀ b < spec.modelTable.length,
      (spec.getNextDsts a).count b = (spec.inputsOf b).count a)
    (hnext : ∀ a < spec.modelTable.length, ∀ b ∈ spec.getNextDsts a,
      a < b ∧ b < spec.modelTable.length)
    (hprev : ∀ b < spec.modelTable.length, ∀ a ∈ spec.inputsOf b, a < spec.modelTable.length)
    (htensors : ∀ a < spec.modelTable.length, spec.isInput a = true → spec.inputsOf a = []) :
    spec.Acyclic := by
  have houtside : ∀ a, ¬ a < spec.modelTable.length →
      spec.getNextDsts a = [] ∧ spec.inputsOf a = [] := by
    intro a ha
    have hnone : spec.modelTable[a]? = none := List.getElem?_eq_none (Nat.le_of_not_lt ha)
    simp [getNextDsts, inputsOf, hnone]
  refine ⟨?_, ?_, ?_, id, ?_⟩
  · intro i c hc
    have hlt := (List.getElem?_eq_some_iff.mp hc).1
    have hi := congrArg (·[i]?) hids
    rw [List.getElem?_map, hc, List.getElem?_range hlt] at hi
    exact Option.some.inj hi
  · intro a b
    by_cases ha : a < spec.modelTable.length <;> by_cases hb : b < spec.modelTable.length
    · exact hedges a ha b hb
    · rw [(houtside b hb).2, List.count_nil, List.count_eq_zero]
      exact fun hmem => hb (hnext a ha b hmem).2
    · rw [(houtside a ha).1, List.count_nil, eq_comm, List.count_eq_zero]
      exact fun hmem => ha (hprev b hb a hmem)
    · rw [(houtside a ha).1, (houtside b hb).2, List.count_nil, List.count_nil]
  · intro a ha
    by_cases hlt : a < spec.modelTable.length
    · exact htensors a hlt ha
    · exact (houtside a hlt).2
  · intro a b hb
    by_cases hlt : a < spec.modelTable.length
    · exact (hnext a hlt b hb).1
    · rw [(houtside a hlt).1] at hb
      cases hb

/-- The node feeds an output, or is followed by a model that leads to one. -/
inductive LeadsToOutput (spec : AppSpec) : Nat → Prop
  | feeds {n : Nat} : n ∈ spec.getInputforOutput → LeadsToOutput spec n
  | next {n m : Nat} : m ∈ spec.getNextDsts n → spec.isModel m = true →
      LeadsToOutput spec m → LeadsToOutput spec n

/-- Every model has one input, a tensor or another model, and a model that is
followed by models leads to an output through one of them. -/
structure Forest (spec : AppSpec) : Prop where
  single : ∀ m, spec.isModel m = true → ∃ p, spec.inputsOf m = [p] ∧
    (spec.isInput p = true ∨ spec.isModel p = true)
  through : ∀ p m, spec.isModel p = true → spec.isModel m = true → m ∈ spec.getNextDsts p →
    ∃ m' ∈ spec.getNextDsts p, spec.isModel m' = true ∧ LeadsToOutput spec m'

end AppSpec

/-! ## Executions -/

/-- An instance with its requests: those on the queues or in a batch
(`running`), those that are marked finished and wait for
`sendBatchedResults` (`finishing`) and those that are through (`done`). `queued`
has every node that was placed on a queue, `received` the input tensors. -/
structure Flow where
  app : AppInstance
  received : List Nat
  queued : List Nat
  running : List Nat
  finishing : List Nat
  done : List Nat

namespace Flow

inductive Act where
  /-- `recvTensor` for an input tensor. -/
  | recvTensor (id : Nat)
  /-- `allocateOutput` gives a request its result and marks its node. -/
  | finish (id : Nat)
  /-- `sendBatchedResults` handles a request. -/
  | sendResult (id : Nat)

def start (spec : AppSpec) : Flow where
  app := .new spec
  received := []
  queued := []
  running := []
  finishing := []
  done := []

def addtoModelQueue (st : Flow) (ids : List Nat) : Flow :=
  { st with queued := st.queued ++ ids, running := st.running ++ ids }

def step (spec : AppSpec) : Act → Flow → Option Flow
  | .recvTensor id, st =>
      if spec.isInput id ∧ id ∉ st.received then
        some ({ st with received := id :: st.received }.addtoModelQueue (spec.getNextDsts id))
      else none
  | .finish id, st =>
      if id ∈ st.running then
        some { st with
          app := st.app.markFinished id
          running := st.running.erase id
          finishing := id :: st.finishing }
      else none
  | .sendResult id, st =>
      if id ∈ st.finishing then
        let (finished, app) := st.app.isFinished
        let st := { st with app, finishing := st.finishing.erase id, done := id :: st.done }
        if finished then some st
        else some (st.addtoModelQueue ((spec.getNextDsts id).filter fun dst => !spec.isOutput dst))
      else none

/-- The nodes that have finished; input tensors have when they are received. -/
def finished (st : Flow) : List Nat := st.received ++ st.finishing ++ st.done

/-- Every input tensor has arrived and no request is on its way. -/
def Complete (spec : AppSpec) (st : Flow) : Prop :=
  (∀ id, spec.isInput id = true → id ∈ st.received) ∧ st.running = [] ∧ st.finishing = []

/-! ## Accounts of requests -/

variable {spec : AppSpec} {st st' : Flow}

theorem isModel_not_input {m : Nat} (h : spec.isModel m = true) : spec.isInput m = false := by
  unfold AppSpec.isModel at h
  unfold AppSpec.isInput
  cases hc : spec.modelTable[m]? with
  | none => rfl
  | some c =>
      rw [hc] at h
      simp only [Option.any_some, beq_iff_eq] at h ⊢
      rw [h]
      rfl

theorem isModel_not_output {m : Nat} (h : spec.isModel m = true) : spec.isOutput m = false := by
  unfold AppSpec.isModel at h
  unfold AppSpec.isOutput
  cases hc : spec.modelTable[m]? with
  | none => rfl
  | some c =>
      rw [hc] at h
      simp only [Option.any_some, beq_iff_eq] at h ⊢
      rw [h]
      rfl

/-- Where the requests are. `flow` is the account of an edge: a model is placed
once for each time its input was received or went through. -/
structure Inv (spec : AppSpec) (st : Flow) : Prop where
  check : st.app.outputCheck = spec.getInputforOutput
  board : ∀ id, st.app.scoreBoard id = true → id ∈ st.finishing ∨ id ∈ st.done
  received_nodup : st.received.Nodup
  received_input : ∀ id ∈ st.received, spec.isInput id = true
  balance : ∀ id, st.queued.count id =
    st.running.count id + st.finishing.count id + st.done.count id
  tensors : ∀ id, spec.isInput id = true → st.queued.count id = 0
  flow : ∀ m p, spec.isModel m = true → spec.inputsOf m = [p] →
    st.queued.count m = st.received.count p + st.done.count p

theorem inv_start (spec : AppSpec) : Inv spec (start spec) := by
  refine ⟨rfl, ?_, List.nodup_nil, ?_, fun _ => rfl, fun _ _ => rfl, fun _ _ _ _ => rfl⟩
  · intro id hyes
    cases hyes
  · intro id hid
    cases hid

/-- A model is not received, a tensor is not placed. -/
theorem Inv.received_model (h : Inv spec st) {p : Nat} (hp : spec.isModel p = true) :
    st.received.count p = 0 := by
  rw [List.count_eq_zero]
  intro hmem
  have hin := h.received_input p hmem
  rw [isModel_not_input hp] at hin
  cases hin

theorem Inv.done_le (h : Inv spec st) (p : Nat) : st.done.count p ≤ st.queued.count p := by
  rw [h.balance p]
  omega

/-- A model is in the `output` list of its input, once, and in no other. -/
theorem count_dsts (hg : spec.Acyclic) {m p : Nat} (hm : spec.inputsOf m = [p]) (a : Nat) :
    (spec.getNextDsts a).count m = if a = p then 1 else 0 := by
  rw [hg.edges, hm, List.count_singleton]
  by_cases ha : a = p
  · simp [ha]
  · simp [ha, Ne.symm ha]

theorem mem_dsts_iff (hg : spec.Acyclic) {m p : Nat} (hm : spec.inputsOf m = [p]) (a : Nat) :
    m ∈ spec.getNextDsts a ↔ a = p := by
  rw [← List.count_pos_iff, count_dsts hg hm]
  by_cases ha : a = p
  · simp [ha]
  · simp [ha]

/-- Along the edges no account exceeds one. -/
theorem Inv.queued_le_one (h : Inv spec st) (hg : spec.Acyclic) (hf : spec.Forest) {m : Nat}
    (hm : spec.isModel m = true) : st.queued.count m ≤ 1 := by
  obtain ⟨rank, hrank⟩ := hg.ranked
  induction hk : rank m using Nat.strongRecOn generalizing m with
  | _ k ih =>
      obtain ⟨p, hp, hkind⟩ := hf.single m hm
      rw [h.flow m p hm hp]
      rcases hkind with hinput | hmodel
      · have hdone := h.done_le p
        rw [h.tensors p hinput] at hdone
        have hrec := List.nodup_iff_count_le_one.mp h.received_nodup p
        omega
      · have hlt := hrank p m ((mem_dsts_iff hg hp p).mpr rfl)
        have hle := ih (rank p) (hk ▸ hlt) hmodel rfl
        have hdone := h.done_le p
        rw [h.received_model hmodel]
        omega

/-- If everything that feeds an output was placed, so was every model that
leads to one. -/
theorem Inv.leads (h : Inv spec st) (hg : spec.Acyclic) (hf : spec.Forest)
    (hfed : ∀ f ∈ spec.getInputforOutput, 0 < st.queued.count f) {n : Nat}
    (hn : spec.LeadsToOutput n) (hmodel : spec.isModel n = true) : 0 < st.queued.count n := by
  induction hn with
  | feeds hmem => exact hfed _ hmem
  | @next n m hedge hm _ ih =>
      obtain ⟨p, hp, -⟩ := hf.single m hm
      obtain rfl := (mem_dsts_iff hg hp n).mp hedge
      have hplaced := ih hm
      rw [h.flow m n hm hp, h.received_model hmodel, Nat.zero_add] at hplaced
      exact Nat.lt_of_lt_of_le hplaced (h.done_le n)

/-- The request of a model that finds the application finished has no model to
place: one of them would have to be placed already. -/
theorem Inv.last_request (h : Inv spec st) (hg : spec.Acyclic) (hf : spec.Forest) {id : Nat}
    (hid : id ∈ st.finishing) (hall : ∀ f ∈ st.app.outputCheck, st.app.scoreBoard f = true)
    (hmodel : spec.isModel id = true) {m : Nat} (hm : spec.isModel m = true) :
    m ∉ spec.getNextDsts id := by
  intro hedge
  obtain ⟨m', hedge', hm', hleads⟩ := hf.through id m hmodel hm hedge
  obtain ⟨p, hp, -⟩ := hf.single m' hm'
  obtain rfl := (mem_dsts_iff hg hp id).mp hedge'
  have hfed : ∀ f ∈ spec.getInputforOutput, 0 < st.queued.count f := by
    intro f hmem
    rw [← h.check] at hmem
    have hbal := h.balance f
    rcases h.board f (hall f hmem) with hfin | hdone
    · have hpos := List.count_pos_iff.mpr hfin
      omega
    · have hpos := List.count_pos_iff.mpr hdone
      omega
  have hplaced := h.leads hg hf hfed hleads hm'
  rw [h.flow m' id hm' hp, h.received_model hmodel, Nat.zero_add] at hplaced
  have hfin : 0 < st.finishing.count id := List.count_pos_iff.mpr hid
  have hbal := h.balance id
  have hone := h.queued_le_one hg hf hmodel
  omega

/-! ## Steps -/

theorem Inv.recvTensor (h : Inv spec st) (hg : spec.Acyclic) {id : Nat}
    (hstep : step spec (.recvTensor id) st = some st') : Inv spec st' := by
  simp only [step] at hstep
  split at hstep
  case isFalse => cases hstep
  case isTrue hnew =>
    obtain ⟨hinput, hnew⟩ := hnew
    obtain rfl := Option.some.inj hstep
    refine ⟨h.check, h.board, List.nodup_cons.mpr ⟨hnew, h.received_nodup⟩, ?_, ?_, ?_, ?_⟩
    · intro id' hid'
      rcases List.mem_cons.mp hid' with rfl | hold
      · exact hinput
      · exact h.received_input id' hold
    · intro id'
      have hbal := h.balance id'
      simp only [addtoModelQueue, List.count_append]
      omega
    · intro id' hid'
      have hnone : (spec.getNextDsts id).count id' = 0 := by
        rw [hg.edges, hg.tensors id' hid', List.count_nil]
      simp only [addtoModelQueue, List.count_append, hnone, h.tensors id' hid']
    · intro m p hm hp
      have hflow := h.flow m p hm hp
      have hedge := count_dsts hg hp id
      simp only [addtoModelQueue, List.count_append, List.count_cons, beq_iff_eq]
      omega

theorem Inv.finish (h : Inv spec st) {id : Nat}
    (hstep : step spec (.finish id) st = some st') : Inv spec st' := by
  simp only [step] at hstep
  split at hstep
  case isFalse => cases hstep
  case isTrue hrun =>
    obtain rfl := Option.some.inj hstep
    refine ⟨h.check, ?_, h.received_nodup, h.received_input, ?_, h.tensors, h.flow⟩
    · intro id' hyes
      simp only [AppInstance.markFinished] at hyes
      by_cases heq : id' = id
      · exact Or.inl (heq ▸ List.mem_cons_self)
      · rw [Function.update_of_ne heq] at hyes
        rcases h.board id' hyes with hfin | hdone
        · exact Or.inl (List.mem_cons_of_mem _ hfin)
        · exact Or.inr hdone
    · intro id'
      have hbal := h.balance id'
      have hpos := List.count_pos_iff.mpr hrun
      simp only [List.count_erase, List.count_cons, beq_iff_eq]
      by_cases heq : id = id'
      · subst heq
        simp only [if_true]
        omega
      · simp only [heq, if_false]
        omega

/-- What `sendBatchedResults` does for a request: it places the models that
follow, or there are none. -/
theorem sendResult_cases {id : Nat} (hstep : step spec (.sendResult id) st = some st') :
    id ∈ st.finishing ∧ ∃ app : AppInstance, app.outputCheck = st.app.outputCheck ∧
      app.scoreBoard = st.app.scoreBoard ∧
      ((st' = { st with app, finishing := st.finishing.erase id, done := id :: st.done } ∧
          ∀ f ∈ st.app.outputCheck, st.app.scoreBoard f = true) ∨
        st' = { st with app, finishing := st.finishing.erase id, done := id :: st.done
          }.addtoModelQueue ((spec.getNextDsts id).filter fun dst => !spec.isOutput dst)) := by
  simp only [step] at hstep
  split at hstep
  case isFalse => cases hstep
  case isTrue hfin =>
    refine ⟨hfin, st.app.isFinished.2, ?_⟩
    rcases st.app.isFinished_cases with ⟨heq, -⟩ | ⟨heq, -, hall⟩
    · rw [heq] at hstep ⊢
      exact ⟨rfl, rfl, Or.inr (Option.some.inj hstep).symm⟩
    · rw [heq] at hstep ⊢
      exact ⟨rfl, rfl, Or.inl ⟨(Option.some.inj hstep).symm, hall⟩⟩

/-- The models among the nodes that are placed. -/
theorem count_filter_model {m : Nat} (hm : spec.isModel m = true) (dsts : List Nat) :
    (dsts.filter fun dst => !spec.isOutput dst).count m = dsts.count m := by
  rw [List.count_filter]
  rw [isModel_not_output hm]
  rfl

theorem Inv.sendResult (h : Inv spec st) (hg : spec.Acyclic) (hf : spec.Forest) {id : Nat}
    (hstep : step spec (.sendResult id) st = some st') : Inv spec st' := by
  obtain ⟨hfin, app, hcheck, hboard, hst'⟩ := sendResult_cases hstep
  have hpos := List.count_pos_iff.mpr hfin
  have hbalance : ∀ id', st.queued.count id' = st.running.count id' +
      (st.finishing.erase id).count id' + (id :: st.done).count id' := by
    intro id'
    have hbal := h.balance id'
    simp only [List.count_erase, List.count_cons, beq_iff_eq]
    by_cases heq : id = id'
    · subst heq
      simp only [if_true]
      omega
    · simp only [heq, if_false]
      omega
  have hboard' : ∀ id', app.scoreBoard id' = true →
      id' ∈ st.finishing.erase id ∨ id' ∈ id :: st.done := by
    intro id' hyes
    rw [hboard] at hyes
    by_cases heq : id' = id
    · exact Or.inr (heq ▸ List.mem_cons_self)
    · rcases h.board id' hyes with hold | hdone
      · exact Or.inl ((List.mem_erase_of_ne heq).mpr hold)
      · exact Or.inr (List.mem_cons_of_mem _ hdone)
  rcases hst' with ⟨rfl, hall⟩ | rfl
  · refine ⟨hcheck.trans h.check, hboard', h.received_nodup, h.received_input, hbalance,
      h.tensors, ?_⟩
    intro m p hm hp
    have hflow := h.flow m p hm hp
    have hne : id ≠ p := by
      intro heq
      subst heq
      have hmodel : spec.isModel id = true := by
        obtain ⟨p, hp', hkind⟩ := hf.single m hm
        obtain rfl : id = p := by simpa [hp] using hp'
        rcases hkind with hinput | hmodel
        · have hzero := h.tensors id hinput
          rw [h.balance id] at hzero
          omega
        · exact hmodel
      exact h.last_request hg hf hfin hall hmodel hm ((mem_dsts_iff hg hp id).mpr rfl)
    simp only [List.count_cons_of_ne hne]
    exact hflow
  · refine ⟨hcheck.trans h.check, hboard', h.received_nodup, h.received_input, ?_, ?_, ?_⟩
    · intro id'
      have hbal := hbalance id'
      simp only [addtoModelQueue, List.count_append]
      omega
    · intro id' hid'
      have hnone : id' ∉ spec.getNextDsts id := by
        rw [← List.count_eq_zero, hg.edges, hg.tensors id' hid', List.count_nil]
      have hzero : ((spec.getNextDsts id).filter fun dst => !spec.isOutput dst).count id' = 0 :=
        List.count_eq_zero.mpr fun hmem => hnone (List.mem_of_mem_filter hmem)
      simp only [addtoModelQueue, List.count_append, hzero, h.tensors id' hid']
    · intro m p hm hp
      have hflow := h.flow m p hm hp
      have hedge := count_dsts hg hp id
      simp only [addtoModelQueue, List.count_append, count_filter_model hm, List.count_cons,
        beq_iff_eq]
      omega

theorem inv_run (hg : spec.Acyclic) (hf : spec.Forest) {acts : List Act}
    (hrun : Machine.run (step spec) acts (start spec) = some st) : Inv spec st := by
  refine Machine.run_invariant ?_ hrun (inv_start spec)
  intro act st st' h hstep
  cases act with
  | recvTensor id => exact h.recvTensor hg hstep
  | finish id => exact h.finish hstep
  | sendResult id => exact h.sendResult hg hf hstep

/-- When nothing is on its way any more, every model was placed. -/
theorem Inv.queued_complete (h : Inv spec st) (hg : spec.Acyclic) (hf : spec.Forest)
    (hdone : Complete spec st) {m : Nat} (hm : spec.isModel m = true) : 0 < st.queued.count m := by
  obtain ⟨hall, hrunning, hfinishing⟩ := hdone
  obtain ⟨rank, hrank⟩ := hg.ranked
  induction hk : rank m using Nat.strongRecOn generalizing m with
  | _ k ih =>
      obtain ⟨p, hp, hkind⟩ := hf.single m hm
      rw [h.flow m p hm hp]
      rcases hkind with hinput | hmodel
      · have hpos := List.count_pos_iff.mpr (hall p hinput)
        omega
      · have hlt := hrank p m ((mem_dsts_iff hg hp p).mpr rfl)
        have hpos := ih (rank p) (hk ▸ hlt) hmodel rfl
        rw [h.balance p, hrunning, hfinishing] at hpos
        simp only [List.count_nil, Nat.zero_add] at hpos
        omega

/-- **Forests run as dataflow.** In every run, each model is placed at most
once and not before its inputs have finished; and when all tensors have arrived
and nothing is on its way any more, each model was placed once. -/
theorem forest_dataflow (hg : spec.Acyclic) (hf : spec.Forest) {acts : List Act}
    (hrun : Machine.run (step spec) acts (start spec) = some st) {m : Nat}
    (hm : spec.isModel m = true) :
    st.queued.count m ≤ 1 ∧ (m ∈ st.queued → ∀ i ∈ spec.inputsOf m, i ∈ st.finished) ∧
      (Complete spec st → st.queued.count m = 1) := by
  have h := inv_run hg hf hrun
  have hone := h.queued_le_one hg hf hm
  refine ⟨hone, ?_, ?_⟩
  · intro hmem i hi
    obtain ⟨p, hp, -⟩ := hf.single m hm
    obtain rfl : i = p := by simpa [hp] using hi
    have hpos := List.count_pos_iff.mpr hmem
    rw [h.flow m i hm hp] at hpos
    simp only [finished, List.mem_append]
    by_cases hrec : i ∈ st.received
    · exact Or.inl (Or.inl hrec)
    · rw [List.count_eq_zero.mpr hrec, Nat.zero_add] at hpos
      exact Or.inr (List.count_pos_iff.mp hpos)
  · intro hdone
    have hpos := h.queued_complete hg hf hdone hm
    omega

theorem traffic_acyclic : Reporting.traffic.Acyclic :=
  AppSpec.acyclic_of_table (by decide) (by decide) (by decide) (by decide) (by decide)

theorem traffic_forest : Reporting.traffic.Forest := by
  refine ⟨?_, ?_⟩
  · intro m hm
    rcases m with _ | _ | _ | _ | _ | m
    · cases hm
    · exact ⟨0, rfl, Or.inl rfl⟩
    · exact ⟨1, rfl, Or.inr rfl⟩
    · exact ⟨1, rfl, Or.inr rfl⟩
    · cases hm
    · cases hm
  · intro p m hp hm hedge
    rcases p with _ | _ | _ | _ | _ | p
    · cases hp
    · exact ⟨2, by decide, rfl, .feeds (by decide)⟩
    · obtain rfl : m = 4 := List.mem_singleton.mp hedge
      cases hm
    · obtain rfl : m = 4 := List.mem_singleton.mp hedge
      cases hm
    · cases hp
    · cases hp

/-- A run of "traffic" to its end, with both models marked before either is
handled. -/
def trafficRun : List Act :=
  [.recvTensor 0, .finish 1, .sendResult 1, .finish 3, .finish 2, .sendResult 3, .sendResult 2]

theorem forest_dataflow_traffic :
    ∃ st, Machine.run (step Reporting.traffic) trafficRun (start Reporting.traffic) = some st ∧
      st.queued.count 3 = 1 := by
  obtain ⟨st, hrun, hp⟩ := (Option.any_eq_true (fun st : Flow => decide (0 ∈ st.received ∧
    st.running = [] ∧ st.finishing = [])) _).mp (show Option.any _ (Machine.run
      (step Reporting.traffic) trafficRun (start Reporting.traffic)) = true by decide)
  obtain ⟨hrec, hrunning, hfinishing⟩ := of_decide_eq_true hp
  have hcomplete : Complete Reporting.traffic st := by
    refine ⟨?_, hrunning, hfinishing⟩
    intro id hid
    rcases id with _ | _ | _ | _ | _ | id <;> first | exact hrec | cases hid
  exact ⟨st, hrun, (forest_dataflow traffic_acyclic traffic_forest hrun
    (show Reporting.traffic.isModel 3 = true from rfl)).2.2 hcomplete⟩

/-- Two models on the image and one on the results of both. -/
def join : AppSpec :=
  .setupModelDependency [⟨.input, "Input", 0, [], [1, 2]⟩]
    [⟨.model, "googlenet", 1, [0], [3]⟩, ⟨.model, "vgg16", 2, [0], [3]⟩,
      ⟨.model, "lenet1", 3, [1, 2], [4]⟩]
    [⟨.output, "None", 4, [3], []⟩]

theorem join_acyclic : join.Acyclic :=
  AppSpec.acyclic_of_table (by decide) (by decide) (by decide) (by decide) (by decide)

/-- The model that joins two results is placed when the first one is there, and
again for the second one. -/
theorem join_placed_early_and_twice :
    join.Acyclic ∧ join.isModel 3 = true ∧
    (∃ st, Machine.run (step join) [.recvTensor 0, .finish 1, .sendResult 1] (start join) = some st ∧
      3 ∈ st.queued ∧ 2 ∈ join.inputsOf 3 ∧ 2 ∉ st.finished) ∧
    ∃ st, Machine.run (step join) [.recvTensor 0, .finish 1, .sendResult 1, .finish 2,
      .sendResult 2] (start join) = some st ∧ st.queued.count 3 = 2 := by
  refine ⟨join_acyclic, rfl, ?_, ?_⟩
  · obtain ⟨st, hrun, hp⟩ := (Option.any_eq_true (fun st : Flow => decide (3 ∈ st.queued ∧
      2 ∈ join.inputsOf 3 ∧ 2 ∉ st.finished)) _).mp (show Option.any _ (Machine.run (step join)
        [.recvTensor 0, .finish 1, .sendResult 1] (start join)) = true by decide)
    exact ⟨st, hrun, of_decide_eq_true hp⟩
  · obtain ⟨st, hrun, hp⟩ := (Option.any_eq_true (fun st : Flow => decide (st.queued.count 3 = 2))
      _).mp (show Option.any _ (Machine.run (step join) [.recvTensor 0, .finish 1, .sendResult 1,
        .finish 2, .sendResult 2] (start join)) = true by decide)
    exact ⟨st, hrun, of_decide_eq_true hp⟩

end Flow

end Glet
