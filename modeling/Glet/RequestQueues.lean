import Glet.Machine
import Glet.Types
import Mathlib.Data.List.Perm.Basic

/-!
# Request queues

Three kinds of threads share the queue of a model. `addtoModelQueue` appends
requests, batching threads take them from the front, and the lazy drop thread
drops those at the front that are too old. Each holds the model's mutex while
it does so.

The drop thread walks the table of queues with `for(auto it : ...)`, so it
works on a copy of the queue that is made before the mutex is taken. Requests
it drops leave the copy and stay in the queue.
-/

namespace Glet

/-! ## State -/

structure Request where
  id : Nat
  name : String
  start : Int
  deriving DecidableEq

/-- What the drop thread compares ages with. -/
structure DropPolicy where
  dropRatio : ℚ
  perModelSLO : String → Int

/-- `double(now-start)/1000000 > DropRatio * double(getSLO(name))`. -/
def DropPolicy.overdue (d : DropPolicy) (now : Int) (r : Request) : Bool :=
  decide (d.dropRatio * d.perModelSLO r.name < ((now - r.start : Int) : ℚ) / 1000000)

/-- `ReqListHashTable` and the places a request goes to from there. -/
structure Queues where
  reqID : Nat
  /-- The queues of `ReqListHashTable`. -/
  live : String → List Request
  /-- The drop thread's copy of a queue. -/
  copy : Option (List Request)
  /-- Requests in the batches that are being put together, with the thread. -/
  batching : List (Nat × Request)
  /-- Batches that have been sent to a proxy. -/
  sent : List (List Request)
  /-- Requests marked by the drop thread. -/
  dropped : List Nat
  /-- Requests that were ever put into a batch. -/
  batched : List Nat
  compQueue : List Nat

namespace Queues

def start : Queues where
  reqID := 0
  live := fun _ => []
  copy := none
  batching := []
  sent := []
  dropped := []
  batched := []
  compQueue := []

/-- What one critical section does. -/
inductive Act where
  /-- `addtoModelQueue`. -/
  | add (name : String) (now : Int)
  /-- The drop thread's loop reaches the queue of a model. -/
  | look (name : String)
  /-- The drop thread handles its copy; `now i` is the time of its `i`th test. -/
  | drop (now : Nat → Int)
  /-- A batching thread takes a request. -/
  | pop (thread : Nat) (name : String)
  /-- A batching thread sends its batch. -/
  | send (thread : Nat)
  /-- `sendBatchedResults` for a batch that was sent. -/
  | complete (i : Nat)

/-- The requests at the front of a copy that are dropped. -/
def late (d : DropPolicy) (now : Nat → Int) : List Request → Nat → List Request
  | [], _ => []
  | r :: q, i => if d.overdue (now i) r then r :: late d now q (i + 1) else []

def step (d : DropPolicy) : Act → Queues → Option Queues
  | .add name now, st =>
      let r : Request := ⟨st.reqID + 1, name, now⟩
      some { st with
        reqID := st.reqID + 1
        live := Function.update st.live name (st.live name ++ [r]) }
  | .look name, st => some { st with copy := some (st.live name) }
  | .drop now, st => st.copy.map fun q =>
      { st with
        copy := none
        dropped := st.dropped ++ (late d now q 0).map (·.id)
        compQueue := st.compQueue ++ (late d now q 0).map (·.id) }
  | .pop thread name, st =>
      match st.live name with
      | [] => none
      | r :: q => some { st with
          live := Function.update st.live name q
          batching := st.batching ++ [(thread, r)]
          batched := st.batched ++ [r.id] }
  | .send thread, st => some { st with
      batching := st.batching.filter fun e => e.1 != thread
      sent := st.sent ++ [(st.batching.filter fun e => e.1 == thread).map (·.2)] }
  | .complete i, st => st.sent[i]?.map fun batch =>
      { st with
        sent := st.sent.eraseIdx i
        compQueue := st.compQueue ++ batch.map (·.id) }

/-- Nothing is dropped and batched, and nothing is completed twice. -/
def Sound (st : Queues) : Prop :=
  (∀ id ∈ st.dropped, id ∉ st.batched) ∧ st.compQueue.Nodup

/-- The drop thread finds nothing to drop. -/
def NothingLate (d : DropPolicy) (st : Queues) : Act → Prop
  | .drop now => ∀ r ∈ st.copy.bind List.head?, d.overdue (now 0) r = false
  | _ => True

/-! ## Ownership -/

/-- The requests that have left the queues. -/
def taken (st : Queues) : List Nat :=
  st.batching.map (·.2.id) ++ (st.sent.flatten.map (·.id) ++ st.compQueue)

/-- While nothing is dropped, a request is in one place: at one position of its
queue, or at one of those it goes through after a batching thread took it. -/
structure Owned (st : Queues) : Prop where
  dropped : st.dropped = []
  taken_nodup : st.taken.Nodup
  taken_le : ∀ id ∈ st.taken, id ≤ st.reqID
  live_nodup : ∀ name, ((st.live name).map (·.id)).Nodup
  live_le : ∀ name, ∀ r ∈ st.live name, r.id ≤ st.reqID ∧ r.id ∉ st.taken
  live_name : ∀ name name', ∀ r ∈ st.live name, ∀ r' ∈ st.live name', r.id = r'.id → name = name'

variable {d : DropPolicy} {st st' : Queues}

/-- Moving requests between the places they go to after the queue. -/
theorem Owned.moved (h : Owned st) (hlive : st'.live = st.live) (hid : st'.reqID = st.reqID)
    (hdropped : st'.dropped = st.dropped) (hperm : st'.taken.Perm st.taken) : Owned st' where
  dropped := hdropped.trans h.dropped
  taken_nodup := hperm.nodup_iff.mpr h.taken_nodup
  taken_le := by
    intro id hmem
    rw [hid]
    exact h.taken_le id (hperm.mem_iff.mp hmem)
  live_nodup := by
    rw [hlive]
    exact h.live_nodup
  live_le := by
    rw [hlive]
    intro name r hr
    obtain ⟨hle, hnot⟩ := h.live_le name r hr
    rw [hid]
    exact ⟨hle, fun hmem => hnot (hperm.mem_iff.mp hmem)⟩
  live_name := by
    rw [hlive]
    exact h.live_name

theorem Owned.add (h : Owned st) {name : String} {now : Int}
    (hstep : step d (.add name now) st = some st') : Owned st' := by
  obtain rfl := Option.some.inj hstep
  have hmem : ∀ {m : String} {r : Request},
      r ∈ Function.update st.live name (st.live name ++ [⟨st.reqID + 1, name, now⟩]) m →
      r ∈ st.live m ∨ (m = name ∧ r = ⟨st.reqID + 1, name, now⟩) := by
    intro m r hr
    by_cases hm : m = name
    · subst hm
      rw [Function.update_self, List.mem_append, List.mem_singleton] at hr
      exact hr.imp_right fun heq => ⟨rfl, heq⟩
    · rw [Function.update_of_ne hm] at hr
      exact Or.inl hr
  refine ⟨h.dropped, h.taken_nodup, ?_, ?_, ?_, ?_⟩
  · intro id hid
    exact Nat.le_succ_of_le (h.taken_le id hid)
  · intro m
    by_cases hm : m = name
    · subst hm
      simp only [Function.update_self, List.map_append, List.map_cons, List.map_nil]
      rw [List.nodup_append]
      refine ⟨h.live_nodup m, List.nodup_singleton _, ?_⟩
      intro id hid id' hid'
      obtain ⟨r, hr, rfl⟩ := List.mem_map.mp hid
      obtain rfl := List.mem_singleton.mp hid'
      have := (h.live_le m r hr).1
      omega
    · simp only [Function.update_of_ne hm]
      exact h.live_nodup m
  · intro m r hr
    rcases hmem hr with hr | ⟨-, rfl⟩
    · obtain ⟨hle, hnot⟩ := h.live_le m r hr
      exact ⟨Nat.le_succ_of_le hle, hnot⟩
    · refine ⟨le_refl _, fun hid => ?_⟩
      have := h.taken_le _ hid
      simp only at this
      omega
  · intro m m' r hr r' hr' hid
    rcases hmem hr with hold | ⟨hm, hnew⟩
    · rcases hmem hr' with hold' | ⟨-, hnew'⟩
      · exact h.live_name m m' r hold r' hold' hid
      · have := (h.live_le m r hold).1
        rw [hnew'] at hid
        simp only at hid
        omega
    · rcases hmem hr' with hold' | ⟨hm', -⟩
      · have := (h.live_le m' r' hold').1
        rw [hnew] at hid
        simp only at hid
        omega
      · rw [hm, hm']

theorem Owned.pop (h : Owned st) {thread : Nat} {name : String}
    (hstep : step d (.pop thread name) st = some st') : Owned st' := by
  cases hq : st.live name with
  | nil =>
      simp only [step, hq] at hstep
      cases hstep
  | cons r q =>
      simp only [step, hq] at hstep
      obtain rfl := Option.some.inj hstep
      have hr : r ∈ st.live name := by
        rw [hq]
        exact List.mem_cons_self ..
      have hnodup := h.live_nodup name
      rw [hq, List.map_cons, List.nodup_cons] at hnodup
      obtain ⟨hrle, hrnot⟩ := h.live_le name r hr
      have hperm : (List.map (fun e : Nat × Request => e.2.id) (st.batching ++ [(thread, r)]) ++
          (st.sent.flatten.map (·.id) ++ st.compQueue)).Perm (r.id :: st.taken) := by
        rw [List.map_append, List.append_assoc]
        exact List.perm_middle
      have hmem : ∀ {m : String} {r' : Request}, r' ∈ Function.update st.live name q m →
          r' ∈ st.live m ∧ r'.id ≠ r.id := by
        intro m r' hr'
        by_cases hm : m = name
        · subst hm
          rw [Function.update_self] at hr'
          refine ⟨by rw [hq]; exact List.mem_cons_of_mem _ hr', fun heq => ?_⟩
          exact hnodup.1 (heq ▸ List.mem_map_of_mem hr')
        · rw [Function.update_of_ne hm] at hr'
          exact ⟨hr', fun heq => hm (h.live_name m name r' hr' r hr heq)⟩
      refine ⟨h.dropped, ?_, ?_, ?_, ?_, ?_⟩
      · refine hperm.nodup_iff.mpr (List.nodup_cons.mpr ⟨hrnot, h.taken_nodup⟩)
      · intro id hid
        rcases List.mem_cons.mp (hperm.mem_iff.mp hid) with rfl | hid
        · exact hrle
        · exact h.taken_le id hid
      · intro m
        by_cases hm : m = name
        · subst hm
          simp only [Function.update_self]
          exact hnodup.2
        · simp only [Function.update_of_ne hm]
          exact h.live_nodup m
      · intro m r' hr'
        obtain ⟨hlive, hne⟩ := hmem hr'
        obtain ⟨hle, hnot⟩ := h.live_le m r' hlive
        refine ⟨hle, fun hid => ?_⟩
        rcases List.mem_cons.mp (hperm.mem_iff.mp hid) with heq | hid
        · exact hne heq
        · exact hnot hid
      · intro m m' r1 hr1 r2 hr2
        exact h.live_name m m' r1 (hmem hr1).1 r2 (hmem hr2).1

theorem Owned.send (h : Owned st) {thread : Nat}
    (hstep : step d (.send thread) st = some st') : Owned st' := by
  obtain rfl := Option.some.inj hstep
  refine h.moved rfl rfl rfl ?_
  have hsplit := List.filter_append_perm (fun e : Nat × Request => e.1 == thread) st.batching
  have hids := hsplit.map fun e : Nat × Request => e.2.id
  rw [List.perm_iff_count]
  intro id
  have hcount := hids.count_eq id
  simp only [taken, List.flatten_append, List.flatten_cons, List.flatten_nil, List.append_nil,
    List.map_append, List.map_map, List.count_append, Function.comp_def, bne] at hcount ⊢
  omega

theorem Owned.complete (h : Owned st) {i : Nat}
    (hstep : step d (.complete i) st = some st') : Owned st' := by
  obtain ⟨batch, hbatch, rfl⟩ := Option.map_eq_some_iff.mp hstep
  refine h.moved rfl rfl rfl ?_
  obtain ⟨hi, rfl⟩ := List.getElem?_eq_some_iff.mp hbatch
  have hsplit := ((List.getElem_cons_eraseIdx_perm hi).flatten).map (·.id)
  rw [List.perm_iff_count]
  intro id
  have hcount := hsplit.count_eq id
  simp only [taken, List.flatten_cons, List.map_append, List.count_append] at hcount ⊢
  omega

/-- A drop pass that finds nothing late drops nothing. -/
theorem Owned.drop (h : Owned st) {now : Nat → Int} (hlate : NothingLate d st (.drop now))
    (hstep : step d (.drop now) st = some st') : Owned st' := by
  obtain ⟨q, hq, rfl⟩ := Option.map_eq_some_iff.mp hstep
  have hnone : late d now q 0 = [] := by
    cases q with
    | nil => rfl
    | cons r q =>
        have hr := hlate r (by simp [hq])
        rw [late, hr]
        rfl
  refine h.moved rfl rfl ?_ ?_
  · rw [hnone]
    exact List.append_nil _
  · simp only [taken, hnone, List.map_nil, List.append_nil]
    exact List.Perm.refl _

theorem Owned.step {act : Act} (h : Owned st) (hlate : NothingLate d st act)
    (hstep : Queues.step d act st = some st') : Owned st' := by
  cases act with
  | add name now => exact h.add hstep
  | look name =>
      obtain rfl := Option.some.inj hstep
      exact h.moved rfl rfl rfl (List.Perm.refl _)
  | drop now => exact h.drop hlate hstep
  | pop thread name => exact h.pop hstep
  | send thread => exact h.send hstep
  | complete i => exact h.complete hstep

theorem Owned.sound (h : Owned st) : Sound st := by
  refine ⟨?_, ?_⟩
  · rw [h.dropped]
    simp
  · exact (List.nodup_append.mp (List.nodup_append.mp h.taken_nodup).2.1).2.1

instance (d : DropPolicy) (st : Queues) : (act : Act) → Decidable (NothingLate d st act)
  | .drop now => inferInstanceAs (Decidable (∀ r ∈ st.copy.bind List.head?, d.overdue (now 0) r = false))
  | .add _ _ | .look _ | .pop _ _ | .send _ | .complete _ => .isTrue trivial

end Queues

end Glet
