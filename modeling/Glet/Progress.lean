import Glet.Instances
import Glet.Potential
import Mathlib.Order.Interval.Finset.Nat

/-!
# Progress

With graphs whose edges do not run in circles the server gets through its work.
A request has a weight: its own steps, and the weights of the requests its result
places. The weights of all requests, the answers to give and the drops that are
still possible make a potential, and a tensor that arrives adds a bounded amount
to it. So in every run there is only so much work for each arrival.
-/

namespace Glet

/-- The edges have a direction. -/
def AppSpec.Ranked (spec : AppSpec) : Prop :=
  ∃ rank : Nat → Nat, ∀ a b, b ∈ spec.getNextDsts a → rank a < rank b

theorem AppSpec.Acyclic.isRanked {spec : AppSpec} (h : spec.Acyclic) : spec.Ranked := h.ranked

namespace Replies

variable {apps : List (String × AppSpec)} {st st' : Server} {t u n G : Nat} {k : Instance}
  {name : String} {spec : AppSpec}

/-! ## Weights -/

/-- A weight pays for the result of a request and for each request it places,
which takes three more steps. -/
def Enough (spec : AppSpec) (v : Nat → Nat) : Prop :=
  ∀ c, 3 + ((spec.getNextDsts c).map fun d => v d + 3).sum ≤ v c

/-- The weights for paths of a given length. -/
def weight (spec : AppSpec) : Nat → Nat → Nat
  | 0, _ => 3
  | m + 1, c => 3 + ((spec.getNextDsts c).map fun d => weight spec m d + 3).sum

theorem weight_mono {m m' : Nat} (h : m ≤ m') (c : Nat) : weight spec m c ≤ weight spec m' c := by
  induction m generalizing m' c with
  | zero =>
      cases m' with
      | zero => exact le_refl _
      | succ m' => exact Nat.le_add_right _ _
  | succ m ih =>
      obtain ⟨m', rfl⟩ := Nat.exists_eq_add_of_lt h
      refine Nat.add_le_add_left (List.sum_le_sum fun d _ => ?_) 3
      exact Nat.add_le_add_right (ih (by omega) d) 3

theorem exists_weight (h : spec.Ranked) : ∃ v G, Enough spec v ∧ ∀ c, v c ≤ G := by
  obtain ⟨rank, hrank⟩ := h
  let len := spec.modelTable.length
  let top := (Finset.range len).sup rank
  let paths : Nat → Nat := fun c => if c < len then top + 1 - rank c else 0
  have hin : ∀ c d, d ∈ spec.getNextDsts c → c < len := by
    intro c d hd
    by_contra hc
    rw [AppSpec.getNextDsts, List.getElem?_eq_none (Nat.not_lt.mp hc)] at hd
    cases hd
  have htop : ∀ c, c < len → rank c ≤ top := fun c hc => Finset.le_sup (Finset.mem_range.mpr hc)
  have hpaths : ∀ c d, d ∈ spec.getNextDsts c → paths d < paths c := by
    intro c d hd
    have hc := hin c d hd
    have hle := htop c hc
    have hlt := hrank c d hd
    simp only [paths, if_pos hc]
    split
    · omega
    · omega
  refine ⟨fun c => weight spec (paths c) c, 3 + (Finset.range len).sup fun c => weight spec (paths c) c,
    fun c => ?_, fun c => ?_⟩
  · show 3 + ((spec.getNextDsts c).map fun d => weight spec (paths d) d + 3).sum ≤
      weight spec (paths c) c
    cases hm : paths c with
    | zero =>
        have hnil : spec.getNextDsts c = [] :=
          List.eq_nil_iff_forall_not_mem.mpr fun d hd => by
            have := hpaths c d hd
            omega
        rw [hnil]
        exact le_refl 3
    | succ m =>
        refine Nat.add_le_add_left (List.sum_le_sum fun d hd => ?_) 3
        have hlt := hpaths c d hd
        exact Nat.add_le_add_right (weight_mono (by omega) d) 3
  · by_cases hc : c < len
    · exact le_trans (Finset.le_sup (f := fun c => weight spec (paths c) c) (Finset.mem_range.mpr hc))
        (Nat.le_add_left _ _)
    · simp only [paths, if_neg hc]
      exact Nat.le_add_right _ _

/-- One bound does for all applications. -/
theorem exists_bound (h : ∀ app ∈ apps, app.2.Ranked) :
    ∃ G, ∀ app ∈ apps, ∃ v, Enough app.2 v ∧ ∀ c, v c ≤ G := by
  induction apps with
  | nil => exact ⟨0, nofun⟩
  | cons app apps ih =>
      obtain ⟨hhead, htail⟩ := List.forall_mem_cons.mp h
      obtain ⟨v, G, hpays, hle⟩ := exists_weight hhead
      obtain ⟨G', hrest⟩ := ih htail
      refine ⟨G + G', List.forall_mem_cons.mpr ⟨⟨v, hpays, fun c => ?_⟩, fun app' happ => ?_⟩⟩
      · have := hle c
        omega
      · obtain ⟨v', hpays', hle'⟩ := hrest app' happ
        refine ⟨v', hpays', fun c => ?_⟩
        have := hle' c
        omega

/-! ## The potential -/

/-- Weights for the requests of all instances. -/
structure Weighs (apps : List (String × AppSpec)) (G : Nat) (st : Server) (w : Request → Nat) :
    Prop where
  app : ∀ (t : Nat) k, st.instances[t]? = some k → k.spec ∈ apps.map (·.2)
  pays : ∀ (t : Nat) k, st.instances[t]? = some k → Enough k.spec fun c => w ⟨t, c⟩
  le : ∀ r, w r ≤ G

/-- The requests of a batch, and its report with the answer. -/
def Batch.owes (w : Request → Nat) (b : Batch) : Nat :=
  (b.toMark.map fun r => w r + 1).sum + (b.toSend.map w).sum + if b.report.isSome then 2 else 0

/-- The number of drops. -/
def Server.drops (st : Server) : Nat := st.reports.countP (·.2)

/-- `reqs` and `answers` have what is on the queues. -/
def Server.owes (w : Request → Nat) (reqs : List (String × Request))
    (answers : List (String × Nat × Bool)) (st : Server) : Nat :=
  (reqs.map fun e => w e.2 + 3).sum + (st.batching.map fun e => w e.2 + 2).sum +
    (st.sent.map (Batch.owes w)).sum + answers.length + (2 * st.instances.length - st.drops)

/-- What is left to do. -/
def Potential (apps : List (String × AppSpec)) (G : Nat) (st : Server) (n : Nat) : Prop :=
  ∃ w reqs answers, Weighs apps G st w ∧ Table.Lists st.reqList reqs ∧
    Table.Lists st.perAppQueue answers ∧ n = st.owes w reqs answers

/-- A thread gets on with a request or an answer. -/
def Act.works : Act → Bool
  | .pop _ _ => true
  | .send _ => true
  | .finish _ => true
  | .sendResult _ => true
  | .report _ => true
  | .reply _ => true
  | _ => false

/-- Something comes from a client. -/
def Act.arrives : Act → Bool
  | .connect _ _ => true
  | .recvTensor _ _ => true
  | _ => false

def Act.cost (act : Act) : Nat := if act.works then 1 else 0

/-- Of a tensor that arrives, for weights up to `G`. -/
def Act.gain (G : Nat) (act : Act) : Nat := if act.arrives then G + 2 else 0

/-- An instance is dropped twice at most. -/
theorem drops_le (hv : Valid st) (hb : Books st) : st.drops ≤ 2 * st.instances.length := by
  have hlen : st.drops = ((st.reports.filter (·.2)).map (·.1)).length := by
    rw [List.length_map, Server.drops, List.countP_eq_length_filter]
  rw [hlen]
  refine List.length_le_of_count_le (fun t ht => ?_) fun t => ?_
  · obtain ⟨e, he, rfl⟩ := List.mem_map.mp ht
    obtain ⟨k, hk, -⟩ := hv.reports e (List.mem_filter.mp he).1
    exact (List.getElem?_eq_some_iff.mp hk).1
  · have hcount : ((st.reports.filter (·.2)).map (·.1)).count t = st.reports.count (t, true) := by
      rw [List.count, List.countP_map, List.countP_filter]
      refine List.countP_congr fun e _ => ?_
      simp [Prod.ext_iff]
    have hmost := hb.atMost t
    have hone := finished_le_one hv hb t
    omega

/-! ## Steps -/

variable {w w' : Request → Nat} {reqs : List (String × Request)}
  {answers : List (String × Nat × Bool)} {f : Instance → Instance} {dsts : List Nat}

theorem Weighs.of_specs (h : Weighs apps G st w) (hspec : ∀ (t : Nat) k',
    st'.instances[t]? = some k' → ∃ k, st.instances[t]? = some k ∧ k'.spec = k.spec) :
    Weighs apps G st' w := by
  refine ⟨fun t k' hk' => ?_, fun t k' hk' => ?_, h.le⟩
  · obtain ⟨k, hk, heq⟩ := hspec _ k' hk'
    exact heq ▸ h.app _ k hk
  · obtain ⟨k, hk, heq⟩ := hspec t k' hk'
    exact heq ▸ h.pays t k hk

theorem Weighs.same (h : Weighs apps G st w) (heq : st'.instances = st.instances) :
    Weighs apps G st' w :=
  h.of_specs fun _ k' hk' => ⟨k', heq ▸ hk', rfl⟩

theorem Weighs.update (h : Weighs apps G st w) (hf : ∀ k, (f k).spec = k.spec)
    (heq : st'.instances = (st.update u f).instances) : Weighs apps G st' w := by
  refine h.of_specs fun t k' hk' => ?_
  rw [heq] at hk'
  obtain ⟨k, hk, rfl⟩ := get_of_update hk'
  refine ⟨k, hk, ?_⟩
  split
  · exact hf k
  · rfl

theorem Weighs.paid {c : Nat} (h : Weighs apps G st w) (hk : st.instances[t]? = some k) :
    3 + ((k.spec.getNextDsts c).map fun d => w ⟨t, d⟩ + 3).sum ≤ w ⟨t, c⟩ :=
  h.pays t k hk c

/-- Placing requests raises the potential by their weights. -/
theorem lists_place (w : Request → Nat) (t : Nat) (spec : AppSpec) (dsts : List Nat)
    (h : Table.Lists st.reqList reqs) : ∃ reqs',
    Table.Lists (st.place t spec dsts).reqList reqs' ∧ (reqs'.map fun e => w e.2 + 3).sum =
      (reqs.map fun e => w e.2 + 3).sum + (dsts.map fun d => w ⟨t, d⟩ + 3).sum := by
  induction dsts generalizing st reqs with
  | nil => exact ⟨reqs, h, rfl⟩
  | cons dst dsts ih =>
      have hpushed : Table.Lists (st.addtoModelQueue (spec.getModelName dst) ⟨t, dst⟩).reqList
          ((spec.getModelName dst, ⟨t, dst⟩) :: reqs) := h.push (spec.getModelName dst) ⟨t, dst⟩
      obtain ⟨reqs', hlists, hsum⟩ := ih hpushed
      refine ⟨reqs', hlists, ?_⟩
      simp only [List.map_cons, List.sum_cons] at hsum ⊢
      omega

theorem Alive.lt (h : Alive st t) : t < st.instances.length := by
  obtain ⟨k, hk, -⟩ := h
  exact (List.getElem?_eq_some_iff.mp hk).1

/-- Only the weights of instances that are there count. -/
theorem owes_congr (hv : Valid st) (hreqs : Table.Lists st.reqList reqs)
    (hsame : ∀ r : Request, r.task < st.instances.length → w' r = w r) :
    st.owes w' reqs answers = st.owes w reqs answers := by
  have hqueued : (reqs.map fun e => w' e.2 + 3) = reqs.map fun e => w e.2 + 3 := by
    refine List.map_congr_left fun e he => ?_
    rw [hsame e.2 (hv.queued e.1 e.2 (hreqs.mem.mp he)).alive.lt]
  have hbatching : (st.batching.map fun e => w' e.2 + 2) = st.batching.map fun e => w e.2 + 2 := by
    refine List.map_congr_left fun e he => ?_
    rw [hsame e.2 (hv.batching e he).lt]
  have hsent : st.sent.map (Batch.owes w') = st.sent.map (Batch.owes w) := by
    refine List.map_congr_left fun b hb => ?_
    have halive := (hv.sent b hb).1
    have hmark : (b.toMark.map fun r => w' r + 1) = b.toMark.map fun r => w r + 1 :=
      List.map_congr_left fun r hr => by rw [hsame r (halive r (List.mem_append_left _ hr)).lt]
    have hsend : b.toSend.map w' = b.toSend.map w :=
      List.map_congr_left fun r hr => hsame r (halive r (List.mem_append_right _ hr)).lt
    rw [Batch.owes, hmark, hsend, Batch.owes]
  rw [Server.owes, hqueued, hbatching, hsent, Server.owes]

theorem Potential.create {fd : Nat} (h : Potential apps G st n) (hv : Valid st) (hb : Books st)
    (hbound : ∀ app ∈ apps, ∃ v, Enough app.2 v ∧ ∀ c, v c ≤ G) (hspec : spec ∈ apps.map (·.2)) :
    Potential apps G (st.create name spec fd) (n + 2) := by
  obtain ⟨w, reqs, answers, hw, hreqs, hanswers, rfl⟩ := h
  obtain ⟨app, happ, rfl⟩ := List.mem_map.mp hspec
  obtain ⟨v, henough, hle⟩ := hbound app happ
  let w' : Request → Nat := fun r => if r.task = st.instances.length then v r.cgid else w r
  have hsame : ∀ r : Request, r.task < st.instances.length → w' r = w r :=
    fun r hr => if_neg (Nat.ne_of_lt hr)
  have hnew : ∀ c, w' ⟨st.instances.length, c⟩ = v c := fun c => if_pos rfl
  have hinstances : ∀ (t : Nat) k, (st.create name app.2 fd).instances[t]? = some k →
      (st.instances[t]? = some k ∧ ∀ c, w' ⟨t, c⟩ = w ⟨t, c⟩) ∨
        (k.spec = app.2 ∧ ∀ c, w' ⟨t, c⟩ = v c) := by
    intro t k hk
    rcases Nat.lt_or_ge t st.instances.length with hlt | hge
    · rw [Server.create, List.getElem?_append_left hlt] at hk
      exact Or.inl ⟨hk, fun c => hsame ⟨t, c⟩ hlt⟩
    · rw [Server.create, List.getElem?_append_right hge] at hk
      rw [List.getElem?_singleton] at hk
      split at hk
      case isFalse => cases hk
      case isTrue hzero =>
        obtain rfl := Option.some.inj hk
        obtain rfl : t = st.instances.length := by omega
        exact Or.inr ⟨rfl, hnew⟩
  refine ⟨w', reqs, answers, ⟨fun t k hk => ?_, fun t k hk => ?_, fun r => ?_⟩, hreqs, hanswers, ?_⟩
  · rcases hinstances t k hk with ⟨hk, -⟩ | ⟨hk, -⟩
    · exact hw.app t k hk
    · exact hk ▸ hspec
  · rcases hinstances t k hk with ⟨hk, hw'⟩ | ⟨hk, hw'⟩
    · simp only [hw']
      exact hw.pays t k hk
    · simp only [hw', hk]
      exact henough
  · simp only [w']
    split
    · exact hle r.cgid
    · exact hw.le r
  · have hdrops := drops_le hv hb
    rw [← owes_congr hv hreqs hsame]
    simp only [Server.owes, Server.create, Server.drops, List.length_append, List.length_singleton]
      at hdrops ⊢
    omega

/-- What is placed for a node that has its result. -/
theorem Potential.place (id : Nat) (h : Potential apps G st n) (hk : st.instances[t]? = some k) :
    ∃ n', Potential apps G (st.place t k.spec (k.spec.getNextDsts id)) n' ∧ n' ≤ n + G := by
  obtain ⟨w, reqs, answers, hw, hreqs, hanswers, rfl⟩ := h
  obtain ⟨reqs', hreqs', hsum⟩ := lists_place w t k.spec (k.spec.getNextDsts id) hreqs
  have hpaid := hw.paid (c := id) hk
  have hle := hw.le ⟨t, id⟩
  have hplaced : st.place t k.spec (k.spec.getNextDsts id) = _ := place_eq
  refine ⟨_, ⟨w, reqs', answers, hw.same (by rw [hplaced]), hreqs', ?_, rfl⟩, ?_⟩
  · rw [hplaced]
    exact hanswers
  · rw [hplaced]
    simp only [Server.owes, Server.drops, hsum]
    omega

theorem Potential.recvTensor {fd : Nat} {tid : Int} (h : Potential apps G st n) (hv : Valid st)
    (hb : Books st) (hbound : ∀ app ∈ apps, ∃ v, Enough app.2 v ∧ ∀ c, v c ≤ G)
    (hstep : recvTensor fd tid st = some st') :
    ∃ n', Potential apps G st' n' ∧ n' ≤ n + (G + 2) := by
  rcases recvTensor_cases hstep with ⟨-, rfl⟩ | ⟨-, t, k, id, ht, hk, hid, st1, rfl, hst'⟩
  · obtain ⟨w, reqs, answers, hw, hreqs, hanswers, rfl⟩ := h
    exact ⟨_, ⟨w, reqs, answers, hw.same rfl, hreqs, hanswers, rfl⟩, Nat.le_add_right _ _⟩
  · let k' := { k with taskID := tid, arrived := k.arrived + 1 }
    let st0 := { st.update t fun k => { k with taskID := tid, arrived := k.arrived + 1 } with
      received := st.received ++ [(fd, tid)] }
    have hk' : st0.instances[t]? = some k' := (update_of_get hk).trans (by rw [if_pos rfl])
    have hv0 : Valid st0 := hv.received tid ht
    have hb0 : Books st0 := hb.next (instances_of_update rfl fun _ _ => ⟨rfl, rfl, fun h => h⟩) rfl rfl
      rfl (fun _ => rfl) fun _ => Or.inl
    have h0 : Potential apps G st0 n := by
      obtain ⟨w, reqs, answers, hw, hreqs, hanswers, rfl⟩ := h
      refine ⟨w, reqs, answers, hw.update (u := t)
        (f := fun k => { k with taskID := tid, arrived := k.arrived + 1 }) (fun _ => rfl) rfl,
        hreqs, hanswers, ?_⟩
      simp only [st0, Server.owes, Server.drops, Server.update, List.length_modify]
    obtain ⟨n1, h1, hle⟩ := h0.place id hk'
    rcases hst' with rfl | rfl
    · exact ⟨n1, h1, by omega⟩
    · have hv1 := hv0.place (k.spec.getNextDsts id) hk' (answerable_received hv.own ht hk)
      have hspec : k.spec ∈ apps.map (·.2) := by
        obtain ⟨w, -, -, hw, -⟩ := h
        exact hw.app t k hk
      exact ⟨n1 + 2, h1.create hv1 hb0.place hbound hspec, by omega⟩

/-! ## Work -/

/-- Steps of the drop thread that report nothing. -/
theorem Potential.still (h : Potential apps G st n)
    (hinstances : st'.instances = (st.update u f).instances) (hf : ∀ k, (f k).spec = k.spec)
    (hreqs : st'.reqList = st.reqList) (hbatching : st'.batching = st.batching)
    (hsent : st'.sent = st.sent) (hanswers : st'.perAppQueue = st.perAppQueue)
    (hreports : st'.reports = st.reports) : Potential apps G st' n := by
  obtain ⟨w, reqs, answers, hw, hlists, hanswered, rfl⟩ := h
  refine ⟨w, reqs, answers, hw.update hf hinstances, hreqs ▸ hlists, hanswers ▸ hanswered, ?_⟩
  simp only [Server.owes, Server.drops, hbatching, hsent, hreports, hinstances, Server.update,
    List.length_modify]

theorem Potential.drop (h : Potential apps G st n) (hv' : Valid st') (hb' : Books st')
    (hstep : drop st = some st') : Potential apps G st' n := by
  obtain ⟨w, reqs, answers, hw, hreqs, hanswers, rfl⟩ := h
  have hdrops := drops_le hv' hb'
  obtain ⟨r, q, k, -, hk, rfl⟩ := drop_cases hstep
  refine ⟨w, reqs, _, hw.update (f := fun k => { k with dropped := true }) (fun _ => rfl) rfl, hreqs,
    hanswers.push k.name (r.task, true), ?_⟩
  simp only [Server.owes, Server.drops, Server.addtoAppQueue, Server.update, List.length_modify,
    List.countP_append, List.countP_singleton, List.length_cons, if_true] at hdrops ⊢
  omega

theorem Potential.pop {thread : Nat} (h : Potential apps G st n) (hstep : pop thread name st = some st') :
    ∃ n', Potential apps G st' n' ∧ n' + 1 ≤ n := by
  obtain ⟨w, reqs, answers, hw, hreqs, hanswers, rfl⟩ := h
  obtain ⟨r, q, hq, rfl⟩ := pop_cases hstep
  obtain ⟨hperm, hrest⟩ := hreqs.pull hq
  have hsum := (hperm.map fun e => w e.2 + 3).sum_eq
  refine ⟨_, ⟨w, _, answers, hw.same rfl, hrest, hanswers, rfl⟩, ?_⟩
  simp only [Server.owes, Server.drops, List.map_append, List.sum_append, List.map_cons, List.map_nil,
    List.sum_cons, List.sum_nil] at hsum ⊢
  omega

/-- Sending a batch takes a step off each of its requests. -/
theorem owes_batch (l : List (Nat × Request)) :
    Batch.owes w ⟨l.map (·.2), [], none⟩ + l.length = (l.map fun e => w e.2 + 2).sum := by
  induction l with
  | nil => rfl
  | cons e l ih =>
      simp only [Batch.owes, List.map_cons, List.sum_cons, List.length_cons] at ih ⊢
      omega

theorem Potential.send {thread : Nat} (h : Potential apps G st n) (hstep : send thread st = some st') :
    ∃ n', Potential apps G st' n' ∧ n' + 1 ≤ n := by
  obtain ⟨w, reqs, answers, hw, hreqs, hanswers, rfl⟩ := h
  unfold Replies.send at hstep
  dsimp only at hstep
  split at hstep
  case isTrue => cases hstep
  case isFalse hne =>
    obtain rfl := Option.some.inj hstep
    have hsplit := ((List.filter_append_perm (fun e => e.1 == thread) st.batching).map
      fun e => w e.2 + 2).sum_eq
    have hpos := List.length_pos_iff.mpr hne
    have hbatch := owes_batch (w := w) (st.batching.filter fun e => e.1 == thread)
    refine ⟨_, ⟨w, reqs, answers, hw.same rfl, hreqs, hanswers, rfl⟩, ?_⟩
    rw [List.length_map] at hpos
    simp only [List.map_append, List.sum_append] at hsplit
    simp only [Server.owes, Server.drops, List.map_append, List.sum_append, List.map_cons, List.map_nil,
      List.sum_cons, List.sum_nil, bne]
    omega

theorem Potential.finish {i : Nat} (h : Potential apps G st n) (hstep : finish i st = some st') :
    ∃ n', Potential apps G st' n' ∧ n' + 1 ≤ n := by
  obtain ⟨w, reqs, answers, hw, hreqs, hanswers, rfl⟩ := h
  obtain ⟨b, r, rest, hb, hmark, rfl⟩ := finish_cases hstep
  have hset := List.sum_map_set (Batch.owes w) hb { b with toMark := rest, toSend := b.toSend ++ [r] }
  refine ⟨_, ⟨w, reqs, answers, hw.update (u := r.task)
    (f := fun k => { k with app := k.app.markFinished r.cgid }) (fun _ => rfl) rfl, hreqs, hanswers, rfl⟩, ?_⟩
  simp only [Batch.owes, hmark, List.map_cons, List.sum_cons, List.map_append, List.sum_append,
    List.map_nil, List.sum_nil] at hset
  simp only [Server.owes, Server.drops, Server.update, List.length_modify]
  omega

theorem Potential.sendResult {i : Nat} (h : Potential apps G st n) (hstep : sendResult i st = some st') :
    ∃ n', Potential apps G st' n' ∧ n' + 1 ≤ n := by
  obtain ⟨w, reqs, answers, hw, hreqs, hanswers, rfl⟩ := h
  obtain ⟨b, r, rest, k, hb, hmark, hreport, hsend, hk, st1, rfl, ⟨-, rfl⟩ | ⟨-, rfl⟩⟩ :=
    sendResult_cases hstep
  · have hpaid : _ ≤ w r := hw.paid hk
    have hset := List.sum_map_set (Batch.owes w) hb { b with toSend := rest, report := some r.task }
    refine ⟨_, ⟨w, reqs, answers, hw.update (u := r.task)
      (f := fun k => { k with app := k.app.isFinished.2 }) (fun _ => rfl) rfl, hreqs, hanswers, rfl⟩, ?_⟩
    simp only [Batch.owes, hreport, hsend, List.map_cons, List.sum_cons, Option.isSome_none,
      Option.isSome_some, Bool.false_eq_true, if_true, if_false] at hset
    simp only [Server.owes, Server.drops, Server.update, List.length_modify]
    omega
  · have hpaid : _ ≤ w r := hw.paid hk
    have hset := List.sum_map_set (Batch.owes w) hb { b with toSend := rest }
    have hsub := (List.filter_sublist (p := fun dst => !k.spec.isOutput dst)
      (l := k.spec.getNextDsts r.cgid)).map fun d => w ⟨r.task, d⟩ + 3
    have hfewer := hsub.sum_le_sum fun _ _ => Nat.zero_le _
    let st1 : Server := { st.update r.task fun k => { k with app := k.app.isFinished.2 } with
      sent := st.sent.set i { b with toSend := rest } }
    have hreqs1 : Table.Lists st1.reqList reqs := hreqs
    obtain ⟨reqs', hreqs', hsum⟩ := lists_place w r.task k.spec
      ((k.spec.getNextDsts r.cgid).filter fun dst => !k.spec.isOutput dst) hreqs1
    refine ⟨_, ⟨w, reqs', answers, hw.update (u := r.task)
      (f := fun k => { k with app := k.app.isFinished.2 }) (fun _ => rfl) (by rw [place_eq]), hreqs',
      by rw [place_eq]; exact hanswers, rfl⟩, ?_⟩
    rw [place_eq]
    simp only [Batch.owes, hsend, List.map_cons, List.sum_cons] at hset
    simp only [Server.owes, Server.drops, Server.update, List.length_modify, hsum]
    omega

theorem Potential.report {i : Nat} (h : Potential apps G st n) (hstep : report i st = some st') :
    ∃ n', Potential apps G st' n' ∧ n' + 1 ≤ n := by
  obtain ⟨w, reqs, answers, hw, hreqs, hanswers, rfl⟩ := h
  obtain ⟨b, t, k, hb, hreport, hk, rfl⟩ := report_cases hstep
  have hset := List.sum_map_set (Batch.owes w) hb { b with report := none }
  refine ⟨_, ⟨w, reqs, _, hw.update (u := t) (f := fun k => { k with dropped := false }) (fun _ => rfl) rfl,
    hreqs, hanswers.push k.name (t, false), rfl⟩, ?_⟩
  simp only [Batch.owes, hreport, Option.isSome_none, Option.isSome_some, Bool.false_eq_true, if_true,
    if_false] at hset
  simp only [Server.owes, Server.drops, Server.addtoAppQueue, Server.update, List.length_modify,
    List.countP_append, List.countP_singleton, List.length_cons, Bool.false_eq_true, if_false]
  omega

theorem Potential.reply (h : Potential apps G st n) (hstep : reply name st = some st') :
    ∃ n', Potential apps G st' n' ∧ n' + 1 ≤ n := by
  obtain ⟨w, reqs, answers, hw, hreqs, hanswers, rfl⟩ := h
  obtain ⟨t, dropped, rest, k, hq, hk, rfl⟩ := reply_cases hstep
  obtain ⟨hperm, hrest⟩ := hanswers.pull hq
  have hlen := hperm.length_eq
  refine ⟨_, ⟨w, reqs, _, hw.same rfl, hreqs, hrest, rfl⟩, ?_⟩
  simp only [Server.owes, Server.drops, List.length_cons] at hlen ⊢
  omega

theorem pays_step (hbound : ∀ app ∈ apps, ∃ v, Enough app.2 v ∧ ∀ c, v c ≤ G) :
    Machine.Pays (step apps) (fun _ => True) (fun st n => Valid st ∧ Books st ∧ Potential apps G st n)
      Act.cost (Act.gain G) := by
  rintro act st st' n - ⟨hv, hb, h⟩ hstep
  have hv' := hv.step hstep
  have hb' := hb.step hv hstep
  suffices hnext : ∃ n', Potential apps G st' n' ∧ n' + act.cost ≤ n + act.gain G by
    obtain ⟨n', h', hle⟩ := hnext
    exact ⟨n', ⟨hv', hb', h'⟩, hle⟩
  cases act with
  | connect name fd =>
      obtain ⟨app, happ, hstep⟩ := Option.bind_eq_some_iff.mp hstep
      have hmem := List.mem_reverse.mp (List.mem_of_find?_eq_some happ)
      split at hstep
      case isFalse => cases hstep
      case isTrue =>
        obtain rfl := Option.some.inj hstep
        refine ⟨_, h.create hv hb hbound (List.mem_map_of_mem hmem), ?_⟩
        show n + 2 + 0 ≤ n + (G + 2)
        omega
  | recvTensor fd tid => exact h.recvTensor hv hb hbound hstep
  | look name =>
      obtain ⟨-, rfl⟩ := look_cases hstep
      exact ⟨n, h.still (u := 0) (f := id) (List.modify_id _ _).symm (fun _ => rfl) rfl rfl rfl rfl rfl, le_refl n⟩
  | test late =>
      obtain ⟨d, rfl, -⟩ := test_cases hstep
      exact ⟨n, h.still (u := 0) (f := id) (List.modify_id _ _).symm (fun _ => rfl) rfl rfl rfl rfl rfl, le_refl n⟩
  | mark =>
      obtain ⟨r, q, -, rfl⟩ := mark_cases hstep
      exact ⟨n, h.still (u := r.task) rfl (fun _ => rfl) rfl rfl rfl rfl rfl, le_refl n⟩
  | drop => exact ⟨n, h.drop hv' hb' hstep, le_refl n⟩
  | pop thread name => exact h.pop hstep
  | send thread => exact h.send hstep
  | finish i => exact h.finish hstep
  | sendResult i => exact h.sendResult hstep
  | report i => exact h.report hstep
  | reply name => exact h.reply hstep

/-! ## Rest -/

/-- No request is on a queue, in a batch or at an output thread, and no
application has to answer. -/
structure AtRest (st : Server) : Prop where
  reqList : ∀ name, st.reqList name = []
  batching : st.batching = []
  sent : ∀ b ∈ st.sent, b.toMark = [] ∧ b.toSend = [] ∧ b.report = none
  perAppQueue : ∀ name, st.perAppQueue name = []

theorem AtRest.quiet (h : AtRest st) (t : Nat) (k : Instance) : Quiet st t k := by
  refine ⟨fun name r hr => ?_, fun e he => ?_, fun b hb => ?_, fun e he => ?_⟩
  · rw [h.reqList] at hr
    cases hr
  · rw [h.batching] at he
    cases he
  · obtain ⟨hmark, hsend, hreport⟩ := h.sent b hb
    rw [hmark, hsend, hreport]
    exact ⟨nofun, nofun⟩
  · rw [h.perAppQueue] at he
    cases he

/-- Only the queues of the models and applications that instances have can hold
anything. -/
theorem AtRest.of_names {names apps : List String} (hv : Valid st)
    (hinstances : ∀ k ∈ st.instances, k.name ∈ apps ∧ ∀ id, k.spec.getModelName id ∈ names)
    (hqueues : ∀ name ∈ names, st.reqList name = []) (hbatching : st.batching = [])
    (hsent : ∀ b ∈ st.sent, b.toMark = [] ∧ b.toSend = [] ∧ b.report = none)
    (hanswers : ∀ name ∈ apps, st.perAppQueue name = []) : AtRest st := by
  refine ⟨fun name => ?_, hbatching, hsent, fun name => ?_⟩
  · refine List.eq_nil_iff_forall_not_mem.mpr fun r hr => ?_
    obtain ⟨k, hk, -, hname⟩ := hv.queued name r hr
    have hmem := (hinstances k (List.mem_of_getElem? hk)).2 r.cgid
    rw [hqueues name (hname ▸ hmem)] at hr
    cases hr
  · refine List.eq_nil_iff_forall_not_mem.mpr fun e he => ?_
    obtain ⟨k, hk, -, hname⟩ := hv.answering name e he
    have hmem := (hinstances k (List.mem_of_getElem? hk)).1
    rw [hanswers name (hname ▸ hmem)] at he
    cases he

theorem potential_start : Potential apps G start 0 :=
  ⟨fun _ => 0, [], [], ⟨nofun, nofun, fun _ => Nat.zero_le G⟩, Table.lists_nil, Table.lists_nil, rfl⟩

/-- **Work is bounded.** With graphs whose edges have a direction and any
interleaving, drops included, there is a bound on the work for each thing that
arrives from a client. -/
theorem work_bounded (hranked : ∀ app ∈ apps, app.2.Ranked) : ∃ C, ∀ acts st,
    Machine.run (step apps) acts start = some st →
      acts.countP Act.works ≤ C * acts.countP Act.arrives := by
  obtain ⟨G, hbound⟩ := exists_bound hranked
  refine ⟨G + 2, fun acts st hrun => ?_⟩
  obtain ⟨n, -, hle⟩ := (pays_step hbound).run (fun _ _ => trivial) ⟨valid_start, books_start, potential_start⟩ hrun
  have hcost : (acts.map Act.cost).sum = 1 * acts.countP Act.works := List.sum_map_if Act.works 1 acts
  have hgain : (acts.map (Act.gain G)).sum = (G + 2) * acts.countP Act.arrives :=
    List.sum_map_if Act.arrives (G + 2) acts
  rw [hcost, hgain] at hle
  omega

/-- Two models on one tensor. -/
theorem work_bounded_fork : ∃ C, ∀ acts st, Machine.run (step [("fork", fork)]) acts start = some st →
    acts.countP Act.works ≤ C * acts.countP Act.arrives := by
  have hranked : ∀ app ∈ [("fork", fork)], app.2.Ranked := by
    intro app happ
    obtain rfl := List.mem_singleton.mp happ
    exact fork_acyclic.isRanked
  exact work_bounded hranked

end Replies

end Glet
