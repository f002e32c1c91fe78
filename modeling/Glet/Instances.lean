import Glet.Answers

/-!
# Instances as dataflows

Requests of many instances share the queues and the batches. What happens to
one of them is a run of the machine that executes one application graph, with
the requests it has on its way (`instances_are_flows`): other instances and the
drop thread do not disturb it.

So an instance whose graph is a forest is executed to its end, whether it was
dropped or not, and its client is answered (`quiet_answered`).
-/

namespace Glet

/-- Ids are positions. -/
def AppSpec.Numbered (spec : AppSpec) : Prop :=
  ∀ (i : Nat) (c : CompDep), spec.modelTable[i]? = some c → c.id = i

theorem AppSpec.Numbered.input_nodup {spec : AppSpec} (h : spec.Numbered) :
    spec.inputTensors.Nodup := by
  have hids : spec.modelTable.map (·.id) = List.range spec.modelTable.length := by
    refine List.ext_getElem? fun i => ?_
    rw [List.getElem?_map]
    by_cases hi : i < spec.modelTable.length
    · rw [List.getElem?_range hi, List.getElem?_eq_getElem hi]
      exact congrArg some (h i _ (List.getElem?_eq_getElem hi))
    · rw [List.getElem?_eq_none (Nat.not_lt.mp hi), List.getElem?_eq_none (by simpa using hi)]
      rfl
  refine (hids ▸ List.nodup_range : (spec.modelTable.map (·.id)).Nodup).sublist ?_
  exact List.Sublist.map _ List.filter_sublist

theorem AppSpec.Numbered.isInput {spec : AppSpec} (h : spec.Numbered) {id : Nat}
    (hid : id ∈ spec.inputTensors) : spec.isInput id = true := by
  obtain ⟨c, hc, rfl⟩ := List.mem_map.mp hid
  obtain ⟨hmem, htype⟩ := List.mem_filter.mp hc
  obtain ⟨i, hi⟩ := List.mem_iff_getElem?.mp hmem
  rw [AppSpec.isInput, h i c hi, hi]
  exact htype

theorem AppSpec.Numbered.mem_input {spec : AppSpec} (h : spec.Numbered) {id : Nat}
    (hid : spec.isInput id = true) : id ∈ spec.inputTensors := by
  obtain ⟨c, hc, htype⟩ := (Option.any_eq_true _ _).mp hid
  refine List.mem_map.mpr ⟨c, List.mem_filter.mpr ⟨List.mem_of_getElem? hc, htype⟩, ?_⟩
  exact h id c hc

namespace Replies

variable {apps : List (String × AppSpec)} {st st' : Server} {t u c : Nat} {k : Instance}
  {f : Instance → Instance} {name : String} {spec : AppSpec} {dsts : List Nat} {fl : Flow}

/-! ## Requests on their way -/

/-- How often a request is on the queue of its model, in a batch that is put
together, or in one that waits for its result. -/
def Server.unmarked (st : Server) (spec : AppSpec) (r : Request) : Nat :=
  (st.reqList (spec.getModelName r.cgid)).count r + (st.batching.map (·.2)).count r +
    (st.sent.flatMap (·.toMark)).count r

/-- How often it waits for `sendBatchedResults`. -/
def Server.marked (st : Server) (r : Request) : Nat := (st.sent.flatMap (·.toSend)).count r

/-- The flow has the requests of the instance. -/
structure Tracks (st : Server) (t : Nat) (k : Instance) (fl : Flow) : Prop where
  app : fl.app = k.app
  received : ∀ id, id ∈ fl.received ↔ id ∈ k.spec.inputTensors.take k.arrived
  running : ∀ c, fl.running.count c = st.unmarked k.spec ⟨t, c⟩
  finishing : ∀ c, fl.finishing.count c = st.marked ⟨t, c⟩

/-- Every instance is at a state its graph can reach. -/
def Refines (st : Server) : Prop :=
  ∀ (t : Nat) (k : Instance), st.instances[t]? = some k → k.spec.Numbered →
    ∃ fl, Machine.Reaches (Flow.step k.spec) (Flow.start k.spec) fl ∧ Tracks st t k fl

theorem refines_start : Refines start := nofun

theorem count_flatMap_set {g : Batch → List Request} {l : List Batch} {i : Nat} {b d : Batch}
    (h : l[i]? = some b) (r : Request) : ((l.set i d).flatMap g).count r + (g b).count r =
      (l.flatMap g).count r + (g d).count r := by
  induction l generalizing i with
  | nil => cases h
  | cons b0 l ih =>
      cases i with
      | zero =>
          obtain rfl := Option.some.inj h
          simp only [List.set_cons_zero, List.flatMap_cons, List.count_append]
          omega
      | succ i =>
          have hrest := ih (i := i) h
          simp only [List.set_cons_succ, List.flatMap_cons, List.count_append]
          omega

theorem count_place (r : Request) : ((st.place t spec dsts).reqList name).count r =
    (st.reqList name).count r +
      if r.task = t ∧ spec.getModelName r.cgid = name then dsts.count r.cgid else 0 := by
  rw [place_reqList, List.count_append]
  congr 1
  split
  case isTrue h =>
    obtain ⟨rfl, hname⟩ := h
    have hinj : Function.Injective fun dst : Nat => (⟨r.task, dst⟩ : Request) :=
      fun _ _ heq => congrArg Request.cgid heq
    have hcount := List.count_map_of_injective (dsts.filter fun dst => spec.getModelName dst == name)
      _ hinj r.cgid
    rw [hcount, List.count_filter (by simpa using hname)]
  case isFalse h =>
    refine List.count_eq_zero.mpr fun hmem => h ?_
    obtain ⟨dst, hdst, rfl⟩ := List.mem_map.mp hmem
    exact ⟨rfl, by simpa using (List.mem_filter.mp hdst).2⟩

/-- Placing adds to what is on its way. -/
theorem unmarked_place {spec' : AppSpec} (r : Request) :
    (st.place t spec dsts).unmarked spec' r = st.unmarked spec' r +
      if r.task = t ∧ spec.getModelName r.cgid = spec'.getModelName r.cgid then
        dsts.count r.cgid else 0 := by
  rw [Server.unmarked, count_place, place_eq]
  simp only [Server.unmarked]
  omega

theorem marked_place (r : Request) : (st.place t spec dsts).marked r = st.marked r := by
  rw [place_eq]
  rfl

/-! ## Steps of other instances -/

/-- Each instance is where it was, at a state its graph can reach from there, or
new. -/
theorem Refines.next (h : Refines st) (hall : ∀ (t : Nat) (k' : Instance),
    st'.instances[t]? = some k' → k'.spec.Numbered →
      (∃ k, st.instances[t]? = some k ∧ k'.spec = k.spec ∧ ∀ fl, Tracks st t k fl →
        ∃ fl', Machine.Reaches (Flow.step k.spec) fl fl' ∧ Tracks st' t k' fl') ∨
      Tracks st' t k' (Flow.start k'.spec)) : Refines st' := by
  intro t k' hk' hnum
  rcases hall t k' hk' hnum with ⟨k, hk, hspec, hstep⟩ | hnew
  · rw [hspec] at hnum ⊢
    obtain ⟨fl, hreach, htracks⟩ := h t k hk hnum
    obtain ⟨fl', hreach', htracks'⟩ := hstep fl htracks
    exact ⟨fl', hreach.trans hreach', htracks'⟩
  · exact ⟨_, .refl _, hnew⟩

/-- Nothing happened to the requests of the instance. -/
theorem Tracks.same {k' : Instance} (h : Tracks st t k fl) (hspec : k'.spec = k.spec)
    (happ : k'.app = k.app) (harrived : k'.arrived = k.arrived)
    (hunmarked : ∀ c, st'.unmarked k.spec ⟨t, c⟩ = st.unmarked k.spec ⟨t, c⟩)
    (hmarked : ∀ c, st'.marked ⟨t, c⟩ = st.marked ⟨t, c⟩) : Tracks st' t k' fl where
  app := by rw [happ, h.app]
  received := by
    rw [hspec, harrived]
    exact h.received
  running c := by rw [hspec, hunmarked, h.running]
  finishing c := by rw [hmarked, h.finishing]

/-- Steps that move no request and mark no node. -/
theorem Refines.still (h : Refines st)
    (hinstances : ∀ (t : Nat) (k' : Instance), st'.instances[t]? = some k' →
      ∃ k, st.instances[t]? = some k ∧ k'.spec = k.spec ∧ k'.app = k.app ∧ k'.arrived = k.arrived)
    (hunmarked : ∀ (t : Nat) (k : Instance), st.instances[t]? = some k →
      ∀ c, st'.unmarked k.spec ⟨t, c⟩ = st.unmarked k.spec ⟨t, c⟩)
    (hmarked : ∀ r, st'.marked r = st.marked r) : Refines st' := by
  refine h.next fun t k' hk' _ => ?_
  obtain ⟨k, hk, hspec, happ, harrived⟩ := hinstances t k' hk'
  exact Or.inl ⟨k, hk, hspec, fun fl htracks =>
    ⟨fl, .refl fl, htracks.same hspec happ harrived (hunmarked t k hk) fun c => hmarked _⟩⟩

theorem still_of_eq (h : st'.instances = st.instances) (t : Nat) (k' : Instance)
    (hk' : st'.instances[t]? = some k') : ∃ k, st.instances[t]? = some k ∧
      k'.spec = k.spec ∧ k'.app = k.app ∧ k'.arrived = k.arrived :=
  ⟨k', h ▸ hk', rfl, rfl, rfl⟩

theorem still_of_update (h : st'.instances = (st.update u f).instances)
    (hf : ∀ k, (f k).spec = k.spec ∧ (f k).app = k.app ∧ (f k).arrived = k.arrived)
    (t : Nat) (k' : Instance) (hk' : st'.instances[t]? = some k') :
    ∃ k, st.instances[t]? = some k ∧ k'.spec = k.spec ∧ k'.app = k.app ∧ k'.arrived = k.arrived := by
  rw [h] at hk'
  obtain ⟨k, hk, rfl⟩ := get_of_update hk'
  refine ⟨k, hk, ?_⟩
  split
  · exact hf k
  · exact ⟨rfl, rfl, rfl⟩

/-- A batch whose requests stay as they are. -/
theorem batch_still {i : Nat} {b d : Batch} (h : st.sent[i]? = some b)
    (hmark : d.toMark = b.toMark) (hsend : d.toSend = b.toSend) (r : Request) :
    ((st.sent.set i d).flatMap (·.toMark)).count r = (st.sent.flatMap (·.toMark)).count r ∧
      ((st.sent.set i d).flatMap (·.toSend)).count r = (st.sent.flatMap (·.toSend)).count r := by
  have hmarks := count_flatMap_set (g := (·.toMark)) (d := d) h r
  have hsends := count_flatMap_set (g := (·.toSend)) (d := d) h r
  rw [hmark] at hmarks
  rw [hsend] at hsends
  exact ⟨Nat.add_right_cancel hmarks, Nat.add_right_cancel hsends⟩

/-- An instance that is not there has no requests. -/
theorem Valid.no_requests (h : Valid st) (hnone : st.instances[t]? = none) (spec : AppSpec)
    (c : Nat) : st.unmarked spec ⟨t, c⟩ = 0 ∧ st.marked ⟨t, c⟩ = 0 := by
  have hknown : ∀ P, ¬ Known st t P := by
    rintro P ⟨k, hk, -⟩
    rw [hnone] at hk
    cases hk
  have hqueued : (st.reqList (spec.getModelName c)).count ⟨t, c⟩ = 0 :=
    List.count_eq_zero.mpr fun hmem => hknown _ (h.queued _ _ hmem)
  have hbatching : (st.batching.map (·.2)).count ⟨t, c⟩ = 0 := by
    refine List.count_eq_zero.mpr fun hmem => ?_
    obtain ⟨e, he, heq⟩ := List.mem_map.mp hmem
    have halive := h.batching e he
    rw [heq] at halive
    exact hknown _ halive
  have hmark : (st.sent.flatMap (·.toMark)).count ⟨t, c⟩ = 0 := by
    refine List.count_eq_zero.mpr fun hmem => ?_
    obtain ⟨b, hb, hr⟩ := List.mem_flatMap.mp hmem
    exact hknown _ ((h.sent b hb).1 _ (List.mem_append_left _ hr))
  have hsend : (st.sent.flatMap (·.toSend)).count ⟨t, c⟩ = 0 := by
    refine List.count_eq_zero.mpr fun hmem => ?_
    obtain ⟨b, hb, hr⟩ := List.mem_flatMap.mp hmem
    exact hknown _ ((h.sent b hb).1 _ (List.mem_append_right _ hr))
  refine ⟨?_, hsend⟩
  rw [Server.unmarked]
  show (st.reqList (spec.getModelName c)).count _ + _ + _ = 0
  rw [hqueued, hbatching, hmark]

theorem Refines.create {fd : Nat} (h : Refines st) (hv : Valid st) :
    Refines (st.create name spec fd) := by
  refine h.next fun t k' hk' _ => ?_
  rw [Server.create, List.getElem?_append] at hk'
  split at hk'
  case isTrue =>
    exact Or.inl ⟨k', hk', rfl, fun fl htracks =>
      ⟨fl, .refl fl, htracks.same rfl rfl rfl (fun _ => rfl) fun _ => rfl⟩⟩
  case isFalse hlen =>
    obtain rfl := List.mem_singleton.mp (List.mem_of_getElem? hk')
    have hnone := fun c => hv.no_requests (List.getElem?_eq_none (Nat.not_lt.mp hlen)) spec c
    refine Or.inr ⟨rfl, fun id => ?_, fun c => (hnone c).1.symm, fun c => (hnone c).2.symm⟩
    exact iff_of_false (by simp [Flow.start]) (by simp)

/-! ## Steps of the instance -/

theorem count_cons_nat (a b : Nat) (l : List Nat) :
    (a :: l).count b = l.count b + if a = b then 1 else 0 := by
  rw [List.count_cons]
  simp only [beq_iff_eq]

/-- It receives its next tensor. -/
theorem Tracks.recvTensor {fd id : Nat} {tid : Int} (h : Tracks st t k fl) (hnum : k.spec.Numbered)
    (hid : k.spec.inputTensors[k.arrived]? = some id) :
    ∃ fl', Flow.step k.spec (.recvTensor id) fl = some fl' ∧
      Tracks (({ st.update t fun k => { k with taskID := tid, arrived := k.arrived + 1 } with
        received := st.received ++ [(fd, tid)] }).place t k.spec (k.spec.getNextDsts id)) t
        { k with taskID := tid, arrived := k.arrived + 1 } fl' := by
  have hlt := (List.getElem?_eq_some_iff.mp hid).1
  have htake : k.spec.inputTensors.take (k.arrived + 1) =
      k.spec.inputTensors.take k.arrived ++ [id] := by
    rw [List.take_add_one, hid]
    rfl
  have hnew : id ∉ fl.received := by
    rw [h.received]
    have hnodup := hnum.input_nodup.sublist (List.take_sublist (k.arrived + 1) _)
    rw [htake, List.nodup_append] at hnodup
    exact fun hmem => hnodup.2.2 id hmem id (List.mem_singleton_self id) rfl
  refine ⟨_, if_pos ⟨hnum.isInput (List.mem_of_getElem? hid), hnew⟩, h.app, fun id' => ?_,
    fun c => ?_, fun c => ?_⟩
  · show id' ∈ id :: fl.received ↔ id' ∈ k.spec.inputTensors.take (k.arrived + 1)
    rw [htake, List.mem_cons, h.received, List.mem_append, List.mem_singleton, or_comm]
  · show (fl.running ++ k.spec.getNextDsts id).count c = _
    rw [List.count_append, h.running, unmarked_place, if_pos ⟨rfl, rfl⟩]
    rfl
  · rw [marked_place]
    exact h.finishing c

/-- One of its nodes is marked. -/
theorem Tracks.finish {i : Nat} {b : Batch} {rest : List Request} (h : Tracks st t k fl)
    (hb : st.sent[i]? = some b) (hmark : b.toMark = ⟨t, c⟩ :: rest) :
    ∃ fl', Flow.step k.spec (.finish c) fl = some fl' ∧
      Tracks { st.update t fun k => { k with app := k.app.markFinished c } with
        sent := st.sent.set i { b with toMark := rest, toSend := b.toSend ++ [⟨t, c⟩] } } t
        { k with app := k.app.markFinished c } fl' := by
  have hmarks := fun r => count_flatMap_set (g := (·.toMark))
    (d := { b with toMark := rest, toSend := b.toSend ++ [⟨t, c⟩] }) hb r
  have hsends := fun r => count_flatMap_set (g := (·.toSend))
    (d := { b with toMark := rest, toSend := b.toSend ++ [⟨t, c⟩] }) hb r
  simp only [hmark, List.count_cons, List.count_append, List.count_nil, beq_iff_eq] at hmarks hsends
  have hrun : c ∈ fl.running := by
    have hone := hmarks ⟨t, c⟩
    refine List.count_pos_iff.mp ?_
    rw [h.running, Server.unmarked]
    simp only [if_true] at hone
    omega
  refine ⟨_, if_pos hrun, ?_, h.received, fun c' => ?_, fun c' => ?_⟩
  · show fl.app.markFinished c = _
    rw [h.app]
  · have hone := hmarks ⟨t, c'⟩
    have hold := h.running c'
    show (fl.running.erase c).count c' = (st.reqList _).count _ + (st.batching.map _).count _ + _
    rw [List.count_erase, hold, Server.unmarked]
    simp only [Request.mk.injEq, true_and, beq_iff_eq] at hone ⊢
    omega
  · have hone := hsends ⟨t, c'⟩
    have hold := h.finishing c'
    show (c :: fl.finishing).count c' = ((st.sent.set i _).flatMap _).count _
    rw [count_cons_nat, hold, Server.marked]
    simp only [Request.mk.injEq, true_and] at hone ⊢
    omega

/-- One of its requests is handled. -/
theorem Tracks.sendResult {i : Nat} {b : Batch} {rest : List Request}
    (h : Tracks st t k fl) (hb : st.sent[i]? = some b) (hsend : b.toSend = ⟨t, c⟩ :: rest)
    (hst' : ∃ report : Option Nat, (k.app.isFinished.1 = true ∧
      st' = { st.update t fun k => { k with app := k.app.isFinished.2 } with
        sent := st.sent.set i { b with toSend := rest, report } }) ∨
      (k.app.isFinished.1 = false ∧
      st' = { st.update t fun k => { k with app := k.app.isFinished.2 } with
        sent := st.sent.set i { b with toSend := rest, report } }.place t k.spec
          ((k.spec.getNextDsts c).filter fun dst => !k.spec.isOutput dst))) :
    ∃ fl', Flow.step k.spec (.sendResult c) fl = some fl' ∧
      Tracks st' t { k with app := k.app.isFinished.2 } fl' := by
  obtain ⟨report, hst'⟩ := hst'
  have hmarks := fun r => count_flatMap_set (g := (·.toMark))
    (d := { b with toSend := rest, report }) hb r
  have hsends := fun r => count_flatMap_set (g := (·.toSend))
    (d := { b with toSend := rest, report }) hb r
  simp only [hsend, List.count_cons, beq_iff_eq] at hmarks hsends
  have hfin : c ∈ fl.finishing := by
    have hone := hsends ⟨t, c⟩
    refine List.count_pos_iff.mp ?_
    rw [h.finishing, Server.marked]
    simp only [if_true] at hone
    omega
  have hfinishing : ∀ c', (fl.finishing.erase c).count c' =
      ((st.sent.set i { b with toSend := rest, report }).flatMap (·.toSend)).count ⟨t, c'⟩ := by
    intro c'
    have hone := hsends ⟨t, c'⟩
    rw [List.count_erase, h.finishing, Server.marked]
    simp only [Request.mk.injEq, true_and, beq_iff_eq] at hone ⊢
    omega
  have hrunning : ∀ c', fl.running.count c' =
      Server.unmarked { st.update t fun k => { k with app := k.app.isFinished.2 } with
        sent := st.sent.set i { b with toSend := rest, report } } k.spec ⟨t, c'⟩ := by
    intro c'
    rw [h.running]
    exact congrArg (_ + ·) (Nat.add_right_cancel (hmarks ⟨t, c'⟩)).symm
  have hstep : Flow.step k.spec (.sendResult c) fl = some (if k.app.isFinished.1 then
      { fl with app := k.app.isFinished.2, finishing := fl.finishing.erase c, done := c :: fl.done }
      else Flow.addtoModelQueue { fl with
        app := k.app.isFinished.2, finishing := fl.finishing.erase c, done := c :: fl.done }
        ((k.spec.getNextDsts c).filter fun dst => !k.spec.isOutput dst)) := by
    rw [← h.app]
    simp only [Flow.step, if_pos hfin]
    split <;> rfl
  rcases hst' with ⟨hyes, rfl⟩ | ⟨hno, rfl⟩
  · rw [hyes] at hstep
    exact ⟨_, hstep, rfl, h.received, hrunning, hfinishing⟩
  · rw [hno] at hstep
    refine ⟨_, hstep, rfl, h.received, fun c' => ?_, fun c' => ?_⟩
    · show (fl.running ++ _).count c' = _
      rw [List.count_append, hrunning, unmarked_place, if_pos ⟨rfl, rfl⟩]
    · rw [marked_place]
      exact hfinishing c'

/-! ## All steps -/

/-- A step of one instance. -/
theorem Refines.at (h : Refines st) {act : Flow.Act} (hk : st.instances[t]? = some k)
    (hget : ∀ (u : Nat), st'.instances[u]? =
      if t = u then (st.instances[u]?).map f else st.instances[u]?)
    (hspec : (f k).spec = k.spec)
    (hself : k.spec.Numbered → ∀ fl, Tracks st t k fl →
      ∃ fl', Flow.step k.spec act fl = some fl' ∧ Tracks st' t (f k) fl')
    (hothers : ∀ (u : Nat) (k : Instance), st.instances[u]? = some k → t ≠ u →
      (∀ c, st'.unmarked k.spec ⟨u, c⟩ = st.unmarked k.spec ⟨u, c⟩) ∧
        ∀ c, st'.marked ⟨u, c⟩ = st.marked ⟨u, c⟩) : Refines st' := by
  refine h.next fun u k' hk' hnum => Or.inl ?_
  rw [hget] at hk'
  by_cases htu : t = u
  · subst htu
    rw [if_pos rfl, hk] at hk'
    obtain rfl := Option.some.inj hk'
    rw [hspec] at hnum
    refine ⟨k, hk, hspec, fun fl htracks => ?_⟩
    obtain ⟨fl', hstep, htracks'⟩ := hself hnum fl htracks
    exact ⟨fl', .next (.refl fl) hstep, htracks'⟩
  · rw [if_neg htu] at hk'
    obtain ⟨hunmarked, hmarked⟩ := hothers u k' hk' htu
    exact ⟨k', hk', rfl, fun fl htracks =>
      ⟨fl, .refl fl, htracks.same rfl rfl rfl hunmarked hmarked⟩⟩

theorem place_get : (st.place t spec dsts).instances[u]? = st.instances[u]? := by
  rw [place_eq]

/-- Requests of other instances are not placed. -/
theorem unmarked_place_of_ne {spec' : AppSpec} (h : t ≠ u) (c : Nat) :
    (st.place t spec dsts).unmarked spec' ⟨u, c⟩ = st.unmarked spec' ⟨u, c⟩ := by
  rw [unmarked_place, if_neg fun heq => h heq.1.symm, Nat.add_zero]

theorem Refines.step {act : Act} (h : Refines st) (hv : Valid st)
    (hstep : Replies.step apps act st = some st') : Refines st' := by
  cases act with
  | connect name fd =>
      obtain ⟨spec, rfl⟩ := connect_cases hstep
      exact h.create hv
  | recvTensor fd tid =>
      rcases recvTensor_cases hstep with ⟨-, rfl⟩ | ⟨-, t, k, id, ht, hk, hid, st1, rfl, hst'⟩
      · exact h.still (still_of_eq rfl) (fun _ _ _ _ => rfl) fun _ => rfl
      · have hplaced : Refines (({ st.update t fun k =>
            { k with taskID := tid, arrived := k.arrived + 1 } with
            received := st.received ++ [(fd, tid)] }).place t k.spec (k.spec.getNextDsts id)) := by
          refine h.at (f := fun k => { k with taskID := tid, arrived := k.arrived + 1 }) hk
            (fun u => place_get.trans update_get) rfl
            (fun hnum fl htracks => htracks.recvTensor hnum hid) fun u k _ htu => ⟨fun c => ?_, fun c => ?_⟩
          · exact unmarked_place_of_ne htu c
          · exact marked_place _
        rcases hst' with rfl | rfl
        · exact hplaced
        · have hget := update_of_get (t := t)
            (f := fun k => { k with taskID := tid, arrived := k.arrived + 1 }) hk
          rw [if_pos rfl] at hget
          exact hplaced.create (Valid.place
            (k := { k with taskID := tid, arrived := k.arrived + 1 }) _ (hv.received tid ht)
            hget (answerable_received hv.own ht hk))
  | look name =>
      obtain ⟨-, rfl⟩ := look_cases hstep
      exact h.still (still_of_eq rfl) (fun _ _ _ _ => rfl) fun _ => rfl
  | test late =>
      obtain ⟨d, rfl, -⟩ := test_cases hstep
      exact h.still (still_of_eq rfl) (fun _ _ _ _ => rfl) fun _ => rfl
  | mark =>
      obtain ⟨r, q, -, rfl⟩ := mark_cases hstep
      exact h.still (still_of_update rfl fun _ => ⟨rfl, rfl, rfl⟩) (fun _ _ _ _ => rfl) fun _ => rfl
  | drop =>
      obtain ⟨r, q, k, -, -, rfl⟩ := drop_cases hstep
      exact h.still (still_of_update rfl fun _ => ⟨rfl, rfl, rfl⟩) (fun _ _ _ _ => rfl) fun _ => rfl
  | pop thread name =>
      obtain ⟨r, q, hq, rfl⟩ := pop_cases hstep
      refine h.still (still_of_eq rfl) (fun t k hk c => ?_) fun _ => rfl
      obtain ⟨k', hk', -, hname⟩ := hv.queued name r (by rw [hq]; exact List.mem_cons_self ..)
      show (Function.update st.reqList name q (k.spec.getModelName c)).count _ +
        ((st.batching ++ _).map _).count _ + (st.sent.flatMap (·.toMark)).count _ =
          (st.reqList (k.spec.getModelName c)).count _ + (st.batching.map _).count _ +
            (st.sent.flatMap (·.toMark)).count _
      rw [List.map_append, List.count_append, List.map_singleton, List.count_singleton]
      by_cases hn : k.spec.getModelName c = name
      · rw [hn, Function.update_self, hq, List.count_cons]
        show _ + (_ + if r == _ then 1 else 0) + _ = _
        omega
      · rw [Function.update_of_ne hn]
        have hne : (r == ⟨t, c⟩) = false := by
          refine beq_eq_false_iff_ne.mpr fun heq => hn ?_
          subst heq
          obtain rfl := Option.some.inj (hk.symm.trans hk')
          exact hname
        rw [hne]
        rfl
  | send thread =>
      obtain rfl := send_eq hstep
      refine h.still (still_of_eq rfl) (fun t k hk c => ?_) fun r => ?_
      · have hsplit := (List.filter_append_perm (fun e : Nat × Request => e.1 == thread)
          st.batching).map (·.2)
        have hcount := hsplit.count_eq ⟨t, c⟩
        rw [List.map_append, List.count_append] at hcount
        show _ + ((st.batching.filter _).map _).count _ + ((st.sent ++ _).flatMap _).count _ =
          _ + (st.batching.map _).count _ + (st.sent.flatMap _).count _
        rw [List.flatMap_append, List.count_append, List.flatMap_singleton]
        simp only [bne] at hcount ⊢
        omega
      · show ((st.sent ++ _).flatMap _).count r = (st.sent.flatMap _).count r
        rw [List.flatMap_append, List.count_append, List.flatMap_singleton]
        rfl
  | finish i =>
      obtain ⟨b, r, rest, hb, hmark, rfl⟩ := finish_cases hstep
      have hr := (hv.sent b (List.mem_of_getElem? hb)).1 r (by rw [hmark]; exact List.mem_cons_self ..)
      obtain ⟨k, hk, -, -⟩ := hr
      refine h.at (f := fun k => { k with app := k.app.markFinished r.cgid }) hk (fun u => update_get)
        rfl (fun _ fl htracks => htracks.finish hb hmark) fun u k _ hne => ⟨fun c => ?_, fun c => ?_⟩
      · have hmarks := count_flatMap_set (g := (·.toMark))
          (d := { b with toMark := rest, toSend := b.toSend ++ [r] }) hb ⟨u, c⟩
        have hother : (r == ⟨u, c⟩) = false :=
          beq_eq_false_iff_ne.mpr fun heq => hne (congrArg Request.task heq)
        rw [hmark, List.count_cons, hother] at hmarks
        exact congrArg (_ + ·) (Nat.add_right_cancel hmarks)
      · have hsends := count_flatMap_set (g := (·.toSend))
          (d := { b with toMark := rest, toSend := b.toSend ++ [r] }) hb ⟨u, c⟩
        have hother : (r == ⟨u, c⟩) = false :=
          beq_eq_false_iff_ne.mpr fun heq => hne (congrArg Request.task heq)
        rw [List.count_append, List.count_singleton, hother] at hsends
        exact Nat.add_right_cancel hsends
  | sendResult i =>
      obtain ⟨b, r, rest, k, hb, hmark, hreport, hsend, hk, st1, rfl, hst'⟩ := sendResult_cases hstep
      have hsends : ∀ (report : Option Nat) (u c : Nat), r.task ≠ u →
          ((st.sent.set i { b with toSend := rest, report }).flatMap (·.toSend)).count ⟨u, c⟩ =
            (st.sent.flatMap (·.toSend)).count ⟨u, c⟩ := by
        intro report u c hne
        have hcount := count_flatMap_set (g := (·.toSend))
          (d := { b with toSend := rest, report }) hb ⟨u, c⟩
        have hother : (r == ⟨u, c⟩) = false :=
          beq_eq_false_iff_ne.mpr fun heq => hne (congrArg Request.task heq)
        rw [hsend, List.count_cons, hother] at hcount
        exact Nat.add_right_cancel hcount
      have hmarks : ∀ (report : Option Nat) (r' : Request),
          ((st.sent.set i { b with toSend := rest, report }).flatMap (·.toMark)).count r' =
            (st.sent.flatMap (·.toMark)).count r' := fun report r' =>
        Nat.add_right_cancel (count_flatMap_set (g := (·.toMark))
          (d := { b with toSend := rest, report }) hb r')
      refine h.at (f := fun k => { k with app := k.app.isFinished.2 }) hk (fun u => ?_) rfl
        (fun _ fl htracks => htracks.sendResult hb hsend ?_) fun u k _ hne => ⟨fun c => ?_, fun c => ?_⟩
      · rcases hst' with ⟨-, rfl⟩ | ⟨-, rfl⟩
        · exact update_get
        · exact place_get.trans update_get
      · rcases hst' with hyes | hno
        · exact ⟨some r.task, Or.inl hyes⟩
        · exact ⟨b.report, Or.inr hno⟩
      · rcases hst' with ⟨-, rfl⟩ | ⟨-, rfl⟩
        · exact congrArg (_ + ·) (hmarks _ _)
        · rw [unmarked_place_of_ne hne]
          exact congrArg (_ + ·) (hmarks _ _)
      · rcases hst' with ⟨-, rfl⟩ | ⟨-, rfl⟩
        · exact hsends _ u c hne
        · rw [marked_place]
          exact hsends _ u c hne
  | report i =>
      obtain ⟨b, t, k, hb, ht, hk, rfl⟩ := report_cases hstep
      have hbatch := batch_still (d := { b with report := none }) hb rfl rfl
      exact h.still (still_of_update rfl fun _ => ⟨rfl, rfl, rfl⟩)
        (fun _ _ _ _ => congrArg (_ + ·) (hbatch _).1) fun r => (hbatch r).2
  | reply name =>
      obtain ⟨t, dropped, rest, k, -, -, rfl⟩ := reply_cases hstep
      exact h.still (still_of_eq rfl) (fun _ _ _ _ => rfl) fun _ => rfl

theorem refines_run {acts : List Act}
    (hrun : Machine.run (Replies.step apps) acts start = some st) :
    (Valid st ∧ Books st) ∧ Refines st := by
  refine Machine.run_invariant (I := fun st => (Valid st ∧ Books st) ∧ Refines st) ?_ hrun
    ⟨⟨valid_start, books_start⟩, refines_start⟩
  rintro act st st' ⟨⟨hv, hb⟩, h⟩ hstep
  exact ⟨⟨hv.step hstep, hb.step hv hstep⟩, h.step hv hstep⟩

/-- **Instances are dataflows.** Whatever the other threads do, the score board
of an instance, the tensors it has received and its requests are those of a run
of its graph alone. -/
theorem instances_are_flows {acts : List Act}
    (hrun : Machine.run (Replies.step apps) acts start = some st)
    (hk : st.instances[t]? = some k) (hnum : k.spec.Numbered) :
    ∃ flowActs fl, Machine.run (Flow.step k.spec) flowActs (Flow.start k.spec) = some fl ∧
      Tracks st t k fl := by
  obtain ⟨fl, ⟨flowActs, hflow⟩, htracks⟩ := (refines_run hrun).2 t k hk hnum
  exact ⟨flowActs, fl, hflow, htracks⟩

theorem fork_numbered : fork.Numbered := by
  intro i c hc
  rcases i with _ | _ | _ | _ | i
  · obtain rfl := Option.some.inj hc
    rfl
  · obtain rfl := Option.some.inj hc
    rfl
  · obtain rfl := Option.some.inj hc
    rfl
  · obtain rfl := Option.some.inj hc
    rfl
  · cases hc

theorem instances_are_flows_fork :
    ∃ st k flowActs fl, Machine.run (Replies.step [("fork", fork)]) forkRun start = some st ∧
      st.instances[0]? = some k ∧
      Machine.run (Flow.step k.spec) flowActs (Flow.start k.spec) = some fl ∧ Tracks st 0 k fl := by
  obtain ⟨st, hrun, hp⟩ := Machine.run_any (show (Machine.run (Replies.step [("fork", fork)]) forkRun
    start).any (fun st => (st.instances[0]?).any fun k : Instance =>
      decide (k.spec.modelTable = fork.modelTable)) = true by decide +kernel)
  obtain ⟨k, hk, htable⟩ := (Option.any_eq_true _ _).mp hp
  have hnum : k.spec.Numbered := by
    intro i c hc
    rw [of_decide_eq_true htable] at hc
    exact fork_numbered i c hc
  obtain ⟨flowActs, fl, hflow, htracks⟩ := instances_are_flows hrun hk hnum
  exact ⟨st, k, flowActs, fl, hrun, hk, hflow, htracks⟩

/-! ## Executed to the end -/

end Replies

namespace Flow

variable {spec : AppSpec} {st st' : Flow}

/-- What has finished is marked, and once everything that feeds an output is,
some request still has to check, or one has. -/
structure Checked (spec : AppSpec) (st : Flow) : Prop where
  check : st.app.outputCheck = spec.getInputforOutput
  board : ∀ id, id ∈ st.finishing ∨ id ∈ st.done → st.app.scoreBoard id = true
  pending : st.app.reported = false → (∀ f ∈ st.app.outputCheck, st.app.scoreBoard f = true) →
    st.finishing ≠ []

theorem checked_start (hfed : spec.getInputforOutput ≠ []) : Checked spec (start spec) := by
  refine ⟨rfl, nofun, fun _ hall => ?_⟩
  obtain ⟨f, hf⟩ := List.exists_mem_of_ne_nil _ hfed
  cases hall f hf

theorem Checked.step {act : Act} (h : Checked spec st) (hstep : Flow.step spec act st = some st') :
    Checked spec st' := by
  cases act with
  | recvTensor id =>
      simp only [Flow.step] at hstep
      split at hstep
      case isFalse => cases hstep
      case isTrue =>
        obtain rfl := Option.some.inj hstep
        exact ⟨h.check, h.board, h.pending⟩
  | finish id =>
      simp only [Flow.step] at hstep
      split at hstep
      case isFalse => cases hstep
      case isTrue =>
        obtain rfl := Option.some.inj hstep
        refine ⟨h.check, fun id' hid' => ?_, fun _ _ => List.cons_ne_nil _ _⟩
        show Function.update st.app.scoreBoard id true id' = true
        by_cases hid : id' = id
        · rw [hid, Function.update_self]
        · rw [Function.update_of_ne hid]
          exact h.board id' (hid'.imp_left fun hmem => (List.mem_cons.mp hmem).resolve_left hid)
  | sendResult id =>
      have happ := st.app.isFinished_cases
      simp only [Flow.step] at hstep
      split at hstep
      case isFalse => cases hstep
      case isTrue hfin =>
        have hboard : ∀ id', id' ∈ st.finishing.erase id ∨ id' ∈ id :: st.done →
            st.app.scoreBoard id' = true := by
          rintro id' (hmem | hmem)
          · exact h.board id' (Or.inl (List.mem_of_mem_erase hmem))
          · rcases List.mem_cons.mp hmem with rfl | hdone
            · exact h.board _ (Or.inl hfin)
            · exact h.board id' (Or.inr hdone)
        rcases happ with ⟨heq, hwhy⟩ | ⟨heq, -, -⟩
        · rw [heq] at hstep
          obtain rfl := Option.some.inj hstep
          refine ⟨h.check, hboard, fun hrep hall => ?_⟩
          rcases hwhy with hyes | ⟨f, hf, hno⟩
          · exact absurd (hyes.symm.trans hrep) (by decide)
          · exact absurd ((hall f hf).symm.trans hno) (by decide)
        · rw [heq] at hstep
          obtain rfl := Option.some.inj hstep
          exact ⟨h.check, hboard, fun hrep => by cases hrep⟩

/-- When a forest has been executed, one check has found it finished. -/
theorem reported_of_complete (hg : spec.Acyclic) (hf : spec.Forest)
    (hfed : spec.getInputforOutput ≠ []) (hmodels : ∀ f ∈ spec.getInputforOutput, spec.isModel f = true)
    (hrun : Machine.Reaches (step spec) (start spec) st) (hdone : Complete spec st) :
    st.app.reported = true := by
  obtain ⟨acts, hrun⟩ := hrun
  have hinv := inv_run hg hf hrun
  have hchecked := Machine.run_invariant (fun _ _ _ h hstep => Checked.step h hstep) hrun
    (checked_start hfed)
  by_contra hnot
  refine hchecked.pending (by simpa using hnot) (fun f hf' => ?_) hdone.2.2
  rw [hchecked.check] at hf'
  have hpos := hinv.queued_complete hg hf hdone (hmodels f hf')
  rw [hinv.balance f, hdone.2.1, hdone.2.2, List.count_nil, Nat.zero_add] at hpos
  exact hchecked.board f (Or.inr (List.count_pos_iff.mp hpos))

end Flow

namespace Replies

variable {apps : List (String × AppSpec)} {st : Server} {t : Nat} {k : Instance}

/-- No request of the instance is on its way, and it is not on the queue of its
application. -/
structure Quiet (st : Server) (t : Nat) (k : Instance) : Prop where
  queued : ∀ name, ∀ r ∈ st.reqList name, r.task ≠ t
  batching : ∀ e ∈ st.batching, e.2.task ≠ t
  sent : ∀ b ∈ st.sent, (∀ r ∈ b.toMark ++ b.toSend, r.task ≠ t) ∧ b.report ≠ some t
  answered : ∀ e ∈ st.perAppQueue k.name, e.1 ≠ t

theorem Quiet.complete (h : Quiet st t k) {fl : Flow} (htracks : Tracks st t k fl)
    (hnum : k.spec.Numbered) (harrived : k.arrived = k.spec.inputTensors.length) :
    Flow.Complete k.spec fl := by
  have hnil : ∀ l : List Nat, (∀ c, l.count c = 0) → l = [] := by
    intro l hzero
    refine List.eq_nil_iff_forall_not_mem.mpr fun c hc => ?_
    exact absurd (hzero c) (Nat.pos_iff_ne_zero.mp (List.count_pos_iff.mpr hc))
  refine ⟨fun id hid => ?_, hnil _ fun c => ?_, hnil _ fun c => ?_⟩
  · rw [htracks.received, harrived, List.take_length]
    exact hnum.mem_input hid
  · rw [htracks.running, Server.unmarked]
    have hqueued := List.count_eq_zero.mpr fun hmem => h.queued (k.spec.getModelName c) ⟨t, c⟩ hmem rfl
    have hbatching : (st.batching.map (·.2)).count ⟨t, c⟩ = 0 := by
      refine List.count_eq_zero.mpr fun hmem => ?_
      obtain ⟨e, he, heq⟩ := List.mem_map.mp hmem
      exact h.batching e he (congrArg Request.task heq)
    have hmark : (st.sent.flatMap (·.toMark)).count ⟨t, c⟩ = 0 := by
      refine List.count_eq_zero.mpr fun hmem => ?_
      obtain ⟨b, hb, hr⟩ := List.mem_flatMap.mp hmem
      exact (h.sent b hb).1 _ (List.mem_append_left _ hr) rfl
    rw [hqueued, hbatching, hmark]
  · rw [htracks.finishing, Server.marked]
    refine List.count_eq_zero.mpr fun hmem => ?_
    obtain ⟨b, hb, hr⟩ := List.mem_flatMap.mp hmem
    exact (h.sent b hb).1 _ (List.mem_append_right _ hr) rfl

/-- Once nothing of an instance is on its way, it was reported and answered. -/
theorem Quiet.answers (h : Quiet st t k) (hb : Books st) (href : Refines st)
    (hk : st.instances[t]? = some k) (hg : k.spec.Acyclic) (hf : k.spec.Forest)
    (hfed : k.spec.getInputforOutput ≠ [])
    (hmodels : ∀ f ∈ k.spec.getInputforOutput, k.spec.isModel f = true)
    (harrived : k.arrived = k.spec.inputTensors.length) :
    (st.replies.map Reply.entry).count (t, false) = 1 ∧
      (st.replies.map Reply.entry).count (t, true) = st.reports.count (t, true) ∧
      st.reports.count (t, true) ≤ 2 := by
  obtain ⟨fl, hreach, htracks⟩ := href t k hk hg.ids
  have hrep := Flow.reported_of_complete hg hf hfed hmodels hreach
    (h.complete htracks hg.ids harrived)
  rw [htracks.app] at hrep
  have hfinished := hb.finished t k hk
  have hdue : (st.sent.map (·.report)).count (some t) = 0 := by
    refine List.count_eq_zero.mpr fun hmem => ?_
    obtain ⟨b, hmem, heq⟩ := List.mem_map.mp hmem
    exact (h.sent b hmem).2 heq
  have hnone : ∀ dropped, (st.perAppQueue k.name).count (t, dropped) = 0 := fun dropped =>
    List.count_eq_zero.mpr fun hmem => h.answered _ hmem rfl
  rw [hdue, hrep] at hfinished
  have hone := hb.queue t k hk false
  have htwo := hb.queue t k hk true
  have hmost := hb.atMost t
  rw [hnone] at hone htwo
  simp only [if_true] at hfinished
  exact ⟨by omega, by omega, by omega⟩

/-- **Every request is executed and answered.** In every run, once all tensors
of an instance have arrived and nothing of it is on its way, it was answered as
finished exactly once, however often the drop thread has dropped it; that is at
most twice. -/
theorem quiet_answered {acts : List Act}
    (hrun : Machine.run (Replies.step apps) acts start = some st)
    (hk : st.instances[t]? = some k) (hg : k.spec.Acyclic) (hf : k.spec.Forest)
    (hfed : k.spec.getInputforOutput ≠ [])
    (hmodels : ∀ f ∈ k.spec.getInputforOutput, k.spec.isModel f = true)
    (harrived : k.arrived = k.spec.inputTensors.length) (hquiet : Quiet st t k) :
    (st.replies.map Reply.entry).count (t, false) = 1 ∧
      (st.replies.map Reply.entry).count (t, true) = st.reports.count (t, true) ∧
      st.reports.count (t, true) ≤ 2 := by
  obtain ⟨⟨-, hb⟩, href⟩ := refines_run hrun
  exact hquiet.answers hb href hk hg hf hfed hmodels harrived

theorem fork_acyclic : fork.Acyclic :=
  AppSpec.acyclic_of_table (by decide) (by decide) (by decide) (by decide) (by decide)

theorem fork_forest : fork.Forest := by
  refine ⟨?_, ?_⟩
  · intro m hm
    rcases m with _ | _ | _ | _ | m
    · cases hm
    · exact ⟨0, rfl, Or.inl rfl⟩
    · exact ⟨0, rfl, Or.inl rfl⟩
    · cases hm
    · cases hm
  · intro p m hp hm hedge
    rcases p with _ | _ | _ | _ | p
    · cases hp
    · obtain rfl : m = 3 := List.mem_singleton.mp hedge
      cases hm
    · cases hedge
    · cases hp
    · cases hp

/-- The second request is executed, too. -/
def forkQuiet : List Act :=
  forkRun ++ [.pop 0 "vgg16", .send 0, .finish 1, .sendResult 1]

theorem quiet_answered_fork :
    ∃ st, Machine.run (Replies.step [("fork", fork)]) forkQuiet start = some st ∧
      (st.replies.map Reply.entry).count (0, false) = 1 ∧ st.reports.count (0, true) = 2 := by
  obtain ⟨st, hrun, hp⟩ := Machine.run_any (show (Machine.run (Replies.step [("fork", fork)])
    forkQuiet start).any (fun st => decide (st.reports.count (0, true) = 2 ∧
      (∀ b ∈ st.sent, b.toMark ++ b.toSend = [] ∧ b.report = none) ∧ st.batching = [] ∧
      st.perAppQueue "fork" = [] ∧
      ∀ name ∈ ["", "Input", "lenet1", "vgg16", "None"], st.reqList name = []) &&
      (st.instances[0]?).any fun k : Instance => decide (k.name = "fork" ∧ k.arrived = 1 ∧
        k.spec.modelTable = fork.modelTable)) = true by decide +kernel)
  obtain ⟨hstate, hinstance⟩ := Bool.and_eq_true_iff.mp hp
  obtain ⟨htwice, hsent, hbatching, hqueue, hempty⟩ := of_decide_eq_true hstate
  obtain ⟨k, hk, hinstance⟩ := (Option.any_eq_true _ _).mp hinstance
  obtain ⟨hname, harrived, htable⟩ := of_decide_eq_true hinstance
  have hspec : k.spec = fork := by
    cases hks : k.spec
    rw [hks] at htable
    exact congrArg AppSpec.mk htable
  have hquiet : Quiet st 0 k := by
    refine ⟨fun name r hr htask => ?_, ?_, ?_, ?_⟩
    · obtain ⟨k', hk', -, hmodel⟩ := (inv_run hrun).1.queued name r hr
      rw [htask] at hk'
      obtain rfl := Option.some.inj (hk.symm.trans hk')
      rw [hspec] at hmodel
      have hnames : ∀ c, fork.getModelName c ∈ ["", "Input", "lenet1", "vgg16", "None"] := by
        intro c
        rcases c with _ | _ | _ | _ | c
        all_goals simp [AppSpec.getModelName, fork, AppSpec.setupModelDependency]
      rw [hempty name (hmodel ▸ hnames r.cgid)] at hr
      cases hr
    · rw [hbatching]
      nofun
    · intro b hb
      obtain ⟨hnil, hnone⟩ := hsent b hb
      rw [hnil, hnone]
      exact ⟨by simp, by simp⟩
    · rw [hname, hqueue]
      nofun
  refine ⟨st, hrun, (quiet_answered hrun hk ?_ ?_ ?_ ?_ ?_ hquiet).1, htwice⟩
  · rw [hspec]
    exact fork_acyclic
  · rw [hspec]
    exact fork_forest
  · rw [hspec]
    decide
  · rw [hspec]
    decide
  · rw [hspec, harrived]
    rfl

end Replies

end Glet
