import Glet.Replies

/-!
# Answers

The drop thread works on copies, and what it drops is executed all the same. So
an instance is answered more than once: once because it is finished, and up to
twice because it was dropped (`replies_bounded`).
-/

namespace Glet

namespace Replies

variable {apps : List (String × AppSpec)} {st st' : Server} {t u : Nat} {k : Instance}
  {f : Instance → Instance} {name : String} {spec : AppSpec} {dsts : List Nat}

/-! ## Whom requests belong to -/

/-- The instance is there, its client has sent its id, and it has a property. -/
def Known (st : Server) (t : Nat) (P : Instance → Prop) : Prop :=
  ∃ k, st.instances[t]? = some k ∧ Answerable st k ∧ P k

theorem Known.grows {P : Instance → Prop} (hg : Grows st st')
    (hP : ∀ k k' : Instance, k'.name = k.name → k'.spec = k.spec → P k → P k') (h : Known st t P) :
    Known st' t P := by
  obtain ⟨k, hk, hans, hp⟩ := h
  obtain ⟨k', hk', hname, hspec, -, hans'⟩ := hg.instances t k hk
  exact ⟨k', hk', hans' hans, hP k k' hname hspec hp⟩

/-- A request on the queue of a model. -/
def Queued (st : Server) (name : String) (r : Request) : Prop :=
  Known st r.task fun k => k.spec.getModelName r.cgid = name

/-- An entry of the queue of an application. -/
def Answering (st : Server) (name : String) (e : Nat × Bool) : Prop :=
  Known st e.1 fun k => k.name = name

/-- A request in other places. -/
def Alive (st : Server) (t : Nat) : Prop := Known st t fun _ => True

theorem Queued.grows {r : Request} (hg : Grows st st') (h : Queued st name r) :
    Queued st' name r :=
  Known.grows hg (fun _ _ _ hspec hp => by rw [hspec]; exact hp) h

theorem Answering.grows {e : Nat × Bool} (hg : Grows st st') (h : Answering st name e) :
    Answering st' name e :=
  Known.grows hg (fun _ _ hname _ hp => hname.trans hp) h

theorem Alive.grows (hg : Grows st st') (h : Alive st t) : Alive st' t :=
  Known.grows hg (fun _ _ _ _ _ => trivial) h

theorem Queued.alive {r : Request} (h : Queued st name r) : Alive st r.task := by
  obtain ⟨k, hk, hans, -⟩ := h
  exact ⟨k, hk, hans, trivial⟩

def DropThread.requests : DropThread → List Request
  | .idle => []
  | .testing q => q
  | .claimed r q => r :: q
  | .marked r q => r :: q

/-- The instances of all requests and of all entries are there. -/
structure Valid (st : Server) : Prop where
  own : OwnSocket st
  queued : ∀ name, ∀ r ∈ st.reqList name, Queued st name r
  dropping : ∀ r ∈ st.dropThread.requests, Alive st r.task
  batching : ∀ e ∈ st.batching, Alive st e.2.task
  sent : ∀ b ∈ st.sent, (∀ r ∈ b.toMark ++ b.toSend, Alive st r.task) ∧ ∀ t ∈ b.report, Alive st t
  answering : ∀ name, ∀ e ∈ st.perAppQueue name, Answering st name e
  reports : ∀ e ∈ st.reports, Alive st e.1
  replies : ∀ reply ∈ st.replies, (reply.socketFD, reply.taskID) ∈ st.received ∧
    ∃ k, st.instances[reply.task]? = some k ∧ k.socketFD = reply.socketFD

theorem valid_start : Valid start := by
  refine ⟨nofun, nofun, nofun, nofun, nofun, nofun, nofun, nofun⟩

/-- What is new has an instance. -/
theorem Valid.next (h : Valid st) (hg : Grows st st') (hown : OwnSocket st')
    (hqueued : ∀ name, ∀ r ∈ st'.reqList name, r ∈ st.reqList name ∨ Queued st' name r)
    (hdropping : ∀ r ∈ st'.dropThread.requests, r ∈ st.dropThread.requests ∨ Alive st r.task)
    (hbatching : ∀ e ∈ st'.batching, e ∈ st.batching ∨ Alive st e.2.task)
    (hsent : ∀ b ∈ st'.sent, b ∈ st.sent ∨
      ((∀ r ∈ b.toMark ++ b.toSend, Alive st r.task) ∧ ∀ t ∈ b.report, Alive st t))
    (hanswering : ∀ name, ∀ e ∈ st'.perAppQueue name, e ∈ st.perAppQueue name ∨ Answering st name e)
    (hreports : ∀ e ∈ st'.reports, e ∈ st.reports ∨ Alive st e.1)
    (hreplies : ∀ reply ∈ st'.replies, reply ∈ st.replies ∨
      ((reply.socketFD, reply.taskID) ∈ st.received ∧
        ∃ k, st.instances[reply.task]? = some k ∧ k.socketFD = reply.socketFD)) : Valid st' where
  own := hown
  queued name r hr := (hqueued name r hr).elim (fun hold => (h.queued name r hold).grows hg) id
  dropping r hr := ((hdropping r hr).elim (h.dropping r) id).grows hg
  batching e he := ((hbatching e he).elim (h.batching e) id).grows hg
  sent b hb := by
    obtain ⟨hrequests, hreport⟩ := (hsent b hb).elim (h.sent b) id
    exact ⟨fun r hr => (hrequests r hr).grows hg, fun t ht => (hreport t ht).grows hg⟩
  answering name e he := ((hanswering name e he).elim (h.answering name e) id).grows hg
  reports e he := ((hreports e he).elim (h.reports e) id).grows hg
  replies reply hreply := by
    obtain ⟨hreceived, k, hk, hfd⟩ := (hreplies reply hreply).elim (h.replies reply) id
    obtain ⟨k', hk', -, -, hfd', -⟩ := hg.instances _ k hk
    exact ⟨hg.received _ hreceived, k', hk', hfd'.trans hfd⟩

theorem OwnSocket.grows (hg : Grows st st') (hcurrent : ∀ fd t, st'.current fd = some t →
    st.current fd = some t ∨ ∃ k, st'.instances[t]? = some k ∧ k.socketFD = fd)
    (h : OwnSocket st) : OwnSocket st' := by
  intro fd t ht
  rcases hcurrent fd t ht with hold | hnew
  · obtain ⟨k, hk, hfd⟩ := h fd t hold
    obtain ⟨k', hk', -, -, hfd', -⟩ := hg.instances t k hk
    exact ⟨k', hk', hfd'.trans hfd⟩
  · exact hnew

theorem mem_set {α : Type} {l : List α} {i : Nat} {a b : α} (h : b ∈ l.set i a) :
    b ∈ l ∨ b = a := by
  rcases List.mem_or_eq_of_mem_set h with h | h
  · exact Or.inl h
  · exact Or.inr h

theorem mem_push {α β : Type} [DecidableEq α] {table : α → List β} {a a' : α} {b b' : β}
    (h : b ∈ Function.update table a' (table a' ++ [b']) a) : b ∈ table a ∨ (a = a' ∧ b = b') := by
  by_cases ha : a = a'
  · subst ha
    rw [Function.update_self] at h
    exact (List.mem_append.mp h).imp_right fun h => ⟨rfl, List.mem_singleton.mp h⟩
  · rw [Function.update_of_ne ha] at h
    exact Or.inl h

theorem mem_pull {α β : Type} [DecidableEq α] {table : α → List β} {a a' : α} {b b' : β}
    {rest : List β} (hcons : table a' = b' :: rest) (h : b ∈ Function.update table a' rest a) :
    b ∈ table a := by
  by_cases ha : a = a'
  · subst ha
    rw [Function.update_self] at h
    rw [hcons]
    exact List.mem_cons_of_mem _ h
  · rwa [Function.update_of_ne ha] at h

theorem Valid.create {fd : Nat} (h : Valid st) : Valid (st.create name spec fd) := by
  refine h.next grows_create (h.own.grows grows_create fun fd' t ht => ?_) (fun _ _ => Or.inl)
    (fun _ => Or.inl) (fun _ => Or.inl) (fun _ => Or.inl) (fun _ _ => Or.inl) (fun _ => Or.inl)
    fun _ => Or.inl
  change Function.update st.current fd (some st.instances.length) fd' = some t at ht
  by_cases hfd : fd' = fd
  · subst hfd
    rw [Function.update_self] at ht
    obtain rfl := Option.some.inj ht
    exact Or.inr ⟨_, List.getElem?_concat_length, rfl⟩
  · rw [Function.update_of_ne hfd] at ht
    exact Or.inl ht

theorem Valid.place (dsts : List Nat) (h : Valid st) (hk : st.instances[t]? = some k)
    (hans : Answerable st k) :
    Valid (st.place t k.spec dsts) := by
  have hg : Grows st (st.place t k.spec dsts) := grows_place t k.spec dsts
  rw [place_eq] at hg ⊢
  refine h.next hg h.own (fun name r hr => ?_) (fun _ => Or.inl) (fun _ => Or.inl)
    (fun _ => Or.inl) (fun _ _ => Or.inl) (fun _ => Or.inl) fun _ => Or.inl
  refine (mem_place hr).imp_right ?_
  rintro ⟨rfl, hname⟩
  exact ⟨k, hk, hans, hname⟩

theorem Valid.received {fd : Nat} (tid : Int) (h : Valid st) (ht : st.current fd = some t) :
    Valid { st.update t fun k => { k with taskID := tid, arrived := k.arrived + 1 } with
      received := st.received ++ [(fd, tid)] } := by
  have hg := grows_recvTensor tid h.own ht
  exact h.next hg (h.own.grows hg fun _ _ => Or.inl) (fun _ _ => Or.inl) (fun _ => Or.inl)
    (fun _ => Or.inl) (fun _ => Or.inl) (fun _ _ => Or.inl) (fun _ => Or.inl) fun _ => Or.inl

/-- After the first tensor the instance can be answered. -/
theorem answerable_received {fd : Nat} {tid : Int} (hown : OwnSocket st)
    (ht : st.current fd = some t) (hk : st.instances[t]? = some k) :
    Answerable { st.update t fun k => { k with taskID := tid, arrived := k.arrived + 1 } with
      received := st.received ++ [(fd, tid)] } { k with taskID := tid, arrived := k.arrived + 1 } := by
  obtain ⟨k', hk', hfd⟩ := hown fd t ht
  obtain rfl := Option.some.inj (hk'.symm.trans hk)
  exact ⟨Nat.succ_pos _, List.mem_append_right _ (List.mem_singleton.mpr (by rw [← hfd]))⟩

theorem Valid.step {act : Act} (h : Valid st) (hstep : step apps act st = some st') :
    Valid st' := by
  have hg := step_grows h.own hstep
  cases act with
  | connect name fd =>
      obtain ⟨spec, rfl⟩ := connect_cases hstep
      exact h.create
  | recvTensor fd tid =>
      rcases recvTensor_cases hstep with ⟨-, rfl⟩ | ⟨-, t, k, id, ht, hk, hid, st1, rfl, hst'⟩
      · refine h.next hg (h.own.grows hg fun fd' t ht => Or.inl ?_) (fun _ _ => Or.inl)
          (fun _ => Or.inl) (fun _ => Or.inl) (fun _ => Or.inl) (fun _ _ => Or.inl) (fun _ => Or.inl)
          fun _ => Or.inl
        change Function.update st.current fd none fd' = some t at ht
        by_cases hfd : fd' = fd
        · subst hfd
          rw [Function.update_self] at ht
          cases ht
        · rwa [Function.update_of_ne hfd] at ht
      · have hreceived := h.received tid ht
        have hget := update_of_get (f := fun k => { k with taskID := tid, arrived := k.arrived + 1 })
          (t := t) hk
        rw [if_pos rfl] at hget
        have hplaced := hreceived.place (k.spec.getNextDsts id) hget
          (answerable_received h.own ht hk)
        rcases hst' with rfl | rfl
        · exact hplaced
        · exact hplaced.create
  | look name =>
      obtain ⟨-, rfl⟩ := look_cases hstep
      refine h.next hg h.own (fun _ _ => Or.inl) (fun r hr => Or.inr (h.queued name r hr).alive)
        (fun _ => Or.inl) (fun _ => Or.inl) (fun _ _ => Or.inl) (fun _ => Or.inl) fun _ => Or.inl
  | test late =>
      obtain ⟨d, rfl, hd⟩ := test_cases hstep
      refine h.next hg h.own (fun _ _ => Or.inl) (fun r hr => Or.inl ?_)
        (fun _ => Or.inl) (fun _ => Or.inl) (fun _ _ => Or.inl) (fun _ => Or.inl) fun _ => Or.inl
      rcases hd with rfl | ⟨r', q, hcopy, rfl | ⟨rfl, -⟩⟩
      · cases hr
      · rw [hcopy]
        exact List.mem_cons_of_mem _ hr
      · rw [hcopy]
        exact hr
  | mark =>
      obtain ⟨r, q, hclaimed, rfl⟩ := mark_cases hstep
      refine h.next hg (h.own.grows hg fun _ _ => Or.inl) (fun _ _ => Or.inl) (fun r hr => Or.inl ?_)
        (fun _ => Or.inl) (fun _ => Or.inl) (fun _ _ => Or.inl) (fun _ => Or.inl) fun _ => Or.inl
      rw [hclaimed]
      exact hr
  | drop =>
      obtain ⟨r, q, k, hmarked, hk, rfl⟩ := drop_cases hstep
      have hr : Alive st r.task := h.dropping r (by rw [hmarked]; exact List.mem_cons_self ..)
      obtain ⟨k', hk', hans, -⟩ := hr
      obtain rfl := Option.some.inj (hk.symm.trans hk')
      refine h.next hg (h.own.grows hg fun _ _ => Or.inl) (fun _ _ => Or.inl) (fun r hr => Or.inl ?_)
        (fun _ => Or.inl) (fun _ => Or.inl) (fun name e he => ?_) (fun e he => ?_) fun _ => Or.inl
      · rw [hmarked]
        exact List.mem_cons_of_mem _ hr
      · refine (mem_push he).imp_right ?_
        rintro ⟨rfl, rfl⟩
        exact ⟨k, hk, hans, rfl⟩
      · refine (List.mem_append.mp he).imp_right fun he => ?_
        obtain rfl := List.mem_singleton.mp he
        exact ⟨k, hk, hans, trivial⟩
  | pop thread name =>
      obtain ⟨r, q, hq, rfl⟩ := pop_cases hstep
      refine h.next hg h.own (fun _ _ hr => Or.inl (mem_pull hq hr)) (fun _ => Or.inl)
        (fun e he => ?_) (fun _ => Or.inl) (fun _ _ => Or.inl) (fun _ => Or.inl) fun _ => Or.inl
      refine (List.mem_append.mp he).imp_right fun he => ?_
      obtain rfl := List.mem_singleton.mp he
      exact (h.queued name r (by rw [hq]; exact List.mem_cons_self ..)).alive
  | send thread =>
      obtain rfl := send_eq hstep
      refine h.next hg h.own (fun _ _ => Or.inl) (fun _ => Or.inl)
        (fun e he => Or.inl (List.mem_of_mem_filter he)) (fun b hb => ?_) (fun _ _ => Or.inl)
        (fun _ => Or.inl) fun _ => Or.inl
      refine (List.mem_append.mp hb).imp_right fun hb => ?_
      obtain rfl := List.mem_singleton.mp hb
      refine ⟨fun r hr => ?_, nofun⟩
      rw [List.append_nil] at hr
      obtain ⟨e, he, rfl⟩ := List.mem_map.mp hr
      exact h.batching e (List.mem_of_mem_filter he)
  | finish i =>
      obtain ⟨b, r, rest, hb, hmark, rfl⟩ := finish_cases hstep
      obtain ⟨hrequests, hreport⟩ := h.sent b (List.mem_of_getElem? hb)
      refine h.next hg (h.own.grows hg fun _ _ => Or.inl) (fun _ _ => Or.inl) (fun _ => Or.inl)
        (fun _ => Or.inl) (fun b' hb' => ?_) (fun _ _ => Or.inl) (fun _ => Or.inl) fun _ => Or.inl
      refine (mem_set hb').imp_right ?_
      rintro rfl
      refine ⟨fun r' hr' => hrequests r' ?_, hreport⟩
      rw [hmark]
      simp only [List.mem_append, List.mem_cons, List.not_mem_nil, or_false] at hr' ⊢
      tauto
  | sendResult i =>
      obtain ⟨b, r, rest, k, hb, hmark, hreport, hsend, hk, st1, rfl, hst'⟩ := sendResult_cases hstep
      obtain ⟨hrequests, -⟩ := h.sent b (List.mem_of_getElem? hb)
      have hr : Alive st r.task := hrequests r (by simp [hsend])
      have hrest : ∀ r' ∈ b.toMark ++ rest, Alive st r'.task := by
        intro r' hr'
        refine hrequests r' ?_
        rw [hsend]
        simp only [List.mem_append, List.mem_cons] at hr' ⊢
        tauto
      have hset : ∀ report : Option Nat, (∀ t ∈ report, Alive st t) → ∀ b' ∈
          st.sent.set i { b with toSend := rest, report }, b' ∈ st.sent ∨
            ((∀ r ∈ b'.toMark ++ b'.toSend, Alive st r.task) ∧ ∀ t ∈ b'.report, Alive st t) := by
        intro report halive b' hb'
        refine (mem_set hb').imp_right ?_
        rintro rfl
        exact ⟨hrest, halive⟩
      have hchecked : ∀ report : Option Nat, (∀ t ∈ report, Alive st t) →
          Valid { st.update r.task fun k => { k with app := k.app.isFinished.2 } with
            sent := st.sent.set i { b with toSend := rest, report } } := by
        intro report halive
        have hg : Grows st { st.update r.task fun k => { k with app := k.app.isFinished.2 } with
            sent := st.sent.set i { b with toSend := rest, report } } :=
          .of_update rfl rfl fun _ => ⟨rfl, rfl, rfl, rfl, rfl⟩
        exact h.next hg (h.own.grows hg fun _ _ => Or.inl) (fun _ _ => Or.inl) (fun _ => Or.inl)
          (fun _ => Or.inl) (hset report halive) (fun _ _ => Or.inl) (fun _ => Or.inl)
          fun _ => Or.inl
      rcases hst' with ⟨-, rfl⟩ | ⟨-, rfl⟩
      · refine hchecked _ fun t ht => ?_
        obtain rfl := Option.some.inj ht
        exact hr
      · obtain ⟨k', hk', hans, -⟩ := hr
        obtain rfl := Option.some.inj (hk.symm.trans hk')
        have hget := update_of_get (f := fun k => { k with app := k.app.isFinished.2 })
          (t := r.task) hk
        rw [if_pos rfl] at hget
        rw [hreport]
        exact Valid.place (k := { k with app := k.app.isFinished.2 }) _ (hchecked none nofun) hget hans
  | report i =>
      obtain ⟨b, t, k, hb, ht, hk, rfl⟩ := report_cases hstep
      obtain ⟨hrequests, hreport⟩ := h.sent b (List.mem_of_getElem? hb)
      obtain ⟨k', hk', hans, -⟩ := hreport t ht
      obtain rfl := Option.some.inj (hk.symm.trans hk')
      refine h.next hg (h.own.grows hg fun _ _ => Or.inl) (fun _ _ => Or.inl) (fun _ => Or.inl)
        (fun _ => Or.inl) (fun b' hb' => ?_) (fun name e he => ?_) (fun e he => ?_) fun _ => Or.inl
      · refine (mem_set hb').imp_right ?_
        rintro rfl
        exact ⟨hrequests, nofun⟩
      · refine (mem_push he).imp_right ?_
        rintro ⟨rfl, rfl⟩
        exact ⟨k, hk, hans, rfl⟩
      · refine (List.mem_append.mp he).imp_right fun he => ?_
        obtain rfl := List.mem_singleton.mp he
        exact ⟨k, hk, hans, trivial⟩
  | reply name =>
      obtain ⟨t, dropped, rest, k, hq, hk, rfl⟩ := reply_cases hstep
      obtain ⟨k', hk', hans, -⟩ := h.answering name (t, dropped) (by rw [hq]; exact List.mem_cons_self ..)
      obtain rfl := Option.some.inj (hk.symm.trans hk')
      refine h.next hg h.own (fun _ _ => Or.inl) (fun _ => Or.inl) (fun _ => Or.inl)
        (fun _ => Or.inl) (fun _ _ he => Or.inl (mem_pull hq he)) (fun _ => Or.inl)
        fun reply hreply => ?_
      refine (List.mem_append.mp hreply).imp_right fun hreply => ?_
      obtain rfl := List.mem_singleton.mp hreply
      exact ⟨hans.2, k, hk, rfl⟩

/-! ## The books -/

/-- The instance the drop thread has found not marked. -/
def DropThread.claims : DropThread → Option Nat
  | .claimed r _ => some r.task
  | .marked r _ => some r.task
  | _ => none

def Reply.entry (r : Reply) : Nat × Bool := (r.task, r.dropped)

/-- An instance is reported finished once its board says so, and dropped at most
once more than finished: whoever drops it marks it, and only the report that it
is finished takes the mark away. What was reported is answered or on a queue. -/
structure Books (st : Server) : Prop where
  finished : ∀ (t : Nat) k, st.instances[t]? = some k → st.reports.count (t, false) +
    (st.sent.map (·.report)).count (some t) = if k.app.reported then 1 else 0
  claimed : ∀ t ∈ st.dropThread.claims,
    st.reports.count (t, true) ≤ st.reports.count (t, false)
  unmarked : ∀ (t : Nat) k, st.instances[t]? = some k → k.dropped = false →
    st.reports.count (t, true) ≤ st.reports.count (t, false)
  atMost : ∀ t, st.reports.count (t, true) ≤ st.reports.count (t, false) + 1
  queue : ∀ (t : Nat) k, st.instances[t]? = some k → ∀ dropped, st.reports.count (t, dropped) =
    (st.replies.map Reply.entry).count (t, dropped) + (st.perAppQueue k.name).count (t, dropped)

theorem books_start : Books start :=
  ⟨nofun, nofun, nofun, fun _ => Nat.zero_le _, nofun⟩

/-- Steps that report nothing. -/
theorem Books.next (h : Books st)
    (hinstances : ∀ (t : Nat) k', st'.instances[t]? = some k' → ∃ k, st.instances[t]? = some k ∧
      k'.name = k.name ∧ k'.app.reported = k.app.reported ∧ (k'.dropped = false → k.dropped = false))
    (hreports : st'.reports = st.reports) (hreplies : st'.replies = st.replies)
    (hqueue : st'.perAppQueue = st.perAppQueue)
    (hsent : ∀ t, (st'.sent.map (·.report)).count (some t) = (st.sent.map (·.report)).count (some t))
    (hclaims : ∀ t ∈ st'.dropThread.claims, t ∈ st.dropThread.claims ∨
      ∃ k, st.instances[t]? = some k ∧ k.dropped = false) : Books st' where
  finished t k' hk' := by
    obtain ⟨k, hk, -, hrep, -⟩ := hinstances t k' hk'
    rw [hreports, hsent, hrep]
    exact h.finished t k hk
  claimed t ht := by
    rw [hreports]
    rcases hclaims t ht with hold | ⟨k, hk, hnew⟩
    · exact h.claimed t hold
    · exact h.unmarked t k hk hnew
  unmarked t k' hk' hnew := by
    obtain ⟨k, hk, -, -, hdropped⟩ := hinstances t k' hk'
    rw [hreports]
    exact h.unmarked t k hk (hdropped hnew)
  atMost t := by
    rw [hreports]
    exact h.atMost t
  queue t k' hk' dropped := by
    obtain ⟨k, hk, hname, -, -⟩ := hinstances t k' hk'
    rw [hreports, hreplies, hqueue, hname]
    exact h.queue t k hk dropped

theorem instances_of_eq (h : st'.instances = st.instances) (t : Nat) (k' : Instance)
    (hk' : st'.instances[t]? = some k') : ∃ k, st.instances[t]? = some k ∧
      k'.name = k.name ∧ k'.app.reported = k.app.reported ∧
        (k'.dropped = false → k.dropped = false) :=
  ⟨k', h ▸ hk', rfl, rfl, id⟩

theorem instances_of_update (h : st'.instances = (st.update u f).instances)
    (hf : ∀ k, st.instances[u]? = some k → (f k).name = k.name ∧
      (f k).app.reported = k.app.reported ∧ ((f k).dropped = false → k.dropped = false))
    (t : Nat) (k' : Instance) (hk' : st'.instances[t]? = some k') :
    ∃ k, st.instances[t]? = some k ∧ k'.name = k.name ∧ k'.app.reported = k.app.reported ∧
      (k'.dropped = false → k.dropped = false) := by
  rw [h] at hk'
  obtain ⟨k, hk, rfl⟩ := get_of_update hk'
  refine ⟨k, hk, ?_⟩
  split
  case isTrue hut =>
    subst hut
    exact hf k hk
  case isFalse => exact ⟨rfl, rfl, id⟩

theorem count_set_add {α : Type} [BEq α] [LawfulBEq α] [DecidableEq α] {l : List α} {i : Nat} {a b : α}
    (h : l[i]? = some a) (x : α) : (l.set i b).count x + (if a = x then 1 else 0) =
      l.count x + if b = x then 1 else 0 := by
  obtain ⟨hi, rfl⟩ := List.getElem?_eq_some_iff.mp h
  have hpos : l[i] = x → 0 < l.count x := by
    rintro rfl
    exact List.count_pos_iff.mpr (List.getElem_mem hi)
  rw [List.count_set hi]
  simp only [beq_iff_eq]
  by_cases hx : l[i] = x
  · have := hpos hx
    simp only [hx, if_true]
    omega
  · simp only [hx, if_false]
    omega

/-- The reports that are due, after a change to one batch. -/
theorem count_report_set {i : Nat} {b d : Batch} (h : st.sent[i]? = some b) (t : Nat) :
    ((st.sent.set i d).map (·.report)).count (some t) + (if b.report = some t then 1 else 0) =
      (st.sent.map (·.report)).count (some t) + if d.report = some t then 1 else 0 := by
  rw [List.map_set]
  refine count_set_add ?_ (some t)
  rw [List.getElem?_map, h]
  rfl

/-- An instance that is not there has no entries. -/
theorem Valid.no_entries (h : Valid st) (hnone : st.instances[t]? = none) (dropped : Bool) :
    st.reports.count (t, dropped) = 0 ∧ (st.sent.map (·.report)).count (some t) = 0 ∧
      (st.replies.map Reply.entry).count (t, dropped) = 0 ∧
      ∀ name, (st.perAppQueue name).count (t, dropped) = 0 := by
  have hknown : ∀ P, ¬ Known st t P := by
    rintro P ⟨k, hk, -⟩
    rw [hnone] at hk
    cases hk
  refine ⟨?_, ?_, ?_, fun name => ?_⟩
  · exact List.count_eq_zero.mpr fun hmem => hknown _ (h.reports _ hmem)
  · refine List.count_eq_zero.mpr fun hmem => ?_
    obtain ⟨b, hb, hreport⟩ := List.mem_map.mp hmem
    exact hknown _ ((h.sent b hb).2 t hreport)
  · refine List.count_eq_zero.mpr fun hmem => ?_
    obtain ⟨reply, hreply, hentry⟩ := List.mem_map.mp hmem
    obtain ⟨-, k, hk, -⟩ := h.replies reply hreply
    rw [(Prod.mk.inj hentry).1, hnone] at hk
    cases hk
  · exact List.count_eq_zero.mpr fun hmem => hknown _ (h.answering name _ hmem)

theorem Books.create {fd : Nat} (h : Books st) (hv : Valid st) :
    Books (st.create name spec fd) := by
  have hcases : ∀ (t : Nat) k', (st.create name spec fd).instances[t]? = some k' →
      st.instances[t]? = some k' ∨ (st.instances[t]? = none ∧
        k' = ⟨name, spec, fd, 0, 0, .new spec, false⟩) := by
    intro t k' hk'
    rw [Server.create, List.getElem?_append] at hk'
    split at hk'
    case isTrue => exact Or.inl hk'
    case isFalse hlen =>
      refine Or.inr ⟨List.getElem?_eq_none (Nat.not_lt.mp hlen), ?_⟩
      exact (List.mem_singleton.mp (List.mem_of_getElem? hk'))
  refine ⟨fun t k' hk' => ?_, h.claimed, fun t k' hk' hnew => ?_, h.atMost, fun t k' hk' dropped => ?_⟩
  · rcases hcases t k' hk' with hold | ⟨hnone, rfl⟩
    · exact h.finished t k' hold
    · obtain ⟨hreports, hsent, -⟩ := hv.no_entries hnone false
      show st.reports.count (t, false) + _ = 0
      rw [hreports]
      exact (Nat.zero_add _).trans hsent
  · rcases hcases t k' hk' with hold | ⟨hnone, rfl⟩
    · exact h.unmarked t k' hold hnew
    · show st.reports.count (t, true) ≤ _
      rw [(hv.no_entries hnone true).1]
      exact Nat.zero_le _
  · rcases hcases t k' hk' with hold | ⟨hnone, rfl⟩
    · exact h.queue t k' hold dropped
    · obtain ⟨hreports, -, hreplies, hqueue⟩ := hv.no_entries hnone dropped
      show st.reports.count (t, dropped) = (st.replies.map Reply.entry).count (t, dropped) +
        (st.perAppQueue name).count (t, dropped)
      rw [hreports, hreplies, hqueue]

theorem Books.place (h : Books st) : Books (st.place t spec dsts) := by
  rw [place_eq]
  exact h.next (instances_of_eq rfl) rfl rfl rfl (fun _ => rfl) fun _ => Or.inl

/-- One more entry for the instance. -/
theorem count_report (e e' : Nat × Bool) : (st.reports ++ [e]).count e' =
    st.reports.count e' + if e = e' then 1 else 0 := by
  rw [List.count_append, List.count_singleton]
  simp only [beq_iff_eq]

theorem count_push {table : String → List (Nat × Bool)} {name' : String} (e e' : Nat × Bool) :
    (Function.update table name (table name ++ [e]) name').count e' =
      (table name').count e' + if name' = name ∧ e = e' then 1 else 0 := by
  by_cases hn : name' = name
  · subst hn
    rw [Function.update_self, List.count_append, List.count_singleton]
    simp only [beq_iff_eq, true_and]
  · rw [Function.update_of_ne hn, if_neg fun h => hn h.1]
    rfl

/-- The accounts of the queue, after an instance was put on it. -/
theorem Books.queue_pushed (h : Books st) (hk : st.instances[u]? = some k) (dropped' : Bool)
    (t : Nat) (k' : Instance)
    (hk' : (st.addtoAppQueue k.name u dropped').instances[t]? = some k') (dropped : Bool) :
    (st.reports ++ [(u, dropped')]).count (t, dropped) =
      (st.replies.map Reply.entry).count (t, dropped) +
        ((st.addtoAppQueue k.name u dropped').perAppQueue k'.name).count (t, dropped) := by
  obtain ⟨k0, hk0, rfl⟩ := get_of_update hk'
  have hname : (if u = t then { k0 with dropped := dropped' } else k0).name = k0.name := by
    split <;> rfl
  rw [hname, count_report, h.queue t k0 hk0 dropped]
  show _ = _ + (Function.update st.perAppQueue k.name _ k0.name).count _
  rw [count_push]
  by_cases hut : u = t
  · subst hut
    obtain rfl := Option.some.inj (hk.symm.trans hk0)
    simp only [true_and]
    omega
  · have hne : ¬ (u, dropped') = (t, dropped) := fun heq => hut (Prod.mk.inj heq).1
    simp only [hne, and_false, if_false, Nat.add_zero]

/-- The check that finds the instance finished. -/
theorem Books.found (h : Books st) {i : Nat} {b : Batch} {r : Request} {rest : List Request}
    (hb : st.sent[i]? = some b) (hreport : b.report = none) (hk : st.instances[r.task]? = some k)
    (hfin : k.app.isFinished.1 = true) :
    Books { st.update r.task fun k => { k with app := k.app.isFinished.2 } with
      sent := st.sent.set i { b with toSend := rest, report := some r.task } } := by
  obtain ⟨heq, hnot⟩ : k.app.isFinished = (true, { k.app with reported := true }) ∧
      k.app.reported = false := by
    rcases k.app.isFinished_cases with ⟨heq, -⟩ | ⟨heq, hnot, -⟩
    · rw [heq] at hfin
      cases hfin
    · exact ⟨heq, hnot⟩
  refine ⟨fun t k' hk' => ?_, h.claimed, fun t k' hk' hnew => ?_, h.atMost, fun t k' hk' => ?_⟩
  · obtain ⟨k0, hk0, rfl⟩ := get_of_update hk'
    have hold := h.finished t k0 hk0
    have hcount := count_report_set (d := { b with toSend := rest, report := some r.task }) hb t
    rw [hreport] at hcount
    show st.reports.count _ + _ = _
    by_cases hrt : r.task = t
    · subst hrt
      obtain rfl := Option.some.inj (hk.symm.trans hk0)
      rw [hnot] at hold
      simp only [reduceCtorEq, if_true, if_false, heq, Bool.false_eq_true] at hcount hold ⊢
      omega
    · simp only [reduceCtorEq, Option.some.injEq, hrt, if_false] at hcount ⊢
      omega
  · obtain ⟨k0, hk0, rfl⟩ := get_of_update hk'
    refine h.unmarked t k0 hk0 ?_
    split at hnew <;> exact hnew
  · obtain ⟨k0, hk0, rfl⟩ := get_of_update hk'
    have hname : (if r.task = t then { k0 with app := k0.app.isFinished.2 } else k0).name =
        k0.name := by
      split <;> rfl
    rw [hname]
    exact h.queue t k0 hk0

theorem Books.step {act : Act} (h : Books st) (hv : Valid st)
    (hstep : Replies.step apps act st = some st') : Books st' := by
  cases act with
  | connect name fd =>
      obtain ⟨spec, rfl⟩ := connect_cases hstep
      exact h.create hv
  | recvTensor fd tid =>
      rcases recvTensor_cases hstep with ⟨-, rfl⟩ | ⟨-, t, k, id, ht, hk, hid, st1, rfl, hst'⟩
      · exact h.next (instances_of_eq rfl) rfl rfl rfl (fun _ => rfl) fun _ => Or.inl
      · have hreceived : Books { st.update t fun k =>
            { k with taskID := tid, arrived := k.arrived + 1 } with
            received := st.received ++ [(fd, tid)] } :=
          h.next (instances_of_update rfl fun _ _ => ⟨rfl, rfl, fun h => h⟩) rfl rfl rfl
            (fun _ => rfl) fun _ => Or.inl
        rcases hst' with rfl | rfl
        · exact hreceived.place
        · have hget := update_of_get (t := t)
            (f := fun k => { k with taskID := tid, arrived := k.arrived + 1 }) hk
          rw [if_pos rfl] at hget
          exact hreceived.place.create
            (Valid.place (k := { k with taskID := tid, arrived := k.arrived + 1 }) _ (hv.received tid ht)
              hget (answerable_received hv.own ht hk))
  | look name =>
      obtain ⟨-, rfl⟩ := look_cases hstep
      exact h.next (instances_of_eq rfl) rfl rfl rfl (fun _ => rfl) nofun
  | test late =>
      obtain ⟨d, rfl, hd⟩ := test_cases hstep
      refine h.next (instances_of_eq rfl) rfl rfl rfl (fun _ => rfl) fun t ht => ?_
      rcases hd with rfl | ⟨r, q, -, rfl | ⟨rfl, k, hk, hnew⟩⟩
      · cases ht
      · cases ht
      · obtain rfl := Option.some.inj ht
        exact Or.inr ⟨k, hk, hnew⟩
  | mark =>
      obtain ⟨r, q, hclaimed, rfl⟩ := mark_cases hstep
      refine h.next (instances_of_update rfl fun _ _ => ⟨rfl, rfl, nofun⟩) rfl rfl rfl
        (fun _ => rfl) fun t ht => Or.inl ?_
      rw [hclaimed]
      exact ht
  | drop =>
      obtain ⟨r, q, k, hmarked, hk, rfl⟩ := drop_cases hstep
      have hclaimed := h.claimed r.task (by rw [hmarked]; rfl)
      refine ⟨fun t k' hk' => ?_, nofun, fun t k' hk' hnew => ?_, fun t => ?_,
        h.queue_pushed hk true⟩
      · obtain ⟨k0, hk0, rfl⟩ := get_of_update hk'
        have hfin := h.finished t k0 hk0
        show (st.reports ++ _).count _ + _ = _
        rw [count_report, if_neg fun heq => by cases (Prod.mk.inj heq).2]
        split
        · exact hfin
        · exact hfin
      · obtain ⟨k0, hk0, rfl⟩ := get_of_update hk'
        show (st.reports ++ _).count _ ≤ (st.reports ++ _).count _
        rw [count_report, count_report]
        by_cases hrt : r.task = t
        · rw [if_pos hrt] at hnew
          cases hnew
        · rw [if_neg hrt] at hnew
          have hold := h.unmarked t k0 hk0 hnew
          simp only [Prod.mk.injEq, hrt, false_and, if_false]
          exact hold
      · show (st.reports ++ _).count _ ≤ (st.reports ++ _).count _ + 1
        have hold := h.atMost t
        rw [count_report, count_report]
        by_cases hrt : r.task = t
        · subst hrt
          simp only [Prod.mk.injEq, true_and, if_true, Bool.true_eq_false, if_false]
          omega
        · simp only [Prod.mk.injEq, hrt, false_and, if_false]
          exact hold
  | pop thread name =>
      obtain ⟨r, q, -, rfl⟩ := pop_cases hstep
      exact h.next (instances_of_eq rfl) rfl rfl rfl (fun _ => rfl) fun _ => Or.inl
  | send thread =>
      obtain rfl := send_eq hstep
      refine h.next (instances_of_eq rfl) rfl rfl rfl (fun t => ?_) fun _ => Or.inl
      rw [List.map_append, List.count_append]
      rfl
  | finish i =>
      obtain ⟨b, r, rest, hb, hmark, rfl⟩ := finish_cases hstep
      refine h.next (instances_of_update rfl fun _ _ => ⟨rfl, rfl, id⟩) rfl rfl rfl (fun t => ?_)
        fun _ => Or.inl
      have hcount := count_report_set (d := { b with toMark := rest, toSend := b.toSend ++ [r] }) hb t
      exact Nat.add_right_cancel hcount
  | sendResult i =>
      obtain ⟨b, r, rest, k, hb, hmark, hreport, hsend, hk, st1, rfl, hst'⟩ := sendResult_cases hstep
      rcases hst' with ⟨hfin, rfl⟩ | ⟨hfin, rfl⟩
      · exact h.found hb hreport hk hfin
      · have hsame : k.app.isFinished.2 = k.app := by
          rcases k.app.isFinished_cases with ⟨heq, -⟩ | ⟨heq, -⟩
          · rw [heq]
          · rw [heq] at hfin
            cases hfin
        refine Books.place (h.next (instances_of_update rfl fun k' hk' => ?_) rfl rfl rfl
          (fun t => ?_) fun _ => Or.inl)
        · obtain rfl := Option.some.inj (hk.symm.trans hk')
          exact ⟨rfl, congrArg (·.reported) hsame, fun h => h⟩
        · exact Nat.add_right_cancel (count_report_set (d := { b with toSend := rest }) hb t)
  | report i =>
      obtain ⟨b, t, k, hb, ht, hk, rfl⟩ := report_cases hstep
      refine ⟨fun u k' hk' => ?_, fun u hu => ?_, fun u k' hk' hnew => ?_, fun u => ?_,
        h.queue_pushed hk false⟩
      · obtain ⟨k0, hk0, rfl⟩ := get_of_update hk'
        have hfin := h.finished u k0 hk0
        have hcount := count_report_set (d := { b with report := none }) hb u
        have happ : (if t = u then { k0 with dropped := false } else k0).app = k0.app := by
          split <;> rfl
        show (st.reports ++ _).count _ + _ = _
        rw [count_report, happ, ← hfin]
        rw [ht] at hcount
        simp only [Prod.mk.injEq, and_true, Option.some.injEq, reduceCtorEq, if_false] at hcount ⊢
        omega
      · have hold := h.claimed u hu
        show (st.reports ++ _).count _ ≤ (st.reports ++ _).count _
        rw [count_report, count_report]
        simp only [Prod.mk.injEq, Bool.false_eq_true, and_false, if_false]
        omega
      · obtain ⟨k0, hk0, rfl⟩ := get_of_update hk'
        show (st.reports ++ _).count _ ≤ (st.reports ++ _).count _
        rw [count_report, count_report]
        simp only [Prod.mk.injEq, Bool.false_eq_true, and_false, and_true, if_false]
        by_cases htu : t = u
        · have hold := h.atMost u
          rw [if_pos htu]
          exact hold
        · rw [if_neg htu] at hnew ⊢
          exact h.unmarked u k0 hk0 hnew
      · have hold := h.atMost u
        show (st.reports ++ _).count _ ≤ (st.reports ++ _).count _ + 1
        rw [count_report, count_report]
        simp only [Prod.mk.injEq, Bool.false_eq_true, and_false, if_false]
        omega
  | reply name =>
      obtain ⟨t, dropped, rest, k, hq, hk, rfl⟩ := reply_cases hstep
      obtain ⟨k', hk', -, hname⟩ := hv.answering name (t, dropped)
        (by rw [hq]; exact List.mem_cons_self ..)
      obtain rfl := Option.some.inj (hk.symm.trans hk')
      refine ⟨h.finished, h.claimed, h.unmarked, h.atMost, fun u k' hk' dropped' => ?_⟩
      show _ = ((st.replies ++ _).map _).count _ + (Function.update st.perAppQueue name rest _).count _
      rw [h.queue u k' hk' dropped', List.map_append, List.count_append, List.map_singleton,
        List.count_singleton]
      by_cases hn : k'.name = name
      · rw [hn, Function.update_self, hq, List.count_cons]
        show _ = _ + (if (t, dropped) == (u, dropped') then 1 else 0) + _
        omega
      · rw [Function.update_of_ne hn]
        have hne : ¬ t = u := by
          rintro rfl
          obtain rfl := Option.some.inj (hk.symm.trans hk')
          exact hn hname
        have hentry : (Reply.entry ⟨t, dropped, k.socketFD, k.taskID⟩ == (u, dropped')) = false := by
          simp [Reply.entry, hne]
        rw [hentry]
        simp

/-! ## Whole runs -/

theorem inv_run {acts : List Act} (hrun : Machine.run (Replies.step apps) acts start = some st) :
    Valid st ∧ Books st := by
  refine Machine.run_invariant (I := fun st => Valid st ∧ Books st) ?_ hrun
    ⟨valid_start, books_start⟩
  rintro act st st' ⟨hv, hb⟩ hstep
  exact ⟨hv.step hstep, hb.step hv hstep⟩

/-- An instance is reported finished at most once. -/
theorem finished_le_one (hv : Valid st) (hb : Books st) (t : Nat) :
    st.reports.count (t, false) ≤ 1 := by
  cases hk : st.instances[t]? with
  | none =>
      rw [(hv.no_entries hk false).1]
      exact Nat.zero_le 1
  | some k =>
      have hfin := hb.finished t k hk
      split at hfin <;> omega

/-- Answers are reports. -/
theorem answers_le (hv : Valid st) (hb : Books st) (t : Nat) (dropped : Bool) :
    (st.replies.map Reply.entry).count (t, dropped) ≤ st.reports.count (t, dropped) := by
  cases hk : st.instances[t]? with
  | none =>
      rw [(hv.no_entries hk dropped).2.2.1]
      exact Nat.zero_le _
  | some k =>
      rw [hb.queue t k hk dropped]
      exact Nat.le_add_right _ _

/-- **Replies.** However the threads interleave, with any graphs: an instance is
answered at most once as finished, and as dropped at most once more often than it
was reported finished, so at most twice; and clients get only ids they have sent. -/
theorem replies_bounded {acts : List Act}
    (hrun : Machine.run (Replies.step apps) acts start = some st) (t : Nat) :
    (st.replies.map Reply.entry).count (t, false) ≤ 1 ∧
      (st.replies.map Reply.entry).count (t, true) ≤ 1 + st.reports.count (t, false) ∧
      st.reports.count (t, false) ≤ 1 ∧
      ∀ reply ∈ st.replies, (reply.socketFD, reply.taskID) ∈ st.received := by
  obtain ⟨hv, hb⟩ := inv_run hrun
  have hone := finished_le_one hv hb t
  have hfinished := answers_le hv hb t false
  have hdropped := answers_le hv hb t true
  have hmost := hb.atMost t
  exact ⟨by omega, by omega, hone, fun reply hreply => (hv.replies reply hreply).1⟩

/-- Two models on a tensor; the output waits for the first only. -/
def fork : AppSpec :=
  .setupModelDependency [⟨.input, "Input", 0, [], [1, 2]⟩]
    [⟨.model, "lenet1", 1, [0], [3]⟩, ⟨.model, "vgg16", 2, [0], []⟩]
    [⟨.output, "None", 3, [1], []⟩]

/-- Both requests are late: the instance is dropped, executed, and dropped again. -/
def forkRun : List Act :=
  [.connect "fork" 7, .recvTensor 7 1, .look "lenet1", .test true, .mark, .drop, .test true,
    .pop 0 "lenet1", .send 0, .finish 0, .sendResult 0, .report 0,
    .look "vgg16", .test true, .mark, .drop, .reply "fork", .reply "fork", .reply "fork"]

theorem replies_bounded_fork :
    ∃ st, Machine.run (Replies.step [("fork", fork)]) forkRun start = some st ∧
      (st.replies.map Reply.entry).count (0, false) = 1 ∧
      (st.replies.map Reply.entry).count (0, true) = 2 ∧
      ∀ reply ∈ st.replies, (reply.socketFD, reply.taskID) ∈ st.received := by
  obtain ⟨st, hrun, hp⟩ := Machine.run_any (show (Machine.run (Replies.step [("fork", fork)]) forkRun
    start).any (fun st => decide ((st.replies.map Reply.entry).count (0, false) = 1 ∧
      (st.replies.map Reply.entry).count (0, true) = 2)) = true by decide +kernel)
  obtain ⟨hfinished, hdropped⟩ := of_decide_eq_true hp
  exact ⟨st, hrun, hfinished, hdropped, (replies_bounded hrun 0).2.2.2⟩

end Replies

end Glet
