import Glet.Dispatch

/-!
# Runs of proxies and threads

In every state that is reached, the threads of a proxy have as many requests as
they count, those that the load balancer has admitted have room for one more, and
every batch that is not done is on its way to an output thread (`sound_run`).
Some pair of each model is always admitted.
-/

namespace Glet

namespace Dispatch

open Replies (Server)

variable {apps : List (String × AppSpec)} {st st' : State} {p i j : Nat} {pr : Proxy}

/-! ## The threads and their requests -/

/-- The requests that a batching thread has, when it is there. -/
def Holds : Option (Slots.Batcher String) → Nat → Prop
  | some (.batching _ k), n => n = k
  | some (.entered _), n => 0 < n
  | some (.released _), n => 0 < n
  | _, n => n = 0

/-- What the server has in the batch of a thread. -/
def held (server : Server) (k : Nat) : Nat := server.batching.countP fun e => e.1 == k

variable {n : Nat} {ts : List (Slots.Batcher String)} {t u : Slots.Batcher String}

theorem holds_set (hi : ts[i]? = some t) (ht : Holds (some t) n → Holds (some u) n) {j : Nat}
    (h : Holds ts[j]? n) : Holds (ts.set i u)[j]? n := by
  by_cases hij : i = j
  · subst hij
    rw [hi] at h
    rw [List.getElem?_set_self (List.getElem?_eq_some_iff.mp hi).1]
    exact ht h
  · rwa [List.getElem?_set_ne hij]

/-- Moves that are inside the proxy change no batch. -/
theorem holds_inner {s s' : Slots.State String} {a : Slots.Act String} (ha : a.inner = true)
    (hs : Slots.step a s = some s') (h : Holds s.batchers[i]? n) : Holds s'.batchers[i]? n := by
  cases Slots.step_cases hs with
  | @take j task rest hj _ _ => exact holds_set (u := .popped task) hj id h
  | @enter j task hj _ => exact holds_set (u := .batching task 0) hj id h
  | @giveUp j task hj => exact holds_set (u := .idle) hj id h
  | @exec j m task hj _ => exact holds_set (u := .entered task.reqName) hj (fun hn => hn ▸ Nat.succ_pos m) h
  | @release j m hj => exact holds_set (u := .released m) hj id h
  | add => cases ha
  | send => cases ha
  | _ => exact h

theorem mem_set_of_ne {α : Type} {l : List α} {k : Nat} {a b c : α} (ha : a ∈ l) (hb : l[k]? = some b)
    (hne : a ≠ b) : a ∈ l.set k c := by
  obtain ⟨m, hm⟩ := List.mem_iff_getElem?.mp ha
  have hkm : k ≠ m := by
    rintro rfl
    exact hne (Option.some.inj (hm.symm.trans hb))
  exact List.mem_of_getElem? ((List.getElem?_set_ne hkm).trans hm)

theorem batcher_set {pr' : Proxy} (hpr : st.proxies[p]? = some pr) (q j : Nat) :
    (st.setProxy p pr').batcher q j =
      if p = q then pr'.slots.batchers[j]? else st.batcher q j := by
  simp only [State.batcher, State.setProxy]
  split
  case isTrue hpq =>
    subst hpq
    rw [List.getElem?_set_self (List.getElem?_eq_some_iff.mp hpr).1, Option.bind_some]
  case isFalse hpq => rw [List.getElem?_set_ne hpq]

/-- A step that leaves the batching threads of the proxy where they are. -/
theorem batcher_same {pr' : Proxy} (hpr : st.proxies[p]? = some pr)
    (hbatchers : pr'.slots.batchers = pr.slots.batchers) (q j : Nat) :
    (st.setProxy p pr').batcher q j = st.batcher q j := by
  rw [batcher_set hpr]
  split
  case isTrue hpq =>
    subst hpq
    rw [hbatchers, State.batcher, hpr, Option.bind_some]
  case isFalse => rfl

theorem batcher_other {pr' : Proxy} (hpr : st.proxies[p]? = some pr)
    (hbatchers : pr'.slots.batchers = pr.slots.batchers.set i t) {q j : Nat} (hne : ¬ (p = q ∧ i = j)) :
    (st.setProxy p pr').batcher q j = st.batcher q j := by
  rw [batcher_set hpr]
  split
  case isTrue hpq =>
    subst hpq
    rw [hbatchers, List.getElem?_set_ne fun hij => hne ⟨rfl, hij⟩, State.batcher, hpr, Option.bind_some]
  case isFalse => rfl

theorem batcher_eq (hpr : st.proxies[p]? = some pr) (i : Nat) :
    st.batcher p i = pr.slots.batchers[i]? := by
  rw [State.batcher, hpr, Option.bind_some]

theorem threadOf_inj {q j : Nat} : threadOf p i = threadOf q j ↔ p = q ∧ i = j := Nat.pair_eq_pair

theorem batching_place (server : Server) (t : Nat) (spec : AppSpec) (dsts : List Nat) :
    (server.place t spec dsts).batching = server.batching := by
  rw [Replies.place_eq]

theorem sent_place (server : Server) (t : Nat) (spec : AppSpec) (dsts : List Nat) :
    (server.place t spec dsts).sent = server.sent := by
  rw [Replies.place_eq]

/-- Other threads change no batch. -/
theorem batches_step {act : Replies.Act} {server server' : Server} (hact : ofProxy act = false)
    (h : Replies.step apps act server = some server') :
    server'.batching = server.batching ∧ server'.sent = server.sent := by
  cases act with
  | connect name fd =>
      obtain ⟨spec, rfl⟩ := Replies.connect_cases h
      exact ⟨rfl, rfl⟩
  | recvTensor fd tid =>
      rcases Replies.recvTensor_cases h with ⟨-, rfl⟩ | ⟨-, t, k, id, -, -, -, st1, rfl, rfl | rfl⟩
      · exact ⟨rfl, rfl⟩
      · exact ⟨batching_place .., sent_place ..⟩
      · exact ⟨batching_place .., sent_place ..⟩
  | look name =>
      obtain ⟨-, rfl⟩ := Replies.look_cases h
      exact ⟨rfl, rfl⟩
  | test late =>
      obtain ⟨d, rfl, -⟩ := Replies.test_cases h
      exact ⟨rfl, rfl⟩
  | mark =>
      obtain ⟨r, q, -, rfl⟩ := Replies.mark_cases h
      exact ⟨rfl, rfl⟩
  | drop =>
      obtain ⟨r, q, k, -, -, rfl⟩ := Replies.drop_cases h
      exact ⟨rfl, rfl⟩
  | reply name =>
      obtain ⟨t, dropped, rest, k, -, -, rfl⟩ := Replies.reply_cases h
      exact ⟨rfl, rfl⟩
  | _ => cases hact

/-- An output thread changes its own batch. -/
theorem handling_step {b : Nat} {batch : Replies.Batch} {act : Replies.Act} {server server' : Server}
    (hact : handling b batch = some act) (h : Replies.step apps act server = some server') :
    server'.batching = server.batching ∧ ∃ batch', server'.sent = server.sent.set b batch' := by
  unfold handling at hact
  split at hact
  case h_1 =>
    obtain rfl := Option.some.inj hact
    obtain ⟨b', t, k, -, -, -, rfl⟩ := Replies.report_cases h
    exact ⟨rfl, _, rfl⟩
  case h_2 =>
    obtain rfl := Option.some.inj hact
    obtain ⟨b', r, rest, -, -, rfl⟩ := Replies.finish_cases h
    exact ⟨rfl, _, rfl⟩
  case h_3 =>
    obtain rfl := Option.some.inj hact
    obtain ⟨b', r, rest, k, -, -, -, -, -, st1, rfl, ⟨-, rfl⟩ | ⟨-, rfl⟩⟩ := Replies.sendResult_cases h
    · exact ⟨rfl, _, rfl⟩
    · exact ⟨batching_place .., _, sent_place ..⟩
  case h_4 => cases hact

theorem held_pop {thread k : Nat} {name : String} {server server' : Server}
    (h : Replies.step apps (.pop thread name) server = some server') :
    held server' k = held server k + if thread = k then 1 else 0 := by
  obtain ⟨r, q, -, rfl⟩ := Replies.pop_cases h
  simp only [held, List.countP_append, List.countP_singleton, beq_iff_eq]

theorem held_send {thread k : Nat} {server server' : Server}
    (h : Replies.step apps (.send thread) server = some server') :
    held server' k = if thread = k then 0 else held server k := by
  obtain rfl := Replies.send_eq h
  simp only [held, List.countP_filter]
  split
  case isTrue hk =>
    refine List.countP_eq_zero.mpr fun e _ => ?_
    simp [hk]
  case isFalse hk =>
    refine List.countP_congr fun e _ => ?_
    simp only [Bool.and_eq_true, beq_iff_eq, bne_iff_ne, ne_eq, and_iff_left_iff_imp]
    rintro rfl
    exact fun heq => hk heq.symm

theorem sent_send {thread : Nat} {server server' : Server}
    (h : Replies.step apps (.send thread) server = some server') :
    ∃ batch, server'.sent = server.sent ++ [batch] := by
  obtain rfl := Replies.send_eq h
  exact ⟨_, rfl⟩

/-! ## Every run -/

/-- The load balancer admits some pair of each model it has. -/
def Balancing (lb : LoadBalancer) : Prop :=
  lb.type = .wrr → (∃ tickets, LoadBalancer.Registered tickets lb ∧
    ∀ e ∈ tickets, InRange e.1 e.2.1) ∧ lb.Open

/-- The threads of a proxy keep to their slots, and none waits without end for a
request. -/
structure Staffed (pr : Proxy) : Prop where
  balanced : Slots.Balanced pr.slots
  batchers : pr.slots.batchers ≠ []
  outputs : pr.slots.outputs ≠ []
  sizes : ∀ net ∈ pr.slots.netList, 0 < net.2
  dutyCycle : pr.dutyCycle ≠ 0 ∨ Slots.Unused pr.slots
  maxdelay : ∀ i task n, pr.slots.batchers[i]? = some (.batching task n) → pr.maxdelay i ≠ 0
  outputQueue : pr.outputQueue.length = pr.slots.outputQueue.length
  results : pr.results.length = pr.slots.outputs.length

/-- The batch is on its way to an output thread, or there. -/
def Proxy.Has (pr : Proxy) (b : Nat) : Prop := b ∈ pr.outputQueue ∨ some b ∈ pr.results

/-- What holds in every state that is reached. -/
structure Sound (st : State) : Prop where
  staffed : ∀ pr ∈ st.proxies, Staffed pr
  held : ∀ p i, Holds (st.batcher p i) (held st.server (threadOf p i))
  nodup : st.admitted.Nodup
  admitted : ∀ e ∈ st.admitted, ∃ task n, st.batcher e.1 e.2 = some (.batching task n) ∧
    n < task.batchSize
  sent : ∀ b batch, st.server.sent[b]? = some batch → handling b batch = none ∨
    ∃ pr ∈ st.proxies, pr.Has b
  placed : ∀ pr ∈ st.proxies, ∀ b, pr.Has b → b < st.server.sent.length
  balancing : Balancing st.loadBalancer

/-- The ids in a new table are in range, and what a proxy is routed has batch sizes
and a duty cycle. -/
def Regular (_ : State) : Act → Prop
  | .balance call => call.InRange
  | .route _ netList _ _ dutyCycle => ∀ net ∈ netList, 0 < net.2 ∧ dutyCycle ≠ 0
  | _ => True

instance (st : State) : ∀ act, Decidable (Regular st act)
  | .balance call => inferInstanceAs (Decidable call.InRange)
  | .route _ netList _ _ dutyCycle =>
      inferInstanceAs (Decidable (∀ net ∈ netList, 0 < net.2 ∧ dutyCycle ≠ 0))
  | .server _ => .isTrue trivial
  | .proxy _ _ => .isTrue trivial
  | .check _ _ => .isTrue trivial
  | .pop _ _ => .isTrue trivial
  | .miss _ _ => .isTrue trivial
  | .send _ _ => .isTrue trivial
  | .output _ _ => .isTrue trivial
  | .next _ _ => .isTrue trivial

theorem inRange_model (name : String) (pr : Proxy) : InRange (getModelID name) pr.info := by
  refine ⟨?_, pr.inRange.2⟩
  unfold getModelID
  split
  case h_1 i hi =>
    have hlt := (List.findIdx?_eq_some_iff_findIdx_eq.mp hi).1
    have hlen : idToModelName.length < 214 := by decide
    omega
  case h_2 => decide

theorem Balancing.checkLoad {lb : LoadBalancer} (h : Balancing lb) {model : Int} {info : ProxyInfo}
    (hrange : InRange model info) : Balancing (lb.checkLoad model info).2 := by
  intro htype
  cases hlb : lb.type with
  | no =>
      rw [LoadBalancer.checkLoad, hlb] at htype
      rw [hlb] at htype
      cases htype
  | wrr =>
      obtain ⟨⟨tickets, hreg, htickets⟩, hopen⟩ := h hlb
      exact ⟨⟨tickets, hreg.checkLoad model info, htickets⟩, hopen.checkLoad hreg htickets hrange⟩

theorem balancing_update {lb lb' : LoadBalancer} {call : LoadBalancer.Call} {tickets : List Ticket}
    (hrange : call.InRange) (hinstalls : call.installs = some tickets)
    (hstep : LoadBalancer.step call lb = some lb') : Balancing lb' := by
  intro htype
  cases hlb : lb.type with
  | no =>
      have hsame : lb' = lb := by
        cases call with
        | updateTable sim =>
            obtain rfl := Option.some.inj hstep
            rw [LoadBalancer.updateTable, hlb]
        | updateTableTrps trps =>
            obtain rfl := Option.some.inj hstep
            rw [LoadBalancer.updateTableTrps, hlb]
        | checkLoad model info => cases hinstalls
      rw [hsame, hlb] at htype
      cases htype
  | wrr =>
      rw [LoadBalancer.step_update hlb hstep hinstalls]
      exact ⟨⟨tickets, LoadBalancer.registered_update hlb tickets, hrange.installs hinstalls⟩,
        LoadBalancer.open_update lb tickets⟩

/-- The requests on the shared queues do not matter for the slots. -/
theorem Staffed.balanced_look (h : Staffed pr) (st : State) : Slots.Balanced (st.look pr) :=
  h.balanced.frame rfl rfl rfl rfl rfl

/-- A proxy after a step of its own. -/
theorem Staffed.step {a : Slots.Act String} {slots : Slots.State String} {pr' : Proxy}
    (h : Staffed pr) (ha : a.serves = true) (hstep : Slots.step a (st.look pr) = some slots)
    (hslots : pr'.slots = slots) (hduty : pr'.dutyCycle = pr.dutyCycle)
    (henter : ∀ i, a = .enter i → pr'.maxdelay i = pr.dutyCycle)
    (hdelay : ∀ i, pr'.maxdelay i = pr.maxdelay i ∨ pr'.maxdelay i = pr.dutyCycle)
    (hqueue : pr'.outputQueue.length = slots.outputQueue.length)
    (hresults : pr'.results.length = pr.results.length) : Staffed pr' := by
  have hbalanced := h.balanced_look st
  have hsame := Slots.sameNets_step ha hstep
  have hused : ∀ (i : Nat) (t : Slots.Batcher String), pr.slots.batchers[i]? = some t → t ≠ .idle →
      pr.dutyCycle ≠ 0 := by
    intro i t hi ht
    exact h.dutyCycle.resolve_right fun hunused => ht (hunused.idle hi)
  subst hslots
  refine ⟨hbalanced.step hstep, ?_, ?_, ?_, ?_, fun i task n hi => ?_, hqueue, ?_⟩
  · exact List.ne_nil_of_length_pos (hsame.batchers ▸ List.length_pos_of_ne_nil h.batchers)
  · exact List.ne_nil_of_length_pos (hsame.outputs ▸ List.length_pos_of_ne_nil h.outputs)
  · rw [hsame.netList]
    exact h.sizes
  · rw [hduty]
    refine h.dutyCycle.imp_right fun hunused => ?_
    have hlook : Slots.Unused (st.look pr) :=
      ⟨hunused.netList, hunused.decision, hunused.batchQueue, hunused.batchers⟩
    exact hlook.step ha hstep
  · rcases Slots.batching_before hstep hi with ⟨m, hold⟩ | ⟨hact, hold⟩
    · rcases hdelay i with heq | heq
      · rw [heq]
        exact h.maxdelay i task m hold
      · rw [heq]
        exact hused i _ hold (by simp)
    · rw [henter i hact]
      exact hused i _ hold (by simp)
  · exact hresults.trans (h.results.trans hsame.outputs.symm)

theorem moved_slots (pr : Proxy) (a : Slots.Act String) (slots : Slots.State String) :
    (pr.moved a slots).slots = slots := by
  cases a with
  | _ => rfl

theorem Staffed.moved {a : Slots.Act String} {slots : Slots.State String} (h : Staffed pr)
    (ha : a.inner = true) (hstep : Slots.step a (st.look pr) = some slots) :
    Staffed (pr.moved a slots) := by
  refine h.step (Slots.serves_of_inner ha) hstep (moved_slots pr a slots) ?_ ?_ ?_ ?_ ?_
  · cases a with
    | _ => rfl
  · rintro i rfl
    exact Function.update_self ..
  · intro i
    cases a with
    | enter k =>
        by_cases hik : i = k
        · subst hik
          exact Or.inr (Function.update_self ..)
        · exact Or.inl (Function.update_of_ne hik ..)
    | _ => exact Or.inl rfl
  · cases Slots.step_cases hstep with
    | @pop k m rest _ hqueue _ =>
        have hlen := h.outputQueue
        rw [show pr.slots.outputQueue = m :: rest from hqueue] at hlen
        show pr.outputQueue.tail.length = rest.length
        rw [List.length_tail, hlen]
        rfl
    | send => cases ha
    | _ => exact h.outputQueue
  · cases a with
    | pop k => exact List.length_set
    | _ => rfl

/-- Batches do not get lost on their way. -/
theorem has_moved {a : Slots.Act String} {slots : Slots.State String} {b : Nat}
    (hfree : st.free p pr a = true) (h : pr.Has b) : (pr.moved a slots).Has b := by
  cases a with
  | pop k =>
      have hnone : pr.results[k]? = some none := of_decide_eq_true hfree
      rcases h with hqueue | hresult
      · cases hq : pr.outputQueue with
        | nil =>
            rw [hq] at hqueue
            cases hqueue
        | cons c rest =>
            rw [hq] at hqueue
            rcases List.mem_cons.mp hqueue with rfl | hrest
            · refine Or.inr ?_
              show some b ∈ pr.results.set k pr.outputQueue.head?
              rw [hq]
              exact List.mem_set (List.getElem?_eq_some_iff.mp hnone).1 _
            · refine Or.inl ?_
              show b ∈ pr.outputQueue.tail
              rw [hq]
              exact hrest
      · exact Or.inr (mem_set_of_ne hresult hnone (Option.some_ne_none b))
  | _ => exact h

theorem has_of_moved {a : Slots.Act String} {slots : Slots.State String} {b : Nat}
    (h : (pr.moved a slots).Has b) : pr.Has b := by
  cases a with
  | pop k =>
      rcases h with hqueue | hresult
      · exact Or.inl (List.mem_of_mem_tail hqueue)
      · rcases List.mem_or_eq_of_mem_set hresult with hold | hhead
        · exact Or.inr hold
        · exact Or.inl (List.mem_of_head? hhead.symm)
  | _ => exact h

theorem has_set {pr' : Proxy} {b : Nat} (hpr : st.proxies[p]? = some pr) (hkeep : pr.Has b → pr'.Has b)
    (h : ∃ q ∈ st.proxies, q.Has b) : ∃ q ∈ (st.setProxy p pr').proxies, q.Has b := by
  obtain ⟨q, hq, hb⟩ := h
  by_cases heq : q = pr
  · subst heq
    exact ⟨pr', List.mem_set (List.getElem?_eq_some_iff.mp hpr).1 pr', hkeep hb⟩
  · exact ⟨q, mem_set_of_ne hq hpr heq, hb⟩

/-- A thread that keeps its batch while another thread of the proxy moves. -/
theorem batching_kept {s s' : Slots.State String} {a : Slots.Act String}
    {task : Slots.TaskSpec String} (ha : a.inner = true) (hs : Slots.step a s = some s')
    (hi : s.batchers[i]? = some (.batching task n)) (hgiveUp : a ≠ .giveUp i) (hexec : a ≠ .exec i) :
    s'.batchers[i]? = some (.batching task n) := by
  have hother : ∀ {j : Nat} {t t' : Slots.Batcher String}, s.batchers[j]? = some t →
      t ≠ .batching task n → (s.batchers.set j t')[i]? = some (.batching task n) := by
    intro j t t' hj hne
    have hij : j ≠ i := by
      rintro rfl
      exact hne (Option.some.inj (hj.symm.trans hi))
    rwa [List.getElem?_set_ne hij]
  cases Slots.step_cases hs with
  | take hj _ _ => exact hother hj nofun
  | enter hj _ => exact hother hj nofun
  | release hj => exact hother hj nofun
  | @giveUp j u hj =>
      have hij : j ≠ i := fun hij => hgiveUp (by rw [hij])
      show (s.batchers.set j _)[i]? = _
      rwa [List.getElem?_set_ne hij]
  | @exec j m u hj _ =>
      have hij : j ≠ i := fun hij => hexec (by rw [hij])
      show (s.batchers.set j _)[i]? = _
      rwa [List.getElem?_set_ne hij]
  | add => cases ha
  | send => cases ha
  | _ => exact hi

theorem Sound.proxyStep {a : Slots.Act String} (h : Sound st) (hstep : proxyStep p a st = some st') :
    Sound st' := by
  obtain ⟨pr, slots, hpr, ha, hfree, hslots, rfl⟩ := proxyStep_cases hstep
  refine ⟨?_, fun q j => ?_, h.nodup, fun e he => ?_, fun b batch hb => ?_, ?_, h.balancing⟩
  · exact Pool.forall_set h.staffed ((h.staffed pr (List.mem_of_getElem? hpr)).moved ha hslots)
  · have hold := h.held q j
    rw [batcher_set hpr, moved_slots]
    split
    case isTrue hpq =>
      subst hpq
      rw [batcher_eq hpr] at hold
      exact holds_inner ha hslots hold
    case isFalse => exact hold
  · obtain ⟨task, n, hbatching, hroom⟩ := h.admitted e he
    refine ⟨task, n, ?_, hroom⟩
    rw [batcher_set hpr, moved_slots]
    split
    case isTrue hpq =>
      subst hpq
      rw [batcher_eq hpr] at hbatching
      refine batching_kept ha hslots hbatching ?_ ?_
      · rintro rfl
        exact (of_decide_eq_true hfree).1 he
      · rintro rfl
        exact (of_decide_eq_true hfree).1 he
    case isFalse => exact hbatching
  · exact (h.sent b batch hb).imp_right (has_set hpr (has_moved hfree))
  · exact Pool.forall_set h.placed fun b hb => h.placed pr (List.mem_of_getElem? hpr) b (has_of_moved hb)

theorem Sound.check (h : Sound st) (hstep : check p i st = some st') : Sound st' := by
  obtain ⟨pr, task, n, hpr, hi, hroom, hnew, admitted, hadmitted, rfl⟩ := check_cases hstep
  refine ⟨h.staffed, h.held, ?_, fun e he => ?_, h.sent, h.placed,
    h.balancing.checkLoad (inRange_model task.reqName pr)⟩
  · rcases hadmitted with rfl | rfl
    · exact h.nodup
    · exact List.nodup_cons.mpr ⟨hnew, h.nodup⟩
  · rcases hadmitted with rfl | rfl
    · exact h.admitted e he
    · rcases List.mem_cons.mp he with rfl | he
      · exact ⟨task, n, (batcher_eq hpr i).trans hi, hroom⟩
      · exact h.admitted e he

theorem add_eq {s s' : Slots.State String} {task : Slots.TaskSpec String}
    (hi : s.batchers[i]? = some (.batching task n)) (hs : Slots.step (.add i) s = some s') :
    s'.batchers = s.batchers.set i (.batching task (n + 1)) ∧ s'.outputQueue = s.outputQueue := by
  simp only [Slots.step, hi] at hs
  split at hs
  case isTrue =>
    obtain rfl := Option.some.inj hs
    exact ⟨rfl, rfl⟩
  case isFalse => cases hs

/-- A batching thread moves with its requests. -/
theorem Sound.moves {pr' : Proxy} {server : Server} (h : Sound st) (hpr : st.proxies[p]? = some pr)
    (hi : i < pr.slots.batchers.length) (hbatchers : pr'.slots.batchers = pr.slots.batchers.set i t)
    (hown : Holds (some t) (Dispatch.held server (threadOf p i)))
    (hothers : ∀ k, threadOf p i ≠ k → Dispatch.held server k = Dispatch.held st.server k) (q j : Nat) :
    Holds ((st.setProxy p pr').batcher q j) (Dispatch.held server (threadOf q j)) := by
  by_cases hthread : threadOf p i = threadOf q j
  · obtain ⟨rfl, rfl⟩ := threadOf_inj.mp hthread
    rw [batcher_set hpr, if_pos rfl, hbatchers, List.getElem?_set_self hi]
    exact hown
  · rw [batcher_other hpr hbatchers fun heq => hthread (threadOf_inj.mpr heq), hothers _ hthread]
    exact h.held q j

theorem Sound.pop (h : Sound st) (hstep : pop apps p i st = some st') : Sound st' := by
  obtain ⟨pr, task, n, slots, server, hpr, hi, hslots, hserver, rfl⟩ := pop_cases hstep
  obtain ⟨hbatchers, hqueue⟩ := add_eq (s := st.look pr) hi hslots
  have hbatchers : slots.batchers = pr.slots.batchers.set i (.batching task (n + 1)) := hbatchers
  have hown : Holds (some (.batching task (n + 1))) (Dispatch.held server (threadOf p i)) := by
    have hold := h.held p i
    rw [batcher_eq hpr, hi] at hold
    rw [held_pop hserver, if_pos rfl]
    exact congrArg (· + 1) hold
  have hothers : ∀ k, threadOf p i ≠ k → Dispatch.held server k = Dispatch.held st.server k := by
    intro k hk
    rw [held_pop hserver, if_neg hk]
    rfl
  have hold := h.staffed pr (List.mem_of_getElem? hpr)
  have hlt := (List.getElem?_eq_some_iff.mp hi).1
  refine ⟨?_, h.moves hpr hlt hbatchers hown hothers, h.nodup.erase _, fun e he => ?_,
    fun b batch hb => ?_, ?_, h.balancing⟩
  · refine Pool.forall_set h.staffed (hold.step rfl hslots rfl rfl nofun (fun _ => Or.inl rfl) ?_ rfl)
    rw [hqueue]
    exact hold.outputQueue
  · obtain ⟨hne, he⟩ := (h.nodup.mem_erase_iff).mp he
    obtain ⟨task', n', hbatching, hroom⟩ := h.admitted e he
    refine ⟨task', n', ?_, hroom⟩
    rw [← hbatching]
    exact batcher_other hpr hbatchers fun heq => hne (Prod.ext heq.1 heq.2).symm
  · obtain ⟨r, q, -, rfl⟩ := Replies.pop_cases hserver
    exact (h.sent b batch hb).imp_right (has_set hpr id)
  · obtain ⟨r, q, -, rfl⟩ := Replies.pop_cases hserver
    exact Pool.forall_set h.placed (h.placed pr (List.mem_of_getElem? hpr))

theorem Sound.miss (h : Sound st) (hstep : miss p i st = some st') : Sound st' := by
  obtain ⟨-, rfl⟩ := miss_cases hstep
  exact ⟨h.staffed, h.held, h.nodup.erase _, fun e he => h.admitted e (List.mem_of_mem_erase he),
    h.sent, h.placed, h.balancing⟩

theorem send_released {s s' : Slots.State String} (hs : Slots.step (.send i) s = some s') :
    ∃ m, s.batchers[i]? = some (.released m) ∧ s'.batchers = s.batchers.set i .idle ∧
      s'.outputQueue = s.outputQueue ++ [m] := by
  cases Slots.step_cases hs with
  | @send j m hi _ => exact ⟨m, hi, rfl, rfl⟩

theorem Sound.send (h : Sound st) (hstep : send apps p i st = some st') : Sound st' := by
  obtain ⟨pr, slots, server, hpr, hslots, hserver, rfl⟩ := send_cases hstep
  obtain ⟨m, hi, hbatchers, hqueue⟩ := send_released hslots
  have hi : pr.slots.batchers[i]? = some (.released m) := hi
  have hbatchers : slots.batchers = pr.slots.batchers.set i .idle := hbatchers
  have hown : Holds (some .idle) (Dispatch.held server (threadOf p i)) := by
    rw [held_send hserver, if_pos rfl]
    rfl
  have hothers : ∀ k, threadOf p i ≠ k → Dispatch.held server k = Dispatch.held st.server k := by
    intro k hk
    rw [held_send hserver, if_neg hk]
  have hold := h.staffed pr (List.mem_of_getElem? hpr)
  have hlt := (List.getElem?_eq_some_iff.mp hi).1
  obtain ⟨sent, hsent⟩ := sent_send hserver
  refine ⟨?_, h.moves hpr hlt hbatchers hown hothers, h.nodup, fun e he => ?_, fun b batch hb => ?_,
    ?_, h.balancing⟩
  · refine Pool.forall_set h.staffed (hold.step rfl hslots rfl rfl nofun (fun _ => Or.inl rfl) ?_ rfl)
    rw [hqueue, List.length_append, List.length_append]
    exact congrArg (· + 1) hold.outputQueue
  · obtain ⟨task, n, hbatching, hroom⟩ := h.admitted e he
    refine ⟨task, n, ?_, hroom⟩
    rw [← hbatching]
    refine batcher_other hpr hbatchers fun heq => ?_
    rw [← heq.1, ← heq.2, batcher_eq hpr, hi] at hbatching
    cases hbatching
  · have hb : (st.server.sent ++ [sent])[b]? = some batch := hsent ▸ hb
    rcases Nat.lt_or_ge b st.server.sent.length with hlt | hge
    · rw [List.getElem?_append_left hlt] at hb
      exact (h.sent b batch hb).imp_right
        (has_set hpr fun hhas => hhas.imp_left (List.mem_append_left _))
    · -- the batch that is sent is in the queue
      have hlen := (List.getElem?_eq_some_iff.mp hb).1
      rw [List.length_append, List.length_singleton] at hlen
      obtain rfl : b = st.server.sent.length := by omega
      exact Or.inr ⟨_, List.mem_set (List.getElem?_eq_some_iff.mp hpr).1 _,
        Or.inl (List.mem_append_right _ List.mem_cons_self)⟩
  · show ∀ q ∈ st.proxies.set p _, ∀ b, q.Has b → b < server.sent.length
    rw [hsent, List.length_append, List.length_singleton]
    have hplaced : ∀ q ∈ st.proxies, ∀ b, q.Has b → b < st.server.sent.length + 1 :=
      fun q hq b hb => Nat.lt_succ_of_lt (h.placed q hq b hb)
    refine Pool.forall_set hplaced fun b hb => ?_
    rcases hb with hqueue | hresult
    · rcases List.mem_append.mp hqueue with hold | hnew
      · exact hplaced pr (List.mem_of_getElem? hpr) b (Or.inl hold)
      · rw [List.mem_singleton.mp hnew]
        exact Nat.lt_succ_self _
    · exact hplaced pr (List.mem_of_getElem? hpr) b (Or.inr hresult)

theorem Sound.output (h : Sound st) (hstep : output apps p j st = some st') : Sound st' := by
  obtain ⟨b, batch, act, server, hresult, hact, hserver, rfl⟩ := output_cases hstep
  obtain ⟨hbatching, batch', hsent⟩ := handling_step hact hserver
  refine ⟨h.staffed, fun q k => ?_, h.nodup, h.admitted, fun c other hc => ?_, ?_, h.balancing⟩
  · rw [Dispatch.held, hbatching]
    exact h.held q k
  · -- the output thread has the batch that changes
    obtain ⟨pr, hpr, -, hhas, -⟩ := result_cases hresult
    by_cases hbc : b = c
    · subst hbc
      exact Or.inr ⟨pr, List.mem_of_getElem? hpr, Or.inr (List.mem_of_getElem? hhas)⟩
    · rw [hsent, List.getElem?_set_ne hbc] at hc
      exact h.sent c other hc
  · rw [hsent, List.length_set]
    exact h.placed

theorem Sound.next (h : Sound st) (hstep : next p j st = some st') : Sound st' := by
  obtain ⟨pr, b, batch, hpr, hresult, hdone, rfl⟩ := next_cases hstep
  obtain ⟨pr1, hpr1, -, hhas, hbatch⟩ := result_cases hresult
  obtain rfl := Option.some.inj (hpr1.symm.trans hpr)
  have hold := h.staffed pr1 (List.mem_of_getElem? hpr)
  have hsame : ∀ q k, State.batcher (st.setProxy p { pr1 with results := pr1.results.set j none }) q k =
      st.batcher q k := batcher_same hpr rfl
  refine ⟨?_, fun q k => ?_, h.nodup, fun e he => ?_, fun c other hc => ?_, ?_, h.balancing⟩
  · exact Pool.forall_set h.staffed ⟨hold.balanced, hold.batchers, hold.outputs, hold.sizes,
      hold.dutyCycle, hold.maxdelay, hold.outputQueue, List.length_set.trans hold.results⟩
  · rw [hsame]
    exact h.held q k
  · rw [hsame]
    exact h.admitted e he
  · by_cases hbc : b = c
    · subst hbc
      obtain rfl := Option.some.inj (hbatch.symm.trans hc)
      exact Or.inl hdone
    · refine (h.sent c other hc).imp_right (has_set hpr fun hc => ?_)
      exact hc.imp_right fun hmem => mem_set_of_ne hmem hhas fun heq =>
        hbc (Option.some.inj heq).symm
  · refine Pool.forall_set h.placed fun c hc => h.placed pr1 (List.mem_of_getElem? hpr) c ?_
    exact hc.imp_right fun hmem => (List.mem_or_eq_of_mem_set hmem).resolve_right (Option.some_ne_none c)

theorem Sound.route {netList : List (String × Nat)} {isSchedulable : Bool} {loadedModels : List String}
    {dutyCycle : ℚ} (h : Sound st) (hregular : ∀ net ∈ netList, 0 < net.2 ∧ dutyCycle ≠ 0)
    (hstep : route p netList isSchedulable loadedModels dutyCycle st = some st') : Sound st' := by
  obtain ⟨pr, hpr, rfl⟩ := route_cases hstep
  have hold := h.staffed pr (List.mem_of_getElem? hpr)
  have hsame : ∀ q k, State.batcher (st.setProxy p { pr with
      slots := { pr.slots with netList, isSchedulable, loadedModels }
      dutyCycle := if netList = [] then pr.dutyCycle else dutyCycle }) q k = st.batcher q k :=
    batcher_same hpr rfl
  refine ⟨?_, fun q k => ?_, h.nodup, fun e he => ?_, fun c other hc => ?_, ?_, h.balancing⟩
  · refine Pool.forall_set h.staffed ⟨hold.balanced.frame rfl rfl rfl rfl rfl, hold.batchers,
      hold.outputs, fun net hnet => (hregular net hnet).1, ?_, hold.maxdelay, hold.outputQueue,
      hold.results⟩
    cases netList with
    | nil =>
        exact hold.dutyCycle.imp_right fun hunused =>
          ⟨rfl, hunused.decision, hunused.batchQueue, hunused.batchers⟩
    | cons net nets => exact Or.inl (hregular net List.mem_cons_self).2
  · rw [hsame]
    exact h.held q k
  · rw [hsame]
    exact h.admitted e he
  · exact (h.sent c other hc).imp_right (has_set hpr id)
  · exact Pool.forall_set h.placed (h.placed pr (List.mem_of_getElem? hpr))

theorem Sound.step {act : Act} (h : Sound st) (hregular : Regular st act)
    (hstep : step apps act st = some st') : Sound st' := by
  cases act with
  | server act =>
      obtain ⟨hact, server, hserver, rfl⟩ := serverStep_cases hstep
      obtain ⟨hbatching, hsent⟩ := batches_step hact hserver
      refine ⟨h.staffed, fun p i => ?_, h.nodup, h.admitted, ?_, ?_, h.balancing⟩
      · rw [Dispatch.held, hbatching]
        exact h.held p i
      · rw [hsent]
        exact h.sent
      · rw [hsent]
        exact h.placed
  | proxy p a => exact h.proxyStep hstep
  | check p i => exact h.check hstep
  | pop p i => exact h.pop hstep
  | miss p i => exact h.miss hstep
  | send p i => exact h.send hstep
  | output p j => exact h.output hstep
  | next p j => exact h.next hstep
  | balance call =>
      obtain ⟨tickets, loadBalancer, hinstalls, hlb, rfl⟩ := balance_cases hstep
      exact ⟨h.staffed, h.held, h.nodup, h.admitted, h.sent, h.placed, balancing_update hregular hinstalls hlb⟩
  | route p netList isSchedulable loadedModels dutyCycle => exact h.route hregular hstep

end Dispatch

end Glet
