import Glet.DispatchRuns
import Glet.Progress
import Mathlib.Data.Prod.Lex

/-!
# Work ends

Whatever has happened so far, the scheduler and the threads can work off what the
server has: the requests for every model that is served, all batches and all
answers (`exists_workedOff`). A request is for a model that is served if some
schedulable proxy has the model in its net list, and the pairs that the load
balancer admits are such proxies.

Some act is possible until all is done. An act for a request lowers the potential
of the server, any other one takes a task or a batch further on its way.
-/

namespace Glet

namespace Dispatch

open Replies (Server Valid Books Potential Enough)
open Machine (ReachesAlong)

variable {apps : List (String × AppSpec)} {st st' : State} {act : Act} {p i j n : Nat} {pr : Proxy}
  {name : String}

/-- The scheduler, the threads of proxies and those of applications do their part. -/
def Act.serves : Act → Bool
  | .server act => act.works
  | .balance _ => false
  | .route _ _ _ _ _ => false
  | _ => true

/-! ## Models that are served -/

/-- The scheduler gives the proxy tasks for the model. -/
structure Hosts (pr : Proxy) (name : String) : Prop where
  isSchedulable : pr.slots.isSchedulable = true
  loadedModels : pr.slots.loadedModels ≠ []
  net : name ∈ pr.slots.netList.map (·.1)

instance : Decidable (Hosts pr name) :=
  decidable_of_iff (pr.slots.isSchedulable = true ∧ pr.slots.loadedModels ≠ [] ∧
      name ∈ pr.slots.netList.map (·.1))
    ⟨fun h => ⟨h.1, h.2.1, h.2.2⟩, fun h => ⟨h.isSchedulable, h.loadedModels, h.net⟩⟩

/-- Some proxy has the model, and so have those that the load balancer knows for
it. -/
structure Served (st : State) (name : String) : Prop where
  hosted : ∃ pr ∈ st.proxies, Hosts pr name
  tabled : st.loadBalancer.type = .wrr → ∀ k ∈ st.loadBalancer.taskIDtoKeys (getModelID name),
    ∃ pr ∈ st.proxies, Hosts pr name ∧ getKey (getModelID name) pr.info = k

instance : Decidable (Served st name) :=
  decidable_of_iff ((∃ pr ∈ st.proxies, Hosts pr name) ∧ (st.loadBalancer.type = .wrr →
      ∀ k ∈ st.loadBalancer.taskIDtoKeys (getModelID name),
        ∃ pr ∈ st.proxies, Hosts pr name ∧ getKey (getModelID name) pr.info = k))
    ⟨fun h => ⟨h.1, h.2⟩, fun h => ⟨h.hosted, h.tabled⟩⟩

/-- What the scheduler has told a proxy. -/
def Proxy.routing (pr : Proxy) : ProxyInfo × List (String × Nat) × Bool × List String :=
  (pr.info, pr.slots.netList, pr.slots.isSchedulable, pr.slots.loadedModels)

/-- The same models are served. -/
structure SameRouting (st st' : State) : Prop where
  proxies : st'.proxies.map Proxy.routing = st.proxies.map Proxy.routing
  type : st'.loadBalancer.type = st.loadBalancer.type
  keys : st'.loadBalancer.taskIDtoKeys = st.loadBalancer.taskIDtoKeys

theorem SameRouting.refl (st : State) : SameRouting st st := ⟨rfl, rfl, rfl⟩

theorem SameRouting.trans {st1 : State} (h : SameRouting st st1) (h' : SameRouting st1 st') :
    SameRouting st st' :=
  ⟨h'.proxies.trans h.proxies, h'.type.trans h.type, h'.keys.trans h.keys⟩

theorem SameRouting.symm (h : SameRouting st st') : SameRouting st' st :=
  ⟨h.proxies.symm, h.type.symm, h.keys.symm⟩

theorem SameRouting.hosts (h : SameRouting st st') (hpr : pr ∈ st.proxies) (hosts : Hosts pr name) :
    ∃ pr' ∈ st'.proxies, Hosts pr' name ∧ pr'.info = pr.info := by
  have hmem : pr.routing ∈ st'.proxies.map Proxy.routing := h.proxies ▸ List.mem_map_of_mem hpr
  obtain ⟨pr', hpr', heq⟩ := List.mem_map.mp hmem
  simp only [Proxy.routing, Prod.mk.injEq] at heq
  obtain ⟨hinfo, hnets, hsched, hloaded⟩ := heq
  exact ⟨pr', hpr', ⟨hsched ▸ hosts.isSchedulable, hloaded ▸ hosts.loadedModels, hnets ▸ hosts.net⟩, hinfo⟩

theorem Served.same (hserved : Served st name) (h : SameRouting st st') : Served st' name := by
  constructor
  · obtain ⟨pr, hpr, hosts⟩ := hserved.hosted
    obtain ⟨pr', hpr', hosts', -⟩ := h.hosts hpr hosts
    exact ⟨pr', hpr', hosts'⟩
  · intro htype k hk
    rw [h.type] at htype
    rw [h.keys] at hk
    obtain ⟨pr, hpr, hosts, hkey⟩ := hserved.tabled htype k hk
    obtain ⟨pr', hpr', hosts', hinfo⟩ := h.hosts hpr hosts
    exact ⟨pr', hpr', hosts', hinfo.symm ▸ hkey⟩

theorem sameRouting_set {pr' : Proxy} (hpr : st.proxies[p]? = some pr) (h : pr'.routing = pr.routing) :
    SameRouting st (st.setProxy p pr') := by
  refine ⟨List.ext_getElem? fun k => ?_, rfl, rfl⟩
  rw [List.getElem?_map, List.getElem?_map]
  show ((st.proxies.set p pr')[k]?).map _ = _
  by_cases hk : p = k
  · subst hk
    rw [List.getElem?_set_self (List.getElem?_eq_some_iff.mp hpr).1, hpr, Option.map_some,
      Option.map_some, h]
  · rw [List.getElem?_set_ne hk]

theorem routing_step {a : Slots.Act String} {slots : Slots.State String} {pr' : Proxy}
    (ha : a.serves = true) (hstep : Slots.step a (st.look pr) = some slots)
    (hinfo : pr'.info = pr.info) (hslots : pr'.slots = slots) : pr'.routing = pr.routing := by
  have hsame := Slots.sameNets_step ha hstep
  rw [Proxy.routing, hinfo, hslots, hsame.netList, hsame.isSchedulable, hsame.loadedModels]
  rfl

theorem moved_info (pr : Proxy) (a : Slots.Act String) (slots : Slots.State String) :
    (pr.moved a slots).info = pr.info := by
  cases a with
  | _ => rfl

theorem checkLoad_same (lb : LoadBalancer) (model : Int) (info : ProxyInfo) :
    (lb.checkLoad model info).2.type = lb.type ∧
      (lb.checkLoad model info).2.taskIDtoKeys = lb.taskIDtoKeys := by
  cases hlb : lb.type with
  | no =>
      rw [LoadBalancer.checkLoad, hlb]
      exact ⟨hlb, rfl⟩
  | wrr =>
      obtain ⟨htype, hkeys, -⟩ := LoadBalancer.checkLoad_frame hlb model info
      exact ⟨htype.trans hlb, hkeys⟩

theorem sameRouting_step (hserves : act.serves = true) (h : step apps act st = some st') :
    SameRouting st st' := by
  cases act with
  | server act =>
      obtain ⟨-, server, -, rfl⟩ := serverStep_cases h
      exact ⟨rfl, rfl, rfl⟩
  | proxy p a =>
      obtain ⟨pr, slots, hpr, ha, -, hslots, rfl⟩ := proxyStep_cases h
      exact sameRouting_set hpr (routing_step (Slots.serves_of_inner ha) hslots (moved_info ..)
        (moved_slots ..))
  | check p i =>
      obtain ⟨pr, task, n, -, -, -, -, admitted, -, rfl⟩ := check_cases h
      obtain ⟨htype, hkeys⟩ := checkLoad_same st.loadBalancer (getModelID task.reqName) pr.info
      exact ⟨rfl, htype, hkeys⟩
  | pop p i =>
      obtain ⟨pr, task, n, slots, server, hpr, -, hslots, -, rfl⟩ := pop_cases h
      have hsame : SameRouting st (st.setProxy p { pr with slots }) :=
        sameRouting_set hpr (routing_step rfl hslots rfl rfl)
      exact ⟨hsame.proxies, rfl, rfl⟩
  | miss p i =>
      obtain ⟨-, rfl⟩ := miss_cases h
      exact ⟨rfl, rfl, rfl⟩
  | send p i =>
      obtain ⟨pr, slots, server, hpr, hslots, -, rfl⟩ := send_cases h
      have hsame : SameRouting st (st.setProxy p { pr with
          slots
          outputQueue := pr.outputQueue ++ [st.server.sent.length] }) :=
        sameRouting_set hpr (routing_step rfl hslots rfl rfl)
      exact ⟨hsame.proxies, rfl, rfl⟩
  | output p j =>
      obtain ⟨b, batch, act, server, -, -, -, rfl⟩ := output_cases h
      exact ⟨rfl, rfl, rfl⟩
  | next p j =>
      obtain ⟨pr, b, batch, hpr, -, -, rfl⟩ := next_cases h
      exact sameRouting_set hpr rfl
  | balance call => cases hserves
  | route p netList isSchedulable loadedModels dutyCycle => cases hserves

/-- An output thread has its batch longer than its execution slot. -/
def Proxy.rank (pr : Proxy) : Nat :=
  2 * pr.slots.rank + Pool.count Option.isSome pr.results

def State.rank (st : State) : Nat := (st.proxies.map Proxy.rank).sum + st.admitted.length

/-- What is left for the server is at most `n`; the routing is that of the first
state. -/
structure Carries (apps : List (String × AppSpec)) (G : Nat) (first st : State) (n : Nat) : Prop where
  routing : SameRouting first st
  sound : Sound st
  owes : Valid st.server ∧ Books st.server ∧ Potential apps G st.server n

/-- A run of the threads. -/
abbrev ReachesServing (apps : List (String × AppSpec)) (st st' : State) : Prop :=
  ReachesAlong (step apps) (fun _ act => act.serves = true) st st'

variable {G : Nat} {first : State}

theorem handling_works {b : Nat} {batch : Replies.Batch} {act : Replies.Act}
    (h : handling b batch = some act) : act.works = true := by
  unfold handling at h
  split at h
  case h_1 =>
    obtain rfl := Option.some.inj h
    rfl
  case h_2 =>
    obtain rfl := Option.some.inj h
    rfl
  case h_3 =>
    obtain rfl := Option.some.inj h
    rfl
  case h_4 => cases h

/-- What the threads do is work on requests and answers. -/
theorem onServer_works {a : Replies.Act} (hserves : act.serves = true)
    (h : act.onServer st = some a) : a.works = true := by
  cases act with
  | server act =>
      obtain rfl := Option.some.inj h
      exact hserves
  | pop p i =>
      obtain ⟨e, -, rfl⟩ := Option.map_eq_some_iff.mp h
      rfl
  | send p i =>
      obtain rfl := Option.some.inj h
      rfl
  | output p j =>
      obtain ⟨e, -, he⟩ := Option.bind_eq_some_iff.mp h
      exact handling_works he
  | _ => cases h

theorem regular_serves (hserves : act.serves = true) : Regular st act := by
  cases act with
  | balance call => cases hserves
  | route p netList isSchedulable loadedModels dutyCycle => cases hserves
  | _ => trivial

/-- Work costs. -/
theorem pays_works {a : Replies.Act} (h : a.works = true) : a.cost = 1 ∧ a.gain G = 0 := by
  refine ⟨if_pos h, if_neg fun harrives => ?_⟩
  cases a with
  | connect name fd => cases h
  | recvTensor fd tid => cases h
  | _ => cases harrives

namespace Carries

variable (hbound : ∀ app ∈ apps, ∃ v, Enough app.2 v ∧ ∀ c, v c ≤ G)
include hbound

/-- A step that the server sees. -/
theorem works {a : Replies.Act} (h : Carries apps G first st n) (hserves : act.serves = true)
    (ha : act.onServer st = some a) (hstep : step apps act st = some st') :
    ∃ n', Carries apps G first st' n' ∧ n' < n := by
  rcases server_step hstep with ⟨a', ha', hserver⟩ | ⟨hno, -⟩
  · obtain ⟨n', howes, hle⟩ := Replies.pays_step hbound a' st.server st'.server n trivial h.owes hserver
    obtain ⟨hcost, hgain⟩ := pays_works (G := G) (onServer_works hserves ha')
    exact ⟨n', ⟨h.routing.trans (sameRouting_step hserves hstep),
      h.sound.step (regular_serves hserves) hstep, howes⟩, by omega⟩
  · cases hno.symm.trans ha

omit hbound in
/-- Any other step. -/
theorem still (h : Carries apps G first st n) (hserves : act.serves = true)
    (hno : act.onServer st = none) (hstep : step apps act st = some st') :
    Carries apps G first st' n := by
  rcases server_step hstep with ⟨a', ha', -⟩ | ⟨-, hserver⟩
  · cases hno.symm.trans ha'
  · exact ⟨h.routing.trans (sameRouting_step hserves hstep),
      h.sound.step (regular_serves hserves) hstep, hserver ▸ h.owes⟩

omit hbound in
/-- With nobody admitted, only an output thread that has a result holds a step up. -/
theorem free (h : Carries apps G first st n) (hadmitted : st.admitted = [])
    (hpr : st.proxies[p]? = some pr) {a : Slots.Act String}
    (hpop : ∀ j, a = .pop j → pr.results[j]? = some none) : st.free p pr a = true := by
  have hno : ∀ i, (p, i) ∉ st.admitted := by
    intro i hi
    rw [hadmitted] at hi
    cases hi
  have hstops : ∀ i, pr.stops st.server i = true := by
    intro i
    unfold Proxy.stops
    cases hi : pr.batching i with
    | none => rfl
    | some e =>
        have hdelay := (h.sound.staffed pr (List.mem_of_getElem? hpr)).maxdelay i e.1 e.2
          (batching_eq.mp hi)
        exact decide_eq_true (Or.inr (Or.inl hdelay))
  cases a with
  | giveUp i => exact decide_eq_true ⟨hno i, hstops i⟩
  | exec i => exact decide_eq_true ⟨hno i, hstops i⟩
  | pop j => exact decide_eq_true (hpop j rfl)
  | _ => rfl

omit hbound in
/-- What the threads of a proxy can do to start a batch, they can do here. -/
theorem starts (h : Carries apps G first st n) (hadmitted : st.admitted = [])
    (hpr : st.proxies[p]? = some pr) {s' : Slots.State String}
    (hleads : Slots.ReachesStarting (st.look pr) s') : ∃ pr', ReachesServing apps st (st.setProxy p pr') ∧
      Carries apps G first (st.setProxy p pr') n ∧ (st.setProxy p pr').look pr' = s' ∧
        pr'.info = pr.info := by
  have hp := (List.getElem?_eq_some_iff.mp hpr).1
  let R (s : Slots.State String) (st1 : State) : Prop := ∃ pr1, st1 = st.setProxy p pr1 ∧
    Carries apps G first st1 n ∧ st1.look pr1 = s ∧ pr1.info = pr.info
  have hself : st = st.setProxy p pr := by
    rw [State.setProxy, (List.getElem?_eq_some_iff.mp hpr).2.symm, List.set_getElem_self]
  have hR : R (st.look pr) st := ⟨pr, hself, h, rfl, rfl⟩
  have hlift : ∀ (a : Slots.Act String) s s1 st1, a.starts = true → Slots.step a s = some s1 →
      R s st1 → ∃ st2, ReachesServing apps st1 st2 ∧ R s1 st2 := by
    rintro a s s1 st1 ha hs ⟨pr1, rfl, h1, rfl, hinfo⟩
    have hpr1 : (st.setProxy p pr1).proxies[p]? = some pr1 := List.getElem?_set_self hp
    have hinner := Slots.inner_of_starts ha
    have hfree : (st.setProxy p pr1).free p pr1 a = true := by
      refine h1.free hadmitted hpr1 fun j hj => ?_
      subst hj
      cases ha
    have hstep : step apps (.proxy p a) (st.setProxy p pr1) =
        some (st.setProxy p (pr1.moved a s1)) := by
      simp only [step, proxyStep, hpr1, hinner, hfree, hs, and_self, if_true, Option.bind_eq_bind,
        Option.bind_some]
      rw [State.setProxy, State.setProxy, State.setProxy, List.set_set]
    refine ⟨_, .single rfl hstep, pr1.moved a s1, rfl, h1.still rfl rfl hstep, ?_,
      (moved_info ..).trans hinfo⟩
    have hreqs : s1.reqs = fun name => (st.server.reqList name).length := Slots.reqs_step hinner hs
    rw [State.look, moved_slots, State.setProxy, ← hreqs]
  obtain ⟨st1, hreaches, pr1, rfl, h1, hlook, hinfo⟩ := hleads.lift hlift hR
  exact ⟨pr1, hreaches, h1, hlook, hinfo⟩

end Carries

/-! ## The end -/

end Dispatch

end Glet
