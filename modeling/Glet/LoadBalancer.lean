import Glet.Machine
import Glet.Types
import Mathlib.Algebra.Order.Ring.WithTop

/-!
# The load balancer

In WRR mode the load balancer keeps, for each model and proxy of the current
schedule, the credit the pair has used up so far. A proxy that polls for a
model is admitted if its credit is at most the model's *minimum*, and is then
charged 1 / throughput. The minimum is not recomputed: it is the credit of the
pair that was admitted last.

Three questions about a whole history of calls: which pairs are admitted,
whether some pair of a model always is, and how far apart the credits of a
model can get.
-/

namespace Glet

/-! ## Keys -/

/-- What the load balancer reads of a `proxy_info`. -/
structure ProxyInfo where
  devId : Int
  cap : Int
  dedupNum : Int
  deriving DecidableEq

/-- The value of an arithmetic expression in a 32-bit `int`. -/
def wrap32 (z : Int) : Int := z.bmod (2 ^ 32)

/-- `getKey`. -/
def getKey (model : Int) (p : ProxyInfo) : Int :=
  wrap32 (10000000 * model + 1000 * p.cap + 10 * p.devId + 1 * p.dedupNum)

/-- The ranges of ids for which keys are meant. -/
def InRange (model : Int) (p : ProxyInfo) : Prop :=
  (0 ≤ model ∧ model < 214) ∧ (0 ≤ p.cap ∧ p.cap ≤ 100) ∧ (0 ≤ p.devId ∧ p.devId < 100) ∧
    (0 ≤ p.dedupNum ∧ p.dedupNum < 10)

instance (model : Int) (p : ProxyInfo) : Decidable (InRange model p) :=
  inferInstanceAs (Decidable (_ ∧ _))

/-- Keys of ids in range do not overflow. -/
theorem getKey_eq {model : Int} {p : ProxyInfo} (h : InRange model p) :
    getKey model p = 10000000 * model + 1000 * p.cap + 10 * p.devId + p.dedupNum := by
  obtain ⟨⟨h1, h2⟩, ⟨h3, h4⟩, ⟨h5, h6⟩, h7, h8⟩ := h
  rw [getKey, wrap32, one_mul]
  exact Int.bmod_eq_of_le (by omega) (by omega)

/-- No two pairs in range have the same key. -/
theorem getKey_inj {model model' : Int} {p p' : ProxyInfo} (h : InRange model p)
    (h' : InRange model' p') (heq : getKey model p = getKey model' p') :
    model = model' ∧ p = p' := by
  rw [getKey_eq h, getKey_eq h'] at heq
  obtain ⟨⟨-, -⟩, ⟨h3, h4⟩, ⟨h5, h6⟩, h7, h8⟩ := h
  obtain ⟨⟨-, -⟩, ⟨k3, k4⟩, ⟨k5, k6⟩, k7, k8⟩ := h'
  have hmodel : model = model' := by omega
  have hcap : p.cap = p'.cap := by omega
  have hdev : p.devId = p'.devId := by omega
  have hdedup : p.dedupNum = p'.dedupNum := by omega
  refine ⟨hmodel, ?_⟩
  cases p
  cases p'
  simp_all

/-! ## Tables -/

/-- Credits are doubles; a throughput of 0 gives an infinite one. -/
abbrev Credit := WithTop ℚ

/-- `1/double(trpt)`. -/
def creditOf (trpt : ℚ) : Credit := if trpt = 0 then ⊤ else ((1 / trpt : ℚ) : Credit)

inductive LoadBalancerType where
  | no
  | wrr
  deriving DecidableEq

/-- The tables of the load balancer. -/
structure LoadBalancer where
  type : LoadBalancerType
  taskIDtoKeys : Int → List Int
  keyToCredit : Int → Option Credit
  keyToCurrCredit : Int → Option Credit
  taskIDToMinCredit : Int → Option Credit

namespace LoadBalancer

/-- Reading an entry of a table with `operator[]`. -/
def entry (table : Int → Option Credit) (i : Int) : Credit := (table i).getD 0

def assign (table : Int → Option Credit) (i : Int) (c : Credit) : Int → Option Credit :=
  Function.update table i (some c)

theorem entry_assign (table : Int → Option Credit) (i j : Int) (c : Credit) :
    entry (assign table i c) j = if j = i then c else entry table j := by
  unfold entry assign
  by_cases h : j = i
  · rw [if_pos h, h, Function.update_self]
    rfl
  · rw [if_neg h, Function.update_of_ne h]

/-- The load balancer after `setType("wrr")`. -/
def start : LoadBalancer where
  type := .wrr
  taskIDtoKeys := fun _ => []
  keyToCredit := fun _ => none
  keyToCurrCredit := fun _ => none
  taskIDToMinCredit := fun _ => none

def clearTables (lb : LoadBalancer) : LoadBalancer :=
  { start with type := lb.type }

def renewTable (lb : LoadBalancer) (model key : Int) (trpt : ℚ) : LoadBalancer :=
  { lb with
    keyToCredit := assign lb.keyToCredit key (creditOf trpt)
    keyToCurrCredit := assign lb.keyToCurrCredit key 0
    taskIDToMinCredit := assign lb.taskIDToMinCredit model 10
    taskIDtoKeys := Function.update lb.taskIDtoKeys model (lb.taskIDtoKeys model ++ [key]) }

end LoadBalancer

/-- A model, a proxy that serves it, and the throughput it has there. -/
abbrev Ticket := Int × ProxyInfo × ℚ

/-- The pairs of a schedule, in the order `updateWRR` visits them. -/
def SimState.tickets (sim : SimState) : List Ticket :=
  sim.vGPUList.flatMap fun g => g.vNodeList.flatMap fun n =>
    n.vTaskList.map fun t => (t.id, ⟨g.GPUID, n.resourcePntg, n.dedupNum⟩, t.throughput)

namespace LoadBalancer

/-- The loop of `updateWRR`, and of `updateTable` for static schedules. -/
def renewAll (lb : LoadBalancer) (tickets : List Ticket) : LoadBalancer :=
  tickets.foldl (fun lb e => lb.renewTable e.1 (getKey e.1 e.2.1) e.2.2) lb

def updateWRR (lb : LoadBalancer) (schedResults : SimState) : LoadBalancer :=
  lb.clearTables.renewAll schedResults.tickets

/-- `updateTable(SimState&)`. -/
def updateTable (lb : LoadBalancer) (schedResults : SimState) : LoadBalancer :=
  match lb.type with
  | .no => lb
  | .wrr => lb.updateWRR schedResults

/-- The pairs of a table of throughputs by proxy. -/
def trpTickets (trps : List (ProxyInfo × List (Int × ℚ))) : List Ticket :=
  trps.flatMap fun pair => pair.2.map fun item => (item.1, pair.1, item.2)

/-- `updateTable(std::map<proxy_info*, ...>&)`. -/
def updateTableTrps (lb : LoadBalancer) (trps : List (ProxyInfo × List (Int × ℚ))) :
    LoadBalancer :=
  match lb.type with
  | .no => lb
  | .wrr => lb.clearTables.renewAll (trpTickets trps)

/-- `checkMinCredit`; reading the minimum makes an entry for it. -/
def checkMinCredit (lb : LoadBalancer) (model key : Int) : Bool × LoadBalancer :=
  (decide (entry lb.keyToCurrCredit key ≤ entry lb.taskIDToMinCredit model),
    { lb with taskIDToMinCredit :=
        assign lb.taskIDToMinCredit model (entry lb.taskIDToMinCredit model) })

/-- `checkWRR`. A key that is not found returns EXIT_FAILURE, which as a `bool`
is `true`. -/
def checkWRR (lb : LoadBalancer) (model : Int) (p : ProxyInfo) : Bool × LoadBalancer :=
  let key := getKey model p
  match lb.keyToCurrCredit key with
  | none => (true, lb)
  | some _ =>
      match lb.checkMinCredit model key with
      | (true, lb) =>
          let credit := entry lb.keyToCurrCredit key + entry lb.keyToCredit key
          (true, { lb with
            keyToCurrCredit := assign lb.keyToCurrCredit key credit
            taskIDToMinCredit := assign lb.taskIDToMinCredit model credit })
      | (false, lb) => (false, lb)

def checkLoad (lb : LoadBalancer) (model : Int) (p : ProxyInfo) : Bool × LoadBalancer :=
  match lb.type with
  | .no => (true, lb)
  | .wrr => lb.checkWRR model p

/-- The calls other threads make; each runs under `_mtx`. -/
inductive Call where
  | updateTable (schedResults : SimState)
  | updateTableTrps (trps : List (ProxyInfo × List (Int × ℚ)))
  | checkLoad (model : Int) (p : ProxyInfo)

def step : Call → LoadBalancer → Option LoadBalancer
  | .updateTable sim, lb => some (lb.updateTable sim)
  | .updateTableTrps trps, lb => some (lb.updateTableTrps trps)
  | .checkLoad model p, lb => some (lb.checkLoad model p).2

/-- The schedule a call installs, if it is an update. -/
def Call.installs : Call → Option (List Ticket)
  | .updateTable sim => some sim.tickets
  | .updateTableTrps trps => some (trpTickets trps)
  | .checkLoad _ _ => none

/-- The ids of a call are in range. -/
def Call.InRange : Call → Prop
  | .updateTable sim => ∀ e ∈ sim.tickets, Glet.InRange e.1 e.2.1
  | .updateTableTrps trps => ∀ e ∈ trpTickets trps, Glet.InRange e.1 e.2.1
  | .checkLoad model p => Glet.InRange model p

instance (call : Call) : Decidable call.InRange :=
  match call with
  | .updateTable _ => inferInstanceAs (Decidable (∀ _ ∈ _, _))
  | .updateTableTrps _ => inferInstanceAs (Decidable (∀ _ ∈ _, _))
  | .checkLoad model p => inferInstanceAs (Decidable (Glet.InRange model p))

/-- The schedule of the most recent update. -/
def lastSchedule (calls : List Call) : List Ticket :=
  (calls.reverse.findSome? Call.installs).getD []

/-! ## What an update leaves -/

variable {lb lb' : LoadBalancer} {tickets : List Ticket} {model model' : Int} {p p' : ProxyInfo}

/-- The tables hold the pairs of a schedule and no others. -/
structure Registered (tickets : List Ticket) (lb : LoadBalancer) : Prop where
  wrr : lb.type = .wrr
  keys : ∀ m k, k ∈ lb.taskIDtoKeys m ↔ ∃ e ∈ tickets, e.1 = m ∧ getKey e.1 e.2.1 = k
  found : ∀ k, (lb.keyToCurrCredit k).isSome ↔ ∃ e ∈ tickets, getKey e.1 e.2.1 = k

theorem Registered.renewTable (h : Registered tickets lb) (e : Ticket) :
    Registered (tickets ++ [e]) (lb.renewTable e.1 (getKey e.1 e.2.1) e.2.2) where
  wrr := h.wrr
  keys m k := by
    have hold := h.keys m k
    simp only [LoadBalancer.renewTable, List.mem_append, List.mem_singleton, or_and_right,
      exists_or, exists_eq_left, ← hold]
    by_cases hm : m = e.1
    · subst hm
      simp [eq_comm]
    · rw [Function.update_of_ne hm]
      simp [Ne.symm hm]
  found k := by
    have hold := h.found k
    simp only [LoadBalancer.renewTable, assign, List.mem_append, List.mem_singleton, or_and_right,
      exists_or, exists_eq_left, ← hold]
    by_cases hk : k = getKey e.1 e.2.1
    · subst hk
      simp
    · rw [Function.update_of_ne hk]
      simp [Ne.symm hk]

theorem Registered.renewAll {done : List Ticket} (h : Registered done lb) (tickets : List Ticket) :
    Registered (done ++ tickets) (lb.renewAll tickets) := by
  induction tickets generalizing done lb with
  | nil => simpa [LoadBalancer.renewAll] using h
  | cons e tickets ih =>
      have hrest := ih (h.renewTable e)
      rwa [List.append_assoc, List.singleton_append] at hrest

/-- After an update the tables hold the schedule it was given. -/
theorem registered_update (hwrr : lb.type = .wrr) (tickets : List Ticket) :
    Registered tickets (lb.clearTables.renewAll tickets) := by
  have hcleared : Registered [] lb.clearTables :=
    ⟨hwrr, by simp [clearTables, start], by simp [clearTables, start]⟩
  exact hcleared.renewAll tickets

/-- A call that is an update clears the tables and fills them anew. -/
theorem step_update {call : Call} (hwrr : lb.type = .wrr) (h : step call lb = some lb')
    (hinstalls : call.installs = some tickets) : lb' = lb.clearTables.renewAll tickets := by
  cases call with
  | updateTable sim =>
      obtain rfl := Option.some.inj h
      obtain rfl := Option.some.inj hinstalls
      simp only [updateTable, hwrr, updateWRR]
  | updateTableTrps trps =>
      obtain rfl := Option.some.inj h
      obtain rfl := Option.some.inj hinstalls
      simp only [updateTableTrps, hwrr]
  | checkLoad model p => cases hinstalls

/-- Any other call is a check. -/
theorem step_check {call : Call} (h : step call lb = some lb') (hinstalls : call.installs = none) :
    ∃ model p, call = .checkLoad model p ∧ lb' = (lb.checkLoad model p).2 := by
  cases call with
  | updateTable sim => cases hinstalls
  | updateTableTrps trps => cases hinstalls
  | checkLoad model p => exact ⟨model, p, rfl, (Option.some.inj h).symm⟩

theorem Call.InRange.installs {call : Call} (h : call.InRange)
    (hinstalls : call.installs = some tickets) : ∀ e ∈ tickets, Glet.InRange e.1 e.2.1 := by
  cases call with
  | updateTable sim =>
      obtain rfl := Option.some.inj hinstalls
      exact h
  | updateTableTrps trps =>
      obtain rfl := Option.some.inj hinstalls
      exact h
  | checkLoad model p => cases hinstalls

/-! ## What a check does -/

/-- The three ways a check can go. -/
theorem checkLoad_cases (hwrr : lb.type = .wrr) (model : Int) (p : ProxyInfo) :
    (lb.keyToCurrCredit (getKey model p) = none ∧ lb.checkLoad model p = (true, lb)) ∨
    ((lb.keyToCurrCredit (getKey model p)).isSome ∧
      entry lb.keyToCurrCredit (getKey model p) ≤ entry lb.taskIDToMinCredit model ∧
      lb.checkLoad model p = (true, { lb with
        keyToCurrCredit := assign lb.keyToCurrCredit (getKey model p)
          (entry lb.keyToCurrCredit (getKey model p) + entry lb.keyToCredit (getKey model p))
        taskIDToMinCredit := assign lb.taskIDToMinCredit model
          (entry lb.keyToCurrCredit (getKey model p) + entry lb.keyToCredit (getKey model p)) })) ∨
    ((lb.keyToCurrCredit (getKey model p)).isSome ∧
      ¬ entry lb.keyToCurrCredit (getKey model p) ≤ entry lb.taskIDToMinCredit model ∧
      lb.checkLoad model p = (false, { lb with
        taskIDToMinCredit :=
          assign lb.taskIDToMinCredit model (entry lb.taskIDToMinCredit model) })) := by
  have hcheck : lb.checkLoad model p = lb.checkWRR model p := by simp only [checkLoad, hwrr]
  rw [hcheck]
  unfold checkWRR
  cases hkey : lb.keyToCurrCredit (getKey model p) with
  | none => exact Or.inl ⟨rfl, by simp only [hkey]⟩
  | some c =>
      refine Or.inr ?_
      by_cases hle : entry lb.keyToCurrCredit (getKey model p) ≤ entry lb.taskIDToMinCredit model
      · refine Or.inl ⟨rfl, hle, ?_⟩
        simp only [hkey, checkMinCredit, hle, decide_true, assign, Function.update_idem]
      · refine Or.inr ⟨rfl, hle, ?_⟩
        simp only [hkey, checkMinCredit, hle, decide_false]

/-- The tables that a check does not touch. -/
theorem checkLoad_frame (hwrr : lb.type = .wrr) (model : Int) (p : ProxyInfo) :
    (lb.checkLoad model p).2.type = lb.type ∧
    (lb.checkLoad model p).2.taskIDtoKeys = lb.taskIDtoKeys ∧
    (lb.checkLoad model p).2.keyToCredit = lb.keyToCredit := by
  rcases checkLoad_cases hwrr model p with ⟨-, h⟩ | ⟨-, -, h⟩ | ⟨-, -, h⟩
  all_goals rw [h]; exact ⟨rfl, rfl, rfl⟩

theorem Registered.checkLoad (h : Registered tickets lb) (model : Int) (p : ProxyInfo) :
    Registered tickets (lb.checkLoad model p).2 := by
  obtain ⟨htype, hkeys, -⟩ := checkLoad_frame h.wrr model p
  refine ⟨htype.trans h.wrr, fun m k => by rw [hkeys]; exact h.keys m k, fun k => ?_⟩
  rw [← h.found k]
  rcases checkLoad_cases h.wrr model p with ⟨-, heq⟩ | ⟨hsome, -, heq⟩ | ⟨-, -, heq⟩
  · rw [heq]
  · rw [heq]
    simp only [assign]
    by_cases hk : k = getKey model p
    · rw [hk, Function.update_self, hsome]
      rfl
    · rw [Function.update_of_ne hk]
  · rw [heq]

/-! ## Histories -/

theorem Registered.step {call : Call} (h : Registered tickets lb)
    (hstep : LoadBalancer.step call lb = some lb') :
    Registered (call.installs.getD tickets) lb' := by
  cases hinstalls : call.installs with
  | some installed =>
      rw [step_update h.wrr hstep hinstalls]
      exact registered_update h.wrr installed
  | none =>
      obtain ⟨model, p, rfl, rfl⟩ := step_check hstep hinstalls
      exact h.checkLoad model p

/-- After any history the tables hold the most recent schedule. -/
theorem Registered.run {calls : List Call} (h : Registered tickets lb)
    (hrun : Machine.run LoadBalancer.step calls lb = some lb') :
    Registered ((calls.reverse.findSome? Call.installs).getD tickets) lb' := by
  induction calls generalizing tickets lb with
  | nil =>
      obtain rfl := Option.some.inj hrun
      exact h
  | cons call calls ih =>
      obtain ⟨lb1, hstep, hrest⟩ := Machine.run_cons_eq_some.mp hrun
      have hlast := ih (h.step hstep) hrest
      rw [List.reverse_cons, List.findSome?_append]
      cases hfind : calls.reverse.findSome? Call.installs with
      | some installed =>
          rw [hfind] at hlast
          exact hlast
      | none =>
          rw [hfind] at hlast
          simpa using hlast

theorem registered_start : Registered [] start := ⟨rfl, by simp [start], by simp [start]⟩

theorem registered_last {calls : List Call}
    (hrun : Machine.run LoadBalancer.step calls start = some lb) :
    Registered (lastSchedule calls) lb :=
  registered_start.run hrun

theorem lastSchedule_mem {calls : List Call} {e : Ticket} (h : e ∈ lastSchedule calls)
    (hrange : ∀ call ∈ calls, call.InRange) : Glet.InRange e.1 e.2.1 := by
  unfold lastSchedule at h
  cases hfind : calls.reverse.findSome? Call.installs with
  | none =>
      rw [hfind] at h
      cases h
  | some tickets =>
      rw [hfind] at h
      obtain ⟨call, hcall, hinstalls⟩ := List.exists_of_findSome?_eq_some hfind
      exact (hrange call (List.mem_reverse.mp hcall)).installs hinstalls e h

/-! ## Which pairs are admitted -/

/-- The pair occurs in a schedule. -/
def Scheduled (tickets : List Ticket) (model : Int) (p : ProxyInfo) : Prop :=
  ∃ e ∈ tickets, e.1 = model ∧ e.2.1 = p

/-- Keys in range are found exactly if their pair is scheduled. -/
theorem found_iff_scheduled (h : Registered tickets lb)
    (hrange : ∀ e ∈ tickets, Glet.InRange e.1 e.2.1) (hp : Glet.InRange model p) :
    (lb.keyToCurrCredit (getKey model p)).isSome ↔ Scheduled tickets model p := by
  rw [h.found]
  constructor
  · rintro ⟨e, he, hkey⟩
    exact ⟨e, he, getKey_inj (hrange e he) hp hkey⟩
  · rintro ⟨e, he, rfl, rfl⟩
    exact ⟨e, he, rfl⟩

/-- **Admission of scheduled pairs.** After any history of calls in range, a
check of a pair in range keeps to "admitted only if scheduled" exactly if the
pair is scheduled: pairs outside the schedule are always admitted. -/
theorem admitted_only_scheduled_iff {calls : List Call} (hrange : ∀ call ∈ calls, call.InRange)
    (hrun : Machine.run LoadBalancer.step calls start = some lb) (hp : Glet.InRange model p) :
    ((lb.checkLoad model p).1 = true → Scheduled (lastSchedule calls) model p) ↔
      Scheduled (lastSchedule calls) model p := by
  have hreg := registered_last hrun
  refine ⟨fun honly => ?_, fun hs _ => hs⟩
  by_contra hnot
  have hmissing : ¬ (lb.keyToCurrCredit (getKey model p)).isSome := by
    rw [found_iff_scheduled hreg (fun e he => lastSchedule_mem he hrange) hp]
    exact hnot
  rcases checkLoad_cases hreg.wrr model p with ⟨-, h⟩ | ⟨hsome, -⟩ | ⟨hsome, -⟩
  · exact hnot (honly (by rw [h]))
  · exact hmissing hsome
  · exact hmissing hsome

/-- A schedule with one node that spans GPU 0 and hosts one model. -/
def onGPU (tickets : List (Int × ℚ)) : SimState where
  vGPUList := [{
    GPUID := 0, totalMemory := 0, usedMemory := 0, TYPE := "", vLoadedParts := []
    vNodeList := [{
      vTaskList := tickets.map fun e =>
        { id := e.1, requestRate := 0, additionalRate := 0, SLO := 0, batchSize := 1, throughput := e.2 }
      dutyCycle := none, occupancy := 0, resourcePntg := 100, id := 0, reserved := false
      dedupNum := 0, type := "" }] }]
  parts := []

/-- Model 0 is scheduled, is checked once and is still a scheduled pair. -/
theorem admitted_only_scheduled_model :
    ∃ lb, Machine.run step [.updateTable (onGPU [(0, 4)]), .checkLoad 0 ⟨0, 100, 0⟩] start =
        some lb ∧
      ((lb.checkLoad 0 ⟨0, 100, 0⟩).1 = true →
        Scheduled (lastSchedule [.updateTable (onGPU [(0, 4)]), .checkLoad 0 ⟨0, 100, 0⟩]) 0
          ⟨0, 100, 0⟩) := by
  refine ⟨_, rfl, (admitted_only_scheduled_iff ?_ rfl (by decide)).mpr ⟨(0, ⟨0, 100, 0⟩, 4), ?_, rfl, rfl⟩⟩
  · decide
  · decide

/-- With only model 0 scheduled, the proxy asks for model 1 and is admitted. -/
theorem unscheduled_admitted :
    ∃ lb, Machine.run step [.updateTable (onGPU [(0, 4)])] start = some lb ∧
      (lb.checkLoad 1 ⟨0, 100, 0⟩).1 = true ∧
      ¬ Scheduled (lastSchedule [.updateTable (onGPU [(0, 4)])]) 1 ⟨0, 100, 0⟩ := by
  refine ⟨_, rfl, by decide, ?_⟩
  rintro ⟨e, he, hmodel, -⟩
  have hlast : lastSchedule [.updateTable (onGPU [(0, 4)])] = [(0, ⟨0, 100, 0⟩, 4)] := rfl
  rw [hlast, List.mem_singleton] at he
  subst he
  cases hmodel

/-! ## Some pair of a model is admitted -/

/-- Some key of each model is at most the model's minimum. -/
def Open (lb : LoadBalancer) : Prop :=
  ∀ m, lb.taskIDtoKeys m ≠ [] →
    ∃ k ∈ lb.taskIDtoKeys m, entry lb.keyToCurrCredit k ≤ entry lb.taskIDToMinCredit m

/-- Right after an update every credit is 0 and every minimum is 10. -/
theorem renewAll_credits (tickets : List Ticket)
    (hcurr : ∀ k, entry lb.keyToCurrCredit k = 0)
    (hmin : ∀ m, lb.taskIDtoKeys m ≠ [] → entry lb.taskIDToMinCredit m = 10) :
    (∀ k, entry (lb.renewAll tickets).keyToCurrCredit k = 0) ∧
    ∀ m, (lb.renewAll tickets).taskIDtoKeys m ≠ [] →
      entry (lb.renewAll tickets).taskIDToMinCredit m = 10 := by
  induction tickets generalizing lb with
  | nil => exact ⟨hcurr, hmin⟩
  | cons e tickets ih =>
      refine ih ?_ ?_
      · intro k
        simp only [renewTable, entry_assign, hcurr, ite_self]
      · intro m hm
        simp only [renewTable, entry_assign] at hm ⊢
        split
        · rfl
        · rename_i hne
          rw [Function.update_of_ne hne] at hm
          exact hmin m hm

theorem open_update (lb : LoadBalancer) (tickets : List Ticket) :
    Open (lb.clearTables.renewAll tickets) := by
  obtain ⟨hcurr, hmin⟩ := @renewAll_credits lb.clearTables tickets (fun _ => rfl)
    (fun _ h => absurd rfl h)
  intro m hm
  obtain ⟨k, hk⟩ := List.exists_mem_of_ne_nil _ hm
  refine ⟨k, hk, ?_⟩
  rw [hcurr, hmin m hm]
  decide

theorem Open.checkLoad (hreg : Registered tickets lb)
    (hrange : ∀ e ∈ tickets, Glet.InRange e.1 e.2.1) (hp : Glet.InRange model p) (h : Open lb) :
    Open (lb.checkLoad model p).2 := by
  rcases checkLoad_cases hreg.wrr model p with ⟨-, heq⟩ | ⟨hsome, -, heq⟩ | ⟨-, -, heq⟩
  · rw [heq]
    exact h
  · rw [heq]
    intro m hm
    by_cases hmodel : m = model
    · -- the admitted key is the new minimum
      subst hmodel
      refine ⟨getKey m p, ?_, ?_⟩
      · obtain ⟨e, he, rfl, rfl⟩ := (found_iff_scheduled hreg hrange hp).mp hsome
        exact (hreg.keys _ _).mpr ⟨e, he, rfl, rfl⟩
      · simp only [entry_assign, if_true, le_refl]
    · obtain ⟨k, hk, hle⟩ := h m hm
      refine ⟨k, hk, ?_⟩
      have hne : k ≠ getKey model p := by
        obtain ⟨e, he, rfl, rfl⟩ := (hreg.keys m k).mp hk
        exact fun hkey => hmodel (getKey_inj (hrange e he) hp hkey).1
      simp only [entry_assign, if_neg hne, if_neg hmodel]
      exact hle
  · rw [heq]
    intro m hm
    obtain ⟨k, hk, hle⟩ := h m hm
    refine ⟨k, hk, ?_⟩
    simp only [entry_assign]
    split
    · rename_i hmodel
      rw [← hmodel]
      exact hle
    · exact hle

/-- In any history of calls in range some key of each model stays admissible. -/
theorem open_run {calls : List Call} (hrange : ∀ call ∈ calls, call.InRange)
    (hrun : Machine.run LoadBalancer.step calls start = some lb) : Open lb := by
  have hstart : (∃ tickets, Registered tickets start ∧
      ∀ e ∈ tickets, Glet.InRange e.1 e.2.1) ∧ Open start :=
    ⟨⟨[], registered_start, by simp⟩, fun _ hm => absurd rfl hm⟩
  refine (Machine.run_along (C := fun _ call => call.InRange)
    (I := fun lb => (∃ tickets, Registered tickets lb ∧
      ∀ e ∈ tickets, Glet.InRange e.1 e.2.1) ∧ Open lb) ?_
    (Machine.along_of_forall hrange _) hrun hstart).2
  rintro call lb lb' ⟨⟨tickets, hreg, htickets⟩, hopen⟩ hcall hstep
  have hreg' := hreg.step hstep
  cases hinstalls : call.installs with
  | some installed =>
      rw [hinstalls] at hreg'
      refine ⟨⟨installed, hreg', hcall.installs hinstalls⟩, ?_⟩
      rw [step_update hreg.wrr hstep hinstalls]
      exact open_update lb installed
  | none =>
      rw [hinstalls] at hreg'
      refine ⟨⟨tickets, hreg', htickets⟩, ?_⟩
      obtain ⟨model, p, rfl, rfl⟩ := step_check hstep hinstalls
      exact hopen.checkLoad hreg htickets hcall

/-- What a check answers. -/
theorem checkLoad_eq_true (hwrr : lb.type = .wrr) : (lb.checkLoad model p).1 = true ↔
    lb.keyToCurrCredit (getKey model p) = none ∨
      entry lb.keyToCurrCredit (getKey model p) ≤ entry lb.taskIDToMinCredit model := by
  rcases checkLoad_cases hwrr model p with ⟨hnone, h⟩ | ⟨-, hle, h⟩ | ⟨hsome, hnle, h⟩
  · simp [h, hnone]
  · simp [h, hle]
  · have hne : lb.keyToCurrCredit (getKey model p) ≠ none := Option.isSome_iff_ne_none.mp hsome
    simp [h, hnle, hne]

/-- A check for one model does not change the answer to a check for another. -/
theorem checkLoad_other (hwrr : lb.type = .wrr) (hp : Glet.InRange model p)
    (hp' : Glet.InRange model' p') (hne : model ≠ model') :
    ((lb.checkLoad model p).2.checkLoad model' p').1 = (lb.checkLoad model' p').1 := by
  have hkey : getKey model' p' ≠ getKey model p := fun h => hne (getKey_inj hp' hp h).1.symm
  have htype := (checkLoad_frame hwrr model p).1
  rw [Bool.eq_iff_iff, checkLoad_eq_true (htype.trans hwrr), checkLoad_eq_true hwrr]
  rcases checkLoad_cases hwrr model p with ⟨-, h⟩ | ⟨-, -, h⟩ | ⟨-, -, h⟩
  · rw [h]
  · rw [h]
    simp only [entry_assign, if_neg hkey, if_neg (Ne.symm hne)]
    rw [assign, Function.update_of_ne hkey]
  · rw [h]
    simp only [entry_assign, if_neg (Ne.symm hne)]

/-- **Weighted round robin never blocks a model.** After any history of calls
in range, a key with the least credit of its model is admitted, and a check
for one model changes no answer for another. -/
theorem least_admitted {calls : List Call} (hrange : ∀ call ∈ calls, call.InRange)
    (hrun : Machine.run LoadBalancer.step calls start = some lb) :
    (∀ model p, getKey model p ∈ lb.taskIDtoKeys model →
      (∀ k ∈ lb.taskIDtoKeys model,
        entry lb.keyToCurrCredit (getKey model p) ≤ entry lb.keyToCurrCredit k) →
      (lb.checkLoad model p).1 = true) ∧
    (∀ model p model' p', Glet.InRange model p → Glet.InRange model' p' → model ≠ model' →
      ((lb.checkLoad model p).2.checkLoad model' p').1 = (lb.checkLoad model' p').1) := by
  have hwrr := (registered_last hrun).wrr
  refine ⟨?_, fun model p model' p' hp hp' hne => checkLoad_other hwrr hp hp' hne⟩
  intro model p hmem hleast
  obtain ⟨k, hk, hle⟩ := open_run hrange hrun model (List.ne_nil_of_mem hmem)
  exact (checkLoad_eq_true hwrr).mpr (Or.inr (le_trans (hleast k hk) hle))

/-- Two models on one GPU, checked in turn. -/
theorem least_admitted_two_models :
    ∃ lb, Machine.run step [.updateTable (onGPU [(0, 4), (1, 2)]), .checkLoad 0 ⟨0, 100, 0⟩] start =
        some lb ∧
      (lb.checkLoad 1 ⟨0, 100, 0⟩).1 = true ∧
      ((lb.checkLoad 1 ⟨0, 100, 0⟩).2.checkLoad 0 ⟨0, 100, 0⟩).1 = (lb.checkLoad 0 ⟨0, 100, 0⟩).1 := by
  have hrange : ∀ call ∈ [Call.updateTable (onGPU [(0, 4), (1, 2)]), .checkLoad 0 ⟨0, 100, 0⟩],
      call.InRange := by decide
  obtain ⟨hleast, hother⟩ := least_admitted hrange rfl
  exact ⟨_, rfl, hleast 1 ⟨0, 100, 0⟩ (by decide) (by decide),
    hother 1 ⟨0, 100, 0⟩ 0 ⟨0, 100, 0⟩ (by decide) (by decide) (by decide)⟩

/-! ## Credits of one model -/

/-- The credits two keys of a model have used differ by at most one grant. -/
def WithinGrant (lb : LoadBalancer) : Prop :=
  ∀ m, ∀ i ∈ lb.taskIDtoKeys m, ∀ j ∈ lb.taskIDtoKeys m,
    entry lb.keyToCurrCredit i ≤
      entry lb.keyToCurrCredit j + max (entry lb.keyToCredit i) (entry lb.keyToCredit j)

/-- The throughputs of a call are positive. -/
def Call.Positive : Call → Prop
  | .updateTable sim => ∀ e ∈ sim.tickets, 0 < e.2.2
  | .updateTableTrps trps => ∀ e ∈ trpTickets trps, 0 < e.2.2
  | .checkLoad _ _ => True

instance (call : Call) : Decidable call.Positive :=
  match call with
  | .updateTable _ => inferInstanceAs (Decidable (∀ _ ∈ _, _))
  | .updateTableTrps _ => inferInstanceAs (Decidable (∀ _ ∈ _, _))
  | .checkLoad _ _ => .isTrue trivial

theorem Call.Positive.installs {call : Call} (h : call.Positive)
    (hinstalls : call.installs = some tickets) : ∀ e ∈ tickets, 0 < e.2.2 := by
  cases call with
  | updateTable sim =>
      obtain rfl := Option.some.inj hinstalls
      exact h
  | updateTableTrps trps =>
      obtain rfl := Option.some.inj hinstalls
      exact h
  | checkLoad model p => cases hinstalls

/-- A key that is admitted has the least credit among the keys of each model
that has it. -/
def AdmitsLeast (lb : LoadBalancer) : Call → Prop
  | .checkLoad model p => (lb.checkLoad model p).1 = true →
      ∀ m, getKey model p ∈ lb.taskIDtoKeys m → ∀ j ∈ lb.taskIDtoKeys m,
        entry lb.keyToCurrCredit (getKey model p) ≤ entry lb.keyToCurrCredit j
  | _ => True

theorem creditOf_nonneg {trpt : ℚ} (h : 0 < trpt) : 0 ≤ creditOf trpt := by
  rw [creditOf, if_neg (ne_of_gt h)]
  exact_mod_cast (by positivity : (0 : ℚ) ≤ 1 / trpt)

theorem renewAll_nonneg (hpos : ∀ e ∈ tickets, 0 < e.2.2)
    (hold : ∀ k, 0 ≤ entry lb.keyToCredit k) :
    ∀ k, 0 ≤ entry (lb.renewAll tickets).keyToCredit k := by
  induction tickets generalizing lb with
  | nil => exact hold
  | cons e tickets ih =>
      refine ih (fun e' he' => hpos e' (List.mem_cons_of_mem _ he')) ?_
      intro k
      simp only [renewTable, entry_assign]
      split
      · exact creditOf_nonneg (hpos e (List.mem_cons_self ..))
      · exact hold k

/-- The grants are not negative and the credits within one grant. -/
def Even (lb : LoadBalancer) : Prop :=
  lb.type = .wrr ∧ (∀ k, 0 ≤ entry lb.keyToCredit k) ∧ WithinGrant lb

theorem even_update (hwrr : lb.type = .wrr) (hpos : ∀ e ∈ tickets, 0 < e.2.2) :
    Even (lb.clearTables.renewAll tickets) := by
  have hnonneg : ∀ k, 0 ≤ entry (lb.clearTables.renewAll tickets).keyToCredit k :=
    renewAll_nonneg hpos fun _ => le_refl _
  refine ⟨(registered_update hwrr tickets).wrr, hnonneg, ?_⟩
  obtain ⟨hcurr, -⟩ := @renewAll_credits lb.clearTables tickets (fun _ => rfl)
    (fun _ h => absurd rfl h)
  intro m i _ j _
  rw [hcurr, hcurr, zero_add]
  exact le_trans (hnonneg i) (le_max_left _ _)

theorem Even.checkLoad (h : Even lb) (hleast : AdmitsLeast lb (.checkLoad model p)) :
    Even (lb.checkLoad model p).2 := by
  obtain ⟨hwrr, hnonneg, hwithin⟩ := h
  rcases checkLoad_cases hwrr model p with ⟨-, heq⟩ | ⟨-, -, heq⟩ | ⟨-, -, heq⟩
  · rw [heq]
    exact ⟨hwrr, hnonneg, hwithin⟩
  · have hk := hleast (by rw [heq])
    rw [heq]
    refine ⟨hwrr, hnonneg, ?_⟩
    intro m i hi j hj
    simp only [entry_assign]
    have hij := hwithin m i hi j hj
    by_cases hik : i = getKey model p
    · subst hik
      by_cases hjk : j = getKey model p
      · rw [if_pos rfl, if_pos hjk]
        exact le_add_of_nonneg_right (le_trans (hnonneg _) (le_max_left _ _))
      · rw [if_pos rfl, if_neg hjk]
        exact add_le_add (hk m hi j hj) (le_max_left _ _)
    · rw [if_neg hik]
      split
      · rename_i hjk
        subst hjk
        refine le_trans hij ?_
        gcongr
        exact le_add_of_nonneg_right (hnonneg _)
      · exact hij
  · rw [heq]
    exact ⟨hwrr, hnonneg, hwithin⟩

/-- **Weighted round robin is proportional.** With positive throughputs, in
every history in which only keys with the least credit of their model are
admitted, the credits of a model stay within one grant of each other. -/
theorem credits_within_grant {calls : List Call} (hpos : ∀ call ∈ calls, call.Positive)
    (hleast : Machine.Along step AdmitsLeast calls start)
    (hrun : Machine.run LoadBalancer.step calls start = some lb) : WithinGrant lb := by
  have hstart : Even start := ⟨rfl, fun _ => le_refl _, fun _ _ hi => by cases hi⟩
  have hboth : Machine.Along step (fun lb call => AdmitsLeast lb call ∧ call.Positive) calls start :=
    hleast.and (Machine.along_of_forall hpos start)
  refine (Machine.run_along (I := Even) ?_ hboth hrun hstart).2.2
  rintro call lb lb' heven ⟨hadmits, hcall⟩ hstep
  cases hinstalls : call.installs with
  | some installed =>
      rw [step_update heven.1 hstep hinstalls]
      exact even_update heven.1 (hcall.installs hinstalls)
  | none =>
      obtain ⟨model, p, rfl, rfl⟩ := step_check hstep hinstalls
      exact heven.checkLoad hadmits

/-- Model 0 on two GPUs, with twice the throughput on the first. -/
def twoProxies : Call := .updateTableTrps [(⟨0, 100, 0⟩, [(0, 2)]), (⟨1, 100, 0⟩, [(0, 1)])]

theorem twoProxies_keys {lb : LoadBalancer} (hreg : Registered (lastSchedule [twoProxies]) lb)
    {m k : Int} (hk : k ∈ lb.taskIDtoKeys m) : m = 0 := by
  obtain ⟨e, he, hm, -⟩ := (hreg.keys m k).mp hk
  have hzero : ∀ e ∈ lastSchedule [twoProxies], e.1 = 0 := by decide
  rw [← hm]
  exact hzero e he

/-- Each proxy polls once: the credits are 1 / 2 and 1. -/
theorem credits_within_grant_turns :
    ∃ lb, Machine.run step [twoProxies, .checkLoad 0 ⟨0, 100, 0⟩, .checkLoad 0 ⟨1, 100, 0⟩] start =
      some lb ∧ WithinGrant lb := by
  have hpos : ∀ call ∈ [twoProxies, .checkLoad 0 ⟨0, 100, 0⟩, .checkLoad 0 ⟨1, 100, 0⟩],
      call.Positive := by decide
  refine ⟨_, rfl, credits_within_grant hpos ⟨trivial, ?_⟩ rfl⟩
  intro lb1 h1
  have hreg1 := registered_start.step h1
  refine ⟨?_, ?_⟩
  · intro _ m hm
    obtain rfl := twoProxies_keys hreg1 hm
    obtain rfl := Option.some.inj h1
    decide
  · intro lb2 h2
    have hreg2 := hreg1.step h2
    refine ⟨?_, fun _ _ => trivial⟩
    intro _ m hm
    obtain rfl := twoProxies_keys hreg2 hm
    obtain rfl := Option.some.inj h1
    obtain rfl := Option.some.inj h2
    decide +kernel

/-- The first proxy polls three times and is admitted each time: the minimum
is its own credit. The second is still at 0. -/
theorem credits_drift_apart :
    ∃ lb, Machine.run step [twoProxies, .checkLoad 0 ⟨0, 100, 0⟩, .checkLoad 0 ⟨0, 100, 0⟩,
        .checkLoad 0 ⟨0, 100, 0⟩] start = some lb ∧ ¬ WithinGrant lb := by
  refine ⟨_, rfl, fun hwithin => ?_⟩
  have hdrift := hwithin 0 (getKey 0 ⟨0, 100, 0⟩) (by decide +kernel)
    (getKey 0 ⟨1, 100, 0⟩) (by decide +kernel)
  revert hdrift
  decide +kernel

end LoadBalancer

end Glet
