import Glet.Incremental
import Glet.Latency

/-!
# What an estimated gpu-let is

Saturation tables hold the throughput of a batch size at its own latency
(`TableOK`), and every gpu-let that `estimateTrp`, `getEstimateTrpST` or the
resizing in `allocateFit` produces is a `Gpulet`: one task, a batch size in
range, and a duty cycle that is either the latency itself or the time the
batch takes to arrive (`DutyOf`).

The second alternative of `DutyOf.period` is the corner case of
`getMaxBatch`, the third the estimate for which `getMinPart` found no batch
size: its partition is 0.
-/

namespace Glet

/-! ## Saturation tables -/

/-- Every row gives the throughput of its batch size, back to back. -/
def TableOK (s : Scheduler) (table : SatTable) : Prop :=
  ∀ id entries, table id = some entries → ∀ e ∈ entries,
    ∃ v, s.getLatency e.type id e.maxBatch e.part = .ok v ∧ v ≠ 0 ∧ e.satTrp = e.maxBatch * 1000 / v

theorem TableOK.empty (s : Scheduler) : TableOK s fun _ => none := by
  intro id entries h
  cases h

namespace Scheduler

variable {s : Scheduler} {table table' : SatTable} {task : Task}

/-- An entry that ends is set up: the "cannot setup" exit is never taken. -/
theorem satTrpEntry_ok {type : DeviceType} {part : Int} {r : Option SatTrpEntry}
    (h : s.satTrpEntry task type part = .ok r) :
    ∃ e, r = some e ∧ (e.type = type ∧ e.part = part) ∧
      ∃ v, s.getLatency e.type task.id e.maxBatch e.part = .ok v ∧ v ≠ 0 ∧
        e.satTrp = e.maxBatch * 1000 / v := by
  have hrow : ∀ {b : Int} {r : Option SatTrpEntry}, (do
      let latency ← s.getLatency type task.id b part
      let satTrp ← fdiv (b * 1000) latency
      return some { part, maxBatch := b, satTrp, type : SatTrpEntry }) = .ok r →
      ∃ e, r = some e ∧ (e.type = type ∧ e.part = part) ∧
        ∃ v, s.getLatency e.type task.id e.maxBatch e.part = .ok v ∧ v ≠ 0 ∧
          e.satTrp = e.maxBatch * 1000 / v := by
    intro b r hb
    simp only [Query.bind_ok, Query.pure_ok, fdiv_ok] at hb
    obtain ⟨v, hv, trp, ⟨hv0, rfl⟩, rfl⟩ := hb
    exact ⟨_, rfl, ⟨rfl, rfl⟩, v, hv, hv0, rfl⟩
  simp only [satTrpEntry, getMaxBatch, Query.bind_ok, Prod.exists] at h
  obtain ⟨batch, req, ⟨b, hloop, hbatch⟩, h⟩ := h
  rw [if_neg (by simp)] at hbatch
  obtain ⟨rfl, -⟩ := Prod.mk.injEq .. |>.mp (Query.pure_ok.mp hbatch)
  split at h
  case isTrue hzero =>
    simp only [Query.bind_ok] at h
    obtain ⟨latency, hlat, h⟩ := h
    rcases maxBatchLoop_ok hloop le_rfl (by decide) (Or.inl rfl) with ⟨-, v, hv, hfit⟩ | ⟨h1, -⟩
    · obtain rfl : latency = v := Except.ok.inj (hlat.symm.trans hv)
      simp only [Bool.false_eq_true, if_false, decide_eq_false_iff_not, not_le] at hfit
      rw [if_pos hfit] at h
      exact hrow (Query.bind_ok.mpr (Query.bind_ok.mp h))
    · omega
  case isFalse => exact hrow (Query.bind_ok.mpr (Query.bind_ok.mp h))

theorem satTrpEntries_ok {pairs : List (DeviceType × Int)} {r : Option (List SatTrpEntry)}
    (h : s.satTrpEntries task pairs = .ok r) :
    ∃ es, r = some es ∧ (∀ q ∈ pairs, ∃ e ∈ es, e.type = q.1 ∧ e.part = q.2) ∧
      ∀ e ∈ es, ∃ v, s.getLatency e.type task.id e.maxBatch e.part = .ok v ∧ v ≠ 0 ∧
        e.satTrp = e.maxBatch * 1000 / v := by
  induction pairs generalizing r with
  | nil => exact ⟨[], (Except.ok.inj h).symm, List.forall_mem_nil _, List.forall_mem_nil _⟩
  | cons pair pairs ih =>
      simp only [satTrpEntries, Query.bind_ok] at h
      obtain ⟨r1, hr1, h⟩ := h
      obtain ⟨e, rfl, hpair, hrow⟩ := satTrpEntry_ok hr1
      simp only [Query.bind_ok] at h
      obtain ⟨r2, hr2, h⟩ := h
      obtain ⟨es, rfl, hpairs, hrows⟩ := ih hr2
      obtain rfl := Query.pure_ok.mp h
      refine ⟨e :: es, rfl, fun q hq => ?_, List.forall_mem_cons.mpr ⟨hrow, hrows⟩⟩
      rcases List.mem_cons.mp hq with rfl | hq
      · exact ⟨e, List.mem_cons_self .., hpair⟩
      · obtain ⟨e', he', hpair'⟩ := hpairs q hq
        exact ⟨e', List.mem_cons_of_mem _ he', hpair'⟩

theorem initSaturateTrp_ok (htab : TableOK s table)
    (h : s.initSaturateTrp task table = .ok table') : TableOK s table' := by
  simp only [initSaturateTrp, Query.bind_ok] at h
  obtain ⟨r, hr, h⟩ := h
  obtain ⟨entries, rfl, -, hrows⟩ := satTrpEntries_ok hr
  obtain rfl := Query.pure_ok.mp h
  intro id es hes e he
  dsimp only at hes
  split at hes
  case isTrue hid =>
    obtain rfl := Option.some.inj hes
    rw [hid]
    exact hrows e he
  case isFalse hid => exact htab id es hes e he

theorem getMaxSaturateTrp_ok {id part : Int} {type : DeviceType} {trp : ℚ} {batch : Int}
    (htab : TableOK s table) (h : getMaxSaturateTrp table id part type = .ok (trp, batch)) :
    ∃ v, s.getLatency type id batch part = .ok v ∧ v ≠ 0 ∧ trp = batch * 1000 / v := by
  unfold getMaxSaturateTrp at h
  split at h
  case h_1 => cases h
  case h_2 entries hent =>
    split at h
    case h_1 => cases h
    case h_2 e he =>
      obtain ⟨rfl, rfl⟩ := Prod.mk.injEq .. |>.mp (Except.ok.inj h)
      obtain ⟨hmem, hmatch⟩ := List.mem_filter.mp (List.mem_of_getLast? he)
      obtain ⟨rfl, rfl⟩ := of_decide_eq_true hmatch
      exact htab id entries hent e hmem

end Scheduler

/-- The tables that calls of `initSaturateTrp` build; the number of GPUs and
the repartition flag may change between them. -/
inductive Built (s : Scheduler) : SatTable → Prop
  | empty : Built s fun _ => none
  | init {n : Int} {repart : Bool} {task : Task} {table table' : SatTable} : Built s table →
      ((s.setMaxGPUs n).withRepart repart).initSaturateTrp task table = .ok table' → Built s table'

theorem Built.ok {s : Scheduler} {table : SatTable} (h : Built s table) : TableOK s table := by
  induction h with
  | empty => exact TableOK.empty s
  | @init n repart _ _ _ _ hinit ih =>
      exact Scheduler.initSaturateTrp_ok (s := (s.setMaxGPUs n).withRepart repart) ih hinit

/-- The number of GPUs does not matter for the saturation tables. -/
theorem built_setMaxGPUs {s : Scheduler} {table : SatTable} {n : Int} :
    Built (s.setMaxGPUs n) table ↔ Built s table := by
  constructor <;>
  · intro h
    induction h with
    | empty => exact .empty
    | init _ hinit ih => exact .init ih hinit

/-- Repartitioning does not either. -/
theorem built_withRepart {s : Scheduler} {table : SatTable} {allowRepart : Bool} :
    Built (s.withRepart allowRepart) table ↔ Built s table := by
  constructor <;>
  · intro h
    induction h with
    | empty => exact .empty
    | init _ hinit ih => exact .init ih hinit

/-! ## Gpu-lets -/

/-- Where the duty cycle `d` of a gpu-let with latency `v` comes from. -/
inductive DutyOf (SLO : Int) (n : Node) (e : Task) (v d : ℚ) : Prop
  | own (occupancy : n.occupancy = 1) (duty : d = v)
  | period (rate : e.requestRate ≠ 0) (duty : d = 1000 * e.batchSize / e.requestRate)
      (slo : v + d ≤ SLO ∨ e.batchSize = 1 ∨ n.resourcePntg = 0)

/-- A gpu-let for one task: its entry `e`, duty cycle `d` and latency `v`. -/
structure Gpulet (s : Scheduler) (id SLO : Int) (n : Node) (e : Task) (d v : ℚ) : Prop where
  tasks : n.vTaskList = [e]
  id_eq : e.id = id
  SLO_eq : e.SLO = SLO
  duty : n.dutyCycle = some d
  batch_pos : 1 ≤ e.batchSize
  batch_le : e.batchSize ≤ maxBatch
  latency : s.useInterference = false →
    s.soloLatency n.type e.id e.batchSize n.resourcePntg = .ok v
  positive : PositiveLatency s → 0 ≤ e.throughput ∧ 0 < d
  plain : s.useSelfTuning = false →
    e.throughput * d = 1000 * e.batchSize ∧ DutyOf SLO n e v d

/-- The partition size of an estimated gpu-let: it was asked of the profile,
and is an available one or the 0 that `getMinPart` returns when it finds no
batch size. -/
structure Offered (s : Scheduler) (part : Int) : Prop where
  profiled : Profiled s part
  listed : part ∈ s.availParts ∨ part = 0

/-- A gpu-let of an estimate. -/
def Estimated (s : Scheduler) (id SLO : Int) (n : Node) : Prop :=
  Offered s n.resourcePntg ∧ ∃ e d v, Gpulet s id SLO n e d v

/-- The node a batch of `batch` requests arriving at `rate` leaves: duty cycle
at least the latency, throughput and occupancy accordingly. -/
theorem duty_max_cases {batch rate v : ℚ} (hd : max (batch * (1000 / rate)) v ≠ 0) :
    (max (batch * (1000 / rate)) v = v ∧ v / max (batch * (1000 / rate)) v = 1) ∨
      (max (batch * (1000 / rate)) v = 1000 * batch / rate ∧ v ≤ 1000 * batch / rate) := by
  have heq : batch * (1000 / rate) = 1000 * batch / rate := by ring
  rcases le_total (batch * (1000 / rate)) v with h | h
  · rw [max_eq_right h] at hd ⊢
    exact Or.inl ⟨rfl, div_self hd⟩
  · rw [max_eq_left h, heq]
    exact Or.inr ⟨rfl, by rwa [heq] at h⟩

namespace Scheduler

variable {s : Scheduler} {table : SatTable} {device : DeviceType} {id SLO rate part : Int}

theorem satTrps_parts {parts : List Int} {trps : List (Int × ℚ)}
    (h : satTrps table id device parts = .ok trps) : trps.map (·.1) = parts := by
  induction parts generalizing trps with
  | nil =>
      obtain rfl := Except.ok.inj h
      rfl
  | cons p parts ih =>
      simp only [satTrps, Query.bind_ok, Query.pure_ok, Prod.exists] at h
      obtain ⟨trp, -, -, rest, hrest, rfl⟩ := h
      rw [List.map_cons, ih hrest]

/-- The loop of `getMaxReturnPart` moves to the upper part of a neighbouring
pair only. -/
theorem maxReturnLoop_mem {pairs : List ((Int × ℚ) × (Int × ℚ))} {maxRet : ℚ} {maxPart p : Int}
    (h : maxReturnLoop pairs maxRet maxPart = .ok p) :
    p = maxPart ∨ ∃ q ∈ pairs, p = q.2.1 := by
  induction pairs generalizing maxRet maxPart with
  | nil => exact Or.inl (Except.ok.inj h).symm
  | cons pair pairs ih =>
      obtain ⟨⟨lowPart, lowTrp⟩, highPart, highTrp⟩ := pair
      have hlift : ∀ {maxRet maxPart}, maxReturnLoop pairs maxRet maxPart = .ok p →
          p = maxPart ∨ ∃ q ∈ ((lowPart, lowTrp), highPart, highTrp) :: pairs, p = q.2.1 :=
        fun h => (ih h).imp_right fun ⟨q, hq, heq⟩ => ⟨q, List.mem_cons_of_mem _ hq, heq⟩
      simp only [maxReturnLoop, Query.bind_ok] at h
      obtain ⟨gain, -, h⟩ := h
      split at h
      · exact hlift h
      · simp only [Query.bind_ok] at h
        obtain ⟨ret, -, h⟩ := h
        split at h
        · rcases hlift h with rfl | hq
          · exact Or.inr ⟨_, List.mem_cons_self .., rfl⟩
          · exact Or.inr hq
        · exact hlift h

/-- Among several parts the first is never the one with the best return. -/
theorem getMaxReturnPart_tail {p : Int} (h : s.getMaxReturnPart table id device = .ok p)
    (hne : s.availParts.tail ≠ []) : p ∈ s.availParts.tail := by
  unfold getMaxReturnPart at h
  split at h
  case h_1 => cases h
  case h_2 q hparts =>
    rw [hparts] at hne
    exact absurd rfl hne
  case h_3 q parts hone hparts =>
    rw [hparts, List.tail_cons] at hne ⊢
    simp only [Query.bind_ok] at h
    obtain ⟨trps, htrps, h⟩ := h
    have hdrop : (trps.drop 1).map (·.1) = parts := by
      rw [List.map_drop, satTrps_parts htrps, hparts, List.drop_one, List.tail_cons]
    have hmem : ∀ {q : Int × ℚ}, q ∈ (trps.drop 1).reverse → q.1 ∈ parts := by
      intro q hq
      rw [← hdrop]
      exact List.mem_map.mpr ⟨q, List.mem_reverse.mp hq, rfl⟩
    rcases maxReturnLoop_mem h with rfl | ⟨pair, hpair, rfl⟩
    · rw [List.getLastD_eq_getLast?, List.getLast?_eq_some_getLast hne, Option.getD_some]
      exact List.getLast_mem hne
    · exact hmem (List.mem_of_mem_tail (List.of_mem_zip hpair).2)

/-- The part with the best return is an available one. -/
theorem getMaxReturnPart_mem {p : Int} (h : s.getMaxReturnPart table id device = .ok p) :
    p ∈ s.availParts := by
  rcases eq_or_ne s.availParts.tail [] with hnil | hne
  · unfold getMaxReturnPart at h
    split at h
    case h_1 => cases h
    case h_2 q hparts =>
      obtain rfl := Query.pure_ok.mp h
      rw [hparts]
      exact List.mem_singleton_self _
    case h_3 q parts hone hparts =>
      rw [hparts] at hnil
      exact absurd hnil hone
  · exact List.mem_of_mem_tail (getMaxReturnPart_tail h hne)

theorem saturatedNode_ok {size : Nat} {n : Node} {trp : ℚ} (htab : TableOK s table)
    (hpart : part ∈ s.availParts)
    (h : s.saturatedNode table device id SLO rate part size = .ok (n, trp)) :
    Estimated s id SLO n := by
  simp only [saturatedNode, Query.bind_ok, Query.pure_ok, Prod.exists] at h
  obtain ⟨trp', batch, htrp, v, hv, heq⟩ := h
  obtain ⟨rfl, rfl⟩ := Prod.mk.injEq .. |>.mp heq
  obtain ⟨v', hv', hv0, htrp⟩ := getMaxSaturateTrp_ok htab htrp
  obtain rfl : v = v' := Except.ok.inj (hv.symm.trans hv')
  obtain ⟨hlo, hhi, hsolo⟩ := getLatency_ok hv
  refine ⟨⟨profiled_of_soloLatency hsolo, Or.inl hpart⟩, createNewTask id rate SLO batch trp',
    v, v, ?_⟩
  refine
    { tasks := rfl, id_eq := rfl, SLO_eq := rfl, duty := rfl, batch_pos := hlo, batch_le := hhi
      latency := fun _ => hsolo, positive := ?_, plain := ?_ }
  · intro hpos
    have hvpos := soloLatency_pos hpos hsolo
    have hb : (0 : ℚ) ≤ batch := by exact_mod_cast (by omega : 0 ≤ batch)
    refine ⟨?_, hvpos⟩
    simp only [createNewTask, htrp]
    positivity
  · intro _
    refine ⟨?_, .own rfl rfl⟩
    simp only [createNewTask, htrp, div_mul_cancel₀ _ hv0]
    ring

/-- The part `getMinPart`'s loop ends with: the one it started from, one that
was tested against the SLO, or one that is slower than its duty cycle. -/
theorem minPartLoop_ok {batch localMaxPart front prevPart p : Int} {parts : List Int}
    (h : s.minPartLoop device id SLO batch rate localMaxPart front parts prevPart = .ok p) :
    p = prevPart ∨ ∃ v, s.getLatency device id batch p = .ok v ∧
      (v + 1000 * batch / rate ≤ SLO ∨ (1000 * batch / rate : ℚ) < v) := by
  induction parts generalizing prevPart with
  | nil => exact Or.inl (Except.ok.inj h).symm
  | cons q parts ih =>
      simp only [minPartLoop] at h
      split at h
      · exact ih h
      · simp only [Query.bind_ok, fdiv_ok] at h
        obtain ⟨v, hv, duty, ⟨-, rfl⟩, h⟩ := h
        rw [mul_comm (batch : ℚ) 1000] at h
        split at h
        case isTrue hslow =>
          obtain rfl := Query.pure_ok.mp h
          split
          · exact Or.inr ⟨v, hv, Or.inr hslow⟩
          · exact Or.inl rfl
        case isFalse hslow =>
          split at h
          · exact Or.inl (Query.pure_ok.mp h).symm
          case isFalse hslo =>
            rcases ih h with rfl | hp
            · exact Or.inr ⟨v, hv, Or.inl (by linarith)⟩
            · exact Or.inr hp

/-- The loop of `getMinPart` stays among the parts it is given. -/
theorem minPartLoop_mem {batch localMaxPart front prevPart p : Int} {parts all : List Int}
    (h : s.minPartLoop device id SLO batch rate localMaxPart front parts prevPart = .ok p)
    (hparts : ∀ q ∈ parts, q ∈ all) (hprev : prevPart ∈ all) : p ∈ all := by
  induction parts generalizing prevPart with
  | nil =>
      obtain rfl := Except.ok.inj h
      exact hprev
  | cons q parts ih =>
      obtain ⟨hq, hparts⟩ := List.forall_mem_cons.mp hparts
      simp only [minPartLoop] at h
      split at h
      · exact ih h hparts hprev
      · simp only [Query.bind_ok] at h
        obtain ⟨v, -, duty, -, h⟩ := h
        split at h
        · obtain rfl := Query.pure_ok.mp h
          split
          · exact hq
          · exact hprev
        · split at h
          · obtain rfl := Query.pure_ok.mp h
            exact hprev
          · exact ih h hparts hq

/-- `getMinPart` returns an available part, or 0 when it finds no batch size. -/
theorem getMinPart_listed {node : Node} {p rate' : Int} {batch : Option Int}
    (h : s.getMinPart device id SLO node rate = .ok (p, batch, rate'))
    (hpart : node.resourcePntg ∈ s.availParts) : p ∈ s.availParts ∨ p = 0 := by
  unfold getMinPart at h
  split at h
  case h_1 => cases h
  case h_2 front rest hparts =>
    simp only [Query.bind_ok, Prod.exists] at h
    obtain ⟨b, r, -, h⟩ := h
    split at h
    · obtain ⟨rfl, -⟩ := by simpa only [Prod.mk.injEq] using Query.pure_ok.mp h
      exact Or.inr rfl
    · simp only [Query.bind_ok, Query.pure_ok, Prod.mk.injEq] at h
      obtain ⟨-, -, q, hq, rfl, -⟩ := h
      refine Or.inl (minPartLoop_mem hq (fun q hq => hq) ?_)
      rcases min_choice front node.resourcePntg with heq | heq
      · rw [heq, hparts]
        exact List.mem_cons_self ..
      · rw [heq]
        exact hpart

/-- What `getMinPart` leaves: the latency at the part it found meets the SLO,
the batch size is 1, the part is slower than its duty cycle, or it is 0. -/
theorem getMinPart_ok {node : Node} {p rate' : Int} {batch : Option Int}
    (h : s.getMinPart device id SLO node rate = .ok (p, batch, rate')) (htype : node.type = device) :
    rate ≤ rate' ∧ ((p = 0 ∧ batch = none) ∨ ∃ b, batch = some b ∧
      (b = 1 ∨ ∃ v, s.getLatency device id b p = .ok v ∧
        (v + 1000 * b / rate' ≤ SLO ∨ (1000 * b / rate' : ℚ) < v))) := by
  unfold getMinPart at h
  split at h
  case h_1 => cases h
  case h_2 front rest hparts =>
    simp only [Query.bind_ok, Prod.exists] at h
    obtain ⟨b, r, hmax, h⟩ := h
    have hspec := getMaxBatch_ok hmax
    have hrate := hspec.rate_ge (Or.inr rfl)
    split at h
    case isTrue hb =>
      obtain ⟨rfl, rfl, rfl⟩ := by simpa only [Prod.mk.injEq] using Query.pure_ok.mp h
      exact ⟨hrate, Or.inl ⟨rfl, rfl⟩⟩
    case isFalse hb =>
      simp only [Query.bind_ok, Query.pure_ok, Prod.mk.injEq] at h
      obtain ⟨-, -, q, hq, rfl, rfl, rfl⟩ := h
      refine ⟨hrate, Or.inr ⟨b, rfl, ?_⟩⟩
      cases hspec with
      | none => exact absurd rfl hb
      | corner => exact Or.inl rfl
      | @found _ v _ _ hv hfit =>
          rcases minPartLoop_ok hq with rfl | hq
          · simp only [latencyFor, makeEmptyNode, htype] at hv
            have hfit := residueFits_iff.mp (by simpa [batchFits] using hfit)
            exact Or.inr ⟨v, by simpa using hv, Or.inl hfit.2⟩
          · exact Or.inr hq

/-- The shape shared by the residue gpu-lets of `estimateTrp` and of the
resizing in `allocateFit`. -/
theorem residue_gpulet {n : Node} {e : Task} {v : ℚ}
    (htasks : n.vTaskList = [e]) (hid : e.id = id) (hslo : e.SLO = SLO)
    (hlo : 1 ≤ e.batchSize) (hhi : e.batchSize ≤ maxBatch)
    (hlat : s.useInterference = false →
      s.soloLatency n.type e.id e.batchSize n.resourcePntg = .ok v)
    (hpos : PositiveLatency s → 0 < v)
    (hrate : e.requestRate ≠ 0)
    (hd0 : max (e.batchSize * (1000 / e.requestRate : ℚ)) v ≠ 0)
    (hduty : n.dutyCycle = some (max (e.batchSize * (1000 / e.requestRate : ℚ)) v))
    (htrp : e.throughput = e.batchSize * 1000 / max (e.batchSize * (1000 / e.requestRate : ℚ)) v)
    (hocc : n.occupancy = v / max (e.batchSize * (1000 / e.requestRate : ℚ)) v)
    (htest : v ≤ 1000 * e.batchSize / e.requestRate →
      v + 1000 * e.batchSize / e.requestRate ≤ SLO ∨ e.batchSize = 1 ∨ n.resourcePntg = 0) :
    ∃ e d v, Gpulet s id SLO n e d v := by
  have hb : (0 : ℚ) < e.batchSize := by exact_mod_cast (by omega : 0 < e.batchSize)
  refine ⟨e, _, v, { tasks := htasks, id_eq := hid, SLO_eq := hslo, duty := hduty
                     batch_pos := hlo, batch_le := hhi, latency := hlat
                     positive := ?_, plain := ?_ }⟩
  · intro hp
    have hd : 0 < max (e.batchSize * (1000 / e.requestRate : ℚ)) v :=
      lt_of_lt_of_le (hpos hp) (le_max_right _ _)
    refine ⟨?_, hd⟩
    rw [htrp]
    positivity
  · intro _
    refine ⟨?_, ?_⟩
    · rw [htrp, div_mul_cancel₀ _ hd0]
      ring
    · rcases duty_max_cases hd0 with ⟨hd, hone⟩ | ⟨hd, hle⟩
      · exact .own (by rw [hocc, hone]) hd
      · refine .period hrate hd ?_
        rw [hd]
        exact htest hle

theorem residueNode_ok {size : Nat} {n : Node} (hpart : part ∈ s.availParts)
    (h : s.residueNode device id SLO rate part size = .ok n) : Estimated s id SLO n := by
  simp only [residueNode, Query.bind_ok, Query.pure_ok, Prod.exists, fdiv_ok] at h
  obtain ⟨p, ob, r, hmin, v, hv, period, ⟨hr, rfl⟩, trp, ⟨hd0, rfl⟩, occ, ⟨-, rfl⟩, rfl⟩ := h
  obtain ⟨-, hcases⟩ := getMinPart_ok hmin rfl
  obtain ⟨hlo, hhi, hsolo⟩ := getLatency_ok hv
  refine ⟨⟨profiled_of_soloLatency hsolo, getMinPart_listed hmin hpart⟩, ?_⟩
  refine residue_gpulet (v := v) rfl rfl rfl hlo hhi (fun _ => hsolo)
    (fun hpos => soloLatency_pos hpos hsolo) (fun h0 => hr (by exact_mod_cast h0)) hd0 rfl rfl rfl ?_
  intro hle
  rcases hcases with ⟨rfl, -⟩ | ⟨b, rfl, hb⟩
  · exact Or.inr (Or.inr rfl)
  · rcases hb with rfl | ⟨w, hw, hb⟩
    · exact Or.inr (Or.inl rfl)
    · obtain rfl : v = w := Except.ok.inj (hv.symm.trans hw)
      rcases hb with hb | hb
      · exact Or.inl hb
      · exact absurd hle (not_le.mpr hb)

theorem selfTuningPart_ok {parts : List Int} {best r : Int × Int × Int}
    (h : selfTuningPart table id rate device parts best = .ok r) :
    r = best ∨ ∃ trp, getMaxSaturateTrp table id r.1 device = .ok (trp, r.2.2) ∧ r.2.1 = toInt trp := by
  induction parts generalizing best with
  | nil => exact Or.inl (Except.ok.inj h).symm
  | cons p parts ih =>
      simp only [selfTuningPart, Query.bind_ok, Prod.exists] at h
      obtain ⟨trp, batch, htrp, h⟩ := h
      split at h
      · obtain rfl := Query.pure_ok.mp h
        exact Or.inr ⟨trp, htrp, rfl⟩
      · rcases ih h with rfl | hr
        · exact Or.inr ⟨trp, htrp, rfl⟩
        · exact Or.inr hr

theorem selfTuningPart_mem {parts : List Int} {best r : Int × Int × Int}
    (h : selfTuningPart table id rate device parts best = .ok r) : r = best ∨ r.1 ∈ parts := by
  induction parts generalizing best with
  | nil => exact Or.inl (Except.ok.inj h).symm
  | cons p parts ih =>
      simp only [selfTuningPart, Query.bind_ok, Prod.exists] at h
      obtain ⟨trp, batch, -, h⟩ := h
      split at h
      · obtain rfl := Query.pure_ok.mp h
        exact Or.inr (List.mem_cons_self ..)
      · rcases ih h with rfl | hr
        · exact Or.inr (List.mem_cons_self ..)
        · exact Or.inr (List.mem_cons_of_mem _ hr)

theorem getEstimateTrpST_ok {fuel : Nat} {out res : List Node} (htab : TableOK s table)
    (hst : s.useSelfTuning = true)
    (h : s.getEstimateTrpST table device id SLO fuel rate out = .ok res)
    (hout : ∀ n ∈ out, Estimated s id SLO n) : ∀ n ∈ res, Estimated s id SLO n := by
  induction fuel generalizing rate out with
  | zero =>
      unfold getEstimateTrpST at h
      split at h
      · obtain rfl := Except.ok.inj h
        exact hout
      · cases h
  | succ fuel ih =>
      unfold getEstimateTrpST at h
      split at h
      · obtain rfl := Except.ok.inj h
        exact hout
      case isFalse hrate =>
        simp only [Query.bind_ok, assert_ok, fdiv_ok, Prod.exists] at h
        obtain ⟨p, trp, batch, hpart, -, ⟨htrp0, -⟩, v, hv, period, ⟨-, rfl⟩, occ, ⟨hd0, rfl⟩, h⟩ := h
        refine ih h ?_
        intro n hn
        rcases List.mem_append.mp hn with hn | hn
        · exact hout n hn
        · obtain rfl := List.mem_singleton.mp hn
          obtain ⟨hlo, hhi, hsolo⟩ := getLatency_ok hv
          have hb : (0 : ℚ) < batch := by exact_mod_cast (by omega : 0 < batch)
          have hr : (0 : ℚ) < rate := by exact_mod_cast (by omega : 0 < rate)
          have hlisted : p ∈ s.availParts ∨ p = 0 := by
            rcases selfTuningPart_mem hpart with heq | hmem
            · exact Or.inr (congrArg (·.1) heq)
            · exact Or.inl ((s.stdSort.perm _ _).mem_iff.mp hmem)
          refine ⟨⟨profiled_of_soloLatency hsolo, hlisted⟩, createNewTask id rate SLO batch trp,
            batch * (1000 / rate), v, ?_⟩
          refine
            { tasks := rfl, id_eq := rfl, SLO_eq := rfl, duty := rfl, batch_pos := hlo
              batch_le := hhi, latency := fun _ => hsolo, positive := ?_, plain := ?_ }
          · intro hpos
            refine ⟨?_, by positivity⟩
            rcases selfTuningPart_ok hpart with heq | ⟨q, hq, htrp⟩
            · exact absurd (congrArg (·.2.1) heq) htrp0
            · obtain ⟨w, hw, -, rfl⟩ := getMaxSaturateTrp_ok htab hq
              have hwpos := soloLatency_pos hpos (getLatency_ok hw).2.2
              have hnn : (0 : ℚ) ≤ batch * 1000 / w := by positivity
              simp only at htrp
              simp only [createNewTask, htrp, toInt_of_nonneg hnn]
              exact_mod_cast Int.floor_nonneg.mpr hnn
          · intro hno
            rw [hst] at hno
            cases hno

theorem estimateTrp_ok {fuel : Nat} {out res : List Node} (htab : TableOK s table)
    (h : s.estimateTrp table device id SLO fuel rate out = .ok res)
    (hout : ∀ n ∈ out, Estimated s id SLO n) : ∀ n ∈ res, Estimated s id SLO n := by
  induction fuel generalizing rate out with
  | zero =>
      unfold estimateTrp at h
      split at h
      · obtain rfl := Except.ok.inj h
        exact hout
      · split at h
        case isTrue hst => exact getEstimateTrpST_ok htab hst h hout
        · cases h
  | succ fuel ih =>
      unfold estimateTrp at h
      split at h
      · obtain rfl := Except.ok.inj h
        exact hout
      · split at h
        case isTrue hst => exact getEstimateTrpST_ok htab hst h hout
        case isFalse =>
          simp only [Query.bind_ok, Prod.exists] at h
          obtain ⟨maxPart, hbest, limit, b, -, h⟩ := h
          have hpart := getMaxReturnPart_mem hbest
          split at h
          · simp only [Query.bind_ok, Prod.exists] at h
            obtain ⟨n, trp, hn, h⟩ := h
            refine ih h ?_
            intro m hm
            rcases List.mem_append.mp hm with hm | hm
            · exact hout m hm
            · obtain rfl := List.mem_singleton.mp hm
              exact saturatedNode_ok htab hpart hn
          · simp only [Query.bind_ok, Query.pure_ok] at h
            obtain ⟨n, hn, rfl⟩ := h
            intro m hm
            rcases List.mem_append.mp hm with hm | hm
            · exact hout m hm
            · obtain rfl := List.mem_singleton.mp hm
              exact residueNode_ok hpart hn

theorem estimate_ok {res : List Node} (htab : TableOK s table)
    (h : s.estimate table device id SLO rate = .ok res) : ∀ n ∈ res, Estimated s id SLO n :=
  estimateTrp_ok htab h (by simp)

theorem getEstimate_ok {task : Task} {res : List Node} (htab : TableOK s table)
    (h : s.getEstimate table task = .ok res) : ∀ n ∈ res, Estimated s task.id task.SLO n := by
  simp only [getEstimate, Query.bind_ok] at h
  obtain ⟨type, -, h⟩ := h
  exact estimate_ok htab h

/-! ## Resizing -/

/-- A gpu-let that grew to the partition of its node is one again. -/
theorem resizeInput_ok {sim : SimState} {input n : Node} {pntg : Int}
    (hin : Estimated s id SLO input) (h : s.resizeInput sim input pntg = .ok (some n)) :
    n.resourcePntg = pntg ∧ n.type = input.type ∧ ∃ e d v, Gpulet s id SLO n e d v := by
  obtain ⟨-, t, d0, v0, hlet⟩ := hin
  simp only [resizeInput, hlet.tasks, Query.bind_ok, Prod.exists] at h
  obtain ⟨batch, r, hmax, h⟩ := h
  have hspec := getMaxBatch_ok hmax
  by_cases hb : batch = 0
  · rw [if_pos hb] at h
    cases Query.pure_ok.mp h
  · rw [if_neg hb] at h
    have hrange := hspec.le_maxBatch
    have hlo : 1 ≤ batch := by omega
    by_cases hres : input.occupancy = 1
    · -- saturated: the duty cycle is the latency
      simp only [hres, ne_eq, not_true_eq_false, decide_false, Bool.false_eq_true, if_false,
        Query.bind_ok, fdiv_ok, Query.pure_ok, Option.some.injEq] at h
      obtain ⟨v, hv, period, -, trp, ⟨hd0, rfl⟩, occ, ⟨-, rfl⟩, rfl⟩ := h
      have hsolo : s.useInterference = false →
          s.soloLatency input.type t.id batch pntg = .ok v := fun hs => getLatencyOn_solo hs hv
      refine ⟨rfl, rfl, { t with requestRate := r, batchSize := batch, throughput := batch * 1000 / v },
        v, v, { tasks := rfl, id_eq := hlet.id_eq, SLO_eq := hlet.SLO_eq, duty := rfl
                batch_pos := hlo, batch_le := hrange.2
                latency := hsolo, positive := ?_, plain := ?_ }⟩
      · intro hpos
        have hvpos := getLatencyOn_pos hpos hv
        have hbq : (0 : ℚ) < batch := by exact_mod_cast (by omega : 0 < batch)
        exact ⟨by positivity, hvpos⟩
      · intro _
        refine ⟨?_, .own (div_self hd0) rfl⟩
        simp only [div_mul_cancel₀ _ hd0]
        ring
    · simp only [ne_eq, hres, not_false_eq_true, decide_true, if_true,
        Query.bind_ok, fdiv_ok, Query.pure_ok, Option.some.injEq] at h hspec
      obtain ⟨v, hv, period, ⟨hr, rfl⟩, trp, ⟨hd0, rfl⟩, occ, ⟨-, rfl⟩, rfl⟩ := h
      have hsolo : s.useInterference = false →
          s.soloLatency input.type t.id batch pntg = .ok v := fun hs => getLatencyOn_solo hs hv
      have heq : (batch * 1000 / r : ℚ) = batch * (1000 / r) := by ring
      rw [heq] at hd0 ⊢
      refine ⟨rfl, rfl, ?_⟩
      refine residue_gpulet (v := v) rfl hlet.id_eq hlet.SLO_eq hlo hrange.2 hsolo
        (fun hpos => getLatencyOn_pos hpos hv) (fun h0 => hr (by exact_mod_cast h0)) hd0
        rfl rfl rfl ?_
      intro _
      cases hspec with
      | none => exact absurd rfl hb
      | corner => exact Or.inr (Or.inl rfl)
      | @found _ w _ _ hw hfit =>
          simp only [latencyFor, if_true] at hw
          obtain rfl : v = w := Except.ok.inj (hv.symm.trans hw)
          have hfit := residueFits_iff.mp (by simpa [batchFits] using hfit)
          rw [← hlet.SLO_eq]
          exact Or.inl hfit.2

end Scheduler

end Glet
