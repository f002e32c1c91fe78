import Glet.Partition
import Glet.SaturationTable

/-!
# Gpu-lets that can be executed

`estimateTrp` on a latency model that knows the batch sizes from 1 to
`_MAX_BATCH` on the available parts, and nothing else (`onlyProfiled`): a run
that ends has not asked for more. The saturated gpu-lets are always fine; what
can go wrong is the last one. `getMinPart` returns 0 and leaves the batch size
unset when `getMaxBatch` finds none, and `estimateTrp` uses both. For a latency
that grows with the batch this is so iff batch size 1 takes more than half of
the SLO on the part in use and either all of it or exactly the time between two
requests (`ResidueFits`).
-/

namespace Glet

namespace Scheduler

variable {s : Scheduler} {id SLO rate : Int} {device : DeviceType}

/-! ## A latency model of the available parts -/

/-- The scheduler with a latency model that stops at a part or a batch size it
does not know. -/
def onlyProfiled (s : Scheduler) : Scheduler :=
  { s with
    nametoDevPerfModelTable := fun type =>
      { s.nametoDevPerfModelTable type with
        getLatency := fun name batch part =>
          if part ∈ s.availParts ∧ 1 ≤ batch ∧ batch ≤ maxBatch then
            (s.nametoDevPerfModelTable type).getLatency name batch part
          else none } }

/-- The latencies of a model on the available parts: positive, and not falling
with the batch size. -/
structure Profile (s : Scheduler) (id : Int) (lat : DeviceType → Int → Int → ℚ) : Prop where
  parts_ne : s.availParts ≠ []
  answers : ∀ d ∈ s.types, ∀ p ∈ s.availParts, ∀ b, 1 ≤ b → b ≤ maxBatch →
    s.getLatency d id b p = .ok (lat d p b)
  pos : ∀ d ∈ s.types, ∀ p ∈ s.availParts, ∀ b, 1 ≤ b → b ≤ maxBatch → 0 < lat d p b
  mono : ∀ d ∈ s.types, ∀ p ∈ s.availParts, ∀ b c, 1 ≤ b → b ≤ c → c ≤ maxBatch →
    lat d p b ≤ lat d p c

theorem onlyProfiled_getLatency {batch part : Int} (hpart : part ∈ s.availParts)
    (hlo : 1 ≤ batch) (hhi : batch ≤ maxBatch) :
    s.onlyProfiled.getLatency device id batch part = s.getLatency device id batch part := by
  have hdev : ∀ name, s.onlyProfiled.devLatency device name batch part =
      s.devLatency device name batch part := by
    intro name
    unfold devLatency onlyProfiled
    simp only [hpart, hlo, hhi, and_self, if_true]
  unfold getLatency soloLatency
  simp only [hdev]
  rfl

/-- Nothing is known about a part that is not available. -/
theorem onlyProfiled_refuses {batch part : Int} {v : ℚ} (hpart : part ∉ s.availParts) :
    s.onlyProfiled.getLatency device id batch part ≠ .ok v := by
  intro h
  simp only [getLatency, soloLatency, Query.bind_ok, devLatency, onlyProfiled] at h
  obtain ⟨-, -, -, -, name, -, w, hw, -⟩ := h
  rw [if_neg fun hin => hpart hin.1] at hw
  cases hw

variable {lat : DeviceType → Int → Int → ℚ}

theorem Profile.latencies (hp : Profile s id lat) : Latencies s id lat := ⟨hp.answers, hp.pos⟩

theorem Profile.onlyProfiled (hp : Profile s id lat) : Profile s.onlyProfiled id lat where
  parts_ne := hp.parts_ne
  answers d hd p hpart b hlo hhi := by
    have hmem : p ∈ s.availParts := hpart
    rw [onlyProfiled_getLatency hmem hlo hhi]
    exact hp.answers d hd p hpart b hlo hhi
  pos := hp.pos
  mono := hp.mono

/-- The node overload answers the same on a decision without GPUs. -/
theorem getLatencyOn_empty {batch : Int} {node : Node} {v : ℚ}
    (h : s.getLatency device id batch node.resourcePntg = .ok v) :
    s.getLatencyOn device id batch node ⟨[], []⟩ = .ok v := by
  simp only [getLatency, soloLatency, Query.bind_ok, assert_ok, Query.pure_ok] at h
  obtain ⟨-, hd, -, hb, name, hname, w, hw, o, ho, rfl⟩ := h
  simp only [getLatencyOn, soloLatency, assert_ok, Query.bind_ok]
  refine ⟨(), hd, (), hb.1, ?_⟩
  split
  · simp only [Query.bind_ok]
    exact ⟨name, hname, w, hw, o, ho, rfl⟩
  · simp only [Query.bind_ok, Query.pure_ok]
    exact ⟨name, hname, w, hw, o, ho, rfl⟩

variable {node : Node}

theorem Profile.answersFor (hp : Profile s id lat) (hd : node.type ∈ s.types)
    (hpart : node.resourcePntg ∈ s.availParts) (sim : SimState) :
    Answers (s.latencyFor id node sim false) (lat node.type node.resourcePntg) := by
  intro b hlo hhi
  rw [latencyFor, if_neg Bool.false_ne_true]
  exact hp.answers _ hd _ hpart b hlo hhi

/-! ## The saturation table -/

/-- A row of the table: a batch size that can be executed, which is 1 where
twice the latency of batch size 1 exceeds the SLO. -/
structure SatRow (lat : DeviceType → Int → Int → ℚ) (SLO : Int) (e : SatTrpEntry) : Prop where
  pos : 1 ≤ e.maxBatch
  le : e.maxBatch ≤ maxBatch
  late : SLO < 2 * lat e.type e.part 1 → e.maxBatch = 1
  trp : e.satTrp = e.maxBatch * 1000 / lat e.type e.part e.maxBatch

theorem SatEntry.row {e : SatTrpEntry} (hp : Profile s id lat)
    (h : SatEntry (lat e.type e.part) SLO e) (hd : e.type ∈ s.types)
    (hpart : e.part ∈ s.availParts) : SatRow lat SLO e where
  pos := h.pos
  le := h.le
  late hlate := by
    rcases h.fits with hfit | ⟨hone, -⟩
    · have hmono := hp.mono _ hd _ hpart 1 e.maxBatch le_rfl h.pos h.le
      linarith
    · exact hone
  trp := by rw [h.trp, mul_comm]

/-- The rows of a model: one for each device type and available part. -/
structure SatRows (s : Scheduler) (lat : DeviceType → Int → Int → ℚ) (id SLO : Int)
    (table : SatTable) : Prop where
  rows : ∃ es, table id = some es ∧ (∀ e ∈ es, SatRow lat SLO e) ∧
    ∀ d ∈ s.types, ∀ p ∈ s.availParts, ∃ e ∈ es, e.type = d ∧ e.part = p

/-- `initSaturateTrp` never gives up. -/
theorem initSaturateTrp_rows {task : Task} (hp : Profile s task.id lat) (table : SatTable) :
    ∃ table', s.initSaturateTrp task table = .ok table' ∧
      SatRows s lat task.id task.SLO table' := by
  obtain ⟨es, hes, hpairs, hrows⟩ := initSaturateTrp_entries hp.latencies table
  have hmem : ∀ d p, (d, p) ∈ es.map SatTrpEntry.pair ↔ d ∈ s.types ∧ p ∈ s.availParts := by
    intro d p
    rw [hpairs]
    exact List.mem_product
  refine ⟨_, hes, es, if_pos rfl, fun e he => ?_, fun d hd p hpart => ?_⟩
  · obtain ⟨hd, hpart⟩ := (hmem _ _).mp (List.mem_map_of_mem he)
    exact (hrows e he).row hp hd hpart
  · obtain ⟨e, he, heq⟩ := List.mem_map.mp ((hmem d p).mpr ⟨hd, hpart⟩)
    exact ⟨e, he, congrArg Prod.fst heq, congrArg Prod.snd heq⟩

/-- Every available part of every type is found. -/
theorem SatRows.found {table : SatTable} {part : Int} (h : SatRows s lat id SLO table)
    (hd : device ∈ s.types) (hpart : part ∈ s.availParts) :
    ∃ e, getMaxSaturateTrp table id part device = .ok (e.satTrp, e.maxBatch) ∧
      e.type = device ∧ e.part = part ∧ SatRow lat SLO e := by
  obtain ⟨es, hes, hrows, hall⟩ := h.rows
  obtain ⟨e, he, htype, hepart⟩ := hall device hd part hpart
  have hmem : e ∈ es.filter fun e => decide (part = e.part ∧ device = e.type) :=
    List.mem_filter.mpr ⟨he, decide_eq_true ⟨hepart.symm, htype.symm⟩⟩
  obtain ⟨last, hlast⟩ := Option.ne_none_iff_exists'.mp
    (mt List.getLast?_eq_none_iff.mp (List.ne_nil_of_mem hmem))
  obtain ⟨hin, hmatch⟩ := List.mem_filter.mp (List.mem_of_getLast? hlast)
  obtain ⟨hpart', hd'⟩ := of_decide_eq_true hmatch
  refine ⟨last, ?_, hd'.symm, hpart'.symm, hrows last hin⟩
  simp only [getMaxSaturateTrp, hes, hlast]

/-! ## The part to use -/

/-- A part and its saturated throughput. -/
def SatPair (s : Scheduler) (table : SatTable) (id : Int) (device : DeviceType) (q : Int × ℚ) :
    Prop :=
  q.1 ∈ s.availParts ∧ 0 < q.2 ∧ ∃ b, getMaxSaturateTrp table id q.1 device = .ok (q.2, b)

theorem SatRow.trp_pos {e : SatTrpEntry} (hp : Profile s id lat) (hrow : SatRow lat SLO e)
    (hd : e.type ∈ s.types) (hpart : e.part ∈ s.availParts) : 0 < e.satTrp := by
  have hlat := hp.pos _ hd _ hpart e.maxBatch hrow.pos hrow.le
  have hb : (1 : ℚ) ≤ e.maxBatch := by exact_mod_cast hrow.pos
  rw [hrow.trp]
  positivity

theorem satTrps_total {table : SatTable} {parts : List Int} (hp : Profile s id lat)
    (h : SatRows s lat id SLO table) (hd : device ∈ s.types)
    (hparts : ∀ p ∈ parts, p ∈ s.availParts) :
    ∃ qs, satTrps table id device parts = .ok qs ∧ ∀ q ∈ qs, SatPair s table id device q := by
  induction parts with
  | nil => exact ⟨[], rfl, by simp⟩
  | cons part parts ih =>
      have hpart := hparts part (List.mem_cons_self ..)
      obtain ⟨e, he, rfl, rfl, hrow⟩ := h.found hd hpart
      obtain ⟨qs, hqs, hall⟩ := ih fun p hp => hparts p (List.mem_cons_of_mem _ hp)
      refine ⟨(e.part, e.satTrp) :: qs, ?_, ?_⟩
      · rw [satTrps, he, Query.ok_bind]
        dsimp only
        rw [hqs]
        rfl
      · exact List.forall_mem_cons.mpr ⟨⟨hpart, hrow.trp_pos hp hd hpart, _, he⟩, hall⟩

theorem maxReturnLoop_total {table : SatTable} {pairs : List ((Int × ℚ) × (Int × ℚ))}
    {maxRet : ℚ} {maxPart : Int}
    (hpairs : ∀ q ∈ pairs, SatPair s table id device q.1 ∧ SatPair s table id device q.2)
    (hmax : maxPart ∈ s.availParts) :
    ∃ p ∈ s.availParts, maxReturnLoop pairs maxRet maxPart = .ok p := by
  induction pairs generalizing maxRet maxPart with
  | nil => exact ⟨maxPart, hmax, rfl⟩
  | cons q qs ih =>
      obtain ⟨⟨lowPart, lowTrp⟩, highPart, highTrp⟩ := q
      obtain ⟨⟨-, hlow, lb, hlo⟩, hhighPart, -, hb, hhi⟩ := hpairs _ (List.mem_cons_self ..)
      have ih' := fun {ret : ℚ} {part : Int} => @ih ret part
        fun q hq => hpairs q (List.mem_cons_of_mem _ hq)
      dsimp only at hlow hlo hhighPart hhi
      have hgain : fdiv highTrp lowTrp = .ok (highTrp / lowTrp) :=
        fdiv_ok.mpr ⟨hlow.ne', rfl⟩
      rw [maxReturnLoop, hgain, Query.ok_bind]
      split
      · exact ih' hmax
      case isFalse hgain =>
        have hne : (highPart : ℚ) - lowPart ≠ 0 := by
          intro heq
          have hsame : highPart = lowPart := by exact_mod_cast sub_eq_zero.mp heq
          rw [hsame, hlo] at hhi
          obtain ⟨rfl, -⟩ := Prod.mk.injEq .. |>.mp (Except.ok.inj hhi)
          rw [div_self hlow.ne'] at hgain
          exact hgain (by norm_num)
        have hret : fdiv (highTrp - lowTrp) ((highPart : ℚ) - lowPart) =
            .ok ((highTrp - lowTrp) / ((highPart : ℚ) - lowPart)) := fdiv_ok.mpr ⟨hne, rfl⟩
        rw [hret, Query.ok_bind]
        split
        · exact ih' hhighPart
        · exact ih' hmax

theorem getMaxReturnPart_total {table : SatTable} (hp : Profile s id lat)
    (h : SatRows s lat id SLO table) (hd : device ∈ s.types) :
    ∃ p ∈ s.availParts, s.getMaxReturnPart table id device = .ok p := by
  obtain ⟨qs, hqs, hall⟩ := satTrps_total hp h hd fun p (hp : p ∈ s.availParts) => hp
  unfold getMaxReturnPart
  split
  case h_1 hnil => exact absurd hnil hp.parts_ne
  case h_2 part hone => exact ⟨part, by simp [hone], rfl⟩
  case h_3 front parts hne hparts =>
    have hin : ∀ x ∈ (qs.drop 1).reverse, SatPair s table id device x := fun x hx =>
      hall x (List.mem_of_mem_drop (List.mem_reverse.mp hx))
    have hpairs : ∀ q ∈ (qs.drop 1).reverse.zip (qs.drop 1).reverse.tail,
        SatPair s table id device q.1 ∧ SatPair s table id device q.2 := by
      intro q hq
      obtain ⟨h1, h2⟩ := List.of_mem_zip (a := q.1) (b := q.2) hq
      exact ⟨hin _ h1, hin _ (List.mem_of_mem_tail h2)⟩
    rw [hqs, Query.ok_bind]
    refine maxReturnLoop_total hpairs ?_
    have hnonempty : parts ≠ [] := hne
    rw [hparts, List.getLastD_eq_getLast?, List.getLast?_eq_getLast_of_ne_nil hnonempty]
    exact List.mem_cons_of_mem _ (List.getLast_mem hnonempty)

/-! ## The residue gpu-let -/

/-- Batch size 1 leaves room for a second one in the SLO, or it is executed in
the SLO and does not take exactly the time between two requests. -/
def RestFits (l1 : ℚ) (SLO rate : Int) : Prop :=
  2 * l1 ≤ SLO ∨ (l1 < SLO ∧ rate * l1 ≠ 1000)

/-- Where the test fails at batch size 1, this is what the corner case asks for,
for a rate that the saturated gpu-let of batch size 1 could serve. -/
theorem restFits_corner_iff {l1 : ℚ} (hpos : 0 < l1) (hrate : 0 < rate)
    (hfail : ¬ l1 + 1000 / rate ≤ SLO) (hlate : (SLO : ℚ) < 2 * l1 → rate * l1 ≤ 1000) :
    RestFits l1 SLO rate ↔ l1 < 1000 / rate ∧ l1 < SLO := by
  have hq : (0 : ℚ) < rate := by exact_mod_cast hrate
  rw [lt_div_iff₀ hq, mul_comm]
  by_cases hhalf : 2 * l1 ≤ SLO
  · refine iff_of_true (Or.inl hhalf) ⟨?_, by linarith⟩
    have hper : l1 < 1000 / rate := by linarith
    rw [mul_comm]
    exact (lt_div_iff₀ hq).mp hper
  · have hle := hlate (not_le.mp hhalf)
    constructor
    · rintro (h | ⟨hlt, hexact⟩)
      · exact absurd h hhalf
      · exact ⟨lt_of_le_of_ne hle hexact, hlt⟩
    · rintro ⟨hlt, hslo⟩
      exact Or.inr ⟨hslo, hlt.ne⟩

/-- Where it passes at batch size 1, the rest fits. -/
theorem restFits_of_passes {l1 : ℚ} (hrate : 0 < rate) (hpass : l1 + 1000 / rate ≤ SLO) :
    RestFits l1 SLO rate := by
  have hq : (0 : ℚ) < rate := by exact_mod_cast hrate
  have hper : (0 : ℚ) < 1000 / rate := by positivity
  refine or_iff_not_imp_left.mpr fun hhalf => ⟨by linarith, fun hexact => hhalf ?_⟩
  have heq : l1 = 1000 / rate := by
    rw [eq_div_iff hq.ne', mul_comm]
    exact hexact
  linarith

/-- `getMaxBatch` for the residue: it finds a batch size iff the rest fits. -/
theorem getMaxBatch_residue (node : Node) {e : SatTrpEntry} (hp : Profile s id lat)
    (hrow : SatRow lat SLO e) (hd : node.type ∈ s.types)
    (hpart : node.resourcePntg ∈ s.availParts) (htype : e.type = node.type)
    (hepart : e.part = node.resourcePntg) (hrate : 0 < rate) (hle : (rate : ℚ) ≤ e.satTrp) :
    (RestFits (lat node.type node.resourcePntg 1) SLO rate →
      ∃ b r, s.getMaxBatch id SLO node ⟨[], []⟩ rate true false = .ok (b, r) ∧
        1 ≤ b ∧ b ≤ maxBatch ∧ 0 < r) ∧
      (¬ RestFits (lat node.type node.resourcePntg 1) SLO rate →
        s.getMaxBatch id SLO node ⟨[], []⟩ rate true false = .ok (0, rate)) := by
  obtain ⟨b, hb, hbound⟩ := getMaxBatch_search SLO rate (hp.answersFor hd hpart ⟨[], []⟩) true
  have hpos := hp.pos _ hd _ hpart 1 le_rfl (by decide)
  set l1 := lat node.type node.resourcePntg 1 with hl1
  have htest : batchFits SLO rate true l1 1 = true ↔ l1 + 1000 / rate ≤ SLO := by
    rw [batchFits_residue hrate]
    simp
  rcases eq_or_ne b 0 with rfl | hne
  · have hfail : ¬ l1 + 1000 / rate ≤ SLO := by
      have hnext : batchFits SLO rate true l1 1 = false := hbound.next.resolve_right (by decide)
      rw [← htest, hnext]
      exact Bool.false_ne_true
    have hlate : (SLO : ℚ) < 2 * l1 → rate * l1 ≤ 1000 := by
      intro hlate
      have hone := hrow.late (by rw [htype, hepart]; exact hlate)
      rw [hrow.trp, hone, htype, hepart, ← hl1, le_div_iff₀ hpos] at hle
      simpa using hle
    have hcorner := restFits_corner_iff hpos hrate hfail hlate
    have hrun := getMaxBatch_corner hb
      (getLatencyOn_empty (hp.answers _ hd _ hpart 1 le_rfl (by decide))) hrate
    rw [← hl1] at hrun
    constructor
    · intro hfits
      rw [if_pos (hcorner.mp hfits)] at hrun
      have hrate' := (getMaxBatch_ok hrun).rate_ge (Or.inr rfl)
      exact ⟨1, _, hrun, le_rfl, by decide, by omega⟩
    · intro hnot
      rw [if_neg fun h => hnot (hcorner.mpr h)] at hrun
      exact hrun
  · have hlo : 1 ≤ b := by
      have := hbound.nonneg
      omega
    have hone := batchFits_downward (hp.mono _ hd _ hpart) hrate true 1 b le_rfl hlo hbound.lt.le
      (hbound.passes.resolve_left hne)
    exact ⟨fun _ => ⟨b, rate, getMaxBatch_of_search hb fun h => hne h.1, hlo, hbound.lt.le, hrate⟩,
      fun hnot => absurd (restFits_of_passes hrate (htest.mp hone)) hnot⟩

/-- A gpu-let on an available part with one task of a known batch size. -/
structure CanRun (s : Scheduler) (n : Node) : Prop where
  part : n.resourcePntg ∈ s.availParts
  task : ∃ t, n.vTaskList = [t] ∧ 1 ≤ t.batchSize ∧ t.batchSize ≤ maxBatch

theorem minPartLoop_total (SLO front localMaxPart : Int) {batch prev : Int} {parts : List Int}
    (hp : Profile s id lat) (hd : device ∈ s.types) (hlo : 1 ≤ batch) (hhi : batch ≤ maxBatch)
    (hrate : 0 < rate) (hparts : ∀ p ∈ parts, p ∈ s.availParts) (hprev : prev ∈ s.availParts) :
    ∃ p ∈ s.availParts,
      s.minPartLoop device id SLO batch rate localMaxPart front parts prev = .ok p := by
  induction parts generalizing prev with
  | nil => exact ⟨prev, hprev, rfl⟩
  | cons part parts ih =>
      have hpart := hparts part (List.mem_cons_self ..)
      have ih' := fun {p : Int} => @ih p fun p hp => hparts p (List.mem_cons_of_mem _ hp)
      have hq : (rate : ℚ) ≠ 0 := by exact_mod_cast hrate.ne'
      have hduty : fdiv (batch * 1000) rate = .ok (batch * 1000 / rate) := fdiv_ok.mpr ⟨hq, rfl⟩
      rw [minPartLoop]
      split
      · exact ih' hprev
      · rw [hp.answers _ hd _ hpart batch hlo hhi, Query.ok_bind, hduty, Query.ok_bind]
        split
        · split
          · exact ⟨part, hpart, rfl⟩
          · exact ⟨prev, hprev, rfl⟩
        · split
          · exact ⟨prev, hprev, rfl⟩
          · exact ih' hpart

/-- The parts as `setupAvailParts` leaves them: the largest comes first, and 0
is not among them. -/
structure PartsInOrder (s : Scheduler) : Prop where
  zero : 0 ∉ s.availParts
  le_front : ∀ front parts, s.availParts = front :: parts → ∀ p ∈ s.availParts, p ≤ front

theorem partsInOrder_of_setup {input : List Int}
    (h : s.setupAvailParts input = .ok s.availParts) : PartsInOrder s := by
  simp only [setupAvailParts, Query.bind_ok, Query.pure_ok] at h
  obtain ⟨-, -, hsort⟩ := h
  constructor
  · intro hzero
    rw [← hsort, (s.stdSort.perm _ _).mem_iff, mem_foldl_addParts] at hzero
    simp at hzero
  · intro front parts hparts p hp
    have hsorted := s.stdSort.sorted (fun a b : Int => decide (a > b)) (input.foldl addParts [])
      ⟨by simp, by simp; omega, by simp; omega⟩
    rw [hsort, hparts] at hsorted
    rw [hparts] at hp
    rcases List.mem_cons.mp hp with rfl | hp
    · exact le_rfl
    · simpa using List.rel_of_pairwise_cons hsorted hp

theorem min_front {front part : Int} {parts : List Int} (ho : PartsInOrder s)
    (hparts : s.availParts = front :: parts) (hpart : part ∈ s.availParts) :
    min front part = part :=
  min_eq_right (ho.le_front front parts hparts part hpart)

/-- `getMinPart` on a part in use. -/
theorem getMinPart_residue (size : Nat) {e : SatTrpEntry} (hp : Profile s id lat)
    (ho : PartsInOrder s) (hrow : SatRow lat SLO e) (hd : e.type ∈ s.types)
    (hpart : e.part ∈ s.availParts) (hrate : 0 < rate) (hle : (rate : ℚ) ≤ e.satTrp) :
    (RestFits (lat e.type e.part 1) SLO rate → ∃ q ∈ s.availParts, ∃ b r,
      s.getMinPart e.type id SLO (makeEmptyNode size e.part e.type) rate = .ok (q, some b, r) ∧
        1 ≤ b ∧ b ≤ maxBatch ∧ 0 < r) ∧
      (¬ RestFits (lat e.type e.part 1) SLO rate →
        s.getMinPart e.type id SLO (makeEmptyNode size e.part e.type) rate =
          .ok (0, none, rate)) := by
  obtain ⟨hfits, hnot⟩ := getMaxBatch_residue (makeEmptyNode size e.part e.type) hp hrow hd
    hpart rfl rfl hrate hle
  unfold getMinPart
  split
  case h_1 hnil => exact absurd hnil hp.parts_ne
  case h_2 front parts hparts =>
    have hmin : min front (makeEmptyNode size e.part e.type).resourcePntg = e.part :=
      min_front ho hparts hpart
    rw [hmin]
    constructor
    · intro h
      obtain ⟨b, r, hb, hlo, hhi, hr⟩ := hfits h
      obtain ⟨q, hq, hloop⟩ := minPartLoop_total SLO front e.part hp hd hlo hhi hr (fun p hp => hp)
        hpart
      refine ⟨q, hq, b, r, ?_, hlo, hhi, hr⟩
      have hne : b ≠ 0 := by omega
      simp only [Query.bind_ok, Prod.exists]
      refine ⟨b, r, hb, ?_⟩
      rw [if_neg hne]
      simp only [Query.bind_ok, assert_ok, Query.pure_ok]
      exact ⟨(), ⟨hlo, hhi⟩, q, hloop, rfl⟩
    · intro h
      simp only [Query.bind_ok, Prod.exists]
      exact ⟨0, rate, hnot h, rfl⟩

/-- The residue gpu-let can be executed iff the rest fits: else the latency
model is asked about part 0. -/
theorem residueNode_residue (size : Nat) {e : SatTrpEntry} (hp : Profile s id lat)
    (ho : PartsInOrder s) (hrow : SatRow lat SLO e) (hd : e.type ∈ s.types)
    (hpart : e.part ∈ s.availParts) (hrate : 0 < rate) (hle : (rate : ℚ) ≤ e.satTrp) :
    (RestFits (lat e.type e.part 1) SLO rate →
      ∃ n, s.residueNode e.type id SLO rate e.part size = .ok n ∧ CanRun s n) ∧
      (¬ RestFits (lat e.type e.part 1) SLO rate →
        ∀ n, s.onlyProfiled.residueNode e.type id SLO rate e.part size ≠ .ok n) := by
  constructor
  · intro h
    obtain ⟨q, hq, b, r, hmin, hlo, hhi, hr⟩ :=
      (getMinPart_residue size hp ho hrow hd hpart hrate hle).1 h
    have hr0 : (r : ℚ) ≠ 0 := by exact_mod_cast hr.ne'
    have hlat := hp.answers _ hd _ hq b hlo hhi
    have hduty : max (b * (1000 / (r : ℚ))) (lat e.type q b) ≠ 0 :=
      (lt_max_of_lt_right (hp.pos _ hd _ hq b hlo hhi)).ne'
    simp only [residueNode, Query.bind_ok, Prod.exists, Query.pure_ok, fdiv_ok]
    exact ⟨_, ⟨q, some b, r, hmin, _, hlat, _, ⟨hr0, rfl⟩, _, ⟨hduty, rfl⟩, _, ⟨hduty, rfl⟩, rfl⟩,
      hq, _, rfl, hlo, hhi⟩
  · intro h n hn
    have hmin := (getMinPart_residue size hp.onlyProfiled ⟨ho.zero, ho.le_front⟩ hrow hd
      hpart hrate hle).2 h
    simp only [residueNode, hmin, Query.ok_bind, Query.bind_ok] at hn
    obtain ⟨v, hv, -⟩ := hn
    exact onlyProfiled_refuses ho.zero hv

/-! ## The whole estimate -/

/-- The rate that `k` saturated gpu-lets of throughput `trp` leave. -/
def restAfter (trp : ℚ) (rate : Int) (k : Nat) : Int := rate - k * ⌈trp⌉

theorem toInt_rate_sub {trp : ℚ} (h : trp < rate) : toInt (rate - trp) = rate - ⌈trp⌉ := by
  have hnonneg : (0 : ℚ) ≤ rate - trp := by linarith
  rw [toInt_of_nonneg hnonneg, sub_eq_add_neg, Int.floor_intCast_add, Int.floor_neg]
  rfl

theorem saturatedNode_total (rate : Int) (size : Nat) {table : SatTable} {e : SatTrpEntry}
    (hp : Profile s id lat) (hrow : SatRow lat SLO e) (hd : e.type ∈ s.types)
    (hpart : e.part ∈ s.availParts)
    (hfound : getMaxSaturateTrp table id e.part e.type = .ok (e.satTrp, e.maxBatch)) :
    ∃ n, s.saturatedNode table e.type id SLO rate e.part size = .ok (n, e.satTrp) ∧ CanRun s n := by
  have hlat := hp.answers _ hd _ hpart e.maxBatch hrow.pos hrow.le
  simp only [saturatedNode, hfound, Query.ok_bind, hlat]
  exact ⟨_, rfl, hpart, _, rfl, hrow.pos, hrow.le⟩

/-- How the recursion ends: `k` saturated gpu-lets leave a rate that gets no
gpu-let, or one that they could not serve more of and that gets the residue
gpu-let. -/
theorem estimateTrp_run {table : SatTable} {e : SatTrpEntry} (hp : Profile s id lat)
    (hrow : SatRow lat SLO e) (hd : e.type ∈ s.types) (hpart : e.part ∈ s.availParts)
    (hfound : getMaxSaturateTrp table id e.part e.type = .ok (e.satTrp, e.maxBatch))
    (hbest : s.getMaxReturnPart table id e.type = .ok e.part) (htuning : s.useSelfTuning = false)
    {fuel : Nat} {out : List Node} (hfuel : rate < fuel) (hout : ∀ n ∈ out, CanRun s n) :
    ∃ k out', (∀ n ∈ out', CanRun s n) ∧ (∀ j < k, e.satTrp < restAfter e.satTrp rate j) ∧
      ((restAfter e.satTrp rate k ≤ trpSlack ∧
          s.estimateTrp table e.type id SLO fuel rate out = .ok out') ∨
        (trpSlack < restAfter e.satTrp rate k ∧ restAfter e.satTrp rate k ≤ e.satTrp ∧
          s.estimateTrp table e.type id SLO fuel rate out =
            s.residueNode e.type id SLO (restAfter e.satTrp rate k) e.part out'.length >>= fun n =>
              .ok (out' ++ [n]))) := by
  have htrp := hrow.trp_pos hp hd hpart
  have hceil : 1 ≤ ⌈e.satTrp⌉ := Int.one_le_ceil_iff.mpr htrp
  have hzero : restAfter e.satTrp rate 0 = rate := by simp [restAfter]
  induction fuel generalizing rate out with
  | zero =>
      refine ⟨0, out, hout, by simp, Or.inl ⟨?_, ?_⟩⟩
      · rw [hzero]
        exact le_trans (by omega) (show (0 : Int) ≤ trpSlack by decide)
      · have hle : rate ≤ trpSlack := le_trans (by omega) (show (0 : Int) ≤ trpSlack by decide)
        rw [estimateTrp, if_pos hle]
  | succ fuel ih =>
      rw [estimateTrp]
      by_cases hslack : rate ≤ trpSlack
      · rw [if_pos hslack]
        exact ⟨0, out, hout, by simp, Or.inl ⟨by rw [hzero]; exact hslack, rfl⟩⟩
      · rw [if_neg hslack, if_neg (by rw [htuning]; exact Bool.false_ne_true)]
        simp only [hbest, hfound, Query.ok_bind]
        by_cases hlimit : e.satTrp < rate
        · -- A saturated gpu-let, and the recursion on the rest.
          obtain ⟨n, hn, hrun⟩ := saturatedNode_total rate out.length hp hrow hd hpart hfound
          have hrest := toInt_rate_sub hlimit
          have hout' : ∀ m ∈ out ++ [n], CanRun s m := by
            intro m hm
            rcases List.mem_append.mp hm with hm | hm
            · exact hout m hm
            · obtain rfl := List.mem_singleton.mp hm
              exact hrun
          obtain ⟨k, out', hgood, hlt, hend⟩ := @ih (rate - ⌈e.satTrp⌉) (out ++ [n])
            (by omega) hout' (by simp [restAfter])
          have hshift : ∀ j, restAfter e.satTrp (rate - ⌈e.satTrp⌉) j =
              restAfter e.satTrp rate (j + 1) := by
            intro j
            simp only [restAfter]
            push_cast
            ring
          rw [hshift] at hend
          refine ⟨k + 1, out', hgood, ?_, ?_⟩
          · intro j hj
            cases j with
            | zero =>
                rw [hzero]
                exact hlimit
            | succ j =>
                rw [← hshift]
                exact hlt j (by omega)
          · simp only [if_pos hlimit, hn, Query.ok_bind, hrest]
            exact hend
        · rw [if_neg hlimit]
          exact ⟨0, out, hout, by simp,
            Or.inr ⟨by rw [hzero]; omega, by rw [hzero]; exact not_lt.mp hlimit, by rw [hzero]; rfl⟩⟩

/-- `estimateTrp` yields gpu-lets that can be executed, also when the latency
model answers only for available parts and batch sizes up to `_MAX_BATCH`. -/
def EstimatesExecutable (s : Scheduler) (table : SatTable) (device : DeviceType) (id SLO rate : Int) :
    Prop :=
  (∃ nodes, s.estimate table device id SLO rate = .ok nodes ∧ ∀ n ∈ nodes, CanRun s n) ∧
    ∃ nodes, s.onlyProfiled.estimate table device id SLO rate = .ok nodes

/-- What saturated gpu-lets of batch size 1 leave of the rate fits, if it is
neither too small for a gpu-let nor too large for one of them. -/
def ResidueFits (l1 : ℚ) (SLO rate : Int) : Prop :=
  ∀ k, trpSlack < restAfter (1000 / l1) rate k → restAfter (1000 / l1) rate k * l1 ≤ 1000 →
    RestFits l1 SLO (restAfter (1000 / l1) rate k)

/-- The recursion stops at the only rest that a residue gpu-let can be for. -/
theorem restAfter_unique {trp : ℚ} {k k' : Nat} (htrp : 0 < trp)
    (hbefore : ∀ j < k, trp < restAfter trp rate j)
    (hend : restAfter trp rate k ≤ trpSlack ∨ restAfter trp rate k ≤ trp)
    (hslack : trpSlack < restAfter trp rate k') (hle : restAfter trp rate k' ≤ trp) : k' = k := by
  rcases lt_trichotomy k' k with hlt | heq | hgt
  · exact absurd (hbefore k' hlt) (not_lt.mpr hle)
  · exact heq
  · exfalso
    have hceil : 1 ≤ ⌈trp⌉ := Int.one_le_ceil_iff.mpr htrp
    have hsteps : restAfter trp rate k' ≤ restAfter trp rate k - ⌈trp⌉ := by
      simp only [restAfter]
      have hk : (k : Int) + 1 ≤ k' := by omega
      nlinarith
    rcases hend with hend | hend
    · omega
    · have hnonpos : restAfter trp rate k - ⌈trp⌉ ≤ 0 := by
        have hle' : restAfter trp rate k ≤ ⌈trp⌉ := by
          have h1 : (restAfter trp rate k : ℚ) ≤ ⌈trp⌉ := hend.trans (Int.le_ceil trp)
          exact_mod_cast h1
        omega
      have : (0 : Int) < trpSlack := by decide
      omega

/-- Under the condition every latency model gets through. -/
theorem estimate_canRun {table : SatTable} {e : SatTrpEntry} (hp : Profile s id lat)
    (ho : PartsInOrder s) (hrow : SatRow lat SLO e) (hd : e.type ∈ s.types)
    (hpart : e.part ∈ s.availParts)
    (hfound : getMaxSaturateTrp table id e.part e.type = .ok (e.satTrp, e.maxBatch))
    (hbest : s.getMaxReturnPart table id e.type = .ok e.part) (htuning : s.useSelfTuning = false)
    (hfits : ResidueFits (lat e.type e.part 1) SLO rate) :
    ∃ nodes, s.estimate table e.type id SLO rate = .ok nodes ∧ ∀ n ∈ nodes, CanRun s n := by
  obtain ⟨k, out, hout, -, hend⟩ := @estimateTrp_run s id SLO rate lat table e hp hrow hd
    hpart hfound hbest htuning (rate.toNat + 1) [] (by omega) (by simp)
  rcases hend with ⟨-, hrun⟩ | ⟨hslack, hle, hrun⟩
  · exact ⟨out, hrun, hout⟩
  · have hrest : RestFits (lat e.type e.part 1) SLO (restAfter e.satTrp rate k) := by
      by_cases hhalf : 2 * lat e.type e.part 1 ≤ SLO
      · exact Or.inl hhalf
      · have htrp : e.satTrp = 1000 / lat e.type e.part 1 := by
          rw [hrow.trp, hrow.late (not_le.mp hhalf)]
          simp
        have hpos := hp.pos _ hd _ hpart 1 le_rfl (by decide)
        rw [htrp] at hslack hle ⊢
        exact hfits k hslack ((le_div_iff₀ hpos).mp hle)
    have hrate : 0 < restAfter e.satTrp rate k := lt_trans (by decide) hslack
    obtain ⟨n, hn, hcan⟩ := (residueNode_residue out.length hp ho hrow hd hpart hrate hle).1 hrest
    rw [hn] at hrun
    refine ⟨out ++ [n], hrun, fun m hm => ?_⟩
    rcases List.mem_append.mp hm with hm | hm
    · exact hout m hm
    · obtain rfl := List.mem_singleton.mp hm
      exact hcan

/-- Without it, a latency model that only knows the available parts does not. -/
theorem estimate_asks_outside {table : SatTable} {e : SatTrpEntry} (hp : Profile s id lat)
    (ho : PartsInOrder s) (hrow : SatRow lat SLO e) (hd : e.type ∈ s.types)
    (hpart : e.part ∈ s.availParts)
    (hfound : getMaxSaturateTrp table id e.part e.type = .ok (e.satTrp, e.maxBatch))
    (hbest : s.getMaxReturnPart table id e.type = .ok e.part) (htuning : s.useSelfTuning = false)
    (hnot : ¬ ResidueFits (lat e.type e.part 1) SLO rate) (nodes : List Node) :
    s.onlyProfiled.estimate table e.type id SLO rate ≠ .ok nodes := by
  intro hok
  simp only [ResidueFits, not_forall] at hnot
  obtain ⟨k', hslack', hle', hrest⟩ := hnot
  have hpos := hp.pos _ hd _ hpart 1 le_rfl (by decide)
  have hlate : (SLO : ℚ) < 2 * lat e.type e.part 1 := by
    by_contra hhalf
    exact hrest (Or.inl (not_lt.mp hhalf))
  have htrp : e.satTrp = 1000 / lat e.type e.part 1 := by
    rw [hrow.trp, hrow.late hlate]
    simp
  rw [← htrp] at hslack' hle' hrest
  have hle' : restAfter e.satTrp rate k' ≤ e.satTrp := by
    rw [htrp, le_div_iff₀ hpos, ← htrp]
    exact hle'
  obtain ⟨k, out, -, hbefore, hend⟩ := @estimateTrp_run s.onlyProfiled id SLO rate lat table e
    hp.onlyProfiled hrow hd hpart hfound hbest htuning (rate.toNat + 1) [] (by omega) (by simp)
  obtain rfl := restAfter_unique (hrow.trp_pos hp hd hpart) hbefore (hend.imp And.left fun h => h.2.1)
    hslack' hle'
  rcases hend with ⟨hslack, -⟩ | ⟨hslack, hle, hrun⟩
  · omega
  · have hrate : 0 < restAfter e.satTrp rate k' := lt_trans (by decide) hslack
    rw [estimate, hrun, Query.bind_ok] at hok
    obtain ⟨n, hn, -⟩ := hok
    exact (residueNode_residue _ hp ho hrow hd hpart hrate hle).2 hrest n hn

/-- **`estimateTrp` yields only executable gpu-lets** exactly if the residue
fits on the part that `getMaxReturnPart` has chosen. -/
theorem estimateTrp_executable_iff {input : List Int} {task : Task} {table : SatTable}
    (hparts : s.setupAvailParts input = .ok s.availParts) (hp : Profile s task.id lat)
    (htuning : s.useSelfTuning = false) (hd : device ∈ s.types) :
    ∃ table' p, s.initSaturateTrp task table = .ok table' ∧
      s.getMaxReturnPart table' task.id device = .ok p ∧ p ∈ s.availParts ∧
      (s.EstimatesExecutable table' device task.id task.SLO rate ↔
        ResidueFits (lat device p 1) task.SLO rate) := by
  have ho := partsInOrder_of_setup hparts
  obtain ⟨table', htable, hrows⟩ := initSaturateTrp_rows hp table
  obtain ⟨p, hpart, hbest⟩ := getMaxReturnPart_total hp hrows hd
  obtain ⟨e, hfound, rfl, rfl, hrow⟩ := hrows.found hd hpart
  refine ⟨table', e.part, htable, hbest, hpart, ?_⟩
  constructor
  · rintro ⟨-, nodes, hnodes⟩
    by_contra hnot
    exact estimate_asks_outside hp ho hrow hd hpart hfound hbest htuning hnot nodes hnodes
  · intro hfits
    obtain ⟨nodes, hnodes, -⟩ := estimate_canRun (s := s.onlyProfiled) hp.onlyProfiled
      ⟨ho.zero, ho.le_front⟩ hrow hd hpart hfound hbest htuning hfits
    exact ⟨estimate_canRun hp ho hrow hd hpart hfound hbest htuning hfits, nodes, hnodes⟩

/-- One undivided GPU on which model 0 takes `latency` ms at every batch size. -/
theorem plain_profile {latency : ℚ} (hpos : 0 < latency) :
    Profile (plain (profile [100] fun _ _ => latency) [100] 1) 0 fun _ _ _ => latency where
  parts_ne := List.cons_ne_nil _ _
  answers := (plain_latencies 1 fun _ _ _ _ => hpos).answers
  pos _ _ _ _ _ _ _ := hpos
  mono _ _ _ _ _ _ _ _ _ := le_rfl

/-- 10 ms and an SLO of 30 ms: every rate is fine. -/
theorem estimateTrp_executable_at :
    ∃ table, (plain (profile [100] fun _ _ => 10) [100] 1).initSaturateTrp (request 0 140 30)
        (fun _ => none) = .ok table ∧
      (plain (profile [100] fun _ _ => 10) [100] 1).EstimatesExecutable table "gpu" 0 30 140 := by
  obtain ⟨table, p, htable, -, -, hiff⟩ := @estimateTrp_executable_iff
    (plain (profile [100] fun _ _ => 10) [100] 1) 140 "gpu" _ [100] (request 0 140 30) (fun _ => none)
    rfl (plain_profile (by norm_num)) rfl (List.mem_singleton.mpr rfl)
  refine ⟨table, htable, hiff.mpr fun k _ _ => Or.inl ?_⟩
  norm_num [request, createNewTask]

/-- 20 ms and an SLO of 20 ms: 40 requests per second are within the 50 of the
table, but no batch size is within the SLO. -/
theorem estimateTrp_not_executable :
    ∃ table, (plain (profile [100] fun _ _ => 20) [100] 1).initSaturateTrp (request 0 40 20)
        (fun _ => none) = .ok table ∧
      ¬ (plain (profile [100] fun _ _ => 20) [100] 1).EstimatesExecutable table "gpu" 0 20 40 := by
  have hp : Profile (plain (profile [100] fun _ _ => 20) [100] 1) (request 0 40 20).id
    fun _ _ _ => 20 := plain_profile (by norm_num)
  have hd : "gpu" ∈ (plain (profile [100] fun _ _ => 20) [100] 1).types := List.mem_singleton.mpr rfl
  obtain ⟨table, htable, hrows⟩ := initSaturateTrp_rows hp fun _ => none
  obtain ⟨p, hpart, hbest⟩ := getMaxReturnPart_total hp hrows hd
  obtain ⟨e, hfound, htype, rfl, hrow⟩ := hrows.found hd hpart
  refine ⟨table, htable, ?_⟩
  rintro ⟨-, nodes, hnodes⟩
  rw [← htype] at hd hfound hbest hnodes
  have hsetup : (plain (profile [100] fun _ _ => 20) [100] 1).setupAvailParts [100] = .ok [100] := rfl
  refine estimate_asks_outside hp (partsInOrder_of_setup hsetup) hrow hd hpart hfound
    hbest rfl (fun hfits => ?_) nodes hnodes
  have hrest : restAfter (1000 / 20) 40 0 = 40 := by norm_num [restAfter]
  have hzero := hfits 0
  rw [hrest] at hzero
  rcases hzero (by decide) (by norm_num) with h | ⟨h, -⟩
  · norm_num [request, createNewTask] at h
  · norm_num [request, createNewTask] at h

end Scheduler

end Glet
