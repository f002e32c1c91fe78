import Glet.Interpolation
import Glet.LatencyQueries

/-!
# Latency and batch size

`getMaxBatch` bisects over the batch size and so relies on a latency that grows
with it. A profile that does so at every part is not enough: a batch size that
was profiled is looked up, and one that was not is mixed from the smallest and
the largest part, in a ratio taken at the largest batch size, also where the
part itself has profiled neighbours. `getLatency_monotone_iff` says when the two
fit together.
-/

namespace Glet

open LatencyTable Interpolation

variable {batchVec : Int → List Int} {t : LatencyTable} {b part minPart maxPart : Int}

/-- The profiled latency of a part. -/
def profiled (t : LatencyTable) (part b : Int) : ℚ := t.value (makeKey b part)

/-- A profile of parts with at most three digits, each of them profiled at the
smallest and the largest batch size, with latencies that are positive, do not
fall with the batch size and do not rise with the part. -/
structure ProfileOrder (batchVec : Int → List Int) (t : LatencyTable) : Prop where
  part_range : ∀ {p}, batchVec p ≠ [] → 0 ≤ p ∧ p < 1000
  batch_range : ∀ {p b}, b ∈ batchVec p → 1 ≤ b ∧ b ≤ maxBatch
  first : ∀ {p}, batchVec p ≠ [] → 1 ∈ batchVec p
  last : ∀ {p}, batchVec p ≠ [] → maxBatch ∈ batchVec p
  pos : ∀ {p b}, b ∈ batchVec p → 0 < profiled t p b
  mono : ∀ {p b c}, b ∈ batchVec p → c ∈ batchVec p → b ≤ c → profiled t p b ≤ profiled t p c
  anti : ∀ {p q b}, b ∈ batchVec p → b ∈ batchVec q → p ≤ q → profiled t q b ≤ profiled t p b

/-- Such a profile, loaded. -/
structure MonotoneProfile (batchVec : Int → List Int) (t : LatencyTable) : Prop extends
    ProfileOrder batchVec t where
  keyed : Keyed batchVec t
  keys : ∀ {key v}, t.lookup key = some v → ∃ b p, key = makeKey b p ∧ b ∈ batchVec p

namespace MonotoneProfile

variable (hp : MonotoneProfile batchVec t)

include hp

theorem loaded : Loaded batchVec t where
  keyed := hp.keyed
  keys hv := by
    obtain ⟨b, p, hkey, hb⟩ := hp.keys hv
    obtain ⟨hlo, hhi⟩ := hp.part_range (List.ne_nil_of_mem hb)
    exact ⟨b, p, hkey, le_trans (by decide) (hp.batch_range hb).1, hlo, hhi⟩

/-- What is in the table is what was profiled. -/
theorem lookup_iff (hlo : 0 ≤ part) (hhi : part < 1000) :
    (∃ v, t.lookup (makeKey b part) = some v) ↔ b ∈ batchVec part := by
  constructor
  · rintro ⟨v, hv⟩
    obtain ⟨c, p, hkey, hc⟩ := hp.keys hv
    obtain ⟨hlo', hhi'⟩ := hp.part_range (List.ne_nil_of_mem hc)
    obtain ⟨rfl, rfl⟩ := makeKey_inj hlo hhi hlo' hhi' hkey
    exact hc
  · exact hp.keyed part b

theorem mem_keys_of_mem (hb : b ∈ batchVec part) : makeKey b part ∈ t.map Prod.fst :=
  mem_keys.mpr (hp.keyed part b hb)

theorem two_keys (hpart : batchVec part ≠ []) : 2 ≤ t.length := by
  have hfirst := hp.mem_keys_of_mem (hp.first hpart)
  have hlast := hp.mem_keys_of_mem (hp.last hpart)
  rw [← List.length_map (f := Prod.fst)]
  generalize t.map Prod.fst = keys at hfirst hlast
  rcases keys with _ | ⟨k, _ | ⟨k', keys⟩⟩
  · cases hfirst
  · rw [← List.mem_singleton.mp hfirst, List.mem_singleton] at hlast
    simp only [makeKey, maxBatch] at hlast
    omega
  · simp

/-- The ends are the smallest and the largest profiled part. -/
theorem ends (hpart : batchVec part ≠ []) : ∃ minPart maxPart, endParts t = .ok (minPart, maxPart) ∧
    batchVec minPart ≠ [] ∧ batchVec maxPart ≠ [] ∧
      ∀ p, batchVec p ≠ [] → minPart ≤ p ∧ p ≤ maxPart := by
  have hne : t.map Prod.fst ≠ [] := List.ne_nil_of_mem (hp.mem_keys_of_mem (hp.first hpart))
  obtain ⟨front, hfront⟩ := Option.isSome_iff_exists.mp (List.isSome_min?_of_ne_nil hne)
  obtain ⟨back, hback⟩ := Option.isSome_iff_exists.mp (List.isSome_max?_of_ne_nil hne)
  obtain ⟨hfront_mem, hfront_le⟩ := List.min?_eq_some_iff.mp hfront
  obtain ⟨hback_mem, hback_le⟩ := List.max?_eq_some_iff.mp hback
  obtain ⟨v, hv⟩ := mem_keys.mp hfront_mem
  obtain ⟨w, hw⟩ := mem_keys.mp hback_mem
  obtain ⟨bmin, minPart, rfl, hbmin⟩ := hp.keys hv
  obtain ⟨bmax, maxPart, rfl, hbmax⟩ := hp.keys hw
  have hmin := List.ne_nil_of_mem hbmin
  have hmax := List.ne_nil_of_mem hbmax
  have hfirst : ∀ p, batchVec p ≠ [] → makeKey bmin minPart ≤ makeKey 1 p :=
    fun p h => hfront_le _ (hp.mem_keys_of_mem (hp.first h))
  have hlast : ∀ p, batchVec p ≠ [] → makeKey maxBatch p ≤ makeKey bmax maxPart :=
    fun p h => hback_le _ (hp.mem_keys_of_mem (hp.last h))
  have hbmin_lo := (hp.batch_range hbmin).1
  have hbmax_hi := (hp.batch_range hbmax).2
  obtain ⟨hmin_lo, hmin_hi⟩ := hp.part_range hmin
  obtain ⟨hmax_lo, hmax_hi⟩ := hp.part_range hmax
  refine ⟨minPart, maxPart, (endParts_ok hp.loaded).mpr ⟨hp.two_keys hpart, hmin_lo, hmin_hi, hmax_lo,
    hmax_hi, bmin, bmax, hfront, hback, by omega, ?_⟩, hmin, hmax, fun p h => ?_⟩
  · exact le_trans (by decide) (hp.batch_range hbmax).1
  · have h1 := hfirst p h
    have h2 := hlast p h
    simp only [makeKey] at h1 h2
    omega

/-- Interpolating over the batch sizes of a part. -/
theorem batchValue_eq (hpart : batchVec part ≠ []) (hlo : 1 ≤ b) (hhi : b ≤ maxBatch) :
    batchValue batchVec t.value b part = .ok (linear (batchVec part) (profiled t part) b) := by
  have hfirst := hp.first hpart
  have hlast := hp.last hpart
  unfold batchValue
  split
  case isTrue hend =>
    rcases hend with rfl | rfl
    · rw [linear_of_mem hfirst]
      rfl
    · rw [linear_of_mem hlast]
      rfl
  case isFalse hend =>
    have hin : 1 < b ∧ b < maxBatch := by omega
    obtain ⟨lo, hbelow⟩ := exists_below hfirst hlo
    obtain ⟨hi, habove⟩ := exists_above hlast hin.2
    obtain ⟨hlo_mem, hlo_le, -⟩ := below_eq_some_iff.mp hbelow
    obtain ⟨hhi_mem, hhi_lt, -⟩ := above_eq_some_iff.mp habove
    have hpair : findBatchpair (batchVec part) b = .ok (lo, hi) := by
      unfold findBatchpair
      rw [Query.bind_ok]
      refine ⟨(), assert_ok.mpr hin, ?_⟩
      unfold below at hbelow
      unfold above at habove
      rw [hbelow, habove]
      rfl
    have hgap : ((hi : ℚ) - lo) ≠ 0 := by
      have : (lo : ℚ) < hi := by exact_mod_cast lt_of_le_of_lt hlo_le hhi_lt
      exact (sub_pos.mpr this).ne'
    have hne : t.value (makeKey lo part) ≠ 0 ∧ t.value (makeKey hi part) ≠ 0 :=
      ⟨(hp.pos hlo_mem).ne', (hp.pos hhi_mem).ne'⟩
    rw [hpair, Query.ok_bind, linear_of_some hbelow habove]
    simp only [Query.bind_ok, assert_ok, fdiv_ok, Query.pure_ok]
    exact ⟨(), hne, _, ⟨hgap, rfl⟩, rfl⟩

theorem linear_profiled_mono {c : Int} (hpart : batchVec part ≠ []) (hlo : 1 ≤ b) (hbc : b ≤ c)
    (hhi : c ≤ maxBatch) : linear (batchVec part) (profiled t part) b ≤
      linear (batchVec part) (profiled t part) c :=
  linear_mono (fun _ hb _ hc => hp.mono hb hc) (hp.first hpart) (hp.last hpart) hlo hbc hhi

end MonotoneProfile

/-! ## Batch sizes that were not profiled -/

/-- The ratio in which the ends mix to the part, at the largest batch size. -/
def endRatio (t : LatencyTable) (minPart maxPart part : Int) : ℚ :=
  (profiled t part maxBatch - profiled t maxPart maxBatch) /
    (profiled t minPart maxBatch - profiled t maxPart maxBatch)

/-- The mixture of the ends. -/
def mixed (batchVec : Int → List Int) (t : LatencyTable) (minPart maxPart part b : Int) : ℚ :=
  blend (linear (batchVec minPart) (profiled t minPart) b)
    (linear (batchVec maxPart) (profiled t maxPart) b) (endRatio t minPart maxPart part)

/-- The batch sizes between which a latency is looked up on one side and mixed
on the other, and the latencies of the ends where one is mixed at all. -/
structure SeamsFit (batchVec : Int → List Int) (t : LatencyTable) (minPart maxPart part : Int) :
    Prop where
  ends_ne : (∃ b, 1 ≤ b ∧ b ≤ maxBatch ∧ b ∉ batchVec part) →
    profiled t minPart maxBatch ≠ profiled t maxPart maxBatch
  up : ∀ b, 1 ≤ b → b < maxBatch → b ∈ batchVec part → b + 1 ∉ batchVec part →
    profiled t part b ≤ mixed batchVec t minPart maxPart part (b + 1)
  down : ∀ b, 1 ≤ b → b < maxBatch → b ∉ batchVec part → b + 1 ∈ batchVec part →
    mixed batchVec t minPart maxPart part b ≤ profiled t part (b + 1)

namespace MonotoneProfile

variable (hp : MonotoneProfile batchVec t)

include hp

theorem mixed_mono {c : Int} (hpart : batchVec part ≠ []) (hmin : batchVec minPart ≠ [])
    (hmax : batchVec maxPart ≠ []) (hle : minPart ≤ part) (hge : part ≤ maxPart) (hlo : 1 ≤ b)
    (hbc : b ≤ c) (hhi : c ≤ maxBatch) :
    mixed batchVec t minPart maxPart part b ≤ mixed batchVec t minPart maxPart part c := by
  obtain ⟨hratio, hratio'⟩ := ratio_mem (hp.anti (hp.last hmin) (hp.last hpart) hle)
    (hp.anti (hp.last hpart) (hp.last hmax) hge)
  exact blend_mono hratio hratio' (hp.linear_profiled_mono hmin hlo hbc hhi)
    (hp.linear_profiled_mono hmax hlo hbc hhi)

/-- A batch size that was profiled is looked up. -/
theorem tableLatency_profiled (hb : b ∈ batchVec part) :
    tableLatency batchVec t b part = .ok (profiled t part b, t) := by
  obtain ⟨v, hv⟩ := hp.keyed part b hb
  obtain ⟨hlo, hhi⟩ := hp.batch_range hb
  rw [tableLatency_hit hp.keyed hv, hp.batchValue_eq (List.ne_nil_of_mem hb) hlo hhi,
    linear_of_mem hb]
  rfl

/-- One that was not is mixed, if the ends differ. -/
theorem tableLatency_mixed (hpart : batchVec part ≠ []) (hends : endParts t = .ok (minPart, maxPart))
    (hmin : batchVec minPart ≠ []) (hmax : batchVec maxPart ≠ []) (hlo : 1 ≤ b) (hhi : b ≤ maxBatch)
    (hb : b ∉ batchVec part) {v : ℚ} {t' : LatencyTable} :
    tableLatency batchVec t b part = .ok (v, t') ↔
      profiled t minPart maxBatch ≠ profiled t maxPart maxBatch ∧
        v = mixed batchVec t minPart maxPart part b ∧ t' = endReads t minPart maxPart b part := by
  obtain ⟨hplo, hphi⟩ := hp.part_range hpart
  have hnone : t.lookup (makeKey b part) = none := by
    refine Option.eq_none_iff_forall_ne_some.mpr fun v hv => hb ?_
    exact (hp.lookup_iff hplo hphi).mp ⟨v, hv⟩
  rw [tableLatency_miss hnone, getBatchPartInterpolatedLatency_eq hp.keyed hends]
  simp only [partValue, hp.batchValue_eq hmin hlo hhi, hp.batchValue_eq hmax hlo hhi, Query.ok_bind,
    Query.bind_ok, fdiv_ok, Query.pure_ok, Except.ok.injEq, Prod.mk.injEq, sub_ne_zero]
  constructor
  · rintro ⟨w, ⟨c, ⟨hne, rfl⟩, rfl⟩, rfl, rfl⟩
    exact ⟨hne, rfl, rfl⟩
  · rintro ⟨hne, rfl, rfl⟩
    exact ⟨_, ⟨_, ⟨hne, rfl⟩, rfl⟩, rfl, rfl⟩

end MonotoneProfile

/-! ## The order of the answers -/

namespace LatencyModel

/-- `getLatency(model, b, part) <= getLatency(model, c, part)`. -/
def LatencyLe (m : LatencyModel) (model : String) (part b c : Int) : Prop :=
  ∃ v w m₁ m₂, m.getLatency model b part = .ok (v, m₁) ∧ m.getLatency model c part = .ok (w, m₂) ∧
    v ≤ w

variable {rows : List ProfileRow} {model : String}

/-- What `getLatency` answers for a profiled part. -/
theorem getLatency_profiled_iff {m : LatencyModel} {v : ℚ}
    (htable : m.perModelLatencyTable (profileName model) = some t)
    (hp : MonotoneProfile (m.perModelBatchVec (profileName model)) t)
    (hpart : m.perModelBatchVec (profileName model) part ≠ [])
    (hends : endParts t = .ok (minPart, maxPart))
    (hmin : m.perModelBatchVec (profileName model) minPart ≠ [])
    (hmax : m.perModelBatchVec (profileName model) maxPart ≠ [])
    (hlo : 1 ≤ b) (hhi : b ≤ maxBatch) :
    (∃ m', m.getLatency model b part = .ok (v, m')) ↔
      (b ∉ m.perModelBatchVec (profileName model) part →
        profiled t minPart maxBatch ≠ profiled t maxPart maxBatch) ∧
      v = if b ∈ m.perModelBatchVec (profileName model) part then profiled t part b
        else mixed (m.perModelBatchVec (profileName model)) t minPart maxPart part b := by
  simp only [getLatency_some ⟨hlo, hhi⟩ htable]
  by_cases hb : b ∈ m.perModelBatchVec (profileName model) part
  · simp only [hp.tableLatency_profiled hb, hb, if_true, not_true, false_implies, true_and,
      Except.ok.injEq, Prod.mk.injEq]
    constructor
    · rintro ⟨-, t', ⟨rfl, -⟩, -⟩
      rfl
    · rintro rfl
      exact ⟨_, t, ⟨rfl, rfl⟩, rfl⟩
  · simp only [hp.tableLatency_mixed hpart hends hmin hmax hlo hhi hb, hb, if_false, not_false_iff,
      true_implies]
    constructor
    · rintro ⟨-, t', ⟨hne, rfl, -⟩, -⟩
      exact ⟨hne, rfl⟩
    · rintro ⟨hne, rfl⟩
      exact ⟨_, _, ⟨hne, rfl, rfl⟩, rfl⟩

/-- **The latency of a profiled part does not fall with the batch size** exactly
if looked-up and mixed latencies fit together. -/
theorem getLatency_monotone_iff
    (htable : (empty.setupTable rows).perModelLatencyTable (profileName model) = some t)
    (horder : ProfileOrder ((empty.setupTable rows).perModelBatchVec (profileName model)) t)
    (hpart : (empty.setupTable rows).perModelBatchVec (profileName model) part ≠ []) :
    ∃ minPart maxPart, endParts t = .ok (minPart, maxPart) ∧
      ((∀ b c, 1 ≤ b → b ≤ c → c ≤ maxBatch →
          (empty.setupTable rows).LatencyLe model part b c) ↔
        SeamsFit ((empty.setupTable rows).perModelBatchVec (profileName model)) t minPart maxPart
          part) := by
  have hindexed : Indexed (fun _ _ => True)
      ((empty.setupTable rows).perModelBatchVec (profileName model))
      (((empty.setupTable rows).perModelLatencyTable (profileName model)).getD []) :=
    setupTable_indexed (fun _ _ => trivial) empty_indexed (profileName model)
  rw [htable, Option.getD_some] at hindexed
  have hp : MonotoneProfile ((empty.setupTable rows).perModelBatchVec (profileName model)) t :=
    ⟨horder, hindexed.keyed, hindexed.keys⟩
  obtain ⟨minPart, maxPart, hends, hmin, hmax, hall⟩ := hp.ends hpart
  obtain ⟨hle, hge⟩ := hall part hpart
  have hget := fun {b : Int} {v : ℚ} => @getLatency_profiled_iff t b part minPart maxPart model
    (empty.setupTable rows) v htable hp hpart hends hmin hmax
  have hpatch := monotone_patch_iff
    (fun b => b ∈ (empty.setupTable rows).perModelBatchVec (profileName model) part)
    (fun b c _ hbc _ hb hc => hp.mono hb hc hbc)
    (fun b c hlo hbc hhi => hp.mixed_mono hpart hmin hmax hle hge hlo hbc hhi)
  refine ⟨minPart, maxPart, hends, ?_⟩
  constructor
  · intro hmono
    have hvalues := hpatch.mp fun b c hlo hbc hhi => by
      obtain ⟨v, w, m₁, m₂, hv, hw, hvw⟩ := hmono b c hlo hbc hhi
      obtain ⟨-, rfl⟩ := (hget hlo (hbc.trans hhi)).mp ⟨m₁, hv⟩
      obtain ⟨-, rfl⟩ := (hget (hlo.trans hbc) hhi).mp ⟨m₂, hw⟩
      exact hvw
    refine ⟨?_, fun b hlo hhi => (hvalues b hlo hhi).1, fun b hlo hhi => (hvalues b hlo hhi).2⟩
    rintro ⟨b, hlo, hhi, hb⟩
    obtain ⟨v, -, m₁, -, hv, -⟩ := hmono b b hlo le_rfl hhi
    exact ((hget hlo hhi).mp ⟨m₁, hv⟩).1 hb
  · intro hfit b c hlo hbc hhi
    have hvalues := hpatch.mpr (fun b hlo hhi => ⟨hfit.up b hlo hhi, hfit.down b hlo hhi⟩) b c hlo hbc
      hhi
    obtain ⟨m₁, hv⟩ := (hget hlo (hbc.trans hhi)).mpr
      ⟨fun hb => hfit.ends_ne ⟨b, hlo, hbc.trans hhi, hb⟩, rfl⟩
    obtain ⟨m₂, hw⟩ := (hget (hlo.trans hbc) hhi).mpr
      ⟨fun hc => hfit.ends_ne ⟨c, hlo.trans hbc, hhi, hc⟩, rfl⟩
    exact ⟨_, _, m₁, m₂, hv, hw, hvalues⟩

/-! ## Profiles by their rows -/

theorem mem_setupTable {m : LatencyModel} : b ∈ (m.setupTable rows).perModelBatchVec model part ↔
    b ∈ m.perModelBatchVec model part ∨
      ∃ row ∈ rows, row.model = model ∧ row.part = part ∧ row.batch = b := by
  induction rows generalizing m with
  | nil => simp [setupTable]
  | cons row rows ih =>
      have hadd : b ∈ (m.addRow row).perModelBatchVec model part ↔
          b ∈ m.perModelBatchVec model part ∨
            (row.model = model ∧ row.part = part ∧ row.batch = b) := by
        unfold addRow
        dsimp only
        split
        case isTrue h =>
          obtain ⟨rfl, rfl⟩ := h
          simp [eq_comm]
        case isFalse h =>
          refine (or_iff_left ?_).symm
          rintro ⟨rfl, rfl, -⟩
          exact h ⟨rfl, rfl⟩
      rw [setupTable, List.foldl_cons, ← setupTable, ih, hadd]
      simp only [List.mem_cons, exists_eq_or_imp, or_assoc]

/-- The order of a profile is a matter of its rows, two at a time. -/
theorem profileOrder_of_rows (hmodel : ∀ row ∈ rows, row.model = model)
    (hrange : ∀ row ∈ rows, 0 ≤ row.part ∧ row.part < 1000 ∧ 1 ≤ row.batch ∧ row.batch ≤ maxBatch ∧
      0 < profiled t row.part row.batch)
    (hends : ∀ row ∈ rows, (∃ r ∈ rows, r.part = row.part ∧ r.batch = 1) ∧
      ∃ r ∈ rows, r.part = row.part ∧ r.batch = maxBatch)
    (hmono : ∀ row ∈ rows, ∀ r ∈ rows, row.part = r.part → row.batch ≤ r.batch →
      profiled t row.part row.batch ≤ profiled t r.part r.batch)
    (hanti : ∀ row ∈ rows, ∀ r ∈ rows, row.batch = r.batch → row.part ≤ r.part →
      profiled t r.part r.batch ≤ profiled t row.part row.batch) :
    ProfileOrder ((empty.setupTable rows).perModelBatchVec model) t := by
  have hmem : ∀ {b p}, b ∈ (empty.setupTable rows).perModelBatchVec model p ↔
      ∃ row ∈ rows, row.part = p ∧ row.batch = b := by
    intro b p
    rw [mem_setupTable]
    constructor
    · rintro (h | ⟨row, hrow, -, hp, hb⟩)
      · cases h
      · exact ⟨row, hrow, hp, hb⟩
    · rintro ⟨row, hrow, hp, hb⟩
      exact Or.inr ⟨row, hrow, hmodel row hrow, hp, hb⟩
  have hne : ∀ {p}, (empty.setupTable rows).perModelBatchVec model p ≠ [] →
      ∃ row ∈ rows, row.part = p := by
    intro p h
    obtain ⟨b, hb⟩ := List.exists_mem_of_ne_nil _ h
    obtain ⟨row, hrow, hp, -⟩ := hmem.mp hb
    exact ⟨row, hrow, hp⟩
  constructor
  case part_range =>
    intro p h
    obtain ⟨row, hrow, rfl⟩ := hne h
    exact ⟨(hrange row hrow).1, (hrange row hrow).2.1⟩
  case batch_range =>
    intro p b h
    obtain ⟨row, hrow, rfl, rfl⟩ := hmem.mp h
    exact ⟨(hrange row hrow).2.2.1, (hrange row hrow).2.2.2.1⟩
  case first =>
    intro p h
    obtain ⟨row, hrow, rfl⟩ := hne h
    exact hmem.mpr (hends row hrow).1
  case last =>
    intro p h
    obtain ⟨row, hrow, rfl⟩ := hne h
    exact hmem.mpr (hends row hrow).2
  case pos =>
    intro p b h
    obtain ⟨row, hrow, rfl, rfl⟩ := hmem.mp h
    exact (hrange row hrow).2.2.2.2
  case mono =>
    intro p b c hb hc hbc
    obtain ⟨row, hrow, rfl, rfl⟩ := hmem.mp hb
    obtain ⟨r, hr, hp, rfl⟩ := hmem.mp hc
    have hle := hmono row hrow r hr hp.symm hbc
    rwa [hp] at hle
  case anti =>
    intro p q b hp hq hpq
    obtain ⟨row, hrow, rfl, rfl⟩ := hmem.mp hp
    obtain ⟨r, hr, rfl, hb⟩ := hmem.mp hq
    have hle := hanti row hrow r hr hb.symm hpq
    rwa [hb] at hle

/-- Between batch sizes 16 and 17 the smaller of two parts is mixed on both
sides. -/
theorem getLatency_monotone_at : (empty.setupTable twoParts).LatencyLe "resnet50" 20 16 17 := by
  have htable : (empty.setupTable twoParts).perModelLatencyTable (profileName "resnet50") =
      some [(32050, 32), (1050, 1), (32020, 64), (1020, 4)] := by decide +kernel
  have horder : ProfileOrder ((empty.setupTable twoParts).perModelBatchVec (profileName "resnet50"))
      [(32050, 32), (1050, 1), (32020, 64), (1020, 4)] :=
    profileOrder_of_rows (by decide) (by decide +kernel) (by decide) (by decide +kernel)
      (by decide +kernel)
  obtain ⟨minPart, maxPart, hends, hiff⟩ := getLatency_monotone_iff htable horder
    (show (empty.setupTable twoParts).perModelBatchVec (profileName "resnet50") 20 ≠ [] by decide)
  have hknown : endParts [(32050, 32), (1050, 1), (32020, 64), (1020, 4)] = .ok (20, 50) := by
    decide +kernel
  obtain ⟨rfl, rfl⟩ := Prod.mk.injEq .. |>.mp (Except.ok.inj (hknown.symm.trans hends))
  have hvec : (empty.setupTable twoParts).perModelBatchVec (profileName "resnet50") 20 = [1, 32] := by
    decide
  refine hiff.mpr ⟨fun _ => by decide +kernel, fun b hlo hhi hb _ => ?_, fun b hlo hhi _ hb => ?_⟩ 16 17
    (by decide) (by decide) (by decide)
  · obtain rfl : b = 1 := by
      rw [hvec] at hb
      simp only [List.mem_cons, List.not_mem_nil, or_false] at hb
      simp only [maxBatch] at hhi
      omega
    decide +kernel
  · obtain rfl : b = 31 := by
      rw [hvec] at hb
      simp only [List.mem_cons, List.not_mem_nil, or_false] at hb
      omega
    decide +kernel

/-- The part in the middle is profiled at batch size 16, too. -/
def threeParts : List ProfileRow :=
  [⟨"resnet50", 20, 1, 4⟩, ⟨"resnet50", 20, 32, 64⟩, ⟨"resnet50", 50, 1, 2⟩, ⟨"resnet50", 50, 16, 40⟩,
    ⟨"resnet50", 50, 32, 48⟩, ⟨"resnet50", 100, 1, 1⟩, ⟨"resnet50", 100, 32, 32⟩]

/-- It takes 40 ms there, and at batch size 17 a mixture of 35 and 17 ms. -/
theorem getLatency_not_monotone :
    ∃ t, (empty.setupTable threeParts).perModelLatencyTable (profileName "resnet50") = some t ∧
      ProfileOrder ((empty.setupTable threeParts).perModelBatchVec (profileName "resnet50")) t ∧
        ¬ (empty.setupTable threeParts).LatencyLe "resnet50" 50 16 17 := by
  have htable : (empty.setupTable threeParts).perModelLatencyTable (profileName "resnet50") =
      some [(32100, 32), (1100, 1), (32050, 48), (16050, 40), (1050, 2), (32020, 64), (1020, 4)] := by
    decide +kernel
  refine ⟨_, htable, profileOrder_of_rows (by decide) (by decide +kernel) (by decide)
    (by decide +kernel) (by decide +kernel), ?_⟩
  rintro ⟨v, w, m₁, m₂, hv, hw, hle⟩
  have hv' : (empty.setupTable threeParts).AnswersAlone ⟨"resnet50", 16, 50⟩ v := ⟨m₁, hv⟩
  have hw' : (empty.setupTable threeParts).AnswersAlone ⟨"resnet50", 17, 50⟩ w := ⟨m₂, hw⟩
  have h16 : (empty.setupTable threeParts).answers [⟨"resnet50", 16, 50⟩] = .ok [40] := by
    decide +kernel
  have h17 : (empty.setupTable threeParts).answers [⟨"resnet50", 17, 50⟩] = .ok [1611 / 62] := by
    decide +kernel
  obtain rfl := List.head_eq_of_cons_eq (Except.ok.inj (hv'.answers.symm.trans h16))
  obtain rfl := List.head_eq_of_cons_eq (Except.ok.inj (hw'.answers.symm.trans h17))
  exact absurd hle (by norm_num)

end LatencyModel

end Glet
