import Glet.LatencyModel

/-!
# What a lookup of the latency model reads and writes

`operator[]` reads a missing key as 0 (`value`) and puts it in (`touch`). With
the reads separated from the writes, a lookup returns `lookupValue`, which only
depends on the values, on the parts of the smallest and largest key, and on
whether the queried key is there; what it leaves is the table with the keys it
has read.
-/

namespace Glet

open LatencyTable

/-! ## Keys -/

theorem makeKey_parse {batch part : Int} (hbatch : 0 ≤ batch) (hlo : 0 ≤ part) (hhi : part < 1000) :
    parseKey (makeKey batch part) = (batch, part) := by
  have hkey : 0 ≤ makeKey batch part := by
    unfold makeKey
    omega
  unfold parseKey
  rw [Int.tdiv_eq_ediv_of_nonneg hkey, Int.tmod_eq_emod_of_nonneg hkey, Prod.mk.injEq, makeKey]
  omega

theorem makeKey_inj {b b' p p' : Int} (hlo : 0 ≤ p) (hhi : p < 1000) (hlo' : 0 ≤ p')
    (hhi' : p' < 1000) (h : makeKey b p = makeKey b' p') : b = b' ∧ p = p' := by
  unfold makeKey at h
  omega

/-! ## One table -/

namespace LatencyTable

variable {t : LatencyTable} {key k : Int} {v : ℚ}

/-- What `operator[]` reads. -/
def value (t : LatencyTable) (key : Int) : ℚ := (t.lookup key).getD 0

/-- What it leaves. -/
def touch (t : LatencyTable) (key : Int) : LatencyTable := (t.subscript key).2

theorem subscript_eq (t : LatencyTable) (key : Int) :
    t.subscript key = (t.value key, t.touch key) := by
  unfold touch value subscript
  cases t.lookup key <;> rfl

theorem touch_of_some (h : t.lookup key = some v) : t.touch key = t := by
  unfold touch subscript
  rw [h]

theorem lookup_touch : (t.touch key).lookup k =
    if t.lookup k = none ∧ k = key then some 0 else t.lookup k := by
  unfold touch subscript
  cases hkey : t.lookup key with
  | some v =>
      dsimp only
      split
      case isTrue h =>
        obtain ⟨hk, rfl⟩ := h
        rw [hkey] at hk
        cases hk
      case isFalse => rfl
  | none =>
      dsimp only
      rw [List.lookup_cons]
      by_cases hk : k = key
      · subst hk
        simp [hkey]
      · have hne : (k == key) = false := beq_eq_false_iff_ne.mpr hk
        rw [hne, if_neg fun h => hk h.2]

/-- Putting a key in changes no value. -/
@[simp] theorem value_touch (t : LatencyTable) (key : Int) : (t.touch key).value = t.value := by
  funext k
  unfold value
  rw [lookup_touch]
  split
  case isTrue h => rw [h.1]; rfl
  case isFalse => rfl

theorem lookup_assign : (t.assign key v).lookup k = if k = key then some v else t.lookup k := by
  unfold assign
  rw [List.lookup_cons]
  by_cases hk : k = key
  · rw [if_pos hk, beq_iff_eq.mpr hk]
  · rw [if_neg hk, beq_eq_false_iff_ne.mpr hk]
    dsimp only
    induction t with
    | nil => rfl
    | cons e t ih =>
        obtain ⟨k', v'⟩ := e
        by_cases hk' : k' = key
        · subst hk'
          have hne : (k == k') = false := beq_eq_false_iff_ne.mpr hk
          rw [List.filter_cons_of_neg (by simp), ih, List.lookup_cons, hne]
        · rw [List.filter_cons_of_pos (by simpa using hk'), List.lookup_cons, List.lookup_cons, ih]

theorem mem_keys : key ∈ t.map Prod.fst ↔ ∃ v, t.lookup key = some v := by
  rw [← Option.isSome_iff_exists, List.lookup_isSome_iff, List.mem_map]
  constructor
  · rintro ⟨e, he, rfl⟩
    exact ⟨e, he, beq_self_eq_true _⟩
  · rintro ⟨e, he, hkey⟩
    exact ⟨e, he, (beq_iff_eq.mp hkey).symm⟩

end LatencyTable

/-! ## Reads -/

variable {batchVec : Int → List Int} {t : LatencyTable} {batch part minPart maxPart : Int}

/-- The value that `getBatchInterpolatedLatency` returns. -/
def batchValue (batchVec : Int → List Int) (value : Int → ℚ) (batch part : Int) : Query ℚ :=
  if batch = 1 ∨ batch = maxBatch then .ok (value (makeKey batch part))
  else do
    let (b1, b2) ← findBatchpair (batchVec part) batch
    assert (value (makeKey b1 part) ≠ 0 ∧ value (makeKey b2 part) ≠ 0)
    let slope ← fdiv (value (makeKey b2 part) - value (makeKey b1 part)) (b2 - b1)
    return slope * (batch - b1) + value (makeKey b1 part)

/-- The value that `getBatchPartInterpolatedLatency` returns, with the parts of
the ends. -/
def partValue (batchVec : Int → List Int) (value : Int → ℚ) (minPart maxPart batch part : Int) :
    Query ℚ := do
  let b ← fdiv (value (makeKey maxBatch part) - value (makeKey maxBatch maxPart))
    (value (makeKey maxBatch minPart) - value (makeKey maxBatch maxPart))
  let y1 ← batchValue batchVec value batch minPart
  let y2 ← batchValue batchVec value batch maxPart
  return (y1 - y2) * b + y2

/-- The batch sizes of a part have their keys in the table. -/
def Keyed (batchVec : Int → List Int) (t : LatencyTable) : Prop :=
  ∀ part, ∀ b ∈ batchVec part, ∃ v, t.lookup (makeKey b part) = some v

/-- What `getBatchInterpolatedLatency` leaves. -/
def reads (t : LatencyTable) (batch part : Int) : LatencyTable :=
  if batch = 1 ∨ batch = maxBatch then t.touch (makeKey batch part) else t

@[simp] theorem value_reads (t : LatencyTable) (batch part : Int) :
    (reads t batch part).value = t.value := by
  unfold reads
  split
  · exact value_touch t _
  · rfl

theorem lookup_reads_of_some {key : Int} {v : ℚ} (h : t.lookup key = some v) :
    (reads t batch part).lookup key = some v := by
  unfold reads
  split
  · have hne : ¬ (t.lookup key = none ∧ key = makeKey batch part) := by
      rintro ⟨hnone, -⟩
      rw [h] at hnone
      cases hnone
    rw [lookup_touch, if_neg hne, h]
  · exact h

theorem Keyed.reads (h : Keyed batchVec t) : Keyed batchVec (reads t batch part) := by
  intro p b hb
  obtain ⟨v, hv⟩ := h p b hb
  exact ⟨v, lookup_reads_of_some hv⟩

theorem findBatchpair_mem {list : List Int} {b1 b2 : Int}
    (h : findBatchpair list batch = .ok (b1, b2)) : b1 ∈ list ∧ b2 ∈ list ∧ b1 ≤ batch ∧ batch < b2 := by
  unfold findBatchpair at h
  obtain ⟨-, -, h⟩ := Query.bind_ok.mp h
  cases hlo : (list.filter fun b => b ≤ batch).max? with
  | none => rw [hlo] at h; cases h
  | some lower =>
      cases hhi : (list.filter fun b => batch < b).min? with
      | none => rw [hlo, hhi] at h; cases h
      | some upper =>
          rw [hlo, hhi] at h
          obtain ⟨rfl, rfl⟩ := Prod.mk.injEq .. |>.mp (Query.pure_ok.mp h)
          obtain ⟨hmem, hle⟩ := List.mem_filter.mp (List.max?_mem hlo)
          obtain ⟨hmem', hlt⟩ := List.mem_filter.mp (List.min?_mem hhi)
          exact ⟨hmem, hmem', of_decide_eq_true hle, of_decide_eq_true hlt⟩

theorem getBatchInterpolatedLatency_eq (hkeyed : Keyed batchVec t) :
    getBatchInterpolatedLatency batchVec t batch part =
      batchValue batchVec t.value batch part >>= fun v => .ok (v, reads t batch part) := by
  unfold getBatchInterpolatedLatency batchValue reads
  split
  · rw [subscript_eq]
    rfl
  · cases hpair : findBatchpair (batchVec part) batch with
    | error e => rfl
    | ok pair =>
        obtain ⟨b1, b2⟩ := pair
        obtain ⟨h1, h2, -, -⟩ := findBatchpair_mem hpair
        obtain ⟨v1, hv1⟩ := hkeyed part b1 h1
        obtain ⟨v2, hv2⟩ := hkeyed part b2 h2
        simp only [Query.ok_bind, subscript_eq, touch_of_some hv1, touch_of_some hv2, bind_assoc,
          pure_bind]
        rfl

/-- What `getBatchPartInterpolatedLatency` leaves. -/
def endReads (t : LatencyTable) (minPart maxPart batch part : Int) : LatencyTable :=
  reads (reads (reads (reads (reads t maxBatch minPart) maxBatch part) maxBatch maxPart)
    batch minPart) batch maxPart

theorem getBatchPartInterpolatedLatency_eq (hkeyed : Keyed batchVec t)
    (hends : endParts t = .ok (minPart, maxPart)) :
    getBatchPartInterpolatedLatency batchVec t batch part =
      partValue batchVec t.value minPart maxPart batch part >>= fun v =>
        .ok (v, endReads t minPart maxPart batch part) := by
  have hmax : ∀ value p, batchValue batchVec value maxBatch p = .ok (value (makeKey maxBatch p)) :=
    fun value p => if_pos (Or.inr rfl)
  unfold getBatchPartInterpolatedLatency partValue endReads
  rw [hends, Query.ok_bind]
  dsimp only
  rw [getBatchInterpolatedLatency_eq hkeyed, hmax, Query.ok_bind, Query.ok_bind]
  dsimp only
  rw [getBatchInterpolatedLatency_eq hkeyed.reads, hmax, Query.ok_bind, Query.ok_bind]
  dsimp only
  rw [getBatchInterpolatedLatency_eq hkeyed.reads.reads, hmax, Query.ok_bind, Query.ok_bind]
  dsimp only
  simp only [value_reads, getBatchInterpolatedLatency_eq hkeyed.reads.reads.reads,
    getBatchInterpolatedLatency_eq hkeyed.reads.reads.reads.reads, bind_assoc, pure_bind,
    Query.ok_bind]
  rfl

/-! ## Loading -/

/-- A table has the keys of the batch sizes listed for its parts, which are
`good`, and no others. -/
structure Indexed (good : Int → Int → Prop) (batchVec : Int → List Int) (t : LatencyTable) :
    Prop where
  keyed : Keyed batchVec t
  keys : ∀ {key v}, t.lookup key = some v → ∃ b p, key = makeKey b p ∧ b ∈ batchVec p
  good : ∀ {b p}, b ∈ batchVec p → good b p

variable {good : Int → Int → Prop} {m : LatencyModel}

theorem Indexed.addRow {row : ProfileRow} (hrow : good row.batch row.part)
    (h : ∀ model, Indexed good (m.perModelBatchVec model) ((m.perModelLatencyTable model).getD []))
    (model : String) : Indexed good ((m.addRow row).perModelBatchVec model)
      (((m.addRow row).perModelLatencyTable model).getD []) := by
  unfold LatencyModel.addRow
  dsimp only
  by_cases hmodel : model = row.model
  · have hmem : ∀ {part b}, b ∈ (if model = row.model ∧ part = row.part then
        m.perModelBatchVec model part ++ [row.batch] else m.perModelBatchVec model part) ↔
          b ∈ m.perModelBatchVec model part ∨ (part = row.part ∧ b = row.batch) := by
      intro part b
      split
      case isTrue hpart => simp [hpart.2]
      case isFalse hpart =>
        refine (or_iff_left ?_).symm
        exact fun hb => hpart ⟨hmodel, hb.1⟩
    rw [if_pos hmodel, Option.getD_some]
    refine ⟨fun part b hb => ?_, fun {key v} hv => ?_, fun {b p} hb => ?_⟩
    · rw [lookup_assign]
      split
      · exact ⟨_, rfl⟩
      case isFalse hkey =>
        rcases hmem.mp hb with hb | ⟨rfl, rfl⟩
        · exact (h model).keyed part b hb
        · exact absurd rfl hkey
    · rw [lookup_assign] at hv
      split at hv
      case isTrue hkey => exact ⟨row.batch, row.part, hkey, hmem.mpr (Or.inr ⟨rfl, rfl⟩)⟩
      case isFalse =>
        obtain ⟨b, p, hkey, hb⟩ := (h model).keys hv
        exact ⟨b, p, hkey, hmem.mpr (Or.inl hb)⟩
    · rcases hmem.mp hb with hb | ⟨rfl, rfl⟩
      · exact (h model).good hb
      · exact hrow
  · rw [if_neg hmodel]
    simp only [hmodel, false_and, if_false]
    exact h model

theorem setupTable_indexed {rows : List ProfileRow}
    (hrows : ∀ row ∈ rows, good row.batch row.part)
    (h : ∀ model, Indexed good (m.perModelBatchVec model) ((m.perModelLatencyTable model).getD []))
    (model : String) : Indexed good ((m.setupTable rows).perModelBatchVec model)
      (((m.setupTable rows).perModelLatencyTable model).getD []) := by
  induction rows generalizing m with
  | nil => exact h model
  | cons row rows ih =>
      exact ih (fun r hr => hrows r (List.mem_cons_of_mem _ hr))
        (Indexed.addRow (hrows row (List.mem_cons_self ..)) h)

theorem empty_indexed (model : String) : Indexed good (LatencyModel.empty.perModelBatchVec model)
    ((LatencyModel.empty.perModelLatencyTable model).getD []) where
  keyed _ _ hb := by cases hb
  keys h := by cases h
  good hb := by cases hb

end Glet
