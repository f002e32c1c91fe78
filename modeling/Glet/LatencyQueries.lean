import Glet.LatencyLookup

/-!
# Latency queries that do not disturb each other

A lookup puts missing keys in, so later lookups see another table. As long as
what is missing lies between the ends, this changes nothing: the new keys are
read as the 0 they were before, and the parts of the smallest and largest key
stay what they were (`Padded`). A part beyond the ends becomes an end itself.
-/

namespace Glet

open LatencyTable

/-- A row whose part is a percentage, or at least has at most three digits. -/
structure ProfileRow.Plain (row : ProfileRow) : Prop where
  part_nonneg : 0 ≤ row.part
  part_lt : row.part < 1000
  batch_nonneg : 0 ≤ row.batch

/-- A table whose keys are what `makeKey` makes of such rows. -/
structure Loaded (batchVec : Int → List Int) (t : LatencyTable) : Prop where
  keyed : Keyed batchVec t
  keys : ∀ {key v}, t.lookup key = some v → ∃ b p, key = makeKey b p ∧ 0 ≤ b ∧ 0 ≤ p ∧ p < 1000

theorem setupTable_loaded {rows : List ProfileRow} (hrows : ∀ row ∈ rows, row.Plain)
    (model : String) : Loaded ((LatencyModel.empty.setupTable rows).perModelBatchVec model)
      (((LatencyModel.empty.setupTable rows).perModelLatencyTable model).getD []) := by
  have hgood : ∀ row ∈ rows, 0 ≤ row.batch ∧ 0 ≤ row.part ∧ row.part < 1000 := fun row hrow =>
    ⟨(hrows row hrow).batch_nonneg, (hrows row hrow).part_nonneg, (hrows row hrow).part_lt⟩
  have hindexed : Indexed (fun b p => 0 ≤ b ∧ 0 ≤ p ∧ p < 1000) _ _ :=
    setupTable_indexed hgood empty_indexed model
  refine ⟨hindexed.keyed, fun {key v} hv => ?_⟩
  obtain ⟨b, p, hkey, hb⟩ := hindexed.keys hv
  exact ⟨b, p, hkey, hindexed.good hb⟩

/-! ## The ends -/

variable {batchVec : Int → List Int} {t t' t'' : LatencyTable} {batch part minPart maxPart : Int}
  {v : ℚ}

/-- The smallest and largest key. -/
theorem endParts_ok (hl : Loaded batchVec t) : endParts t = .ok (minPart, maxPart) ↔
    2 ≤ t.length ∧ 0 ≤ minPart ∧ minPart < 1000 ∧ 0 ≤ maxPart ∧ maxPart < 1000 ∧
      ∃ bmin bmax, (t.map Prod.fst).min? = some (makeKey bmin minPart) ∧
        (t.map Prod.fst).max? = some (makeKey bmax maxPart) ∧ 0 ≤ bmin ∧ 0 ≤ bmax := by
  have hkey : ∀ {key}, key ∈ t.map Prod.fst →
      ∃ b p, key = makeKey b p ∧ 0 ≤ b ∧ 0 ≤ p ∧ p < 1000 := by
    intro key hmem
    obtain ⟨v, hv⟩ := mem_keys.mp hmem
    exact hl.keys hv
  unfold endParts
  rw [Query.bind_ok]
  simp only [assert_ok, List.length_map]
  constructor
  · rintro ⟨-, hlen, h⟩
    refine ⟨hlen, ?_⟩
    cases hmin : (t.map Prod.fst).min? with
    | none => rw [hmin] at h; cases h
    | some front =>
        cases hmax : (t.map Prod.fst).max? with
        | none => rw [hmin, hmax] at h; cases h
        | some back =>
            rw [hmin, hmax] at h
            obtain ⟨hfront, hback⟩ := Prod.mk.injEq .. |>.mp (Query.pure_ok.mp h)
            obtain ⟨bmin, p, rfl, hbmin, hlo, hhi⟩ := hkey (List.min?_mem hmin)
            obtain ⟨bmax, q, rfl, hbmax, hlo', hhi'⟩ := hkey (List.max?_mem hmax)
            rw [makeKey_parse hbmin hlo hhi] at hfront
            rw [makeKey_parse hbmax hlo' hhi'] at hback
            subst hfront hback
            exact ⟨hlo, hhi, hlo', hhi', bmin, bmax, rfl, rfl, hbmin, hbmax⟩
  · rintro ⟨hlen, hlo, hhi, hlo', hhi', bmin, bmax, hmin, hmax, hbmin, hbmax⟩
    refine ⟨(), hlen, ?_⟩
    rw [hmin, hmax]
    dsimp only
    rw [makeKey_parse hbmin hlo hhi, makeKey_parse hbmax hlo' hhi']
    rfl

/-- A key that a lookup may put in: a part between the ends at the largest batch
size, or an end at batch size 1. -/
structure Filler (minPart maxPart : Int) (t' : LatencyTable) (key b p : Int) : Prop where
  key_eq : key = makeKey b p
  min_le : minPart ≤ p
  le_max : p ≤ maxPart
  batch : b = maxBatch ∨ b = 1 ∧ (p = minPart ∨ p = maxPart)
  front : ∃ v, t'.lookup (makeKey b minPart) = some v
  back : ∃ v, t'.lookup (makeKey b maxPart) = some v

/-- The loaded table `t` after lookups that have put in nothing but fillers. -/
structure Padded (t t' : LatencyTable) : Prop where
  old : ∀ {key v}, t.lookup key = some v → t'.lookup key = some v
  new : ∀ {key v}, t.lookup key = none → t'.lookup key = some v →
    v = 0 ∧ ∃ minPart maxPart b p, endParts t = .ok (minPart, maxPart) ∧
      Filler minPart maxPart t' key b p
  length_le : t.length ≤ t'.length
  same : (∀ e, endParts t ≠ .ok e) → t' = t

theorem Padded.refl (t : LatencyTable) : Padded t t where
  old h := h
  new hnone hsome := by
    rw [hnone] at hsome
    cases hsome
  length_le := le_rfl
  same _ := rfl

theorem Padded.value (h : Padded t t') : t'.value = t.value := by
  funext key
  unfold LatencyTable.value
  cases hkey : t.lookup key with
  | some v => rw [h.old hkey]
  | none =>
      cases hkey' : t'.lookup key with
      | none => rfl
      | some v =>
          rw [(h.new hkey hkey').1]
          rfl

theorem Padded.keyed (h : Padded t t') (hkeyed : Keyed batchVec t) : Keyed batchVec t' := by
  intro p b hb
  obtain ⟨v, hv⟩ := hkeyed p b hb
  exact ⟨v, h.old hv⟩

/-- Fillers at known ends. -/
theorem Padded.filler (h : Padded t t') (hends : endParts t = .ok (minPart, maxPart)) {key : Int}
    (hnone : t.lookup key = none) (hsome : t'.lookup key = some v) :
    ∃ b p, Filler minPart maxPart t' key b p := by
  obtain ⟨-, mn, mx, b, p, hends', hfill⟩ := h.new hnone hsome
  obtain ⟨rfl, rfl⟩ := Prod.mk.injEq .. |>.mp (Except.ok.inj (hends'.symm.trans hends))
  exact ⟨b, p, hfill⟩

theorem Filler.batch_nonneg {key b p : Int} (h : Filler minPart maxPart t' key b p) : 0 ≤ b := by
  rcases h.batch with rfl | ⟨rfl, -⟩
  · decide
  · decide

theorem Padded.loaded (h : Padded t t') (hl : Loaded batchVec t) : Loaded batchVec t' where
  keyed := h.keyed hl.keyed
  keys {key v} hv := by
    cases hkey : t.lookup key with
    | some v => exact hl.keys hkey
    | none =>
        obtain ⟨-, mn, mx, b, p, hends, hfill⟩ := h.new hkey hv
        obtain ⟨-, hlo, -, -, hhi, -⟩ := (endParts_ok hl).mp hends
        have hle := hfill.min_le
        have hge := hfill.le_max
        exact ⟨b, p, hfill.key_eq, hfill.batch_nonneg, by omega, by omega⟩

/-- The ends have stayed where they were. -/
theorem Padded.endParts_eq (h : Padded t t') (hl : Loaded batchVec t)
    (hends : endParts t = .ok (minPart, maxPart)) : endParts t' = .ok (minPart, maxPart) := by
  obtain ⟨hlen, hlo, hhi, hlo', hhi', bmin, bmax, hmin, hmax, hbmin, hbmax⟩ :=
    (endParts_ok hl).mp hends
  obtain ⟨hmin_mem, hmin_le⟩ := List.min?_eq_some_iff.mp hmin
  obtain ⟨hmax_mem, hmax_le⟩ := List.max?_eq_some_iff.mp hmax
  have hlen' := hlen.trans h.length_le
  have hne : t'.map Prod.fst ≠ [] := by
    rintro hnil
    rw [List.map_eq_nil_iff.mp hnil] at hlen'
    exact absurd hlen' (by decide)
  have hsub : ∀ {key}, key ∈ t.map Prod.fst → key ∈ t'.map Prod.fst := by
    intro key hkey
    obtain ⟨v, hv⟩ := mem_keys.mp hkey
    exact mem_keys.mpr ⟨v, h.old hv⟩
  have hcases : ∀ {key}, key ∈ t'.map Prod.fst →
      key ∈ t.map Prod.fst ∨ ∃ b p, Filler minPart maxPart t' key b p := by
    intro key hkey
    obtain ⟨v, hv⟩ := mem_keys.mp hkey
    cases hold : t.lookup key with
    | some v => exact Or.inl (mem_keys.mpr ⟨v, hold⟩)
    | none => exact Or.inr (h.filler hends hold hv)
  obtain ⟨front, hfront⟩ := Option.isSome_iff_exists.mp (List.isSome_min?_of_ne_nil hne)
  obtain ⟨back, hback⟩ := Option.isSome_iff_exists.mp (List.isSome_max?_of_ne_nil hne)
  obtain ⟨hfront_mem, hfront_le⟩ := List.min?_eq_some_iff.mp hfront
  obtain ⟨hback_mem, hback_le⟩ := List.max?_eq_some_iff.mp hback
  have hfront' : ∃ b, front = makeKey b minPart ∧ 0 ≤ b := by
    rcases hcases hfront_mem with hold | ⟨b, p, hfill⟩
    · exact ⟨bmin, le_antisymm (hfront_le _ (hsub hmin_mem)) (hmin_le _ hold), hbmin⟩
    · have hle := hfront_le _ (mem_keys.mpr hfill.front)
      have hkey := hfill.key_eq
      have hpart := hfill.min_le
      simp only [makeKey] at hle hkey ⊢
      exact ⟨b, by omega, hfill.batch_nonneg⟩
  have hback' : ∃ b, back = makeKey b maxPart ∧ 0 ≤ b := by
    rcases hcases hback_mem with hold | ⟨b, p, hfill⟩
    · exact ⟨bmax, le_antisymm (hmax_le _ hold) (hback_le _ (hsub hmax_mem)), hbmax⟩
    · have hle := hback_le _ (mem_keys.mpr hfill.back)
      have hkey := hfill.key_eq
      have hpart := hfill.le_max
      simp only [makeKey] at hle hkey ⊢
      exact ⟨b, by omega, hfill.batch_nonneg⟩
  obtain ⟨b, rfl, hb⟩ := hfront'
  obtain ⟨b', rfl, hb'⟩ := hback'
  exact (endParts_ok (h.loaded hl)).mpr ⟨hlen', hlo, hhi, hlo', hhi', b, b', hfront, hback, hb, hb'⟩

/-! ## One lookup -/

theorem lookup_reads_new {key : Int} (h : (reads t batch part).lookup key = some v) :
    t.lookup key = some v ∨ ((batch = 1 ∨ batch = maxBatch) ∧ key = makeKey batch part ∧ v = 0) := by
  unfold reads at h
  split at h
  case isTrue hbatch =>
    rw [lookup_touch] at h
    split at h
    case isTrue hkey => exact Or.inr ⟨hbatch, hkey.2, (Option.some.inj h).symm⟩
    case isFalse => exact Or.inl h
  case isFalse => exact Or.inl h

theorem lookup_reads_self (t : LatencyTable) (part : Int) (hbatch : batch = 1 ∨ batch = maxBatch) :
    ∃ v, (reads t batch part).lookup (makeKey batch part) = some v := by
  unfold reads
  rw [if_pos hbatch, lookup_touch]
  cases h : t.lookup (makeKey batch part) with
  | some v => exact ⟨v, if_neg fun hn => by cases hn.1⟩
  | none => exact ⟨0, if_pos ⟨rfl, rfl⟩⟩

theorem length_le_reads : t.length ≤ (reads t batch part).length := by
  unfold reads touch subscript
  split
  · split
    · exact le_rfl
    · exact Nat.le_succ _
  · exact le_rfl

theorem lookup_endReads_of_some {key : Int} (h : t.lookup key = some v) :
    (endReads t minPart maxPart batch part).lookup key = some v :=
  lookup_reads_of_some (lookup_reads_of_some (lookup_reads_of_some (lookup_reads_of_some
    (lookup_reads_of_some h))))

/-- The ends at a batch size that a lookup reads there. -/
theorem lookup_endReads_ends (t : LatencyTable) (minPart maxPart part : Int) {b : Int}
    (hb : b = maxBatch ∨ b = 1 ∧ batch = 1) :
    (∃ v, (endReads t minPart maxPart batch part).lookup (makeKey b minPart) = some v) ∧
      ∃ v, (endReads t minPart maxPart batch part).lookup (makeKey b maxPart) = some v := by
  unfold endReads
  rcases hb with rfl | ⟨rfl, rfl⟩
  · obtain ⟨v, hv⟩ := lookup_reads_self t minPart (Or.inr rfl)
    obtain ⟨w, hw⟩ := lookup_reads_self (reads (reads t maxBatch minPart) maxBatch part) maxPart
      (Or.inr rfl)
    exact ⟨⟨v, lookup_reads_of_some (lookup_reads_of_some (lookup_reads_of_some
      (lookup_reads_of_some hv)))⟩, w, lookup_reads_of_some (lookup_reads_of_some hw)⟩
  · obtain ⟨v, hv⟩ := lookup_reads_self
      (reads (reads (reads t maxBatch minPart) maxBatch part) maxBatch maxPart) minPart
      (Or.inl (Eq.refl (1 : Int)))
    exact ⟨⟨v, lookup_reads_of_some hv⟩, lookup_reads_self _ _ (Or.inl rfl)⟩

/-- The keys a lookup puts in: the part and the ends at the largest batch size,
and the ends at batch size 1 if that is the one asked for. -/
theorem lookup_endReads_new {key : Int}
    (h : (endReads t minPart maxPart batch part).lookup key = some v) :
    t.lookup key = some v ∨ (v = 0 ∧ ∃ b p, key = makeKey b p ∧
      ((b = maxBatch ∧ (p = minPart ∨ p = part ∨ p = maxPart)) ∨
        (b = 1 ∧ batch = 1 ∧ (p = minPart ∨ p = maxPart)))) := by
  rcases lookup_reads_new h with h | ⟨rfl | rfl, rfl, rfl⟩
  · rcases lookup_reads_new h with h | ⟨rfl | rfl, rfl, rfl⟩
    · rcases lookup_reads_new h with h | ⟨-, rfl, rfl⟩
      · rcases lookup_reads_new h with h | ⟨-, rfl, rfl⟩
        · rcases lookup_reads_new h with h | ⟨-, rfl, rfl⟩
          · exact Or.inl h
          · exact Or.inr ⟨rfl, _, _, rfl, Or.inl ⟨rfl, Or.inl rfl⟩⟩
        · exact Or.inr ⟨rfl, _, _, rfl, Or.inl ⟨rfl, Or.inr (Or.inl rfl)⟩⟩
      · exact Or.inr ⟨rfl, _, _, rfl, Or.inl ⟨rfl, Or.inr (Or.inr rfl)⟩⟩
    · exact Or.inr ⟨rfl, _, _, rfl, Or.inr ⟨rfl, rfl, Or.inl rfl⟩⟩
    · exact Or.inr ⟨rfl, _, _, rfl, Or.inl ⟨rfl, Or.inl rfl⟩⟩
  · exact Or.inr ⟨rfl, _, _, rfl, Or.inr ⟨rfl, rfl, Or.inr rfl⟩⟩
  · exact Or.inr ⟨rfl, _, _, rfl, Or.inl ⟨rfl, Or.inr (Or.inr rfl)⟩⟩

/-- A lookup of a missing key puts in nothing but fillers, if the part is
between the ends. -/
theorem Padded.miss (h : Padded t t') (hends : endParts t = .ok (minPart, maxPart))
    (hmin : minPart ≤ part) (hmax : part ≤ maxPart) :
    Padded t (endReads t' minPart maxPart batch part) where
  old hv := lookup_endReads_of_some (h.old hv)
  new {key v} hnone hsome := by
    rcases lookup_endReads_new hsome with hv | ⟨hv, b, p, hkey, hbp⟩
    · obtain ⟨hzero, -⟩ := h.new hnone hv
      obtain ⟨b, p, hfill⟩ := h.filler hends hnone hv
      obtain ⟨f, hf⟩ := hfill.front
      obtain ⟨g, hg⟩ := hfill.back
      exact ⟨hzero, minPart, maxPart, b, p, hends, { hfill with
        front := ⟨f, lookup_endReads_of_some hf⟩, back := ⟨g, lookup_endReads_of_some hg⟩ }⟩
    · have hb : b = maxBatch ∨ b = 1 ∧ batch = 1 := by
        rcases hbp with ⟨hb, -⟩ | ⟨hb, hbatch, -⟩
        · exact Or.inl hb
        · exact Or.inr ⟨hb, hbatch⟩
      obtain ⟨hf, hg⟩ := lookup_endReads_ends t' minPart maxPart part hb
      refine ⟨hv, minPart, maxPart, b, p, hends, hkey, ?_, ?_, ?_, hf, hg⟩
      · rcases hbp with ⟨-, rfl | rfl | rfl⟩ | ⟨-, -, rfl | rfl⟩ <;> omega
      · rcases hbp with ⟨-, rfl | rfl | rfl⟩ | ⟨-, -, rfl | rfl⟩ <;> omega
      · rcases hbp with ⟨hb, -⟩ | ⟨hb, -, hp⟩
        · exact Or.inl hb
        · exact Or.inr ⟨hb, hp⟩
  length_le := by
    refine h.length_le.trans ?_
    exact length_le_reads.trans (length_le_reads.trans (length_le_reads.trans
      (length_le_reads.trans length_le_reads)))
  same hno := absurd hends (hno _)

/-- What a lookup asks of the loaded table: the key is there, or its part lies
between the parts of the smallest and the largest key, which differ in latency
at the largest batch size. -/
structure InReach (t : LatencyTable) (batch part : Int) : Prop where
  part_nonneg : 0 ≤ part
  part_lt : part < 1000
  between : t.lookup (makeKey batch part) = none → ∀ minPart maxPart,
    endParts t = .ok (minPart, maxPart) → minPart ≤ part ∧ part ≤ maxPart ∧
      t.value (makeKey maxBatch minPart) ≠ t.value (makeKey maxBatch maxPart)

/-- Interpolating across parts at a filler gives the 0 that is read there. -/
theorem partValue_filler {key b p : Int} (hfill : Filler minPart maxPart t' key b p)
    (hzero : t.value key = 0)
    (hne : t.value (makeKey maxBatch minPart) ≠ t.value (makeKey maxBatch maxPart)) :
    partValue batchVec t.value minPart maxPart b p = .ok 0 := by
  have hbatch : b = 1 ∨ b = maxBatch := by
    rcases hfill.batch with hb | ⟨hb, -⟩
    · exact Or.inr hb
    · exact Or.inl hb
  have hread : ∀ q, batchValue batchVec t.value b q = .ok (t.value (makeKey b q)) :=
    fun q => if_pos hbatch
  have hdiv : ∀ y, fdiv y (t.value (makeKey maxBatch minPart) - t.value (makeKey maxBatch maxPart)) =
      .ok (y / (t.value (makeKey maxBatch minPart) - t.value (makeKey maxBatch maxPart))) :=
    fun y => fdiv_ok.mpr ⟨sub_ne_zero.mpr hne, rfl⟩
  have hden := sub_ne_zero.mpr hne
  unfold partValue
  rw [hdiv, Query.ok_bind, hread, Query.ok_bind, hread, Query.ok_bind]
  refine congrArg Except.ok ?_
  rw [hfill.key_eq] at hzero
  rcases hfill.batch with rfl | ⟨rfl, rfl | rfl⟩
  · rw [mul_div_cancel₀ _ hden, hzero]
    ring
  · rw [div_self hden, hzero]
    ring
  · rw [sub_self, zero_div, hzero]
    ring

/-- A key that is there is looked up for its batch size, and nothing is put in. -/
theorem tableLatency_hit {u : ℚ} (hkeyed : Keyed batchVec t)
    (hkey : t.lookup (makeKey batch part) = some u) :
    tableLatency batchVec t batch part =
      batchValue batchVec t.value batch part >>= fun v => .ok (v, t) := by
  have hreads : reads t batch part = t := by
    unfold reads
    rw [touch_of_some hkey, ite_self]
  unfold tableLatency
  rw [hkey]
  dsimp only
  rw [getBatchInterpolatedLatency_eq hkeyed, hreads]

theorem tableLatency_miss (hkey : t.lookup (makeKey batch part) = none) :
    tableLatency batchVec t batch part = getBatchPartInterpolatedLatency batchVec t batch part := by
  unfold tableLatency
  rw [hkey]

/-- One lookup of a padded table answers like the loaded one, and pads it. -/
theorem tableLatency_padded (hl : Loaded batchVec t) (h : Padded t t') (hq : InReach t batch part)
    (hrun : tableLatency batchVec t' batch part = .ok (v, t'')) :
    (∃ t₁, tableLatency batchVec t batch part = .ok (v, t₁)) ∧ Padded t t'' := by
  have hkeyed := h.keyed hl.keyed
  cases hkey : t.lookup (makeKey batch part) with
  | some u =>
      rw [tableLatency_hit hkeyed (h.old hkey), h.value, Query.bind_ok] at hrun
      obtain ⟨w, hw, hrun⟩ := hrun
      obtain ⟨rfl, rfl⟩ := Prod.mk.injEq .. |>.mp (Except.ok.inj hrun)
      refine ⟨⟨t, ?_⟩, h⟩
      rw [tableLatency_hit hl.keyed hkey, hw, Query.ok_bind]
  | none =>
      have hmiss : tableLatency batchVec t batch part = _ := tableLatency_miss hkey
      cases hends : endParts t with
      | error e =>
          obtain rfl := h.same fun e' he' => by rw [hends] at he'; cases he'
          refine ⟨⟨t'', hrun⟩, ?_⟩
          rw [hmiss, getBatchPartInterpolatedLatency, hends] at hrun
          cases hrun
      | ok ends =>
          obtain ⟨minPart, maxPart⟩ := ends
          obtain ⟨hmin, hmax, hne⟩ := hq.between hkey minPart maxPart hends
          have hfresh : getBatchPartInterpolatedLatency batchVec t batch part = _ :=
            getBatchPartInterpolatedLatency_eq hl.keyed hends
          rw [← hmiss] at hfresh
          cases hkey' : t'.lookup (makeKey batch part) with
          | none =>
              rw [tableLatency_miss hkey', getBatchPartInterpolatedLatency_eq hkeyed
                (h.endParts_eq hl hends), h.value, Query.bind_ok] at hrun
              obtain ⟨w, hw, hrun⟩ := hrun
              obtain ⟨rfl, rfl⟩ := Prod.mk.injEq .. |>.mp (Except.ok.inj hrun)
              rw [hw, Query.ok_bind] at hfresh
              exact ⟨⟨_, hfresh⟩, h.miss hends hmin hmax⟩
          | some u =>
              obtain ⟨b, p, hfill⟩ := h.filler hends hkey hkey'
              have hends' := (endParts_ok hl).mp hends
              obtain ⟨rfl, rfl⟩ : batch = b ∧ part = p := by
                have hlo := hfill.min_le
                have hhi := hfill.le_max
                exact makeKey_inj hq.part_nonneg hq.part_lt (by omega) (by omega) hfill.key_eq
              have hbatch : batch = 1 ∨ batch = maxBatch := by
                rcases hfill.batch with hb | ⟨hb, -⟩
                · exact Or.inr hb
                · exact Or.inl hb
              have hzero : t.value (makeKey batch part) = 0 := by
                unfold LatencyTable.value
                rw [hkey]
                rfl
              have hread : batchValue batchVec t.value batch part = .ok 0 := by
                rw [← hzero]
                exact if_pos hbatch
              rw [tableLatency_hit hkeyed hkey', h.value, hread, Query.ok_bind] at hrun
              obtain ⟨rfl, rfl⟩ := Prod.mk.injEq .. |>.mp (Except.ok.inj hrun)
              rw [partValue_filler hfill hzero hne, Query.ok_bind] at hfresh
              exact ⟨⟨_, hfresh⟩, h⟩

/-! ## Runs of queries -/

structure LatencyQuery where
  model : String
  batch : Int
  part : Int

namespace LatencyModel

variable {m m' m'' : LatencyModel} {q : LatencyQuery}

/-- The answers to queries asked one after the other. -/
def answers (m : LatencyModel) : List LatencyQuery → Query (List ℚ)
  | [] => .ok []
  | q :: qs => do
      let (latency, m) ← m.getLatency q.model q.batch q.part
      let rest ← answers m qs
      return latency :: rest

/-- The answer to a query asked alone. -/
def AnswersAlone (m : LatencyModel) (q : LatencyQuery) (a : ℚ) : Prop :=
  ∃ m₁, m.getLatency q.model q.batch q.part = .ok (a, m₁)

/-- Every table is padded. -/
structure PaddedBy (m m' : LatencyModel) : Prop where
  batches : m'.perModelBatchVec = m.perModelBatchVec
  missing : ∀ {model}, m.perModelLatencyTable model = none → m'.perModelLatencyTable model = none
  tables : ∀ {model t}, m.perModelLatencyTable model = some t →
    ∃ t', m'.perModelLatencyTable model = some t' ∧ Padded t t'

/-- The query is in reach of its model's table. -/
def Reaches (m : LatencyModel) (q : LatencyQuery) : Prop :=
  ∀ t, m.perModelLatencyTable (profileName q.model) = some t → InReach t q.batch q.part

/-- `getLatency` of a model without a profile. -/
theorem getLatency_none {model : String} {batch part : Int}
    (hbatch : 1 ≤ batch ∧ batch ≤ maxBatch)
    (htable : m.perModelLatencyTable (profileName model) = none) :
    m.getLatency model batch part = .ok (0, m) := by
  unfold getLatency
  rw [Query.bind_ok]
  refine ⟨(), assert_ok.mpr hbatch, ?_⟩
  dsimp only
  rw [htable]
  rfl

/-- The model with another table for one name. -/
def withTable (m : LatencyModel) (model : String) (t : LatencyTable) : LatencyModel :=
  { m with perModelLatencyTable := fun name =>
      if name = model then some t else m.perModelLatencyTable name }

theorem getLatency_some {model : String} {batch part : Int}
    (hbatch : 1 ≤ batch ∧ batch ≤ maxBatch)
    (htable : m.perModelLatencyTable (profileName model) = some t) :
    m.getLatency model batch part = .ok (v, m') ↔
      ∃ t', tableLatency (m.perModelBatchVec (profileName model)) t batch part = .ok (v, t') ∧
        m' = m.withTable (profileName model) t' := by
  have hassert : assert (1 ≤ batch ∧ batch ≤ maxBatch) = .ok () := assert_ok.mpr hbatch
  unfold getLatency
  rw [hassert, Query.ok_bind]
  dsimp only
  rw [htable]
  simp only [Query.bind_ok, Query.pure_ok, Prod.exists, Prod.mk.injEq]
  constructor
  · rintro ⟨w, t', hlookup, rfl, rfl⟩
    exact ⟨t', hlookup, rfl⟩
  · rintro ⟨t', hlookup, rfl⟩
    exact ⟨v, t', hlookup, rfl, rfl⟩

theorem getLatency_padded
    (hl : ∀ model, Loaded (m.perModelBatchVec model) ((m.perModelLatencyTable model).getD []))
    (h : PaddedBy m m') (hq : m.Reaches q)
    (hrun : m'.getLatency q.model q.batch q.part = .ok (v, m'')) :
    m.AnswersAlone q v ∧ PaddedBy m m'' := by
  have hbatch : 1 ≤ q.batch ∧ q.batch ≤ maxBatch := by
    obtain ⟨u, hassert, -⟩ := Query.bind_ok.mp hrun
    exact assert_ok.mp hassert
  cases htable : m.perModelLatencyTable (profileName q.model) with
  | none =>
      rw [getLatency_none hbatch (h.missing htable)] at hrun
      obtain ⟨rfl, rfl⟩ := Prod.mk.injEq .. |>.mp (Except.ok.inj hrun)
      exact ⟨⟨m, getLatency_none hbatch htable⟩, h⟩
  | some t =>
      obtain ⟨t', ht', hpad⟩ := h.tables htable
      obtain ⟨t'', hlookup, rfl⟩ := (getLatency_some hbatch ht').mp hrun
      have hloaded := hl (profileName q.model)
      rw [htable, Option.getD_some] at hloaded
      rw [h.batches] at hlookup
      obtain ⟨⟨t₁, hfresh⟩, hpad'⟩ := tableLatency_padded hloaded hpad (hq t htable) hlookup
      refine ⟨⟨_, (getLatency_some hbatch htable).mpr ⟨t₁, hfresh, rfl⟩⟩, h.batches,
        fun {model} hnone => ?_, fun {model u} hsome => ?_⟩
      · have hne : model ≠ profileName q.model := by
          rintro rfl
          rw [htable] at hnone
          cases hnone
        exact (if_neg hne).trans (h.missing hnone)
      · by_cases heq : model = profileName q.model
        · rw [heq, htable] at hsome
          obtain rfl := Option.some.inj hsome
          exact ⟨t'', if_pos heq, hpad'⟩
        · obtain ⟨u', hu', hpadu⟩ := h.tables hsome
          exact ⟨u', (if_neg heq).trans hu', hpadu⟩

theorem answers_padded
    (hl : ∀ model, Loaded (m.perModelBatchVec model) ((m.perModelLatencyTable model).getD []))
    {qs : List LatencyQuery} {as : List ℚ} (h : PaddedBy m m') (hqs : ∀ q ∈ qs, m.Reaches q)
    (hrun : m'.answers qs = .ok as) :
    List.Forall₂ m.AnswersAlone qs as := by
  induction qs generalizing m' as with
  | nil =>
      obtain rfl := Except.ok.inj hrun
      exact .nil
  | cons q qs ih =>
      obtain ⟨⟨a, m''⟩, hq, hrun⟩ := Query.bind_ok.mp hrun
      obtain ⟨rest, hrest, hrun⟩ := Query.bind_ok.mp hrun
      obtain rfl := Query.pure_ok.mp hrun
      obtain ⟨hfresh, h'⟩ := getLatency_padded hl h (hqs q (List.mem_cons_self ..)) hq
      exact .cons hfresh (ih h' (fun q hq => hqs q (List.mem_cons_of_mem _ hq)) hrest)

/-- **Queries do not disturb each other**, whatever their order and number, as
long as each of them is in reach of the loaded tables. -/
theorem answers_undisturbed {rows : List ProfileRow} {qs : List LatencyQuery} {as : List ℚ}
    (hrows : ∀ row ∈ rows, row.Plain) (hqs : ∀ q ∈ qs, (empty.setupTable rows).Reaches q)
    (h : (empty.setupTable rows).answers qs = .ok as) :
    List.Forall₂ (empty.setupTable rows).AnswersAlone qs as :=
  answers_padded (setupTable_loaded hrows)
    ⟨rfl, fun h => h, fun {_ t} h => ⟨t, h, Padded.refl t⟩⟩ hqs h

/-- Two parts of a model, profiled at the smallest and the largest batch size. -/
def twoParts : List ProfileRow :=
  [⟨"resnet50", 20, 1, 4⟩, ⟨"resnet50", 20, 32, 64⟩, ⟨"resnet50", 50, 1, 1⟩, ⟨"resnet50", 50, 32, 32⟩]

/-- An answer alone is the answer to a run of one query. -/
theorem AnswersAlone.answers (h : m.AnswersAlone q v) : m.answers [q] = .ok [v] := by
  obtain ⟨m₁, h⟩ := h
  rw [LatencyModel.answers, h, Query.ok_bind]
  rfl

/-- The same query twice, for a part beyond the ends: the first lookup makes it
the largest one, with latency 0 at the largest batch size. -/
theorem answers_disturbed :
    (empty.setupTable twoParts).answers [⟨"resnet50", 1, 80⟩, ⟨"resnet50", 1, 80⟩] = .ok [-2, 0] ∧
      ¬ List.Forall₂ (empty.setupTable twoParts).AnswersAlone
        [⟨"resnet50", 1, 80⟩, ⟨"resnet50", 1, 80⟩] [-2, 0] := by
  refine ⟨by decide +kernel, ?_⟩
  intro h
  obtain ⟨-, hrest⟩ := List.forall₂_cons.mp h
  obtain ⟨hfresh, -⟩ := List.forall₂_cons.mp hrest
  have hone := hfresh.answers
  have htwo : (empty.setupTable twoParts).answers [⟨"resnet50", 1, 80⟩] = .ok [-2] := by
    decide +kernel
  rw [hone] at htwo
  exact absurd (List.head_eq_of_cons_eq (Except.ok.inj htwo)) (by norm_num)

theorem twoParts_inReach {q : LatencyQuery} (hmodel : profileName q.model = "resnet50")
    (hpart : 20 ≤ q.part ∧ q.part ≤ 50) : (empty.setupTable twoParts).Reaches q := by
  intro t ht
  have htable : (empty.setupTable twoParts).perModelLatencyTable "resnet50" =
      some [(32050, 32), (1050, 1), (32020, 64), (1020, 4)] := by decide +kernel
  rw [hmodel, htable] at ht
  obtain rfl := Option.some.inj ht
  refine ⟨by omega, by omega, fun _ minPart maxPart hends => ?_⟩
  have hknown : endParts [(32050, 32), (1050, 1), (32020, 64), (1020, 4)] = .ok (20, 50) := by
    decide +kernel
  obtain ⟨rfl, rfl⟩ := Prod.mk.injEq .. |>.mp (Except.ok.inj (hknown.symm.trans hends))
  exact ⟨hpart.1, hpart.2, by decide +kernel⟩

/-- A part between the ends, twice, and a profiled one. -/
theorem answers_undisturbed_at :
    List.Forall₂ (empty.setupTable twoParts).AnswersAlone
      [⟨"resnet50", 1, 30⟩, ⟨"resnet50", 1, 30⟩, ⟨"resnet50", 16, 50⟩] [-2, -2, 16] := by
  refine answers_undisturbed (fun row hrow => ?_) (fun q hq => ?_) (by decide +kernel)
  · simp only [twoParts, List.mem_cons, List.not_mem_nil, or_false] at hrow
    rcases hrow with rfl | rfl | rfl | rfl <;> exact ⟨by decide, by decide, by decide⟩
  · simp only [List.mem_cons, List.not_mem_nil, or_false] at hq
    rcases hq with rfl | rfl | rfl <;> exact twoParts_inReach (by decide) (by decide)

end LatencyModel

end Glet
