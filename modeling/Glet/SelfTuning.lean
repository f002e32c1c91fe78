import Glet.FairShare
import Glet.Latency

/-!
# Sharing the GPUs among models

`SelfTuning::AllocateMinMaxFair` goes through the models by their demands. Each
is given the average of what is left at most, in partitions of the available
sizes; `getNextLargestPart` rounds the last of them up, and whether that many
percent are left is not looked at. So the GPUs are not exceeded if and only if
the rounding never does (`allocateMinMaxFair_within_iff`), and then by less than
one GPU (`allocateMinMaxFair_bounded`).

`cmp_pair` is no strict weak order. Of the sort by it only that it permutes is
used; that by `<` sorts.
-/

namespace Glet

/-- The result, the map that is updated (`per_model_new_parts`) and the sizes,
which are sorted in place. A map is a list of its entries, each key once. -/
structure Allocation where
  perModelResult : List (Int × List Int)
  perModelNewParts : List (Int × Int)
  availParts : List Int
  deriving DecidableEq

namespace SelfTuning

/-! ## `self_tuning.cpp` -/

def cmpPair (a b : Int × Int) : Bool := decide (a.2 ≤ b.2)

def getNextLargestPart (part : Int) (availParts : List Int) : Query Int :=
  match availParts.find? fun availPart => decide (availPart ≥ part) with
  | some thePart => .ok thePart
  | none =>
      -- "if not found, return maximum part"
      match availParts.getLast? with
      | some back => .ok back
      | none => .error .badAccess

/-- `PerModelResult[key]`. -/
def touch (result : List (Int × List Int)) (key : Int) : List (Int × List Int) :=
  if (result.lookup key).isSome then result else result ++ [(key, [])]

/-- `PerModelResult[key].push_back(part)`. -/
def pushPart (result : List (Int × List Int)) (key part : Int) : List (Int × List Int) :=
  (touch result key).map fun e => if e.1 = key then (e.1, e.2 ++ [part]) else e

/-- `while(original_part >0)`, with at most `fuel` turns. -/
def partLoop (availParts : List Int) (key : Int) :
    Nat → Int → List (Int × List Int) → Query (List (Int × List Int))
  | 0, _, _ => .error .diverges
  | fuel + 1, originalPart, result =>
      if originalPart > 0 then do
        let newPart ← getNextLargestPart originalPart availParts
        partLoop availParts key fuel (originalPart - newPart) (pushPart result key newPart)
      else return result

/-- Integer division; by 0 the process is stopped. -/
def intDiv (a b : Int) : Query Int := if b = 0 then .error .badAccess else .ok (a.tdiv b)

/-- One turn of the loop over `temp_vec`, with the average known. -/
def modelTurn (fuel : Nat) (key originalPart avgPart : Int) (alloc : Allocation) :
    Query (Int × Allocation) := do
  let originalPart := if originalPart > avgPart then avgPart else originalPart
  let result ← partLoop alloc.availParts key fuel originalPart alloc.perModelResult
  let result := touch result key
  let newSum := ((result.lookup key).getD []).sum
  assert (alloc.perModelNewParts.lookup key).isSome
  let newParts := alloc.perModelNewParts.map fun e => if e.1 = key then (e.1, newSum) else e
  return (newSum, { alloc with perModelResult := result, perModelNewParts := newParts })

/-- The loop over `temp_vec`. -/
def modelLoop (fuel : Nat) :
    List (Int × Int) → Int → Int → Int → Allocation → Query Allocation
  | [], _, _, _, alloc => return alloc
  | (key, originalPart) :: rest, availSumOfParts, numOfRemainingTasks, avgPart, alloc => do
      let (newSum, alloc) ← modelTurn fuel key originalPart avgPart alloc
      let availSumOfParts := availSumOfParts - newSum
      let numOfRemainingTasks := numOfRemainingTasks - 1
      -- "do not get average of last task"
      let avgPart := if numOfRemainingTasks ≠ 0 then availSumOfParts.tdiv numOfRemainingTasks
        else avgPart
      modelLoop fuel rest availSumOfParts numOfRemainingTasks avgPart alloc

/-- `AllocateMinMaxFair`. -/
def allocateMinMaxFair (stdSort : StdSort) (fuel : Nat) (numOfGPU : Int)
    (perModelNewParts : List (Int × Int)) (availParts : List Int) : Query Allocation := do
  let tempVec := stdSort.sort cmpPair perModelNewParts
  let availParts := stdSort.sort (fun a b => decide (a < b)) availParts
  let availSumOfParts := numOfGPU * 100
  let numOfRemainingTasks := (perModelNewParts.length : Int)
  let avgPart ← intDiv availSumOfParts numOfRemainingTasks
  modelLoop fuel tempVec availSumOfParts numOfRemainingTasks avgPart
    { perModelResult := [], perModelNewParts, availParts }

end SelfTuning

/-- Percent given to all models. -/
def Allocation.total (alloc : Allocation) : Int := (alloc.perModelResult.map (·.2.sum)).sum

namespace SelfTuning

open FairShare

variable {result : List (Int × List Int)} {key part : Int} {parts sorted : List Int} {fuel : Nat}

/-! ## The next part -/

theorem sort_lt_pairwise (stdSort : StdSort) (parts : List Int) :
    (stdSort.sort (fun a b => decide (a < b)) parts).Pairwise (· ≤ ·) := by
  have horder : StrictWeakOrder fun a b : Int => decide (a < b) := by
    refine ⟨fun a => by simp, fun a b c hab hbc => ?_, fun a b c hab hbc => ?_⟩
    · exact decide_eq_true ((of_decide_eq_true hab).trans (of_decide_eq_true hbc))
    · have hba := of_decide_eq_false hab
      have hcb := of_decide_eq_false hbc
      exact decide_eq_false (by omega)
  refine (stdSort.sorted _ parts horder).imp fun h => ?_
  exact not_lt.mp (of_decide_eq_false h)

/-- On sorted sizes the first that is large enough is the least. -/
theorem getNextLargestPart_cover (hs : Sizes 100 parts)
    (hperm : sorted.Perm parts) (hsorted : sorted.Pairwise (· ≤ ·)) (hle : part ≤ 100) :
    getNextLargestPart part sorted = .ok (leastCover parts part) := by
  unfold getNextLargestPart
  cases hfind : sorted.find? fun availPart => decide (availPart ≥ part) with
  | none =>
      have hnot := List.find?_eq_none.mp hfind 100 (hperm.mem_iff.mpr hs.whole_mem)
      exact absurd (decide_eq_true hle) hnot
  | some p =>
      obtain ⟨hp, as, bs, heq, has⟩ := List.find?_eq_some_iff_append.mp hfind
      have hmem : p ∈ parts := hperm.mem_iff.mp (by rw [heq]; simp)
      refine congrArg _ (leastCover_eq hmem (of_decide_eq_true hp) fun q hq hpart => ?_).symm
      have hq' := hperm.mem_iff.mpr hq
      rw [heq] at hq' hsorted
      rcases List.mem_append.mp hq' with hlow | hhigh
      · have hskip := has q hlow
        simp [hpart] at hskip
      · rcases List.mem_cons.mp hhigh with rfl | hlater
        · exact le_rfl
        · exact (List.pairwise_cons.mp (List.pairwise_append.mp hsorted).2.1).1 q hlater

/-- Where none is, it is the last, a whole GPU. -/
theorem getNextLargestPart_whole (hs : Sizes 100 parts)
    (hperm : sorted.Perm parts) (hsorted : sorted.Pairwise (· ≤ ·)) (hgt : 100 < part) :
    getNextLargestPart part sorted = .ok 100 := by
  have hnone : (sorted.find? fun availPart => decide (availPart ≥ part)) = none := by
    refine List.find?_eq_none.mpr fun q hq hge => ?_
    have := hs.le_whole q (hperm.mem_iff.mp hq)
    have := of_decide_eq_true hge
    omega
  have hwhole := hperm.mem_iff.mpr hs.whole_mem
  unfold getNextLargestPart
  rw [hnone]
  cases hlast : sorted.getLast? with
  | none =>
      rw [List.getLast?_eq_none_iff.mp hlast] at hwhole
      cases hwhole
  | some back =>
      obtain ⟨front, heq⟩ := List.getLast?_eq_some_iff.mp hlast
      have hback : back ≤ 100 := hs.le_whole back (hperm.mem_iff.mp (by rw [heq]; simp))
      rw [heq] at hwhole hsorted
      have hle : 100 ≤ back := by
        rcases List.mem_append.mp hwhole with hfront | hlast
        · exact (List.pairwise_append.mp hsorted).2.2 100 hfront back (List.mem_singleton_self _)
        · exact (List.mem_singleton.mp hlast).le
      exact congrArg _ (le_antisymm hback hle)

/-! ## The parts of one model -/

theorem lookup_isSome {β : Type} (l : List (Int × β)) (key : Int) :
    (l.lookup key).isSome ↔ key ∈ l.map Prod.fst := by
  rw [List.lookup_isSome_iff, List.mem_map]
  constructor
  · rintro ⟨e, he, hkey⟩
    exact ⟨e, he, (beq_iff_eq.mp hkey).symm⟩
  · rintro ⟨e, he, rfl⟩
    exact ⟨e, he, beq_self_eq_true _⟩

theorem touch_fresh (h : key ∉ result.map Prod.fst) : touch result key = result ++ [(key, [])] :=
  if_neg fun hsome => h ((lookup_isSome result key).mp hsome)

theorem touch_present (h : key ∈ result.map Prod.fst) : touch result key = result :=
  if_pos ((lookup_isSome result key).mpr h)

theorem touch_mem : key ∈ (touch result key).map Prod.fst := by
  by_cases h : key ∈ result.map Prod.fst
  · rw [touch_present h]
    exact h
  · rw [touch_fresh h]
    simp

theorem pushPart_touch : pushPart (touch result key) key part = pushPart result key part := by
  rw [pushPart, touch_present touch_mem, pushPart]

/-- An entry that is there grows. -/
theorem pushPart_last {given : List Int} (h : key ∉ result.map Prod.fst) :
    pushPart (result ++ [(key, given)]) key part = result ++ [(key, given ++ [part])] := by
  have hothers : (result.map fun e => if e.1 = key then (e.1, e.2 ++ [part]) else e) = result := by
    refine (List.map_congr_left fun e he => if_neg fun hkey => ?_).trans (List.map_id _)
    exact h (List.mem_map.mpr ⟨e, he, hkey⟩)
  rw [pushPart, touch_present (by simp), List.map_append, hothers]
  simp

/-- The loop gives the share rounded up, in available sizes. -/
theorem partLoop_ok (part : Int) (given : List Int) (hs : Sizes 100 parts) (hperm : sorted.Perm parts)
    (hsorted : sorted.Pairwise (· ≤ ·)) (hfresh : key ∉ result.map Prod.fst) :
    ∃ more, (∀ fuel : Nat, part < fuel → 0 < fuel →
        partLoop sorted key fuel part (result ++ [(key, given)]) =
          .ok (result ++ [(key, given ++ more)])) ∧
      more.sum = rounded 100 parts part ∧ ∀ p ∈ more, p ∈ parts := by
  induction hm : part.toNat using Nat.strong_induction_on generalizing part given with
  | _ m ih =>
      by_cases hpos : part > 0
      · obtain ⟨next, hnext, hmem, hround, hlow⟩ : ∃ next,
            getNextLargestPart part sorted = .ok next ∧ next ∈ parts ∧
              rounded 100 parts part = next + rounded 100 parts (part - next) ∧ 1 ≤ next := by
          by_cases hle : part ≤ 100
          · obtain ⟨hmem, hcover⟩ := hs.leastCover_mem hle
            have hrest : rounded 100 parts (part - leastCover parts part) = 0 :=
              rounded_of_nonpos (by omega)
            refine ⟨_, getNextLargestPart_cover hs hperm hsorted hle, hmem, ?_, hs.pos _ hmem⟩
            rw [rounded_of_le hpos hle, hrest, Int.add_zero]
          · exact ⟨100, getNextLargestPart_whole hs hperm hsorted (by omega), hs.whole_mem,
              rounded_of_gt (by decide) (by omega), by decide⟩
        obtain ⟨more, hloop, hsum, hall⟩ := ih (part - next).toNat (by omega)
          (part - next) (given ++ [next]) rfl
        refine ⟨next :: more, fun fuel hfuel hturn => ?_, by rw [List.sum_cons, hsum, hround],
          fun p hp => ?_⟩
        · obtain ⟨fuel, rfl⟩ : ∃ f, fuel = f + 1 := ⟨fuel - 1, by omega⟩
          rw [partLoop, if_pos hpos, hnext, Query.ok_bind, pushPart_last hfresh,
            hloop fuel (by omega) (by omega), List.append_assoc, List.singleton_append]
        · rcases List.mem_cons.mp hp with rfl | hp
          · exact hmem
          · exact hall p hp
      · refine ⟨[], fun fuel _ hturn => ?_, (rounded_of_nonpos (by omega)).symm, by simp⟩
        obtain ⟨fuel, rfl⟩ : ∃ f, fuel = f + 1 := ⟨fuel - 1, by omega⟩
        rw [partLoop, if_neg hpos, List.append_nil]
        rfl

/-- `operator[]` before the loop or after it is all the same. -/
theorem partLoop_touch : (partLoop sorted key fuel part result).map (touch · key) =
    (partLoop sorted key fuel part (touch result key)).map (touch · key) := by
  cases fuel with
  | zero => rfl
  | succ fuel =>
      by_cases hpos : part > 0
      · simp only [partLoop, if_pos hpos, pushPart_touch]
      · rw [partLoop, if_neg hpos, partLoop, if_neg hpos]
        exact congrArg Except.ok (touch_present touch_mem).symm

/-! ## The models -/

variable {alloc : Allocation} {rest : List (Int × Int)} {left avg : Int}

/-- A turn gives its model the share rounded up. -/
theorem modelTurn_ok (part avg : Int) (hs : Sizes 100 parts) (hperm : alloc.availParts.Perm parts)
    (hsorted : alloc.availParts.Pairwise (· ≤ ·)) (hfresh : key ∉ alloc.perModelResult.map Prod.fst)
    (hpresent : key ∈ alloc.perModelNewParts.map Prod.fst) :
    ∃ more newParts, (∀ fuel : Nat, avg < fuel → 0 < fuel →
        modelTurn fuel key part avg alloc = .ok (rounded 100 parts (min part avg),
          { perModelResult := alloc.perModelResult ++ [(key, more)], perModelNewParts := newParts,
            availParts := alloc.availParts })) ∧
      more.sum = rounded 100 parts (min part avg) ∧ (∀ p ∈ more, p ∈ parts) ∧
      newParts.map Prod.fst = alloc.perModelNewParts.map Prod.fst := by
  have hmin : (if part > avg then avg else part) = min part avg := by
    rw [min_def]
    split <;> split <;> omega
  obtain ⟨more, hloop, hsum, hall⟩ := partLoop_ok (min part avg) [] hs hperm hsorted hfresh
  have hlookup : (alloc.perModelResult ++ [(key, more)]).lookup key = some more := by
    have hnone : alloc.perModelResult.lookup key = none := by
      rw [← Option.not_isSome_iff_eq_none, lookup_isSome]
      exact hfresh
    rw [List.lookup_append, hnone]
    simp
  have hassert : assert (alloc.perModelNewParts.lookup key).isSome = .ok () :=
    assert_ok.mpr ((lookup_isSome _ key).mpr hpresent)
  refine ⟨more, alloc.perModelNewParts.map fun e => if e.1 = key then (e.1, more.sum) else e,
    fun fuel hfuel hturn => ?_, hsum, hall, ?_⟩
  · have htouched : (partLoop alloc.availParts key fuel (min part avg) alloc.perModelResult).map
        (touch · key) = .ok (alloc.perModelResult ++ [(key, more)]) := by
      rw [partLoop_touch, touch_fresh hfresh, hloop fuel (by omega) hturn]
      exact congrArg Except.ok (touch_present (by simp))
    cases hrun : partLoop alloc.availParts key fuel (min part avg) alloc.perModelResult with
    | error f =>
        rw [hrun] at htouched
        cases htouched
    | ok result =>
        rw [hrun] at htouched
        have htouch : touch result key = alloc.perModelResult ++ [(key, more)] :=
          Except.ok.inj htouched
        rw [modelTurn, hmin, hrun, Query.ok_bind]
        dsimp only
        rw [htouch, hlookup, hassert, Query.ok_bind, Option.getD_some, hsum]
        rfl
  · rw [List.map_map]
    refine List.map_congr_left fun e _ => ?_
    rw [Function.comp_apply]
    split <;> rfl

/-- An average is below what bounds the rest. -/
theorem tdiv_lt {k : Int} (hk : 0 < k) (hleft : left < fuel) (hfuel : 0 < fuel) :
    left.tdiv k < fuel := by
  rcases le_total 0 left with hpos | hneg
  · have := tdiv_le (k := k) hpos
    omega
  · have := tdiv_nonpos hk hneg
    omega

/-- While models remain there is a next average. -/
theorem nextAvg (hne : rest ≠ []) :
    (if (rest.length : Int) ≠ 0 then left.tdiv rest.length else avg) = left.tdiv rest.length := by
  have hlen := List.length_pos_iff.mpr hne
  exact if_pos (by omega)

/-- The loop gives what the division of the capacity gives. -/
theorem modelLoop_ok (rest : List (Int × Int)) (left avg : Int) (alloc : Allocation)
    (hs : Sizes 100 parts) (hperm : alloc.availParts.Perm parts)
    (hsorted : alloc.availParts.Pairwise (· ≤ ·)) (hkeys : (rest.map Prod.fst).Nodup)
    (hfresh : ∀ key ∈ rest.map Prod.fst, key ∉ alloc.perModelResult.map Prod.fst)
    (hpresent : ∀ key ∈ rest.map Prod.fst, key ∈ alloc.perModelNewParts.map Prod.fst)
    (havg : rest ≠ [] → avg = left.tdiv rest.length) :
    ∃ out, (∀ fuel : Nat, left < fuel → 0 < fuel →
        modelLoop fuel rest left rest.length avg alloc = .ok out) ∧
      out.total = alloc.total + spent 100 parts left (rest.map Prod.snd) ∧
      out.perModelResult.map Prod.fst = alloc.perModelResult.map Prod.fst ++ rest.map Prod.fst ∧
      ∀ e ∈ out.perModelResult, e ∈ alloc.perModelResult ∨ ∀ p ∈ e.2, p ∈ parts := by
  induction rest generalizing alloc left avg with
  | nil => exact ⟨alloc, fun _ _ _ => rfl, by simp [spent], by simp, fun e he => Or.inl he⟩
  | cons entry rest ih =>
      obtain ⟨key, demand⟩ := entry
      obtain ⟨hkey, hkeys⟩ := List.nodup_cons.mp hkeys
      have hmean : avg = left.tdiv ((rest.length + 1 : Nat) : Int) := havg (by simp)
      have hmean_lt : ∀ fuel : Nat, left < fuel → 0 < fuel → avg < fuel :=
        fun fuel hfuel hturn => hmean ▸ tdiv_lt (by omega) hfuel hturn
      obtain ⟨more, newParts, hrun, hsum, hall, hsame⟩ := modelTurn_ok demand avg hs hperm
        hsorted (hfresh key (by simp)) (hpresent key (by simp))
      have hgiven : rounded 100 parts (min demand avg) =
          given 100 parts left demand (rest.length + 1 : Nat) := by rw [given, ← hmean]
      have hnonneg : 0 ≤ given 100 parts left demand (rest.length + 1 : Nat) := hs.given_nonneg
      rw [hgiven] at hrun hsum
      have hnum : ((rest.length + 1 : Nat) : Int) - 1 = rest.length := by omega
      obtain ⟨out, hloop, htotal, hnames, hsizes⟩ := ih
        (left - given 100 parts left demand (rest.length + 1 : Nat))
        (if (rest.length : Int) ≠ 0 then
          (left - given 100 parts left demand (rest.length + 1 : Nat)).tdiv rest.length else avg)
        { alloc with
          perModelResult := alloc.perModelResult ++ [(key, more)], perModelNewParts := newParts }
        hperm hsorted hkeys
        (by
          intro k hk hmem
          rw [List.map_append, List.mem_append] at hmem
          rcases hmem with hold | hnew
          · exact hfresh k (List.mem_cons_of_mem _ hk) hold
          · rw [List.map_singleton, List.mem_singleton] at hnew
            exact hkey (hnew ▸ hk))
        (fun k hk => hsame ▸ hpresent k (List.mem_cons_of_mem _ hk)) nextAvg
      refine ⟨out, fun fuel hfuel hturn => ?_, ?_, ?_, fun e he => ?_⟩
      · rw [modelLoop, List.length_cons, hrun fuel (hmean_lt fuel hfuel hturn) hturn, Query.ok_bind]
        dsimp only
        rw [hnum]
        exact hloop fuel (by omega) hturn
      · rw [htotal, List.map_cons, spent, List.length_map]
        simp only [Allocation.total, List.map_append, List.sum_append, List.map_singleton,
          List.sum_singleton, hsum]
        omega
      · rw [hnames, List.map_append, List.append_assoc]
        rfl
      · rcases hsizes e he with hmem | hparts
        · rcases List.mem_append.mp hmem with hold | hnew
          · exact Or.inl hold
          · rw [List.mem_singleton.mp hnew]
            exact Or.inr hall
        · exact Or.inr hparts

/-! ## The allocation -/

variable {n : Int} {perModel : List (Int × Int)}

/-- The demands in the order in which they are met. -/
def demandsOf (stdSort : StdSort) (perModel : List (Int × Int)) : List Int :=
  (stdSort.sort cmpPair perModel).map Prod.snd

/-- `AllocateMinMaxFair` returns, every model is listed and gets available sizes,
and in all what the division of `n` GPUs spends is given. -/
theorem allocateMinMaxFair_ok (stdSort : StdSort) (hn : 0 < n) (hne : perModel ≠ [])
    (hkeys : (perModel.map Prod.fst).Nodup) (hs : Sizes 100 parts) :
    ∃ out, (∀ fuel : Nat, n * 100 < fuel →
        allocateMinMaxFair stdSort fuel n perModel parts = .ok out) ∧
      (out.perModelResult.map Prod.fst).Perm (perModel.map Prod.fst) ∧
      (∀ e ∈ out.perModelResult, ∀ p ∈ e.2, p ∈ parts) ∧
      out.total = spent 100 parts (n * 100) (demandsOf stdSort perModel) := by
  have hsort := stdSort.perm cmpPair perModel
  have hlen := hsort.length_eq
  have hcount : (perModel.length : Int) ≠ 0 := by
    have := List.length_pos_iff.mpr hne
    omega
  obtain ⟨out, hloop, htotal, hnames, hsizes⟩ := modelLoop_ok
    (stdSort.sort cmpPair perModel) (n * 100) ((n * 100).tdiv (stdSort.sort cmpPair perModel).length)
    ⟨[], perModel, stdSort.sort (fun a b => decide (a < b)) parts⟩ hs
    (stdSort.perm _ parts) (sort_lt_pairwise stdSort parts)
    ((hsort.map Prod.fst).nodup_iff.mpr hkeys) (fun _ _ => List.not_mem_nil)
    (fun _ hk => (hsort.map Prod.fst).mem_iff.mp hk) (fun _ => rfl)
  refine ⟨out, fun fuel hfuel => ?_, ?_, fun e he => ?_, ?_⟩
  · have hmean : intDiv (n * 100) perModel.length = .ok ((n * 100).tdiv perModel.length) :=
      if_neg hcount
    rw [allocateMinMaxFair, hmean, Query.ok_bind, ← hlen]
    exact hloop fuel hfuel (by omega)
  · rw [hnames]
    exact hsort.map Prod.fst
  · exact (hsizes e he).resolve_left List.not_mem_nil
  · rw [htotal]
    simp [Allocation.total, demandsOf]

/-- `AllocateMinMaxFair` terminates, gives every model available sizes only, and
no more than `n` GPUs in all. -/
def WithinGPUs (stdSort : StdSort) (n : Int) (perModel : List (Int × Int)) (parts : List Int) :
    Prop :=
  ∃ out, (∃ bound : Nat, ∀ fuel : Nat, bound < fuel →
      allocateMinMaxFair stdSort fuel n perModel parts = .ok out) ∧
    (out.perModelResult.map Prod.fst).Perm (perModel.map Prod.fst) ∧
    (∀ e ∈ out.perModelResult, ∀ p ∈ e.2, p ∈ parts) ∧ out.total ≤ 100 * n

/-- **Sharing.** The models share `n` GPUs if and only if, with the demands in
their order, no rounded share exceeds what is left when its turn comes. -/
theorem allocateMinMaxFair_within_iff (stdSort : StdSort) (n : Int) (perModel : List (Int × Int))
    (parts : List Int) (hn : 0 < n) (hne : perModel ≠ []) (hkeys : (perModel.map Prod.fst).Nodup)
    (hrange : ∀ p ∈ parts, 1 ≤ p ∧ p ≤ 100) (hwhole : 100 ∈ parts) :
    WithinGPUs stdSort n perModel parts ↔
      Fits 100 parts (100 * n) (demandsOf stdSort perModel) := by
  have hs : Sizes 100 parts := ⟨hwhole, fun p hp => (hrange p hp).1, fun p hp => (hrange p hp).2⟩
  obtain ⟨out, hrun, hnames, hsizes, htotal⟩ := allocateMinMaxFair_ok stdSort hn hne hkeys hs
  rw [← spent_le_iff (by omega), Int.mul_comm 100 n, ← htotal]
  constructor
  · rintro ⟨out', ⟨bound, hrun'⟩, -, -, hle⟩
    have hboth := (hrun (max (n * 100).toNat bound + 1) (by omega)).symm.trans
      (hrun' (max (n * 100).toNat bound + 1) (by omega))
    rw [Except.ok.inj hboth]
    omega
  · intro hle
    exact ⟨out, ⟨(n * 100).toNat, fun fuel hfuel => hrun fuel (by omega)⟩, hnames, hsizes,
      by omega⟩

example : ¬ Fits 100 [60, 100] 100 (demandsOf .insertion [(0, 50), (1, 50)]) := by
  decide +kernel

/-- Two models that are given whole GPUs. -/
theorem allocateMinMaxFair_within_two :
    WithinGPUs .insertion 2 [(0, 80), (1, 100)] [60, 100] :=
  (allocateMinMaxFair_within_iff .insertion 2 [(0, 80), (1, 100)] [60, 100] (by decide) (by decide)
    (by decide) (by decide) (by decide)).mpr (by decide +kernel)

/-- Two models that need 50 each: 60 and 60 percent of one GPU. -/
theorem allocateMinMaxFair_exceeds :
    ¬ ∀ (stdSort : StdSort) (n : Int) (perModel : List (Int × Int)) (parts : List Int),
      0 < n → perModel ≠ [] → (perModel.map Prod.fst).Nodup → (∀ e ∈ perModel, 0 ≤ e.2) →
      (∀ p ∈ parts, 1 ≤ p ∧ p ≤ 100) → 100 ∈ parts → WithinGPUs stdSort n perModel parts := by
  intro h
  obtain ⟨out, ⟨bound, hrun⟩, -, -, hle⟩ := h .insertion 1 [(0, 50), (1, 50)] [60, 100] (by decide)
    (by decide) (by decide) (by decide) (by decide) (by decide)
  have hs : Sizes 100 [60, 100] := ⟨by decide, by decide, by decide⟩
  obtain ⟨out', hrun', -, -, htotal⟩ :=
    allocateMinMaxFair_ok (n := 1) .insertion (by decide) (List.cons_ne_nil (0, 50) [(1, 50)])
      (by decide) hs
  have hsame := (hrun (bound + 101) (by omega)).symm.trans (hrun' (bound + 101) (by omega))
  rw [Except.ok.inj hsame, htotal] at hle
  exact absurd hle (by decide +kernel)

/-- What is given exceeds the GPUs by less than one. -/
theorem allocateMinMaxFair_bounded {stdSort : StdSort} (hn : 0 < n) (hne : perModel ≠ [])
    (hkeys : (perModel.map Prod.fst).Nodup) (hs : Sizes 100 parts) :
    ∃ out, (∀ fuel : Nat, n * 100 < fuel →
        allocateMinMaxFair stdSort fuel n perModel parts = .ok out) ∧
      out.total < 100 * (n + 1) := by
  obtain ⟨out, hrun, -, -, htotal⟩ := allocateMinMaxFair_ok stdSort hn hne hkeys hs
  refine ⟨out, hrun, ?_⟩
  have hlt : spent 100 parts (n * 100) (demandsOf stdSort perModel) < n * 100 + 100 :=
    hs.spent_lt (by omega)
  omega

end SelfTuning
end Glet
