import Glet.IndexVectors

/-!
# The partitionings of the full search

With `full_search` the standalone scheduler tries every way to partition its
GPUs: `ReturnNodeList` gives each GPU, from the last to the first, one of the
available sizes and the rest of 100, one level of recursion for each GPU, on one
vector that is pushed to and popped from. What it pops at a level is what it has
pushed there (`choiceTurn_eq`), so a level appends one list for each size and
each list of the levels below (`returnNodeList_eq`).
-/

namespace Glet

/-- The fields of a `Node` that the enumeration fills in. -/
structure NodeSize where
  id : Int
  resourcePntg : Int
  dedupNum : Int
  deriving DecidableEq

/-! ## `standalone_scheduler.cpp` -/

/-- One turn of the loop over the sizes, on `comb` and `temp`; `deeper` is the
call for the GPUs below. -/
def choiceTurn (deeper : List NodeSize → List (List NodeSize) → List (List NodeSize)) (gpuid : Int)
    (state : List (List NodeSize) × List NodeSize) (a1 : Int) :
    List (List NodeSize) × List NodeSize :=
  let (comb, temp) := state
  let b1 := 100 - a1
  let t1 : NodeSize := { id := gpuid, resourcePntg := a1, dedupNum := 0 }
  let t2 : NodeSize := { id := gpuid, resourcePntg := b1, dedupNum := if a1 = b1 then 1 else 0 }
  let temp := if t1.resourcePntg ≠ 0 then temp ++ [t1] else temp
  let temp := if t2.resourcePntg ≠ 0 then temp ++ [t2] else temp
  let comb := deeper temp comb
  let temp := if t1.resourcePntg ≠ 0 then temp.dropLast else temp
  let temp := if t2.resourcePntg ≠ 0 then temp.dropLast else temp
  (comb, temp)

/-- `ReturnNodeList`: `comb` afterwards. -/
def returnNodeList (availpart : List Int) :
    Nat → List NodeSize → List (List NodeSize) → List (List NodeSize)
  | 0, temp, comb => comb ++ [temp]
  | gpuid + 1, temp, comb =>
      (availpart.foldl (choiceTurn (returnNodeList availpart gpuid) (gpuid + 1 : Nat))
        (comb, temp)).1

/-- `fillPossibleCases2`. -/
def fillPossibleCases2 (availparts : List Int) (pVec : List (List NodeSize)) (ngpu : Nat) :
    List (List NodeSize) :=
  returnNodeList availparts ngpu [] pVec

/-! ## One GPU -/

/-- The nodes of a GPU that is split at `a`. -/
def splitAt (gpuid a : Int) : List NodeSize :=
  [(⟨gpuid, a, 0⟩ : NodeSize), ⟨gpuid, 100 - a, if a = 50 then 1 else 0⟩].filter fun z =>
    decide (z.resourcePntg ≠ 0)

variable {gpuid a g : Int} {availpart : List Int} {temp : List NodeSize} {z : NodeSize}
  {comb : List (List NodeSize)} {n : Nat}
  {deeper : List NodeSize → List (List NodeSize) → List (List NodeSize)}

/-- A turn pushes the nodes of its size, calls, and pops as many. -/
theorem choiceTurn_eq :
    choiceTurn deeper gpuid (comb, temp) a = (deeper (temp ++ splitAt gpuid a) comb, temp) := by
  have hhalf : a = 100 - a ↔ a = 50 := by omega
  by_cases h1 : a = 0
  · subst h1
    simp [choiceTurn, splitAt]
  · by_cases h2 : 100 - a = 0
    · simp [choiceTurn, splitAt, h1, h2]
    · simp [choiceTurn, splitAt, h1, h2, hhalf]

theorem id_of_mem_splitAt (h : z ∈ splitAt gpuid a) : z.id = gpuid := by
  obtain ⟨hz, -⟩ := List.mem_filter.mp h
  rcases List.mem_cons.mp hz with rfl | hz
  · rfl
  · rw [List.mem_singleton.mp hz]

/-- The sizes of a GPU sum to 100. -/
theorem splitAt_sum : ((splitAt gpuid a).map (·.resourcePntg)).sum = 100 := by
  by_cases h1 : a = 0
  · subst h1
    simp [splitAt]
  · by_cases h2 : 100 - a = 0
    · have ha : a = 100 := by omega
      simp [splitAt, ha]
    · have hboth : (splitAt gpuid a).map (·.resourcePntg) = [a, 100 - a] := by
        simp [splitAt, h1, h2]
      rw [hboth, List.sum_cons, List.sum_cons, List.sum_nil]
      omega

/-- Size and dedup number tell its nodes apart. -/
theorem splitAt_nodup : ((splitAt gpuid a).map fun z => (z.resourcePntg, z.dedupNum)).Nodup := by
  refine List.Nodup.sublist (List.filter_sublist.map _) ?_
  by_cases h : a = 50
  · subst h
    simp
  · have hne : a ≠ 100 - a := by omega
    simp [h, hne]

/-! ## All GPUs -/

/-- The list for a vector of choices, the first of which is that of GPU `n`. -/
def caseOf (availpart : List Int) : Nat → List Nat → List NodeSize
  | gpuid + 1, i :: choices =>
      splitAt (gpuid + 1 : Nat) (availpart.getD i 0) ++ caseOf availpart gpuid choices
  | _, _ => []

open IndexVectors (vectors)

/-- The loop over the sizes of one level. -/
theorem choiceTurns_eq {cases : List (List NodeSize)}
    (hdeeper : ∀ temp comb, deeper temp comb = comb ++ cases.map (temp ++ ·)) (sizes : List Int) :
    sizes.foldl (choiceTurn deeper gpuid) (comb, temp) =
      (comb ++ sizes.flatMap fun a => cases.map fun c => temp ++ (splitAt gpuid a ++ c), temp) := by
  induction sizes generalizing comb with
  | nil => simp
  | cons a sizes ih =>
      rw [List.foldl_cons, choiceTurn_eq, hdeeper, ih, List.flatMap_cons]
      simp only [List.append_assoc]

/-- What a call appends. -/
theorem returnNodeList_eq : returnNodeList availpart n temp comb =
    comb ++ (vectors availpart.length n).map fun v => temp ++ caseOf availpart n v := by
  induction n generalizing temp comb with
  | zero => simp [returnNodeList, vectors, caseOf]
  | succ n ih =>
      have hdeeper : ∀ temp comb, returnNodeList availpart n temp comb =
          comb ++ ((vectors availpart.length n).map (caseOf availpart n)).map (temp ++ ·) := by
        intro temp comb
        rw [ih, List.map_map]
        rfl
      rw [returnNodeList, choiceTurns_eq hdeeper]
      dsimp only
      rw [IndexVectors.flatMap_indices availpart 0, vectors, List.map_flatMap]
      refine congrArg (comb ++ ·) (List.flatMap_congr fun i _ => ?_)
      simp only [List.map_map]
      rfl

theorem id_of_mem_caseOf {v : List Nat} (h : z ∈ caseOf availpart n v) : 1 ≤ z.id ∧ z.id ≤ n := by
  induction n generalizing v with
  | zero => cases v <;> cases h
  | succ n ih =>
      cases v with
      | nil => cases h
      | cons i v =>
          rcases List.mem_append.mp h with hz | hz
          · have hid := id_of_mem_splitAt hz
            omega
          · have hid := ih hz
            omega

/-- The ids of a list go down. -/
theorem caseOf_pairwise {v : List Nat} : (caseOf availpart n v).Pairwise (·.id ≥ ·.id) := by
  induction n generalizing v with
  | zero => cases v <;> exact List.Pairwise.nil
  | succ n ih =>
      cases v with
      | nil => exact List.Pairwise.nil
      | cons i v =>
          refine List.pairwise_append.mpr ⟨?_, ih, fun x hx y hy => ?_⟩
          · have hall : (splitAt (n + 1 : Nat) (availpart.getD i 0)).Pairwise fun _ _ => True :=
              List.pairwise_of_forall fun _ _ => trivial
            refine hall.imp_of_mem fun hx hy _ => ?_
            exact Int.le_of_eq ((id_of_mem_splitAt hy).trans (id_of_mem_splitAt hx).symm)
          · have hid := id_of_mem_splitAt hx
            have hid' := id_of_mem_caseOf hy
            omega

/-- The nodes of one GPU in a list. -/
theorem caseOf_filter {v : List Nat} {g i : Nat} (hg : 1 ≤ g) (hgn : g ≤ n)
    (hi : v[n - g]? = some i) :
    ((caseOf availpart n v).filter fun z : NodeSize => decide (z.id = g)) =
      splitAt g (availpart.getD i 0) := by
  induction n generalizing v with
  | zero => omega
  | succ n ih =>
      cases v with
      | nil => simp at hi
      | cons j v =>
          rw [caseOf, List.filter_append]
          rcases Nat.lt_or_ge n g with hlast | hlow
          · obtain rfl : g = n + 1 := by omega
            rw [Nat.sub_self, List.getElem?_cons_zero, Option.some.injEq] at hi
            subst hi
            have hown : ((splitAt (n + 1 : Nat) (availpart.getD j 0)).filter fun z : NodeSize =>
                decide (z.id = (n + 1 : Nat))) = splitAt (n + 1 : Nat) (availpart.getD j 0) :=
              List.filter_eq_self.mpr fun z hz => decide_eq_true (id_of_mem_splitAt hz)
            have hbelow : ((caseOf availpart n v).filter fun z : NodeSize =>
                decide (z.id = (n + 1 : Nat))) = [] := by
              refine List.filter_eq_nil_iff.mpr fun z hz => ?_
              have hid := id_of_mem_caseOf hz
              simp only [decide_eq_true_eq]
              omega
            rw [hown, hbelow, List.append_nil]
          · have hskip : ((splitAt (n + 1 : Nat) (availpart.getD j 0)).filter fun z : NodeSize =>
                decide (z.id = g)) = [] := by
              refine List.filter_eq_nil_iff.mpr fun z hz => ?_
              have hid := id_of_mem_splitAt hz
              simp only [decide_eq_true_eq]
              omega
            have hpos : n + 1 - g = n - g + 1 := by omega
            rw [hpos, List.getElem?_cons_succ] at hi
            rw [hskip, List.nil_append, ih hlow hi]

/-- **Full search.** `ReturnNodeList` appends one list for each vector of choices,
in lexicographic order. A list goes through the GPUs from the last to the first,
and has for each the two parts of its choice that are not empty: they sum to 100
and differ in size or dedup number. -/
theorem returnNodeList_enumerates (availpart : List Int) (n : Nat) (comb : List (List NodeSize)) :
    ∃ vectors : List (List Nat),
      vectors.Pairwise (· < ·) ∧
      (∀ v, v ∈ vectors ↔ v.length = n ∧ ∀ i ∈ v, i < availpart.length) ∧
      vectors.length = availpart.length ^ n ∧
      returnNodeList availpart n [] comb = comb ++ vectors.map (caseOf availpart n) ∧
      ∀ v ∈ vectors, (caseOf availpart n v).Pairwise (·.id ≥ ·.id) ∧
        (∀ z ∈ caseOf availpart n v, 1 ≤ z.id ∧ z.id ≤ n) ∧
        ∀ g i : Nat, 1 ≤ g → g ≤ n → v[n - g]? = some i →
          ((caseOf availpart n v).filter fun z : NodeSize => decide (z.id = g)) =
            [(⟨g, availpart.getD i 0, 0⟩ : NodeSize),
              ⟨g, 100 - availpart.getD i 0, if availpart.getD i 0 = 50 then 1 else 0⟩].filter
                (fun z => decide (z.resourcePntg ≠ 0)) ∧
          ((((caseOf availpart n v).filter fun z : NodeSize => decide (z.id = g)).map
            (·.resourcePntg)).sum = 100) ∧
          (((caseOf availpart n v).filter fun z : NodeSize => decide (z.id = g)).map
            fun z => (z.resourcePntg, z.dedupNum)).Nodup := by
  refine ⟨vectors availpart.length n, IndexVectors.vectors_sorted _ _,
    fun v => IndexVectors.mem_vectors, IndexVectors.length_vectors _ _, ?_, fun v _ =>
      ⟨caseOf_pairwise, fun z hz => id_of_mem_caseOf hz, fun g i hg hgn hi => ?_⟩⟩
  · rw [returnNodeList_eq]
    simp only [List.nil_append]
  · rw [caseOf_filter hg hgn hi]
    exact ⟨rfl, splitAt_sum, splitAt_nodup⟩

example : returnNodeList [50, 100] 2 [] [] =
    [[⟨2, 50, 0⟩, ⟨2, 50, 1⟩, ⟨1, 50, 0⟩, ⟨1, 50, 1⟩], [⟨2, 50, 0⟩, ⟨2, 50, 1⟩, ⟨1, 100, 0⟩],
      [⟨2, 100, 0⟩, ⟨1, 50, 0⟩, ⟨1, 50, 1⟩], [⟨2, 100, 0⟩, ⟨1, 100, 0⟩]] := by decide

end Glet
