import Glet.Placement
import Glet.Room
import Glet.Slo
import Mathlib.Data.Finset.Prod
import Mathlib.Data.List.Sort

/-!
# The dry run of `checkFit`

`checkFit` keeps a side table of what is left of the nodes of an unmodified
decision; `allocateFit` splits them. Two invariants connect them (`Agree`).
While a gpu-let needs more than half of a GPU, or nothing is split, both take
the same nodes (`Lockstep`). From then on they may choose differently, but
every gpu-let costs one place of its size on either side, so the decision
keeps at least the room of the side table.
-/

namespace Glet

open Recorder LastMin Room

/-! ## The order of addresses -/

/-- The order of the nested loops. -/
def Addr.Before (a b : Addr) : Prop := a.gpu < b.gpu ∨ a.gpu = b.gpu ∧ a.node < b.node

instance : Std.Antisymm Addr.Before where
  antisymm := by
    intro a b h h'
    simp only [Addr.Before] at h h'
    omega

theorem SimState.addrs_before (sim : SimState) : sim.addrs.Pairwise Addr.Before := by
  rw [addrs, List.pairwise_flatMap]
  constructor
  · rintro ⟨g, i⟩ -
    rw [List.pairwise_map]
    exact List.pairwise_lt_range.imp fun h => Or.inr ⟨rfl, h⟩
  · have hidx : (sim.vGPUList.zipIdx.map Prod.snd).Pairwise (· < ·) := by
      rw [List.zipIdx_map_snd]
      exact List.pairwise_lt_range'
    refine (List.pairwise_map.mp hidx).imp ?_
    rintro ⟨g, i⟩ ⟨g', i'⟩ hlt b hb b' hb'
    obtain ⟨j, -, rfl⟩ := List.mem_map.mp hb
    obtain ⟨j', -, rfl⟩ := List.mem_map.mp hb'
    exact Or.inl hlt

/-- Addresses selected in one decision, all of them among those selected in
another one. -/
theorem SimState.filter_sublist {sim sim' : SimState} {p q : Addr → Bool}
    (h : ∀ a ∈ sim'.addrs, p a = true → a ∈ sim.addrs ∧ q a = true) :
    (sim'.addrs.filter p).Sublist (sim.addrs.filter q) := by
  refine List.sublist_of_subperm_of_pairwise (r := Addr.Before) ?_
    (sim'.addrs_before.filter p) (sim.addrs_before.filter q)
  refine List.subperm_of_subset (sim'.addrs_nodup.filter p) fun a ha => ?_
  obtain ⟨hmem, hp⟩ := List.mem_filter.mp ha
  exact List.mem_filter.mpr (h a hmem hp)

/-- The addresses a decision of `k` GPUs can have. -/
def places (k : Nat) : Finset Addr :=
  (Finset.range k ×ˢ Finset.range 2).image fun p => ⟨p.1, p.2⟩

theorem mem_places {k : Nat} {a : Addr} : a ∈ places k ↔ a.gpu < k ∧ a.node < 2 := by
  obtain ⟨i, j⟩ := a
  simp [places]

namespace Scheduler

variable {s : Scheduler} {sim sim' sim'' : SimState} {input best placed : Node} {gpu : GPU}
  {a b : Addr} {x left : Int} {type : DeviceType} {flagged flagged' : List Addr}
  {remain : List (Addr × Int)}

/-! ## The side table -/

/-- What the side table leaves of a node of size `x`. -/
def leftOf (remain : List (Addr × Int)) (a : Addr) (x : Int) : Int := (remain.lookup a).getD x

theorem leftOf_cons : leftOf ((a, left) :: remain) b x = if b = a then left else leftOf remain b x := by
  unfold leftOf
  rw [List.lookup_cons]
  by_cases hba : b = a
  · simp [hba]
  · simp [hba, beq_eq_false_iff_ne.mpr hba]

/-- The vacancies of the dry run. -/
def dryVacancy (s : Scheduler) (sim : SimState) (flagged : List Addr) (remain : List (Addr × Int))
    (type : DeviceType) (a : Addr) : Option Int :=
  if a ∈ flagged then none else (s.vacancy sim type a).map (leftOf remain a)

/-- The side table after a gpu-let of size `part` took from `left`. -/
def leftAfter (s : Scheduler) (left part : Int) : Int :=
  if s.useRepartition && left == 100 then left - part else 0

/-- What the dry run found for a gpu-let. -/
structure DryFit (s : Scheduler) (sim : SimState) (input : Node) (flagged : List Addr)
    (remain : List (Addr × Int)) (a : Addr) (left : Int) (flagged' : List Addr) : Prop where
  found : s.findBestFit sim input flagged' = .ok (some a)
  kept : ∀ b ∈ flagged, b ∈ flagged'
  /-- What it flagged on the way is too small by now. -/
  dropped : ∀ b ∈ flagged', b ∈ flagged ∨
    ∃ x, s.vacancy sim input.type b = some x ∧ input.resourcePntg ≤ x ∧
      leftOf remain b x < input.resourcePntg
  chosen : a ∉ flagged' ∧ ∃ x, s.vacancy sim input.type a = some x ∧ input.resourcePntg ≤ x ∧
    left = leftOf remain a x ∧ input.resourcePntg ≤ left

/-! ## Lockstep -/

/-- Both sides have used the same nodes, and what they cut off is at most half
of a GPU. -/
structure Lockstep (s : Scheduler) (sim sim' : SimState) (used flagged : List Addr)
    (remain : List (Addr × Int)) : Prop where
  same : ∀ type a x, (s.useRepartition = true → 50 < x) →
    (s.vacancy sim' type a = some x ↔ a ∉ used ∧ s.vacancy sim type a = some x)
  flagged_used : ∀ a ∈ flagged, a ∈ used
  left_small : ∀ a ∈ used, ∃ left, remain.lookup a = some left ∧
    (left ≤ 0 ∨ s.useRepartition = true ∧ left ≤ 50)
  fresh : ∀ a, a ∉ used → remain.lookup a = none

/-- In lockstep the dry run takes an unused node. -/
theorem Lockstep.unused {used : List Addr} (hlock : Lockstep s sim sim' used flagged remain)
    (hfit : DryFit s sim input flagged remain a left flagged') (hpos : 0 < input.resourcePntg)
    (hbig : s.useRepartition = true → 50 < input.resourcePntg) :
    a ∉ used ∧ s.vacancy sim input.type a = some left := by
  obtain ⟨-, x, hx, -, hleft, hle⟩ := hfit.chosen
  have hunused : a ∉ used := by
    intro hused
    obtain ⟨l, hl, hsmall⟩ := hlock.left_small a hused
    rw [leftOf, hl, Option.getD_some] at hleft
    rcases hsmall with h0 | ⟨hre, h50⟩
    · omega
    · have := hbig hre
      omega
  rw [leftOf, hlock.fresh a hunused, Option.getD_none] at hleft
  exact ⟨hunused, hleft ▸ hx⟩

/-- In lockstep the dry run flags used nodes only. -/
theorem Lockstep.flagged_after {used : List Addr} (hlock : Lockstep s sim sim' used flagged remain)
    (hfit : DryFit s sim input flagged remain a left flagged') : ∀ b ∈ flagged', b ∈ used := by
  intro b hb
  by_contra hnot
  rcases hfit.dropped b hb with hb | ⟨x, -, hle, hlt⟩
  · exact hnot (hlock.flagged_used b hb)
  · rw [leftOf, hlock.fresh b hnot, Option.getD_none] at hlt
    omega

/-! ## The two searches -/

section Search

variable (hoff : s.useInterference = false) (hfalls : LatencyFalls s)

include hoff hfalls

theorem checkFitOne_ok (hshape : AllGPUs ShapedGPU sim) (hin : MeetsOwnSLO s input)
    (hmem : MemoryPasses s sim input) {fuel : Nat} {remain' : List (Addr × Int)}
    (hsame : ∀ b x, s.vacancy sim input.type b = some x → leftOf remain' b x = leftOf remain b x)
    (h : s.checkFitOne sim input fuel flagged remain' = .ok (some (a, left, flagged'))) :
    DryFit s sim input flagged remain a left flagged' := by
  induction fuel generalizing flagged remain' with
  | zero => cases h
  | succ fuel ih =>
      unfold checkFitOne at h
      obtain ⟨o, hfound, h⟩ := Query.bind_ok.mp h
      cases o with
      | none => cases Query.pure_ok.mp h
      | some c =>
          have hc := lastMin_mem (findBestFit_vacancy hoff hfalls hshape hin hmem hfound).symm
          obtain ⟨hcfree, x, hx, hpx⟩ := suits_iff.mp (List.mem_filter.mp hc).2
          obtain ⟨-, node, -, hnode, -, -, -, hpart⟩ := vacancy_iff.mp hx
          have hleft : leftOf remain' c node.resourcePntg = leftOf remain c x := by
            rw [hpart]
            exact hsame c x hx
          simp only [hnode] at h
          split at h
          case isTrue hlt =>
            -- flagged, and the search runs again
            change leftOf remain' c node.resourcePntg < input.resourcePntg at hlt
            have hfit := ih (fun b y hy => ?_) h
            · refine ⟨hfit.found, fun b hb => hfit.kept b (List.mem_cons_of_mem c hb),
                fun b hb => ?_, hfit.chosen⟩
              rcases hfit.dropped b hb with hb | hdrop
              · rcases List.mem_cons.mp hb with rfl | hb
                · exact Or.inr ⟨x, hx, hpx, hleft ▸ hlt⟩
                · exact Or.inl hb
              · exact Or.inr hdrop
            · rw [leftOf_cons]
              split
              case isTrue hbc =>
                subst hbc
                obtain rfl := Option.some.inj (hx.symm.trans hy)
                exact hleft
              case isFalse => exact hsame b y hy
          case isFalse hge =>
            change ¬ leftOf remain' c node.resourcePntg < input.resourcePntg at hge
            obtain ⟨rfl, rfl, rfl⟩ : c = a ∧ leftOf remain' c node.resourcePntg = left ∧
                flagged = flagged' := by simpa [leftOf] using Query.pure_ok.mp h
            exact ⟨hfound, fun b hb => hb, fun b hb => Or.inl hb, hcfree, x, hx, hpx, hleft,
              not_lt.mp hge⟩

/-- In lockstep both searches end with the same node. -/
theorem Lockstep.choice {used : List Addr} (hlock : Lockstep s sim sim' used flagged remain)
    (hshape : AllGPUs ShapedGPU sim) (hshape' : AllGPUs ShapedGPU sim')
    (hin : MeetsOwnSLO s input) (hmem : MemoryPasses s sim input)
    (hmem' : MemoryPasses s sim' input)
    (hfit : DryFit s sim input flagged remain a left flagged')
    (hbig : s.useRepartition = true → 50 < input.resourcePntg) {r : Option Addr}
    (h : s.findBestFit sim' input [] = .ok r) : r = some a := by
  obtain ⟨hunused, hvac⟩ := hlock.unused hfit hin.pos hbig
  have hlarge : ∀ {x}, input.resourcePntg ≤ x → s.useRepartition = true → 50 < x :=
    fun hle hre => lt_of_lt_of_le (hbig hre) hle
  have hused := hlock.flagged_after hfit
  have hdry := findBestFit_vacancy hoff hfalls hshape hin hmem hfit.found
  rw [findBestFit_vacancy hoff hfalls hshape' hin hmem' h]
  have hrank : ∀ b ∈ sim'.addrs.filter (s.suits sim' input []),
      s.bestFitRank sim' input b = s.bestFitRank sim input b := by
    intro b hb
    obtain ⟨-, x, hx, hle⟩ := suits_iff.mp (List.mem_filter.mp hb).2
    have hx' := ((hlock.same _ b x (hlarge hle)).mp hx).2
    rw [bestFitRank, bestFitRank, (vacancy_addr hx).2, (vacancy_addr hx').2]
  rw [lastMin_congr hrank]
  refine lastMin_of_sublist hdry.symm (sim.addrs_nodup.filter _)
    (SimState.filter_sublist fun b _ hb => ?_) ?_
  · obtain ⟨-, x, hx, hle⟩ := suits_iff.mp hb
    obtain ⟨hb', hx'⟩ := (hlock.same _ b x (hlarge hle)).mp hx
    exact ⟨(vacancy_addr hx').1, suits_iff.mpr ⟨fun hflag => hb' (hused b hflag), x, hx', hle⟩⟩
  · have hle := hfit.chosen.2.choose_spec.2.2.2
    have hreal := (hlock.same _ a left (hlarge hle)).mpr ⟨hunused, hvac⟩
    exact List.mem_filter.mpr ⟨(vacancy_addr hreal).1,
      suits_iff.mpr ⟨List.not_mem_nil, left, hreal, hle⟩⟩

end Search

/-! ## Room -/

theorem leftAfter_eq (hle : input.resourcePntg ≤ left) :
    (if s.leftAfter left input.resourcePntg = 0 then none
      else some (s.leftAfter left input.resourcePntg)) =
      Room.rest 100 s.useRepartition input.resourcePntg left := by
  unfold leftAfter Room.rest
  by_cases hcut : s.useRepartition = true ∧ left = 100
  · have hcond : (s.useRepartition && left == 100) = true := by simp [hcut]
    rw [if_pos hcond]
    by_cases hall : input.resourcePntg = 100
    · rw [if_pos (by omega), if_neg (by omega)]
    · rw [if_neg (by omega), if_pos ⟨hcut.1, hcut.2, by omega⟩, hcut.2]
  · have hcond : ¬ (s.useRepartition && left == 100) = true := by simpa using hcut
    rw [if_neg hcond, if_pos rfl, if_neg fun h => hcut ⟨h.1, h.2.1⟩]

/-- The side table after a gpu-let: its vacancies shrink, and only the node it
took leaves something. -/
theorem DryFit.vacancy_le (hfit : DryFit s sim input flagged remain a left flagged')
    {t : Int} (hb : b ≠ a) : Room.weight 100 t (s.dryVacancy sim
      (if s.leftAfter left input.resourcePntg = 0 then a :: flagged' else flagged')
      ((a, s.leftAfter left input.resourcePntg) :: remain) type b) ≤
    Room.weight 100 t (s.dryVacancy sim flagged remain type b) := by
  by_cases hflag : b ∈ flagged'
  · have hnone : s.dryVacancy sim
        (if s.leftAfter left input.resourcePntg = 0 then a :: flagged' else flagged')
        ((a, s.leftAfter left input.resourcePntg) :: remain) type b = none := by
      refine if_pos ?_
      split
      · exact List.mem_cons_of_mem a hflag
      · exact hflag
    rw [hnone]
    exact Nat.zero_le _
  · have hnot : b ∉ flagged := fun hmem => hflag (hfit.kept b hmem)
    have hnot' : b ∉ (if s.leftAfter left input.resourcePntg = 0 then a :: flagged' else flagged') := by
      split
      · simp [hb, hflag]
      · exact hflag
    have hleft : leftOf ((a, s.leftAfter left input.resourcePntg) :: remain) b = leftOf remain b :=
      funext fun x => leftOf_cons.trans (if_neg hb)
    rw [dryVacancy, if_neg hnot', dryVacancy, if_neg hnot, hleft]

/-- The dry run loses at least what the gpu-let takes. -/
theorem DryFit.room_after (hfit : DryFit s sim input flagged remain a left flagged') {S : Finset Addr}
    (ha : a ∈ S) (t : Int) : Room.room 100 t S (s.dryVacancy sim
      (if s.leftAfter left input.resourcePntg = 0 then a :: flagged' else flagged')
      ((a, s.leftAfter left input.resourcePntg) :: remain) input.type) + Room.weight 100 t (some left) ≤
    Room.room 100 t S (s.dryVacancy sim flagged remain input.type) +
      Room.weight 100 t (Room.rest 100 s.useRepartition input.resourcePntg left) := by
  obtain ⟨hnot, x, hx, -, hleft, hle⟩ := hfit.chosen
  have hbefore : s.dryVacancy sim flagged remain input.type a = some left := by
    rw [dryVacancy, if_neg fun hmem => hnot (hfit.kept a hmem), hx, hleft]
    rfl
  have hafter : s.dryVacancy sim
      (if s.leftAfter left input.resourcePntg = 0 then a :: flagged' else flagged')
      ((a, s.leftAfter left input.resourcePntg) :: remain) input.type a =
        Room.rest 100 s.useRepartition input.resourcePntg left := by
    rw [← leftAfter_eq hle, dryVacancy, hx]
    by_cases hzero : s.leftAfter left input.resourcePntg = 0
    · simp [hzero]
    · simp [hzero, hnot, leftOf_cons]
  rw [← hbefore, ← hafter]
  exact Room.room_le ha fun b _ hb => hfit.vacancy_le hb

/-- Vacancies of other types are not touched. -/
theorem DryFit.room_other (hfit : DryFit s sim input flagged remain a left flagged')
    {S : Finset Addr} (t : Int) (hother : type ≠ input.type) : Room.room 100 t S (s.dryVacancy sim
      (if s.leftAfter left input.resourcePntg = 0 then a :: flagged' else flagged')
      ((a, s.leftAfter left input.resourcePntg) :: remain) type) ≤
    Room.room 100 t S (s.dryVacancy sim flagged remain type) := by
  refine Finset.sum_le_sum fun b _ => ?_
  by_cases hb : b = a
  · obtain ⟨-, x, hx, -⟩ := hfit.chosen
    have hnone : s.vacancy sim type a = none := vacancy_type_ne hx hother
    simp [hb, dryVacancy, hnone]
  · exact hfit.vacancy_le hb

namespace Placement

/-- A placement takes its vacancy and leaves what it cuts off. -/
theorem room_after (h : Placement s sim sim' input a gpu best placed) (hshape : AllGPUs ShapedGPU sim)
    (hshape' : AllGPUs ShapedGPU sim')
    (hcalm : s.neighbourDisturbed gpu.TYPE placed placed.vTaskList ≠ .ok true)
    (hvac : s.vacancy sim gpu.TYPE a = some best.resourcePntg) {S : Finset Addr} (ha : a ∈ S)
    (ha' : a.other ∈ S) (t : Int) :
    Room.room 100 t S (s.vacancy sim gpu.TYPE) +
        Room.weight 100 t (Room.rest 100 s.useRepartition input.resourcePntg best.resourcePntg) ≤
      Room.room 100 t S (s.vacancy sim' gpu.TYPE) + Room.weight 100 t (some best.resourcePntg) := by
  have hempty := h.empty_of_vacancy hvac
  rw [← hvac]
  cases hsplits : s.splits best input with
  | true =>
      have hrest : Room.rest 100 s.useRepartition input.resourcePntg best.resourcePntg =
          s.vacancy sim' gpu.TYPE a.other := by
        rw [h.vacancy_rest hshape hshape' hcalm hsplits]
        simp only [splits, Bool.and_eq_true, decide_eq_true_eq] at hsplits
        exact if_pos ⟨hsplits.2, hsplits.1.1, hsplits.1.2⟩
      rw [hrest]
      refine room_move ha ha' (vacancy_none (h.other_none hshape hsplits).1) fun b _ hb hb' => ?_
      rw [h.vacancy_keep hshape hshape' hempty hcalm hb fun _ => hb']
  | false =>
      have hrest : Room.rest 100 s.useRepartition input.resourcePntg best.resourcePntg = none := by
        refine if_neg fun hcut => ?_
        simp [splits, hcut.1, hcut.2.1, hcut.2.2] at hsplits
      have htaken : s.vacancy sim' gpu.TYPE a = none := h.vacancy_taken hshape
      rw [hrest, ← htaken]
      refine Room.room_le ha fun b _ hb => ?_
      rw [h.vacancy_keep hshape hshape' hempty hcalm hb (by simp [hsplits])]

theorem room_other (h : Placement s sim sim' input a gpu best placed)
    (hshape : AllGPUs ShapedGPU sim) (hshape' : AllGPUs ShapedGPU sim')
    (hcalm : s.neighbourDisturbed gpu.TYPE placed placed.vTaskList ≠ .ok true)
    (hvac : s.vacancy sim gpu.TYPE a = some best.resourcePntg) {S : Finset Addr} (t : Int)
    (hother : type ≠ gpu.TYPE) :
    Room.room 100 t S (s.vacancy sim type) ≤ Room.room 100 t S (s.vacancy sim' type) := by
  refine Finset.sum_le_sum fun b _ => ?_
  by_cases hb : b = a
  · rw [hb, vacancy_type_ne hvac hother]
    exact Nat.zero_le _
  · by_cases hrest : s.splits best input = true ∧ b = a.other
    · rw [hrest.2, vacancy_none (h.other_none hshape hrest.1).1]
      exact Nat.zero_le _
    · rw [h.vacancy_keep hshape hshape' (h.empty_of_vacancy hvac) hcalm hb
        fun hs hc => hrest ⟨hs, hc⟩]

end Placement

/-! ## Agreement -/

/-- A placement in lockstep. -/
theorem Lockstep.step {used : List Addr} (hlock : Lockstep s sim sim' used flagged remain)
    (hfit : DryFit s sim input flagged remain a left flagged')
    (h : Placement s sim' sim'' input a gpu best placed) (hshape' : AllGPUs ShapedGPU sim')
    (hshape'' : AllGPUs ShapedGPU sim'') (hempty : best.vTaskList = [])
    (hcalm : s.neighbourDisturbed gpu.TYPE placed placed.vTaskList ≠ .ok true)
    (hbig : s.useRepartition = true → 50 < input.resourcePntg) :
    Lockstep s sim sim'' (a :: used)
      (if s.leftAfter left input.resourcePntg = 0 then a :: flagged' else flagged')
      ((a, s.leftAfter left input.resourcePntg) :: remain) where
  same := by
    intro type b x hx
    by_cases hb : b = a
    · rw [hb, h.vacancy_taken hshape']
      simp
    · have hmem : b ∉ a :: used ↔ b ∉ used := by simp [hb]
      rw [hmem, ← hlock.same type b x hx]
      by_cases hrest : s.splits best input = true ∧ b = a.other
      · -- the rest is at most half of the GPU
        obtain ⟨hnone, hne⟩ := h.other_none hshape' hrest.1
        rw [hrest.2, vacancy_none hnone]
        simp only [reduceCtorEq, iff_false]
        intro hvac
        obtain ⟨-, node, -, hnode, -, -, -, hpart⟩ := vacancy_iff.mp hvac
        rw [h.node? hshape', if_neg hne, if_pos ⟨hrest.1, rfl⟩] at hnode
        obtain rfl := Option.some.inj hnode
        have hcut := hrest.1
        simp only [splits, Bool.and_eq_true, decide_eq_true_eq] at hcut
        have h1 := hbig hcut.2
        have h2 := hx hcut.2
        simp only [restNode, makeEmptyNode] at hpart
        omega
      · rw [h.vacancy_keep hshape' hshape'' hempty hcalm hb fun hs hc => hrest ⟨hs, hc⟩]
  flagged_used := by
    intro b hb
    have hused : ∀ c ∈ flagged', c ∈ a :: used :=
      fun c hc => List.mem_cons_of_mem a (hlock.flagged_after hfit c hc)
    split at hb
    · rcases List.mem_cons.mp hb with rfl | hb
      · exact List.mem_cons_self ..
      · exact hused b hb
    · exact hused b hb
  left_small := by
    intro b hb
    by_cases hba : b = a
    · refine ⟨s.leftAfter left input.resourcePntg, by simp [hba], ?_⟩
      unfold leftAfter
      split
      case isTrue hcut =>
        simp only [Bool.and_eq_true, beq_iff_eq] at hcut
        have := hbig hcut.1
        exact Or.inr ⟨hcut.1, by omega⟩
      case isFalse => exact Or.inl le_rfl
    · rw [List.lookup_cons, beq_eq_false_iff_ne.mpr hba]
      exact hlock.left_small b ((List.mem_cons.mp hb).resolve_left hba)
  fresh := by
    intro b hb
    simp only [List.mem_cons, not_or] at hb
    rw [List.lookup_cons, beq_eq_false_iff_ne.mpr hb.1]
    exact hlock.fresh b hb.2

/-- The dry run on `sim` and a decision that `allocateFit` made of it, before
gpu-lets of at most `part`. -/
structure Agree (s : Scheduler) (sim sim' : SimState) (part : Int) (flagged : List Addr)
    (remain : List (Addr × Int)) : Prop where
  shaped : AllGPUs ShapedGPU sim'
  length_eq : sim'.vGPUList.length = sim.vGPUList.length
  busy : ∀ a n, sim.node? a = some n → n.vTaskList ≠ [] →
    ∃ n', sim'.node? a = some n' ∧ n'.vTaskList ≠ []
  lock : (s.useRepartition = true → 50 < part) → ∃ used, Lockstep s sim sim' used flagged remain
  room_le : ∀ type t, t ≤ part →
    Room.room 100 t (places sim.vGPUList.length) (s.dryVacancy sim flagged remain type) ≤
      Room.room 100 t (places sim.vGPUList.length) (s.vacancy sim' type)

theorem Agree.start (hshape : AllGPUs ShapedGPU sim) (part : Int) : Agree s sim sim part [] [] where
  shaped := hshape
  length_eq := rfl
  busy := fun _ n hn hbusy => ⟨n, hn, hbusy⟩
  lock := fun _ => ⟨[], by simp, by simp, by simp, by simp⟩
  room_le := by
    intro type t _
    refine Finset.sum_le_sum fun a _ => ?_
    have hleft : leftOf [] a = id := rfl
    simp [dryVacancy, hleft]

/-- No gpu-let that was placed since `sim` is rejected by the neighbour check,
and no memory check fails. -/
structure Quiet (s : Scheduler) (estimate : List Node) (sim sim' : SimState) : Prop where
  memory : ∀ input ∈ estimate, MemoryPasses s sim' input
  calm : ∀ a n gpu, sim'.node? a = some n → n.vTaskList ≠ [] →
    (∀ n₀, sim.node? a = some n₀ → n₀.vTaskList = []) → sim'.vGPUList[a.gpu]? = some gpu →
      s.neighbourDisturbed gpu.TYPE n n.vTaskList ≠ .ok true

theorem vacancy_places {k : Nat} (hshape : AllGPUs ShapedGPU sim) (hk : sim.vGPUList.length = k)
    (h : s.vacancy sim type a = some x) : a ∈ places k ∧ a.other ∈ places k ∧ x ≤ 100 := by
  obtain ⟨gpu, node, hgpu, hnode, -, -, -, rfl⟩ := vacancy_iff.mp h
  have hlt := (List.getElem?_eq_some_iff.mp hgpu).1
  obtain ⟨g, hg, hj⟩ := SimState.gpu_of_node? hnode
  have hsize := (hshape _ g hg).split.size_mem (List.mem_map_of_mem (List.mem_of_getElem? hj))
  exact ⟨mem_places.mpr ⟨hk ▸ hlt, hshape.node_lt hnode⟩,
    mem_places.mpr ⟨hk ▸ hlt, by simp only [Addr.other]; omega⟩, hsize.2⟩

section Agreement

variable (hoff : s.useInterference = false) (hfalls : LatencyFalls s)
  (hshape : AllGPUs ShapedGPU sim) (hin : MeetsOwnSLO s input) (hmem : MemoryPasses s sim input)

include hoff hfalls hshape hin hmem

/-- A gpu-let that the dry run places is placed. -/
theorem Agree.found {part : Int} (hagree : Agree s sim sim' part flagged remain)
    (hpart : input.resourcePntg ≤ part)
    (hfit : DryFit s sim input flagged remain a left flagged')
    (hmem' : MemoryPasses s sim' input) : s.findBestFit sim' input [] ≠ .ok none := by
  intro hnone
  by_cases hbig : s.useRepartition = true → 50 < input.resourcePntg
  · obtain ⟨used, hlock⟩ := hagree.lock fun hre => lt_of_lt_of_le (hbig hre) hpart
    have := hlock.choice hoff hfalls hshape hagree.shaped hin hmem hmem' hfit hbig hnone
    cases this
  · -- there is room in the dry run, so there is room in the decision
    obtain ⟨hnot, x, hx, -, hleft, hle⟩ := hfit.chosen
    have hdry : s.dryVacancy sim flagged remain input.type a = some left := by
      rw [dryVacancy, if_neg fun hm => hnot (hfit.kept a hm), hx, hleft]
      rfl
    have hroom := lt_of_lt_of_le (room_pos (vacancy_places hshape rfl hx).1 hdry hle)
      (hagree.room_le input.type _ hpart)
    simp only [Classical.not_imp, not_lt] at hbig
    obtain ⟨b, -, y, hy, hyle⟩ := exists_of_room_pos (hbig.2.trans (by decide)) hroom
    have hempty := findBestFit_vacancy hoff hfalls hagree.shaped hin hmem' hnone
    rw [eq_comm, lastMin_eq_none, List.filter_eq_nil_iff] at hempty
    exact hempty b (vacancy_addr hy).1 (suits_iff.mpr ⟨List.not_mem_nil, y, hy, hyle⟩)

/-- Both sides place a gpu-let. -/
theorem Agree.step {part : Int} {estimate : List Node}
    (hagree : Agree s sim sim' part flagged remain) (hpart : input.resourcePntg ≤ part)
    (hfit : DryFit s sim input flagged remain a left flagged')
    (hmem' : MemoryPasses s sim' input) (hfound : s.findBestFit sim' input [] = .ok (some b))
    (h : Placement s sim' sim'' input b gpu best placed) (hquiet : Quiet s estimate sim sim'') :
    Agree s sim sim'' input.resourcePntg
      (if s.leftAfter left input.resourcePntg = 0 then a :: flagged' else flagged')
      ((a, s.leftAfter left input.resourcePntg) :: remain) := by
  have hshape' := hagree.shaped
  have hshape'' := h.shaped hshape' hin.pos
  have hchosen := findBestFit_vacancy hoff hfalls hshape' hin hmem' hfound
  obtain ⟨-, y, hy, hyle⟩ := suits_iff.mp (List.mem_filter.mp (lastMin_mem hchosen.symm)).2
  obtain ⟨gpu', node, hgpu', hnode, htype, hempty, -, hpart'⟩ := vacancy_iff.mp hy
  obtain rfl := Option.some.inj (h.gpu_eq.symm.trans hgpu')
  obtain rfl := Option.some.inj (h.best_at.symm.trans hnode)
  subst hpart'
  rw [← htype] at hy
  have hplaced : sim''.node? b = some placed := by rw [h.node? hshape', if_pos rfl]
  have hcalm : s.neighbourDisturbed gpu.TYPE placed placed.vTaskList ≠ .ok true := by
    obtain ⟨gpu'', hgpu'', htype''⟩ := h.gpu_after
    obtain ⟨t, ht⟩ := h.busy
    rw [← htype'']
    refine hquiet.calm b placed gpu'' hplaced (by simp [ht]) (fun n₀ hn₀ => ?_) hgpu''
    by_contra hbusy
    obtain ⟨n', hn', hbusy'⟩ := hagree.busy b n₀ hn₀ hbusy
    obtain rfl := Option.some.inj (hn'.symm.trans h.best_at)
    exact hbusy' hempty
  obtain ⟨-, x, hx, -, hleft, hle⟩ := hfit.chosen
  obtain ⟨ha, -, -⟩ := vacancy_places hshape rfl hx
  obtain ⟨hb, hb', -⟩ := vacancy_places hshape' hagree.length_eq hy
  refine ⟨hshape'', h.length_eq.trans hagree.length_eq, fun c n hn hbusy => ?_, fun hbig => ?_,
    fun type t ht => ?_⟩
  · obtain ⟨n', hn', hbusy'⟩ := hagree.busy c n hn hbusy
    refine ⟨n', ?_, hbusy'⟩
    rw [h.node? hshape', if_neg, if_neg, hn']
    · rintro ⟨hsplits, rfl⟩
      rw [(h.other_none hshape' hsplits).1] at hn'
      cases hn'
    · rintro rfl
      obtain rfl := Option.some.inj (hn'.symm.trans h.best_at)
      exact hbusy' hempty
  · obtain ⟨used, hlock⟩ := hagree.lock fun hre => lt_of_lt_of_le (hbig hre) hpart
    obtain rfl : b = a := Option.some.inj
      (hlock.choice hoff hfalls hshape hshape' hin hmem hmem' hfit hbig hfound)
    exact ⟨_, hlock.step hfit h hshape' hshape'' hempty hcalm hbig⟩
  · have hbefore := hagree.room_le type t (ht.trans hpart)
    by_cases htype' : type = input.type
    · subst htype'
      have hdry := hfit.room_after ha t
      have hreal := h.room_after hshape' hshape'' hcalm hy hb hb' t
      rw [htype] at hreal
      by_cases hbig : s.useRepartition = true → 50 < input.resourcePntg
      · obtain ⟨used, hlock⟩ := hagree.lock fun hre => lt_of_lt_of_le (hbig hre) hpart
        obtain rfl : b = a := Option.some.inj
          (hlock.choice hoff hfalls hshape hshape' hin hmem hmem' hfit hbig hfound)
        obtain ⟨hunused, hvac⟩ := hlock.unused hfit hin.pos hbig
        have hsame := (hlock.same input.type b left fun hre => lt_of_lt_of_le (hbig hre) hle).mpr
          ⟨hunused, hvac⟩
        rw [htype, hsame] at hy
        obtain rfl := Option.some.inj hy
        omega
      · simp only [Classical.not_imp, not_lt] at hbig
        have hhalf : input.resourcePntg + input.resourcePntg ≤ 100 := by omega
        have h1 := weight_take hbig.1 hin.pos ht hhalf hle
        have h2 := weight_take hbig.1 hin.pos ht hhalf hyle
        omega
    · exact (hfit.room_other t htype').trans (hbefore.trans
        (h.room_other hshape' hshape'' hcalm hy t (htype ▸ htype')))

end Agreement

/-! ## Whole estimates -/

/-- Turns of `allocateFit` that succeed. -/
inductive FitRun (s : Scheduler) : Rec Core Action → List Node → Rec Core Action → Prop
  | nil (r : Rec Core Action) : FitRun s r [] r
  | cons {r r₁ r' : Rec Core Action} {input : Node} {inputs : List Node} :
      s.allocateFitOne input r = .ok (.success, r₁) → FitRun s r₁ inputs r' →
        FitRun s r (input :: inputs) r'

variable {r r' : Rec Core Action} {pre post estimate rest : List Node}

/-- `allocateFit` gets through them to the next gpu-let. -/
theorem FitRun.allocateFit (h : FitRun s r pre r') (post : List Node) :
    s.allocateFit (pre ++ post) r = s.allocateFit post r' := by
  induction h with
  | nil => rfl
  | cons hone _ ih =>
      rw [← ih, List.cons_append, Scheduler.allocateFit]
      change Prog.bind _ _ _ = _
      rw [Prog.bind, hone]

theorem checkFitLoop_cons (h : s.checkFitLoop sim (input :: rest) flagged remain = .ok .success) :
    ∃ a left flagged', s.checkFitOne sim input (sim.addrs.length + 1) flagged remain =
        .ok (some (a, left, flagged')) ∧
      s.checkFitLoop sim rest
        (if s.leftAfter left input.resourcePntg = 0 then a :: flagged' else flagged')
        ((a, s.leftAfter left input.resourcePntg) :: remain) = .ok .success := by
  obtain ⟨o, hone, h⟩ := Query.bind_ok.mp h
  rcases o with _ | ⟨a, left, flagged'⟩
  · cases Query.pure_ok.mp h
  · exact ⟨a, left, flagged', hone, h⟩

/-- From agreement on, `allocateFit` finds a node for every gpu-let. -/
theorem Agree.run {part : Int} (hoff : s.useInterference = false) (hfalls : LatencyFalls s)
    (hshape : AllGPUs ShapedGPU sim) (hagree : Agree s sim r.cur.sim part flagged remain)
    (hsorted : rest.Pairwise fun a b => b.resourcePntg ≤ a.resourcePntg)
    (hpart : ∀ input ∈ rest, input.resourcePntg ≤ part) (hsub : ∀ input ∈ rest, input ∈ estimate)
    (hin : ∀ input ∈ estimate, MeetsOwnSLO s input)
    (hmem : ∀ input ∈ estimate, MemoryPasses s sim input)
    (hquiet : ∀ pre input post r', rest = pre ++ input :: post → FitRun s r pre r' →
      Quiet s estimate sim r'.cur.sim)
    (hcheck : s.checkFitLoop sim rest flagged remain = .ok .success)
    (hrest : rest = pre ++ input :: post) (hrun : FitRun s r pre r') :
    s.findBestFit r'.cur.sim input [] ≠ .ok none := by
  induction hrun generalizing rest part flagged remain with
  | nil r =>
      subst hrest
      have hmem_input := hsub input (List.mem_cons_self ..)
      obtain ⟨a, left, flagged', hone, -⟩ := checkFitLoop_cons hcheck
      have hfit := checkFitOne_ok hoff hfalls hshape (hin _ hmem_input) (hmem _ hmem_input)
        (fun _ _ _ => rfl) hone
      exact hagree.found hoff hfalls hshape (hin _ hmem_input) (hmem _ hmem_input)
        (hpart _ (List.mem_cons_self ..)) hfit
        ((hquiet [] input post r rfl (.nil r)).memory _ hmem_input)
  | @cons r r₁ r' first inputs hone hrun ih =>
      subst hrest
      have hfirst := hsub first (List.mem_cons_self ..)
      obtain ⟨a, left, flagged', hdry, hloop⟩ := checkFitLoop_cons hcheck
      have hfit := checkFitOne_ok hoff hfalls hshape (hin _ hfirst) (hmem _ hfirst)
        (fun _ _ _ => rfl) hdry
      obtain ⟨b, gpu, best, placed, hfound, hplace⟩ :=
        allocateFitOne_placement hoff hagree.shaped hone
      have hnow : Quiet s estimate sim r.cur.sim := by
        rcases inputs with _ | ⟨second, inputs⟩
        · exact hquiet [] first (input :: post) r rfl (.nil r)
        · exact hquiet [] first (second :: inputs ++ input :: post) r rfl (.nil r)
      have hafter : Quiet s estimate sim r₁.cur.sim := by
        rcases inputs with _ | ⟨second, inputs⟩
        · exact hquiet [first] input post r₁ rfl (.cons hone (.nil r₁))
        · exact hquiet [first] second (inputs ++ input :: post) r₁ rfl (.cons hone (.nil r₁))
      have hnext := hagree.step hoff hfalls hshape (hin _ hfirst) (hmem _ hfirst)
        (hpart _ (List.mem_cons_self ..)) hfit (hnow.memory _ hfirst) hfound hplace hafter
      rw [List.cons_append, List.pairwise_cons] at hsorted
      refine ih hnext hsorted.2 hsorted.1 (fun e he => hsub e (List.mem_cons_of_mem _ he))
        (fun pre' input' post' r'' hsplit hrun' => ?_) hloop rfl
      exact hquiet (first :: pre') input' post' r'' (by rw [List.cons_append, List.cons_append, hsplit])
        (.cons hone hrun')

/-- Where `checkFit` says that an estimate fits, no `findBestFit` of
`allocateFit` fails, unless a gpu-let placed before makes the neighbour check
reject a node or a memory check fails. -/
theorem checkFit_agrees (hoff : s.useInterference = false) (hfalls : LatencyFalls s)
    (hshape : AllGPUs ShapedGPU r.cur.sim)
    (hsorted : estimate.Pairwise fun a b => b.resourcePntg ≤ a.resourcePntg)
    (hin : ∀ input ∈ estimate, MeetsOwnSLO s input)
    (hquiet : ∀ pre input post r', estimate = pre ++ input :: post → FitRun s r pre r' →
      Quiet s estimate r.cur.sim r'.cur.sim)
    (hcheck : s.checkFit estimate r.cur.sim = .ok .success) :
    ∀ pre input post r', estimate = pre ++ input :: post → FitRun s r pre r' →
      s.allocateFit estimate r = s.allocateFit (input :: post) r' ∧
        s.findBestFit r'.cur.sim input [] ≠ .ok none := by
  intro pre input post r' hsplit hrun
  refine ⟨by rw [hsplit, hrun.allocateFit], ?_⟩
  obtain ⟨first, others, hfirst⟩ : ∃ first others, estimate = first :: others := by
    cases estimate with
    | nil => cases pre <;> cases hsplit
    | cons first others => exact ⟨first, others, rfl⟩
  have hle : ∀ e ∈ estimate, e.resourcePntg ≤ first.resourcePntg := by
    intro e he
    rw [hfirst] at hsorted he
    rcases List.mem_cons.mp he with rfl | he
    · exact le_rfl
    · exact (List.pairwise_cons.mp hsorted).1 e he
  have hmem := (hquiet [] first others r hfirst (.nil r)).memory
  exact (Agree.start hshape first.resourcePntg).run hoff hfalls hshape hsorted hle (fun _ h => h) hin
    hmem hquiet hcheck hsplit hrun

/-- A scheduler without memory checks for one GPU; every batch takes 10 ms. -/
def unchecked : Scheduler :=
  { plain (profile [50, 100] fun _ _ => 10) [50, 100] 1 with checkMem := false }

theorem unchecked_solo {id batch part : Int} {v : ℚ} :
    unchecked.soloLatency type id batch part = .ok v ↔ (∃ name, getModelName id = .ok name) ∧
      1 ≤ batch ∧ batch ≤ maxBatch ∧ part ∈ ([50, 100] : List Int) ∧ v = 10 := by
  change (plain (profile [50, 100] fun _ _ => 10) [50, 100] 1).soloLatency type id batch part =
    .ok v ↔ _
  exact plain_solo

theorem unchecked_falls : LatencyFalls unchecked where
  le := by
    intro device id batch p q v w _ hv hw
    obtain ⟨-, -, -, -, rfl⟩ := unchecked_solo.mp hv
    obtain ⟨-, -, -, -, rfl⟩ := unchecked_solo.mp hw
    exact le_rfl

theorem unchecked_shaped : AllGPUs ShapedGPU unchecked.setUp :=
  fun _ _ hg => (Initiated.new (Or.inr (setUp_fresh rfl)) hg).shaped

/-- Half of a GPU for 40 requests of model 0. -/
def halfLet (duty : ℚ) : Node :=
  { makeEmptyNode 0 50 "gpu" with
    vTaskList := [createNewTask 0 40 100 1 40], dutyCycle := some duty, occupancy := 10 / duty }

theorem halfLet_slo {duty : ℚ} (h : 10 + duty ≤ 100) : MeetsOwnSLO unchecked (halfLet duty) := by
  refine ⟨by simp [halfLet, makeEmptyNode], createNewTask 0 40 100 1 40, 10, rfl, ?_, ?_⟩
  · refine unchecked_solo.mpr ⟨⟨.lenet1, rfl⟩, ?_⟩
    simp [createNewTask, halfLet, makeEmptyNode, maxBatch]
  · simpa [dutyOf, halfLet, createNewTask] using h

/-- `allocateFit` on an empty GPU. -/
def fitting80 : Rec Core Action :=
  ⟨{ Core.init unchecked.setUp with task := request 0 80 100 }, []⟩

/-- Two halves with a duty cycle of 30 ms share the GPU. -/
theorem checkFit_agrees_at :
    ∃ r', FitRun unchecked fitting80 [halfLet 30] r' ∧
      unchecked.allocateFit [halfLet 30, halfLet 30] fitting80 =
        unchecked.allocateFit [halfLet 30] r' ∧
      unchecked.findBestFit r'.cur.sim (halfLet 30) [] ≠ .ok none := by
  obtain ⟨⟨ret, r₁⟩, hone, hcalm⟩ := Query.of_returns
    (q := unchecked.allocateFitOne (halfLet 30) fitting80)
    (p := fun x => decide (x.1 = .success) && x.2.cur.sim.vGPUList.all fun g =>
      g.vNodeList.all fun n =>
        !(unchecked.neighbourDisturbed g.TYPE n n.vTaskList).returns id) (by decide +kernel)
  simp only [Bool.and_eq_true, decide_eq_true_eq] at hcalm
  obtain ⟨rfl, hcalm⟩ := hcalm
  have hrun : FitRun unchecked fitting80 [halfLet 30] r₁ := .cons hone (.nil r₁)
  refine ⟨r₁, hrun, checkFit_agrees rfl unchecked_falls unchecked_shaped (by simp) ?_ ?_
    (by decide +kernel) [halfLet 30] (halfLet 30) [] r₁ rfl hrun⟩
  · intro e he
    obtain rfl : e = halfLet 30 := by simpa using he
    exact halfLet_slo (by norm_num)
  · intro pre input post r' hsplit hrun'
    refine ⟨fun _ _ hc => absurd hc (by decide), fun a n gpu hn hbusy hfree hgpu => ?_⟩
    cases hrun' with
    | nil => exact absurd (hfree n hn) hbusy
    | @cons _ r₂ _ first inputs hone' hrest =>
        obtain ⟨rfl, hsplit⟩ := List.cons.inj hsplit
        rcases inputs with _ | ⟨second, inputs⟩
        · obtain ⟨-, rfl⟩ := Prod.mk.inj (Except.ok.inj (hone.symm.trans hone'))
          cases hrest
          obtain ⟨g, hg, hj⟩ := SimState.gpu_of_node? hn
          obtain rfl := Option.some.inj (hgpu.symm.trans hg)
          have hthis := List.all_eq_true.mp
            (List.all_eq_true.mp hcalm gpu (List.mem_of_getElem? hg)) n (List.mem_of_getElem? hj)
          exact returns_false_iff.mp (by simpa using hthis)
        · simp at hsplit

/-- With a duty cycle of 90 ms the first half meets its SLO, but not at twice
its duty cycle, and the neighbour check rejects the second. -/
theorem checkFit_disagrees :
    unchecked.usePart = true ∧ unchecked.useInterference = false ∧ unchecked.checkMem = false ∧
      LatencyFalls unchecked ∧ AllGPUs ShapedGPU fitting80.cur.sim ∧
      (∀ input ∈ [halfLet 90, halfLet 90], MeetsOwnSLO unchecked input) ∧
      unchecked.checkFit [halfLet 90, halfLet 90] fitting80.cur.sim = .ok .success ∧
      ∃ r', FitRun unchecked fitting80 [halfLet 90] r' ∧
        unchecked.allocateFit [halfLet 90, halfLet 90] fitting80 =
          unchecked.allocateFit [halfLet 90] r' ∧
        unchecked.findBestFit r'.cur.sim (halfLet 90) [] = .ok none := by
  obtain ⟨⟨ret, r₁⟩, hone, hnone⟩ := Query.of_returns
    (q := unchecked.allocateFitOne (halfLet 90) fitting80)
    (p := fun x => decide (x.1 = .success) &&
      decide (unchecked.findBestFit x.2.cur.sim (halfLet 90) [] = .ok none)) (by decide +kernel)
  simp only [Bool.and_eq_true, decide_eq_true_eq] at hnone
  obtain ⟨rfl, hnone⟩ := hnone
  have hrun : FitRun unchecked fitting80 [halfLet 90] r₁ := .cons hone (.nil r₁)
  refine ⟨rfl, rfl, rfl, unchecked_falls, unchecked_shaped, fun e he => ?_, by decide +kernel, r₁,
    hrun, hrun.allocateFit [halfLet 90], hnone⟩
  obtain rfl : e = halfLet 90 := by simpa using he
  exact halfLet_slo (by norm_num)

end Scheduler

end Glet
