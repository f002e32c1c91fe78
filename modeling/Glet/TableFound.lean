import Glet.Effects
import Glet.Lookups

/-!
# The saturation table is found

What the routines that look the saturation table up need for an answer:
`estimateTrp` and `getMaxReturnPart` a type of `_typeToNumofTypeTable`,
`mergeResidue` residue nodes with available parts. `getMinPartSum` also asks
for the part that its tie break leaves over, which is not a part at all when
the part with the best return is the whole GPU. `Decided` says when the
routine settles on a listed type without asking for it.

A run keeps the types and parts of its nodes listed (`ListedGPU`), but for the
part 0 of an estimate without a batch size. `satTableFound` puts this together
for the calls of a run.
-/

namespace Glet

open Recorder

namespace Scheduler

variable {s : Scheduler} {table : SatTable} {task : Task} {id SLO rate part : Int}
  {type : DeviceType}

/-! ## Lookups that are answered -/

section Answered

theorem getMaxSaturateTrp_found (hrows : Rows s table) (htype : type ∈ s.types)
    (hpart : part ∈ s.availParts) :
    Avoids Fault.notFound (getMaxSaturateTrp table id part type) := by
  unfold getMaxSaturateTrp
  split
  case h_1 => infer_instance
  case h_2 entries hentries =>
    split
    case h_1 hnone =>
      obtain ⟨e, he, rfl, rfl⟩ := hrows id entries hentries type htype part hpart
      have hnil := List.getLast?_eq_none_iff.mp hnone
      have hmem : e ∈ entries.filter fun e' => decide (e.part = e'.part ∧ e.type = e'.type) :=
        List.mem_filter.mpr ⟨he, by simp⟩
      rw [hnil] at hmem
      cases hmem
    case h_2 => infer_instance

theorem satTrps_found (hrows : Rows s table) (htype : type ∈ s.types) {parts : List Int}
    (hparts : ∀ p ∈ parts, p ∈ s.availParts) : Avoids Fault.notFound (satTrps table id type parts) := by
  induction parts with
  | nil => exact .ok _
  | cons p parts ih =>
      have hrest := ih fun q hq => hparts q (List.mem_cons_of_mem _ hq)
      have hfirst : Avoids Fault.notFound (getMaxSaturateTrp table id p type) :=
        getMaxSaturateTrp_found hrows htype (hparts p (List.mem_cons_self ..))
      unfold satTrps
      infer_instance

instance maxReturnLoop_found {pairs : List ((Int × ℚ) × (Int × ℚ))} {best : ℚ} :
    Avoids Fault.notFound (maxReturnLoop pairs best part) := by
  induction pairs generalizing best part with
  | nil => exact .ok _
  | cons pair pairs ih =>
      obtain ⟨⟨lowPart, lowTrp⟩, highPart, highTrp⟩ := pair
      unfold maxReturnLoop
      infer_instance

theorem getMaxReturnPart_found (hrows : Rows s table) (htype : type ∈ s.types) :
    Avoids Fault.notFound (s.getMaxReturnPart table id type) := by
  unfold getMaxReturnPart
  split
  · infer_instance
  · infer_instance
  · have htrps : Avoids Fault.notFound (satTrps table id type s.availParts) :=
      satTrps_found hrows htype fun p hp => hp
    infer_instance

instance minPartLoop_found {maxBatch localMaxPart front prevPart : Int} {parts : List Int} :
    Avoids Fault.notFound
      (s.minPartLoop type id SLO maxBatch rate localMaxPart front parts prevPart) := by
  induction parts generalizing prevPart with
  | nil => exact .ok _
  | cons p parts ih =>
      unfold minPartLoop
      infer_instance

instance getMinPart_found {node : Node} :
    Avoids Fault.notFound (s.getMinPart type id SLO node rate) := by
  unfold getMinPart
  split
  · infer_instance
  · dsimp only
    infer_instance

instance residueNode_found {size : Nat} :
    Avoids Fault.notFound (s.residueNode type id SLO rate part size) := by
  unfold residueNode
  dsimp only
  infer_instance

theorem saturatedNode_found {size : Nat} (hrows : Rows s table) (htype : type ∈ s.types)
    (hpart : part ∈ s.availParts) :
    Avoids Fault.notFound (s.saturatedNode table type id SLO rate part size) := by
  have hlookup : Avoids Fault.notFound (getMaxSaturateTrp table id part type) :=
    getMaxSaturateTrp_found hrows htype hpart
  unfold saturatedNode
  infer_instance

theorem selfTuningPart_found (hrows : Rows s table) (htype : type ∈ s.types) {parts : List Int}
    (hparts : ∀ p ∈ parts, p ∈ s.availParts) {best : Int × Int × Int} :
    Avoids Fault.notFound (selfTuningPart table id rate type parts best) := by
  induction parts generalizing best with
  | nil => exact .ok _
  | cons p parts ih =>
      have hrest : ∀ best, Avoids Fault.notFound (selfTuningPart table id rate type parts best) :=
        fun _ => ih fun q hq => hparts q (List.mem_cons_of_mem _ hq)
      have hfirst : Avoids Fault.notFound (getMaxSaturateTrp table id p type) :=
        getMaxSaturateTrp_found hrows htype (hparts p (List.mem_cons_self ..))
      unfold selfTuningPart
      infer_instance

theorem getEstimateTrpST_found (hrows : Rows s table) (htype : type ∈ s.types) {fuel : Nat}
    {out : List Node} :
    Avoids Fault.notFound (s.getEstimateTrpST table type id SLO fuel rate out) := by
  induction fuel generalizing rate out with
  | zero =>
      unfold getEstimateTrpST
      infer_instance
  | succ fuel ih =>
      have hpart : ∀ rate, Avoids Fault.notFound (selfTuningPart table id rate type
          (s.stdSort.sort (fun a b => decide (a < b)) s.availParts) (0, 0, 0)) := fun _ =>
        selfTuningPart_found hrows htype fun p hp => (s.stdSort.perm _ _).mem_iff.mp hp
      have hrest : ∀ rate out,
          Avoids Fault.notFound (s.getEstimateTrpST table type id SLO fuel rate out) := fun _ _ => ih
      unfold getEstimateTrpST
      split
      · infer_instance
      · dsimp only
        infer_instance

theorem estimate_found (hrows : Rows s table) (htype : type ∈ s.types) :
    Avoids Fault.notFound (s.estimate table type id SLO rate) := by
  have htuning : ∀ rate out,
      Avoids Fault.notFound (s.getEstimateTrpST table type id SLO rate.toNat rate out) :=
    fun _ _ => getEstimateTrpST_found hrows htype
  have hloop : ∀ fuel rate out,
      Avoids Fault.notFound (s.estimateTrp table type id SLO fuel rate out) := by
    intro fuel
    induction fuel with
    | zero =>
        intro rate out
        unfold estimateTrp
        infer_instance
    | succ fuel ih =>
        intro rate out
        unfold estimateTrp
        split
        · infer_instance
        · split
          · exact htuning rate out
          · refine .bind_of (getMaxReturnPart_found hrows htype) fun part hpart => ?_
            replace hpart := getMaxReturnPart_mem hpart
            have hlimit : Avoids Fault.notFound (getMaxSaturateTrp table id part type) :=
              getMaxSaturateTrp_found hrows htype hpart
            have hnode : Avoids Fault.notFound
                (s.saturatedNode table type id SLO rate part out.length) :=
              saturatedNode_found hrows htype hpart
            infer_instance
  exact hloop _ _ _

theorem partSums_found (hrows : Rows s table) {types : List (DeviceType × Int)}
    (htypes : ∀ p ∈ types, p.1 ∈ s.types) :
    Avoids Fault.notFound (s.partSums table id SLO rate types) := by
  induction types with
  | nil => exact .ok _
  | cons p types ih =>
      have hrest := ih fun q hq => htypes q (List.mem_cons_of_mem _ hq)
      have hfirst : Avoids Fault.notFound (s.estimate table p.1 id SLO rate) :=
        estimate_found hrows (htypes p (List.mem_cons_self ..))
      unfold partSums
      infer_instance

theorem gatherResidues_found (hrows : Rows s table) {ns : List Node} {acc : Residues}
    (hns : ∀ n ∈ ns, isResidueOf id n = true → n.type ∈ s.types ∧ n.resourcePntg ∈ s.availParts) :
    Avoids Fault.notFound (gatherResidues table id ns acc) := by
  induction ns generalizing acc with
  | nil => exact .ok _
  | cons n ns ih =>
      have hrest : ∀ acc, Avoids Fault.notFound (gatherResidues table id ns acc) :=
        fun _ => ih fun m hm => hns m (List.mem_cons_of_mem _ hm)
      unfold gatherResidues
      split
      case isTrue hresidue =>
        obtain ⟨htype, hpart⟩ := hns n (List.mem_cons_self ..) hresidue
        have hlookup : Avoids Fault.notFound (getMaxSaturateTrp table id n.resourcePntg n.type) :=
          getMaxSaturateTrp_found hrows htype hpart
        infer_instance
      case isFalse => infer_instance

/-- `mergeResidue` looks up the residue nodes of the task. -/
theorem mergeResidue_found {r : Rec Core Action} (hrows : Rows s table)
    (hns : ∀ n ∈ r.cur.sim.nodes, isResidueOf r.cur.task.id n = true →
      n.type ∈ s.types ∧ n.resourcePntg ∈ s.availParts) :
    s.mergeResidue table r ≠ .error .notFound := by
  intro h
  unfold mergeResidue at h
  rw [getTask_then, getSim_then] at h
  rcases of_query h with hgather | ⟨found, -, h⟩
  · exact (gatherResidues_found hrows hns).ne hgather
  · dsimp only at h
    rcases hsat : found.minSat with _ | ⟨minSat, type, part⟩
    · rw [hsat] at h
      cases h
    · rw [hsat] at h
      dsimp only at h
      split at h
      · cases h
      · exact Prog.Avoids.ne (e := Fault.notFound) _ h

end Answered

/-! ## The type to use -/

/-- Parts besides the first, each of which leaves a rest of the GPU. -/
structure Divisible (s : Scheduler) : Prop where
  several : s.availParts.tail ≠ []
  below : ∀ p ∈ s.availParts.tail, p < 100

/-- A number repeats the least one up to there, `m` included. -/
def Repeats (m : Int) (sums : List Int) : Prop :=
  ∃ pre x post, sums = pre ++ x :: post ∧ pre.foldl min m = x

/-- `getMinPartSum` finds a type that needs less than its start value, and if
it has to break a tie, there are parts that leave a rest. -/
def Decided (s : Scheduler) (table : SatTable) (task : Task) : Prop :=
  ∀ sums, s.partSums table task.id task.SLO task.requestRate s.typeToNumofTypeTable = .ok sums →
    (∃ p ∈ sums, p.2 < 100000) ∧ (Repeats 100000 (sums.map Prod.snd) → s.Divisible)

theorem partSums_types {types : List (DeviceType × Int)} {sums : List (DeviceType × Int)}
    (h : s.partSums table id SLO rate types = .ok sums) :
    sums.map Prod.fst = types.map Prod.fst := by
  induction types generalizing sums with
  | nil =>
      obtain rfl := Except.ok.inj h
      rfl
  | cons p types ih =>
      simp only [partSums, Query.bind_ok, Query.pure_ok] at h
      obtain ⟨nodes, -, rest, hrest, rfl⟩ := h
      rw [List.map_cons, List.map_cons, ih hrest]

theorem sums_listed {sums : List (DeviceType × Int)}
    (h : s.partSums table id SLO rate s.typeToNumofTypeTable = .ok sums) :
    ∀ p ∈ sums, p.1 ∈ s.types := by
  intro p hp
  rw [types, ← partSums_types h]
  exact List.mem_map.mpr ⟨p, hp, rfl⟩

theorem minPartSum_listed {T : List DeviceType} {sums : List (DeviceType × Int)} {m : Int}
    {output : DeviceType} {same : Bool} (hsums : ∀ p ∈ sums, p.1 ∈ T)
    (h : output ∈ T ∨ ∃ p ∈ sums, p.2 < m) : (minPartSum sums (m, output, same)).2.1 ∈ T := by
  induction sums generalizing m output same with
  | nil => exact h.resolve_right (by simp)
  | cons p sums ih =>
      obtain ⟨type, sum⟩ := p
      have htype := hsums _ (List.mem_cons_self ..)
      have hrest := fun q hq => hsums q (List.mem_cons_of_mem _ hq)
      unfold minPartSum
      dsimp only
      split
      case isTrue => exact ih hrest (Or.inl htype)
      case isFalse hge =>
        refine ih hrest (h.imp_right ?_)
        rintro ⟨q, hq, hlt⟩
        rcases List.mem_cons.mp hq with rfl | hq
        · exact absurd hlt hge
        · exact ⟨q, hq, hlt⟩

theorem minPartSum_same {sums : List (DeviceType × Int)} {m : Int} {output : DeviceType}
    {same : Bool} (h : (minPartSum sums (m, output, same)).2.2 = true) :
    same = true ∨ Repeats m (sums.map Prod.snd) := by
  induction sums generalizing m output same with
  | nil => exact Or.inl h
  | cons p sums ih =>
      obtain ⟨type, sum⟩ := p
      have hshift : Repeats (min m sum) (sums.map Prod.snd) →
          Repeats m (sum :: sums.map Prod.snd) := by
        rintro ⟨pre, x, post, hsplit, hmin⟩
        exact ⟨sum :: pre, x, post, by rw [hsplit, List.cons_append], hmin⟩
      have hhere : (same || m == sum) = true → same = true ∨ Repeats m (sum :: sums.map Prod.snd) := by
        intro hsame
        rcases Bool.or_eq_true_iff.mp hsame with hsame | heq
        · exact Or.inl hsame
        · exact Or.inr ⟨[], sum, _, rfl, eq_of_beq heq⟩
      unfold minPartSum at h
      dsimp only at h
      split at h
      case isTrue hlt =>
        rcases ih h with hsame | hrep
        · exact hhere hsame
        · exact Or.inr (hshift (by rwa [min_eq_right hlt.le]))
      case isFalse hge =>
        rcases ih h with hsame | hrep
        · exact hhere hsame
        · exact Or.inr (hshift (by rwa [min_eq_left (not_lt.mp hge)]))

theorem tieBreak_listed {sums : List (DeviceType × Int)} {minParts : Int} {best : ℚ}
    {output : DeviceType} (hsums : ∀ p ∈ sums, p.1 ∈ s.types) (hout : output ∈ s.types)
    (h : s.tieBreak table id rate minParts sums best output = .ok type) : type ∈ s.types := by
  induction sums generalizing best output with
  | nil =>
      obtain rfl := Except.ok.inj h
      exact hout
  | cons p sums ih =>
      have htype := hsums _ (List.mem_cons_self ..)
      have hrest := fun q hq => hsums q (List.mem_cons_of_mem _ hq)
      unfold tieBreak at h
      split at h
      · exact ih hrest hout h
      · simp only [Query.bind_ok, Prod.exists] at h
        obtain ⟨ideal, -, trp, -, -, other, -, -, util, -, h⟩ := h
        split at h
        · exact ih hrest htype h
        · exact ih hrest hout h

/-- With parts besides the whole GPU the tie break looks up listed parts. -/
theorem tieBreak_found (hrows : Rows s table) (hparts : s.Divisible)
    (hclosed : ∀ p ∈ s.availParts, p < 100 → 100 - p ∈ s.availParts)
    {sums : List (DeviceType × Int)} (hsums : ∀ p ∈ sums, p.1 ∈ s.types) {minParts : Int} {best : ℚ}
    {output : DeviceType} :
    Avoids Fault.notFound (s.tieBreak table id rate minParts sums best output) := by
  induction sums generalizing best output with
  | nil => exact .ok _
  | cons p sums ih =>
      have htype := hsums _ (List.mem_cons_self ..)
      have hrest : ∀ best output,
          Avoids Fault.notFound (s.tieBreak table id rate minParts sums best output) :=
        fun _ _ => ih fun q hq => hsums q (List.mem_cons_of_mem _ hq)
      unfold tieBreak
      split
      · infer_instance
      · refine .bind_of (getMaxReturnPart_found hrows htype) fun ideal hideal => ?_
        have hmem := getMaxReturnPart_mem hideal
        have hlt := hparts.below ideal (getMaxReturnPart_tail hideal hparts.several)
        have hideal : Avoids Fault.notFound (getMaxSaturateTrp table id ideal p.1) :=
          getMaxSaturateTrp_found hrows htype hmem
        have hother : Avoids Fault.notFound (getMaxSaturateTrp table id (100 - ideal) p.1) :=
          getMaxSaturateTrp_found hrows htype (hclosed ideal hmem hlt)
        infer_instance

theorem getMinPartSum_found (hrows : Rows s table) (hdec : s.Decided table task)
    (hclosed : ∀ p ∈ s.availParts, p < 100 → 100 - p ∈ s.availParts) :
    Avoids Fault.notFound (s.getMinPartSum table task) := by
  have hlisted : ∀ p ∈ s.typeToNumofTypeTable, p.1 ∈ s.types := fun p hp =>
    List.mem_map.mpr ⟨p, hp, rfl⟩
  unfold getMinPartSum
  refine .bind_of (partSums_found hrows hlisted) fun sums hsums => ?_
  rcases hmin : minPartSum sums (100000, "", false) with ⟨minParts, output, same⟩
  dsimp only
  split
  case isTrue hsame =>
    have hrep : Repeats 100000 (sums.map Prod.snd) :=
      (minPartSum_same (by rw [hmin]; exact hsame)).resolve_left Bool.false_ne_true
    exact tieBreak_found hrows ((hdec sums hsums).2 hrep) hclosed (sums_listed hsums)
  case isFalse => infer_instance

theorem getMinPartSum_listed (hdec : s.Decided table task)
    (h : s.getMinPartSum table task = .ok type) : type ∈ s.types := by
  simp only [getMinPartSum, Query.bind_ok] at h
  obtain ⟨sums, hsums, h⟩ := h
  have hout : (minPartSum sums (100000, "", false)).2.1 ∈ s.types :=
    minPartSum_listed (sums_listed hsums) (Or.inr (hdec sums hsums).1)
  rcases hmin : minPartSum sums (100000, "", false) with ⟨minParts, output, same⟩
  rw [hmin] at h hout
  dsimp only at h hout
  split at h
  · exact tieBreak_listed (sums_listed hsums) hout h
  · obtain rfl := Query.pure_ok.mp h
    exact hout

end Scheduler

/-! ## Listed nodes -/

/-- The nodes of a GPU have types of the table and available parts, or the 0
that `getMinPart` returns when it finds no batch size. -/
structure ListedGPU (s : Scheduler) (i : Nat) (g : GPU) : Prop where
  id_eq : ∀ n ∈ g.vNodeList, n.id = i
  type_mem : ∀ n ∈ g.vNodeList, n.type ∈ s.types
  part_mem : ∀ n ∈ g.vNodeList, n.resourcePntg ∈ s.availParts ∨ n.resourcePntg = 0

variable {s : Scheduler} {c : Core} {act : Action}

theorem deviceTypes_listed {type : DeviceType} (h : type ∈ s.deviceTypes) : type ∈ s.types := by
  obtain ⟨p, hp, hrep⟩ := List.mem_flatMap.mp h
  rw [List.eq_of_mem_replicate hrep]
  exact List.mem_map.mpr ⟨p, hp, rfl⟩

theorem AllGPUs.listed_apply (hwhole : 100 ∈ s.availParts)
    (hclosed : ∀ p ∈ s.availParts, p < 100 → 100 - p ∈ s.availParts) (hd : Detail s c act)
    (h : AllGPUs (ListedGPU s) c.sim) :
    AllGPUs (ListedGPU s) (act.apply s.useRepartition c).sim := by
  refine AllGPUs.apply ?_ ?_ (fun hg => hg.id_eq) hd h ?_ ?_ ?_
  · rintro i g g' - - hnodes ⟨h1, h2, h3⟩
    exact ⟨by rw [hnodes]; exact h1, by rw [hnodes]; exact h2, by rw [hnodes]; exact h3⟩
  · intro i g hg htype
    refine ⟨hg.homed.id_eq, fun n hn => ?_, fun n hn => ?_⟩
    · rw [hg.homed.type_eq n hn]
      exact deviceTypes_listed htype
    · rw [hg.nodes_eq] at hn
      rw [List.mem_singleton.mp hn]
      exact Or.inl hwhole
  · rintro a f n g hw hn hj ⟨h1, h2, h3⟩
    obtain ⟨hid, htype⟩ := hd.writes_id hw hn
    have hpart : (f n).resourcePntg = n.resourcePntg := congrArg Prod.fst (hd.writes_key hw hn).1
    have hmem := List.mem_of_getElem? hj
    refine ⟨fun m hm => ?_, fun m hm => ?_, fun m hm => ?_⟩ <;>
      rcases List.mem_or_eq_of_mem_set hm with hm | rfl
    · exact h1 m hm
    · exact hid.trans (h1 n hmem)
    · exact h2 m hm
    · rw [htype]
      exact h2 n hmem
    · exact h3 m hm
    · rw [hpart]
      exact h3 n hmem
  · rintro i j n part g hj - - hlt hoff ⟨h1, h2, h3⟩
    have hmem := List.mem_of_getElem? hj
    refine ⟨fun m hm => ?_, fun m hm => ?_, fun m hm => ?_⟩ <;>
      rcases mem_split hm with hm | rfl | rfl
    · exact h1 m hm
    · exact h1 n hmem
    · exact h1 n hmem
    · exact h2 m hm
    · exact h2 n hmem
    · exact h2 n hmem
    · exact h3 m hm
    · exact hoff.listed
    · rcases hoff.listed with hin | rfl
      · exact Or.inl (hclosed part hin hlt)
      · exact Or.inl hwhole
  · rintro i g - - ⟨h1, h2, h3⟩
    refine ⟨fun m hm => ?_, fun m hm => ?_, fun m hm => ?_⟩ <;>
    · simp only [unifyGPU, List.mem_map] at hm
      obtain ⟨m0, hm0, rfl⟩ := hm
      have hmem := List.mem_of_mem_take hm0
      first | exact h1 m0 hmem | exact h2 m0 hmem | exact Or.inl hwhole

namespace Scheduler

variable {r r' : Rec Core Action} {table : SatTable} {tasks : List Task} {prev out : SimState}
  {repart : Bool}

theorem Reached.listed (hwhole : 100 ∈ s.availParts)
    (hclosed : ∀ p ∈ s.availParts, p < 100 → 100 - p ∈ s.availParts) (h : Reached s r r')
    (hr : AllGPUs (ListedGPU s) r.cur.sim) : AllGPUs (ListedGPU s) r'.cur.sim := by
  refine (h.strengthen (I := fun c => AllGPUs (ListedGPU s) c.sim) ?_ hr).2
  rintro c act hc ⟨hd, -⟩
  exact hc.listed_apply hwhole hclosed hd

theorem listed_node {sim : SimState} (h : AllGPUs (ListedGPU s) sim) {a : Addr} {n : Node}
    (hn : sim.node? a = some n) :
    n.type ∈ s.types ∧ (n.resourcePntg ∈ s.availParts ∨ n.resourcePntg = 0) := by
  obtain ⟨g, hg, hmem⟩ := SimState.gpu_of_node? hn
  have hmem := List.mem_of_getElem? hmem
  exact ⟨(h _ g hg).type_mem n hmem, (h _ g hg).part_mem n hmem⟩

/-! ## The lookups of a run -/

/-- The table and the model whose rows a call looks up. -/
def Call.subject (r : Rec Core Action) : Call → Option (SatTable × Int)
  | .getMinPartSum table task | .estimate table _ task => some (table, task.id)
  | .getMaxReturnPart table id _ => some (table, id)
  | .mergeResidue table => some (table, r.cur.task.id)
  | _ => none

/-- In a run of `runScheduling`, `assert(found)` does not fail: each model that
is looked up has its rows, and each row that is asked for is there. -/
structure SatTableFound (s : Scheduler) (table : SatTable) (tasks : List Task)
    (prev out : SimState) (repart : Bool) : Prop where
  rows : ∀ call r table' id, s.Enters table tasks prev repart call r →
    call.subject r = some (table', id) → table' id ≠ none
  found : s.runScheduling table tasks prev out repart ≠ .error .notFound

/-- A call that does not ask for a missing row: `getMinPartSum` decides on a
listed type, a type with priority is listed, and no residue node that
`mergeResidue` collects has part 0. -/
def Call.Sure (s : Scheduler) (r : Rec Core Action) : Call → Prop
  | .getMinPartSum table task => s.Decided table task
  | .chooseNode _ _ => s.priorityCheck = true → s.priorityType ∈ s.types
  | .mergeResidue _ => ∀ n ∈ r.cur.sim.nodes, isResidueOf r.cur.task.id n = true →
      n.resourcePntg ≠ 0
  | _ => True

/-- The device type of a lookup is one of the table. -/
def Call.Typed (s : Scheduler) : Call → Prop
  | .estimate _ type _ | .getMaxReturnPart _ _ type => type ∈ s.types
  | _ => True

theorem Visits.typed {start c : Call × Rec Core Action} (h : s.Visits start c)
    (hstart : start.1.Typed s)
    (hlisted : ∀ c, s.Visits start c → AllGPUs (ListedGPU s) c.2.cur.sim)
    (hsure : ∀ c, s.Visits start c → c.1.Sure s c.2) : c.1.Typed s := by
  rcases Relation.ReflTransGen.cases_tail h with rfl | ⟨b, hvisit, hcall⟩
  · exact hstart
  · cases hcall
    case estimateOn hsched htype =>
      exact getMinPartSum_listed (hsure _ (hvisit.tail (.estimateType hsched))) htype
    case splitEstimate hn => exact (listed_node (hlisted _ hvisit) hn).1
    case chooseOn htype hne =>
      unfold chosenType at htype
      split at htype
      case isTrue hprio =>
        obtain rfl := Except.ok.inj htype
        exact hsure _ hvisit hprio
      case isFalse hprio =>
        exact getMinPartSum_listed
          (hsure _ (hvisit.tail (.chooseType (eq_false_of_ne_true hprio)))) htype
    all_goals trivial

/-- A lookup of the run finds its rows. -/
theorem Call.Looks.found {call : Call} (hlooks : call.Looks) (hrows : ∀ table id,
      call.subject r = some (table, id) → Rows s table) (htyped : call.Typed s) (hsure : call.Sure s r)
    (hclosed : ∀ p ∈ s.availParts, p < 100 → 100 - p ∈ s.availParts)
    (hlisted : AllGPUs (ListedGPU s) r.cur.sim) : ¬ call.Stops s .notFound r := by
  cases call
  case getMinPartSum => exact (getMinPartSum_found (hrows _ _ rfl) hsure hclosed).ne
  case estimate => exact (estimate_found (hrows _ _ rfl) htyped).ne
  case getMaxReturnPart => exact (getMaxReturnPart_found (hrows _ _ rfl) htyped).ne
  case mergeResidue =>
    refine mergeResidue_found (hrows _ _ rfl) fun n hn hres => ?_
    obtain ⟨a, ha⟩ := SimState.mem_nodes.mp hn
    obtain ⟨htype, hpart⟩ := listed_node hlisted ha
    exact ⟨htype, hpart.resolve_right (hsure n hn hres)⟩
  all_goals cases hlooks

theorem Call.Entry.tabled {call : Call} {id : Int} (h : call.Entry s r)
    (hsubject : call.subject r = some (table, id)) : Tabled s table id := by
  cases call <;> cases hsubject <;> exact h.1

/-- **The saturation table is found.** On any table of GPU types, with available
parts that contain 100 and the rest of each smaller one, and from any decision
with listed nodes: if each call of the run is `Sure`, `assert(found)` does not
fail. -/
theorem satTableFound (hwhole : 100 ∈ s.availParts)
    (hclosed : ∀ p ∈ s.availParts, p < 100 → 100 - p ∈ s.availParts) (htab : Built s table)
    (hprev : AllGPUs (ListedGPU s) prev)
    (hsure : ∀ call r, s.Enters table tasks prev repart call r → call.Sure (s.withRepart repart) r) :
    s.SatTableFound table tasks prev out repart := by
  have hentry : ∀ c, (s.withRepart repart).Visits
      (.incrementalScehduling table tasks, ⟨Core.init prev, []⟩) c →
      c.1.Entry (s.withRepart repart) c.2 ∧ Reached (s.withRepart repart) ⟨Core.init prev, []⟩ c.2 :=
    fun c hvisit => Visits.entry hvisit ⟨built_withRepart.mpr htab, init_settled prev⟩
  have hlisted : ∀ c, (s.withRepart repart).Visits
      (.incrementalScehduling table tasks, ⟨Core.init prev, []⟩) c →
      AllGPUs (ListedGPU (s.withRepart repart)) c.2.cur.sim :=
    fun c hvisit => Reached.listed hwhole hclosed (hentry c hvisit).2 fun i g hg =>
      ⟨(hprev i g hg).id_eq, (hprev i g hg).type_mem, (hprev i g hg).part_mem⟩
  refine ⟨fun call r table' id henters hsubject => ?_, fun hrun => ?_⟩
  · exact ((hentry _ henters).1.tabled hsubject).present
  · have hstop : (s.withRepart repart).incrementalScehduling table tasks ⟨Core.init prev, []⟩ =
        .error .notFound := by
      unfold runScheduling at hrun
      rcases Avoids.cases_bind hrun with hstop | ⟨⟨⟨ret, tasks', table'⟩, r'⟩, -, hend⟩
      · exact hstop
      · cases ret <;> cases hend
    obtain ⟨c, hvisit, hlooks, hmiss⟩ := incrementalScehduling_misses hstop
    refine hlooks.found (fun table' id hsubject => ?_) ?_ (hsure _ _ hvisit) hclosed
      (hlisted _ hvisit) hmiss
    · exact built_rows ((hentry _ hvisit).1.tabled hsubject).built
    · exact Visits.typed hvisit trivial hlisted fun c hc => hsure _ _ hc

/-! ## Two runs -/

variable {t : Task} {sim : SimState} {id SLO rate : Int}

/-- The calls of a run on one task whose rate needs no gpu-let. -/
inductive LowRate (t : Task) (sim : SimState) : Call × Rec Core Action → Prop
  | run {tb : SatTable} {r₀ : Rec Core Action} : r₀.cur.sim = sim →
      LowRate t sim (.incrementalScehduling tb [t], r₀)
  | passes {tb : SatTable} {fuel : Nat} {r₀ : Rec Core Action} : r₀.cur.sim = sim →
      LowRate t sim (.passLoop fuel tb [] [t], r₀)
  | pass {tb : SatTable} {r₀ : Rec Core Action} : r₀.cur.sim = sim →
      LowRate t sim (.elasticPartitioning tb [t], r₀)
  | place {tb : SatTable} {r₀ : Rec Core Action} : r₀.cur.sim = sim →
      LowRate t sim (.placeTasks tb [t], r₀)
  | add {tb : SatTable} {r₀ : Rec Core Action} : r₀.cur.sim = sim →
      LowRate t sim (.addModeltoSchedule tb t, r₀)
  | least {tb : SatTable} {task : Task} {r₀ : Rec Core Action} :
      task.requestRate = t.requestRate → LowRate t sim (.getMinPartSum tb task, r₀)
  | estimate {tb : SatTable} {type : DeviceType} {task : Task} {r₀ : Rec Core Action} :
      LowRate t sim (.estimate tb type task, r₀)
  | done {tb : SatTable} {r₀ : Rec Core Action} : LowRate t sim (.placeTasks tb [], r₀)

theorem estimate_low {type : DeviceType} (h : rate ≤ trpSlack) :
    s.estimate table type id SLO rate = .ok [] := by
  rw [estimate, estimateTrp, if_pos h]

theorem partSums_low (h : rate ≤ trpSlack) {types sums : List (DeviceType × Int)}
    (hsums : s.partSums table id SLO rate types = .ok sums) :
    ∀ p ∈ sums, p.2 = 0 := by
  induction types generalizing sums with
  | nil =>
      obtain rfl := Except.ok.inj hsums
      exact List.forall_mem_nil _
  | cons type types ih =>
      simp only [partSums, estimate_low h, Query.bind_ok, Query.pure_ok, Except.ok.injEq] at hsums
      obtain ⟨nodes, rfl, rest, hrest, rfl⟩ := hsums
      exact List.forall_mem_cons.mpr ⟨rfl, ih hrest⟩

/-- The empty estimate of a low rate fits. -/
theorem LowRate.step {c c' : Call × Rec Core Action} (hrate : t.requestRate ≤ trpSlack)
    (hint : s.useInterference = false) (hdev : sim.vGPUList ≠ [])
    (hnew : ∀ task, isModelScheduled task sim = false) (h : LowRate t sim c)
    (hcall : s.Invokes c c') : LowRate t sim c' := by
  have hlow : ∀ {tb : SatTable} {task : Task} {est : List Node}, task.requestRate ≤ trpSlack →
      s.getEstimate tb task = .ok est → est = [] := by
    intro tb task est hle hest
    rw [getEstimate, Query.bind_ok] at hest
    obtain ⟨type, -, hest⟩ := hest
    exact (Except.ok.inj ((estimate_low hle).symm.trans hest)).symm
  have hnil : s.stdSort.sort cmpNodeDsc [] = [] := List.perm_nil.mp (s.stdSort.perm cmpNodeDsc [])
  cases h with
  | run hsim =>
      cases hcall with
      | passes => exact .passes hsim
      | passesOnNew hnil => exact absurd (hsim ▸ hnil) hdev
  | passes hsim =>
      cases hcall with
      | pass => exact .pass hsim
      | passAgain hpass hon =>
          rw [hint] at hon
          cases hon
  | pass hsim =>
      cases hcall
      have hsort : s.stdSort.sort cmpTaskDsc [t] = [t] :=
        List.perm_singleton.mp (s.stdSort.perm cmpTaskDsc [t])
      rw [hsort]
      exact .place hsim
  | place hsim =>
      cases hcall with
      | add => exact .add hsim
      | placeRest => exact .done
  | add hsim =>
      cases hcall with
      | estimateType => exact .least rfl
      | estimateOn => exact .estimate
      | forget hsched | adjustForgotten hsched =>
          rw [show (s.started t _).cur.sim = sim from hsim, hnew] at hsched
          cases hsched
      | adjustUnfit hsched hest hfit =>
          obtain rfl := hlow hrate hest
          rw [hnil] at hfit
          cases hfit
      | adjustMisfit hsched hest hfit halloc =>
          obtain rfl := hlow hrate hest
          rw [hnil] at halloc
          unfold allocateFit at halloc
          have hdone : ¬ t.requestRate + 0 > trpSlack := by rwa [add_zero, not_lt]
          rw [getTask_then, show (s.started t _).cur.task.requestRate = t.requestRate from rfl,
            show (s.started t _).cur.task.additionalRate = 0 from rfl, if_neg hdone] at halloc
          cases halloc
  | least => cases hcall
  | estimate => cases hcall
  | done => cases hcall

theorem LowRate.visits {c c' : Call × Rec Core Action} (hrate : t.requestRate ≤ trpSlack)
    (hint : s.useInterference = false) (hdev : sim.vGPUList ≠ [])
    (hnew : ∀ task, isModelScheduled task sim = false) (h : LowRate t sim c)
    (hvisits : s.Visits c c') : LowRate t sim c' := by
  induction hvisits with
  | refl => exact h
  | tail _ hcall ih => exact ih.step hrate hint hdev hnew hcall

theorem LowRate.sure {c : Call × Rec Core Action} (hrate : t.requestRate ≤ trpSlack)
    (htypes : s.types ≠ []) (hparts : s.Divisible) (h : LowRate t sim c) : c.1.Sure s c.2 := by
  cases h
  case least task hle heq =>
    intro sums hsums
    have hzero := partSums_low (heq ▸ hrate) hsums
    have hlen := congrArg List.length (partSums_types hsums)
    refine ⟨?_, fun _ => hparts⟩
    cases sums with
    | nil => exact absurd (List.length_eq_zero_iff.mp hlen.symm) htypes
    | cons p sums =>
        refine ⟨p, List.mem_cons_self .., ?_⟩
        rw [hzero p (List.mem_cons_self ..)]
        decide
  all_goals trivial

/-- Two GPUs of different types that run every model alike. -/
def twoTypes (parts : List Int) : Scheduler :=
  { plain (profile parts fun _ _ => 5) parts 2 with typeToNumofTypeTable := [("a", 1), ("b", 1)] }

theorem twoTypes_listed {parts : List Int} (h : 100 ∈ parts) :
    AllGPUs (ListedGPU (twoTypes parts)) (twoTypes parts).setUp := by
  rintro (_ | _ | i) g hg
  case succ.succ => cases hg
  all_goals
    obtain rfl := Option.some.inj hg
    refine ⟨fun n hn => ?_, fun n hn => ?_, fun n hn => ?_⟩ <;> rw [List.mem_singleton.mp hn]
    · rfl
    · simp [makeEmptyNode, types, twoTypes]
    · exact Or.inl h

/-- With halves the tie between the two types is broken on listed parts. -/
theorem satTableFound_halves :
    (twoTypes [100, 50]).SatTableFound (fun _ => none) [request 0 10 100] (twoTypes [100, 50]).setUp
      ⟨[], []⟩ true := by
  refine satTableFound (by decide) (by decide) .empty (twoTypes_listed (by decide)) ?_
  intro call r henters
  have hlow : LowRate (request 0 10 100) (twoTypes [100, 50]).setUp (call, r) :=
    LowRate.visits (by decide) rfl (by decide) (fun _ => rfl) (.run rfl) henters
  exact hlow.sure (by decide) (by decide) ⟨by decide, by decide⟩

/-- Without parts of the GPU it is not: the tie break asks for part 0. -/
theorem part_zero_not_found :
    (100 ∈ (twoTypes [100]).availParts ∧
      (∀ p ∈ (twoTypes [100]).availParts, p < 100 → 100 - p ∈ (twoTypes [100]).availParts) ∧
      Fresh (twoTypes [100]) (twoTypes [100]).setUp ∧
      AllGPUs (ListedGPU (twoTypes [100])) (twoTypes [100]).setUp) ∧
    ¬ (twoTypes [100]).SatTableFound (fun _ => none) [request 0 40 100] (twoTypes [100]).setUp
      ⟨[], []⟩ true := by
  refine ⟨⟨by decide, by decide, setUp_fresh rfl, twoTypes_listed (by decide)⟩, fun h => h.found ?_⟩
  exact Query.of_stopsWith (by decide +kernel)

end Scheduler

end Glet
