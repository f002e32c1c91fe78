import Glet.Effects

/-!
# The partition invariant

A GPU is either whole or split in two: `Split` describes the partition
sizes and dedup numbers it can have. Every action keeps that, because a
partition size changes in two places only: a split of a whole GPU's single
node, and the merge of a GPU's empty nodes (`copyToNode` writes a partition
size too, but never another one: see `FitGuard.target`).
-/

namespace Glet

open Recorder

/-! ## Partition sizes -/

/-- One turn of the loop of `setupAvailParts`. -/
def addParts (parts : List Int) (part : Int) : List Int :=
  let parts := if part ≠ 0 then parts ++ [part] else parts
  let counter := 100 - part
  if counter ≠ 0 ∧ counter ∉ parts then parts ++ [counter] else parts

/-- `setupAvailParts`: `_availParts` afterwards. -/
def Scheduler.setupAvailParts (s : Scheduler) (inputParts : List Int) : Query (List Int) := do
  assert (inputParts ≠ [])
  return s.stdSort.sort (fun a b => decide (a > b)) (inputParts.foldl addParts [])

/-- Partition sizes, closed under complement and with 100 among them. -/
structure AvailParts (parts : List Int) : Prop where
  whole : 100 ∈ parts
  pos : ∀ p ∈ parts, 0 < p
  closed : ∀ p ∈ parts, p ≠ 100 → 100 - p ∈ parts

theorem mem_addParts {parts : List Int} {part p : Int} :
    p ∈ addParts parts part ↔
      p ∈ parts ∨ (p = part ∧ p ≠ 0) ∨ (p = 100 - part ∧ p ≠ 0) := by
  have hfirst : p ∈ (if part ≠ 0 then parts ++ [part] else parts) ↔
      p ∈ parts ∨ (p = part ∧ p ≠ 0) := by
    split
    case isTrue h =>
      rw [List.mem_append, List.mem_singleton]
      refine or_congr Iff.rfl ⟨?_, And.left⟩
      rintro rfl
      exact ⟨rfl, h⟩
    case isFalse h =>
      refine ⟨Or.inl, fun hp => hp.resolve_right ?_⟩
      rintro ⟨rfl, h0⟩
      exact h h0
  rw [← or_assoc, ← hfirst]
  simp only [addParts]
  generalize (if part ≠ 0 then parts ++ [part] else parts) = l
  split
  case isTrue h =>
    rw [List.mem_append, List.mem_singleton]
    refine or_congr Iff.rfl ⟨?_, And.left⟩
    rintro rfl
    exact ⟨rfl, h.1⟩
  case isFalse h =>
    refine ⟨Or.inl, fun hp => ?_⟩
    rcases hp with hp | ⟨rfl, h0⟩
    · exact hp
    · by_contra hnot
      exact h ⟨h0, hnot⟩

theorem mem_foldl_addParts {input : List Int} {parts : List Int} {p : Int} :
    p ∈ input.foldl addParts parts ↔
      p ∈ parts ∨ (p ≠ 0 ∧ (p ∈ input ∨ 100 - p ∈ input)) := by
  induction input generalizing parts with
  | nil => simp
  | cons q input ih =>
      rw [List.foldl_cons, ih, mem_addParts]
      simp only [List.mem_cons]
      constructor
      · rintro ((h | ⟨rfl, h⟩ | ⟨rfl, h⟩) | ⟨h0, h | h⟩)
        · exact Or.inl h
        · exact Or.inr ⟨h, Or.inl (Or.inl rfl)⟩
        · exact Or.inr ⟨h, Or.inr (Or.inl (by ring))⟩
        · exact Or.inr ⟨h0, Or.inl (Or.inr h)⟩
        · exact Or.inr ⟨h0, Or.inr (Or.inr h)⟩
      · rintro (h | ⟨h0, (rfl | h) | (h | h)⟩)
        · exact Or.inl (Or.inl h)
        · exact Or.inl (Or.inr (Or.inl ⟨rfl, h0⟩))
        · exact Or.inr ⟨h0, Or.inl h⟩
        · exact Or.inl (Or.inr (Or.inr ⟨by omega, h0⟩))
        · exact Or.inr ⟨h0, Or.inr h⟩

/-- `setupAvailParts` builds such a list from any percentages among which is
100, or 0. -/
theorem Scheduler.setupAvailParts_ok {s : Scheduler} {input parts : List Int}
    (h : s.setupAvailParts input = .ok parts) (hrange : ∀ p ∈ input, 0 ≤ p ∧ p ≤ 100)
    (hwhole : 100 ∈ input ∨ 0 ∈ input) : AvailParts parts := by
  simp only [setupAvailParts, Query.bind_ok, Query.pure_ok] at h
  obtain ⟨-, -, rfl⟩ := h
  have hmem : ∀ p, p ∈ s.stdSort.sort (fun a b => decide (a > b)) (input.foldl addParts []) ↔
      p ≠ 0 ∧ (p ∈ input ∨ 100 - p ∈ input) := by
    intro p
    rw [(s.stdSort.perm _ _).mem_iff, mem_foldl_addParts]
    simp
  refine ⟨(hmem 100).mpr ⟨by decide, hwhole⟩, fun p hp => ?_, fun p hp hne => (hmem _).mpr ?_⟩
  · obtain ⟨h0, hp | hp⟩ := (hmem p).mp hp
    · have := hrange p hp
      omega
    · have := hrange _ hp
      omega
  · obtain ⟨h0, hp⟩ := (hmem p).mp hp
    refine ⟨by omega, hp.symm.imp_right ?_⟩
    rw [show 100 - (100 - p) = p by ring]
    exact id

/-- The latency profile answers only for batch sizes up to `_MAX_BATCH` and
for available partitions; any other query stops a run. -/
structure ProfileRange (s : Scheduler) : Prop where
  batch : ∀ {type name batch part v},
    (s.nametoDevPerfModelTable type).getLatency name batch part = some v →
      1 ≤ batch ∧ batch ≤ maxBatch
  part : ∀ {type name batch part v},
    (s.nametoDevPerfModelTable type).getLatency name batch part = some v → part ∈ s.availParts

/-! ## The shape of a GPU -/

/-- What tells the nodes of a GPU apart. -/
def Node.key (n : Node) : Int × Int := (n.resourcePntg, n.dedupNum)

/-- The keys a GPU's nodes can have, in order: it is whole, or it was split
into `p` and the rest. -/
inductive Split : List (Int × Int) → Prop
  | whole : Split [(100, 0)]
  | parts {p : Int} : 0 < p → p < 100 → Split [(p, 0), (100 - p, if p = 50 then 1 else 0)]

theorem Split.nodup {l : List (Int × Int)} (h : Split l) : l.Nodup := by
  cases h with
  | whole => simp
  | @parts p h0 h1 =>
      simp only [List.nodup_cons, List.mem_singleton, Prod.mk.injEq, not_and, List.not_mem_nil,
        not_false_eq_true, List.nodup_nil, and_true]
      intro hp
      rw [if_pos (by omega)]
      decide

theorem Split.sum {l : List (Int × Int)} (h : Split l) : (l.map (·.1)).sum = 100 := by
  cases h <;> simp

theorem Split.pos {l : List (Int × Int)} (h : Split l) : ∀ k ∈ l, 0 < k.1 := by
  cases h with
  | whole => simp
  | parts h0 h1 =>
      simp only [List.mem_cons, List.not_mem_nil, or_false, forall_eq_or_imp, forall_eq]
      exact ⟨h0, by omega⟩

theorem Split.length {l : List (Int × Int)} (h : Split l) : l.length = 1 ∨ l.length = 2 := by
  cases h with
  | whole => exact Or.inl rfl
  | parts => exact Or.inr rfl

/-- Only the node of a whole GPU spans 100 percent. -/
theorem Split.whole_of_mem {l : List (Int × Int)} (h : Split l) {d : Int} (hd : (100, d) ∈ l) :
    l = [(100, 0)] := by
  cases h with
  | whole => rfl
  | parts h0 h1 =>
      simp only [List.mem_cons, Prod.mk.injEq, List.not_mem_nil, or_false] at hd
      omega

/-- The invariant of the GPU at index `i`. -/
structure ShapedGPU (i : Nat) (g : GPU) : Prop where
  GPUID_eq : g.GPUID = i
  id_eq : ∀ n ∈ g.vNodeList, n.id = i
  split : Split (g.vNodeList.map Node.key)
  ids_nodup : ∀ n ∈ g.vNodeList, (n.vTaskList.map (·.id)).Nodup

theorem NewGPU.shaped {i : Nat} {g : GPU} (h : NewGPU i g) : ShapedGPU i g := by
  refine ⟨h.GPUID_eq, h.homed.id_eq, ?_, fun n hn => ?_⟩
  · rw [h.nodes_eq]
    exact .whole
  · rw [h.nodes_eq] at hn
    rw [List.mem_singleton.mp hn]
    exact List.nodup_nil

/-! ## Actions keep the shape -/

variable {s : Scheduler} {c : Core} {act : Action} {a : Addr} {f : Node → Node} {n : Node}

/-- Rewriting a node keeps its key and does not put a model on it twice. -/
theorem Detail.writes_key (hd : Detail s c act)
    (h : act.writes s.useRepartition c = some (a, f)) (hn : c.sim.node? a = some n) :
    (f n).key = n.key ∧
      ((n.vTaskList.map (·.id)).Nodup → ((f n).vTaskList.map (·.id)).Nodup) := by
  cases act <;> simp only [Action.writes, Option.some.injEq, Prod.mk.injEq, reduceCtorEq] at h
  all_goals obtain ⟨rfl, rfl⟩ := h
  case forget => exact ⟨rfl, fun hnd => hnd.sublist (List.eraseP_sublist.map _)⟩
  case occupy => exact ⟨rfl, id⟩
  case fit b org checked =>
      obtain ⟨m, gpu, e, d, v, hm, -, -, -, hlet, hpart, -⟩ := hd.target
      obtain rfl : n = m := Option.some.inj (hn.symm.trans hm)
      constructor
      · simp only [Node.key, copyToNode]
        split
        case isTrue hre => rw [hpart hre]
        case isFalse => rfl
      · intro _
        simp [copyToNode, hlet.tasks]
  case prime => exact ⟨rfl, id⟩
  case place b kind t duty occ =>
      obtain ⟨m, -, -, hm, hnil, -⟩ := hd.target
      obtain rfl : n = m := Option.some.inj (hn.symm.trans hm)
      exact ⟨rfl, fun _ => by simp [hnil]⟩
  case revert => exact ⟨rfl, fun _ => List.nodup_nil⟩
  case adjust b n' =>
      obtain ⟨-, m, hm, hadj⟩ := hd
      obtain rfl : n = m := Option.some.inj (hn.symm.trans hm)
      refine ⟨?_, fun hnd => by rw [hadj.ids_eq]; exact hnd⟩
      simp only [Node.key, hadj.part_eq, hadj.dedup_eq]
  case wipe => exact ⟨rfl, fun _ => List.nodup_nil⟩
  case merged b t duty occ left =>
      obtain ⟨m, -, hm, hnil, -⟩ := hd.target
      obtain rfl : n = m := Option.some.inj (hn.symm.trans hm)
      exact ⟨rfl, fun _ => by simp [hnil]⟩
  case share b t duty occ left =>
      obtain ⟨m, _, _, hm, hshares⟩ := hd.target
      obtain rfl : n = m := Option.some.inj (hn.symm.trans hm)
      refine ⟨rfl, fun hnd => ?_⟩
      have hids : (n.vTaskList.map (retime duty)).map (·.id) = n.vTaskList.map (·.id) := by
        rw [List.map_map]
        rfl
      have habsent : t.id ∉ n.vTaskList.map (·.id) := by
        have hnot := hshares.absent
        rw [hd.new_eq]
        simpa [checkContain, Scheduler.createNewTask] using hnot
      simp only [List.map_append, hids, List.map_cons, List.map_nil]
      exact List.nodup_append.mpr ⟨hnd, by simp, by
        intro x hx y hy
        rw [List.mem_singleton.mp hy]
        rintro rfl
        exact habsent hx⟩

theorem map_key_set {l : List Node} {j : Nat} {n n' : Node} (h : l[j]? = some n)
    (hkey : n'.key = n.key) : (l.set j n').map Node.key = l.map Node.key := by
  apply List.ext_getElem?
  intro i
  rw [List.getElem?_map, List.getElem?_map, List.getElem?_set]
  split
  case isTrue heq =>
    subst heq
    obtain ⟨hlt, rfl⟩ := List.getElem?_eq_some_iff.mp h
    simp [hlt, hkey]
  case isFalse => rfl

/-- A whole GPU splits into `part` and the rest. -/
theorem ShapedGPU.split_node {i j : Nat} {g : GPU} {part : Int} (h : ShapedGPU i g)
    (hj : g.vNodeList[j]? = some n) (hnil : n.vTaskList = []) (hwhole : n.resourcePntg = 100)
    (hpos : 0 < part) (hlt : part < 100) :
    ShapedGPU i { g with
      vNodeList := g.vNodeList.set j { n with resourcePntg := part } ++ [restNode n part] } := by
  have hmem := List.mem_of_getElem? hj
  have hkeys : g.vNodeList.map Node.key = [(100, 0)] := by
    refine h.split.whole_of_mem (d := n.dedupNum) (List.mem_map.mpr ⟨n, hmem, ?_⟩)
    rw [Node.key, hwhole]
  have hlist : g.vNodeList = [n] := by
    have hlen : g.vNodeList.length = 1 := by simpa using congrArg List.length hkeys
    obtain ⟨m, hm⟩ := List.length_eq_one_iff.mp hlen
    rw [hm] at hmem ⊢
    rw [List.mem_singleton.mp hmem]
  have hdedup : n.dedupNum = 0 := by
    rw [hlist] at hkeys
    simpa [Node.key, hwhole] using hkeys
  obtain rfl : j = 0 := by
    rw [hlist] at hj
    have := (List.getElem?_eq_some_iff.mp hj).1
    simpa using this
  have hid := h.id_eq n hmem
  rw [hlist]
  refine ⟨h.GPUID_eq, ?_, ?_, ?_⟩
  · simp [restNode, Scheduler.makeEmptyNode, hid]
  · have hsplit : Split [(part, 0), (100 - part, if part = 50 then 1 else 0)] := .parts hpos hlt
    simpa [Node.key, restNode, Scheduler.makeEmptyNode, hdedup] using hsplit
  · simp [restNode, Scheduler.makeEmptyNode, hnil]

theorem AllGPUs.shaped_apply (havail : AvailParts s.availParts) (hprofile : ProfileRange s)
    (hd : Detail s c act) (h : AllGPUs ShapedGPU c.sim) :
    AllGPUs ShapedGPU (act.apply s.useRepartition c).sim := by
  refine AllGPUs.apply ?_ (fun hg _ => hg.shaped) (fun hg => hg.id_eq) hd h ?_ ?_ ?_
  · rintro i g g' hid - hnodes ⟨h1, h2, h3, h4⟩
    exact ⟨hid.trans h1, by rw [hnodes]; exact h2, by rw [hnodes]; exact h3,
      by rw [hnodes]; exact h4⟩
  · rintro a f n g hw hn hj ⟨h1, h2, h3, h4⟩
    obtain ⟨hid, -⟩ := hd.writes_id hw hn
    obtain ⟨hkey, hnodup⟩ := hd.writes_key hw hn
    have hmem := List.mem_of_getElem? hj
    refine ⟨h1, fun m hm => ?_, by rw [map_key_set hj hkey]; exact h3, fun m hm => ?_⟩
    · rcases List.mem_or_eq_of_mem_set hm with hm | rfl
      · exact h2 m hm
      · exact hid.trans (h2 n hmem)
    · rcases List.mem_or_eq_of_mem_set hm with hm | rfl
      · exact h4 m hm
      · exact hnodup (h4 n hmem)
  · intro i j n part g hj hnil hwhole hlt hprof hg
    obtain ⟨type, name, batch, v, hv⟩ := hprof.profiled
    exact hg.split_node hj hnil hwhole (havail.pos part (hprofile.part hv)) hlt
  · rintro i g hnil hlen ⟨h1, h2, h3, h4⟩
    cases hl : g.vNodeList with
    | nil => simp [hl] at hlen
    | cons m ms =>
        have hm : m ∈ g.vNodeList := by simp [hl]
        have hlist : (unifyGPU g).vNodeList = [{ m with dedupNum := 0, resourcePntg := 100 }] := by
          simp [unifyGPU, hl]
        refine ⟨h1, fun x hx => ?_, by rw [hlist]; exact .whole, fun x hx => ?_⟩
        · rw [hlist] at hx
          rw [List.mem_singleton.mp hx]
          exact h2 m hm
        · rw [hlist] at hx
          rw [List.mem_singleton.mp hx]
          exact h4 m hm

theorem AllGPUs.shaped_copy {sim : SimState} (h : AllGPUs ShapedGPU sim) :
    AllGPUs ShapedGPU (copyToOutput s sim).2 := by
  intro i g' hg'
  simp only [copyToOutput, List.getElem?_map] at hg'
  obtain ⟨g, hg, rfl⟩ := Option.map_eq_some_iff.mp hg'
  obtain ⟨h1, h2, h3, h4⟩ := h i g hg
  refine ⟨h1, fun n hn => ?_, ?_, fun n hn => ?_⟩
  · obtain ⟨m, hm, rfl⟩ := List.mem_map.mp hn
    exact h2 m hm
  · have hkeys : (copyGPU s g).vNodeList.map Node.key = g.vNodeList.map Node.key := by
      simp only [copyGPU, List.map_map]
      rfl
    rw [hkeys]
    exact h3
  · obtain ⟨m, hm, rfl⟩ := List.mem_map.mp hn
    have hids : (m.vTaskList.map fun t => { t with additionalRate := s.uninit.additionalRate }).map (·.id) =
        m.vTaskList.map (·.id) := by
      rw [List.map_map]
      rfl
    rw [hids]
    exact h4 m hm

/-! ## Reachable decisions -/

/-- A decision as `initiateDevs` builds it, before or after `initDevMems`. -/
def Initiated (s : Scheduler) (sim : SimState) : Prop :=
  (∃ input nDevs, sim = s.initiateDevs input nDevs) ∨ Fresh s sim

theorem Initiated.new {sim : SimState} (h : Initiated s sim) {i : Nat} {g : GPU}
    (hg : sim.vGPUList[i]? = some g) : NewGPU i g := by
  rcases h with ⟨input, nDevs, rfl⟩ | h
  · exact Scheduler.initiateDevs_new hg
  · exact (h.gpu hg).1

theorem Reachable.shaped (havail : AvailParts s.availParts) (hprofile : ProfileRange s)
    {sim : SimState} (h : Reachable s (Initiated s) sim) : AllGPUs ShapedGPU sim := by
  refine h.invariant (fun sim hs i g hg => (hs.new hg).shaped) ?_ fun _ => AllGPUs.shaped_copy
  intro k repart ids c act hc hguard
  exact hc.shaped_apply (s := (s.setMaxGPUs k).withRepart repart) havail
    ⟨hprofile.batch, hprofile.part⟩ hguard.1

/-- **Partition invariant.** In every reachable decision the GPU at index `i`
has id `i` and one or two nodes; their ids are `i`, their partition sizes are
positive and sum to 100, no two of them share partition size and dedup number,
and no model is on a node twice. -/
theorem reachable_partitioned (havail : AvailParts s.availParts) (hprofile : ProfileRange s)
    {sim : SimState} (h : Reachable s (Initiated s) sim) {i : Nat} {g : GPU}
    (hg : sim.vGPUList[i]? = some g) :
    g.GPUID = i ∧ (g.vNodeList.length = 1 ∨ g.vNodeList.length = 2) ∧
      (∀ n ∈ g.vNodeList, n.id = i ∧ 0 < n.resourcePntg) ∧
      (g.vNodeList.map (·.resourcePntg)).sum = 100 ∧
      (g.vNodeList.map fun n => (n.resourcePntg, n.dedupNum)).Nodup ∧
      ∀ n ∈ g.vNodeList, (n.vTaskList.map (·.id)).Nodup := by
  obtain ⟨h1, h2, h3, h4⟩ := h.shaped havail hprofile i g hg
  refine ⟨h1, by simpa using h3.length, fun n hn => ⟨h2 n hn, ?_⟩, ?_, h3.nodup, h4⟩
  · exact h3.pos _ (List.mem_map.mpr ⟨n, hn, rfl⟩)
  · have hsum := h3.sum
    rw [List.map_map] at hsum
    exact hsum

theorem profileRange_plain (parts : List Int) (latency : Int → Int → ℚ) (n : Int) :
    ProfileRange (Scheduler.plain (Scheduler.profile parts latency) parts n) := by
  refine ⟨fun {_ name _ _ _} h => ?_, fun {_ name _ _ _} h => ?_⟩
  · obtain ⟨h1, h2, -⟩ := Scheduler.profile_ok name h
    exact ⟨h1, h2⟩
  · exact (Scheduler.profile_ok name h).2.2.1

/-- One GPU, split by its first task. -/
theorem partitioned_after_split :
    ∃ o g, (Scheduler.plain (Scheduler.profile [100, 80, 50, 20] fun batch _ => 10 + batch)
        [100, 80, 50, 20] 1).firstRun [Scheduler.request 0 100 80] true = .ok o ∧
      o.prev.vGPUList = [g] ∧ g.vNodeList.length = 2 ∧
      (g.vNodeList.map (·.resourcePntg)).sum = 100 := by
  obtain ⟨o, hrun, ho⟩ := Query.of_returns
    (q := (Scheduler.plain (Scheduler.profile [100, 80, 50, 20] fun batch _ => 10 + batch)
      [100, 80, 50, 20] 1).firstRun [Scheduler.request 0 100 80] true)
    (p := fun o => decide (o.prev.vGPUList.map (·.vNodeList.length) = [2])) (by decide +kernel)
  obtain ⟨g, hg, hlen⟩ := List.map_eq_singleton_iff.mp (of_decide_eq_true ho)
  have hparts := reachable_partitioned
    (s := Scheduler.plain (Scheduler.profile [100, 80, 50, 20] fun batch _ => 10 + batch)
      [100, 80, 50, 20] 1)
    ⟨by decide, by decide, by decide⟩ (profileRange_plain _ _ _)
    (.prev (.start (Or.inr (Scheduler.setUp_fresh rfl))) .empty hrun) (i := 0) (g := g)
    (by rw [hg]; rfl)
  exact ⟨o, g, hrun, hg, hlen, hparts.2.2.2.1⟩

end Glet
