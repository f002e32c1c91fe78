import Glet.Calls

/-!
# Both loops of `readjust` end

An iteration that goes on takes one given node off the list, whether it placed a
gpu-let, took it back or was denied the memory. Before that it may have split a
whole GPU, which puts a node on the list: so a whole node counts twice
(`weight`), and since neither half of a split is whole an iteration lowers the
weight by one at least (`saturateBatch_turn`, `splitResidue_turn`). The nodes it
does not choose keep their sizes (`Kept`).

The rate that lets an iteration start is above TRP_SLACK. Up to there
`estimateTrp` returns nothing, above it at least one gpu-let
(`estimate_ne_nil`), and what the first loop tests besides, the additional rate,
is 0 while it runs.
-/

namespace Glet

open Recorder

variable {s : Scheduler} {r r1 r2 r' : Rec Core Action} {c c1 c2 : Core} {a b : Addr}
  {n n' : Node} {act : Action} {repart : Bool} {table : SatTable} {given given' : List Addr}

/-! ## Sizes stay -/

/-- The nodes of a decision stay where they are, with their sizes, and an
additional rate of 0 stays 0. -/
structure Kept (c c' : Core) : Prop where
  parts : ∀ b n, c.sim.node? b = some n →
    ∃ n', c'.sim.node? b = some n' ∧ n'.resourcePntg = n.resourcePntg
  additional : c.task.additionalRate = 0 → c'.task.additionalRate = 0

theorem Kept.refl (c : Core) : Kept c c := ⟨fun _ n hn => ⟨n, hn, rfl⟩, id⟩

theorem Kept.trans (h : Kept c c1) (h' : Kept c1 c2) : Kept c c2 := by
  refine ⟨fun b n hn => ?_, h'.additional ∘ h.additional⟩
  obtain ⟨n1, hn1, hpart1⟩ := h.parts b n hn
  obtain ⟨n2, hn2, hpart2⟩ := h'.parts b n1 hn1
  exact ⟨n2, hn2, hpart2.trans hpart1⟩

/-- A write that keeps the size. -/
theorem Kept.write {f : Node → Node}
    (hf : ∀ n, c.sim.node? a = some n → (f n).resourcePntg = n.resourcePntg) :
    Kept c (c.write a f) := by
  refine ⟨fun b n hn => ?_, fun h => by rw [Core.write_task]; exact h⟩
  by_cases hb : b = a
  · subst hb
    rw [Core.write_of_node hn]
    exact ⟨f n, SimState.node?_setNode_self hn, hf n hn⟩
  · refine ⟨n, ?_, rfl⟩
    rw [Core.write_node?, if_neg hb, hn]

theorem Kept.adjust (hn : c.sim.node? b = some n) (hpart : n'.resourcePntg = n.resourcePntg) :
    Kept c ((Action.adjust b n').apply repart c) := by
  refine .write fun m hm => ?_
  obtain rfl : n = m := Option.some.inj (hn.symm.trans hm)
  exact hpart

/-- The actions of `readjust` other than a split and the adjustment of a
neighbour keep the sizes. -/
theorem Kept.apply (hre : act.isReadjust = true) (hsplit : ∀ b p, act ≠ .split b p)
    (hadj : ∀ b n', act ≠ .adjust b n') : Kept c (act.apply repart c) := by
  cases act with
  | split b p => exact absurd rfl (hsplit b p)
  | prime => exact .write fun _ _ => rfl
  | place b kind t duty occupancy =>
      have h : Kept c (c.write b fun n => { n with
        vTaskList := n.vTaskList ++ [t], dutyCycle := some duty, occupancy }) := .write fun _ _ => rfl
      exact ⟨h.parts, h.additional⟩
  | bandwidthOK => exact ⟨(Kept.refl c).parts, id⟩
  | revert b =>
      have h : Kept c (c.write b fun n =>
        { n with vTaskList := [], dutyCycle := some 0, occupancy := 0 }) := .write fun _ _ => rfl
      exact ⟨h.parts, h.additional⟩
  | accept => exact ⟨(Kept.refl c).parts, id⟩
  | absorb => exact ⟨(Kept.refl c).parts, fun _ => rfl⟩
  | rerate => exact ⟨(Kept.refl c).parts, id⟩
  | adjust b n' => exact absurd rfl (hadj b n')
  | charge b i used m =>
      refine ⟨fun b n hn => ⟨n, ?_, rfl⟩, id⟩
      have hnode : (c.sim.modifyGPU i fun gpu => { gpu with
          usedMemory := used, vLoadedParts := gpu.vLoadedParts ++ [m] }).node? b = c.sim.node? b :=
        SimState.node?_modifyGPU fun _ => rfl
      exact hnode.trans hn
  | skipCharge => exact ⟨(Kept.refl c).parts, id⟩
  | _ => cases hre

namespace Scheduler

/-- What an action that writes no size leaves. -/
theorem kept_did (act : Action) (hre : act.isReadjust = true) (hsplit : ∀ b p, act ≠ .split b p)
    (hadj : ∀ b n', act ≠ .adjust b n') : Kept r.cur (s.did act r).cur :=
  Kept.apply hre hsplit hadj

theorem adjustOtherNodes_kept {new : Node} {bs : List Addr} {revert revert' : Bool}
    (h : s.adjustOtherNodes new bs revert r = .ok (revert', r')) (hint : s.useInterference = true) :
    Kept r.cur r'.cur := by
  refine ((adjustOtherNodes_ok h hint).1.strengthen (I := Kept r.cur) ?_ (.refl _)).2
  rintro c act hc ⟨hdetail, b, n', rfl⟩
  obtain ⟨-, n, hn, hadj⟩ := hdetail
  exact hc.trans (.adjust hn hadj.part_eq)

theorem checkNeedtoRevert_kept {revert : Bool} (h : s.checkNeedtoRevert a r = .ok (revert, r')) :
    Kept r.cur r'.cur := by
  unfold checkNeedtoRevert at h
  obtain ⟨n, -, h⟩ := getNode_bind h
  obtain ⟨gpu, -, h⟩ := getGPU_bind h
  have key : ∀ (exceeded : Bool) (r1 : Rec Core Action), Kept r.cur r1.cur →
      (if s.useInterference = true then do
        let sim ← getSim
        let revert ← s.adjustOtherNodes n (gpuAddrs sim n.id) exceeded
        if revert = true then pure () else s.act .absorb
        pure revert
      else pure exceeded : Sched Bool) r1 = .ok (revert, r') → Kept r.cur r'.cur := by
    intro exceeded r1 h1 hk
    split at hk
    case isFalse =>
      obtain ⟨-, rfl⟩ := pure_end hk
      exact h1
    case isTrue hint =>
      replace hk := getSim_bind hk
      obtain ⟨rev, r2, hadj, hk⟩ := Prog.bind_ok hk
      have h2 := h1.trans (adjustOtherNodes_kept hadj hint)
      cases rev with
      | true =>
          obtain ⟨-, rfl⟩ := pure_end hk
          exact h2
      | false =>
          replace hk := act_bind hk
          obtain ⟨-, rfl⟩ := pure_end hk
          exact h2.trans (kept_did .absorb rfl (by simp) (by simp))
  dsimp only at h
  cases hexceeded : (s.checkNetBW && s.isNLCInitated && !s.isBandwidthOK gpu) with
  | true =>
      rw [hexceeded] at h
      exact key true r (.refl _) h
  | false =>
      rw [hexceeded] at h
      replace h := act_bind h
      exact key false _ (kept_did (.bandwidthOK a) rfl (by simp) (by simp)) h

theorem addGPUMemUsage_kept {u : Unit} (h : s.addGPUMemUsage a r = .ok (u, r')) :
    Kept r.cur r'.cur := by
  unfold addGPUMemUsage at h
  split at h
  case isFalse =>
    obtain ⟨-, rfl⟩ := pure_end h
    exact .refl _
  case isTrue =>
    obtain ⟨n, -, h⟩ := getNode_bind h
    replace h := getTask_bind h
    obtain ⟨gpu, -, h⟩ := getGPU_bind h
    obtain ⟨o, -, h⟩ := query_bind h
    cases o with
    | none =>
        obtain rfl := act_end h
        exact kept_did (.skipCharge a) rfl (by simp) (by simp)
    | some p =>
        obtain rfl := act_end h
        exact kept_did (.charge a n.id p.1 p.2) rfl (by simp) (by simp)

theorem settle_kept {t : Task} {remaining : Int → ℚ → Int} {u : Unit}
    (h : s.settle a t remaining r = .ok (u, r')) : Kept r.cur r'.cur := by
  unfold settle at h
  obtain ⟨revert, r1, hrevert, h⟩ := Prog.bind_ok h
  have h1 := checkNeedtoRevert_kept hrevert
  cases revert with
  | true =>
      obtain ⟨n, -, h⟩ := getNode_bind h
      obtain ⟨-, -, h⟩ := query_bind h
      obtain rfl := act_end h
      exact h1.trans (kept_did (.revert a) rfl (by simp) (by simp))
  | false =>
      obtain ⟨⟨⟩, r2, hcharge, h⟩ := Prog.bind_ok h
      replace h := getTask_bind h
      obtain rfl := act_end h
      exact (h1.trans (addGPUMemUsage_kept hcharge)).trans (kept_did (.accept a _) rfl (by simp) (by simp))

theorem placeSaturated_kept {batch : Int} {latency trp : ℚ} {o : Option Unit}
    (h : s.placeSaturated a batch latency trp r = .ok (o, r')) : Kept r.cur r'.cur := by
  unfold placeSaturated at h
  replace h := getTask_bind h
  obtain ⟨n, -, h⟩ := getNode_bind h
  obtain ⟨gpu, -, h⟩ := getGPU_bind h
  obtain ⟨ot, -, h⟩ := query_bind h
  cases ot with
  | none =>
      obtain ⟨-, rfl⟩ := pure_end h
      exact .refl _
  | some t =>
      obtain ⟨fits, -, h⟩ := query_bind h
      cases fits with
      | false =>
          obtain ⟨-, rfl⟩ := pure_end h
          exact .refl _
      | true =>
          replace h := act_bind h
          obtain ⟨⟨⟩, r1, hsettle, h⟩ := Prog.bind_ok h
          obtain ⟨-, rfl⟩ := pure_end h
          exact (kept_did (.place a .saturated t latency _) rfl (by simp) (by simp)).trans (settle_kept hsettle)

theorem placeResidue_kept {o : Option Unit} (h : s.placeResidue a r = .ok (o, r')) :
    Kept r.cur r'.cur := by
  unfold placeResidue at h
  obtain ⟨n, -, h⟩ := getNode_bind h
  replace h := getSim_bind h
  replace h := getTask_bind h
  obtain ⟨⟨batch, rate⟩, -, h⟩ := query_bind h
  replace h := act_bind h
  have h0 : Kept r.cur (s.did (.rerate rate) r).cur := kept_did (.rerate rate) rfl (by simp) (by simp)
  split at h
  case isTrue =>
    obtain ⟨-, rfl⟩ := pure_end h
    exact h0
  case isFalse =>
    obtain ⟨period, -, h⟩ := query_bind h
    replace h := act_bind h
    have h1 := h0.trans (kept_did (s := s) (r := s.did (.rerate rate) r)
      (.prime a (batch * period) n.occupancy) rfl (by simp) (by simp))
    obtain ⟨trp, -, h⟩ := query_bind h
    obtain ⟨gpu, -, h⟩ := getGPU_bind h
    obtain ⟨ot, -, h⟩ := query_bind h
    cases ot with
    | none =>
        obtain ⟨-, rfl⟩ := pure_end h
        exact h1
    | some t =>
        obtain ⟨latency, -, h⟩ := query_bind h
        obtain ⟨occupancy, -, h⟩ := query_bind h
        replace h := act_bind h
        have h2 := h1.trans (kept_did (s := s) (.prime a (batch * period) occupancy)
          rfl (by simp) (by simp))
        obtain ⟨fits, -, h⟩ := query_bind h
        cases fits with
        | false =>
            obtain ⟨-, rfl⟩ := pure_end h
            exact h2
        | true =>
            replace h := act_bind h
            obtain ⟨⟨⟩, r1, hsettle, h⟩ := Prog.bind_ok h
            obtain ⟨-, rfl⟩ := pure_end h
            exact (h2.trans (kept_did (.place a .residue t _ occupancy) rfl (by simp) (by simp))).trans
              (settle_kept hsettle)

/-! ## What is left of the list -/

/-- A whole GPU counts twice, as it may be split. -/
def share (sim : SimState) (a : Addr) : Nat :=
  if (sim.node? a).map (·.resourcePntg) = some 100 then 2 else 1

/-- The turns that a list of given nodes is good for. -/
def weight (sim : SimState) (given : List Addr) : Nat := (given.map (share sim)).sum

/-- Distinct nodes of a decision. -/
structure Listed (sim : SimState) (given : List Addr) : Prop where
  nodup : given.Nodup
  found : ∀ a ∈ given, ∃ n, sim.node? a = some n

theorem share_of_node {sim : SimState} (hn : sim.node? a = some n) :
    share sim a = if n.resourcePntg = 100 then 2 else 1 := by
  simp [share, hn]

theorem one_le_share (sim : SimState) (a : Addr) : 1 ≤ share sim a := by
  unfold share
  split <;> omega

theorem share_le_two (sim : SimState) (a : Addr) : share sim a ≤ 2 := by
  unfold share
  split <;> omega

theorem weight_perm {sim : SimState} (h : given'.Perm given) : weight sim given' = weight sim given :=
  (h.map _).sum_eq

theorem weight_append (sim : SimState) (given given' : List Addr) :
    weight sim (given ++ given') = weight sim given + weight sim given' := by
  simp [weight]

theorem weight_erase {sim : SimState} (ha : a ∈ given) :
    weight sim given = share sim a + weight sim (given.erase a) := by
  rw [weight_perm (List.perm_cons_erase ha)]
  simp [weight]

theorem weight_le (sim : SimState) (given : List Addr) : weight sim given ≤ 2 * given.length := by
  induction given with
  | nil => exact le_rfl
  | cons a given ih =>
      have h2 := share_le_two sim a
      simp only [weight, List.map_cons, List.sum_cons, List.length_cons] at ih ⊢
      omega

theorem Listed.perm {sim : SimState} (h : Listed sim given) (hp : given'.Perm given) :
    Listed sim given' :=
  ⟨hp.nodup_iff.mpr h.nodup, fun a ha => h.found a (hp.mem_iff.mp ha)⟩

theorem Listed.erase {sim : SimState} (h : Listed sim given) (a : Addr) :
    Listed sim (given.erase a) :=
  ⟨h.nodup.erase a, fun b hb => h.found b (List.mem_of_mem_erase hb)⟩

theorem Listed.kept (h : Listed c.sim given) (hk : Kept c c') : Listed c'.sim given := by
  refine ⟨h.nodup, fun a ha => ?_⟩
  obtain ⟨n, hn⟩ := h.found a ha
  obtain ⟨n', hn', -⟩ := hk.parts a n hn
  exact ⟨n', hn'⟩

theorem Listed.weight_kept (h : Listed c.sim given) (hk : Kept c c') :
    weight c'.sim given = weight c.sim given := by
  refine congrArg List.sum (List.map_congr_left fun a ha => ?_)
  obtain ⟨n, hn⟩ := h.found a ha
  obtain ⟨n', hn', hpart⟩ := hk.parts a n hn
  rw [share_of_node hn, share_of_node hn', hpart]

/-- The node chosen is on the list and may be taken off, after a split as
before. -/
structure Chosen (c : Core) (a : Addr) (given : List Addr) (c' : Core) (given' : List Addr) :
    Prop where
  mem : a ∈ given'
  listed : Listed c'.sim given'
  lighter : weight c'.sim (given'.erase a) < weight c.sim given
  weight_le : weight c'.sim given' ≤ weight c.sim given
  additional : c.task.additionalRate = 0 → c'.task.additionalRate = 0

theorem Chosen.unsplit (hl : Listed c.sim given) (ha : a ∈ given) : Chosen c a given c given := by
  refine ⟨ha, hl, ?_, le_rfl, id⟩
  rw [weight_erase ha]
  exact Nat.lt_add_of_pos_left (one_le_share _ _)

/-- A split of a whole GPU puts a node on the list, and leaves no whole one in
its place. -/
theorem Chosen.split (repart : Bool) {gpu : GPU} {part : Int} (hl : Listed c.sim given) (ha : a ∈ given)
    (hn : c.sim.node? a = some n) (h100 : n.resourcePntg = 100) (hpos : 0 < part)
    (hlt : part < 100) (hgpu : c.sim.vGPUList[n.id]? = some gpu)
    (hp : given'.Perm (given ++ [⟨n.id, gpu.vNodeList.length⟩])) :
    Chosen c a given ((Action.split a part).apply repart c) given' := by
  have hnode : ∀ b, ((Action.split a part).apply repart c).sim.node? b =
      if b = ⟨n.id, gpu.vNodeList.length⟩ then some (restNode n part)
      else if b = a then some { n with resourcePntg := part } else c.sim.node? b :=
    split_node? hn hgpu
  set c' := (Action.split a part).apply repart c with hc'
  set new : Addr := ⟨n.id, gpu.vNodeList.length⟩ with hnew
  have hfresh : c.sim.node? new = none := SimState.node?_length hgpu
  have hne : ∀ b ∈ given, b ≠ new := by
    rintro b hb rfl
    obtain ⟨m, hm⟩ := hl.found _ hb
    rw [hfresh] at hm
    cases hm
  have hshare_new : share c'.sim new = 1 := by
    have hrest : (restNode n part).resourcePntg ≠ 100 := by
      simp only [restNode, makeEmptyNode]
      omega
    rw [share_of_node (by rw [hnode, if_pos rfl]), if_neg hrest]
  have hshare_a : share c'.sim a = 1 := by
    rw [share_of_node (by rw [hnode, if_neg (hne a ha), if_pos rfl]), if_neg (by simp only; omega)]
  have hrest : weight c'.sim (given.erase a) = weight c.sim (given.erase a) := by
    refine congrArg List.sum (List.map_congr_left fun b hb => ?_)
    have hba : b ≠ a := (hl.nodup.mem_erase_iff.mp hb).1
    have hsame : c'.sim.node? b = c.sim.node? b := by
      rw [hnode, if_neg (hne b (List.mem_of_mem_erase hb)), if_neg hba]
    rw [share, share, hsame]
  have hbefore : weight c.sim given = 2 + weight c.sim (given.erase a) := by
    rw [weight_erase ha, share_of_node hn, if_pos h100]
  have hafter : weight c'.sim given' = 2 + weight c.sim (given.erase a) := by
    have hone : weight c'.sim [new] = 1 := by simp [weight, hshare_new]
    rw [weight_perm hp, weight_append, weight_erase ha, hshare_a, hrest, hone]
    omega
  have hmem : a ∈ given' := hp.mem_iff.mpr (List.mem_append_left _ ha)
  have hlisted : Listed c'.sim (given ++ [new]) := by
    refine ⟨List.nodup_append.mpr ⟨hl.nodup, List.nodup_singleton _, ?_⟩, fun b hb => ?_⟩
    · intro b hb b' hb'
      rw [List.mem_singleton.mp hb']
      exact hne b hb
    · rcases List.mem_append.mp hb with hb | hb
      · obtain ⟨m, hm⟩ := hl.found b hb
        by_cases hba : b = a
        · exact ⟨_, by rw [hnode, if_neg (hne b hb), if_pos hba]⟩
        · exact ⟨m, by rw [hnode, if_neg (hne b hb), if_neg hba, hm]⟩
      · rw [List.mem_singleton.mp hb]
        exact ⟨_, by rw [hnode, if_pos rfl]⟩
  refine ⟨hmem, hlisted.perm hp, ?_, by omega, fun h => ?_⟩
  · have hchosen : weight c'.sim given' = share c'.sim a + weight c'.sim (given'.erase a) :=
      weight_erase hmem
    omega
  · have htask : c'.task = c.task := by
      rw [hc', Action.apply]
      split <;> rfl
    rw [htask, h]

/-! ## The estimate of a split -/

theorem getEstimateTrpST_length {device : DeviceType} {id SLO rate : Int} {fuel : Nat}
    {out res : List Node} (h : s.getEstimateTrpST table device id SLO fuel rate out = .ok res) :
    out.length ≤ res.length ∧ (0 < rate → out.length < res.length) := by
  induction fuel generalizing rate out with
  | zero =>
      unfold getEstimateTrpST at h
      split at h
      case isTrue hrate =>
        obtain rfl := Except.ok.inj h
        exact ⟨le_rfl, fun hpos => by omega⟩
      case isFalse => cases h
  | succ fuel ih =>
      unfold getEstimateTrpST at h
      split at h
      case isTrue hrate =>
        obtain rfl := Except.ok.inj h
        exact ⟨le_rfl, fun hpos => by omega⟩
      case isFalse =>
        simp only [Query.bind_ok, Prod.exists] at h
        obtain ⟨p, trp, batch, -, -, -, v, -, period, -, occ, -, h⟩ := h
        have hlen := (ih h).1
        rw [List.length_append, List.length_singleton] at hlen
        exact ⟨by omega, fun _ => by omega⟩

theorem estimateTrp_length {device : DeviceType} {id SLO rate : Int} {fuel : Nat}
    {out res : List Node} (h : s.estimateTrp table device id SLO fuel rate out = .ok res) :
    out.length ≤ res.length ∧ (trpSlack < rate → out.length < res.length) := by
  have hpos : ∀ {z : Int}, trpSlack < z → 0 < z := fun hz => lt_trans (by decide) hz
  induction fuel generalizing rate out with
  | zero =>
      unfold estimateTrp at h
      split at h
      case isTrue hrate =>
        obtain rfl := Except.ok.inj h
        exact ⟨le_rfl, fun hlt => absurd hrate (not_le.mpr hlt)⟩
      case isFalse =>
        split at h
        case isTrue =>
          obtain ⟨hle, hlt⟩ := getEstimateTrpST_length h
          exact ⟨hle, fun hrate => hlt (hpos hrate)⟩
        case isFalse => cases h
  | succ fuel ih =>
      unfold estimateTrp at h
      split at h
      case isTrue hrate =>
        obtain rfl := Except.ok.inj h
        exact ⟨le_rfl, fun hlt => absurd hrate (not_le.mpr hlt)⟩
      case isFalse =>
        split at h
        case isTrue =>
          obtain ⟨hle, hlt⟩ := getEstimateTrpST_length h
          exact ⟨hle, fun hrate => hlt (hpos hrate)⟩
        case isFalse =>
          simp only [Query.bind_ok, Prod.exists] at h
          obtain ⟨maxPart, -, limit, b, -, h⟩ := h
          split at h
          · simp only [Query.bind_ok, Prod.exists] at h
            obtain ⟨n, trp, -, h⟩ := h
            have hlen := (ih h).1
            rw [List.length_append, List.length_singleton] at hlen
            exact ⟨by omega, fun _ => by omega⟩
          · simp only [Query.bind_ok, Query.pure_ok] at h
            obtain ⟨n, -, rfl⟩ := h
            rw [List.length_append, List.length_singleton]
            exact ⟨by omega, fun _ => by omega⟩

/-- Above the cut-off an estimate is never empty. -/
theorem estimate_ne_nil {device : DeviceType} {id SLO rate : Int} (hrate : trpSlack < rate) :
    s.estimate table device id SLO rate ≠ .ok [] := by
  intro h
  have hlt := (estimateTrp_length h).2 hrate
  exact absurd hlt (lt_irrefl _)

/-! ## One turn -/

/-- The partition sizes of all estimates are positive. -/
def PositiveParts (s : Scheduler) (table : SatTable) : Prop :=
  ∀ type id SLO rate est, s.estimate table type id SLO rate = .ok est →
    ∀ n ∈ est, 0 < n.resourcePntg

theorem splitGiven_chosen {batch : Int} (hpos : s.PositiveParts table)
    (hl : Listed r.cur.sim given) (ha : a ∈ given) (hn : r.cur.sim.node? a = some n)
    (h100 : n.resourcePntg = 100) (h : s.splitGiven table a given r = .ok ((batch, given'), r')) :
    Chosen r.cur a given r'.cur given' := by
  unfold splitGiven at h
  replace h := getTask_bind h
  obtain ⟨n', hn', h⟩ := getNode_bind h
  obtain rfl : n = n' := Option.some.inj (hn.symm.trans hn')
  obtain ⟨es, hes, h⟩ := query_bind h
  cases es with
  | nil =>
      obtain ⟨b, hb, -⟩ := Prog.ask_ok h
      cases hb
  | cons first rest =>
      have hpart := hpos _ _ _ _ _ hes first (List.mem_cons_self ..)
      rcases htasks : first.vTaskList with _ | ⟨e, _ | ⟨e', es⟩⟩ <;> simp only [htasks] at h
      · obtain ⟨b, hb, -⟩ := Prog.ask_ok h
        cases hb
      · split at h
        case isFalse =>
          obtain ⟨heq, rfl⟩ := pure_end h
          obtain ⟨-, rfl⟩ := Prod.mk.injEq .. |>.mp heq
          exact .unsplit hl ha
        case isTrue hlt =>
          obtain ⟨gpu, hgpu, h⟩ := getGPU_bind h
          replace h := act_bind h
          replace h := getSim_bind h
          obtain ⟨heq, rfl⟩ := pure_end h
          obtain ⟨-, rfl⟩ := Prod.mk.injEq .. |>.mp heq
          refine .split s.useRepartition hl ha hn h100 hpart hlt hgpu ?_
          refine ((sortNodes_perm _ _).append_left _).trans ?_
          rw [List.take_append_drop]
      · obtain ⟨b, hb, -⟩ := Prog.ask_ok h
        cases hb

theorem saturateBatch_chosen {batch : Int} (hpos : s.PositiveParts table)
    (hl : Listed r.cur.sim given) (ha : a ∈ given)
    (h : s.saturateBatch table a given r = .ok ((batch, given'), r')) :
    Chosen r.cur a given r'.cur given' := by
  unfold saturateBatch at h
  obtain ⟨n, hn, h⟩ := getNode_bind h
  split at h
  case isTrue hcond => exact splitGiven_chosen hpos hl ha hn hcond.1 h
  case isFalse =>
    replace h := getTask_bind h
    replace h := getSim_bind h
    obtain ⟨⟨b, req⟩, -, h⟩ := query_bind h
    obtain ⟨heq, rfl⟩ := pure_end h
    obtain ⟨-, rfl⟩ := Prod.mk.injEq .. |>.mp heq
    exact .unsplit hl ha

theorem splitResidue_chosen (hpos : s.PositiveParts table) (hl : Listed r.cur.sim given)
    (ha : a ∈ given) (h : s.splitResidue table a given r = .ok (given', r')) :
    Chosen r.cur a given r'.cur given' := by
  unfold splitResidue at h
  obtain ⟨n, hn, h⟩ := getNode_bind h
  split at h
  case isTrue hcond =>
    obtain ⟨⟨batch, given1⟩, r1, hsplit, h⟩ := Prog.bind_ok h
    obtain ⟨rfl, rfl⟩ := pure_end h
    exact splitGiven_chosen hpos hl ha hn hcond.1 hsplit
  case isFalse =>
    obtain ⟨rfl, rfl⟩ := pure_end h
    exact .unsplit hl ha

/-- What a loop works on: distinct nodes, fewer turns left to take than it may
turn, and no additional rate. -/
structure Working (c : Core) (given : List Addr) (fuel : Nat) : Prop where
  listed : Listed c.sim given
  enough : weight c.sim given < fuel
  additional : c.task.additionalRate = 0

/-- A turn leaves the next one one node less. -/
theorem Working.next {fuel : Nat} (hw : Working c given (fuel + 1))
    (hchosen : Chosen c a given c1 given') (hk : Kept c1 c2) :
    Working c2 (given'.erase a) fuel := by
  have hl := hchosen.listed.erase a
  refine ⟨hl.kept hk, ?_, hk.additional (hchosen.additional hw.additional)⟩
  rw [hl.weight_kept hk]
  exact lt_of_lt_of_le hchosen.lighter (Nat.lt_succ_iff.mp hw.enough)

theorem Working.mono {fuel fuel' : Nat} (hw : Working c given fuel) (hle : fuel ≤ fuel') :
    Working c given fuel' :=
  ⟨hw.listed, lt_of_lt_of_le hw.enough hle, hw.additional⟩

/-! ## The loops -/

/-- The nodes that the first loop leaves to the second. -/
theorem saturateLoop_working {fuel k : Nat} (hpos : s.PositiveParts table)
    (hw : Working r.cur given k)
    (h : s.saturateLoop table fuel given r = .ok (.toResidue given', r')) :
    Working r'.cur given' k := by
  induction fuel generalizing given r k with
  | zero => cases h
  | succ fuel ih =>
      unfold saturateLoop at h
      replace h := getTask_bind h
      split at h
      case isTrue =>
        obtain ⟨hstop, -⟩ := pure_end h
        cases hstop
      case isFalse =>
        replace h := getSim_bind h
        obtain ⟨a, ha, h⟩ := query_bind h
        obtain ⟨⟨batch, given1⟩, r1, hbatch, h⟩ := Prog.bind_ok h
        have hchosen := saturateBatch_chosen hpos hw.listed (chooseNode_mem ha) hbatch
        obtain ⟨n, -, h⟩ := getNode_bind h
        replace h := getSim_bind h
        obtain ⟨latency, -, h⟩ := query_bind h
        obtain ⟨period, -, h⟩ := query_bind h
        split at h
        case isTrue =>
          obtain ⟨heq, rfl⟩ := pure_end h
          obtain rfl := LoopEnd.toResidue.inj heq
          exact ⟨hchosen.listed, lt_of_le_of_lt hchosen.weight_le hw.enough,
            hchosen.additional hw.additional⟩
        case isFalse =>
          obtain ⟨o, r2, hplace, h⟩ := Prog.bind_ok h
          cases o with
          | none =>
              obtain ⟨hfailed, -⟩ := pure_end h
              cases hfailed
          | some u =>
              cases k with
              | zero => exact absurd hw.enough (Nat.not_lt_zero _)
              | succ k =>
                  exact (ih (hw.next hchosen (placeSaturated_kept hplace)) h).mono (Nat.le_succ k)

/-- More turns than there are to take change nothing. -/
theorem saturateLoop_more {fuel fuel' : Nat} (hpos : s.PositiveParts table)
    (hw : Working r.cur given fuel) (hle : fuel ≤ fuel') :
    s.saturateLoop table fuel' given r = s.saturateLoop table fuel given r := by
  induction fuel generalizing given r fuel' with
  | zero => exact absurd hw.enough (Nat.not_lt_zero _)
  | succ fuel ih =>
      obtain ⟨fuel', rfl⟩ : ∃ k, fuel' = k + 1 := ⟨fuel' - 1, by omega⟩
      unfold saturateLoop
      rw [getTask_then, getTask_then]
      split
      case isTrue => rfl
      case isFalse =>
        rw [getSim_then, getSim_then]
        refine Prog.ask_bind_congr fun a ha => ?_
        refine Prog.bind_congr fun p r1 hbatch => ?_
        obtain ⟨batch, given'⟩ := p
        have hchosen := saturateBatch_chosen hpos hw.listed (chooseNode_mem ha) hbatch
        refine Prog.ask_bind_congr fun n _ => ?_
        rw [getSim_then, getSim_then]
        refine Prog.ask_bind_congr fun latency _ => Prog.ask_bind_congr fun period _ => ?_
        split
        case isTrue => rfl
        case isFalse =>
          refine Prog.bind_congr fun o r2 hplace => ?_
          cases o with
          | none => rfl
          | some u => exact ih (hw.next hchosen (placeSaturated_kept hplace)) (by omega)

theorem residueLoop_more {fuel fuel' : Nat} (hpos : s.PositiveParts table)
    (hw : Working r.cur given fuel) (hle : fuel ≤ fuel') :
    s.residueLoop table fuel' given r = s.residueLoop table fuel given r := by
  induction fuel generalizing given r fuel' with
  | zero => exact absurd hw.enough (Nat.not_lt_zero _)
  | succ fuel ih =>
      obtain ⟨fuel', rfl⟩ : ∃ k, fuel' = k + 1 := ⟨fuel' - 1, by omega⟩
      unfold residueLoop
      rw [getTask_then, getTask_then]
      split
      case isTrue => rfl
      case isFalse =>
        split
        case isTrue => rfl
        case isFalse =>
          rw [getSim_then, getSim_then]
          refine Prog.ask_bind_congr fun a ha => ?_
          refine Prog.bind_congr fun given' r1 hsplit => ?_
          have hchosen := splitResidue_chosen hpos hw.listed (chooseNode_mem ha) hsplit
          refine Prog.bind_congr fun o r2 hplace => ?_
          cases o with
          | none => rfl
          | some u => exact ih (hw.next hchosen (placeResidue_kept hplace)) (by omega)

/-! ## Every call of `readjust` -/

/-- What `readjust` relies on, and what holds of the calls it makes. -/
def Call.Ready (s : Scheduler) (r : Rec Core Action) : Call → Prop
  | readjust table given => s.PositiveParts table ∧ Listed r.cur.sim given ∧
      2 * given.length < s.fuel ∧ (s.useInterference = false → r.cur.task.additionalRate = 0)
  | saturateLoop table fuel given | residueLoop table fuel given =>
      s.PositiveParts table ∧ Working r.cur given fuel
  | splitGiven _ _ _ => trpSlack < r.cur.task.requestRate
  | chooseNode _ _ | getMinPartSum _ _ | getMaxReturnPart _ _ _ | estimate _ _ _ => True
  | _ => False

/-- The record in which `readjust` starts its first loop. -/
abbrev absorbed (s : Scheduler) (r : Rec Core Action) : Rec Core Action :=
  if s.useInterference then s.did .absorb r else r

theorem absorbed_working (hl : Listed r.cur.sim given) (hfuel : 2 * given.length < s.fuel)
    (hadd : s.useInterference = false → r.cur.task.additionalRate = 0) :
    Working (s.absorbed r).cur (s.sortNodes r.cur.sim given) s.fuel := by
  have hperm := sortNodes_perm (s := s) r.cur.sim given
  have hweight : weight r.cur.sim (s.sortNodes r.cur.sim given) < s.fuel := by
    rw [weight_perm hperm]
    exact lt_of_le_of_lt (weight_le _ _) hfuel
  unfold absorbed
  split
  case isTrue => exact ⟨hl.perm hperm, hweight, rfl⟩
  case isFalse hint => exact ⟨hl.perm hperm, hweight, hadd (Bool.eq_false_iff.mpr hint)⟩

theorem Invokes.ready {p p' : Call × Rec Core Action} (h : s.Invokes p p')
    (hready : p.1.Ready s p.2) : p'.1.Ready s p'.2 := by
  cases h with
  | saturate =>
      obtain ⟨hpos, hl, hfuel, hadd⟩ := hready
      exact ⟨hpos, absorbed_working hl hfuel hadd⟩
  | residue hsat =>
      obtain ⟨hpos, hl, hfuel, hadd⟩ := hready
      exact ⟨hpos, saturateLoop_working hpos (absorbed_working hl hfuel hadd) hsat⟩
  | saturateRest hcond ha hbatch hn hlat hne hroom hplace =>
      obtain ⟨hpos, hw⟩ := hready
      exact ⟨hpos, hw.next (saturateBatch_chosen hpos hw.listed (chooseNode_mem ha) hbatch)
        (placeSaturated_kept hplace)⟩
  | residueRest hrate hne ha hsplit hplace =>
      obtain ⟨hpos, hw⟩ := hready
      exact ⟨hpos, hw.next (splitResidue_chosen hpos hw.listed (chooseNode_mem ha) hsplit)
        (placeResidue_kept hplace)⟩
  | saturateSplit hcond =>
      have hrate := (not_or.mp hcond).1
      rw [hready.2.additional, add_zero] at hrate
      exact not_le.mp hrate
  | residueSplit hrate => exact not_le.mp hrate
  | saturateChoose | residueChoose | chooseType | chooseOn | splitEstimate => trivial
  | _ => exact hready.elim

theorem Visits.ready {p p' : Call × Rec Core Action} (h : s.Visits p p')
    (hready : p.1.Ready s p.2) : p'.1.Ready s p'.2 := by
  induction h with
  | refl => exact hready
  | tail _ hcall ih => exact hcall.ready ih

/-! ## The loops end -/

/-- One node, which is on the list, is taken off it. -/
structure Erases (a : Addr) (given given' : List Addr) : Prop where
  nodup : given.Nodup
  mem : a ∈ given
  erased : given' = given.erase a
  length_eq : given'.length + 1 = given.length

theorem Chosen.erases (h : Chosen c a given c' given') : Erases a given' (given'.erase a) := by
  refine ⟨h.listed.nodup, h.mem, rfl, ?_⟩
  rw [List.length_erase_of_mem h.mem]
  exact Nat.sub_add_cancel (List.length_pos_of_mem h.mem)

/-- `readjust` ends and never erases past the end of its list: no call of either
loop comes to the bound on its turns and more turns change nothing, an iteration
that goes on erases the chosen node from the list that a split may have made
longer, and what is estimated before a split is not empty. -/
structure ReadjustEnds (s : Scheduler) (table : SatTable) (given : List Addr)
    (r : Rec Core Action) : Prop where
  saturate_turns : ∀ {t fuel g r'},
    s.Visits (.readjust table given, r) (.saturateLoop t fuel g, r') → fuel ≠ 0
  residue_turns : ∀ {t fuel g r'},
    s.Visits (.readjust table given, r) (.residueLoop t fuel g, r') → fuel ≠ 0
  saturate_more : ∀ fuel, s.fuel ≤ fuel →
    s.saturateLoop table fuel (s.sortNodes r.cur.sim given) (s.absorbed r) =
      s.saturateLoop table s.fuel (s.sortNodes r.cur.sim given) (s.absorbed r)
  residue_more : ∀ g r', s.saturateLoop table s.fuel (s.sortNodes r.cur.sim given) (s.absorbed r) =
      .ok (.toResidue g, r') → ∀ fuel, s.fuel ≤ fuel →
    s.residueLoop table fuel g r' = s.residueLoop table s.fuel g r'
  saturate_erases : ∀ {t t' fuel fuel' g g' r' r''},
    s.Visits (.readjust table given, r) (.saturateLoop t fuel g, r') →
    s.Invokes (.saturateLoop t fuel g, r') (.saturateLoop t' fuel' g', r'') →
    ∃ a batch mid r1, s.chooseNode t r'.cur.task r'.cur.sim g = .ok a ∧
      s.saturateBatch t a g r' = .ok ((batch, mid), r1) ∧ Erases a mid g'
  residue_erases : ∀ {t t' fuel fuel' g g' r' r''},
    s.Visits (.readjust table given, r) (.residueLoop t fuel g, r') →
    s.Invokes (.residueLoop t fuel g, r') (.residueLoop t' fuel' g', r'') →
    ∃ a mid r1, s.chooseNode t r'.cur.task r'.cur.sim g = .ok a ∧
      s.splitResidue t a g r' = .ok (mid, r1) ∧ Erases a mid g'
  estimated : ∀ {t a g r' n},
    s.Visits (.readjust table given, r) (.splitGiven t a g, r') → r'.cur.sim.node? a = some n →
    s.estimate t n.type r'.cur.task.id r'.cur.task.SLO r'.cur.task.requestRate ≠ .ok []

/-- The partition sizes of a profile without others than positive ones. -/
theorem plain_positiveParts {parts : List Int} {k : Int} {L : Int → Int → ℚ}
    (htab : TableOK (plain (profile parts L) parts k) table) (hparts : ∀ p ∈ parts, 0 < p) :
    (plain (profile parts L) parts k).PositiveParts table := by
  intro type id SLO rate est h n hn
  obtain ⟨⟨⟨type', name, batch, v, hv⟩, -⟩, -⟩ := estimate_ok htab h n hn
  obtain ⟨-, -, hmem, -⟩ := profile_ok name hv
  exact hparts _ hmem

/-- **Readjusting ends.** For distinct nodes of the decision, whatever the
latencies, the interference, the memory and the network do, when the estimates
are of positive parts and no additional rate is left over from before. The model
needs two turns for a node at most. -/
theorem readjust_ends (hpos : s.PositiveParts table) (hgiven : Listed r.cur.sim given)
    (hadd : s.useInterference = false → r.cur.task.additionalRate = 0)
    (hfuel : 2 * given.length < s.fuel) : s.ReadjustEnds table given r := by
  have hstart : (Call.readjust table given).Ready s r := ⟨hpos, hgiven, hfuel, hadd⟩
  have hworking := absorbed_working hgiven hfuel hadd
  refine
    { saturate_turns := fun h => ?_, residue_turns := fun h => ?_
      saturate_more := fun fuel hle => saturateLoop_more hpos hworking hle
      residue_more := fun g r' h fuel hle =>
        residueLoop_more hpos (saturateLoop_working hpos hworking h) hle
      saturate_erases := fun h hnext => ?_, residue_erases := fun h hnext => ?_
      estimated := fun h _ => estimate_ne_nil (h.ready hstart) }
  · obtain ⟨-, hw⟩ := h.ready hstart
    exact Nat.ne_zero_of_lt hw.enough
  · obtain ⟨-, hw⟩ := h.ready hstart
    exact Nat.ne_zero_of_lt hw.enough
  · obtain ⟨hpos', hw⟩ := h.ready hstart
    cases hnext with
    | saturateRest hcond ha hbatch =>
        exact ⟨_, _, _, _, ha, hbatch,
          (saturateBatch_chosen hpos' hw.listed (chooseNode_mem ha) hbatch).erases⟩
  · obtain ⟨hpos', hw⟩ := h.ready hstart
    cases hnext with
    | residueRest hrate hne ha hsplit =>
        exact ⟨_, _, _, ha, hsplit,
          (splitResidue_chosen hpos' hw.listed (chooseNode_mem ha) hsplit).erases⟩

/-- A whole GPU given to a task of 80 requests a second. -/
theorem readjust_ends_whole : ∃ table,
    (plain (profile [100, 50] fun _ _ => 5) [100, 50] 1).initSaturateTrp (request 0 80 100)
      (fun _ => none) = .ok table ∧
    (plain (profile [100, 50] fun _ _ => 5) [100, 50] 1).ReadjustEnds table [⟨0, 0⟩]
      ⟨{ Core.init (plain (profile [100, 50] fun _ _ => 5) [100, 50] 1).setUp with
          task := request 0 80 100 }, []⟩ := by
  obtain ⟨table, htable, -⟩ := Query.of_returns
    (q := (plain (profile [100, 50] fun _ _ => 5) [100, 50] 1).initSaturateTrp (request 0 80 100)
      fun _ => none) (p := fun table => (table 0).isSome) (by decide +kernel)
  have htab := initSaturateTrp_ok (TableOK.empty _) htable
  refine ⟨table, htable, readjust_ends (plain_positiveParts htab (by decide)) ?_ (fun _ => rfl)
    (by decide)⟩
  refine ⟨List.nodup_singleton _, fun a ha => ?_⟩
  rw [List.mem_singleton.mp ha]
  exact ⟨_, rfl⟩

end Scheduler

end Glet
