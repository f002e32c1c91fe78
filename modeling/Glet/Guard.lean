import Glet.Placing

/-!
# What each write may rely on

`Detail s c a` says everything the proofs use about the situation in which
a scheduling run performs action `a` in state `c`: which node it writes,
that a placement goes on an empty node, where a batch size and a duty cycle
come from, what the lowered request rate covers. It is the one inversion of
the routines of `scheduler_incremental.cpp`; the modules that follow prove
it of every write (`AllocateFit`, `Readjust`, `MergeShare`, `Runs`), and
each invariant is then checked action by action against it.

`Guard` adds what holds throughout the handling of one task: its id is one
of those being scheduled, and placements happen before `mergeResidue` moves
anything.
-/

namespace Glet

open Recorder

/-! ## The situations -/

/-- An empty node at an address. -/
def SimState.Empty (sim : SimState) (a : Addr) : Prop :=
  ∃ n, sim.node? a = some n ∧ n.vTaskList = []

/-- `allocateFit` places `n` on `a`. -/
structure FitGuard (s : Scheduler) (c : Core) (a : Addr) (n : Node) (checked : Bool) : Prop where
  settled : c.pending = none
  charged : s.checkMem = true → c.uncharged = none
  target : ∃ m gpu e d v, c.sim.node? a = some m ∧ m.vTaskList = [] ∧
    c.sim.vGPUList[a.gpu]? = some gpu ∧ gpu.TYPE = n.type ∧
    Gpulet s c.task.id c.task.SLO n e d v ∧
    (s.useRepartition = true → n.resourcePntg = m.resourcePntg) ∧
    (checked = false → n.resourcePntg = m.resourcePntg) ∧
    (checked = true → ∃ w, s.getLatencyOn n.type e.id e.batchSize m c.sim = .ok w ∧ w + d ≤ e.SLO)

/-- Where the duty cycle of a gpu-let placed by `readjust` comes from: `b` is
the batch size before the network limit and `v` its latency. -/
inductive PlacedDuty (SLO : Int) (t : Task) (b : Int) (v duty : ℚ) : Kind → Prop
  | saturated : duty = v → PlacedDuty SLO t b v duty .saturated
  | residue : t.requestRate ≠ 0 → duty = 1000 * b / t.requestRate →
      (v + duty ≤ SLO ∨ b = 1) → PlacedDuty SLO t b v duty .residue

/-- `readjust` places `t` on `a`. -/
structure PlaceGuard (s : Scheduler) (c : Core) (a : Addr) (kind : Kind) (t : Task) (duty : ℚ) :
    Prop where
  settled : c.pending = none
  unchecked : c.unchecked = none
  charged : s.checkMem = true → c.uncharged = none
  id_eq : t.id = c.task.id
  SLO_eq : t.SLO = c.task.SLO
  rate_duty : t.throughput * duty = 1000 * t.batchSize
  positive : PositiveLatency s → 0 ≤ t.throughput ∧ 0 < duty
  target : ∃ n b v, c.sim.node? a = some n ∧ n.vTaskList = [] ∧
    1 ≤ t.batchSize ∧ t.batchSize ≤ b ∧ b ≤ maxBatch ∧
    (s.useInterference = false → s.soloLatency n.type t.id b n.resourcePntg = .ok v) ∧
    PlacedDuty c.task.SLO t b v duty kind

/-- `mergeResidue` places `t` on `a`: the rate it serves is the collected one,
or more. -/
structure MergedGuard (s : Scheduler) (c : Core) (a : Addr) (t : Task) (duty : ℚ) (left : Int) :
    Prop where
  id_eq : t.id = c.task.id
  SLO_eq : t.SLO = c.task.SLO
  batch_pos : 1 ≤ t.batchSize
  batch_le : t.batchSize ≤ maxBatch
  rate_ne : t.requestRate ≠ 0
  throughput_eq : t.throughput = t.requestRate
  duty_eq : duty = 1000 * t.batchSize / t.requestRate
  left_eq : left = 0
  wiped : ∀ b n, c.sim.node? b = some n → Scheduler.isResidueOf c.task.id n = false
  collected : ∃ rate count, c.phase = .moving rate count ∧ rate ≤ t.requestRate
  target : ∃ n v, c.sim.node? a = some n ∧ n.vTaskList = [] ∧
    (s.useInterference = false → s.soloLatency n.type t.id t.batchSize n.resourcePntg = .ok v) ∧
    (v + duty ≤ c.task.SLO ∨ t.batchSize = 1)

/-- `allocateTimeShare` adds `t` to the node at `a`. -/
structure ShareGuard (s : Scheduler) (c : Core) (a : Addr) (t : Task) (duty left : Int) :
    Prop where
  settled : c.pending = none
  charged : s.checkMem = true → c.uncharged = none
  rate_pos : trpSlack < c.task.requestRate
  duty_pos : 1 ≤ duty
  batch_pos : 1 ≤ t.batchSize
  new_eq : t = Scheduler.createNewTask c.task.id c.task.requestRate c.task.SLO t.batchSize
    (t.batchSize * (1000 / duty))
  covers : c.task.requestRate ≤ left + ⌊t.throughput⌋ + 1
  target : ∃ n latency others, c.sim.node? a = some n ∧
    Scheduler.Shares s c.task n c.sim t.batchSize duty latency others

/-- The situation of each action. -/
def Detail (s : Scheduler) (c : Core) : Action → Prop
  | .initDevs gpus =>
      c.sim.vGPUList = [] ∧ gpus = (s.initiateDevs c.sim s.numMaxGPU).vGPUList
  | .pass _ | .markLoaded => True
  | .start _ => s.checkMem = true → c.uncharged = none
  | .forget a => ∃ n, c.sim.node? a = some n ∧ checkContain c.task.id n = true
  | .occupy a _ => ∃ n, c.sim.node? a = some n
  | .split a part => ∃ n gpu, c.sim.node? a = some n ∧ n.vTaskList = [] ∧ n.resourcePntg = 100 ∧
      part < 100 ∧ Offered s part ∧ c.sim.vGPUList[n.id]? = some gpu
  | .fit a n checked => FitGuard s c a n checked
  | .prime a _ _ => c.sim.Empty a
  | .place a kind t duty _ => PlaceGuard s c a kind t duty
  | .bandwidthOK a => c.unchecked = some a ∧ ∃ n gpu, c.sim.node? a = some n ∧
      c.sim.vGPUList[n.id]? = some gpu ∧
      (s.checkNetBW = true → s.isNLCInitated = true → s.isBandwidthOK gpu = true)
  | .revert a => c.pending = some a ∧ (c.unchecked = none ∨ c.unchecked = some a) ∧
      c.uncharged = some a ∧ ∃ n, c.sim.node? a = some n ∧ n.vTaskList.map (·.id) = [c.task.id]
  | .accept a rate => c.pending = some a ∧ c.unchecked = none ∧
      ∃ n e, c.sim.node? a = some n ∧ n.vTaskList = [e] ∧ e.id = c.task.id ∧
        (s.useInterference = false → c.task.requestRate ≤ rate + ⌊e.throughput⌋ + 1)
  | .absorb | .addRate _ => s.useInterference = true
  | .leave => s.useInterference = true ∧ (s.checkMem = true → c.uncharged = none)
  | .rerate rate => c.task.requestRate ≤ rate
  | .adjust a n' => s.useInterference = true ∧
      ∃ n, c.sim.node? a = some n ∧ Scheduler.Adjusted s n n'
  | .gather rate count => c.phase = .placing ∧ c.pending = none ∧
      c.task.requestRate + c.sim.total (Scheduler.residueRate c.task.id) ≤ rate ∧
      (count : Int) = c.sim.total (Scheduler.residueCount c.task.id)
  | .wipe a _ => (∃ rate count, c.phase = .moving rate count) ∧
      ∃ n, c.sim.node? a = some n ∧ Scheduler.isResidueOf c.task.id n = true
  | .merged a t duty _ left => MergedGuard s c a t duty left
  | .unplaced => ∃ rate count, c.phase = .moving rate count
  | .unify g => ∃ gpu, c.sim.vGPUList[g]? = some gpu ∧ 1 < gpu.vNodeList.length ∧
      ∀ n ∈ gpu.vNodeList, n.vTaskList = []
  | .share a t duty _ left => ShareGuard s c a t duty left
  | .charge a g used m => c.uncharged = some a ∧ ∃ n gpu, c.sim.node? a = some n ∧ g = n.id ∧
      c.sim.vGPUList[g]? = some gpu ∧ s.addedGPUMemUsage gpu c.task.id n = .ok (some (used, m))
  | .skipCharge a => c.uncharged = some a
  | .finish => c.phase = .placing ∧ c.pending = none ∧
      c.task.requestRate + c.task.additionalRate ≤ trpSlack

/-! ## Kinds of actions -/

namespace Action

/-- `addGPUMemUsage`. -/
def isCharge : Action → Bool
  | charge .. | skipCharge _ => true
  | _ => false

/-- The interference adjustments of `allocateFit`. -/
def isTune : Action → Bool
  | adjust .. | addRate _ => true
  | _ => false

/-- Everything between the placement of a gpu-let by `readjust` and the
decision to keep it. -/
def isTest : Action → Bool
  | bandwidthOK _ | adjust .. | absorb => true
  | _ => false

/-- Time sharing. -/
def isShare : Action → Bool
  | share .. | charge .. | skipCharge _ => true
  | _ => false

/-- `mergeResidue`. -/
def isMerge : Action → Bool
  | gather .. | wipe .. | merged .. | unplaced | unify _ => true
  | _ => false

/-- Erasing the task from the nodes it was scheduled on. -/
def isForget : Action → Bool
  | forget _ | occupy .. => true
  | _ => false

/-- `readjust`: everything but `addRate`, fits, merges and sharing. -/
def isReadjust : Action → Bool
  | split .. | prime .. | place .. | bandwidthOK _ | revert _ | accept .. | absorb | rerate _
  | adjust .. | charge .. | skipCharge _ => true
  | _ => false

/-- The actions on one task that leave its id, its SLO and its phase alone. -/
def isInner : Action → Bool
  | initDevs _ | pass _ | start _ | gather .. | wipe .. | merged .. | unplaced | unify _
  | finish | markLoaded => false
  | _ => true

/-- Inner actions other than the erasing of a scheduled task. -/
def isFilling : Action → Bool
  | forget _ | occupy .. => false
  | a => a.isInner

/-- The actions between the start of one task and the start of the next. -/
def isTask : Action → Bool
  | initDevs _ | pass _ | start _ | markLoaded => false
  | _ => true

/-- Those after the erasing of a scheduled task. -/
def isPlan : Action → Bool
  | forget _ | occupy .. => false
  | a => a.isTask

/-- Inner actions that only happen while a task's rate is being placed. -/
def isPlacing : Action → Bool
  | share .. | charge .. | skipCharge _ => false
  | a => a.isInner

/-- The address an action puts a task on. -/
def fills : Action → Option Addr
  | fit a .. | place a .. | merged a .. | share a .. => some a
  | _ => none

end Action

/-- Guarded moves of a given kind. -/
abbrev Steps (s : Scheduler) (K : Action → Prop) (r r' : Rec Core Action) : Prop :=
  Moves (Action.apply s.useRepartition) (fun c a => Detail s c a ∧ K a) r r'

/-- The guard of a whole run: tasks with one of the given ids are handled, and
a task's rate is placed before anything is merged. -/
def Guard (s : Scheduler) (ids : List Int) (c : Core) (a : Action) : Prop :=
  Detail s c a ∧ (a.isTask = true → c.task.id ∈ ids) ∧ (a.isPlacing = true → c.phase = .placing)

/-- Actions outside the handling of a task. -/
theorem Guard.top {s : Scheduler} {ids : List Int} {c : Core} {act : Action} (hd : Detail s c act)
    (h : act.isTask = false) : Guard s ids c act := by
  refine ⟨hd, fun ht => ?_, fun hp => ?_⟩
  · rw [h] at ht
    cases ht
  · cases act <;> try cases h
    all_goals cases hp

/-- Guarded runs, of actions of a given kind. -/
abbrev Runs (s : Scheduler) (ids : List Int) (K : Action → Prop) (r r' : Rec Core Action) : Prop :=
  Moves (Action.apply s.useRepartition) (fun c a => Guard s ids c a ∧ K a) r r'

/-! ## Frames -/

theorem Core.write_node? (c : Core) (a b : Addr) (f : Node → Node) :
    (c.write a f).sim.node? b = if b = a then (c.sim.node? a).map f else c.sim.node? b := by
  cases h : c.sim.node? a with
  | none =>
      have hsame : c.write a f = c := by rw [Core.write, h]
      rw [hsame]
      split <;> simp_all
  | some n =>
      rw [Core.write_of_node h]
      simp only [SimState.node?_setNode h, Option.map_some]

/-- The nodes after a split: the rest of the GPU is a new node at the end. -/
theorem split_node? {repart : Bool} {c : Core} {a : Addr} {n : Node} {gpu : GPU} {part : Int}
    (hn : c.sim.node? a = some n) (hgpu : c.sim.vGPUList[n.id]? = some gpu) (b : Addr) :
    ((Action.split a part).apply repart c).sim.node? b =
      if b = ⟨n.id, gpu.vNodeList.length⟩ then some (restNode n part)
      else if b = a then some { n with resourcePntg := part } else c.sim.node? b := by
  obtain ⟨g', hg', hlen⟩ : ∃ g', (c.sim.setNode a { n with resourcePntg := part }).vGPUList[n.id]? =
      some g' ∧ g'.vNodeList.length = gpu.vNodeList.length := by
    simp only [SimState.setNode, SimState.getElem?_modifyGPU, hgpu]
    split <;> simp
  simp only [Action.apply, hn]
  rw [SimState.node?_pushNode hg', hlen, SimState.node?_setNode hn]

namespace Action

variable {repart : Bool} {c : Core} {act : Action}

theorem inner_keeps (repart : Bool) (c : Core) (h : act.isInner = true) :
    ((act.apply repart c).phase, (act.apply repart c).session, (act.apply repart c).task.id,
      (act.apply repart c).task.SLO) = (c.phase, c.session, c.task.id, c.task.SLO) := by
  cases act <;> try cases h
  case split a p => simp only [apply]; split <;> rfl
  all_goals simp [apply, Core.setRate]

theorem merge_keeps (repart : Bool) (c : Core) (h : act.isMerge = true) :
    ((act.apply repart c).session, (act.apply repart c).task.id, (act.apply repart c).task.SLO,
      (act.apply repart c).task.additionalRate, (act.apply repart c).pending,
      (act.apply repart c).uncharged, (act.apply repart c).unchecked) =
      (c.session, c.task.id, c.task.SLO, c.task.additionalRate, c.pending, c.uncharged,
        c.unchecked) := by
  cases act <;> try cases h
  all_goals simp [apply, Core.setRate]

end Action

/-- An inner action keeps a node empty unless it fills it. -/
theorem SimState.Empty.apply {s : Scheduler} {c : Core} {act : Action} {b : Addr}
    (he : c.sim.Empty b) (hd : Detail s c act) (hk : act.isInner = true)
    (hb : act.fills ≠ some b) : (act.apply s.useRepartition c).sim.Empty b := by
  obtain ⟨n, hn, hnil⟩ := he
  have hwrite : ∀ (a : Addr) (f : Node → Node), (b = a → (f n).vTaskList = []) →
      (c.write a f).sim.Empty b := by
    intro a f hf
    by_cases hba : b = a
    · subst hba
      exact ⟨f n, by rw [Core.write_node?, if_pos rfl, hn]; rfl, hf rfl⟩
    · exact ⟨n, by rw [Core.write_node?, if_neg hba, hn], hnil⟩
  have hsame : c.sim.Empty b := ⟨n, hn, hnil⟩
  cases act <;> try cases hk
  case forget a => exact hwrite a _ fun _ => by simp [hnil]
  case occupy a occ => exact hwrite a _ fun _ => hnil
  case split a p =>
      obtain ⟨m, gpu, hm, hmnil, -, -, -, hgpu⟩ := hd
      unfold SimState.Empty
      rw [split_node? hm hgpu]
      split
      · exact ⟨_, rfl, rfl⟩
      · split
        · exact ⟨_, rfl, hmnil⟩
        · exact ⟨n, hn, hnil⟩
  case fit a n' k => exact hwrite a _ fun hba => absurd (by rw [hba]; rfl) hb
  case prime a d o => exact hwrite a _ fun _ => hnil
  case place a k t d o => exact hwrite a _ fun hba => absurd (by rw [hba]; rfl) hb
  case bandwidthOK => exact hsame
  case revert a => exact hwrite a _ fun _ => rfl
  case accept => exact hsame
  case absorb => exact hsame
  case rerate => exact hsame
  case addRate => exact hsame
  case adjust a n' =>
      obtain ⟨-, m, hm, hadj⟩ := hd
      refine hwrite a _ ?_
      rintro rfl
      obtain rfl : n = m := Option.some.inj (hn.symm.trans hm)
      have := hadj.ids_eq
      rw [hnil] at this
      exact List.map_eq_nil_iff.mp this
  case share a t d o r => exact hwrite a _ fun hba => absurd (by rw [hba]; rfl) hb
  case charge a g u m =>
      refine ⟨n, ?_, hnil⟩
      simp only [Action.apply]
      rw [SimState.node?_modifyGPU]
      · exact hn
      · exact fun _ => rfl
  case skipCharge => exact hsame
  case leave => exact hsame

/-- Distinct addresses of empty nodes. -/
def Free (sim : SimState) (as : List Addr) : Prop := as.Nodup ∧ ∀ a ∈ as, sim.Empty a

theorem Free.perm {sim : SimState} {as bs : List Addr} (h : Free sim as) (hp : bs.Perm as) :
    Free sim bs :=
  ⟨hp.nodup_iff.mpr h.1, fun a ha => h.2 a (hp.mem_iff.mp ha)⟩

theorem Free.erase {sim : SimState} {as : List Addr} (h : Free sim as) (a : Addr) :
    Free sim (as.erase a) :=
  ⟨h.1.erase a, fun b hb => h.2 b (List.mem_of_mem_erase hb)⟩

/-- A run of inner actions that fill nothing but `a` keeps other nodes empty. -/
theorem Steps.free {s : Scheduler} {K : Action → Prop} {r r' : Rec Core Action} {a : Addr}
    {as : List Addr} (h : Steps s K r r') (hK : ∀ act, K act → act.isInner = true)
    (hfill : ∀ act b, K act → act.fills = some b → b = a) (hfree : Free r.cur.sim as)
    (ha : a ∉ as) : Free r'.cur.sim as := by
  refine ⟨hfree.1, fun b hb => ?_⟩
  have hba : b ≠ a := fun h => ha (h ▸ hb)
  refine (h.strengthen (I := fun c => c.sim.Empty b) ?_ (hfree.2 b hb)).2
  intro c act he hg
  exact he.apply hg.1 (hK act hg.2) fun hf => hba (hfill act b hg.2 hf)

/-! ## From steps to guarded runs -/

/-- Steps on one task: its id is one of those being scheduled and, unless they
are time sharing, its rate is being placed. -/
theorem Steps.runs {s : Scheduler} {K : Action → Prop} {r r' : Rec Core Action} {ids : List Int}
    (h : Steps s K r r') (hK : ∀ act, K act → act.isInner = true)
    (hid : r.cur.task.id ∈ ids)
    (hphase : r.cur.phase = .placing ∨ ∀ act, K act → act.isPlacing = false) :
    Runs s ids K r r' := by
  refine (h.strengthen (I := fun c => c.task.id ∈ ids ∧
      (c.phase = .placing ∨ ∀ act, K act → act.isPlacing = false)) ?_ ⟨hid, hphase⟩).1.mono ?_
  · rintro c act ⟨hid, hph⟩ ⟨-, hk⟩
    have := Action.inner_keeps s.useRepartition c (hK act hk)
    simp only [Prod.mk.injEq] at this
    obtain ⟨h1, -, h3, -⟩ := this
    exact ⟨by rw [h3]; exact hid, by rw [h1]; exact hph⟩
  · rintro c act ⟨⟨hid, hph⟩, hd, hk⟩
    refine ⟨⟨hd, fun _ => hid, fun hp => ?_⟩, hk⟩
    rcases hph with hph | hph
    · exact hph
    · rw [hph act hk] at hp
      cases hp

/-- Merge steps on one task. -/
theorem Steps.merge_runs {s : Scheduler} {r r' : Rec Core Action} {ids : List Int}
    (h : Steps s (fun act => act.isMerge = true) r r') (hid : r.cur.task.id ∈ ids) :
    Runs s ids (fun act => act.isMerge = true) r r' := by
  refine (h.strengthen (I := fun c => c.task.id ∈ ids) ?_ hid).1.mono ?_
  · rintro c act hid ⟨-, hk⟩
    have := Action.merge_keeps s.useRepartition c hk
    simp only [Prod.mk.injEq] at this
    rw [this.2.1]
    exact hid
  · rintro c act ⟨hid, hd, hk⟩
    refine ⟨⟨hd, fun _ => hid, fun hp => ?_⟩, hk⟩
    cases act <;> try cases hk
    all_goals cases hp

theorem Runs.mono {s : Scheduler} {ids ids' : List Int} {K K' : Action → Prop}
    {r r' : Rec Core Action} (h : Runs s ids K r r') (hids : ids ⊆ ids')
    (hK : ∀ act, K act → K' act) : Runs s ids' K' r r' :=
  Moves.mono (fun _ _ hg => ⟨⟨hg.1.1, fun ht => hids (hg.1.2.1 ht), hg.1.2.2⟩, hK _ hg.2⟩) h

theorem Steps.mono {s : Scheduler} {K K' : Action → Prop} {r r' : Rec Core Action}
    (h : Steps s K r r') (hK : ∀ act, K act → K' act) : Steps s K' r r' :=
  Moves.mono (fun _ _ hg => ⟨hg.1, hK _ hg.2⟩) h

end Glet
