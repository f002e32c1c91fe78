import Mathlib.Data.List.ProdSigma
import Glet.MaxBatch

/-!
# The saturation table is complete

`initSaturateTrp` gives up on a model when `getMaxBatch` returns 0 and twice
the latency of batch size 1 is within the SLO all the same. The two tests are
written apart; they agree because a search that ends at 0 has tried batch size
1 last (`getMaxBatch_saturated`). So the table of a model always gets one entry
for each device type and available part, and `getMaxSaturateTrp` finds it.

Nothing here needs a latency that grows with the batch size.
-/

namespace Glet

/-- Rows with different keys: the key of a row selects that row. -/
theorem filter_key_of_nodup {α κ : Type} [DecidableEq κ] {key : α → κ} {rows : List α} {row : α}
    (hkeys : (rows.map key).Nodup) (hrow : row ∈ rows) :
    rows.filter (fun r => decide (key row = key r)) = [row] := by
  induction rows with
  | nil => cases hrow
  | cons r rows ih =>
      obtain ⟨hfresh, hkeys⟩ := List.nodup_cons.mp hkeys
      rcases List.mem_cons.mp hrow with rfl | hrow
      · have hrest : rows.filter (fun r => decide (key row = key r)) = [] := by
          refine List.filter_eq_nil_iff.mpr fun r hr heq => hfresh ?_
          rw [of_decide_eq_true heq]
          exact List.mem_map_of_mem hr
        rw [List.filter_cons_of_pos (by simp), hrest]
      · have hne : key row ≠ key r := fun heq => hfresh (heq ▸ List.mem_map_of_mem hrow)
        rw [List.filter_cons_of_neg (by simpa using hne), ih hkeys hrow]

/-- What a lookup compares. -/
def SatTrpEntry.pair (e : SatTrpEntry) : DeviceType × Int := (e.type, e.part)

namespace Scheduler

variable {s : Scheduler} {task : Task} {type : DeviceType} {part : Int}

/-! ## One entry -/

/-- An entry of the table: a batch size that fits twice into the SLO, or 1 where
not even batch size 1 does, and its throughput back to back. -/
structure SatEntry (lat : Int → ℚ) (SLO : Int) (e : SatTrpEntry) : Prop where
  pos : 1 ≤ e.maxBatch
  le : e.maxBatch ≤ maxBatch
  trp : e.satTrp = 1000 * e.maxBatch / lat e.maxBatch
  trp_pos : 0 < e.satTrp
  fits : 2 * lat e.maxBatch ≤ SLO ∨ (e.maxBatch = 1 ∧ SLO < 2 * lat 1)

section Entry

variable {lat : Int → ℚ}

/-- For a saturated gpu-let `getMaxBatch` returns a batch size that fits twice
into the SLO, and 0 only if batch size 1 does not. -/
theorem getMaxBatch_saturated {id : Int} {node : Node} {sim : SimState} (SLO req : Int)
    (hlat : Answers (s.latencyFor id node sim false) lat) :
    ∃ b, s.getMaxBatch id SLO node sim req false false = .ok (b, req) ∧
      ((b = 0 ∧ SLO < 2 * lat 1) ∨ (1 ≤ b ∧ b ≤ maxBatch ∧ 2 * lat b ≤ SLO)) := by
  obtain ⟨b, hb, hbound⟩ := getMaxBatch_search SLO req hlat false
  refine ⟨b, getMaxBatch_of_search hb (by simp), ?_⟩
  rcases eq_or_ne b 0 with rfl | hne
  · -- the batch size above 0 fails the test of the search
    have hfail : batchFits SLO req false (lat 1) 1 = false := hbound.next.resolve_right (by decide)
    refine Or.inl ⟨rfl, not_le.mp fun hle => ?_⟩
    rw [batchFits_saturated.mpr hle] at hfail
    cases hfail
  · have hlo : 1 ≤ b := by
      have := hbound.nonneg
      omega
    exact Or.inr ⟨hlo, hbound.lt.le, batchFits_saturated.mp (hbound.passes.resolve_left hne)⟩

/-- A batch size that may stand in the table, with its throughput. -/
theorem satEntry_of_fits {SLO b : Int} (hlo : 1 ≤ b) (hhi : b ≤ maxBatch) (hpos : 0 < lat b)
    (hfits : 2 * lat b ≤ SLO ∨ (b = 1 ∧ SLO < 2 * lat 1)) :
    SatEntry lat SLO ⟨part, b, b * 1000 / lat b, type⟩ := by
  have hb : (0 : ℚ) < b := by exact_mod_cast hlo
  exact ⟨hlo, hhi, by rw [mul_comm], by positivity, hfits⟩

/-- An entry is always set up. -/
theorem satTrpEntry_total
    (hlat : ∀ b, 1 ≤ b → b ≤ maxBatch → s.getLatency type task.id b part = .ok (lat b))
    (hpos : ∀ b, 1 ≤ b → b ≤ maxBatch → 0 < lat b) :
    ∃ e, s.satTrpEntry task type part = .ok (some e) ∧ e.pair = (type, part) ∧
      SatEntry lat task.SLO e := by
  have hnode : Answers (s.latencyFor task.id (makeEmptyNode 0 part type) ⟨[], []⟩ false) lat := hlat
  obtain ⟨b, hb, hfits⟩ := getMaxBatch_saturated task.SLO task.requestRate hnode
  have hrow : ∀ c : Int, 1 ≤ c → c ≤ maxBatch → (do
      let latency ← s.getLatency type task.id c part
      let satTrp ← fdiv (c * 1000) latency
      return some { part, maxBatch := c, satTrp, type : SatTrpEntry }) =
        .ok (some ⟨part, c, c * 1000 / lat c, type⟩) := by
    intro c hlo hhi
    have hdiv : fdiv (c * 1000) (lat c) = .ok (c * 1000 / lat c) :=
      fdiv_ok.mpr ⟨(hpos c hlo hhi).ne', rfl⟩
    rw [hlat c hlo hhi, Query.ok_bind, hdiv]
    rfl
  rw [satTrpEntry, hb, Query.ok_bind]
  dsimp only
  rcases hfits with ⟨rfl, hlate⟩ | ⟨hlo, hhi, hfit⟩
  · have hone : (1 : Int) ≤ maxBatch := by decide
    refine ⟨_, ?_, rfl, satEntry_of_fits le_rfl hone (hpos 1 le_rfl hone) (Or.inr ⟨rfl, hlate⟩)⟩
    rw [if_pos rfl, hlat 1 le_rfl hone, Query.ok_bind, if_pos hlate, ← hlat 1 le_rfl hone]
    exact hrow 1 le_rfl hone
  · refine ⟨_, ?_, rfl, satEntry_of_fits hlo hhi (hpos b hlo hhi) (Or.inl hfit)⟩
    rw [if_neg (by omega)]
    exact hrow b hlo hhi

end Entry

/-! ## The table -/

/-- The device types of `_typeToNumofTypeTable`. -/
def types (s : Scheduler) : List DeviceType := s.typeToNumofTypeTable.map Prod.fst

/-- The latencies of a model on the listed types and the available parts. -/
structure Latencies (s : Scheduler) (id : Int) (lat : DeviceType → Int → Int → ℚ) : Prop where
  answers : ∀ d ∈ s.types, ∀ p ∈ s.availParts, ∀ b, 1 ≤ b → b ≤ maxBatch →
    s.getLatency d id b p = .ok (lat d p b)
  pos : ∀ d ∈ s.types, ∀ p ∈ s.availParts, ∀ b, 1 ≤ b → b ≤ maxBatch → 0 < lat d p b

variable {lat : DeviceType → Int → Int → ℚ} {table : SatTable}

theorem satTrpEntries_total (hl : Latencies s task.id lat) {pairs : List (DeviceType × Int)}
    (hpairs : ∀ q ∈ pairs, q.1 ∈ s.types ∧ q.2 ∈ s.availParts) :
    ∃ es, s.satTrpEntries task pairs = .ok (some es) ∧ es.map SatTrpEntry.pair = pairs ∧
      ∀ e ∈ es, SatEntry (lat e.type e.part) task.SLO e := by
  induction pairs with
  | nil => exact ⟨[], rfl, rfl, List.forall_mem_nil _⟩
  | cons q qs ih =>
      obtain ⟨type, part⟩ := q
      obtain ⟨⟨hd, hpart⟩, hqs⟩ := List.forall_mem_cons.mp hpairs
      obtain ⟨e, he, hpair, hrow⟩ := satTrpEntry_total (hl.answers _ hd _ hpart) (hl.pos _ hd _ hpart)
      obtain ⟨es, hes, hpairs', hrows⟩ := ih hqs
      obtain ⟨rfl, rfl⟩ := Prod.mk.injEq .. |>.mp hpair
      refine ⟨e :: es, ?_, ?_, List.forall_mem_cons.mpr ⟨hrow, hrows⟩⟩
      · simp only [satTrpEntries, he, hes, Query.ok_bind]
        rfl
      · rw [List.map_cons, hpairs']
        rfl

/-- `initSaturateTrp` stores one entry for each turn of its two loops. -/
theorem initSaturateTrp_entries (hl : Latencies s task.id lat) (table : SatTable) :
    ∃ es, s.initSaturateTrp task table =
        .ok (fun id => if id = task.id then some es else table id) ∧
      es.map SatTrpEntry.pair = s.types ×ˢ s.availParts ∧
      ∀ e ∈ es, SatEntry (lat e.type e.part) task.SLO e := by
  have hin : ∀ q ∈ s.types ×ˢ s.availParts, q.1 ∈ s.types ∧ q.2 ∈ s.availParts :=
    fun _ hq => List.mem_product.mp hq
  obtain ⟨es, hes, hpairs, hrows⟩ := satTrpEntries_total hl hin
  have hloops : s.typeToNumofTypeTable.flatMap (fun x => s.availParts.map fun p => (x.1, p)) =
      s.types ×ˢ s.availParts :=
    (List.flatMap_map Prod.fst (fun d => s.availParts.map (Prod.mk d)) _).symm
  refine ⟨es, ?_, hpairs, hrows⟩
  unfold initSaturateTrp
  dsimp only
  rw [hloops, hes]
  rfl

/-- The entry that a lookup finds in a table without duplicates. -/
theorem getMaxSaturateTrp_of_mem {id : Int} {es : List SatTrpEntry} {e : SatTrpEntry}
    (hes : table id = some es) (hpairs : (es.map SatTrpEntry.pair).Nodup) (he : e ∈ es) :
    getMaxSaturateTrp table id e.part e.type = .ok (e.satTrp, e.maxBatch) := by
  have hfilter : es.filter (fun e' => decide (e.part = e'.part ∧ e.type = e'.type)) = [e] := by
    rw [← filter_key_of_nodup hpairs he]
    refine List.filter_congr fun e' _ => ?_
    simp only [SatTrpEntry.pair, Prod.mk.injEq, and_comm]
  unfold getMaxSaturateTrp
  rw [hes]
  dsimp only
  rw [hfilter]
  rfl

/-- For a task of any SLO, `initSaturateTrp` never gives up: no entry fails, and
the table gets exactly one for each type and part, which a lookup finds. The
types are the keys of a map. -/
theorem initSaturateTrp_complete (htypes : s.types.Nodup) (hparts : s.availParts.Nodup)
    (hl : Latencies s task.id lat) :
    (∀ d p, s.satTrpEntry task d p ≠ .ok none) ∧
      ∃ table' es, s.initSaturateTrp task table = .ok table' ∧ table' task.id = some es ∧
        (∀ id, id ≠ task.id → table' id = table id) ∧ (es.map SatTrpEntry.pair).Nodup ∧
        (∀ d p, (d, p) ∈ es.map SatTrpEntry.pair ↔ d ∈ s.types ∧ p ∈ s.availParts) ∧
        ∀ e ∈ es, SatEntry (lat e.type e.part) task.SLO e ∧
          getMaxSaturateTrp table' task.id e.part e.type = .ok (e.satTrp, e.maxBatch) := by
  constructor
  · intro d p hnone
    obtain ⟨e, he, -⟩ := satTrpEntry_ok hnone
    cases he
  · obtain ⟨es, hes, hpairs, hrows⟩ := initSaturateTrp_entries hl table
    have hnodup : (es.map SatTrpEntry.pair).Nodup := by
      rw [hpairs]
      exact htypes.product hparts
    refine ⟨_, es, hes, if_pos rfl, fun id hne => if_neg hne, hnodup, fun d p => ?_, fun e he => ?_⟩
    · rw [hpairs]
      exact List.mem_product
    · exact ⟨hrows e he, getMaxSaturateTrp_of_mem (if_pos rfl) hnodup he⟩

theorem plain_latencies {parts : List Int} {latency : Int → Int → ℚ} (n : Int)
    (hpos : ∀ p ∈ parts, ∀ b, 1 ≤ b → 0 < latency b p) :
    Latencies (plain (profile parts latency) parts n) 0 fun _ p b => latency b p where
  answers d hd p hp b hlo hhi := by
    obtain rfl : d = "gpu" := List.mem_singleton.mp hd
    have hpart : p ∈ parts := hp
    rw [getLatency, assert, if_pos (by decide), assert, if_pos ⟨hlo, hhi⟩]
    simp [soloLatency, getModelName, idToModelName, devLatency, batchOverhead, plain, profile, hlo,
      hhi, hpart, bind, Except.bind, pure, Except.pure]
  pos _ _ p hp b hlo _ := hpos p hp b hlo

/-- With an SLO of 60 ms, `10 + b` ms on the whole GPU and `40 + b` ms on half
of it, where not even batch size 1 fits twice. -/
theorem initSaturateTrp_complete_at :
    ∃ table' es, (plain (profile [100, 50] fun b p => if p = 100 then 10 + b else 40 + b)
        [100, 50] 1).initSaturateTrp (request 0 100 60) (fun _ => none) = .ok table' ∧
      table' 0 = some es ∧ (es.map SatTrpEntry.pair).Nodup ∧
      (∀ d p, (d, p) ∈ es.map SatTrpEntry.pair ↔ d ∈ ["gpu"] ∧ p ∈ [100, 50]) ∧
      ∀ e ∈ es, SatEntry (fun b => if e.part = 100 then 10 + b else 40 + b) 60 e := by
  have hl : Latencies (plain (profile [100, 50] fun b p => if p = 100 then 10 + (b : ℚ) else 40 + b)
      [100, 50] 1) (request 0 100 60).id fun _ p b => if p = 100 then 10 + (b : ℚ) else 40 + b := by
    refine plain_latencies 1 fun p _ b hb => ?_
    have hq : (0 : ℚ) < b := by exact_mod_cast hb
    split <;> linarith
  obtain ⟨-, table', es, htable, hes, -, hnodup, hmem, hall⟩ :=
    @initSaturateTrp_complete _ _ _ (fun _ => none) (by decide) (by decide) hl
  exact ⟨table', es, htable, hes, hnodup, hmem, fun e he => (hall e he).1⟩

end Scheduler

end Glet
