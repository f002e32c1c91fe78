import Glet.Partition
import Glet.SaturationTable

/-!
# The rows of the saturation table

A table that `initSaturateTrp` built has a row for every device type and
every available part (`Rows`), and always has rows for the model it was
called for: its "cannot setup SaturateTable" exit is never taken. So a task
of a session has its rows when its turn comes (`tableFor`, `Tabled`).
-/

namespace Glet

namespace Scheduler

variable {s : Scheduler} {table table' : SatTable} {task : Task}

/-- Every type and every available part has a row. -/
def Rows (s : Scheduler) (table : SatTable) : Prop :=
  ∀ id entries, table id = some entries → ∀ type ∈ s.types, ∀ part ∈ s.availParts,
    ∃ e ∈ entries, e.type = type ∧ e.part = part

/-- `initSaturateTrp` always sets up the rows of its model. -/
theorem initSaturateTrp_covers (hrows : Rows s table)
    (h : s.initSaturateTrp task table = .ok table') : Rows s table' ∧ table' task.id ≠ none := by
  simp only [initSaturateTrp, Query.bind_ok] at h
  obtain ⟨r, hr, h⟩ := h
  obtain ⟨es, rfl, hes, -⟩ := satTrpEntries_ok hr
  obtain rfl := Query.pure_ok.mp h
  refine ⟨fun id entries hentries type htype part hpart => ?_, by simp⟩
  dsimp only at hentries
  split at hentries
  case isTrue =>
    obtain rfl := Option.some.inj hentries
    obtain ⟨pair, hpair, rfl⟩ := List.mem_map.mp htype
    exact hes (pair.1, part) (List.mem_flatMap.mpr ⟨pair, hpair, List.mem_map.mpr ⟨part, hpart, rfl⟩⟩)
  case isFalse => exact hrows id entries hentries type htype part hpart

theorem built_rows (h : Built s table) : Rows s table := by
  induction h with
  | empty =>
      intro id entries hentries
      cases hentries
  | @init n repart _ _ _ _ hinit ih =>
      exact (initSaturateTrp_covers (s := (s.setMaxGPUs n).withRepart repart) ih hinit).1

/-! ## The table of a task -/

/-- The table when the turn of a task comes in `elasticPartitioning`. -/
def tableFor (s : Scheduler) (table : SatTable) (t : Task) : Query SatTable :=
  match table t.id with
  | none => s.initSaturateTrp t table
  | some _ => .ok table

theorem tableFor_built {t : Task} (htab : Built s table) (h : s.tableFor table t = .ok table') :
    Built s table' := by
  unfold tableFor at h
  split at h
  · exact .init (n := s.numMaxGPU) htab h
  · obtain rfl := Except.ok.inj h
    exact htab

theorem tableFor_rows (hrows : Rows s table) (h : s.tableFor table task = .ok table') :
    table' task.id ≠ none := by
  unfold tableFor at h
  split at h
  case h_1 => exact (initSaturateTrp_covers hrows h).2
  case h_2 es hes =>
    obtain rfl := Except.ok.inj h
    rw [hes]
    exact Option.some_ne_none es

/-- A table that has the rows of a model. -/
structure Tabled (s : Scheduler) (table : SatTable) (id : Int) : Prop where
  built : Built s table
  present : table id ≠ none

theorem Tabled.ok {id : Int} (h : Tabled s table id) : TableOK s table := h.built.ok

theorem Tabled.of_id {id id' : Int} (h : Tabled s table id) (heq : id' = id) :
    Tabled s table id' := by
  rwa [heq]

theorem tableFor_tabled (htab : Built s table) (h : s.tableFor table task = .ok table') :
    Tabled s table' task.id :=
  ⟨tableFor_built htab h, tableFor_rows (built_rows htab) h⟩

end Scheduler

end Glet
