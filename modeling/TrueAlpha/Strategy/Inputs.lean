import Mathlib.Data.String.Basic
import Mathlib.Algebra.Order.Ring.Rat
import TrueAlpha.Lib.Latest
import TrueAlpha.Time

/-!
# The staged strategy inputs

`staging.strategy_backtest_inputs` is an append-only list whose positions are the order of `recorded_at`.  `rowsAt` is
`StrategyBacktestGateway.rows_at`: the winning vintage of each cell at one cutoff.
-/

namespace TrueAlpha.Strategy

/-- One row of `staging.strategy_backtest_inputs`. -/
structure StagedRow where
  issuerId : String
  cutoffAt : Instant
  inputKey : String
  value : ℚ
  confidence : ℚ
  knowableAt : Instant
  fiscalPeriod : Option String
  deriving DecidableEq, Repr

/-- One row of `rows_at`. -/
structure InputRow where
  issuerId : String
  inputKey : String
  value : ℚ
  confidence : ℚ
  fiscalPeriod : Option String
  knowableAt : Instant
  deriving DecidableEq, Repr

abbrev Cell := String ×ₗ String ×ₗ WithTop String

def cellOf (issuerId inputKey : String) (fiscalPeriod : Option String) : Cell := toLex (issuerId, toLex (inputKey, fiscalPeriod))

theorem cellOf_eq_iff {i i' k k' : String} {p p' : Option String} :
    cellOf i k p = cellOf i' k' p' ↔ i = i' ∧ k = k' ∧ p = p' := by
  constructor
  · intro h
    obtain ⟨hi, h⟩ := Prod.mk.inj h
    obtain ⟨hk, hp⟩ := Prod.mk.inj h
    exact ⟨hi, hk, hp⟩
  · intro ⟨hi, hk, hp⟩
    rw [hi, hk, hp]

def StagedRow.cell (row : StagedRow) : Cell := cellOf row.issuerId row.inputKey row.fiscalPeriod

def InputRow.cell (row : InputRow) : Cell := cellOf row.issuerId row.inputKey row.fiscalPeriod

def StagedRow.inputRow (row : StagedRow) : InputRow :=
  ⟨row.issuerId, row.inputKey, row.value, row.confidence, row.fiscalPeriod, row.knowableAt⟩

@[simp] theorem StagedRow.cell_inputRow (row : StagedRow) : row.inputRow.cell = row.cell := rfl

/-- The stored vintages of one cell at one cutoff, in the order of `recorded_at`. -/
def vintages (table : List StagedRow) (cutoff : Instant) (cell : Cell) : List StagedRow :=
  table.filter fun row => row.cutoffAt = cutoff ∧ row.cell = cell

variable {table : List StagedRow} {cutoff : Instant} {cell : Cell} {row : StagedRow}

theorem mem_vintages : row ∈ vintages table cutoff cell ↔ row ∈ table ∧ row.cutoffAt = cutoff ∧ row.cell = cell := by
  simp [vintages]

theorem vintages_append (table rows : List StagedRow) (cutoff : Instant) (cell : Cell) :
    vintages (table ++ rows) cutoff cell = vintages table cutoff cell ++ vintages rows cutoff cell :=
  List.filter_append table rows

def winner (table : List StagedRow) (cutoff : Instant) (cell : Cell) : Option StagedRow :=
  latestBy StagedRow.knowableAt (vintages table cutoff cell)

def rowsAt (table : List StagedRow) (cutoff : Instant) : List InputRow :=
  (sortedSet ((table.filter fun row => row.cutoffAt = cutoff).map StagedRow.cell)).filterMap fun cell =>
    (winner table cutoff cell).map StagedRow.inputRow

theorem winner_eq_some (h : winner table cutoff cell = some row) : row ∈ table ∧ row.cutoffAt = cutoff ∧ row.cell = cell := by
  exact mem_vintages.1 (latestBy_eq_some _ h).1

theorem mem_rowsAt {row : InputRow} : row ∈ rowsAt table cutoff ↔
      ∃ staged, winner table cutoff row.cell = some staged ∧ staged.inputRow = row := by
  rw [rowsAt, List.mem_filterMap]
  constructor
  · intro ⟨cell, _, hrow⟩
    obtain ⟨staged, hwinner, rfl⟩ := Option.map_eq_some_iff.1 hrow
    obtain ⟨-, -, hcell⟩ := winner_eq_some hwinner
    exact ⟨staged, by rw [StagedRow.cell_inputRow, hcell]; exact hwinner, rfl⟩
  · intro ⟨staged, hwinner, hrow⟩
    obtain ⟨hmem, hcutoff, hcell⟩ := winner_eq_some hwinner
    refine ⟨row.cell, ?_, Option.map_eq_some_iff.2 ⟨staged, hwinner, hrow⟩⟩
    rw [mem_sortedSet, ← hcell]
    exact List.mem_map_of_mem (List.mem_filter.2 ⟨hmem, by simpa using hcutoff⟩)

theorem strictSorted_rowsAt (table : List StagedRow) (cutoff : Instant) :
    (rowsAt table cutoff).Pairwise fun a b => a.cell < b.cell := by
  refine List.Pairwise.filterMap _ (fun c c' hlt a ha b hb => ?_) (strictSorted_sortedSet _)
  obtain ⟨s, hs, rfl⟩ := Option.map_eq_some_iff.1 ha
  obtain ⟨s', hs', rfl⟩ := Option.map_eq_some_iff.1 hb
  rw [StagedRow.cell_inputRow, StagedRow.cell_inputRow, (winner_eq_some hs).2.2, (winner_eq_some hs').2.2]
  exact hlt

def rowsFor (table : List StagedRow) (cutoff : Instant) (cell : Cell) : List InputRow :=
  (rowsAt table cutoff).filter fun row => row.cell = cell

theorem rowsFor_of_winner (h : winner table cutoff cell = some row) : rowsFor table cutoff cell = [row.inputRow] := by
  obtain ⟨-, -, hcell⟩ := winner_eq_some h
  have hsorted := (strictSorted_rowsAt table cutoff).filter fun row => row.cell = cell
  refine eq_of_strictSorted_key InputRow.cell hsorted (List.pairwise_singleton _ _) fun r => ?_
  rw [List.mem_singleton, rowsFor, List.mem_filter, mem_rowsAt, decide_eq_true_eq]
  constructor
  · intro ⟨⟨staged, hstaged, hr⟩, hrcell⟩
    rw [hrcell, h, Option.some.injEq] at hstaged
    rw [hstaged, hr]
  · intro hr
    rw [hr, StagedRow.cell_inputRow, hcell]
    exact ⟨⟨row, h, rfl⟩, rfl⟩

end TrueAlpha.Strategy
