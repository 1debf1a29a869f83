import TrueAlpha.Strategy.Inputs

/-!
# The history projector

The embedding of `_write_new_rows` of `strategy_history`.  The writer skips rows that a vintage repeats, the reader picks by
another rule: a run is read back (`Converges`) only while no run takes a cell back (`Steady`).
-/

namespace TrueAlpha.Strategy

inductive OperatingBranch where
  | nonFinancial
  | financial
  | insurance
  deriving DecidableEq, Repr

structure HistoryIssuer where
  issuerId : String
  ticker : String
  operatingBranch : OperatingBranch
  deriving DecidableEq, Repr

def StagedRow.vintageKey (row : StagedRow) : Instant × String × String × ℚ × Instant :=
  (row.cutoffAt, row.inputKey, row.fiscalPeriod.getD "", row.value, row.knowableAt)

/-- `_EXISTING_SQL`: the vintages of one issuer at the cutoffs. -/
def existing (table : List StagedRow) (issuerId : String) (cutoffs : List Instant) :
    List (Instant × String × String × ℚ × Instant) :=
  (table.filter fun row => row.issuerId = issuerId ∧ row.cutoffAt ∈ cutoffs).map StagedRow.vintageKey

def writeNewRows (table : List StagedRow) (issuer : HistoryIssuer) (rows : List StagedRow) : List StagedRow × ℕ :=
  let cutoffs := sortedSet (rows.map StagedRow.cutoffAt)
  let present := existing table issuer.issuerId cutoffs
  let fresh := rows.filter fun row => row.vintageKey ∉ present
  (table ++ fresh, rows.length - fresh.length)

structure ProjectorRun where
  issuer : HistoryIssuer
  rows : List StagedRow
  issuer_rows : ∀ row ∈ rows, row.issuerId = issuer.issuerId
  nodup_rows : (rows.map fun row => (row.cutoffAt, row.cell)).Nodup

def project (table : List StagedRow) (runs : List ProjectorRun) : List StagedRow :=
  runs.foldl (fun table run => (writeNewRows table run.issuer run.rows).1) table

def Converges (table : List StagedRow) (runs : List ProjectorRun) : Prop :=
  ∀ pre run post, runs = pre ++ run :: post → ∀ row ∈ run.rows,
    rowsFor (project table (pre ++ [run])) row.cutoffAt row.cell = [row.inputRow]

def SameCell (a b : StagedRow) : Prop := a.cutoffAt = b.cutoffAt ∧ a.cell = b.cell

instance (a b : StagedRow) : Decidable (SameCell a b) := inferInstanceAs (Decidable (_ ∧ _))

def projected (runs : List ProjectorRun) : List StagedRow := runs.flatMap ProjectorRun.rows

/-- No cell is taken back: its `knowable_at` does not decrease, and what comes again was not replaced in between and keeps its
confidence.  No period is empty. -/
structure Steady (rows : List StagedRow) : Prop where
  tagged : ∀ row ∈ rows, row.fiscalPeriod ≠ some ""
  forward : rows.Pairwise fun a b => SameCell a b → a.knowableAt ≤ b.knowableAt
  settled : ∀ l₁ a l₂ b l₃, rows = l₁ ++ a :: (l₂ ++ b :: l₃) → SameCell a b →
    a.value = b.value → a.knowableAt = b.knowableAt → ∀ c ∈ a :: l₂, SameCell c b → c = b

def Held (table : List StagedRow) (row : StagedRow) : Prop :=
  ∃ stored ∈ table, stored.issuerId = row.issuerId ∧ stored.vintageKey = row.vintageKey

instance (table : List StagedRow) (row : StagedRow) : Decidable (Held table row) :=
  inferInstanceAs (Decidable (∃ stored ∈ table, _))

theorem writeNewRows_eq (table : List StagedRow) (run : ProjectorRun) : (writeNewRows table run.issuer run.rows).1 =
      table ++ run.rows.filter fun row => ¬ Held table row := by
  unfold writeNewRows
  dsimp only
  congr 1
  refine List.filter_congr fun row hrow => ?_
  have hcutoff : row.cutoffAt ∈ sortedSet (run.rows.map StagedRow.cutoffAt) := mem_sortedSet.2 (List.mem_map_of_mem hrow)
  rw [decide_eq_decide, not_iff_not, existing, List.mem_map]
  constructor
  · intro ⟨stored, hstored, hkey⟩
    obtain ⟨hmem, hissuer⟩ := List.mem_filter.1 hstored
    have hissuer := (of_decide_eq_true hissuer).1
    exact ⟨stored, hmem, hissuer.trans (run.issuer_rows row hrow).symm, hkey⟩
  · intro ⟨stored, hmem, hissuer, hkey⟩
    have hat : stored.cutoffAt = row.cutoffAt := congrArg Prod.fst hkey
    refine ⟨stored, List.mem_filter.2 ⟨hmem, ?_⟩, hkey⟩
    rw [decide_eq_true_eq, hat]
    exact ⟨hissuer.trans (run.issuer_rows row hrow), hcutoff⟩

theorem sameCell_of_vintageKey {a b : StagedRow} (ha : a.fiscalPeriod ≠ some "")
    (hb : b.fiscalPeriod ≠ some "") (hissuer : a.issuerId = b.issuerId)
    (hkey : a.vintageKey = b.vintageKey) :
    SameCell a b ∧ a.value = b.value ∧ a.knowableAt = b.knowableAt := by
  simp only [StagedRow.vintageKey, Prod.mk.injEq] at hkey
  obtain ⟨hcutoff, hinput, hperiod, hvalue, hknowable⟩ := hkey
  refine ⟨⟨hcutoff, cellOf_eq_iff.2 ⟨hissuer, hinput, ?_⟩⟩, hvalue, hknowable⟩
  rcases hpa : a.fiscalPeriod with _ | p <;> rcases hpb : b.fiscalPeriod with _ | q
  · rfl
  · rw [hpa, hpb] at hperiod
    exact absurd (by rw [hpb, ← show "" = q from hperiod]) hb
  · rw [hpa, hpb] at hperiod
    exact absurd (by rw [hpa, show p = "" from hperiod]) ha
  · rw [hpa, hpb] at hperiod
    rw [show p = q from hperiod]

theorem mem_vintages_iff {rows : List StagedRow} {a b : StagedRow} :
    a ∈ vintages rows b.cutoffAt b.cell ↔ a ∈ rows ∧ SameCell a b :=
  mem_vintages

theorem vintages_run (run : ProjectorRun) {row : StagedRow} (hrow : row ∈ run.rows) :
    vintages run.rows row.cutoffAt row.cell = [row] := by
  have hnodup := run.nodup_rows
  generalize run.rows = rows at hrow hnodup
  induction rows with
  | nil => cases hrow
  | cons a rows ih =>
    rw [List.map_cons, List.nodup_cons] at hnodup
    obtain ⟨hfresh, hnodup⟩ := hnodup
    rcases List.mem_cons.1 hrow with rfl | hrow
    · rw [vintages, List.filter_cons_of_pos (by simp)]
      congr 1
      refine List.filter_eq_nil_iff.2 fun b hb => ?_
      rw [decide_eq_true_eq]
      rintro ⟨hcutoff, hcell⟩
      exact hfresh (List.mem_map.2 ⟨b, hb, by rw [hcutoff, hcell]⟩)
    · rw [vintages, List.filter_cons_of_neg]
      · exact ih hrow hnodup
      · rw [decide_eq_true_eq]
        rintro ⟨hcutoff, hcell⟩
        exact hfresh (List.mem_map.2 ⟨row, hrow, by rw [hcutoff, hcell]⟩)

/-! ## Convergence -/

structure ReadBack (rows table : List StagedRow) : Prop where
  stored : ∀ row ∈ table, row ∈ rows
  winner : ∀ cutoff cell, winner table cutoff cell = (vintages rows cutoff cell).getLast?

variable {table : List StagedRow}

theorem readBack_self (h : Steady table) : ReadBack table table where
  stored _ hrow := hrow
  winner cutoff cell := by
    refine latestBy_eq_getLast? _ ((h.forward.filter _).imp_of_mem fun {a b} ha hb hab => ?_)
    obtain ⟨-, hcutoff, hcell⟩ := mem_vintages.1 ha
    obtain ⟨-, hcutoff', hcell'⟩ := mem_vintages.1 hb
    exact hab ⟨hcutoff.trans hcutoff'.symm, hcell.trans hcell'.symm⟩

theorem vintages_filter (rows : List StagedRow) (p : StagedRow → Bool) (cutoff : Instant) (cell : Cell) :
    vintages (rows.filter p) cutoff cell = (vintages rows cutoff cell).filter p :=
  List.filter_comm _ _ rows

variable {pre table : List StagedRow}

theorem getLast_of_held {run : ProjectorRun} {row : StagedRow}
    (h : ReadBack pre table) (hsteady : Steady (pre ++ run.rows)) (hrow : row ∈ run.rows)
    (hheld : Held table row) : (vintages pre row.cutoffAt row.cell).getLast? = some row := by
  obtain ⟨a, ha, hissuer, hkey⟩ := hheld
  have hpre := h.stored a ha
  obtain ⟨hsame, hvalue, hknowable⟩ := sameCell_of_vintageKey
    (hsteady.tagged a (List.mem_append_left _ hpre)) (hsteady.tagged row (List.mem_append_right _ hrow))
    hissuer hkey
  obtain ⟨l₁, l₂, rfl⟩ := List.append_of_mem hpre
  obtain ⟨r₁, r₂, hrows⟩ := List.append_of_mem hrow
  have hsplit : l₁ ++ a :: l₂ ++ run.rows = l₁ ++ a :: ((l₂ ++ r₁) ++ row :: r₂) := by
    rw [hrows]
    simp
  -- from the vintage that holds the row on, every row of the cell is this row
  have hall : ∀ c ∈ vintages (a :: l₂) row.cutoffAt row.cell, c = row := by
    intro c hc
    obtain ⟨hc, hsame'⟩ := mem_vintages_iff.1 hc
    refine hsteady.settled l₁ a (l₂ ++ r₁) row r₂ hsplit hsame hvalue hknowable c ?_ hsame'
    rcases List.mem_cons.1 hc with rfl | hc
    · exact List.mem_cons_self
    · exact List.mem_cons_of_mem _ (List.mem_append_left _ hc)
  have hmem : a ∈ vintages (a :: l₂) row.cutoffAt row.cell := mem_vintages_iff.2 ⟨List.mem_cons_self, hsame⟩
  obtain ⟨c, hc⟩ := Option.ne_none_iff_exists'.1
    (mt List.getLast?_eq_none_iff.1 (List.ne_nil_of_mem hmem))
  rw [vintages_append, List.getLast?_append, hc, hall c (List.mem_of_getLast? hc)]
  rfl

theorem ReadBack.write {run : ProjectorRun} (h : ReadBack pre table) (hsteady : Steady (pre ++ run.rows)) :
    ReadBack (pre ++ run.rows) (writeNewRows table run.issuer run.rows).1 := by
  rw [writeNewRows_eq]
  constructor
  · intro row hrow
    rcases List.mem_append.1 hrow with hrow | hrow
    · exact List.mem_append_left _ (h.stored row hrow)
    · exact List.mem_append_right _ (List.mem_of_mem_filter hrow)
  · intro cutoff cell
    rw [Strategy.winner, vintages_append, vintages_append, vintages_filter]
    by_cases hcell : ∃ row ∈ run.rows, row.cutoffAt = cutoff ∧ row.cell = cell
    · obtain ⟨row, hrow, rfl, rfl⟩ := hcell
      rw [vintages_run run hrow, List.getLast?_concat]
      by_cases hheld : Held table row
      · rw [List.filter_cons_of_neg (by simpa using hheld), List.filter_nil, List.append_nil]
        exact (h.winner _ _).trans (getLast_of_held h hsteady hrow hheld)
      · rw [List.filter_cons_of_pos (by simpa using hheld), List.filter_nil]
        refine latestBy_concat _ fun b hb => ?_
        obtain ⟨hb, hsame⟩ := mem_vintages_iff.1 hb
        exact (List.pairwise_append.1 hsteady.forward).2.2 b (h.stored b hb) row hrow hsame
    · have hnil : vintages run.rows cutoff cell = [] := by
        refine List.filter_eq_nil_iff.2 fun row hrow hmem => hcell ⟨row, hrow, ?_⟩
        exact of_decide_eq_true hmem
      rw [hnil, List.filter_nil, List.append_nil, List.append_nil]
      exact h.winner cutoff cell

theorem Steady.of_append {l₁ l₂ : List StagedRow} (h : Steady (l₁ ++ l₂)) : Steady l₁ where
  tagged row hrow := h.tagged row (List.mem_append_left _ hrow)
  forward := (List.pairwise_append.1 h.forward).1
  settled r₁ a r₂ b r₃ hl :=
    h.settled r₁ a r₂ b (r₃ ++ l₂) (by rw [hl]; simp)

theorem projected_append (runs runs' : List ProjectorRun) : projected (runs ++ runs') = projected runs ++ projected runs' :=
  List.flatMap_append

theorem project_concat (table : List StagedRow) (runs : List ProjectorRun) (run : ProjectorRun) :
    project table (runs ++ [run]) = (writeNewRows (project table runs) run.issuer run.rows).1 := by
  rw [project, List.foldl_append]
  rfl

theorem readBack_project {runs : List ProjectorRun}
    (h : Steady (table ++ projected runs)) : ReadBack (table ++ projected runs) (project table runs) := by
  induction runs using List.reverseRecOn with
  | nil =>
    rw [show projected [] = [] from rfl, List.append_nil] at h ⊢
    exact readBack_self h
  | append_singleton runs run ih =>
    have hrun : projected [run] = run.rows := by simp [projected]
    rw [projected_append, hrun, ← List.append_assoc] at h ⊢
    rw [project_concat]
    exact (ih h.of_append).write h

/-- Runs that take no cell back are read as they were projected, after each of them. -/
theorem project_converges (table : List StagedRow) (runs : List ProjectorRun)
    (h : Steady (table ++ projected runs)) : Converges table runs := by
  intro pre run post hruns row hrow
  have hsteady : Steady (table ++ projected (pre ++ [run])) := by
    rw [hruns, List.append_cons, projected_append, ← List.append_assoc] at h
    exact h.of_append
  have hrun : projected [run] = run.rows := by simp [projected]
  refine rowsFor_of_winner ?_
  rw [(readBack_project hsteady).winner, projected_append, hrun, vintages_append, vintages_append,
    vintages_run run hrow, ← List.append_assoc, List.getLast?_concat]

def sampleRun (value confidence : ℚ) (knowableAt : Instant) : ProjectorRun where
  issuer := ⟨"issuer", "AAA", .nonFinancial⟩
  rows := [⟨"issuer", 100, "revenue", value, confidence, knowableAt, none⟩]
  issuer_rows := by simp
  nodup_rows := by simp

theorem project_converges_sample : Steady ([] ++ projected [sampleRun 1 1 10, sampleRun 2 1 20]) ∧
      Converges [] [sampleRun 1 1 10, sampleRun 2 1 20] := by
  have hlater : (projected [sampleRun 1 1 10, sampleRun 2 1 20]).Pairwise fun a b =>
      SameCell a b → a.knowableAt < b.knowableAt := by decide +kernel
  have hsteady : Steady (projected [sampleRun 1 1 10, sampleRun 2 1 20]) := by
    refine ⟨by decide +kernel, hlater.imp fun h hsame => (h hsame).le, ?_⟩
    intro l₁ a l₂ b l₃ hrows hsame _ hknowable
    rw [hrows] at hlater
    have hlt := (List.pairwise_cons.1 (List.pairwise_append.1 hlater).2.1).1 b (by simp) hsame
    exact absurd hknowable hlt.ne
  exact ⟨hsteady, project_converges [] _ hsteady⟩

/-- A new confidence of one value is not written, and a row with an earlier `knowable_at` does not win. -/
theorem project_not_converges : ¬ Converges [] [sampleRun 1 1 10, sampleRun 1 (1 / 2) 10] ∧
      ¬ Converges [] [sampleRun 1 1 20, sampleRun 2 1 10] := by
  constructor
  · intro h
    have hread := h [sampleRun 1 1 10] (sampleRun 1 (1 / 2) 10) [] rfl _ List.mem_cons_self
    exact absurd hread (by decide +kernel)
  · intro h
    have hread := h [sampleRun 1 1 20] (sampleRun 2 1 10) [] rfl _ List.mem_cons_self
    exact absurd hread (by decide +kernel)

end TrueAlpha.Strategy
