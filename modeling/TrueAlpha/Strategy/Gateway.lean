import TrueAlpha.Strategy.Gates
import TrueAlpha.Strategy.Inputs
import TrueAlpha.Strategy.Selection

/-!
# From staged rows to the inputs of the evaluator

The embedding of `data_engine.strategy_backtest_gateway`: a scalar row answers for its key, and of a periodic key the row of the
latest period.  An observation is kept as its row.
-/

namespace TrueAlpha.Strategy

def firstDate : Date := 1

def fiscalYearOfTag (tag : List Char) : Option ℕ :=
  match tag with
  | 'F' :: 'Y' :: rest => (matchDigits 4 rest).map fun matched => intOfDigits matched.1
  | _ => none

/-- The end of a period, with its tag. -/
def periodEndKey (tag : String) : Date ×ₗ String :=
  match parseAnnual tag with
  | .ok (some period) => toLex (period.finish, tag)
  | _ =>
    let parts := tag.toList.splitOn ':'
    match (if 4 ≤ parts.length then parts.getLast?.bind fun last => fromIsoFormat (String.ofList last) else none) with
    | some finish => toLex (finish, tag)
    | none =>
      match (if ':' ∈ tag.toList then none else (fiscalYearOfTag tag.toList).bind fun year => dateOf year 12 31) with
      | some finish => toLex (finish, tag)
      | none => toLex (firstDate, tag)

structure Observations where
  scalars : Dict String (Dict String InputRow)
  periods : Dict String (Dict String (Dict String InputRow))

/-- `max(series, key=_period_end_key)`: the row of the latest period. -/
def latestPeriod (series : Dict String InputRow) : Option InputRow :=
  (latestBy (fun item : String × InputRow => periodEndKey item.1) series.items).map Prod.snd

def setIn {ν : Type} (d : Dict String (Dict String ν)) (outer inner : String) (value : ν) : Dict String (Dict String ν) :=
  d.set outer (((d.get? outer).getD Dict.empty).set inner value)

def observe (seen : Observations) (row : InputRow) : Observations :=
  match row.fiscalPeriod with
  | none => { seen with scalars := setIn seen.scalars row.issuerId row.inputKey row }
  | some tag =>
    let series := ((((seen.periods.get? row.issuerId).getD Dict.empty).get? row.inputKey).getD Dict.empty).set tag row
    { periods := setIn seen.periods row.issuerId row.inputKey series
      scalars := setIn seen.scalars row.issuerId row.inputKey ((latestPeriod series).getD row) }

def observeRow (cutoffAt : Option Instant) (seen : Observations) (row : InputRow) : Except FactorError Observations :=
  if ∃ cutoff ∈ cutoffAt, cutoff < row.knowableAt then .error (.lookAhead row.issuerId row.inputKey)
  else .ok (observe seen row)

def observed (rows : List InputRow) : Observations := rows.foldl observe ⟨Dict.empty, Dict.empty⟩

def recordOf (issuerId key : String) (period : Option MeasurePeriod) (row : InputRow) : Except FactorError (Measure × ℚ) := do
  let measure ← measureForInputKey key row.value issuerId period
  return (measure, row.confidence)

def issuerInputOf (seen : Observations) (issuerId : String) (answers : Dict String InputRow) :
    Except FactorError IssuerInput := do
  let records ← answers.mapValM fun key row => recordOf issuerId key none row
  let periodicRecords ← ((seen.periods.get? issuerId).getD Dict.empty).mapValM fun key series =>
    series.mapValM fun tag row => recordOf issuerId key (some (.tag tag)) row
  return {
    issuerId
    records
    knowableAt := answers.mapVal fun _ row => row.knowableAt
    periodicRecords
    issuerClass := none }

def issuerInputsFromRows (cutoffAt : Option Instant) (rows : List InputRow) : Except FactorError (List IssuerInput) := do
  let seen ← rows.foldlM (observeRow cutoffAt) ⟨Dict.empty, Dict.empty⟩
  (sortedBy Prod.fst seen.scalars.items).mapM fun entry => issuerInputOf seen entry.1 entry.2

def withClasses (classes : String → Option IssuerClass) (inputs : List IssuerInput) : List IssuerInput :=
  inputs.map fun input => { input with issuerClass := classes input.issuerId }

section

variable {cutoffAt : Option Instant} {rows : List InputRow} {inputs : List IssuerInput}

theorem observeRow_foldlM {seen seen' : Observations} (h : rows.foldlM (observeRow cutoffAt) seen = .ok seen') :
    seen' = rows.foldl observe seen := by
  induction rows generalizing seen with
  | nil => exact (foldlM_nil_eq_ok.mp h).symm
  | cons row rows ih =>
    obtain ⟨next, hnext, hrest⟩ := foldlM_cons_eq_ok.mp h
    unfold observeRow at hnext
    split at hnext
    · cases hnext
    · cases hnext
      exact ih hrest

theorem issuerInputsFromRows_spec (h : issuerInputsFromRows cutoffAt rows = .ok inputs) :
    (sortedBy Prod.fst (observed rows).scalars.items).mapM
      (fun entry => issuerInputOf (observed rows) entry.1 entry.2) = .ok inputs := by
  obtain ⟨seen, hseen, hinputs⟩ := bind_eq_ok_iff.mp h
  cases observeRow_foldlM hseen
  exact hinputs

theorem issuerInputOf_spec {seen : Observations} {issuerId : String} {answers : Dict String InputRow} {input : IssuerInput}
    (h : issuerInputOf seen issuerId answers = .ok input) :
    input.issuerId = issuerId ∧ answers.mapValM (fun key row => recordOf issuerId key none row) = .ok input.records ∧
      input.knowableAt = answers.mapVal (fun _ row => row.knowableAt) ∧
      ((seen.periods.get? issuerId).getD Dict.empty).mapValM (fun key series =>
        series.mapValM fun tag row => recordOf issuerId key (some (.tag tag)) row) = .ok input.periodicRecords := by
  obtain ⟨records, hrecords, h⟩ := bind_eq_ok_iff.mp h
  obtain ⟨periodic, hperiodic, h⟩ := bind_eq_ok_iff.mp h
  obtain rfl := pure_eq_ok_iff.mp h
  exact ⟨rfl, hrecords, rfl, hperiodic⟩

section

variable (h : issuerInputsFromRows cutoffAt rows = .ok inputs)

include h

theorem exists_answers_of_mem {input : IssuerInput}
    (hinput : input ∈ inputs) : ∃ answers, (observed rows).scalars.get? input.issuerId = some answers ∧
      issuerInputOf (observed rows) input.issuerId answers = .ok input := by
  obtain ⟨entry, hentry, hof⟩ := exists_of_mem_mapM (issuerInputsFromRows_spec h) hinput
  have hid := (issuerInputOf_spec hof).1
  rw [mem_sortedBy] at hentry
  rw [hid]
  exact ⟨entry.2, (Dict.get?_eq_some_iff _ _ _).mpr hentry, hof⟩

theorem map_issuerId_inputs :
    inputs.map IssuerInput.issuerId = (sortedBy Prod.fst (observed rows).scalars.items).map Prod.fst := by
  have hall := mapM_eq_ok_iff.mp (issuerInputsFromRows_spec h)
  clear h
  generalize sortedBy Prod.fst (observed rows).scalars.items = entries at hall
  induction hall with
  | nil => rfl
  | cons hhead _ ih => rw [List.map_cons, List.map_cons, ih, (issuerInputOf_spec hhead).1]

theorem nodup_issuerId_inputs : (inputs.map IssuerInput.issuerId).Nodup := by
  rw [map_issuerId_inputs h, ((perm_sortedBy Prod.fst _).map Prod.fst).nodup_iff]
  exact (observed rows).scalars.nodup_keys

end

end

section

variable {cutoffAt : Option Instant} {rows : List InputRow} {inputs : List IssuerInput} {input : IssuerInput}
  {asOf : Instant}

variable {key : String} {record : Measure × ℚ}

theorem recordOf_period {issuerId : String} {period : Option MeasurePeriod} {row : InputRow}
    (h : recordOf issuerId key period row = .ok record) : record.1.period = period := by
  obtain ⟨measure, hmeasure, h⟩ := bind_eq_ok_iff.mp h
  obtain rfl := pure_eq_ok_iff.mp h
  obtain ⟨unit, -, h⟩ := bind_eq_ok_iff.mp hmeasure
  obtain rfl := pure_eq_ok_iff.mp h
  rfl

theorem records_period (h : issuerInputsFromRows cutoffAt rows = .ok inputs) (hinput : input ∈ inputs)
    (hrecord : input.records.get? key = some record) : record.1.period = none := by
  obtain ⟨answers, -, hof⟩ := exists_answers_of_mem h hinput
  obtain ⟨row, -, hrow⟩ := (Dict.get?_mapValM (issuerInputOf_spec hof).2.1).mp hrecord
  exact recordOf_period hrow

theorem recordFor_mem {issuer : IssuerInput} (h : issuer.recordFor key = some record) :
    ∃ key', issuer.records.get? key' = some record := by
  unfold IssuerInput.recordFor at h
  split at h
  · next hget =>
    cases h
    exact ⟨key, hget⟩
  · split_ifs at h
    · exact ⟨_, h⟩
    · obtain h | ⟨_, h⟩ := Option.or_eq_some_iff.mp h
      · exact ⟨_, h⟩
      · exact ⟨_, h⟩

theorem hasStalePeriod_of_no_period {issuer : IssuerInput} {maximumAgeDays : ℕ}
    (h : ∀ key record, issuer.records.get? key = some record → record.1.period = none) (keys : List String) :
    hasStalePeriod issuer asOf maximumAgeDays keys = .ok false := by
  induction keys with
  | nil => rfl
  | cons key rest ih =>
    unfold hasStalePeriod
    split
    · exact ih
    · next measure _ hrecord =>
      obtain ⟨key', hget⟩ := recordFor_mem hrecord
      have hnone : measure.period = none := h key' _ hget
      rw [hnone]
      exact ih

end

end TrueAlpha.Strategy
