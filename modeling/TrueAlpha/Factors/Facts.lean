import TrueAlpha.Contracts.FiscalPeriod
import TrueAlpha.Forest.Binding

/-!
# Measures and facts

The values that reach a factor.  A product of a price and a count has a value when both are about one instrument (`times`). The
cutoff, the subject and the `knowable_at` are left out: no factor reads them.
-/

namespace TrueAlpha

/-- Beside the errors of the forest and the bands; an operation of `decimal` without a result is `invalidOperation`. -/
inductive FactorError where
  | forest (error : ForestError)
  | bands (error : TierBandError)
  | blankUnit
  | unregisteredMetric (metric : String)
  | factConfidence (confidence : ℚ)
  | multipleFacts (entityId metric : String)
  | multiplePeriodFacts (entityId metric : String) (finish : Date)
  | multipleResults (entityId factor : String)
  | periodText (tag : String)
  | cagrYears
  | lookAhead (issuerId inputKey : String)
  | knowableAtLacks (issuerId : String) (inputKeys : List String)
  | emptyMinimum
  | invalidOperation
  deriving DecidableEq, Repr

instance liftForest : MonadLift (Except ForestError) (Except FactorError) := ⟨Except.mapError .forest⟩

instance liftBands : MonadLift (Except TierBandError) (Except FactorError) := ⟨Except.mapError .bands⟩

section

variable {ε ε' : Type} {α : Type}

theorem mapError_eq_ok_iff {f : ε → ε'} {x : Except ε α} {a : α} : x.mapError f = .ok a ↔ x = .ok a := by
  cases x <;> simp [Except.mapError]

@[simp] theorem liftForest_eq_ok_iff {x : Except ForestError α} {a : α} :
    (liftM x : Except FactorError α) = .ok a ↔ x = .ok a := mapError_eq_ok_iff

theorem liftForest_ok (a : α) : (liftM (Except.ok a : Except ForestError α) : Except FactorError α) = .ok a := rfl

@[simp] theorem liftBands_eq_ok_iff {x : Except TierBandError α} {a : α} :
    (liftM x : Except FactorError α) = .ok a ↔ x = .ok a := mapError_eq_ok_iff

end

/-- The value of an operation of `decimal`. -/
def computed (value : Option ℚ) : Except FactorError ℚ :=
  match value with
  | some value => .ok value
  | none => .error .invalidOperation

/-- `min` of a sequence. -/
def minimum : List ℚ → Except FactorError ℚ
  | [] => .error .emptyMinimum
  | value :: rest => .ok (rest.foldl min value)

def valued {α : Type} (item : Option α) (value : α → Option ℚ) : Option (α × ℚ) :=
  item.bind fun item => (value item).map fun value => (item, value)

section

variable {α : Type} {item : Option α} {value : α → Option ℚ}

theorem valued_eq_some_iff {a : α} {x : ℚ} : valued item value = some (a, x) ↔ item = some a ∧ value a = some x := by
  cases item with
  | none => simp [valued]
  | some b =>
    cases h : value b with
    | none => simpa [valued, h] using fun hb => by simp [← hb, h]
    | some y => simpa [valued, h] using fun hb => by simp [← hb, h]

theorem valued_eq_none_iff : valued item value = none ↔ item.bind value = none := by
  cases item with
  | none => simp [valued]
  | some b => simp [valued]

end

inductive MeasureUnit where
  | money (currency : String)
  | units (instrumentId : String)
  | perUnit (currency instrumentId : String)
  deriving DecidableEq, Repr

/-- The white space of `str.strip`. -/
def isSpace (c : Char) : Bool := c.toNat ∈ [0x20, 0x85, 0xa0, 0x1680, 0x2028, 0x2029, 0x202f, 0x205f, 0x3000] ∨
    (0x9 ≤ c.toNat ∧ c.toNat ≤ 0xd) ∨ (0x1c ≤ c.toNat ∧ c.toNat ≤ 0x1f) ∨
    (0x2000 ≤ c.toNat ∧ c.toNat ≤ 0x200a)

def isBlank (text : String) : Bool := text.toList.all isSpace

def defaultReportingCurrency : String := "USD"

def defaultUnitForMetric (family : UnitFamily) (subject : String) : Except FactorError MeasureUnit :=
  match family with
  | .currency => .ok (.money defaultReportingCurrency)
  | .perShare =>
    if isBlank subject then .error .blankUnit else .ok (.perUnit defaultReportingCurrency subject)
  | _ => if isBlank subject then .error .blankUnit else .ok (.units subject)

inductive MeasurePeriod where
  | tag (text : String)
  | day (day : Date)
  | span (start finish : Date)
  | annual (period : FiscalPeriod)
  deriving DecidableEq, Repr

structure Measure where
  value : ℚ
  unit : MeasureUnit
  period : Option MeasurePeriod
  deriving DecidableEq, Repr

/-- A value with the unit of its metric. -/
def measureForInputKey (inputKey : String) (value : ℚ) (subject : String) (period : Option MeasurePeriod) :
    Except FactorError Measure := do
  let family := (unitFamilyOf (metricForKey inputKey)).getD .count
  let unit ← defaultUnitForMetric family subject
  return ⟨value, unit, period⟩

/-- `times`, rounded: a price and a count of one instrument, in either order; else a mismatch (`none`). -/
def timesIn (round : ℚ → ℚ) (left right : ℚ × MeasureUnit) : Option ℚ :=
  match left.2, right.2 with
  | .perUnit _ instrument, .units instrument' | .units instrument, .perUnit _ instrument' =>
    if instrument = instrument' then some (round (left.1 * right.1)) else none
  | _, _ => none

def times (context : Context) (left right : ℚ × MeasureUnit) : Option ℚ := timesIn context.round left right

structure Fact where
  entityId : String
  metric : String
  value : Option ℚ
  confidence : ℚ
  fiscalPeriod : Option String
  unit : Option MeasureUnit
  deriving DecidableEq, Repr

def factOf (entityId metric : String) (measure : Measure) (confidence : ℚ) (fiscalPeriod : Option String) :
    Except FactorError Fact :=
  if (unitFamilyOf metric).isNone then .error (.unregisteredMetric metric)
  else if confidence < 0 ∨ 1 < confidence then .error (.factConfidence confidence)
  else .ok ⟨entityId, metric, some measure.value, confidence, fiscalPeriod, some measure.unit⟩

def Fact.toMeasure (fact : Fact) (value : ℚ) : Except FactorError (ℚ × MeasureUnit) :=
  match fact.unit with
  | some unit => .ok (value, unit)
  | none => do
    let unit ← defaultUnitForMetric ((unitFamilyOf fact.metric).getD .count) fact.entityId
    return (value, unit)

/-- `_find`: the one fact of a metric. -/
def findFact (facts : List Fact) (entityId metric : String) : Except FactorError (Option Fact) :=
  match facts.filter fun fact => fact.entityId = entityId ∧ fact.metric = metric with
  | [] => .ok none
  | [fact] => .ok (some fact)
  | _ => .error (.multipleFacts entityId metric)

variable {entityId metric : String}

section

variable {facts : List Fact}

theorem findFact_some {fact : Fact} (h : findFact facts entityId metric = .ok (some fact)) :
    fact ∈ facts ∧ fact.entityId = entityId ∧ fact.metric = metric := by
  unfold findFact at h
  split at h
  · cases h
  · next found hfilter =>
    cases h
    have hmem : fact ∈ facts.filter fun fact => fact.entityId = entityId ∧ fact.metric = metric := by
      rw [hfilter]
      exact List.mem_singleton_self fact
    simpa using List.mem_filter.mp hmem
  · cases h

theorem findFact_none (h : findFact facts entityId metric = .ok none) :
    ∀ fact ∈ facts, fact.entityId = entityId → fact.metric ≠ metric := by
  unfold findFact at h
  split at h
  · next hfilter =>
    intro fact hfact hentity hmetric
    have hmem : fact ∈ facts.filter fun fact => fact.entityId = entityId ∧ fact.metric = metric :=
      List.mem_filter.mpr ⟨hfact, by simp [hentity, hmetric]⟩
    rw [hfilter] at hmem
    cases hmem
  · cases h
  · cases h

theorem findFact_append_of_ne {more : List Fact} (h : ∀ fact ∈ more, fact.metric ≠ metric) :
    findFact (facts ++ more) entityId metric = findFact facts entityId metric := by
  have hnil : (more.filter fun fact => fact.entityId = entityId ∧ fact.metric = metric) = [] := by
    rw [List.filter_eq_nil_iff]
    intro fact hfact hmatch
    exact h fact hfact (of_decide_eq_true hmatch).2
  rw [findFact, findFact, List.filter_append, hnil, List.append_nil]

end

structure FactorResult where
  factor : String
  entityId : String
  value : Option ℚ
  confidence : ℚ
  flags : List String
  deriving DecidableEq, Repr

def FactorResult.unavailable (factor entityId : String) (flags : List String) : FactorResult := ⟨factor, entityId, none, 0, flags⟩

end TrueAlpha
