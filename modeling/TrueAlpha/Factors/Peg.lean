import TrueAlpha.Factors.Facts

/-!
# The price-earnings-to-growth ratio

`factors.base.peg`: the multiple of the latest annual earnings over a growth rate, the mean of the yearly rates or the consensus
of the analysts.  Every case without a ratio has a flag.
-/

namespace TrueAlpha

inductive GrowthConvention where
  | analystConsensus
  | historicalCagr
  | companyGuidance
  deriving DecidableEq, Repr

def GrowthConvention.value : GrowthConvention → String
  | .analystConsensus => "analyst_consensus"
  | .historicalCagr => "historical_cagr"
  | .companyGuidance => "company_guidance"

def pegContext : Context := ⟨34⟩

def windowToleranceDays : ℤ := 45

/-- `_annual_by_period_end`: an annual value is stored by its period's end. -/
def annualStep (entityId metric : String) (byEnd : Dict Date ℚ) (fact : Fact) : Except FactorError (Dict Date ℚ) :=
  match decide (fact.entityId = entityId ∧ fact.metric = metric), fact.value, fact.fiscalPeriod with
  | true, some value, some tag =>
    match parseAnnual tag with
    | .error _ => .error (.periodText tag)
    | .ok none => .ok byEnd
    | .ok (some period) =>
      if (byEnd.get? period.finish).isSome then .error (.multiplePeriodFacts entityId metric period.finish)
      else .ok (byEnd.set period.finish value)
  | _, _, _ => .ok byEnd

def annualByPeriodEnd (facts : List Fact) (entityId metric : String) : Except FactorError (Dict Date ℚ) :=
  facts.foldlM (annualStep entityId metric) Dict.empty

def latestOf : List Date → Option Date
  | [] => none
  | finish :: rest => some (rest.foldl max finish)

def windowDistance (latest : Date) (targetDays : ℤ) (finish : Date) : ℤ := |latest - finish - targetDays|

/-- `nearest`: the first end at the least distance, when it lies in the tolerance. -/
def nearestEnd (ends : List Date) (latest : Date) (targetDays : ℤ) : Option Date :=
  let candidates := ends.filter fun finish => finish ≤ latest
  let distance := windowDistance latest targetDays
  let best := candidates.find? fun finish => ∀ other ∈ candidates, distance finish ≤ distance other
  best.filter fun finish => distance finish ≤ windowToleranceDays

def weightedStep (state : ℚ × ℚ) (step : ℕ × ℚ × ℚ) : Except FactorError (ℚ × ℚ) := do
  let (weight, previous, value) := step
  let ratio ← computed (pegContext.div value previous)
  let weighted := pegContext.mul weight (pegContext.sub ratio 1)
  return (pegContext.add state.1 weighted, pegContext.add state.2 weight)

def weightedGrowth (ordered : List ℚ) : Except FactorError ℚ := do
  let steps := (List.range' 1 (ordered.length - 1)).zip (ordered.zip ordered.tail)
  let (weighted, total) ← steps.foldlM weightedStep (0, 0)
  computed (pegContext.div weighted total)

/-- The rate over the window, and the ends of the window. -/
def recencyWeightedGrowth (values : Dict Date ℚ) (years : ℕ) : Except FactorError (Option ℚ × Option (Date × Date)) :=
  match latestOf values.keys with
  | none => .ok (none, none)
  | some latest =>
    if years < 1 then .ok (none, none)
    else
      let steps := (List.range (years + 1)).mapM fun offset =>
        nearestEnd values.keys latest (roundHalfEven (offset * (1461 / 4 : ℚ)))
      match steps with
      | none => .ok (none, none)
      | some steps =>
        if steps.dedup.length ≠ years + 1 then .ok (none, none)
        else
          let ordered := steps.reverse.filterMap values.get?
          let window := (steps.getLast?.getD latest, steps.head?.getD latest)
          if ∃ value ∈ ordered, value ≤ 0 then .ok (none, some window)
          else do
            let rate ← weightedGrowth ordered
            return (some rate, some window)

def validateBasePegInputs (price shares : Option Fact) (series : Dict Date ℚ) : List String := (match price.bind Fact.value with
    | none => ["missing_price"]
    | some value => if value ≤ 0 then ["non_positive_price"] else []) ++
  (match shares.bind Fact.value with
    | none => ["missing_shares_outstanding"]
    | some value => if value ≤ 0 then ["non_positive_shares_outstanding"] else []) ++
  (if series.items = [] then ["missing_net_income"] else [])

def pegResult (facts : List Fact) (entityId : String) (price shares : Fact) (latestEarnings : ℚ)
    (points : ℚ) (confidences : List ℚ) (flags : List String) : Except FactorError FactorResult := do
  match price.value, shares.value with
  | some priceValue, some sharesValue =>
    match times .default (← price.toMeasure priceValue) (← shares.toMeasure sharesValue) with
    | none => return .unavailable "peg" entityId ("unit_mismatch" :: flags)
    | some marketCap =>
      let multiple ← computed (pegContext.div marketCap latestEarnings)
      let value ← computed (pegContext.div multiple points)
      let earnings := facts.filter fun fact =>
        fact.entityId = entityId ∧ fact.metric = "net_income" ∧ fact.value.isSome
      let confidence ← minimum ([price.confidence, shares.confidence] ++ confidences ++ earnings.map Fact.confidence)
      return ⟨"peg", entityId, some value, confidence, flags⟩
  | _, _ => throw .invalidOperation

def pegAnalystConsensus (facts : List Fact) (entityId : String) (price shares : Fact) (latestEarnings : ℚ)
    (consensusFacts : List Fact) : Except FactorError FactorResult := do
  let flags := ["growth_convention:" ++ GrowthConvention.analystConsensus.value]
  if latestEarnings ≤ 0 then return .unavailable "peg" entityId ("non_positive_earnings" :: flags)
  else
    let series ← annualByPeriodEnd facts entityId "consensus_profit_growth"
    let confidences := consensusFacts.map Fact.confidence
    match (latestOf series.keys).bind fun finish => (series.get? finish).map fun rate => (finish, rate) with
    | some (finish, rate) =>
      let flags := flags ++ ["period_end:" ++ isoFormat finish]
      if rate ≤ 0 then return .unavailable "peg" entityId ("non_positive_growth" :: flags)
      else pegResult facts entityId price shares latestEarnings rate confidences flags
    | none =>
      let scalar ← findFact facts entityId "consensus_profit_growth"
      match scalar.bind Fact.value with
      | none => throw .invalidOperation
      | some rate =>
        if rate ≤ 0 then return .unavailable "peg" entityId ("non_positive_growth" :: flags)
        else pegResult facts entityId price shares latestEarnings rate confidences flags

def pegHistorical (facts : List Fact) (entityId : String) (price shares : Fact) (latestEarnings : ℚ)
    (series : Dict Date ℚ) (cagrYears : ℕ) : Except FactorError FactorResult := do
  let (growth, ends) ← recencyWeightedGrowth series cagrYears
  let window := ("cagr_years:" ++ toString cagrYears) ::
    (match ends with
      | some (base, latest) => ["window:" ++ isoFormat base ++ ".." ++ isoFormat latest]
      | none => [])
  if latestEarnings ≤ 0 then return .unavailable "peg" entityId ("non_positive_earnings" :: window)
  else
    match growth with
    | none => return .unavailable "peg" entityId ("insufficient_earnings_history" :: window)
    | some growth =>
      if growth ≤ 0 then return .unavailable "peg" entityId ("non_positive_growth" :: window)
      else
        pegResult facts entityId price shares latestEarnings (pegContext.mul growth 100) [] window

def peg (facts : List Fact) (entityId : String) (convention : GrowthConvention) (cagrYears : ℕ) :
    Except FactorError FactorResult := do
  let consensusFacts := facts.filter fun fact =>
    fact.entityId = entityId ∧ fact.metric = "consensus_profit_growth" ∧ fact.value.isSome
  if cagrYears < 1 then throw .cagrYears
  else if convention = .companyGuidance ∨ (convention = .analystConsensus ∧ consensusFacts = []) then
    return .unavailable "peg" entityId ["growth_convention_unsourced:" ++ convention.value]
  else
    let price ← findFact facts entityId "price"
    let shares ← findFact facts entityId "shares_outstanding"
    let series ← annualByPeriodEnd facts entityId "net_income"
    let flags := validateBasePegInputs price shares series
    if flags ≠ [] then return .unavailable "peg" entityId flags
    else
      match price, shares, (latestOf series.keys).bind series.get? with
      | some price, some shares, some latestEarnings =>
        if convention = .analystConsensus then
          pegAnalystConsensus facts entityId price shares latestEarnings consensusFacts
        else pegHistorical facts entityId price shares latestEarnings series cagrYears
      | _, _, _ => throw .invalidOperation

end TrueAlpha
