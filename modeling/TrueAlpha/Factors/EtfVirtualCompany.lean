import TrueAlpha.Factors.PegOrder

/-!
# A fund as a virtual company

`consolidate_fund` weights the valuation gaps of the lines of a fund.  A filing may carry weights of either sign: the masses are
nested, and the mean lies between the gaps, exactly when the lines are `Balanced` (`coverageHolds_iff`).
-/

namespace TrueAlpha

structure HoldingLine where
  holdingName : String
  weight : Option ℚ
  listingId : Option String
  valuationGap : Option ℚ
  availability : Option String
  confidence : Option ℚ
  availabilityStatus : Option String

namespace HoldingLine

def resolved (line : HoldingLine) : Bool := line.listingId.isSome

def valued (line : HoldingLine) : Bool :=
  line.weight.isSome && line.resolved && (line.availabilityStatus.or line.availability) = some "available" &&
    line.valuationGap.isSome

end HoldingLine

/-- `EtfConsolidationDefinition`, with the floors that its fields accept. -/
structure EtfConsolidationDefinition where
  minimumResolvedWeight : ℚ
  minimumValuedWeight : ℚ
  resolved_range : 0 ≤ minimumResolvedWeight ∧ minimumResolvedWeight ≤ 100
  valued_range : 0 ≤ minimumValuedWeight ∧ minimumValuedWeight ≤ 100

inductive DataAvailability
  | verified
  | unverified
  deriving DecidableEq

structure FundConsolidation where
  fundId : String
  result : FactorResult
  dataAvailability : DataAvailability
  totalWeight : ℚ
  resolvedWeight : ℚ
  valuedWeight : ℚ
  lines : ℕ
  valuedLines : ℕ

/-- `sum` from zero, where every addition is rounded. -/
def sumIn (round : ℚ → ℚ) (values : List ℚ) : ℚ := values.foldl (fun sum value => round (sum + value)) 0

def massIn (round : ℚ → ℚ) (lines : List HoldingLine) (predicate : HoldingLine → Bool) : ℚ :=
  sumIn round ((lines.filter predicate).filterMap HoldingLine.weight)

def weakestLine (lines : List HoldingLine) : ℚ :=
  match (lines.filter HoldingLine.valued).filterMap HoldingLine.confidence with
  | [] => 0
  | confidence :: rest => rest.foldl min confidence

def weightedIn (round : ℚ → ℚ) (lines : List HoldingLine) : ℚ :=
  sumIn round ((lines.filter HoldingLine.valued).filterMap fun line =>
    line.weight.bind fun weight => line.valuationGap.map fun gap => round (weight * gap))

/-- `consolidate_fund`, under the rounding of an arithmetic. -/
def consolidateFund (round : ℚ → ℚ) (lines : List HoldingLine) (fundId : String) (definition : EtfConsolidationDefinition) :
    FundConsolidation :=
  let total := massIn round lines fun _ => true
  let resolved := massIn round lines HoldingLine.resolved
  let valued := massIn round lines HoldingLine.valued
  let consolidation (result : FactorResult) (availability : DataAvailability) : FundConsolidation :=
    ⟨fundId, result, availability, total, resolved, valued, lines.length, (lines.filter HoldingLine.valued).length⟩
  let refusal (flag : String) := consolidation (.unavailable "etf_virtual_company" fundId [flag]) .unverified
  if resolved < definition.minimumResolvedWeight then refusal "resolved_weight_below_minimum"
  else if valued < definition.minimumValuedWeight then refusal "valued_weight_below_minimum"
  else if valued ≤ 0 then refusal "no_valued_mass"
  else
    consolidation
      ⟨"etf_virtual_company", fundId, some (round (weightedIn round lines / valued)), weakestLine lines,
        (if valued < resolved then ["partial_valued_mass"] else []) ++
          if resolved < total then ["unresolved_holdings"] else []⟩
      (if total ≤ valued then .verified else .unverified)

section

variable {lines lines' : List HoldingLine} {predicate : HoldingLine → Bool} {definition : EtfConsolidationDefinition}
  {fundId : String}

theorem sumIn_id (values : List ℚ) : sumIn id values = values.sum := List.sum_eq_foldl.symm

theorem massIn_id (lines : List HoldingLine) (predicate : HoldingLine → Bool) :
    massIn id lines predicate = (lines.map fun line => if predicate line then line.weight.getD 0 else 0).sum := by
  rw [massIn, sumIn_id]
  induction lines with
  | nil => rfl
  | cons line lines ih =>
    cases hpredicate : predicate line <;> cases hweight : line.weight <;> simp [hpredicate, hweight, ih]

theorem massIn_split (lines : List HoldingLine) (predicate part : HoldingLine → Bool) (h : ∀ line, part line → predicate line) :
    massIn id lines predicate = massIn id lines part + massIn id lines fun line => predicate line && !part line := by
  rw [massIn_id, massIn_id, massIn_id, ← List.sum_map_add]
  refine congrArg List.sum (List.map_congr_left fun line _ => ?_)
  cases hpart : part line
  · simp
  · simp [h line hpart]

theorem resolved_of_valued {line : HoldingLine} (h : line.valued) : line.resolved := by
  simp only [HoldingLine.valued, Bool.and_eq_true] at h
  exact h.1.1.2

def Published (definition : EtfConsolidationDefinition) (lines : List HoldingLine) : Prop :=
  definition.minimumResolvedWeight ≤ massIn id lines HoldingLine.resolved ∧
    definition.minimumValuedWeight ≤ massIn id lines HoldingLine.valued ∧ 0 < massIn id lines HoldingLine.valued

theorem consolidateFund_value {value : ℚ} : (consolidateFund id lines fundId definition).result.value = some value ↔
    Published definition lines ∧ value = weightedIn id lines / massIn id lines HoldingLine.valued := by
  simp only [consolidateFund, Published]
  split_ifs with hresolved hvalued hzero
  · exact iff_of_false (by simp [FactorResult.unavailable]) fun h => absurd h.1.1 (not_le.mpr hresolved)
  · exact iff_of_false (by simp [FactorResult.unavailable]) fun h => absurd h.1.2.1 (not_le.mpr hvalued)
  · exact iff_of_false (by simp [FactorResult.unavailable]) fun h => absurd h.1.2.2 (not_lt.mpr hzero)
  all_goals simp [not_lt.mp hresolved, not_lt.mp hvalued, not_le.mp hzero, eq_comm]

theorem consolidateFund_verified : (consolidateFund id lines fundId definition).dataAvailability = .verified ↔
    Published definition lines ∧ massIn id lines (fun _ => true) ≤ massIn id lines HoldingLine.valued := by
  simp only [consolidateFund, Published]
  split_ifs with hresolved hvalued hzero
  · exact iff_of_false (by simp) fun h => absurd h.1.1 (not_le.mpr hresolved)
  · exact iff_of_false (by simp) fun h => absurd h.1.2.1 (not_le.mpr hvalued)
  · exact iff_of_false (by simp) fun h => absurd h.1.2.2 (not_lt.mpr hzero)
  all_goals simp_all only [not_lt, not_le, and_self, true_and, false_iff]

theorem consolidateFund_masses (round : ℚ → ℚ) (lines : List HoldingLine) (fundId : String)
    (definition : EtfConsolidationDefinition) : (consolidateFund round lines fundId definition).totalWeight =
    massIn round lines (fun _ => true) ∧ (consolidateFund round lines fundId definition).resolvedWeight =
    massIn round lines HoldingLine.resolved ∧ (consolidateFund round lines fundId definition).valuedWeight =
    massIn round lines HoldingLine.valued := by
  simp only [consolidateFund]
  split_ifs <;> exact ⟨rfl, rfl, rfl⟩

theorem consolidateFund_perm (h : lines.Perm lines') :
    consolidateFund id lines fundId definition = consolidateFund id lines' fundId definition := by
  have hmass : ∀ predicate, massIn id lines predicate = massIn id lines' predicate := fun predicate => by
    rw [massIn, massIn, sumIn_id, sumIn_id]
    exact ((h.filter predicate).filterMap _).sum_eq
  have hweighted : weightedIn id lines = weightedIn id lines' := by
    rw [weightedIn, weightedIn, sumIn_id, sumIn_id]
    exact ((h.filter _).filterMap _).sum_eq
  have hweakest : weakestLine lines = weakestLine lines' := by
    have hminimum := minimum_perm ((h.filter HoldingLine.valued).filterMap HoldingLine.confidence)
    unfold weakestLine
    revert hminimum
    generalize (lines.filter HoldingLine.valued).filterMap HoldingLine.confidence = found
    generalize (lines'.filter HoldingLine.valued).filterMap HoldingLine.confidence = found'
    cases found <;> cases found' <;> simp [minimum]
  unfold consolidateFund
  simp only [hmass, hweighted, hweakest, h.length_eq, (h.filter HoldingLine.valued).length_eq]

def excess (lines : List HoldingLine) (gap : ℚ) : ℚ :=
  ((lines.filter HoldingLine.valued).map fun line => line.weight.getD 0 * (line.valuationGap.getD 0 - gap)).sum

theorem excess_eq (lines : List HoldingLine) (gap : ℚ) :
    excess lines gap = weightedIn id lines - gap * massIn id lines HoldingLine.valued := by
  rw [weightedIn, massIn, excess, sumIn_id, sumIn_id]
  induction lines with
  | nil => simp
  | cons line lines ih =>
    cases hvalued : line.valued with
    | false => simpa [hvalued] using ih
    | true =>
      have hparts := hvalued
      simp only [HoldingLine.valued, Bool.and_eq_true] at hparts
      obtain ⟨weight, hweight⟩ := Option.isSome_iff_exists.mp hparts.1.1.1
      obtain ⟨own, hown⟩ := Option.isSome_iff_exists.mp hparts.2
      simp only [hvalued, hweight, hown, List.filter_cons_of_pos, List.map_cons, List.sum_cons, List.filterMap_cons,
        Option.getD_some, Option.bind_some, Option.map_some, id, ih]
      ring

structure CoverageHolds (definition : EtfConsolidationDefinition) (fundId : String) (lines : List HoldingLine) : Prop where
  nested : (consolidateFund id lines fundId definition).valuedWeight ≤
    (consolidateFund id lines fundId definition).resolvedWeight ∧
      (consolidateFund id lines fundId definition).resolvedWeight ≤ (consolidateFund id lines fundId definition).totalWeight
  mean : ∀ value, (consolidateFund id lines fundId definition).result.value = some value →
    (∃ line ∈ lines, line.valued ∧ line.valuationGap.getD 0 ≤ value) ∧
      ∃ line ∈ lines, line.valued ∧ value ≤ line.valuationGap.getD 0
  floors : (consolidateFund id lines fundId definition).result.value.isSome →
    definition.minimumResolvedWeight ≤ (consolidateFund id lines fundId definition).resolvedWeight ∧
      definition.minimumValuedWeight ≤ (consolidateFund id lines fundId definition).valuedWeight
  verified : (consolidateFund id lines fundId definition).dataAvailability = .verified →
    ∀ line ∈ lines, line.weight.isSome → line.valued
  order : ∀ other : List HoldingLine, lines.Perm other →
    consolidateFund id other fundId definition = consolidateFund id lines fundId definition

/-- The unresolved lines and those without a value weigh no less than nothing, the mean is not drawn past its gaps, and what it
leaves out weighs something. -/
structure Balanced (definition : EtfConsolidationDefinition) (lines : List HoldingLine) : Prop where
  unresolved : 0 ≤ massIn id lines fun line => true && !line.resolved
  unvalued : 0 ≤ massIn id lines fun line => line.resolved && !line.valued
  between : Published definition lines → (∃ line ∈ lines, line.valued ∧ 0 ≤ excess lines (line.valuationGap.getD 0)) ∧
      ∃ line ∈ lines, line.valued ∧ excess lines (line.valuationGap.getD 0) ≤ 0
  whole : Published definition lines → massIn id lines (fun line => true && !line.valued) ≤ 0 →
    ∀ line ∈ lines, line.weight.isSome → line.valued

/-- A fund is what its documentation promises exactly when its lines are balanced. -/
theorem coverageHolds_iff (definition : EtfConsolidationDefinition) (fundId : String) (lines : List HoldingLine) :
    CoverageHolds definition fundId lines ↔ Balanced definition lines := by
  obtain ⟨htotal, hresolved, hvalued⟩ := consolidateFund_masses id lines fundId definition
  have hall := massIn_split lines (fun _ => true) HoldingLine.resolved fun _ _ => rfl
  have hpart := massIn_split lines HoldingLine.resolved HoldingLine.valued fun _ => resolved_of_valued
  have hwhole := massIn_split lines (fun _ => true) HoldingLine.valued fun _ _ => rfl
  -- a gap is below the mean when the others exceed it
  have hbelow : Published definition lines → ∀ gap : ℚ,
      (gap ≤ weightedIn id lines / massIn id lines HoldingLine.valued ↔ 0 ≤ excess lines gap) ∧
        (weightedIn id lines / massIn id lines HoldingLine.valued ≤ gap ↔ excess lines gap ≤ 0) := by
    intro hpublished gap
    rw [le_div_iff₀ hpublished.2.2, div_le_iff₀ hpublished.2.2, excess_eq, sub_nonneg, sub_nonpos]
    exact ⟨Iff.rfl, Iff.rfl⟩
  constructor
  · intro h
    have hnested := h.nested
    rw [htotal, hresolved, hvalued] at hnested
    refine ⟨by linarith [hnested.2], by linarith [hnested.1], fun hpublished => ?_, fun hpublished hnone => ?_⟩
    · obtain ⟨⟨low, hlow, hlowValued, hle⟩, high, hhigh, hhighValued, hge⟩ :=
        h.mean _ (consolidateFund_value.mpr ⟨hpublished, rfl⟩)
      exact ⟨⟨low, hlow, hlowValued, ((hbelow hpublished _).1).mp hle⟩,
        ⟨high, hhigh, hhighValued, ((hbelow hpublished _).2).mp hge⟩⟩
    · exact h.verified (consolidateFund_verified.mpr ⟨hpublished, by linarith⟩)
  · intro h
    refine ⟨?_, fun value hvalue => ?_, fun hvalue => ?_, fun hverified => ?_, fun other hperm =>
      (consolidateFund_perm hperm).symm⟩
    · rw [htotal, hresolved, hvalued]
      exact ⟨by linarith [h.unvalued], by linarith [h.unresolved]⟩
    · obtain ⟨hpublished, rfl⟩ := consolidateFund_value.mp hvalue
      obtain ⟨⟨low, hlow, hlowValued, hle⟩, high, hhigh, hhighValued, hge⟩ := h.between hpublished
      exact ⟨⟨low, hlow, hlowValued, ((hbelow hpublished _).1).mpr hle⟩,
        ⟨high, hhigh, hhighValued, ((hbelow hpublished _).2).mpr hge⟩⟩
    · obtain ⟨value, hvalue⟩ := Option.isSome_iff_exists.mp hvalue
      obtain ⟨hpublished, -⟩ := consolidateFund_value.mp hvalue
      rw [hresolved, hvalued]
      exact ⟨hpublished.1, hpublished.2.1⟩
    · obtain ⟨hpublished, hle⟩ := consolidateFund_verified.mp hverified
      exact h.whole hpublished (by linarith)

end

/-! A fund that is short one line which it could not resolve. -/

def consolidationV0 : EtfConsolidationDefinition := ⟨50, 20, by norm_num, by norm_num⟩

def shortFund : List HoldingLine :=
  [⟨"Long position", some 60, some "listing:xnas:a", some (1 / 2), some "available", some 1, none⟩,
    ⟨"Short position", some (-1), none, none, none, none, none⟩]

theorem short_position_is_not_nested : ¬ CoverageHolds consolidationV0 "fund:short" shortFund := by
  intro h
  exact absurd h.nested.2 (by decide +kernel)

end TrueAlpha
