import TrueAlpha.Factors.EtfVirtualCompany
import TrueAlpha.Lib.DoubleRounding
import TrueAlpha.Strategy.Rules

/-!
# The weakest input of a factor

A factor owes a confidence of at most the least one that it consumed.  `peg` takes it (`peg_weakest`); a fund leaves lines
without one out; two factors average.  `weakest_input_iff` says where each keeps the rule.
-/

namespace TrueAlpha

def averageConfidence (confidences : List ℚ) : ℚ :=
  let positive := confidences.filter (0 < ·)
  if positive = [] then 8 / 10
  else Context.default.round (sumIn Context.default.round positive / positive.length)

structure SupplyChainPartner where
  partnerId : String
  partnerName : String
  relationType : String
  revenueShare : Option ℚ
  confidence : ℚ

structure SupplyChainExposure where
  entityId : String
  result : FactorResult
  exposureScore : Option ℚ
  directPartners : ℕ
  suppliersCount : ℕ
  customersCount : ℕ
  maxPartnerShare : ℚ

def SupplyChainPartner.shared (partner : SupplyChainPartner) : Bool := partner.revenueShare.any (0 < ·)

/-- It raises (`none`) on partners without an edge in the graph. -/
def supplyChainExposure (partners : List SupplyChainPartner) (entityId : String) (suppliesToEdgesExist : Bool) :
    Option SupplyChainExposure :=
  if partners ≠ [] ∧ suppliesToEdgesExist = false then none
  else if partners = [] then
    let flag := if suppliesToEdgesExist then "no_disclosed_suppliers" else "no_supply_chain_extraction"
    some ⟨entityId, .unavailable "supply_chain_exposure" entityId [flag], none, 0, 0, 0, 0⟩
  else
    let shares := (partners.filter SupplyChainPartner.shared).filterMap SupplyChainPartner.revenueShare
    let exposure :=
      if shares ≠ [] then
        min 1 (sumIn Context.default.round (shares.map fun share => Context.default.round (share * share)))
      else min 1 (Context.default.round (1 / (max 1 partners.length : ℕ)))
    let confidence := averageConfidence (partners.map SupplyChainPartner.confidence)
    some ⟨entityId, ⟨"supply_chain_exposure", entityId, some exposure, confidence, []⟩, some exposure, partners.length,
      (partners.filter (·.relationType = "supplier")).length, (partners.filter (·.relationType = "customer")).length,
      shares.foldl max 0⟩

structure AnalystRatingItem where
  analystId : String
  rating : ℤ
  targetPrice : Option ℚ
  confidence : ℚ

structure AnalystTrackRecord where
  entityId : String
  result : FactorResult
  consensusRating : Option ℚ
  ratingsCount : ℕ
  buyCount : ℕ
  holdCount : ℕ
  sellCount : ℕ

def validRatings (ratings : List AnalystRatingItem) : List AnalystRatingItem :=
  ratings.filter fun item => 1 ≤ item.rating ∧ item.rating ≤ 5

def analystTrackRecord (ratings : List AnalystRatingItem) (entityId : String) : AnalystTrackRecord :=
  let valid := validRatings ratings
  if ratings = [] then
    ⟨entityId, .unavailable "analyst_track_record" entityId ["no_analyst_coverage"], none, 0, 0, 0, 0⟩
  else if valid = [] then
    ⟨entityId, .unavailable "analyst_track_record" entityId ["invalid_ratings_range"], none, ratings.length, 0, 0, 0⟩
  else
    let mean := Context.default.round
      (sumIn Context.default.round (valid.map fun item => (item.rating : ℚ)) / valid.length)
    let confidence := averageConfidence (valid.map AnalystRatingItem.confidence)
    ⟨entityId, ⟨"analyst_track_record", entityId, some mean, confidence, []⟩, some mean, valid.length,
      (valid.filter (4 ≤ ·.rating)).length, (valid.filter (·.rating = 3)).length, (valid.filter (·.rating ≤ 2)).length⟩

structure Graded (places : ℕ) (confidences : List ℚ) : Prop where
  grades : ∀ confidence ∈ confidences, ∃ grade : ℕ, grade ≤ 10 ^ places ∧ confidence = grade / 10 ^ places
  few : confidences.length * 10 ^ places < 10 ^ 27

theorem sumIn_grades {places : ℕ} : ∀ {grades : List ℕ}, grades.sum < 10 ^ 28 →
    sumIn Context.default.round (grades.map fun grade : ℕ => (grade : ℚ) / 10 ^ places) = (grades.sum : ℚ) / 10 ^ places := by
  intro grades
  induction grades using List.reverseRecOn with
  | nil => intro _; simp [sumIn]
  | append_singleton grades grade ih =>
    intro hsum
    rw [List.sum_append, List.sum_singleton] at hsum
    rw [List.map_append, sumIn, List.foldl_append]
    have hrest := ih (by omega)
    rw [sumIn] at hrest
    rw [hrest, List.map_singleton, List.foldl_cons, List.foldl_nil, ← add_div, ← Nat.cast_add,
      Context.round_of_places Context.default hsum places, List.sum_append, List.sum_singleton]

section

variable {places : ℕ} {confidences : List ℚ} {confidence : ℚ}

theorem round_mean_le_iff {grades : List ℕ} {grade : ℕ} (hle : ∀ other ∈ grades, other ≤ 10 ^ places)
    (hgrade : grade ≤ 10 ^ places) (hne : grades ≠ []) (hfew : grades.length * 10 ^ places < 10 ^ 27) :
    Context.default.round ((grades.sum : ℚ) / 10 ^ places / grades.length) ≤ (grade : ℚ) / 10 ^ places ↔
      grades.sum ≤ grades.length * grade := by
  have hlength : 0 < grades.length := List.length_pos_of_ne_nil hne
  have hn : (0 : ℚ) < grades.length := Nat.cast_pos.mpr hlength
  have hpow : (0 : ℚ) < 10 ^ places := by positivity
  have hsum : grades.sum ≤ grades.length * 10 ^ places := by simpa using List.sum_le_card_nsmul grades _ hle
  have hmean : (grades.sum : ℚ) / 10 ^ places / grades.length ≤ 1 := by
    rw [div_div, div_le_one (by positivity), mul_comm]
    exact_mod_cast hsum
  have herror := Context.abs_round_sub_le Context.default
    (show |(grades.sum : ℚ) / 10 ^ places / grades.length| ≤ 1 by rwa [abs_of_nonneg (by positivity)])
  have hsmall : (10 : ℚ) ^ (1 - (Context.default.precision : ℤ)) * (grades.length * 10 ^ places) < 1 := by
    have hcast : ((grades.length * 10 ^ places : ℕ) : ℚ) < ((10 ^ 27 : ℕ) : ℚ) := Nat.cast_lt.mpr hfew
    push_cast at hcast
    calc (10 : ℚ) ^ (1 - (Context.default.precision : ℤ)) * (grades.length * 10 ^ places)
        < 10 ^ (1 - (Context.default.precision : ℤ)) * 10 ^ 27 := mul_lt_mul_of_pos_left hcast (zpow_pos (by norm_num) _)
      _ = 1 := by norm_num [Context.default]
  have hstep : (10 : ℚ) ^ (1 - (Context.default.precision : ℤ)) < 1 / (grades.length * 10 ^ places) := by
    rwa [lt_div_iff₀ (by positivity)]
  have hdiff : (grades.sum : ℚ) / 10 ^ places / grades.length - grade / 10 ^ places =
      ((grades.sum : ℚ) - grades.length * grade) * (1 / (grades.length * 10 ^ places)) := by
    field_simp
  obtain ⟨hlow, hhigh⟩ := abs_le.mp herror
  have hpos : (0 : ℚ) < 1 / (grades.length * 10 ^ places) := by positivity
  obtain hlt | heq | hgt := lt_trichotomy grades.sum (grades.length * grade)
  · refine iff_of_true ?_ hlt.le
    have hcast : (grades.sum : ℚ) + 1 ≤ grades.length * grade := by exact_mod_cast hlt
    nlinarith
  · have hexact : (grades.sum : ℚ) / 10 ^ places / grades.length = grade / 10 ^ places := by
      rw [← sub_eq_zero, hdiff, heq]
      push_cast
      ring
    have hdigits : grade < 10 ^ Context.default.precision :=
      lt_of_le_of_lt (hgrade.trans (Nat.le_mul_of_pos_left _ hlength)) (hfew.trans (by decide))
    rw [hexact, Context.round_of_places _ hdigits]
    exact iff_of_true le_rfl heq.le
  · refine iff_of_false (not_le.mpr ?_) (not_le.mpr hgt)
    have hcast : (grades.length : ℚ) * grade + 1 ≤ grades.sum := by exact_mod_cast hgt
    nlinarith

theorem averageConfidence_le_iff (h : Graded places confidences) (hmem : confidence ∈ confidences) :
    averageConfidence confidences ≤ confidence ↔ 0 < confidence ∧
      (confidences.filter (0 < ·)).sum ≤ (confidences.filter (0 < ·)).length * confidence := by
  have hpow : (0 : ℚ) < 10 ^ places := by positivity
  obtain ⟨grades, hgrades⟩ : ∃ grades : List ℕ, grades.map (fun grade : ℕ => (grade : ℚ) / 10 ^ places) =
      confidences.filter (0 < ·) := by
    refine Set.mem_range.mp ?_
    rw [Set.range_list_map]
    intro value hvalue
    obtain ⟨grade, -, hgrade⟩ := h.grades value (List.mem_of_mem_filter hvalue)
    exact ⟨grade, hgrade.symm⟩
  have hrange : ∀ grade ∈ grades, 0 < grade ∧ grade ≤ 10 ^ places := by
    intro grade hgrade
    have hin := List.mem_map_of_mem (f := fun grade : ℕ => (grade : ℚ) / 10 ^ places) hgrade
    rw [hgrades, List.mem_filter, decide_eq_true_iff] at hin
    obtain ⟨other, hother, heq⟩ := h.grades _ hin.1
    have hsame : grade = other := by exact_mod_cast (div_left_inj' hpow.ne').mp heq
    exact ⟨Nat.cast_pos.mp ((div_pos_iff_of_pos_right hpow).mp hin.2), hsame ▸ hother⟩
  have hlength : grades.length ≤ confidences.length := by
    rw [← List.length_map (fun grade : ℕ => (grade : ℚ) / 10 ^ places), hgrades]
    exact List.length_filter_le _ _
  have hfew : grades.length * 10 ^ places < 10 ^ 27 := (Nat.mul_le_mul_right _ hlength).trans_lt h.few
  have hsum : grades.sum < 10 ^ 28 := by
    have hle : grades.sum ≤ grades.length * 10 ^ places := by
      simpa using List.sum_le_card_nsmul grades _ fun grade hgrade => (hrange grade hgrade).2
    omega
  have htotal : (confidences.filter (0 < ·)).sum = (grades.sum : ℚ) / 10 ^ places := by
    rw [← hgrades]
    clear * -
    induction grades with
    | nil => simp
    | cons grade grades ih => rw [List.map_cons, List.sum_cons, ih, List.sum_cons, Nat.cast_add, add_div]
  obtain ⟨grade, hgrade, rfl⟩ := h.grades confidence hmem
  simp only [averageConfidence]
  by_cases hnone : confidences.filter (0 < ·) = []
  · have hzero : ¬ (0 : ℚ) < grade / 10 ^ places := fun hpos => by
      have hin : (grade : ℚ) / 10 ^ places ∈ confidences.filter (0 < ·) := List.mem_filter.mpr ⟨hmem, decide_eq_true hpos⟩
      rw [hnone] at hin
      cases hin
    rw [if_pos hnone]
    exact iff_of_false (by linarith) fun hpos => hzero hpos.1
  · have hne : grades ≠ [] := fun hempty => hnone (by rw [← hgrades, hempty, List.map_nil])
    rw [if_neg hnone, htotal, ← hgrades, sumIn_grades hsum, List.length_map]
    have hn : (0 : ℚ) < grades.length := Nat.cast_pos.mpr (List.length_pos_of_ne_nil hne)
    have hcompare : (grades.sum : ℚ) / 10 ^ places ≤ grades.length * (grade / 10 ^ places) ↔
        grades.sum ≤ grades.length * grade := by
      rw [← mul_div_assoc, div_le_div_iff_of_pos_right hpow]
      exact_mod_cast Iff.rfl
    rw [round_mean_le_iff (fun other hother => (hrange other hother).2) hgrade hne hfew, hcompare]
    refine iff_and_self.mpr fun hle => div_pos (Nat.cast_pos.mpr ?_) hpow
    obtain ⟨first, rest, rfl⟩ := List.exists_cons_of_ne_nil hne
    have hfirst := (hrange first List.mem_cons_self).1
    rw [List.sum_cons] at hle
    exact Nat.pos_of_mul_pos_left (by omega : 0 < (first :: rest).length * grade)

end

variable {convention : GrowthConvention}

section

variable {facts : List Fact} {entityId : String} {price shares : Fact} {latestEarnings points : ℚ} {confidences : List ℚ}
  {flags : List String} {result : FactorResult}

/-- The facts that `peg` consumes under a convention of the growth. -/
def pegConsumes (entityId : String) (convention : GrowthConvention) (fact : Fact) : Prop :=
  fact.entityId = entityId ∧ fact.value.isSome ∧ (fact.metric ∈ ["price", "shares_outstanding", "net_income"] ∨
    (convention = .analystConsensus ∧ fact.metric = "consensus_profit_growth"))

theorem pegResult_weakest (h : pegResult facts entityId price shares latestEarnings points confidences flags = .ok result)
    (hvalue : result.value.isSome) : result.confidence ≤ price.confidence ∧ result.confidence ≤ shares.confidence ∧
      (∀ confidence ∈ confidences, result.confidence ≤ confidence) ∧
      ∀ fact ∈ facts, fact.entityId = entityId → fact.metric = "net_income" → fact.value.isSome →
        result.confidence ≤ fact.confidence := by
  unfold pegResult at h
  split at h
  · obtain ⟨_, -, h⟩ := bind_eq_ok_iff.mp h
    obtain ⟨_, -, h⟩ := bind_eq_ok_iff.mp h
    split at h
    · cases h
      cases hvalue
    · obtain ⟨_, -, h⟩ := bind_eq_ok_iff.mp h
      obtain ⟨_, -, h⟩ := bind_eq_ok_iff.mp h
      obtain ⟨confidence, hconfidence, h⟩ := bind_eq_ok_iff.mp h
      cases h
      have hall := (Strategy.le_minimum_iff hconfidence).mp le_rfl
      simp only [List.mem_append, List.mem_cons, List.not_mem_nil, or_false, List.mem_map, List.mem_filter] at hall
      refine ⟨hall _ (.inl (.inl (.inl rfl))), hall _ (.inl (.inl (.inr rfl))), fun c hc => hall c (.inl (.inr hc)), ?_⟩
      exact fun fact hfact hentity hmetric hsome =>
        hall _ (.inr ⟨fact, ⟨hfact, decide_eq_true ⟨hentity, hmetric, hsome⟩⟩, rfl⟩)
  · cases h

theorem exists_pegResult_of_peg {cagrYears : ℕ}
    (h : peg facts entityId convention cagrYears = .ok result) (hvalue : result.value.isSome) :
    ∃ price shares latestEarnings points confidences flags, findFact facts entityId "price" = .ok (some price) ∧
      findFact facts entityId "shares_outstanding" = .ok (some shares) ∧
      (convention = .analystConsensus → confidences = (facts.filter fun fact => fact.entityId = entityId ∧
        fact.metric = "consensus_profit_growth" ∧ fact.value.isSome).map Fact.confidence) ∧
      pegResult facts entityId price shares latestEarnings points confidences flags = .ok result := by
  have hnone : ∀ {flags}, ¬ (pure (FactorResult.unavailable "peg" entityId flags) : Except FactorError _) = .ok result := by
    intro flags heq
    cases heq
    cases hvalue
  unfold peg at h
  dsimp only at h
  by_cases hyears : cagrYears < 1
  · rw [if_pos hyears] at h
    cases h
  rw [if_neg hyears] at h
  obtain ⟨-, h⟩ := or_iff_not_imp_left.mp (ite_eq_iff.mp h) fun h => hnone h.2
  obtain ⟨price, hprice, h⟩ := bind_eq_ok_iff.mp h
  obtain ⟨shares, hshares, h⟩ := bind_eq_ok_iff.mp h
  obtain ⟨series, -, h⟩ := bind_eq_ok_iff.mp h
  obtain ⟨-, h⟩ := or_iff_not_imp_left.mp (ite_eq_iff.mp h) fun h => hnone h.2
  split at h
  next =>
    by_cases hconsensus : convention = .analystConsensus
    · rw [if_pos hconsensus] at h
      unfold pegAnalystConsensus at h
      obtain ⟨-, h⟩ := or_iff_not_imp_left.mp (ite_eq_iff.mp h) fun h => hnone h.2
      obtain ⟨_, -, h⟩ := bind_eq_ok_iff.mp h
      split at h
      · obtain ⟨-, h⟩ := or_iff_not_imp_left.mp (ite_eq_iff.mp h) fun h => hnone h.2
        exact ⟨_, _, _, _, _, _, hprice, hshares, fun _ => rfl, h⟩
      · obtain ⟨_, -, h⟩ := bind_eq_ok_iff.mp h
        split at h
        · cases h
        · obtain ⟨-, h⟩ := or_iff_not_imp_left.mp (ite_eq_iff.mp h) fun h => hnone h.2
          exact ⟨_, _, _, _, _, _, hprice, hshares, fun _ => rfl, h⟩
    · rw [if_neg hconsensus] at h
      obtain ⟨_, -, h⟩ := bind_eq_ok_iff.mp h
      obtain ⟨-, h⟩ := or_iff_not_imp_left.mp (ite_eq_iff.mp h) fun h => hnone h.2
      split at h
      · exact absurd h hnone
      · obtain ⟨-, h⟩ := or_iff_not_imp_left.mp (ite_eq_iff.mp h) fun h => hnone h.2
        exact ⟨_, _, _, _, _, _, hprice, hshares, fun heq => absurd heq hconsensus, h⟩
  next => cases h

theorem confidence_of_findFact {metric : String} {found fact : Fact} (h : findFact facts entityId metric = .ok (some found))
    (hfact : fact ∈ facts) (hentity : fact.entityId = entityId) (hmetric : fact.metric = metric) : fact = found := by
  have hmem : fact ∈ facts.filter fun fact => fact.entityId = entityId ∧ fact.metric = metric :=
    List.mem_filter.mpr ⟨hfact, decide_eq_true ⟨hentity, hmetric⟩⟩
  unfold findFact at h
  split at h
  · cases h
  next only hfilter =>
    cases h
    rwa [hfilter, List.mem_singleton] at hmem
  · cases h

theorem peg_weakest {cagrYears : ℕ} (h : peg facts entityId convention cagrYears = .ok result)
    (hvalue : result.value.isSome) {fact : Fact} (hfact : fact ∈ facts) (hconsumed : pegConsumes entityId convention fact) :
    result.confidence ≤ fact.confidence := by
  obtain ⟨price, shares, _, _, confidences, _, hprice, hshares, hconsensus, hresult⟩ := exists_pegResult_of_peg h hvalue
  obtain ⟨hleast, hleast', hrates, hearnings⟩ := pegResult_weakest hresult hvalue
  obtain ⟨hentity, hsome, hmetric | ⟨hconvention, hmetric⟩⟩ := hconsumed
  · simp only [List.mem_cons, List.not_mem_nil, or_false] at hmetric
    obtain hmetric | hmetric | hmetric := hmetric
    · exact confidence_of_findFact hprice hfact hentity hmetric ▸ hleast
    · exact confidence_of_findFact hshares hfact hentity hmetric ▸ hleast'
    · exact hearnings fact hfact hentity hmetric hsome
  · refine hrates _ (hconsensus hconvention ▸ List.mem_map_of_mem (List.mem_filter.mpr ⟨hfact, ?_⟩))
    exact decide_eq_true ⟨hentity, hmetric, hsome⟩

end

section

variable {lines : List HoldingLine} {fundId entityId : String} {definition : EtfConsolidationDefinition}

theorem consolidateFund_confidence {round : ℚ → ℚ} (h : (consolidateFund round lines fundId definition).result.value.isSome) :
    (consolidateFund round lines fundId definition).result.confidence = weakestLine lines := by
  simp only [consolidateFund] at h ⊢
  split_ifs at h ⊢ <;> first | rfl | cases h

theorem weakestLine_le_iff : (∀ line ∈ lines, line.valued → weakestLine lines ≤ line.confidence.getD 0) ↔
    (∀ line ∈ lines, line.valued → line.confidence.isSome) ∨ (∀ line ∈ lines, line.valued → line.confidence = none) ∨
      ∃ line ∈ lines, line.valued ∧ ∃ confidence ∈ line.confidence, confidence ≤ 0 := by
  have hmem : ∀ confidence, confidence ∈ (lines.filter HoldingLine.valued).filterMap HoldingLine.confidence ↔
      ∃ line ∈ lines, line.valued ∧ line.confidence = some confidence := fun confidence => by
    simp only [List.mem_filterMap, List.mem_filter, and_assoc]
  unfold weakestLine
  cases hfound : (lines.filter HoldingLine.valued).filterMap HoldingLine.confidence with
  | nil =>
    rw [hfound] at hmem
    have hnone : ∀ line ∈ lines, line.valued → line.confidence = none := fun line hline hvalued =>
      Option.eq_none_iff_forall_ne_some.mpr fun confidence heq =>
        absurd ((hmem confidence).mpr ⟨line, hline, hvalued, heq⟩) List.not_mem_nil
    exact iff_of_true (fun line hline hvalued => by simp [hnone line hline hvalued]) (.inr (.inl hnone))
  | cons first rest =>
    rw [hfound] at hmem
    obtain ⟨hleast, hle⟩ := foldl_min_spec rest first
    constructor
    · intro hall
      by_cases hknown : ∀ line ∈ lines, line.valued → line.confidence.isSome
      · exact .inl hknown
      · simp only [not_forall, Option.not_isSome_iff_eq_none] at hknown
        obtain ⟨line, hline, hvalued, hnone⟩ := hknown
        obtain ⟨other, hother, hotherValued, heq⟩ := (hmem _).mp hleast
        have hzero := hall line hline hvalued
        rw [hnone] at hzero
        exact .inr (.inr ⟨other, hother, hotherValued, _, heq, hzero⟩)
    · intro hcase line hline hvalued
      cases heq : line.confidence with
      | some confidence => exact hle _ ((hmem _).mpr ⟨line, hline, hvalued, heq⟩)
      | none =>
        obtain hknown | hnone | ⟨other, hother, hotherValued, confidence, hin, hzero⟩ := hcase
        · exact absurd (hknown line hline hvalued) (by simp [heq])
        · obtain ⟨other, hother, hotherValued, hsome⟩ := (hmem first).mp List.mem_cons_self
          rw [hnone other hother hotherValued] at hsome
          cases hsome
        · exact (hle _ ((hmem _).mpr ⟨other, hother, hotherValued, hin⟩)).trans hzero

def consumedPartners (partners : List SupplyChainPartner) : List SupplyChainPartner :=
  if partners.filter SupplyChainPartner.shared = [] then partners else partners.filter SupplyChainPartner.shared

def AtLeastMean (confidences : List ℚ) (confidence : ℚ) : Prop :=
  0 < confidence ∧ (confidences.filter (0 < ·)).sum ≤ (confidences.filter (0 < ·)).length * confidence

/-- `peg` never is more confident than what it consumed.  A fund is not exactly when its valued lines all have a confidence, or
none has, or one is not positive; the two that average are not exactly when every item is at least as certain as the mean. -/
theorem weakest_input_iff (facts : List Fact) (lines : List HoldingLine) (partners : List SupplyChainPartner)
    (ratings : List AnalystRatingItem) : (∀ entityId convention cagrYears result,
      peg facts entityId convention cagrYears = .ok result → result.value.isSome →
        ∀ fact ∈ facts, pegConsumes entityId convention fact → result.confidence ≤ fact.confidence) ∧
    (∀ round fundId definition, (consolidateFund round lines fundId definition).result.value.isSome →
      ((∀ line ∈ lines, line.valued →
          (consolidateFund round lines fundId definition).result.confidence ≤ line.confidence.getD 0) ↔
        (∀ line ∈ lines, line.valued → line.confidence.isSome) ∨ (∀ line ∈ lines, line.valued → line.confidence = none) ∨
          ∃ line ∈ lines, line.valued ∧ ∃ confidence ∈ line.confidence, confidence ≤ 0)) ∧
    (∀ entityId edgesExist exposure places, Graded places (partners.map SupplyChainPartner.confidence) →
      supplyChainExposure partners entityId edgesExist = some exposure → exposure.result.value.isSome →
      ((∀ partner ∈ consumedPartners partners, exposure.result.confidence ≤ partner.confidence) ↔
        ∀ partner ∈ consumedPartners partners, AtLeastMean (partners.map SupplyChainPartner.confidence) partner.confidence)) ∧
    ∀ entityId places, Graded places ((validRatings ratings).map AnalystRatingItem.confidence) →
      (analystTrackRecord ratings entityId).result.value.isSome →
      ((∀ item ∈ validRatings ratings, (analystTrackRecord ratings entityId).result.confidence ≤ item.confidence) ↔
        ∀ item ∈ validRatings ratings,
          AtLeastMean ((validRatings ratings).map AnalystRatingItem.confidence) item.confidence) := by
  refine ⟨fun entityId convention cagrYears result h hvalue fact hfact hconsumed => peg_weakest h hvalue hfact hconsumed,
    fun round fundId definition h => ?_, fun entityId edgesExist exposure places hgraded h hvalue => ?_,
    fun entityId places hgraded hvalue => ?_⟩
  · rw [consolidateFund_confidence h]
    exact weakestLine_le_iff
  · have hconfidence : exposure.result.confidence = averageConfidence (partners.map SupplyChainPartner.confidence) := by
      simp only [supplyChainExposure] at h
      split_ifs at h <;> cases h <;> first | rfl | cases hvalue
    have hmem : ∀ partner ∈ consumedPartners partners, partner ∈ partners := fun partner hpartner => by
      unfold consumedPartners at hpartner
      split_ifs at hpartner
      exacts [hpartner, List.mem_of_mem_filter hpartner]
    exact forall₂_congr fun partner hpartner => hconfidence ▸
      averageConfidence_le_iff hgraded (List.mem_map_of_mem (hmem partner hpartner))
  · have hconfidence : (analystTrackRecord ratings entityId).result.confidence =
        averageConfidence ((validRatings ratings).map AnalystRatingItem.confidence) := by
      simp only [analystTrackRecord] at hvalue ⊢
      split_ifs at hvalue ⊢ <;> first | rfl | cases hvalue
    exact forall₂_congr fun item hitem => hconfidence ▸ averageConfidence_le_iff hgraded (List.mem_map_of_mem hitem)

end

/-! A partner of no confidence, and two analysts of one confidence. -/

def unratedSupplier : List SupplyChainPartner := [⟨"issuer:b", "Supplier", "supplier", none, 0⟩]

theorem certain_without_confidence : ¬ ∀ exposure, supplyChainExposure unratedSupplier "issuer:a" true = some exposure →
    exposure.result.value.isSome → ∀ partner ∈ consumedPartners unratedSupplier,
      exposure.result.confidence ≤ partner.confidence := by
  intro h
  have hmem : ⟨"issuer:b", "Supplier", "supplier", none, 0⟩ ∈ consumedPartners unratedSupplier := List.mem_cons_self
  exact absurd (h _ rfl rfl _ hmem) (by decide +kernel)

def twoAnalysts : List AnalystRatingItem := [⟨"analyst:a", 4, none, 9 / 10⟩, ⟨"analyst:b", 5, some 120, 9 / 10⟩]

theorem twoAnalysts_weakest : ∀ item ∈ validRatings twoAnalysts,
    (analystTrackRecord twoAnalysts "issuer:a").result.confidence ≤ item.confidence := by
  refine ((weakest_input_iff [] [] [] twoAnalysts).2.2.2 "issuer:a" 1 ⟨?_, by decide +kernel⟩ (by decide +kernel)).mpr ?_
  · have hall : ∀ confidence ∈ (validRatings twoAnalysts).map AnalystRatingItem.confidence, confidence = (9 : ℕ) / 10 ^ 1 := by
      decide +kernel
    exact fun confidence hconfidence => ⟨9, by decide, hall confidence hconfidence⟩
  · have hall : ∀ item ∈ validRatings twoAnalysts, 0 < item.confidence ∧
        (((validRatings twoAnalysts).map AnalystRatingItem.confidence).filter (0 < ·)).sum ≤
          (((validRatings twoAnalysts).map AnalystRatingItem.confidence).filter (0 < ·)).length * item.confidence := by
      decide +kernel
    exact hall

end TrueAlpha
