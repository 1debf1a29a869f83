import TrueAlpha.Contracts.EncodedTags
import TrueAlpha.Factors.AnnualSeries
import TrueAlpha.Lib.SameDict

/-!
# The order of the facts

`min` takes the first of two equally near ends, so a tie is decided by the order of the facts.  `peg` does not see that order
exactly when every choice has one outcome (`peg_perm_iff`, `tiesAgree_of_untied`).
-/

namespace TrueAlpha

section

variable {facts facts' : List Fact}

theorem findFact_perm (h : facts.Perm facts') (entityId metric : String) :
    findFact facts entityId metric = findFact facts' entityId metric := by
  have hperm := h.filter fun fact => fact.entityId = entityId ∧ fact.metric = metric
  unfold findFact
  generalize facts.filter _ = found at hperm
  generalize facts'.filter _ = found' at hperm
  match found, found', hperm with
  | [], found', hperm => rw [hperm.symm.eq_nil]
  | [fact], found', hperm => rw [List.perm_singleton.mp hperm.symm]
  | _ :: _ :: _, [], hperm => cases hperm.eq_nil
  | _ :: _ :: _, [_], hperm => cases List.perm_singleton.mp hperm
  | _ :: _ :: _, _ :: _ :: _, _ => rfl

theorem minimum_perm {l l' : List ℚ} (h : l.Perm l') : minimum l = minimum l' := by
  match l, l', h with
  | [], [], _ => rfl
  | [], _ :: _, h => cases h.symm.eq_nil
  | _ :: _, [], h => cases h.eq_nil
  | x :: l, x' :: l', h =>
    refine congrArg Except.ok (eq_of_forall_le_iff fun bound => ?_)
    rw [foldl_min_le_iff, foldl_min_le_iff, ← List.forall_mem_cons, ← List.forall_mem_cons]
    exact forall_congr' fun y => by rw [h.mem_iff]

theorem latestOf_congr {ends ends' : List Date} (h : ∀ finish, finish ∈ ends ↔ finish ∈ ends') :
    latestOf ends = latestOf ends' := by
  refine Option.ext fun latest => ?_
  rw [latestOf_eq_some_iff, latestOf_eq_some_iff, h]
  simp only [h]

variable {entityId : String} {price shares : Fact} {latestEarnings points : ℚ} {flags : List String}

theorem pegResult_perm (h : facts.Perm facts') {confidences confidences' : List ℚ} (hc : confidences.Perm confidences') :
    pegResult facts entityId price shares latestEarnings points confidences flags =
      pegResult facts' entityId price shares latestEarnings points confidences' flags := by
  have hminimum : minimum ([price.confidence, shares.confidence] ++ confidences ++ (facts.filter fun fact =>
      fact.entityId = entityId ∧ fact.metric = "net_income" ∧ fact.value.isSome).map Fact.confidence) =
      minimum ([price.confidence, shares.confidence] ++ confidences' ++ (facts'.filter fun fact =>
        fact.entityId = entityId ∧ fact.metric = "net_income" ∧ fact.value.isSome).map Fact.confidence) :=
    minimum_perm (((List.Perm.refl _).append hc).append ((h.filter _).map _))
  unfold pegResult
  simp only [hminimum]

theorem pegAnalystConsensus_perm (h : facts.Perm facts') {consensusFacts consensusFacts' : List Fact}
    (hc : consensusFacts.Perm consensusFacts') {result : FactorResult}
    (hresult : pegAnalystConsensus facts entityId price shares latestEarnings consensusFacts = .ok result) :
    pegAnalystConsensus facts' entityId price shares latestEarnings consensusFacts' = .ok result := by
  unfold pegAnalystConsensus at hresult ⊢
  dsimp only at hresult ⊢
  split_ifs at hresult ⊢ with hearnings
  · exact hresult
  · obtain ⟨series, hseries, hresult⟩ := bind_eq_ok_iff.mp hresult
    obtain ⟨series', hseries', hitems⟩ := exists_annualByPeriodEnd_perm h hseries
    have hget : series'.get? = series.get? := funext fun k => (Dict.same_eq_iff.mp (Dict.same_of_perm hitems) k).symm
    have hlatest : latestOf series'.keys = latestOf series.keys := latestOf_congr fun finish => (hitems.symm.map Prod.fst).mem_iff
    rw [hseries', ok_bind, hlatest, hget, ← findFact_perm h]
    simpa only [pegResult_perm h (hc.map Fact.confidence)] using hresult

end

def historicalOutcome (facts : List Fact) (entityId : String) (price shares : Fact) (latestEarnings : ℚ) (cagrYears : ℕ)
    (growth : Option ℚ × Option (Date × Date)) : Except FactorError FactorResult :=
  let window := ("cagr_years:" ++ toString cagrYears) ::
    (match growth.2 with
      | some (base, latest) => ["window:" ++ isoFormat base ++ ".." ++ isoFormat latest]
      | none => [])
  if latestEarnings ≤ 0 then return .unavailable "peg" entityId ("non_positive_earnings" :: window)
  else
    match growth.1 with
    | none => return .unavailable "peg" entityId ("insufficient_earnings_history" :: window)
    | some rate =>
      if rate ≤ 0 then return .unavailable "peg" entityId ("non_positive_growth" :: window)
      else pegResult facts entityId price shares latestEarnings (pegContext.mul rate 100) [] window

structure HistoricalCase (facts : List Fact) (entityId : String) (price shares : Fact) (series : Dict Date ℚ) (latest : Date)
    (latestEarnings : ℚ) : Prop where
  price_eq : findFact facts entityId "price" = .ok (some price)
  shares_eq : findFact facts entityId "shares_outstanding" = .ok (some shares)
  series_eq : annualByPeriodEnd facts entityId "net_income" = .ok series
  valid : validateBasePegInputs (some price) (some shares) series = []
  latest_eq : latestOf series.keys = some latest
  earnings_eq : series.get? latest = some latestEarnings

def windowOutcome (facts : List Fact) (entityId : String) (price shares : Fact) (series : Dict Date ℚ) (latest : Date)
    (latestEarnings : ℚ) (cagrYears : ℕ) (steps : List Date) : Except FactorError FactorResult := do
  let growth ← growthOver pegContext.round series latest steps
  historicalOutcome facts entityId price shares latestEarnings cagrYears growth

def TiesAgree (facts : List Fact) (entityId : String) (cagrYears : ℕ) : Prop :=
  ∀ price shares series latest latestEarnings, HistoricalCase facts entityId price shares series latest latestEarnings →
    ∀ steps steps', IsWindow series.keys latest cagrYears steps → IsWindow series.keys latest cagrYears steps' →
      windowOutcome facts entityId price shares series latest latestEarnings cagrYears steps =
        windowOutcome facts entityId price shares series latest latestEarnings cagrYears steps'

section

variable {facts facts' : List Fact} {entityId : String} {price shares : Fact} {series series' : Dict Date ℚ} {latest : Date}
  {latestEarnings : ℚ} {cagrYears : ℕ} {steps : List Date} {result : FactorResult}

theorem pegHistorical_eq : pegHistorical facts entityId price shares latestEarnings series cagrYears =
    recencyWeightedGrowth series cagrYears >>= historicalOutcome facts entityId price shares latestEarnings cagrYears := rfl

theorem pegHistorical_of_window (hlatest : latestOf series.keys = some latest) (hyears : 1 ≤ cagrYears)
    (h : windowOf series.keys latest cagrYears = some steps) :
    pegHistorical facts entityId price shares latestEarnings series cagrYears =
      windowOutcome facts entityId price shares series latest latestEarnings cagrYears steps := by
  rw [pegHistorical_eq, recencyWeightedGrowth_eq, recencyWeightedGrowthIn_of_window hlatest hyears h]
  rfl

theorem historicalOutcome_perm (h : facts.Perm facts') : historicalOutcome facts entityId price shares latestEarnings cagrYears =
    historicalOutcome facts' entityId price shares latestEarnings cagrYears := by
  funext growth
  unfold historicalOutcome
  simp only [pegResult_perm h (List.Perm.refl [])]

theorem windowOutcome_perm (h : facts.Perm facts') (hitems : series.items.Perm series'.items) :
    windowOutcome facts' entityId price shares series' latest latestEarnings cagrYears steps =
      windowOutcome facts entityId price shares series latest latestEarnings cagrYears steps := by
  have hget : series'.get? = series.get? := funext fun k => (Dict.same_eq_iff.mp (Dict.same_of_perm hitems) k).symm
  unfold windowOutcome growthOver
  rw [hget, historicalOutcome_perm h]

theorem HistoricalCase.of_perm (h : facts.Perm facts') (hitems : series.items.Perm series'.items)
    (hseries' : annualByPeriodEnd facts' entityId "net_income" = .ok series')
    (hcase : HistoricalCase facts entityId price shares series latest latestEarnings) :
    HistoricalCase facts' entityId price shares series' latest latestEarnings := by
  have hnil : series'.items = [] ↔ series.items = [] := by
    rw [← List.length_eq_zero_iff, ← List.length_eq_zero_iff, hitems.length_eq]
  refine ⟨findFact_perm h entityId "price" ▸ hcase.price_eq, findFact_perm h entityId "shares_outstanding" ▸ hcase.shares_eq,
    hseries', ?_, ?_, ?_⟩
  · have hvalid := hcase.valid
    unfold validateBasePegInputs at hvalid ⊢
    simpa only [hnil] using hvalid
  · rw [← hcase.latest_eq]
    exact latestOf_congr fun finish => (hitems.symm.map Prod.fst).mem_iff
  · rw [← hcase.earnings_eq]
    exact (Dict.same_eq_iff.mp (Dict.same_of_perm hitems) latest).symm

theorem HistoricalCase.peg_eq (hcase : HistoricalCase facts entityId price shares series latest latestEarnings)
    (hyears : 1 ≤ cagrYears) : peg facts entityId .historicalCagr cagrYears =
      pegHistorical facts entityId price shares latestEarnings series cagrYears := by
  unfold peg
  dsimp only
  rw [if_neg (not_lt.mpr hyears), if_neg (by simp), hcase.price_eq, ok_bind, hcase.shares_eq, ok_bind, hcase.series_eq,
    ok_bind, hcase.valid, if_neg (not_not.mpr rfl), hcase.latest_eq, Option.bind_some, hcase.earnings_eq]
  rfl

end

/-! ## The ratio of permuted facts -/

section

variable {facts facts' : List Fact} {entityId : String} {convention : GrowthConvention} {cagrYears : ℕ} {result : FactorResult}

theorem peg_perm_of_historical (h : facts.Perm facts')
    (hhistorical : ∀ price shares series series' latest latestEarnings, 1 ≤ cagrYears →
      HistoricalCase facts entityId price shares series latest latestEarnings →
      annualByPeriodEnd facts' entityId "net_income" = .ok series' → series.items.Perm series'.items →
      pegHistorical facts entityId price shares latestEarnings series cagrYears = .ok result →
      convention = .historicalCagr → pegHistorical facts' entityId price shares latestEarnings series' cagrYears = .ok result)
    (hresult : peg facts entityId convention cagrYears = .ok result) :
    peg facts' entityId convention cagrYears = .ok result := by
  have hconsensus : (facts.filter fun fact =>
      fact.entityId = entityId ∧ fact.metric = "consensus_profit_growth" ∧ fact.value.isSome).Perm
      (facts'.filter fun fact =>
        fact.entityId = entityId ∧ fact.metric = "consensus_profit_growth" ∧ fact.value.isSome) := h.filter _
  unfold peg at hresult ⊢
  dsimp only at hresult ⊢
  generalize facts.filter _ = consensusFacts at hconsensus hresult
  generalize facts'.filter _ = consensusFacts' at hconsensus
  have hnil : consensusFacts' = [] ↔ consensusFacts = [] := by
    rw [← List.length_eq_zero_iff, ← List.length_eq_zero_iff, hconsensus.length_eq]
  by_cases hyears : cagrYears < 1
  · rw [if_pos hyears] at hresult
    cases hresult
  rw [if_neg hyears] at hresult ⊢
  by_cases hsourced : convention = .companyGuidance ∨ (convention = .analystConsensus ∧ consensusFacts = [])
  · rw [if_pos (by rwa [hnil])]
    rwa [if_pos hsourced] at hresult
  rw [if_neg hsourced] at hresult
  rw [if_neg (by rwa [hnil])]
  obtain ⟨price, hprice, hresult⟩ := bind_eq_ok_iff.mp hresult
  obtain ⟨shares, hshares, hresult⟩ := bind_eq_ok_iff.mp hresult
  obtain ⟨series, hseries, hresult⟩ := bind_eq_ok_iff.mp hresult
  obtain ⟨series', hseries', hitems⟩ := exists_annualByPeriodEnd_perm h hseries
  have hempty : series'.items = [] ↔ series.items = [] := by
    rw [← List.length_eq_zero_iff, ← List.length_eq_zero_iff, hitems.length_eq]
  have hvalidate : validateBasePegInputs price shares series' = validateBasePegInputs price shares series := by
    simp only [validateBasePegInputs, hempty]
  have hget : series'.get? = series.get? := funext fun k => (Dict.same_eq_iff.mp (Dict.same_of_perm hitems) k).symm
  have hlatest : latestOf series'.keys = latestOf series.keys := latestOf_congr fun finish => (hitems.symm.map Prod.fst).mem_iff
  rw [← findFact_perm h, hprice, ok_bind, ← findFact_perm h, hshares, ok_bind, hseries', ok_bind, hvalidate, hlatest, hget]
  by_cases hvalid : validateBasePegInputs price shares series ≠ []
  · rwa [if_pos hvalid] at hresult ⊢
  rw [if_neg hvalid] at hresult ⊢
  -- the price, the share count and the latest earnings are there
  cases hearnings : (latestOf series.keys).bind series.get? with
  | none =>
    rw [hearnings] at hresult
    cases price <;> cases shares <;> cases hresult
  | some latestEarnings =>
    rw [hearnings] at hresult
    obtain _ | price := price
    · cases hresult
    obtain _ | shares := shares
    · cases hresult
    dsimp only at hresult ⊢
    split_ifs at hresult ⊢ with hanalyst
    · exact pegAnalystConsensus_perm h hconsensus hresult
    · obtain ⟨latest, hlatest, hget⟩ := Option.bind_eq_some_iff.mp hearnings
      refine hhistorical price shares series series' latest latestEarnings (not_lt.mp hyears)
        ⟨hprice, hshares, hseries, not_not.mp hvalid, hlatest, hget⟩ hseries' hitems hresult ?_
      cases convention with
      | analystConsensus => exact absurd rfl hanalyst
      | historicalCagr => rfl
      | companyGuidance => exact absurd (Or.inl rfl) hsourced

variable {price shares : Fact} {series : Dict Date ℚ} {latest : Date} {latestEarnings : ℚ} {steps steps' : List Date}

theorem windowOutcome_of_perm (hyears : 1 ≤ cagrYears)
    (hall : ∀ facts', facts.Perm facts' → peg facts' entityId .historicalCagr cagrYears = .ok result)
    (hcase : HistoricalCase facts entityId price shares series latest latestEarnings)
    (hsteps : IsWindow series.keys latest cagrYears steps) :
    windowOutcome facts entityId price shares series latest latestEarnings cagrYears steps = .ok result := by
  obtain ⟨facts', series', hperm, hseries', hitems, hwindow⟩ :=
    exists_perm_windowOf hcase.series_eq (latestOf_eq_some_iff.mp hcase.latest_eq).2 hsteps
  have hcase' := hcase.of_perm hperm hitems hseries'
  rw [← windowOutcome_perm hperm hitems, ← pegHistorical_of_window hcase'.latest_eq hyears hwindow, ← hcase'.peg_eq hyears]
  exact hall facts' hperm

/-- `peg` does not depend on the order of its facts exactly when all choices of nearest ends have one outcome. -/
theorem peg_perm_iff (hresult : peg facts entityId convention cagrYears = .ok result) :
    (∀ facts', facts.Perm facts' → peg facts' entityId convention cagrYears = .ok result) ↔
      (convention = .historicalCagr → TiesAgree facts entityId cagrYears) := by
  have hyears : 1 ≤ cagrYears := by
    by_contra hyears
    unfold peg at hresult
    dsimp only at hresult
    rw [if_pos (by omega)] at hresult
    cases hresult
  constructor
  · rintro hall rfl price shares series latest latestEarnings hcase steps steps' hsteps hsteps'
    rw [windowOutcome_of_perm hyears hall hcase hsteps, windowOutcome_of_perm hyears hall hcase hsteps']
  · intro hties facts' hperm
    refine peg_perm_of_historical hperm ?_ hresult
    intro price shares series series' latest latestEarnings _ hcase hseries' hitems hhistorical hconvention
    have hcase' := hcase.of_perm hperm hitems hseries'
    have hends : ∀ finish, finish ∈ series.keys ↔ finish ∈ series'.keys := fun finish => (hitems.map Prod.fst).mem_iff
    have hmax := (latestOf_eq_some_iff.mp hcase.latest_eq).2
    have hmax' := (latestOf_eq_some_iff.mp hcase'.latest_eq).2
    cases hwindow : windowOf series.keys latest cagrYears with
    | none =>
      have hwindow' : windowOf series'.keys latest cagrYears = none := by
        cases hwindow' : windowOf series'.keys latest cagrYears with
        | none => rfl
        | some steps' =>
          have hsome : ∃ steps, windowOf series.keys latest cagrYears = some steps := by
            refine exists_windowOf_of_isWindow hmax ((isWindow_of_windowOf hcase'.latest_eq hwindow').of_mem_iff fun finish =>
              (hends finish).symm)
          obtain ⟨steps, hsteps⟩ := hsome
          rw [hwindow] at hsteps
          cases hsteps
      rw [pegHistorical_eq, recencyWeightedGrowth_eq, recencyWeightedGrowthIn_of_no_window hcase.latest_eq hwindow] at hhistorical
      rw [pegHistorical_eq, recencyWeightedGrowth_eq, recencyWeightedGrowthIn_of_no_window hcase'.latest_eq hwindow',
        ← historicalOutcome_perm hperm]
      exact hhistorical
    | some steps =>
      have hsteps := isWindow_of_windowOf hcase.latest_eq hwindow
      obtain ⟨steps', hwindow'⟩ := exists_windowOf_of_isWindow hmax' (hsteps.of_mem_iff hends)
      have hsteps' := (isWindow_of_windowOf hcase'.latest_eq hwindow').of_mem_iff fun finish => (hends finish).symm
      rw [pegHistorical_of_window hcase.latest_eq hyears hwindow] at hhistorical
      rw [pegHistorical_of_window hcase'.latest_eq hyears hwindow', windowOutcome_perm hperm hitems,
        hties hconvention price shares series latest latestEarnings hcase steps' steps hsteps' hsteps]
      exact hhistorical

theorem tiesAgree_of_untied (huntied : ∀ series latest, annualByPeriodEnd facts entityId "net_income" = .ok series →
    latestOf series.keys = some latest → ∀ offset a b, IsNearest series.keys latest (boundaryDays offset) a →
      IsNearest series.keys latest (boundaryDays offset) b → a = b) : TiesAgree facts entityId cagrYears := by
  intro price shares series latest latestEarnings hcase steps steps' hsteps hsteps'
  have hone : steps = steps' := by
    unfold IsWindow at hsteps hsteps'
    generalize List.range (cagrYears + 1) = offsets at hsteps hsteps'
    induction hsteps generalizing steps' with
    | nil => rw [List.forall₂_nil_left_iff.mp hsteps']
    | cons hhead _ ih =>
      obtain ⟨finish, rest, hnear, hrest, rfl⟩ := List.forall₂_cons_left_iff.mp hsteps'
      rw [huntied series latest hcase.series_eq hcase.latest_eq _ _ _ hhead hnear, ih rest hrest]
  rw [hone]

end

def annualIncome (value : ℚ) (tag : String) : Fact := ⟨"issuer", "net_income", some value, 1, some tag, none⟩

def marketFacts : List Fact := [⟨"issuer", "price", some 20, 1, none, some (.perUnit "USD" "instrument")⟩,
  ⟨"issuer", "shares_outstanding", some 10, 1, none, some (.units "instrument")⟩]

def tiedIncomes : List Fact := [annualIncome 150 "FY2024:FY:2024-01-01:2024-12-31",
  annualIncome 100 "FY2023:FY:2022-12-23:2023-12-22",
  annualIncome 110 "FY2024:FY:2023-01-12:2024-01-11"]

/-- Of two equally near ends the first fact decides. -/
theorem peg_depends_on_order :
    ¬ ∀ facts entityId convention cagrYears result, peg facts entityId convention cagrYears = .ok result →
      ∀ facts', facts.Perm facts' → peg facts' entityId convention cagrYears = .ok result := by
  intro h
  have hflags : ∀ facts flags, ((peg facts "issuer" .historicalCagr 1).toOption.map FactorResult.flags) = some flags →
      ∃ result, peg facts "issuer" .historicalCagr 1 = .ok result ∧ result.flags = flags := by
    intro facts flags hflags
    cases hpeg : peg facts "issuer" .historicalCagr 1 with
    | error e =>
      rw [hpeg] at hflags
      cases hflags
    | ok result =>
      rw [hpeg] at hflags
      exact ⟨result, rfl, Option.some.inj hflags⟩
  obtain ⟨result, hresult, hfirst⟩ := hflags (marketFacts ++ tiedIncomes)
    ["cagr_years:1", "window:2023-12-22..2024-12-31"] (by decide +kernel)
  obtain ⟨result', hresult', hlast⟩ := hflags (marketFacts ++ tiedIncomes.reverse)
    ["cagr_years:1", "window:2024-01-11..2024-12-31"] (by decide +kernel)
  have hsame := h _ _ _ _ _ hresult _ (tiedIncomes.reverse_perm.symm.append_left marketFacts)
  rw [hresult', Except.ok.injEq] at hsame
  rw [hsame, hfirst] at hlast
  exact absurd hlast (by decide)

def untiedIncomes : List Fact := [annualIncome 150 "FY2024:FY:2024-01-01:2024-12-31",
  annualIncome 100 "FY2023:FY:2023-01-01:2023-12-31"]

/-- The ends of two Decembers are nearest to different boundaries. -/
theorem peg_perm_untied : ∃ result, ∀ facts', (marketFacts ++ untiedIncomes).Perm facts' →
    peg facts' "issuer" .historicalCagr 1 = .ok result := by
  cases hresult : peg (marketFacts ++ untiedIncomes) "issuer" .historicalCagr 1 with
  | error e =>
    have hok : (peg (marketFacts ++ untiedIncomes) "issuer" .historicalCagr 1).isOk = true := by decide +kernel
    rw [hresult] at hok
    cases hok
  | ok result =>
    refine ⟨result, (peg_perm_iff hresult).mpr fun _ => tiesAgree_of_untied ?_⟩
    intro series latest hseries hlatest offset a b ha hb
    have hitems := (annualByPeriodEnd_eq_ok_iff.mp hseries).2.2
    have hkeys : series.keys = [739251, 738885] := by
      rw [Dict.keys, hitems]
      decide +kernel
    rw [hkeys] at hlatest ha hb
    obtain rfl := Option.some.inj hlatest
    have hsame := le_antisymm (ha.2.1 b hb.1) (hb.2.1 a ha.1)
    have key : ∀ t : ℤ, |739251 - 739251 - t| ≤ 45 → |739251 - 738885 - t| ≤ 45 → False := by
      intro t
      rw [abs_le, abs_le]
      omega
    obtain rfl | rfl : a = 739251 ∨ a = 738885 := by simpa using ha.1
    · obtain rfl | rfl : b = 739251 ∨ b = 738885 := by simpa using hb.1
      · rfl
      · exact (key _ ha.2.2 hb.2.2).elim
    · obtain rfl | rfl : b = 739251 ∨ b = 738885 := by simpa using hb.1
      · exact (key _ hb.2.2 ha.2.2).elim
      · rfl

end TrueAlpha
