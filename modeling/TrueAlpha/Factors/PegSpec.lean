import TrueAlpha.Contracts.DateText
import TrueAlpha.Factors.Peg

/-!
# The ratio has a result

Every step of `peg` under the historical growth has a value: the window holds positive earnings and a positive growth stays
positive after the rounding.  So the factor returns once its facts are found (`exists_peg`).
-/

namespace TrueAlpha

/-! ## The growth of a window -/

theorem pegContext_precision : 1 ≤ pegContext.precision := by decide

theorem exists_div (context : Context) (x : ℚ) {y : ℚ} (hy : y ≠ 0) : ∃ value, computed (context.div x y) = .ok value := by
  rw [Context.div, if_neg hy]
  exact ⟨_, rfl⟩

theorem exists_weightedGrowth {ordered : List ℚ} (hpos : ∀ value ∈ ordered, 0 < value) (hlength : 2 ≤ ordered.length) :
    ∃ rate, weightedGrowth ordered = .ok rate := by
  have hloop := foldlM_total (f := weightedStep)
    (fun done state => 0 ≤ state.2 ∧ (done ≠ [] → 0 < state.2))
    ((List.range' 1 (ordered.length - 1)).zip (ordered.zip ordered.tail)) (b := (0, 0)) ⟨le_rfl, fun h => absurd rfl h⟩ ?_
  · obtain ⟨⟨weighted, total⟩, hfold, -, htotal⟩ := hloop
    have hne : (List.range' 1 (ordered.length - 1)).zip (ordered.zip ordered.tail) ≠ [] := by
      rw [← List.length_pos_iff]
      simp only [List.length_zip, List.length_range', List.length_tail]
      omega
    obtain ⟨rate, hrate⟩ := exists_div pegContext weighted (htotal hne).ne'
    exact ⟨rate, by rw [weightedGrowth, hfold, ok_bind]; exact hrate⟩
  · rintro done ⟨weight, previous, value⟩ rest ⟨weighted, total⟩ hsplit ⟨hnonneg, -⟩
    have hmem : (weight, previous, value) ∈ (List.range' 1 (ordered.length - 1)).zip (ordered.zip ordered.tail) := by
      rw [hsplit]
      simp
    have hweight : 1 ≤ weight := (List.mem_range'_1.mp (List.of_mem_zip hmem).1).1
    have hprevious := hpos previous (List.of_mem_zip (List.of_mem_zip hmem).2).1
    obtain ⟨ratio, hratio⟩ := exists_div pegContext value hprevious.ne'
    have hsum : 0 < pegContext.add total weight := by
      apply Context.round_pos pegContext_precision
      have hcast : (1 : ℚ) ≤ weight := by exact_mod_cast hweight
      dsimp only at hnonneg
      linarith
    refine ⟨(pegContext.add weighted (pegContext.mul weight (pegContext.sub ratio 1)), pegContext.add total weight), ?_,
      hsum.le, fun _ => hsum⟩
    rw [weightedStep, hratio]
    rfl

variable {ends : List Date}

theorem mem_of_nearestEnd {latest finish : Date} {targetDays : ℤ}
    (h : nearestEnd ends latest targetDays = some finish) : finish ∈ ends := by
  obtain ⟨hfind, -⟩ := Option.filter_eq_some_iff.mp h
  exact (List.mem_filter.mp (List.mem_of_find?_eq_some hfind)).1

theorem mem_of_mapM_nearestEnd {α : Type} {latest : Date} {offsets : List α} {steps : List Date}
    {targetDays : α → ℤ} (h : (offsets.mapM fun offset => nearestEnd ends latest (targetDays offset)) = some steps) :
    ∀ finish ∈ steps, finish ∈ ends := by
  induction offsets generalizing steps with
  | nil =>
    cases h
    simp
  | cons offset offsets ih =>
    simp only [List.mapM_cons, Option.bind_eq_bind, Option.bind_eq_some_iff] at h
    obtain ⟨finish, hfinish, rest, hrest, h⟩ := h
    cases h
    rw [List.forall_mem_cons]
    exact ⟨mem_of_nearestEnd hfinish, ih hrest⟩

theorem length_filterMap_get? {values : Dict Date ℚ} {l : List Date} (h : ∀ finish ∈ l, finish ∈ values.keys) :
    (l.filterMap values.get?).length = l.length := by
  induction l with
  | nil => rfl
  | cons finish l ih =>
    rw [List.forall_mem_cons] at h
    obtain ⟨value, hvalue⟩ := (Dict.mem_keys_iff _ _).mp h.1
    rw [List.filterMap_cons_some hvalue, List.length_cons, List.length_cons, ih h.2]

theorem exists_recencyWeightedGrowth (values : Dict Date ℚ) (years : ℕ) :
    ∃ growth, recencyWeightedGrowth values years = .ok growth := by
  unfold recencyWeightedGrowth
  cases latestOf values.keys with
  | none => exact ⟨_, rfl⟩
  | some latest =>
    dsimp only
    by_cases hyears : years < 1
    · rw [if_pos hyears]
      exact ⟨_, rfl⟩
    · rw [if_neg hyears]
      cases hsteps : (List.range (years + 1)).mapM fun offset =>
          nearestEnd values.keys latest (roundHalfEven (offset * (1461 / 4 : ℚ))) with
      | none => exact ⟨_, rfl⟩
      | some steps =>
        dsimp only
        by_cases hdistinct : steps.dedup.length ≠ years + 1
        · rw [if_pos hdistinct]
          exact ⟨_, rfl⟩
        · rw [if_neg hdistinct]
          by_cases hsign : ∃ value ∈ steps.reverse.filterMap values.get?, value ≤ 0
          · rw [if_pos hsign]
            exact ⟨_, rfl⟩
          · rw [if_neg hsign]
            have hpos : ∀ value ∈ steps.reverse.filterMap values.get?, 0 < value :=
              fun value hvalue => not_le.mp fun hle => hsign ⟨value, hvalue, hle⟩
            have hmem : ∀ finish ∈ steps.reverse, finish ∈ values.keys := fun finish hfinish =>
              mem_of_mapM_nearestEnd hsteps finish (List.mem_reverse.mp hfinish)
            have hlength : 2 ≤ (steps.reverse.filterMap values.get?).length := by
              rw [length_filterMap_get? hmem, List.length_reverse]
              have hdedup := steps.dedup_sublist.length_le
              omega
            obtain ⟨rate, hrate⟩ := exists_weightedGrowth hpos hlength
            rw [hrate]
            exact ⟨_, rfl⟩

def Fact.annualEnd (fact : Fact) : Option Date := fact.fiscalPeriod.bind fun tag =>
    match parseAnnual tag with
    | .ok (some period) => some period.finish
    | _ => none

section

variable {facts : List Fact} {entityId metric : String}

theorem annualByPeriodEnd_append_of_ne {other : List Fact} (h : ∀ fact ∈ other, fact.metric ≠ metric) :
    annualByPeriodEnd (other ++ facts) entityId metric = annualByPeriodEnd facts entityId metric := by
  have hskip : other.foldlM (annualStep entityId metric) Dict.empty = .ok Dict.empty := by
    induction other with
    | nil => rfl
    | cons fact other ih =>
      rw [List.forall_mem_cons] at h
      have hstep : annualStep entityId metric Dict.empty fact = .ok Dict.empty := by
        rw [annualStep, decide_eq_false fun hboth => h.1 hboth.2]
      rw [List.foldlM_cons, hstep, ok_bind, ih h.2]
  rw [annualByPeriodEnd, List.foldlM_append, hskip, ok_bind]
  rfl

theorem exists_annualByPeriodEnd (htags : ∀ fact ∈ facts, ∀ tag ∈ fact.fiscalPeriod, parseAnnual tag ≠ .error ())
    (hapart : facts.Pairwise fun a b => ∀ finish, a.annualEnd = some finish → b.annualEnd ≠ some finish) :
    ∃ series, annualByPeriodEnd facts entityId metric = .ok series := by
  -- the invariant: every end of the series is the end of a fact that was read
  have hloop := foldlM_total (f := annualStep entityId metric)
    (fun done byEnd => ∀ finish ∈ byEnd.keys, ∃ fact ∈ done, fact.annualEnd = some finish) facts (b := Dict.empty)
    (fun _ hmem => (List.not_mem_nil hmem).elim) ?_
  · obtain ⟨series, hseries, -⟩ := hloop
    exact ⟨series, hseries⟩
  · intro done fact rest byEnd hsplit hread
    have hkeep : ∀ finish ∈ byEnd.keys, ∃ read ∈ done ++ [fact], read.annualEnd = some finish := by
      intro finish hfinish
      obtain ⟨read, hmem, hend⟩ := hread finish hfinish
      exact ⟨read, List.mem_append_left _ hmem, hend⟩
    have hmem : fact ∈ facts := by
      rw [hsplit]
      simp
    unfold annualStep
    split
    · next value tag _ _ htag =>
      cases hparse : parseAnnual tag with
      | error e => exact absurd hparse (htags fact hmem tag htag)
      | ok period =>
        cases period with
        | none => exact ⟨byEnd, rfl, hkeep⟩
        | some period =>
          have hend : fact.annualEnd = some period.finish := by
            rw [Fact.annualEnd, htag, Option.bind_some, hparse]
          have hnew : ¬ (byEnd.get? period.finish).isSome := by
            intro hsome
            obtain ⟨old, hold⟩ := Option.isSome_iff_exists.mp hsome
            obtain ⟨read, hdone, hreadEnd⟩ := hread _ ((Dict.mem_keys_iff _ _).mpr ⟨old, hold⟩)
            rw [hsplit] at hapart
            exact (List.pairwise_append.mp hapart).2.2 read hdone fact List.mem_cons_self _ hreadEnd hend
          dsimp only
          rw [if_neg hnew]
          refine ⟨_, rfl, fun finish hfinish => ?_⟩
          obtain ⟨stored, hstored⟩ := (Dict.mem_keys_iff _ _).mp hfinish
          by_cases hsame : period.finish = finish
          · exact ⟨fact, by simp, hsame ▸ hend⟩
          · rw [Dict.get?_set_of_ne _ _ hsame] at hstored
            exact hkeep finish ((Dict.mem_keys_iff _ _).mpr ⟨stored, hstored⟩)
    · exact ⟨byEnd, rfl, hkeep⟩

end

section

variable {facts : List Fact} {entityId : String}

theorem exists_toMeasure {fact : Fact} (h : fact.unit.isSome) (value : ℚ) : ∃ measure, fact.toMeasure value = .ok measure := by
  obtain ⟨unit, hunit⟩ := Option.isSome_iff_exists.mp h
  exact ⟨(value, unit), by rw [Fact.toMeasure, hunit]⟩

theorem exists_pegResult {price shares : Fact} {latestEarnings points : ℚ} {confidences : List ℚ} {flags : List String}
    (hprice : price.value.isSome ∧ price.unit.isSome) (hshares : shares.value.isSome ∧ shares.unit.isSome)
    (hearnings : 0 < latestEarnings) (hpoints : 0 < points) :
    ∃ result, pegResult facts entityId price shares latestEarnings points confidences flags = .ok result := by
  obtain ⟨priceValue, hpriceValue⟩ := Option.isSome_iff_exists.mp hprice.1
  obtain ⟨sharesValue, hsharesValue⟩ := Option.isSome_iff_exists.mp hshares.1
  obtain ⟨priceMeasure, hpriceMeasure⟩ := exists_toMeasure hprice.2 priceValue
  obtain ⟨sharesMeasure, hsharesMeasure⟩ := exists_toMeasure hshares.2 sharesValue
  simp only [pegResult, hpriceValue, hsharesValue, hpriceMeasure, hsharesMeasure, ok_bind]
  cases times .default priceMeasure sharesMeasure with
  | none => exact ⟨_, rfl⟩
  | some marketCap =>
    obtain ⟨multiple, hmultiple⟩ := exists_div pegContext marketCap hearnings.ne'
    obtain ⟨value, hvalue⟩ := exists_div pegContext multiple hpoints.ne'
    simp only [hmultiple, hvalue, ok_bind, List.cons_append, minimum]
    exact ⟨_, rfl⟩

theorem exists_pegHistorical {price shares : Fact} {latestEarnings : ℚ} (series : Dict Date ℚ) (cagrYears : ℕ)
    (hprice : price.value.isSome ∧ price.unit.isSome) (hshares : shares.value.isSome ∧ shares.unit.isSome) :
    ∃ result, pegHistorical facts entityId price shares latestEarnings series cagrYears = .ok result := by
  obtain ⟨⟨growth, ends⟩, hgrowth⟩ := exists_recencyWeightedGrowth series cagrYears
  rw [pegHistorical, hgrowth, ok_bind]
  dsimp only
  by_cases hearnings : latestEarnings ≤ 0
  · rw [if_pos hearnings]
    exact ⟨_, rfl⟩
  · rw [if_neg hearnings]
    cases growth with
    | none => exact ⟨_, rfl⟩
    | some growth =>
      dsimp only
      by_cases hrate : growth ≤ 0
      · rw [if_pos hrate]
        exact ⟨_, rfl⟩
      · rw [if_neg hrate]
        have hpoints : 0 < pegContext.mul growth 100 := by
          apply Context.round_pos pegContext_precision
          linarith [not_le.mp hrate]
        exact exists_pegResult hprice hshares (not_le.mp hearnings) hpoints

theorem latestOf_mem {latest : Date} (h : latestOf ends = some latest) : latest ∈ ends := by
  cases ends with
  | nil => cases h
  | cons finish rest =>
    cases h
    have hfold : ∀ (l : List Date) (x : Date), l.foldl max x = x ∨ l.foldl max x ∈ l := by
      intro l
      induction l with
      | nil => exact fun x => .inl rfl
      | cons y l ih =>
        intro x
        rw [List.foldl_cons]
        obtain heq | hmem := ih (max x y)
        · rw [heq]
          obtain hleft | hright := max_choice x y
          · exact .inl hleft
          · exact .inr (hright.symm ▸ List.mem_cons_self)
        · exact .inr (List.mem_cons_of_mem _ hmem)
    obtain heq | hmem := hfold rest finish
    · rw [heq]
      exact List.mem_cons_self
    · exact List.mem_cons_of_mem _ hmem

theorem exists_latest (series : Dict Date ℚ) (h : series.items ≠ []) :
    ∃ earnings, (latestOf series.keys).bind series.get? = some earnings := by
  cases hlatest : latestOf series.keys with
  | none =>
    cases hkeys : series.keys with
    | nil => exact absurd (List.map_eq_nil_iff.mp hkeys) h
    | cons finish rest =>
      rw [hkeys] at hlatest
      cases hlatest
  | some latest => exact (Dict.mem_keys_iff _ _).mp (latestOf_mem hlatest)

theorem not_guided_of_historical (facts : List Fact) (entityId : String) :
    ¬ (GrowthConvention.historicalCagr = .companyGuidance ∨
      (GrowthConvention.historicalCagr = .analystConsensus ∧ (facts.filter fun fact =>
        fact.entityId = entityId ∧ fact.metric = "consensus_profit_growth" ∧ fact.value.isSome) = [])) := by simp

theorem exists_peg {price shares : Option Fact} {series : Dict Date ℚ} {cagrYears : ℕ} (hyears : 1 ≤ cagrYears)
    (hunits : ∀ fact ∈ facts, fact.unit.isSome) (hprice : findFact facts entityId "price" = .ok price)
    (hshares : findFact facts entityId "shares_outstanding" = .ok shares)
    (hseries : annualByPeriodEnd facts entityId "net_income" = .ok series) :
    ∃ result, peg facts entityId .historicalCagr cagrYears = .ok result := by
  unfold peg
  dsimp only
  rw [if_neg (not_lt.mpr hyears), if_neg (not_guided_of_historical facts entityId), hprice, ok_bind, hshares, ok_bind, hseries,
    ok_bind]
  by_cases hflags : validateBasePegInputs price shares series ≠ []
  · rw [if_pos hflags]
    exact ⟨_, rfl⟩
  · rw [if_neg hflags]
    -- no flag: the price, the share count and the series are there
    have hnil := not_not.mp hflags
    rw [validateBasePegInputs, List.append_eq_nil_iff, List.append_eq_nil_iff] at hnil
    obtain ⟨⟨hpriceFlag, hsharesFlag⟩, hseriesFlag⟩ := hnil
    obtain ⟨earnings, hearnings⟩ := exists_latest series fun hempty => by simp [hempty] at hseriesFlag
    obtain ⟨priceFact, rfl, hpriceValue⟩ : ∃ fact, price = some fact ∧ fact.value.isSome := by
      cases price with
      | none => cases hpriceFlag
      | some fact =>
        refine ⟨fact, rfl, Option.isSome_iff_ne_none.mpr fun hnone => ?_⟩
        simp [hnone] at hpriceFlag
    obtain ⟨sharesFact, rfl, hsharesValue⟩ : ∃ fact, shares = some fact ∧ fact.value.isSome := by
      cases shares with
      | none => cases hsharesFlag
      | some fact =>
        refine ⟨fact, rfl, Option.isSome_iff_ne_none.mpr fun hnone => ?_⟩
        simp [hnone] at hsharesFlag
    simp only [hearnings, reduceCtorEq, if_false]
    exact exists_pegHistorical series cagrYears ⟨hpriceValue, hunits _ (findFact_some hprice).1⟩
      ⟨hsharesValue, hunits _ (findFact_some hshares).1⟩

end

end TrueAlpha
