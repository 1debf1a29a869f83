import TrueAlpha.Datahub.Bundle

/-!
# Where the figures of a bundle come from

Every figure of a bundle is read from an entry, or is a difference or a sum of such figures (`Sourced`), and is filed with the
latest entry it rests on (`Sourced.at_filed`).
-/

namespace TrueAlpha.Datahub

open Strategy (OperatingBranch)

variable {reader : Reader} {facts : CompanyFacts} {ruleset : ConceptMappingRuleset} {cutoff : Date}

/-! ## Where a figure comes from -/

inductive Sourced (reader : Reader) (facts : CompanyFacts) (bound : Date) : Datum → Prop
  | entry {taxonomy concept unit : String} {entry : FactEntry} {datum : Datum}
      (mem : entry ∈ facts.entries taxonomy concept unit) (read : annualDatum reader entry unit = some datum)
      (filed : datum.filed ≤ bound) : Sourced reader facts bound datum
  | difference {periodEnd : Date} {base subtracted : Datum} (left : Sourced reader facts bound base)
      (right : Sourced reader facts bound subtracted) : Sourced reader facts bound (differenceOf periodEnd base subtracted)
  | sum {periodEnd : Date} {datums : List Datum} {total : Datum}
      (parts : ∀ datum ∈ datums, Sourced reader facts bound datum) (total_eq : sumAt periodEnd datums = some total) :
      Sourced reader facts bound total

theorem differenceOf_filed (periodEnd : Date) (base subtracted : Datum) :
    (differenceOf periodEnd base subtracted).filed = max base.filed subtracted.filed := by
  unfold differenceOf
  by_cases h : subtracted.filed ≤ base.filed
  · simp only [if_pos h, max_eq_left h]
  · simp only [if_neg h, max_eq_right (not_le.1 h).le]

variable {periodEnd : Date}

theorem filed_of_sumAt {datums : List Datum} {total : Datum} (h : sumAt periodEnd datums = some total) :
    (∃ datum ∈ datums, datum.filed = total.filed) ∧ ∀ datum ∈ datums, datum.filed ≤ total.filed := by
  obtain ⟨later, hlater, rfl⟩ := Option.map_eq_some_iff.1 h
  have hle : ∀ datum ∈ datums, datum.filed ≤ later.filed := fun datum hdatum => List.le_of_mem_argmax hdatum hlater
  exact ⟨⟨later, List.argmax_mem hlater, rfl⟩, hle⟩

variable {datum : Datum}

theorem Sourced.mono {bound bound' : Date} (h : Sourced reader facts bound datum)
    (hbound : bound ≤ bound') : Sourced reader facts bound' datum := by
  induction h with
  | entry mem read filed => exact .entry mem read (filed.trans hbound)
  | difference _ _ left right => exact .difference left right
  | sum _ total_eq parts => exact .sum parts total_eq

theorem Sourced.filed_le {bound : Date} (h : Sourced reader facts bound datum) : datum.filed ≤ bound := by
  induction h with
  | entry _ _ filed => exact filed
  | difference _ _ left right =>
    rw [differenceOf_filed]
    exact max_le left right
  | sum _ total_eq parts =>
    obtain ⟨⟨datum, hdatum, hfiled⟩, -⟩ := filed_of_sumAt total_eq
    exact hfiled ▸ parts datum hdatum

theorem Sourced.at_filed {bound : Date} (h : Sourced reader facts bound datum) : Sourced reader facts datum.filed datum := by
  induction h with
  | entry mem read _ => exact .entry mem read le_rfl
  | @difference periodEnd base subtracted _ _ left right =>
    rw [differenceOf_filed]
    exact .difference (left.mono (le_max_left _ _)) (right.mono (le_max_right _ _))
  | sum _ total_eq parts =>
    have hle := (filed_of_sumAt total_eq).2
    exact .sum (fun datum hdatum => (parts datum hdatum).mono (hle datum hdatum)) total_eq

def SourcedOption (reader : Reader) (facts : CompanyFacts) (cutoff : Date) (datum : Option Datum) : Prop :=
  ∀ d, datum = some d → Sourced reader facts cutoff d

def SourcedSeries (reader : Reader) (facts : CompanyFacts) (cutoff : Date) (values : Series) : Prop :=
  ∀ periodEnd, SourcedOption reader facts cutoff (values.get? periodEnd)

theorem sourcedOption_none : SourcedOption reader facts cutoff none := fun _ h => by cases h

theorem sourcedSeries_empty : SourcedSeries reader facts cutoff Dict.empty := fun _ => sourcedOption_none

variable {values : Series}

section

variable (h : SourcedSeries reader facts cutoff values)

include h

theorem SourcedSeries.set (periodEnd : Date) (hdatum : Sourced reader facts cutoff datum) :
    SourcedSeries reader facts cutoff (values.set periodEnd datum) := by
  intro key d hd
  rw [Dict.get?_set] at hd
  split at hd
  · cases hd
    exact hdatum
  · exact h key d hd

theorem SourcedSeries.recordBetterDatum (hdatum : Sourced reader facts cutoff datum) :
    SourcedSeries reader facts cutoff (recordBetterDatum values datum) := by
  unfold Datahub.recordBetterDatum
  split
  · exact h.set _ hdatum
  · split
    · exact h.set _ hdatum
    · exact h

theorem SourcedSeries.collectDatum {read : FactEntry → Option Datum} {entry : FactEntry}
    (hread : ∀ datum, read entry = some datum → datum.filed ≤ cutoff → Sourced reader facts cutoff datum) :
    SourcedSeries reader facts cutoff (collectDatum read cutoff values entry) := by
  unfold Datahub.collectDatum
  split
  · exact h
  · split
    · exact h
    · rename_i datum hdatum hfiled
      exact h.recordBetterDatum (hread datum hdatum (not_lt.1 hfiled))

end

theorem sourcedSeries_annualValues (taxonomy concept unit : String) :
    SourcedSeries reader facts cutoff (annualValuesByPeriodEnd reader facts taxonomy concept unit cutoff) := by
  unfold annualValuesByPeriodEnd
  apply List.foldlRecOn
  · exact sourcedSeries_empty
  · intro values h entry hmem
    exact h.collectDatum fun datum hread hfiled => .entry hmem hread hfiled

theorem SourcedSeries.mergeDatum {merged : Series} (h : SourcedSeries reader facts cutoff merged)
    {item : Date × Datum} (hitem : Sourced reader facts cutoff item.2) :
    SourcedSeries reader facts cutoff (mergeDatum merged item) := by
  unfold Datahub.mergeDatum
  split
  · exact h.set _ hitem
  · split
    · exact h.set _ hitem
    · exact h

theorem SourcedSeries.of_items (h : SourcedSeries reader facts cutoff values)
    {item : Date × Datum} (hitem : item ∈ values.items) : Sourced reader facts cutoff item.2 :=
  h item.1 item.2 ((values.get?_eq_some_iff item.1 item.2).2 hitem)

theorem sourcedSeries_mergeVariants (concepts : List ConceptRef) (unit : String) :
    SourcedSeries reader facts cutoff (mergeVariants reader facts concepts unit cutoff) := by
  unfold mergeVariants
  apply List.foldlRecOn
  · exact sourcedSeries_empty
  · intro merged hmerged concept _
    apply List.foldlRecOn
    · exact hmerged
    · intro values h item hitem
      exact h.mergeDatum ((sourcedSeries_annualValues _ _ _).of_items hitem)

theorem sourcedSeries_preferredVariant (concepts : List ConceptRef) (unit : String) :
    SourcedSeries reader facts cutoff (preferredVariant reader facts concepts unit cutoff) := by
  have hall : ∀ values ∈ concepts.map fun concept =>
      annualValuesByPeriodEnd reader facts concept.taxonomy concept.concept unit cutoff,
      SourcedSeries reader facts cutoff values := by
    intro values hvalues
    obtain ⟨concept, -, rfl⟩ := List.mem_map.1 hvalues
    exact sourcedSeries_annualValues _ _ _
  simp only [preferredVariant]
  split
  · rename_i values hfind
    exact hall values (List.mem_of_find?_eq_some hfind)
  · rcases hfind : List.find? _ _ with _ | values
    · exact sourcedSeries_empty
    · exact hall values (List.mem_of_find?_eq_some hfind)

theorem sourcedSeries_resolveField (field : String) :
    SourcedSeries reader facts cutoff (resolveField reader facts ruleset field cutoff) := by
  unfold resolveField
  split
  · exact sourcedSeries_empty
  · split
    · exact sourcedSeries_preferredVariant _ _
    · exact sourcedSeries_mergeVariants _ _

theorem SourcedOption.filter {datum : Option Datum} (h : SourcedOption reader facts cutoff datum)
    (p : Datum → Bool) : SourcedOption reader facts cutoff (datum.filter p) :=
  fun d hd => h d (Option.filter_eq_some_iff.1 hd).1

theorem SourcedOption.or {first second : Option Datum} (h₁ : SourcedOption reader facts cutoff first)
    (h₂ : SourcedOption reader facts cutoff second) : SourcedOption reader facts cutoff (first.or second) := by
  cases first with
  | none => exact h₂
  | some datum => exact h₁

theorem SourcedSeries.latest (h : SourcedSeries reader facts cutoff values) :
    SourcedOption reader facts cutoff (latest values) := by
  intro d hd
  obtain ⟨periodEnd, -, hget⟩ := Option.bind_eq_some_iff.1 hd
  exact h periodEnd d hget

theorem SourcedSeries.difference {base subtracted : Series} (h₁ : SourcedSeries reader facts cutoff base)
    (h₂ : SourcedSeries reader facts cutoff subtracted) :
    SourcedOption reader facts cutoff (differenceAtSharedPeriod base subtracted) := by
  intro d hd
  simp only [differenceAtSharedPeriod, Option.bind_eq_bind, Option.bind_eq_some_iff] at hd
  obtain ⟨periodEnd, -, left, hleft, right, hright, hd⟩ := hd
  cases hd
  exact .difference (h₁ periodEnd left hleft) (h₂ periodEnd right hright)

theorem sourcedOption_sumAt {datums : List Datum} (h : ∀ datum ∈ datums, Sourced reader facts cutoff datum) :
    SourcedOption reader facts cutoff (sumAt periodEnd datums) :=
  fun _ hd => .sum h hd

theorem SourcedSeries.sum {left right : Series} (h₁ : SourcedSeries reader facts cutoff left)
    (h₂ : SourcedSeries reader facts cutoff right) :
    SourcedOption reader facts cutoff (sumAtSharedPeriod left right) := by
  intro d hd
  simp only [sumAtSharedPeriod, Option.bind_eq_bind, Option.bind_eq_some_iff] at hd
  obtain ⟨periodEnd, -, first, hfirst, second, hsecond, hd⟩ := hd
  refine sourcedOption_sumAt (fun datum hdatum => ?_) d hd
  rcases List.mem_pair.1 hdatum with rfl | rfl
  · exact h₁ periodEnd _ hfirst
  · exact h₂ periodEnd _ hsecond

theorem SourcedOption.laterCandidate {direct derived : Option Datum}
    (h₁ : SourcedOption reader facts cutoff direct) (h₂ : SourcedOption reader facts cutoff derived) :
    SourcedOption reader facts cutoff (laterCandidate direct derived) := by
  intro d hd
  obtain ⟨candidate, hmem, rfl⟩ := List.mem_filterMap.1 (List.argmax_mem hd)
  rcases List.mem_pair.1 hmem with h | h
  · exact h₁ d h.symm
  · exact h₂ d h.symm

/-! ## The figures of a bundle -/

theorem sourced_grossProfit : SourcedOption reader facts cutoff (grossProfit reader facts ruleset cutoff) :=
  (sourcedSeries_resolveField _).latest.laterCandidate
    ((sourcedSeries_resolveField _).difference (sourcedSeries_resolveField _))

theorem sourced_insurancePreClaimsProfit :
    SourcedOption reader facts cutoff (insurancePreClaimsProfit reader facts ruleset cutoff) :=
  ((sourcedSeries_resolveField _).difference (sourcedSeries_resolveField _)).filter _

theorem sourced_preProvisionProfit : SourcedOption reader facts cutoff (preProvisionProfit reader facts ruleset cutoff) :=
  (sourcedSeries_resolveField _).difference (sourcedSeries_resolveField _)

theorem sourced_bankNetRevenue : SourcedOption reader facts cutoff (bankNetRevenue reader facts ruleset cutoff) := by
  simp only [bankNetRevenue]
  split
  · rename_i datum hlater
    rw [← hlater]
    exact (sourcedSeries_resolveField _).latest.laterCandidate
      ((sourcedSeries_resolveField _).sum (sourcedSeries_resolveField _))
  · exact (sourcedSeries_resolveField _).latest

section Components

variable {series : String → Series} (h : ∀ field, SourcedSeries reader facts cutoff (series field))

include h

theorem sourced_tierAt (periodEnd : Date) (fields : List String) :
    ∀ datum ∈ (tierAt series periodEnd fields).map Prod.fst, Sourced reader facts cutoff datum := by
  intro datum hdatum
  obtain ⟨item, hitem, rfl⟩ := List.mem_map.1 hdatum
  obtain ⟨field, -, hfield⟩ := List.mem_filterMap.1 hitem
  obtain ⟨d, hget, rfl⟩ := Option.map_eq_some_iff.1 hfield
  exact h field periodEnd d hget

theorem sourced_sumAt_tierAt (periodEnd : Date) (fields : List String) (hdatum : Sourced reader facts cutoff datum) :
    SourcedOption reader facts cutoff (sumAt periodEnd (datum :: (tierAt series periodEnd fields).map Prod.fst)) := by
  apply sourcedOption_sumAt
  intro part hpart
  rcases List.mem_cons.1 hpart with rfl | hpart
  · exact hdatum
  · exact sourced_tierAt h periodEnd fields part hpart

theorem sourced_bankAssets : SourcedOption reader facts cutoff (bankAssets series).datum := by
  unfold bankAssets
  rcases hfind : List.findSome? _ _ with _ | component
  · exact sourcedOption_none
  · obtain ⟨fields, -, hfields⟩ := List.exists_of_findSome?_eq_some hfind
    obtain ⟨periodEnd, -, rfl⟩ := Option.map_eq_some_iff.1 hfields
    exact sourcedOption_sumAt (sourced_tierAt h periodEnd fields)

theorem sourced_cashAssets {cash : Datum} (hcash : Sourced reader facts cutoff cash) :
    SourcedOption reader facts cutoff (cashAssets series cash).datum := by
  simp only [cashAssets]
  split
  · rename_i tier hfind
    obtain ⟨fields, -, rfl⟩ := List.mem_map.1 (List.mem_of_find?_eq_some hfind)
    exact sourced_sumAt_tierAt h _ _ hcash
  · intro d hd
    cases hd
    exact hcash

theorem sourced_combinedAssets {combined : Datum} (hcombined : Sourced reader facts cutoff combined) :
    SourcedOption reader facts cutoff (combinedAssets series combined).datum := by
  simp only [combinedAssets]
  split
  · intro d hd
    cases hd
    exact hcombined
  · exact sourced_sumAt_tierAt h _ _ hcombined

theorem sourced_operatingAssets : SourcedOption reader facts cutoff (operatingAssets series).datum := by
  unfold operatingAssets
  split
  · exact sourced_cashAssets h ((h _).latest _ (by assumption))
  · split
    · exact sourced_combinedAssets h ((h _).latest _ (by assumption))
    · exact sourcedOption_none

theorem sourced_investmentReturns : SourcedOption reader facts cutoff (investmentReturns series).1.datum := by
  unfold investmentReturns
  split
  · exact sourced_sumAt_tierAt h _ _ ((h _).latest _ (by assumption))
  · split
    · rename_i nonoperating hlatest
      intro d hd
      cases hd
      exact (h _).latest _ hlatest
    · exact sourcedOption_none

theorem sourced_intangiblesAt (periodEnd : Date) : SourcedOption reader facts cutoff (intangiblesAt series periodEnd).1 := by
  unfold intangiblesAt
  split
  · rename_i total htotal
    intro d hd
    cases hd
    exact h _ _ _ htotal
  · split
    · rename_i finite indefinite hfinite hindefinite
      apply sourcedOption_sumAt
      intro datum hdatum
      rcases List.mem_pair.1 hdatum with rfl | rfl
      · exact h _ _ _ hfinite
      · exact h _ _ _ hindefinite
    · exact sourcedOption_none

end Components

variable (branch : OperatingBranch)

theorem sourced_operatingFigures :
    SourcedOption reader facts cutoff (operatingFigures reader facts ruleset cutoff branch).profit ∧
      SourcedOption reader facts cutoff (operatingFigures reader facts ruleset cutoff branch).bankNetRevenue := by
  cases branch with
  | financial => exact ⟨sourced_preProvisionProfit, sourced_bankNetRevenue⟩
  | insurance => exact ⟨sourced_insurancePreClaimsProfit, sourcedOption_none⟩
  | nonFinancial => exact ⟨sourced_grossProfit, sourcedOption_none⟩

theorem sourced_financialComponents :
    SourcedOption reader facts cutoff (financialComponents reader facts ruleset cutoff branch).assets.datum ∧
      SourcedOption reader facts cutoff (financialComponents reader facts ruleset cutoff branch).returns.datum := by
  simp only [financialComponents]
  split
  · exact ⟨sourced_bankAssets sourcedSeries_resolveField, sourcedOption_none⟩
  · exact ⟨sourced_operatingAssets sourcedSeries_resolveField, sourced_investmentReturns sourcedSeries_resolveField⟩

structure SourcedTangible (reader : Reader) (facts : CompanyFacts) (cutoff : Date)
    (tangible : TangibleCommonEquityComponents) : Prop where
  stockholdersEquity : SourcedOption reader facts cutoff tangible.stockholdersEquity
  preferredStockValue : SourcedOption reader facts cutoff tangible.preferredStockValue
  goodwill : SourcedOption reader facts cutoff tangible.goodwill
  intangibleAssets : SourcedOption reader facts cutoff tangible.intangibleAssets

theorem sourcedTangible_none : SourcedTangible reader facts cutoff noTangible :=
  ⟨sourcedOption_none, sourcedOption_none, sourcedOption_none, sourcedOption_none⟩

theorem sourced_tangibleAt {series : String → Series} (h : ∀ field, SourcedSeries reader facts cutoff (series field)) {tangible : TangibleCommonEquityComponents} (htangible : tangibleAt series periodEnd = some tangible) :
    SourcedTangible reader facts cutoff tangible := by
  simp only [tangibleAt] at htangible
  split at htangible
  · cases htangible
  · cases htangible
    exact ⟨h _ _, h _ _, h _ _, sourced_intangiblesAt h periodEnd⟩

theorem sourced_tangibleCommonEquityComponents :
    SourcedTangible reader facts cutoff (tangibleCommonEquityComponents reader facts ruleset cutoff branch) := by
  simp only [tangibleCommonEquityComponents]
  split
  · exact sourcedTangible_none
  · rcases hfind : List.findSome? _ _ with _ | tangible
    · exact sourcedTangible_none
    · obtain ⟨periodEnd, -, hperiod⟩ := List.exists_of_findSome?_eq_some hfind
      exact sourced_tangibleAt sourcedSeries_resolveField hperiod

variable {branch : OperatingBranch} {maximumInputAgeDays : ℤ}

theorem sourced_resolved
    (h : datum ∈ (bundleFigures reader facts ruleset cutoff maximumInputAgeDays branch).resolved) :
    Sourced reader facts cutoff datum := by
  rcases List.mem_append.1 h with h | h
  · obtain ⟨figure, hfigure, hdatum⟩ := List.mem_filterMap.1 h
    have htangible : SourcedTangible reader facts cutoff
        (bundleFigures reader facts ruleset cutoff maximumInputAgeDays branch).tangible :=
      sourced_tangibleCommonEquityComponents branch
    have hshares : SourcedOption reader facts cutoff
        (bundleFigures reader facts ruleset cutoff maximumInputAgeDays branch).shares :=
      ((sourcedSeries_resolveField _).latest.filter _).or ((sourcedSeries_resolveField _).latest.filter _)
    simp only [List.mem_cons, List.not_mem_nil, or_false] at hfigure
    refine (?_ : SourcedOption reader facts cutoff figure) datum hdatum
    rcases hfigure with rfl | rfl | rfl | rfl | rfl | rfl | rfl | rfl | rfl | rfl | rfl
    · exact (sourced_operatingFigures branch).1
    · exact (sourced_operatingFigures branch).2
    · exact (sourcedSeries_resolveField _).latest
    · exact hshares
    · exact (sourcedSeries_resolveField _).latest
    · exact (sourced_financialComponents branch).1
    · exact (sourced_financialComponents branch).2
    · exact htangible.stockholdersEquity
    · exact htangible.preferredStockValue
    · exact htangible.goodwill
    · exact htangible.intangibleAssets
  · obtain ⟨item, hitem, rfl⟩ := List.mem_map.1 h
    exact (sourcedSeries_resolveField _).of_items hitem

def BundleFigures.reported (figures : BundleFigures) : List (Option Datum) :=
  [figures.operating.grossProfit, figures.operating.preProvision, figures.operating.bankNetRevenue,
    figures.operating.insurerProfit, figures.assets, figures.shares,
    if figures.sharesPrimary.isNone then figures.sharesFallback else none, figures.revenue, figures.netIncome,
    figures.financial.assets.datum, figures.financial.returns.datum, figures.tangible.stockholdersEquity,
    figures.tangible.preferredStockValue, figures.tangible.goodwill, figures.tangible.intangibleAssets]

theorem operatingFigures_profit
    (h : let operating := operatingFigures reader facts ruleset cutoff branch
      operating.grossProfit = some datum ∨ operating.preProvision = some datum ∨ operating.insurerProfit = some datum) :
    (operatingFigures reader facts ruleset cutoff branch).profit = some datum := by
  cases branch with
  | financial =>
    rcases h with h | h | h
    · cases h
    · exact h
    · cases h
  | insurance =>
    rcases h with h | h | h
    · exact h
    · cases h
    · exact h
  | nonFinancial =>
    rcases h with h | h | h
    · exact h
    · cases h
    · cases h

theorem mem_resolved_of_reported
    (h : some datum ∈ (bundleFigures reader facts ruleset cutoff maximumInputAgeDays branch).reported) :
    datum ∈ (bundleFigures reader facts ruleset cutoff maximumInputAgeDays branch).resolved := by
  generalize hfigures : bundleFigures reader facts ruleset cutoff maximumInputAgeDays branch = figures at h ⊢
  have hprofit : figures.operating.grossProfit = some datum ∨ figures.operating.preProvision = some datum ∨
      figures.operating.insurerProfit = some datum → figures.operating.profit = some datum := by
    rw [← hfigures]
    exact operatingFigures_profit
  have hfallback : (if figures.sharesPrimary.isNone then figures.sharesFallback else none) = some datum →
      figures.shares = some datum := by
    intro hsome
    cases hp : figures.sharesPrimary with
    | none => simpa [BundleFigures.shares, hp] using hsome
    | some primary => simp [hp] at hsome
  have hearnings : figures.netIncome = some datum → datum ∈ figures.earningsPeriods.values := by
    intro hlatest
    obtain ⟨periodEnd, -, hget⟩ := Option.bind_eq_some_iff.1 hlatest
    exact Dict.mem_values_of_get? hget
  have hlisted : ∀ figure ∈ [figures.operating.profit, figures.operating.bankNetRevenue, figures.assets,
      figures.shares, figures.revenue, figures.financial.assets.datum, figures.financial.returns.datum,
      figures.tangible.stockholdersEquity, figures.tangible.preferredStockValue, figures.tangible.goodwill,
      figures.tangible.intangibleAssets], figure = some datum → datum ∈ figures.resolved := by
    intro figure hmem hfigure
    exact List.mem_append_left _ (List.mem_filterMap.2 ⟨figure, hmem, hfigure⟩)
  simp only [List.forall_mem_cons] at hlisted
  obtain ⟨h₁, h₂, h₃, h₄, h₅, h₆, h₇, h₈, h₉, h₁₀, h₁₁, -⟩ := hlisted
  simp only [BundleFigures.reported, List.mem_cons, List.not_mem_nil, or_false, eq_comm (a := some datum)] at h
  rcases h with h | h | h | h | h | h | h | h | h | h | h | h | h | h | h
  · exact h₁ (hprofit (.inl h))
  · exact h₁ (hprofit (.inr (.inl h)))
  · exact h₂ h
  · exact h₁ (hprofit (.inr (.inr h)))
  · exact h₃ h
  · exact h₄ h
  · exact h₄ (hfallback h)
  · exact h₅ h
  · exact List.mem_append_right _ (hearnings h)
  · exact h₆ h
  · exact h₇ h
  · exact h₈ h
  · exact h₉ h
  · exact h₁₀ h
  · exact h₁₁ h

end TrueAlpha.Datahub
