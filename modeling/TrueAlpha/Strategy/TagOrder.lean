import TrueAlpha.Strategy.PeriodAnswers

/-!
# Tags through the store

A tag of `encode_annual` comes back as its period, names its end and its filing year and no other, and among the rows of a
purely periodic key the row of the latest end answers (`encodedTags_survive`).
-/

namespace TrueAlpha.Strategy

def TagDate (finish : ℤ) : Prop := ∃ year month day : ℕ, 1000 ≤ year ∧ dateOf year month day = some finish

def FourDigitYear (filingFiscalYear : Option ℤ) : Prop := ∀ filing ∈ filingFiscalYear, 1000 ≤ filing ∧ filing ≤ 9999

section

variable {finish finish' : ℤ} {filingFiscalYear filingFiscalYear' : Option ℤ}

theorem filingYear_of_tagDate (hdate : TagDate finish) (hfiling : FourDigitYear filingFiscalYear) :
    1000 ≤ filingYear finish filingFiscalYear ∧ filingYear finish filingFiscalYear ≤ 9999 := by
  unfold filingYear
  cases filingFiscalYear with
  | none =>
    obtain ⟨year, month, day, hyear, hdate⟩ := hdate
    have hmax := (dateOf_eq_some_iff.mp hdate).1.2.1
    rw [Option.getD_none, fromOrdinal_dateOf hdate]
    dsimp only
    omega
  | some filing => exact hfiling filing rfl

theorem encodeAnnual_inj_iff (hdate : TagDate finish) (hdate' : TagDate finish') (hfiling : FourDigitYear filingFiscalYear)
    (hfiling' : FourDigitYear filingFiscalYear') : encodeAnnual finish filingFiscalYear = encodeAnnual finish' filingFiscalYear' ↔
      finish = finish' ∧ filingYear finish filingFiscalYear = filingYear finish' filingFiscalYear' := by
  have hyears := filingYear_of_tagDate hdate hfiling
  have hyears' := filingYear_of_tagDate hdate' hfiling'
  obtain ⟨year, month, day, hyear, hdate⟩ := hdate
  obtain ⟨year', month', day', hyear', hdate'⟩ := hdate'
  obtain ⟨tag, _, htag, -⟩ := parseAnnual_encoded hdate hyear hfiling
  obtain ⟨tag', _, htag', -⟩ := parseAnnual_encoded hdate' hyear' hfiling'
  rw [htag, htag', Option.some.injEq]
  exact encodeAnnual_eq_iff (range_of_dateOf hdate) (range_of_dateOf hdate') hyears hyears' htag htag'

end

/-- A tag is read back as its period, two tags are one only for one end and filing year, and the row of the latest end answers for
a purely periodic key. -/
theorem encodedTags_survive : (∀ finish filingFiscalYear, TagDate finish → FourDigitYear filingFiscalYear →
      ∃ tag period, encodeAnnual finish filingFiscalYear = some tag ∧ parseAnnual tag = .ok (some period) ∧
        period.isAnnual = true ∧ period.finish = finish) ∧
    (∀ finish finish' filingFiscalYear filingFiscalYear', TagDate finish → TagDate finish' →
      FourDigitYear filingFiscalYear → FourDigitYear filingFiscalYear' →
      (encodeAnnual finish filingFiscalYear = encodeAnnual finish' filingFiscalYear' ↔
        finish = finish' ∧ filingFiscalYear.getD (fromOrdinal finish).1 = filingFiscalYear'.getD (fromOrdinal finish').1)) ∧
    ∀ cutoffAt rows inputs issuerId key, EncodedRows rows issuerId key → keyRows rows issuerId key ≠ [] →
      (∀ row ∈ keyRows rows issuerId key, row.fiscalPeriod ≠ none) → issuerInputsFromRows cutoffAt rows = .ok inputs →
      ∃ latest, LatestPeriodRow rows issuerId key latest ∧
        ∀ row, AnsweredBy inputs issuerId key row ↔ SameObservation latest row := by
  refine ⟨?_, ?_, ?_⟩
  · rintro finish filingFiscalYear ⟨year, month, day, hyear, hdate⟩ hfiling
    exact parseAnnual_encoded hdate hyear hfiling
  · intro finish finish' filingFiscalYear filingFiscalYear' hdate hdate' hfiling hfiling'
    exact encodeAnnual_inj_iff hdate hdate' hfiling hfiling'
  · intro cutoffAt rows inputs issuerId key hrows hsome hperiodic hinputs
    obtain ⟨row, hrow⟩ := List.exists_mem_of_ne_nil _ hsome
    obtain ⟨latest, hlatest, hanswer⟩ := answerOf_periodic hrows hrow hperiodic
    exact ⟨latest, hlatest, fun row => answeredBy_iff hinputs hanswer⟩

example : encodeAnnual 738945 none = some "FY2024:FY:2023-03-01:2024-02-29" := by decide +kernel

/-- The end's year stands in for an absent filing year, so two pairs have one tag. -/
theorem encodeAnnual_default_year : ¬ ∀ finish finish' filingFiscalYear filingFiscalYear', TagDate finish → TagDate finish' →
      FourDigitYear filingFiscalYear → FourDigitYear filingFiscalYear' →
      encodeAnnual finish filingFiscalYear = encodeAnnual finish' filingFiscalYear' →
        finish = finish' ∧ filingFiscalYear = filingFiscalYear' := by
  intro h
  have hdate : TagDate 739251 := ⟨2024, 12, 31, by decide, by decide +kernel⟩
  have hfiling : FourDigitYear (some 2024) := by
    intro filing hfiling
    cases hfiling
    decide
  obtain ⟨-, hyear⟩ := h 739251 739251 none (some 2024) hdate hdate (by rintro _ ⟨⟩) hfiling (by decide +kernel)
  cases hyear

def tagRows : List InputRow := [⟨"issuer:a", "net_income", 3, 1, some "FY2023:FY:2022-03-01:2023-02-28", 10⟩,
  ⟨"issuer:a", "net_income", 4, 1, some "FY2024:FY:2023-03-01:2024-02-29", 20⟩,
  ⟨"issuer:a", "net_income", 2, 1, some "FY2022:FY:2021-03-01:2022-02-28", 30⟩]

theorem encodedRows_tagRows : EncodedRows tagRows "issuer:a" "net_income" := by
  refine ⟨by decide +kernel, ?_⟩
  have hkeys : keyRows tagRows "issuer:a" "net_income" = tagRows := by decide +kernel
  rw [hkeys]
  intro row hrow tag htag
  simp only [tagRows, List.mem_cons, List.not_mem_nil, or_false] at hrow
  obtain rfl | rfl | rfl := hrow
  all_goals obtain rfl := Option.some.inj htag
  · exact ⟨738579, by decide, none, by decide +kernel⟩
  · exact ⟨738945, by decide, none, by decide +kernel⟩
  · exact ⟨738214, by decide, none, by decide +kernel⟩

/-- The leap year answers for the key, whose tag is read back with its leap day. -/
theorem encodedTags_survive_leapYear : (∃ tag period, encodeAnnual 738945 none = some tag ∧ parseAnnual tag = .ok (some period) ∧
      period.isAnnual = true ∧ period.finish = 738945) ∧
    ∃ inputs latest, issuerInputsFromRows none tagRows = .ok inputs ∧ LatestPeriodRow tagRows "issuer:a" "net_income" latest ∧
      ∀ row, AnsweredBy inputs "issuer:a" "net_income" row ↔ SameObservation latest row := by
  refine ⟨encodedTags_survive.1 738945 none ⟨2024, 2, 29, by decide, by decide +kernel⟩ (by rintro _ ⟨⟩), ?_⟩
  cases hinputs : issuerInputsFromRows none tagRows with
  | error e =>
    have hok : (issuerInputsFromRows none tagRows).isOk = true := by decide +kernel
    rw [hinputs] at hok
    cases hok
  | ok inputs =>
    obtain ⟨latest, hlatest, hanswer⟩ := encodedTags_survive.2.2 none tagRows inputs "issuer:a" "net_income"
      encodedRows_tagRows (by decide +kernel) (by decide +kernel) hinputs
    exact ⟨inputs, latest, rfl, hlatest, hanswer⟩

end TrueAlpha.Strategy
