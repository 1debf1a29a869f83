import TrueAlpha.Contracts.TagLanguage
import TrueAlpha.Factors.PegSpec

/-!
# The period texts that `peg` raises on

`peg` raises on the text of a fiscal period only where `parse_annual` does (`periodText_of_peg`), and there it does on some
facts (`peg_periodText`).
-/

namespace TrueAlpha

/-! ## Where a text can be raised on -/

/-- A computation raises on the period texts that `parse_annual` raises on. -/
def RaisesBadTexts {α : Type} (x : Except FactorError α) : Prop :=
  ∀ tag, x = .error (.periodText tag) → parseAnnual tag = .error ()

section

variable {α β : Type} {x : Except FactorError α} {facts : List Fact} {entityId metric : String}

theorem raisesBadTexts_ok (a : α) : RaisesBadTexts (.ok a) := fun _ h => nomatch h

theorem RaisesBadTexts.bind {f : α → Except FactorError β} (hx : RaisesBadTexts x) (hf : ∀ a, RaisesBadTexts (f a)) :
    RaisesBadTexts (x >>= f) := by
  intro tag h
  obtain h | ⟨a, -, h⟩ := bind_eq_error_iff.mp h
  · exact hx tag h
  · exact hf a tag h

theorem RaisesBadTexts.ite {p : Prop} [Decidable p] {y : Except FactorError α} (hx : RaisesBadTexts x)
    (hy : RaisesBadTexts y) : RaisesBadTexts (if p then x else y) := by
  split_ifs
  · exact hx
  · exact hy

theorem raisesBadTexts_computed (value : Option ℚ) : RaisesBadTexts (computed value) := by
  cases value <;> exact fun _ h => nomatch h

theorem raisesBadTexts_minimum (values : List ℚ) : RaisesBadTexts (minimum values) := by
  cases values <;> exact fun _ h => nomatch h

theorem raisesBadTexts_toMeasure (fact : Fact) (value : ℚ) : RaisesBadTexts (fact.toMeasure value) := by
  unfold Fact.toMeasure
  split
  · exact raisesBadTexts_ok _
  · refine RaisesBadTexts.bind ?_ fun _ => raisesBadTexts_ok _
    unfold defaultUnitForMetric
    split
    · exact raisesBadTexts_ok _
    · exact .ite (fun _ h => nomatch h) (raisesBadTexts_ok _)
    · exact .ite (fun _ h => nomatch h) (raisesBadTexts_ok _)

theorem raisesBadTexts_findFact : RaisesBadTexts (findFact facts entityId metric) := by
  unfold findFact
  split
  · exact raisesBadTexts_ok _
  · exact raisesBadTexts_ok _
  · exact fun _ h => nomatch h

theorem raisesBadTexts_annualByPeriodEnd : RaisesBadTexts (annualByPeriodEnd facts entityId metric) := by
  intro tag h
  refine foldlM_error (P := fun error => error = .periodText tag → parseAnnual tag = .error ()) h ?_ rfl
  rintro byEnd fact error - hstep rfl
  unfold annualStep at hstep
  split at hstep
  · next text _ _ _ =>
    cases hparse : parseAnnual text with
    | error u =>
      rw [hparse] at hstep
      cases hstep
      exact hparse
    | ok period =>
      rw [hparse] at hstep
      cases period with
      | none => cases hstep
      | some period =>
        dsimp only at hstep
        split_ifs at hstep
        cases hstep
  · cases hstep

variable {price shares : Fact} {latestEarnings : ℚ}

theorem raisesBadTexts_pegResult {points : ℚ} {confidences : List ℚ} {flags : List String} :
    RaisesBadTexts (pegResult facts entityId price shares latestEarnings points confidences flags) := by
  unfold pegResult
  split
  · refine .bind (raisesBadTexts_toMeasure _ _) fun _ => .bind (raisesBadTexts_toMeasure _ _) fun _ => ?_
    split
    · exact raisesBadTexts_ok _
    · exact .bind (raisesBadTexts_computed _) fun _ => .bind (raisesBadTexts_computed _) fun _ =>
        .bind (raisesBadTexts_minimum _) fun _ => raisesBadTexts_ok _
  · exact fun _ h => nomatch h

theorem raisesBadTexts_pegAnalystConsensus {consensusFacts : List Fact} :
    RaisesBadTexts (pegAnalystConsensus facts entityId price shares latestEarnings consensusFacts) := by
  unfold pegAnalystConsensus
  refine .ite (raisesBadTexts_ok _) (.bind raisesBadTexts_annualByPeriodEnd fun series => ?_)
  dsimp only
  split
  · exact .ite (raisesBadTexts_ok _) raisesBadTexts_pegResult
  · refine .bind raisesBadTexts_findFact fun scalar => ?_
    split
    · exact fun _ h => nomatch h
    · exact .ite (raisesBadTexts_ok _) raisesBadTexts_pegResult

theorem raisesBadTexts_pegHistorical {series : Dict Date ℚ} {cagrYears : ℕ} :
    RaisesBadTexts (pegHistorical facts entityId price shares latestEarnings series cagrYears) := by
  obtain ⟨growth, hgrowth⟩ := exists_recencyWeightedGrowth series cagrYears
  rw [pegHistorical, hgrowth, ok_bind]
  dsimp only
  refine .ite (raisesBadTexts_ok _) ?_
  split
  · exact raisesBadTexts_ok _
  · exact .ite (raisesBadTexts_ok _) raisesBadTexts_pegResult

theorem raisesBadTexts_peg {convention : GrowthConvention} {cagrYears : ℕ} :
    RaisesBadTexts (peg facts entityId convention cagrYears) := by
  unfold peg
  dsimp only
  refine .ite (fun _ h => nomatch h) (.ite (raisesBadTexts_ok _) ?_)
  refine .bind raisesBadTexts_findFact fun price => .bind raisesBadTexts_findFact fun shares =>
    .bind raisesBadTexts_annualByPeriodEnd fun series => .ite (raisesBadTexts_ok _) ?_
  split
  · exact .ite raisesBadTexts_pegAnalystConsensus raisesBadTexts_pegHistorical
  · exact fun _ h => nomatch h

end

def incomeFact (tag : String) : Fact := ⟨"issuer", "net_income", some 1, 1, some tag, none⟩

theorem peg_periodText {tag : String} (h : parseAnnual tag = .error ()) :
    peg [incomeFact tag] "issuer" .historicalCagr 1 = .error (.periodText tag) := by
  have hstep : annualStep "issuer" "net_income" Dict.empty (incomeFact tag) = .error (.periodText tag) := by
    simp [annualStep, incomeFact, h]
  have hseries : annualByPeriodEnd [incomeFact tag] "issuer" "net_income" = .error (.periodText tag) := by
    rw [annualByPeriodEnd, List.foldlM_cons, hstep]
    rfl
  have hprice : findFact [incomeFact tag] "issuer" "price" = .ok none := rfl
  have hshares : findFact [incomeFact tag] "issuer" "shares_outstanding" = .ok none := rfl
  simp only [peg, hprice, hshares, hseries, ok_bind]
  rfl

/-- `parse_annual` reads a text as it should, and `peg` never raises on it, exactly when it is read cleanly. -/
theorem annual_text_iff (tag : String) :
    (parseAnnual tag ≠ .error () ∧ ((∃ period, parseAnnual tag = .ok (some period)) ↔ IsAnnualTag tag) ∧
      ∀ facts entityId convention cagrYears, peg facts entityId convention cagrYears ≠ .error (.periodText tag)) ↔
      ReadsCleanly tag := by
  rw [← parseAnnual_iff]
  constructor
  · exact fun h => ⟨h.1, h.2.1⟩
  · rintro ⟨hreads, hlanguage⟩
    exact ⟨hreads, hlanguage, fun _ _ _ _ hraise => hreads (raisesBadTexts_peg tag hraise)⟩

/-- 30 February raises, in the parser and in the ratio. -/
theorem february_30_raises : parseAnnual "FY2025:FY:2024-02-30:2025-02-28" = .error () ∧ ¬ ∀ facts entityId convention cagrYears,
        peg facts entityId convention cagrYears ≠ .error (.periodText "FY2025:FY:2024-02-30:2025-02-28") := by
  have hparse : parseAnnual "FY2025:FY:2024-02-30:2025-02-28" = .error () := by decide +kernel
  exact ⟨hparse, fun h => h _ _ _ _ (peg_periodText hparse)⟩

end TrueAlpha
