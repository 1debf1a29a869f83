import TrueAlpha.Datahub.ShareBasis

/-!
# The live share basis is the projector's

The live path takes the count's own date or its filing date, and every listing shows the same two factors from them.  So the
live basis is that of the date that the stored documents give.
-/

namespace TrueAlpha.Datahub

open Backtest (SplitEvent splitFactorBetween)

section Dates

variable {reader : Reader} {entry : VintageEntry} {ownDate filed : Date}

theorem entryDate_eq_some_iff {key : String} {date : Date} :
    entryDate reader entry key = some date ↔ ∃ value, entry.get key = some value ∧ reader.date value.str = some date :=
  Option.bind_eq_some_iff

theorem readDate_of_some {text : String} {date : Date} (h : reader.date text = some date) : readDate reader text = .ok date := by
  rw [readDate, h]

theorem classOfCount_spec {periodEnd : String} (accession : String) (value : ℚ) (documents : List CompanyFacts)
    (coverConcepts statementConcepts : List ConceptRef) (filed : Date) (hown : reader.date periodEnd = some ownDate) :
    ∃ basis, classOfCount reader accession periodEnd value documents coverConcepts statementConcepts filed = .ok basis ∧
      (basis.asOf = ownDate ∨ basis.asOf = filed) := by
  unfold classOfCount
  split_ifs
  · rw [readDate_of_some hown]
    exact ⟨_, rfl, .inl rfl⟩
  · exact ⟨_, rfl, .inr rfl⟩
  · exact ⟨_, rfl, .inr rfl⟩

theorem shareCountAsOf_spec (hown : entryDate reader entry "period_end" = some ownDate)
    (hfiled : entryDate reader entry "filed" = some filed) (value : ℚ) (documents : List CompanyFacts)
    (coverConcepts statementConcepts : List ConceptRef) :
    ∃ basis, (basis.asOf = ownDate ∨ basis.asOf = filed) ∧ ∀ filedFallback,
      shareCountAsOf reader entry value documents coverConcepts statementConcepts filedFallback = .ok basis := by
  obtain ⟨filedValue, hfiledValue, hfiledDate⟩ := entryDate_eq_some_iff.mp hfiled
  obtain ⟨ownValue, hownValue, hownDate⟩ := entryDate_eq_some_iff.mp hown
  rcases haccession : entry.get "accession" with _ | accession
  · refine ⟨⟨filed, .unrecognised⟩, .inr rfl, fun filedFallback => ?_⟩
    simp only [shareCountAsOf, hfiledValue, readDate_of_some hfiledDate, ok_bind, haccession]
  · obtain ⟨basis, hbasis, hdate⟩ := classOfCount_spec accession.str value documents coverConcepts
      statementConcepts filed hownDate
    refine ⟨basis, hdate, fun filedFallback => ?_⟩
    simp only [shareCountAsOf, hfiledValue, readDate_of_some hfiledDate, ok_bind, haccession, hownValue, hbasis]

end Dates

variable {history : SplitHistory}

section Listings

variable {settings : LiveSettings} {earliest : Date} {count : LiveShareCount}

def Speaks (settings : LiveSettings) (earliest : Date) (count : LiveShareCount) (history : SplitHistory) : Prop :=
  history.firstSession ≤ earliest ∧ closeSideGap settings history count = .ok none

theorem firstGap_eq_none_iff {known : List SplitHistory} :
    firstGap settings earliest count known = .ok none ↔ ∀ history ∈ known, Speaks settings earliest count history := by
  induction known with
  | nil => simp [firstGap]
  | cons history rest ih =>
    rw [firstGap, List.forall_mem_cons, ← ih, Speaks]
    by_cases hstart : earliest < history.firstSession
    · rw [if_pos hstart]
      exact ⟨(fun h => by cases h), fun h => absurd hstart (not_lt.mpr h.1.1)⟩
    · rw [if_neg hstart]
      rcases hgap : closeSideGap settings history count with error | gap
      · exact ⟨(fun h => by cases h), (fun h => by cases h.1.2)⟩
      · rcases gap with _ | gap
        · exact ⟨fun h => ⟨⟨not_lt.mp hstart, rfl⟩, h⟩, fun h => h.2⟩
        · exact ⟨(fun h => by cases h), (fun h => by cases h.1.2)⟩

theorem factor_eq_of_pair {ownDate filed close basisDate : Date} {history history' : SplitHistory}
    (hdate : basisDate = ownDate ∨ basisDate = filed)
    (hpair : factorPair (min ownDate filed) (max ownDate filed) close history =
      factorPair (min ownDate filed) (max ownDate filed) close history') :
    splitFactorBetween history.events basisDate close = splitFactorBetween history'.events basisDate close := by
  obtain ⟨hearliest, hlatest⟩ := Prod.mk.inj hpair
  rcases le_total ownDate filed with hle | hle
  · rw [min_eq_left hle] at hearliest
    rw [max_eq_right hle] at hlatest
    rcases hdate with rfl | rfl <;> assumption
  · rw [min_eq_right hle] at hearliest
    rw [max_eq_left hle] at hlatest
    rcases hdate with rfl | rfl <;> assumption

theorem factor_eq_of_dates {ownDate filed close date date' : Date}
    (hdate : date = ownDate ∨ date = filed) (hdate' : date' = ownDate ∨ date' = filed)
    (hsame : splitFactorBetween history.events (min ownDate filed) close =
      splitFactorBetween history.events (max ownDate filed) close) :
    splitFactorBetween history.events date close = splitFactorBetween history.events date' close := by
  have hboth : splitFactorBetween history.events ownDate close = splitFactorBetween history.events filed close := by
    rcases le_total ownDate filed with hle | hle
    · rwa [min_eq_left hle, max_eq_right hle] at hsame
    · rw [min_eq_right hle, max_eq_left hle] at hsame
      exact hsame.symm
  rcases hdate with rfl | rfl <;> rcases hdate' with rfl | rfl
  · rfl
  · exact hboth
  · exact hboth.symm
  · rfl

end Listings

/-! ## What the live path returns -/

section Live

variable (reader : Reader) (settings : LiveSettings) (count : LiveShareCount) (histories : List ListingHistory)
  (listingUnitsPerShare : ListingUnits) (sharesBasis : Option String) (documents : List CompanyFacts)
  (ruleset : ConceptMappingRuleset)

theorem liveBasisDate_mem {ownDate filed : Date} (hown : entryDate reader count.entry "period_end" = some ownDate)
    (hfiled : entryDate reader count.entry "filed" = some filed) {fromEarliest fromLatest : ℚ} {basisDate : Date}
    (h : liveBasisDate reader count documents ruleset filed (max ownDate filed) fromEarliest fromLatest = .ok (some basisDate)) :
    basisDate = ownDate ∨ basisDate = filed := by
  unfold liveBasisDate at h
  by_cases hsame : fromEarliest = fromLatest
  · rw [if_pos hsame] at h
    cases h
    exact max_choice ownDate filed
  · rw [if_neg hsame] at h
    obtain ⟨basis, hdate, hbasis⟩ := shareCountAsOf_spec hown hfiled count.shares documents
      (shareCountConcepts ruleset).1 (shareCountConcepts ruleset).2
    simp only [hbasis] at h
    have hsome : (if basis.kind = .unrecognised then none else some basis.asOf) = some basisDate := Except.ok.inj h
    split_ifs at hsome
    cases hsome
    exact hdate

def LiveBasis (basis : OnCloseBasis) : Prop := sharesBasis ≠ some missingClassRatio ∧ (∀ gap, .blocked gap ∉ histories) ∧
    ∃ ratio ownDate filed pair basisDate, listingUnitsPerShare = .units ratio ∧ 0 < ratio ∧
      entryDate reader count.entry "period_end" = some ownDate ∧ entryDate reader count.entry "filed" = some filed ∧
      liveBasisDate reader count documents ruleset filed (max ownDate filed) pair.1 pair.2 = .ok (some basisDate) ∧
      (∃ history, .shown history ∈ histories) ∧
      ∀ history, .shown history ∈ histories → Speaks settings (min ownDate filed) count history ∧
        factorPair (min ownDate filed) (max ownDate filed) count.closeSession history = pair ∧
        basis = scaledBasis count.shares count.knowableAt count.closeKnowableAt ratio
          (splitFactorBetween history.events basisDate count.closeSession)

theorem mem_filterMap_known : history ∈ histories.filterMap ListingHistory.known? ↔ .shown history ∈ histories := by
  rw [List.mem_filterMap]
  refine ⟨?_, fun h => ⟨_, h, rfl⟩⟩
  rintro ⟨listing, hlisting, hknown⟩
  cases listing with
  | absent => cases hknown
  | blocked gap => cases hknown
  | shown found =>
    cases hknown
    exact hlisting

theorem filterMap_gap_eq_nil_iff : histories.filterMap ListingHistory.gap? = [] ↔ ∀ gap, .blocked gap ∉ histories := by
  rw [List.filterMap_eq_nil_iff]
  refine ⟨(fun h gap hgap => by cases h _ hgap), fun h listing hlisting => ?_⟩
  cases listing with
  | absent => rfl
  | blocked gap => exact absurd hlisting (h gap)
  | shown found => rfl

theorem datedBasis_eq_basis_iff {first : SplitHistory} {rest : List SplitHistory} {ownDate filed : Date} {ratio : ℚ}
    (hclass : sharesBasis ≠ some missingClassRatio) (hratio : 0 < ratio) {basis : OnCloseBasis} :
    datedBasis reader settings count first rest (.units ratio) sharesBasis documents ruleset ownDate filed = .ok (.basis basis) ↔
      (∀ history ∈ first :: rest, Speaks settings (min ownDate filed) count history) ∧
        (∀ history ∈ first :: rest, factorPair (min ownDate filed) (max ownDate filed) count.closeSession history =
          factorPair (min ownDate filed) (max ownDate filed) count.closeSession first) ∧
        ∃ basisDate, liveBasisDate reader count documents ruleset filed (max ownDate filed)
            (factorPair (min ownDate filed) (max ownDate filed) count.closeSession first).1
            (factorPair (min ownDate filed) (max ownDate filed) count.closeSession first).2 = .ok (some basisDate) ∧
          basis = scaledBasis count.shares count.knowableAt count.closeKnowableAt ratio
            (splitFactorBetween first.events basisDate count.closeSession) := by
  have hbasis : ∀ basisDate, onCloseBasis settings.formats count.shares count.knowableAt basisDate count.closeSession
      count.closeKnowableAt first.events (.units ratio) sharesBasis =
        .basis (scaledBasis count.shares count.knowableAt count.closeKnowableAt ratio
          (splitFactorBetween first.events basisDate count.closeSession)) := by
    intro basisDate
    simp only [onCloseBasis, if_neg hclass, if_neg (not_le.mpr hratio)]
  rw [← firstGap_eq_none_iff, datedBasis]
  rcases hgap : firstGap settings (min ownDate filed) count (first :: rest) with error | gap
  · exact ⟨(fun h => by cases h), (fun h => by cases h.1)⟩
  · rcases gap with _ | gap
    · simp only [ok_bind, true_and]
      have hany : (rest.any fun history =>
          factorPair (min ownDate filed) (max ownDate filed) count.closeSession history ≠
            factorPair (min ownDate filed) (max ownDate filed) count.closeSession first) = true ↔
          ¬ ∀ history ∈ first :: rest, factorPair (min ownDate filed) (max ownDate filed) count.closeSession history =
            factorPair (min ownDate filed) (max ownDate filed) count.closeSession first := by
        rw [List.any_eq_true, List.forall_mem_cons]
        simp only [true_and, decide_eq_true_eq, not_forall, exists_prop, ne_eq]
      by_cases hagree : ∀ history ∈ first :: rest, factorPair (min ownDate filed) (max ownDate filed) count.closeSession history =
            factorPair (min ownDate filed) (max ownDate filed) count.closeSession first
      · rw [if_neg (mt hany.mp (not_not.mpr hagree))]
        rcases hdate : liveBasisDate reader count documents ruleset filed (max ownDate filed)
            (factorPair (min ownDate filed) (max ownDate filed) count.closeSession first).1
            (factorPair (min ownDate filed) (max ownDate filed) count.closeSession first).2 with error | basisDate
        · exact ⟨(fun h => by cases h), (fun ⟨_, _, h, _⟩ => by cases h)⟩
        · rcases basisDate with _ | basisDate
          · exact ⟨(fun h => by cases h), (fun ⟨_, _, h, _⟩ => by cases h)⟩
          · simp only [ok_bind, hbasis]
            refine ⟨fun h => ⟨hagree, basisDate, rfl, ?_⟩, ?_⟩
            · exact (BasisOutcome.basis.inj (Except.ok.inj h)).symm
            · rintro ⟨-, found, hfound, rfl⟩
              cases hfound
              rfl
      · rw [if_pos (hany.mpr hagree)]
        exact ⟨(fun h => by cases h), (fun h => absurd h.1 hagree)⟩
    · exact ⟨(fun h => by cases h), (fun h => by cases h.1)⟩

theorem unproven_eq_false_iff {units : ListingUnits} : units.unproven = false ↔ ∃ ratio, units = .units ratio ∧ 0 < ratio := by
  cases units with
  | missing => exact ⟨(fun h => by cases h), (fun ⟨_, h, _⟩ => by cases h)⟩
  | flag value => exact ⟨(fun h => by cases h), (fun ⟨_, h, _⟩ => by cases h)⟩
  | units ratio => simp [ListingUnits.unproven]

theorem liveOnCloseBasis_eq_basis_iff {basis : OnCloseBasis} :
    liveOnCloseBasis reader settings count histories listingUnitsPerShare sharesBasis documents ruleset = .ok (.basis basis) ↔
      LiveBasis reader settings count histories listingUnitsPerShare sharesBasis documents ruleset basis := by
  have hmem : ∀ {history}, history ∈ histories.filterMap ListingHistory.known? ↔ .shown history ∈ histories :=
    mem_filterMap_known histories
  unfold liveOnCloseBasis LiveBasis
  by_cases hclass : sharesBasis = some missingClassRatio
  · rw [if_pos hclass]
    exact ⟨(fun h => by cases h), (fun h => absurd hclass h.1)⟩
  · rw [if_neg hclass]
    by_cases hratio : listingUnitsPerShare.unproven = true
    · rw [if_pos hratio]
      refine ⟨(fun h => by cases h), ?_⟩
      rintro ⟨-, -, ratio, _, _, _, _, hunits, hpos, -⟩
      rw [unproven_eq_false_iff.mpr ⟨ratio, hunits, hpos⟩] at hratio
      cases hratio
    · rw [if_neg hratio]
      obtain ⟨ratio, rfl, hpos⟩ := unproven_eq_false_iff.mp (Bool.not_eq_true _ ▸ hratio)
      rcases hgaps : histories.filterMap ListingHistory.gap? with _ | ⟨gap, gaps⟩
      · have hnogap := (filterMap_gap_eq_nil_iff histories).mp hgaps
        rcases hknown : histories.filterMap ListingHistory.known? with _ | ⟨first, rest⟩
        · refine ⟨(fun h => by cases h), ?_⟩
          rintro ⟨-, -, _, _, _, _, _, -, -, -, -, -, ⟨history, hhistory⟩, -⟩
          rw [← hmem, hknown] at hhistory
          cases hhistory
        · simp only [← hmem, hknown]
          rcases hown : entryDate reader count.entry "period_end" with _ | ownDate
          · exact ⟨(fun h => by cases h), (fun ⟨_, _, _, _, _, _, _, _, _, h, _⟩ => by cases h)⟩
          · rcases hfiled : entryDate reader count.entry "filed" with _ | filed
            · exact ⟨(fun h => by cases h), (fun ⟨_, _, _, _, _, _, _, _, _, _, h, _⟩ => by cases h)⟩
            · simp only
              rw [datedBasis_eq_basis_iff reader settings count sharesBasis documents ruleset hclass hpos]
              constructor
              · rintro ⟨hspeaks, hpairs, basisDate, hdate, rfl⟩
                refine ⟨hclass, hnogap, ratio, ownDate, filed, _, basisDate, rfl, hpos, rfl, rfl, hdate,
                  ⟨first, List.mem_cons_self⟩, fun history hhistory => ⟨hspeaks history hhistory, hpairs history hhistory, ?_⟩⟩
                rw [factor_eq_of_pair (liveBasisDate_mem reader count documents ruleset hown hfiled hdate)
                  (hpairs history hhistory)]
              · rintro ⟨-, -, ratio', ownDate', filed', pair, basisDate, hunits, -, hown', hfiled', hdate, -, hall⟩
                cases hunits
                cases hown'
                cases hfiled'
                obtain ⟨-, hfirst, hbasis⟩ := hall first List.mem_cons_self
                subst hfirst
                exact ⟨fun history hhistory => (hall history hhistory).1,
                  fun history hhistory => (hall history hhistory).2.1, basisDate, hdate, hbasis⟩
      · refine ⟨(fun h => by cases h), ?_⟩
        rintro ⟨-, hnogap, -⟩
        rw [(filterMap_gap_eq_nil_iff histories).mpr hnogap] at hgaps
        cases hgaps

end Live

/-- Whenever the live path returns a basis, the projector gives the same one from any listing; the order of the listings does not
matter. -/
theorem live_share_basis_agrees (reader : Reader) (settings : LiveSettings) (count : LiveShareCount)
    (histories : List ListingHistory) (listingUnitsPerShare : ListingUnits) (sharesBasis : Option String)
    (documents : List CompanyFacts) (ruleset : ConceptMappingRuleset) :
    (∀ basis, liveOnCloseBasis reader settings count histories listingUnitsPerShare sharesBasis documents ruleset =
        .ok (.basis basis) →
      ∀ history, .shown history ∈ histories → ∀ filedFallback, ∃ shareBasis,
        shareCountAsOf reader count.entry count.shares documents (shareCountConcepts ruleset).1
          (shareCountConcepts ruleset).2 filedFallback = .ok shareBasis ∧
        onCloseBasis settings.formats count.shares count.knowableAt shareBasis.asOf count.closeSession
          count.closeKnowableAt history.events listingUnitsPerShare none = .basis basis) ∧
      ∀ histories', histories'.Perm histories → ∀ basis,
        (liveOnCloseBasis reader settings count histories' listingUnitsPerShare sharesBasis documents ruleset =
            .ok (.basis basis) ↔
          liveOnCloseBasis reader settings count histories listingUnitsPerShare sharesBasis documents ruleset =
            .ok (.basis basis)) := by
  refine ⟨fun basis hlive history hhistory filedFallback => ?_, fun histories' hp basis => ?_⟩
  · obtain ⟨-, -, ratio, ownDate, filed, pair, basisDate, rfl, hpos, hown, hfiled, hdate, -, hall⟩ :=
      (liveOnCloseBasis_eq_basis_iff reader settings count histories listingUnitsPerShare sharesBasis documents
        ruleset).mp hlive
    obtain ⟨-, rfl, rfl⟩ := hall history hhistory
    obtain ⟨shareBasis, hasOf, hclassed⟩ := shareCountAsOf_spec hown hfiled count.shares documents
      (shareCountConcepts ruleset).1 (shareCountConcepts ruleset).2
    refine ⟨shareBasis, hclassed filedFallback, ?_⟩
    have hfactor : splitFactorBetween history.events shareBasis.asOf count.closeSession =
        splitFactorBetween history.events basisDate count.closeSession := by
      by_cases hsame : splitFactorBetween history.events (min ownDate filed) count.closeSession =
          splitFactorBetween history.events (max ownDate filed) count.closeSession
      · exact factor_eq_of_dates hasOf (liveBasisDate_mem reader count documents ruleset hown hfiled hdate) hsame
      · -- a split between the two dates makes the live path class the count as the projector does
        simp only [liveBasisDate, factorPair, if_neg hsame, hclassed] at hdate
        have hsome : (if shareBasis.kind = .unrecognised then none else some shareBasis.asOf) = some basisDate :=
          Except.ok.inj hdate
        split_ifs at hsome
        rw [Option.some.inj hsome]
    have hnone : (none : Option String) ≠ some missingClassRatio := by decide
    simp only [onCloseBasis, if_neg hnone, if_neg (not_le.mpr hpos), hfactor]
  · rw [liveOnCloseBasis_eq_basis_iff, liveOnCloseBasis_eq_basis_iff]
    simp only [LiveBasis, hp.mem_iff]

def sampleReader : Reader where
  date text := if text = "2024-01-31" then some 738916 else if text = "2024-02-20" then some 738936 else none
  decimal text := if text = "1000" then some 1000 else none

def sampleSettings : LiveSettings where
  formats := ⟨fun _ => "2024-03-01", fun _ => "10", fun _ => "1.0000"⟩
  oldestSessionWithinLag date := date - 1

def sampleCover : FactEntry :=
  { filed := some "2024-02-20", «end» := some "2024-01-31", start := none, val := some "1000", form := some "10-K",
    accn := some "0000320193-24-000001", fy := some (.number 2023), fp := some "FY", segment := none, document := none }

def sampleDocument : CompanyFacts :=
  Dict.ofList [("dei", Dict.ofList [("EntityCommonStockSharesOutstanding", Dict.ofList [("shares", [sampleCover])])])]

def sampleRuleset : ConceptMappingRuleset :=
  ⟨[⟨"shares_outstanding", "shares", .fallback, [⟨"dei", "EntityCommonStockSharesOutstanding"⟩]⟩]⟩

def sampleCount : LiveShareCount where
  shares := 1000
  knowableAt := 5
  entry := some (Dict.ofList [("filed", ⟨true, "2024-02-20", "'2024-02-20'"⟩),
    ("period_end", ⟨true, "2024-01-31", "'2024-01-31'"⟩),
    ("accession", ⟨true, "0000320193-24-000001", "'0000320193-24-000001'"⟩)])
  closeSession := 738946
  closeKnowableAt := 9
  close := 10

def sampleHistory : SplitHistory := ⟨"ABC", [⟨"ABC", 738926, 2, 1⟩], 738000, 738946, 10⟩

theorem live_share_basis_agrees_sample :
    liveOnCloseBasis sampleReader sampleSettings sampleCount [.absent, .shown sampleHistory] (.units 1) none
        [sampleDocument] sampleRuleset = .ok (.basis ⟨2000, 9, 2⟩) ∧
      ∃ shareBasis, shareCountAsOf sampleReader sampleCount.entry sampleCount.shares [sampleDocument]
          (shareCountConcepts sampleRuleset).1 (shareCountConcepts sampleRuleset).2 0 = .ok shareBasis ∧
        onCloseBasis sampleSettings.formats sampleCount.shares sampleCount.knowableAt shareBasis.asOf
          sampleCount.closeSession sampleCount.closeKnowableAt sampleHistory.events (.units 1) none = .basis ⟨2000, 9, 2⟩ := by
  have hlive : liveOnCloseBasis sampleReader sampleSettings sampleCount [.absent, .shown sampleHistory] (.units 1) none
      [sampleDocument] sampleRuleset = .ok (.basis ⟨2000, 9, 2⟩) := by
    decide +kernel
  exact ⟨hlive, (live_share_basis_agrees sampleReader sampleSettings sampleCount [.absent, .shown sampleHistory]
    (.units 1) none [sampleDocument] sampleRuleset).1 _ hlive sampleHistory (by simp) 0⟩

end TrueAlpha.Datahub
