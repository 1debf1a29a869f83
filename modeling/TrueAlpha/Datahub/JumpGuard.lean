import Mathlib.Tactic.Linarith
import TrueAlpha.Datahub.ShareBasisAgreement

/-!
# The jump guard of the live share basis

Series that end one session before a close speak for it only within a factor of the last stored one
(`unseen_split_refused_iff`).  The guard compares all listings of the issuer, so price levels alone can refuse
(`no_jump_refusal_iff`).
-/

namespace TrueAlpha.Datahub

open Backtest (splitFactorBetween)

section

variable {settings : LiveSettings} {earliest : Date} {count : LiveShareCount} {history : SplitHistory}

def EndsOneBefore (settings : LiveSettings) (closeSession : Date) (history : SplitHistory) : Prop :=
  history.lastSession = settings.oldestSessionWithinLag closeSession ∧ history.lastSession < closeSession

def InsideLimit (last close : ℚ) : Prop := last < close * closeJumpLimit ∧ close < last * closeJumpLimit

instance (last close : ℚ) : Decidable (InsideLimit last close) := inferInstanceAs (Decidable (_ ∧ _))

def closeJumpBeyondSeries : String := "close_jump_beyond_series"

theorem closeSideGap_spec (hone : EndsOneBefore settings count.closeSession history) (hlast : 0 < history.lastUnadjustedClose) :
    (InsideLimit history.lastUnadjustedClose count.close ∧ closeSideGap settings history count = .ok none) ∨
    (¬ InsideLimit history.lastUnadjustedClose count.close ∧
      ∃ detail, closeSideGap settings history count = .ok (some ⟨closeJumpBeyondSeries, detail⟩)) := by
  have hlag : ¬ history.lastSession < settings.oldestSessionWithinLag count.closeSession := by
    rw [hone.1]
    exact lt_irrefl _
  simp only [closeSideGap, InsideLimit]
  rw [if_neg (not_le.mpr hone.2), if_neg hlag]
  split_ifs with hinside hzero
  · exact Or.inl ⟨hinside, rfl⟩
  · exact absurd hzero hlast.ne'
  · exact Or.inr ⟨hinside, _, rfl⟩

theorem closeSideGap_eq_none_iff (hone : EndsOneBefore settings count.closeSession history)
    (hlast : 0 < history.lastUnadjustedClose) :
    closeSideGap settings history count = .ok none ↔ InsideLimit history.lastUnadjustedClose count.close := by
  rcases closeSideGap_spec hone hlast with ⟨hinside, hnone⟩ | ⟨hinside, detail, hgap⟩
  · exact iff_of_true hnone hinside
  · refine iff_of_false (fun hnone => ?_) hinside
    rw [hgap] at hnone
    cases hnone

end

structure UnseenSplit (settings : LiveSettings) (history : SplitHistory) (count : LiveShareCount)
    (factor move : ℚ) : Prop where
  oneBefore : EndsOneBefore settings count.closeSession history
  last_pos : 0 < history.lastUnadjustedClose
  factor_pos : 0 < factor
  splits : 3 / 2 ≤ factor ∨ factor ≤ 2 / 3
  small : |move| ≤ 1 / 10
  close_eq : count.close = history.lastUnadjustedClose * (1 + move) / factor

def StaysOutside (factor move : ℚ) : Prop := 3 / 2 * (1 + move) ≤ factor ∨ factor ≤ 2 / 3 * (1 + move)

variable {settings : LiveSettings} {count : LiveShareCount}

theorem UnseenSplit.insideLimit_iff {history : SplitHistory}
    {factor move : ℚ} (h : UnseenSplit settings history count factor move) :
    InsideLimit history.lastUnadjustedClose count.close ↔ ¬ StaysOutside factor move := by
  have hlast := h.last_pos
  have hfactor := h.factor_pos
  have hlow : history.lastUnadjustedClose < count.close * closeJumpLimit ↔ factor < 3 / 2 * (1 + move) := by
    rw [h.close_eq, closeJumpLimit, div_mul_eq_mul_div, lt_div_iff₀ hfactor, mul_assoc, mul_lt_mul_iff_right₀ hlast,
      mul_comm (1 + move)]
  have hhigh : count.close < history.lastUnadjustedClose * closeJumpLimit ↔ 2 / 3 * (1 + move) < factor := by
    rw [h.close_eq, closeJumpLimit, div_lt_iff₀ hfactor, mul_assoc, mul_lt_mul_iff_right₀ hlast]
    constructor <;> intro hlt <;> linarith
  rw [InsideLimit, hlow, hhigh, StaysOutside, not_or, not_le, not_le]

/-- A split that the series do not show yet is refused exactly when the market's move leaves the close outside the limit. -/
theorem unseen_split_refused_iff {settings : LiveSettings} {history : SplitHistory} {count : LiveShareCount}
    {factor move : ℚ} (h : UnseenSplit settings history count factor move) :
    ((∃ gap, closeSideGap settings history count = .ok (some gap)) ↔ StaysOutside factor move) ∧
    (StaysOutside factor move → ∀ (reader : Reader) (histories : List ListingHistory), .shown history ∈ histories →
      ∀ listingUnitsPerShare sharesBasis documents ruleset basis,
        liveOnCloseBasis reader settings count histories listingUnitsPerShare sharesBasis documents ruleset ≠
          .ok (.basis basis)) := by
  have hinside := h.insideLimit_iff
  refine ⟨?_, fun hout reader histories hshown units sharesBasis documents ruleset basis hlive => ?_⟩
  · rcases closeSideGap_spec h.oneBefore h.last_pos with ⟨hin, hnone⟩ | ⟨hout, detail, hgap⟩
    · refine iff_of_false ?_ (hinside.mp hin)
      rintro ⟨gap, hgap⟩
      rw [hnone] at hgap
      cases hgap
    · exact iff_of_true ⟨_, hgap⟩ (not_not.mp (mt hinside.mpr hout))
  · rw [liveOnCloseBasis_eq_basis_iff] at hlive
    obtain ⟨-, -, _, _, _, _, _, -, -, -, -, -, -, hall⟩ := hlive
    have hnone := (hall history hshown).1.2
    rw [closeSideGap_eq_none_iff h.oneBefore h.last_pos, hinside] at hnone
    exact hnone hout

def dayBefore (symbol : String) (last : ℚ) : SplitHistory := ⟨symbol, [], 738000, 738945, last⟩

def countAt (close : ℚ) : LiveShareCount := { sampleCount with close }

theorem endsOneBefore_dayBefore (symbol : String) (last : ℚ) :
    EndsOneBefore sampleSettings (738946 : Date) (dayBefore symbol last) :=
  ⟨rfl, show (738945 : Date) < 738946 by decide⟩

/-- A ten-for-one split on a day without a move is refused, and no basis is returned. -/
theorem unseen_split_refused_ten_for_one :
    (∃ gap, closeSideGap sampleSettings (dayBefore "NVDA" 400) (countAt 40) = .ok (some gap)) ∧
    ∀ basis, liveOnCloseBasis sampleReader sampleSettings (countAt 40) [.shown (dayBefore "NVDA" 400)] (.units 1) none
      [] sampleRuleset ≠ .ok (.basis basis) := by
  have hsplit : UnseenSplit sampleSettings (dayBefore "NVDA" 400) (countAt 40) 10 0 := {
    oneBefore := endsOneBefore_dayBefore "NVDA" 400
    last_pos := by norm_num [dayBefore]
    factor_pos := by norm_num
    splits := by norm_num
    small := by norm_num
    close_eq := by norm_num [dayBefore, countAt] }
  have hout : StaysOutside 10 0 := by norm_num [StaysOutside]
  have h := unseen_split_refused_iff hsplit
  exact ⟨h.1.mpr hout, fun basis => h.2 hout sampleReader _ List.mem_cons_self _ _ _ _ basis⟩

/-- A three-for-two split on a day that gains a tenth passes, with the count before the split. -/
theorem unseen_split_passes : ¬ ∀ (settings : LiveSettings) (history : SplitHistory) (count : LiveShareCount)
    (factor move : ℚ), UnseenSplit settings history count factor move →
    ∃ gap, closeSideGap settings history count = .ok (some gap) := by
  intro h
  have hsplit : UnseenSplit sampleSettings (dayBefore "ABC" 30) (countAt 22) (3 / 2) (1 / 10) := {
    oneBefore := endsOneBefore_dayBefore "ABC" 30
    last_pos := by norm_num [dayBefore]
    factor_pos := by norm_num
    splits := by norm_num
    small := by norm_num
    close_eq := by norm_num [dayBefore, countAt] }
  obtain ⟨gap, hgap⟩ := h sampleSettings (dayBefore "ABC" 30) (countAt 22) (3 / 2) (1 / 10) hsplit
  have hnone : closeSideGap sampleSettings (dayBefore "ABC" 30) (countAt 22) = .ok none := by decide +kernel
  rw [hnone] at hgap
  cases hgap

/-- The filed thousand shares stand beside a close after the split. -/
example : liveOnCloseBasis sampleReader sampleSettings (countAt 22) [.shown (dayBefore "ABC" 30)] (.units 1) none []
    sampleRuleset = .ok (.basis ⟨1000, 5, 1⟩) := by decide +kernel

/-! ## Listings on different price levels -/

structure CapturedListing where
  history : SplitHistory
  close : ℚ

/-- The series end one session before the close with the same splits, and every close is inside the limit of its listing's last
stored one. -/
structure QuietIssuer (settings : LiveSettings) (count : LiveShareCount) (listings : List CapturedListing) : Prop where
  oneBefore : ∀ listing ∈ listings, EndsOneBefore settings count.closeSession listing.history
  last_pos : ∀ listing ∈ listings, 0 < listing.history.lastUnadjustedClose
  sameSplits : ∀ listing ∈ listings, ∀ listing' ∈ listings, ∀ after, splitFactorBetween listing.history.events after
    count.closeSession = splitFactorBetween listing'.history.events after count.closeSession
  inside : ∀ listing ∈ listings, InsideLimit listing.history.lastUnadjustedClose listing.close
  own : ∃ listing ∈ listings, count.close = listing.close

def offLevel (earliest : Date) (close : ℚ) (history : SplitHistory) : Bool :=
  earliest < history.firstSession ∨ ¬ InsideLimit history.lastUnadjustedClose close

variable {histories : List SplitHistory}

theorem firstGap_jump_iff {earliest : Date} (hone : ∀ history ∈ histories, EndsOneBefore settings count.closeSession history)
    (hlast : ∀ history ∈ histories, 0 < history.lastUnadjustedClose) :
    (∃ gap, firstGap settings earliest count histories = .ok (some gap) ∧ gap.reason = closeJumpBeyondSeries) ↔
      ∃ history, histories.find? (offLevel earliest count.close) = some history ∧ history.firstSession ≤ earliest := by
  induction histories with
  | nil => simp [firstGap]
  | cons history rest ih =>
    have hrest := ih (fun other hother => hone other (List.mem_cons_of_mem _ hother))
      (fun other hother => hlast other (List.mem_cons_of_mem _ hother))
    rw [firstGap]
    by_cases hlate : earliest < history.firstSession
    · rw [if_pos hlate, List.find?_cons_of_pos (by simp [offLevel, hlate])]
      refine iff_of_false ?_ ?_
      · rintro ⟨gap, hgap, hreason⟩
        cases hgap
        have hother : "split_series_do_not_cover_the_window" ≠ closeJumpBeyondSeries := by decide
        exact hother hreason
      · rintro ⟨found, hfound, hstart⟩
        cases hfound
        exact absurd hlate (not_lt.mpr hstart)
    rw [if_neg hlate]
    rcases closeSideGap_spec (hone history List.mem_cons_self) (hlast history List.mem_cons_self) with
      ⟨hinside, hnone⟩ | ⟨hinside, detail, hgap⟩
    · rw [hnone, List.find?_cons_of_neg (by simp [offLevel, hlate, hinside])]
      exact hrest
    · rw [hgap, List.find?_cons_of_pos (by simp [offLevel, hinside])]
      exact iff_of_true ⟨_, rfl, rfl⟩ ⟨history, rfl, not_lt.mp hlate⟩

def RefusesJump (outcome : Except String BasisOutcome) : Prop :=
  ∃ gap, outcome = .ok (.unavailable gap) ∧ gap.reason = closeJumpBeyondSeries

theorem refusesJump_unavailable_iff {gap : Unavailable} :
    RefusesJump (.ok (.unavailable gap)) ↔ gap.reason = closeJumpBeyondSeries := by
  refine ⟨?_, fun hreason => ⟨gap, rfl, hreason⟩⟩
  rintro ⟨found, hfound, hreason⟩
  cases hfound
  exact hreason

theorem not_refusesJump_error (reason : String) : ¬ RefusesJump (.error reason) := by
  rintro ⟨gap, hgap, -⟩
  cases hgap

theorem not_refusesJump_onCloseBasis (formats : Formats) (value : ℚ) (knowableAt : Instant) (basisDate session : Date)
    (closeKnowableAt : Instant) (splits : List Backtest.SplitEvent) (units : ListingUnits)
    (sharesBasis : Option String) : ¬ RefusesJump (.ok (onCloseBasis formats value knowableAt basisDate session
      closeKnowableAt splits units sharesBasis)) := by
  have hclass : missingClassRatio ≠ closeJumpBeyondSeries := by decide
  have hratio : missingListingUnitRatio ≠ closeJumpBeyondSeries := by decide
  unfold onCloseBasis
  split_ifs
  · rwa [refusesJump_unavailable_iff]
  · cases units with
    | missing => rwa [refusesJump_unavailable_iff]
    | flag flag => rwa [refusesJump_unavailable_iff]
    | units ratio =>
      dsimp only
      split_ifs
      · rwa [refusesJump_unavailable_iff]
      · rintro ⟨gap, hgap, -⟩
        cases hgap

section

variable (reader : Reader) {settings : LiveSettings} {count : LiveShareCount} (listingUnitsPerShare : ListingUnits)
  (sharesBasis : Option String) (documents : List CompanyFacts) (ruleset : ConceptMappingRuleset)

theorem datedBasis_refusesJump_iff {first : SplitHistory} {rest : List SplitHistory} {ownDate filed : Date} :
    RefusesJump (datedBasis reader settings count first rest listingUnitsPerShare sharesBasis documents ruleset ownDate
      filed) ↔ ∃ gap, firstGap settings (min ownDate filed) count (first :: rest) = .ok (some gap) ∧
        gap.reason = closeJumpBeyondSeries := by
  rw [datedBasis]
  cases firstGap settings (min ownDate filed) count (first :: rest) with
  | error reason =>
    refine iff_of_false (not_refusesJump_error reason) ?_
    rintro ⟨_, h, -⟩
    cases h
  | ok gap =>
    cases gap with
    | some gap =>
      rw [ok_bind]
      refine refusesJump_unavailable_iff.trans ⟨fun hreason => ⟨gap, rfl, hreason⟩, ?_⟩
      rintro ⟨found, hfound, hreason⟩
      cases hfound
      exact hreason
    | none =>
      refine iff_of_false ?_ (by rintro ⟨_, h, -⟩; cases h)
      rw [ok_bind]
      dsimp only
      split_ifs
      · rw [refusesJump_unavailable_iff]
        show "listings_disagree_on_splits" ≠ closeJumpBeyondSeries
        decide
      · cases liveBasisDate reader count documents ruleset filed (max ownDate filed)
          (factorPair (min ownDate filed) (max ownDate filed) count.closeSession first).1
          (factorPair (min ownDate filed) (max ownDate filed) count.closeSession first).2 with
        | error reason => exact not_refusesJump_error reason
        | ok basisDate =>
          rw [ok_bind]
          cases basisDate with
          | none =>
            dsimp only
            rw [refusesJump_unavailable_iff]
            show "share_basis_ambiguous" ≠ closeJumpBeyondSeries
            decide
          | some basisDate =>
            dsimp only
            exact not_refusesJump_onCloseBasis _ _ _ _ _ _ _ _ _

/-- A jump is refused exactly when the count passes the checks before the series and the first listing that is late or off the
close's level is not late. -/
theorem liveOnCloseBasis_refusesJump_iff
    (hone : ∀ history ∈ histories, EndsOneBefore settings count.closeSession history)
    (hlast : ∀ history ∈ histories, 0 < history.lastUnadjustedClose) :
    RefusesJump (liveOnCloseBasis reader settings count (histories.map .shown) listingUnitsPerShare sharesBasis documents
      ruleset) ↔ sharesBasis ≠ some missingClassRatio ∧ listingUnitsPerShare.unproven = false ∧
        ∃ ownDate filed, entryDate reader count.entry "period_end" = some ownDate ∧
          entryDate reader count.entry "filed" = some filed ∧
          ∃ history, histories.find? (offLevel (min ownDate filed) count.close) = some history ∧
            history.firstSession ≤ min ownDate filed := by
  have hgap : (histories.map ListingHistory.shown).filterMap ListingHistory.gap? = [] := by
    simp [ListingHistory.gap?]
  have hknown : (histories.map ListingHistory.shown).filterMap ListingHistory.known? = histories := by
    rw [List.filterMap_map]
    exact List.filterMap_some
  rw [liveOnCloseBasis]
  by_cases hclass : sharesBasis = some missingClassRatio
  · rw [if_pos hclass, refusesJump_unavailable_iff]
    exact iff_of_false (by decide) fun h => h.1 hclass
  rw [if_neg hclass]
  by_cases hunits : listingUnitsPerShare.unproven = true
  · rw [if_pos hunits, refusesJump_unavailable_iff]
    exact iff_of_false (by decide) fun h => by rw [hunits] at h; cases h.2.1
  rw [if_neg hunits, hgap, hknown]
  dsimp only
  cases histories with
  | nil =>
    dsimp only
    rw [refusesJump_unavailable_iff]
    exact iff_of_false (by decide) (by simp)
  | cons first rest =>
    dsimp only
    cases hown : entryDate reader count.entry "period_end" with
    | none =>
      dsimp only
      rw [refusesJump_unavailable_iff]
      have hother : "share_count_undated" ≠ closeJumpBeyondSeries := by decide
      exact iff_of_false hother (by simp)
    | some ownDate =>
      cases hfiled : entryDate reader count.entry "filed" with
      | none =>
        dsimp only
        rw [refusesJump_unavailable_iff]
        have hother : "share_count_undated" ≠ closeJumpBeyondSeries := by decide
        exact iff_of_false hother (by simp)
      | some filed =>
        dsimp only
        rw [datedBasis_refusesJump_iff, firstGap_jump_iff hone hlast]
        constructor
        · exact fun h => ⟨hclass, Bool.eq_false_iff.mpr hunits, ownDate, filed, rfl, rfl, h⟩
        · rintro ⟨-, -, ownDate', filed', hown', hfiled', h⟩
          cases hown'
          cases hfiled'
          exact h

end

theorem QuietIssuer.refusesJump_iff {listings : List CapturedListing}
    (h : QuietIssuer settings count listings) (reader : Reader) (listingUnitsPerShare : ListingUnits)
    (sharesBasis : Option String) (documents : List CompanyFacts) (ruleset : ConceptMappingRuleset) :
    RefusesJump (liveOnCloseBasis reader settings count (listings.map fun listing => .shown listing.history)
      listingUnitsPerShare sharesBasis documents ruleset) ↔
    sharesBasis ≠ some missingClassRatio ∧ listingUnitsPerShare.unproven = false ∧
      ∃ ownDate filed, entryDate reader count.entry "period_end" = some ownDate ∧
        entryDate reader count.entry "filed" = some filed ∧ ∃ history,
        (listings.map CapturedListing.history).find? (offLevel (min ownDate filed) count.close) = some history ∧
          history.firstSession ≤ min ownDate filed := by
  have hone : ∀ history ∈ listings.map CapturedListing.history, EndsOneBefore settings count.closeSession history :=
    List.forall_mem_map.mpr h.oneBefore
  have hlast : ∀ history ∈ listings.map CapturedListing.history, 0 < history.lastUnadjustedClose :=
    List.forall_mem_map.mpr h.last_pos
  have hiff := liveOnCloseBasis_refusesJump_iff reader listingUnitsPerShare sharesBasis documents ruleset hone hlast
  rwa [List.map_map] at hiff

/-- An issuer without a jump is not refused for one exactly when its count is refused before the series, or the first listing that
starts late or is off the close's level starts late. -/
theorem no_jump_refusal_iff (reader : Reader) {settings : LiveSettings} {count : LiveShareCount}
    {listings : List CapturedListing} (hquiet : QuietIssuer settings count listings)
    (listingUnitsPerShare : ListingUnits) (sharesBasis : Option String) (documents : List CompanyFacts)
    (ruleset : ConceptMappingRuleset) :
    ¬ RefusesJump (liveOnCloseBasis reader settings count (listings.map fun listing => .shown listing.history)
      listingUnitsPerShare sharesBasis documents ruleset) ↔
    sharesBasis = some missingClassRatio ∨ listingUnitsPerShare.unproven = true ∨
      ∀ ownDate filed, entryDate reader count.entry "period_end" = some ownDate →
        entryDate reader count.entry "filed" = some filed → ∀ history,
        (listings.map CapturedListing.history).find? (offLevel (min ownDate filed) count.close) = some history →
          min ownDate filed < history.firstSession := by
  rw [hquiet.refusesJump_iff]
  simp only [not_and_or, not_exists, not_not, ne_eq, Bool.not_eq_false, not_le, imp_iff_not_or]

def twoListings (last last' : ℚ) : List CapturedListing := [⟨dayBefore "ABC.A" last, last⟩, ⟨dayBefore "ABC.B" last', last'⟩]

theorem quietIssuer_twoListings {last last' : ℚ} (hlast : 0 < last) (hlast' : 0 < last') :
    QuietIssuer sampleSettings (countAt last') (twoListings last last') where
  oneBefore := by
    rw [twoListings, List.forall_mem_cons, List.forall_mem_singleton]
    exact ⟨endsOneBefore_dayBefore "ABC.A" last, endsOneBefore_dayBefore "ABC.B" last'⟩
  last_pos := by
    rw [twoListings, List.forall_mem_cons, List.forall_mem_singleton]
    exact ⟨hlast, hlast'⟩
  sameSplits := by simp [twoListings, dayBefore]
  inside := by
    rw [twoListings, List.forall_mem_cons, List.forall_mem_singleton]
    simp only [InsideLimit, closeJumpLimit, dayBefore]
    constructor <;> constructor <;> linarith
  own := ⟨⟨dayBefore "ABC.B" last', last'⟩, by simp [twoListings], rfl⟩

theorem entryDate_countAt (close : ℚ) : entryDate sampleReader (countAt close).entry "period_end" = some 738916 ∧
    entryDate sampleReader (countAt close).entry "filed" = some 738936 := by
  show entryDate sampleReader sampleCount.entry "period_end" = some 738916 ∧
    entryDate sampleReader sampleCount.entry "filed" = some 738936
  decide +kernel

/-- Two listings on one price level are not refused. -/
theorem no_jump_refusal_one_level : ¬ RefusesJump (liveOnCloseBasis sampleReader sampleSettings (countAt 105)
    ((twoListings 100 105).map fun listing => .shown listing.history) (.units 1) none [] sampleRuleset) := by
  have hquiet := quietIssuer_twoListings (show (0 : ℚ) < 100 by norm_num) (show (0 : ℚ) < 105 by norm_num)
  refine (no_jump_refusal_iff sampleReader hquiet (.units 1) none [] sampleRuleset).mpr (Or.inr (Or.inr ?_))
  intro ownDate filed hown hfiled history hfound
  rw [(entryDate_countAt 105).1] at hown
  rw [(entryDate_countAt 105).2] at hfiled
  cases hown
  cases hfiled
  have hnone : ((twoListings 100 105).map CapturedListing.history).find?
      (offLevel (min 738916 738936) (countAt 105).close) = none := by decide +kernel
  rw [hnone] at hfound
  cases hfound

/-- The close of one listing is a jump from the last stored close of another one. -/
theorem quiet_issuer_refused : ¬ ∀ (reader : Reader) (settings : LiveSettings) (count : LiveShareCount)
    (listings : List CapturedListing) (listingUnitsPerShare : ListingUnits) (sharesBasis : Option String)
    (documents : List CompanyFacts) (ruleset : ConceptMappingRuleset), QuietIssuer settings count listings →
    ¬ RefusesJump (liveOnCloseBasis reader settings count (listings.map fun listing => .shown listing.history)
      listingUnitsPerShare sharesBasis documents ruleset) := by
  intro h
  have hquiet := quietIssuer_twoListings (show (0 : ℚ) < 600000 by norm_num) (show (0 : ℚ) < 400 by norm_num)
  refine h sampleReader sampleSettings (countAt 400) (twoListings 600000 400) (.units 1) none [] sampleRuleset hquiet ?_
  rw [hquiet.refusesJump_iff]
  refine ⟨by decide, by decide +kernel, 738916, 738936, (entryDate_countAt 400).1, (entryDate_countAt 400).2,
    dayBefore "ABC.A" 600000, by decide +kernel, ?_⟩
  show (738000 : Date) ≤ min 738916 738936
  decide

end TrueAlpha.Datahub
