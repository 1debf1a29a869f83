import TrueAlpha.Contracts.TagLanguage

/-!
# The tags of `encode_annual`

A tag of a four-digit year is read back as the period that ends at its date (`parseAnnual_encoded`), and two tags are one
exactly when their ends and their filing years are (`encodeAnnual_eq_iff`).
-/

namespace TrueAlpha

section

variable {year year' month day : ℕ} {finish : ℤ}

theorem daysBeforeMonth_eq (year : ℕ) (hmonth : 1 ≤ month) :
    daysBeforeMonth year month = daysBeforeMonth 1 month + if 2 < month ∧ isLeap year = true then 1 else 0 := by
  induction month, hmonth using Nat.le_induction with
  | base => rfl
  | succ month hmonth ih =>
    have hdays : daysInMonth year month = daysInMonth 1 month + if month = 2 ∧ isLeap year = true then 1 else 0 := by
      have hone : isLeap 1 = false := by decide
      unfold daysInMonth
      by_cases hfeb : month = 2
      · cases hleap : isLeap year <;> simp [hfeb, hone]
      · simp [hfeb]
    rw [daysBeforeMonth_succ year hmonth, daysBeforeMonth_succ 1 hmonth, ih, hdays]
    cases isLeap year
    · simp
    · simp only [and_true]
      split_ifs <;> omega

theorem daysBeforeMonth_le (hmonth : 1 ≤ month) : daysBeforeMonth year month ≤ daysBeforeMonth year' month + 1 := by
  rw [daysBeforeMonth_eq year hmonth, daysBeforeMonth_eq year' hmonth]
  split_ifs <;> omega

def priorOf (finish : ℤ) : Option Date :=
  (dateOf ((fromOrdinal finish).1 - 1) (fromOrdinal finish).2.1 (fromOrdinal finish).2.2).or
    (dateOf ((fromOrdinal finish).1 - 1) (fromOrdinal finish).2.1 28)

theorem exists_priorOf (h : dateOf year month day = some finish) (hyear : 2 ≤ year) :
    ∃ prior : ℤ, priorOf finish = some prior ∧ (1 ≤ prior + 1 ∧ prior + 1 ≤ lastDate) ∧
      annualMinimumDays ≤ finish - (prior + 1) := by
  obtain ⟨⟨-, hmax, hmonth, htwelve, hday, hlast⟩, hfinish⟩ := dateOf_eq_some_iff.mp h
  have hyears : daysBeforeYear year = daysBeforeYear (year - 1) + daysBeforeMonth (year - 1) 13 := by
    rw [← daysBeforeYear_succ (by omega), Nat.sub_add_cancel (by omega)]
  have hlong : 365 ≤ daysBeforeMonth (year - 1) 13 := by
    rw [daysBeforeMonth_thirteen]
    split_ifs <;> omega
  have hmonths := @daysBeforeMonth_le (year - 1) year month hmonth
  -- a date of the year before in the same month, not after the same day
  have hprior : ∀ d, d ≤ day → ∀ prior : ℤ, dateOf (year - 1) month d = some prior →
      (1 ≤ prior + 1 ∧ prior + 1 ≤ lastDate) ∧ annualMinimumDays ≤ finish - (prior + 1) := by
    intro d hd prior hprior
    refine ⟨succ_le_lastDate hprior (by omega), ?_⟩
    obtain ⟨-, heq⟩ := dateOf_eq_some_iff.mp hprior
    have hminimum : annualMinimumDays = 350 := rfl
    rw [hminimum]
    omega
  unfold priorOf
  rw [fromOrdinal_dateOf h]
  dsimp only
  by_cases hsame : day ≤ daysInMonth (year - 1) month
  · obtain ⟨prior, hdate⟩ : ∃ prior, dateOf (year - 1) month day = some prior :=
      ⟨_, dateOf_eq_some_iff.mpr ⟨⟨by omega, by omega, hmonth, htwelve, hday, hsame⟩, rfl⟩⟩
    exact ⟨prior, by rw [hdate]; rfl, hprior day le_rfl prior hdate⟩
  · have hnone : dateOf (year - 1) month day = none := by
      unfold dateOf
      rw [if_neg fun hvalid => hsame hvalid.2.2.2.2.2]
    have hlength : 28 ≤ daysInMonth (year - 1) month := by
      unfold daysInMonth
      split_ifs <;> omega
    obtain ⟨prior, hdate⟩ : ∃ prior, dateOf (year - 1) month 28 = some prior :=
      ⟨_, dateOf_eq_some_iff.mpr ⟨⟨by omega, by omega, hmonth, htwelve, by omega, hlength⟩, rfl⟩⟩
    exact ⟨prior, by rw [hnone, hdate]; rfl, hprior 28 (by omega) prior hdate⟩

end

section

variable {finish finish' : ℤ} {filingFiscalYear filingFiscalYear' : Option ℤ} {tag tag' : String}

def filingYear (finish : ℤ) (filingFiscalYear : Option ℤ) : ℤ := filingFiscalYear.getD (fromOrdinal finish).1

theorem encodeAnnual_eq (finish : ℤ) (filingFiscalYear : Option ℤ) :
    encodeAnnual finish filingFiscalYear = (priorOf finish).map fun prior =>
      "FY" ++ toString (filingYear finish filingFiscalYear) ++ ":FY:" ++ isoFormat (prior + 1) ++ ":" ++ isoFormat finish := by
  unfold encodeAnnual priorOf filingYear
  rcases fromOrdinal finish with ⟨year, month, day⟩
  dsimp only
  cases (dateOf (year - 1) month day).or (dateOf (year - 1) month 28) <;> rfl

theorem toList_encoded (hfinish : 1 ≤ finish ∧ finish ≤ lastDate) (h : encodeAnnual finish filingFiscalYear = some tag) :
    ∃ prior : ℤ, priorOf finish = some prior ∧ tag.toList = 'F' :: 'Y' ::
      ((toString (filingYear finish filingFiscalYear)).toList ++ ':' :: 'F' :: 'Y' :: ':' ::
        (isoChars (prior + 1) ++ ':' :: isoChars finish)) := by
  have hyear := (fromOrdinal_lt hfinish.1 hfinish.2).1
  rw [encodeAnnual_eq] at h
  obtain ⟨prior, hprior, rfl⟩ := Option.map_eq_some_iff.mp h
  have hnext : 1 ≤ (prior : ℤ) + 1 ∧ (prior : ℤ) + 1 ≤ lastDate := by
    obtain hsame | ⟨-, hleap⟩ := Option.or_eq_some_iff.mp hprior
    · exact succ_le_lastDate hsame (by omega)
    · exact succ_le_lastDate hleap (by omega)
  refine ⟨prior, hprior, ?_⟩
  simp [String.toList_append, toList_isoFormat hfinish.1 hfinish.2, toList_isoFormat hnext.1 hnext.2]

theorem toList_toString_of_four {n : ℤ} (hn : 1000 ≤ n ∧ n ≤ 9999) : (toString n).toList = fixedDigits 4 n.toNat := by
  obtain ⟨m, rfl⟩ : ∃ m : ℕ, n = m := ⟨n.toNat, by omega⟩
  have hlength : (Nat.toDigits 10 m).length = 4 := by
    have hle := (@Nat.length_toDigits_le_iff 10 m 4 (by omega) (by omega)).mpr (by omega)
    have hgt := mt (@Nat.length_toDigits_le_iff 10 m 3 (by omega) (by omega)).mp (by omega)
    omega
  have htoString : (toString (m : ℤ)).toList = Nat.toDigits 10 m := Nat.toList_repr
  have hpadded := toList_padded (show 1 ≤ 4 by omega) (show m < 10 ^ 4 by omega)
  rw [htoString, Int.toNat_natCast, ← hpadded]
  simp [padded, Nat.toString_eq_repr, ← String.length_toList, hlength]

theorem fixedDigits_inj {width n n' : ℕ} (h : n < 10 ^ width) (h' : n' < 10 ^ width)
    (heq : fixedDigits width n = fixedDigits width n') : n = n' := by
  have hread := parseDigits_fixedDigits h []
  rw [heq, parseDigits_fixedDigits h' []] at hread
  exact (Prod.mk.inj (Option.some.inj hread)).1.symm

theorem isoChars_inj (h : 1 ≤ finish ∧ finish ≤ lastDate) (h' : 1 ≤ finish' ∧ finish' ≤ lastDate)
    (heq : isoChars finish = isoChars finish') : finish = finish' := by
  have hread := fromIsoFormat_isoChars h.1 h.2
  rw [heq, fromIsoFormat_isoChars h'.1 h'.2] at hread
  exact (Option.some.inj hread).symm

theorem parseAnnual_encoded {year month day : ℕ} (hdate : dateOf year month day = some finish) (hyear : 1000 ≤ year)
    (hfiling : ∀ filing ∈ filingFiscalYear, 1000 ≤ filing ∧ filing ≤ 9999) :
    ∃ tag period, encodeAnnual finish filingFiscalYear = some tag ∧ parseAnnual tag = .ok (some period) ∧
      period.isAnnual = true ∧ period.finish = finish := by
  have hfinish := range_of_dateOf hdate
  have hmax := (dateOf_eq_some_iff.mp hdate).1.2.1
  obtain ⟨prior, hprior, hnext, hdays⟩ := exists_priorOf hdate (by omega)
  have hfour : 1000 ≤ filingYear finish filingFiscalYear ∧ filingYear finish filingFiscalYear ≤ 9999 := by
    unfold filingYear
    cases filingFiscalYear with
    | none =>
      rw [Option.getD_none, fromOrdinal_dateOf hdate]
      dsimp only
      omega
    | some filing => exact hfiling filing rfl
  have hencode := encodeAnnual_eq finish filingFiscalYear
  rw [hprior, Option.map_some] at hencode
  obtain ⟨prior', hprior', htag⟩ := toList_encoded hfinish hencode
  obtain rfl := Option.some.inj (hprior.symm.trans hprior')
  rw [toList_toString_of_four hfour] at htag
  have hparts := IsAnnualTag.isTag htag (length_fixedDigits _ _) fun _ hc => isDigit_of_mem_fixedDigits hc
  have hannual : (⟨intOfDigits (fixedDigits 4 (filingYear finish filingFiscalYear).toNat), "FY", prior + 1, finish⟩ :
      FiscalPeriod).isAnnual = true := decide_eq_true ⟨rfl, hdays⟩
  refine ⟨_, _, hencode, ?_, hannual, rfl⟩
  unfold parseAnnual
  rw [hparts.matchTag_eq]
  dsimp only
  rw [fromIsoFormat_isoChars hnext.1 hnext.2, fromIsoFormat_isoChars hfinish.1 hfinish.2]
  dsimp only
  exact congrArg Except.ok (if_pos hannual)

theorem encodeAnnual_eq_iff (hfinish : 1 ≤ finish ∧ finish ≤ lastDate) (hfinish' : 1 ≤ finish' ∧ finish' ≤ lastDate)
    (hfiling : 1000 ≤ filingYear finish filingFiscalYear ∧ filingYear finish filingFiscalYear ≤ 9999)
    (hfiling' : 1000 ≤ filingYear finish' filingFiscalYear' ∧ filingYear finish' filingFiscalYear' ≤ 9999)
    (h : encodeAnnual finish filingFiscalYear = some tag) (h' : encodeAnnual finish' filingFiscalYear' = some tag') :
    tag = tag' ↔ finish = finish' ∧ filingYear finish filingFiscalYear = filingYear finish' filingFiscalYear' := by
  obtain ⟨prior, -, htag⟩ := toList_encoded hfinish h
  obtain ⟨prior', -, htag'⟩ := toList_encoded hfinish' h'
  constructor
  · rintro rfl
    rw [htag, List.cons.injEq, List.cons.injEq] at htag'
    obtain ⟨hyears, hrest⟩ := eq_of_append_mark (colon_not_mem_toString _) (colon_not_mem_toString _) htag'.2.2
    rw [toList_toString_of_four hfiling, toList_toString_of_four hfiling'] at hyears
    have hyear := fixedDigits_inj (by omega) (by omega) hyears
    simp only [List.cons.injEq, true_and] at hrest
    obtain ⟨-, hends⟩ := List.append_inj hrest (by simp [isoChars])
    exact ⟨isoChars_inj hfinish hfinish' (List.cons.inj hends).2, by omega⟩
  · rintro ⟨rfl, hyear⟩
    rw [encodeAnnual_eq, hyear, ← encodeAnnual_eq, h'] at h
    exact (Option.some.inj h).symm

end

end TrueAlpha
