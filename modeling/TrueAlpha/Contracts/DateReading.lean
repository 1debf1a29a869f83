import TrueAlpha.Contracts.DateText

/-!
# Which texts are dates

A date has one year, month and day, and digits spell one number.  So of the texts `dddd-dd-dd`, `fromIsoFormat` reads exactly
those that `isoFormat` writes (`isoChars_of_fromIsoFormat`).
-/

namespace TrueAlpha

section

variable {year month day year' month' day' : ℕ} {date : ℤ}

theorem daysBeforeYear_succ (hyear : 1 ≤ year) : daysBeforeYear (year + 1) = daysBeforeYear year + daysBeforeMonth year 13 := by
  obtain ⟨n, rfl⟩ : ∃ n, year = n + 1 := ⟨year - 1, by omega⟩
  have h4 := Nat.succ_div (a := n) (b := 4)
  have h100 := Nat.succ_div (a := n) (b := 100)
  have h400 := Nat.succ_div (a := n) (b := 400)
  have hle : n / 100 ≤ n / 4 := Nat.div_le_div_left (by omega) (by omega)
  have hleap : isLeap (n + 1) = true ↔ 4 ∣ n + 1 ∧ (¬ 100 ∣ n + 1 ∨ 400 ∣ n + 1) := by
    simp only [isLeap_iff, Nat.dvd_iff_mod_eq_zero, ne_eq]
  have hfour : 100 ∣ n + 1 → 4 ∣ n + 1 := fun h => (show 4 ∣ 100 by decide).trans h
  have hhundred : 400 ∣ n + 1 → 100 ∣ n + 1 := fun h => (show 100 ∣ 400 by decide).trans h
  rw [daysBeforeMonth_thirteen, daysBeforeYear, daysBeforeYear, Nat.add_sub_cancel, Nat.add_sub_cancel, h4, h100, h400]
  simp only [hleap]
  by_cases hd4 : 4 ∣ n + 1
  · by_cases hd100 : 100 ∣ n + 1
    · by_cases hd400 : 400 ∣ n + 1
      · simp only [hd4, hd100, hd400, if_true, not_true_eq_false, or_true, and_self]
        omega
      · simp only [hd4, hd100, hd400, if_true, if_false, not_true_eq_false, or_self, and_false]
        omega
    · simp only [hd4, hd100, mt hhundred hd100, if_true, if_false, not_false_eq_true, true_or, and_self]
      omega
  · simp only [hd4, mt hfour hd4, mt hhundred (mt hfour hd4), if_false, false_and]
    omega

theorem daysBeforeYear_mono (hyear : 1 ≤ year) (hle : year ≤ year') : daysBeforeYear year ≤ daysBeforeYear year' := by
  induction year', hle using Nat.le_induction with
  | base => exact le_rfl
  | succ later hle ih =>
    rw [daysBeforeYear_succ (by omega)]
    omega

theorem dateOf_eq_some_iff : dateOf year month day = some date ↔
    (1 ≤ year ∧ year ≤ 9999 ∧ 1 ≤ month ∧ month ≤ 12 ∧ 1 ≤ day ∧ day ≤ daysInMonth year month) ∧
      date = daysBeforeYear year + daysBeforeMonth year month + day := by
  unfold dateOf
  split_ifs with hvalid
  · rw [Option.some.injEq, and_iff_right hvalid, eq_comm]
    rfl
  · simp [hvalid]

theorem day_le (hmonth : 1 ≤ month ∧ month ≤ 12) (hday : day ≤ daysInMonth year month) :
    daysBeforeMonth year month + day ≤ daysBeforeMonth year (month + 1) ∧
      daysBeforeMonth year (month + 1) ≤ daysBeforeMonth year 13 := by
  have hnext := daysBeforeMonth_succ year hmonth.1
  have hlast := daysBeforeMonth_mono year (show 1 ≤ month + 1 by omega) (show month + 1 ≤ 13 by omega)
  omega

/-- Dates follow their years, and in one year their months. -/
theorem dateOf_lt {date' : ℤ} (h : dateOf year month day = some date) (h' : dateOf year' month' day' = some date')
    (hlt : year < year' ∨ year = year' ∧ month < month') : date < date' := by
  obtain ⟨⟨hyear, -, hmonth, htwelve, -, hday⟩, rfl⟩ := dateOf_eq_some_iff.mp h
  obtain ⟨⟨-, -, -, -, hfirst, -⟩, rfl⟩ := dateOf_eq_some_iff.mp h'
  have hin := day_le ⟨hmonth, htwelve⟩ hday
  rcases hlt with hlt | ⟨rfl, hlt⟩
  · have hnext := daysBeforeYear_succ hyear
    have hmono := daysBeforeYear_mono (show 1 ≤ year + 1 by omega) hlt
    omega
  · have hmono := daysBeforeMonth_mono year (show 1 ≤ month + 1 by omega) hlt
    omega

section

variable (h : dateOf year month day = some date)

include h

theorem dateOf_inj (h' : dateOf year' month' day' = some date) : year = year' ∧ month = month' ∧ day = day' := by
  obtain rfl : year = year' := by
    rcases lt_trichotomy year year' with hlt | heq | hlt
    exacts [absurd (dateOf_lt h h' (.inl hlt)) (lt_irrefl _), heq, absurd (dateOf_lt h' h (.inl hlt)) (lt_irrefl _)]
  obtain rfl : month = month' := by
    rcases lt_trichotomy month month' with hlt | heq | hlt
    exacts [absurd (dateOf_lt h h' (.inr ⟨rfl, hlt⟩)) (lt_irrefl _), heq,
      absurd (dateOf_lt h' h (.inr ⟨rfl, hlt⟩)) (lt_irrefl _)]
  have hday := (dateOf_eq_some_iff.mp h).2.symm.trans (dateOf_eq_some_iff.mp h').2
  omega

theorem range_of_dateOf : 1 ≤ date ∧ date ≤ lastDate := by
  obtain ⟨⟨hyear, hmax, hmonth, htwelve, hfirst, hday⟩, rfl⟩ := dateOf_eq_some_iff.mp h
  have hin := day_le ⟨hmonth, htwelve⟩ hday
  have hnext := daysBeforeYear_succ hyear
  have hmono := daysBeforeYear_mono (show 1 ≤ year + 1 by omega) (show year + 1 ≤ 10000 by omega)
  have hlast : (lastDate : ℤ) = 3652059 := by decide +kernel
  have hend : daysBeforeYear 10000 = 3652059 := by decide +kernel
  rw [hlast]
  omega

theorem fromOrdinal_dateOf : fromOrdinal date = (year, month, day) := by
  obtain ⟨hmin, hmax⟩ := range_of_dateOf h
  obtain ⟨hyear, hmonth, hday⟩ := dateOf_inj (dateOf_fromOrdinal hmin hmax) h
  rw [← hyear, ← hmonth, ← hday]

end

end

section

variable {width n : ℕ} {rest : List Char}

theorem fixedDigits_succ {d : ℕ} (hd : d < 10) (h : n < 10 ^ width) :
    fixedDigits (width + 1) (d * 10 ^ width + n) = Nat.digitChar d :: fixedDigits width n := by
  induction width generalizing n with
  | zero =>
    obtain rfl : n = 0 := by simpa using h
    simp [fixedDigits, Nat.mod_eq_of_lt hd]
  | succ width ih =>
    have hmul : d * 10 ^ (width + 1) = 10 * (d * 10 ^ width) := by ring
    have hdiv : (d * 10 ^ (width + 1) + n) / 10 = d * 10 ^ width + n / 10 := by
      rw [hmul]
      omega
    have hmod : (d * 10 ^ (width + 1) + n) % 10 = n % 10 := by
      rw [hmul]
      omega
    have hlt : n / 10 < 10 ^ width := by
      rw [pow_succ] at h
      omega
    rw [fixedDigits, hdiv, hmod, ih hlt, List.cons_append]
    rfl

theorem digitChar_of_isDigit {c : Char} (h : c.isDigit = true) :
    c.toNat - '0'.toNat < 10 ∧ Nat.digitChar (c.toNat - '0'.toNat) = c := by
  have hrange : 48 ≤ c.toNat ∧ c.toNat ≤ 57 := by
    simp only [Char.isDigit, Bool.and_eq_true, decide_eq_true_eq, ge_iff_le, UInt32.le_iff_toNat_le] at h
    exact h
  have hzero : '0'.toNat = 48 := rfl
  refine ⟨by omega, Char.toNat_inj.mp ?_⟩
  rw [Nat.toNat_digitChar_of_lt_ten (by omega)]
  omega

theorem eq_of_parseDigits {l : List Char} (h : parseDigits width l = some (n, rest)) :
    n < 10 ^ width ∧ l = fixedDigits width n ++ rest := by
  induction width generalizing l n with
  | zero =>
    cases h
    simp [fixedDigits]
  | succ width ih =>
    cases l with
    | nil => cases h
    | cons c l =>
      rw [parseDigits] at h
      split_ifs at h with hdigit
      obtain ⟨⟨n', rest'⟩, hparsed, hpair⟩ := Option.map_eq_some_iff.mp h
      obtain ⟨rfl, rfl⟩ := Prod.mk.inj hpair
      obtain ⟨hlt, rfl⟩ := ih hparsed
      obtain ⟨hten, hchar⟩ := digitChar_of_isDigit hdigit
      refine ⟨?_, by rw [fixedDigits_succ hten hlt, hchar, List.cons_append]⟩
      have hmul : (c.toNat - '0'.toNat) * 10 ^ width ≤ 9 * 10 ^ width := Nat.mul_le_mul_right _ (by omega)
      rw [pow_succ]
      dsimp only
      omega

end

/-- The shape `dddd-dd-dd`, over any decimal digits. -/
def IsDateShape (text : List Char) : Prop := ∃ year month day : List Char, text = year ++ '-' :: (month ++ '-' :: day) ∧
    year.length = 4 ∧ month.length = 2 ∧ day.length = 2 ∧ ∀ c ∈ year ++ month ++ day, (digitValue c).isSome = true

theorem isDateShape_isoChars (date : ℤ) : IsDateShape (isoChars date) := by
  refine ⟨_, _, _, rfl, length_fixedDigits _ _, length_fixedDigits _ _, length_fixedDigits _ _, fun c hc => ?_⟩
  simp only [List.mem_append] at hc
  obtain (hc | hc) | hc := hc
  all_goals exact digitValue_of_isDigit (isDigit_of_mem_fixedDigits hc)

theorem isoChars_of_fromIsoFormat {text : String} {date : ℤ} (hshape : IsDateShape text.toList)
    (h : fromIsoFormat text = some date) : 1 ≤ date ∧ date ≤ lastDate ∧ text.toList = isoChars date := by
  obtain ⟨year, month, day, htext, hyear, hmonth, hday, hdigits⟩ := hshape
  unfold fromIsoFormat at h
  split_ifs at h with hsize
  simp only [Option.bind_eq_bind, Option.bind_eq_some_iff] at h
  obtain ⟨⟨y, rest⟩, hparsed, h⟩ := h
  obtain ⟨-, hsplit⟩ := eq_of_parseDigits hparsed
  rw [htext] at hsplit
  obtain ⟨rfl, rfl⟩ := List.append_inj hsplit (by rw [hyear, length_fixedDigits])
  -- a month starts with a digit, so the text is not one of a week
  have hweek : (month ++ '-' :: day).head? ≠ some 'W' := by
    intro hhead
    have hne : month ≠ [] := List.ne_nil_of_length_pos (by omega)
    rw [List.head?_append_of_ne_nil _ hne] at hhead
    have hmem := List.mem_of_head? hhead
    exact absurd (hdigits 'W' (by simp [hmem])) (by decide)
  simp only [List.head?_cons, decide_true, if_true, List.tail_cons, if_neg hweek, Option.bind_eq_some_iff] at h
  obtain ⟨⟨m, rest⟩, hparsed, h⟩ := h
  obtain ⟨-, hsplit⟩ := eq_of_parseDigits hparsed
  obtain ⟨rfl, rfl⟩ := List.append_inj hsplit (by rw [hmonth, length_fixedDigits])
  obtain ⟨after, hseparator, ⟨d, rest⟩, hparsed, hdate⟩ := h
  obtain rfl : day = after := Option.some.inj hseparator
  obtain ⟨-, hsplit⟩ := eq_of_parseDigits hparsed
  have hrest : rest = [] := by
    have hlength := congrArg List.length hsplit
    rw [List.length_append, length_fixedDigits, hday] at hlength
    exact List.length_eq_zero_iff.mp (by omega)
  subst hrest
  rw [List.append_nil] at hsplit
  obtain ⟨hmin, hmax⟩ := range_of_dateOf hdate
  refine ⟨hmin, hmax, ?_⟩
  rw [htext, hsplit, isoChars, fromOrdinal_dateOf hdate]

end TrueAlpha
