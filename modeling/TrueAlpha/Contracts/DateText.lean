import Mathlib.Data.List.Range
import Mathlib.Tactic.Ring
import TrueAlpha.Contracts.FiscalPeriod

/-!
# The text of a date

`fromIsoFormat` reads back what `isoFormat` wrote (`fromIsoFormat_isoChars`), so a tag of `encodeAnnual` is read as the period
that ends at its date, or not at all (`parseAnnual_encodeAnnual`).
-/

namespace TrueAlpha

def lastDate : Date := ordinal 9999 12 31

section

variable {year month day : ℕ}

theorem daysBeforeMonth_succ (year : ℕ) (hmonth : 1 ≤ month) :
    daysBeforeMonth year (month + 1) = daysBeforeMonth year month + daysInMonth year month := by
  unfold daysBeforeMonth
  rw [List.range_succ, List.drop_append_of_le_length (by simpa using hmonth), List.map_append, List.sum_append]
  simp

theorem daysBeforeMonth_thirteen : daysBeforeMonth year 13 = if isLeap year then 366 else 365 := by
  have hrange : (List.range 13).drop 1 = [1, 2, 3, 4, 5, 6, 7, 8, 9, 10, 11, 12] := rfl
  unfold daysBeforeMonth
  rw [hrange]
  cases hleap : isLeap year <;> simp [daysInMonth, hleap]

theorem monthAndDay_spec (fuel : ℕ) : ∀ {month rest : ℕ}, 1 ≤ month →
    daysBeforeMonth year month + rest < daysBeforeMonth year (month + fuel + 1) →
    month ≤ (monthAndDay year fuel month rest).1 ∧ (monthAndDay year fuel month rest).1 ≤ month + fuel ∧
      1 ≤ (monthAndDay year fuel month rest).2 ∧
      (monthAndDay year fuel month rest).2 ≤ daysInMonth year (monthAndDay year fuel month rest).1 ∧
      daysBeforeMonth year (monthAndDay year fuel month rest).1 + (monthAndDay year fuel month rest).2 =
        daysBeforeMonth year month + rest + 1 := by
  induction fuel with
  | zero =>
    intro month rest hmonth hrest
    rw [Nat.add_zero, daysBeforeMonth_succ year hmonth] at hrest
    simp only [monthAndDay]
    omega
  | succ fuel ih =>
    intro month rest hmonth hrest
    simp only [monthAndDay]
    split_ifs with hin
    · dsimp only
      omega
    · have hnext := daysBeforeMonth_succ year hmonth
      have hindex : month + 1 + fuel + 1 = month + (fuel + 1) + 1 := by omega
      obtain ⟨hlow, hhigh, hday, hlast, hsum⟩ := @ih (month + 1) (rest - daysInMonth year month) (by omega)
        (by rw [hindex]; omega)
      omega

theorem isLeap_iff : isLeap year = true ↔ year % 4 = 0 ∧ (year % 100 ≠ 0 ∨ year % 400 = 0) := decide_eq_true_iff

theorem daysInMonth_december : daysInMonth year 12 = 31 := rfl

theorem dateOf_last_leap (hpos : 1 ≤ year) (hmax : year ≤ 9999) (hleap : isLeap year = true) :
    dateOf year 12 31 = some ((daysBeforeYear year : ℤ) + 366) := by
  have hdays : daysBeforeMonth year 12 + 31 = 366 := by
    have hthirteen := daysBeforeMonth_succ year (show 1 ≤ 12 by omega)
    rw [daysBeforeMonth_thirteen, if_pos hleap, daysInMonth_december] at hthirteen
    omega
  have hordinal : (ordinal year 12 31 : ℤ) = (daysBeforeYear year : ℤ) + 366 := by
    change (daysBeforeYear year : ℤ) + (daysBeforeMonth year 12 : ℤ) + ((31 : ℕ) : ℤ) = daysBeforeYear year + 366
    omega
  rw [dateOf, if_pos ⟨hpos, hmax, by omega, by omega, by omega, by rw [daysInMonth_december]⟩, hordinal]

theorem dateOf_monthAndDay (hpos : 1 ≤ year) (hmax : year ≤ 9999) {rest : ℕ} (hrest : rest < 365) :
    dateOf year (monthAndDay year 11 1 rest).1 (monthAndDay year 11 1 rest).2 = some ((daysBeforeYear year : ℤ) + rest + 1) := by
  have hfirst : daysBeforeMonth year 1 = 0 := rfl
  have hyear : daysBeforeMonth year 1 + rest < daysBeforeMonth year (1 + 11 + 1) := by
    rw [hfirst, daysBeforeMonth_thirteen]
    split_ifs <;> omega
  obtain ⟨hlow, hhigh, hday, hlast, hsum⟩ := monthAndDay_spec 11 le_rfl hyear
  have hordinal : (ordinal year (monthAndDay year 11 1 rest).1 (monthAndDay year 11 1 rest).2 : ℤ) =
      (daysBeforeYear year : ℤ) + rest + 1 := by
    rw [hfirst] at hsum
    change (daysBeforeYear year : ℤ) + (daysBeforeMonth year _ : ℤ) + (_ : ℤ) = daysBeforeYear year + rest + 1
    omega
  rw [dateOf, if_pos ⟨hpos, hmax, hlow, by omega, hday, hlast⟩, hordinal]

theorem daysBeforeYear_cycles {a b c e : ℕ} (hb : b ≤ 3) (hc : c ≤ 24) (he : e ≤ 3) :
    daysBeforeYear (a * 400 + b * 100 + c * 4 + e + 1) = a * 146097 + b * 36524 + c * 1461 + e * 365 := by
  have h4 : (a * 400 + b * 100 + c * 4 + e) / 4 = a * 100 + b * 25 + c := by omega
  have h100 : (a * 400 + b * 100 + c * 4 + e) / 100 = a * 4 + b := by omega
  have h400 : (a * 400 + b * 100 + c * 4 + e) / 400 = a := by omega
  rw [daysBeforeYear, Nat.add_sub_cancel, h4, h100, h400]
  omega

theorem dateOf_fromOrdinal {date : ℤ} (hmin : 1 ≤ date) (hmax : date ≤ lastDate) :
    dateOf (fromOrdinal date).1 (fromOrdinal date).2.1 (fromOrdinal date).2.2 = some date := by
  have hlast : (lastDate : ℤ) = 3652059 := by decide +kernel
  rw [hlast] at hmax
  obtain ⟨n, rfl⟩ : ∃ n : ℕ, date = n + 1 := ⟨(date - 1).toNat, by omega⟩
  have hn : n < 3652059 := by omega
  have hcast : ((n : ℤ) + 1 - 1).toNat = n := by omega
  unfold fromOrdinal
  rw [hcast]
  dsimp only
  have hsplit : n = n / 146097 * 146097 + n % 146097 / 36524 * 36524 + n % 146097 % 36524 / 1461 * 1461 +
      n % 146097 % 36524 % 1461 / 365 * 365 + n % 146097 % 36524 % 1461 % 365 := by omega
  have h100 : n % 146097 / 36524 ≤ 4 := by omega
  have h4 : n % 146097 % 36524 / 1461 ≤ 24 := by omega
  have h1 : n % 146097 % 36524 % 1461 / 365 ≤ 4 := by omega
  have hday : n % 146097 % 36524 % 1461 % 365 < 365 := Nat.mod_lt _ (by omega)
  -- the last day of a cycle of 100 or of 4 years leaves nothing over
  have hlast100 : n % 146097 / 36524 = 4 → n % 146097 % 36524 / 1461 = 0 ∧
      n % 146097 % 36524 % 1461 / 365 = 0 ∧ n % 146097 % 36524 % 1461 % 365 = 0 := by omega
  have hlast4 : n % 146097 % 36524 % 1461 / 365 = 4 →
      n % 146097 % 36524 % 1461 % 365 = 0 ∧ n % 146097 % 36524 / 1461 ≤ 23 := by omega
  generalize n / 146097 = a at *
  generalize n % 146097 / 36524 = b at *
  generalize n % 146097 % 36524 / 1461 = c at *
  generalize n % 146097 % 36524 % 1461 / 365 = e at *
  generalize n % 146097 % 36524 % 1461 % 365 = rest at *
  clear hcast hlast
  split_ifs with hleap
  · have hyear : isLeap (a * 400 + b * 100 + c * 4 + e + 1 - 1) = true := by
      rw [isLeap_iff]
      omega
    have hdays : (daysBeforeYear (a * 400 + b * 100 + c * 4 + e + 1 - 1) : ℤ) + 366 = n + 1 := by
      by_cases he : e = 4
      · have hprior := daysBeforeYear_cycles (a := a) (b := b) (c := c) (e := 3) (by omega) (by omega) (by omega)
        rw [he]
        change ((daysBeforeYear (a * 400 + b * 100 + c * 4 + 3 + 1) : ℕ) : ℤ) + 366 = n + 1
        rw [hprior]
        omega
      · have hprior := daysBeforeYear_cycles (a := a) (b := 3) (c := 24) (e := 3) (by omega) (by omega) (by omega)
        have hindex : a * 400 + b * 100 + c * 4 + e + 1 - 1 = a * 400 + 3 * 100 + 24 * 4 + 3 + 1 := by omega
        rw [hindex, hprior]
        omega
    rw [← hdays]
    exact dateOf_last_leap (by omega) (by omega) hyear
  · have hdays : (daysBeforeYear (a * 400 + b * 100 + c * 4 + e + 1) : ℤ) + rest + 1 = n + 1 := by
      rw [daysBeforeYear_cycles (by omega) (by omega) (by omega)]
      omega
    rw [← hdays]
    exact dateOf_monthAndDay (by omega) (by omega) hday

end

/-! ## Digits -/

def fixedDigits : ℕ → ℕ → List Char
  | 0, _ => []
  | width + 1, n => fixedDigits width (n / 10) ++ [Nat.digitChar (n % 10)]

variable {c : Char}

section

variable {width n : ℕ} {rest : List Char}

@[simp] theorem length_fixedDigits (width n : ℕ) : (fixedDigits width n).length = width := by
  induction width generalizing n with
  | zero => rfl
  | succ width ih => simp [fixedDigits, ih]

theorem fixedDigits_zero (width : ℕ) : fixedDigits width 0 = List.replicate width '0' := by
  induction width with
  | zero => rfl
  | succ width ih => rw [fixedDigits, Nat.zero_div, ih, List.replicate_succ']; rfl

theorem isDigit_of_mem_fixedDigits (h : c ∈ fixedDigits width n) : c.isDigit = true := by
  induction width generalizing n with
  | zero => cases h
  | succ width ih =>
    obtain hmem | hlast := List.mem_append.mp h
    · exact ih hmem
    · obtain rfl := List.mem_singleton.mp hlast
      rw [Nat.isDigit_digitChar]
      exact decide_eq_true (Nat.mod_lt n (by omega))

theorem toList_padded (hwidth : 1 ≤ width) (h : n < 10 ^ width) : (padded width n).toList = fixedDigits width n := by
  have hlist : (padded width n).toList = List.replicate (width - (Nat.toDigits 10 n).length) '0' ++ Nat.toDigits 10 n := by
    simp [padded, Nat.toString_eq_repr, String.toList_append, ← String.length_toList]
  rw [hlist]
  clear hlist
  induction width generalizing n with
  | zero => omega
  | succ width ih =>
    by_cases hsmall : n < 10
    · rw [Nat.toDigits_of_lt_base hsmall, fixedDigits, Nat.div_eq_of_lt hsmall, Nat.mod_eq_of_lt hsmall, fixedDigits_zero]
      simp
    · have hwidth : 1 ≤ width := by
        by_contra hzero
        obtain rfl : width = 0 := by omega
        omega
      have hdiv : n / 10 < 10 ^ width := by
        rw [pow_succ] at h
        omega
      rw [Nat.toDigits_of_base_le (by omega) (by omega), fixedDigits, ← ih hwidth hdiv]
      simp

theorem parseDigits_append {digits : List Char} {a b : ℕ} (h : parseDigits width digits = some (a, []))
    (hlength : digits.length = width) {more : ℕ} {tail : List Char} (hmore : parseDigits more tail = some (b, rest)) :
    parseDigits (width + more) (digits ++ tail) = some (a * 10 ^ more + b, rest) := by
  induction width generalizing digits a with
  | zero =>
    obtain rfl := List.length_eq_zero_iff.mp hlength
    cases h
    simpa using hmore
  | succ width ih =>
    cases digits with
    | nil => cases hlength
    | cons c digits =>
      rw [parseDigits] at h
      split_ifs at h with hdigit
      obtain ⟨⟨a', rest'⟩, hparsed, hpair⟩ := Option.map_eq_some_iff.mp h
      obtain ⟨hvalue, rfl⟩ := Prod.mk.inj hpair
      have hnext := ih hparsed (Nat.succ.inj hlength)
      rw [Nat.succ_add, List.cons_append, parseDigits, if_pos hdigit, hnext]
      simp only [Option.map_some, Option.some.injEq, Prod.mk.injEq, and_true]
      rw [← hvalue, pow_add]
      ring

theorem parseDigits_fixedDigits (h : n < 10 ^ width) (rest : List Char) :
    parseDigits width (fixedDigits width n ++ rest) = some (n, rest) := by
  induction width generalizing n rest with
  | zero =>
    obtain rfl : n = 0 := by simpa using h
    rfl
  | succ width ih =>
    have hdiv : n / 10 < 10 ^ width := by
      rw [pow_succ] at h
      omega
    have hdigit : (Nat.digitChar (n % 10)).isDigit = true := by
      rw [Nat.isDigit_digitChar]
      exact decide_eq_true (Nat.mod_lt n (by omega))
    have hlast : parseDigits 1 (Nat.digitChar (n % 10) :: rest) = some (n % 10, rest) := by
      simp [parseDigits, hdigit, Nat.toNat_digitChar_of_lt_ten (Nat.mod_lt n (show 0 < 10 by omega))]
    have hfirst := ih hdiv []
    rw [List.append_nil] at hfirst
    rw [fixedDigits, List.append_assoc, List.singleton_append, parseDigits_append hfirst (length_fixedDigits _ _) hlast]
    congr 2
    omega

end

/-- The characters of `isoformat`. -/
def isoChars (date : Date) : List Char := fixedDigits 4 (fromOrdinal date).1 ++
    '-' :: (fixedDigits 2 (fromOrdinal date).2.1 ++ '-' :: fixedDigits 2 (fromOrdinal date).2.2)

section

variable {date : ℤ}

theorem daysInMonth_le (year month : ℕ) : daysInMonth year month ≤ 31 := by
  unfold daysInMonth
  split_ifs <;> omega

theorem fromOrdinal_lt (hmin : 1 ≤ date) (hmax : date ≤ lastDate) :
    (fromOrdinal date).1 < 10 ^ 4 ∧ (fromOrdinal date).2.1 < 10 ^ 2 ∧ (fromOrdinal date).2.2 < 10 ^ 2 := by
  have hdate := dateOf_fromOrdinal hmin hmax
  unfold dateOf at hdate
  split_ifs at hdate with hvalid
  have hdays := daysInMonth_le (fromOrdinal date).1 (fromOrdinal date).2.1
  omega

theorem toList_isoFormat (hmin : 1 ≤ date) (hmax : date ≤ lastDate) : (isoFormat date).toList = isoChars date := by
  obtain ⟨hyear, hmonth, hday⟩ := fromOrdinal_lt hmin hmax
  simp only [isoFormat, String.toList_append, toList_padded (show 1 ≤ 4 by omega) hyear,
    toList_padded (show 1 ≤ 2 by omega) hmonth, toList_padded (show 1 ≤ 2 by omega) hday]
  simp [isoChars]

theorem utf8ByteSize_ofList {l : List Char} (h : ∀ c ∈ l, c.utf8Size = 1) : (String.ofList l).utf8ByteSize = l.length := by
  induction l with
  | nil => rfl
  | cons c l ih =>
    rw [String.ofList_cons, String.utf8ByteSize_append, String.utf8ByteSize_singleton, h c List.mem_cons_self,
      ih fun c' hc' => h c' (List.mem_cons_of_mem _ hc'), List.length_cons, Nat.add_comm]

theorem utf8Size_of_isDigit (h : c.isDigit = true) : c.utf8Size = 1 := by
  rw [Char.utf8Size_eq_one_iff]
  simp only [Char.isDigit, Bool.and_eq_true, decide_eq_true_eq] at h
  exact UInt32.le_trans h.2 (by decide)

theorem utf8Size_of_mem_isoChars (h : c ∈ isoChars date) : c.utf8Size = 1 := by
  simp only [isoChars, List.mem_append, List.mem_cons] at h
  obtain h | rfl | h | rfl | h := h
  · exact utf8Size_of_isDigit (isDigit_of_mem_fixedDigits h)
  · rfl
  · exact utf8Size_of_isDigit (isDigit_of_mem_fixedDigits h)
  · rfl
  · exact utf8Size_of_isDigit (isDigit_of_mem_fixedDigits h)

theorem fromIsoFormat_isoChars (hmin : 1 ≤ date) (hmax : date ≤ lastDate) :
    fromIsoFormat (String.ofList (isoChars date)) = some date := by
  obtain ⟨hyear, hmonth, hday⟩ := fromOrdinal_lt hmin hmax
  have hsize : (String.ofList (isoChars date)).utf8ByteSize = 10 := by
    rw [utf8ByteSize_ofList fun c hc => utf8Size_of_mem_isoChars hc]
    simp [isoChars]
  have hlast := parseDigits_fixedDigits hday []
  rw [List.append_nil] at hlast
  -- a month starts with a digit, so the text is not one of a week
  have hmonthHead : ∀ tail : List Char, (fixedDigits 2 (fromOrdinal date).2.1 ++ tail).head? ≠ some 'W' := by
    intro tail hhead
    have hmem : 'W' ∈ fixedDigits 2 (fromOrdinal date).2.1 := by
      have hne : fixedDigits 2 (fromOrdinal date).2.1 ≠ [] := by
        rw [← List.length_pos_iff, length_fixedDigits]
        omega
      rw [List.head?_append_of_ne_nil _ hne] at hhead
      exact List.mem_of_head? hhead
    exact absurd (isDigit_of_mem_fixedDigits hmem) (by decide)
  rw [fromIsoFormat, if_pos (by rw [hsize]; decide), String.toList_ofList, isoChars, parseDigits_fixedDigits hyear]
  simp only [Option.bind_eq_bind, Option.bind_some, List.head?_cons, List.tail_cons, decide_true, if_true]
  rw [if_neg (hmonthHead _), parseDigits_fixedDigits hmonth]
  simp only [Option.bind_some, parseSeparator, if_true, hlast]
  exact dateOf_fromOrdinal hmin hmax

end

/-! ## Tags -/

section

variable {start finish : ℤ} {rest : List Char}

theorem digitValue_of_isDigit (h : c.isDigit = true) : (digitValue c).isSome = true := by
  simp only [Char.isDigit, Bool.and_eq_true, decide_eq_true_eq, ge_iff_le, UInt32.le_iff_toNat_le] at h
  have hlow : 48 ≤ c.toNat := h.1
  have hhigh : c.toNat ≤ 57 := h.2
  have hfind : (digitZeros.find? fun first => first ≤ c.toNat ∧ c.toNat < first + 10) = some 0x30 :=
    List.find?_cons_of_pos (decide_eq_true (by omega))
  rw [digitValue, hfind]
  rfl

@[simp] theorem matchChar_cons (c : Char) (rest : List Char) : matchChar c (c :: rest) = some rest := if_pos rfl

theorem matchDigits_append (digits : List Char) (h : ∀ c ∈ digits, (digitValue c).isSome = true) (rest : List Char) :
    matchDigits digits.length (digits ++ rest) = some (digits, rest) := by
  induction digits with
  | nil => rfl
  | cons c digits ih =>
    rw [List.length_cons, List.cons_append, matchDigits, if_pos (h c List.mem_cons_self),
      ih fun c' hc' => h c' (List.mem_cons_of_mem _ hc')]
    rfl

theorem matchDigits_fixedDigits (width n : ℕ) (rest : List Char) :
    matchDigits width (fixedDigits width n ++ rest) = some (fixedDigits width n, rest) := by
  have hmatch := matchDigits_append (fixedDigits width n)
    (fun c hc => digitValue_of_isDigit (isDigit_of_mem_fixedDigits hc)) rest
  rwa [length_fixedDigits] at hmatch

theorem matchDate_isoChars (date : ℤ) (rest : List Char) :
    matchDate (isoChars date ++ rest) = some (String.ofList (isoChars date), rest) := by
  unfold matchDate isoChars
  rw [List.append_assoc, matchDigits_fixedDigits]
  simp only [Option.bind_eq_bind, Option.bind_some, List.cons_append, matchChar_cons, List.append_assoc, matchDigits_fixedDigits]
  rfl

theorem matchDigits_eq {n : ℕ} {l matched : List Char} (h : matchDigits n l = some (matched, rest)) :
    l = matched ++ rest ∧ ∀ c ∈ matched, (digitValue c).isSome = true := by
  induction n generalizing l matched with
  | zero =>
    cases h
    simp
  | succ n ih =>
    cases l with
    | nil => cases h
    | cons c l =>
      rw [matchDigits] at h
      split_ifs at h with hdigit
      obtain ⟨⟨matched', rest'⟩, hmatched, hpair⟩ := Option.map_eq_some_iff.mp h
      obtain ⟨rfl, rfl⟩ := Prod.mk.inj hpair
      obtain ⟨rfl, hall⟩ := ih hmatched
      exact ⟨rfl, fun c' hc' => (List.mem_cons.mp hc').elim (fun heq => heq ▸ hdigit) (hall c')⟩

theorem matchChar_eq {l : List Char} (h : matchChar c l = some rest) : l = c :: rest := by
  cases l with
  | nil => cases h
  | cons c' l =>
    rw [matchChar] at h
    split_ifs at h with heq
    cases h
    rw [heq]

theorem eq_of_append_mark {mark : Char} {a b l l' : List Char} (ha : mark ∉ a) (hb : mark ∉ b)
    (h : a ++ mark :: l = b ++ mark :: l') : a = b ∧ l = l' := by
  induction a generalizing b with
  | nil =>
    cases b with
    | nil => exact ⟨rfl, List.tail_eq_of_cons_eq h⟩
    | cons c b => exact absurd (List.head_eq_of_cons_eq h ▸ List.mem_cons_self) hb
  | cons c a ih =>
    cases b with
    | nil => exact absurd ((List.head_eq_of_cons_eq h).symm ▸ List.mem_cons_self) ha
    | cons c' b =>
      obtain rfl : c = c' := List.head_eq_of_cons_eq h
      obtain ⟨rfl, rfl⟩ := ih (fun hmem => ha (List.mem_cons_of_mem _ hmem)) (fun hmem => hb (List.mem_cons_of_mem _ hmem))
        (List.tail_eq_of_cons_eq h)
      exact ⟨rfl, rfl⟩

theorem matchTag_isoChars {filing : List Char} (hfiling : ':' ∉ filing) {tag : String}
    (htag : tag.toList = 'F' :: 'Y' :: (filing ++ ':' :: 'F' :: 'Y' :: ':' :: (isoChars start ++ ':' :: isoChars finish))) :
    matchTag tag = none ∨ ∃ year, matchTag tag =
      some (year, "FY", String.ofList (isoChars start), String.ofList (isoChars finish)) := by
  unfold matchTag
  rw [htag]
  simp only [matchChar_cons, Option.bind_eq_bind, Option.bind_some]
  cases hdigits : matchDigits 4 (filing ++ ':' :: 'F' :: 'Y' :: ':' :: (isoChars start ++ ':' :: isoChars finish)) with
  | none => exact .inl rfl
  | some pair =>
    obtain ⟨matched, after⟩ := pair
    obtain ⟨heq, hall⟩ := matchDigits_eq hdigits
    simp only [Option.bind_some]
    cases hcolon : matchChar ':' after with
    | none => exact .inl rfl
    | some more =>
      obtain rfl := matchChar_eq hcolon
      have hmatched : ':' ∉ matched := fun hmem => absurd (hall _ hmem) (by decide)
      obtain ⟨-, rfl⟩ := eq_of_append_mark hfiling hmatched heq
      refine .inr ⟨intOfDigits matched, ?_⟩
      have hfinish := matchDate_isoChars finish []
      rw [List.append_nil] at hfinish
      have hkind : (('F' :: 'Y' :: ':' :: (isoChars start ++ ':' :: isoChars finish)).takeWhile
          fun c => c.isUpper ∨ c.isDigit) = ['F', 'Y'] := by
        rw [List.takeWhile_cons_of_pos (by decide), List.takeWhile_cons_of_pos (by decide),
          List.takeWhile_cons_of_neg (by decide)]
      simp only [Option.bind_some, hkind, List.length_cons, List.length_nil, List.drop_succ_cons, List.drop_zero,
        matchChar_cons, matchDate_isoChars, hfinish, ne_eq, reduceCtorEq, not_false_eq_true, guard, if_true, true_or]
      rfl

theorem daysBeforeMonth_mono (year : ℕ) {month later : ℕ} (hmonth : 1 ≤ month) (hle : month ≤ later) :
    daysBeforeMonth year month ≤ daysBeforeMonth year later := by
  induction later, hle using Nat.le_induction with
  | base => exact le_rfl
  | succ later hle ih =>
    rw [daysBeforeMonth_succ _ (by omega)]
    omega

theorem succ_le_lastDate {year month day : ℕ} {date : ℤ} (h : dateOf year month day = some date) (hyear : year ≤ 9998) :
    1 ≤ date + 1 ∧ date + 1 ≤ lastDate := by
  have hlast : (lastDate : ℤ) = 3652059 := by decide +kernel
  unfold dateOf at h
  split_ifs at h with hvalid
  obtain ⟨hfirst, -, hmonth, htwelve, hday, hlength⟩ := hvalid
  have hordinal : (daysBeforeYear year : ℤ) + (daysBeforeMonth year month : ℤ) + (day : ℤ) = date := Option.some.inj h
  have hyearDays : daysBeforeMonth year month + day ≤ 366 := by
    have hnext := daysBeforeMonth_succ year hmonth
    have hmono := daysBeforeMonth_mono year (show 1 ≤ month + 1 by omega) (show month + 1 ≤ 13 by omega)
    rw [daysBeforeMonth_thirteen] at hmono
    split_ifs at hmono <;> omega
  have hdays : daysBeforeYear year ≤ 3651329 := by
    unfold daysBeforeYear
    omega
  rw [hlast]
  omega

theorem colon_not_mem_toString (n : ℤ) : ':' ∉ (toString n).toList := by
  have hdigits : ∀ m : ℕ, ':' ∉ (Nat.repr m).toList := by
    intro m hmem
    rw [Nat.toList_repr] at hmem
    exact absurd (Nat.isDigit_of_mem_toDigits (by omega) le_rfl hmem) (by decide)
  cases n with
  | ofNat m => exact hdigits m
  | negSucc m =>
    change ':' ∉ ("-" ++ Nat.repr (m + 1)).toList
    rw [String.toList_append]
    intro hmem
    obtain hsign | hmem := List.mem_append.mp hmem
    · exact absurd hsign (by decide)
    · exact hdigits _ hmem

theorem parseAnnual_encodeAnnual (hmin : 1 ≤ finish) (hmax : finish ≤ lastDate) {filingFiscalYear : Option ℤ}
    {tag : String} (h : encodeAnnual finish filingFiscalYear = some tag) :
    parseAnnual tag = .ok none ∨ ∃ period, parseAnnual tag = .ok (some period) ∧ period.finish = finish := by
  have hyear := (fromOrdinal_lt hmin hmax).1
  unfold encodeAnnual at h
  rcases hparts : fromOrdinal finish with ⟨year, month, day⟩
  rw [hparts] at h hyear
  obtain ⟨prior, hprior, htag⟩ := Option.bind_eq_some_iff.mp h
  have hnext : 1 ≤ (prior : ℤ) + 1 ∧ (prior : ℤ) + 1 ≤ lastDate := by
    obtain hsame | ⟨-, hleap⟩ := Option.or_eq_some_iff.mp hprior
    · exact succ_le_lastDate hsame (by omega)
    · exact succ_le_lastDate hleap (by omega)
  obtain rfl := Option.some.inj htag
  have hlist := fun filing : ℤ => show ("FY" ++ toString filing ++ ":FY:" ++ isoFormat (prior + 1) ++ ":" ++
      isoFormat finish).toList = 'F' :: 'Y' :: ((toString filing).toList ++ ':' :: 'F' :: 'Y' :: ':' ::
        (isoChars (prior + 1) ++ ':' :: isoChars finish)) by
    simp [String.toList_append, toList_isoFormat hmin hmax, toList_isoFormat hnext.1 hnext.2]
  unfold parseAnnual
  obtain hnone | ⟨year, hsome⟩ := matchTag_isoChars (colon_not_mem_toString _) (hlist _)
  · rw [hnone]
    exact .inl rfl
  · rw [hsome]
    dsimp only
    rw [fromIsoFormat_isoChars hnext.1 hnext.2, fromIsoFormat_isoChars hmin hmax]
    dsimp only
    split_ifs
    · exact .inr ⟨_, rfl, rfl⟩
    · exact .inl rfl

end

end TrueAlpha
