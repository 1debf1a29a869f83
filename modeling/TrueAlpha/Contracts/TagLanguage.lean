import Mathlib.Data.List.TakeWhile
import TrueAlpha.Contracts.DateReading

/-!
# The language of annual tags

`_TAG` and `date.fromisoformat` read different digits and `$` allows a final line feed.  `parse_annual` refuses what is no tag
and accepts every tag exactly on the texts that are `ReadCleanly` (`parseAnnual_iff`).
-/

namespace TrueAlpha

variable {filing kind start finish tail : List Char}

section

variable {n : ℕ} {l matched rest : List Char} {tag : String}

theorem length_of_matchDigits (h : matchDigits n l = some (matched, rest)) : matched.length = n := by
  induction n generalizing l matched with
  | zero =>
    cases h
    rfl
  | succ n ih =>
    cases l with
    | nil => cases h
    | cons c l =>
      rw [matchDigits] at h
      split_ifs at h
      obtain ⟨⟨matched', rest'⟩, hmatched, hpair⟩ := Option.map_eq_some_iff.mp h
      obtain ⟨rfl, rfl⟩ := Prod.mk.inj hpair
      rw [List.length_cons, ih hmatched]

theorem matchDigits_eq_some_iff : matchDigits n l = some (matched, rest) ↔
    matched.length = n ∧ (∀ c ∈ matched, (digitValue c).isSome = true) ∧ l = matched ++ rest := by
  constructor
  · intro h
    obtain ⟨rfl, hdigits⟩ := matchDigits_eq h
    exact ⟨length_of_matchDigits h, hdigits, rfl⟩
  · rintro ⟨rfl, hdigits, rfl⟩
    exact matchDigits_append matched hdigits rest

theorem matchChar_eq_some_iff {c : Char} : matchChar c l = some rest ↔ l = c :: rest := by
  constructor
  · exact matchChar_eq
  · rintro rfl
    exact matchChar_cons c rest

theorem matchDate_eq_some_iff {text : String} :
    matchDate l = some (text, rest) ↔ IsDateShape text.toList ∧ l = text.toList ++ rest := by
  unfold matchDate
  simp only [Option.bind_eq_bind, Option.bind_eq_some_iff, Prod.exists, matchDigits_eq_some_iff, matchChar_eq_some_iff]
  constructor
  · rintro ⟨year, _, ⟨hyear, hyears, rfl⟩, _, rfl, month, _, ⟨hmonth, hmonths, rfl⟩, _, rfl, day, _, ⟨hday, hdays, rfl⟩, h⟩
    obtain ⟨rfl, rfl⟩ := Prod.mk.inj (Option.some.inj h)
    refine ⟨⟨year, month, day, by simp, hyear, hmonth, hday, fun c hc => ?_⟩, by simp⟩
    simp only [List.mem_append] at hc
    obtain (hc | hc) | hc := hc
    exacts [hyears c hc, hmonths c hc, hdays c hc]
  · rintro ⟨⟨year, month, day, htext, hyear, hmonth, hday, hdigits⟩, rfl⟩
    refine ⟨year, '-' :: (month ++ '-' :: day ++ rest), ⟨hyear, fun c hc => hdigits c (by simp [hc]), by simp [htext]⟩,
      month ++ '-' :: day ++ rest, rfl, month, '-' :: (day ++ rest), ⟨hmonth, fun c hc => hdigits c (by simp [hc]), by simp⟩,
      day ++ rest, rfl, day, rest, ⟨hday, fun c hc => hdigits c (by simp [hc]), rfl⟩, ?_⟩
    have hofList : String.ofList (year ++ '-' :: month ++ '-' :: day) = text := by
      rw [← String.ofList_toList (s := text), htext]
      simp
    rw [hofList]
    rfl

/-- The parts of a text that `_TAG` matches. -/
structure IsTag (tag : String) (filing kind start finish tail : List Char) : Prop where
  toList_eq : tag.toList = 'F' :: 'Y' :: (filing ++ ':' :: (kind ++ ':' :: (start ++ ':' :: (finish ++ tail))))
  length_filing : filing.length = 4
  digits_filing : ∀ c ∈ filing, (digitValue c).isSome = true
  kind_ne_nil : kind ≠ []
  mem_kind : ∀ c ∈ kind, c.isUpper = true ∨ c.isDigit = true
  shape_start : IsDateShape start
  shape_finish : IsDateShape finish
  tail_eq : tail = [] ∨ tail = ['\n']

theorem matchTag_eq_some_iff {year : ℕ} {kind start finish : String} : matchTag tag = some (year, kind, start, finish) ↔
      ∃ filing tail, IsTag tag filing kind.toList start.toList finish.toList tail ∧ year = intOfDigits filing := by
  unfold matchTag
  simp only [Option.bind_eq_bind, Option.bind_eq_some_iff, Prod.exists, matchDigits_eq_some_iff, matchChar_eq_some_iff,
    matchDate_eq_some_iff, Option.guard_eq_some']
  constructor
  · rintro ⟨_, htag, _, rfl, filing, _, ⟨hlength, hdigits, rfl⟩, after, rfl, -, hkind, rest, hdrop, start', _,
      ⟨hstart, rfl⟩, _, rfl, finish', tail, ⟨hfinish, rfl⟩, -, htail, h⟩
    obtain ⟨rfl, rfl, rfl, rfl⟩ : intOfDigits filing = year ∧
        String.ofList (after.takeWhile fun c => c.isUpper ∨ c.isDigit) = kind ∧ start' = start ∧ finish' = finish := by
      simpa using h
    obtain ⟨more, hmore⟩ := List.takeWhile_prefix (l := after) fun c => decide (c.isUpper = true ∨ c.isDigit = true)
    have hrest : more = ':' :: (start'.toList ++ ':' :: (finish'.toList ++ tail)) := by
      rw [← hdrop]
      conv => rhs; arg 2; rw [← hmore]
      rw [List.drop_left]
    refine ⟨filing, tail, ⟨?_, hlength, hdigits, ?_, ?_, hstart, hfinish, htail⟩, rfl⟩
    · rw [htag, String.toList_ofList, ← hrest, hmore]
    · rwa [String.toList_ofList]
    · intro c hc
      rw [String.toList_ofList] at hc
      have hclass := List.mem_takeWhile_imp hc
      exact of_decide_eq_true hclass
  · rintro ⟨filing, tail, htag, rfl⟩
    have hkind : (kind.toList ++ ':' :: (start.toList ++ ':' :: (finish.toList ++ tail))).takeWhile
        (fun c => decide (c.isUpper = true ∨ c.isDigit = true)) = kind.toList := by
      rw [List.takeWhile_append_of_pos fun c hc => decide_eq_true (htag.mem_kind c hc),
        List.takeWhile_cons_of_neg (by decide), List.append_nil]
    refine ⟨_, htag.toList_eq, _, rfl, filing, _, ⟨htag.length_filing, htag.digits_filing, rfl⟩, _, rfl, (), ?_, _, ?_,
      start, _, ⟨htag.shape_start, rfl⟩, _, rfl, finish, tail, ⟨htag.shape_finish, rfl⟩, (), htag.tail_eq, ?_⟩
    · rw [hkind]
      exact htag.kind_ne_nil
    · rw [hkind, List.drop_left]
    · rw [hkind, String.ofList_toList]
      rfl

theorem IsTag.take_filing (h : IsTag tag filing kind start finish tail) : (tag.toList.drop 2).take 4 = filing := by
  rw [h.toList_eq, ← h.length_filing]
  exact List.take_left

theorem IsTag.getLast?_ne_iff (h : IsTag tag filing kind start finish tail) : tag.toList.getLast? ≠ some '\n' ↔ tail = [] := by
  obtain ⟨year, month, day, rfl, -, -, hday, hdigits⟩ := h.shape_finish
  have hne : day ≠ [] := List.ne_nil_of_length_pos (by omega)
  rw [h.toList_eq]
  obtain htail | htail := h.tail_eq
  · have hlast : ('F' :: 'Y' :: (filing ++ ':' :: (kind ++ ':' :: (start ++ ':' ::
        (year ++ '-' :: (month ++ '-' :: day) ++ tail))))).getLast? = day.getLast? := by
      rw [htail, List.append_nil]
      rw [show 'F' :: 'Y' :: (filing ++ ':' :: (kind ++ ':' :: (start ++ ':' :: (year ++ '-' :: (month ++ '-' :: day))))) =
        ('F' :: 'Y' :: (filing ++ ':' :: (kind ++ ':' :: (start ++ ':' :: (year ++ '-' :: (month ++ ['-'])))))) ++ day by simp]
      exact List.getLast?_append_of_ne_nil _ hne
    rw [hlast]
    refine iff_of_true (fun hfeed => ?_) htail
    exact absurd (hdigits '\n' (by simp [List.mem_of_getLast? hfeed])) (by decide)
  · have hlast : ('F' :: 'Y' :: (filing ++ ':' :: (kind ++ ':' :: (start ++ ':' ::
        (year ++ '-' :: (month ++ '-' :: day) ++ tail))))).getLast? = some '\n' := by
      rw [htail]
      rw [show 'F' :: 'Y' :: (filing ++ ':' :: (kind ++ ':' :: (start ++ ':' :: (year ++ '-' :: (month ++ '-' :: day) ++
        ['\n'])))) = ('F' :: 'Y' :: (filing ++ ':' :: (kind ++ ':' :: (start ++ ':' ::
          (year ++ '-' :: (month ++ '-' :: day)))))) ++ ['\n'] by simp]
      exact List.getLast?_concat
    rw [hlast, htail]
    simp

end

/-- `FYdddd:FY:<start>:<end>` in ASCII digits, two dates of the calendar a year apart. -/
def IsAnnualTag (tag : String) : Prop := ∃ (filing : List Char) (start finish : ℤ),
    tag.toList = 'F' :: 'Y' :: (filing ++ ':' :: 'F' :: 'Y' :: ':' :: (isoChars start ++ ':' :: isoChars finish)) ∧
    filing.length = 4 ∧ (∀ c ∈ filing, c.isDigit = true) ∧ (1 ≤ start ∧ start ≤ lastDate) ∧
    (1 ≤ finish ∧ finish ≤ lastDate) ∧ annualMinimumDays ≤ finish - start

def ReadsCleanly (tag : String) : Prop := ∀ filing kind start finish, matchTag tag = some (filing, kind, start, finish) →
    ∃ s f, fromIsoFormat start = some s ∧ fromIsoFormat finish = some f ∧ (kind = "FY" → annualMinimumDays ≤ f - s →
        tag.toList.getLast? ≠ some '\n' ∧ ∀ c ∈ (tag.toList.drop 2).take 4, c.isDigit = true)

section

variable {tag : String}

theorem IsAnnualTag.isTag {filing : List Char} {start finish : ℤ}
    (htag : tag.toList = 'F' :: 'Y' :: (filing ++ ':' :: 'F' :: 'Y' :: ':' :: (isoChars start ++ ':' :: isoChars finish)))
    (hlength : filing.length = 4) (hdigits : ∀ c ∈ filing, c.isDigit = true) :
    IsTag tag filing ['F', 'Y'] (isoChars start) (isoChars finish) [] where
  toList_eq := by rw [htag]; simp
  length_filing := hlength
  digits_filing c hc := digitValue_of_isDigit (hdigits c hc)
  kind_ne_nil := nofun
  mem_kind c hc := by
    simp only [List.mem_cons, List.not_mem_nil, or_false] at hc
    rcases hc with rfl | rfl <;> exact .inl rfl
  shape_start := isDateShape_isoChars start
  shape_finish := isDateShape_isoChars finish
  tail_eq := .inl rfl

theorem IsTag.matchTag_eq (h : IsTag tag filing kind start finish tail) :
    matchTag tag = some (intOfDigits filing, String.ofList kind, String.ofList start, String.ofList finish) :=
  matchTag_eq_some_iff.mpr ⟨filing, tail, by simpa only [String.toList_ofList] using h, rfl⟩

theorem isAnnualTag_iff {year : ℕ} {kind start finish : String} {s f : ℤ}
    (hmatch : matchTag tag = some (year, kind, start, finish)) (hstart : fromIsoFormat start = some s)
    (hfinish : fromIsoFormat finish = some f) :
    IsAnnualTag tag ↔ (kind = "FY" ∧ annualMinimumDays ≤ f - s) ∧
      tag.toList.getLast? ≠ some '\n' ∧ ∀ c ∈ (tag.toList.drop 2).take 4, c.isDigit = true := by
  obtain ⟨filing, tail, htag, -⟩ := matchTag_eq_some_iff.mp hmatch
  obtain ⟨hs1, hs2, hsText⟩ := isoChars_of_fromIsoFormat htag.shape_start hstart
  obtain ⟨hf1, hf2, hfText⟩ := isoChars_of_fromIsoFormat htag.shape_finish hfinish
  constructor
  · rintro ⟨filing', s', f', htag', hlength, hdigits, hs', hf', hdays⟩
    have hparts := IsAnnualTag.isTag htag' hlength hdigits
    rw [hparts.matchTag_eq] at hmatch
    obtain ⟨-, rfl, rfl, rfl⟩ : intOfDigits filing' = year ∧ String.ofList ['F', 'Y'] = kind ∧
        String.ofList (isoChars s') = start ∧ String.ofList (isoChars f') = finish := by simpa using hmatch
    rw [fromIsoFormat_isoChars hs'.1 hs'.2] at hstart
    rw [fromIsoFormat_isoChars hf'.1 hf'.2] at hfinish
    obtain rfl := Option.some.inj hstart
    obtain rfl := Option.some.inj hfinish
    exact ⟨⟨rfl, hdays⟩, hparts.getLast?_ne_iff.mpr rfl, by rwa [hparts.take_filing]⟩
  · rintro ⟨⟨rfl, hdays⟩, hlast, hdigits⟩
    rw [htag.take_filing] at hdigits
    have htail := htag.getLast?_ne_iff.mp hlast
    refine ⟨filing, s, f, ?_, htag.length_filing, hdigits, ⟨hs1, hs2⟩, ⟨hf1, hf2⟩, hdays⟩
    rw [htag.toList_eq, htail, hsText, hfText]
    simp

theorem parseAnnual_iff (tag : String) :
    (parseAnnual tag ≠ .error () ∧ ((∃ period, parseAnnual tag = .ok (some period)) ↔ IsAnnualTag tag)) ↔ ReadsCleanly tag := by
  cases hmatch : matchTag tag with
  | none =>
    have hparse : parseAnnual tag = .ok none := by rw [parseAnnual, hmatch]
    have hnot : ¬ IsAnnualTag tag := by
      rintro ⟨filing, s, f, htag, hlength, hdigits, -⟩
      rw [(IsAnnualTag.isTag htag hlength hdigits).matchTag_eq] at hmatch
      cases hmatch
    refine iff_of_true ⟨by simp [hparse], by simp [hparse, hnot]⟩ ?_
    intro filing kind start finish hsome
    rw [hmatch] at hsome
    cases hsome
  | some parts =>
    obtain ⟨year, kind, start, finish⟩ := parts
    have hclean : ReadsCleanly tag ↔ ∃ s f, fromIsoFormat start = some s ∧ fromIsoFormat finish = some f ∧
        (kind = "FY" → annualMinimumDays ≤ f - s →
          tag.toList.getLast? ≠ some '\n' ∧ ∀ c ∈ (tag.toList.drop 2).take 4, c.isDigit = true) := by
      constructor
      · exact fun h => h year kind start finish hmatch
      · rintro h filing kind' start' finish' hsome
        rw [hmatch] at hsome
        cases hsome
        exact h
    rw [hclean]
    cases hstart : fromIsoFormat start with
    | none =>
      have hparse : parseAnnual tag = .error () := by simp [parseAnnual, hmatch, hstart]
      simp [hparse]
    | some s =>
      cases hfinish : fromIsoFormat finish with
      | none =>
        have hparse : parseAnnual tag = .error () := by simp [parseAnnual, hmatch, hstart, hfinish]
        simp [hparse]
      | some f =>
        have hparse : parseAnnual tag = .ok (if (⟨year, kind, s, f⟩ : FiscalPeriod).isAnnual then
            some ⟨year, kind, s, f⟩ else none) := by simp [parseAnnual, hmatch, hstart, hfinish]
        have hannual : (⟨year, kind, s, f⟩ : FiscalPeriod).isAnnual = true ↔ kind = "FY" ∧ annualMinimumDays ≤ f - s :=
          decide_eq_true_iff
        have hperiod : (∃ period, parseAnnual tag = .ok (some period)) ↔ kind = "FY" ∧ annualMinimumDays ≤ f - s := by
          rw [hparse, ← hannual]
          split_ifs with h
          · simp [h]
          · simp [h]
        rw [hperiod, isAnnualTag_iff hmatch hstart hfinish, hparse]
        simp only [ne_eq, reduceCtorEq, not_false_eq_true, true_and, Option.some.injEq, iff_self_and]
        constructor
        · exact fun h => ⟨s, f, rfl, rfl, fun hkind hdays => h ⟨hkind, hdays⟩⟩
        · rintro ⟨s', f', rfl, rfl, h⟩ ⟨hkind, hdays⟩
          exact h hkind hdays

end

end TrueAlpha
