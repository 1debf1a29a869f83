import TrueAlpha.Contracts.EncodedTags
import TrueAlpha.Strategy.Gateway

/-!
# The row that answers for a key

The loop over the rows keeps for a key a row for each period, and the last row decides which kind answers: a scalar row for
itself, a periodic row for the latest period (`answerOf_observed`).
-/

namespace TrueAlpha.Strategy

section

variable {finish : ℤ} {filingFiscalYear : Option ℤ} {tag : String}

theorem splitOn_encoded (hfinish : 1 ≤ finish ∧ finish ≤ lastDate) (h : encodeAnnual finish filingFiscalYear = some tag) :
    4 ≤ (tag.toList.splitOn ':').length ∧ (tag.toList.splitOn ':').getLast? = some (isoChars finish) := by
  obtain ⟨prior, -, htag⟩ := toList_encoded hfinish h
  have hcolon : ∀ d : ℤ, ':' ∉ isoChars d := by
    intro d hc
    obtain ⟨year, month, day, heq, -, -, -, hdigits⟩ := isDateShape_isoChars d
    have hmem : ':' ∈ year ++ month ++ day := by
      rw [heq] at hc
      simpa using hc
    exact absurd (hdigits ':' hmem) (by decide)
  have hyear : ':' ∉ 'F' :: 'Y' :: (toString (filingYear finish filingFiscalYear)).toList := by
    intro hc
    simp only [List.mem_cons, Char.reduceEq, false_or] at hc
    exact colon_not_mem_toString _ hc
  have hparts : tag.toList.splitOn ':' = ['F' :: 'Y' :: (toString (filingYear finish filingFiscalYear)).toList,
      ['F', 'Y'], isoChars (prior + 1), isoChars finish] := by
    rw [htag, show 'F' :: 'Y' :: ((toString (filingYear finish filingFiscalYear)).toList ++ ':' :: 'F' :: 'Y' :: ':' ::
      (isoChars (prior + 1) ++ ':' :: isoChars finish)) =
        ('F' :: 'Y' :: (toString (filingYear finish filingFiscalYear)).toList) ++ ':' :: (['F', 'Y'] ++ ':' ::
          (isoChars (prior + 1) ++ ':' :: isoChars finish)) by simp]
    rw [List.splitOn_append_cons_self_of_not_mem hyear, List.splitOn_append_cons_self_of_not_mem (by decide),
      List.splitOn_append_cons_self_of_not_mem (hcolon _), List.splitOn_eq_singleton (hcolon _)]
  rw [hparts]
  exact ⟨le_rfl, rfl⟩

theorem periodEndKey_encoded (hfinish : 1 ≤ finish ∧ finish ≤ lastDate)
    (h : encodeAnnual finish filingFiscalYear = some tag) : periodEndKey tag = toLex (finish, tag) := by
  unfold periodEndKey
  obtain hnone | ⟨period, hsome, hperiod⟩ := parseAnnual_encodeAnnual hfinish.1 hfinish.2 h
  · obtain ⟨hlength, hlast⟩ := splitOn_encoded hfinish h
    rw [hnone]
    dsimp only
    rw [if_pos hlength, hlast, Option.bind_some, fromIsoFormat_isoChars hfinish.1 hfinish.2]
  · rw [hsome]
    dsimp only
    rw [hperiod]

end

/-! ## The loop over the rows -/

def answerOf (seen : Observations) (issuerId key : String) : Option InputRow :=
  (seen.scalars.get? issuerId).bind fun answers => answers.get? key

def seriesOf (seen : Observations) (issuerId key : String) : Dict String InputRow :=
  (((seen.periods.get? issuerId).getD Dict.empty).get? key).getD Dict.empty

def keyRows (rows : List InputRow) (issuerId key : String) : List InputRow :=
  rows.filter fun row => row.issuerId = issuerId ∧ row.inputKey = key

def periodEntry (row : InputRow) : Option (String × InputRow) := row.fiscalPeriod.map fun tag => (tag, row)

variable (rows : List InputRow)

section

variable {seen : Observations} {row : InputRow} {rows : List InputRow} {issuerId key : String}

theorem get?_setIn {ν : Type} (d : Dict String (Dict String ν)) (outer inner outer' inner' : String) (value : ν) :
    ((setIn d outer inner value).get? outer').bind (fun e => e.get? inner') =
      if outer = outer' ∧ inner = inner' then some value else (d.get? outer').bind fun e => e.get? inner' := by
  unfold setIn
  rw [Dict.get?_set]
  by_cases houter : outer = outer'
  · subst houter
    rw [if_pos rfl, Option.bind_some, Dict.get?_set]
    by_cases hinner : inner = inner'
    · rw [if_pos hinner, if_pos ⟨rfl, hinner⟩]
    · rw [if_neg hinner, if_neg fun h => hinner h.2]
      cases d.get? outer <;> rfl
  · rw [if_neg houter, if_neg fun h => houter h.1]

theorem seriesOf_eq : seriesOf seen issuerId key =
    ((seen.periods.get? issuerId).bind fun series => series.get? key).getD Dict.empty := by
  unfold seriesOf
  cases seen.periods.get? issuerId <;> rfl

theorem seriesOf_observe : seriesOf (observe seen row) issuerId key =
    if row.issuerId = issuerId ∧ row.inputKey = key then
      (match row.fiscalPeriod with
        | none => seriesOf seen issuerId key
        | some tag => (seriesOf seen issuerId key).set tag row)
    else seriesOf seen issuerId key := by
  cases hperiod : row.fiscalPeriod with
  | none =>
    have hsame : seriesOf (observe seen row) issuerId key = seriesOf seen issuerId key := by
      unfold observe
      rw [hperiod]
      rfl
    rw [hsame]
    exact (ite_self _).symm
  | some tag =>
    have hseries : seriesOf (observe seen row) issuerId key =
        (if row.issuerId = issuerId ∧ row.inputKey = key then some ((seriesOf seen row.issuerId row.inputKey).set tag row)
          else (seen.periods.get? issuerId).bind fun series => series.get? key).getD Dict.empty := by
      rw [seriesOf_eq]
      unfold observe
      rw [hperiod]
      dsimp only
      rw [get?_setIn]
      rfl
    rw [hseries]
    by_cases hrow : row.issuerId = issuerId ∧ row.inputKey = key
    · rw [if_pos hrow, if_pos hrow, hrow.1, hrow.2, Option.getD_some]
    · rw [if_neg hrow, if_neg hrow, seriesOf_eq]

theorem answerOf_observe : answerOf (observe seen row) issuerId key =
    if row.issuerId = issuerId ∧ row.inputKey = key then
      (match row.fiscalPeriod with
        | none => some row
        | some _ => some ((latestPeriod (seriesOf (observe seen row) issuerId key)).getD row))
    else answerOf seen issuerId key := by
  cases hperiod : row.fiscalPeriod with
  | none =>
    unfold answerOf observe
    rw [hperiod]
    exact get?_setIn _ _ _ _ _ _
  | some tag =>
    have hanswer : answerOf (observe seen row) issuerId key =
        if row.issuerId = issuerId ∧ row.inputKey = key then
          some ((latestPeriod ((seriesOf seen row.issuerId row.inputKey).set tag row)).getD row)
        else answerOf seen issuerId key := by
      unfold answerOf observe
      rw [hperiod]
      exact get?_setIn _ _ _ _ _ _
    rw [hanswer, seriesOf_observe, hperiod]
    by_cases hrow : row.issuerId = issuerId ∧ row.inputKey = key
    · rw [if_pos hrow, if_pos hrow, if_pos hrow, hrow.1, hrow.2]
    · rw [if_neg hrow, if_neg hrow]

theorem observed_concat (row : InputRow) : observed (rows ++ [row]) = observe (observed rows) row := by
  rw [observed, List.foldl_append]
  rfl

theorem keyRows_concat (row : InputRow) : keyRows (rows ++ [row]) issuerId key =
    if row.issuerId = issuerId ∧ row.inputKey = key then keyRows rows issuerId key ++ [row] else keyRows rows issuerId key := by
  unfold keyRows
  rw [List.filter_append]
  by_cases hrow : row.issuerId = issuerId ∧ row.inputKey = key
  · rw [if_pos hrow]
    simp [hrow]
  · rw [if_neg hrow]
    simpa using fun hissuer hkey => hrow ⟨hissuer, hkey⟩

theorem answerOf_observed (issuerId key : String) :
    answerOf (observed rows) issuerId key = (keyRows rows issuerId key).getLast?.map fun row =>
      match row.fiscalPeriod with
      | none => row
      | some _ => (latestPeriod (seriesOf (observed rows) issuerId key)).getD row := by
  induction rows using List.reverseRecOn with
  | nil => rfl
  | append_singleton rows row ih =>
    rw [observed_concat, keyRows_concat, answerOf_observe]
    by_cases hrow : row.issuerId = issuerId ∧ row.inputKey = key
    · rw [if_pos hrow, if_pos hrow, List.getLast?_concat, Option.map_some]
      cases row.fiscalPeriod <;> rfl
    · rw [if_neg hrow, if_neg hrow, ih, seriesOf_observe, if_neg hrow]

theorem items_seriesOf_observed (hnodup : ((keyRows rows issuerId key).map InputRow.fiscalPeriod).Nodup) :
    (seriesOf (observed rows) issuerId key).items = (keyRows rows issuerId key).filterMap periodEntry := by
  induction rows using List.reverseRecOn with
  | nil => rfl
  | append_singleton rows row ih =>
    rw [keyRows_concat] at hnodup ⊢
    rw [observed_concat, seriesOf_observe]
    by_cases hrow : row.issuerId = issuerId ∧ row.inputKey = key
    · rw [if_pos hrow, List.map_append, List.nodup_append] at hnodup
      obtain ⟨hrows, -, hnew⟩ := hnodup
      rw [if_pos hrow, if_pos hrow, List.filterMap_append, ← ih hrows]
      cases hperiod : row.fiscalPeriod with
      | none => simp [periodEntry, hperiod]
      | some tag =>
        have hfresh : tag ∉ (seriesOf (observed rows) issuerId key).keys := by
          intro htag
          rw [Dict.keys, ih hrows, List.mem_map] at htag
          obtain ⟨entry, hentry, rfl⟩ := htag
          obtain ⟨old, hold, hentry⟩ := List.mem_filterMap.mp hentry
          obtain ⟨tag, htag, rfl⟩ := Option.map_eq_some_iff.mp hentry
          exact hnew old.fiscalPeriod (List.mem_map_of_mem hold) row.fiscalPeriod (by simp) (htag.trans hperiod.symm)
        rw [Dict.items_set_of_not_mem _ hfresh]
        simp [periodEntry, hperiod]
    · rw [if_neg hrow] at hnodup
      rw [if_neg hrow, if_neg hrow, ih hnodup]

end

end TrueAlpha.Strategy
