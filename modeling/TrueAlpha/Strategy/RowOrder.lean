import TrueAlpha.Strategy.PeriodAnswers

/-!
# The order of the staged rows

A scalar row beside periodic rows answers when it is read last.  So the inputs do not depend on the order exactly when each such
row observes what the latest period does (`issuerInputs_latest_iff`).
-/

namespace TrueAlpha.Strategy

structure SameInput (input input' : IssuerInput) : Prop where
  issuerId : input.issuerId = input'.issuerId
  records : Dict.Same Eq input.records input'.records
  knowableAt : Dict.Same Eq input.knowableAt input'.knowableAt
  periodicRecords : Dict.Same (Dict.Same Eq) input.periodicRecords input'.periodicRecords
  issuerClass : input.issuerClass = input'.issuerClass

section

variable {seen seen' : Observations} {issuerId : String} {answers answers' : Dict String InputRow}

theorem exists_issuerInputOf_same (hanswers : Dict.Same SameObservation answers answers')
    (hperiods : Dict.Same (Dict.Same Eq) ((seen.periods.get? issuerId).getD Dict.empty)
      ((seen'.periods.get? issuerId).getD Dict.empty)) {input : IssuerInput}
    (h : issuerInputOf seen issuerId answers = .ok input) :
    ∃ input', issuerInputOf seen' issuerId answers' = .ok input' ∧ SameInput input input' := by
  obtain ⟨hid, hrecords, hknowable, hperiodic⟩ := issuerInputOf_spec h
  have hclass : input.issuerClass = none := by
    obtain ⟨_, -, h⟩ := bind_eq_ok_iff.mp h
    obtain ⟨_, -, h⟩ := bind_eq_ok_iff.mp h
    rw [← pure_eq_ok_iff.mp h]
  obtain ⟨records', hrecords', hsame⟩ := hanswers.exists_mapValM
    (g := fun key row => recordOf issuerId key none row) (S := Eq)
    (fun key row row' hrow record hrecord => ⟨record, (recordOf_congr hrow).symm.trans hrecord, rfl⟩) hrecords
  obtain ⟨periodic', hperiodic', hsamePeriods⟩ := hperiods.exists_mapValM
    (g := fun key series => series.mapValM fun tag row => recordOf issuerId key (some (.tag tag)) row) (S := Dict.Same Eq)
    (fun key series series' hseries _ hmap => hseries.exists_mapValM
      (fun tag row row' hrow record hrecord => ⟨record, hrow ▸ hrecord, rfl⟩) hmap) hperiodic
  refine ⟨⟨issuerId, records', answers'.mapVal fun _ row => row.knowableAt, periodic', none⟩, ?_,
    ⟨hid, hsame, ?_, hsamePeriods, hclass⟩⟩
  · unfold issuerInputOf
    rw [hrecords', ok_bind, hperiodic', ok_bind]
    rfl
  · rw [hknowable]
    exact hanswers.mapVal fun _ _ _ hrow => hrow.2.2

end

/-! ## What the loop keeps of permuted rows -/

section

variable {seen : Observations} {row : InputRow} {rows rows' : List InputRow} {issuerId key : String}

theorem filled_setIn {ν : Type} {d : Dict String (Dict String ν)} (h : d.Filled) (outer inner : String) (value : ν) :
    (setIn d outer inner value).Filled := by
  intro k answers hanswers
  unfold setIn at hanswers
  rw [Dict.get?_set] at hanswers
  split_ifs at hanswers with houter
  · obtain rfl := Option.some.inj hanswers
    exact ⟨inner, value, Dict.get?_set_self _ _ _⟩
  · exact h k answers hanswers

theorem filled_scalars (rows : List InputRow) : (observed rows).scalars.Filled := by
  induction rows using List.reverseRecOn with
  | nil =>
    intro k answers hanswers
    cases hanswers
  | append_singleton rows row ih =>
    rw [observed_concat]
    unfold observe
    split <;> exact filled_setIn ih _ _ _

theorem series_ne_nil {series : Dict String InputRow}
    (h : ((observed rows).periods.get? issuerId).bind (fun d => d.get? key) = some series) : series.items ≠ [] := by
  induction rows using List.reverseRecOn generalizing series with
  | nil => cases h
  | append_singleton rows row ih =>
    rw [observed_concat] at h
    cases hperiod : row.fiscalPeriod with
    | none =>
      unfold observe at h
      rw [hperiod] at h
      exact ih h
    | some tag =>
      unfold observe at h
      rw [hperiod] at h
      dsimp only at h
      rw [get?_setIn] at h
      split_ifs at h with hrow
      · obtain rfl := Option.some.inj h
        intro hnil
        have hget := Dict.get?_set_self
          ((((observed rows).periods.get? row.issuerId).getD Dict.empty).get? row.inputKey |>.getD Dict.empty) tag row
        rw [Dict.get?_eq_some_iff, hnil] at hget
        cases hget
      · exact ih h

theorem bind_periods (seen : Observations) (issuerId key : String) :
    ((seen.periods.get? issuerId).getD Dict.empty).get? key = (seen.periods.get? issuerId).bind fun d => d.get? key := by
  cases seen.periods.get? issuerId <;> rfl

theorem same_periods (h : rows.Perm rows') (hrows : ∀ issuerId key, EncodedRows rows issuerId key) (issuerId : String) :
    Dict.Same (Dict.Same Eq) (((observed rows).periods.get? issuerId).getD Dict.empty)
      (((observed rows').periods.get? issuerId).getD Dict.empty) := by
  intro key
  rw [bind_periods, bind_periods]
  have hitems : (seriesOf (observed rows) issuerId key).items.Perm (seriesOf (observed rows') issuerId key).items := by
    rw [items_seriesOf_observed (hrows issuerId key).nodup, items_seriesOf_observed ((hrows issuerId key).of_perm h).nodup]
    exact (keyRows_perm h issuerId key).filterMap _
  rw [seriesOf_eq, seriesOf_eq] at hitems
  cases hseries : ((observed rows).periods.get? issuerId).bind fun d => d.get? key with
  | none =>
    cases hseries' : ((observed rows').periods.get? issuerId).bind fun d => d.get? key with
    | none => exact .none
    | some series' =>
      rw [hseries, hseries'] at hitems
      exact absurd hitems.symm.eq_nil (series_ne_nil hseries')
  | some series =>
    cases hseries' : ((observed rows').periods.get? issuerId).bind fun d => d.get? key with
    | none =>
      rw [hseries, hseries'] at hitems
      exact absurd hitems.eq_nil (series_ne_nil hseries)
    | some series' =>
      rw [hseries, hseries'] at hitems
      exact .some (Dict.same_of_perm hitems)

end

def ScalarsAgree (rows : List InputRow) : Prop := ∀ scalar ∈ rows, scalar.fiscalPeriod = none →
    ∀ latest, LatestPeriodRow rows scalar.issuerId scalar.inputKey latest → SameObservation scalar latest

section

variable {cutoffAt : Option Instant} {row latest : InputRow} {rows rows' : List InputRow} {inputs : List IssuerInput}
  {issuerId key : String}

theorem SameObservation.refl (row : InputRow) : SameObservation row row := ⟨rfl, rfl, rfl⟩

theorem ScalarsAgree.answer (hagree : ScalarsAgree rows) (hrows : EncodedRows rows issuerId key)
    (hlatest : LatestPeriodRow rows issuerId key latest) (h : answerOf (observed rows) issuerId key = some row) :
    SameObservation row latest := by
  obtain ⟨hmem, hscalar⟩ | hrow := answerOf_cases hrows h
  · obtain ⟨hrow, rfl, rfl⟩ := mem_keyRows.mp hmem
    exact hagree row hrow hscalar latest hlatest
  · rw [hrow.unique hrows hlatest]
    exact .refl latest

theorem ScalarsAgree.of_perm (h : rows.Perm rows') (hagree : ScalarsAgree rows) : ScalarsAgree rows' :=
  fun scalar hscalar hnone latest hlatest =>
    hagree scalar (h.mem_iff.mpr hscalar) hnone latest (hlatest.of_perm h.symm)

theorem ScalarsAgree.rel_answerOf (hagree : ScalarsAgree rows) (h : rows.Perm rows') (hrows : EncodedRows rows issuerId key) :
    Option.Rel SameObservation (answerOf (observed rows) issuerId key) (answerOf (observed rows') issuerId key) := by
  have hperm := keyRows_perm h issuerId key
  cases hanswer : answerOf (observed rows) issuerId key with
  | none =>
    rw [answerOf_eq_none_iff] at hanswer
    rw [answerOf_eq_none_iff.mpr (by rw [hanswer] at hperm; exact hperm.symm.eq_nil)]
    exact .none
  | some row =>
    cases hanswer' : answerOf (observed rows') issuerId key with
    | none =>
      rw [answerOf_eq_none_iff] at hanswer'
      rw [hanswer'] at hperm
      rw [answerOf_eq_none_iff.mpr hperm.eq_nil] at hanswer
      cases hanswer
    | some row' =>
      refine .some ?_
      by_cases hseries : ∃ latest, LatestPeriodRow rows issuerId key latest
      · obtain ⟨latest, hlatest⟩ := hseries
        have hrow := hagree.answer hrows hlatest hanswer
        have hrow' := (hagree.of_perm h).answer (hrows.of_perm h) (hlatest.of_perm h) hanswer'
        exact ⟨hrow.1.trans hrow'.1.symm, hrow.2.1.trans hrow'.2.1.symm, hrow.2.2.trans hrow'.2.2.symm⟩
      · -- without a series one scalar row answers in both orders
        obtain ⟨hmem, hnone⟩ | hlatest := answerOf_cases hrows hanswer
        · obtain ⟨hmem', hnone'⟩ | hlatest' := answerOf_cases (hrows.of_perm h) hanswer'
          · rw [List.inj_on_of_nodup_map hrows.nodup hmem (hperm.mem_iff.mpr hmem') (hnone.trans hnone'.symm)]
            exact .refl row'
          · exact absurd ⟨row', hlatest'.of_perm h.symm⟩ hseries
        · exact absurd ⟨row, hlatest⟩ hseries

theorem not_ahead_of_ok {seen seen' : Observations} (h : rows.foldlM (observeRow cutoffAt) seen = .ok seen') :
    ∀ row ∈ rows, ¬ ∃ cutoff ∈ cutoffAt, cutoff < row.knowableAt := by
  induction rows generalizing seen with
  | nil => exact fun row hrow => absurd hrow List.not_mem_nil
  | cons first rows ih =>
    obtain ⟨next, hnext, hrest⟩ := foldlM_cons_eq_ok.mp h
    unfold observeRow at hnext
    rw [guard_eq_ok_iff] at hnext
    exact List.forall_mem_cons.mpr ⟨hnext.1, ih hrest⟩

theorem observeRow_foldlM_ok (h : ∀ row ∈ rows, ¬ ∃ cutoff ∈ cutoffAt, cutoff < row.knowableAt) (seen : Observations) :
    rows.foldlM (observeRow cutoffAt) seen = .ok (rows.foldl observe seen) := by
  induction rows generalizing seen with
  | nil => rfl
  | cons first rows ih =>
    rw [List.forall_mem_cons] at h
    rw [List.foldlM_cons, observeRow, if_neg h.1, ok_bind, ih h.2]
    rfl

theorem ScalarsAgree.exists_inputs (hagree : ScalarsAgree rows) (hrows : ∀ issuerId key, EncodedRows rows issuerId key)
    (h : issuerInputsFromRows cutoffAt rows = .ok inputs) (hperm : rows.Perm rows') :
    ∃ inputs', issuerInputsFromRows cutoffAt rows' = .ok inputs' ∧ List.Forall₂ SameInput inputs inputs' := by
  obtain ⟨seen, hseen, -⟩ := bind_eq_ok_iff.mp h
  have hahead := not_ahead_of_ok hseen
  have hscalars : Dict.Same (Dict.Same SameObservation) (observed rows).scalars (observed rows').scalars :=
    Dict.same_of_filled (filled_scalars rows) (filled_scalars rows') fun issuerId key =>
      hagree.rel_answerOf hperm (hrows issuerId key)
  obtain ⟨inputs', hinputs', hsame⟩ := exists_mapM_of_forall₂
    (g := fun entry : String × Dict String InputRow => issuerInputOf (observed rows') entry.1 entry.2) (S := SameInput)
    (fun entry entry' hentry input hinput => by
      obtain ⟨hid, hanswers⟩ := hentry
      rw [hid] at hinput
      exact exists_issuerInputOf_same hanswers (same_periods hperm hrows entry'.1) hinput)
    hscalars.forall₂_sortedBy (issuerInputsFromRows_spec h)
  refine ⟨inputs', ?_, hsame⟩
  unfold issuerInputsFromRows
  rw [observeRow_foldlM_ok fun row hrow => hahead row (hperm.mem_iff.mpr hrow), ok_bind]
  exact hinputs'

/-- Every order of the rows gives the same inputs, with the latest period as the scalar, exactly when each scalar row beside a
series observes what its latest period does. -/
theorem issuerInputs_latest_iff (hnodup : (rows.map InputRow.cell).Nodup)
    (hencoded : ∀ row ∈ rows, ∀ tag ∈ row.fiscalPeriod, ∃ finish, EncodedTag finish tag)
    (h : issuerInputsFromRows cutoffAt rows = .ok inputs) :
    (∀ rows', rows.Perm rows' → ∃ inputs', issuerInputsFromRows cutoffAt rows' = .ok inputs' ∧
      List.Forall₂ SameInput inputs inputs' ∧
      ∀ issuerId key latest, LatestPeriodRow rows issuerId key latest → AnsweredBy inputs' issuerId key latest) ↔
    ScalarsAgree rows := by
  have hrows := encodedRows_of_nodup hnodup hencoded
  constructor
  · intro hall scalar hscalar hnone latest hlatest
    -- the order that reads the scalar row last
    have hperm : rows.Perm (rows.erase scalar ++ [scalar]) :=
      (List.perm_cons_erase hscalar).trans (List.perm_append_singleton scalar _).symm
    obtain ⟨inputs', hinputs', -, hanswered⟩ := hall _ hperm
    have hlast : answerOf (observed (rows.erase scalar ++ [scalar])) scalar.issuerId scalar.inputKey = some scalar := by
      rw [observed_concat, answerOf_observe, if_pos ⟨rfl, rfl⟩, hnone]
    exact (answeredBy_iff hinputs' hlast).mp (hanswered _ _ _ hlatest)
  · intro hagree rows' hperm
    obtain ⟨inputs', hinputs', hsame⟩ := hagree.exists_inputs hrows h hperm
    refine ⟨inputs', hinputs', hsame, fun issuerId key latest hlatest => ?_⟩
    cases hanswer : answerOf (observed rows') issuerId key with
    | none =>
      have hmem := (hlatest.of_perm hperm).mem
      rw [answerOf_eq_none_iff.mp hanswer] at hmem
      cases hmem
    | some row =>
      exact (answeredBy_iff hinputs' hanswer).mpr
        ((hagree.of_perm hperm).answer ((hrows issuerId key).of_perm hperm) (hlatest.of_perm hperm) hanswer)

end

def mixedRows (scalar : ℚ) : List InputRow := [⟨"issuer:a", "net_income", 100, 9/10, some "FY2021:FY:2021-01-01:2021-12-31", 10⟩,
  ⟨"issuer:a", "net_income", 300, 9/10, some "FY2023:FY:2023-01-01:2023-12-31", 20⟩,
  ⟨"issuer:a", "net_income", scalar, 9/10, none, 20⟩]

example : (issuerInputsFromRows none (mixedRows 999)).isOk = true := by decide +kernel

theorem nodup_mixedRows (scalar : ℚ) : ((mixedRows scalar).map InputRow.cell).Nodup := by
  simp only [mixedRows, List.map_cons, List.map_nil, InputRow.cell]
  decide +kernel

theorem encoded_mixedRows (scalar : ℚ) : ∀ row ∈ mixedRows scalar, ∀ tag ∈ row.fiscalPeriod, ∃ finish, EncodedTag finish tag := by
  intro row hrow tag htag
  simp only [mixedRows, List.mem_cons, List.not_mem_nil, or_false] at hrow
  obtain rfl | rfl | rfl := hrow
  · obtain rfl := Option.some.inj htag
    exact ⟨738155, by decide, none, by decide +kernel⟩
  · obtain rfl := Option.some.inj htag
    exact ⟨738885, by decide, none, by decide +kernel⟩
  · cases htag

theorem latest_mixedRows (scalar : ℚ) : LatestPeriodRow (mixedRows scalar) "issuer:a" "net_income"
    ⟨"issuer:a", "net_income", 300, 9/10, some "FY2023:FY:2023-01-01:2023-12-31", 20⟩ := by
  exact latestPeriodRow_of_latestPeriod (encodedRows_of_nodup (nodup_mixedRows scalar) (encoded_mixedRows scalar) _ _) rfl

theorem exists_inputs_mixedRows (scalar : ℚ) : ∃ inputs, issuerInputsFromRows none (mixedRows scalar) = .ok inputs := by
  exact ⟨_, rfl⟩

/-- A scalar row that is read last takes the place of the latest period. -/
theorem issuerInputs_not_latest : ¬ ∀ cutoffAt rows inputs, (rows.map InputRow.cell).Nodup →
      (∀ row ∈ rows, ∀ tag ∈ row.fiscalPeriod, ∃ finish, EncodedTag finish tag) →
      issuerInputsFromRows cutoffAt rows = .ok inputs →
      ∀ rows', rows.Perm rows' → ∃ inputs', issuerInputsFromRows cutoffAt rows' = .ok inputs' ∧
        List.Forall₂ SameInput inputs inputs' ∧
        ∀ issuerId key latest, LatestPeriodRow rows issuerId key latest → AnsweredBy inputs' issuerId key latest := by
  intro hall
  obtain ⟨inputs, hinputs⟩ := exists_inputs_mixedRows 999
  obtain ⟨inputs', hinputs', -, hanswered⟩ :=
    hall none (mixedRows 999) inputs (nodup_mixedRows 999) (encoded_mixedRows 999) hinputs _ (List.Perm.refl _)
  have hlast : answerOf (observed (mixedRows 999)) "issuer:a" "net_income" =
      some ⟨"issuer:a", "net_income", 999, 9/10, none, 20⟩ := rfl
  have hsame := (answeredBy_iff hinputs' hlast).mp (hanswered _ _ _ (latest_mixedRows 999))
  exact absurd hsame.1 (by norm_num)

/-- A scalar row read first that has the latest period's value takes nothing from it. -/
theorem issuerInputs_latest_mixedRows : ∃ inputs', issuerInputsFromRows none (mixedRows 300).reverse = .ok inputs' ∧
      ∀ issuerId key latest, LatestPeriodRow (mixedRows 300) issuerId key latest → AnsweredBy inputs' issuerId key latest := by
  obtain ⟨inputs, hinputs⟩ := exists_inputs_mixedRows 300
  have hagree : ScalarsAgree (mixedRows 300) := by
    intro scalar hscalar hnone latest hlatest
    simp only [mixedRows, List.mem_cons, List.not_mem_nil, or_false] at hscalar
    obtain rfl | rfl | rfl := hscalar
    · cases hnone
    · cases hnone
    · have hrows := encodedRows_of_nodup (nodup_mixedRows 300) (encoded_mixedRows 300)
      rw [hlatest.unique (hrows _ _) (latest_mixedRows 300)]
      exact ⟨rfl, rfl, rfl⟩
  obtain ⟨inputs', hinputs', -, hanswered⟩ :=
    (issuerInputs_latest_iff (nodup_mixedRows 300) (encoded_mixedRows 300) hinputs).mpr hagree _
      (List.reverse_perm (mixedRows 300)).symm
  exact ⟨inputs', hinputs', hanswered⟩

end TrueAlpha.Strategy
