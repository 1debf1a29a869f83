import Mathlib.Data.List.Chain
import TrueAlpha.Lib.Latest

/-!
# A revised cell

The log of a cell keeps one vintage for each value that differs from the one before it (`revise`); a reader takes the latest
vintage up to its cutoff (`shownAt`).  `shownAt_revise_iff` says when it sees what was written.
-/

namespace TrueAlpha

/-- A value of a cell, with the time from which it is known. -/
structure CellVintage (β τ : Type*) where
  value : β
  time : τ

namespace RevisedCell

variable {β τ : Type*} {cut cutoff seen seen' bound : τ} {log : List (CellVintage β τ)} {value value' : β}

/-- The value that was written last. -/
def newestStored (log : List (CellVintage β τ)) : Option β := log.getLast?.map CellVintage.value

theorem newestStored_concat (log : List (CellVintage β τ)) (vintage : CellVintage β τ) :
    newestStored (log ++ [vintage]) = some vintage.value := by
  rw [newestStored, List.getLast?_concat]
  rfl

theorem isSome_newestStored : (newestStored log).isSome = !log.isEmpty := by
  rw [newestStored, Option.isSome_map]
  cases log with
  | nil => rfl
  | cons first rest => rw [List.getLast?_cons]; rfl

theorem newestStored_eq_none_iff : newestStored log = none ↔ log = [] := by
  rw [newestStored, Option.map_eq_none_iff, List.getLast?_eq_none_iff]

variable [LinearOrder τ]

/-- The time of the next vintage: the cut at first, and for a revision not before it was seen. -/
def vintageTime (cut : τ) (log : List (CellVintage β τ)) (seen : τ) : τ := if log.isEmpty then cut else max cut seen

theorem vintageTime_of_ne_nil (h : log ≠ []) : vintageTime cut log seen = max cut seen := by
  cases log with
  | nil => exact absurd rfl h
  | cons _ _ => rfl

theorem vintageTime_le : vintageTime cut log seen ≤ max cut seen := by
  unfold vintageTime
  split_ifs
  · exact le_max_left cut seen
  · exact le_refl _

theorem cut_le_vintageTime : cut ≤ vintageTime cut log seen := by
  unfold vintageTime
  split_ifs
  · exact le_refl cut
  · exact le_max_left cut seen

/-- What a reader at a cutoff sees. -/
def shownAt (cutoff : τ) (log : List (CellVintage β τ)) : Option (CellVintage β τ) :=
  latestBy CellVintage.time (log.filter (·.time ≤ cutoff))

theorem shownAt_nil : shownAt cutoff ([] : List (CellVintage β τ)) = none := rfl

/-- A new vintage known at the cutoff wins exactly when the reader saw none known later. -/
theorem shownAt_concat {vintage : CellVintage β τ} (h : vintage.time ≤ cutoff) :
    shownAt cutoff (log ++ [vintage]) = newer CellVintage.time (shownAt cutoff log) vintage := by
  rw [shownAt, List.filter_append, List.filter_cons_of_pos (by simpa using h), List.filter_nil, latestBy_concat_eq]
  rfl

/-- The log of writes that were all seen up to a bound, in order. -/
structure Settled (cut bound : τ) (log : List (CellVintage β τ)) : Prop where
  ordered : log.Pairwise fun earlier later => earlier.time ≤ later.time
  revised : log.IsChain fun earlier later => earlier.value ≠ later.value
  after_cut : ∀ vintage ∈ log, cut ≤ vintage.time
  known : ∀ vintage ∈ log, vintage.time ≤ max cut bound

namespace Settled

theorem nil : Settled cut bound ([] : List (CellVintage β τ)) where
  ordered := .nil
  revised := .nil
  after_cut := by simp
  known := by simp

theorem mono (h : Settled cut bound log) (hbound : bound ≤ seen) : Settled cut seen log where
  ordered := h.ordered
  revised := h.revised
  after_cut := h.after_cut
  known vintage hvintage := (h.known vintage hvintage).trans (max_le_max_left cut hbound)

theorem concat (h : Settled cut bound log) (hseen : bound ≤ seen) (hvalue : newestStored log ≠ some value) :
    Settled cut seen (log ++ [⟨value, vintageTime cut log seen⟩]) := by
  have hlatest : ∀ vintage ∈ log, vintage.time ≤ vintageTime cut log seen := by
    intro vintage hvintage
    rw [vintageTime_of_ne_nil (List.ne_nil_of_mem hvintage)]
    exact (h.mono hseen).known vintage hvintage
  refine ⟨?_, ?_, ?_, ?_⟩
  · refine List.pairwise_append.mpr ⟨h.ordered, List.pairwise_singleton _ _, fun vintage hvintage added hadded => ?_⟩
    rw [List.mem_singleton.mp hadded]
    exact hlatest vintage hvintage
  · refine List.isChain_append.mpr ⟨h.revised, .singleton _, fun vintage hvintage added hadded hequal => hvalue ?_⟩
    cases hadded
    rw [newestStored, hvintage]
    exact congrArg some hequal
  · intro vintage hvintage
    rcases List.mem_append.mp hvintage with hbefore | hadded
    · exact h.after_cut vintage hbefore
    · rw [List.mem_singleton.mp hadded]
      exact cut_le_vintageTime
  · intro vintage hvintage
    rcases List.mem_append.mp hvintage with hbefore | hadded
    · exact (h.mono hseen).known vintage hbefore
    · rw [List.mem_singleton.mp hadded]
      exact vintageTime_le

end Settled

variable [DecidableEq β]

/-- Write a value that was seen at a time, unless it is the newest one. -/
def revise (cut : τ) (log : List (CellVintage β τ)) (value : β) (seen : τ) : List (CellVintage β τ) :=
  if newestStored log = some value then log else log ++ [⟨value, vintageTime cut log seen⟩]

theorem revise_of_eq (h : newestStored log = some value) : revise cut log value seen = log := if_pos h

theorem revise_of_ne (h : newestStored log ≠ some value) :
    revise cut log value seen = log ++ [⟨value, vintageTime cut log seen⟩] := if_neg h

theorem newestStored_revise : newestStored (revise cut log value seen) = some value := by
  by_cases h : newestStored log = some value
  · rwa [revise_of_eq h]
  · rw [revise_of_ne h, newestStored_concat]

theorem revise_ne_nil : revise cut log value seen ≠ [] := by
  intro h
  have hnone := newestStored_eq_none_iff.mpr h
  rw [newestStored_revise] at hnone
  cases hnone

/-- Writing a value again changes nothing. -/
theorem revise_revise_self : revise cut (revise cut log value seen) value seen' = revise cut log value seen :=
  revise_of_eq newestStored_revise

theorem Settled.revise (h : Settled cut bound log) (hseen : bound ≤ seen) : Settled cut seen (revise cut log value seen) := by
  by_cases hvalue : newestStored log = some value
  · rw [revise_of_eq hvalue]
    exact h.mono hseen
  · rw [revise_of_ne hvalue]
    exact h.concat hseen hvalue

omit [DecidableEq β] in
/-- What wins against a new vintage. -/
theorem newer_value_eq_iff {best : Option (CellVintage β τ)} {vintage : CellVintage β τ} :
    (newer CellVintage.time best vintage).map CellVintage.value = some value ↔
      (vintage.value = value ∧ ∀ shown ∈ best, shown.time ≤ vintage.time) ∨
        ∃ shown ∈ best, shown.value = value ∧ vintage.time < shown.time := by
  cases best with
  | none => simp [newer]
  | some shown =>
    by_cases h : shown.time ≤ vintage.time
    · simp [newer, h, not_lt.mpr h]
    · simp [newer, h, not_le.mp h]

/-- When one write is seen at a late cutoff, over what was stored and shown before it. -/
def ShownAfter (cut cutoff : τ) (log : List (CellVintage β τ)) (value : β) (seen : τ) : Prop :=
  (∃ shown ∈ shownAt cutoff log, shown.value = value) ∨
    newestStored log ≠ some value ∧ ∀ shown ∈ shownAt cutoff log, shown.time ≤ vintageTime cut log seen

theorem shownAt_revise_iff (hcut : cut ≤ cutoff) (hseen : seen ≤ cutoff) :
    (shownAt cutoff (revise cut log value seen)).map CellVintage.value = some value ↔ ShownAfter cut cutoff log value seen := by
  unfold ShownAfter
  by_cases hvalue : newestStored log = some value
  · rw [revise_of_eq hvalue, Option.map_eq_some_iff]
    simp [hvalue]
  · rw [revise_of_ne hvalue, shownAt_concat (vintageTime_le.trans (max_le hcut hseen)), newer_value_eq_iff]
    cases shownAt cutoff log with
    | none => simp [hvalue]
    | some shown =>
      rcases le_or_gt shown.time (vintageTime cut log seen) with hle | hlt
      · simp [hvalue, hle]
      · simp [hlt, not_le.mpr hlt]

/-- A late cutoff sees a write after a write of another value that was not seen after it. -/
def ShownSecond (cut cutoff : τ) (log : List (CellVintage β τ)) (value : β) (seen : τ) : Prop :=
  (∃ shown ∈ shownAt cutoff log, shown.value = value) ∨ ∀ shown ∈ shownAt cutoff log, shown.time ≤ max cut seen

/-- The value of a write has a later time than another value seen earlier can have, or the write is a revision with such a time.
-/
def ShownFirst (cut cutoff : τ) (log : List (CellVintage β τ)) (value : β) (seen earlier : τ) : Prop :=
  (∃ shown ∈ shownAt cutoff log, shown.value = value ∧ max cut earlier < shown.time) ∨
    log ≠ [] ∧ newestStored log ≠ some value ∧ cut < seen ∧ ∀ shown ∈ shownAt cutoff log, shown.time ≤ max cut seen

theorem shownAt_later_second_iff (hcut : cut ≤ cutoff) (hseen : seen ≤ seen') (hseen' : seen' ≤ cutoff) (hne : value ≠ value') :
    (shownAt cutoff (revise cut (revise cut log value seen) value' seen')).map CellVintage.value = some value' ↔
      ShownSecond cut cutoff log value' seen' := by
  unfold ShownSecond
  have hstored : newestStored (revise cut log value seen) ≠ some value' := by
    rw [newestStored_revise]
    exact fun h => hne (Option.some.inj h)
  have hfirst : vintageTime cut log seen ≤ max cut seen' := vintageTime_le.trans (max_le_max_left cut hseen)
  have hlate : max cut seen' ≤ cutoff := max_le hcut hseen'
  rw [revise_of_ne hstored, vintageTime_of_ne_nil revise_ne_nil, shownAt_concat hlate, newer_value_eq_iff]
  generalize max cut seen' = late at hfirst hlate ⊢
  by_cases hvalue : newestStored log = some value
  · rw [revise_of_eq hvalue]
    cases shownAt cutoff log with
    | none => simp
    | some shown =>
      rcases le_or_gt shown.time late with hle | hlt
      · simp [hle]
      · simp [hlt.not_ge, hlt]
  · rw [revise_of_ne hvalue, shownAt_concat (hfirst.trans hlate)]
    cases shownAt cutoff log with
    | none => simp [newer, hfirst]
    | some shown =>
      rcases le_or_gt shown.time (vintageTime cut log seen) with hle | hlt
      · simp [newer, hle, hfirst, hle.trans hfirst]
      · rcases le_or_gt shown.time late with hle' | hlt'
        · simp [newer, hlt.not_ge, hle']
        · simp [newer, hlt.not_ge, hlt'.not_ge, hlt']

theorem shownAt_later_first_iff (hcut : cut ≤ cutoff) (hseen : seen' < seen) (hseen' : seen ≤ cutoff) (hne : value ≠ value') :
    (shownAt cutoff (revise cut (revise cut log value seen) value' seen')).map CellVintage.value = some value ↔
      ShownFirst cut cutoff log value seen seen' := by
  unfold ShownFirst
  have hstored : newestStored (revise cut log value seen) ≠ some value' := by
    rw [newestStored_revise]
    exact fun h => hne (Option.some.inj h)
  have hlate : max cut seen ≤ cutoff := max_le hcut hseen'
  have hlate' : max cut seen' ≤ cutoff := (max_le_max_left cut hseen.le).trans hlate
  have hlt_iff : max cut seen' < max cut seen ↔ cut < seen := by
    rw [max_lt_iff, lt_max_iff, lt_max_iff]
    constructor
    · rintro ⟨hirrefl | hcut', -⟩
      · exact absurd hirrefl (lt_irrefl cut)
      · exact hcut'
    · exact fun hcut' => ⟨Or.inr hcut', Or.inr hseen⟩
  rw [revise_of_ne hstored, vintageTime_of_ne_nil revise_ne_nil, shownAt_concat hlate', newer_value_eq_iff]
  by_cases hvalue : newestStored log = some value
  · rw [revise_of_eq hvalue]
    simp [hvalue, hne.symm]
  · rw [revise_of_ne hvalue, shownAt_concat (vintageTime_le.trans hlate)]
    by_cases hlog : log = []
    · rw [hlog]
      simp [shownAt_nil, newer, vintageTime, hne.symm]
    · rw [vintageTime_of_ne_nil hlog, ← hlt_iff]
      generalize max cut seen' = before at *
      generalize max cut seen = late at *
      cases shownAt cutoff log with
      | none => simp [newer, hne.symm, hlog, hvalue]
      | some shown =>
        rcases le_or_gt shown.time late with hle | hlt
        · have himp : before < shown.time → before < late := fun h => h.trans_le hle
          simp only [newer, hle, if_true, Option.mem_some_iff, exists_eq_left', forall_eq', hne.symm, false_and, false_or,
            true_and, ne_eq, hlog, not_false_eq_true, hvalue, and_true]
          tauto
        · simp [newer, hlt.not_ge, hne.symm]

end RevisedCell

end TrueAlpha
