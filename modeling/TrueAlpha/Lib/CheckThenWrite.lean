import Mathlib.Data.List.Basic

/-!
# Checking, then writing, without a lock

A caller that finds a value in a register is served it; one that finds none writes one later, over what is there then.  The
served value changes only by writes of callers that found none (`Lawful.served_later`).
-/

namespace TrueAlpha.CheckThenWrite

/-- What a caller saw or did. -/
inductive Entry (Caller Value : Type) where
  | missed (caller : Caller)
  | served (caller : Caller) (value : Value)
  | wrote (caller : Caller) (value : Value)
  deriving DecidableEq, Repr

variable {Caller Value : Type} {start : Option Value} {history before between after : List (Entry Caller Value)}

def Entry.written : Entry Caller Value → Option Value
  | .wrote _ value => some value
  | _ => none

def lastWritten (history : List (Entry Caller Value)) : Option Value := (history.filterMap Entry.written).getLast?

/-- The value of the register after a history. -/
def current (start : Option Value) (history : List (Entry Caller Value)) : Option Value := (lastWritten history).or start

/-- An entry that agrees with the register after a history. -/
def Allowed (start : Option Value) (history : List (Entry Caller Value)) : Entry Caller Value → Prop
  | .missed _ => current start history = none
  | .served _ value => current start history = some value
  | .wrote caller _ => .missed caller ∈ history

/-- Each entry agrees with the register as it was. -/
def Lawful (start : Option Value) (history : List (Entry Caller Value)) : Prop :=
  ∀ before entry after, history = before ++ entry :: after → Allowed start before entry

theorem current_append (start : Option Value) (before after : List (Entry Caller Value)) :
    current start (before ++ after) = (lastWritten after).or (current start before) := by
  unfold current lastWritten
  rw [List.filterMap_append, List.getLast?_append, Option.or_assoc]

theorem current_concat_wrote (start : Option Value) (history : List (Entry Caller Value)) (caller : Caller)
    (value : Value) : current start (history ++ [.wrote caller value]) = some value := by
  rw [current_append]
  rfl

theorem current_concat_of_none {entry : Entry Caller Value} (h : entry.written = none) :
    current start (history ++ [entry]) = current start history := by
  have hlast : lastWritten [entry] = none := by simp [lastWritten, h]
  rw [current_append, hlast, Option.none_or]

theorem lawful_nil : Lawful start ([] : List (Entry Caller Value)) := by
  intro before entry after h
  cases before <;> cases h

theorem Lawful.concat (h : Lawful start history) {entry : Entry Caller Value} (hentry : Allowed start history entry) :
    Lawful start (history ++ [entry]) := by
  intro before entry' after heq
  rcases List.eq_nil_or_concat after with rfl | ⟨rest, last, rfl⟩
  · obtain ⟨rfl, hlast⟩ := List.append_inj' heq rfl
    cases hlast
    exact hentry
  · rw [List.concat_eq_append, ← List.cons_append, ← List.append_assoc] at heq
    exact h before entry' rest (List.append_inj_left' heq rfl)

/-- Once a caller has been served, no caller finds the register empty. -/
theorem Lawful.not_missed {caller other : Caller} {value : Value}
    (h : Lawful start (before ++ .served caller value :: between ++ .missed other :: after)) : False := by
  have hserved : current start before = some value := h before (.served caller value) (between ++ .missed other :: after) (by simp)
  have hmissed : current start (before ++ .served caller value :: between) = none := h _ _ after rfl
  rw [current_append, hserved, Option.or_eq_none_iff] at hmissed
  cases hmissed.2

/-- A later caller is served the same value, or the last written since by callers whose check came before the register had a
value. -/
theorem Lawful.served_later {caller caller' : Caller} {value value' : Value}
    (h : Lawful start (before ++ .served caller value :: between ++ .served caller' value' :: after)) :
    value' = (lastWritten between).getD value ∧ ∀ writer written, .wrote writer written ∈ between →
        ∃ early late, before = early ++ .missed writer :: late ∧ current start early = none := by
  constructor
  · have hserved : current start before = some value :=
      h before (.served caller value) (between ++ .served caller' value' :: after) (by simp)
    have hlater : current start (before ++ .served caller value :: between) = some value' := h _ _ after rfl
    have hlast : lastWritten (.served caller value :: between) = lastWritten between := rfl
    rw [current_append, hserved, hlast] at hlater
    cases hwritten : lastWritten between with
    | none =>
      rw [hwritten, Option.none_or] at hlater
      exact (Option.some.inj hlater).symm
    | some written =>
      rw [hwritten, Option.some_or] at hlater
      exact (Option.some.inj hlater).symm
  · intro writer written hmem
    obtain ⟨first, second, rfl⟩ := List.append_of_mem hmem
    have hmissed : .missed writer ∈ before ++ .served caller value :: first :=
      h _ (.wrote writer written) (second ++ .served caller' value' :: after) (by simp)
    rcases List.mem_append.mp hmissed with hbefore | hbetween
    · obtain ⟨early, late, rfl⟩ := List.append_of_mem hbefore
      exact ⟨early, late, rfl, h early (.missed writer) _ (by simp; rfl)⟩
    · rcases List.mem_cons.mp hbetween with heq | hfirst
      · cases heq
      · -- the register had a value from the first served caller on
        obtain ⟨early, late, rfl⟩ := List.append_of_mem hfirst
        have hearlier : Lawful start (before ++ .served caller value :: early ++
            .missed writer :: (late ++ .wrote writer written :: second ++ .served caller' value' :: after)) := by
          simpa using h
        exact hearlier.not_missed.elim

end TrueAlpha.CheckThenWrite
