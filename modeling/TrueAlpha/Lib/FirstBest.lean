import Mathlib.Data.Prod.Lex
import TrueAlpha.Lib.Dict

/-!
# The first best of a list

A loop that replaces its candidate by a strictly better one ends with the first of the best (`firstBest_spec`); the order of the
list does not matter exactly when all best ones agree (`firstBest_perm_iff`).
-/

namespace TrueAlpha

variable {α β γ δ : Type*} [LinearOrder β] (rank : α → β)

/-- One step of the loop: a candidate replaces a best one that is strictly worse. -/
def better (best candidate : Option α) : Option α :=
  match candidate, best with
  | none, best => best
  | some a, none => some a
  | some a, some b => if rank a < rank b then some a else some b

def firstBest (l : List (Option α)) : Option α := l.foldl (better rank) none

@[simp] theorem better_none_right (best : Option α) : better rank best none = best := by
  cases best <;> rfl

@[simp] theorem better_none_left (candidate : Option α) : better rank none candidate = candidate := by
  cases candidate <;> rfl

theorem firstBest_concat (l : List (Option α)) (candidate : Option α) :
    firstBest rank (l ++ [candidate]) = better rank (firstBest rank l) candidate := by
  rw [firstBest, List.foldl_append]
  rfl

theorem better_eq_none_iff {best candidate : Option α} : better rank best candidate = none ↔ best = none ∧ candidate = none := by
  cases candidate with
  | none => simp
  | some a =>
    cases best with
    | none => simp
    | some b =>
      simp only [better]
      split_ifs <;> simp

variable {l : List (Option α)}

theorem firstBest_eq_none_iff : firstBest rank l = none ↔ ∀ candidate ∈ l, candidate = none := by
  induction l using List.reverseRecOn with
  | nil => simp [firstBest]
  | append_singleton l candidate ih =>
    rw [firstBest_concat, better_eq_none_iff, ih]
    simp [or_imp, forall_and]

theorem firstBest_spec {a : α} (h : firstBest rank l = some a) : ∃ i : ℕ, l[i]? = some (some a) ∧
      ∀ (j : ℕ) (b : α), l[j]? = some (some b) → toLex (rank a, i) ≤ toLex (rank b, j) := by
  induction l using List.reverseRecOn generalizing a with
  | nil => cases h
  | append_singleton l candidate ih =>
    rw [firstBest_concat] at h
    have hold : ∀ (j : ℕ) (b : α), (l ++ [candidate])[j]? = some (some b) →
        l[j]? = some (some b) ∨ j = l.length ∧ candidate = some b := by
      intro j b hj
      rcases Nat.lt_trichotomy j l.length with hlt | rfl | hgt
      · rw [List.getElem?_append_left hlt] at hj
        exact Or.inl hj
      · rw [List.getElem?_concat_length] at hj
        exact Or.inr ⟨rfl, Option.some.inj hj⟩
      · rw [List.getElem?_eq_none (by simp; omega)] at hj
        cases hj
    have hkept : ∀ {i : ℕ} {b : α}, l[i]? = some (some b) → (l ++ [candidate])[i]? = some (some b) := by
      intro i b hi
      rw [List.getElem?_append_left (List.getElem?_eq_some_iff.mp hi).1]
      exact hi
    cases hbest : firstBest rank l with
    | none =>
      rw [hbest, better_none_left] at h
      subst h
      refine ⟨l.length, by simp, fun j b hj => ?_⟩
      rcases hold j b hj with hin | ⟨rfl, hsame⟩
      · have hnone := (firstBest_eq_none_iff rank).mp hbest _ (List.mem_of_getElem? hin)
        cases hnone
      · cases hsame
        exact le_rfl
    | some best =>
      obtain ⟨i, hi, hleast⟩ := ih hbest
      rw [hbest] at h
      have hlt : i < l.length := (List.getElem?_eq_some_iff.mp hi).1
      cases candidate with
      | none =>
        rw [better_none_right] at h
        cases h
        refine ⟨i, hkept hi, fun j b hj => ?_⟩
        rcases hold j b hj with hin | ⟨rfl, hsame⟩
        · exact hleast j b hin
        · cases hsame
      | some new =>
        simp only [better] at h
        split_ifs at h with hrank
        · cases h
          refine ⟨l.length, by simp, fun j b hj => ?_⟩
          rcases hold j b hj with hin | ⟨rfl, hsame⟩
          · have hle := Prod.Lex.monotone_fst _ _ (hleast j b hin)
            exact Prod.Lex.toLex_le_toLex.mpr (Or.inl (hrank.trans_le hle))
          · cases hsame
            exact le_rfl
        · cases h
          refine ⟨i, hkept hi, fun j b hj => ?_⟩
          rcases hold j b hj with hin | ⟨rfl, hsame⟩
          · exact hleast j b hin
          · cases hsame
            rcases lt_or_eq_of_le (not_lt.mp hrank) with hlow | heq
            · exact Prod.Lex.toLex_le_toLex.mpr (Or.inl hlow)
            · exact Prod.Lex.toLex_le_toLex.mpr (Or.inr ⟨heq, hlt.le⟩)

/-- A candidate of the list that no other one is better than. -/
def IsBest (l : List (Option α)) (a : α) : Prop := some a ∈ l ∧ ∀ b, some b ∈ l → rank a ≤ rank b

theorem isBest_of_firstBest {a : α} (h : firstBest rank l = some a) : IsBest rank l a := by
  obtain ⟨i, hi, hleast⟩ := firstBest_spec rank h
  refine ⟨List.mem_of_getElem? hi, fun b hb => ?_⟩
  obtain ⟨j, hj⟩ := List.mem_iff_getElem?.mp hb
  exact Prod.Lex.monotone_fst _ _ (hleast j b hj)

theorem firstBest_cons_of_isBest {a : α} (h : IsBest rank (some a :: l) a) : firstBest rank (some a :: l) = some a := by
  cases hbest : firstBest rank (some a :: l) with
  | none => cases (firstBest_eq_none_iff rank).mp hbest _ List.mem_cons_self
  | some b =>
    obtain ⟨i, hi, hleast⟩ := firstBest_spec rank hbest
    have hb : rank a ≤ rank b := h.2 b (List.mem_of_getElem? hi)
    rcases Prod.Lex.toLex_le_toLex.mp (hleast 0 a rfl) with hlt | ⟨-, hzero⟩
    · exact absurd hlt (not_lt.mpr hb)
    · obtain rfl := Nat.le_zero.mp hzero
      cases hi
      rfl

theorem isBest_perm {l l' : List (Option α)} (h : l'.Perm l) {a : α} : IsBest rank l' a ↔ IsBest rank l a := by
  unfold IsBest
  simp only [h.mem_iff]

/-- The order of the steps does not matter exactly when all best candidates look the same. -/
theorem firstBest_perm_iff (candidate : δ → Option α) (φ : α → γ) (l : List δ) :
    (∀ l' : List δ, l'.Perm l → (firstBest rank (l'.map candidate)).map φ = (firstBest rank (l.map candidate)).map φ) ↔
      ∀ a b, IsBest rank (l.map candidate) a → IsBest rank (l.map candidate) b → φ a = φ b := by
  constructor
  · intro hsame a b ha hb
    have hfront : ∀ c, IsBest rank (l.map candidate) c → (firstBest rank (l.map candidate)).map φ = some (φ c) := by
      intro c hc
      obtain ⟨x, hx, hcandidate⟩ := List.mem_map.mp hc.1
      obtain ⟨s, t, rfl⟩ := List.append_of_mem hx
      have hperm : (x :: (s ++ t)).Perm (s ++ x :: t) := List.perm_middle.symm
      have hc' := (isBest_perm rank (hperm.map candidate)).mpr hc
      rw [List.map_cons, hcandidate] at hc'
      rw [← hsame _ hperm, List.map_cons, hcandidate, firstBest_cons_of_isBest rank hc']
      rfl
    exact Option.some.inj ((hfront a ha).symm.trans (hfront b hb))
  · intro hagree l' hperm
    have hmem := hperm.map candidate
    cases hbest : firstBest rank (l.map candidate) with
    | none =>
      have hnone : firstBest rank (l'.map candidate) = none := by
        rw [firstBest_eq_none_iff] at hbest ⊢
        exact fun c hc => hbest c (hmem.mem_iff.mp hc)
      rw [hnone]
    | some a =>
      cases hbest' : firstBest rank (l'.map candidate) with
      | none =>
        rw [firstBest_eq_none_iff] at hbest'
        cases hbest' _ (hmem.mem_iff.mpr (isBest_of_firstBest rank hbest).1)
      | some b =>
        have hb := (isBest_perm rank hmem).mp (isBest_of_firstBest rank hbest')
        rw [Option.map_some, Option.map_some, hagree b a hb (isBest_of_firstBest rank hbest)]

section

variable {κ : Type*} [DecidableEq κ]

/-- Set a value that is strictly better than the one of its key. -/
def keepBetter (d : Dict κ α) (k : κ) (a : α) : Dict κ α :=
  match d.get? k with
  | none => d.set k a
  | some existing => if rank a < rank existing then d.set k a else d

theorem get?_keepBetter (d : Dict κ α) (k k' : κ) (a : α) :
    (keepBetter rank d k a).get? k' = better rank (d.get? k') (if k = k' then some a else none) := by
  unfold keepBetter
  by_cases hkey : k = k'
  · subst hkey
    rw [if_pos rfl]
    cases hvalue : d.get? k with
    | none => exact (Dict.get?_set_self d k a).trans (better_none_left rank _).symm
    | some existing =>
      by_cases hlt : rank a < rank existing
      · simp only [better, if_pos hlt]
        exact Dict.get?_set_self d k a
      · simp only [better, if_neg hlt]
        exact hvalue
  · rw [if_neg hkey, better_none_right]
    cases d.get? k with
    | none => exact Dict.get?_set_of_ne d a hkey
    | some existing =>
      by_cases hlt : rank a < rank existing
      · simp only [if_pos hlt]
        exact Dict.get?_set_of_ne d a hkey
      · simp only [if_neg hlt]

theorem get?_foldl_keepBetter (items : List (κ × α)) (hnodup : (items.map Prod.fst).Nodup) (d : Dict κ α) (k : κ) :
    (items.foldl (fun d item => keepBetter rank d item.1 item.2) d).get? k =
      better rank (d.get? k) (Dict.lookupItems k items) := by
  induction items generalizing d with
  | nil => exact (better_none_right rank _).symm
  | cons item rest ih =>
    obtain ⟨k', a⟩ := item
    rw [List.map_cons, List.nodup_cons] at hnodup
    rw [List.foldl_cons, ih hnodup.2, get?_keepBetter, Dict.lookupItems]
    by_cases hkey : k' = k
    · subst hkey
      have hrest : Dict.lookupItems k' rest = none := by
        rw [← Option.not_isSome_iff_eq_none, Dict.lookupItems_isSome_iff]
        exact hnodup.1
      simp only [hrest, better_none_right]
    · rw [if_neg hkey, if_neg hkey, better_none_right]

end

end TrueAlpha
