import Mathlib.Data.List.Induction
import Mathlib.Data.List.Lex
import Mathlib.Order.Lattice

/-!
# Combinations and the first least candidate

`combinations l n` are the sublists of `l` with `n` elements in the order of their places (`itertools.combinations`).
`firstLeast measure l` is the first candidate whose measure is least.
-/

namespace TrueAlpha

variable {α β : Type*}

/-- The sublists with a number of elements, those with the first element first. -/
def combinations : List α → ℕ → List (List α)
  | _, 0 => [[]]
  | [], _ + 1 => []
  | a :: l, n + 1 => (combinations l n).map (a :: ·) ++ combinations l (n + 1)

@[simp] theorem combinations_zero (l : List α) : combinations l 0 = [[]] := by
  cases l <;> rfl

theorem mem_combinations {l members : List α} {n : ℕ} : members ∈ combinations l n ↔ members.Sublist l ∧ members.length = n := by
  induction l generalizing members n with
  | nil =>
    cases n with
    | zero =>
      rw [combinations_zero, List.mem_singleton, List.sublist_nil]
      exact ⟨fun h => ⟨h, by simp [h]⟩, And.left⟩
    | succ n =>
      rw [List.sublist_nil]
      refine Iff.intro (fun h => by cases h) ?_
      rintro ⟨rfl, h⟩
      cases h
  | cons a l ih =>
    cases n with
    | zero =>
      rw [combinations_zero, List.mem_singleton, List.length_eq_zero_iff]
      refine ⟨?_, And.right⟩
      rintro rfl
      exact ⟨List.nil_sublist _, rfl⟩
    | succ n =>
      rw [combinations, List.mem_append, List.mem_map, ih]
      refine ⟨?_, ?_⟩
      · rintro (⟨rest, hrest, rfl⟩ | ⟨hsub, hlength⟩)
        · obtain ⟨hsub, hlength⟩ := ih.mp hrest
          exact ⟨hsub.cons_cons a, by rw [List.length_cons, hlength]⟩
        · exact ⟨hsub.cons a, hlength⟩
      · rintro ⟨hsub, hlength⟩
        cases hsub with
        | cons _ hsub => exact .inr ⟨hsub, hlength⟩
        | cons_cons _ hsub =>
          rw [List.length_cons, Nat.add_right_cancel_iff] at hlength
          exact .inl ⟨_, ih.mpr ⟨hsub, hlength⟩, rfl⟩

variable {l : List α} {r : α → α → Prop}

theorem pairwise_combinations (h : l.Pairwise r) (n : ℕ) : (combinations l n).Pairwise (List.Lex r) := by
  induction l generalizing n with
  | nil =>
    cases n with
    | zero => exact List.pairwise_singleton _ _
    | succ n => exact List.Pairwise.nil
  | cons a l ih =>
    rw [List.pairwise_cons] at h
    cases n with
    | zero => exact List.pairwise_singleton _ _
    | succ n =>
      rw [combinations, List.pairwise_append, List.pairwise_map]
      refine ⟨(ih h.2 n).imp fun hlex => List.Lex.cons hlex, ih h.2 (n + 1), ?_⟩
      intro first hfirst second hsecond
      obtain ⟨rest, -, rfl⟩ := List.mem_map.mp hfirst
      obtain ⟨hsub, hlength⟩ := mem_combinations.mp hsecond
      cases second with
      | nil => cases hlength
      | cons b second => exact List.Lex.rel (h.1 b (hsub.subset List.mem_cons_self))

/-! ## The first least candidate -/

section FirstLeast

variable {γ : Type*} [LinearOrder γ] (measure : α → Option β) (key : β → γ)

/-- A candidate displaces the best one only when it is strictly smaller. -/
def keepLess (best : Option (α × β)) (a : α) : Option (α × β) :=
  match measure a, best with
  | none, _ => best
  | some found, none => some (a, found)
  | some found, some (held, least) => if key found < key least then some (a, found) else some (held, least)

def firstLeast (l : List α) : Option (α × β) := l.foldl (keepLess measure key) none

theorem firstLeast_concat (l : List α) (a : α) :
    firstLeast measure key (l ++ [a]) = keepLess measure key (firstLeast measure key l) a := by
  rw [firstLeast, List.foldl_append]
  rfl

/-- After some candidates: nothing while none has a measure, else the first of the least measure. -/
theorem firstLeast_spec (l : List α) : (firstLeast measure key l = none ∧ ∀ a ∈ l, measure a = none) ∨
      ∃ before a after found, l = before ++ a :: after ∧ firstLeast measure key l = some (a, found) ∧
        measure a = some found ∧ (∀ b ∈ before, ∀ other, measure b = some other → key found < key other) ∧
        ∀ b ∈ after, ∀ other, measure b = some other → key found ≤ key other := by
  induction l using List.reverseRecOn with
  | nil => exact .inl ⟨rfl, fun a ha => by cases ha⟩
  | append_singleton l a ih =>
    rw [firstLeast_concat]
    rcases hmeasure : measure a with _ | found
    · -- a candidate without a measure changes nothing
      have hkeep : keepLess measure key (firstLeast measure key l) a = firstLeast measure key l := by
        simp only [keepLess, hmeasure]
      rw [hkeep]
      rcases ih with ⟨hnone, hall⟩ | ⟨before, b, after, held, rfl, hbest, hb, hbefore, hafter⟩
      · refine .inl ⟨hnone, fun b hb => ?_⟩
        rcases List.mem_append.mp hb with hb | hb
        · exact hall b hb
        · rw [List.mem_singleton.mp hb, hmeasure]
      · refine .inr ⟨before, b, after ++ [a], held, by simp, hbest, hb, hbefore, fun c hc other hother => ?_⟩
        rcases List.mem_append.mp hc with hc | hc
        · exact hafter c hc other hother
        · rw [List.mem_singleton.mp hc, hmeasure] at hother
          cases hother
    · rcases ih with ⟨hnone, hall⟩ | ⟨before, b, after, held, rfl, hbest, hb, hbefore, hafter⟩
      · refine .inr ⟨l, a, [], found, rfl, by simp only [hnone, keepLess, hmeasure], hmeasure, ?_, by simp⟩
        intro b hb other hother
        rw [hall b hb] at hother
        cases hother
      · have hkeep : keepLess measure key (some (b, held)) a =
            if key found < key held then some (a, found) else some (b, held) := by
          simp only [keepLess, hmeasure]
        rw [hbest, hkeep]
        by_cases hless : key found < key held
        · rw [if_pos hless]
          refine .inr ⟨before ++ b :: after, a, [], found, rfl, rfl, hmeasure, ?_, by simp⟩
          intro c hc other hother
          rcases List.mem_append.mp hc with hc | hc
          · exact lt_trans hless (hbefore c hc other hother)
          · rcases List.mem_cons.mp hc with rfl | hc
            · rw [hb] at hother
              cases hother
              exact hless
            · exact lt_of_lt_of_le hless (hafter c hc other hother)
        · rw [if_neg hless]
          refine .inr ⟨before, b, after ++ [a], held, by simp, rfl, hb, hbefore, fun c hc other hother => ?_⟩
          rcases List.mem_append.mp hc with hc | hc
          · exact hafter c hc other hother
          · rw [List.mem_singleton.mp hc, hmeasure] at hother
            cases hother
            exact not_lt.mp hless

theorem firstLeast_eq_none_iff : firstLeast measure key l = none ↔ ∀ a ∈ l, measure a = none := by
  rcases firstLeast_spec measure key l with ⟨hnone, hall⟩ | ⟨before, a, after, found, rfl, hbest, ha, -, -⟩
  · exact ⟨fun _ => hall, fun _ => hnone⟩
  · refine ⟨fun h => ?_, fun h => ?_⟩
    · rw [hbest] at h
      cases h
    · rw [h a (by simp)] at ha
      cases ha

theorem firstLeast_eq_some (hl : l.Pairwise r) {a : α} {found : β} (h : firstLeast measure key l = some (a, found)) :
    a ∈ l ∧ measure a = some found ∧ (∀ b ∈ l, ∀ other, measure b = some other → key found ≤ key other) ∧
      ∀ b ∈ l, ∀ other, measure b = some other → key other = key found → b = a ∨ r a b := by
  rcases firstLeast_spec measure key l with ⟨hnone, -⟩ | ⟨before, b, after, held, rfl, hbest, hb, hbefore, hafter⟩
  · rw [hnone] at h
    cases h
  · rw [hbest] at h
    cases h
    refine ⟨by simp, hb, fun c hc other hother => ?_, fun c hc other hother hsame => ?_⟩
    · rcases List.mem_append.mp hc with hc | hc
      · exact (hbefore c hc other hother).le
      · rcases List.mem_cons.mp hc with rfl | hc
        · rw [hb] at hother
          cases hother
          exact le_rfl
        · exact hafter c hc other hother
    · rcases List.mem_append.mp hc with hc | hc
      · exact absurd hsame (hbefore c hc other hother).ne'
      · rcases List.mem_cons.mp hc with rfl | hc
        · exact .inl rfl
        · exact .inr ((List.pairwise_cons.mp (List.pairwise_append.mp hl).2.1).1 c hc)

end FirstLeast

/-- The first result from a size down to two. -/
def descend (search : ℕ → Option β) : ℕ → Option β
  | size + 2 =>
    match search (size + 2) with
    | some found => some found
    | none => descend search (size + 1)
  | _ => none

theorem descend_spec (search : ℕ → Option β) (n : ℕ) :
    (descend search n = none ∧ ∀ size, 2 ≤ size → size ≤ n → search size = none) ∨
      ∃ size found, 2 ≤ size ∧ size ≤ n ∧ descend search n = some found ∧ search size = some found ∧
        ∀ larger, size < larger → larger ≤ n → search larger = none := by
  induction n using Nat.strong_induction_on with
  | _ n ih =>
    match n, ih with
    | 0, _ => exact .inl ⟨rfl, fun size h2 hle => by omega⟩
    | 1, _ => exact .inl ⟨rfl, fun size h2 hle => by omega⟩
    | n + 2, ih =>
      rw [descend]
      rcases hsearch : search (n + 2) with _ | found
      · rcases ih (n + 1) (by omega) with ⟨hnone, hall⟩ | ⟨size, found, h2, hle, hsome, hfound, hlarger⟩
        · refine .inl ⟨hnone, fun size h2 hle => ?_⟩
          rcases Nat.lt_or_ge size (n + 2) with hlt | hge
          · exact hall size h2 (by omega)
          · rw [le_antisymm hle hge, hsearch]
        · refine .inr ⟨size, found, h2, by omega, hsome, hfound, fun larger hlt hle' => ?_⟩
          rcases Nat.lt_or_ge larger (n + 2) with hless | hge
          · exact hlarger larger hlt (by omega)
          · rw [le_antisymm hle' hge, hsearch]
      · exact .inr ⟨n + 2, found, by omega, le_rfl, rfl, hsearch, fun larger hlt hle => by omega⟩

end TrueAlpha
