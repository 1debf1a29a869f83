import Mathlib.Algebra.Order.BigOperators.Group.Finset
import TrueAlpha.Lib.Dict

/-!
# The best of every group

`sumOfBest` adds up the best values of the groups of a list.  It does not fall when every value is matched by one of its group
that is as good (`sumOfBest_mono`).  `groupBy` collects a list under keys.
-/

namespace TrueAlpha

section Grouping

variable {κ α : Type*} [DecidableEq κ]

/-- The elements under their keys, the keys in the order of their first elements. -/
def groupBy (key : α → κ) (l : List α) : Dict κ (List α) :=
  l.foldl (fun grouped a => grouped.set (key a) (((grouped.get? (key a)).getD []) ++ [a])) Dict.empty

theorem groupBy_concat (key : α → κ) (l : List α) (a : α) :
    groupBy key (l ++ [a]) = (groupBy key l).set (key a) ((((groupBy key l).get? (key a)).getD []) ++ [a]) := by
  rw [groupBy, List.foldl_append]
  rfl

variable {key : α → κ} {l : List α}

theorem mem_keys_groupBy {k : κ} : k ∈ (groupBy key l).keys ↔ k ∈ l.map key := by
  induction l using List.reverseRecOn with
  | nil => exact Iff.rfl
  | append_singleton l a ih =>
    rw [groupBy_concat, Dict.keys_set, List.map_append, List.mem_append, ← ih]
    by_cases hmem : key a ∈ (groupBy key l).keys
    · rw [if_pos hmem]
      refine ⟨Or.inl, Or.rec id fun hlast => ?_⟩
      rw [List.mem_singleton.mp hlast]
      exact hmem
    · rw [if_neg hmem, List.mem_append]
      rfl

theorem getD_groupBy (key : α → κ) (l : List α) (k : κ) : ((groupBy key l).get? k).getD [] = l.filter fun a => key a = k := by
  induction l using List.reverseRecOn with
  | nil => rfl
  | append_singleton l a ih =>
    rw [groupBy_concat, List.filter_append, ← ih]
    by_cases hkey : key a = k
    · rw [hkey, Dict.get?_set_self, Option.getD_some, List.filter_cons_of_pos (by simpa using hkey), List.filter_nil]
    · rw [Dict.get?_set_of_ne _ _ hkey, List.filter_cons_of_neg (by simpa using hkey), List.filter_nil, List.append_nil]

theorem mem_items_groupBy {k : κ} {group : List α} (h : (k, group) ∈ (groupBy key l).items) :
    group = l.filter fun a => key a = k := by
  rw [← getD_groupBy, (Dict.get?_eq_some_iff _ _ _).mpr h, Option.getD_some]

theorem groupBy_ne_nil {k : κ} {group : List α} (h : (k, group) ∈ (groupBy key l).items) : group ≠ [] := by
  have hkey := mem_keys_groupBy.mp (List.mem_map_of_mem (f := Prod.fst) h)
  obtain ⟨a, ha, hk⟩ := List.mem_map.mp hkey
  rw [mem_items_groupBy h]
  exact List.ne_nil_of_mem (List.mem_filter.mpr ⟨ha, by simpa using hk⟩)

end Grouping

section Best

variable {κ M : Type*} [DecidableEq κ] [AddCommMonoid M] [LinearOrder M] {l l' : List (κ × M)}

/-- The best value of a key, not below zero. -/
def bestOf (l : List (κ × M)) (k : κ) : M := ((l.filter fun a => a.1 = k).map Prod.snd).foldr max 0

theorem bestOf_le_iff {k : κ} {bound : M} : bestOf l k ≤ bound ↔ 0 ≤ bound ∧ ∀ a ∈ l, a.1 = k → a.2 ≤ bound := by
  unfold bestOf
  induction l with
  | nil => simp
  | cons a l ih =>
    by_cases hkey : a.1 = k
    · rw [List.filter_cons_of_pos (by simpa using hkey), List.map_cons, List.foldr_cons, max_le_iff, ih]
      simp only [List.forall_mem_cons, hkey, true_imp_iff]
      tauto
    · rw [List.filter_cons_of_neg (by simpa using hkey), ih]
      simp only [List.forall_mem_cons, hkey, false_imp_iff, true_and]

theorem bestOf_nonneg (l : List (κ × M)) (k : κ) : 0 ≤ bestOf l k := (bestOf_le_iff.mp le_rfl).1

theorem le_bestOf {a : κ × M} (ha : a ∈ l) : a.2 ≤ bestOf l a.1 := (bestOf_le_iff.mp le_rfl).2 a ha rfl

/-- A value that is as good as all of its key is the best one. -/
theorem bestOf_eq {a : κ × M} (ha : a ∈ l) (hnonneg : 0 ≤ a.2) (hbest : ∀ b ∈ l, b.1 = a.1 → b.2 ≤ a.2) : bestOf l a.1 = a.2 :=
  le_antisymm (bestOf_le_iff.mpr ⟨hnonneg, hbest⟩) (le_bestOf ha)

def sumOfBest (l : List (κ × M)) : M := ∑ k ∈ (l.map Prod.fst).toFinset, bestOf l k

variable [IsOrderedAddMonoid M]

theorem sumOfBest_nonneg (l : List (κ × M)) : 0 ≤ sumOfBest l := Finset.sum_nonneg fun k _ => bestOf_nonneg l k

/-- The sum does not fall when every value is matched by one of its key as good. -/
theorem sumOfBest_mono (h : ∀ a ∈ l, ∃ b ∈ l', b.1 = a.1 ∧ a.2 ≤ b.2) : sumOfBest l ≤ sumOfBest l' := by
  have hkeys : (l.map Prod.fst).toFinset ⊆ (l'.map Prod.fst).toFinset := by
    intro k hk
    rw [List.mem_toFinset, List.mem_map] at hk
    obtain ⟨a, ha, rfl⟩ := hk
    obtain ⟨b, hb, hkey, -⟩ := h a ha
    rw [List.mem_toFinset, ← hkey]
    exact List.mem_map_of_mem hb
  have hbest : ∀ k, bestOf l k ≤ bestOf l' k := by
    intro k
    refine bestOf_le_iff.mpr ⟨bestOf_nonneg l' k, fun a ha hkey => ?_⟩
    obtain ⟨b, hb, hsame, hle⟩ := h a ha
    rw [← hkey, ← hsame]
    exact hle.trans (le_bestOf hb)
  calc sumOfBest l ≤ ∑ k ∈ (l.map Prod.fst).toFinset, bestOf l' k := Finset.sum_le_sum fun k _ => hbest k
    _ ≤ sumOfBest l' := Finset.sum_le_sum_of_subset_of_nonneg hkeys fun k _ _ => bestOf_nonneg l' k

end Best

end TrueAlpha
