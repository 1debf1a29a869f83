import TrueAlpha.Lib.Sort
import Mathlib.Algebra.Order.Field.Basic
import Mathlib.Tactic.Linarith
import Mathlib.Tactic.Ring
import Mathlib.Data.List.GetD

/-!
# The median of rationals

`medianOf l` is the mean of the two middle places of the sorted list.  Values `Cluster` when each is within a tolerance of the
median; then neighbours do so too (`exists_pair_cluster`).
-/

namespace TrueAlpha

/-- The element of the sorted list at a place. -/
def sortedAt (l : List ℚ) (i : ℕ) : ℚ := (sortedBy id l).getD i 0

/-- The mean of the two middle places. -/
def medianOf (l : List ℚ) : ℚ := (sortedAt l ((l.length - 1) / 2) + sortedAt l (l.length / 2)) / 2

/-- The largest distance from the median. -/
def spreadOf (l : List ℚ) : ℚ := (l.map fun x => |x - medianOf l|).foldr max 0

variable {l l' : List ℚ}

theorem sortedBy_id_perm (h : l.Perm l') : sortedBy id l = sortedBy id l' := by
  refine List.Perm.eq_of_pairwise (fun a b _ _ hab hba => le_antisymm hab hba) (pairwise_sortedBy id l)
    (pairwise_sortedBy id l') ?_
  exact (perm_sortedBy id l).trans (h.trans (perm_sortedBy id l').symm)

theorem medianOf_perm (h : l.Perm l') : medianOf l = medianOf l' := by
  simp only [medianOf, sortedAt, sortedBy_id_perm h, h.length_eq]

/-- The fold of `max` from a bound on is at most a bound exactly when every value is. -/
theorem foldr_max_le_iff {l : List ℚ} {bound : ℚ} (hbound : 0 ≤ bound) : l.foldr max 0 ≤ bound ↔ ∀ x ∈ l, x ≤ bound := by
  induction l with
  | nil => simpa using hbound
  | cons a l ih => rw [List.foldr_cons, max_le_iff, ih, List.forall_mem_cons]

theorem foldr_max_nonneg (l : List ℚ) : 0 ≤ l.foldr max 0 := by
  cases l with
  | nil => exact le_rfl
  | cons a l => exact le_trans (foldr_max_nonneg l) (le_max_right _ _)

theorem foldr_max_perm (h : l.Perm l') : l.foldr max 0 = l'.foldr max 0 := h.foldr_eq' (fun a _ b _ c => max_left_comm b a c) 0

theorem spreadOf_perm (h : l.Perm l') : spreadOf l = spreadOf l' := by
  rw [spreadOf, spreadOf, medianOf_perm h]
  exact foldr_max_perm (h.map _)

theorem sortedAt_mem {i : ℕ} (h : i < l.length) : sortedAt l i ∈ l := by
  have hlt : i < (sortedBy id l).length := by rwa [(perm_sortedBy id l).length_eq]
  rw [sortedAt, List.getD_eq_getElem _ _ hlt]
  exact (mem_sortedBy id).mp (List.getElem_mem hlt)

theorem sortedAt_le {i j : ℕ} (hij : i ≤ j) (h : j < l.length) : sortedAt l i ≤ sortedAt l j := by
  have hlt : j < (sortedBy id l).length := by rwa [(perm_sortedBy id l).length_eq]
  rw [sortedAt, sortedAt, List.getD_eq_getElem _ _ hlt, List.getD_eq_getElem _ _ (lt_of_le_of_lt hij hlt)]
  rcases Nat.lt_or_eq_of_le hij with hlt' | rfl
  · exact List.pairwise_iff_getElem.mp (pairwise_sortedBy id l) i j _ hlt hlt'
  · exact le_rfl

/-- Each value is within a tolerance of the median. -/
def Cluster (relative absolute : ℚ) (l : List ℚ) : Prop := ∀ x ∈ l, |x - medianOf l| ≤ absolute + relative * |medianOf l|

variable {relative absolute : ℚ}

theorem Cluster.perm (h : Cluster relative absolute l) (hp : l.Perm l') : Cluster relative absolute l' := by
  intro x hx
  rw [← medianOf_perm hp]
  exact h x (hp.mem_iff.mpr hx)

/-- Looser tolerances keep what is within the tighter ones. -/
theorem Cluster.mono {relative' absolute' : ℚ} (h : Cluster relative absolute l) (hrelative : relative ≤ relative')
    (habsolute : absolute ≤ absolute') : Cluster relative' absolute' l := by
  intro x hx
  have hscale : relative * |medianOf l| ≤ relative' * |medianOf l| := mul_le_mul_of_nonneg_right hrelative (abs_nonneg _)
  linarith [h x hx]

theorem cluster_iff_spreadOf_le (hrelative : 0 ≤ relative) (habsolute : 0 ≤ absolute) (l : List ℚ) :
    Cluster relative absolute l ↔ spreadOf l ≤ absolute + relative * |medianOf l| := by
  have hbound : 0 ≤ absolute + relative * |medianOf l| := add_nonneg habsolute (mul_nonneg hrelative (abs_nonneg _))
  rw [spreadOf, foldr_max_le_iff hbound, List.forall_mem_map]
  rfl

theorem medianOf_pair (x y : ℚ) : medianOf [x, y] = (x + y) / 2 := by
  by_cases h : x ≤ y
  · have hs : sortedBy id [x, y] = [x, y] := by
      simp only [sortedBy, List.insertionSort, List.orderedInsert, id, if_pos h, List.foldr]
    simp [medianOf, sortedAt, hs]
  · have hs : sortedBy id [x, y] = [y, x] := by
      simp only [sortedBy, List.insertionSort, List.orderedInsert, id, if_neg h, List.foldr]
    rw [medianOf, sortedAt, sortedAt, hs]
    simp [add_comm]

/-- Two values that are at most twice a tolerance apart are within it of their mean. -/
theorem cluster_pair_iff {x y : ℚ} : Cluster relative absolute [x, y] ↔ |x - y| / 2 ≤ absolute + relative * |(x + y) / 2| := by
  have hfirst : |x - (x + y) / 2| = |x - y| / 2 := by
    rw [show x - (x + y) / 2 = (x - y) / 2 by ring, abs_div, abs_two]
  have hsecond : |y - (x + y) / 2| = |x - y| / 2 := by
    rw [show y - (x + y) / 2 = -((x - y) / 2) by ring, abs_neg, abs_div, abs_two]
  simp only [Cluster, List.forall_mem_cons, medianOf_pair, hfirst, hsecond]
  simp

theorem exists_pair_cluster (hrelative : 0 ≤ relative) (hlength : 2 ≤ l.length) (h : Cluster relative absolute l) :
    ∃ i, i + 1 < l.length ∧ Cluster relative absolute [sortedAt l i, sortedAt l (i + 1)] := by
  rcases Nat.even_or_odd' l.length with ⟨k, hk | hk⟩
  · -- the two middle places have the median of the whole
    obtain ⟨k, rfl⟩ := Nat.exists_eq_succ_of_ne_zero (show k ≠ 0 by omega)
    have hmedian : medianOf l = (sortedAt l k + sortedAt l (k + 1)) / 2 := by
      rw [medianOf, show (l.length - 1) / 2 = k by omega, show l.length / 2 = k + 1 by omega]
    refine ⟨k, by omega, ?_⟩
    intro x hx
    rw [medianOf_pair, ← hmedian]
    refine h x ?_
    rcases List.mem_cons.mp hx with rfl | hx
    · exact sortedAt_mem (by omega)
    · rw [List.mem_singleton.mp hx]
      exact sortedAt_mem (by omega)
  · have hmedian : medianOf l = sortedAt l k := by
      rw [medianOf, show (l.length - 1) / 2 = k by omega, show l.length / 2 = k by omega]
      ring
    -- the neighbour on the side away from zero widens the bound
    rcases le_or_gt 0 (sortedAt l k) with hsign | hsign
    · have hle : sortedAt l k ≤ sortedAt l (k + 1) := sortedAt_le (Nat.le_succ k) (by omega)
      have hnear := h (sortedAt l (k + 1)) (sortedAt_mem (by omega))
      rw [hmedian, abs_of_nonneg (sub_nonneg.mpr hle), abs_of_nonneg hsign] at hnear
      refine ⟨k, by omega, cluster_pair_iff.mpr ?_⟩
      rw [abs_of_nonpos (sub_nonpos.mpr hle), abs_of_nonneg (show 0 ≤ (sortedAt l k + sortedAt l (k + 1)) / 2 by linarith)]
      have hscale : relative * sortedAt l k ≤ relative * ((sortedAt l k + sortedAt l (k + 1)) / 2) :=
        mul_le_mul_of_nonneg_left (by linarith) hrelative
      linarith
    · obtain ⟨k, rfl⟩ := Nat.exists_eq_succ_of_ne_zero (show k ≠ 0 by omega)
      have hle : sortedAt l k ≤ sortedAt l (k + 1) := sortedAt_le (Nat.le_succ k) (by omega)
      have hnear := h (sortedAt l k) (sortedAt_mem (by omega))
      rw [hmedian, abs_of_nonpos (sub_nonpos.mpr hle), abs_of_neg hsign] at hnear
      refine ⟨k, by omega, cluster_pair_iff.mpr ?_⟩
      simp only [Nat.succ_eq_add_one] at hsign hnear
      rw [abs_of_nonpos (sub_nonpos.mpr hle), abs_of_neg (show (sortedAt l k + sortedAt l (k + 1)) / 2 < 0 by linarith)]
      have hscale : relative * -sortedAt l (k + 1) ≤ relative * -((sortedAt l k + sortedAt l (k + 1)) / 2) :=
        mul_le_mul_of_nonneg_left (by linarith) hrelative
      linarith

end TrueAlpha
