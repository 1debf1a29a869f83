import Mathlib.Data.List.Range
import TrueAlpha.Lib.Latest

/-!
# Linked logs

A row of a linked log says its place, what it points to, and what it replaces.  A log is linked when every row stands at
its place and replaces what the row before it points to.
-/

namespace TrueAlpha

/-- What a row of a log says. -/
structure Links (ρ α : Type*) where
  place : ρ → ℕ
  target : ρ → α
  previous : ρ → Option α

namespace Links

variable {ρ α : Type*} (links : Links ρ α) {log log' : List ρ} {row row' : ρ}

/-- A row has the next place of a log, and replaces its last row's target by something else. -/
structure Follows (log : List ρ) (row : ρ) : Prop where
  place : links.place row = log.length
  previous : links.previous row = log.getLast?.map links.target
  changes : links.previous row ≠ some (links.target row)

/-- Every row follows the rows before it. -/
def Linked (log : List ρ) : Prop := ∀ n (h : n < log.length), links.Follows (log.take n) log[n]

variable {links}

theorem linked_nil : links.Linked [] := fun _ h => absurd h (Nat.not_lt_zero _)

theorem Linked.concat (h : links.Linked log) (hrow : links.Follows log row) : links.Linked (log ++ [row]) := by
  intro n hn
  rw [List.length_append, List.length_singleton] at hn
  obtain hn | rfl := Nat.lt_succ_iff_lt_or_eq.mp hn
  · rw [List.getElem_append_left hn, List.take_append_of_le_length hn.le]
    exact h n hn
  · rw [List.getElem_concat_length rfl, List.take_left]
    exact hrow

theorem Linked.left (h : links.Linked (log ++ log')) : links.Linked log := by
  intro n hn
  have hfollows := h n (by rw [List.length_append]; omega)
  rwa [List.getElem_append_left hn, List.take_append_of_le_length hn.le] at hfollows

section

variable (h : links.Linked log)

include h

theorem Linked.place_getElem {n : ℕ} (hn : n < log.length) : links.place log[n] = n := by
  rw [(h n hn).place, List.length_take, min_eq_left hn.le]

theorem Linked.map_place : log.map links.place = List.range log.length := by
  refine List.ext_getElem (by simp) fun n hn _ => ?_
  rw [List.getElem_map, List.getElem_range, h.place_getElem]

theorem Linked.place_lt (hrow : row ∈ log) : links.place row < log.length := by
  obtain ⟨n, hn, rfl⟩ := List.getElem_of_mem hrow
  rwa [h.place_getElem hn]

theorem Linked.exists_place {n : ℕ} (hn : n < log.length) : ∃ row ∈ log, links.place row = n :=
  ⟨log[n], List.getElem_mem hn, h.place_getElem hn⟩

theorem Linked.eq_of_place (hrow : row ∈ log) (hrow' : row' ∈ log) (heq : links.place row = links.place row') : row = row' := by
  obtain ⟨n, hn, rfl⟩ := List.getElem_of_mem hrow
  obtain ⟨m, hm, rfl⟩ := List.getElem_of_mem hrow'
  rw [h.place_getElem hn, h.place_getElem hm] at heq
  subst heq
  rfl

/-- The row with the greatest place is the last one. -/
theorem Linked.latestBy_eq : latestBy links.place log = log.getLast? := by
  refine latestBy_eq_getLast? _ (List.pairwise_iff_getElem.mpr fun i j hi hj hij => ?_)
  rw [h.place_getElem hi, h.place_getElem hj]
  exact hij.le

theorem Linked.getLast?_eq (hrow : row ∈ log) (hplace : links.place row + 1 = log.length) : log.getLast? = some row := by
  obtain ⟨n, hn, rfl⟩ := List.getElem_of_mem hrow
  rw [h.place_getElem hn] at hplace
  rw [List.getLast?_eq_getElem?, ← hplace, Nat.add_sub_cancel, List.getElem?_eq_getElem hn]

end

/-- Of two logs that go on from one log without a common place, one adds nothing. -/
theorem Linked.eq_nil_or_eq_nil {more more' : List ρ} (h : links.Linked (log ++ more)) (h' : links.Linked (log ++ more'))
    (hapart : ∀ row ∈ more, ∀ row' ∈ more', links.place row ≠ links.place row') : more = [] ∨ more' = [] := by
  rcases more with _ | ⟨row, more⟩
  · exact .inl rfl
  · rcases more' with _ | ⟨row', more'⟩
    · exact .inr rfl
    · have hplace : ∀ {row more}, links.Linked (log ++ row :: more) → links.place row = log.length := by
        intro row more h
        have hlt : log.length < (log ++ row :: more).length := by simp
        have hat := h.place_getElem hlt
        rwa [List.getElem_of_append rfl rfl] at hat
      exact absurd ((hplace h).trans (hplace h').symm) (hapart row List.mem_cons_self row' List.mem_cons_self)

/-- A row with a free place that replaces the row before it follows the log. -/
theorem Linked.follows (h : links.Linked log) (hfree : ∀ stored ∈ log, links.place stored ≠ links.place row)
    (hchanges : links.previous row ≠ some (links.target row))
    (hprevious : (links.place row = 0 ∧ links.previous row = none) ∨
      ∃ stored ∈ log, links.place row = links.place stored + 1 ∧ links.previous row = some (links.target stored)) :
    links.Follows log row := by
  have hle : log.length ≤ links.place row := by
    by_contra hlt
    obtain ⟨stored, hstored, hplace⟩ := h.exists_place (not_le.mp hlt)
    exact hfree stored hstored hplace
  obtain ⟨hzero, hnone⟩ | ⟨stored, hstored, hplace, htarget⟩ := hprevious
  · rw [hzero, Nat.le_zero, List.length_eq_zero_iff] at hle
    subst hle
    exact ⟨hzero, hnone, hchanges⟩
  · have hlt := h.place_lt hstored
    have hlength : links.place stored + 1 = log.length := by omega
    exact ⟨by omega, by rw [h.getLast?_eq hstored hlength, htarget]; rfl, hchanges⟩

end Links

end TrueAlpha
