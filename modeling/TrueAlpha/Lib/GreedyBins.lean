import TrueAlpha.Lib.Median
import TrueAlpha.Lib.Run

/-!
# Greedy packing into bins

`packInto w n l` puts the items of `l` in order into the first of `n` bins with the least load.  `Packed` holds after every
prefix: no two loads differ by more than a bound of the weights.
-/

namespace TrueAlpha

variable {α : Type*} (w : α → ℚ)

/-- `load.index(min(load))`. -/
def lightest (load : List ℚ) : ℕ := load.idxOf (load.min?.getD 0)

/-- One item goes into the lightest bin. -/
def placeItem (state : List (List α) × List ℚ) (a : α) : List (List α) × List ℚ :=
  (state.1.modify (lightest state.2) (· ++ [a]), state.2.modify (lightest state.2) (· + w a))

def packInto (n : ℕ) (l : List α) : List (List α) × List ℚ := l.foldl (placeItem w) (List.replicate n [], List.replicate n 0)

theorem exists_lightest {load : List ℚ} (h : load ≠ []) :
    ∃ before m after, load = before ++ m :: after ∧ lightest load = before.length ∧ ∀ x ∈ load, m ≤ x := by
  obtain ⟨m, hm⟩ := Option.isSome_iff_exists.1 (List.isSome_min?_of_ne_nil h)
  obtain ⟨hmem, hle⟩ := List.min?_eq_some_iff.1 hm
  obtain ⟨before, after, rfl, hfirst⟩ := List.eq_append_cons_of_mem hmem
  refine ⟨before, m, after, rfl, ?_, hle⟩
  rw [lightest, hm, Option.getD_some, List.idxOf_append_of_notMem hfirst, List.idxOf_cons_self, Nat.add_zero]

theorem modify_append_cons {β : Type*} (f : β → β) (before : List β) (b : β) (after : List β) :
    (before ++ b :: after).modify before.length f = before ++ f b :: after := by
  induction before with
  | nil => rfl
  | cons c before ih => simp [ih]

def binLoad (bin : List α) : ℚ := (bin.map w).sum

/-- What the bins and their loads are once the items `l` are placed. -/
structure Packed (W : ℚ) (n : ℕ) (l : List α) (state : List (List α) × List ℚ) : Prop where
  length : state.1.length = n
  load : state.2 = state.1.map (binLoad w)
  items : state.1.flatten.Perm l
  balanced : ∀ x ∈ state.2, ∀ y ∈ state.2, x ≤ y + W

variable {w} {W : ℚ} {n : ℕ} {l : List α} {state : List (List α) × List ℚ}

theorem Packed.exists_lightest (h : Packed w W n l state) (hn : n ≠ 0) :
    ∃ before bin after, state.1 = before ++ bin :: after ∧ lightest state.2 = before.length ∧
      ∀ x ∈ state.2, binLoad w bin ≤ x := by
  have hne : state.2 ≠ [] := by
    rw [h.load, Ne, List.map_eq_nil_iff, ← List.length_eq_zero_iff, h.length]
    exact hn
  obtain ⟨loadBefore, m, loadAfter, hload, hfirst, hleast⟩ := TrueAlpha.exists_lightest hne
  rw [h.load] at hload
  obtain ⟨before, rest, hbins, rfl, hrest⟩ := List.map_eq_append_iff.1 hload
  obtain ⟨bin, after, rfl, rfl, rfl⟩ := List.map_eq_cons_iff.1 hrest
  exact ⟨before, bin, after, hbins, hfirst.trans (List.length_map _), hleast⟩

/-- The bin that grows was the lightest, so it is above no other by more than the item's weight. -/
theorem Packed.placeItem (h : Packed w W n l state) (hn : n ≠ 0) {a : α} (ha : 0 ≤ w a) (hW : w a ≤ W) :
    Packed w W n (l ++ [a]) (placeItem w state a) := by
  obtain ⟨before, bin, after, hbins, hfirst, hleast⟩ := h.exists_lightest hn
  have hload : state.2 = before.map (binLoad w) ++ binLoad w bin :: after.map (binLoad w) := by
    rw [h.load, hbins, List.map_append, List.map_cons]
  have hgrown : binLoad w (bin ++ [a]) = binLoad w bin + w a := by simp [binLoad]
  have hplace : TrueAlpha.placeItem w state a =
      (before ++ (bin ++ [a]) :: after, before.map (binLoad w) ++ (binLoad w bin + w a) :: after.map (binLoad w)) := by
    rw [TrueAlpha.placeItem, hfirst, hbins, hload, modify_append_cons]
    nth_rewrite 1 [← List.length_map (binLoad w)]
    rw [modify_append_cons]
  -- a load after the step is the grown one or was there before
  have hmem : ∀ x ∈ (TrueAlpha.placeItem w state a).2, x = binLoad w bin + w a ∨ x ∈ state.2 := by
    intro x hx
    rw [hplace] at hx
    rw [hload]
    simp only [List.mem_append, List.mem_cons] at hx ⊢
    tauto
  refine ⟨?_, ?_, ?_, fun x hx y hy => ?_⟩
  · rw [hplace, ← h.length, hbins]
    simp
  · rw [hplace, List.map_append, List.map_cons, hgrown]
  · rw [hplace]
    refine List.Perm.trans ?_ (h.items.append_right [a])
    rw [hbins]
    simp only [List.flatten_append, List.flatten_cons, List.append_assoc]
    exact (List.perm_append_comm.append_left bin).append_left _
  · have hbin : binLoad w bin ∈ state.2 := hload ▸ List.mem_append_right _ List.mem_cons_self
    rcases hmem x hx with rfl | hx <;> rcases hmem y hy with rfl | hy
    · linarith
    · linarith [hleast y hy]
    · linarith [h.balanced x hx _ hbin]
    · exact h.balanced x hx y hy

theorem packed_packInto (hn : n ≠ 0) (hpos : ∀ a ∈ l, 0 ≤ w a) (hle : ∀ a ∈ l, w a ≤ W) (hW : 0 ≤ W) :
    Packed w W n l (packInto w n l) := by
  refine foldl_inv (Packed w W n) l ?_ fun before a after state hl h => ?_
  · refine ⟨List.length_replicate, by simp [binLoad], by simp, fun x hx y hy => ?_⟩
    rw [List.eq_of_mem_replicate hx, List.eq_of_mem_replicate hy]
    simpa using hW
  · have ha : a ∈ l := hl ▸ List.mem_append_right _ List.mem_cons_self
    exact h.placeItem hn (hpos a ha) (hle a ha)

end TrueAlpha
