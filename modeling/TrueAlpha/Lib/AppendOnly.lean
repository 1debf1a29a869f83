import TrueAlpha.Lib.Latest

/-!
# Append-only tables with a unique key

A table is a list of rows with unique keys; `insert` is `insert ... on conflict do nothing`.  `newestOf` is the newest row of a
selection, and an inserted row that no selected one exceeds (`newestOf_insert`).
-/

namespace TrueAlpha

/-- Rows in the order of their ids, with distinct keys. -/
structure AppendOnly {ρ κ : Type} (key : ρ → κ) where
  rows : List ρ
  nodup_keys : (rows.map key).Nodup

variable {table : AppendOnly key}

namespace AppendOnly

variable {ρ κ : Type} {key : ρ → κ}

/-- A row with the key is stored. -/
def Holds (table : AppendOnly key) (row : ρ) : Prop := ∃ stored ∈ table.rows, key stored = key row

variable {table : AppendOnly key} {row : ρ}

theorem mem_keys_iff : key row ∈ table.rows.map key ↔ table.Holds row := by
  rw [List.mem_map, Holds]

section Newest

variable {β : Type} [LinearOrder β]

def newestOf (table : AppendOnly key) (order : ρ → β) (select : ρ → Bool) : Option ρ := latestBy order (table.rows.filter select)

theorem mem_of_newestOf {order : ρ → β} {select : ρ → Bool} {row : ρ} (h : table.newestOf order select = some row) :
    row ∈ table.rows ∧ select row = true ∧ ∀ other ∈ table.rows, select other = true → order other ≤ order row := by
  obtain ⟨hmem, hmax⟩ := latestBy_eq_some order h
  obtain ⟨hrow, hselect⟩ := List.mem_filter.mp hmem
  exact ⟨hrow, hselect, fun other hother hsel => hmax other (List.mem_filter.mpr ⟨hother, hsel⟩)⟩

theorem exists_newestOf (order : ρ → β) (select : ρ → Bool) {row : ρ} (hrow : row ∈ table.rows)
    (hselect : select row = true) : ∃ newest, table.newestOf order select = some newest := by
  rcases h : table.newestOf order select with _ | newest
  · have hnil : table.rows.filter select = [] := (latestBy_eq_none_iff order).mp h
    have hmem := List.mem_filter.mpr ⟨hrow, hselect⟩
    rw [hnil] at hmem
    cases hmem
  · exact ⟨newest, rfl⟩

theorem newestOf_congr {order : ρ → β} {select select' : ρ → Bool} (h : ∀ row ∈ table.rows, select row = select' row) :
    table.newestOf order select = table.newestOf order select' := by
  rw [newestOf, newestOf, List.filter_congr h]

end Newest

variable [DecidableEq κ]

/-- `insert ... on conflict do nothing`, with whether a row was added. -/
def insert (table : AppendOnly key) (row : ρ) : AppendOnly key × Bool :=
  if h : key row ∈ table.rows.map key then (table, false)
  else
    (⟨table.rows ++ [row], by
      rw [List.map_append, List.map_cons, List.map_nil]
      exact table.nodup_keys.append (List.nodup_singleton _) (List.disjoint_singleton.mpr h)⟩, true)

theorem insert_of_holds (h : table.Holds row) : table.insert row = (table, false) := dif_pos (mem_keys_iff.mpr h)

theorem insert_of_not_holds (h : ¬ table.Holds row) :
    (table.insert row).1.rows = table.rows ++ [row] ∧ (table.insert row).2 = true := by
  have hkey : key row ∉ table.rows.map key := fun hmem => h (mem_keys_iff.mp hmem)
  rw [insert, dif_neg hkey]
  exact ⟨rfl, rfl⟩

/-- After an insert the newest selected row is the better of it and the one before. -/
theorem newestOf_insert {β : Type} [LinearOrder β] (hkey : ¬ table.Holds row) (order : ρ → β) {select : ρ → Bool}
    (hselect : select row = true) :
    (table.insert row).1.newestOf order select = newer order (table.newestOf order select) row := by
  rw [newestOf, (insert_of_not_holds hkey).1, List.filter_append, List.filter_cons_of_pos hselect, List.filter_nil,
    latestBy_concat_eq, newestOf]

end AppendOnly

end TrueAlpha
