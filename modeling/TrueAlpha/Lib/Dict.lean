import Mathlib.Algebra.BigOperators.Group.Finset.Basic
import Mathlib.Algebra.BigOperators.Ring.List
import Mathlib.Algebra.Order.BigOperators.Group.List
import Mathlib.Algebra.Order.Ring.Rat
import Mathlib.Tactic.Abel
import TrueAlpha.Lib.Run

/-!
# Insertion-ordered dictionaries

`Dict κ ν` is a finite map that remembers the order of its distinct keys.  Each operation comes with its lookup equation, its
effect on a sum (`sumBy`) and on a change of the values (`mapVal`).
-/

namespace TrueAlpha

universe u v w

/-- `dict.fromkeys`: the distinct elements, each where it occurs first. -/
def distinct {α : Type*} [DecidableEq α] : List α → List α
  | [] => []
  | a :: l => a :: (distinct l).filter (· ≠ a)

theorem mem_distinct {α : Type*} [DecidableEq α] {l : List α} {a : α} : a ∈ distinct l ↔ a ∈ l := by
  induction l with
  | nil => rfl
  | cons b l ih =>
    rw [distinct, List.mem_cons, List.mem_cons, List.mem_filter, ih, decide_eq_true_eq]
    tauto

theorem nodup_distinct {α : Type*} [DecidableEq α] (l : List α) : (distinct l).Nodup := by
  induction l with
  | nil => exact List.nodup_nil
  | cons a l ih =>
    rw [distinct, List.nodup_cons, List.mem_filter]
    exact ⟨by simp, ih.filter _⟩

/-- A finite map with distinct keys, in the order of their first insertion. -/
structure Dict (κ : Type u) (ν : Type v) where
  items : List (κ × ν)
  nodup_keys : (items.map Prod.fst).Nodup

namespace Dict

variable {κ : Type u} {ν : Type v} {μ : Type w} {d e : Dict κ ν}

@[ext]
theorem ext (h : d.items = e.items) : d = e := by
  cases d
  cases e
  congr

def keys (d : Dict κ ν) : List κ := d.items.map Prod.fst

def values (d : Dict κ ν) : List ν := d.items.map Prod.snd

/-- The dictionary without items. -/
def empty : Dict κ ν := ⟨[], List.nodup_nil⟩

theorem nodup (d : Dict κ ν) : d.keys.Nodup := d.nodup_keys

@[simp] theorem items_empty : (empty : Dict κ ν).items = [] := rfl

@[simp] theorem keys_empty : (empty : Dict κ ν).keys = [] := rfl

/-! ## The operations on lists of items -/

section Items

variable [DecidableEq κ]

/-- The value of the first item with the key `k`. -/
def lookupItems (k : κ) : List (κ × ν) → Option ν
  | [] => none
  | (k', v) :: rest => if k' = k then some v else lookupItems k rest

/-- Replace the value of the first item with the key `k`, or append an item. -/
def setItems (k : κ) (v : ν) : List (κ × ν) → List (κ × ν)
  | [] => [(k, v)]
  | (k', v') :: rest => if k' = k then (k, v) :: rest else (k', v') :: setItems k v rest

/-- Remove the first item with the key `k`. -/
def eraseItems (k : κ) : List (κ × ν) → List (κ × ν)
  | [] => []
  | (k', v) :: rest => if k' = k then rest else (k', v) :: eraseItems k rest

theorem lookupItems_isSome_iff (k : κ) (l : List (κ × ν)) : (lookupItems k l).isSome ↔ k ∈ l.map Prod.fst := by
  induction l with
  | nil => simp [lookupItems]
  | cons e rest ih =>
    obtain ⟨k', v⟩ := e
    by_cases h : k' = k
    · simp [lookupItems, h]
    · simp [lookupItems, h, ih, Ne.symm h]

variable {l : List (κ × ν)}

theorem lookupItems_eq_some_iff (k : κ) (v : ν) (hl : (l.map Prod.fst).Nodup) : lookupItems k l = some v ↔ (k, v) ∈ l := by
  induction l with
  | nil => simp [lookupItems]
  | cons e rest ih =>
    obtain ⟨k', v'⟩ := e
    rw [List.map_cons, List.nodup_cons] at hl
    by_cases h : k' = k
    · subst h
      have hmem : (k', v) ∉ rest := fun hm => hl.1 (List.mem_map.2 ⟨(k', v), hm, rfl⟩)
      simp [lookupItems, hmem, eq_comm]
    · simp [lookupItems, h, ih hl.2, Ne.symm h]

theorem filter_key_eq (k : κ) (hl : (l.map Prod.fst).Nodup) :
    l.filter (fun item => item.1 = k) = (lookupItems k l).toList.map fun v => (k, v) := by
  induction l with
  | nil => rfl
  | cons e rest ih =>
    obtain ⟨k', v⟩ := e
    rw [List.map_cons, List.nodup_cons] at hl
    by_cases h : k' = k
    · subst h
      have hrest : rest.filter (fun item => item.1 = k') = [] := by
        refine List.filter_eq_nil_iff.mpr fun item hitem hkey => hl.1 (List.mem_map.mpr ⟨item, hitem, ?_⟩)
        simpa using hkey
      simp [lookupItems, hrest]
    · simp [lookupItems, h, ih hl.2]

theorem lookupItems_setItems (k k' : κ) (v : ν) (l : List (κ × ν)) :
    lookupItems k' (setItems k v l) = if k = k' then some v else lookupItems k' l := by
  induction l with
  | nil => simp [setItems, lookupItems]
  | cons e rest ih =>
    obtain ⟨k₀, v₀⟩ := e
    simp only [setItems]
    by_cases h : k₀ = k
    · subst h
      by_cases hk : k₀ = k' <;> simp [lookupItems, hk]
    · rw [if_neg h]
      by_cases hk : k₀ = k'
      · subst hk
        simp [lookupItems, Ne.symm h]
      · simp [lookupItems, hk, ih]

theorem keys_setItems (k : κ) (v : ν) (l : List (κ × ν)) : (setItems k v l).map Prod.fst =
      if k ∈ l.map Prod.fst then l.map Prod.fst else l.map Prod.fst ++ [k] := by
  induction l with
  | nil => simp [setItems]
  | cons e rest ih =>
    obtain ⟨k₀, v₀⟩ := e
    by_cases h : k₀ = k
    · simp [setItems, h]
    · simp only [setItems, if_neg h, List.map_cons, ih, List.mem_cons, Ne.symm h, false_or]
      split_ifs <;> rfl

theorem nodup_keys_setItems (k : κ) (v : ν) (hl : (l.map Prod.fst).Nodup) : ((setItems k v l).map Prod.fst).Nodup := by
  rw [keys_setItems]
  split_ifs with h
  · exact hl
  · exact List.nodup_append.2 ⟨hl, List.nodup_singleton k, by
      intro a ha b hb
      obtain rfl := List.mem_singleton.1 hb
      exact fun e => h (e ▸ ha)⟩

theorem eraseItems_sublist (k : κ) (l : List (κ × ν)) : (eraseItems k l).Sublist l := by
  induction l with
  | nil => exact List.Sublist.refl _
  | cons e rest ih =>
    obtain ⟨k₀, v₀⟩ := e
    by_cases h : k₀ = k
    · simp [eraseItems, h]
    · simpa [eraseItems, h] using ih

theorem lookupItems_eraseItems (k k' : κ) (hl : (l.map Prod.fst).Nodup) :
    lookupItems k' (eraseItems k l) = if k = k' then none else lookupItems k' l := by
  induction l with
  | nil => simp [eraseItems, lookupItems]
  | cons e rest ih =>
    obtain ⟨k₀, v₀⟩ := e
    rw [List.map_cons, List.nodup_cons] at hl
    by_cases h : k₀ = k
    · subst h
      by_cases hk : k₀ = k'
      · subst hk
        have : (lookupItems k₀ rest).isSome = false := by
          rw [Bool.eq_false_iff]
          exact fun hs => hl.1 ((lookupItems_isSome_iff k₀ rest).1 hs)
        simpa [eraseItems] using this
      · simp [eraseItems, lookupItems, hk]
    · simp only [eraseItems, if_neg h, lookupItems, ih hl.2]
      by_cases hk : k₀ = k'
      · subst hk
        simp [Ne.symm h]
      · simp [hk]

theorem sum_setItems {M : Type*} [AddCommGroup M] (f : κ → ν → M) (k : κ) (v : ν) (l : List (κ × ν)) :
    ((setItems k v l).map fun e => f e.1 e.2).sum = (l.map fun e => f e.1 e.2).sum - (lookupItems k l).elim 0 (f k) + f k v := by
  induction l with
  | nil => simp [setItems, lookupItems]
  | cons e rest ih =>
    obtain ⟨k₀, v₀⟩ := e
    by_cases h : k₀ = k
    · subst h
      simp [setItems, lookupItems]
      abel
    · simp only [setItems, lookupItems, if_neg h, List.map_cons, List.sum_cons, ih]
      abel

theorem sum_eraseItems {M : Type*} [AddCommGroup M] (f : κ → ν → M) (k : κ) (l : List (κ × ν)) :
    ((eraseItems k l).map fun e => f e.1 e.2).sum = (l.map fun e => f e.1 e.2).sum - (lookupItems k l).elim 0 (f k) := by
  induction l with
  | nil => simp [eraseItems, lookupItems]
  | cons e rest ih =>
    obtain ⟨k₀, v₀⟩ := e
    by_cases h : k₀ = k
    · subst h
      simp [eraseItems, lookupItems]
    · simp only [eraseItems, lookupItems, if_neg h, List.map_cons, List.sum_cons, ih]
      abel

theorem lookupItems_map (f : κ → ν → μ) (k : κ) (l : List (κ × ν)) :
    lookupItems k (l.map fun e => (e.1, f e.1 e.2)) = (lookupItems k l).map (f k) := by
  induction l with
  | nil => rfl
  | cons e rest ih =>
    obtain ⟨k₀, v₀⟩ := e
    by_cases h : k₀ = k
    · subst h
      simp [lookupItems]
    · simp [lookupItems, h, ih]

theorem setItems_map (f : κ → ν → μ) (k : κ) (v : ν) (l : List (κ × ν)) : setItems k (f k v) (l.map fun e => (e.1, f e.1 e.2)) =
      (setItems k v l).map fun e => (e.1, f e.1 e.2) := by
  induction l with
  | nil => rfl
  | cons e rest ih =>
    obtain ⟨k₀, v₀⟩ := e
    by_cases h : k₀ = k <;> simp [setItems, h, ih]

theorem eraseItems_map (f : κ → ν → μ) (k : κ) (l : List (κ × ν)) : eraseItems k (l.map fun e => (e.1, f e.1 e.2)) =
      (eraseItems k l).map fun e => (e.1, f e.1 e.2) := by
  induction l with
  | nil => rfl
  | cons e rest ih =>
    obtain ⟨k₀, v₀⟩ := e
    by_cases h : k₀ = k <;> simp [eraseItems, h, ih]

end Items

/-- Change every value, the keys and their order kept. -/
def mapVal (f : κ → ν → μ) (d : Dict κ ν) : Dict κ μ := ⟨d.items.map fun e => (e.1, f e.1 e.2), by
    simpa [List.map_map, Function.comp_def] using d.nodup_keys⟩

/-- The items whose value `f` accepts, with the value it gives. -/
def filterMapVal (f : κ → ν → Option μ) (d : Dict κ ν) : Dict κ μ :=
  ⟨d.items.filterMap fun e => (f e.1 e.2).map fun v => (e.1, v), by
    have h : ∀ l : List (κ × ν), ((l.filterMap fun e => (f e.1 e.2).map fun v => (e.1, v)).map Prod.fst).Sublist
          (l.map Prod.fst) := by
      intro l
      induction l with
      | nil => simp
      | cons e rest ih =>
        rcases hf : f e.1 e.2 with _ | v
        · simpa [hf] using ih.cons e.1
        · simpa [hf] using ih
    exact (h d.items).nodup d.nodup_keys⟩

variable {d : Dict κ ν} {v : ν}

section Ops

variable [DecidableEq κ]

/-- The value stored under `k`. -/
def get? (d : Dict κ ν) (k : κ) : Option ν := lookupItems k d.items

/-- Store `v` under `k`. -/
def set (d : Dict κ ν) (k : κ) (v : ν) : Dict κ ν := ⟨setItems k v d.items, nodup_keys_setItems k v d.nodup_keys⟩

/-- Delete the key `k`. -/
def erase (d : Dict κ ν) (k : κ) : Dict κ ν :=
  ⟨eraseItems k d.items, ((eraseItems_sublist k d.items).map Prod.fst).nodup d.nodup_keys⟩

/-- Store every item of `e`, in its order. -/
def update (d e : Dict κ ν) : Dict κ ν := e.items.foldl (fun acc item => acc.set item.1 item.2) d

/-- The dictionary built by storing the items of a list one after another. -/
def ofList (l : List (κ × ν)) : Dict κ ν := l.foldl (fun acc item => acc.set item.1 item.2) empty

theorem get?_eq_some_iff (d : Dict κ ν) (k : κ) (v : ν) : d.get? k = some v ↔ (k, v) ∈ d.items :=
  lookupItems_eq_some_iff k v d.nodup_keys

theorem mem_keys_iff (d : Dict κ ν) (k : κ) : k ∈ d.keys ↔ ∃ v, d.get? k = some v := by
  rw [← Option.isSome_iff_exists]
  exact (lookupItems_isSome_iff k d.items).symm

theorem get?_eq_none_iff (d : Dict κ ν) (k : κ) : d.get? k = none ↔ k ∉ d.keys := by
  rw [mem_keys_iff, ← Option.isSome_iff_exists, Bool.not_eq_true, Option.isSome_eq_false_iff, Option.isNone_iff_eq_none]

theorem exists_get?_of_mem_values (h : v ∈ d.values) : ∃ k, d.get? k = some v := by
  obtain ⟨⟨k, v'⟩, he, rfl⟩ := List.mem_map.1 h
  exact ⟨k, (d.get?_eq_some_iff k v').2 he⟩

variable {k : κ}

theorem mem_values_of_get? (h : d.get? k = some v) : v ∈ d.values := List.mem_map.2 ⟨(k, v), (d.get?_eq_some_iff k v).1 h, rfl⟩

@[simp] theorem get?_empty (k : κ) : (empty : Dict κ ν).get? k = none := rfl

theorem get?_set (d : Dict κ ν) (k k' : κ) (v : ν) : (d.set k v).get? k' = if k = k' then some v else d.get? k' :=
  lookupItems_setItems k k' v d.items

@[simp] theorem get?_set_self (d : Dict κ ν) (k : κ) (v : ν) : (d.set k v).get? k = some v := by
  rw [get?_set, if_pos rfl]

theorem get?_set_of_ne (d : Dict κ ν) {k k' : κ} (v : ν) (h : k ≠ k') : (d.set k v).get? k' = d.get? k' := by
  rw [get?_set, if_neg h]

theorem get?_erase (d : Dict κ ν) (k k' : κ) : (d.erase k).get? k' = if k = k' then none else d.get? k' :=
  lookupItems_eraseItems k k' d.nodup_keys

@[simp] theorem get?_erase_self (d : Dict κ ν) (k : κ) : (d.erase k).get? k = none := by
  rw [get?_erase, if_pos rfl]

theorem get?_erase_of_ne (d : Dict κ ν) {k k' : κ} (h : k ≠ k') : (d.erase k).get? k' = d.get? k' := by
  rw [get?_erase, if_neg h]

theorem get?_foldl_set (l : List (κ × ν)) (d : Dict κ ν) (k : κ) (hl : (l.map Prod.fst).Nodup) :
    (l.foldl (fun acc item => acc.set item.1 item.2) d).get? k = (lookupItems k l).or (d.get? k) := by
  induction l generalizing d with
  | nil => simp [lookupItems]
  | cons e rest ih =>
    obtain ⟨k₀, v₀⟩ := e
    rw [List.map_cons, List.nodup_cons] at hl
    rw [List.foldl_cons, ih _ hl.2, get?_set]
    by_cases h : k₀ = k
    · subst h
      have hn : lookupItems k₀ rest = none := by
        rw [← Option.isNone_iff_eq_none, ← Option.isSome_eq_false_iff, Bool.eq_false_iff]
        exact fun hs => hl.1 ((lookupItems_isSome_iff k₀ rest).1 hs)
      simp [lookupItems, hn]
    · simp [lookupItems, h]

variable {l : List (κ × ν)}

/-- A dictionary built from items with distinct keys holds exactly these items. -/
theorem get?_ofList_eq_some_iff (hl : (l.map Prod.fst).Nodup) (k : κ) (v : ν) : (ofList l).get? k = some v ↔ (k, v) ∈ l := by
  have hempty : (empty : Dict κ ν).get? k = none := rfl
  rw [ofList, get?_foldl_set l empty k hl, hempty, Option.or_none, lookupItems_eq_some_iff k v hl]

theorem get?_update (d e : Dict κ ν) (k : κ) : (d.update e).get? k = (e.get? k).or (d.get? k) :=
  get?_foldl_set e.items d k e.nodup_keys

theorem get?_update_of_some (h : e.get? k = some v) : (d.update e).get? k = some v := by
  rw [get?_update, h, Option.some_or]

theorem get?_update_of_none (h : e.get? k = none) : (d.update e).get? k = d.get? k := by
  rw [get?_update, h, Option.none_or]

@[simp] theorem get?_mapVal (f : κ → ν → μ) (d : Dict κ ν) (k : κ) : (d.mapVal f).get? k = (d.get? k).map (f k) :=
  lookupItems_map f k d.items

theorem get?_filterMapVal (f : κ → ν → Option μ) (d : Dict κ ν) (k : κ) : (d.filterMapVal f).get? k = (d.get? k).bind (f k) := by
  ext v
  rw [get?_eq_some_iff, Option.bind_eq_some_iff]
  simp only [filterMapVal, List.mem_filterMap, Option.map_eq_some_iff, get?_eq_some_iff, Prod.mk.injEq]
  constructor
  · rintro ⟨⟨k', w⟩, hm, v', hv, rfl, rfl⟩
    exact ⟨w, hm, hv⟩
  · rintro ⟨w, hm, hv⟩
    exact ⟨(k, w), hm, v, hv, rfl, rfl⟩

/-! ## Keys -/

theorem keys_set (d : Dict κ ν) (k : κ) (v : ν) : (d.set k v).keys = if k ∈ d.keys then d.keys else d.keys ++ [k] :=
  keys_setItems k v d.items

/-- A new key goes to the end. -/
theorem items_set_of_not_mem (v : ν) (h : k ∉ d.keys) : (d.set k v).items = d.items ++ [(k, v)] := by
  have hset : ∀ l : List (κ × ν), k ∉ l.map Prod.fst → setItems k v l = l ++ [(k, v)] := by
    intro l hl
    induction l with
    | nil => rfl
    | cons entry l ih =>
      rw [List.map_cons, List.mem_cons, not_or] at hl
      rw [setItems, if_neg (Ne.symm hl.1), ih hl.2, List.cons_append]
  exact hset d.items h

/-- A value that is set takes the place of the one before. -/
theorem perm_values_set {old : ν} (h : d.get? k = some old) (v : ν) : (old :: (d.set k v).values).Perm (v :: d.values) := by
  have hitems : ∀ l : List (κ × ν), lookupItems k l = some old →
      (old :: (setItems k v l).map Prod.snd).Perm (v :: l.map Prod.snd) := by
    intro l
    induction l with
    | nil => exact fun h => absurd h (by simp [lookupItems])
    | cons e rest ih =>
      obtain ⟨k', v'⟩ := e
      intro h
      rw [lookupItems] at h
      rw [setItems]
      split_ifs at h ⊢ with hkey
      · cases h
        exact List.Perm.swap ..
      · exact (List.Perm.swap ..).trans (((ih h).cons v').trans (List.Perm.swap ..))
  exact hitems d.items h

theorem ofList_concat (l : List (κ × ν)) (entry : κ × ν) : ofList (l ++ [entry]) = (ofList l).set entry.1 entry.2 := by
  rw [ofList, List.foldl_append]
  rfl

/-- A dictionary built from items has the keys of the items. -/
theorem mem_keys_ofList : k ∈ (ofList l).keys ↔ k ∈ l.map Prod.fst := by
  induction l using List.reverseRecOn with
  | nil => exact Iff.rfl
  | append_singleton l entry ih =>
    rw [ofList_concat, keys_set, List.map_append, List.mem_append, ← ih]
    by_cases hmem : entry.1 ∈ (ofList l).keys
    · rw [if_pos hmem]
      refine ⟨Or.inl, Or.rec id fun hlast => ?_⟩
      rw [List.mem_singleton.mp hlast]
      exact hmem
    · rw [if_neg hmem, List.mem_append]
      rfl

/-- What a dictionary built from items holds is one of the items. -/
theorem mem_of_get?_ofList (h : (ofList l).get? k = some v) : (k, v) ∈ l := by
  induction l using List.reverseRecOn with
  | nil => cases h
  | append_singleton l entry ih =>
    rw [ofList_concat, get?_set] at h
    by_cases hkey : entry.1 = k
    · rw [if_pos hkey] at h
      obtain rfl := Option.some.inj h
      obtain rfl := hkey
      exact List.mem_append_right l List.mem_cons_self
    · rw [if_neg hkey] at h
      exact List.mem_append_left _ (ih h)

theorem items_eq (d : Dict κ ν) : d.items = d.keys.filterMap fun k => (d.get? k).map fun v => (k, v) := by
  have hself : ∀ item ∈ d.items, (d.get? item.1).map (fun v => (item.1, v)) = some item := by
    intro item hitem
    rw [(d.get?_eq_some_iff item.1 item.2).2 hitem, Option.map_some]
  rw [keys, List.filterMap_map]
  exact ((List.filterMap_congr hself).trans List.filterMap_some).symm

/-- A dictionary is determined by the order of its keys and by its lookups. -/
theorem ext_get? (hkeys : d.keys = e.keys) (hget : ∀ k, d.get? k = e.get? k) : d = e := by
  apply ext
  rw [items_eq d, items_eq e, hkeys]
  simp only [hget]

theorem filterMapVal_eq {f g : κ → ν → Option μ} (hkeys : d.keys = e.keys)
    (hget : ∀ k, (d.get? k).bind (f k) = (e.get? k).bind (g k)) :
    d.filterMapVal f = e.filterMapVal g := by
  have hitems : ∀ (c : Dict κ ν) (f : κ → ν → Option μ), (c.filterMapVal f).items =
      c.keys.filterMap fun k => ((c.get? k).bind (f k)).map fun v => (k, v) := by
    intro c f
    change c.items.filterMap (fun e => (f e.1 e.2).map fun v => (e.1, v)) = _
    rw [items_eq c, List.filterMap_filterMap]
    congr 1
    funext k
    cases c.get? k <;> rfl
  apply ext
  rw [hitems d, hitems e, hkeys]
  simp only [hget]

section

variable (f : κ → ν → μ)

include f

theorem mapVal_set (d : Dict κ ν) (k : κ) (v : ν) : (d.set k v).mapVal f = (d.mapVal f).set k (f k v) :=
  ext (setItems_map f k v d.items).symm

theorem mapVal_erase (d : Dict κ ν) (k : κ) : (d.erase k).mapVal f = (d.mapVal f).erase k := ext (eraseItems_map f k d.items).symm

theorem mapVal_foldl_set (l : List (κ × ν)) (d : Dict κ ν) : (l.foldl (fun acc item => acc.set item.1 item.2) d).mapVal f =
      (l.map fun e => (e.1, f e.1 e.2)).foldl (fun acc item => acc.set item.1 item.2) (d.mapVal f) := by
  induction l generalizing d with
  | nil => rfl
  | cons e rest ih => rw [List.foldl_cons, ih, mapVal_set, List.map_cons, List.foldl_cons]

theorem mapVal_update (d e : Dict κ ν) : (d.update e).mapVal f = (d.mapVal f).update (e.mapVal f) := mapVal_foldl_set f e.items d

end

end Ops

@[simp] theorem keys_mapVal (f : κ → ν → μ) (d : Dict κ ν) : (d.mapVal f).keys = d.keys := by
  simp [keys, mapVal, Function.comp_def]

theorem mapVal_filterMapVal {ρ : Type*} (g : κ → μ → ρ) (f : κ → ν → Option μ) (d : Dict κ ν) :
    (d.filterMapVal f).mapVal g = d.filterMapVal fun k v => (f k v).map (g k) := by
  apply ext
  simp only [mapVal, filterMapVal, List.map_filterMap, Option.map_map, Function.comp_def]

theorem filterMapVal_mapVal {ρ : Type*} (f : κ → μ → Option ρ) (g : κ → ν → μ) (d : Dict κ ν) :
    (d.mapVal g).filterMapVal f = d.filterMapVal fun k v => f k (g k v) := by
  apply ext
  simp only [mapVal, filterMapVal, List.filterMap_map, Function.comp_def]

variable {f g : κ → ν → μ}

theorem mapVal_congr (h : ∀ k v, (k, v) ∈ d.items → f k v = g k v) : d.mapVal f = d.mapVal g := by
  apply ext
  exact List.map_congr_left fun e he => by rw [h e.1 e.2 he]

/-- A new value and another change of the values that agree give the same dictionary. -/
theorem mapVal_set_eq [DecidableEq κ] {k : κ} {v v' : ν}
    (hk : d.get? k = some v) (hself : g k v' = f k v) (hother : ∀ k', k ≠ k' → g k' = f k') :
    (d.set k v').mapVal g = d.mapVal f := by
  refine ext_get? ?_ fun k' => ?_
  · rw [keys_mapVal, keys_mapVal, keys_set, if_pos ((mem_keys_iff d k).2 ⟨v, hk⟩)]
  · rw [get?_mapVal, get?_mapVal, get?_set]
    by_cases h : k = k'
    · subst h
      rw [if_pos rfl, hk, Option.map_some, Option.map_some, hself]
    · rw [if_neg h, hother k' h]

section Sum

variable {M : Type*} [AddCommGroup M]

def sumBy (d : Dict κ ν) (f : κ → ν → M) : M := (d.items.map fun e => f e.1 e.2).sum

@[simp] theorem sumBy_empty (f : κ → ν → M) : (empty : Dict κ ν).sumBy f = 0 := rfl

theorem sumBy_mapVal (g : κ → ν → μ) (d : Dict κ ν) (f : κ → μ → M) : (d.mapVal g).sumBy f = d.sumBy fun k v => f k (g k v) := by
  simp [sumBy, mapVal, List.map_map, Function.comp_def]

variable [DecidableEq κ]

theorem sumBy_set (d : Dict κ ν) (k : κ) (v : ν) (f : κ → ν → M) :
    (d.set k v).sumBy f = d.sumBy f - (d.get? k).elim 0 (f k) + f k v :=
  sum_setItems f k v d.items

theorem sumBy_erase (d : Dict κ ν) (k : κ) (f : κ → ν → M) : (d.erase k).sumBy f = d.sumBy f - (d.get? k).elim 0 (f k) :=
  sum_eraseItems f k d.items

theorem sumBy_eq_sum_of_subset (d : Dict κ ν) (f : κ → ν → M) {l : List κ} (hl : l.Nodup)
    (hkeys : ∀ k ∈ d.keys, k ∈ l) : d.sumBy f = (l.map fun k => (d.get? k).elim 0 (f k)).sum := by
  have hsum : d.sumBy f = (d.keys.map fun k => (d.get? k).elim 0 (f k)).sum := by
    rw [sumBy, keys, List.map_map]
    congr 1
    refine List.map_congr_left fun item hitem => ?_
    rw [Function.comp_apply, (d.get?_eq_some_iff item.1 item.2).2 hitem, Option.elim_some]
  rw [hsum, ← List.sum_toFinset _ d.nodup, ← List.sum_toFinset _ hl]
  refine Finset.sum_subset (fun k hk => ?_) fun k _ hk => ?_
  · rw [List.mem_toFinset] at hk ⊢
    exact hkeys k hk
  · rw [List.mem_toFinset] at hk
    rw [(d.get?_eq_none_iff k).2 hk, Option.elim_none]

end Sum

section Order

variable [DecidableEq κ] {d : Dict κ ν} {f : κ → ν → ℚ}

theorem sumBy_nonneg (h : ∀ k v, d.get? k = some v → 0 ≤ f k v) : 0 ≤ d.sumBy f := by
  apply List.sum_nonneg
  intro x hx
  obtain ⟨e, he, rfl⟩ := List.mem_map.1 hx
  exact h e.1 e.2 ((d.get?_eq_some_iff e.1 e.2).2 he)

theorem sumBy_pos (hne : d.keys ≠ []) (h : ∀ k v, d.get? k = some v → 0 < f k v) : 0 < d.sumBy f := by
  apply List.sum_pos
  · intro x hx
    obtain ⟨e, he, rfl⟩ := List.mem_map.1 hx
    exact h e.1 e.2 ((d.get?_eq_some_iff e.1 e.2).2 he)
  · intro hnil
    rw [List.map_eq_nil_iff] at hnil
    exact hne (by rw [keys, hnil]; rfl)

end Order

section MapM

variable {κ ν μ : Type} {ε : Type*} [DecidableEq κ]

/-- Items with new keys go to the end, in their order. -/
theorem items_foldl_set (l : List (κ × ν)) (d : Dict κ ν) (h : (d.keys ++ l.map Prod.fst).Nodup) :
    (l.foldl (fun acc item => acc.set item.1 item.2) d).items = d.items ++ l := by
  induction l generalizing d with
  | nil => rw [List.foldl_nil, List.append_nil]
  | cons item l ih =>
    have hnew : item.1 ∉ d.keys := fun hmem => (List.nodup_append.mp h).2.2 _ hmem _ List.mem_cons_self rfl
    rw [List.foldl_cons, ih, items_set_of_not_mem _ hnew, List.append_assoc, List.singleton_append]
    rw [keys_set, if_neg hnew, List.append_assoc, List.singleton_append]
    exact h

theorem items_ofList {l : List (κ × ν)} (h : (l.map Prod.fst).Nodup) : (ofList l).items = l := by
  rw [ofList, items_foldl_set l empty (by simpa using h)]
  rfl

/-- Change every value by a function that may raise, in the order of the keys. -/
def mapValM (f : κ → ν → Except ε μ) (d : Dict κ ν) : Except ε (Dict κ μ) :=
  (d.items.mapM fun item => (f item.1 item.2).map fun v => (item.1, v)).map ofList

variable {f : κ → ν → Except ε μ} {d : Dict κ ν} {d' : Dict κ μ}

/-- The items of the result are those of the loop, under the same keys. -/
theorem mapValM_eq_ok (h : d.mapValM f = .ok d') :
    (d.items.mapM fun item => (f item.1 item.2).map fun v => (item.1, v)) = .ok d'.items ∧ d'.keys = d.keys := by
  obtain ⟨l, hl, rfl⟩ := map_eq_ok_iff.mp h
  have hkeys : ∀ (items : List (κ × ν)) (l : List (κ × μ)),
      (items.mapM fun item => (f item.1 item.2).map fun v => (item.1, v)) = .ok l → l.map Prod.fst = items.map Prod.fst := by
    intro items l hl
    induction mapM_eq_ok_iff.mp hl with
    | nil => rfl
    | cons hhead htail ih =>
      obtain ⟨v, _, rfl⟩ := map_eq_ok_iff.mp hhead
      rw [List.map_cons, List.map_cons, ih (mapM_eq_ok_iff.mpr htail)]
  have hitems := items_ofList (hkeys _ _ hl ▸ d.nodup_keys)
  rw [keys, hitems]
  exact ⟨hl, hkeys _ _ hl⟩

theorem get?_mapValM (h : d.mapValM f = .ok d') {k : κ} {v' : μ} :
    d'.get? k = some v' ↔ ∃ v, d.get? k = some v ∧ f k v = .ok v' := by
  obtain ⟨hloop, _⟩ := mapValM_eq_ok h
  rw [get?_eq_some_iff]
  constructor
  · intro hmem
    obtain ⟨item, hitem, hf⟩ := exists_of_mem_mapM hloop hmem
    obtain ⟨w, hw, heq⟩ := map_eq_ok_iff.mp hf
    cases heq
    exact ⟨item.2, (get?_eq_some_iff _ _ _).mpr hitem, hw⟩
  · rintro ⟨v, hget, hf⟩
    obtain ⟨item', hmem, hf'⟩ := mem_of_mapM hloop ((get?_eq_some_iff _ _ _).mp hget)
    obtain ⟨w, hw, rfl⟩ := map_eq_ok_iff.mp hf'
    cases hf.symm.trans hw
    exact hmem

theorem get?_mapValM_eq_none (h : d.mapValM f = .ok d') {k : κ} : d'.get? k = none ↔ d.get? k = none := by
  rw [get?_eq_none_iff, get?_eq_none_iff, (mapValM_eq_ok h).2]

end MapM

end Dict

end TrueAlpha
