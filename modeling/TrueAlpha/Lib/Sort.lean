import Mathlib.Data.List.Sort
import Mathlib.Data.List.Dedup
import Mathlib.Data.Prod.Lex
import Mathlib.Data.List.MinMax

/-!
# Stable sorting by a key

`sortedBy key l` is the stable sort of `l` by `key`, `sortedSet l` the sorted list of its distinct elements.  Filtering commutes
with the sort, and a strictly sorted list is determined by its members.
-/

namespace TrueAlpha

variable {α β : Type*} {l : List α} {a b : α}

section Key

variable [LinearOrder β] (key : α → β)

/-- The elements in ascending order of their keys, equal keys in their original order. -/
def sortedBy (l : List α) : List α := l.insertionSort fun a b => key a ≤ key b

instance totalKey : Std.Total fun a b : α => key a ≤ key b := ⟨fun a b => le_total (key a) (key b)⟩

instance transKey : IsTrans α fun a b : α => key a ≤ key b := ⟨fun _ _ _ h h' => le_trans h h'⟩

theorem perm_sortedBy (l : List α) : (sortedBy key l).Perm l := List.perm_insertionSort _ l

@[simp] theorem mem_sortedBy {a : α} : a ∈ sortedBy key l ↔ a ∈ l := (perm_sortedBy key l).mem_iff

theorem pairwise_sortedBy (l : List α) : (sortedBy key l).Pairwise fun a b => key a ≤ key b := List.pairwise_insertionSort _ l

theorem head?_sortedBy_eq_some {a : α} (h : (sortedBy key l).head? = some a) : a ∈ l ∧ ∀ b ∈ l, key a ≤ key b := by
  obtain ⟨rest, hsorted⟩ := List.head?_eq_some_iff.mp h
  have hpairwise := pairwise_sortedBy key l
  rw [hsorted, List.pairwise_cons] at hpairwise
  refine ⟨(mem_sortedBy key).mp (List.mem_of_mem_head? h), fun b hb => ?_⟩
  rw [← mem_sortedBy key, hsorted] at hb
  obtain rfl | hb := List.mem_cons.mp hb
  · exact le_rfl
  · exact hpairwise.1 b hb

theorem strictSorted_sortedBy (h : (l.map key).Nodup) : (sortedBy key l).Pairwise fun a b => key a < key b := by
  have hnodup : ((sortedBy key l).map key).Nodup := ((perm_sortedBy key l).map key).nodup_iff.2 h
  refine (List.Pairwise.and (pairwise_sortedBy key l)
    (List.Pairwise.of_map key (fun _ _ => id) hnodup)).imp fun hab => ?_
  exact lt_of_le_of_ne hab.1 hab.2

/-- How many elements of a list have a smaller key. -/
def rankIn (l : List α) (a : α) : ℕ := (l.filter fun b => key b < key a).length

theorem rankIn_perm {l l' : List α} (h : l.Perm l') (a : α) : rankIn key l a = rankIn key l' a := (h.filter _).length_eq

theorem rankIn_cons_of_lt (l : List α) (h : key b < key a) : rankIn key (b :: l) a = rankIn key l a + 1 := by
  rw [rankIn, List.filter_cons_of_pos (by simpa using h), List.length_cons, rankIn]

theorem rankIn_cons_of_le (l : List α) (h : key a ≤ key b) : rankIn key (b :: l) a = rankIn key l a := by
  rw [rankIn, List.filter_cons_of_neg (by simpa using h), rankIn]

theorem rankIn_le_cons (b : α) (l : List α) (a : α) : rankIn key l a ≤ rankIn key (b :: l) a := by
  rcases lt_or_ge (key b) (key a) with h | h
  · rw [rankIn_cons_of_lt key l h]
    exact Nat.le_succ _
  · rw [rankIn_cons_of_le key l h]

/-- A smaller key comes earlier. -/
theorem rankIn_lt_of_mem (hb : b ∈ l) (h : key b < key a) : rankIn key l b < rankIn key l a := by
  induction l with
  | nil => cases hb
  | cons c l ih =>
    have hmono : ∀ l' : List α, rankIn key l' b ≤ rankIn key l' a := fun l' =>
      (List.monotone_filter_right l' fun d hd => by
        simp only [decide_eq_true_eq] at hd ⊢
        exact lt_trans hd h).length_le
    rcases List.mem_cons.mp hb with rfl | hb
    · rw [rankIn_cons_of_lt key l h, rankIn_cons_of_le key l le_rfl]
      exact Nat.lt_succ_of_le (hmono l)
    · have hrest := ih hb
      rcases lt_or_ge (key c) (key b) with hc | hc
      · rw [rankIn_cons_of_lt key l hc, rankIn_cons_of_lt key l (lt_trans hc h)]
        exact Nat.succ_lt_succ hrest
      · rw [rankIn_cons_of_le key l hc]
        exact lt_of_lt_of_le hrest (rankIn_le_cons key c l a)

theorem zipIdx_of_strictSorted (h : l.Pairwise fun a b => key a < key b) (n : ℕ) :
    l.zipIdx n = l.map fun a => (a, n + rankIn key l a) := by
  induction l generalizing n with
  | nil => rfl
  | cons a l ih =>
    rw [List.pairwise_cons] at h
    have hfirst : rankIn key (a :: l) a = 0 := by
      rw [rankIn_cons_of_le key l le_rfl, rankIn, List.length_eq_zero_iff, List.filter_eq_nil_iff]
      intro b hb
      simpa using le_of_lt (h.1 b hb)
    rw [List.zipIdx_cons, List.map_cons, ih h.2, hfirst, Nat.add_zero]
    refine congrArg _ (List.map_congr_left fun b hb => ?_)
    rw [rankIn_cons_of_lt key l (h.1 b hb)]
    exact Prod.ext rfl (by omega)

theorem zipIdx_sortedBy (h : (l.map key).Nodup) (n : ℕ) :
    (sortedBy key l).zipIdx n = (sortedBy key l).map fun a => (a, n + rankIn key l a) := by
  rw [zipIdx_of_strictSorted key (strictSorted_sortedBy key h)]
  refine List.map_congr_left fun a _ => ?_
  rw [rankIn_perm key (perm_sortedBy key l)]

theorem map_rankIn_perm (h : (l.map key).Nodup) (n : ℕ) : (l.map fun a => n + rankIn key l a).Perm (List.range' n l.length) := by
  have hsnd : (sortedBy key l).map (fun a => n + rankIn key l a) = List.range' n l.length := by
    have hzip := congrArg (List.map Prod.snd) (zipIdx_sortedBy key h n)
    rw [List.map_map, List.zipIdx_map_snd, (perm_sortedBy key l).length_eq] at hzip
    exact hzip.symm
  rw [← hsnd]
  exact ((perm_sortedBy key l).map _).symm

/-- How many of the ranks from one on are within a bound. -/
theorem length_filter_range' (k n : ℕ) : ((List.range' 1 k).filter fun rank => rank ≤ n).length = min k n := by
  induction k with
  | zero => simp
  | succ k ih =>
    rw [List.range'_1_concat, List.filter_append, List.length_append, ih, List.filter_singleton]
    by_cases h : 1 + k ≤ n
    · simp only [h, decide_true, cond_true, List.length_singleton]
      omega
    · simp only [h, decide_false, cond_false, List.length_nil]
      omega

theorem orderedInsert_cons_of_key_le (l : List α) (h : key a ≤ key b) :
    (b :: l).orderedInsert (fun a b => key a ≤ key b) a = a :: b :: l :=
  List.orderedInsert_cons_of_le (fun a b => key a ≤ key b) l h

theorem orderedInsert_cons_of_not_key_le (l : List α) (h : ¬ key a ≤ key b) :
    (b :: l).orderedInsert (fun a b => key a ≤ key b) a = b :: l.orderedInsert (fun a b => key a ≤ key b) a :=
  List.orderedInsert_of_not_le (fun a b => key a ≤ key b) l h

theorem filter_orderedInsert (p : α → Bool) (a : α) (hl : l.Pairwise fun a b => key a ≤ key b) :
    (l.orderedInsert (fun a b => key a ≤ key b) a).filter p =
      if p a then (l.filter p).orderedInsert (fun a b => key a ≤ key b) a else l.filter p := by
  induction l with
  | nil => by_cases h : p a <;> simp [h]
  | cons b l ih =>
    rw [List.pairwise_cons] at hl
    by_cases hab : key a ≤ key b
    · rw [orderedInsert_cons_of_key_le key l hab]
      by_cases ha : p a
      · rw [if_pos ha, List.filter_cons_of_pos ha]
        -- every element of the filtered tail is at least `b`, so `a` stays in front
        have hle : ∀ c ∈ (b :: l).filter p, key a ≤ key c := by
          intro c hc
          rcases List.mem_cons.1 (List.mem_filter.1 hc).1 with rfl | hcl
          · exact hab
          · exact le_trans hab (hl.1 c hcl)
        rcases hf : (b :: l).filter p with _ | ⟨c, r⟩
        · rfl
        · rw [orderedInsert_cons_of_key_le key r (hle c (by rw [hf]; exact List.mem_cons_self))]
      · rw [if_neg ha, List.filter_cons_of_neg ha]
    · rw [orderedInsert_cons_of_not_key_le key l hab]
      by_cases hb : p b
      · rw [List.filter_cons_of_pos hb, ih hl.2, List.filter_cons_of_pos hb]
        by_cases ha : p a
        · rw [if_pos ha, if_pos ha, orderedInsert_cons_of_not_key_le key _ hab]
        · rw [if_neg ha, if_neg ha]
      · rw [List.filter_cons_of_neg hb, ih hl.2, List.filter_cons_of_neg hb]

/-- Sorting is stable: the chosen elements keep their relative order. -/
theorem filter_sortedBy (p : α → Bool) (l : List α) : (sortedBy key l).filter p = sortedBy key (l.filter p) := by
  induction l with
  | nil => rfl
  | cons a l ih =>
    have hs : sortedBy key (a :: l) = (sortedBy key l).orderedInsert (fun a b => key a ≤ key b) a := rfl
    rw [hs, filter_orderedInsert key p a (pairwise_sortedBy key l), ih]
    by_cases ha : p a
    · rw [if_pos ha, List.filter_cons_of_pos ha]
      rfl
    · rw [if_neg ha, List.filter_cons_of_neg ha]

theorem map_orderedInsert {α' : Type*} (key' : α' → β) (f : α → α') (h : ∀ a, key' (f a) = key a) (a : α) (l : List α) :
    (l.map f).orderedInsert (fun a b => key' a ≤ key' b) (f a) = (l.orderedInsert (fun a b => key a ≤ key b) a).map f := by
  induction l with
  | nil => rfl
  | cons b l ih =>
    by_cases hab : key a ≤ key b
    · rw [List.map_cons, orderedInsert_cons_of_key_le key' _ (by rwa [h, h]),
        orderedInsert_cons_of_key_le key l hab]
      rfl
    · rw [List.map_cons, orderedInsert_cons_of_not_key_le key' _ (by rwa [h, h]),
        orderedInsert_cons_of_not_key_le key l hab, ih]
      rfl

/-- A change of the elements that keeps their keys commutes with the sort. -/
theorem sortedBy_map {α' : Type*} (key' : α' → β) (f : α → α') (h : ∀ a, key' (f a) = key a) (l : List α) :
    sortedBy key' (l.map f) = (sortedBy key l).map f := by
  induction l with
  | nil => rfl
  | cons a l ih =>
    have hs : sortedBy key' ((a :: l).map f) = (sortedBy key' (l.map f)).orderedInsert (fun a b => key' a ≤ key' b) (f a) := rfl
    rw [hs, ih, map_orderedInsert key key' f h]
    rfl

end Key

variable {l₁ l₂ : List α}

section Set

variable [LinearOrder α]

theorem strictSorted_of_nodup (hs : l.Pairwise (· ≤ ·)) (hn : l.Nodup) : l.Pairwise (· < ·) :=
  (List.Pairwise.and hs hn).imp fun h => lt_of_le_of_ne h.1 h.2

/-- A list whose keys strictly increase is determined by its members. -/
theorem eq_of_strictSorted_key {γ : Type*} (key : γ → α) {l₁ l₂ : List γ}
    (h₁ : l₁.Pairwise fun a b => key a < key b) (h₂ : l₂.Pairwise fun a b => key a < key b)
    (h : ∀ a, a ∈ l₁ ↔ a ∈ l₂) : l₁ = l₂ := by
  have hne : ∀ {a b : γ}, key a < key b → a ≠ b := fun hab heq => absurd hab (heq ▸ lt_irrefl _)
  have hp : l₁.Perm l₂ := (List.perm_ext_iff_of_nodup (h₁.imp hne) (h₂.imp hne)).2 h
  exact hp.eq_of_pairwise (fun a b _ _ hab hba => absurd hba (lt_asymm hab)) h₁ h₂

theorem sortedBy_eq_of_perm {γ : Type*} (key : γ → α) {l₁ l₂ : List γ} (h : l₁.Perm l₂) (hn : (l₁.map key).Nodup) :
    sortedBy key l₁ = sortedBy key l₂ := by
  refine eq_of_strictSorted_key key (strictSorted_sortedBy key hn)
    (strictSorted_sortedBy key ((h.map key).nodup_iff.1 hn)) fun a => ?_
  rw [mem_sortedBy, mem_sortedBy, h.mem_iff]

theorem eq_of_strictSorted (h₁ : l₁.Pairwise (· < ·)) (h₂ : l₂.Pairwise (· < ·)) (h : ∀ a, a ∈ l₁ ↔ a ∈ l₂) : l₁ = l₂ :=
  eq_of_strictSorted_key id h₁ h₂ h

/-- A strictly sorted list is its elements up to a bound, then those above it. -/
theorem eq_filter_le_append (h : l.Pairwise (· < ·)) (s : α) : l = (l.filter fun a => a ≤ s) ++ l.filter fun a => s < a := by
  refine eq_of_strictSorted h ?_ fun a => ?_
  · refine List.pairwise_append.2 ⟨h.filter _, h.filter _, fun a ha b hb => ?_⟩
    have has : a ≤ s := by simpa using (List.mem_filter.1 ha).2
    have hsb : s < b := by simpa using (List.mem_filter.1 hb).2
    exact lt_of_le_of_lt has hsb
  · rw [List.mem_append, List.mem_filter, List.mem_filter]
    simp only [decide_eq_true_eq]
    constructor
    · intro ha
      rcases le_or_gt a s with has | has
      · exact .inl ⟨ha, has⟩
      · exact .inr ⟨ha, has⟩
    · intro ha
      rcases ha with ⟨ha, -⟩ | ⟨ha, -⟩ <;> exact ha

/-- The distinct elements in ascending order. -/
def sortedSet (l : List α) : List α := sortedBy id l.dedup

@[simp] theorem mem_sortedSet {a : α} : a ∈ sortedSet l ↔ a ∈ l := by
  rw [sortedSet, mem_sortedBy, List.mem_dedup]

theorem strictSorted_sortedSet (l : List α) : (sortedSet l).Pairwise (· < ·) :=
  strictSorted_of_nodup (pairwise_sortedBy id l.dedup)
    ((perm_sortedBy id l.dedup).nodup_iff.2 (List.nodup_dedup l))

theorem sortedSet_congr_mem (h : ∀ a, a ∈ l₁ ↔ a ∈ l₂) : sortedSet l₁ = sortedSet l₂ := by
  refine eq_of_strictSorted (strictSorted_sortedSet l₁) (strictSorted_sortedSet l₂) fun a => ?_
  rw [mem_sortedSet, mem_sortedSet, h]

/-- The largest element depends only on the members. -/
theorem max?_congr_mem (h : ∀ a, a ∈ l₁ ↔ a ∈ l₂) : l₁.max? = l₂.max? := by
  ext a
  simp only [List.max?_eq_some_iff, h]

end Set

/-- An element that alone meets a condition is found in every order. -/
theorem find?_perm {α : Type*} {p : α → Bool} {l l' : List α} (h : l.Perm l')
    (hunique : ∀ a ∈ l, ∀ b ∈ l, p a → p b → a = b) : l.find? p = l'.find? p := by
  rcases hfind : l.find? p with _ | a
  · rw [List.find?_eq_none] at hfind
    exact (List.find?_eq_none.mpr fun b hb => hfind b (h.mem_iff.mpr hb)).symm
  · have ha := List.mem_of_find?_eq_some hfind
    rcases hfind' : l'.find? p with _ | b
    · exact absurd (List.find?_some hfind) (List.find?_eq_none.mp hfind' a (h.mem_iff.mp ha))
    · have hb := h.mem_iff.mpr (List.mem_of_find?_eq_some hfind')
      rw [hunique a ha b hb (List.find?_some hfind) (List.find?_some hfind')]

section

variable {α : Type*} [LinearOrder α]

theorem foldl_min_spec (l : List α) (a : α) : l.foldl min a ∈ a :: l ∧ ∀ x ∈ a :: l, l.foldl min a ≤ x := by
  induction l generalizing a with
  | nil => simp
  | cons b l ih =>
    obtain ⟨hmem, hle⟩ := ih (min a b)
    refine ⟨?_, fun x hx => ?_⟩
    · rcases List.mem_cons.1 hmem with heq | hmem
      · rw [List.foldl_cons, heq]
        rcases min_choice a b with h | h <;> simp [h]
      · exact List.mem_cons_of_mem _ (List.mem_cons_of_mem _ hmem)
    · have hmin : (b :: l).foldl min a ≤ min a b := hle _ List.mem_cons_self
      rcases List.mem_cons.1 hx with rfl | hx
      · exact le_trans hmin (min_le_left _ _)
      · rcases List.mem_cons.1 hx with rfl | hx
        · exact le_trans hmin (min_le_right _ _)
        · exact hle x (List.mem_cons_of_mem _ hx)

theorem foldl_min_le_iff {bound : α} (l : List α) (x : α) : bound ≤ l.foldl min x ↔ bound ≤ x ∧ ∀ y ∈ l, bound ≤ y := by
  induction l generalizing x with
  | nil => simp
  | cons y l ih => rw [List.foldl_cons, ih, le_min_iff, List.forall_mem_cons, and_assoc]

end

end TrueAlpha
