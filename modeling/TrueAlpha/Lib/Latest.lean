import TrueAlpha.Lib.Sort

/-!
# The latest version of an append-only log

A log is a list in the order of writing; `latestBy key l` is its entry with the largest key, and among these the last.  A new
entry wins exactly when no entry has a larger key (`latestBy_concat`).
-/

namespace TrueAlpha

variable {α β : Type*} [LinearOrder β]

/-- The entry that wins against the best entry so far: on equal keys, the later one. -/
def newer (key : α → β) (best : Option α) (a : α) : Option α :=
  match best with
  | none => some a
  | some b => if key b ≤ key a then some a else some b

/-- The entry with the largest key, the last one written on a tie. -/
def latestBy (key : α → β) (l : List α) : Option α := l.foldl (newer key) none

variable (key : α → β)

@[simp] theorem latestBy_nil : latestBy key [] = none := rfl

theorem latestBy_concat_eq (l : List α) (a : α) : latestBy key (l ++ [a]) = newer key (latestBy key l) a := by
  rw [latestBy, List.foldl_append]
  rfl

variable {l : List α}

theorem latestBy_eq_none_iff : latestBy key l = none ↔ l = [] := by
  induction l using List.reverseRecOn with
  | nil => simp
  | append_singleton l a ih =>
    rw [latestBy_concat_eq]
    rcases latestBy key l with _ | b
    · simp [newer]
    · by_cases h : key b ≤ key a <;> simp [newer, h]

theorem latestBy_eq_some {a : α} (h : latestBy key l = some a) : a ∈ l ∧ ∀ b ∈ l, key b ≤ key a := by
  induction l using List.reverseRecOn generalizing a with
  | nil => cases h
  | append_singleton l c ih =>
    rw [latestBy_concat_eq] at h
    rcases hl : latestBy key l with _ | b
    · rw [hl] at h
      cases h
      obtain rfl := (latestBy_eq_none_iff key).1 hl
      exact ⟨by simp, by simp⟩
    · obtain ⟨hb, hmax⟩ := ih hl
      rw [hl, newer] at h
      by_cases hbc : key b ≤ key c
      · rw [if_pos hbc] at h
        cases h
        refine ⟨by simp, fun d hd => ?_⟩
        rcases List.mem_append.1 hd with hd | hd
        · exact (hmax d hd).trans hbc
        · rw [List.mem_singleton.1 hd]
      · rw [if_neg hbc] at h
        cases h
        refine ⟨List.mem_append_left _ hb, fun d hd => ?_⟩
        rcases List.mem_append.1 hd with hd | hd
        · exact hmax d hd
        · rw [List.mem_singleton.1 hd]
          exact (not_le.1 hbc).le

/-- A new entry wins when no key is larger. -/
theorem latestBy_concat {a : α} (h : ∀ b ∈ l, key b ≤ key a) : latestBy key (l ++ [a]) = some a := by
  rw [latestBy_concat_eq]
  rcases hl : latestBy key l with _ | b
  · rfl
  · rw [newer, if_pos (h b (latestBy_eq_some key hl).1)]

/-- Entries with smaller keys change nothing. -/
theorem latestBy_append_of_lt {l l' : List α} {a : α} (h : latestBy key l = some a) (hlt : ∀ b ∈ l', key b < key a) :
    latestBy key (l ++ l') = some a := by
  induction l' using List.reverseRecOn with
  | nil => rwa [List.append_nil]
  | append_singleton l' b ih =>
    rw [← List.append_assoc, latestBy_concat_eq, ih fun c hc => hlt c (List.mem_append_left _ hc), newer]
    exact if_neg (not_le.mpr (hlt b (by simp)))

theorem latestBy_map {γ : Type*} (f : γ → α) (l : List γ) : latestBy key (l.map f) = (latestBy (fun c => key (f c)) l).map f := by
  induction l using List.reverseRecOn with
  | nil => rfl
  | append_singleton l c ih =>
    rw [List.map_append, List.map_singleton, latestBy_concat_eq, latestBy_concat_eq, ih]
    rcases latestBy (fun c => key (f c)) l with _ | b
    · rfl
    · show (if key (f b) ≤ key (f c) then _ else _) = Option.map f (if key (f b) ≤ key (f c) then _ else _)
      split_ifs <;> rfl

theorem latestBy_eq_getLast? (h : l.Pairwise fun a b => key a ≤ key b) : latestBy key l = l.getLast? := by
  induction l using List.reverseRecOn with
  | nil => rfl
  | append_singleton l a ih =>
    rw [List.getLast?_concat]
    exact latestBy_concat key fun b hb => (List.pairwise_append.1 h).2.2 b hb a (List.mem_singleton.2 rfl)

theorem latestBy_lex {γ : Type*} [LinearOrder γ] {first : α → β} {second : α → γ} {a : α}
    (h : latestBy (fun b => toLex (first b, second b)) l = some a) :
    latestBy second (l.filter fun b => first b = first a) = some a := by
  induction l using List.reverseRecOn generalizing a with
  | nil => cases h
  | append_singleton l c ih =>
    rw [latestBy_concat_eq] at h
    rw [List.filter_append]
    rcases hbest : latestBy (fun b => toLex (first b, second b)) l with _ | b
    · rw [hbest] at h
      cases h
      rw [(latestBy_eq_none_iff _).mp hbest, List.filter_nil, List.nil_append, List.filter_cons_of_pos (by simp)]
      rfl
    · obtain ⟨-, hmax⟩ := latestBy_eq_some _ hbest
      rw [hbest, newer] at h
      by_cases hle : toLex (first b, second b) ≤ toLex (first c, second c)
      · rw [if_pos hle] at h
        cases h
        rw [List.filter_cons_of_pos (by simp), List.filter_nil]
        rcases Prod.Lex.toLex_le_toLex.mp hle with hlt | ⟨heq, hsecond⟩
        · have hnone : l.filter (fun d => first d = first c) = [] := by
            refine List.filter_eq_nil_iff.mpr fun d hd hfirst => ?_
            rcases Prod.Lex.toLex_le_toLex.mp (hmax d hd) with hlt' | ⟨heq', -⟩
            · exact absurd (of_decide_eq_true hfirst) (hlt'.trans hlt).ne
            · exact absurd (heq'.symm.trans (of_decide_eq_true hfirst)) hlt.ne
          rw [hnone]
          rfl
        · have hb := ih hbest
          simp only [show first b = first c from heq] at hb
          rw [latestBy_concat_eq, hb, newer, if_pos hsecond]
      · rw [if_neg hle] at h
        cases h
        by_cases hfirst : first c = first a
        · have hsecond : ¬ second a ≤ second c := fun hsecond =>
            hle (Prod.Lex.toLex_le_toLex.mpr (Or.inr ⟨hfirst.symm, hsecond⟩))
          rw [List.filter_cons_of_pos (by simpa using hfirst), List.filter_nil, latestBy_concat_eq, ih hbest, newer,
            if_neg hsecond]
        · rw [List.filter_cons_of_neg (by simpa using hfirst), List.filter_nil, List.append_nil]
          exact ih hbest

/-- Where no two entries share a key, the latest is the first in descending order. -/
theorem head?_sortedBy_eq_latestBy (hkeys : ∀ a ∈ l, ∀ b ∈ l, key a = key b → a = b) :
    (sortedBy (fun a => OrderDual.toDual (key a)) l).head? = latestBy key l := by
  rcases hlast : latestBy key l with _ | b
  · rw [(latestBy_eq_none_iff key).mp hlast]
    rfl
  · obtain ⟨hb, hmax⟩ := latestBy_eq_some key hlast
    rcases hfirst : (sortedBy (fun a => OrderDual.toDual (key a)) l).head? with _ | a
    · rw [List.head?_eq_none_iff, ← List.length_eq_zero_iff, (perm_sortedBy _ l).length_eq, List.length_eq_zero_iff] at hfirst
      rw [hfirst] at hb
      cases hb
    · obtain ⟨ha, hmin⟩ := head?_sortedBy_eq_some _ hfirst
      rw [hkeys a ha b hb (le_antisymm (hmax a ha) (hmin b hb))]

end TrueAlpha
