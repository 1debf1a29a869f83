import Mathlib.Data.List.Nodup
import Mathlib.Data.List.Perm.Subperm

/-!
# Closure by sweeps

A sweep adds the successors of all nodes that were reached before it.  Sweeps until nothing is added reach exactly the
nodes that a path leads to, and on a finite graph they end.
-/

namespace TrueAlpha

variable {α : Type*} [DecidableEq α]

/-- Add a node that is not yet there. -/
def addNew (reached : List α) (node : α) : List α := if node ∈ reached then reached else reached ++ [node]

variable (next : α → List α)

/-- Add the successors of all nodes. -/
def sweep (reached : List α) : List α := reached.foldl (fun acc node => (next node).foldl addNew acc) reached

/-- Sweeps until one adds nothing: none when the fuel ends first. -/
def closure : ℕ → List α → Option (List α)
  | 0, _ => none
  | fuel + 1, reached =>
    if (sweep next reached).length = reached.length then some reached else closure fuel (sweep next reached)

variable {next} {reached more : List α} {node : α} {a : α}

theorem mem_addNew : a ∈ addNew reached node ↔ a ∈ reached ∨ a = node := by
  unfold addNew
  split
  · next hmem => exact ⟨.inl, fun h => h.elim id fun heq => heq ▸ hmem⟩
  · rw [List.mem_append, List.mem_singleton]

theorem prefix_addNew : reached <+: addNew reached node := by
  unfold addNew
  split
  · exact List.prefix_rfl
  · exact List.prefix_append ..

theorem nodup_addNew (h : reached.Nodup) : (addNew reached node).Nodup := by
  unfold addNew
  split
  · exact h
  · next hnot =>
    rw [← List.concat_eq_append]
    exact h.concat hnot

theorem mem_foldl_addNew : a ∈ more.foldl addNew reached ↔ a ∈ reached ∨ a ∈ more := by
  induction more generalizing reached with
  | nil => simp
  | cons node more ih => rw [List.foldl_cons, ih, mem_addNew, List.mem_cons, or_assoc]

theorem prefix_foldl_addNew : reached <+: more.foldl addNew reached := by
  induction more generalizing reached with
  | nil => exact List.prefix_rfl
  | cons node more ih => exact prefix_addNew.trans ih

theorem nodup_foldl_addNew (h : reached.Nodup) : (more.foldl addNew reached).Nodup := by
  induction more generalizing reached with
  | nil => exact h
  | cons node more ih => exact ih (nodup_addNew h)

theorem sweep_pass (nodes : List α) (h : reached.Nodup) :
    reached <+: nodes.foldl (fun acc node => (next node).foldl addNew acc) reached ∧
    (nodes.foldl (fun acc node => (next node).foldl addNew acc) reached).Nodup ∧
    ∀ a, a ∈ nodes.foldl (fun acc node => (next node).foldl addNew acc) reached ↔
      a ∈ reached ∨ ∃ node ∈ nodes, a ∈ next node := by
  induction nodes generalizing reached with
  | nil => exact ⟨List.prefix_rfl, h, fun a => by simp⟩
  | cons node nodes ih =>
    have hstart : ((next node).foldl addNew reached).Nodup := nodup_foldl_addNew h
    obtain ⟨hrest, hnodup, hmem⟩ := ih hstart
    refine ⟨prefix_foldl_addNew.trans hrest, hnodup, fun a => ?_⟩
    rw [List.foldl_cons, hmem, mem_foldl_addNew, or_assoc]
    simp

theorem prefix_sweep (h : reached.Nodup) : reached <+: sweep next reached := (sweep_pass reached h).1

theorem nodup_sweep (h : reached.Nodup) : (sweep next reached).Nodup := (sweep_pass reached h).2.1

theorem mem_sweep (h : reached.Nodup) : a ∈ sweep next reached ↔ a ∈ reached ∨ ∃ node ∈ reached, a ∈ next node :=
  (sweep_pass reached h).2.2 a

/-- A path leads from a node of a list to a node. -/
def ReachedFrom (next : α → List α) (start : List α) (a : α) : Prop :=
  ∃ source ∈ start, Relation.ReflTransGen (fun a b => b ∈ next a) source a

theorem reachedFrom_sweep (h : reached.Nodup) : ReachedFrom next (sweep next reached) a ↔ ReachedFrom next reached a := by
  constructor
  · rintro ⟨source, hsource, hpath⟩
    obtain hsource | ⟨node, hnode, hnext⟩ := (mem_sweep h).mp hsource
    · exact ⟨source, hsource, hpath⟩
    · exact ⟨node, hnode, .head hnext hpath⟩
  · rintro ⟨source, hsource, hpath⟩
    exact ⟨source, (prefix_sweep h).subset hsource, hpath⟩

/-- A list that a sweep does not lengthen is closed. -/
theorem mem_iff_of_sweep_length (h : reached.Nodup) (hlength : (sweep next reached).length = reached.length) :
    a ∈ reached ↔ ReachedFrom next reached a := by
  have hsame : reached = sweep next reached := (prefix_sweep h).eq_of_length hlength.symm
  refine ⟨fun ha => ⟨a, ha, .refl⟩, ?_⟩
  rintro ⟨source, hsource, hpath⟩
  induction hpath with
  | refl => exact hsource
  | tail _ hnext ih =>
    rw [hsame]
    exact (mem_sweep h).mpr (.inr ⟨_, ih, hnext⟩)

/-- What the sweeps return is the set of the nodes that a path leads to. -/
theorem mem_closure_iff {fuel : ℕ} {closed : List α} (h : reached.Nodup) (hclosed : closure next fuel reached = some closed) : a ∈ closed ↔ ReachedFrom next reached a := by
  induction fuel generalizing reached with
  | zero => cases hclosed
  | succ fuel ih =>
    rw [closure] at hclosed
    split at hclosed
    · next hlength =>
      cases hclosed
      exact mem_iff_of_sweep_length h hlength
    · rw [ih (nodup_sweep h) hclosed, reachedFrom_sweep h]

/-- The sweeps end where all nodes are those of a finite list. -/
theorem exists_closure {fuel : ℕ} (nodes : List α) (h : reached.Nodup) (hreached : reached ⊆ nodes)
    (hnext : ∀ a ∈ nodes, next a ⊆ nodes) (hfuel : nodes.length < fuel + reached.length) :
    ∃ closed, closure next fuel reached = some closed := by
  induction fuel generalizing reached with
  | zero =>
    have hle := (List.subperm_of_subset h hreached).length_le
    omega
  | succ fuel ih =>
    rw [closure]
    split
    · exact ⟨reached, rfl⟩
    · next hlength =>
      have hgrows : reached.length ≤ (sweep next reached).length := (prefix_sweep h).length_le
      refine ih (nodup_sweep h) (fun a ha => ?_) (by omega)
      obtain ha | ⟨node, hnode, ha⟩ := (mem_sweep h).mp ha
      · exact hreached ha
      · exact hnext node (hreached hnode) ha

end TrueAlpha
