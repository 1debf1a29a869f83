import Mathlib.Data.List.Nodup
import Mathlib.Data.List.Perm.Subperm

/-!
# Breadth-first search

A search keeps a queue and the reached nodes.  It returns the nodes that a non-empty path leads to (`mem_search_iff`), and on a
finite graph it ends (`exists_search`).
-/

namespace TrueAlpha

variable {α : Type*} [DecidableEq α]

/-- The queue and the reached nodes, with the node last unless reached before. -/
def reachNode (found : List α × List α) (node : α) : List α × List α :=
  if node ∈ found.2 then found else (found.1 ++ [node], found.2 ++ [node])

variable (next : α → List α)

/-- The search, over a queue and the reached nodes; none when the fuel ends first. -/
def search : ℕ → List α → List α → Option (List α)
  | _, [], reached => some reached
  | 0, _ :: _, _ => none
  | fuel + 1, node :: queue, reached =>
    let found := (next node).foldl reachNode (queue, reached)
    search fuel found.1 found.2

variable {next} {queue reached : List α}

theorem foldl_reachNode (nodes queue : List α) (hnodup : reached.Nodup) :
    ∃ added, nodes.foldl reachNode (queue, reached) = (queue ++ added, reached ++ added) ∧
      (reached ++ added).Nodup ∧ added ⊆ nodes ∧ nodes ⊆ reached ++ added := by
  induction nodes generalizing queue reached with
  | nil => exact ⟨[], by simp, by simpa using hnodup, List.Subset.refl _, List.nil_subset _⟩
  | cons node nodes ih =>
    rw [List.foldl_cons, reachNode]
    by_cases hmem : node ∈ reached
    · obtain ⟨added, heq, hadded, hsub, hsup⟩ := ih queue hnodup
      rw [if_pos hmem]
      refine ⟨added, heq, hadded, List.subset_cons_of_subset node hsub, List.cons_subset.mpr ⟨?_, hsup⟩⟩
      exact List.mem_append_left added hmem
    · have hnext : (reached ++ [node]).Nodup := hnodup.append (List.nodup_singleton node) (List.disjoint_singleton.mpr hmem)
      obtain ⟨added, heq, hadded, hsub, hsup⟩ := ih (queue ++ [node]) hnext
      rw [if_neg hmem]
      refine ⟨node :: added, ?_, ?_, List.cons_subset_cons node hsub, List.cons_subset.mpr ⟨by simp, ?_⟩⟩
      · rw [heq, List.append_assoc, List.append_assoc, List.singleton_append]
      · rwa [List.append_assoc, List.singleton_append] at hadded
      · rwa [List.append_assoc, List.singleton_append] at hsup

variable {start : α}

/-- A path leads to every reached node, and the successors of every visited node are reached. -/
structure Searching (next : α → List α) (start : α) (queue reached : List α) : Prop where
  nodup : reached.Nodup
  path : ∀ node ∈ reached, Relation.TransGen (fun a b => b ∈ next a) start node
  queued : queue ⊆ start :: reached
  looked : ∀ node, node = start ∨ node ∈ reached → node ∈ queue ∨ next node ⊆ reached

namespace Searching

omit [DecidableEq α] in
theorem begin : Searching next start [start] [] where
  nodup := List.nodup_nil
  path := by simp
  queued := by simp
  looked node hnode := Or.inl (by simpa using hnode)

theorem step {node : α} (h : Searching next start (node :: queue) reached) :
    Searching next start ((next node).foldl reachNode (queue, reached)).1
      ((next node).foldl reachNode (queue, reached)).2 := by
  obtain ⟨added, heq, hnodup, hsub, hsup⟩ := foldl_reachNode (next node) queue h.nodup
  rw [heq]
  have hpath : ∀ other ∈ next node, Relation.TransGen (fun a b => b ∈ next a) start other := by
    intro other hother
    rcases List.mem_cons.mp (h.queued List.mem_cons_self) with rfl | hreached
    · exact .single hother
    · exact .tail (h.path node hreached) hother
  refine ⟨hnodup, ?_, ?_, ?_⟩
  · intro other hother
    rcases List.mem_append.mp hother with hbefore | hadded
    · exact h.path other hbefore
    · exact hpath other (hsub hadded)
  · intro other hother
    rcases List.mem_append.mp hother with hbefore | hadded
    · have hqueued := h.queued (List.mem_cons_of_mem node hbefore)
      exact List.cons_subset_cons start (List.subset_append_left reached added) hqueued
    · exact List.mem_cons_of_mem start (List.mem_append_right reached hadded)
  · intro other hother
    by_cases hsame : other = node
    · rw [hsame]
      exact Or.inr hsup
    · by_cases hnew : other ∈ added
      · exact Or.inl (List.mem_append_right queue hnew)
      · have hbefore : other = start ∨ other ∈ reached := by
          refine hother.imp id fun hmem => ?_
          exact (List.mem_append.mp hmem).resolve_right hnew
        rcases h.looked other hbefore with hqueue | hreached
        · exact Or.inl (List.mem_append_left added (List.mem_of_ne_of_mem hsame hqueue))
        · exact Or.inr (List.Subset.trans hreached (List.subset_append_left reached added))

end Searching

variable {fuel : ℕ}

theorem mem_search_nil_iff {found : List α} (hsearching : Searching next start [] reached)
    (h : search next fuel [] reached = some found) {node : α} :
    node ∈ found ↔ Relation.TransGen (fun a b => b ∈ next a) start node := by
  have hfound : reached = found := by cases fuel <;> exact Option.some.inj h
  rw [← hfound]
  refine ⟨hsearching.path node, fun hpath => ?_⟩
  induction hpath with
  | single hstep => exact ((hsearching.looked start (Or.inl rfl)).resolve_left List.not_mem_nil) hstep
  | tail _ hstep ih => exact ((hsearching.looked _ (Or.inr ih)).resolve_left List.not_mem_nil) hstep

/-- What a search returns are the nodes that a non-empty path leads to. -/
theorem mem_search_iff {found : List α} (hsearching : Searching next start queue reached)
    (h : search next fuel queue reached = some found) {node : α} :
    node ∈ found ↔ Relation.TransGen (fun a b => b ∈ next a) start node := by
  induction fuel generalizing queue reached with
  | zero =>
    cases queue with
    | nil => exact mem_search_nil_iff hsearching h
    | cons first queue => cases h
  | succ fuel ih =>
    cases queue with
    | nil => exact mem_search_nil_iff hsearching h
    | cons first queue => exact ih hsearching.step h

theorem exists_search (nodes : List α) (hnodup : reached.Nodup) (hreached : reached ⊆ nodes)
    (hqueue : queue ⊆ nodes) (hnext : ∀ node ∈ nodes, next node ⊆ nodes)
    (hfuel : nodes.length + queue.length ≤ fuel + reached.length) :
    ∃ found, search next fuel queue reached = some found := by
  induction fuel generalizing queue reached with
  | zero =>
    cases queue with
    | nil => exact ⟨reached, rfl⟩
    | cons first queue =>
      have hle := (List.subperm_of_subset hnodup hreached).length_le
      rw [List.length_cons] at hfuel
      omega
  | succ fuel ih =>
    cases queue with
    | nil => exact ⟨reached, rfl⟩
    | cons first queue =>
      obtain ⟨hfirst, hrest⟩ := List.cons_subset.mp hqueue
      obtain ⟨added, heq, hadded, hsub, -⟩ := foldl_reachNode (next first) queue hnodup
      have hin : added ⊆ nodes := List.Subset.trans hsub (hnext first hfirst)
      show ∃ found, search next fuel ((next first).foldl reachNode (queue, reached)).1
        ((next first).foldl reachNode (queue, reached)).2 = some found
      rw [heq]
      refine ih hadded (List.append_subset.mpr ⟨hreached, hin⟩) (List.append_subset.mpr ⟨hrest, hin⟩) ?_
      rw [List.length_cons] at hfuel
      rw [List.length_append, List.length_append]
      omega

end TrueAlpha
