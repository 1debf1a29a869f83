import Mathlib.Data.Fintype.EquivFin
import Mathlib.Order.WellFounded

/-!
# Peeling a graph

A peeling takes the first node of its queue, lowers the degree of each successor and queues those that reach zero.  It visits
every node exactly when the graph has no cycle (`Peeling.length_eq_iff`).
-/

namespace TrueAlpha

variable {α : Type*} [DecidableEq α]

/-- Lower the degree of a node, and queue it where that reaches zero. -/
def releaseNode (state : List α × (α → ℕ)) (node : α) : List α × (α → ℕ) :=
  let degree := Function.update state.2 node (state.2 node - 1)
  if degree node = 0 then (state.1 ++ [node], degree) else (state.1, degree)

variable (next : α → List α)

/-- The nodes that a peeling visits after the visited ones; none when the fuel ends first. -/
def peel : ℕ → List α → (α → ℕ) → List α → Option (List α)
  | _, [], _, visited => some visited
  | 0, _ :: _, _, _ => none
  | fuel + 1, node :: queue, degree, visited =>
    let state := (next node).foldl releaseNode (queue, degree)
    peel fuel state.1 state.2 (visited ++ [node])

variable {next}

/-- Releasing distinct nodes lowers each degree by one and queues those that reach zero. -/
theorem foldl_releaseNode {nodes : List α} (hnodup : nodes.Nodup) (queue : List α) (degree : α → ℕ) :
    nodes.foldl releaseNode (queue, degree) = (queue ++ nodes.filter fun node => degree node - 1 = 0,
        fun node => if node ∈ nodes then degree node - 1 else degree node) := by
  induction nodes generalizing queue degree with
  | nil => simp
  | cons node nodes ih =>
    obtain ⟨hnode, hnodes⟩ := List.nodup_cons.mp hnodup
    have hsame : ∀ other ∈ nodes, Function.update degree node (degree node - 1) other = degree other := by
      intro other hother
      have hne : other ≠ node := by
        rintro rfl
        exact hnode hother
      exact Function.update_of_ne hne ..
    have hfilter : (nodes.filter fun other => Function.update degree node (degree node - 1) other - 1 = 0) =
        nodes.filter fun other => degree other - 1 = 0 :=
      List.filter_congr fun other hother => by rw [hsame other hother]
    have hdegree : (fun other => if other ∈ nodes then Function.update degree node (degree node - 1) other - 1
        else Function.update degree node (degree node - 1) other) =
        fun other => if other ∈ node :: nodes then degree other - 1 else degree other := by
      funext other
      by_cases hother : other = node
      · rw [hother, if_neg hnode, if_pos List.mem_cons_self, Function.update_self]
      · simp only [List.mem_cons, hother, false_or, Function.update_of_ne hother]
    rw [List.foldl_cons, releaseNode]
    dsimp only
    rw [Function.update_self]
    by_cases hzero : degree node - 1 = 0
    · rw [if_pos hzero, ih hnodes, hfilter, hdegree, List.filter_cons_of_pos (by simpa using hzero), List.append_assoc,
        List.singleton_append]
    · rw [if_neg hzero, ih hnodes, hfilter, hdegree, List.filter_cons_of_neg (by simpa using hzero)]

/-- The nodes of a list that lead to a node and are not visited. -/
def unvisitedBefore (next : α → List α) (nodes visited : List α) (node : α) : Finset α :=
  {before ∈ nodes.toFinset | node ∈ next before ∧ before ∉ visited}

theorem mem_unvisitedBefore {nodes visited : List α} {node before : α} :
    before ∈ unvisitedBefore next nodes visited node ↔ before ∈ nodes ∧ node ∈ next before ∧ before ∉ visited := by
  rw [unvisitedBefore, Finset.mem_filter, List.mem_toFinset]

/-- A degree counts the unvisited predecessors, and the nodes of degree zero are visited or queued. -/
structure Peeling (next : α → List α) (nodes queue : List α) (degree : α → ℕ) (visited : List α) : Prop where
  nodup : (visited ++ queue).Nodup
  subset : visited ++ queue ⊆ nodes
  degree_eq : ∀ node, degree node = (unvisitedBefore next nodes visited node).card
  zero_iff : ∀ node ∈ nodes, degree node = 0 ↔ node ∈ visited ++ queue
  before : ∀ earlier node later, visited = earlier ++ node :: later → ∀ other ∈ nodes, node ∈ next other → other ∈ earlier

namespace Peeling

variable {nodes queue visited : List α} {degree : α → ℕ} {first : α}

/-- The first step: the nodes without predecessors are queued. -/
theorem begin (hnodes : nodes.Nodup) (hdegree : ∀ node, degree node = (unvisitedBefore next nodes [] node).card) :
    Peeling next nodes (nodes.filter fun node => degree node = 0) degree [] where
  nodup := by simpa using hnodes.filter _
  subset := by simp
  degree_eq := hdegree
  zero_iff node hnode := by simp [hnode]
  before earlier node later h := by
    cases earlier <;> cases h

theorem first_not_visited (h : Peeling next nodes (first :: queue) degree visited) : first ∉ visited := by
  intro hmem
  exact (List.nodup_append.mp h.nodup).2.2 first hmem first List.mem_cons_self rfl

theorem unvisitedBefore_concat (h : Peeling next nodes (first :: queue) degree visited) (node : α) :
    (unvisitedBefore next nodes (visited ++ [first]) node).card =
      if node ∈ next first then degree node - 1 else degree node := by
  have hfirst : first ∈ nodes := h.subset (List.mem_append_right visited List.mem_cons_self)
  have herase : unvisitedBefore next nodes (visited ++ [first]) node = (unvisitedBefore next nodes visited node).erase first := by
    ext before
    simp only [mem_unvisitedBefore, Finset.mem_erase, List.mem_append, List.mem_singleton, not_or]
    tauto
  have hmem : first ∈ unvisitedBefore next nodes visited node ↔ node ∈ next first := by
    rw [mem_unvisitedBefore]
    simp only [hfirst, h.first_not_visited, not_false_eq_true, and_true, true_and]
  rw [herase, Finset.card_erase_eq_ite, h.degree_eq node]
  simp only [hmem]

theorem step (hnext : ∀ node, (next node).Nodup) (hclosed : ∀ node ∈ nodes, next node ⊆ nodes)
    (h : Peeling next nodes (first :: queue) degree visited) :
    Peeling next nodes ((next first).foldl releaseNode (queue, degree)).1
      ((next first).foldl releaseNode (queue, degree)).2 (visited ++ [first]) := by
  have hfirst : first ∈ nodes := h.subset (List.mem_append_right visited List.mem_cons_self)
  have hold : ∀ node ∈ next first, node ∉ visited ++ first :: queue := by
    intro node hnode hmem
    have hzero := (h.zero_iff node (hclosed first hfirst hnode)).mpr hmem
    rw [h.degree_eq, Finset.card_eq_zero] at hzero
    have hbefore : first ∈ unvisitedBefore next nodes visited node := mem_unvisitedBefore.mpr ⟨hfirst, hnode, h.first_not_visited⟩
    rw [hzero] at hbefore
    exact absurd hbefore (Finset.notMem_empty first)
  have hone : ∀ node ∈ next first, degree node ≠ 0 := by
    intro node hnode hzero
    exact hold node hnode ((h.zero_iff node (hclosed first hfirst hnode)).mp hzero)
  rw [foldl_releaseNode (hnext first)]
  dsimp only
  have hassoc : visited ++ [first] ++ (queue ++ (next first).filter fun node => degree node - 1 = 0) =
      (visited ++ first :: queue) ++ (next first).filter fun node => degree node - 1 = 0 := by simp
  refine ⟨?_, ?_, ?_, ?_, ?_⟩
  · rw [hassoc]
    refine h.nodup.append ((hnext first).filter _) fun node hbefore hadded => ?_
    exact hold node (List.mem_of_mem_filter hadded) hbefore
  · rw [hassoc]
    refine List.append_subset.mpr ⟨h.subset, fun node hadded => ?_⟩
    exact hclosed first hfirst (List.mem_of_mem_filter hadded)
  · exact fun node => (h.unvisitedBefore_concat node).symm
  · intro node hnode
    rw [hassoc, List.mem_append, List.mem_filter, ← h.zero_iff node hnode]
    by_cases hmem : node ∈ next first
    · simp [hmem, hone node hmem]
    · simp [hmem]
  · intro earlier node later heq other hother hleads
    rcases List.eq_nil_or_concat' later with rfl | ⟨later, last, rfl⟩
    · obtain ⟨rfl, hlast⟩ := List.append_inj' heq rfl
      obtain rfl : first = node := by simpa using hlast
      by_contra hunvisited
      have hzero := (h.zero_iff first hfirst).mpr (List.mem_append_right visited List.mem_cons_self)
      rw [h.degree_eq, Finset.card_eq_zero] at hzero
      have hbefore := mem_unvisitedBefore.mpr ⟨hother, hleads, hunvisited⟩
      rw [hzero] at hbefore
      exact absurd hbefore (Finset.notMem_empty other)
    · have hsplit : visited ++ [first] = (earlier ++ node :: later) ++ [last] := by rw [heq]; simp
      exact h.before earlier node later (List.append_inj' hsplit rfl).1 other hother hleads

end Peeling

/-- A peeling goes on to a state with nothing queued. -/
theorem Peeling.peel_eq_some {nodes queue visited visited' : List α} {degree : α → ℕ} {fuel : ℕ}
    (hnext : ∀ node, (next node).Nodup) (hclosed : ∀ node ∈ nodes, next node ⊆ nodes)
    (hpeeling : Peeling next nodes queue degree visited) (h : peel next fuel queue degree visited = some visited') :
    ∃ degree', Peeling next nodes [] degree' visited' := by
  induction fuel generalizing queue degree visited with
  | zero =>
    cases queue with
    | nil => exact ⟨degree, Option.some.inj h ▸ hpeeling⟩
    | cons first queue => cases h
  | succ fuel ih =>
    cases queue with
    | nil => exact ⟨degree, Option.some.inj h ▸ hpeeling⟩
    | cons first queue => exact ih (hpeeling.step hnext hclosed) h

theorem Peeling.exists_peel {nodes queue visited : List α} {degree : α → ℕ} {fuel : ℕ}
    (hnext : ∀ node, (next node).Nodup) (hclosed : ∀ node ∈ nodes, next node ⊆ nodes)
    (hpeeling : Peeling next nodes queue degree visited) (hfuel : nodes.length ≤ fuel + visited.length) :
    ∃ visited', peel next fuel queue degree visited = some visited' := by
  induction fuel generalizing queue degree visited with
  | zero =>
    cases queue with
    | nil => exact ⟨visited, rfl⟩
    | cons first queue =>
      have hle := (List.subperm_of_subset hpeeling.nodup hpeeling.subset).length_le
      rw [List.length_append, List.length_cons] at hle
      omega
  | succ fuel ih =>
    cases queue with
    | nil => exact ⟨visited, rfl⟩
    | cons first queue =>
      refine ih (hpeeling.step hnext hclosed) ?_
      rw [List.length_append, List.length_singleton]
      omega

/-- No path leads from a node to itself. -/
def Acyclic (next : α → List α) : Prop := ∀ node, ¬ Relation.TransGen (fun a b => b ∈ next a) node node

section Cycles

variable {nodes visited : List α} {degree : α → ℕ}

section

variable (h : Peeling next nodes [] degree visited)

include h

theorem Peeling.idxOf_lt {node other : α} (hnode : node ∈ visited)
    (hother : other ∈ nodes) (hleads : node ∈ next other) : other ∈ visited ∧ visited.idxOf other < visited.idxOf node := by
  obtain ⟨earlier, later, heq, hfirst⟩ := List.eq_append_cons_of_mem hnode
  have hbefore := h.before earlier node later heq other hother hleads
  refine ⟨by rw [heq]; exact List.mem_append_left _ hbefore, ?_⟩
  rw [heq, List.idxOf_append_of_mem hbefore, List.idxOf_append_of_notMem hfirst, List.idxOf_cons_self]
  exact lt_of_lt_of_le (List.idxOf_lt_length_of_mem hbefore) (Nat.le_add_right _ _)

theorem Peeling.visited_subset : visited ⊆ nodes := by
  simpa using h.subset

theorem Peeling.nodup_visited : visited.Nodup := by
  simpa using h.nodup

end

omit [DecidableEq α] in
/-- A graph whose steps all lead to a higher rank has no cycle. -/
theorem Acyclic.of_rank (rank : α → ℕ) (hrank : ∀ a b, b ∈ next a → rank a < rank b) : Acyclic next := by
  have hpath : ∀ a b, Relation.TransGen (fun a b => b ∈ next a) a b → rank a < rank b := by
    intro a b hpath
    induction hpath with
    | single hleads => exact hrank _ _ hleads
    | tail _ hleads ih => exact ih.trans (hrank _ _ hleads)
  exact fun node hcycle => lt_irrefl _ (hpath node node hcycle)

/-- Where every node was visited there is no cycle: a step leads to a later visited node. -/
theorem Peeling.acyclic (h : Peeling next nodes [] degree visited) (hin : ∀ a b, b ∈ next a → a ∈ nodes ∧ b ∈ nodes)
    (hall : nodes ⊆ visited) : Acyclic next := by
  refine Acyclic.of_rank visited.idxOf fun a b hleads => ?_
  exact (h.idxOf_lt (hall (hin a b hleads).2) (hin a b hleads).1 hleads).2

theorem Peeling.exists_unvisited (h : Peeling next nodes [] degree visited) {node : α} (hnode : node ∈ nodes)
    (hunvisited : node ∉ visited) : ∃ other ∈ nodes, node ∈ next other ∧ other ∉ visited := by
  have hdegree : degree node ≠ 0 := by
    rw [Ne, h.zero_iff node hnode, List.append_nil]
    exact hunvisited
  rw [h.degree_eq, Ne, Finset.card_eq_zero] at hdegree
  obtain ⟨other, hother⟩ := Finset.nonempty_iff_ne_empty.mpr hdegree
  exact ⟨other, mem_unvisitedBefore.mp hother⟩

/-- Where some nodes have a predecessor among themselves each, the graph has a cycle. -/
theorem Acyclic.eq_empty {unvisited : Finset α} (hacyclic : Acyclic next)
    (hbefore : ∀ node ∈ unvisited, ∃ other ∈ unvisited, node ∈ next other) : unvisited = ∅ := by
  by_contra hne
  obtain ⟨first, hfirst⟩ := Finset.nonempty_iff_ne_empty.mpr hne
  let path : unvisited → unvisited → Prop := fun a b => Relation.TransGen (fun a b => b ∈ next a) a.1 b.1
  have htrans : IsTrans unvisited path := ⟨fun _ _ _ hab hbc => hab.trans hbc⟩
  have hirrefl : Std.Irrefl path := ⟨fun a hcycle => hacyclic a.1 hcycle⟩
  have hwf : WellFounded path := Finite.wellFounded_of_trans_of_irrefl path
  obtain ⟨node, -, hmin⟩ := hwf.has_min Set.univ ⟨⟨first, hfirst⟩, trivial⟩
  obtain ⟨other, hother, hleads⟩ := hbefore node.1 node.2
  exact hmin ⟨other, hother⟩ trivial (.single hleads)

/-- A peeling visits every node exactly when the graph has no cycle. -/
theorem Peeling.length_eq_iff (h : Peeling next nodes [] degree visited)
    (hin : ∀ a b, b ∈ next a → a ∈ nodes ∧ b ∈ nodes) (hnodes : nodes.Nodup) :
    visited.length = nodes.length ↔ Acyclic next := by
  constructor
  · intro hlength
    have hperm : visited.Perm nodes := (List.subperm_of_subset h.nodup_visited h.visited_subset).perm_of_length_le hlength.ge
    exact h.acyclic hin hperm.symm.subset
  · intro hacyclic
    have hnone : {node ∈ nodes.toFinset | node ∉ visited} = (∅ : Finset α) := by
      refine hacyclic.eq_empty fun node hnode => ?_
      rw [Finset.mem_filter, List.mem_toFinset] at hnode
      obtain ⟨other, hother, hleads, hunvisited⟩ := h.exists_unvisited hnode.1 hnode.2
      exact ⟨other, Finset.mem_filter.mpr ⟨List.mem_toFinset.mpr hother, hunvisited⟩, hleads⟩
    have hall : nodes ⊆ visited := by
      intro node hnode
      by_contra hunvisited
      have hmem : node ∈ {node ∈ nodes.toFinset | node ∉ visited} :=
        Finset.mem_filter.mpr ⟨List.mem_toFinset.mpr hnode, hunvisited⟩
      rw [hnone] at hmem
      exact absurd hmem (Finset.notMem_empty node)
    exact le_antisymm (List.subperm_of_subset h.nodup_visited h.visited_subset).length_le
      (List.subperm_of_subset hnodes hall).length_le

end Cycles

end TrueAlpha
