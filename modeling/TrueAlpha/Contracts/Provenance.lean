import Mathlib.Data.String.Basic
import TrueAlpha.Contracts.Common
import TrueAlpha.Lib.BreadthFirst
import TrueAlpha.Lib.Run
import TrueAlpha.Lib.TopologicalSort

/-!
# The provenance graph

`ProvenanceGraph` with its validator, which accepts exactly the closed graphs without a cycle (`validateClosedGraph_eq_ok_iff`),
and its traversals, which end with the nodes that a path leads to (`mem_forwardNodeIds_iff`).
-/

namespace TrueAlpha.Contracts

inductive ProvenanceNodeKind where
  | campaign
  | run
  | listObligation
  | sourceRequest
  | workItem
  | fetchAttempt
  | fetchAttemptResult
  | rawObject
  | sourceVintage
  | normalizedObservation
  | confidenceAssessment
  | snapshot
  | factorInput
  | martOutput
  deriving DecidableEq, Repr

inductive ProvenanceEdgeKind where
  | contains
  | requires
  | dispatches
  | satisfiedBy
  | attemptedBy
  | completes
  | observed
  | reuses
  | archivesAs
  | normalizedAs
  | reconcilesWith
  | supersedes
  | assessedBy
  | selectedInto
  | projects
  | materializes
  deriving DecidableEq, Repr

def ProvenanceEdgeKind.value : ProvenanceEdgeKind → String
  | .contains => "contains"
  | .requires => "requires"
  | .dispatches => "dispatches"
  | .satisfiedBy => "satisfied_by"
  | .attemptedBy => "attempted_by"
  | .completes => "completes"
  | .observed => "observed"
  | .reuses => "reuses"
  | .archivesAs => "archives_as"
  | .normalizedAs => "normalized_as"
  | .reconcilesWith => "reconciles_with"
  | .supersedes => "supersedes"
  | .assessedBy => "assessed_by"
  | .selectedInto => "selected_into"
  | .projects => "projects"
  | .materializes => "materializes"

structure ProvenanceNode where
  nodeId : String
  kind : ProvenanceNodeKind
  contentSha256 : Option String
  deriving DecidableEq, Repr

/-- `ProvenanceEdge`, which is no self-edge. -/
structure ProvenanceEdge where
  edgeId : String
  fromNodeId : String
  edgeType : ProvenanceEdgeKind
  toNodeId : String
  edgeOrdinal : ℕ
  proper : fromNodeId ≠ toNodeId
  deriving DecidableEq

def Leads (edges : List ProvenanceEdge) (a b : String) : Prop := ∃ edge ∈ edges, edge.fromNodeId = a ∧ edge.toNodeId = b

variable {edges edges' : List ProvenanceEdge}

theorem leads_iff_of_perm (h : edges.Perm edges') {a b : String} : Leads edges a b ↔ Leads edges' a b := by
  unfold Leads
  simp only [h.mem_iff]

structure Degrees where
  outgoing : String → List String
  indegree : String → ℕ

def Degrees.count (degrees : Degrees) (edge : ProvenanceEdge) : Degrees :=
  if edge.toNodeId ∉ degrees.outgoing edge.fromNodeId then
    { outgoing := Function.update degrees.outgoing edge.fromNodeId
        (degrees.outgoing edge.fromNodeId ++ [edge.toNodeId])
      indegree := Function.update degrees.indegree edge.toNodeId (degrees.indegree edge.toNodeId + 1) }
  else degrees

def degreesOf (edges : List ProvenanceEdge) : Degrees := edges.foldl Degrees.count ⟨fun _ => [], fun _ => 0⟩

structure Degrees.Counted (nodeIds : List String) (edges : List ProvenanceEdge) (degrees : Degrees) : Prop where
  nodup : ∀ a, (degrees.outgoing a).Nodup
  mem_iff : ∀ a b, b ∈ degrees.outgoing a ↔ Leads edges a b
  indegree_eq : ∀ b, degrees.indegree b = (unvisitedBefore degrees.outgoing nodeIds [] b).card

variable {outgoing : String → List String}

theorem mem_update_append {source target a b : String} : b ∈ Function.update outgoing source (outgoing source ++ [target]) a ↔
      b ∈ outgoing a ∨ source = a ∧ target = b := by
  by_cases ha : a = source
  · subst ha
    rw [Function.update_self, List.mem_append, List.mem_singleton]
    simp only [true_and, eq_comm]
  · rw [Function.update_of_ne ha]
    simp only [Ne.symm ha, false_and, or_false]

theorem unvisitedBefore_update_self {nodeIds : List String} {source target : String} (hsource : source ∈ nodeIds) :
    unvisitedBefore (Function.update outgoing source (outgoing source ++ [target])) nodeIds [] target =
      insert source (unvisitedBefore outgoing nodeIds [] target) := by
  ext before
  rw [mem_unvisitedBefore, Finset.mem_insert, mem_unvisitedBefore, mem_update_append]
  simp only [List.not_mem_nil, not_false_eq_true, and_true]
  constructor
  · rintro ⟨hin, hout | hsame⟩
    · exact Or.inr ⟨hin, hout⟩
    · exact Or.inl hsame.symm
  · rintro (rfl | ⟨hin, hout⟩)
    · exact ⟨hsource, Or.inr rfl⟩
    · exact ⟨hin, Or.inl hout⟩

theorem unvisitedBefore_update_of_ne {nodeIds : List String} {source target b : String} (hb : b ≠ target) :
    unvisitedBefore (Function.update outgoing source (outgoing source ++ [target])) nodeIds [] b =
      unvisitedBefore outgoing nodeIds [] b := by
  ext before
  rw [mem_unvisitedBefore, mem_unvisitedBefore, mem_update_append]
  simp only [Ne.symm hb, and_false, or_false]

variable {edges : List ProvenanceEdge}

theorem Degrees.Counted.count {nodeIds : List String} {degrees : Degrees}
    (h : degrees.Counted nodeIds edges) {edge : ProvenanceEdge} (hfrom : edge.fromNodeId ∈ nodeIds) :
    (degrees.count edge).Counted nodeIds (edges ++ [edge]) := by
  have hleads : ∀ a b, Leads (edges ++ [edge]) a b ↔ Leads edges a b ∨ edge.fromNodeId = a ∧ edge.toNodeId = b := by
    intro a b
    simp [Leads, or_and_right, exists_or]
  unfold Degrees.count
  by_cases hold : edge.toNodeId ∈ degrees.outgoing edge.fromNodeId
  · rw [if_neg (not_not.mpr hold)]
    refine ⟨h.nodup, fun a b => ?_, h.indegree_eq⟩
    rw [hleads, h.mem_iff]
    refine ⟨Or.inl, Or.rec id ?_⟩
    rintro ⟨rfl, rfl⟩
    exact (h.mem_iff _ _).mp hold
  · rw [if_pos hold]
    refine ⟨fun a => ?_, fun a b => ?_, fun b => ?_⟩ <;> dsimp only
    · by_cases ha : a = edge.fromNodeId
      · subst ha
        rw [Function.update_self]
        exact (h.nodup _).append (List.nodup_singleton _) (List.disjoint_singleton.mpr hold)
      · rw [Function.update_of_ne ha]
        exact h.nodup a
    · rw [mem_update_append, hleads, h.mem_iff]
    · by_cases hb : b = edge.toNodeId
      · have hnew : edge.fromNodeId ∉ unvisitedBefore degrees.outgoing nodeIds [] edge.toNodeId := by
          rw [mem_unvisitedBefore]
          exact fun hin => hold hin.2.1
        rw [hb, Function.update_self, unvisitedBefore_update_self hfrom, Finset.card_insert_of_notMem hnew, h.indegree_eq]
      · rw [Function.update_of_ne hb, unvisitedBefore_update_of_ne hb, h.indegree_eq]

theorem degreesOf_counted {nodeIds : List String}
    (hfrom : ∀ edge ∈ edges, edge.fromNodeId ∈ nodeIds) : (degreesOf edges).Counted nodeIds edges := by
  induction edges using List.reverseRecOn with
  | nil => exact ⟨fun _ => List.nodup_nil, by simp [degreesOf, Leads], by simp [degreesOf, unvisitedBefore]⟩
  | append_singleton edges edge ih =>
    have hbefore := ih fun other hother => hfrom other (List.mem_append_left _ hother)
    rw [degreesOf, List.foldl_append]
    exact hbefore.count (hfrom edge (by simp))

def NoCycle (edges : List ProvenanceEdge) : Prop := ∀ node, ¬ Relation.TransGen (Leads edges) node node

theorem noCycle_iff {next : String → List String}
    (hnext : ∀ a b, b ∈ next a ↔ Leads edges a b) : NoCycle edges ↔ Acyclic next := by
  have hsame : (fun a b => b ∈ next a) = Leads edges := by
    funext a b
    exact propext (hnext a b)
  rw [NoCycle, Acyclic, hsame]

theorem noCycle_of_rank (rank : String → ℕ)
    (hrank : ∀ edge ∈ edges, rank edge.fromNodeId < rank edge.toNodeId) : NoCycle edges := by
  let next : String → List String := fun a =>
    (edges.filter fun edge => edge.fromNodeId = a).map ProvenanceEdge.toNodeId
  have hnext : ∀ a b, b ∈ next a ↔ Leads edges a b := by
    intro a b
    simp [next, Leads, and_assoc]
  refine (noCycle_iff hnext).mpr (Acyclic.of_rank rank fun a b hleads => ?_)
  obtain ⟨edge, hedge, rfl, rfl⟩ := (hnext a b).mp hleads
  exact hrank edge hedge

theorem noCycle_iff_of_perm (h : edges.Perm edges') : NoCycle edges ↔ NoCycle edges' := by
  have hsame : Leads edges = Leads edges' := by
    funext a b
    exact propext (leads_iff_of_perm h)
  rw [NoCycle, NoCycle, hsame]

def Closed (nodeIds : List String) (edges : List ProvenanceEdge) : Prop :=
  ∀ edge ∈ edges, edge.fromNodeId ∈ nodeIds ∧ edge.toNodeId ∈ nodeIds

/-! ## The validator -/

def visitedNodes (nodeIds : List String) (edges : List ProvenanceEdge) : Option (List String) :=
  let degrees := degreesOf edges
  let queue := nodeIds.filter fun nodeId => degrees.indegree nodeId = 0
  peel (fun nodeId => sortedSet (degrees.outgoing nodeId)) nodeIds.length queue degrees.indegree []

theorem visitedNodes_spec {nodeIds : List String} (hnodes : nodeIds.Nodup) (hclosed : Closed nodeIds edges) :
    ∃ visited, visitedNodes nodeIds edges = some visited ∧ (visited.length = nodeIds.length ↔ NoCycle edges) := by
  have hcounted := degreesOf_counted fun edge hedge => (hclosed edge hedge).1
  let next := fun nodeId => sortedSet ((degreesOf edges).outgoing nodeId)
  have hleads : ∀ a b, b ∈ next a ↔ Leads edges a b := fun a b => mem_sortedSet.trans (hcounted.mem_iff a b)
  have hin : ∀ a b, b ∈ next a → a ∈ nodeIds ∧ b ∈ nodeIds := by
    intro a b hstep
    obtain ⟨edge, hedge, rfl, rfl⟩ := (hleads a b).mp hstep
    exact hclosed edge hedge
  have hnext : ∀ node, (next node).Nodup := fun node => (strictSorted_sortedSet _).imp ne_of_lt
  have hsub : ∀ node ∈ nodeIds, next node ⊆ nodeIds := fun node _ b hb => (hin node b hb).2
  have hdegree : ∀ node, (degreesOf edges).indegree node = (unvisitedBefore next nodeIds [] node).card := by
    intro node
    rw [hcounted.indegree_eq]
    congr 1
    ext before
    rw [mem_unvisitedBefore, mem_unvisitedBefore, mem_sortedSet]
  have hbegin := Peeling.begin hnodes hdegree
  have hfuel : nodeIds.length ≤ nodeIds.length + ([] : List String).length := by simp
  obtain ⟨visited, hvisited⟩ := hbegin.exists_peel hnext hsub hfuel
  obtain ⟨degree, hend⟩ := hbegin.peel_eq_some hnext hsub hvisited
  exact ⟨visited, hvisited, (hend.length_eq_iff hin hnodes).trans (noCycle_iff hleads).symm⟩

/-- `ProvenanceGraph.validate_closed_graph`: the sorted nodes and edges. -/
def validateClosedGraph (nodes : List ProvenanceNode) (edges : List ProvenanceEdge) :
    Except String (List ProvenanceNode × List ProvenanceEdge) :=
  let nodes := sortedBy ProvenanceNode.nodeId nodes
  let nodeIds := nodes.map ProvenanceNode.nodeId
  let edges := sortedBy ProvenanceEdge.edgeId edges
  if ¬ nodeIds.Nodup then .error "provenance nodes must be unique"
  else if ¬ (edges.map ProvenanceEdge.edgeId).Nodup then .error "provenance edges must be unique"
  else if edges.any fun edge => edge.fromNodeId ∉ nodeIds ∨ edge.toNodeId ∉ nodeIds then
    .error "every provenance edge must reference bundled nodes"
  else
    match visitedNodes nodeIds edges with
    | none => .error "the visit does not end"
    | some visited =>
      if visited.length ≠ nodeIds.length then .error "provenance graph must be acyclic" else .ok (nodes, edges)

variable {nodes : List ProvenanceNode}

theorem validateClosedGraph_eq_ok_iff
    {result : List ProvenanceNode × List ProvenanceEdge} :
    validateClosedGraph nodes edges = .ok result ↔
      ((nodes.map ProvenanceNode.nodeId).Nodup ∧ (edges.map ProvenanceEdge.edgeId).Nodup ∧
        Closed (nodes.map ProvenanceNode.nodeId) edges ∧ NoCycle edges) ∧
      result = (sortedBy ProvenanceNode.nodeId nodes, sortedBy ProvenanceEdge.edgeId edges) := by
  have hnodes := (perm_sortedBy ProvenanceNode.nodeId nodes).map ProvenanceNode.nodeId
  have hedges := perm_sortedBy ProvenanceEdge.edgeId edges
  have hclosed : Closed (nodes.map ProvenanceNode.nodeId) edges ↔
      Closed ((sortedBy ProvenanceNode.nodeId nodes).map ProvenanceNode.nodeId)
        (sortedBy ProvenanceEdge.edgeId edges) := by
    unfold Closed
    simp only [hedges.mem_iff, hnodes.mem_iff]
  rw [hclosed, ← noCycle_iff_of_perm hedges, ← hnodes.nodup_iff,
    ← (hedges.map ProvenanceEdge.edgeId).nodup_iff, validateClosedGraph]
  by_cases hnodup : ((sortedBy ProvenanceNode.nodeId nodes).map ProvenanceNode.nodeId).Nodup
  swap
  · simp [hnodup]
  rw [if_neg (not_not.mpr hnodup)]
  by_cases hunique : ((sortedBy ProvenanceEdge.edgeId edges).map ProvenanceEdge.edgeId).Nodup
  swap
  · simp [hunique]
  rw [if_neg (not_not.mpr hunique)]
  by_cases hin : Closed ((sortedBy ProvenanceNode.nodeId nodes).map ProvenanceNode.nodeId)
      (sortedBy ProvenanceEdge.edgeId edges)
  swap
  · rw [if_pos]
    · simp [hin]
    · simpa [Closed, imp_iff_not_or] using hin
  rw [if_neg (by simpa [Closed, imp_iff_not_or] using hin)]
  obtain ⟨visited, hvisited, hlength⟩ := visitedNodes_spec hnodup hin
  rw [hvisited]
  dsimp only
  by_cases hall : visited.length = ((sortedBy ProvenanceNode.nodeId nodes).map ProvenanceNode.nodeId).length
  · rw [if_neg (not_not.mpr hall)]
    simp [hnodup, hunique, hin, hlength.mp hall, eq_comm]
  · rw [if_pos hall]
    simp [mt hlength.mpr hall]

structure ProvenanceGraph where
  schemaVersion : String
  nodes : List ProvenanceNode
  edges : List ProvenanceEdge
  nodes_nonempty : nodes ≠ []
  nodes_sorted : nodes.Pairwise fun a b => a.nodeId < b.nodeId
  edges_sorted : edges.Pairwise fun a b => a.edgeId < b.edgeId
  closed : Closed (nodes.map ProvenanceNode.nodeId) edges
  noCycle : NoCycle edges

def ProvenanceGraph.build (schemaVersion : String) (nodes : List ProvenanceNode) (edges : List ProvenanceEdge) :
    Except String ProvenanceGraph :=
  if isMutableVersion schemaVersion then .error "schema_version must name an immutable version"
  else if hnodes : nodes = [] then .error "nodes: Tuple should have at least 1 item"
  else
    match h : validateClosedGraph nodes edges with
    | .error reason => .error reason
    | .ok _ =>
      have hvalid := (validateClosedGraph_eq_ok_iff.mp h).1
      have hnodePerm := perm_sortedBy ProvenanceNode.nodeId nodes
      have hedgePerm := perm_sortedBy ProvenanceEdge.edgeId edges
      .ok {
        schemaVersion
        nodes := sortedBy ProvenanceNode.nodeId nodes
        edges := sortedBy ProvenanceEdge.edgeId edges
        nodes_nonempty := fun hnil => hnodes (by rw [hnil] at hnodePerm; exact hnodePerm.symm.eq_nil)
        nodes_sorted := strictSorted_sortedBy _ hvalid.1
        edges_sorted := strictSorted_sortedBy _ hvalid.2.1
        closed := fun edge hedge =>
          (hvalid.2.2.1 edge (hedgePerm.mem_iff.mp hedge)).imp (hnodePerm.map _).mem_iff.mpr
            (hnodePerm.map _).mem_iff.mpr
        noCycle := (noCycle_iff_of_perm hedgePerm).mpr hvalid.2.2.2 }

variable {start : String} {schemaVersion : String}

namespace ProvenanceGraph

variable (graph : ProvenanceGraph)

def nodeIds : List String := graph.nodes.map ProvenanceNode.nodeId

def adjacency (reverse : Bool) (node : String) : List String :=
  let ends := graph.edges.map fun edge =>
    if reverse then (edge.toNodeId, edge.fromNodeId) else (edge.fromNodeId, edge.toNodeId)
  sortedSet ((ends.filter fun pair => pair.1 = node).map Prod.snd)

def reachable (start : String) (reverse : Bool) : Except String (List String) :=
  if start ∉ graph.nodeIds then .error "trace start node is missing"
  else
    match search (graph.adjacency reverse) (graph.nodes.length + 1) [start] [] with
    | none => .error "the traversal does not end"
    | some reached => .ok (sortedBy id reached)

def forwardNodeIds (start : String) : Except String (List String) := graph.reachable start false

def reverseNodeIds (start : String) : Except String (List String) := graph.reachable start true

variable {graph}

theorem mem_adjacency {reverse : Bool} {a b : String} :
    b ∈ graph.adjacency reverse a ↔ if reverse then Leads graph.edges b a else Leads graph.edges a b := by
  rw [adjacency, mem_sortedSet]
  cases reverse <;> simp [Leads, and_comm]

theorem adjacency_subset {reverse : Bool} (a : String) : graph.adjacency reverse a ⊆ graph.nodeIds := by
  intro b hb
  have hleads := mem_adjacency.mp hb
  cases reverse with
  | false =>
    obtain ⟨edge, hedge, -, rfl⟩ := hleads
    exact (graph.closed edge hedge).2
  | true =>
    obtain ⟨edge, hedge, rfl, -⟩ := hleads
    exact (graph.closed edge hedge).1

theorem reachable_eq_ok (reverse : Bool) (hstart : start ∈ graph.nodeIds) : ∃ ids, graph.reachable start reverse = .ok ids ∧
      ∀ node, node ∈ ids ↔ Relation.TransGen (fun a b => b ∈ graph.adjacency reverse a) start node := by
  have hends : ∃ reached, search (graph.adjacency reverse) (graph.nodes.length + 1) [start] [] = some reached := by
    refine exists_search graph.nodeIds List.nodup_nil (List.nil_subset _) (by simpa using hstart)
      (fun node _ => adjacency_subset node) ?_
    simp [nodeIds]
  obtain ⟨reached, hreached⟩ := hends
  refine ⟨sortedBy id reached, ?_, fun node => ?_⟩
  · rw [reachable, if_neg (not_not.mpr hstart), hreached]
  · rw [mem_sortedBy]
    exact mem_search_iff Searching.begin hreached

theorem mem_forwardNodeIds_iff (hstart : start ∈ graph.nodeIds) : ∃ ids, graph.forwardNodeIds start = .ok ids ∧
      ∀ node, node ∈ ids ↔ Relation.TransGen (Leads graph.edges) start node := by
  obtain ⟨ids, hids, hmem⟩ := reachable_eq_ok false hstart
  refine ⟨ids, hids, fun node => ?_⟩
  rw [hmem]
  simp only [mem_adjacency, Bool.false_eq_true, if_false]

theorem mem_reverseNodeIds_iff (hstart : start ∈ graph.nodeIds) : ∃ ids, graph.reverseNodeIds start = .ok ids ∧
      ∀ node, node ∈ ids ↔ Relation.TransGen (Leads graph.edges) node start := by
  obtain ⟨ids, hids, hmem⟩ := reachable_eq_ok true hstart
  refine ⟨ids, hids, fun node => ?_⟩
  rw [hmem, ← Relation.transGen_swap]
  simp only [mem_adjacency, if_true]

theorem build_eq_ok_iff (hversion : ¬ isMutableVersion schemaVersion) : (∃ graph, build schemaVersion nodes edges = .ok graph) ↔
      nodes ≠ [] ∧ (nodes.map ProvenanceNode.nodeId).Nodup ∧ (edges.map ProvenanceEdge.edgeId).Nodup ∧
        Closed (nodes.map ProvenanceNode.nodeId) edges ∧ NoCycle edges := by
  rw [build, if_neg hversion]
  by_cases hnodes : nodes = []
  · simp [hnodes]
  rw [dif_neg hnodes]
  split
  · rename_i reason hrejected
    refine iff_of_false (by simp) fun hvalid => ?_
    rw [validateClosedGraph_eq_ok_iff.mpr ⟨hvalid.2, rfl⟩] at hrejected
    cases hrejected
  · rename_i result haccepted
    exact iff_of_true ⟨_, rfl⟩ ⟨hnodes, (validateClosedGraph_eq_ok_iff.mp haccepted).1⟩

theorem eq_of_build (h : build schemaVersion nodes edges = .ok graph) :
    graph.nodes = sortedBy ProvenanceNode.nodeId nodes ∧ graph.edges = sortedBy ProvenanceEdge.edgeId edges := by
  unfold build at h
  split_ifs at h
  split at h
  · cases h
  · cases h
    exact ⟨rfl, rfl⟩

/-- Of non-empty lists of nodes with unique ids, exactly the closed graphs without a cycle are accepted.  The traversals end,
follow the paths and are transposes. -/
theorem accepts_iff_and_transposes {schemaVersion : String} {nodes : List ProvenanceNode} {edges : List ProvenanceEdge}
    (hversion : ¬ isMutableVersion schemaVersion) (hnonempty : nodes ≠ [])
    (hnodes : (nodes.map ProvenanceNode.nodeId).Nodup) (hedges : (edges.map ProvenanceEdge.edgeId).Nodup) :
    ((∃ graph, build schemaVersion nodes edges = .ok graph) ↔ Closed (nodes.map ProvenanceNode.nodeId) edges ∧ NoCycle edges) ∧
    ∀ graph, build schemaVersion nodes edges = .ok graph →
      ∀ x ∈ nodes.map ProvenanceNode.nodeId, ∀ y ∈ nodes.map ProvenanceNode.nodeId, ∃ forward reverse,
        graph.forwardNodeIds x = .ok forward ∧ graph.reverseNodeIds y = .ok reverse ∧
        (y ∈ forward ↔ Relation.TransGen (Leads edges) x y) ∧ (x ∈ reverse ↔ Relation.TransGen (Leads edges) x y) ∧
        x ∉ forward ∧ y ∉ reverse := by
  refine ⟨?_, fun graph hgraph x hx y hy => ?_⟩
  · rw [build_eq_ok_iff hversion]
    exact ⟨fun h => h.2.2.2, fun h => ⟨hnonempty, hnodes, hedges, h⟩⟩
  · obtain ⟨hnodesEq, hedgesEq⟩ := eq_of_build hgraph
    have hleads : Leads graph.edges = Leads edges := by
      funext a b
      rw [hedgesEq]
      exact propext (leads_iff_of_perm (perm_sortedBy _ edges))
    have hin : ∀ node, node ∈ nodes.map ProvenanceNode.nodeId → node ∈ graph.nodeIds := by
      intro node hnode
      rw [nodeIds, hnodesEq]
      exact ((perm_sortedBy _ nodes).map _).mem_iff.mpr hnode
    obtain ⟨forward, hforward, hmem⟩ := mem_forwardNodeIds_iff (hin x hx)
    obtain ⟨reverse, hreverse, hmem'⟩ := mem_reverseNodeIds_iff (hin y hy)
    rw [hleads] at hmem hmem'
    refine ⟨forward, reverse, hforward, hreverse, hmem y, hmem' x, ?_, ?_⟩
    · rw [hmem, ← hleads]
      exact graph.noCycle x
    · rw [hmem', ← hleads]
      exact graph.noCycle y

def runAndRequest : List ProvenanceNode := [⟨"run", .run, none⟩, ⟨"request", .sourceRequest, none⟩]

def parallelEdges : List ProvenanceEdge :=
  [⟨"provenance-edge:0", "run", .contains, "request", 0, by decide⟩,
    ⟨"provenance-edge:1", "run", .requires, "request", 1, by decide⟩]

/-- Two nodes with parallel edges; each traversal finds the other node. -/
theorem accepts_parallel_edges : (∃ graph, build "provenance-schema:v2" runAndRequest parallelEdges = .ok graph) ∧
    ∀ graph, build "provenance-schema:v2" runAndRequest parallelEdges = .ok graph →
      ∃ forward reverse, graph.forwardNodeIds "run" = .ok forward ∧ graph.reverseNodeIds "request" = .ok reverse ∧
        "request" ∈ forward ∧ "run" ∈ reverse ∧ "run" ∉ forward := by
  have hversion : ¬ isMutableVersion "provenance-schema:v2" := by decide +kernel
  have hnodes : (runAndRequest.map ProvenanceNode.nodeId).Nodup := by decide
  have hedges : (parallelEdges.map ProvenanceEdge.edgeId).Nodup := by decide
  have h := accepts_iff_and_transposes hversion (by decide) hnodes hedges
  have hclosed : Closed (runAndRequest.map ProvenanceNode.nodeId) parallelEdges := by
    simp [Closed, parallelEdges, runAndRequest]
  have hrank : NoCycle parallelEdges :=
    noCycle_of_rank (fun node => if node = "request" then 1 else 0) (by simp [parallelEdges])
  have hpath : Relation.TransGen (Leads parallelEdges) "run" "request" := .single (by simp [Leads, parallelEdges])
  refine ⟨h.1.mpr ⟨hclosed, hrank⟩, fun graph hgraph => ?_⟩
  obtain ⟨forward, reverse, hforward, hreverse, hto, hfrom, hself, -⟩ :=
    h.2 graph hgraph "run" (by decide) "request" (by decide)
  exact ⟨forward, reverse, hforward, hreverse, hto.mpr hpath, hfrom.mpr hpath, hself⟩

/-- Without nodes there is no graph, though nothing is open and there is no cycle. -/
theorem not_accepts_empty : ¬ ∀ (schemaVersion : String) (nodes : List ProvenanceNode) (edges : List ProvenanceEdge),
    ¬ isMutableVersion schemaVersion → (nodes.map ProvenanceNode.nodeId).Nodup →
    (edges.map ProvenanceEdge.edgeId).Nodup →
    ((∃ graph, build schemaVersion nodes edges = .ok graph) ↔
      Closed (nodes.map ProvenanceNode.nodeId) edges ∧ NoCycle edges) := by
  intro h
  have hversion : ¬ isMutableVersion "provenance-schema:v2" := by decide +kernel
  have hempty := h "provenance-schema:v2" [] [] hversion List.nodup_nil List.nodup_nil
  rw [build_eq_ok_iff hversion] at hempty
  have hclosed : Closed [] [] := fun edge hedge => absurd hedge List.not_mem_nil
  exact (hempty.mpr ⟨hclosed, noCycle_of_rank (fun _ => 0) (by simp)⟩).1 rfl

end ProvenanceGraph

end TrueAlpha.Contracts
