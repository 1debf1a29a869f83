import TrueAlpha.Forest.Model

/-!
# What a validated forest is

The checks of `Forest._structure` as facts: one node of each key, one decomposition of each derived node, and a finite unfolding
of every root (`Grounded`), of a height below the number of decompositions.
-/

namespace TrueAlpha

theorem check_eq_ok_iff {holds : Bool} {error : StructureError} {u : Unit} : check holds error = .ok u ↔ holds = true := by
  cases holds with
  | true => simp [check]
  | false => simp [check]

namespace Forest

variable {forest : Forest} {key : String} {node : MetricNode}

theorem node_eq_ok_iff : forest.node key = .ok node ↔ forest.nodes.find? (fun node => node.key = key) = some node := by
  unfold Forest.node
  cases forest.nodes.find? fun node => node.key = key with
  | none => simp
  | some found => simp

theorem key_of_node (h : forest.node key = .ok node) : node.key = key := by
  simpa using List.find?_some (node_eq_ok_iff.mp h)

theorem node_functional {node' : MetricNode} (h : forest.node key = .ok node) (h' : forest.node key = .ok node') :
    node = node' := by
  rw [h] at h'
  exact Except.ok.inj h'

end Forest

namespace MetricTree

variable {tree : MetricTree} {key : String} {decomposition : Decomposition}

theorem mem_of_decompositionOf (h : tree.decompositionOf key = some decomposition) :
    decomposition ∈ tree.decompositions := List.mem_of_find?_eq_some h

theorem output_of_decompositionOf (h : tree.decompositionOf key = some decomposition) : decomposition.output = key := by
  simpa using List.find?_some h

end MetricTree

variable {a b : Decomposition}

theorem Decomposition.same_iff :
    a.same b = true ↔ a.output = b.output ∧ a.formulaId = b.formulaId ∧ ∀ cls, a.operands cls = b.operands cls := by
  unfold Decomposition.same
  rw [decide_eq_true_iff]
  refine and_congr_right fun _ => and_congr_right fun _ => ⟨fun h cls => h cls ?_, fun h cls _ => h cls⟩
  cases cls <;> decide

theorem Decomposition.same_iff_eq : a.same b = true ↔ a = b := by
  rw [Decomposition.same_iff]
  constructor
  · intro ⟨houtput, hformula, hoperands⟩
    cases a
    cases b
    obtain rfl := houtput
    obtain rfl := hformula
    obtain rfl := funext hoperands
    rfl
  · intro h
    rw [h]
    exact ⟨rfl, rfl, fun _ => rfl⟩

/-- The unfolding of a key ends at registered leaves that satisfy `P`, on paths no longer than a bound. -/
inductive Grounded (forest : Forest) (tree : MetricTree) (cls : IssuerClass) (P : String → MetricNode → Prop) :
    ℕ → String → Prop
  | leaf {bound : ℕ} {key : String} {node : MetricNode} (undecomposed : tree.decompositionOf key = none)
      (registered : forest.node key = .ok node) (holds : P key node) : Grounded forest tree cls P (bound + 1) key
  | derived {bound : ℕ} {key : String} {decomposition : Decomposition} {operands : List String}
      (decomposed : tree.decompositionOf key = some decomposition)
      (bound_for : decomposition.operands cls = some operands)
      (under : ∀ operand ∈ operands, Grounded forest tree cls P bound operand) :
      Grounded forest tree cls P (bound + 1) key

variable {decomposition : Decomposition}

namespace Grounded

variable {forest : Forest} {tree : MetricTree} {cls : IssuerClass} {P Q : String → MetricNode → Prop}
  {bound bound' : ℕ} {key : String}

section

variable (h : Grounded forest tree cls P bound key)

include h

theorem mono (hle : bound ≤ bound') : Grounded forest tree cls P bound' key := by
  induction h generalizing bound' with
  | leaf undecomposed registered holds =>
    obtain ⟨bound', rfl⟩ := Nat.exists_eq_add_of_le' hle
    exact .leaf undecomposed registered holds
  | @derived bound _ _ _ decomposed bound_for _ ih =>
    obtain ⟨extra, rfl⟩ := Nat.exists_eq_add_of_le' hle
    exact .derived decomposed bound_for fun operand hmem =>
      ih operand hmem (Nat.le_add_left bound extra)

theorem imp
    (hPQ : ∀ key node, tree.decompositionOf key = none → forest.node key = .ok node → P key node → Q key node) :
    Grounded forest tree cls Q bound key := by
  induction h with
  | leaf undecomposed registered holds =>
    exact .leaf undecomposed registered (hPQ _ _ undecomposed registered holds)
  | derived decomposed bound_for _ ih => exact .derived decomposed bound_for ih

theorem leaf_holds (hkey : tree.decompositionOf key = none) : ∃ node, forest.node key = .ok node ∧ P key node := by
  cases h with
  | leaf _ registered holds => exact ⟨_, registered, holds⟩
  | derived decomposed _ _ =>
    rw [hkey] at decomposed
    cases decomposed

end

theorem operand {operands : List String} {operand : String}
    (h : Grounded forest tree cls P (bound + 1) key) (hkey : tree.decompositionOf key = some decomposition)
    (hoperands : decomposition.operands cls = some operands) (hoperand : operand ∈ operands) :
    Grounded forest tree cls P bound operand := by
  cases h with
  | leaf undecomposed _ _ =>
    rw [hkey] at undecomposed
    cases undecomposed
  | derived decomposed bound_for under =>
    rw [hkey] at decomposed
    cases decomposed
    rw [hoperands] at bound_for
    cases bound_for
    exact under operand hoperand

end Grounded

/-- What `_validate_tree` establishes. -/
structure TreeChecked (tree : MetricTree) (nodes : List MetricNode) : Prop where
  root : ∃ decomposition, tree.decompositionOf tree.root = some decomposition ∧
    ∀ cls, (decomposition.operands cls).isSome ↔ cls ∈ tree.applicability
  realized : ∃ node ∈ nodes, node.key = tree.realizes
  operands : ∀ decomposition ∈ tree.decompositions, validateDecompositionOperands tree nodes decomposition = .ok ()
  visited : ∀ cls ∈ tree.applicability, ∃ reached reached',
    visitClass tree cls (tree.depth + 1) [] reached tree.root = .ok reached'

section

variable {tree : MetricTree} {nodes : List MetricNode}

theorem treeChecked_of_validateTree (h : validateTree tree nodes = .ok ()) : TreeChecked tree nodes := by
  unfold validateTree at h
  obtain ⟨_, hconcept, h⟩ := bind_eq_ok_iff.mp h
  obtain ⟨_, -, h⟩ := bind_eq_ok_iff.mp h
  obtain ⟨_, -, h⟩ := bind_eq_ok_iff.mp h
  cases hroot : tree.decompositionOf tree.root with
  | none =>
    rw [hroot] at h
    cases h
  | some root =>
    rw [hroot] at h
    obtain ⟨_, hclasses, h⟩ := bind_eq_ok_iff.mp h
    obtain ⟨_, hoperands, h⟩ := bind_eq_ok_iff.mp h
    obtain ⟨reached, hvisited, -⟩ := bind_eq_ok_iff.mp h
    have hclasses : ∀ cls ∈ IssuerClass.all, (root.operands cls).isSome ↔ cls ∈ tree.applicability := by
      simpa using check_eq_ok_iff.mp hclasses
    have hconcept : ∃ node ∈ nodes, node.key = tree.realizes ∧ node.kind = .concept := by
      simpa using check_eq_ok_iff.mp hconcept
    refine ⟨⟨root, hroot, fun cls => hclasses cls ?_⟩, ?_, forM_eq_ok_iff.mp hoperands, fun cls hcls => ?_⟩
    · cases cls <;> decide
    · obtain ⟨node, hmem, hkey, -⟩ := hconcept
      exact ⟨node, hmem, hkey⟩
    · exact step_of_foldlM hvisited hcls

variable {decomposition : Decomposition} {cls : IssuerClass} {operands : List String} {operand : String}

theorem TreeChecked.output_derived (h : TreeChecked tree nodes) (hmem : decomposition ∈ tree.decompositions) :
    ∃ node, nodes.find? (fun node => node.key = decomposition.output) = some node ∧ node.kind = .derived := by
  have hvalid := h.operands decomposition hmem
  unfold validateDecompositionOperands at hvalid
  cases houtput : nodes.find? fun node => node.key = decomposition.output with
  | none => simp [houtput] at hvalid
  | some output =>
    simp only [houtput] at hvalid
    obtain ⟨_, hkind, -⟩ := bind_eq_ok_iff.mp hvalid
    exact ⟨output, rfl, by simpa using check_eq_ok_iff.mp hkind⟩

theorem TreeChecked.operand_valued (h : TreeChecked tree nodes) (hmem : decomposition ∈ tree.decompositions)
    (hoperands : decomposition.operands cls = some operands) (hoperand : operand ∈ operands) :
    ∃ node, nodes.find? (fun node => node.key = operand) = some node ∧ node.kind ≠ .concept ∧
      (node.kind = .derived → (tree.decompositionOf operand).isSome) := by
  have hvalid := h.operands decomposition hmem
  unfold validateDecompositionOperands at hvalid
  cases houtput : nodes.find? fun node => node.key = decomposition.output with
  | none => simp [houtput] at hvalid
  | some output =>
    simp only [houtput] at hvalid
    obtain ⟨_, -, hvalid⟩ := bind_eq_ok_iff.mp hvalid
    obtain ⟨_, -, hvalid⟩ := bind_eq_ok_iff.mp hvalid
    have hclass := forM_eq_ok_iff.mp hvalid cls (by cases cls <;> decide)
    rw [hoperands] at hclass
    have hone := forM_eq_ok_iff.mp hclass operand hoperand
    unfold validateOperand at hone
    cases hnode : nodes.find? fun node => node.key = operand with
    | none => simp [hnode] at hone
    | some node =>
      simp only [hnode] at hone
      obtain ⟨_, hconcept, hone⟩ := bind_eq_ok_iff.mp hone
      obtain ⟨_, -, hderived⟩ := bind_eq_ok_iff.mp hone
      refine ⟨node, rfl, by simpa using check_eq_ok_iff.mp hconcept, fun hkind => ?_⟩
      simpa [hkind] using check_eq_ok_iff.mp hderived

end

/-! ## The checks of a forest -/

namespace Forest

variable (forest : Forest) {tree tree' : MetricTree}

theorem treeChecked (htree : tree ∈ forest.trees) : TreeChecked tree forest.nodes := by
  have h := forest.validated
  unfold validateStructure at h
  obtain ⟨_, -, h⟩ := bind_eq_ok_iff.mp h
  obtain ⟨_, -, h⟩ := bind_eq_ok_iff.mp h
  obtain ⟨seen, hseen, -⟩ := bind_eq_ok_iff.mp h
  obtain ⟨_, _, hstep⟩ := step_of_foldlM hseen htree
  obtain ⟨_, hvalid, -⟩ := bind_eq_ok_iff.mp hstep
  exact treeChecked_of_validateTree hvalid

def Held (seen : List Decomposition) (decomposition : Decomposition) : Prop :=
  seen.find? (fun prior => prior.output = decomposition.output) = some decomposition

theorem held_append {seen more : List Decomposition} (h : Held seen decomposition) : Held (seen ++ more) decomposition := by
  rw [Held, List.find?_append, h, Option.some_or]

theorem decomposition_unique (htree : tree ∈ forest.trees) (htree' : tree' ∈ forest.trees)
    (ha : a ∈ tree.decompositions) (hb : b ∈ tree'.decompositions) (houtput : a.output = b.output) : a = b := by
  have h := forest.validated
  unfold validateStructure at h
  obtain ⟨_, -, h⟩ := bind_eq_ok_iff.mp h
  obtain ⟨_, -, h⟩ := bind_eq_ok_iff.mp h
  obtain ⟨seen, hseen, -⟩ := bind_eq_ok_iff.mp h
  -- the invariant: the decompositions of the trees so far are held
  have hall : ∀ t ∈ forest.trees, ∀ d ∈ t.decompositions, Held seen d := by
    refine foldlM_inv (fun pre seen => ∀ t ∈ pre, ∀ d ∈ t.decompositions, Held seen d) hseen (by simp) ?_
    intro pre t post before after _ ih hstep
    obtain ⟨_, -, hstep⟩ := bind_eq_ok_iff.mp hstep
    have hinner := foldlM_inv (fun done seen => (∀ d, Held before d → Held seen d) ∧ ∀ d ∈ done, Held seen d)
      hstep ⟨fun _ hd => hd, by simp⟩ ?_
    · intro t' ht' d hd
      obtain ht' | ht' := List.mem_append.mp ht'
      · exact hinner.1 d (ih t' ht' d hd)
      · obtain rfl := List.mem_singleton.mp ht'
        exact hinner.2 d hd
    · intro done d rest seen seen' _ ⟨hbefore, hdone⟩ hone
      have hkeep : (∀ d, Held seen d → Held seen' d) ∧ Held seen' d := by
        cases hfind : seen.find? fun prior => prior.output = d.output with
        | none =>
          simp only [hfind, Except.ok.injEq] at hone
          subst hone
          refine ⟨fun _ => held_append, ?_⟩
          rw [Held, List.find?_append, hfind]
          simp
        | some prior =>
          simp only [hfind] at hone
          obtain ⟨_, hsame, hone⟩ := bind_eq_ok_iff.mp hone
          obtain rfl := pure_eq_ok_iff.mp hone
          obtain rfl := Decomposition.same_iff_eq.mp (check_eq_ok_iff.mp hsame)
          exact ⟨fun _ hd => hd, hfind⟩
      refine ⟨fun d' hd' => hkeep.1 d' (hbefore d' hd'), fun d' hd' => ?_⟩
      obtain hd' | hd' := List.mem_append.mp hd'
      · exact hkeep.1 d' (hdone d' hd')
      · obtain rfl := List.mem_singleton.mp hd'
        exact hkeep.2
  have hfa : Held seen a := hall tree htree a ha
  have hfb : Held seen b := hall tree' htree' b hb
  rw [Held, houtput] at hfa
  exact Option.some.inj (hfa.symm.trans hfb)

theorem operand_registered (htree : tree ∈ forest.trees) {cls : IssuerClass}
    {operands : List String} {operand : String} (hmem : decomposition ∈ tree.decompositions)
    (hoperands : decomposition.operands cls = some operands) (hoperand : operand ∈ operands) :
    ∃ node, forest.node operand = .ok node ∧
      (tree.decompositionOf operand = none → node.kind = .input ∨ node.kind = .parameter) := by
  obtain ⟨node, hfind, hconcept, hderived⟩ := (forest.treeChecked htree).operand_valued hmem hoperands hoperand
  refine ⟨node, node_eq_ok_iff.mpr hfind, fun hnone => ?_⟩
  cases hkind : node.kind with
  | input => exact .inl rfl
  | parameter => exact .inr rfl
  | derived => simp [hnone] at hderived; exact absurd hkind hderived
  | concept => exact absurd hkind hconcept

theorem decomposed_derived (htree : tree ∈ forest.trees) {key : String} (hkey : tree.decompositionOf key = some decomposition) :
    ∃ node, forest.node key = .ok node ∧ node.kind = .derived := by
  obtain ⟨node, hfind, hkind⟩ := (forest.treeChecked htree).output_derived (MetricTree.mem_of_decompositionOf hkey)
  rw [MetricTree.output_of_decompositionOf hkey] at hfind
  exact ⟨node, node_eq_ok_iff.mpr hfind, hkind⟩

end Forest

def Captured (_ : String) (node : MetricNode) : Prop := node.kind = .input ∨ node.kind = .parameter

section

variable {forest : Forest} {tree : MetricTree} {cls : IssuerClass}

theorem length_path_le {path : List String} (hnodup : path.Nodup)
    (hpath : ∀ key ∈ path, (tree.decompositionOf key).isSome) : path.length ≤ tree.decompositions.length := by
  have hsub : path ⊆ tree.decompositions.map Decomposition.output := by
    intro key hkey
    obtain ⟨decomposition, hdecomposition⟩ := Option.isSome_iff_exists.mp (hpath key hkey)
    rw [← MetricTree.output_of_decompositionOf hdecomposition]
    exact List.mem_map_of_mem (MetricTree.mem_of_decompositionOf hdecomposition)
  simpa using (hnodup.subperm hsub).length_le

theorem grounded_of_visitClass (htree : tree ∈ forest.trees) {fuel : ℕ} {path reached reached' : List String}
    {key : String} (h : visitClass tree cls fuel path reached key = .ok reached') (hnodup : path.Nodup)
    (hpath : ∀ key ∈ path, (tree.decompositionOf key).isSome)
    (hkey : tree.decompositionOf key = none → ∃ node, forest.node key = .ok node ∧ Captured key node) :
    Grounded forest tree cls Captured (tree.depth - path.length) key := by
  induction fuel generalizing path reached reached' key with
  | zero => cases h
  | succ fuel ih =>
    unfold visitClass at h
    split_ifs at h with hmem
    have hlength := length_path_le hnodup hpath
    cases hdecomposition : tree.decompositionOf key with
    | none =>
      obtain ⟨node, hnode, hcaptured⟩ := hkey hdecomposition
      have hdepth : tree.depth - path.length = tree.decompositions.length - path.length + 1 := by
        unfold MetricTree.depth
        omega
      rw [hdepth]
      exact .leaf hdecomposition hnode hcaptured
    | some decomposition =>
      rw [hdecomposition] at h
      have hpath' : ∀ k ∈ path ++ [key], (tree.decompositionOf k).isSome := by
        simpa [or_imp, forall_and, hdecomposition] using hpath
      have hnodup' : (path ++ [key]).Nodup := by
        simpa [List.nodup_append] using ⟨hnodup, fun k hk heq => hmem (heq ▸ hk)⟩
      have hlength' := length_path_le hnodup' hpath'
      rw [List.length_append, List.length_singleton] at hlength'
      cases hoperands : decomposition.operands cls with
      | none => simp [hoperands] at h
      | some operands =>
        simp only [hoperands] at h
        have hdepth : tree.depth - path.length = tree.depth - (path ++ [key]).length + 1 := by
          rw [List.length_append, List.length_singleton]
          unfold MetricTree.depth
          omega
        rw [hdepth]
        refine .derived hdecomposition hoperands fun operand hoperand => ?_
        obtain ⟨_, _, hvisit⟩ := step_of_foldlM h hoperand
        obtain ⟨node, hnode, hcaptured⟩ := forest.operand_registered htree
          (MetricTree.mem_of_decompositionOf hdecomposition) hoperands hoperand
        exact ih hvisit hnodup' hpath' fun hnone => ⟨node, hnode, hcaptured hnone⟩

theorem grounded_root (htree : tree ∈ forest.trees) (hcls : cls ∈ tree.applicability) :
    Grounded forest tree cls Captured tree.depth tree.root := by
  have hchecked := forest.treeChecked htree
  obtain ⟨_, _, hvisited⟩ := hchecked.visited cls hcls
  obtain ⟨root, hroot, -⟩ := hchecked.root
  refine grounded_of_visitClass htree hvisited List.nodup_nil (by simp) fun hnone => ?_
  rw [hroot] at hnone
  cases hnone

end

end TrueAlpha
