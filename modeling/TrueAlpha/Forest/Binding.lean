import TrueAlpha.Forest.Registry

/-!
# The tree that a definition pins

`factors.forest.binding`: a strategy definition names one registered tree for each issuer class, by key,
version and content hash.  The content hash is a parameter.
-/

namespace TrueAlpha

def definitionPins (definition : StrategyDefinition) : Except ForestError (Dict String LaborEfficiencyTreePin) :=
  match definition.laborEfficiencyTreeKeys with
  | some pins => .ok pins
  | none => .error (.noPins definition.definitionVersion)

def effectivePins (definition : StrategyDefinition) (pins : Option (Dict String LaborEfficiencyTreePin)) :
    Except ForestError (Dict String LaborEfficiencyTreePin) :=
  match pins with
  | some pins => .ok pins
  | none => definitionPins definition

section

variable (treeSha256 : Forest → MetricTree → String)

def treeOfPin (forest : Forest) (pin : LaborEfficiencyTreePin) (cls : IssuerClass) : Except ForestError MetricTree :=
  match forest.tree pin.treeKey pin.treeVersion with
  | .error _ => .error (.unregisteredTree pin.treeKey pin.treeVersion)
  | .ok tree =>
    if treeSha256 forest tree ≠ pin.treeSha256 then .error (.otherTree pin.treeKey pin.treeVersion)
    else if cls ∉ tree.applicability then .error (.notApplicable tree.key cls)
    else .ok tree

/-- `bound_tree`, with the pins that replace those of the definition. -/
def boundTree (forest : Forest) (definition : StrategyDefinition)
    (pins : Option (Dict String LaborEfficiencyTreePin)) (cls : IssuerClass) :
    Except ForestError MetricTree := do
  let pinned ← effectivePins definition pins
  match pinned.get? cls.value with
  | none => .error (.unpinnedClass definition.definitionVersion cls)
  | some pin => treeOfPin treeSha256 forest pin cls

/-- The trees of `evaluate_cutoff`: the bound tree of each class that is pinned. -/
def pinnedTrees (forest : Forest) (definition : StrategyDefinition)
    (pins : Option (Dict String LaborEfficiencyTreePin)) :
    Except ForestError (Dict IssuerClass MetricTree) := do
  let pinned ← effectivePins definition pins
  pinned.keys.foldlM (fun trees name =>
    match IssuerClass.ofValue name with
    | none => .error (.unknownClass name)
    | some cls => do
      let tree ← boundTree treeSha256 forest definition pins cls
      return trees.set cls tree) Dict.empty

end

/-- The numerator of the root ratio. -/
def capitalAdjustedNode (tree : MetricTree) (cls : IssuerClass) : Except ForestError String :=
  match tree.decompositionOf tree.root with
  | none => .error (.noCapitalAdjustedNode tree.key)
  | some decomposition =>
    if decomposition.formulaId ≠ .ratio then .error (.noCapitalAdjustedNode tree.key)
    else
      match decomposition.operands cls with
      | some (numerator :: _) => .ok numerator
      | _ => .error (.unboundOperands tree.root cls)

/-- The loop of `operating_numerator_node`, from a key down to a captured input. -/
def numeratorChain (forest : Forest) (tree : MetricTree) (cls : IssuerClass) : ℕ → String → Except ForestError MetricNode
  | 0, _ => .error .recursion
  | fuel + 1, key =>
    match tree.decompositionOf key with
    | none => forest.node key
    | some chain =>
      match chain.formulaId, chain.operands cls with
      | .identity, some [operand] => numeratorChain forest tree cls fuel operand
      | .identity, _ => .error (.unboundOperands key cls)
      | .sum, none => .error (.unboundOperands key cls)
      | .sum, some operands => do
        let nodes ← operands.mapM forest.node
        match (operands.zip nodes).filter fun entry => entry.2.defaultWhenMissing.isNone with
        | [(operand, _)] => numeratorChain forest tree cls fuel operand
        | _ => .error (.noNumerator tree.key)
      | _, _ => .error (.noNumerator tree.key)

def operatingNumeratorNode (forest : Forest) (tree : MetricTree) (cls : IssuerClass) : Except ForestError MetricNode := do
  let capitalAdjusted ← capitalAdjustedNode tree cls
  match tree.decompositionOf capitalAdjusted with
  | none => throw (.noNumerator tree.key)
  | some decomposition =>
    if decomposition.formulaId ≠ .difference then throw (.noNumerator tree.key)
    match decomposition.operands cls with
    | some (key :: _) => numeratorChain forest tree cls tree.depth key
    | _ => throw (.unboundOperands capitalAdjusted cls)

/-- The metric of a captured input. -/
def metricOf (node : MetricNode) : Except ForestError String := do
  match ← node.aliasOf .metric with
  | some metric => return metric
  | none =>
    return if node.provenance.kind = .metricRegistry then node.provenance.reference else node.key

/-- The strategy input key of a captured input. -/
def inputKeyOf (node : MetricNode) : Except ForestError String := do
  match ← node.aliasOf .inputKey with
  | some inputKey => return inputKey
  | none => return inputKeyForMetric (← metricOf node)

section

variable {treeSha256 : Forest → MetricTree → String} {forest : Forest} {definition : StrategyDefinition}
  {pins : Option (Dict String LaborEfficiencyTreePin)} {cls : IssuerClass} {tree : MetricTree}

theorem boundTree_spec (h : boundTree treeSha256 forest definition pins cls = .ok tree) :
    tree ∈ forest.trees ∧ cls ∈ tree.applicability := by
  unfold boundTree at h
  obtain ⟨pinned, -, h⟩ := bind_eq_ok_iff.mp h
  split at h
  · cases h
  · unfold treeOfPin at h
    split at h
    · cases h
    · next htree =>
      split_ifs at h with hhash hcls
      cases h
      exact ⟨Forest.mem_of_tree htree, hcls⟩

theorem boundTree_sha256 {pinned : Dict String LaborEfficiencyTreePin} {pin : LaborEfficiencyTreePin}
    (hpinned : effectivePins definition pins = .ok pinned) (hpin : pinned.get? cls.value = some pin)
    (h : boundTree treeSha256 forest definition pins cls = .ok tree) : treeSha256 forest tree = pin.treeSha256 := by
  simp only [boundTree, hpinned, ok_bind, hpin, treeOfPin] at h
  split at h
  · cases h
  · split_ifs at h with hhash hcls
    cases h
    exact not_not.mp hhash

theorem boundTree_of_pinnedTrees {trees : Dict IssuerClass MetricTree}
    (h : pinnedTrees treeSha256 forest definition pins = .ok trees) (hcls : trees.get? cls = some tree) :
    boundTree treeSha256 forest definition pins cls = .ok tree := by
  unfold pinnedTrees at h
  obtain ⟨pinned, -, h⟩ := bind_eq_ok_iff.mp h
  -- the invariant: what is stored under a class is its bound tree
  refine foldlM_inv (fun _ trees => ∀ cls tree, trees.get? cls = some tree →
    boundTree treeSha256 forest definition pins cls = .ok tree) h (by simp) ?_ cls tree hcls
  intro pre name post stored stored' _ ih hstep cls' tree' hget
  cases hname : IssuerClass.ofValue name with
  | none => simp [hname] at hstep
  | some named =>
    simp only [hname] at hstep
    obtain ⟨bound, hbound, hset⟩ := bind_eq_ok_iff.mp hstep
    obtain rfl := pure_eq_ok_iff.mp hset
    by_cases hne : named = cls'
    · subst hne
      rw [Dict.get?_set_self] at hget
      rw [hbound, Option.some.inj hget]
    · rw [Dict.get?_set_of_ne _ _ hne] at hget
      exact ih cls' tree' hget

end

end TrueAlpha
