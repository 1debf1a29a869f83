import TrueAlpha.Contracts.Strategy

/-!
# The metric forest

The embedding of `factors.forest.model`: nodes, decompositions, trees, the validation of a forest, required inputs and
evaluation.  A recursion takes a fuel of one more than the number of decompositions.  Identifiers, texts and policies that
nothing reads are left out.
-/

namespace TrueAlpha

/-- `IssuerClass`, the values of an operating branch. -/
inductive IssuerClass where
  | nonFinancial
  | financial
  | insurance
  deriving DecidableEq, Repr

namespace IssuerClass

def all : List IssuerClass := [.nonFinancial, .financial, .insurance]

def value : IssuerClass → String
  | .nonFinancial => "non_financial"
  | .financial => "financial"
  | .insurance => "insurance"

/-- `IssuerClass(name)`, which raises on another name (`none`). -/
def ofValue (name : String) : Option IssuerClass := all.find? fun cls => cls.value = name

end IssuerClass

inductive NodeKind where
  | input
  | parameter
  | derived
  | concept
  deriving DecidableEq, Repr

inductive AliasKind where
  | key
  | metric
  | inputKey
  | toptSnapshotField
  | definitionParameter
  deriving DecidableEq, Repr

inductive ProvenanceKind where
  | metricRegistry
  | definitionParameter
  | derived
  | concept
  deriving DecidableEq, Repr

structure Provenance where
  kind : ProvenanceKind
  reference : String
  deriving DecidableEq, Repr

structure MetricNode where
  key : String
  kind : NodeKind
  unit : Option UnitFamily
  applicability : List IssuerClass
  provenance : Provenance
  aliases : List (AliasKind × String)
  defaultWhenMissing : Option ℚ
  deriving DecidableEq, Repr

/-- A missing key of a mapping is a `KeyError`, a depth that no acyclic tree has a `RecursionError`; the others are a
`ValueError`. -/
inductive ForestError where
  | unknownNode (key : String)
  | unknownTree (key version : String)
  | severalAliases (node : String) (kind : AliasKind)
  | notApplicable (tree : String) (cls : IssuerClass)
  | unboundOperands (output : String) (cls : IssuerClass)
  | operandCount (output : String)
  | recursion
  | noPins (definitionVersion : String)
  | unpinnedClass (definitionVersion : String) (cls : IssuerClass)
  | unknownClass (name : String)
  | unregisteredTree (key version : String)
  | otherTree (key version : String)
  | noCapitalAdjustedNode (tree : String)
  | noNumerator (tree : String)
  deriving DecidableEq, Repr

namespace MetricNode

/-- What `_consistent` checks of the modelled fields. -/
def consistent (node : MetricNode) : Bool := node.applicability ≠ [] ∧ (node.kind = .concept ↔ node.unit = none) ∧
    (node.defaultWhenMissing.isSome → node.kind = .input) ∧
    (∀ a ∈ node.aliases, a.1 ≠ .key ∧ a.2 ≠ "") ∧
    (node.provenance.kind = .metricRegistry → (unitFamilyOf node.provenance.reference).isSome)

/-- `alias`: the name of a node of one kind. -/
def aliasOf (node : MetricNode) (kind : AliasKind) : Except ForestError (Option String) :=
  if kind = .key then .ok (some node.key)
  else
    match node.aliases.filter fun a => a.1 = kind with
    | [] => .ok none
    | [a] => .ok (some a.2)
    | _ => .error (.severalAliases node.key kind)

end MetricNode

inductive FormulaId where
  | identity
  | sum
  | difference
  | product
  | ratio
  | nonNegative
  deriving DecidableEq, Repr

inductive UndefinedReason where
  | missingInput
  | zeroDenominator
  | negativeOperand
  | undefinedOperand
  deriving DecidableEq, Repr

namespace FormulaId

/-- The operand counts of `FORMULAS`. -/
def accepts : FormulaId → ℕ → Bool
  | .identity, count | .nonNegative, count => count = 1
  | .difference, count | .ratio, count => count = 2
  | .sum, count | .product, count => 2 ≤ count

/-- Undefined (`some none`) at a zero denominator or a negative operand; a wrong count of operands raises (`none`). -/
def apply (context : Context) : FormulaId → List ℚ → Option (Option ℚ)
  | .identity, [value] => some (some value)
  | .sum, value :: rest => some (some (rest.foldl context.add value))
  | .difference, [minuend, subtrahend] => some (some (context.sub minuend subtrahend))
  | .product, value :: rest => some (some (rest.foldl context.mul value))
  | .ratio, [numerator, denominator] => some (context.div numerator denominator)
  | .nonNegative, [value] => some (if value < 0 then none else some value)
  | _, _ => none

def undefinedReason : FormulaId → Option UndefinedReason
  | .ratio => some .zeroDenominator
  | .nonNegative => some .negativeOperand
  | _ => none

end FormulaId

structure Decomposition where
  output : String
  formulaId : FormulaId
  operands : IssuerClass → Option (List String)
  bound : ∃ cls ∈ IssuerClass.all, (operands cls).isSome
  arity : ∀ cls ∈ IssuerClass.all, ∀ names ∈ operands cls, formulaId.accepts names.length

def Decomposition.same (a b : Decomposition) : Bool :=
  a.output = b.output ∧ a.formulaId = b.formulaId ∧ ∀ cls ∈ IssuerClass.all, a.operands cls = b.operands cls

structure MetricTree where
  key : String
  version : String
  realizes : String
  root : String
  applicability : List IssuerClass
  decompositions : List Decomposition
  decimalPrecision : ℕ

namespace MetricTree

/-- The first decomposition of a key. -/
def decompositionOf (tree : MetricTree) (key : String) : Option Decomposition :=
  tree.decompositions.find? fun item => item.output = key

def context (tree : MetricTree) : Context := ⟨tree.decimalPrecision⟩

def depth (tree : MetricTree) : ℕ := tree.decompositions.length + 1

end MetricTree

/-! ## The validation of a forest -/

/-- What `Forest._structure` raises. -/
inductive StructureError where
  | nodeKeys
  | treeKeys
  | twoWays (output : String)
  | undecomposed (key : String)
  | notDerived (key : String)
  | noConcept (tree : String)
  | decomposedTwice (tree : String)
  | rootNotDerived (tree root : String)
  | rootNotDecomposed (tree root : String)
  | rootClasses (tree root : String)
  | outputNotDerived (tree output : String)
  | outputClasses (tree output : String)
  | operandNotValued (tree operand : String)
  | operandClass (tree operand : String)
  | operandNotDecomposed (tree operand : String)
  | cyclic (tree : String) (path : List String)
  | unboundClass (tree key : String)
  | unreachable (tree : String)
  | recursion
  deriving DecidableEq, Repr

def check (holds : Bool) (error : StructureError) : Except StructureError Unit :=
  if holds then .ok () else .error error

def validateOperand (tree : MetricTree) (nodes : List MetricNode) (cls : IssuerClass) (operand : String) :
    Except StructureError Unit :=
  match nodes.find? fun node => node.key = operand with
  | none => .error (.operandNotValued tree.key operand)
  | some node => do
    check (node.kind ≠ .concept) (.operandNotValued tree.key operand)
    check (cls ∈ node.applicability) (.operandClass tree.key operand)
    check (node.kind ≠ .derived ∨ (tree.decompositionOf operand).isSome)
      (.operandNotDecomposed tree.key operand)

def validateDecompositionOperands (tree : MetricTree) (nodes : List MetricNode)
    (decomposition : Decomposition) : Except StructureError Unit :=
  match nodes.find? fun node => node.key = decomposition.output with
  | none => .error (.outputNotDerived tree.key decomposition.output)
  | some output => do
    check (output.kind = .derived) (.outputNotDerived tree.key decomposition.output)
    check (∀ cls ∈ IssuerClass.all, (decomposition.operands cls).isSome → cls ∈ tree.applicability ∧ cls ∈ output.applicability)
      (.outputClasses tree.key decomposition.output)
    IssuerClass.all.forM fun cls =>
      ((decomposition.operands cls).getD []).forM (validateOperand tree nodes cls)

/-- The keys that are decomposed on the way from a key, for one class. -/
def visitClass (tree : MetricTree) (cls : IssuerClass) :
    ℕ → List String → List String → String → Except StructureError (List String)
  | 0, _, _, _ => .error .recursion
  | fuel + 1, path, reached, key =>
    if key ∈ path then .error (.cyclic tree.key (path ++ [key]))
    else
      match tree.decompositionOf key with
      | none => .ok reached
      | some decomposition =>
        match decomposition.operands cls with
        | none => .error (.unboundClass tree.key key)
        | some operands => operands.foldlM (visitClass tree cls fuel (path ++ [key])) (reached ++ [key])

def validateTree (tree : MetricTree) (nodes : List MetricNode) : Except StructureError Unit := do
  check (∃ node ∈ nodes, node.key = tree.realizes ∧ node.kind = .concept) (.noConcept tree.key)
  check (tree.decompositions.map Decomposition.output).Nodup (.decomposedTwice tree.key)
  check (∃ node ∈ nodes, node.key = tree.root ∧ node.kind = .derived) (.rootNotDerived tree.key tree.root)
  match tree.decompositionOf tree.root with
  | none => .error (.rootNotDecomposed tree.key tree.root)
  | some root =>
    check (∀ cls ∈ IssuerClass.all, (root.operands cls).isSome ↔ cls ∈ tree.applicability)
      (.rootClasses tree.key tree.root)
  tree.decompositions.forM (validateDecompositionOperands tree nodes)
  let reached ← tree.applicability.foldlM
    (fun reached cls => visitClass tree cls (tree.depth + 1) [] reached tree.root) []
  check (∀ item ∈ tree.decompositions, item.output ∈ reached) (.unreachable tree.key)

/-- `_structure`: a node's key names it, and its decomposition is the same in every tree. -/
def validateStructure (nodes : List MetricNode) (trees : List MetricTree) : Except StructureError Unit := do
  check (nodes.map MetricNode.key).Nodup .nodeKeys
  check (trees.map fun tree => (tree.key, tree.version)).Nodup .treeKeys
  let seen ← trees.foldlM (fun (seen : List Decomposition) tree => do
    validateTree tree nodes
    tree.decompositions.foldlM (fun seen decomposition =>
      match seen.find? fun prior => prior.output = decomposition.output with
      | none => .ok (seen ++ [decomposition])
      | some prior => do
        check (prior.same decomposition) (.twoWays decomposition.output)
        return seen) seen) []
  nodes.forM fun node => do
    check (node.kind = .derived → node.key ∈ seen.map Decomposition.output) (.undecomposed node.key)
    check (node.kind ≠ .derived → node.key ∉ seen.map Decomposition.output) (.notDerived node.key)

/-- The registered nodes and trees. -/
structure Forest where
  nodes : List MetricNode
  trees : List MetricTree
  consistent : ∀ node ∈ nodes, node.consistent
  applicable : ∀ tree ∈ trees, tree.applicability ≠ [] ∧ 1 ≤ tree.decimalPrecision
  validated : validateStructure nodes trees = .ok ()

namespace Forest

def node (forest : Forest) (key : String) : Except ForestError MetricNode :=
  match forest.nodes.find? fun node => node.key = key with
  | some node => .ok node
  | none => .error (.unknownNode key)

def tree (forest : Forest) (key version : String) : Except ForestError MetricTree :=
  match forest.trees.find? fun tree => tree.key = key ∧ tree.version = version with
  | some tree => .ok tree
  | none => .error (.unknownTree key version)

theorem mem_of_tree {forest : Forest} {key version : String} {tree : MetricTree}
    (h : forest.tree key version = .ok tree) : tree ∈ forest.trees := by
  unfold Forest.tree at h
  split at h
  · next found heq =>
    cases h
    exact List.mem_of_find?_eq_some heq
  · cases h

end Forest

def visitLeaves (forest : Forest) (tree : MetricTree) (cls : IssuerClass) :
    ℕ → Dict String MetricNode → String → Except ForestError (Dict String MetricNode)
  | 0, _, _ => .error .recursion
  | fuel + 1, ordered, key =>
    match tree.decompositionOf key with
    | none => do
      let node ← forest.node key
      return if (ordered.get? key).isSome then ordered else ordered.set key node
    | some decomposition =>
      match decomposition.operands cls with
      | none => .error (.unboundOperands key cls)
      | some operands => operands.foldlM (visitLeaves forest tree cls fuel) ordered

/-- The input and parameter nodes that an issuer of a class needs. -/
def requiredInputs (forest : Forest) (tree : MetricTree) (cls : IssuerClass) : Except ForestError (List MetricNode) :=
  if cls ∉ tree.applicability then .error (.notApplicable tree.key cls)
  else (visitLeaves forest tree cls tree.depth Dict.empty tree.root).map Dict.values

structure TreeEvaluation where
  values : Dict String (Option ℚ)
  undefined : Dict String UndefinedReason

namespace TreeEvaluation

def empty : TreeEvaluation := ⟨Dict.empty, Dict.empty⟩

def record (evaluation : TreeEvaluation) (key : String) (value : Option ℚ) (reason : UndefinedReason) : TreeEvaluation :=
  { values := evaluation.values.set key value
    undefined := if value.isNone then evaluation.undefined.set key reason else evaluation.undefined }

end TreeEvaluation

def leafValue (forest : Forest) (inputs : Dict String (Option ℚ)) (key : String) : Except ForestError (Option ℚ) :=
  match (inputs.get? key).join with
  | some value => .ok (some value)
  | none => (forest.node key).map MetricNode.defaultWhenMissing

def derivedValue (tree : MetricTree) (decomposition : Decomposition) (operands : List (Option ℚ)) :
    Except ForestError (Option ℚ × UndefinedReason) :=
  match operands.mapM id with
  | none => .ok (none, .undefinedOperand)
  | some present =>
    match decomposition.formulaId.apply tree.context present, decomposition.formulaId.undefinedReason with
    | some (some value), _ => .ok (some value, .undefinedOperand)
    | some none, some reason => .ok (none, reason)
    | _, _ => .error (.operandCount decomposition.output)

/-- The value of a node, evaluated at most once. -/
def resolve (forest : Forest) (tree : MetricTree) (cls : IssuerClass) (inputs : Dict String (Option ℚ)) :
    ℕ → TreeEvaluation → String → Except ForestError (Option ℚ × TreeEvaluation)
  | 0, _, _ => .error .recursion
  | fuel + 1, evaluation, key =>
    match evaluation.values.get? key with
    | some value => .ok (value, evaluation)
    | none =>
      match tree.decompositionOf key with
      | none => do
        let value ← leafValue forest inputs key
        return (value, evaluation.record key value .missingInput)
      | some decomposition =>
        match decomposition.operands cls with
        | none => .error (.unboundOperands key cls)
        | some names => do
          let (operands, evaluation) ← names.foldlM (fun state name => do
            let (value, evaluation) ← resolve forest tree cls inputs fuel state.2 name
            return (state.1 ++ [value], evaluation)) (([] : List (Option ℚ)), evaluation)
          let (value, reason) ← derivedValue tree decomposition operands
          return (value, evaluation.record key value reason)

abbrev resolveOperand (forest : Forest) (tree : MetricTree) (cls : IssuerClass) (inputs : Dict String (Option ℚ))
    (fuel : ℕ) (state : List (Option ℚ) × TreeEvaluation) (name : String) :
    Except ForestError (List (Option ℚ) × TreeEvaluation) := do
  let (value, evaluation) ← resolve forest tree cls inputs fuel state.2 name
  return (state.1 ++ [value], evaluation)

/-- Every required input first, then the root. -/
def evaluate (forest : Forest) (tree : MetricTree) (cls : IssuerClass) (inputs : Dict String (Option ℚ)) :
    Except ForestError TreeEvaluation := do
  if cls ∉ tree.applicability then throw (.notApplicable tree.key cls)
  let nodes ← requiredInputs forest tree cls
  let evaluation ← nodes.foldlM (fun evaluation node =>
    (resolve forest tree cls inputs tree.depth evaluation node.key).map Prod.snd) TreeEvaluation.empty
  let (_, evaluation) ← resolve forest tree cls inputs tree.depth evaluation tree.root
  return evaluation

end TrueAlpha
