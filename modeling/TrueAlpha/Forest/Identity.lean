import TrueAlpha.Forest.Binding
import TrueAlpha.Forest.Semantics
import TrueAlpha.Lib.Json

/-!
# The identity of a tree

`Forest.tree_sha256`: the hash of the canonical JSON of a tree and of what it reaches.  The hash is a parameter; what the
inputs, the evaluation and the binding read can be recovered from its content.
-/

namespace TrueAlpha

def NodeKind.value : NodeKind → String
  | .input => "input"
  | .parameter => "parameter"
  | .derived => "derived"
  | .concept => "concept"

def AliasKind.value : AliasKind → String
  | .key => "key"
  | .metric => "metric"
  | .inputKey => "input_key"
  | .toptSnapshotField => "topt_snapshot_field"
  | .definitionParameter => "definition_parameter"

def ProvenanceKind.value : ProvenanceKind → String
  | .metricRegistry => "metric-registry"
  | .definitionParameter => "definition-parameter"
  | .derived => "derived"
  | .concept => "concept"

def UnitFamily.value : UnitFamily → String
  | .currency => "currency"
  | .count => "count"
  | .ratio => "ratio"
  | .perShare => "per_share"
  | .perEmployee => "per_employee"
  | .percentage => "percentage"
  | .timeYears => "time_years"

def FormulaId.value : FormulaId → String
  | .identity => "identity"
  | .sum => "sum"
  | .difference => "difference"
  | .product => "product"
  | .ratio => "ratio"
  | .nonNegative => "non_negative"

theorem NodeKind.value_injective : Function.Injective NodeKind.value := by
  intro a b h
  cases a <;> cases b <;> first | rfl | simp [value] at h

theorem AliasKind.value_injective : Function.Injective AliasKind.value := by
  intro a b h
  cases a <;> cases b <;> first | rfl | simp [value] at h

theorem ProvenanceKind.value_injective : Function.Injective ProvenanceKind.value := by
  intro a b h
  cases a <;> cases b <;> first | rfl | simp [value] at h

theorem UnitFamily.value_injective : Function.Injective UnitFamily.value := by
  intro a b h
  cases a <;> cases b <;> first | rfl | simp [value] at h

theorem FormulaId.value_injective : Function.Injective FormulaId.value := by
  intro a b h
  cases a <;> cases b <;> first | rfl | simp [value] at h

theorem IssuerClass.value_injective : Function.Injective IssuerClass.value := by
  intro a b h
  cases a <;> cases b <;> first | rfl | simp [value] at h

def sortedClasses (classes : List IssuerClass) : List String := sortedSet (classes.map IssuerClass.value)

def dumpAlias (entry : AliasKind × String) : Json := .object [("kind", .text entry.1.value), ("value", .text entry.2)]

def dumpNode (node : MetricNode) : Json := .object ([("aliases", .array (node.aliases.map dumpAlias)),
      ("applicability", .array ((sortedClasses node.applicability).map .text))] ++
    (match node.defaultWhenMissing with
      | none => []
      | some value => [("default_when_missing", .decimal value)]) ++
    [("key", .text node.key), ("kind", .text node.kind.value),
      ("provenance", .object [("kind", .text node.provenance.kind.value), ("reference", .text node.provenance.reference)]),
      ("unit", .optional (fun unit => .text unit.value) node.unit)])

def dumpOperands (operands : IssuerClass → Option (List String)) : Json :=
  .object ([IssuerClass.financial, .insurance, .nonFinancial].filterMap fun cls =>
    (operands cls).map fun names => (cls.value, .array (names.map .text)))

def dumpDecomposition (decomposition : Decomposition) : Json :=
  .object [("formula_id", .text decomposition.formulaId.value), ("formula_version", .number 1),
    ("operands", dumpOperands decomposition.operands), ("output", .text decomposition.output)]

def dumpTree (tree : MetricTree) : Json := .object [("applicability", .array ((sortedClasses tree.applicability).map .text)),
    ("decimal_precision", .number tree.decimalPrecision),
    ("decompositions", .array (tree.decompositions.map dumpDecomposition)), ("key", .text tree.key),
    ("realizes", .text tree.realizes), ("root", .text tree.root), ("rounding", .text "ROUND_HALF_EVEN"),
    ("version", .text tree.version)]

def leafAndDerivedKeys (tree : MetricTree) : List String := tree.decompositions.flatMap fun decomposition =>
    decomposition.output :: IssuerClass.all.flatMap fun cls => (decomposition.operands cls).getD []

def identityKeys (tree : MetricTree) : List String := sortedSet (tree.root :: leafAndDerivedKeys tree)

def treeContent (forest : Forest) (tree : MetricTree) : Except ForestError Json := do
  let nodes ← (identityKeys tree).mapM forest.node
  let concept ← forest.node tree.realizes
  return .object [("concept", dumpNode concept), ("nodes", .array (nodes.map dumpNode)), ("tree", dumpTree tree)]

/-- No key of a registered tree is missing (`exists_treeContent`), so none is hashed. -/
def treeSha256 (sha256 : Json → String) (forest : Forest) (tree : MetricTree) : String :=
  match treeContent forest tree with
  | .ok content => sha256 content
  | .error _ => ""

/-! ## What a dump says -/

structure NodeSame (a b : MetricNode) : Prop where
  key : a.key = b.key
  kind : a.kind = b.kind
  unit : a.unit = b.unit
  applicability : ∀ cls, cls ∈ a.applicability ↔ cls ∈ b.applicability
  provenance : a.provenance = b.provenance
  aliases : a.aliases = b.aliases
  defaultWhenMissing : a.defaultWhenMissing = b.defaultWhenMissing

variable {cls : IssuerClass}

theorem mem_sortedClasses {classes : List IssuerClass} : cls.value ∈ sortedClasses classes ↔ cls ∈ classes := by
  rw [sortedClasses, mem_sortedSet, List.mem_map_of_injective IssuerClass.value_injective]

theorem mem_of_sortedClasses {classes classes' : List IssuerClass}
    (h : Json.array ((sortedClasses classes).map .text) = Json.array ((sortedClasses classes').map .text))
    (cls : IssuerClass) : cls ∈ classes ↔ cls ∈ classes' := by
  rw [← mem_sortedClasses, ← mem_sortedClasses, (Json.array_map_eq_iff Json.text_injective).mp h]

theorem dumpAlias_injective : Function.Injective dumpAlias := by
  intro a b h
  simp only [dumpAlias, Json.object_cons, Json.field.injEq, Json.text.injEq, true_and] at h
  exact Prod.ext (AliasKind.value_injective h.1) h.2.1

theorem optional_unit_injective : Function.Injective (Json.optional fun unit : UnitFamily => .text unit.value) := by
  intro a b h
  cases a with
  | none =>
    cases b with
    | none => rfl
    | some _ => cases h
  | some a =>
    cases b with
    | none => cases h
    | some b => rw [UnitFamily.value_injective (Json.text.inj h)]

theorem provenance_eq {a b : Provenance} (hkind : a.kind = b.kind) (hreference : a.reference = b.reference) : a = b := by
  cases a
  cases b
  obtain rfl := hkind
  obtain rfl := hreference
  rfl

theorem nodeSame_of_dumpNode {a b : MetricNode} (h : dumpNode a = dumpNode b) : NodeSame a b := by
  have hfields := Json.object_injective h
  -- whether the default is written decides how many fields there are
  have hparts : Json.array (a.aliases.map dumpAlias) = .array (b.aliases.map dumpAlias) ∧
      Json.array ((sortedClasses a.applicability).map .text) = .array ((sortedClasses b.applicability).map .text) ∧
      a.defaultWhenMissing = b.defaultWhenMissing ∧ a.key = b.key ∧ a.kind.value = b.kind.value ∧
      a.provenance.kind.value = b.provenance.kind.value ∧ a.provenance.reference = b.provenance.reference ∧
      Json.optional (fun unit : UnitFamily => .text unit.value) a.unit = .optional (fun unit => .text unit.value) b.unit := by
    cases ha : a.defaultWhenMissing with
    | none =>
      cases hb : b.defaultWhenMissing with
      | none => simpa [ha, hb, and_assoc] using hfields
      | some y => simp [ha, hb] at hfields
    | some x =>
      cases hb : b.defaultWhenMissing with
      | none => simp [ha, hb] at hfields
      | some y => simpa [ha, hb, and_assoc] using hfields
  obtain ⟨haliases, hclasses, hdefault, hkey, hkind, hprovenance, hreference, hunit⟩ := hparts
  exact
    { key := hkey
      kind := NodeKind.value_injective hkind
      unit := optional_unit_injective hunit
      applicability := mem_of_sortedClasses hclasses
      provenance := provenance_eq (ProvenanceKind.value_injective hprovenance) hreference
      aliases := (Json.array_map_eq_iff dumpAlias_injective).mp haliases
      defaultWhenMissing := hdefault }

variable {names : List String}

theorem mem_operandFields {operands : IssuerClass → Option (List String)} :
    (cls.value, Json.array (names.map .text)) ∈ ([IssuerClass.financial, .insurance, .nonFinancial].filterMap
      fun cls => (operands cls).map fun names => (cls.value, Json.array (names.map .text))) ↔
      operands cls = some names := by
  rw [List.mem_filterMap]
  constructor
  · intro ⟨cls', _, hentry⟩
    obtain ⟨names', hnames', heq⟩ := Option.map_eq_some_iff.mp hentry
    obtain ⟨hcls, hnames⟩ := Prod.mk.inj heq
    rw [← IssuerClass.value_injective hcls, ← (Json.array_map_eq_iff Json.text_injective).mp hnames]
    exact hnames'
  · intro h
    refine ⟨cls, by cases cls <;> simp, ?_⟩
    rw [h]
    rfl

theorem dumpOperands_injective : Function.Injective dumpOperands := by
  intro f g h
  have hfields := Json.object_injective h
  refine funext fun cls => Option.ext fun names => ?_
  rw [← mem_operandFields, ← mem_operandFields, hfields]

theorem dumpDecomposition_injective : Function.Injective dumpDecomposition := by
  intro a b h
  simp only [dumpDecomposition, Json.object_cons, Json.field.injEq, Json.text.injEq, true_and] at h
  obtain ⟨hformula, hoperands, houtput, -⟩ := h
  refine Decomposition.same_iff_eq.mp (Decomposition.same_iff.mpr ⟨houtput, FormulaId.value_injective hformula, ?_⟩)
  exact congrFun (dumpOperands_injective hoperands)

structure TreeSame (a b : MetricTree) : Prop where
  key : a.key = b.key
  version : a.version = b.version
  realizes : a.realizes = b.realizes
  root : a.root = b.root
  applicability : ∀ cls, cls ∈ a.applicability ↔ cls ∈ b.applicability
  decompositions : a.decompositions = b.decompositions
  decimalPrecision : a.decimalPrecision = b.decimalPrecision

theorem treeSame_of_dumpTree {a b : MetricTree} (h : dumpTree a = dumpTree b) : TreeSame a b := by
  simp only [dumpTree, Json.object_cons, Json.field.injEq, Json.text.injEq, Json.number.injEq, Nat.cast_inj, true_and] at h
  obtain ⟨happlicability, hprecision, hdecompositions, hkey, hrealizes, hroot, hversion, -⟩ := h
  exact
    { key := hkey
      version := hversion
      realizes := hrealizes
      root := hroot
      applicability := mem_of_sortedClasses happlicability
      decompositions := (Json.array_map_eq_iff dumpDecomposition_injective).mp hdecompositions
      decimalPrecision := hprecision }

variable {key : String} {decomposition : Decomposition}

section

variable {forest forest' : Forest} {tree tree' : MetricTree}

theorem mem_identityKeys_root : tree.root ∈ identityKeys tree := by
  simp [identityKeys]

theorem mem_identityKeys_operand
    {name : String} (hmem : decomposition ∈ tree.decompositions) (hnames : decomposition.operands cls = some names)
    (hname : name ∈ names) : name ∈ identityKeys tree := by
  rw [identityKeys, mem_sortedSet]
  refine List.mem_cons_of_mem _ (List.mem_flatMap.mpr ⟨decomposition, hmem, List.mem_cons_of_mem _ ?_⟩)
  refine List.mem_flatMap.mpr ⟨cls, by cases cls <;> decide, ?_⟩
  rw [hnames]
  exact hname

theorem exists_node_of_mem_identityKeys (htree : tree ∈ forest.trees) (hkey : key ∈ identityKeys tree) :
    ∃ node, forest.node key = .ok node := by
  have hchecked := forest.treeChecked htree
  rw [identityKeys, mem_sortedSet] at hkey
  obtain rfl | hkey := List.mem_cons.mp hkey
  · obtain ⟨root, hroot, -⟩ := hchecked.root
    obtain ⟨node, hnode, -⟩ := forest.decomposed_derived htree hroot
    exact ⟨node, hnode⟩
  · obtain ⟨decomposition, hmem, hkey⟩ := List.mem_flatMap.mp hkey
    obtain rfl | hkey := List.mem_cons.mp hkey
    · obtain ⟨node, hfind, -⟩ := hchecked.output_derived hmem
      exact ⟨node, Forest.node_eq_ok_iff.mpr hfind⟩
    · obtain ⟨cls, -, hkey⟩ := List.mem_flatMap.mp hkey
      cases hoperands : decomposition.operands cls with
      | none => simp [hoperands] at hkey
      | some names =>
        rw [hoperands, Option.getD_some] at hkey
        obtain ⟨node, hnode, -⟩ := forest.operand_registered htree hmem hoperands hkey
        exact ⟨node, hnode⟩

theorem exists_treeContent (htree : tree ∈ forest.trees) : ∃ content, treeContent forest tree = .ok content := by
  obtain ⟨nodes, hnodes⟩ := exists_mapM_ok fun key hkey => exists_node_of_mem_identityKeys htree hkey
  obtain ⟨node, hmem, hkey⟩ := (forest.treeChecked htree).realized
  obtain ⟨concept, hconcept⟩ : ∃ concept, forest.node tree.realizes = .ok concept := by
    cases hfind : forest.nodes.find? fun node => node.key = tree.realizes with
    | none => simpa [hkey] using List.find?_eq_none.mp hfind node hmem
    | some concept => exact ⟨concept, Forest.node_eq_ok_iff.mpr hfind⟩
  rw [treeContent, hnodes, ok_bind, hconcept]
  exact ⟨_, rfl⟩

theorem same_of_treeContent {content : Json} (h : treeContent forest tree = .ok content)
    (h' : treeContent forest' tree' = .ok content) :
    TreeSame tree tree' ∧ ∀ key ∈ identityKeys tree, ∃ node node', forest.node key = .ok node ∧
      forest'.node key = .ok node' ∧ NodeSame node node' := by
  obtain ⟨nodes, hnodes, h⟩ := bind_eq_ok_iff.mp h
  obtain ⟨concept, -, h⟩ := bind_eq_ok_iff.mp h
  obtain ⟨nodes', hnodes', h'⟩ := bind_eq_ok_iff.mp h'
  obtain ⟨concept', -, h'⟩ := bind_eq_ok_iff.mp h'
  have hcontent := (pure_eq_ok_iff.mp h).trans (pure_eq_ok_iff.mp h').symm
  simp only [Json.object_cons, Json.field.injEq, true_and] at hcontent
  obtain ⟨-, hdumps, htree, -⟩ := hcontent
  have hsame := treeSame_of_dumpTree htree
  have hkeys : identityKeys tree = identityKeys tree' := by
    rw [identityKeys, identityKeys, leafAndDerivedKeys, leafAndDerivedKeys, hsame.root, hsame.decompositions]
  refine ⟨hsame, fun key hkey => ?_⟩
  rw [← hkeys] at hnodes'
  obtain ⟨node, node', hnode, hnode', hdump⟩ := exists_pair_of_forall₂ (mapM_eq_ok_iff.mp hnodes)
    (mapM_eq_ok_iff.mp hnodes') (Json.array_injective hdumps) hkey
  exact ⟨node, node', hnode, hnode', nodeSame_of_dumpNode hdump⟩

end

/-! ## What the content determines -/

structure ContentSame (forest : Forest) (tree : MetricTree) (forest' : Forest) (tree' : MetricTree) : Prop where
  trees : TreeSame tree tree'
  nodes : ∀ key ∈ identityKeys tree, ∃ node node', forest.node key = .ok node ∧ forest'.node key = .ok node' ∧ NodeSame node node'

variable {ordered ordered' : Dict String MetricNode}

namespace ContentSame

variable {forest forest' : Forest} {tree tree' : MetricTree} {cls : IssuerClass}

theorem decompositionOf_eq (h : ContentSame forest tree forest' tree') (key : String) :
    tree.decompositionOf key = tree'.decompositionOf key := by
  rw [MetricTree.decompositionOf, h.trees.decompositions]
  rfl

theorem depth_eq (h : ContentSame forest tree forest' tree') : tree.depth = tree'.depth := by
  rw [MetricTree.depth, h.trees.decompositions]
  rfl

theorem operand_mem {key name : String}
    (h : tree.decompositionOf key = some decomposition) (hnames : decomposition.operands cls = some names)
    (hname : name ∈ names) : name ∈ identityKeys tree :=
  mem_identityKeys_operand (MetricTree.mem_of_decompositionOf h) hnames hname

theorem node_alike (h : ContentSame forest tree forest' tree') (hkey : key ∈ identityKeys tree) :
    Alike NodeSame (forest.node key) (forest'.node key) := by
  obtain ⟨node, node', hnode, hnode', hsame⟩ := h.nodes key hkey
  rw [hnode, hnode']
  exact .ok hsame

def Listed (tree : MetricTree) (ordered ordered' : Dict String MetricNode) : Prop :=
  List.Forall₂ (fun a b => a.1 = b.1 ∧ NodeSame a.2 b.2 ∧ a.2.key ∈ identityKeys tree) ordered.items ordered'.items

theorem Listed.keys_eq (h : Listed tree ordered ordered') : ordered.keys = ordered'.keys := by
  unfold Dict.keys
  rw [← List.forall₂_eq_eq_eq, List.forall₂_map_left_iff, List.forall₂_map_right_iff]
  exact h.imp fun _ _ hab => hab.1

theorem Listed.values (h : Listed tree ordered ordered') :
    List.Forall₂ (fun a b => NodeSame a b ∧ a.key ∈ identityKeys tree) ordered.values ordered'.values := by
  unfold Dict.values
  rw [List.forall₂_map_left_iff, List.forall₂_map_right_iff]
  exact h.imp fun _ _ hab => hab.2

theorem visitLeaves_alike (h : ContentSame forest tree forest' tree') (hkey : key ∈ identityKeys tree)
    (fuel : ℕ) (hordered : Listed tree ordered ordered') :
    Alike (Listed tree) (visitLeaves forest tree cls fuel ordered key) (visitLeaves forest' tree' cls fuel ordered' key) := by
  induction fuel generalizing key ordered ordered' with
  | zero => exact .error _
  | succ fuel ih =>
    rw [visitLeaves, visitLeaves, ← h.decompositionOf_eq key]
    cases hdecomposition : tree.decompositionOf key with
    | none =>
      obtain ⟨node, node', hnode, hnode', hsame⟩ := h.nodes key hkey
      simp only [hnode, hnode', ok_bind]
      refine .ok ?_
      have hheld : (ordered.get? key).isSome = (ordered'.get? key).isSome := by
        rw [Bool.eq_iff_iff, Option.isSome_iff_exists, Option.isSome_iff_exists, ← Dict.mem_keys_iff,
          ← Dict.mem_keys_iff, hordered.keys_eq]
      rw [hheld]
      split_ifs with hkept
      · exact hordered
      · have hnew' : key ∉ ordered'.keys := by
          rwa [Dict.mem_keys_iff, ← Option.isSome_iff_exists]
        have hnew : key ∉ ordered.keys := hordered.keys_eq ▸ hnew'
        rw [Listed, Dict.items_set_of_not_mem _ hnew, Dict.items_set_of_not_mem _ hnew']
        exact List.rel_append hordered (.cons ⟨rfl, hsame, Forest.key_of_node hnode ▸ hkey⟩ .nil)
    | some decomposition =>
      cases hoperands : decomposition.operands cls with
      | none => simpa only [hoperands] using .error _
      | some operands =>
        simp only [hoperands]
        exact Alike.foldlM hordered fun _ _ operand hoperand hlisted =>
          ih (operand_mem hdecomposition hoperands hoperand) hlisted

theorem requiredInputs_alike (h : ContentSame forest tree forest' tree') (cls : IssuerClass) :
    Alike (List.Forall₂ fun a b => NodeSame a b ∧ a.key ∈ identityKeys tree) (requiredInputs forest tree cls)
      (requiredInputs forest' tree' cls) := by
  rw [requiredInputs, requiredInputs, ← h.depth_eq, ← h.trees.root, ← h.trees.key]
  by_cases hcls : cls ∈ tree.applicability
  · have hcls' := (h.trees.applicability cls).mp hcls
    rw [if_neg (not_not_intro hcls), if_neg (not_not_intro hcls')]
    have hempty : Listed tree Dict.empty Dict.empty := List.Forall₂.nil
    exact (h.visitLeaves_alike mem_identityKeys_root _ hempty).map fun _ _ => Listed.values
  · have hcls' := mt (h.trees.applicability cls).mpr hcls
    rw [if_pos hcls, if_pos hcls']
    exact .error _

variable {inputs : Dict String (Option ℚ)}

section

variable (h : ContentSame forest tree forest' tree')

include h

theorem leafValue_eq (hkey : key ∈ identityKeys tree) : leafValue forest inputs key = leafValue forest' inputs key := by
  obtain ⟨node, node', hnode, hnode', hsame⟩ := h.nodes key hkey
  unfold leafValue
  cases (inputs.get? key).join with
  | some value => rfl
  | none =>
    rw [hnode, hnode']
    exact congrArg Except.ok hsame.defaultWhenMissing

theorem resolve_eq (hkey : key ∈ identityKeys tree) (fuel : ℕ) (evaluation : TreeEvaluation) :
    resolve forest tree cls inputs fuel evaluation key = resolve forest' tree' cls inputs fuel evaluation key := by
  induction fuel generalizing key evaluation with
  | zero => rfl
  | succ fuel ih =>
    rw [resolve, resolve, ← h.decompositionOf_eq key]
    cases evaluation.values.get? key with
    | some value => rfl
    | none =>
      cases hdecomposition : tree.decompositionOf key with
      | none => simp only [h.leafValue_eq hkey]
      | some decomposition =>
        cases hoperands : decomposition.operands cls with
        | none => simp only [hoperands]
        | some names =>
          have hcontext : tree.context = tree'.context := by
            rw [MetricTree.context, h.trees.decimalPrecision]
            rfl
          have hfold := foldlM_congr (l := names) (b := (([] : List (Option ℚ)), evaluation))
            (f := resolveOperand forest tree cls inputs fuel) (g := resolveOperand forest' tree' cls inputs fuel)
            (AtEach.of_mem fun _ hname => hname) (AtEach.of_mem fun _ hname => hname)
            fun state name hname _ => by
              rw [resolveOperand, resolveOperand, ih (operand_mem hdecomposition hoperands hname) state.2]
          simp only [hoperands, derivedValue, hcontext, hfold]

theorem evaluate_same (cls : IssuerClass)
    (inputs : Dict String (Option ℚ)) : evaluate forest tree cls inputs = evaluate forest' tree' cls inputs := by
  rw [evaluate, evaluate, ← h.trees.root, ← h.trees.key, ← h.depth_eq]
  by_cases hcls : cls ∈ tree.applicability
  · have hcls' := (h.trees.applicability cls).mp hcls
    rw [if_neg (not_not_intro hcls), if_neg (not_not_intro hcls')]
    have hrequired := h.requiredInputs_alike cls
    generalize requiredInputs forest tree cls = required at hrequired
    generalize requiredInputs forest' tree' cls = required' at hrequired
    cases hrequired with
    | error e => rfl
    | @ok nodes nodes' hsame =>
      have hkeys : nodes.map MetricNode.key = nodes'.map MetricNode.key := by
        rw [← List.forall₂_eq_eq_eq, List.forall₂_map_left_iff, List.forall₂_map_right_iff]
        exact hsame.imp fun _ _ hab => hab.1.key
      have hreached : ∀ key ∈ nodes.map MetricNode.key, key ∈ identityKeys tree := by
        rw [List.forall_mem_map]
        exact ((List.forall₂_and_left nodes nodes').mp (hsame.imp fun _ _ hab => ⟨hab.2, hab.1⟩)).1
      have hfold := foldlM_congr (l := nodes.map MetricNode.key) (b := TreeEvaluation.empty)
        (f := fun evaluation key => (resolve forest tree cls inputs tree.depth evaluation key).map Prod.snd)
        (g := fun evaluation key => (resolve forest' tree' cls inputs tree.depth evaluation key).map Prod.snd)
        (AtEach.of_mem hreached) (AtEach.of_mem hreached) fun evaluation key hkey _ => by rw [h.resolve_eq hkey]
      have hfold' := hfold
      rw [List.foldlM_map, hkeys, List.foldlM_map] at hfold'
      simp only [ok_bind, hfold', h.resolve_eq mem_identityKeys_root]
  · have hcls' := mt (h.trees.applicability cls).mpr hcls
    rw [if_pos hcls, if_pos hcls']
    rfl

theorem capitalAdjustedNode_eq (cls : IssuerClass) : capitalAdjustedNode tree cls = capitalAdjustedNode tree' cls := by
  rw [capitalAdjustedNode, capitalAdjustedNode, ← h.decompositionOf_eq, ← h.trees.root, ← h.trees.key]

end

theorem requiredOperands_eq {nodes nodes' : List MetricNode} (h : List.Forall₂ NodeSame nodes nodes') (operands : List String) :
    ((operands.zip nodes).filter fun entry => entry.2.defaultWhenMissing.isNone).map Prod.fst =
      ((operands.zip nodes').filter fun entry => entry.2.defaultWhenMissing.isNone).map Prod.fst := by
  induction h generalizing operands with
  | nil => rfl
  | cons hhead _ ih =>
    cases operands with
    | nil => rfl
    | cons operand operands =>
      simp only [List.zip_cons_cons, List.filter_cons, ← hhead.defaultWhenMissing]
      split_ifs
      · rw [List.map_cons, List.map_cons, ih]
      · exact ih operands

theorem numeratorChain_alike (h : ContentSame forest tree forest' tree') (fuel : ℕ) (hkey : key ∈ identityKeys tree) :
    Alike NodeSame (numeratorChain forest tree cls fuel key) (numeratorChain forest' tree' cls fuel key) := by
  induction fuel generalizing key with
  | zero => exact .error _
  | succ fuel ih =>
    rw [numeratorChain, numeratorChain, ← h.decompositionOf_eq key, ← h.trees.key]
    cases hchain : tree.decompositionOf key with
    | none => exact h.node_alike hkey
    | some chain =>
      cases hformula : chain.formulaId with
      | identity =>
        cases hoperands : chain.operands cls with
        | none =>
          simp only [hformula, hoperands]
          exact .error _
        | some operands =>
          match operands, hoperands with
          | [operand], hoperands =>
            simp only [hformula, hoperands]
            exact ih (operand_mem hchain hoperands List.mem_cons_self)
          | [], hoperands | _ :: _ :: _, hoperands =>
            simp only [hformula, hoperands]
            exact .error _
      | sum =>
        cases hoperands : chain.operands cls with
        | none =>
          simp only [hformula, hoperands]
          exact .error _
        | some operands =>
          simp only [hformula, hoperands]
          have hnodes : Alike (List.Forall₂ NodeSame) (operands.mapM forest.node) (operands.mapM forest'.node) :=
            Alike.mapM (List.forall₂_same.mpr fun operand hoperand =>
              h.node_alike (operand_mem hchain hoperands hoperand))
          refine hnodes.bind fun nodes nodes' hsame => ?_
          have hrequired := requiredOperands_eq hsame operands
          have hmem : ∀ entry ∈ (operands.zip nodes).filter fun entry => entry.2.defaultWhenMissing.isNone,
              entry.1 ∈ operands := fun entry hentry => (List.of_mem_zip (List.mem_filter.mp hentry).1).1
          generalize (operands.zip nodes).filter _ = required at hrequired hmem
          generalize (operands.zip nodes').filter _ = required' at hrequired
          match required, required', hrequired with
          | [(operand, _)], [(operand', _)], hrequired =>
            obtain rfl : operand = operand' := (List.cons.inj hrequired).1
            exact ih (operand_mem hchain hoperands (hmem _ List.mem_cons_self))
          | [], [], _ => exact .error _
          | _ :: _ :: _, _ :: _ :: _, _ => exact .error _
          | [], _ :: _, hrequired | _ :: _, [], hrequired => cases hrequired
          | [_], _ :: _ :: _, hrequired | _ :: _ :: _, [_], hrequired => cases (List.cons.inj hrequired).2
      | difference | product | ratio | nonNegative =>
        simp only [hformula]
        exact .error _

theorem operatingNumeratorNode_alike (h : ContentSame forest tree forest' tree') (cls : IssuerClass) :
    Alike NodeSame (operatingNumeratorNode forest tree cls) (operatingNumeratorNode forest' tree' cls) := by
  rw [operatingNumeratorNode, operatingNumeratorNode, ← h.capitalAdjustedNode_eq]
  cases capitalAdjustedNode tree cls with
  | error e => exact .error e
  | ok capitalAdjusted =>
    simp only [ok_bind]
    rw [← h.decompositionOf_eq, ← h.trees.key, ← h.depth_eq]
    cases hdecomposition : tree.decompositionOf capitalAdjusted with
    | none => exact .error _
    | some decomposition =>
      by_cases hformula : decomposition.formulaId ≠ .difference
      · simp only [if_pos hformula]
        exact .error _
      · simp only [if_neg hformula]
        match hoperands : decomposition.operands cls with
        | some (key :: rest) =>
          exact h.numeratorChain_alike _ (operand_mem hdecomposition hoperands List.mem_cons_self)
        | some [] | none => exact .error _

end ContentSame

structure SameComputation (forest : Forest) (tree : MetricTree) (forest' : Forest) (tree' : MetricTree) : Prop where
  requiredInputs : ∀ cls, Alike (List.Forall₂ NodeSame) (requiredInputs forest tree cls) (requiredInputs forest' tree' cls)
  evaluate : ∀ cls inputs, evaluate forest tree cls inputs = evaluate forest' tree' cls inputs
  capitalAdjustedNode : ∀ cls, capitalAdjustedNode tree cls = capitalAdjustedNode tree' cls
  operatingNumeratorNode : ∀ cls,
    Alike NodeSame (operatingNumeratorNode forest tree cls) (operatingNumeratorNode forest' tree' cls)

theorem ContentSame.computation {forest forest' : Forest} {tree tree' : MetricTree}
    (h : ContentSame forest tree forest' tree') : SameComputation forest tree forest' tree' where
  requiredInputs cls := (h.requiredInputs_alike cls).imp fun _ _ hnodes => hnodes.imp fun _ _ hab => hab.1
  evaluate := h.evaluate_same
  capitalAdjustedNode := h.capitalAdjustedNode_eq
  operatingNumeratorNode := h.operatingNumeratorNode_alike

section

variable (sha256 : Json → String) (contents : Set Json) {forest forest' : Forest} {tree tree' : MetricTree}

theorem contentSame_of_treeSha256 (hfree : Set.InjOn sha256 contents)
    (htree : tree ∈ forest.trees) (htree' : tree' ∈ forest'.trees)
    (hcontent : ∀ content, treeContent forest tree = .ok content → content ∈ contents)
    (hcontent' : ∀ content, treeContent forest' tree' = .ok content → content ∈ contents)
    (h : treeSha256 sha256 forest tree = treeSha256 sha256 forest' tree') : ContentSame forest tree forest' tree' := by
  obtain ⟨content, hc⟩ := exists_treeContent htree
  obtain ⟨content', hc'⟩ := exists_treeContent htree'
  rw [treeSha256, treeSha256, hc, hc'] at h
  obtain rfl := hfree (hcontent content hc) (hcontent' content' hc') h
  obtain ⟨hsame, hnodes⟩ := same_of_treeContent hc hc'
  exact ⟨hsame, hnodes⟩

/-- Two registered trees of one hash compute the same, so a bound tree computes what its pin does. -/
theorem tree_pin_binds (hfree : Set.InjOn sha256 contents) (htree : tree ∈ forest.trees) (htree' : tree' ∈ forest'.trees)
    (hcontent : ∀ content, treeContent forest tree = .ok content → content ∈ contents)
    (hcontent' : ∀ content, treeContent forest' tree' = .ok content → content ∈ contents) :
    (treeSha256 sha256 forest tree = treeSha256 sha256 forest' tree' → SameComputation forest tree forest' tree') ∧
      ∀ (definition : StrategyDefinition) (pins : Option (Dict String LaborEfficiencyTreePin)) (cls : IssuerClass)
        (pinned : Dict String LaborEfficiencyTreePin) (pin : LaborEfficiencyTreePin),
        effectivePins definition pins = .ok pinned → pinned.get? cls.value = some pin →
        pin.treeSha256 = treeSha256 sha256 forest tree →
        boundTree (treeSha256 sha256) forest' definition pins cls = .ok tree' →
        SameComputation forest tree forest' tree' := by
  have hbinds : treeSha256 sha256 forest tree = treeSha256 sha256 forest' tree' →
      SameComputation forest tree forest' tree' := fun h =>
    (contentSame_of_treeSha256 sha256 contents hfree htree htree' hcontent hcontent' h).computation
  refine ⟨hbinds, fun definition pins cls pinned pin hpinned hpin hhash hbound => hbinds ?_⟩
  rw [← hhash]
  exact (boundTree_sha256 hpinned hpin hbound).symm

end

def uniformForest : Forest where
  nodes := [Registry.gppe, Registry.laborEfficiency, Registry.totalAssets, Registry.grossProfit,
    Registry.preProvisionProfit, Registry.employeesTotal, Registry.riskFreeRate, Registry.operatingGrossProfit,
    Registry.capitalCharge, Registry.capitalAdjustedGrossProfit]
  trees := [Registry.gppeV0Tree]
  consistent := by decide +kernel
  applicable := by decide +kernel
  validated := by decide +kernel

def uniformSha256 (content : Json) : String :=
  if treeContent registeredForest Registry.gppeV0Tree = .ok content then uniformPin.treeSha256 else ""

/-- The live definition is bound to another forest's uniform tree, which computes the same. -/
theorem tree_pin_binds_uniform :
    (∃ tree, boundTree (treeSha256 uniformSha256) uniformForest liveStrategyDefinition none .nonFinancial = .ok tree) ∧
      SameComputation registeredForest Registry.gppeV0Tree uniformForest Registry.gppeV0Tree := by
  have hsame : treeContent uniformForest Registry.gppeV0Tree = treeContent registeredForest Registry.gppeV0Tree := by
    decide +kernel
  have hhash : treeSha256 uniformSha256 registeredForest Registry.gppeV0Tree =
      treeSha256 uniformSha256 uniformForest Registry.gppeV0Tree := by
    rw [treeSha256, treeSha256, hsame]
  refine ⟨?_, (tree_pin_binds uniformSha256
    {content | treeContent registeredForest Registry.gppeV0Tree = .ok content} ?_ ?_ ?_ ?_ ?_).1 hhash⟩
  · have hbound : (boundTree (treeSha256 uniformSha256) uniformForest liveStrategyDefinition none
        .nonFinancial).toOption.any fun _ => true := by decide +kernel
    obtain ⟨tree, htree, -⟩ := exists_ok_of_any hbound
    exact ⟨tree, htree⟩
  · intro a ha b hb _
    exact Except.ok.inj (ha.symm.trans hb)
  · exact List.mem_cons_self
  · exact List.mem_cons_self
  · exact fun _ hcontent => hcontent
  · exact fun _ hcontent => hsame ▸ hcontent

end TrueAlpha
