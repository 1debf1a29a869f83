import TrueAlpha.Forest.Binding
import TrueAlpha.Forest.MoreInputs

/-!
# The operating numerator

`operating_numerator_node` goes down from the first operand of the capital-adjusted node and skips the addends with a default.
It ends on a validated forest (`numeratorChain_spec`); the operand is the leaf plus what was skipped (`path_value`).
-/

namespace TrueAlpha

abbrev Skipped := List (List String × List String)

inductive NumeratorPath (forest : Forest) (tree : MetricTree) (cls : IssuerClass) :
    String → Skipped → MetricNode → Prop
  | leaf {key : String} {node : MetricNode} (undecomposed : tree.decompositionOf key = none)
      (registered : forest.node key = .ok node) : NumeratorPath forest tree cls key [] node
  | identity {key operand : String} {chain : Decomposition} {skipped : Skipped} {node : MetricNode}
      (decomposed : tree.decompositionOf key = some chain) (formula : chain.formulaId = .identity)
      (bound_for : chain.operands cls = some [operand]) (rest : NumeratorPath forest tree cls operand skipped node) :
      NumeratorPath forest tree cls key skipped node
  | sum {key operand : String} {chain : Decomposition} {before after : List String}
      {skipped : Skipped} {node : MetricNode}
      (decomposed : tree.decompositionOf key = some chain) (formula : chain.formulaId = .sum)
      (bound_for : chain.operands cls = some (before ++ operand :: after))
      (defaulted : ∀ name ∈ before ++ after, ∃ addend, forest.node name = .ok addend ∧ addend.defaultWhenMissing.isSome)
      (rest : NumeratorPath forest tree cls operand skipped node) :
      NumeratorPath forest tree cls key ((before, after) :: skipped) node

def FirstOperand (tree : MetricTree) (cls : IssuerClass) (key operand : String) : Prop :=
  ∃ decomposition rest, tree.decompositionOf key = some decomposition ∧ decomposition.operands cls = some (operand :: rest)

variable {decomposition : Decomposition} {operands : List String}

section

variable {forest : Forest} {tree : MetricTree} {cls : IssuerClass} {P : String → MetricNode → Prop} {bound fuel : ℕ}
  {key : String}

theorem Grounded.under (h : Grounded forest tree cls P bound key) (hkey : tree.decompositionOf key = some decomposition) :
    ∃ operands, decomposition.operands cls = some operands ∧ ∀ operand ∈ operands, Grounded forest tree cls P bound operand := by
  cases h with
  | leaf undecomposed _ _ =>
    rw [hkey] at undecomposed
    cases undecomposed
  | derived decomposed bound_for under =>
    rw [hkey] at decomposed
    cases decomposed
    exact ⟨_, bound_for, fun operand hoperand => (under operand hoperand).mono (Nat.le_succ _)⟩

theorem two_operands
    (h : ∀ count, decomposition.formulaId.accepts count = true → count = 2) (hoperands : decomposition.operands cls = some operands) :
    ∃ first second, operands = [first, second] :=
  List.length_eq_two.mp (h _ (decomposition.arity cls (by cases cls <;> decide) operands hoperands))

theorem mapM_node (htree : tree ∈ forest.trees) {chain : Decomposition}
    (hkey : tree.decompositionOf key = some chain) (hoperands : chain.operands cls = some operands) :
    ∃ nodes, operands.mapM forest.node = .ok nodes := by
  refine exists_mapM_ok fun operand hoperand => ?_
  obtain ⟨node, hnode, -⟩ := forest.operand_registered htree (MetricTree.mem_of_decompositionOf hkey) hoperands hoperand
  exact ⟨node, hnode⟩

theorem only_required {nodes : List MetricNode} {entry : String × MetricNode} (hnodes : operands.mapM forest.node = .ok nodes)
    (h : (operands.zip nodes).filter (fun entry => entry.2.defaultWhenMissing.isNone) = [entry]) :
    ∃ before after, operands = before ++ entry.1 :: after ∧
      ∀ name ∈ before ++ after, ∃ addend, forest.node name = .ok addend ∧ addend.defaultWhenMissing.isSome := by
  have hforall := mapM_eq_ok_iff.mp hnodes
  obtain ⟨before, after, hsplit, hbefore, -, hafter⟩ := List.filter_eq_cons_iff.mp h
  refine ⟨before.map Prod.fst, after.map Prod.fst, ?_, fun name hname => ?_⟩
  · rw [← List.map_cons, ← List.map_append, ← hsplit, List.map_fst_zip hforall.length_eq.le]
  · rw [← List.map_append] at hname
    obtain ⟨⟨name, addend⟩, hmem, rfl⟩ := List.mem_map.mp hname
    have hzip : (name, addend) ∈ operands.zip nodes := by
      rw [hsplit]
      simp only [List.mem_append, List.mem_cons] at hmem ⊢
      tauto
    refine ⟨addend, (List.forall₂_iff_zip.mp hforall).2 hzip, ?_⟩
    rcases List.mem_append.mp hmem with hmem | hmem
    · simpa [Option.isSome_iff_ne_none] using hbefore _ hmem
    · simpa [Option.isSome_iff_ne_none] using List.filter_eq_nil_iff.mp hafter _ hmem

theorem numeratorChain_spec (htree : tree ∈ forest.trees) (h : Grounded forest tree cls P bound key) (hle : bound ≤ fuel) :
    numeratorChain forest tree cls fuel key = .error (.noNumerator tree.key) ∨
      ∃ node skipped, numeratorChain forest tree cls fuel key = .ok node ∧ P node.key node ∧
        NumeratorPath forest tree cls key skipped node := by
  induction h generalizing fuel with
  | leaf undecomposed registered holds =>
    obtain ⟨fuel, rfl⟩ := Nat.exists_eq_succ_of_ne_zero (Nat.ne_of_gt (Nat.zero_lt_of_lt hle))
    rw [numeratorChain, undecomposed]
    exact .inr ⟨_, [], registered, (Forest.key_of_node registered).symm ▸ holds, .leaf undecomposed registered⟩
  | @derived bound key chain operands decomposed bound_for _ ih =>
    obtain ⟨fuel, rfl⟩ := Nat.exists_eq_succ_of_ne_zero (Nat.ne_of_gt (Nat.zero_lt_of_lt hle))
    have hle := Nat.le_of_succ_le_succ hle
    have harity := chain.arity cls (by cases cls <;> decide) operands bound_for
    rw [numeratorChain, decomposed]
    cases hformula : chain.formulaId with
    | identity =>
      rw [hformula] at harity
      obtain ⟨operand, rfl⟩ := List.length_eq_one_iff.mp (by simpa [FormulaId.accepts] using harity)
      simp only [hformula, bound_for]
      rcases ih operand List.mem_cons_self hle with herror | ⟨node, skipped, hnode, hP, hpath⟩
      · exact .inl herror
      · exact .inr ⟨node, skipped, hnode, hP, .identity decomposed hformula bound_for hpath⟩
    | sum =>
      obtain ⟨nodes, hnodes⟩ := mapM_node htree decomposed bound_for
      simp only [hformula, bound_for, hnodes, ok_bind]
      rcases hrequired : (operands.zip nodes).filter fun entry => entry.2.defaultWhenMissing.isNone with
        _ | ⟨⟨operand, required⟩, _ | ⟨second, rest⟩⟩
      · exact .inl (by simp only [hrequired])
      · obtain ⟨before, after, hsplit, hdefaulted⟩ := only_required hnodes hrequired
        simp only [hrequired]
        rcases ih operand (hsplit ▸ List.mem_append_right _ List.mem_cons_self) hle with
          herror | ⟨node, skipped, hnode, hP, hpath⟩
        · exact .inl herror
        · exact .inr ⟨node, _, hnode, hP, .sum decomposed hformula (hsplit ▸ bound_for) hdefaulted hpath⟩
      · exact .inl (by simp only [hrequired])
    | difference | product | ratio | nonNegative => exact .inl (by simp only [hformula])

variable {inputs : Dict String (Option ℚ)} {evaluation : TreeEvaluation} {value : ℚ}

def TreeEvaluation.valueAt (evaluation : TreeEvaluation) (key : String) : ℚ := (evaluation.values.get? key).join.getD 0

theorem meaning_of_value (htree : tree ∈ forest.trees) (h : evaluate forest tree cls inputs = .ok evaluation)
    (hvalue : evaluation.values.get? key = some (some value)) : meaning forest tree cls inputs tree.depth key = .ok (.ok value) := by
  obtain ⟨m, -, hm, hget, -⟩ := touched_of_evaluate htree h ((Dict.mem_keys_iff _ _).mpr ⟨_, hvalue⟩)
  rw [hvalue] at hget
  cases m with
  | ok x =>
    cases hget
    exact hm
  | error reason => cases hget

theorem values_eq_valueAt {names : List String} {ms : List Meaning} {values : List ℚ}
    (h : List.Forall₂ (fun name (m : Meaning) => evaluation.values.get? name = some m.value) names ms)
    (hvalues : ms.mapM Meaning.value = some values) :
    values = names.map evaluation.valueAt ∧
      ∀ name ∈ names, evaluation.values.get? name = some (some (evaluation.valueAt name)) := by
  induction h generalizing values with
  | nil =>
    cases hvalues
    exact ⟨rfl, by simp⟩
  | @cons name m _ _ hget _ ih =>
    simp only [List.mapM_cons, Option.bind_eq_bind, Option.bind_eq_some_iff] at hvalues
    obtain ⟨x, hx, rest, hrest, h⟩ := hvalues
    cases h
    obtain ⟨rfl, hnames⟩ := ih hrest
    rw [hx] at hget
    have hat : evaluation.valueAt name = x := by simp [TreeEvaluation.valueAt, hget]
    rw [List.map_cons, hat, List.forall_mem_cons, hat]
    exact ⟨rfl, hget, hnames⟩

theorem value_of_operands (htree : tree ∈ forest.trees) (h : evaluate forest tree cls inputs = .ok evaluation)
    (hvalue : evaluation.values.get? key = some (some value)) {names : List String}
    (hkey : tree.decompositionOf key = some decomposition) (hnames : decomposition.operands cls = some names) :
    (∀ name ∈ names, evaluation.values.get? name = some (some (evaluation.valueAt name))) ∧
      decomposition.formulaId.meaning tree.context (names.map evaluation.valueAt) = .ok value := by
  have hm := meaning_of_value htree h hvalue
  rw [MetricTree.depth, meaning, hkey] at hm
  simp only [hnames] at hm
  obtain ⟨ms, hms, hderived⟩ := map_eq_ok_iff.mp hm
  obtain ⟨nodes, hnodes, -⟩ := requiredInputs_spec htree (applicable_of_evaluate h)
  obtain ⟨-, hclosed, -⟩ := evaluate_touches hnodes (applicable_of_evaluate h) h
  have hget : List.Forall₂ (fun name (m : Meaning) => evaluation.values.get? name = some m.value) names ms := by
    have hnamed := (List.forall₂_and_left names ms).mpr ⟨fun _ hname => hname, mapM_eq_ok_iff.mp hms⟩
    refine hnamed.imp fun name m hnamed => ?_
    obtain ⟨hname, hm⟩ := hnamed
    obtain ⟨m', -, hm', hget, -⟩ := touched_of_evaluate htree h
      (hclosed key ((Dict.mem_keys_iff _ _).mpr ⟨_, hvalue⟩) _ hkey _ hnames _ hname)
    rw [meaning_functional hm hm']
    exact hget
  unfold derivedMeaning at hderived
  cases hvalues : ms.mapM Meaning.value with
  | none =>
    rw [hvalues] at hderived
    cases hderived
  | some values =>
    obtain ⟨rfl, hstored⟩ := values_eq_valueAt hget hvalues
    rw [hvalues] at hderived
    exact ⟨hstored, hderived⟩

def addendsIn (context : Context) : List ℚ → ℚ
  | [] => 0
  | value :: rest => rest.foldl context.add value

def addedBack (context : Context) (evaluation : TreeEvaluation) (skipped : Skipped) (own : ℚ) : ℚ :=
  skipped.foldr (fun addends value =>
    addendsIn context (addends.1.map evaluation.valueAt ++ value :: addends.2.map evaluation.valueAt)) own

theorem path_value (htree : tree ∈ forest.trees) (h : evaluate forest tree cls inputs = .ok evaluation)
    {skipped : Skipped} {node : MetricNode} (hpath : NumeratorPath forest tree cls key skipped node)
    (hvalue : evaluation.values.get? key = some (some value)) :
    ∃ own, leafValue forest inputs node.key = .ok (some own) ∧ value = addedBack tree.context evaluation skipped own := by
  induction hpath generalizing value with
  | leaf undecomposed registered =>
    have hm := meaning_of_value htree h hvalue
    rw [MetricTree.depth, meaning, undecomposed] at hm
    obtain ⟨node, hnode, hleaf⟩ := map_eq_ok_iff.mp hm
    obtain rfl := Forest.node_functional registered hnode
    refine ⟨value, ?_, rfl⟩
    rw [Forest.key_of_node registered, leafValue_eq registered, hleaf]
    rfl
  | identity decomposed formula bound_for _ ih =>
    obtain ⟨hoperand, hm⟩ := value_of_operands htree h hvalue decomposed bound_for
    rw [formula] at hm
    cases hm
    exact ih (hoperand _ List.mem_cons_self)
  | @sum _ operand _ before after _ _ decomposed formula bound_for _ _ ih =>
    obtain ⟨hoperand, hm⟩ := value_of_operands htree h hvalue decomposed bound_for
    obtain ⟨own, hown, hrest⟩ := ih (hoperand operand (by simp))
    refine ⟨own, hown, ?_⟩
    rw [formula, List.map_append, List.map_cons, hrest] at hm
    rw [addedBack, List.foldr_cons, ← addedBack]
    cases hlist : before.map evaluation.valueAt ++ addedBack tree.context evaluation _ own :: after.map evaluation.valueAt with
    | nil => simp at hlist
    | cons first rest =>
      rw [hlist] at hm
      cases hm
      rfl

/-- In every evaluation with a value at the capital-adjusted node, its first operand is the total of the returned leaf and the
skipped addends. -/
def NumeratorIs (total : TreeEvaluation → Skipped → ℚ → ℚ) (forest : Forest) (tree : MetricTree)
    (cls : IssuerClass) (node : MetricNode) : Prop :=
  ∃ capital numerator skipped, capitalAdjustedNode tree cls = .ok capital ∧ FirstOperand tree cls capital numerator ∧
    NumeratorPath forest tree cls numerator skipped node ∧
    ∀ inputs evaluation value, evaluate forest tree cls inputs = .ok evaluation →
      evaluation.values.get? capital = some (some value) →
      ∃ own, leafValue forest inputs node.key = .ok (some own) ∧
        evaluation.values.get? numerator = some (some (total evaluation skipped own))

end

/-- The loop ends: it refuses the tree, or returns a leaf that the tree requires of the class and the numerator reduces to. -/
theorem operating_numerator_reduces (forest : Forest) {tree : MetricTree} (htree : tree ∈ forest.trees) {cls : IssuerClass}
    (hcls : cls ∈ tree.applicability) :
    operatingNumeratorNode forest tree cls = .error (.noCapitalAdjustedNode tree.key) ∨
    operatingNumeratorNode forest tree cls = .error (.noNumerator tree.key) ∨
    ∃ node nodes, operatingNumeratorNode forest tree cls = .ok node ∧ requiredInputs forest tree cls = .ok nodes ∧
      node ∈ nodes ∧ NumeratorIs (addedBack tree.context) forest tree cls node := by
  obtain ⟨nodes, hnodes, hrequired, hgrounded⟩ := requiredInputs_spec htree hcls
  obtain ⟨⟨root, hroot, -⟩, -⟩ := forest.treeChecked htree
  obtain ⟨operands, hoperands, hunder⟩ := hgrounded.under hroot
  by_cases hratio : root.formulaId = .ratio
  · obtain ⟨capital, employees, rfl⟩ := two_operands (by simp [hratio, FormulaId.accepts]) hoperands
    have hcapital : capitalAdjustedNode tree cls = .ok capital := by
      simp only [capitalAdjustedNode, hroot, hratio, hoperands, ne_eq, not_true_eq_false, if_false]
    right
    simp only [operatingNumeratorNode, hcapital, ok_bind]
    rcases hdifference : tree.decompositionOf capital with _ | decomposition
    · exact .inl rfl
    by_cases hformula : decomposition.formulaId = .difference
    · obtain ⟨names, hnames, hunder⟩ := (hunder capital List.mem_cons_self).under hdifference
      obtain ⟨numerator, charge, rfl⟩ := two_operands (by simp [hformula, FormulaId.accepts]) hnames
      simp only [hformula, hnames, ne_eq, not_true_eq_false, if_false]
      rcases numeratorChain_spec htree (hunder numerator List.mem_cons_self) le_rfl with
        herror | ⟨node, skipped, hnode, hmem, hpath⟩
      · exact .inl herror
      · refine .inr ⟨node, nodes, hnode, hnodes, hmem, capital, numerator, skipped, hcapital, ⟨_, _, hdifference, hnames⟩, hpath,
          fun inputs evaluation value heval hvalue => ?_⟩
        obtain ⟨hstored, -⟩ := value_of_operands htree heval hvalue hdifference hnames
        have hnumerator := hstored numerator List.mem_cons_self
        obtain ⟨own, hown, htotal⟩ := path_value htree heval hpath hnumerator
        exact ⟨own, hown, htotal ▸ hnumerator⟩
    · simp only [hformula, ne_eq, not_false_eq_true, if_true]
      exact .inl rfl
  · left
    simp only [operatingNumeratorNode, capitalAdjustedNode, hroot, hratio, ne_eq, not_false_eq_true, if_true]
    rfl

theorem operating_numerator_reduces_registered :
    let tree := Registry.gppeOperatingFinancialTree
    operatingNumeratorNode registeredForest tree .insurance = .error (.noCapitalAdjustedNode tree.key) ∨
    operatingNumeratorNode registeredForest tree .insurance = .error (.noNumerator tree.key) ∨
    ∃ node nodes, operatingNumeratorNode registeredForest tree .insurance = .ok node ∧
      requiredInputs registeredForest tree .insurance = .ok nodes ∧ node ∈ nodes ∧
      NumeratorIs (addedBack ⟨34⟩) registeredForest tree .insurance node :=
  operating_numerator_reduces registeredForest (by simp [registeredForest, Registry.trees]) (by decide)

/-- A total of 35 digits in a tree that declares 34: the numerator is not the sum. -/
theorem numerator_rounded :
    let tree := Registry.gppeOperatingFinancialTree
    let capital := "capital_adjusted_operating_financial"
    let numerator := "total_gross_return"
    operatingNumeratorNode registeredForest tree .insurance = .ok Registry.grossProfit ∧
    capitalAdjustedNode tree .insurance = .ok capital ∧ FirstOperand tree .insurance capital numerator ∧
    NumeratorPath registeredForest tree .insurance numerator [([], ["financial_returns"])] Registry.grossProfit ∧
    ∃ inputs evaluation value, evaluate registeredForest tree .insurance inputs = .ok evaluation ∧
      evaluation.values.get? capital = some (some value) ∧
      leafValue registeredForest inputs "gross_profit" = .ok (some (10 ^ 34)) ∧
      evaluation.values.get? "financial_returns" = some (some 1) ∧
      evaluation.values.get? numerator ≠ some (some (10 ^ 34 + 1)) := by
  intro tree capital numerator
  have htree : tree ∈ registeredForest.trees := by simp [tree, registeredForest, Registry.trees]
  have hcls : IssuerClass.insurance ∈ tree.applicability := by decide
  obtain ⟨nodes, hnodes, -⟩ := requiredInputs_spec htree hcls
  let inputs : Dict String (Option ℚ) := Dict.ofList [("gross_profit", some (10 ^ 34)), ("financial_returns", some 1),
    ("total_assets", some 0), ("risk_free_rate", some 0), ("employees_total", some 1)]
  obtain ⟨evaluation, heval, -⟩ := evaluate_spec htree hcls inputs hnodes
  have hget : ∀ {key value}, Below tree .insurance tree.root key →
      meaning registeredForest tree .insurance inputs 4 key = .ok (.ok value) →
      evaluation.values.get? key = some (some value) := by
    intro key value hbelow hm
    obtain ⟨m, -, hm', hvalue, -⟩ := touched_of_evaluate htree heval ((mem_keys_of_evaluate htree heval).mpr hbelow)
    rw [hvalue, meaning_functional hm' hm]
    rfl
  have hcapital : Below tree .insurance tree.root capital := .step rfl rfl List.mem_cons_self (.refl _)
  have htotal := hcapital.trans (.step rfl rfl List.mem_cons_self (.refl numerator))
  have hreturns := htotal.trans (.step rfl rfl (List.mem_cons_of_mem _ List.mem_cons_self) (.refl "financial_returns"))
  have hrounded : evaluation.values.get? numerator = some (some ((⟨34⟩ : Context).add (10 ^ 34) 1)) := hget htotal rfl
  refine ⟨rfl, rfl, ⟨_, _, rfl, rfl⟩, ?_, inputs, evaluation, _, heval, hget hcapital rfl, rfl, hget hreturns rfl, ?_⟩
  · refine @NumeratorPath.sum _ _ _ _ _ _ [] _ _ _ rfl rfl rfl ?_ (.leaf rfl rfl)
    simp only [List.nil_append, List.mem_singleton, forall_eq]
    exact ⟨Registry.financialReturns, rfl, rfl⟩
  · rw [hrounded, Context.add, Context.round_pow_add_one (by decide)]
    norm_num

end TrueAlpha
