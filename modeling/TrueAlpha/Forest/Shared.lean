import TrueAlpha.Forest.Semantics

/-!
# A node that two trees reach

A derived node has one decomposition in the forest, but each tree computes in its own context.  Two trees of one precision agree
on a shared node; for any two other precisions some forest disagrees.
-/

namespace TrueAlpha

section

variable {forest : Forest} {tree tree' : MetricTree} {cls : IssuerClass}

theorem decompositionOf_agrees (htree : tree ∈ forest.trees) (htree' : tree' ∈ forest.trees) {bound : ℕ}
    {key : String} (h : Grounded forest tree cls Captured bound key) {decomposition : Decomposition}
    (hkey : tree'.decompositionOf key = some decomposition) : tree.decompositionOf key = some decomposition := by
  cases hdecomposition : tree.decompositionOf key with
  | none =>
    -- a leaf is captured, and an output is derived
    obtain ⟨node, hnode, hcaptured⟩ := h.leaf_holds hdecomposition
    obtain ⟨node', hnode', hderived⟩ := forest.decomposed_derived htree' hkey
    obtain rfl := Forest.node_functional hnode hnode'
    obtain hkind | hkind := hcaptured
    · rw [hderived] at hkind
      cases hkind
    · rw [hderived] at hkind
      cases hkind
  | some found =>
    have houtput : found.output = decomposition.output := by
      rw [MetricTree.output_of_decompositionOf hdecomposition, MetricTree.output_of_decompositionOf hkey]
    rw [forest.decomposition_unique htree htree' (MetricTree.mem_of_decompositionOf hdecomposition)
      (MetricTree.mem_of_decompositionOf hkey) houtput]

theorem meaning_agrees (inputs : Dict String (Option ℚ)) (htree : tree ∈ forest.trees) (htree' : tree' ∈ forest.trees)
    (hprecision : tree.decimalPrecision = tree'.decimalPrecision) {fuel : ℕ} {key : String}
    (h : Grounded forest tree cls Captured fuel key) (h' : Grounded forest tree' cls Captured fuel key) :
    meaning forest tree cls inputs fuel key = meaning forest tree' cls inputs fuel key := by
  induction fuel generalizing key with
  | zero => rfl
  | succ fuel ih =>
    have hcontext : tree.context = tree'.context := by
      rw [MetricTree.context, hprecision]
      rfl
    rw [meaning, meaning]
    cases hkey : tree.decompositionOf key with
    | none =>
      cases hkey' : tree'.decompositionOf key with
      | none => rfl
      | some decomposition =>
        rw [decompositionOf_agrees htree htree' h hkey'] at hkey
        cases hkey
    | some decomposition =>
      have hkey' := decompositionOf_agrees htree' htree h' hkey
      rw [hkey']
      cases hoperands : decomposition.operands cls with
      | none => simp only [hoperands]
      | some names =>
        simp only [hoperands, hcontext]
        have hmap := mapM_congr_mem fun name hname =>
          ih (h.operand hkey hoperands hname) (h'.operand hkey' hoperands hname)
        rw [hmap]

end

/-! ## The law, by the precisions of the trees -/

def SharedNodesAgree (precision precision' : ℕ) : Prop :=
  ∀ (forest : Forest) (tree tree' : MetricTree), tree ∈ forest.trees → tree' ∈ forest.trees →
    tree.decimalPrecision = precision → tree'.decimalPrecision = precision' →
    ∀ (cls : IssuerClass) (inputs : Dict String (Option ℚ)) (evaluation evaluation' : TreeEvaluation),
      evaluate forest tree cls inputs = .ok evaluation → evaluate forest tree' cls inputs = .ok evaluation' →
      ∀ key ∈ evaluation.values.keys, key ∈ evaluation'.values.keys → evaluation.values.get? key = evaluation'.values.get? key ∧
          evaluation.undefined.get? key = evaluation'.undefined.get? key

theorem applicable_of_evaluate {forest : Forest} {tree : MetricTree} {cls : IssuerClass}
    {inputs : Dict String (Option ℚ)} {evaluation : TreeEvaluation}
    (h : evaluate forest tree cls inputs = .ok evaluation) : cls ∈ tree.applicability := by
  by_contra hcls
  rw [evaluate, if_pos hcls] at h
  cases h

theorem touched_of_evaluate {forest : Forest} {tree : MetricTree} (htree : tree ∈ forest.trees)
    {cls : IssuerClass} {inputs : Dict String (Option ℚ)} {evaluation : TreeEvaluation}
    (h : evaluate forest tree cls inputs = .ok evaluation) {key : String} (hkey : key ∈ evaluation.values.keys) :
    ∃ m, Grounded forest tree cls Captured tree.depth key ∧
      meaning forest tree cls inputs tree.depth key = .ok m ∧ evaluation.values.get? key = some m.value ∧
      evaluation.undefined.get? key = m.reason := by
  have hcls := applicable_of_evaluate h
  obtain ⟨nodes, hnodes, -, -⟩ := requiredInputs_spec htree hcls
  obtain ⟨evaluation', heval, hsound, -⟩ := evaluate_spec htree hcls inputs hnodes
  rw [h] at heval
  cases heval
  obtain ⟨value, hget⟩ := (Dict.mem_keys_iff _ _).mp hkey
  obtain ⟨m, hgrounded, hm, rfl, hreason⟩ := hsound.touched key value hget
  exact ⟨m, hgrounded, hm, hget, hreason⟩

theorem sharedNodesAgree_self (precision : ℕ) : SharedNodesAgree precision precision := by
  intro forest tree tree' htree htree' hprecision hprecision' cls inputs evaluation evaluation' h h' key hkey hkey'
  obtain ⟨m, hgrounded, hm, hvalue, hreason⟩ := touched_of_evaluate htree h hkey
  obtain ⟨m', hgrounded', hm', hvalue', hreason'⟩ := touched_of_evaluate htree' h' hkey'
  have hl := le_max_left tree.depth tree'.depth
  have hr := le_max_right tree.depth tree'.depth
  have hagree := meaning_agrees inputs htree htree' (hprecision.trans hprecision'.symm)
    (hgrounded.mono hl) (hgrounded'.mono hr)
  rw [meaning_mono hm hl, meaning_mono hm' hr] at hagree
  cases hagree
  rw [hvalue, hvalue', hreason, hreason']
  exact ⟨rfl, rfl⟩

/-! ### Trees of two precisions -/

def returnTree (version : String) (precision : ℕ) : MetricTree where
  key := "gross_return"
  version := version
  realizes := Registry.laborEfficiency.key
  root := Registry.totalGrossReturn.key
  applicability := [.nonFinancial]
  decompositions :=
    [{ output := Registry.totalGrossReturn.key, formulaId := .sum
       operands := fun cls =>
        if cls = .nonFinancial then some [Registry.grossProfit.key, Registry.financialReturns.key] else none
       bound := by decide, arity := by decide }]
  decimalPrecision := precision

def returnForest (precision precision' : ℕ) (h : 1 ≤ precision) (h' : 1 ≤ precision') : Forest where
  nodes := [Registry.laborEfficiency, Registry.grossProfit, Registry.financialReturns, Registry.totalGrossReturn]
  trees := [returnTree "1" precision, returnTree "2" precision']
  consistent := by decide +kernel
  applicable := by
    simpa [returnTree] using ⟨h, h'⟩
  validated := by rfl

def returnInputs (grossProfit financialReturns : ℚ) : Dict String (Option ℚ) :=
  Dict.ofList [(Registry.grossProfit.key, some grossProfit), (Registry.financialReturns.key, some financialReturns)]

section

variable {precision precision' : ℕ} (h : 1 ≤ precision) (h' : 1 ≤ precision') (x y : ℚ)

theorem returnTree_value {version : String} {declared : ℕ}
    (htree : returnTree version declared ∈ (returnForest precision precision' h h').trees) :
    ∃ evaluation, evaluate (returnForest precision precision' h h') (returnTree version declared) .nonFinancial
        (returnInputs x y) = .ok evaluation ∧
      evaluation.values.get? Registry.totalGrossReturn.key = some (some ((⟨declared⟩ : Context).add x y)) := by
  have hcls : IssuerClass.nonFinancial ∈ (returnTree version declared).applicability := List.mem_cons_self
  obtain ⟨nodes, hnodes, -, -⟩ := requiredInputs_spec htree hcls
  obtain ⟨evaluation, heval, hsound, htouched⟩ := evaluate_spec htree hcls (returnInputs x y) hnodes
  obtain ⟨m, -, hm, hvalue, -⟩ := touched_of_evaluate htree heval (htouched _ List.mem_cons_self)
  have hroot : meaning (returnForest precision precision' h h') (returnTree version declared) .nonFinancial
      (returnInputs x y) 2 Registry.totalGrossReturn.key = .ok (.ok ((⟨declared⟩ : Context).add x y)) := rfl
  rw [meaning_functional hm hroot] at hvalue
  exact ⟨evaluation, heval, hvalue⟩

theorem add_ne_of_lt (h : 1 ≤ precision) (hlt : precision < precision') :
    (⟨precision⟩ : Context).add (10 ^ precision) 1 ≠ (⟨precision'⟩ : Context).add (10 ^ precision) 1 := by
  have hrounded : (⟨precision⟩ : Context).round (10 ^ precision + 1) = 10 ^ precision := Context.round_pow_add_one h
  have hfits : 10 ^ precision + 1 < 10 ^ precision' := by
    have hpos : 1 ≤ 10 ^ precision := Nat.one_le_pow _ _ (by decide)
    have hpow : 10 ^ (precision + 1) ≤ 10 ^ precision' := Nat.pow_le_pow_right (by decide) hlt
    rw [pow_succ] at hpow
    omega
  have hkept : (⟨precision'⟩ : Context).round (10 ^ precision + 1) = 10 ^ precision + 1 := by
    simpa using Context.round_of_lt ⟨precision'⟩ hfits
  rw [Context.add, Context.add, hrounded, hkept]
  simp

end

/-- The law holds for all forests, inputs and nodes exactly when the trees declare one precision. -/
theorem shared_nodes_agree_iff {precision precision' : ℕ} (h : 1 ≤ precision) (h' : 1 ≤ precision') :
    SharedNodesAgree precision precision' ↔ precision = precision' := by
  constructor
  · intro hagree
    by_contra hne
    have hlaw : ∀ x : ℚ, (⟨precision⟩ : Context).add x 1 = (⟨precision'⟩ : Context).add x 1 := by
      intro x
      have hfirst : returnTree "1" precision ∈ (returnForest precision precision' h h').trees := by
        simp [returnForest]
      have hsecond : returnTree "2" precision' ∈ (returnForest precision precision' h h').trees := by
        simp [returnForest]
      obtain ⟨evaluation, heval, hvalue⟩ := returnTree_value h h' x 1 hfirst
      obtain ⟨evaluation', heval', hvalue'⟩ := returnTree_value h h' x 1 hsecond
      have hshared := hagree _ _ _ hfirst hsecond rfl rfl _ _ evaluation evaluation' heval heval' _
        ((Dict.mem_keys_iff _ _).mpr ⟨_, hvalue⟩) ((Dict.mem_keys_iff _ _).mpr ⟨_, hvalue'⟩)
      rw [hvalue, hvalue'] at hshared
      exact Option.some.inj (Option.some.inj hshared.1)
    obtain hlt | hlt := Nat.lt_or_gt_of_ne hne
    · exact add_ne_of_lt h hlt (hlaw _)
    · exact add_ne_of_lt h' hlt (hlaw _).symm
  · intro heq
    rw [heq]
    exact sharedNodesAgree_self precision'

/-- The registered trees declare 34 digits. -/
theorem shared_nodes_agree_registered : SharedNodesAgree 34 34 :=
  (shared_nodes_agree_iff (by decide) (by decide)).mpr rfl

/-- A gross return of one million and one, in seven digits and in six. -/
theorem shared_node_differs : ∃ evaluation evaluation',
      evaluate (returnForest 6 7 (by decide) (by decide)) (returnTree "1" 6) .nonFinancial
        (returnInputs 1000000 1) = .ok evaluation ∧
      evaluate (returnForest 6 7 (by decide) (by decide)) (returnTree "2" 7) .nonFinancial
        (returnInputs 1000000 1) = .ok evaluation' ∧
      evaluation.values.get? "total_gross_return" = some (some 1000000) ∧
      evaluation'.values.get? "total_gross_return" = some (some 1000001) := by
  have hfirst : returnTree "1" 6 ∈ (returnForest 6 7 (by decide) (by decide)).trees := by simp [returnForest]
  have hsecond : returnTree "2" 7 ∈ (returnForest 6 7 (by decide) (by decide)).trees := by simp [returnForest]
  obtain ⟨evaluation, heval, hvalue⟩ := returnTree_value _ _ 1000000 1 hfirst
  obtain ⟨evaluation', heval', hvalue'⟩ := returnTree_value _ _ 1000000 1 hsecond
  refine ⟨evaluation, evaluation', heval, heval', ?_, ?_⟩
  · rw [show "total_gross_return" = Registry.totalGrossReturn.key from rfl, hvalue]
    decide +kernel
  · rw [show "total_gross_return" = Registry.totalGrossReturn.key from rfl, hvalue']
    decide +kernel

end TrueAlpha
