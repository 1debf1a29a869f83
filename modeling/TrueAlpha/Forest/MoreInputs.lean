import TrueAlpha.Forest.Reach
import TrueAlpha.Forest.Shared

/-!
# An evaluation with more inputs

No formula takes an undefined operand, so inputs that add what was missing and has no default leave every defined node as it
was.
-/

namespace TrueAlpha

def Extends (forest : Forest) (inputs inputs' : Dict String (Option ℚ)) : Prop :=
  ∀ key, (inputs'.get? key).join = (inputs.get? key).join ∨ (inputs.get? key).join = none ∧
    ∀ node, forest.node key = .ok node → node.defaultWhenMissing = none

section

variable {forest : Forest} {tree : MetricTree} {cls : IssuerClass} {inputs inputs' : Dict String (Option ℚ)}
  {fuel : ℕ} {key : String} {value : ℚ}

theorem extends_set {given : Option ℚ} (habsent : (inputs.get? key).join = none)
    (hdefault : ∀ node, forest.node key = .ok node → node.defaultWhenMissing = none) :
    Extends forest inputs (inputs.set key given) := by
  intro other
  by_cases hother : key = other
  · subst hother
    exact Or.inr ⟨habsent, hdefault⟩
  · rw [Dict.get?_set_of_ne _ _ hother]
    exact Or.inl rfl

theorem Extends.leafMeaning (h : Extends forest inputs inputs') {node : MetricNode} (hnode : forest.node key = .ok node)
    (hvalue : leafMeaning node (inputs.get? key).join = .ok value) :
    TrueAlpha.leafMeaning node (inputs'.get? key).join = .ok value := by
  rcases h key with hsame | ⟨habsent, hdefault⟩
  · rw [hsame]
    exact hvalue
  · rw [habsent, TrueAlpha.leafMeaning, hdefault node hnode] at hvalue
    cases hvalue

theorem values_of_derivedMeaning {context : Context} {formula : FormulaId} {ms : List Meaning}
    (h : derivedMeaning context formula ms = .ok value) : ∀ m ∈ ms, ∃ operand, m = .ok operand := by
  unfold derivedMeaning at h
  cases hvalues : ms.mapM Meaning.value with
  | none =>
    rw [hvalues] at h
    cases h
  | some values => exact value_of_mapM_value hvalues

theorem Extends.meaning (h : Extends forest inputs inputs') (hvalue : meaning forest tree cls inputs fuel key = .ok (.ok value)) :
    TrueAlpha.meaning forest tree cls inputs' fuel key = .ok (.ok value) := by
  induction fuel generalizing key value with
  | zero => cases hvalue
  | succ fuel ih =>
    rw [TrueAlpha.meaning] at hvalue ⊢
    cases hdecomposition : tree.decompositionOf key with
    | none =>
      simp only [hdecomposition] at hvalue ⊢
      obtain ⟨node, hnode, hleaf⟩ := map_eq_ok_iff.mp hvalue
      exact map_eq_ok_iff.mpr ⟨node, hnode, h.leafMeaning hnode hleaf⟩
    | some decomposition =>
      cases hoperands : decomposition.operands cls with
      | none => simp [hdecomposition, hoperands] at hvalue
      | some names =>
        simp only [hdecomposition, hoperands] at hvalue ⊢
        obtain ⟨ms, hms, hderived⟩ := map_eq_ok_iff.mp hvalue
        -- every operand has a value, which it keeps
        have hdefined := values_of_derivedMeaning hderived
        have hkept : names.mapM (TrueAlpha.meaning forest tree cls inputs' fuel) = .ok ms := by
          rw [← hms]
          refine mapM_congr_mem fun name hname => ?_
          obtain ⟨m, hmem, hm⟩ := mem_of_mapM hms hname
          obtain ⟨operand, rfl⟩ := hdefined m hmem
          rw [hm]
          exact ih hm
        exact map_eq_ok_iff.mpr ⟨ms, hkept, hderived⟩

theorem mem_keys_of_evaluate (htree : tree ∈ forest.trees) {evaluation : TreeEvaluation}
    (h : evaluate forest tree cls inputs = .ok evaluation) {k : String} :
    k ∈ evaluation.values.keys ↔ Below tree cls tree.root k := by
  have hcls := applicable_of_evaluate h
  obtain ⟨nodes, hnodes, -⟩ := requiredInputs_spec htree hcls
  obtain ⟨hroot, hclosed, hbelow⟩ := evaluate_touches hnodes hcls h
  exact ⟨hbelow k, hclosed.touched hroot⟩

end

/-- Where the inputs are extended only at missing ones without a default, the evaluation returns too, keeps every value, and no
node becomes undefined. -/
theorem more_inputs_keep_values {forest : Forest} {tree : MetricTree} (htree : tree ∈ forest.trees) {cls : IssuerClass}
    {inputs inputs' : Dict String (Option ℚ)} (hextends : Extends forest inputs inputs') {evaluation : TreeEvaluation}
    (h : evaluate forest tree cls inputs = .ok evaluation) :
    ∃ evaluation', evaluate forest tree cls inputs' = .ok evaluation' ∧
      ∀ key value, evaluation.values.get? key = some (some value) →
        evaluation'.values.get? key = some (some value) ∧ key ∉ evaluation'.undefined.keys := by
  have hcls := applicable_of_evaluate h
  obtain ⟨nodes, hnodes, -⟩ := requiredInputs_spec htree hcls
  obtain ⟨evaluation', h', -⟩ := evaluate_spec htree hcls inputs' hnodes
  refine ⟨evaluation', h', fun key value hget => ?_⟩
  have hkey : key ∈ evaluation.values.keys := (Dict.mem_keys_iff _ _).mpr ⟨_, hget⟩
  have hkey' : key ∈ evaluation'.values.keys := (mem_keys_of_evaluate htree h').mpr ((mem_keys_of_evaluate htree h).mp hkey)
  obtain ⟨m, -, hm, hvalue, -⟩ := touched_of_evaluate htree h hkey
  obtain ⟨m', -, hm', hvalue', hreason'⟩ := touched_of_evaluate htree h' hkey'
  have hok : m = .ok value := by
    rw [hget] at hvalue
    cases m with
    | ok x =>
      cases hvalue
      rfl
    | error reason => cases hvalue
  have hkept := hextends.meaning (hok ▸ hm)
  rw [hm'] at hkept
  cases hkept
  refine ⟨hvalue', ?_⟩
  rw [Dict.mem_keys_iff, hreason']
  rintro ⟨reason, hreason⟩
  cases hreason

def returnsOnly : Dict String (Option ℚ) := Dict.empty.set Registry.financialReturns.key (some 100)

/-- The financial returns keep their value when the gross profit arrives. -/
theorem more_inputs_keep_values_return : ∃ evaluation evaluation',
    evaluate (returnForest 6 7 (by decide) (by decide)) (returnTree "1" 6) .nonFinancial returnsOnly =
      .ok evaluation ∧
    evaluate (returnForest 6 7 (by decide) (by decide)) (returnTree "1" 6) .nonFinancial
      (returnsOnly.set Registry.grossProfit.key (some 5)) = .ok evaluation' ∧
    evaluation.values.get? Registry.financialReturns.key = some (some 100) ∧
    evaluation'.values.get? Registry.financialReturns.key = some (some 100) := by
  have htree : returnTree "1" 6 ∈ (returnForest 6 7 (by decide) (by decide)).trees := by simp [returnForest]
  have hcls : IssuerClass.nonFinancial ∈ (returnTree "1" 6).applicability := List.mem_cons_self
  have hdefault : ∀ node, (returnForest 6 7 (by decide) (by decide)).node Registry.grossProfit.key = .ok node →
      node.defaultWhenMissing = none := by
    intro node hnode
    have hfound : (returnForest 6 7 (by decide) (by decide)).node Registry.grossProfit.key =
        .ok Registry.grossProfit := rfl
    rw [Forest.node_functional hnode hfound]
    rfl
  obtain ⟨nodes, hnodes, -⟩ := requiredInputs_spec htree hcls
  obtain ⟨evaluation, heval, -⟩ := evaluate_spec htree hcls returnsOnly hnodes
  have hbelow : Below (returnTree "1" 6) .nonFinancial (returnTree "1" 6).root Registry.financialReturns.key :=
    .step rfl rfl (List.mem_cons_of_mem _ List.mem_cons_self) (.refl _)
  obtain ⟨m, -, hm, hvalue, -⟩ := touched_of_evaluate htree heval ((mem_keys_of_evaluate htree heval).mpr hbelow)
  have hgiven : meaning (returnForest 6 7 (by decide) (by decide)) (returnTree "1" 6) .nonFinancial returnsOnly 2
      Registry.financialReturns.key = .ok (.ok 100) := rfl
  rw [meaning_functional hm hgiven] at hvalue
  obtain ⟨evaluation', heval', hkept⟩ := more_inputs_keep_values htree (extends_set rfl hdefault) heval
  exact ⟨evaluation, evaluation', heval, heval', hvalue, (hkept _ _ hvalue).1⟩

end TrueAlpha
