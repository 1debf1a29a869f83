import TrueAlpha.Forest.Registry
import TrueAlpha.Forest.Structure

/-!
# The meaning of a tree

The recursive semantics of the decompositions (`meaning`).  The memoized evaluation stores exactly this meaning at every node
that it touches; it never raises and reads the required inputs only.
-/

namespace TrueAlpha

abbrev Meaning := Except UndefinedReason ℚ

namespace Meaning

def value : Meaning → Option ℚ
  | .ok value => some value
  | .error _ => none

def reason : Meaning → Option UndefinedReason
  | .ok _ => none
  | .error reason => some reason

theorem reason_isSome_iff {m : Meaning} : m.reason.isSome ↔ m.value = none := by
  cases m with
  | ok x => simp [reason, value]
  | error r => simp [reason, value]

end Meaning

def FormulaId.meaning (context : Context) : FormulaId → List ℚ → Meaning
  | .identity, [value] => .ok value
  | .sum, value :: rest => .ok (rest.foldl context.add value)
  | .difference, [minuend, subtrahend] => .ok (context.sub minuend subtrahend)
  | .product, value :: rest => .ok (rest.foldl context.mul value)
  | .ratio, [numerator, denominator] =>
    if denominator = 0 then .error .zeroDenominator else .ok (context.round (numerator / denominator))
  | .nonNegative, [value] => if value < 0 then .error .negativeOperand else .ok value
  | _, _ => .error .undefinedOperand

def derivedMeaning (context : Context) (formula : FormulaId) (operands : List Meaning) : Meaning :=
  match operands.mapM Meaning.value with
  | none => .error .undefinedOperand
  | some values => formula.meaning context values

def leafMeaning (node : MetricNode) (given : Option ℚ) : Meaning :=
  match given.or node.defaultWhenMissing with
  | some value => .ok value
  | none => .error .missingInput

def meaning (forest : Forest) (tree : MetricTree) (cls : IssuerClass) (inputs : Dict String (Option ℚ)) :
    ℕ → String → Except ForestError Meaning
  | 0, _ => .error .recursion
  | fuel + 1, key =>
    match tree.decompositionOf key with
    | none => (forest.node key).map fun node => leafMeaning node (inputs.get? key).join
    | some decomposition =>
      match decomposition.operands cls with
      | none => .error (.unboundOperands key cls)
      | some names =>
        (names.mapM (meaning forest tree cls inputs fuel)).map
          (derivedMeaning tree.context decomposition.formulaId)

variable {nodes : List MetricNode} {inputs' : Dict String (Option ℚ)}

section

variable {forest : Forest} {tree : MetricTree} {cls : IssuerClass} {inputs : Dict String (Option ℚ)}
  {P : String → MetricNode → Prop} {bound fuel : ℕ} {key : String} {m : Meaning}

theorem Grounded.exists_meaning (inputs : Dict String (Option ℚ)) (h : Grounded forest tree cls P bound key) :
    ∃ m, meaning forest tree cls inputs bound key = .ok m := by
  induction h with
  | leaf undecomposed registered _ =>
    rw [meaning, undecomposed]
    exact ⟨_, map_eq_ok_iff.mpr ⟨_, registered, rfl⟩⟩
  | @derived bound _ decomposition _ decomposed bound_for _ ih =>
    obtain ⟨ms, hms⟩ := exists_mapM_ok ih
    refine ⟨derivedMeaning tree.context decomposition.formulaId ms, ?_⟩
    rw [meaning, decomposed]
    simp only [bound_for]
    exact map_eq_ok_iff.mpr ⟨ms, hms, rfl⟩

theorem meaning_mono {fuel' : ℕ} (h : meaning forest tree cls inputs fuel key = .ok m) (hle : fuel ≤ fuel') :
    meaning forest tree cls inputs fuel' key = .ok m := by
  induction fuel generalizing fuel' key m with
  | zero => cases h
  | succ fuel ih =>
    obtain ⟨fuel', rfl⟩ := Nat.exists_eq_succ_of_ne_zero (Nat.ne_of_gt (Nat.zero_lt_of_lt hle))
    rw [meaning] at h ⊢
    cases hdecomposition : tree.decompositionOf key with
    | none => simpa only [hdecomposition] using h
    | some decomposition =>
      cases hoperands : decomposition.operands cls with
      | none => simp [hdecomposition, hoperands] at h
      | some names =>
        simp only [hdecomposition, hoperands] at h ⊢
        obtain ⟨ms, hms, rfl⟩ := map_eq_ok_iff.mp h
        refine map_eq_ok_iff.mpr ⟨ms, mapM_eq_ok_iff.mpr ?_, rfl⟩
        exact (mapM_eq_ok_iff.mp hms).imp fun name m hm => ih hm (Nat.le_of_succ_le_succ hle)

theorem meaning_functional {fuel' : ℕ} {m' : Meaning} (h : meaning forest tree cls inputs fuel key = .ok m)
    (h' : meaning forest tree cls inputs fuel' key = .ok m') : m = m' := by
  have hl := meaning_mono h (Nat.le_max_left fuel fuel')
  have hr := meaning_mono h' (Nat.le_max_right fuel fuel')
  rw [hl] at hr
  exact Except.ok.inj hr

/-- What `required_inputs` collects: leaves, under their keys. -/
def Collected (forest : Forest) (tree : MetricTree) (P : String → MetricNode → Prop)
    (ordered : Dict String MetricNode) : Prop :=
  ∀ key node, ordered.get? key = some node → tree.decompositionOf key = none ∧ forest.node key = .ok node ∧ P key node

theorem visitLeaves_spec (h : Grounded forest tree cls P bound key) (hle : bound ≤ fuel)
    (ordered : Dict String MetricNode) (hordered : Collected forest tree P ordered) :
    ∃ ordered', visitLeaves forest tree cls fuel ordered key = .ok ordered' ∧ Collected forest tree P ordered' ∧
      (∀ k node, ordered.get? k = some node → ordered'.get? k = some node) ∧
      Grounded forest tree cls (fun k node => ordered'.get? k = some node) bound key := by
  induction h generalizing fuel ordered with
  | @leaf bound key node undecomposed registered holds =>
    obtain ⟨fuel, rfl⟩ := Nat.exists_eq_succ_of_ne_zero (Nat.ne_of_gt (Nat.zero_lt_of_lt hle))
    rw [visitLeaves, undecomposed]
    simp only [registered, ok_bind]
    by_cases hheld : (ordered.get? key).isSome
    · rw [if_pos hheld]
      obtain ⟨held, hget⟩ := Option.isSome_iff_exists.mp hheld
      obtain rfl := Forest.node_functional (hordered key held hget).2.1 registered
      exact ⟨ordered, rfl, hordered, fun _ _ hk => hk, .leaf undecomposed registered hget⟩
    · rw [if_neg hheld]
      rw [Option.not_isSome_iff_eq_none] at hheld
      refine ⟨ordered.set key node, rfl, fun k n hk => ?_, fun k n hk => ?_,
        .leaf undecomposed registered (Dict.get?_set_self _ _ _)⟩
      · rw [Dict.get?_set] at hk
        split_ifs at hk with heq
        · cases heq
          cases hk
          exact ⟨undecomposed, registered, holds⟩
        · exact hordered k n hk
      · rw [Dict.get?_set_of_ne, hk]
        intro heq
        rw [← heq, hheld] at hk
        cases hk
  | @derived bound key decomposition operands decomposed bound_for _ ih =>
    obtain ⟨fuel, rfl⟩ := Nat.exists_eq_succ_of_ne_zero (Nat.ne_of_gt (Nat.zero_lt_of_lt hle))
    have hle := Nat.le_of_succ_le_succ hle
    rw [visitLeaves, decomposed]
    simp only [bound_for]
    -- the invariant: the leaves of the operands visited so far are collected
    have htotal := foldlM_total (f := visitLeaves forest tree cls fuel)
      (fun done state => Collected forest tree P state ∧ (∀ k node, ordered.get? k = some node → state.get? k = some node) ∧
        ∀ operand ∈ done, Grounded forest tree cls (fun k node => state.get? k = some node) bound operand)
      operands (b := ordered) ⟨hordered, fun _ _ hk => hk, by simp⟩ ?_
    · obtain ⟨ordered', hvisit, hcollected, hextends, hunder⟩ := htotal
      exact ⟨ordered', hvisit, hcollected, hextends, .derived decomposed bound_for hunder⟩
    · intro done operand rest state hsplit ⟨hstate, hkept, hdone⟩
      have hmem : operand ∈ operands := by simp [hsplit]
      obtain ⟨state', hstep, hstate', hkept', hoperand⟩ := ih operand hmem hle state hstate
      refine ⟨state', hstep, hstate', fun k node hk => hkept' k node (hkept k node hk), fun name hname => ?_⟩
      obtain hname | hname := List.mem_append.mp hname
      · exact (hdone name hname).imp fun k node _ _ hk => hkept' k node hk
      · rw [List.mem_singleton.mp hname]
        exact hoperand

theorem requiredInputs_spec (htree : tree ∈ forest.trees) (hcls : cls ∈ tree.applicability) :
    ∃ nodes, requiredInputs forest tree cls = .ok nodes ∧
      (∀ node ∈ nodes, tree.decompositionOf node.key = none ∧ forest.node node.key = .ok node ∧ Captured node.key node) ∧
      Grounded forest tree cls (fun _ node => node ∈ nodes) tree.depth tree.root := by
  obtain ⟨ordered, hvisit, hcollected, -, hunder⟩ := visitLeaves_spec (grounded_root htree hcls) le_rfl
    Dict.empty (by simp [Collected])
  refine ⟨ordered.values, ?_, fun node hnode => ?_, hunder.imp fun _ _ _ _ => Dict.mem_values_of_get?⟩
  · rw [requiredInputs, if_neg (not_not_intro hcls), hvisit]
    rfl
  · obtain ⟨key, hget⟩ := Dict.exists_get?_of_mem_values hnode
    obtain ⟨hnone, hnode, hcaptured⟩ := hcollected key node hget
    rw [Forest.key_of_node hnode]
    exact ⟨hnone, hnode, hcaptured⟩

structure Sound (forest : Forest) (tree : MetricTree) (cls : IssuerClass) (inputs : Dict String (Option ℚ))
    (evaluation : TreeEvaluation) : Prop where
  touched : ∀ key value, evaluation.values.get? key = some value → ∃ m, Grounded forest tree cls Captured tree.depth key ∧
    meaning forest tree cls inputs tree.depth key = .ok m ∧ value = m.value ∧
    evaluation.undefined.get? key = m.reason
  untouched : ∀ key, evaluation.values.get? key = none → evaluation.undefined.get? key = none

theorem sound_empty : Sound forest tree cls inputs TreeEvaluation.empty := ⟨nofun, fun _ _ => rfl⟩

theorem Sound.record {evaluation : TreeEvaluation} (h : Sound forest tree cls inputs evaluation)
    (hkey : Grounded forest tree cls Captured tree.depth key)
    (hm : meaning forest tree cls inputs tree.depth key = .ok m) {reason : UndefinedReason}
    (hreason : ∀ r, m.reason = some r → r = reason) :
    Sound forest tree cls inputs (evaluation.record key m.value reason) := by
  have hundefined : ∀ k, (evaluation.record key m.value reason).undefined.get? k =
      if key = k then m.reason else evaluation.undefined.get? k := by
    intro k
    cases m with
    | ok x =>
      -- a key that is stored again has the same meaning, so no reason
      by_cases hk : key = k
      · subst hk
        rw [if_pos rfl]
        cases hget : evaluation.values.get? key with
        | none => exact h.untouched key hget
        | some value =>
          obtain ⟨m', -, hm', -, hundefined⟩ := h.touched key value hget
          obtain rfl := meaning_functional hm hm'
          exact hundefined
      · rw [if_neg hk]
        rfl
    | error r =>
      obtain rfl := hreason r rfl
      exact Dict.get?_set _ _ _ _
  constructor
  · intro k value hget
    rw [hundefined]
    by_cases hk : key = k
    · subst hk
      rw [TreeEvaluation.record, Dict.get?_set_self] at hget
      rw [if_pos rfl]
      exact ⟨m, hkey, hm, (Option.some.inj hget).symm, rfl⟩
    · rw [TreeEvaluation.record, Dict.get?_set_of_ne _ _ hk] at hget
      rw [if_neg hk]
      exact h.touched k value hget
  · intro k hget
    by_cases hk : key = k
    · subst hk
      rw [TreeEvaluation.record, Dict.get?_set_self] at hget
      cases hget
    · rw [TreeEvaluation.record, Dict.get?_set_of_ne _ _ hk] at hget
      rw [hundefined, if_neg hk]
      exact h.untouched k hget

theorem FormulaId.apply_spec (context : Context) (formula : FormulaId) {values : List ℚ} (h : formula.accepts values.length) :
    formula.apply context values = some (formula.meaning context values).value ∧
      ∀ reason, (formula.meaning context values).reason = some reason → formula.undefinedReason = some reason := by
  cases formula with
  | identity =>
    obtain ⟨value, rfl⟩ := List.length_eq_one_iff.mp (by simpa [accepts] using h)
    exact ⟨rfl, nofun⟩
  | sum =>
    cases values with
    | nil => cases h
    | cons value rest => exact ⟨rfl, nofun⟩
  | difference =>
    obtain ⟨minuend, subtrahend, rfl⟩ := List.length_eq_two.mp (by simpa [accepts] using h)
    exact ⟨rfl, nofun⟩
  | product =>
    cases values with
    | nil => cases h
    | cons value rest => exact ⟨rfl, nofun⟩
  | ratio =>
    obtain ⟨numerator, denominator, rfl⟩ := List.length_eq_two.mp (by simpa [accepts] using h)
    by_cases hzero : denominator = 0
    · simp [apply, FormulaId.meaning, Context.div, hzero, Meaning.value, Meaning.reason, undefinedReason]
    · simp [apply, FormulaId.meaning, Context.div, hzero, Meaning.value, Meaning.reason]
  | nonNegative =>
    obtain ⟨value, rfl⟩ := List.length_eq_one_iff.mp (by simpa [accepts] using h)
    by_cases hneg : value < 0
    · simp [apply, FormulaId.meaning, hneg, Meaning.value, Meaning.reason, undefinedReason]
    · simp [apply, FormulaId.meaning, hneg, Meaning.value, Meaning.reason]

theorem mapM_value_eq (ms : List Meaning) : (ms.map Meaning.value).mapM id = ms.mapM Meaning.value := by
  induction ms with
  | nil => rfl
  | cons m ms ih => simp [List.mapM_cons, ih]

theorem length_of_mapM_value {ms : List Meaning} {values : List ℚ} (h : ms.mapM Meaning.value = some values) :
    values.length = ms.length := by
  induction ms generalizing values with
  | nil =>
    cases h
    rfl
  | cons m ms ih =>
    simp only [List.mapM_cons, Option.bind_eq_bind, Option.bind_eq_some_iff] at h
    obtain ⟨value, -, rest, hrest, h⟩ := h
    cases h
    rw [List.length_cons, List.length_cons, ih hrest]

theorem derivedValue_spec (tree : MetricTree) {decomposition : Decomposition} {names : List String}
    (hnames : decomposition.operands cls = some names) {ms : List Meaning} (hlength : ms.length = names.length) :
    ∃ reason, derivedValue tree decomposition (ms.map Meaning.value) =
        .ok ((derivedMeaning tree.context decomposition.formulaId ms).value, reason) ∧
      ∀ r, (derivedMeaning tree.context decomposition.formulaId ms).reason = some r → r = reason := by
  unfold derivedValue derivedMeaning
  rw [mapM_value_eq]
  cases hvalues : ms.mapM Meaning.value with
  | none => exact ⟨.undefinedOperand, rfl, fun r hr => (Option.some.inj hr).symm⟩
  | some values =>
    have haccepts : decomposition.formulaId.accepts values.length := by
      rw [length_of_mapM_value hvalues, hlength]
      exact decomposition.arity cls (by cases cls <;> decide) names hnames
    obtain ⟨happly, hreason⟩ := FormulaId.apply_spec tree.context decomposition.formulaId haccepts
    simp only [happly]
    cases hm : decomposition.formulaId.meaning tree.context values with
    | ok x => exact ⟨.undefinedOperand, rfl, nofun⟩
    | error r =>
      rw [hreason r (by rw [hm]; rfl)]
      exact ⟨r, rfl, fun r' hr' => (Option.some.inj hr').symm⟩

theorem leafValue_eq {node : MetricNode} (hnode : forest.node key = .ok node) :
    leafValue forest inputs key = .ok (leafMeaning node (inputs.get? key).join).value := by
  unfold leafValue leafMeaning
  cases (inputs.get? key).join with
  | some value => rfl
  | none =>
    rw [hnode, Option.none_or]
    cases hdefault : node.defaultWhenMissing with
    | none => simp [Except.map, hdefault, Meaning.value]
    | some value => simp [Except.map, hdefault, Meaning.value]

theorem leafMeaning_reason {node : MetricNode} {given : Option ℚ} {r : UndefinedReason}
    (h : (leafMeaning node given).reason = some r) : r = .missingInput := by
  unfold leafMeaning at h
  cases hgiven : given.or node.defaultWhenMissing with
  | some value => simp [hgiven, Meaning.reason] at h
  | none => simpa [hgiven, Meaning.reason, eq_comm] using h

/-! ## The evaluation -/

def TreeEvaluation.Within (evaluation evaluation' : TreeEvaluation) : Prop :=
  ∀ key, key ∈ evaluation.values.keys → key ∈ evaluation'.values.keys

theorem TreeEvaluation.within_record (evaluation : TreeEvaluation) (key : String) (value : Option ℚ)
    (reason : UndefinedReason) : evaluation.Within (evaluation.record key value reason) := by
  intro k hk
  rw [TreeEvaluation.record, Dict.keys_set]
  split_ifs
  · exact hk
  · exact List.mem_append_left _ hk

theorem TreeEvaluation.mem_keys_record (evaluation : TreeEvaluation) (key : String) (value : Option ℚ)
    (reason : UndefinedReason) : key ∈ (evaluation.record key value reason).values.keys :=
  (Dict.mem_keys_iff _ _).mpr ⟨value, Dict.get?_set_self _ _ _⟩

theorem resolve_spec (h : Grounded forest tree cls Captured bound key) (hdepth : bound ≤ tree.depth)
    (hle : bound ≤ fuel) (evaluation : TreeEvaluation) (hsound : Sound forest tree cls inputs evaluation) :
    ∃ m evaluation', resolve forest tree cls inputs fuel evaluation key = .ok (m.value, evaluation') ∧
      meaning forest tree cls inputs tree.depth key = .ok m ∧ Sound forest tree cls inputs evaluation' ∧
      evaluation.Within evaluation' ∧ key ∈ evaluation'.values.keys := by
  induction h generalizing fuel evaluation with
  | @leaf bound key node undecomposed registered holds =>
    obtain ⟨fuel, rfl⟩ := Nat.exists_eq_succ_of_ne_zero (Nat.ne_of_gt (Nat.zero_lt_of_lt hle))
    rw [resolve]
    cases hget : evaluation.values.get? key with
    | some value =>
      obtain ⟨m, -, hm, rfl, -⟩ := hsound.touched key value hget
      exact ⟨m, evaluation, rfl, hm, hsound, fun _ hk => hk, (Dict.mem_keys_iff _ _).mpr ⟨_, hget⟩⟩
    | none =>
      have hgrounded : Grounded forest tree cls Captured tree.depth key :=
        (Grounded.leaf undecomposed registered holds).mono hdepth
      obtain ⟨m, hm⟩ := Grounded.exists_meaning inputs hgrounded
      have hleaf : m = leafMeaning node (inputs.get? key).join := by
        rw [MetricTree.depth, meaning, undecomposed] at hm
        obtain ⟨node', hnode', rfl⟩ := map_eq_ok_iff.mp hm
        rw [Forest.node_functional registered hnode']
      refine ⟨m, evaluation.record key m.value .missingInput, ?_, hm,
        hsound.record hgrounded hm fun r hr => leafMeaning_reason (hleaf ▸ hr),
        evaluation.within_record _ _ _, evaluation.mem_keys_record _ _ _⟩
      simp only [undecomposed, leafValue_eq registered, ok_bind, ← hleaf]
      rfl
  | @derived bound key decomposition operands decomposed bound_for under ih =>
    obtain ⟨fuel, rfl⟩ := Nat.exists_eq_succ_of_ne_zero (Nat.ne_of_gt (Nat.zero_lt_of_lt hle))
    have hle := Nat.le_of_succ_le_succ hle
    rw [resolve]
    cases hget : evaluation.values.get? key with
    | some value =>
      obtain ⟨m, -, hm, rfl, -⟩ := hsound.touched key value hget
      exact ⟨m, evaluation, rfl, hm, hsound, fun _ hk => hk, (Dict.mem_keys_iff _ _).mpr ⟨_, hget⟩⟩
    | none =>
      simp only [decomposed, bound_for]
      -- the invariant: the operands so far have their meanings, and the memo is sound
      have htotal := foldlM_total (f := resolveOperand forest tree cls inputs fuel)
        (fun done state => Sound forest tree cls inputs state.2 ∧ evaluation.Within state.2 ∧ ∃ ms, state.1 = ms.map Meaning.value ∧
          List.Forall₂ (fun name m => meaning forest tree cls inputs tree.depth name = .ok m) done ms)
        operands (b := (([] : List (Option ℚ)), evaluation)) ⟨hsound, fun _ hk => hk, [], rfl, .nil⟩ ?_
      · obtain ⟨⟨values, evaluation'⟩, hfold, hsound', hwithin, ms, hvalues, hms⟩ := htotal
        obtain rfl : values = ms.map Meaning.value := hvalues
        have hgrounded : Grounded forest tree cls Captured tree.depth key :=
          (Grounded.derived decomposed bound_for under).mono hdepth
        obtain ⟨m, hm⟩ := Grounded.exists_meaning inputs hgrounded
        obtain rfl : m = derivedMeaning tree.context decomposition.formulaId ms := by
          have hsucc : meaning forest tree cls inputs (tree.depth + 1) key =
              .ok (derivedMeaning tree.context decomposition.formulaId ms) := by
            rw [meaning, decomposed]
            simp only [bound_for]
            exact map_eq_ok_iff.mpr ⟨ms, mapM_eq_ok_iff.mpr hms, rfl⟩
          exact meaning_functional hm hsucc
        obtain ⟨reason, hvalue, hreason⟩ := derivedValue_spec tree bound_for hms.length_eq.symm
        refine ⟨_, _, ?_, hm, hsound'.record hgrounded hm hreason,
          fun k hk => evaluation'.within_record _ _ _ k (hwithin k hk), evaluation'.mem_keys_record _ _ _⟩
        rw [hfold, ok_bind, hvalue]
        rfl
      · rintro done name rest state hsplit ⟨hstate, hwithin, ms, hvalues, hms⟩
        have hmem : name ∈ operands := by simp [hsplit]
        obtain ⟨m, evaluation', hresolve, hm, hsound', hwithin', -⟩ := ih name hmem (Nat.le_of_succ_le hdepth) hle state.2 hstate
        refine ⟨(state.1 ++ [m.value], evaluation'), ?_, hsound', fun k hk => hwithin' k (hwithin k hk), ms ++ [m], ?_, ?_⟩
        · rw [resolveOperand, hresolve]
          rfl
        · rw [hvalues, List.map_append, List.map_singleton]
        · exact List.rel_append hms (.cons hm .nil)

theorem evaluate_eq (hcls : cls ∈ tree.applicability) (hnodes : requiredInputs forest tree cls = .ok nodes) :
    evaluate forest tree cls inputs = (do
      let evaluation ← nodes.foldlM (fun evaluation node =>
        (resolve forest tree cls inputs tree.depth evaluation node.key).map Prod.snd) TreeEvaluation.empty
      (resolve forest tree cls inputs tree.depth evaluation tree.root).map Prod.snd) := by
  rw [evaluate, if_neg (not_not_intro hcls), hnodes]
  simp only [ok_bind]
  refine congrArg _ (funext fun evaluation => ?_)
  cases resolve forest tree cls inputs tree.depth evaluation tree.root <;> rfl

theorem evaluate_spec (htree : tree ∈ forest.trees) (hcls : cls ∈ tree.applicability) (inputs : Dict String (Option ℚ))
    (hnodes : requiredInputs forest tree cls = .ok nodes) :
    ∃ evaluation, evaluate forest tree cls inputs = .ok evaluation ∧ Sound forest tree cls inputs evaluation ∧
      ∀ key ∈ tree.root :: nodes.map MetricNode.key, key ∈ evaluation.values.keys := by
  obtain ⟨nodes', hnodes', hleaves, -⟩ := requiredInputs_spec htree hcls
  rw [hnodes] at hnodes'
  cases hnodes'
  have htotal := foldlM_total (f := fun (evaluation : TreeEvaluation) (node : MetricNode) =>
      (resolve forest tree cls inputs tree.depth evaluation node.key).map Prod.snd)
    (fun done evaluation => Sound forest tree cls inputs evaluation ∧
      ∀ node ∈ done, node.key ∈ evaluation.values.keys) nodes ⟨sound_empty, by simp⟩ ?_
  · obtain ⟨evaluation, hfold, hsound, htouched⟩ := htotal
    obtain ⟨m, evaluation', hroot, -, hsound', hwithin, htouched'⟩ :=
      resolve_spec (grounded_root htree hcls) le_rfl le_rfl evaluation hsound
    refine ⟨evaluation', ?_, hsound', ?_⟩
    · rw [evaluate_eq hcls hnodes, hfold, ok_bind, hroot]
      rfl
    · simpa [htouched'] using fun node hnode => hwithin node.key (htouched node hnode)
  · intro done node rest evaluation hsplit ⟨hsound, htouched⟩
    obtain ⟨hnone, hnode, hcaptured⟩ := hleaves node (by simp [hsplit])
    have hgrounded : Grounded forest tree cls Captured tree.depth node.key := .leaf hnone hnode hcaptured
    obtain ⟨_, evaluation', hresolve, -, hsound', hwithin, htouched'⟩ := resolve_spec hgrounded le_rfl le_rfl evaluation hsound
    refine ⟨evaluation', map_eq_ok_iff.mpr ⟨_, hresolve, rfl⟩, hsound', ?_⟩
    simpa [or_imp, forall_and, htouched'] using fun n hn => hwithin n.key (htouched n hn)

theorem resolve_congr
    (h : Grounded forest tree cls (fun k _ => inputs.get? k = inputs'.get? k) bound key) (fuel : ℕ)
    (evaluation : TreeEvaluation) :
    resolve forest tree cls inputs fuel evaluation key = resolve forest tree cls inputs' fuel evaluation key := by
  induction h generalizing fuel evaluation with
  | leaf undecomposed _ holds =>
    cases fuel with
    | zero => rfl
    | succ fuel => simp only [resolve, undecomposed, leafValue, holds]
  | @derived bound key decomposition operands decomposed bound_for _ ih =>
    cases fuel with
    | zero => rfl
    | succ fuel =>
      simp only [resolve, decomposed, bound_for]
      have hfold := foldlM_congr (l := operands) (b := (([] : List (Option ℚ)), evaluation))
        (f := resolveOperand forest tree cls inputs fuel) (g := resolveOperand forest tree cls inputs' fuel)
        (AtEach.of_mem fun name hname => hname) (AtEach.of_mem fun name hname => hname)
        fun state name hname _ => by rw [resolveOperand, resolveOperand, ih name hname fuel state.2]
      rw [hfold]

theorem evaluate_congr
    (htree : tree ∈ forest.trees) (hcls : cls ∈ tree.applicability)
    (hnodes : requiredInputs forest tree cls = .ok nodes)
    (hinputs : ∀ node ∈ nodes, inputs.get? node.key = inputs'.get? node.key) :
    evaluate forest tree cls inputs = evaluate forest tree cls inputs' := by
  obtain ⟨nodes', hnodes', hleaves, hroot⟩ := requiredInputs_spec htree hcls
  rw [hnodes] at hnodes'
  cases hnodes'
  rw [evaluate_eq hcls hnodes, evaluate_eq hcls hnodes]
  have hfold := foldlM_congr (l := nodes) (b := TreeEvaluation.empty)
    (f := fun evaluation node => (resolve forest tree cls inputs tree.depth evaluation node.key).map Prod.snd)
    (g := fun evaluation node => (resolve forest tree cls inputs' tree.depth evaluation node.key).map Prod.snd)
    (AtEach.of_mem fun node hmem => hmem) (AtEach.of_mem fun node hmem => hmem) ?_
  · rw [hfold]
    refine congrArg _ (funext fun evaluation => ?_)
    rw [resolve_congr (hroot.imp fun k node _ hnode hmem => ?_) tree.depth evaluation]
    rw [← Forest.key_of_node hnode]
    exact hinputs node hmem
  · intro evaluation node hmem _
    obtain ⟨hnone, hnode, -⟩ := hleaves node hmem
    have hleaf : Grounded forest tree cls (fun k _ => inputs.get? k = inputs'.get? k) tree.depth node.key :=
      .leaf hnone hnode (hinputs node hmem)
    rw [resolve_congr hleaf]

/-- `required_inputs` and `evaluate` return; a node holds its meaning by the plain recursion, with any fuel from the tree's depth
on, and a reason exactly when it has no value; only the required inputs are read. -/
theorem evaluate_total_correct (forest : Forest) {tree : MetricTree} (htree : tree ∈ forest.trees)
    {cls : IssuerClass} (hcls : cls ∈ tree.applicability) (inputs : Dict String (Option ℚ)) :
    ∃ nodes evaluation, requiredInputs forest tree cls = .ok nodes ∧ evaluate forest tree cls inputs = .ok evaluation ∧
      (∀ key ∈ tree.root :: nodes.map MetricNode.key, key ∈ evaluation.values.keys) ∧
      (∀ key value, evaluation.values.get? key = some value → ∃ m,
        (∀ fuel, tree.depth ≤ fuel → meaning forest tree cls inputs fuel key = .ok m) ∧
        value = m.value ∧ evaluation.undefined.get? key = m.reason) ∧
      (∀ key, key ∈ evaluation.undefined.keys ↔ evaluation.values.get? key = some none) ∧
      ∀ inputs', (∀ node ∈ nodes, inputs.get? node.key = inputs'.get? node.key) →
        evaluate forest tree cls inputs' = .ok evaluation := by
  obtain ⟨nodes, hnodes, -, -⟩ := requiredInputs_spec htree hcls
  obtain ⟨evaluation, heval, hsound, htouched⟩ := evaluate_spec htree hcls inputs hnodes
  refine ⟨nodes, evaluation, hnodes, heval, htouched, fun key value hget => ?_, fun key => ?_, fun inputs' hinputs => ?_⟩
  · obtain ⟨m, -, hm, hvalue, hreason⟩ := hsound.touched key value hget
    exact ⟨m, fun fuel hfuel => meaning_mono hm hfuel, hvalue, hreason⟩
  · rw [Dict.mem_keys_iff, ← Option.isSome_iff_exists]
    cases hget : evaluation.values.get? key with
    | none => simp [hsound.untouched key hget]
    | some value =>
      obtain ⟨m, -, -, rfl, hreason⟩ := hsound.touched key value hget
      rw [hreason, Meaning.reason_isSome_iff, Option.some.injEq]
  · rw [← evaluate_congr htree hcls hnodes hinputs]
    exact heval

/-- The uniform tree, without any input. -/
theorem evaluate_total_correct_uniform :
    ∃ nodes evaluation, requiredInputs registeredForest Registry.gppeV0Tree .nonFinancial = .ok nodes ∧
      evaluate registeredForest Registry.gppeV0Tree .nonFinancial Dict.empty = .ok evaluation ∧
      Registry.gppe.key ∈ evaluation.values.keys := by
  obtain ⟨nodes, evaluation, hnodes, heval, htouched, -⟩ := evaluate_total_correct registeredForest
    (show Registry.gppeV0Tree ∈ registeredForest.trees from List.mem_cons_self)
    (show IssuerClass.nonFinancial ∈ Registry.gppeV0Tree.applicability by decide) Dict.empty
  exact ⟨nodes, evaluation, hnodes, heval, htouched _ List.mem_cons_self⟩

end

end TrueAlpha
