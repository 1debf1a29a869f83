import TrueAlpha.Forest.Semantics

/-!
# What an evaluation touches

An evaluation touches the nodes below the root of the tree and the operands of every node that it touches.  With a value at the
root it has a value at every node (`evaluate_defined`).
-/

namespace TrueAlpha

inductive Below (tree : MetricTree) (cls : IssuerClass) : String → String → Prop
  | refl (key : String) : Below tree cls key key
  | step {key name below : String} {decomposition : Decomposition} {names : List String}
      (decomposed : tree.decompositionOf key = some decomposition)
      (bound_for : decomposition.operands cls = some names) (mem : name ∈ names)
      (rest : Below tree cls name below) : Below tree cls key below

theorem Below.trans {tree : MetricTree} {cls : IssuerClass} {a b c : String} (h : Below tree cls a b)
    (h' : Below tree cls b c) : Below tree cls a c := by
  induction h with
  | refl => exact h'
  | step decomposed bound_for mem _ ih => exact .step decomposed bound_for mem (ih h')

variable {evaluation : TreeEvaluation}

section

variable {forest : Forest} {tree : MetricTree} {cls : IssuerClass} {inputs : Dict String (Option ℚ)}
  {fuel : ℕ} {key : String} {nodes : List MetricNode}

def TreeEvaluation.Closed (tree : MetricTree) (cls : IssuerClass) (evaluation : TreeEvaluation) : Prop :=
  ∀ key ∈ evaluation.values.keys, ∀ decomposition, tree.decompositionOf key = some decomposition →
    ∀ names, decomposition.operands cls = some names → ∀ name ∈ names, name ∈ evaluation.values.keys

theorem TreeEvaluation.mem_keys_record_iff (evaluation : TreeEvaluation) (value : Option ℚ)
    (reason : UndefinedReason) (k : String) :
    k ∈ (evaluation.record key value reason).values.keys ↔ k ∈ evaluation.values.keys ∨ k = key := by
  rw [TreeEvaluation.record, Dict.keys_set]
  split_ifs with h
  · constructor
    · exact .inl
    · rintro (hk | rfl)
      · exact hk
      · exact h
  · rw [List.mem_append, List.mem_singleton]

/-- What a call of `resolve` touches: its key and nodes below it. -/
structure Touches (tree : MetricTree) (cls : IssuerClass) (key : String) (before after : TreeEvaluation) : Prop where
  within : before.Within after
  self : key ∈ after.values.keys
  below : ∀ k ∈ after.values.keys, k ∈ before.values.keys ∨ Below tree cls key k
  closed : before.Closed tree cls → after.Closed tree cls

theorem resolve_touches {evaluation evaluation' : TreeEvaluation} {value : Option ℚ}
    (h : resolve forest tree cls inputs fuel evaluation key = .ok (value, evaluation')) :
    Touches tree cls key evaluation evaluation' := by
  induction fuel generalizing key value evaluation evaluation' with
  | zero => cases h
  | succ fuel ih =>
    rw [resolve] at h
    cases hget : evaluation.values.get? key with
    | some stored =>
      simp only [hget] at h
      cases h
      exact ⟨fun _ hk => hk, (Dict.mem_keys_iff _ _).mpr ⟨_, hget⟩, fun _ hk => .inl hk, id⟩
    | none =>
      cases hdecomposition : tree.decompositionOf key with
      | none =>
        simp only [hget, hdecomposition] at h
        obtain ⟨leaf, -, h⟩ := bind_eq_ok_iff.mp h
        cases h
        refine ⟨evaluation.within_record _ _ _, evaluation.mem_keys_record _ _ _, fun k hk => ?_, ?_⟩
        · rcases (evaluation.mem_keys_record_iff _ _ k).mp hk with hk | rfl
          · exact .inl hk
          · exact .inr (.refl k)
        · intro hclosed k hk decomposition hd names hnames name hname
          rcases (evaluation.mem_keys_record_iff _ _ k).mp hk with hk | rfl
          · exact evaluation.within_record _ _ _ name (hclosed k hk decomposition hd names hnames name hname)
          · rw [hdecomposition] at hd
            cases hd
      | some decomposition =>
        cases hnames : decomposition.operands cls with
        | none => simp [hget, hdecomposition, hnames] at h
        | some names =>
          simp only [hget, hdecomposition, hnames] at h
          obtain ⟨⟨operands, middle⟩, hfold, h⟩ := bind_eq_ok_iff.mp h
          obtain ⟨⟨derived, reason⟩, -, h⟩ := bind_eq_ok_iff.mp h
          cases h
          -- the invariant: the operands so far are touched, and nothing but what is below them
          have hinv := foldlM_inv (fun done (state : List (Option ℚ) × TreeEvaluation) =>
            evaluation.Within state.2 ∧ (∀ name ∈ done, name ∈ state.2.values.keys) ∧
              (∀ k ∈ state.2.values.keys, k ∈ evaluation.values.keys ∨ ∃ name ∈ done, Below tree cls name k) ∧
              (evaluation.Closed tree cls → state.2.Closed tree cls)) hfold
            ⟨fun _ hk => hk, by simp, fun _ hk => .inl hk, id⟩ ?_
          · obtain ⟨hwithin, hself, hbelow, hclosed⟩ := hinv
            refine ⟨fun k hk => middle.within_record _ _ _ k (hwithin k hk), middle.mem_keys_record _ _ _, ?_, ?_⟩
            · intro k hk
              rcases (middle.mem_keys_record_iff _ _ k).mp hk with hk | rfl
              · rcases hbelow k hk with hk | ⟨name, hname, hk⟩
                · exact .inl hk
                · exact .inr (.step hdecomposition hnames hname hk)
              · exact .inr (.refl k)
            · intro hbefore k hk d hd ns hns name hname
              rcases (middle.mem_keys_record_iff _ _ k).mp hk with hk | rfl
              · exact middle.within_record _ _ _ name (hclosed hbefore k hk d hd ns hns name hname)
              · rw [hdecomposition] at hd
                cases hd
                rw [hnames] at hns
                cases hns
                exact middle.within_record _ _ _ name (hself name hname)
          · rintro done name rest ⟨seen, state⟩ ⟨seen', state'⟩ - ⟨hwithin, hself, hbelow, hclosed⟩ hstep
            obtain ⟨⟨found, next⟩, hresolve, hpure⟩ := bind_eq_ok_iff.mp hstep
            cases hpure
            have htouches := ih hresolve
            refine ⟨fun k hk => htouches.within k (hwithin k hk), ?_, ?_, fun hbefore => htouches.closed (hclosed hbefore)⟩
            · intro k hk
              rcases List.mem_append.mp hk with hk | hk
              · exact htouches.within k (hself k hk)
              · rw [List.mem_singleton.mp hk]
                exact htouches.self
            · intro k hk
              rcases htouches.below k hk with hk | hk
              · rcases hbelow k hk with hk | ⟨other, hother, hk⟩
                · exact .inl hk
                · exact .inr ⟨other, List.mem_append_left _ hother, hk⟩
              · exact .inr ⟨name, by simp, hk⟩

theorem visitLeaves_below {ordered ordered' : Dict String MetricNode}
    (h : visitLeaves forest tree cls fuel ordered key = .ok ordered') {k : String} {node : MetricNode}
    (hget : ordered'.get? k = some node) :
    ordered.get? k = some node ∨ (Below tree cls key k ∧ node.key = k) := by
  induction fuel generalizing key ordered ordered' k node with
  | zero => cases h
  | succ fuel ih =>
    rw [visitLeaves] at h
    cases hdecomposition : tree.decompositionOf key with
    | none =>
      simp only [hdecomposition] at h
      obtain ⟨leaf, hleaf, h⟩ := bind_eq_ok_iff.mp h
      obtain rfl := pure_eq_ok_iff.mp h
      split_ifs at hget
      · exact .inl hget
      · rw [Dict.get?_set] at hget
        split_ifs at hget with heq
        · cases hget
          exact .inr ⟨heq ▸ .refl key, (Forest.key_of_node hleaf).trans heq⟩
        · exact .inl hget
    | some decomposition =>
      cases hnames : decomposition.operands cls with
      | none => simp [hdecomposition, hnames] at h
      | some names =>
        simp only [hdecomposition, hnames] at h
        refine foldlM_inv (fun _ (state : Dict String MetricNode) => ∀ k node, state.get? k = some node →
          ordered.get? k = some node ∨ (Below tree cls key k ∧ node.key = k)) h (fun _ _ hk => .inl hk) ?_ k node hget
        intro done name rest state state' hsplit hinv hstep k node hk
        rcases ih hstep hk with hk | ⟨hbelow, hkey⟩
        · exact hinv k node hk
        · exact .inr ⟨.step hdecomposition hnames (by simp [hsplit]) hbelow, hkey⟩

theorem below_of_requiredInputs {nodes : List MetricNode} (hnodes : requiredInputs forest tree cls = .ok nodes)
    {node : MetricNode} (hnode : node ∈ nodes) : Below tree cls tree.root node.key := by
  unfold requiredInputs at hnodes
  split_ifs at hnodes
  obtain ⟨ordered, hvisit, rfl⟩ := map_eq_ok_iff.mp hnodes
  obtain ⟨k, hget⟩ := Dict.exists_get?_of_mem_values hnode
  rcases visitLeaves_below hvisit hget with hempty | ⟨hbelow, rfl⟩
  · cases hempty
  · exact hbelow

theorem value_of_mapM_value {operands : List Meaning} {values : List ℚ}
    (h : operands.mapM Meaning.value = some values) : ∀ m ∈ operands, ∃ value, m = .ok value := by
  induction operands generalizing values with
  | nil => simp
  | cons m rest ih =>
    simp only [List.mapM_cons, Option.bind_eq_bind, Option.bind_eq_some_iff] at h
    obtain ⟨value, hvalue, tail, htail, -⟩ := h
    intro m' hm'
    rcases List.mem_cons.mp hm' with rfl | hm'
    · cases m' with
      | ok x => exact ⟨x, rfl⟩
      | error r => cases hvalue
    · exact ih htail m' hm'

theorem meaning_below {below : String} (h : Below tree cls key below) {value : ℚ}
    (hm : meaning forest tree cls inputs fuel key = .ok (.ok value)) :
    ∃ value', meaning forest tree cls inputs fuel below = .ok (.ok value') := by
  induction h generalizing value with
  | refl key => exact ⟨value, hm⟩
  | step decomposed bound_for mem rest ih =>
    cases fuel with
    | zero => cases hm
    | succ fuel =>
      have hunfold := hm
      rw [meaning] at hunfold
      simp only [decomposed, bound_for] at hunfold
      obtain ⟨ms, hms, hderived⟩ := map_eq_ok_iff.mp hunfold
      obtain ⟨m, hmem, hname⟩ := mem_of_mapM hms mem
      unfold derivedMeaning at hderived
      cases hvalues : ms.mapM Meaning.value with
      | none =>
        rw [hvalues] at hderived
        cases hderived
      | some values =>
        obtain ⟨operand, rfl⟩ := value_of_mapM_value hvalues m hmem
        exact ih (meaning_mono hname (Nat.le_succ fuel))

theorem evaluate_touches (hnodes : requiredInputs forest tree cls = .ok nodes) (hcls : cls ∈ tree.applicability) (heval : evaluate forest tree cls inputs = .ok evaluation) :
    tree.root ∈ evaluation.values.keys ∧ evaluation.Closed tree cls ∧
      ∀ k ∈ evaluation.values.keys, Below tree cls tree.root k := by
  -- what the leaves and then the root touch
  rw [evaluate_eq hcls hnodes] at heval
  obtain ⟨middle, hleaves, hlast⟩ := bind_eq_ok_iff.mp heval
  obtain ⟨⟨found, last⟩, hresolve, rfl⟩ := map_eq_ok_iff.mp hlast
  have hmiddle := foldlM_inv (fun _ (state : TreeEvaluation) => state.Closed tree cls ∧
    ∀ k ∈ state.values.keys, Below tree cls tree.root k) hleaves
    ⟨fun _ hk => (by cases hk), fun _ hk => (by cases hk)⟩ ?_
  · have htouches := resolve_touches hresolve
    refine ⟨htouches.self, htouches.closed hmiddle.1, fun k hk => ?_⟩
    rcases htouches.below k hk with hk | hk
    · exact hmiddle.2 k hk
    · exact hk
  · intro done node rest state state' hsplit ⟨hclosed, hbelow⟩ hstep
    obtain ⟨⟨found, next⟩, hresolve, rfl⟩ := map_eq_ok_iff.mp hstep
    have htouches := resolve_touches hresolve
    refine ⟨htouches.closed hclosed, fun k hk => ?_⟩
    rcases htouches.below k hk with hk | hk
    · exact hbelow k hk
    · exact (below_of_requiredInputs hnodes (by simp [hsplit])).trans hk

theorem evaluate_defined (htree : tree ∈ forest.trees) (hcls : cls ∈ tree.applicability) (heval : evaluate forest tree cls inputs = .ok evaluation) {value : ℚ}
    (hroot : (evaluation.values.get? tree.root).join = some value) :
    evaluation.undefined.items = [] ∧ ∀ decomposition, tree.decompositionOf tree.root = some decomposition →
      ∀ names, decomposition.operands cls = some names → ∀ name ∈ names,
        ∃ operand, (evaluation.values.get? name).join = some operand := by
  obtain ⟨nodes, hnodes, -⟩ := requiredInputs_spec htree hcls
  obtain ⟨evaluation', heval', hsound, -⟩ := evaluate_spec htree hcls inputs hnodes
  rw [heval] at heval'
  obtain rfl := Except.ok.inj heval'
  obtain ⟨hself, hclosed, hbelow⟩ := evaluate_touches hnodes hcls heval
  have hmeaning : meaning forest tree cls inputs tree.depth tree.root = .ok (.ok value) := by
    obtain ⟨stored, hstored⟩ := (Dict.mem_keys_iff _ _).mp hself
    rw [hstored] at hroot
    obtain ⟨m, -, hm, hvalue, -⟩ := hsound.touched _ _ hstored
    rw [hvalue] at hroot
    cases m with
    | ok x =>
      cases hroot
      exact hm
    | error r => cases hroot
  have hdefined : ∀ k stored, evaluation.values.get? k = some stored →
      (∃ operand, stored = some operand) ∧ evaluation.undefined.get? k = none := by
    intro k stored hstored
    obtain ⟨m, -, hm, hvalue, hreason⟩ := hsound.touched k stored hstored
    obtain ⟨operand, hoperand⟩ := meaning_below (hbelow k ((Dict.mem_keys_iff _ _).mpr ⟨_, hstored⟩)) hmeaning
    rw [hm] at hoperand
    obtain rfl := Except.ok.inj hoperand
    exact ⟨⟨operand, hvalue⟩, hreason⟩
  constructor
  · rw [List.eq_nil_iff_forall_not_mem]
    rintro ⟨k, reason⟩ hitem
    have hsome := (evaluation.undefined.get?_eq_some_iff k reason).mpr hitem
    cases hget : evaluation.values.get? k with
    | none =>
      rw [hsound.untouched k hget] at hsome
      cases hsome
    | some stored =>
      rw [(hdefined k stored hget).2] at hsome
      cases hsome
  · intro decomposition hdecomposition names hnames name hname
    have hmem := hclosed tree.root hself decomposition hdecomposition names hnames name hname
    obtain ⟨stored, hstored⟩ := (Dict.mem_keys_iff _ _).mp hmem
    obtain ⟨⟨operand, rfl⟩, -⟩ := hdefined name stored hstored
    exact ⟨operand, by rw [hstored]; rfl⟩

theorem TreeEvaluation.Closed.touched (h : evaluation.Closed tree cls) {k : String}
    (hkey : key ∈ evaluation.values.keys) (hbelow : Below tree cls key k) : k ∈ evaluation.values.keys := by
  induction hbelow with
  | refl key => exact hkey
  | step decomposed bound_for mem _ ih => exact ih (h _ hkey _ decomposed _ bound_for _ mem)

end

end TrueAlpha
