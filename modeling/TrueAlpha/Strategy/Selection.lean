import TrueAlpha.Strategy.Evaluator

/-!
# The selection rule

`rank_and_select` without a sort: the rank of a candidate counts those with a wider gap, or the same gap and a smaller id
(`gapRank`).  So ranks are consecutive, and another issuer never moves a candidate up.
-/

namespace TrueAlpha.Strategy

def gapKey (decision : EvaluatedDecision) : ℚ ×ₗ String := toLex (-decision.valuationGap.getD 0, decision.issuerId)

def pegKey (decision : EvaluatedDecision) : ℚ ×ₗ String := toLex (decision.peg.getD 0, decision.issuerId)

def isCandidate (decision : EvaluatedDecision) : Bool := decision.outcome = .rankedBeyondSelectionCount

def candidates (decisions : List EvaluatedDecision) : List EvaluatedDecision := decisions.filter isCandidate

def withPeg (decisions : List EvaluatedDecision) : List EvaluatedDecision := decisions.filter fun decision => decision.peg.isSome

def gapRank (decisions : List EvaluatedDecision) (decision : EvaluatedDecision) : ℕ :=
  1 + rankIn gapKey (candidates decisions) decision

def pegRankOf (decisions : List EvaluatedDecision) (decision : EvaluatedDecision) : Option ℕ :=
  if decision.peg.isSome then some (1 + rankIn pegKey (withPeg decisions) decision) else none

def selectionWeight (definition : StrategyDefinition) (count : ℕ) : Except FactorError ℚ := do
  let share ← computed (Context.default.div 1 (max (min count definition.selectionCount) 1 : ℕ))
  quantize share definition.sizingQuantization

def ranked (definition : StrategyDefinition) (weight : ℚ) (decision : EvaluatedDecision) (rank : ℕ) : EvaluatedDecision :=
  if rank ≤ definition.selectionCount then
    { decision with outcome := .selected, rank := some rank, targetWeight := some weight }
  else { decision with rank := some rank }

def selectionOf (definition : StrategyDefinition) (weight : ℚ) (decisions : List EvaluatedDecision)
    (decision : EvaluatedDecision) : EvaluatedDecision :=
  let placed := { decision with pegRank := pegRankOf decisions decision }
  if isCandidate decision then ranked definition weight placed (gapRank decisions decision) else placed

section

variable (definition : StrategyDefinition) (weight : ℚ) {decisions : List EvaluatedDecision}

@[simp] theorem issuerId_ranked (decision : EvaluatedDecision) (rank : ℕ) :
    (ranked definition weight decision rank).issuerId = decision.issuerId := by
  unfold ranked
  split_ifs <;> rfl

@[simp] theorem issuerId_selectionOf (decision : EvaluatedDecision) :
    (selectionOf definition weight decisions decision).issuerId = decision.issuerId := by
  unfold selectionOf
  split_ifs
  · rw [issuerId_ranked]
  · rfl

variable {a b : EvaluatedDecision} {key : EvaluatedDecision → ℚ ×ₗ String}

theorem gapKey_lt_iff : gapKey a < gapKey b ↔ b.valuationGap.getD 0 < a.valuationGap.getD 0 ∨
      a.valuationGap.getD 0 = b.valuationGap.getD 0 ∧ a.issuerId < b.issuerId := by
  rw [gapKey, gapKey, Prod.Lex.toLex_lt_toLex, neg_lt_neg_iff, neg_inj]

theorem pegKey_lt_iff :
    pegKey a < pegKey b ↔ a.peg.getD 0 < b.peg.getD 0 ∨ a.peg.getD 0 = b.peg.getD 0 ∧ a.issuerId < b.issuerId := by
  rw [pegKey, pegKey, Prod.Lex.toLex_lt_toLex]

theorem nodup_key (hkey : ∀ d, (ofLex (key d)).2 = d.issuerId) (p : EvaluatedDecision → Bool)
    (hids : (decisions.map EvaluatedDecision.issuerId).Nodup) :
    ((decisions.filter p).map key).Nodup := by
  have hsub : ((decisions.filter p).map EvaluatedDecision.issuerId).Nodup := hids.sublist (List.filter_sublist.map _)
  refine List.Nodup.of_map (fun k => (ofLex k).2) ?_
  rw [List.map_map]
  simpa [Function.comp_def, hkey] using hsub

section

variable (hids : (decisions.map EvaluatedDecision.issuerId).Nodup)

include hids

theorem nodup_gapKey : ((candidates decisions).map gapKey).Nodup := nodup_key (fun _ => rfl) _ hids

theorem nodup_pegKey : ((withPeg decisions).map pegKey).Nodup := nodup_key (fun _ => rfl) _ hids

theorem eq_of_issuerId (ha : a ∈ decisions) (hb : b ∈ decisions) (h : a.issuerId = b.issuerId) : a = b :=
  List.inj_on_of_nodup_map hids ha hb h

theorem pegPositions_get? {decision : EvaluatedDecision}
    (hmem : decision ∈ decisions) : (pegPositions decisions).get? decision.issuerId = pegRankOf decisions decision := by
  have hpositions : pegPositions decisions = Dict.ofList ((sortedBy pegKey (withPeg decisions)).map fun d =>
      (d.issuerId, 1 + rankIn pegKey (withPeg decisions) d)) := by
    rw [pegPositions, List.zipIdx_map]
    change Dict.ofList (((sortedBy pegKey (withPeg decisions)).zipIdx 1).map _) = _
    rw [zipIdx_sortedBy pegKey (nodup_pegKey hids), List.map_map]
    rfl
  have hnodup : (((sortedBy pegKey (withPeg decisions)).map fun d =>
      (d.issuerId, 1 + rankIn pegKey (withPeg decisions) d)).map Prod.fst).Nodup := by
    rw [List.map_map]
    exact ((perm_sortedBy pegKey _).map _).nodup_iff.mpr (hids.sublist (List.filter_sublist.map _))
  rw [hpositions, Dict.ofList, Dict.get?_foldl_set _ _ _ hnodup, Dict.get?_empty, Option.or_none]
  refine Option.ext fun place => ?_
  rw [Dict.lookupItems_eq_some_iff _ _ hnodup, List.mem_map, pegRankOf]
  constructor
  · rintro ⟨d, hd, hentry⟩
    obtain ⟨hid, hplace⟩ := Prod.mk.inj hentry
    rw [mem_sortedBy, withPeg, List.mem_filter] at hd
    rw [← eq_of_issuerId hids hd.1 hmem hid, if_pos hd.2, hplace]
  · intro h
    split_ifs at h with hpeg
    refine ⟨decision, ?_, Prod.ext rfl (Option.some.inj h)⟩
    rw [mem_sortedBy, withPeg, List.mem_filter]
    exact ⟨hmem, hpeg⟩

end

theorem exists_selectionWeight (count : ℕ) : ∃ weight, selectionWeight definition count = .ok weight := by
  generalize hslots : max (min count definition.selectionCount) 1 = slots
  have hone : 1 ≤ slots := hslots ▸ le_max_right _ _
  have hpos : (0 : ℚ) < slots := Nat.cast_pos.mpr hone
  have hshare : |(1 : ℚ) / slots| ≤ 1 := by
    rw [abs_of_nonneg (by positivity), div_le_one hpos]
    exact_mod_cast hone
  have hround : |Context.default.round (1 / slots)| ≤ 2 := Context.abs_round_le (by decide) hshare
  have hplaces : definition.sizingQuantization.decimalPlaces < Context.default.precision :=
    lt_of_le_of_lt definition.sizingQuantization.places_le (by decide)
  obtain ⟨weight, hweight⟩ := Context.exists_quantize hplaces hround
  refine ⟨weight, ?_⟩
  rw [selectionWeight, hslots, Context.div, if_neg hpos.ne']
  change quantize _ _ = _
  rw [quantize, hweight]
  rfl

def placed (decisions : List EvaluatedDecision) (decision : EvaluatedDecision) : EvaluatedDecision :=
  { decision with pegRank := (pegPositions decisions).get? decision.issuerId }

def placedResolved (decisions : List EvaluatedDecision) : List EvaluatedDecision :=
  (decisions.filter fun decision => ¬ isCandidate decision).map (placed decisions)

def placedRanked (definition : StrategyDefinition) (weight : ℚ) (decisions : List EvaluatedDecision) : List EvaluatedDecision :=
  ((sortedBy gapKey (candidates decisions)).map (placed decisions)).zipIdx 1 |>.map fun entry =>
    ranked definition weight entry.1 entry.2

theorem rankAndSelect_eq (hweight : selectionWeight definition (candidates decisions).length = .ok weight) :
    rankAndSelect definition decisions = .ok (sortedBy EvaluatedDecision.issuerId
      (placedResolved decisions ++ placedRanked definition weight decisions)) := by
  obtain ⟨share, hshare, hquantized⟩ := bind_eq_ok_iff.mp hweight
  rw [← (perm_sortedBy gapKey (candidates decisions)).length_eq] at hshare
  unfold rankAndSelect
  change (computed (Context.default.div 1 (max (min (sortedBy gapKey (candidates decisions)).length
    definition.selectionCount) 1 : ℕ)) >>= _) = _
  rw [hshare, ok_bind, hquantized]
  rfl

theorem rankAndSelect_spec (hids : (decisions.map EvaluatedDecision.issuerId).Nodup) :
    ∃ weight out, selectionWeight definition (candidates decisions).length = .ok weight ∧
      rankAndSelect definition decisions = .ok out ∧
      out.Perm (decisions.map (selectionOf definition weight decisions)) ∧
      out.Pairwise fun a b => a.issuerId < b.issuerId := by
  obtain ⟨weight, hweight⟩ := exists_selectionWeight definition (candidates decisions).length
  have hresolved : placedResolved decisions =
      (decisions.filter fun decision => ¬ isCandidate decision).map (selectionOf definition weight decisions) := by
    refine List.map_congr_left fun d hd => ?_
    rw [List.mem_filter] at hd
    have hnot : ¬ isCandidate d = true := by simpa using hd.2
    rw [selectionOf, if_neg hnot, ← pegPositions_get? hids hd.1]
    rfl
  have hchosen : (placedRanked definition weight decisions).Perm ((candidates decisions).map (selectionOf definition weight decisions)) := by
    have heq : placedRanked definition weight decisions =
        (sortedBy gapKey (candidates decisions)).map (selectionOf definition weight decisions) := by
      rw [placedRanked, List.zipIdx_map, zipIdx_sortedBy gapKey (nodup_gapKey hids), List.map_map, List.map_map]
      refine List.map_congr_left fun d hd => ?_
      rw [mem_sortedBy, candidates, List.mem_filter] at hd
      rw [selectionOf, if_pos hd.2, ← pegPositions_get? hids hd.1]
      rfl
    rw [heq]
    exact (perm_sortedBy gapKey _).map _
  have hsplit : ((decisions.filter fun decision => ¬ isCandidate decision) ++ candidates decisions).Perm decisions := by
    have hfilter := List.filter_append_perm isCandidate decisions
    refine (List.perm_append_comm.trans ?_).trans hfilter
    simp [candidates]
  have hperm : (placedResolved decisions ++ placedRanked definition weight decisions).Perm (decisions.map (selectionOf definition weight decisions)) := by
    rw [hresolved]
    refine (hchosen.append_left _).trans ?_
    rw [← List.map_append]
    exact hsplit.map _
  refine ⟨weight, _, hweight, rankAndSelect_eq definition weight hweight, (perm_sortedBy _ _).trans hperm, strictSorted_sortedBy _ ?_⟩
  have hids' : (decisions.map (selectionOf definition weight decisions)).map EvaluatedDecision.issuerId =
      decisions.map EvaluatedDecision.issuerId := by
    rw [List.map_map]
    exact List.map_congr_left fun d _ => issuerId_selectionOf definition weight d
  rw [(hperm.map EvaluatedDecision.issuerId).nodup_iff, hids']
  exact hids

variable {decisions' : List EvaluatedDecision}

theorem selectionOf_perm (h : decisions.Perm decisions') :
    selectionOf definition weight decisions = selectionOf definition weight decisions' := by
  funext d
  have hgap : gapRank decisions d = gapRank decisions' d := congrArg (1 + ·) (rankIn_perm gapKey (h.filter _) d)
  have hpeg : pegRankOf decisions d = pegRankOf decisions' d := by
    have hrank : rankIn pegKey (withPeg decisions) d = rankIn pegKey (withPeg decisions') d := rankIn_perm pegKey (h.filter _) d
    rw [pegRankOf, pegRankOf, hrank]
  rw [selectionOf, selectionOf, hgap, hpeg]

theorem rankAndSelect_perm (h : decisions.Perm decisions') (hids : (decisions.map EvaluatedDecision.issuerId).Nodup) :
    rankAndSelect definition decisions' = rankAndSelect definition decisions := by
  have hids' : (decisions'.map EvaluatedDecision.issuerId).Nodup := (h.map _).nodup_iff.mp hids
  obtain ⟨weight, out, hweight, hout, hperm, hsorted⟩ := rankAndSelect_spec definition hids
  obtain ⟨weight', out', hweight', hout', hperm', hsorted'⟩ := rankAndSelect_spec definition hids'
  have hcount : (candidates decisions).length = (candidates decisions').length := (h.filter _).length_eq
  rw [← hcount, hweight] at hweight'
  cases hweight'
  rw [← selectionOf_perm definition weight h] at hperm'
  have hmem : ∀ d, d ∈ out' ↔ d ∈ out := fun d => by
    rw [hperm.mem_iff, hperm'.mem_iff, (h.map _).mem_iff]
  rw [hout, hout', eq_of_strictSorted_key EvaluatedDecision.issuerId hsorted' hsorted hmem]

theorem gapRank_le_cons (added : EvaluatedDecision) (decision : EvaluatedDecision) :
    gapRank decisions decision ≤ gapRank (added :: decisions) decision := by
  rw [gapRank, gapRank, candidates, candidates, List.filter_cons]
  split_ifs
  · exact Nat.add_le_add_left (rankIn_le_cons gapKey _ _ _) 1
  · exact le_rfl

theorem selectionOf_cons {weight' : ℚ} (added : EvaluatedDecision) (decision : EvaluatedDecision) :
    (∀ rank, (selectionOf definition weight decisions decision).rank = some rank →
      ∃ rank', (selectionOf definition weight' (added :: decisions) decision).rank = some rank' ∧ rank ≤ rank') ∧
    ((selectionOf definition weight' (added :: decisions) decision).outcome = .selected →
      (selectionOf definition weight decisions decision).outcome = .selected) := by
  have hrank : gapRank decisions decision ≤ gapRank (added :: decisions) decision := gapRank_le_cons added decision
  unfold selectionOf
  by_cases hcandidate : isCandidate decision = true
  · simp only [if_pos hcandidate]
    have hranked : ∀ weight d rank, (ranked definition weight d rank).rank = some rank := by
      intro weight d rank
      unfold ranked
      split_ifs <;> rfl
    constructor
    · intro rank h
      rw [hranked] at h
      cases h
      exact ⟨_, hranked _ _ _, hrank⟩
    · intro h
      unfold ranked at h ⊢
      split_ifs at h with hselected
      · rw [if_pos (le_trans hrank hselected)]
      · have hkept : decision.outcome = .rankedBeyondSelectionCount := by simpa [isCandidate] using hcandidate
        rw [show decision.outcome = _ from h] at hkept
        cases hkept
  · simp only [if_neg hcandidate]
    exact ⟨fun rank h => ⟨rank, h, le_rfl⟩, fun h => h⟩

theorem rankIn_lt_iff {l : List EvaluatedDecision} (ha : a ∈ l) (hb : b ∈ l) :
    rankIn key l a < rankIn key l b ↔ key a < key b := by
  refine ⟨fun h => ?_, rankIn_lt_of_mem key ha⟩
  by_contra hle
  rcases lt_or_eq_of_le (not_lt.mp hle) with hlt | heq
  · exact absurd h (Nat.lt_asymm (rankIn_lt_of_mem key hb hlt))
  · rw [rankIn, rankIn, heq] at h
    exact lt_irrefl _ h

theorem length_selected (hids : (decisions.map EvaluatedDecision.issuerId).Nodup) :
    ((candidates decisions).filter fun decision => gapRank decisions decision ≤ definition.selectionCount).length =
      min (candidates decisions).length definition.selectionCount := by
  rw [← length_filter_range']
  have hranks := map_rankIn_perm gapKey (nodup_gapKey hids) 1
  rw [← (hranks.filter _).length_eq, List.filter_map, List.length_map]
  rfl

end

def sampleCandidate (issuerId : String) (gap : ℚ) : EvaluatedDecision :=
  { excluded issuerId .missingIssuerClass none none with
    outcome := .rankedBeyondSelectionCount, exclusionReason := none, eligible := true, valuationGap := some gap }

def sampleDecisions : List EvaluatedDecision :=
  [sampleCandidate "c" 2, sampleCandidate "b" (-1), sampleCandidate "a" 2, excluded "d" .staleRequiredInput none none]

end TrueAlpha.Strategy
