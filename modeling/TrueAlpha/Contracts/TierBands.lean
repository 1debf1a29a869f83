import TrueAlpha.Contracts.Strategy

/-!
# The lookup of a tier band

What `bandFor` returns on accepted bands: the band at the place of the value among the bounds that decide
(`decidingBounds`).  So two values take one tier exactly when no deciding bound separates them.
-/

namespace TrueAlpha

def decidingBounds : List TierBand → List ℚ
  | [] => []
  | band :: rest =>
    match band.laborEfficiencyUpperBound with
    | none => []
    | some upper => upper :: decidingBounds rest

def boundsReached (bands : List TierBand) (x : ℚ) : ℕ := ((decidingBounds bands).filter fun bound => bound ≤ x).length

section

variable {bands : List TierBand} {x y : ℚ}

theorem contiguous_tail {band : TierBand} (h : contiguous (band :: bands)) : contiguous bands := by
  cases bands with
  | nil => rfl
  | cons next rest => exact (of_decide_eq_true h).2

theorem lower_of_contiguous {band : TierBand} (h : contiguous (band :: bands)) (hne : bands ≠ []) :
    bands.head?.bind TierBand.laborEfficiencyLowerBound = band.laborEfficiencyUpperBound := by
  cases bands with
  | nil => exact absurd rfl hne
  | cons next rest => exact (of_decide_eq_true h).1.symm

theorem lower_lt_of_mem_decidingBounds {lower bound : ℚ} (hc : contiguous bands)
    (hlower : bands.head?.bind TierBand.laborEfficiencyLowerBound = some lower)
    (hmem : bound ∈ decidingBounds bands) : lower < bound := by
  induction bands generalizing lower with
  | nil => cases hmem
  | cons band rest ih =>
    cases hupper : band.laborEfficiencyUpperBound with
    | none => simp [decidingBounds, hupper] at hmem
    | some upper =>
      have hlt : lower < upper := band.bounds_lt lower hlower upper hupper
      rw [decidingBounds, hupper] at hmem
      obtain rfl | hrest := List.mem_cons.mp hmem
      · exact hlt
      · have hne : rest ≠ [] := by
          rintro rfl
          cases hrest
        have hnext : rest.head?.bind TierBand.laborEfficiencyLowerBound = some upper := by
          rw [lower_of_contiguous hc hne, hupper]
        exact hlt.trans (ih (contiguous_tail hc) hnext hrest)

theorem find?_holds_eq (hc : contiguous bands)
    (hlower : ∀ lower, bands.head?.bind TierBand.laborEfficiencyLowerBound = some lower → lower ≤ x) :
    (bands.find? fun band => band.holds x) = bands[boundsReached bands x]? := by
  induction bands with
  | nil => rfl
  | cons band rest ih =>
    have hlow : ∀ lower, band.laborEfficiencyLowerBound = some lower → lower ≤ x := hlower
    cases hupper : band.laborEfficiencyUpperBound with
    | none =>
      have hholds : band.holds x = true := by
        simpa [TierBand.holds, hupper] using hlow
      simp [boundsReached, decidingBounds, hupper, hholds]
    | some upper =>
      by_cases hx : x < upper
      · have hholds : band.holds x = true := by
          simpa [TierBand.holds, hupper, hx] using hlow
        have hnone : (decidingBounds rest).filter (fun bound => bound ≤ x) = [] := by
          rw [List.filter_eq_nil_iff]
          intro bound hbound
          have hne : rest ≠ [] := by
            rintro rfl
            cases hbound
          have hnext : rest.head?.bind TierBand.laborEfficiencyLowerBound = some upper := by
            rw [lower_of_contiguous hc hne, hupper]
          have hlt := lower_lt_of_mem_decidingBounds (contiguous_tail hc) hnext hbound
          simpa using hx.trans hlt
        simp [boundsReached, decidingBounds, hupper, hholds, hnone, hx]
      · have hle : upper ≤ x := not_lt.mp hx
        have hholds : band.holds x = false := by
          simp [TierBand.holds, hupper, hle]
        have hrest : ∀ lower, rest.head?.bind TierBand.laborEfficiencyLowerBound = some lower → lower ≤ x := by
          intro lower hsome
          have hne : rest ≠ [] := by
            rintro rfl
            cases hsome
          rw [lower_of_contiguous hc hne, hupper] at hsome
          exact Option.some.inj hsome ▸ hle
        simp only [List.find?_cons, hholds]
        rw [ih (contiguous_tail hc) hrest]
        simp [boundsReached, decidingBounds, hupper, hle]

theorem reached_sublist (bands : List TierBand) (hxy : x ≤ y) : ((decidingBounds bands).filter fun bound => bound ≤ x).Sublist
    ((decidingBounds bands).filter fun bound => bound ≤ y) := by
  apply List.monotone_filter_right
  intro bound hbound
  simpa using (of_decide_eq_true hbound).trans hxy

theorem boundsReached_eq_iff :
    boundsReached bands x = boundsReached bands y ↔ ∀ bound ∈ decidingBounds bands, (x < bound ↔ y < bound) := by
  wlog hxy : x ≤ y generalizing x y
  · rw [eq_comm, this (le_of_not_ge hxy)]
    simp only [iff_comm]
  constructor
  · intro h
    have heq := (reached_sublist bands hxy).eq_of_length h
    intro bound hmem
    have hiff : bound ∈ (decidingBounds bands).filter (fun bound => bound ≤ x) ↔
        bound ∈ (decidingBounds bands).filter (fun bound => bound ≤ y) := by rw [heq]
    simp only [List.mem_filter, hmem, true_and, decide_eq_true_eq] at hiff
    exact not_iff_not.mp (by simpa using hiff)
  · intro h
    unfold boundsReached
    congr 1
    apply List.filter_congr
    intro bound hmem
    have hiff := not_iff_not.mpr (h bound hmem)
    simpa using hiff

end

namespace TierValuation

variable (valuation : TierValuation)

theorem orders_eq {bands : List TierBand} (hthree : bands.length = 3)
    (hsorted : (bands.map fun band => band.tier.order).Pairwise (· ≤ ·))
    (htiers : ∀ tier, tier ∈ bands.map TierBand.tier) : bands.map (fun band => band.tier.order) = [0, 1, 2] := by
  obtain ⟨first, second, third, rfl⟩ := List.length_eq_three.mp hthree
  have h0 := htiers .traditional
  have h1 := htiers .tech
  have h2 := htiers .largeModelNative
  simp only [List.map_cons, List.map_nil, List.mem_cons, List.not_mem_nil, or_false] at h0 h1 h2
  have hmem : ∀ tier : ValuationTier, tier = first.tier ∨ tier = second.tier ∨ tier = third.tier →
      tier.order = first.tier.order ∨ tier.order = second.tier.order ∨ tier.order = third.tier.order := by
    rintro tier (h | h | h) <;> simp [h]
  have h0' : 0 = first.tier.order ∨ 0 = second.tier.order ∨ 0 = third.tier.order := hmem _ h0
  have h1' : 1 = first.tier.order ∨ 1 = second.tier.order ∨ 1 = third.tier.order := hmem _ h1
  have h2' : 2 = first.tier.order ∨ 2 = second.tier.order ∨ 2 = third.tier.order := hmem _ h2
  simp only [List.map_cons, List.map_nil, List.pairwise_cons, List.mem_cons, List.not_mem_nil, or_false,
    forall_eq_or_imp, forall_eq] at hsorted
  simp only [List.map_cons, List.map_nil, List.cons.injEq, and_true]
  omega

theorem bands_spec : contiguous valuation.bands ∧ valuation.bands.head?.bind TierBand.laborEfficiencyLowerBound = none ∧
    valuation.bands.map (fun band => band.tier.order) = [0, 1, 2] := by
  have h := valuation.ordered
  simp only [orderedTierBands] at h
  split_ifs at h with htiers hdomain hcontiguous
  have hsorted : sortedBy (fun band => band.tier.order) valuation.bands = valuation.bands := Except.ok.inj h
  rw [hsorted] at htiers hdomain hcontiguous
  refine ⟨hcontiguous, ?_, orders_eq valuation.three ?_ ?_⟩
  · simpa using fun hsome => hdomain (Or.inl hsome)
  · rw [← hsorted, List.pairwise_map]
    exact pairwise_sortedBy _ _
  · rintro (_ | _ | _)
    exacts [htiers.1, htiers.2.1, htiers.2.2]

variable {valuation} {x y : ℚ} {band band' : TierBand}

section

variable (h : bandFor valuation.bands x = .ok band)

include h

theorem bandFor_spec : valuation.bands[boundsReached valuation.bands x]? = some band ∧
      band.tier.order = boundsReached valuation.bands x := by
  obtain ⟨hc, hopen, horders⟩ := valuation.bands_spec
  have hfind := find?_holds_eq (x := x) hc (by simp [hopen])
  unfold bandFor at h
  split at h
  · next found hfound =>
    cases h
    have hget : valuation.bands[boundsReached valuation.bands x]? = some band := hfind ▸ hfound
    refine ⟨hget, ?_⟩
    have horder : (valuation.bands.map fun band => band.tier.order)[boundsReached valuation.bands x]? = some band.tier.order := by
      rw [List.getElem?_map, hget]
      rfl
    rw [horders] at horder
    revert horder
    generalize boundsReached valuation.bands x = place
    match place with
    | 0 | 1 | 2 => simp [eq_comm]
    | _ + 3 => simp
  · cases h

theorem tier_eq_iff (h' : bandFor valuation.bands y = .ok band') :
    band.tier = band'.tier ↔ ∀ bound ∈ decidingBounds valuation.bands, (x < bound ↔ y < bound) := by
  rw [← boundsReached_eq_iff, ← (bandFor_spec h).2, ← (bandFor_spec h').2]
  constructor
  · exact congrArg ValuationTier.order
  · intro horder
    revert horder
    cases band.tier <;> cases band'.tier <;> simp [ValuationTier.order]

theorem band_eq_of_tier_eq
    (h' : bandFor valuation.bands y = .ok band') (htier : band.tier = band'.tier) : band = band' := by
  have hreached : boundsReached valuation.bands x = boundsReached valuation.bands y := by
    rw [← (bandFor_spec h).2, ← (bandFor_spec h').2, htier]
  have hband := (bandFor_spec h).1
  rw [hreached, (bandFor_spec h').1] at hband
  exact (Option.some.inj hband).symm

end

end TierValuation

end TrueAlpha
