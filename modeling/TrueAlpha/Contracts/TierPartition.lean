import TrueAlpha.Contracts.TierBands

/-!
# When tier bands partition the efficiencies

The validator compares neighbouring bounds for equality, and two missing bounds are equal.  So accepted bands cover every
efficiency, but one band alone holds it exactly when both inner bounds are there (`answers_iff_innerBounded`).
-/

namespace TrueAlpha

theorem boundsReached_mono (bands : List TierBand) {x y : ℚ} (hxy : x ≤ y) : boundsReached bands x ≤ boundsReached bands y :=
  (reached_sublist bands hxy).length_le

namespace TierValuation

variable (valuation : TierValuation)

theorem open_above : valuation.bands.getLast?.bind TierBand.laborEfficiencyUpperBound = none := by
  have h := valuation.ordered
  simp only [orderedTierBands] at h
  split_ifs at h with _ hdomain _
  have hsorted : sortedBy (fun band => band.tier.order) valuation.bands = valuation.bands := Except.ok.inj h
  rw [hsorted] at hdomain
  simpa using fun hsome => hdomain (Or.inr hsome)

theorem exists_bands : ∃ traditional tech native, valuation.bands = [traditional, tech, native] ∧
    traditional.laborEfficiencyLowerBound = none ∧
    tech.laborEfficiencyLowerBound = traditional.laborEfficiencyUpperBound ∧
    native.laborEfficiencyLowerBound = tech.laborEfficiencyUpperBound ∧
    native.laborEfficiencyUpperBound = none := by
  obtain ⟨traditional, tech, native, hbands⟩ := List.length_eq_three.mp valuation.three
  obtain ⟨hc, hlower, _⟩ := valuation.bands_spec
  have hupper := valuation.open_above
  rw [hbands] at hc hlower hupper
  simp only [contiguous, decide_eq_true_eq, and_true] at hc
  exact ⟨traditional, tech, native, hbands, hlower, hc.1.symm, hc.2.symm, hupper⟩

theorem tier_mono {x y : ℚ} {band band' : TierBand} (hxy : x ≤ y) (h : bandFor valuation.bands x = .ok band)
    (h' : bandFor valuation.bands y = .ok band') : band.tier.order ≤ band'.tier.order := by
  rw [(bandFor_spec h).2, (bandFor_spec h').2]
  exact boundsReached_mono valuation.bands hxy

def InnerBounded : Prop := ∀ band ∈ valuation.bands.dropLast, band.laborEfficiencyUpperBound.isSome

/-- One band holds the efficiency, `band_for` returns it, and no larger efficiency has a lower tier. -/
def Answers (x : ℚ) : Prop :=
  ∃ band, (valuation.bands.filter fun band => band.holds x) = [band] ∧ bandFor valuation.bands x = .ok band ∧
    ∀ y band', x ≤ y → bandFor valuation.bands y = .ok band' → band.tier.order ≤ band'.tier.order

theorem filter_holds_of_innerBounded (h : valuation.InnerBounded) (x : ℚ) :
    ∃ band, (valuation.bands.filter fun band => band.holds x) = [band] := by
  obtain ⟨traditional, tech, native, hbands, hlower, hfirst, hsecond, hupper⟩ := valuation.exists_bands
  simp only [InnerBounded, hbands, List.dropLast, List.forall_mem_cons] at h
  obtain ⟨first, hu⟩ := Option.isSome_iff_exists.mp h.1
  obtain ⟨second, hv⟩ := Option.isSome_iff_exists.mp h.2.1
  rw [hu] at hfirst
  rw [hv] at hsecond
  have hlt : first < second := tech.bounds_lt first hfirst second hv
  rw [hbands]
  by_cases hx : x < first
  · exact ⟨traditional, by
      simp [TierBand.holds, hlower, hfirst, hsecond, hupper, hu, hx, hx.trans hlt]⟩
  · by_cases hx' : x < second
    · exact ⟨tech, by
        simp [TierBand.holds, hfirst, hsecond, hu, hv, hx', not_lt.mp hx]⟩
    · have hge : first ≤ x := not_lt.mp hx
      exact ⟨native, by
        simp [TierBand.holds, hsecond, hupper, hu, hv, hge, not_lt.mp hx']⟩

theorem innerBounded_of_filter_holds {x : ℚ} {band : TierBand}
    (h : (valuation.bands.filter fun band => band.holds x) = [band]) : valuation.InnerBounded := by
  obtain ⟨traditional, tech, native, hbands, hlower, hfirst, hsecond, hupper⟩ := valuation.exists_bands
  simp only [InnerBounded, hbands, List.dropLast, List.forall_mem_cons]
  rw [hbands] at h
  have hlen := congrArg List.length h
  cases hu : traditional.laborEfficiencyUpperBound with
  | none =>
    -- the first band is unbounded; the second or the third one holds the efficiency too
    rw [hu] at hfirst
    cases hv : tech.laborEfficiencyUpperBound with
    | none => simp [TierBand.holds, hlower, hfirst, hu, hv] at hlen
    | some second =>
      rw [hv] at hsecond
      by_cases hx : x < second
      · simp [TierBand.holds, hlower, hfirst, hu, hv, hx] at hlen
      · simp [TierBand.holds, hlower, hfirst, hsecond, hupper, hu, hv, not_lt.mp hx] at hlen
  | some first =>
    rw [hu] at hfirst
    cases hv : tech.laborEfficiencyUpperBound with
    | none =>
      -- the third band is unbounded; the first or the second one holds the efficiency too
      rw [hv] at hsecond
      by_cases hx : x < first
      · simp [TierBand.holds, hlower, hfirst, hsecond, hupper, hu, hx] at hlen
      · simp [TierBand.holds, hfirst, hsecond, hupper, hu, hv, not_lt.mp hx] at hlen
    | some second => simp

/-- The bands answer for an efficiency exactly when both inner bounds are there. -/
theorem answers_iff_innerBounded (x : ℚ) : valuation.Answers x ↔ valuation.InnerBounded := by
  constructor
  · rintro ⟨band, hfilter, _⟩
    exact valuation.innerBounded_of_filter_holds hfilter
  · intro h
    obtain ⟨band, hfilter⟩ := valuation.filter_holds_of_innerBounded h x
    have hband : bandFor valuation.bands x = .ok band := by
      rw [bandFor, ← List.head?_filter, hfilter]
      rfl
    exact ⟨band, hfilter, hband, fun y band' hxy hband' => valuation.tier_mono hxy hband hband'⟩

theorem four_places_le : 4 ≤ 12 := by decide

def unbounded : TierValuation where
  valuationBasis := .priceToSales
  bands :=
    [⟨.traditional, none, none, 1, 2, nofun, by norm_num, by norm_num⟩,
      ⟨.tech, none, none, 1, 2, nofun, by norm_num, by norm_num⟩,
      ⟨.largeModelNative, none, none, 1, 2, nofun, by norm_num, by norm_num⟩]
  quantization := ⟨4, four_places_le⟩
  three := rfl
  ordered := by decide +kernel

/-- Three bands hold the efficiency zero. -/
theorem unbounded_not_answers : ¬ unbounded.Answers 0 := by
  rintro ⟨band, hfilter, _⟩
  have hthree : (unbounded.bands.filter fun band => band.holds 0).length = 3 := by decide +kernel
  rw [hfilter] at hthree
  cases hthree

end TierValuation

end TrueAlpha
