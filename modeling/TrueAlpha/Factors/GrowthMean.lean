import Mathlib.Algebra.BigOperators.Ring.Finset
import TrueAlpha.Factors.GrowthWindow

/-!
# The growth rate as a mean

`_recency_weighted_growth` returns a rate exactly when each boundary has an end in the tolerance and the chosen values are
positive.  It is the mean of the yearly rates (`recencyWeightedGrowth_mean`).
-/

namespace TrueAlpha

open Finset

section

variable {n : ℕ} {rate : ℕ → ℚ}

/-- The mean of some rates with the weights `1` to `n`. -/
def recencyMean (n : ℕ) (rate : ℕ → ℚ) : ℚ := (∑ i ∈ Icc 1 n, i * rate i) / ∑ i ∈ Icc 1 n, (i : ℚ)

section

variable (hn : 1 ≤ n)

include hn

theorem sum_weights_pos : 0 < ∑ i ∈ Icc 1 n, (i : ℚ) :=
  sum_pos (fun i hi => by exact_mod_cast (mem_Icc.mp hi).1) (nonempty_Icc.mpr hn)

theorem recencyMean_mul : ∑ i ∈ Icc 1 n, i * recencyMean n rate = ∑ i ∈ Icc 1 n, i * rate i := by
  rw [← sum_mul, recencyMean, mul_div_cancel₀ _ (sum_weights_pos hn).ne']

theorem exists_le_recencyMean : ∃ i ∈ Icc 1 n, rate i ≤ recencyMean n rate := by
  have hmean : ∑ i ∈ Icc 1 n, i * recencyMean n rate = ∑ i ∈ Icc 1 n, i * rate i := recencyMean_mul hn
  obtain ⟨i, hi, hle⟩ := exists_le_of_sum_le (nonempty_Icc.mpr hn) hmean.ge
  have hpos : (0 : ℚ) < i := by exact_mod_cast (mem_Icc.mp hi).1
  exact ⟨i, hi, le_of_mul_le_mul_left hle hpos⟩

theorem exists_recencyMean_le : ∃ i ∈ Icc 1 n, recencyMean n rate ≤ rate i := by
  have hmean : ∑ i ∈ Icc 1 n, i * recencyMean n rate = ∑ i ∈ Icc 1 n, i * rate i := recencyMean_mul hn
  obtain ⟨i, hi, hle⟩ := exists_le_of_sum_le (nonempty_Icc.mpr hn) hmean.le
  have hpos : (0 : ℚ) < i := by exact_mod_cast (mem_Icc.mp hi).1
  exact ⟨i, hi, le_of_mul_le_mul_left hle hpos⟩

theorem recencyMean_pos (h : ∀ i ∈ Icc 1 n, 0 < rate i) : 0 < recencyMean n rate := by
  obtain ⟨i, hi, hle⟩ : ∃ i ∈ Icc 1 n, rate i ≤ recencyMean n rate := exists_le_recencyMean hn
  exact (h i hi).trans_le hle

theorem recencyMean_lt {rate' : ℕ → ℚ} (hsame : ∀ i ∈ Icc 1 n, i ≠ n → rate' i = rate i)
    (hnewest : rate n < rate' n) : recencyMean n rate < recencyMean n rate' := by
  refine div_lt_div_of_pos_right (sum_lt_sum (fun i hi => ?_) ⟨n, right_mem_Icc.mpr hn, ?_⟩) (sum_weights_pos hn)
  · by_cases hlast : i = n
    · rw [hlast]
      exact mul_le_mul_of_nonneg_left hnewest.le (Nat.cast_nonneg n)
    · rw [hsame i hi hlast]
  · exact mul_lt_mul_of_pos_left hnewest (by exact_mod_cast hn)

end

end

def yearlyRate (value : ℕ → ℚ) (i : ℕ) : ℚ := value i / value (i - 1) - 1

theorem weightedStepIn_id {weighted total previous value : ℚ} {weight : ℕ} (h : previous ≠ 0) :
    weightedStepIn id (weighted, total) (weight, previous, value) =
      .ok (weighted + weight * (value / previous - 1), total + weight) := by
  unfold weightedStepIn
  dsimp only
  rw [if_neg h]
  rfl

theorem weightedGrowthIn_id {value : ℕ → ℚ} {n : ℕ} (hn : 1 ≤ n) (hne : ∀ i ≤ n, value i ≠ 0) :
    weightedGrowthIn id ((List.range (n + 1)).map value) = .ok (recencyMean n (yearlyRate value)) := by
  have hzip : (List.range' 1 n).zip (((List.range (n + 1)).map value).zip ((List.range (n + 1)).map value).tail) =
      (List.range' 1 n).map fun i => (i, value (i - 1), value i) := by
    apply List.ext_getElem
    · simp
    · intro i hi hi'
      simp [Nat.add_comm]
  -- the sums after the first yearly rates
  have hloop : ∀ m ≤ n, ((List.range' 1 m).map fun i => (i, value (i - 1), value i)).foldlM (weightedStepIn id) (0, 0) =
      .ok (∑ i ∈ Icc 1 m, i * yearlyRate value i, ∑ i ∈ Icc 1 m, (i : ℚ)) := by
    intro m
    induction m with
    | zero =>
      intro _
      simp [pure, Except.pure]
    | succ m ih =>
      intro hm
      have hprevious : value (1 + m - 1) ≠ 0 := hne _ (by omega)
      rw [List.range'_concat, List.map_append, List.foldlM_append, ih (by omega), ok_bind, Nat.one_mul, List.map_singleton,
        List.foldlM_cons, weightedStepIn_id hprevious, ok_bind, List.foldlM_nil, sum_Icc_succ_top (by omega),
        sum_Icc_succ_top (by omega), Nat.add_comm 1 m]
      rfl
  unfold weightedGrowthIn
  rw [List.length_map, List.length_range, Nat.add_sub_cancel, hzip]
  dsimp only
  rw [hloop n le_rfl, ok_bind, if_neg (sum_weights_pos hn).ne']
  rfl

/-! ## The chosen ends -/

/-- The ends taken for a window's boundaries, with their values: `0` is the newest. -/
structure Chosen (values : Dict Date ℚ) (latest : Date) (years : ℕ) (chosen : ℕ → Date) (value : ℕ → ℚ) : Prop where
  nearest : ∀ offset ≤ years, nearestEnd values.keys latest (boundaryDays offset) = some (chosen offset)
  value_eq : ∀ offset ≤ years, values.get? (chosen offset) = some (value offset)

variable {ends : Option (Date × Date)}

section

variable {values : Dict Date ℚ} {latest : Date} {years : ℕ} {chosen : ℕ → Date} {value : ℕ → ℚ} {steps : List Date}

theorem Chosen.windowOf_eq (h : Chosen values latest years chosen value) :
    windowOf values.keys latest years = some ((List.range (years + 1)).map chosen) := by
  unfold windowOf
  rw [mapM_eq_some_iff, List.forall₂_map_right_iff, List.forall₂_same]
  intro offset hoffset
  exact h.nearest offset (Nat.lt_succ_iff.mp (List.mem_range.mp hoffset))

theorem exists_chosen (hnearest : ∀ offset ≤ years, ∃ finish, nearestEnd values.keys latest (boundaryDays offset) = some finish) :
    ∃ chosen value, Chosen values latest years chosen value := by
  have htotal : ∀ offset, ∃ finish, offset ≤ years →
      nearestEnd values.keys latest (boundaryDays offset) = some finish ∧ ∃ value, values.get? finish = some value := by
    intro offset
    by_cases hoffset : offset ≤ years
    · obtain ⟨finish, hfinish⟩ := hnearest offset hoffset
      exact ⟨finish, fun _ => ⟨hfinish, (Dict.mem_keys_iff _ _).mp (mem_of_nearestEnd hfinish)⟩⟩
    · exact ⟨latest, fun h => absurd h hoffset⟩
  choose chosen hchosen using htotal
  refine ⟨chosen, fun offset => (values.get? (chosen offset)).getD 0, fun offset hoffset => (hchosen offset hoffset).1, ?_⟩
  intro offset hoffset
  obtain ⟨value, hvalue⟩ := (hchosen offset hoffset).2
  rw [hvalue, Option.getD_some]

theorem nearest_of_windowOf (h : windowOf values.keys latest years = some steps) :
    ∀ offset ≤ years, ∃ finish, nearestEnd values.keys latest (boundaryDays offset) = some finish := by
  intro offset hoffset
  obtain ⟨finish, -, hfinish⟩ := exists_of_mem_forall₂ (mapM_eq_some_iff.mp h) (List.mem_range.mpr (Nat.lt_succ_iff.mpr hoffset))
  exact ⟨finish, hfinish⟩

section

variable (h : Chosen values latest years chosen value)

include h

theorem Chosen.lt (hlatest : latestOf values.keys = some latest) {i j : ℕ}
    (hij : i < j) (hj : j ≤ years) : chosen j < chosen i := by
  have hpairwise := pairwise_of_isWindow (isWindow_of_windowOf hlatest h.windowOf_eq)
  rw [List.pairwise_map, List.pairwise_iff_getElem] at hpairwise
  have hlength : (List.range (years + 1)).length = years + 1 := List.length_range
  have hlt := hpairwise i j (by omega) (by omega) hij
  rwa [List.getElem_range, List.getElem_range] at hlt

theorem Chosen.zero (hlatest : latestOf values.keys = some latest) : chosen 0 = latest := by
  have hhead := head?_of_isWindow (latestOf_eq_some_iff.mp hlatest).1 (isWindow_of_windowOf hlatest h.windowOf_eq)
  rw [List.range_succ_eq_map, List.map_cons, List.head?_cons] at hhead
  exact Option.some.inj hhead

theorem Chosen.ordered_eq : ((List.range (years + 1)).map chosen).reverse.filterMap values.get? =
      (List.range (years + 1)).map fun i => value (years - i) := by
  have hvalues : ((List.range (years + 1)).map chosen).filterMap values.get? = (List.range (years + 1)).map value := by
    rw [List.filterMap_map, ← List.filterMap_eq_map']
    apply List.filterMap_congr
    intro offset hoffset
    exact h.value_eq offset (Nat.lt_succ_iff.mp (List.mem_range.mp hoffset))
  rw [List.filterMap_reverse, hvalues]
  apply List.ext_getElem
  · simp
  · intro i hi hi'
    simp

theorem Chosen.growth_eq_iff (hlatest : latestOf values.keys = some latest) (hyears : 1 ≤ years) {rate : ℚ} :
    recencyWeightedGrowthIn id values years = .ok (some rate, ends) ↔
      (∀ offset ≤ years, 0 < value offset) ∧ rate = recencyMean years (yearlyRate fun i => value (years - i)) ∧
        ends = some (chosen years, latest) := by
  have hwindow : (((List.range (years + 1)).map chosen).getLast?.getD latest,
      ((List.range (years + 1)).map chosen).head?.getD latest) = (chosen years, latest) := by
    rw [List.range_succ, List.map_append, List.map_singleton, List.getLast?_concat, Option.getD_some, ← List.map_singleton,
      ← List.map_append, ← List.range_succ, List.range_succ_eq_map, List.map_cons, List.head?_cons, Option.getD_some,
      h.zero hlatest]
  rw [recencyWeightedGrowthIn_of_window hlatest hyears h.windowOf_eq, growthOver, h.ordered_eq, hwindow]
  have hsign : (∃ v ∈ (List.range (years + 1)).map fun i => value (years - i), v ≤ 0) ↔ ¬ ∀ offset ≤ years, 0 < value offset := by
    push Not
    constructor
    · rintro ⟨v, hv, hle⟩
      obtain ⟨i, -, rfl⟩ := List.mem_map.mp hv
      exact ⟨years - i, Nat.sub_le _ _, hle⟩
    · rintro ⟨offset, hoffset, hle⟩
      refine ⟨value offset, List.mem_map.mpr ⟨years - offset, List.mem_range.mpr (by omega), ?_⟩, hle⟩
      rw [Nat.sub_sub_self hoffset]
  by_cases hpos : ∀ offset ≤ years, 0 < value offset
  · rw [if_neg (hsign.not.mpr (not_not.mpr hpos)),
      weightedGrowthIn_id hyears fun i _ => (hpos (years - i) (Nat.sub_le _ _)).ne', ok_bind]
    rw [pure_eq_ok_iff, Prod.mk.injEq, Option.some.injEq, and_iff_right hpos]
    exact and_congr eq_comm eq_comm
  · rw [if_pos (hsign.mpr hpos)]
    simp [hpos]

end

theorem exists_chosen_of_growth {rate : ℚ} (h : recencyWeightedGrowthIn id values years = .ok (some rate, ends)) :
    ∃ latest chosen value, latestOf values.keys = some latest ∧ Chosen values latest years chosen value := by
  cases hlatest : latestOf values.keys with
  | none =>
    unfold recencyWeightedGrowthIn at h
    rw [hlatest] at h
    cases h
  | some latest =>
    cases hwindow : windowOf values.keys latest years with
    | none =>
      rw [recencyWeightedGrowthIn_of_no_window hlatest hwindow] at h
      cases h
    | some steps =>
      obtain ⟨chosen, value, hchosen⟩ := exists_chosen (nearest_of_windowOf hwindow)
      exact ⟨latest, chosen, value, rfl, hchosen⟩

theorem Chosen.set (h : Chosen values latest years chosen value) (hlatest : latestOf values.keys = some latest) (newest : ℚ) :
    (values.set latest newest).keys = values.keys ∧
      Chosen (values.set latest newest) latest years chosen (Function.update value 0 newest) := by
  have hkeys : (values.set latest newest).keys = values.keys := by
    rw [Dict.keys_set, if_pos (latestOf_mem hlatest)]
  refine ⟨hkeys, fun offset hoffset => by rw [hkeys, h.nearest offset hoffset], fun offset hoffset => ?_⟩
  by_cases hzero : offset = 0
  · rw [hzero, h.zero hlatest, Dict.get?_set_self, Function.update_self]
  · have hlt := h.lt hlatest (Nat.pos_of_ne_zero hzero) hoffset
    rw [h.zero hlatest] at hlt
    rw [Dict.get?_set_of_ne _ _ (ne_of_gt hlt), h.value_eq offset hoffset, Function.update_of_ne hzero]

theorem Chosen.raised (h : Chosen values latest years chosen value) (hlatest : latestOf values.keys = some latest)
    (hyears : 1 ≤ years) {rate newest : ℚ}
    (hrate : recencyWeightedGrowthIn id values years = .ok (some rate, ends)) (hnewest : value 0 < newest) :
    ∃ raised, recencyWeightedGrowthIn id (values.set latest newest) years = .ok (some raised, ends) ∧ rate < raised := by
  obtain ⟨hpos, rfl, rfl⟩ := (h.growth_eq_iff hlatest hyears).mp hrate
  obtain ⟨hkeys, hset⟩ := h.set hlatest newest
  refine ⟨_, (hset.growth_eq_iff (by rw [hkeys, hlatest]) hyears).mpr ⟨fun offset hoffset => ?_, rfl, rfl⟩, ?_⟩
  · by_cases hzero : offset = 0
    · rw [hzero, Function.update_self]
      exact (hpos 0 (Nat.zero_le _)).trans hnewest
    · rw [Function.update_of_ne hzero]
      exact hpos offset hoffset
  · apply recencyMean_lt hyears
    · intro i hi hlast
      have hi' := mem_Icc.mp hi
      dsimp only [yearlyRate]
      rw [Function.update_of_ne (show years - i ≠ 0 by omega), Function.update_of_ne (show years - (i - 1) ≠ 0 by omega)]
    · dsimp only [yearlyRate]
      rw [Nat.sub_self, Function.update_self, Function.update_of_ne (show years - (years - 1) ≠ 0 by omega)]
      exact sub_lt_sub_right (div_lt_div_of_pos_right hnewest (hpos _ (Nat.sub_le _ _))) 1

/-- The rate is returned exactly when the window is full and positive; it is the mean of the yearly rates over the chosen ends. -/
theorem recencyWeightedGrowth_mean (values : Dict Date ℚ) {years : ℕ} (hyears : 1 ≤ years) :
    ((∃ rate ends, recencyWeightedGrowthIn id values years = .ok (some rate, ends)) ↔
      ∃ latest ∈ values.keys, (∀ other ∈ values.keys, other ≤ latest) ∧ (∀ offset ≤ years, ∃ finish ∈ values.keys,
          windowDistance latest (boundaryDays offset) finish ≤ windowToleranceDays) ∧
        ∀ offset ≤ years, ∀ finish value, nearestEnd values.keys latest (boundaryDays offset) = some finish →
          values.get? finish = some value → 0 < value) ∧
    ∀ rate ends, recencyWeightedGrowthIn id values years = .ok (some rate, ends) →
      ∃ latest chosen value, (∀ other ∈ values.keys, other ≤ latest) ∧ chosen 0 = latest ∧
        Chosen values latest years chosen value ∧ (∀ i j, i < j → j ≤ years → chosen j < chosen i) ∧
        (∀ offset ≤ years, ∀ other ∈ values.keys, windowDistance latest (boundaryDays offset) (chosen offset) ≤
          windowDistance latest (boundaryDays offset) other) ∧
        rate = recencyMean years (yearlyRate fun i => value (years - i)) ∧
        (∃ i ∈ Icc 1 years, yearlyRate (fun i => value (years - i)) i ≤ rate) ∧
        (∃ i ∈ Icc 1 years, rate ≤ yearlyRate (fun i => value (years - i)) i) ∧
        ((∀ i ∈ Icc 1 years, 0 < yearlyRate (fun i => value (years - i)) i) → 0 < rate) ∧
        ∀ newest, value 0 < newest → ∃ raised,
          recencyWeightedGrowthIn id (values.set latest newest) years = .ok (some raised, ends) ∧ rate < raised := by
  refine ⟨⟨?_, ?_⟩, ?_⟩
  · rintro ⟨rate, ends, h⟩
    obtain ⟨latest, chosen, value, hlatest, hchosen⟩ := exists_chosen_of_growth h
    obtain ⟨hmem, hmax⟩ := latestOf_eq_some_iff.mp hlatest
    obtain ⟨hpos, -, -⟩ := (hchosen.growth_eq_iff hlatest hyears).mp h
    refine ⟨latest, hmem, hmax, fun offset hoffset =>
      (exists_nearestEnd_iff hmax).mp ⟨_, hchosen.nearest offset hoffset⟩, ?_⟩
    intro offset hoffset finish v hfinish hv
    rw [hchosen.nearest offset hoffset] at hfinish
    obtain rfl := Option.some.inj hfinish
    rw [hchosen.value_eq offset hoffset] at hv
    exact Option.some.inj hv ▸ hpos offset hoffset
  · rintro ⟨latest, hmem, hmax, htolerance, hpos⟩
    have hlatest := latestOf_eq_some_iff.mpr ⟨hmem, hmax⟩
    obtain ⟨chosen, value, hchosen⟩ :=
      exists_chosen fun offset hoffset => (exists_nearestEnd_iff hmax).mpr (htolerance offset hoffset)
    refine ⟨_, _, (hchosen.growth_eq_iff hlatest hyears).mpr ⟨fun offset hoffset => ?_, rfl, rfl⟩⟩
    exact hpos offset hoffset _ _ (hchosen.nearest offset hoffset) (hchosen.value_eq offset hoffset)
  · intro rate ends h
    obtain ⟨latest, chosen, value, hlatest, hchosen⟩ := exists_chosen_of_growth h
    obtain ⟨-, hmax⟩ := latestOf_eq_some_iff.mp hlatest
    obtain ⟨-, hrate, -⟩ := (hchosen.growth_eq_iff hlatest hyears).mp h
    have hnear := fun offset hoffset => isNearest_of_nearestEnd hmax (hchosen.nearest offset hoffset)
    refine ⟨latest, chosen, value, hmax, hchosen.zero hlatest, hchosen, fun i j => hchosen.lt hlatest,
      fun offset hoffset => (hnear offset hoffset).2.1, hrate, ?_, ?_, ?_, fun newest => hchosen.raised hlatest hyears h⟩
    · rw [hrate]
      exact exists_le_recencyMean hyears
    · rw [hrate]
      exact exists_recencyMean_le hyears
    · rw [hrate]
      exact recencyMean_pos hyears

def twoDecembers : Dict Date ℚ := Dict.ofList [(738885, 100), (739251, 110)]

theorem recencyWeightedGrowth_mean_twoDecembers :
    1 ≤ 1 ∧ ∃ rate ends, recencyWeightedGrowthIn id twoDecembers 1 = .ok (some rate, ends) := by
  refine ⟨le_rfl, (recencyWeightedGrowth_mean twoDecembers le_rfl).1.mpr ⟨739251, by decide, by decide, ?_, ?_⟩⟩
  · intro offset hoffset
    obtain rfl | rfl : offset = 0 ∨ offset = 1 := by omega
    · exact ⟨739251, by decide, by decide +kernel⟩
    · exact ⟨738885, by decide, by decide +kernel⟩
  · intro offset _ finish value _ hvalue
    have hall : ∀ entry ∈ twoDecembers.items, 0 < entry.2 := by decide +kernel
    exact hall (finish, value) ((Dict.get?_eq_some_iff _ _ _).mp hvalue)

end

end TrueAlpha
