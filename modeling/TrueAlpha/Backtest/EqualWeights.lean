import TrueAlpha.Backtest.Engine
import TrueAlpha.Contracts.Strategy
import TrueAlpha.Lib.DoubleRounding

/-!
# Equal weights

The embedding of `equal_weights` and of the checks of `TargetPortfolio`.  Every weight but the last is the rounding of `1/N`;
the last one is what remains, which is not negative while `N (N - 1)` is at most `2 * 10 ^ p` (`equalWeights_spec`).
-/

namespace TrueAlpha.Backtest

/-- The exceptions of `equal_weights`. -/
inductive EqualWeightsError where
  | invalidOperation
  | exceedOne (count places : ℕ)
  deriving DecidableEq, Repr

def signalled (value : Option ℚ) : Except EqualWeightsError ℚ :=
  match value with
  | some value => .ok value
  | none => .error .invalidOperation

def equalWeights (symbols : List Symbol) (quantization : Quantization) : Except EqualWeightsError (Dict Symbol ℚ) :=
  let unique := sortedSet symbols
  match unique.getLast? with
  | none => .ok Dict.empty
  | some last => do
    let share ← signalled (Context.default.div 1 unique.length)
    let weight ← signalled (Context.default.quantize quantization.decimalPlaces share)
    let weights := Dict.ofList (unique.dropLast.map fun symbol => (symbol, weight))
    let remainder := Context.default.sub 1 (Context.default.mul weight (unique.length - 1 : ℕ))
    if remainder < 0 then .error (.exceedOne unique.length quantization.decimalPlaces)
    else .ok (weights.set last remainder)

/-- The exceptions of `TargetPortfolio`. -/
inductive TargetError where
  | negativeWeight
  | sumAboveOne
  deriving DecidableEq, Repr

def targetPortfolio (cutoffAt : Instant) (weights : Dict Symbol ℚ) : Except TargetError TargetPortfolio :=
  if hnegative : ∃ weight ∈ weights.values, weight < 0 then .error .negativeWeight
  else if hsum : 1 < weights.values.sum then .error .sumAboveOne
  else .ok ⟨cutoffAt, weights, fun weight hweight => not_lt.mp fun hlt => hnegative ⟨weight, hweight, hlt⟩, not_lt.mp hsum⟩

theorem exists_targetPortfolio (cutoffAt : Instant) {weights : Dict Symbol ℚ} (hnonneg : ∀ weight ∈ weights.values, 0 ≤ weight)
    (hsum : weights.values.sum ≤ 1) :
    ∃ target, targetPortfolio cutoffAt weights = .ok target ∧ target.cutoffAt = cutoffAt ∧ target.weights = weights := by
  have hnegative : ¬ ∃ weight ∈ weights.values, weight < 0 := fun ⟨weight, hweight, hlt⟩ => not_lt.mpr (hnonneg weight hweight) hlt
  unfold targetPortfolio
  rw [dif_neg hnegative, dif_neg (not_lt.mpr hsum)]
  exact ⟨_, rfl, rfl, rfl⟩

section

variable {count places : ℕ}

theorem exists_units (hcount : 1 ≤ count) (places : ℕ) :
    ∃ units : ℕ, quantize places (1 / count : ℚ) = units / 10 ^ places ∧ 2 * (units * count) ≤ 2 * 10 ^ places + count := by
  have hpos : (0 : ℚ) < count := Nat.cast_pos.mpr hcount
  have hnonneg : 0 ≤ halfEven ((1 / count : ℚ) * 10 ^ places) := by
    have hfloor := floor_le_halfEven ((1 / count : ℚ) * 10 ^ places)
    have hzero : 0 ≤ ⌊(1 / count : ℚ) * 10 ^ places⌋ := Int.floor_nonneg.mpr (by positivity)
    omega
  obtain ⟨units, hunits⟩ := Int.eq_ofNat_of_zero_le hnonneg
  refine ⟨units, by rw [quantize, hunits, Int.cast_natCast], ?_⟩
  have herror := (abs_le.mp (abs_roundHalfEven_sub_le ((1 / count : ℚ) * 10 ^ places))).2
  rw [← halfEven_eq_roundHalfEven, hunits, Int.cast_natCast] at herror
  have hscaled : 2 * ((units : ℚ) * count) ≤ 2 * 10 ^ places + count := by
    have hmul := mul_le_mul_of_nonneg_right herror (show (0 : ℚ) ≤ 2 * count by positivity)
    have hcancel : (1 / count : ℚ) * 10 ^ places * (2 * count) = 2 * 10 ^ places := by field_simp
    rw [sub_mul, hcancel] at hmul
    linarith
  exact_mod_cast hscaled

theorem units_le (hbound : count * (count - 1) ≤ 2 * 10 ^ places) {units : ℕ}
    (hunits : 2 * (units * count) ≤ 2 * 10 ^ places + count) (hcount : 1 ≤ count) : units * (count - 1) ≤ 10 ^ places := by
  obtain ⟨rest, rfl⟩ : ∃ rest, count = rest + 1 := ⟨count - 1, by omega⟩
  rw [Nat.add_sub_cancel] at hbound ⊢
  have hscaled : 2 * (units * rest) * (rest + 1) ≤ 2 * 10 ^ places * (rest + 1) := by
    calc 2 * (units * rest) * (rest + 1) = 2 * (units * (rest + 1)) * rest := by ring
      _ ≤ (2 * 10 ^ places + (rest + 1)) * rest := Nat.mul_le_mul_right rest hunits
      _ = 2 * 10 ^ places * rest + (rest + 1) * rest := by ring
      _ ≤ 2 * 10 ^ places * rest + 2 * 10 ^ places := Nat.add_le_add_left hbound _
      _ = 2 * 10 ^ places * (rest + 1) := by ring
  have hle := Nat.le_of_mul_le_mul_right hscaled (Nat.succ_pos rest)
  omega

theorem count_digits (hbound : count * (count - 1) ≤ 2 * 10 ^ places) (hplaces : places ≤ 12) :
    count * 10 ^ (places + 1) < 10 ^ Context.default.precision := by
  have hten : 10 ^ places ≤ 10 ^ 12 := Nat.pow_le_pow_right (by norm_num) hplaces
  have hcount : count ≤ 2 * 10 ^ places := by
    obtain hsmall | hlarge := Nat.lt_or_ge count 2
    · have hone : 1 ≤ 10 ^ places := Nat.one_le_pow _ _ (by norm_num)
      omega
    · exact (Nat.le_mul_of_pos_right count (by omega)).trans hbound
  calc count * 10 ^ (places + 1) ≤ 2 * 10 ^ 12 * 10 ^ 13 :=
        Nat.mul_le_mul (hcount.trans (Nat.mul_le_mul_left 2 hten)) (Nat.pow_le_pow_right (by norm_num) (by omega))
    _ < 10 ^ Context.default.precision := by decide

theorem quantize_share (hcount : 1 ≤ count) (hbound : count * (count - 1) ≤ 2 * 10 ^ places) (hplaces : places ≤ 12) :
    (Context.default.div 1 count).bind (Context.default.quantize places) = some (quantize places (1 / count : ℚ)) := by
  have hpos : (0 : ℚ) < count := Nat.cast_pos.mpr hcount
  have hle : |(1 / count : ℚ)| ≤ 1 := by
    rw [abs_of_pos (by positivity), div_le_one hpos]
    exact_mod_cast hcount
  have hround : |Context.default.round (1 / count)| ≤ 2 := Context.abs_round_le (by decide) hle
  have hdigits : places < Context.default.precision := lt_of_le_of_lt hplaces (by decide)
  obtain ⟨rounded, hrounded⟩ := Context.exists_quantize hdigits hround
  rw [Context.div, if_neg hpos.ne', Option.bind_some, hrounded]
  unfold Context.quantize at hrounded
  dsimp only at hrounded
  split_ifs at hrounded
  rw [← Option.some.inj hrounded, roundTo_eq_quantize, Context.default.quantize_round_inv hcount (count_digits hbound hplaces)]

theorem remainder_eq (hcount : 1 ≤ count) (hbound : count * (count - 1) ≤ 2 * 10 ^ places) (hplaces : places ≤ 12) :
    Context.default.sub 1 (Context.default.mul (quantize places (1 / count : ℚ)) (count - 1 : ℕ)) =
      1 - quantize places (1 / count : ℚ) * (count - 1 : ℕ) ∧
    0 ≤ 1 - quantize places (1 / count : ℚ) * (count - 1 : ℕ) := by
  obtain ⟨units, hweight, hunits⟩ := exists_units hcount places
  have hle := units_le hbound hunits hcount
  have hten : 10 ^ places ≤ 10 ^ 12 := Nat.pow_le_pow_right (by norm_num) hplaces
  have hlimit : 10 ^ 12 < 10 ^ Context.default.precision := by decide
  have hpow : (10 : ℚ) ^ places ≠ 0 := by positivity
  have hproduct : quantize places (1 / count : ℚ) * (count - 1 : ℕ) = ((units * (count - 1) : ℕ) : ℚ) / 10 ^ places := by
    rw [hweight, Nat.cast_mul, div_mul_eq_mul_div]
  have hrest : 1 - quantize places (1 / count : ℚ) * (count - 1 : ℕ) =
      ((10 ^ places - units * (count - 1) : ℕ) : ℚ) / 10 ^ places := by
    rw [hproduct, Nat.cast_sub hle, sub_div, Nat.cast_pow, Nat.cast_ofNat, div_self hpow]
  refine ⟨?_, ?_⟩
  · rw [Context.mul, hproduct, Context.round_of_places _ (by omega), ← hproduct, Context.sub, hrest,
      Context.round_of_places _ (by omega)]
  · rw [hrest]
    positivity

end

section

variable {symbols : List Symbol} {quantization : Quantization}

theorem equalWeights_eq (hsome : symbols ≠ []) (hbound : (sortedSet symbols).length * ((sortedSet symbols).length - 1) ≤
    2 * 10 ^ quantization.decimalPlaces) :
    ∃ weights last, equalWeights symbols quantization = .ok weights ∧ (sortedSet symbols).getLast? = some last ∧
      weights.items = ((sortedSet symbols).dropLast.map fun symbol =>
        (symbol, quantize quantization.decimalPlaces (1 / (sortedSet symbols).length : ℚ))) ++
          [(last, 1 - quantize quantization.decimalPlaces (1 / (sortedSet symbols).length : ℚ) *
            ((sortedSet symbols).length - 1 : ℕ))] := by
  have hne : sortedSet symbols ≠ [] := by
    obtain ⟨symbol, hsymbol⟩ := List.exists_mem_of_ne_nil _ hsome
    exact List.ne_nil_of_mem (mem_sortedSet.mpr hsymbol)
  have hcount : 1 ≤ (sortedSet symbols).length := List.length_pos_iff.mpr hne
  have hlast := List.getLast?_eq_some_getLast hne
  have hsplit := List.dropLast_concat_getLast hne
  have hnodup : (sortedSet symbols).Nodup := (strictSorted_sortedSet symbols).imp fun hlt => ne_of_lt hlt
  rw [← hsplit, List.nodup_append] at hnodup
  have hmap : (((sortedSet symbols).dropLast.map fun symbol =>
      (symbol, quantize quantization.decimalPlaces (1 / (sortedSet symbols).length : ℚ))).map Prod.fst) =
      (sortedSet symbols).dropLast := by
    rw [List.map_map]
    exact List.map_id _
  obtain ⟨hexact, hnonneg⟩ := remainder_eq hcount hbound quantization.places_le
  obtain ⟨share, hshare, hweight⟩ := Option.bind_eq_some_iff.mp (quantize_share hcount hbound quantization.places_le)
  unfold equalWeights
  dsimp only
  rw [hlast]
  dsimp only
  rw [hshare, signalled, ok_bind, hweight, signalled, ok_bind, hexact, if_neg (not_lt.mpr hnonneg)]
  refine ⟨_, _, rfl, rfl, ?_⟩
  rw [Dict.items_set_of_not_mem, Dict.items_ofList]
  · rw [hmap]
    exact hnodup.1
  · rw [Dict.keys, Dict.items_ofList (by rw [hmap]; exact hnodup.1), hmap]
    intro hmem
    exact hnodup.2.2 _ hmem _ (List.mem_singleton.mpr rfl) rfl

theorem equalWeights_spec (hsome : symbols ≠ []) (hbound : (sortedSet symbols).length * ((sortedSet symbols).length - 1) ≤
    2 * 10 ^ quantization.decimalPlaces) :
    ∃ weights, equalWeights symbols quantization = .ok weights ∧ weights.keys = sortedSet symbols ∧
      (∀ weight ∈ weights.values, 0 ≤ weight) ∧ weights.values.sum = 1 ∧
      ∀ symbol ∈ (sortedSet symbols).dropLast,
        weights.get? symbol = some (quantize quantization.decimalPlaces (1 / (sortedSet symbols).length : ℚ)) := by
  obtain ⟨weights, last, hweights, hlast, hitems⟩ := equalWeights_eq hsome hbound
  have hne : sortedSet symbols ≠ [] := by
    rintro hnil
    rw [hnil] at hlast
    cases hlast
  have hcount : 1 ≤ (sortedSet symbols).length := List.length_pos_iff.mpr hne
  have hgetLast := List.getLast?_eq_some_getLast hne
  rw [hlast, Option.some.injEq] at hgetLast
  have hshare := quantize_nonneg quantization.decimalPlaces
    (show (0 : ℚ) ≤ 1 / (sortedSet symbols).length by positivity)
  have hvalues : weights.values = ((sortedSet symbols).dropLast.map fun _ =>
      quantize quantization.decimalPlaces (1 / (sortedSet symbols).length : ℚ)) ++
        [1 - quantize quantization.decimalPlaces (1 / (sortedSet symbols).length : ℚ) *
          ((sortedSet symbols).length - 1 : ℕ)] := by
    rw [Dict.values, hitems, List.map_append, List.map_map]
    rfl
  refine ⟨weights, hweights, ?_, ?_, ?_, ?_⟩
  · rw [Dict.keys, hitems, List.map_append, List.map_map, hgetLast]
    exact (congrArg (· ++ _) (List.map_id _)).trans (List.dropLast_concat_getLast hne)
  · intro weight hweight
    rw [hvalues, List.mem_append, List.mem_singleton] at hweight
    obtain hweight | rfl := hweight
    · obtain ⟨_, -, rfl⟩ := List.mem_map.mp hweight
      exact hshare
    · exact (remainder_eq hcount hbound quantization.places_le).2
  · rw [hvalues, List.sum_append, List.map_const', List.sum_replicate, List.length_dropLast, List.sum_singleton, nsmul_eq_mul]
    ring
  · intro symbol hsymbol
    rw [Dict.get?_eq_some_iff, hitems, List.mem_append]
    exact Or.inl (List.mem_map.mpr ⟨symbol, hsymbol, rfl⟩)

end

end TrueAlpha.Backtest
