import Mathlib.Algebra.BigOperators.Intervals
import Mathlib.Algebra.Order.BigOperators.Group.Finset
import TrueAlpha.Factors.PegSpec

/-!
# The window of a growth rate

Two boundaries lie further apart than two tolerances (`boundaryDays_gap`), so the chosen ends are distinct and go back in time
(`pairwise_of_isWindow`).  `growthOver` is what follows, over any rounding.
-/

namespace TrueAlpha

/-- `round(offset * 365.25)`: from the latest end back to a year's boundary. -/
def boundaryDays (offset : ℕ) : ℤ := roundHalfEven (offset * (1461 / 4 : ℚ))

theorem boundaryDays_zero : boundaryDays 0 = 0 := by decide +kernel

theorem boundaryDays_gap {offset later : ℕ} (h : offset < later) :
    boundaryDays offset + 2 * windowToleranceDays < boundaryDays later := by
  have hearly := (abs_le.mp (abs_roundHalfEven_sub_le (offset * (1461 / 4 : ℚ)))).2
  have hlate := (abs_le.mp (abs_roundHalfEven_sub_le (later * (1461 / 4 : ℚ)))).1
  have hnext : (offset : ℚ) + 1 ≤ later := by exact_mod_cast h
  have hcast : ((boundaryDays offset + 2 * 45 : ℤ) : ℚ) < (boundaryDays later : ℚ) := by
    push_cast
    unfold boundaryDays
    linarith
  exact_mod_cast hcast

def IsNearest (ends : List Date) (latest : Date) (targetDays : ℤ) (finish : Date) : Prop := finish ∈ ends ∧
    (∀ other ∈ ends, windowDistance latest targetDays finish ≤ windowDistance latest targetDays other) ∧
    windowDistance latest targetDays finish ≤ windowToleranceDays

section

variable {ends : List Date} {latest finish : Date} {targetDays : ℤ}

theorem isNearest_of_nearestEnd (hlatest : ∀ other ∈ ends, other ≤ latest)
    (h : nearestEnd ends latest targetDays = some finish) : IsNearest ends latest targetDays finish := by
  have hall : (ends.filter fun finish => finish ≤ latest) = ends :=
    List.filter_eq_self.mpr fun other hother => decide_eq_true (hlatest other hother)
  obtain ⟨hfind, htolerance⟩ := Option.filter_eq_some_iff.mp h
  rw [hall] at hfind
  have hleast := List.find?_some hfind
  exact ⟨List.mem_of_find?_eq_some hfind, of_decide_eq_true hleast, of_decide_eq_true htolerance⟩

theorem exists_nearestEnd_iff (hlatest : ∀ other ∈ ends, other ≤ latest) :
    (∃ finish, nearestEnd ends latest targetDays = some finish) ↔
      ∃ finish ∈ ends, windowDistance latest targetDays finish ≤ windowToleranceDays := by
  constructor
  · rintro ⟨finish, h⟩
    obtain ⟨hmem, -, htolerance⟩ := isNearest_of_nearestEnd hlatest h
    exact ⟨finish, hmem, htolerance⟩
  · rintro ⟨finish, hmem, htolerance⟩
    have hall : (ends.filter fun finish => finish ≤ latest) = ends :=
      List.filter_eq_self.mpr fun other hother => decide_eq_true (hlatest other hother)
    obtain ⟨least, hleast, hmin⟩ := ends.toFinset.exists_min_image (windowDistance latest targetDays)
      ⟨finish, List.mem_toFinset.mpr hmem⟩
    have hmin' : ∀ other ∈ ends, windowDistance latest targetDays least ≤ windowDistance latest targetDays other :=
      fun other hother => hmin other (List.mem_toFinset.mpr hother)
    have hsome : (ends.find? fun finish => ∀ other ∈ ends,
        windowDistance latest targetDays finish ≤ windowDistance latest targetDays other).isSome := by
      rw [List.find?_isSome]
      exact ⟨least, List.mem_toFinset.mp hleast, decide_eq_true hmin'⟩
    obtain ⟨best, hbest⟩ := Option.isSome_iff_exists.mp hsome
    have hleast' := List.find?_some hbest
    have hclose := (of_decide_eq_true hleast' finish hmem).trans htolerance
    refine ⟨best, ?_⟩
    unfold nearestEnd
    rw [hall]
    exact Option.filter_eq_some_iff.mpr ⟨hbest, decide_eq_true hclose⟩

end

def IsWindow (ends : List Date) (latest : Date) (years : ℕ) (steps : List Date) : Prop :=
  List.Forall₂ (fun offset finish => IsNearest ends latest (boundaryDays offset) finish) (List.range (years + 1)) steps

section

variable {ends steps : List Date} {latest : Date} {years : ℕ}

theorem pairwise_of_forall₂ {α β : Type} {r : α → α → Prop} {s : β → β → Prop} {P : α → β → Prop}
    (hstep : ∀ a a' b b', r a a' → P a b → P a' b' → s b b') {l : List α} {l' : List β} (h : List.Forall₂ P l l')
    (hl : l.Pairwise r) : l'.Pairwise s := by
  induction h with
  | nil => exact .nil
  | cons hhead htail ih =>
    rw [List.pairwise_cons] at hl ⊢
    refine ⟨fun b' hb' => ?_, ih hl.2⟩
    obtain ⟨a', ha', hP⟩ := exists_of_mem_forall₂ htail.flip hb'
    exact hstep _ _ _ _ (hl.1 a' ha') hhead hP

theorem pairwise_of_isWindow (h : IsWindow ends latest years steps) : steps.Pairwise (· > ·) := by
  refine pairwise_of_forall₂ (fun offset later finish finish' hlater hnear hnear' => ?_) h List.pairwise_lt_range
  have hgap := boundaryDays_gap hlater
  have hclose := (abs_le.mp hnear.2.2).2
  have hclose' := (abs_le.mp hnear'.2.2).1
  show finish' < finish
  have key : ∀ a b l t t' w : ℤ, t + 2 * w < t' → l - a - t ≤ w → -w ≤ l - b - t' → b < a := by
    intro a b l t t' w h1 h2 h3
    omega
  exact key finish finish' latest _ _ _ hgap hclose hclose'

theorem length_of_isWindow (h : IsWindow ends latest years steps) : steps.length = years + 1 := by
  rw [← h.length_eq, List.length_range]

theorem head?_of_isWindow (hlatest : latest ∈ ends) (h : IsWindow ends latest years steps) : steps.head? = some latest := by
  unfold IsWindow at h
  rw [List.range_succ_eq_map] at h
  cases h with
  | cons hhead htail =>
    have hnear := hhead.2.1 latest hlatest
    rw [boundaryDays_zero] at hnear
    have key : ∀ l a : ℤ, |l - a - 0| ≤ |l - l - 0| → a = l := by
      intro l a habs
      simp only [sub_zero, sub_self, abs_zero, abs_nonpos_iff] at habs
      omega
    rw [List.head?_cons, key latest _ hnear]

end

theorem latestOf_eq_some_iff {ends : List Date} {latest : Date} :
    latestOf ends = some latest ↔ latest ∈ ends ∧ ∀ other ∈ ends, other ≤ latest := by
  have hfold : ∀ (l : List Date) (first : Date), ∀ other ∈ first :: l, other ≤ l.foldl max first := by
    intro l
    induction l with
    | nil => simp
    | cons finish l ih =>
      intro first other hother
      rw [List.foldl_cons]
      have hmax := ih (max first finish) (max first finish) List.mem_cons_self
      obtain rfl | rfl | hmem := by simpa using hother
      · exact (le_max_left _ _).trans hmax
      · exact (le_max_right _ _).trans hmax
      · exact ih (max first finish) other (List.mem_cons_of_mem _ hmem)
  have hgreatest : ∀ latest, latestOf ends = some latest → ∀ other ∈ ends, other ≤ latest := by
    intro latest h
    cases ends with
    | nil => cases h
    | cons first l =>
      cases h
      exact hfold l first
  constructor
  · exact fun h => ⟨latestOf_mem h, hgreatest latest h⟩
  · rintro ⟨hmem, hmax⟩
    cases h : latestOf ends with
    | none =>
      cases ends with
      | nil => cases hmem
      | cons first l => cases h
    | some greatest => rw [le_antisymm (hmax greatest (latestOf_mem h)) (hgreatest greatest h latest hmem)]

def windowOf (ends : List Date) (latest : Date) (years : ℕ) : Option (List Date) :=
  (List.range (years + 1)).mapM fun offset => nearestEnd ends latest (boundaryDays offset)

theorem mapM_eq_some_iff {α β : Type} {f : α → Option β} {l : List α} {r : List β} :
    l.mapM f = some r ↔ List.Forall₂ (fun a b => f a = some b) l r := by
  induction l generalizing r with
  | nil => simp [eq_comm]
  | cons a l ih =>
    simp only [List.mapM_cons, Option.bind_eq_bind, Option.bind_eq_some_iff, ih, List.forall₂_cons_left_iff]
    constructor
    · rintro ⟨b, hb, rest, hrest, h⟩
      exact ⟨b, rest, hb, hrest, (Option.some.inj h).symm⟩
    · rintro ⟨b, rest, hb, hrest, rfl⟩
      exact ⟨b, hb, rest, hrest, rfl⟩

def weightedStepIn (round : ℚ → ℚ) (state : ℚ × ℚ) (step : ℕ × ℚ × ℚ) : Except FactorError (ℚ × ℚ) := do
  let (weight, previous, value) := step
  let ratio ← computed (if previous = 0 then none else some (round (value / previous)))
  let weighted := round (weight * round (ratio - 1))
  return (round (state.1 + weighted), round (state.2 + weight))

def weightedGrowthIn (round : ℚ → ℚ) (ordered : List ℚ) : Except FactorError ℚ := do
  let steps := (List.range' 1 (ordered.length - 1)).zip (ordered.zip ordered.tail)
  let (weighted, total) ← steps.foldlM (weightedStepIn round) (0, 0)
  computed (if total = 0 then none else some (round (weighted / total)))

def growthOver (round : ℚ → ℚ) (values : Dict Date ℚ) (latest : Date) (steps : List Date) :
    Except FactorError (Option ℚ × Option (Date × Date)) :=
  let ordered := steps.reverse.filterMap values.get?
  let window := (steps.getLast?.getD latest, steps.head?.getD latest)
  if ∃ value ∈ ordered, value ≤ 0 then .ok (none, some window)
  else do
    let rate ← weightedGrowthIn round ordered
    return (some rate, some window)

def recencyWeightedGrowthIn (round : ℚ → ℚ) (values : Dict Date ℚ) (years : ℕ) :
    Except FactorError (Option ℚ × Option (Date × Date)) :=
  match latestOf values.keys with
  | none => .ok (none, none)
  | some latest =>
    if years < 1 then .ok (none, none)
    else
      match windowOf values.keys latest years with
      | none => .ok (none, none)
      | some steps =>
        if steps.dedup.length ≠ years + 1 then .ok (none, none)
        else growthOver round values latest steps

theorem recencyWeightedGrowth_eq : recencyWeightedGrowth = recencyWeightedGrowthIn pegContext.round := by
  funext values years
  have hoffsets : (do let offset ← List.range (years + 1); pure (offset : ℚ)) = (List.range (years + 1)).map Nat.cast :=
    List.map_eq_flatMap.symm
  unfold recencyWeightedGrowth recencyWeightedGrowthIn windowOf boundaryDays growthOver
  simp only [hoffsets, List.mapM_map]
  rfl

section

variable {round : ℚ → ℚ} {values : Dict Date ℚ} {latest : Date} {years : ℕ} {steps : List Date}

section

variable (hlatest : latestOf values.keys = some latest)

include hlatest

theorem isWindow_of_windowOf
    (h : windowOf values.keys latest years = some steps) : IsWindow values.keys latest years steps :=
  (mapM_eq_some_iff.mp h).imp fun _ _ hnear => isNearest_of_nearestEnd (latestOf_eq_some_iff.mp hlatest).2 hnear

theorem recencyWeightedGrowthIn_of_window (hyears : 1 ≤ years) (h : windowOf values.keys latest years = some steps) :
    recencyWeightedGrowthIn round values years = growthOver round values latest steps := by
  have hwindow := isWindow_of_windowOf hlatest h
  have hdistinct : steps.Nodup := (pairwise_of_isWindow hwindow).imp fun hlt => ne_of_gt hlt
  unfold recencyWeightedGrowthIn
  rw [hlatest]
  dsimp only
  rw [if_neg (not_lt.mpr hyears), h]
  dsimp only
  rw [hdistinct.dedup, length_of_isWindow hwindow, if_neg (not_not.mpr rfl)]

theorem recencyWeightedGrowthIn_of_no_window
    (h : windowOf values.keys latest years = none) :
    recencyWeightedGrowthIn round values years = .ok (none, none) := by
  unfold recencyWeightedGrowthIn
  rw [hlatest]
  dsimp only
  rw [h]
  split_ifs <;> rfl

end

end

end TrueAlpha
