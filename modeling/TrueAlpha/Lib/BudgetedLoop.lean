import Mathlib.Data.Rat.Floor

/-!
# Loops that spend a budget

A loop that spends within a budget ends when every round that goes on uses up one of finitely many chances or spends at least a
grain (`runRounds_ends`).
-/

namespace TrueAlpha

/-- What a round of a loop does. -/
inductive Round (σ ρ : Type) where
  | ended (result : ρ)
  | spends (amount : ℚ) (state : σ)

/-- A round that goes on: the state before it, what it spends, and the state after it. -/
structure Spending (σ : Type) where
  before : σ
  amount : ℚ
  after : σ

variable {fuel : ℕ}

section

variable {σ ρ : Type} (round : σ → Round σ ρ)

/-- The result of a loop, if it ends within a number of rounds. -/
def runRounds : ℕ → σ → Option ρ
  | 0, _ => none
  | fuel + 1, state =>
    match round state with
    | .ended result => some result
    | .spends _ after => runRounds fuel after

/-- The rounds that go on, of the first rounds of a loop. -/
def spendings : ℕ → σ → List (Spending σ)
  | 0, _ => []
  | fuel + 1, state =>
    match round state with
    | .ended _ => []
    | .spends amount after => ⟨state, amount, after⟩ :: spendings fuel after

/-- What the first rounds of a loop spend in total. -/
def totalSpent (fuel : ℕ) (state : σ) : ℚ := ((spendings round fuel state).map Spending.amount).sum

variable {round} {state : σ} {result : ρ}

theorem runRounds_of_ended (h : round state = .ended result) (fuel : ℕ) : runRounds round (fuel + 1) state = some result := by
  rw [runRounds, h]

theorem runRounds_of_spends {state after : σ} {amount : ℚ} (h : round state = .spends amount after) (fuel : ℕ) :
    runRounds round (fuel + 1) state = runRounds round fuel after := by
  rw [runRounds, h]

theorem spendings_of_ended (h : round state = .ended result) (fuel : ℕ) : spendings round (fuel + 1) state = [] := by
  rw [spendings, h]

theorem spendings_of_spends {state after : σ} {amount : ℚ} (h : round state = .spends amount after) (fuel : ℕ) :
    spendings round (fuel + 1) state = ⟨state, amount, after⟩ :: spendings round fuel after := by
  rw [spendings, h]

theorem round_of_mem_spendings {spending : Spending σ}
    (h : spending ∈ spendings round fuel state) : round spending.before = .spends spending.amount spending.after := by
  induction fuel generalizing state with
  | zero => cases h
  | succ fuel ih =>
    cases hcase : round state with
    | ended result =>
      rw [spendings_of_ended hcase] at h
      cases h
    | spends amount after =>
      rw [spendings_of_spends hcase] at h
      rcases List.mem_cons.mp h with rfl | h
      · exact hcase
      · exact ih h

/-- A loop whose rounds keep an invariant, and go on below a bound only, ends: with the round that ends it, and not with fewer. -/
theorem runRounds_of_bound {inv : ℕ → σ → Prop} {bound : ℕ}
    (hround : ∀ {i state amount after}, inv i state → round state = .spends amount after → i + 1 < bound ∧ inv (i + 1) after)
    {i : ℕ} (hi : i < bound) (hstate : inv i state) :
    ∃ n last result, i + n < bound ∧ inv (i + n) last ∧ round last = .ended result ∧
      runRounds round (n + 1) state = some result ∧ (∀ fuel ≤ n, runRounds round fuel state = none) ∧
      (spendings round (n + 1) state).length = n := by
  obtain ⟨left, hleft⟩ : ∃ left, left = bound - i := ⟨_, rfl⟩
  induction left generalizing i state with
  | zero => omega
  | succ left ih =>
    cases hcase : round state with
    | ended result =>
      refine ⟨0, state, result, hi, hstate, hcase, runRounds_of_ended hcase 0, fun fuel hfuel => ?_, ?_⟩
      · rw [Nat.le_zero.mp hfuel, runRounds]
      · rw [spendings_of_ended hcase, List.length_nil]
    | spends amount after =>
      obtain ⟨hnext, hafter⟩ := hround hstate hcase
      obtain ⟨n, last, result, hn, hlast, hended, hruns, hfewer, hlength⟩ := ih hnext hafter (by omega)
      rw [show i + 1 + n = i + (n + 1) by omega] at hn hlast
      refine ⟨n + 1, last, result, hn, hlast, hended, ?_, fun fuel hfuel => ?_, ?_⟩
      · rw [runRounds_of_spends hcase, hruns]
      · cases fuel with
        | zero => rfl
        | succ fuel =>
          rw [runRounds_of_spends hcase]
          exact hfewer fuel (by omega)
      · rw [spendings_of_spends hcase, List.length_cons, hlength]

/-- The state in which the loop ends has the rounds' invariants, and spent what they add. -/
theorem runRounds_last (spent : σ → ℚ) (inv : σ → Prop) (hround : ∀ spending ∈ spendings round fuel state,
      spent spending.after = spent spending.before + spending.amount ∧ (inv spending.before → inv spending.after))
    (hstate : inv state) (h : runRounds round fuel state = some result) :
    ∃ last, round last = .ended result ∧ inv last ∧ spent last = spent state + totalSpent round fuel state := by
  unfold totalSpent
  induction fuel generalizing state with
  | zero => cases h
  | succ fuel ih =>
    cases hcase : round state with
    | ended found =>
      rw [runRounds_of_ended hcase] at h
      cases h
      rw [spendings_of_ended hcase]
      exact ⟨state, hcase, hstate, (add_zero _).symm⟩
    | spends amount after =>
      rw [spendings_of_spends hcase, List.forall_mem_cons] at hround
      rw [runRounds_of_spends hcase] at h
      obtain ⟨last, hlast, hinv, hspent⟩ := ih hround.2 (hround.1.2 hstate) h
      refine ⟨last, hlast, hinv, ?_⟩
      rw [hspent, spendings_of_spends hcase, List.map_cons, List.sum_cons, ← add_assoc]
      exact congrArg (· + _) hround.1.1

end

section

variable {σ ρ : Type} {round : σ → Round σ ρ} (spent : σ → ℚ) (chances : σ → ℕ) (budget grain : ℚ)

/-- A round adds to the spending within the budget, and uses up a chance or a grain. -/
structure WithinBudget (spending : Spending σ) : Prop where
  adds : spent spending.after = spent spending.before + spending.amount
  pos : 0 < spending.amount
  within : spent spending.after ≤ budget
  progress : chances spending.after < chances spending.before ∨
    (chances spending.after ≤ chances spending.before ∧ grain ≤ spending.amount)

def roundsLeft (state : σ) : ℕ := chances state + ⌊(budget - spent state) / grain⌋₊

variable {spent chances budget grain}

theorem WithinBudget.roundsLeft_lt (hgrain : 0 < grain) {spending : Spending σ}
    (h : WithinBudget spent chances budget grain spending) :
    roundsLeft spent chances budget grain spending.after < roundsLeft spent chances budget grain spending.before := by
  have hless : budget - spent spending.after ≤ budget - spent spending.before := by
    rw [h.adds]
    linarith [h.pos]
  have hfloor : ⌊(budget - spent spending.after) / grain⌋₊ ≤ ⌊(budget - spent spending.before) / grain⌋₊ :=
    Nat.floor_le_floor (div_le_div_of_nonneg_right hless hgrain.le)
  unfold roundsLeft
  rcases h.progress with hchance | ⟨hchance, hamount⟩
  · omega
  · -- a grain of the budget is a whole round
    have hgrains : (budget - spent spending.after) / grain + 1 ≤ (budget - spent spending.before) / grain := by
      rw [div_add_one hgrain.ne', h.adds]
      apply div_le_div_of_nonneg_right _ hgrain.le
      linarith
    have hnonneg : 0 ≤ (budget - spent spending.after) / grain :=
      div_nonneg (by linarith [h.within]) hgrain.le
    have hstep : ⌊(budget - spent spending.after) / grain⌋₊ + 1 ≤ ⌊(budget - spent spending.before) / grain⌋₊ := by
      rw [← Nat.floor_add_one hnonneg]
      exact Nat.floor_le_floor hgrains
    omega

theorem runRounds_ends (hgrain : 0 < grain) {state : σ} (hfuel : roundsLeft spent chances budget grain state < fuel)
    (h : ∀ spending ∈ spendings round fuel state, WithinBudget spent chances budget grain spending) :
    ∃ result, runRounds round fuel state = some result := by
  induction fuel generalizing state with
  | zero => omega
  | succ fuel ih =>
    cases hcase : round state with
    | ended result => exact ⟨result, runRounds_of_ended hcase fuel⟩
    | spends amount after =>
      rw [spendings_of_spends hcase, List.forall_mem_cons] at h
      have hless : roundsLeft spent chances budget grain after < roundsLeft spent chances budget grain state :=
        h.1.roundsLeft_lt hgrain
      rw [runRounds_of_spends hcase]
      exact ih (by omega) h.2

/-- What a loop spends is what the rounds add to it, and stays within the budget. -/
theorem totalSpent_le {state : σ}
    (h : ∀ spending ∈ spendings round fuel state, WithinBudget spent chances budget grain spending) :
    totalSpent round fuel state = 0 ∨ spent state + totalSpent round fuel state ≤ budget := by
  induction fuel generalizing state with
  | zero => exact Or.inl rfl
  | succ fuel ih =>
    unfold totalSpent
    cases hcase : round state with
    | ended result =>
      rw [spendings_of_ended hcase]
      exact Or.inl rfl
    | spends amount after =>
      rw [spendings_of_spends hcase, List.forall_mem_cons] at h
      have hadds : spent after = spent state + amount := h.1.adds
      have hwithin : spent after ≤ budget := h.1.within
      rw [spendings_of_spends hcase, List.map_cons, List.sum_cons]
      have hrest := ih h.2
      unfold totalSpent at hrest
      rcases hrest with hnone | hrest
      · right
        linarith
      · right
        linarith

end

end TrueAlpha
