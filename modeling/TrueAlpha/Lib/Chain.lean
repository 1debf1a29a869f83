import Mathlib.Data.List.Basic
import Mathlib.Logic.Relation

/-!
# Chains of a successor map

`terminus next fuel x` is the last element of the chain of a partial map from `x`; `Ends next x n r` says that it stops at `r`
after `n` steps.  Three changes of the map are followed (`terminus_link`, `terminus_cut`, `terminus_extend`).
-/

namespace TrueAlpha

variable {α : Type*}

/-- The elements met from `x` on, for at most `fuel` steps. -/
def chain (next : α → Option α) : ℕ → α → List α
  | 0, x => [x]
  | fuel + 1, x =>
    x :: match next x with
      | none => []
      | some y => chain next fuel y

/-- The last element met. -/
def terminus (next : α → Option α) (fuel : ℕ) (x : α) : α := (chain next fuel x).getLastD x

/-- The chain of an element stops after some steps at one without successor. -/
inductive Ends (next : α → Option α) : α → ℕ → α → Prop
  | stop {x : α} (h : next x = none) : Ends next x 0 x
  | step {x y r : α} {n : ℕ} (h : next x = some y) (hy : Ends next y n r) : Ends next x (n + 1) r

def StopsWithin (next : α → Option α) (fuel : ℕ) : Prop := ∀ x, ∃ n ≤ fuel, ∃ r, Ends next x n r

variable {next next' : α → Option α} {fuel n m : ℕ} {x y r a b : α}

theorem getLastD_chain (next : α → Option α) (fuel : ℕ) (x d : α) : (chain next fuel x).getLastD d = terminus next fuel x := by
  cases fuel with
  | zero => rfl
  | succ fuel =>
    rw [terminus, chain, List.getLastD_cons, List.getLastD_cons]

theorem chain_succ_of_none (h : next x = none) : chain next (fuel + 1) x = [x] := by
  rw [chain, h]

theorem chain_succ_of_some (h : next x = some y) : chain next (fuel + 1) x = x :: chain next fuel y := by
  rw [chain, h]

theorem mem_chain_self (next : α → Option α) (fuel : ℕ) (x : α) : x ∈ chain next fuel x := by
  cases fuel <;> exact List.mem_cons_self

theorem Ends.next_eq_none (h : Ends next x n r) : next r = none := by
  induction h with
  | stop h => exact h
  | step _ _ ih => exact ih

theorem Ends.terminus_eq (h : Ends next x n r) (hn : n ≤ fuel) : terminus next fuel x = r := by
  induction h generalizing fuel with
  | stop h =>
    cases fuel with
    | zero => rfl
    | succ fuel =>
      rw [terminus, chain_succ_of_none h]
      rfl
  | step h _ ih =>
    cases fuel with
    | zero => omega
    | succ fuel =>
      rw [terminus, chain_succ_of_some h, List.getLastD_cons, getLastD_chain]
      exact ih (by omega)

theorem Ends.length_chain (h : Ends next x n r) (hn : n ≤ fuel) : (chain next fuel x).length = n + 1 := by
  induction h generalizing fuel with
  | stop h =>
    cases fuel with
    | zero => rfl
    | succ fuel =>
      rw [chain_succ_of_none h]
      rfl
  | step h _ ih =>
    cases fuel with
    | zero => omega
    | succ fuel =>
      rw [chain_succ_of_some h, List.length_cons, ih (by omega)]

theorem Ends.unique {r' : α} (h : Ends next x n r) (h' : Ends next x m r') : r = r' :=
  (h.terminus_eq (Nat.le_max_left n m)).symm.trans (h'.terminus_eq (Nat.le_max_right n m))

theorem StopsWithin.ends (hg : StopsWithin next fuel) (x : α) :
    ∃ n ≤ fuel, Ends next x n (terminus next fuel x) ∧ (chain next fuel x).length = n + 1 := by
  obtain ⟨n, hn, r, hr⟩ := hg x
  refine ⟨n, hn, ?_, hr.length_chain hn⟩
  rw [hr.terminus_eq hn]
  exact hr

theorem StopsWithin.next_terminus (hg : StopsWithin next fuel) (x : α) : next (terminus next fuel x) = none := by
  obtain ⟨_, _, h, _⟩ := hg.ends x
  exact h.next_eq_none

/-- An element is its own terminus exactly when it has no successor. -/
theorem StopsWithin.terminus_eq_self_iff (hg : StopsWithin next fuel) : terminus next fuel x = x ↔ next x = none := by
  constructor
  · intro h
    rw [← h]
    exact hg.next_terminus x
  · intro h
    exact (Ends.stop h).terminus_eq (Nat.zero_le _)

/-- Where the last element met has no successor, the chain stops within the fuel. -/
theorem exists_ends_of_next_terminus (h : next (terminus next fuel x) = none) : ∃ n ≤ fuel, ∃ r, Ends next x n r := by
  induction fuel generalizing x with
  | zero => exact ⟨0, Nat.le_refl _, x, .stop h⟩
  | succ fuel ih =>
    rcases hnext : next x with _ | y
    · exact ⟨0, Nat.zero_le _, x, .stop hnext⟩
    · rw [terminus, chain_succ_of_some hnext, List.getLastD_cons, getLastD_chain] at h
      obtain ⟨n, hn, r, hr⟩ := ih h
      exact ⟨n + 1, by omega, r, .step hnext hr⟩

theorem stopsWithin_iff : StopsWithin next fuel ↔ ∀ x, next (terminus next fuel x) = none :=
  ⟨fun hg => hg.next_terminus, fun h x => exists_ends_of_next_terminus (h x)⟩

/-! ## Steps of a relation -/

/-- A number of steps of a relation from one element to another. -/
inductive Hops (R : α → α → Prop) : ℕ → α → α → Prop
  | refl (x : α) : Hops R 0 x x
  | head {x y z : α} {n : ℕ} (h : R x y) (hz : Hops R n y z) : Hops R (n + 1) x z

theorem Hops.mono {R R' : α → α → Prop} (hsub : ∀ x y, R x y → R' x y) (h : Hops R n x y) : Hops R' n x y := by
  induction h with
  | refl x => exact .refl x
  | head h _ ih => exact .head (hsub _ _ h) ih

variable {R : α → α → Prop}

theorem Hops.trans (h : Hops R n x y) (h' : Hops R m y a) : Hops R (n + m) x a := by
  induction h with
  | refl x =>
    rw [Nat.zero_add]
    exact h'
  | head h _ ih =>
    rw [Nat.add_right_comm]
    exact .head h (ih h')

theorem Hops.reflTransGen (h : Hops R n x y) : Relation.ReflTransGen R x y := by
  induction h with
  | refl x => exact .refl
  | head h _ ih => exact .head h ih

/-- A chain that stops is a number of steps to its end. -/
theorem Ends.hops (h : Ends next x n r) : Hops (fun x y => next x = some y) n x r := by
  induction h with
  | stop h => exact .refl _
  | step h _ ih => exact .head h ih

/-- No more steps are possible than the chain has. -/
theorem Ends.hops_le (h : Ends next x n r) (hops : Hops (fun x y => next x = some y) m x y) : m ≤ n := by
  induction h generalizing m with
  | stop h =>
    cases hops with
    | refl => exact Nat.le_refl _
    | head hstep _ =>
      rw [h] at hstep
      cases hstep
  | step h _ ih =>
    cases hops with
    | refl => exact Nat.zero_le _
    | head hstep hrest =>
      cases Option.some.inj (h.symm.trans hstep)
      have := ih hrest
      omega

theorem StopsWithin.hops_le (hg : StopsWithin next fuel) (hops : Hops (fun x y => next x = some y) m x y) : m ≤ fuel := by
  obtain ⟨n, hn, r, hr⟩ := hg x
  have := hr.hops_le hops
  omega

theorem exists_hops_of_transGen (h : Relation.TransGen R x y) : ∃ n, 0 < n ∧ Hops R n x y := by
  induction h with
  | single h => exact ⟨1, Nat.one_pos, .head h (.refl _)⟩
  | tail _ h ih =>
    obtain ⟨n, _, hn⟩ := ih
    exact ⟨n + 1, n.succ_pos, hn.trans (.head h (.refl _))⟩

/-- Where every chain stops, no element comes back to itself. -/
theorem StopsWithin.acyclic (hg : StopsWithin next fuel) (x : α) : ¬ Relation.TransGen (fun x y => next x = some y) x x := by
  intro h
  obtain ⟨n, hn, hloop⟩ := exists_hops_of_transGen h
  -- going round often enough exceeds the fuel
  have hrounds : ∀ k, Hops (fun x y => next x = some y) (k * n) x x := by
    intro k
    induction k with
    | zero =>
      rw [Nat.zero_mul]
      exact .refl x
    | succ k ih =>
      rw [Nat.succ_mul]
      exact ih.trans hloop
  have hle := hg.hops_le (hrounds (fuel + 1))
  have hge : (fuel + 1) * 1 ≤ (fuel + 1) * n := Nat.mul_le_mul_left _ hn
  omega

/-- A chain that loses steps stops no later. -/
theorem Ends.restrict (h : Ends next x n r) (hsub : ∀ x y, next' x = some y → next x = some y) :
    ∃ m ≤ n, ∃ r', Ends next' x m r' := by
  induction h with
  | @stop x h =>
    refine ⟨0, Nat.le_refl _, x, .stop (Option.eq_none_iff_forall_not_mem.mpr fun y hy => ?_)⟩
    rw [hsub x y hy] at h
    cases h
  | @step x y r n h _ ih =>
    rcases hnext : next' x with _ | y'
    · exact ⟨0, Nat.zero_le _, x, .stop hnext⟩
    · cases Option.some.inj (h.symm.trans (hsub x y' hnext))
      obtain ⟨m, hm, r', hr'⟩ := ih
      exact ⟨m + 1, by omega, r', .step hnext hr'⟩

theorem StopsWithin.restrict (hg : StopsWithin next fuel) (hsub : ∀ x y, next' x = some y → next x = some y) :
    StopsWithin next' fuel := by
  intro x
  obtain ⟨n, hn, r, hr⟩ := hg x
  obtain ⟨m, hm, r', hr'⟩ := hr.restrict hsub
  exact ⟨m, by omega, r', hr'⟩

section Link

variable (hnone : next a = none) (hlink : next' a = some b) (hrest : ∀ x, x ≠ a → next' x = next x)

include hnone hrest in
/-- A chain that stops elsewhere does not change. -/
theorem Ends.link_of_ne (h : Ends next x n r) (hr : r ≠ a) : Ends next' x n r := by
  induction h with
  | stop h => exact .stop ((hrest _ hr).trans h)
  | step h _ ih =>
    refine .step ?_ (ih hr)
    rw [hrest _ fun heq => ?_]
    · exact h
    · rw [heq, hnone] at h
      cases h

include hnone hlink hrest in
theorem Ends.link_through (h : Ends next x n a) (hb : Ends next' b m r) : Ends next' x (n + (m + 1)) r := by
  generalize hend : a = z at h
  induction h with
  | stop h =>
    subst hend
    rw [Nat.zero_add]
    exact .step hlink hb
  | @step x y _ n h _ ih =>
    subst hend
    rw [Nat.add_right_comm]
    refine .step ?_ (ih rfl)
    rw [hrest _ fun heq => ?_]
    · exact h
    · rw [heq, hnone] at h
      cases h

include hnone hlink hrest in
theorem StopsWithin.link (hg : StopsWithin next fuel) (hb : terminus next fuel b ≠ a)
    (hdepth : ∀ x, terminus next fuel x = a → (chain next fuel x).length + (chain next fuel b).length ≤ fuel + 1) :
    StopsWithin next' fuel := by
  intro x
  obtain ⟨n, hn, hx, hlen⟩ := hg.ends x
  obtain ⟨m, hm, hends, hlenb⟩ := hg.ends b
  by_cases heq : terminus next fuel x = a
  · have hd := hdepth x heq
    rw [heq] at hx
    exact ⟨n + (m + 1), by omega, _, hx.link_through hnone hlink hrest (hends.link_of_ne hnone hrest hb)⟩
  · exact ⟨n, hn, _, hx.link_of_ne hnone hrest heq⟩

include hnone hlink hrest in
/-- What stopped at the linked end stops where the new successor does. -/
theorem terminus_link [DecidableEq α] (hg : StopsWithin next fuel) (hg' : StopsWithin next' fuel)
    (hb : terminus next fuel b ≠ a) (x : α) :
    terminus next' fuel x = if terminus next fuel x = a then terminus next fuel b else terminus next fuel x := by
  obtain ⟨n, hn, hx, _⟩ := hg.ends x
  obtain ⟨m, hm, hends, _⟩ := hg.ends b
  obtain ⟨k, hk, hr, _⟩ := hg'.ends x
  split
  · next heq =>
    rw [heq] at hx
    exact hr.unique (hx.link_through hnone hlink hrest (hends.link_of_ne hnone hrest hb))
  · next hne => exact (hx.link_of_ne hnone hrest hne).terminus_eq hn

end Link

/-! ## An element loses its successor -/

section Cut

variable (hcut : next' a = none) (hrest : ∀ x, x ≠ a → next' x = next x)

include hcut hrest in
/-- A chain that meets the cut element stops there; any other chain does not change. -/
theorem Ends.cut [DecidableEq α] (h : Ends next x n r) (hn : n ≤ fuel) :
    ∃ m ≤ n, Ends next' x m (if a ∈ chain next fuel x then a else r) := by
  induction h generalizing fuel with
  | @stop x h =>
    refine ⟨0, Nat.le_refl _, ?_⟩
    by_cases heq : x = a
    · subst heq
      rw [if_pos (mem_chain_self _ _ _)]
      exact .stop hcut
    · have hmem : a ∉ chain next fuel x := by
        intro ha
        cases fuel with
        | zero => exact heq (List.mem_singleton.mp ha).symm
        | succ fuel =>
          rw [chain_succ_of_none h] at ha
          exact heq (List.mem_singleton.mp ha).symm
      rw [if_neg hmem]
      exact .stop ((hrest x heq).trans h)
  | @step x y r n h _ ih =>
    cases fuel with
    | zero => omega
    | succ fuel =>
      obtain ⟨m, hm, hy⟩ := @ih fuel (by omega)
      by_cases heq : x = a
      · subst heq
        rw [if_pos (mem_chain_self _ _ _)]
        exact ⟨0, Nat.zero_le _, .stop hcut⟩
      · refine ⟨m + 1, by omega, .step ((hrest x heq).trans h) ?_⟩
        have hiff : a ∈ chain next (fuel + 1) x ↔ a ∈ chain next fuel y := by
          rw [chain_succ_of_some h, List.mem_cons, or_iff_right fun ha => heq ha.symm]
        simp only [hiff]
        exact hy

include hcut hrest in
theorem StopsWithin.cut [DecidableEq α] (hg : StopsWithin next fuel) : StopsWithin next' fuel := by
  intro x
  obtain ⟨n, hn, r, hr⟩ := hg x
  obtain ⟨m, hm, h⟩ := hr.cut hcut hrest hn
  exact ⟨m, by omega, _, h⟩

include hcut hrest in
theorem terminus_cut [DecidableEq α] (hg : StopsWithin next fuel) (x : α) :
    terminus next' fuel x = if a ∈ chain next fuel x then a else terminus next fuel x := by
  obtain ⟨n, hn, hr, _⟩ := hg.ends x
  obtain ⟨m, hm, h⟩ := hr.cut hcut hrest hn
  exact h.terminus_eq (by omega)

end Cut

/-! ## Chains that may not stop

Nothing is known here about the lengths of the chains: an element may be followed over the whole fuel.
`NoCycleWithin next k` says that no element comes back to itself within `k` steps. -/

theorem Hops.ends (h : Hops (fun x y => next x = some y) n x r) (hr : next r = none) : Ends next x n r := by
  induction h with
  | refl x => exact .stop hr
  | head h _ ih => exact .step h (ih hr)

theorem terminus_of_hops (h : Hops (fun x y => next x = some y) fuel x y) : terminus next fuel x = y := by
  induction fuel generalizing x with
  | zero =>
    cases h
    rfl
  | succ fuel ih =>
    cases h with
    | head h hrest =>
      rw [terminus, chain_succ_of_some h, List.getLastD_cons, getLastD_chain]
      exact ih hrest

/-- A chain stops, or the whole fuel is used. -/
theorem ends_or_hops (next : α → Option α) (fuel : ℕ) (x : α) : (∃ n ≤ fuel, Ends next x n (terminus next fuel x)) ∨
    Hops (fun x y => next x = some y) fuel x (terminus next fuel x) := by
  induction fuel generalizing x with
  | zero => exact .inr (.refl x)
  | succ fuel ih =>
    rcases hnext : next x with _ | y
    · rw [terminus, chain_succ_of_none hnext]
      exact .inl ⟨0, Nat.zero_le _, .stop hnext⟩
    · rw [terminus, chain_succ_of_some hnext, List.getLastD_cons, getLastD_chain]
      obtain ⟨n, hn, hends⟩ | hhops := ih y
      · exact .inl ⟨n + 1, by omega, .step hnext hends⟩
      · exact .inr (.head hnext hhops)

/-- What a step does not change is the same at the terminus. -/
theorem terminus_invariant {β : Type*} {f : α → β} (hstep : ∀ x y, next x = some y → f y = f x) (fuel : ℕ) (x : α) :
    f (terminus next fuel x) = f x := by
  induction fuel generalizing x with
  | zero => rfl
  | succ fuel ih =>
    rcases hnext : next x with _ | y
    · rw [terminus, chain_succ_of_none hnext]
      rfl
    · rw [terminus, chain_succ_of_some hnext, List.getLastD_cons, getLastD_chain, ih y]
      exact hstep x y hnext

/-- No element comes back to itself within a number of steps. -/
def NoCycleWithin (next : α → Option α) (k : ℕ) : Prop := ∀ x n, 0 < n → n ≤ k → ¬ Hops (fun x y => next x = some y) n x x

theorem NoCycleWithin.restrict {k : ℕ} (h : NoCycleWithin next k) (hsub : ∀ x y, next' x = some y → next x = some y) :
    NoCycleWithin next' k :=
  fun x n hpos hle hhops => h x n hpos hle (hhops.mono hsub)

theorem NoCycleWithin.next_eq_none {k : ℕ} (h : NoCycleWithin next k) (hpos : 0 < fuel) (hle : fuel ≤ k)
    (hself : terminus next fuel x = x) : next x = none := by
  obtain ⟨n, hn, hends⟩ | hhops := ends_or_hops next fuel x
  · rw [hself] at hends
    exact hends.next_eq_none
  · rw [hself] at hhops
    exact absurd hhops (h x fuel hpos hle)

theorem ends_of_next_terminus (h : next (terminus next fuel x) = none) : ∃ n ≤ fuel, Ends next x n (terminus next fuel x) := by
  obtain hends | hhops := ends_or_hops next fuel x
  · exact hends
  · exact ⟨fuel, Nat.le_refl _, hhops.ends h⟩

section LinkDeep

variable (hnone : next a = none) (hlink : next' a = some b) (hrest : ∀ x, x ≠ a → next' x = next x)

include hnone hrest in
theorem terminus_link_of_ne (h : terminus next fuel x ≠ a) : terminus next' fuel x = terminus next fuel x := by
  induction fuel generalizing x with
  | zero => rfl
  | succ fuel ih =>
    have hx : x ≠ a := by
      rintro rfl
      rw [terminus, chain_succ_of_none hnone] at h
      exact h rfl
    rcases hnext : next x with _ | y
    · rw [terminus, terminus, chain_succ_of_none hnext, chain_succ_of_none ((hrest x hx).trans hnext)]
    · rw [terminus, chain_succ_of_some hnext, List.getLastD_cons, getLastD_chain] at h
      rw [terminus, terminus, chain_succ_of_some hnext, chain_succ_of_some ((hrest x hx).trans hnext),
        List.getLastD_cons, List.getLastD_cons, getLastD_chain, getLastD_chain]
      exact ih h

include hnone hrest in
/-- Steps that lead to the linked end are steps of both maps. -/
theorem Hops.link (h : Hops (fun x y => next x = some y) n x y) : Hops (fun x y => next' x = some y) n x y := by
  refine h.mono fun x y hstep => ?_
  rw [hrest x fun heq => ?_]
  · exact hstep
  · rw [heq, hnone] at hstep
    cases hstep

include hlink hrest in
/-- Steps of the linked map are the other's up to the first use of the link. -/
theorem Hops.before_link [DecidableEq α] (h : Hops (fun x y => next' x = some y) n x y) :
    Hops (fun x y => next x = some y) n x y ∨ ∃ i j, n = i + 1 + j ∧ Hops (fun x y => next x = some y) i x a ∧
      Hops (fun x y => next' x = some y) j b y := by
  induction h with
  | refl x => exact .inl (.refl x)
  | @head x z y n hstep hhops ih =>
    by_cases hx : x = a
    · subst hx
      cases Option.some.inj (hlink.symm.trans hstep)
      exact .inr ⟨0, n, by omega, .refl _, hhops⟩
    · rw [hrest x hx] at hstep
      obtain hall | ⟨i, j, rfl, hbefore, hafter⟩ := ih
      · exact .inl (.head hstep hall)
      · exact .inr ⟨i + 1, j, by omega, .head hstep hbefore, hafter⟩

include hnone hlink hrest in
theorem NoCycleWithin.link [DecidableEq α] (h : NoCycleWithin next (fuel + 1)) (hb : terminus next fuel b ≠ a) :
    NoCycleWithin next' (fuel + 1) := by
  have hback : ∀ i ≤ fuel, ¬ Hops (fun x y => next x = some y) i b a := fun i hi hhops => hb ((hhops.ends hnone).terminus_eq hi)
  intro x n hpos hle hhops
  obtain hall | ⟨i, j, rfl, hbefore, hafter⟩ := hhops.before_link hlink hrest
  · exact h x n hpos hle hall
  · obtain hall | ⟨i', j', rfl, hbefore', -⟩ := hafter.before_link hlink hrest
    · exact hback (j + i) (by omega) (hall.trans hbefore)
    · exact hback i' (by omega) hbefore'

end LinkDeep

/-- Where each step of one map is one of another, the second chain goes on from the first's end. -/
theorem Ends.extend (hext : ∀ x y, next x = some y → next' x = some y) (h : Ends next x n a) (ha : Ends next' a m r) :
    Ends next' x (n + m) r := by
  induction h with
  | stop _ =>
    rw [Nat.zero_add]
    exact ha
  | step h _ ih =>
    rw [Nat.add_right_comm]
    exact .step (hext _ _ h) (ih ha)

theorem terminus_extend (hext : ∀ x y, next x = some y → next' x = some y) (hg : StopsWithin next fuel)
    (hg' : StopsWithin next' fuel) (x : α) : terminus next' fuel x = terminus next' fuel (terminus next fuel x) := by
  obtain ⟨n, hn, hx, _⟩ := hg.ends x
  obtain ⟨m, hm, ha, _⟩ := hg'.ends (terminus next fuel x)
  obtain ⟨k, hk, hr, _⟩ := hg'.ends x
  exact hr.unique (hx.extend hext ha)

end TrueAlpha
