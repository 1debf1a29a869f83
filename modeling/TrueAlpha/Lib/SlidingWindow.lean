import Mathlib.Algebra.Order.Group.Defs
import Mathlib.Data.List.Basic
import Mathlib.Data.List.Count
import Mathlib.Tactic.Abel

/-!
# Sliding windows

Lists with at most `bound` events in every half-open window of a length are `Paced`.  They stay so when an event with fewer than
`bound` unexpired ones before it is added (`Paced.concat`, `Paced.spaced`).
-/

namespace TrueAlpha

variable {τ : Type} [AddCommGroup τ] [LinearOrder τ]

def inWindow (start length : τ) (events : List τ) : List τ := events.filter fun event => start ≤ event ∧ event < start + length

/-- Every window of the length holds at most `bound` events. -/
def Paced (length : τ) (bound : ℕ) (events : List τ) : Prop := ∀ start, (inWindow start length events).length ≤ bound

theorem paced_nil (length : τ) (bound : ℕ) : Paced length bound [] := fun _ => Nat.zero_le _

variable {length : τ} {bound : ℕ} {events : List τ}

theorem Paced.sublist {events' : List τ} (h : Paced length bound events) (hsub : events'.Sublist events) :
    Paced length bound events' :=
  fun start => (hsub.filter _).length_le.trans (h start)

/-- In a sorted paced list, events `bound` places apart are a window apart. -/
theorem Paced.spaced (h : Paced length bound events) (hsorted : events.Pairwise (· ≤ ·)) {i : ℕ}
    (hi : i + bound < events.length) :
    events[i] + length ≤ events[i + bound] := by
  have hmono : ∀ j k (hk : k < events.length) (hjk : j ≤ k), events[j] ≤ events[k] := by
    intro j k hk hjk
    rcases hjk.lt_or_eq with hlt | rfl
    · exact List.pairwise_iff_getElem.mp hsorted j k (by omega) hk hlt
    · exact le_rfl
  by_contra hclose
  rw [not_le] at hclose
  have hall : ∀ event ∈ (events.drop i).take (bound + 1), decide (events[i] ≤ event ∧ event < events[i] + length) = true := by
    intro event hevent
    obtain ⟨j, hj, rfl⟩ := List.getElem_of_mem hevent
    rw [List.length_take, List.length_drop] at hj
    rw [List.getElem_take, List.getElem_drop]
    refine decide_eq_true ⟨?_, ?_⟩
    · exact hmono _ _ (by omega) (Nat.le_add_right i j)
    · exact (hmono _ _ hi (by omega)).trans_lt hclose
  have hsub := (((events.drop i).take_sublist (bound + 1)).trans (events.drop_sublist i)).filter
    fun event => decide (events[i] ≤ event ∧ event < events[i] + length)
  rw [List.filter_eq_self.mpr hall] at hsub
  have hlength := hsub.length_le.trans (h events[i])
  rw [List.length_take, List.length_drop] at hlength
  omega

variable [IsOrderedAddMonoid τ]

/-- A new event with fewer than `bound` unexpired events before it. -/
theorem Paced.concat {event : τ} (h : Paced length bound events)
    (hroom : (events.filter fun earlier => event - earlier < length).length < bound) :
    Paced length bound (events ++ [event]) := by
  intro start
  rw [inWindow, List.filter_append, List.length_append]
  by_cases hevent : start ≤ event ∧ event < start + length
  · -- the window holds the new event, so its earlier events have not expired
    have hsub : (events.filter fun earlier => start ≤ earlier ∧ earlier < start + length).Sublist
        (events.filter fun earlier => event - earlier < length) := by
      refine List.monotone_filter_right _ fun earlier hearlier => ?_
      have hstart : start ≤ earlier := (of_decide_eq_true hearlier).1
      refine decide_eq_true ?_
      rw [sub_lt_iff_lt_add]
      calc event < start + length := hevent.2
        _ ≤ earlier + length := add_le_add_left hstart length
        _ = length + earlier := add_comm _ _
    have hle := hsub.length_le
    have hlast : ([event].filter fun event => start ≤ event ∧ event < start + length) = [event] := by simpa using hevent
    rw [hlast, List.length_singleton]
    omega
  · rw [List.filter_cons_of_neg (by simpa using hevent), List.filter_nil, List.length_nil, Nat.add_zero]
    exact h start

end TrueAlpha
