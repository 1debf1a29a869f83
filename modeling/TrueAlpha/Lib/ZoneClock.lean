import Mathlib.Order.Monotone.Basic
import Mathlib.Tactic.Common

/-!
# The clock of a time zone

The clock of a zone shows an instant plus its offset; a change of the offset skips or repeats readings.  A reading that is
neither is shown at one instant, and the clock shows it or more from there on (`instantOf_le_iff`).
-/

namespace TrueAlpha

/-- The offset of an instant, after changes given by instants and offsets. -/
def offsetFrom (offset : ℤ) : List (ℤ × ℤ) → ℤ → ℤ
  | [], _ => offset
  | change :: rest, instant => if change.1 ≤ instant then offsetFrom change.2 rest instant else offset

/-- The first instant at which a clock shows a reading, or the one before the change that skips it. -/
def instantFrom (offset : ℤ) : List (ℤ × ℤ) → ℤ → ℤ
  | [], reading => reading - offset
  | change :: rest, reading =>
    if reading < change.1 + max offset change.2 then reading - offset else instantFrom change.2 rest reading

/-- No change makes a clock skip or repeat a reading. -/
def KeepsFrom (offset : ℤ) : List (ℤ × ℤ) → ℤ → Prop
  | [], _ => True
  | change :: rest, reading =>
    (reading < change.1 + min offset change.2 ∨ change.1 + max offset change.2 ≤ reading) ∧ KeepsFrom change.2 rest reading

/-- A time zone: the changes of its offset, in order. -/
structure Zone where
  first : ℤ
  changes : List (ℤ × ℤ)
  sorted : changes.Pairwise fun change later => change.1 < later.1

namespace Zone

def offset (zone : Zone) (instant : ℤ) : ℤ := offsetFrom zone.first zone.changes instant

def clock (zone : Zone) (instant : ℤ) : ℤ := instant + zone.offset instant

def instantOf (zone : Zone) (reading : ℤ) : ℤ := instantFrom zone.first zone.changes reading

/-- No change makes the clock skip or repeat a reading. -/
def Keeps (zone : Zone) (reading : ℤ) : Prop := KeepsFrom zone.first zone.changes reading

end Zone

variable {offset instant reading : ℤ} {changes : List (ℤ × ℤ)}

theorem offsetFrom_of_lt (h : ∀ change ∈ changes, instant < change.1) : offsetFrom offset changes instant = offset := by
  cases changes with
  | nil => rfl
  | cons change rest => exact if_neg (not_le.mpr (h change (List.mem_cons_self ..)))

/-- Before the next change a clock shows a kept reading as with the last one's offset. -/
theorem instantFrom_le_iff_of_lt (h : ∀ change ∈ changes, instant < change.1)
    (hiff : instantFrom offset changes reading ≤ instant ↔ reading ≤ instant + offsetFrom offset changes instant) :
    instantFrom offset changes reading ≤ instant ↔ reading ≤ instant + offset := by
  rwa [offsetFrom_of_lt h] at hiff

/-- A clock shows a kept reading or more from its instant on. -/
theorem instantFrom_le_iff (hsorted : changes.Pairwise fun change later => change.1 < later.1)
    (hkeeps : KeepsFrom offset changes reading) :
    instantFrom offset changes reading ≤ instant ↔ reading ≤ instant + offsetFrom offset changes instant := by
  induction changes generalizing offset instant with
  | nil =>
    rw [instantFrom, offsetFrom]
    omega
  | cons change rest ih =>
    obtain ⟨hlater, hrest⟩ := List.pairwise_cons.mp hsorted
    obtain ⟨hsame, hkeeps⟩ := hkeeps
    have hbefore : ∀ {early}, early ≤ change.1 →
        (instantFrom change.2 rest reading ≤ early ↔ reading ≤ early + change.2) := fun hearly =>
      instantFrom_le_iff_of_lt (fun later hmem => hearly.trans_lt (hlater later hmem)) (ih hrest hkeeps)
    have hmax := le_max_left offset change.2
    have hmax' := le_max_right offset change.2
    have hmin := min_le_left offset change.2
    have hmin' := min_le_right offset change.2
    rw [instantFrom, offsetFrom]
    by_cases hafter : change.1 ≤ instant
    · rw [if_pos hafter]
      split_ifs with hearly
      · -- the clock had the reading before the change, and keeps it
        have hreached : reading ≤ instant + offsetFrom change.2 rest instant :=
          (ih hrest hkeeps).mp (((hbefore le_rfl).mpr (by omega)).trans hafter)
        exact iff_of_true (by omega) hreached
      · exact ih hrest hkeeps
    · rw [if_neg hafter]
      split_ifs with hearly
      · omega
      · rw [hbefore (not_le.mp hafter).le]
        omega

namespace Zone

variable {zone : Zone}

theorem instantOf_le_iff (hkeeps : zone.Keeps reading) : zone.instantOf reading ≤ instant ↔ reading ≤ zone.clock instant :=
  instantFrom_le_iff zone.sorted hkeeps

end Zone

end TrueAlpha
