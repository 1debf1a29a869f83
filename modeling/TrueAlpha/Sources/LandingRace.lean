import TrueAlpha.Lib.CheckThenWrite
import TrueAlpha.Sources.LandedKeys

/-!
# Callers of one key

Callers of one key run `fetchOnce` in any interleaving of lookup, request and landing.  The index holds the register of
`CheckThenWrite`, so the served bytes change by callers that missed before the first landing (`served_bytes_after`).
-/

namespace TrueAlpha.Sources

open CheckThenWrite (Entry Lawful Allowed current lastWritten)

inductive FetchPhase where
  | start
  | missed
  | fetched (body : Bytes)
  | done (body : Bytes)
  deriving DecidableEq, Repr

structure LandingRace (Caller : Type) where
  index : MemoryLandedKeys
  phase : Caller → FetchPhase
  history : List (Entry Caller Bytes)

inductive FetchStep (Caller : Type) where
  | lookup (caller : Caller)
  | fetch (caller : Caller) (body : Bytes)
  | land (caller : Caller)
  deriving Repr

inductive OutOfTurn where
  | outOfTurn
  deriving DecidableEq, Repr

variable {Caller : Type} (key : FetchKey)

namespace LandingRace

def begin (index : MemoryLandedKeys) : LandingRace Caller := ⟨index, fun _ => .start, []⟩

def step [DecidableEq Caller] (race : LandingRace Caller) : FetchStep Caller → Except OutOfTurn (LandingRace Caller)
  | .lookup caller =>
    match race.phase caller with
    | .start =>
      match race.index.lookup key with
      | (some body, index) => .ok
        { index, phase := Function.update race.phase caller (.done body), history := race.history ++ [.served caller body] }
      | (none, index) => .ok
        { index, phase := Function.update race.phase caller .missed, history := race.history ++ [.missed caller] }
    | _ => .error .outOfTurn
  | .fetch caller body =>
    match race.phase caller with
    | .missed => .ok { race with phase := Function.update race.phase caller (.fetched body) }
    | _ => .error .outOfTurn
  | .land caller =>
    match race.phase caller with
    | .fetched body => .ok
      { index := race.index.land key body, phase := Function.update race.phase caller (.done body),
        history := race.history ++ [.wrote caller body] }
    | _ => .error .outOfTurn

def InFlight (phase : FetchPhase) : Prop := phase = .missed ∨ ∃ body, phase = .fetched body

/-- The history is lawful for the bytes that the race found, as the index says, and a caller in flight missed. -/
structure Follows (found : Option Bytes) (race : LandingRace Caller) : Prop where
  lawful : Lawful found race.history
  holds : race.index.bodies.get? key = current found race.history
  missed : ∀ caller, InFlight (race.phase caller) → .missed caller ∈ race.history

variable {key} {found : Option Bytes} {race race' : LandingRace Caller}

theorem follows_begin (index : MemoryLandedKeys) : Follows key (index.bodies.get? key) (begin index : LandingRace Caller) where
  lawful := CheckThenWrite.lawful_nil
  holds := rfl
  missed := by
    rintro caller (h | ⟨body, h⟩) <;> cases h

variable [DecidableEq Caller]

theorem inFlight_update {caller other : Caller} {phase : FetchPhase}
    (h : InFlight (Function.update race.phase caller phase other)) : other = caller ∨ InFlight (race.phase other) := by
  by_cases heq : other = caller
  · exact Or.inl heq
  · rw [Function.update_of_ne heq] at h
    exact Or.inr h

theorem not_inFlight_done {caller : Caller} {body : Bytes} :
    ¬ InFlight (Function.update race.phase caller (.done body) caller) := by
  rw [Function.update_self]
  rintro (h | ⟨other, h⟩) <;> cases h

theorem Follows.step (h : Follows key found race) {event : FetchStep Caller} (hstep : race.step key event = .ok race') :
    Follows key found race' := by
  cases event with
  | lookup caller =>
    simp only [LandingRace.step] at hstep
    split at hstep
    · have hlookup := MemoryLandedKeys.lookup_fst race.index key
      have hbodies := MemoryLandedKeys.lookup_bodies race.index key
      split at hstep
      · next body index hfound =>
        cases hstep
        rw [hfound] at hlookup hbodies
        have hcurrent : current found race.history = some body := by rw [← h.holds, ← hlookup]
        refine ⟨h.lawful.concat hcurrent, ?_, fun other hother => ?_⟩
        · rw [hbodies, h.holds]
          exact (CheckThenWrite.current_concat_of_none rfl).symm
        · rcases inFlight_update hother with rfl | hbefore
          · exact (not_inFlight_done hother).elim
          · exact List.mem_append_left _ (h.missed other hbefore)
      · next index hnone =>
        cases hstep
        rw [hnone] at hlookup hbodies
        have hcurrent : current found race.history = none := by rw [← h.holds, ← hlookup]
        refine ⟨h.lawful.concat hcurrent, ?_, fun other hother => ?_⟩
        · rw [hbodies, h.holds]
          exact (CheckThenWrite.current_concat_of_none rfl).symm
        · rcases inFlight_update hother with rfl | hbefore
          · exact List.mem_append_right _ (List.mem_singleton_self _)
          · exact List.mem_append_left _ (h.missed other hbefore)
    · cases hstep
  | fetch caller body =>
    simp only [LandingRace.step] at hstep
    split at hstep
    · next hphase =>
      cases hstep
      refine ⟨h.lawful, h.holds, fun other hother => ?_⟩
      rcases inFlight_update hother with rfl | hbefore
      · exact h.missed other (Or.inl hphase)
      · exact h.missed other hbefore
    · cases hstep
  | land caller =>
    simp only [LandingRace.step] at hstep
    split at hstep
    · next body hphase =>
      cases hstep
      refine ⟨h.lawful.concat (h.missed caller (Or.inr ⟨body, hphase⟩)), ?_, fun other hother => ?_⟩
      · rw [CheckThenWrite.current_concat_wrote]
        exact Dict.get?_set_self _ _ _
      · rcases inFlight_update hother with rfl | hbefore
        · exact (not_inFlight_done hother).elim
        · exact List.mem_append_left _ (h.missed other hbefore)
    · cases hstep

theorem Follows.run (h : Follows key found race) {events : List (FetchStep Caller)}
    (hrun : events.foldlM (LandingRace.step key) race = .ok race') : Follows key found race' :=
  foldlM_inv (fun _ race => Follows key found race) hrun h fun _ _ _ _ _ _ hfollows hstep => hfollows.step hstep

end LandingRace

variable [DecidableEq Caller]

section

variable {Raised : Type} {gateway : Gateway} {call : KeyedCall Raised} {caller : Caller}

end

/-- A later call is served the same bytes, or the last landed since by a call whose lookup came before the key had landed. -/
theorem served_bytes_after (index : MemoryLandedKeys) (events : List (FetchStep Caller)) (race : LandingRace Caller)
    (hrun : events.foldlM (LandingRace.step key) (.begin index) = .ok race)
    (before between after : List (Entry Caller Bytes)) (caller caller' : Caller) (body body' : Bytes)
    (hhistory : race.history = before ++ .served caller body :: between ++ .served caller' body' :: after) :
    body' = (lastWritten between).getD body ∧ ∀ other landing, .wrote other landing ∈ between →
        ∃ early late, before = early ++ .missed other :: late ∧ current (index.bodies.get? key) early = none := by
  have hlawful := ((LandingRace.follows_begin index).run hrun).lawful
  rw [hhistory] at hlawful
  exact hlawful.served_later

def raceKey : FetchKey := ⟨"sec", "companyfacts", "issuer:cik:0000000001", "2026-10-21", by decide⟩

def raceSteps : List (FetchStep ℕ) := [.lookup 1, .lookup 2, .fetch 1 [1], .land 1, .lookup 3, .fetch 2 [2], .land 2, .lookup 4]

theorem raceSteps_history : (raceSteps.foldlM (LandingRace.step raceKey) (.begin .empty)).toOption.map LandingRace.history =
      some [.missed 1, .missed 2, .wrote 1 [1], .served 3 [1], .wrote 2 [2], .served 4 [2]] := by
  decide +kernel

theorem exists_raceSteps : ∃ race, raceSteps.foldlM (LandingRace.step raceKey) (.begin .empty) = .ok race ∧
    race.history = [.missed 1, .missed 2, .wrote 1 [1], .served 3 [1], .wrote 2 [2], .served 4 [2]] := by
  have h := raceSteps_history
  rcases hrun : raceSteps.foldlM (LandingRace.step raceKey) (.begin .empty) with _ | race
  · rw [hrun] at h
    cases h
  · rw [hrun] at h
    exact ⟨race, rfl, Option.some.inj h⟩

/-- The bytes served for a landed key change. -/
theorem landed_bytes_replaced : ∃ race, raceSteps.foldlM (LandingRace.step raceKey) (.begin .empty) = .ok race ∧
    ∃ before between after caller caller' body body',
      race.history = before ++ .served caller body :: between ++ .served caller' body' :: after ∧ body' ≠ body := by
  obtain ⟨race, hrun, hhistory⟩ := exists_raceSteps
  exact ⟨race, hrun, [.missed 1, .missed 2, .wrote 1 [1]], [.wrote 2 [2]], [], 3, 4, [1], [2], hhistory, by decide⟩

theorem served_bytes_after_sample : ([2] : Bytes) = (lastWritten [Entry.wrote 2 [2]]).getD [1] ∧
    ∀ (other : ℕ) (landing : Bytes), .wrote other landing ∈ [Entry.wrote 2 [2]] →
      ∃ early late, [.missed 1, .missed 2, .wrote 1 [1]] = early ++ .missed other :: late ∧
        current (MemoryLandedKeys.empty.bodies.get? raceKey) early = none := by
  obtain ⟨race, hrun, hhistory⟩ := exists_raceSteps
  exact served_bytes_after raceKey .empty raceSteps race hrun [.missed 1, .missed 2, .wrote 1 [1]] [.wrote 2 [2]] [] 3 4 [1] [2]
    hhistory

end TrueAlpha.Sources
