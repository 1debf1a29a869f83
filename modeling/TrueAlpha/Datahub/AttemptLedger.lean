import TrueAlpha.Contracts.Capture

/-!
# The attempt ledger

`replay_retry_policy` and `AttemptLedger` of `control_plane.py`.  A ledger is `Pending` when its attempts so far all have a
retryable result; a pending ledger with room accepts the next attempt.
-/

namespace TrueAlpha.Datahub

open Contracts

def replayRetryPolicy (maxAttempts : ℕ) : Except String RetryPolicy :=
  RetryPolicy.build maxAttempts [.interrupted, .rateLimited, .serverError, .transportError]
    [.failed, .success, .unavailable, .unchanged]

structure AttemptLedger where
  workItemId : String
  retryPolicy : RetryPolicy
  attempts : List FetchAttempt
  results : List FetchAttemptResult

variable {outcome : FetchAttemptOutcome} {attempt : FetchAttempt}

namespace AttemptLedger

def empty (workItemId : String) (retryPolicy : RetryPolicy) : AttemptLedger := ⟨workItemId, retryPolicy, [], []⟩

def maximumAttempts (ledger : AttemptLedger) : ℕ := ledger.retryPolicy.maxAttempts

def isTerminal (ledger : AttemptLedger) : Bool :=
  ledger.results.getLast?.any fun result => result.outcome ∈ ledger.retryPolicy.terminalOutcomes

def start (ledger : AttemptLedger) (startedAt : Instant) : Except String (FetchAttempt × AttemptLedger) :=
  if ledger.isTerminal then .error "attempt after terminal outcome"
  else if ledger.results.length ≠ ledger.attempts.length then .error "previous attempt has no result"
  else if ledger.results.getLast?.any fun result => startedAt < result.completedAt then
    .error "retry starts before previous result completion"
  else if ledger.maximumAttempts ≤ ledger.attempts.length then .error "maximum attempts exceeded"
  else
    let attempt : FetchAttempt := ⟨ledger.workItemId, ledger.attempts.length + 1, startedAt, Nat.succ_pos ledger.attempts.length⟩
    .ok (attempt, { ledger with attempts := ledger.attempts ++ [attempt] })

def errorOrOutcome (errorCode : Option String) (outcome : FetchAttemptOutcome) : String :=
  match errorCode with
  | some code => if code = "" then outcome.value else code
  | none => outcome.value

def finish (ledger : AttemptLedger) (attempt : FetchAttempt) (completedAt : Instant) (outcome : FetchAttemptOutcome)
    (errorCode : Option String) (statusCode : Option ℕ) (sourceVintageId reusedSourceVintageId : Option VintageId) :
    Except String (FetchAttemptResult × AttemptLedger) := do
  if ledger.attempts.getLast? ≠ some attempt then .error "attempt is not the current append-only attempt"
  if ledger.results.any fun result => result.attemptId = attempt.attemptId then .error "attempt already has a result"
  if completedAt < attempt.startedAt then .error "completed_at precedes started_at"
  checkVintages "a successful result must create exactly one source vintage"
    "an unchanged result must reuse exactly one source vintage" "a non-content result cannot name a source vintage"
    outcome sourceVintageId reusedSourceVintageId
  if outcome ∉ ledger.retryPolicy.retryableOutcomes ∧ outcome ∉ ledger.retryPolicy.terminalOutcomes then
    .error "outcome is not classified by the retry policy"
  if attempt.attemptNumber = ledger.maximumAttempts ∧ outcome ∉ ledger.retryPolicy.terminalOutcomes then
    .error "the final permitted attempt must have a terminal outcome"
  let result ← FetchAttemptResult.build
    { attemptId := attempt.attemptId
      completedAt
      outcome
      statusCode
      sourceVintageId
      reusedSourceVintageId
      reasonCodes := [errorOrOutcome errorCode outcome] }
  return (result, { ledger with results := ledger.results ++ [result] })

/-! ## A pending ledger -/

structure Pending (ledger : AttemptLedger) (bound : Instant) : Prop where
  paired : ledger.results.length = ledger.attempts.length
  numbered : ∀ result ∈ ledger.results, result.attemptId.attemptNumber ≤ ledger.attempts.length
  retried : ∀ result ∈ ledger.results, result.outcome ∈ ledger.retryPolicy.retryableOutcomes
  completed : ∀ result ∈ ledger.results, result.completedAt ≤ bound

theorem pending_empty (workItemId : String) (retryPolicy : RetryPolicy) (bound : Instant) :
    (empty workItemId retryPolicy).Pending bound :=
  ⟨rfl, by simp [empty], by simp [empty], by simp [empty]⟩

namespace Pending

variable {ledger : AttemptLedger} {bound : Instant}

section

variable (h : ledger.Pending bound)

include h

theorem not_isTerminal : ¬ ledger.isTerminal := by
  rw [isTerminal, Option.any_eq_true]
  rintro ⟨result, hlast, hterminal⟩
  have hmem : result ∈ ledger.results := List.mem_of_getLast? hlast
  exact ledger.retryPolicy.apart _ (h.retried result hmem) (of_decide_eq_true hterminal)

theorem start_eq_ok (hroom : ledger.attempts.length < ledger.maximumAttempts) {startedAt : Instant} (hstart : bound ≤ startedAt) :
    ledger.start startedAt = .ok
      (⟨ledger.workItemId, ledger.attempts.length + 1, startedAt, Nat.succ_pos _⟩,
        { ledger with attempts := ledger.attempts ++
          [⟨ledger.workItemId, ledger.attempts.length + 1, startedAt, Nat.succ_pos _⟩] }) := by
  have htime : ¬ ledger.results.getLast?.any fun result => startedAt < result.completedAt := by
    rw [Option.any_eq_true]
    rintro ⟨result, hlast, hlt⟩
    have hle : result.completedAt ≤ startedAt := (h.completed result (List.mem_of_getLast? hlast)).trans hstart
    exact not_lt.mpr hle (of_decide_eq_true hlt)
  rw [start, if_neg h.not_isTerminal, if_neg (not_not.mpr h.paired), if_neg htime, if_neg (Nat.not_le.mpr hroom)]

theorem finish_eq_ok
    (hnumber : attempt.attemptNumber = ledger.attempts.length + 1) {completedAt : Instant}
    (htime : attempt.startedAt ≤ completedAt) (hunchanged : outcome ≠ .unchanged)
    {sourceVintageId : Option VintageId} (hvintage : sourceVintageId.isSome ↔ outcome = .success)
    (hclassified : outcome ∈ ledger.retryPolicy.retryableOutcomes ∨ outcome ∈ ledger.retryPolicy.terminalOutcomes)
    (hfinal : attempt.attemptNumber = ledger.maximumAttempts → outcome ∈ ledger.retryPolicy.terminalOutcomes)
    {errorCode : Option String} (hstable : isStableId (errorOrOutcome errorCode outcome) = true)
    {statusCode : Option ℕ} (hstatus : ∀ code ∈ statusCode, 100 ≤ code ∧ code ≤ 599) :
    let result : FetchAttemptResult :=
      ⟨attempt.attemptId, completedAt, outcome, statusCode, sourceVintageId, none, [errorOrOutcome errorCode outcome]⟩
    finish { ledger with attempts := ledger.attempts ++ [attempt] } attempt completedAt outcome errorCode statusCode
        sourceVintageId none =
      .ok (result, { ledger with attempts := ledger.attempts ++ [attempt], results := ledger.results ++ [result] }) := by
  have hfresh : ¬ ledger.results.any fun result => result.attemptId = attempt.attemptId := by
    rw [List.any_eq_true]
    rintro ⟨result, hmem, heq⟩
    have hle := h.numbered result hmem
    rw [of_decide_eq_true heq] at hle
    simp only [FetchAttempt.attemptId] at hle
    omega
  have hlast : ¬ (ledger.attempts ++ [attempt]).getLast? ≠ some attempt := by
    simp
  have hknown : ¬ (outcome ∉ ledger.retryPolicy.retryableOutcomes ∧ outcome ∉ ledger.retryPolicy.terminalOutcomes) := by
    tauto
  have hpermitted : ¬ (attempt.attemptNumber = ledger.retryPolicy.maxAttempts ∧
      outcome ∉ ledger.retryPolicy.terminalOutcomes) := by
    rintro ⟨hlastAttempt, hopen⟩
    exact hopen (hfinal hlastAttempt)
  have hcode : ¬ statusCode.any fun code => code < 100 ∨ 599 < code := by
    rw [Option.any_eq_true]
    rintro ⟨code, hmem, hout⟩
    have hbounds := hstatus code hmem
    have := of_decide_eq_true hout
    omega
  have hreasons : sortedUniqueStrings "reason_codes" [errorOrOutcome errorCode outcome] =
      .ok [errorOrOutcome errorCode outcome] := by
    rw [sortedUniqueStrings_eq_ok (by simp) (by simp) (by simpa using hstable)]
    rfl
  simp only [finish, FetchAttemptResult.build, maximumAttempts]
  rw [if_neg hlast, if_neg hfresh, if_neg (not_lt.mpr htime), checkVintages_eq_ok hunchanged hvintage, if_neg hknown,
    if_neg hpermitted, if_neg hcode, hreasons, checkVintages_eq_ok hunchanged hvintage]
  rfl

theorem retry {result : FetchAttemptResult}
    (hnumber : attempt.attemptNumber = ledger.attempts.length + 1) (hid : result.attemptId = attempt.attemptId)
    (houtcome : result.outcome ∈ ledger.retryPolicy.retryableOutcomes) {bound' : Instant} (hle : bound ≤ bound')
    (hcompleted : result.completedAt ≤ bound') :
    Pending { ledger with attempts := ledger.attempts ++ [attempt], results := ledger.results ++ [result] } bound' where
  paired := by simp [h.paired]
  numbered := by
    intro other hother
    rw [List.length_append, List.length_singleton]
    rcases List.mem_append.mp hother with hold | hnew
    · exact (h.numbered other hold).trans (Nat.le_succ _)
    · rw [List.mem_singleton.mp hnew, hid]
      exact hnumber.le
  retried := by
    intro other hother
    rcases List.mem_append.mp hother with hold | hnew
    · exact h.retried other hold
    · rwa [List.mem_singleton.mp hnew]
  completed := by
    intro other hother
    rcases List.mem_append.mp hother with hold | hnew
    · exact (h.completed other hold).trans hle
    · rwa [List.mem_singleton.mp hnew]

end

end Pending

end AttemptLedger

section ReplayPolicy

variable {maxAttempts : ℕ} {policy : RetryPolicy}

theorem exists_replayRetryPolicy_iff :
    (∃ policy, replayRetryPolicy maxAttempts = .ok policy) ↔ 1 ≤ maxAttempts ∧ maxAttempts ≤ 20 := by
  constructor
  · rintro ⟨policy, h⟩
    rw [← (RetryPolicy.fields_of_build h).1]
    exact ⟨policy.positive, policy.bounded⟩
  · rintro ⟨hpositive, hbounded⟩
    have hapart : ∀ outcome ∈ sortedOutcomes [.interrupted, .rateLimited, .serverError, .transportError],
        outcome ∉ sortedOutcomes [.failed, .success, .unavailable, .unchanged] := by
      simp only [mem_sortedOutcomes]
      decide
    have hrequired : ∀ outcome ∈ requiredTerminal, outcome ∈ sortedOutcomes [.failed, .success, .unavailable, .unchanged] := by
      simp only [mem_sortedOutcomes]
      decide
    refine ⟨⟨maxAttempts, _, _, hpositive, hbounded, hapart, hrequired⟩, ?_⟩
    rw [replayRetryPolicy, RetryPolicy.build, dif_neg (not_not.mpr hpositive), dif_neg (not_not.mpr hbounded),
      if_neg (by simp), if_neg (by simp), if_neg (not_not.mpr (length_sortedOutcomes (by decide))),
      if_neg (not_not.mpr (length_sortedOutcomes (by decide))),
      dif_neg (not_not.mpr hapart), dif_neg (not_not.mpr hrequired)]

theorem maxAttempts_of_replayRetryPolicy (h : replayRetryPolicy maxAttempts = .ok policy) :
    policy.maxAttempts = maxAttempts := (RetryPolicy.fields_of_build h).1

theorem mem_retryable_of_replayRetryPolicy (h : replayRetryPolicy maxAttempts = .ok policy) :
    outcome ∈ policy.retryableOutcomes ↔ outcome ∈ [.interrupted, .rateLimited, .serverError, .transportError] := by
  rw [(RetryPolicy.fields_of_build h).2.1, mem_sortedOutcomes]

end ReplayPolicy

end TrueAlpha.Datahub
