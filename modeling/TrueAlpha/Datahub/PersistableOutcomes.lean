import Mathlib.Tactic.Linarith
import Mathlib.Tactic.Ring
import TrueAlpha.Datahub.CaptureExecutor

/-!
# Every outcome is persistable

The rows of a replay in closed form, `replayed`, and that the ledger accepts them whenever every attempt but the last
has a retryable reason.  The executor only hands over such attempts: `runItem_cases`.
-/

namespace TrueAlpha.Datahub

open Contracts

namespace CaptureTimeline

section

variable (timeline : CaptureTimeline)

include timeline

theorem startedAt_succ (index : ℕ) : timeline.startedAt (index + 1) = timeline.startedAt index + seconds 2 := by
  simp only [startedAt, retrySpacing]
  push_cast
  ring

theorem startedAt_le_retried (index : ℕ) : timeline.startedAt index ≤ timeline.startedAt index + retrySpacing / 2 := by
  have hpos : (0 : ℤ) ≤ retrySpacing / 2 := by decide
  linarith

theorem retried_le_startedAt_succ (index : ℕ) : timeline.startedAt index + retrySpacing / 2 ≤ timeline.startedAt (index + 1) := by
  have hle : retrySpacing / 2 ≤ seconds 2 := by decide
  rw [startedAt_succ]
  linarith

theorem startedAt_le_terminalAttemptAt {index : ℕ} (h : index < 20) : timeline.startedAt index ≤ timeline.terminalAttemptAt := by
  have hindex : (index : ℤ) ≤ 19 := by exact_mod_cast Nat.le_of_lt_succ h
  simp only [startedAt, terminalAttemptAt, firstAttemptAt, retrySpacing, seconds, minutes]
  linarith

theorem retried_le_terminalAttemptAt {index : ℕ} (h : index + 1 < 20) :
    timeline.startedAt index + retrySpacing / 2 ≤ timeline.terminalAttemptAt :=
  (timeline.retried_le_startedAt_succ index).trans (timeline.startedAt_le_terminalAttemptAt h)

theorem terminalAttemptAt_lt_completedAt : timeline.terminalAttemptAt < timeline.completedAt := by
  simp only [terminalAttemptAt, completedAt, seconds, minutes]
  linarith

end

end CaptureTimeline

/-! ## The replayed rows -/

section Replay

variable (timeline : CaptureTimeline) (workItemId : String) (terminalState : ObligationTerminalState)
  (sourceVintageId : Option VintageId)

def replayedAttempt (index : ℕ) : FetchAttempt := ⟨workItemId, index + 1, timeline.startedAt index, Nat.succ_pos index⟩

def retriedResult (index : ℕ) (reason : Option ObligationReasonCode) : FetchAttemptResult where
  attemptId := ⟨workItemId, index + 1⟩
  completedAt := timeline.startedAt index + retrySpacing / 2
  outcome := retriedOutcome reason
  statusCode := if retriedOutcome reason = .success then some 200 else none
  sourceVintageId := none
  reusedSourceVintageId := none
  reasonCodes := [AttemptLedger.errorOrOutcome (reason.map ObligationReasonCode.value) (retriedOutcome reason)]

def settledResult (index : ℕ) (reason : Option ObligationReasonCode) : FetchAttemptResult where
  attemptId := ⟨workItemId, index + 1⟩
  completedAt := timeline.terminalAttemptAt
  outcome := terminalOutcome terminalState
  statusCode := if terminalOutcome terminalState = .success then some 200 else none
  sourceVintageId := sourceVintageId
  reusedSourceVintageId := none
  reasonCodes := [AttemptLedger.errorOrOutcome (reason.map ObligationReasonCode.value) (terminalOutcome terminalState)]

def replayed : ℕ → List (Option ObligationReasonCode) → List (FetchAttempt × FetchAttemptResult)
  | _, [] => []
  | index, [reason] =>
    [(replayedAttempt timeline workItemId index, settledResult timeline workItemId terminalState sourceVintageId index reason)]
  | index, reason :: next :: rest =>
    (replayedAttempt timeline workItemId index, retriedResult timeline workItemId index reason) ::
      replayed (index + 1) (next :: rest)

end Replay

def pairWrites (pair : FetchAttempt × FetchAttemptResult) : List CaptureWrite := [.attempt pair.1, .attemptResult pair.2]

def Executed (state : ObligationTerminalState) : Prop := state ∈ [.success, .unavailable, .failed]

def Retried (reason : Option ObligationReasonCode) : Prop := ∃ code, reason = some code ∧ dispositionFor code = .retry

theorem isStableId_errorOrOutcome (reason : Option ObligationReasonCode) (outcome : FetchAttemptOutcome) :
    isStableId (AttemptLedger.errorOrOutcome (reason.map ObligationReasonCode.value) outcome) = true := by
  cases reason with
  | none => exact outcome.isStableId_value
  | some code =>
    have hne : code.value ≠ "" := by cases code <;> decide
    simp only [Option.map_some, AttemptLedger.errorOrOutcome, if_neg hne]
    exact code.isStableId_value

theorem status_success (outcome : FetchAttemptOutcome) :
    ∀ code ∈ (if outcome = .success then some 200 else none : Option ℕ), 100 ≤ code ∧ code ≤ 599 := by
  intro code hcode
  split_ifs at hcode
  · cases hcode
    decide
  · cases hcode

section Policy

variable {maxAttempts : ℕ} {policy : RetryPolicy} (hpolicy : replayRetryPolicy maxAttempts = .ok policy)

include hpolicy

variable {reason : Option ObligationReasonCode}

theorem retriedOutcome_mem (h : Retried reason) : retriedOutcome reason ∈ policy.retryableOutcomes := by
  obtain ⟨code, rfl, hretry⟩ := h
  rw [mem_retryable_of_replayRetryPolicy hpolicy]
  cases code <;> simp_all [dispositionFor, retriedOutcome, attemptOutcome]

omit hpolicy in
theorem terminalOutcome_mem {state : ObligationTerminalState} (h : Executed state) :
    terminalOutcome state ∈ policy.terminalOutcomes := by
  refine policy.required _ ?_
  cases state <;> simp_all [Executed, terminalOutcome, requiredTerminal]

variable {timeline : CaptureTimeline} {terminalState : ObligationTerminalState} {sourceVintageId : Option VintageId}

omit hpolicy in
theorem replayAttempts_cons {ledger started finished : AttemptLedger} {attempt : FetchAttempt}
    {result : FetchAttemptResult} {index : ℕ} {rest : List (Option ObligationReasonCode)} {lastId : Option AttemptId}
    {completedAt : Instant} {outcome : FetchAttemptOutcome} {vintage : Option VintageId}
    (hstart : ledger.start (timeline.startedAt index) = .ok (attempt, started))
    (hcompleted : (if rest.isEmpty then timeline.terminalAttemptAt else timeline.startedAt index + retrySpacing / 2) =
      completedAt)
    (houtcome : (if rest.isEmpty then terminalOutcome terminalState else retriedOutcome reason) = outcome)
    (hvintage : (if rest.isEmpty ∧ outcome = .success then sourceVintageId else none) = vintage)
    (hfinish : started.finish attempt completedAt outcome (reason.map ObligationReasonCode.value)
      (if outcome = .success then some 200 else none) vintage none = .ok (result, finished))
    {lastId' : Option AttemptId} {writes : List CaptureWrite}
    (hrest : CaptureSink.replayAttempts timeline terminalState sourceVintageId finished (some attempt.attemptId)
      (index + 1) rest = .ok (lastId', writes)) :
    CaptureSink.replayAttempts timeline terminalState sourceVintageId ledger lastId index (reason :: rest) =
      .ok (lastId', pairWrites (attempt, result) ++ writes) := by
  subst hvintage houtcome hcompleted
  simp only [CaptureSink.replayAttempts, hstart, hfinish, hrest, bind, Except.bind]
  rfl

variable (hstate : Executed terminalState) (hvintage : sourceVintageId.isSome ↔ terminalState = .success)

include hstate hvintage

omit hpolicy in
theorem replayAttempts_last {ledger : AttemptLedger} {index : ℕ} (hindex : ledger.attempts.length = index)
    (hpending : ledger.Pending (timeline.startedAt index)) (hroom : index < ledger.maximumAttempts)
    (reason : Option ObligationReasonCode) (lastId : Option AttemptId) :
    CaptureSink.replayAttempts timeline terminalState sourceVintageId ledger lastId index [reason] =
      .ok (some ⟨ledger.workItemId, index + 1⟩,
        (replayed timeline ledger.workItemId terminalState sourceVintageId index [reason]).flatMap pairWrites) := by
  subst hindex
  have htime := timeline.startedAt_le_terminalAttemptAt (hroom.trans_le ledger.retryPolicy.bounded)
  have houtcome : terminalOutcome terminalState = .success ↔ terminalState = .success := by
    cases terminalState <;> simp [terminalOutcome]
  have hunchanged : terminalOutcome terminalState ≠ .unchanged := by
    cases terminalState <;> simp_all [Executed, terminalOutcome]
  have hvintage' : sourceVintageId.isSome ↔ terminalOutcome terminalState = .success := hvintage.trans houtcome.symm
  have hkept : (if ([] : List (Option ObligationReasonCode)).isEmpty ∧ terminalOutcome terminalState = .success then
      sourceVintageId else none) = sourceVintageId := by
    simp only [List.isEmpty_nil, true_and]
    split_ifs with hsuccess
    · rfl
    · exact (Option.not_isSome_iff_eq_none.mp (mt hvintage'.mp hsuccess)).symm
  have hmem : terminalOutcome terminalState ∈ ledger.retryPolicy.terminalOutcomes := terminalOutcome_mem hstate
  have hnumber : (replayedAttempt timeline ledger.workItemId ledger.attempts.length).attemptNumber =
      ledger.attempts.length + 1 := rfl
  have hfinish := hpending.finish_eq_ok hnumber htime hunchanged hvintage' (.inr hmem) (fun _ => hmem)
    (isStableId_errorOrOutcome reason (terminalOutcome terminalState))
    (status_success (terminalOutcome terminalState))
  refine (replayAttempts_cons (hpending.start_eq_ok hroom le_rfl) ?_ ?_ hkept hfinish rfl).trans ?_
  · rfl
  · rfl
  · simp only [replayed, List.flatMap_cons, List.flatMap_nil]
    rfl

theorem replayAttempts_eq_ok (reasons : List (Option ObligationReasonCode)) :
    ∀ {ledger : AttemptLedger} {index : ℕ} (lastId : Option AttemptId), ledger.Pending (timeline.startedAt index) →
      ledger.retryPolicy = policy → ledger.attempts.length = index → reasons ≠ [] →
      (∀ reason ∈ reasons.dropLast, Retried reason) → index + reasons.length ≤ policy.maxAttempts →
      CaptureSink.replayAttempts timeline terminalState sourceVintageId ledger lastId index reasons =
        .ok (some ⟨ledger.workItemId, index + reasons.length⟩,
          (replayed timeline ledger.workItemId terminalState sourceVintageId index reasons).flatMap pairWrites) := by
  induction reasons with
  | nil => exact fun _ _ _ _ hne => absurd rfl hne
  | cons reason rest ih =>
    intro ledger index lastId hpending hledger hindex _ hretried hroom
    cases rest with
    | nil =>
      subst hledger
      exact replayAttempts_last hstate hvintage hindex hpending hroom reason lastId
    | cons next rest =>
      have hretry : Retried reason := hretried reason (by simp)
      have hmem := retriedOutcome_mem hpolicy hretry
      have hsuccess : retriedOutcome reason ≠ .success := by
        obtain ⟨code, rfl, hcode⟩ := hretry
        cases code <;> simp_all [retriedOutcome, attemptOutcome, dispositionFor]
      have hunchanged : retriedOutcome reason ≠ .unchanged := by
        obtain ⟨code, rfl, hcode⟩ := hretry
        cases code <;> simp_all [retriedOutcome, attemptOutcome, dispositionFor]
      have hno : (none : Option VintageId).isSome ↔ retriedOutcome reason = .success := by
        simp [hsuccess]
      have hlt : index + 1 < policy.maxAttempts := by
        simp only [List.length_cons] at hroom
        omega
      subst hledger hindex
      have hnumber : (replayedAttempt timeline ledger.workItemId ledger.attempts.length).attemptNumber =
          ledger.attempts.length + 1 := rfl
      have hid : (retriedResult timeline ledger.workItemId ledger.attempts.length reason).attemptId =
          (replayedAttempt timeline ledger.workItemId ledger.attempts.length).attemptId := rfl
      have hfinish := hpending.finish_eq_ok hnumber
        (timeline.startedAt_le_retried _) hunchanged hno (.inl hmem)
        (fun hfinal => absurd hfinal hlt.ne) (isStableId_errorOrOutcome reason (retriedOutcome reason))
        (status_success (retriedOutcome reason))
      have hagain := hpending.retry hnumber hid hmem
        ((timeline.startedAt_le_retried _).trans (timeline.retried_le_startedAt_succ _))
        (timeline.retried_le_startedAt_succ _)
      have hlength : ledger.attempts.length + 1 + (next :: rest).length =
          ledger.attempts.length + (reason :: next :: rest).length := by
        simp only [List.length_cons]
        omega
      have hsucc : (ledger.attempts ++ [replayedAttempt timeline ledger.workItemId ledger.attempts.length]).length =
          ledger.attempts.length + 1 := List.length_append
      have hrest := ih (some ⟨ledger.workItemId, ledger.attempts.length + 1⟩) hagain rfl hsucc (List.cons_ne_nil _ _) (fun r hr => hretried r (List.mem_cons_of_mem _ hr)) (hlength.le.trans hroom)
      rw [hlength] at hrest
      have hnone : (if (next :: rest).isEmpty ∧ retriedOutcome reason = .success then sourceVintageId else none) = none :=
        if_neg (by simp)
      refine (replayAttempts_cons (hpending.start_eq_ok ((Nat.lt_succ_self _).trans hlt) le_rfl) ?_ ?_ hnone hfinish
        hrest).trans ?_
      · rfl
      · rfl
      · simp only [replayed, List.flatMap_cons]
        rfl

end Policy

section Rows

variable {timeline : CaptureTimeline} {workItemId : String} {terminalState : ObligationTerminalState}
  {sourceVintageId : Option VintageId}

theorem map_fst_replayed (index : ℕ) (reasons : List (Option ObligationReasonCode)) :
    (replayed timeline workItemId terminalState sourceVintageId index reasons).map Prod.fst =
      (List.range' index reasons.length).map (replayedAttempt timeline workItemId) := by
  induction index, reasons using replayed.induct with
  | case1 index => rfl
  | case2 index reason => rfl
  | case3 index reason next rest ih =>
    simp only [replayed, List.map_cons, ih, List.length_cons, List.range'_succ]

theorem replayed_ne_nil (index : ℕ) {reasons : List (Option ObligationReasonCode)} (h : reasons ≠ []) :
    replayed timeline workItemId terminalState sourceVintageId index reasons ≠ [] := by
  intro hnil
  have hmap := @map_fst_replayed timeline workItemId terminalState sourceVintageId index reasons
  rw [hnil, List.map_nil, eq_comm, List.map_eq_nil_iff, List.range'_eq_nil_iff, List.length_eq_zero_iff] at hmap
  exact h hmap

theorem pair_of_mem_replayed {index : ℕ} {reasons : List (Option ObligationReasonCode)}
    (hroom : index + reasons.length ≤ 20) {pair : FetchAttempt × FetchAttemptResult}
    (h : pair ∈ replayed timeline workItemId terminalState sourceVintageId index reasons) :
    pair.2.attemptId = pair.1.attemptId ∧ pair.1.startedAt ≤ pair.2.completedAt ∧
      pair.2.completedAt ≤ timeline.terminalAttemptAt := by
  induction index, reasons using replayed.induct with
  | case1 index => cases h
  | case2 index reason =>
    rw [replayed, List.mem_singleton] at h
    subst h
    exact ⟨rfl, timeline.startedAt_le_terminalAttemptAt hroom, le_rfl⟩
  | case3 index reason next rest ih =>
    simp only [List.length_cons] at hroom ih
    rw [replayed, List.mem_cons] at h
    rcases h with rfl | h
    · exact ⟨rfl, timeline.startedAt_le_retried index, timeline.retried_le_terminalAttemptAt (by omega)⟩
    · exact ih (by omega) h

theorem isChain_replayed (index : ℕ) (reasons : List (Option ObligationReasonCode)) :
    (replayed timeline workItemId terminalState sourceVintageId index reasons).IsChain
      fun earlier later => earlier.2.completedAt ≤ later.1.startedAt := by
  induction index, reasons using replayed.induct with
  | case1 index => exact .nil
  | case2 index reason => exact .singleton _
  | case3 index reason next rest ih =>
    have hmap := @map_fst_replayed timeline workItemId terminalState sourceVintageId (index + 1) (next :: rest)
    rw [replayed]
    cases hrest : replayed timeline workItemId terminalState sourceVintageId (index + 1) (next :: rest) with
    | nil => exact .singleton _
    | cons later tail =>
      rw [hrest] at ih hmap
      have hfirst : later.1 = replayedAttempt timeline workItemId (index + 1) := by
        simp only [List.map_cons, List.length_cons, List.range'_succ, List.cons.injEq] at hmap
        exact hmap.1
      refine List.isChain_cons_cons.mpr ⟨?_, ih⟩
      rw [hfirst]
      exact timeline.retried_le_startedAt_succ index

theorem retried_of_mem_dropLast_replayed {index : ℕ} {reasons : List (Option ObligationReasonCode)}
    {pair : FetchAttempt × FetchAttemptResult}
    (h : pair ∈ (replayed timeline workItemId terminalState sourceVintageId index reasons).dropLast) :
    ∃ i, ∃ reason ∈ reasons.dropLast, pair.2 = retriedResult timeline workItemId i reason := by
  induction index, reasons using replayed.induct with
  | case1 index => cases h
  | case2 index reason => cases h
  | case3 index reason next rest ih =>
    rw [replayed, List.dropLast_cons_of_ne_nil (replayed_ne_nil _ (List.cons_ne_nil _ _)), List.mem_cons] at h
    rw [List.dropLast_cons_of_ne_nil (List.cons_ne_nil _ _)]
    rcases h with rfl | h
    · exact ⟨index, reason, List.mem_cons_self, rfl⟩
    · obtain ⟨i, other, hother, heq⟩ := ih h
      exact ⟨i, other, List.mem_cons_of_mem _ hother, heq⟩

theorem getLast?_replayed {index : ℕ} {reasons : List (Option ObligationReasonCode)} (hne : reasons ≠ []) :
    ∃ i reason, (replayed timeline workItemId terminalState sourceVintageId index reasons).getLast? =
      some (replayedAttempt timeline workItemId i, settledResult timeline workItemId terminalState sourceVintageId i reason) := by
  induction index, reasons using replayed.induct with
  | case1 index => exact absurd rfl hne
  | case2 index reason => exact ⟨index, reason, rfl⟩
  | case3 index reason next rest ih =>
    obtain ⟨i, other, hlast⟩ := ih (List.cons_ne_nil _ _)
    refine ⟨i, other, ?_⟩
    rw [replayed, List.getLast?_cons, hlast]
    rfl

end Rows

structure Handover (maxAttempts : ℕ) (reasons : List (Option ObligationReasonCode))
    (terminalState : ObligationTerminalState) (success : Option FetchSuccess) : Prop where
  attempted : reasons ≠ []
  retried : ∀ reason ∈ reasons.dropLast, Retried reason
  room : reasons.length ≤ maxAttempts
  executed : Executed terminalState
  served : success.isSome ↔ terminalState = .success
  recorded : ∀ served ∈ success, served.record.isSome
  marked : ∀ served ∈ success, served.servedByFailover.isSome = reasons.getLast?.join.isSome

variable {terminalState : ObligationTerminalState} {success : Option FetchSuccess}

theorem of_mem_resultCodes {reasons : List (Option ObligationReasonCode)} {code : String}
    (h : code ∈ CaptureSink.resultCodes reasons terminalState success) :
    code = terminalState.value ∨ code = servedByFailoverKey ∨ ∃ reason : ObligationReasonCode, code = reason.value := by
  rw [CaptureSink.resultCodes] at h
  split at h
  · exact .inl (List.mem_singleton.mp h)
  · rw [CaptureSink.recordedCodes, mem_sortedSet, List.mem_append, List.mem_map] at h
    rcases h with ⟨reason, _, rfl⟩ | h
    · exact .inr (.inr ⟨reason, rfl⟩)
    · split_ifs at h
      · exact .inr (.inl (List.mem_singleton.mp h))
      · cases h

theorem sortedUniqueStrings_resultCodes (fieldName : String) (reasons : List (Option ObligationReasonCode))
    (terminalState : ObligationTerminalState) (success : Option FetchSuccess) :
    ∃ codes, sortedUniqueStrings fieldName (CaptureSink.resultCodes reasons terminalState success) = .ok codes := by
  refine ⟨_, sortedUniqueStrings_eq_ok ?_ ?_ ?_⟩
  · rw [CaptureSink.resultCodes]
    split
    · simp
    · assumption
  · rw [CaptureSink.resultCodes]
    split
    · simp
    · exact (strictSorted_sortedSet _).imp ne_of_lt
  · intro code hcode
    rcases of_mem_resultCodes hcode with rfl | rfl | ⟨reason, rfl⟩
    · exact terminalState.isStableId_value
    · decide +kernel
    · exact reason.isStableId_value

variable {maxAttempts : ℕ}

theorem handover_append {reasons : List (Option ObligationReasonCode)} {last : Option ObligationReasonCode}
    (hretried : ∀ reason ∈ reasons, Retried reason) (hroom : reasons.length < maxAttempts)
    (hexecuted : Executed terminalState) (hserved : success.isSome ↔ terminalState = .success)
    (hrecorded : ∀ served ∈ success, served.record.isSome)
    (hmarked : ∀ served ∈ success, served.servedByFailover.isSome = last.isSome) :
    Handover maxAttempts (reasons ++ [last]) terminalState success where
  attempted := List.concat_ne_nil last reasons
  retried := by rwa [List.dropLast_concat]
  room := by
    rw [List.length_append, List.length_singleton]
    exact hroom
  executed := hexecuted
  served := hserved
  recorded := hrecorded
  marked := by
    rw [List.getLast?_concat]
    exact hmarked

namespace Handover

variable {sink : CaptureSink} {maxAttempts : ℕ} {item : CaptureWorkItem} {binding : ObligationBinding}
  {reasons : List (Option ObligationReasonCode)} {terminalState : ObligationTerminalState}
  {success : Option FetchSuccess}

theorem checkHandover_eq_ok (h : Handover maxAttempts reasons terminalState success)
    (hmax : sink.retry.maxAttempts = maxAttempts) :
    sink.checkHandover item reasons terminalState success = .ok () := by
  have hroom : ¬ sink.retry.maxAttempts < reasons.length := by
    rw [hmax]
    exact not_lt.mpr h.room
  unfold CaptureSink.checkHandover
  rw [if_neg h.attempted, if_neg hroom]
  cases success with
  | none => rfl
  | some served =>
    have hrecord : served.record ≠ none := Option.isSome_iff_ne_none.mp (h.recorded served rfl)
    have hstate : terminalState = .success := h.served.mp rfl
    simp only [if_neg hrecord, if_neg (not_not.mpr hstate), if_neg (not_not.mpr (h.marked served rfl))]

theorem recordOutcome_eq_ok (h : Handover maxAttempts reasons terminalState success)
    (hpolicy : replayRetryPolicy maxAttempts = .ok sink.retry) (hbinding : sink.bindings item.workItemId = some binding) :
    ∃ codes, sink.recordOutcome item reasons terminalState success = .ok (CaptureSink.contentWrites binding success ++
        (replayed sink.timeline item.workItemId terminalState (success.map (CaptureSink.landedVintage binding)) 0
          reasons).flatMap pairWrites ++ CaptureSink.observationWrites binding success ++
        [.obligationResult binding.obligationId ⟨binding.listObligationId, terminalState, sink.timeline.completedAt,
          some ⟨item.workItemId, 0 + reasons.length⟩, codes⟩]) := by
  have hmax := maxAttempts_of_replayRetryPolicy hpolicy
  have hvintage : (success.map (CaptureSink.landedVintage binding)).isSome ↔ terminalState = .success := by
    rw [Option.isSome_map]
    exact h.served
  have hroom : 0 + reasons.length ≤ sink.retry.maxAttempts := by
    rw [Nat.zero_add, hmax]
    exact h.room
  have hreplay := replayAttempts_eq_ok hpolicy h.executed hvintage reasons none
    (AttemptLedger.pending_empty item.workItemId sink.retry (sink.timeline.startedAt 0)) rfl rfl h.attempted h.retried hroom
  obtain ⟨codes, hcodes⟩ := sortedUniqueStrings_resultCodes "reason_codes" reasons terminalState success
  have hskipped : terminalState ≠ .skippedByPolicy := by
    rintro rfl
    have hexecuted := h.executed
    simp [Executed] at hexecuted
  refine ⟨codes, ?_⟩
  simp only [CaptureSink.recordOutcome, hbinding, h.checkHandover_eq_ok hmax, hreplay, ListObligationResult.build, hcodes,
      if_neg hskipped, bind, Except.bind]
  rfl

end Handover

/-! ## The ports -/

namespace SourcePort

variable {σ : Type}

structure CarriesRecords (port : SourcePort σ) : Prop where
  fetched : ∀ item state success, (port.fetch item state).1 = .success success → success.record.isSome
  served : ∀ ask ∈ port.failover, ∀ item reason state, ∀ success ∈ (ask item reason state).1, success.record.isSome

/-- The port's successes name a serving origin exactly when they come from `failover`. -/
structure Marks (port : SourcePort σ) : Prop where
  fetched : ∀ item state success, (port.fetch item state).1 = .success success → success.servedByFailover = none
  served : ∀ ask ∈ port.failover, ∀ item reason state, ∀ success ∈ (ask item reason state).1, success.servedByFailover ≠ none

def counted (port : SourcePort σ) : SourcePort (σ × ℕ) where
  fetch item state := ((port.fetch item state.1).1, (port.fetch item state.1).2, state.2 + 1)
  failover := port.failover.map fun ask item reason state =>
    ((ask item reason state.1).1, (ask item reason state.1).2, state.2)

end SourcePort

namespace CaptureExecutor

variable {σ : Type} {port : SourcePort σ}

theorem failover_cases (hrecords : port.CarriesRecords) (item : CaptureWorkItem) (reason : ObligationReasonCode) (state : σ × ℕ) :
    (∃ message, failover port.counted item reason state = .error (.port message) ∧ ¬ port.Marks) ∨
      ∃ served after, failover port.counted item reason state = .ok (served, after) ∧ after.2 = state.2 ∧
        ∀ success ∈ served, success.servedByFailover.isSome ∧ success.record.isSome := by
  cases hport : port.failover with
  | none => exact .inr ⟨none, state, by simp [failover, SourcePort.counted, hport], rfl, by simp⟩
  | some ask =>
    cases hask : (ask item reason state.1).1 with
    | none =>
      exact .inr ⟨none, ((ask item reason state.1).2, state.2), by simp [failover, SourcePort.counted, hport, hask], rfl,
        by simp⟩
    | some served =>
      by_cases hmark : served.servedByFailover = none
      · refine .inl ⟨item.workItemId ++ ": a failover success must name the origin that served it",
          by simp [failover, SourcePort.counted, hport, hask, hmark], fun hmarks => ?_⟩
        exact hmarks.served ask hport item reason state.1 served hask hmark
      · refine .inr ⟨some served, ((ask item reason state.1).2, state.2),
          by simp [failover, SourcePort.counted, hport, hask, hmark], rfl, ?_⟩
        rintro success ⟨⟩
        exact ⟨Option.isSome_iff_ne_none.mpr hmark, hrecords.served ask hport item reason state.1 served hask⟩

def Concludes (executor : CaptureExecutor) (port : SourcePort σ) (item : CaptureWorkItem) (before : ℕ)
    (run : Except RunError (ItemRun (σ × ℕ))) : Prop :=
  (∃ message, run = .error (.port message) ∧ ¬ port.Marks) ∨
    ∃ reasons terminalState success halt state, Handover executor.maxAttempts reasons terminalState success ∧
      state.2 = before + reasons.length ∧ run = executor.terminal item reasons terminalState success halt state

variable {executor : CaptureExecutor} {item : CaptureWorkItem} {before : ℕ} {reasons : List (Option ObligationReasonCode)}

theorem exhausted_concludes (hrecords : port.CarriesRecords) {reason : ObligationReasonCode}
    (hlast : reasons.getLast? = some (some reason)) (hretried : ∀ r ∈ reasons.dropLast, Retried r)
    (hroom : reasons.length ≤ executor.maxAttempts) {state : σ × ℕ} (hcount : state.2 = before + reasons.length) :
    Concludes executor port item before (executor.exhausted port.counted item reasons (some reason) state) := by
  have hne : reasons ≠ [] := by
    rintro rfl
    cases hlast
  rcases failover_cases hrecords item reason state with ⟨message, herror, hmarks⟩ | ⟨served, after, hok, hafter, hserved⟩
  · exact .inl ⟨message, by simp [exhausted, herror, bind, Except.bind], hmarks⟩
  · cases served with
    | none =>
      refine .inr ⟨reasons, .unavailable, none, false, after, ?_, hafter.trans hcount,
        by simp [exhausted, hok, bind, Except.bind]⟩
      exact ⟨hne, hretried, hroom, by simp [Executed], by simp, by simp, by simp⟩
    | some served =>
      refine .inr ⟨reasons, .success, some served, false, after, ?_, hafter.trans hcount,
        by simp [exhausted, hok, bind, Except.bind]⟩
      have hmark := hserved served rfl
      refine ⟨hne, hretried, hroom, by simp [Executed], by simp, ?_, ?_⟩
      · rintro success ⟨⟩
        exact hmark.2
      · rintro success ⟨⟩
        rw [hmark.1, hlast]
        rfl

theorem attemptLoop_concludes (hrecords : port.CarriesRecords) (left : ℕ) :
    ∀ (reasons : List (Option ObligationReasonCode)) (state : σ × ℕ), left + reasons.length = executor.maxAttempts →
      0 < executor.maxAttempts → (∀ reason ∈ reasons, Retried reason) → state.2 = before + reasons.length →
      Concludes executor port item before
        (executor.attemptLoop port.counted item left reasons reasons.getLast?.join state) := by
  induction left with
  | zero =>
    intro reasons state hleft hpos hretried hcount
    have hne : reasons ≠ [] := by
      rintro rfl
      simp at hleft
      omega
    obtain ⟨last, hlast⟩ := Option.ne_none_iff_exists'.mp (mt List.getLast?_eq_none_iff.mp hne)
    obtain ⟨code, rfl, _⟩ := hretried last (List.mem_of_getLast? hlast)
    rw [attemptLoop, hlast]
    exact exhausted_concludes hrecords hlast (fun r hr => hretried r (List.dropLast_subset _ hr)) (by omega) hcount
  | succ left ih =>
    intro reasons state hleft hpos hretried hcount
    have hroom : reasons.length < executor.maxAttempts := by omega
    have hnext : ∀ last, state.2 + 1 = before + (reasons ++ [last]).length := by
      intro last
      rw [hcount, List.length_append, List.length_singleton, Nat.add_assoc]
    rw [attemptLoop]
    cases hanswer : (port.fetch item state.1).1 with
    | success result =>
      have hfetch : port.counted.fetch item state = (.success result, (port.fetch item state.1).2, state.2 + 1) := by
        rw [← hanswer]
        rfl
      have hrecord := hrecords.fetched item state.1 result hanswer
      rw [hfetch]
      by_cases hserved : result.servedByFailover = none
      · simp only [ne_eq, hserved, not_true, if_false]
        have hclean : Handover executor.maxAttempts (reasons ++ [none]) .success (some result) :=
          handover_append hretried hroom (by simp [Executed]) (by simp) (by simpa using hrecord) (by simp [hserved])
        cases hreason : result.failoverReason with
        | none => exact .inr ⟨_, _, _, _, _, hclean, hnext none, rfl⟩
        | some reason =>
          rcases failover_cases hrecords item reason ((port.fetch item state.1).2, state.2 + 1) with
            ⟨message, herror, hmarks⟩ | ⟨served, after, hok, hafter, hmark⟩
          · exact .inl ⟨message, by simp [herror, bind, Except.bind], hmarks⟩
          · simp only [hok, bind, Except.bind]
            cases served with
            | none => exact .inr ⟨_, _, _, _, _, hclean, hafter.trans (hnext none), rfl⟩
            | some served =>
              have hmark := hmark served rfl
              refine .inr ⟨reasons ++ [some reason], _, _, _, _, ?_, hafter.trans (hnext _), rfl⟩
              exact handover_append hretried hroom (by simp [Executed]) (by simp) (by simpa using hmark.2)
                (by simpa using hmark.1)
      · refine .inl ⟨item.workItemId ++ ": a failover success must come from `failover`, not `fetch`", ?_, fun hmarks => ?_⟩
        · simp [hserved]
        · exact hserved (hmarks.fetched item state.1 result hanswer)
    | failure reason =>
      have hfetch : port.counted.fetch item state = (.failure reason, (port.fetch item state.1).2, state.2 + 1) := by
        rw [← hanswer]
        rfl
      rw [hfetch]
      have hlast : (reasons ++ [some reason]).getLast? = some (some reason) := List.getLast?_concat
      simp only
      cases hdisposition : dispositionFor reason with
      | stop =>
        refine .inr ⟨_, _, _, _, _, ?_, hnext _, rfl⟩
        exact handover_append hretried hroom (by simp [Executed]) (by simp) (by simp) (by simp)
      | retry =>
        have hretried' : ∀ r ∈ reasons ++ [some reason], Retried r := by
          intro r hr
          rcases List.mem_append.mp hr with hr | hr
          · exact hretried r hr
          · exact ⟨reason, List.mem_singleton.mp hr, hdisposition⟩
        have hloop := ih (reasons ++ [some reason]) ((port.fetch item state.1).2, state.2 + 1)
          (by simp; omega) hpos hretried' (hnext _)
        rwa [hlast] at hloop
      | traceOnly =>
        exact exhausted_concludes hrecords hlast (by rwa [List.dropLast_concat]) (by simp; omega) (hnext _)

theorem terminal_eq_ok {sink : CaptureSink} {rows : List CaptureWrite}
    (h : sink.recordOutcome item reasons terminalState success = .ok rows) {halt : Bool} {state : σ × ℕ} :
    CaptureExecutor.terminal ⟨some sink, maxAttempts⟩ item reasons terminalState success halt state =
      .ok ⟨⟨item.workItemId, terminalState, reasons.getLast?.join, reasons.length,
        success.bind FetchSuccess.servedByFailover⟩, halt, success.toList.map CaptureWrite.evidence ++ rows, state⟩ := by
  simp only [terminal, h, Except.mapError, bind, Except.bind]
  rfl

theorem runItem_concludes (hrecords : port.CarriesRecords) (hpos : 0 < executor.maxAttempts) (state : σ × ℕ) :
    Concludes executor port item state.2 (executor.runItem port.counted item state) :=
  attemptLoop_concludes hrecords executor.maxAttempts [] state rfl hpos (by simp) rfl

end CaptureExecutor

/-! ## Every outcome -/

def attemptsOf (writes : List CaptureWrite) : List FetchAttempt := writes.filterMap fun
    | .attempt attempt => some attempt
    | _ => none

def resultsOf (writes : List CaptureWrite) : List FetchAttemptResult := writes.filterMap fun
    | .attemptResult result => some result
    | _ => none

def obligationResultsOf (writes : List CaptureWrite) : List (String × ListObligationResult) := writes.filterMap fun
    | .obligationResult obligationId result => some (obligationId, result)
    | _ => none

structure Persisted (sink : CaptureSink) (item : CaptureWorkItem) (binding : ObligationBinding)
    (terminalState : ObligationTerminalState) (calls : ℕ) (writes : List CaptureWrite) : Prop where
  attempts : (attemptsOf writes).map FetchAttempt.attemptId = (List.range' 1 calls).map (AttemptId.mk item.workItemId)
  results : (resultsOf writes).map FetchAttemptResult.attemptId = (attemptsOf writes).map FetchAttempt.attemptId
  forward : ∀ pair ∈ (attemptsOf writes).zip (resultsOf writes), pair.1.startedAt ≤ pair.2.completedAt
  spaced : ((attemptsOf writes).zip (resultsOf writes)).IsChain
    fun earlier later => earlier.2.completedAt ≤ later.1.startedAt
  retried : ∀ result ∈ (resultsOf writes).dropLast, result.outcome ∈ sink.retry.retryableOutcomes ∧ result.sourceVintageId = none
  settled : ∃ result, (resultsOf writes).getLast? = some result ∧ result.outcome ∈ sink.retry.terminalOutcomes ∧
    (result.sourceVintageId.isSome ↔ terminalState = .success)
  resolved : ∃ result, obligationResultsOf writes = [(binding.obligationId, result)] ∧
    result.terminalState = terminalState ∧ result.finalAttemptId = (attemptsOf writes).getLast?.map FetchAttempt.attemptId ∧
    ∀ attempt ∈ resultsOf writes, attempt.completedAt < result.completedAt

variable (pairs : List (FetchAttempt × FetchAttemptResult))

theorem attemptsOf_pairWrites : attemptsOf (pairs.flatMap pairWrites) = pairs.map Prod.fst := by
  induction pairs with
  | nil => rfl
  | cons pair pairs ih => simpa [attemptsOf, pairWrites] using ih

theorem attemptsOf_rows (success : Option FetchSuccess) (binding : ObligationBinding)
    (pairs : List (FetchAttempt × FetchAttemptResult)) (result : ListObligationResult) :
    attemptsOf (success.toList.map CaptureWrite.evidence ++ (CaptureSink.contentWrites binding success ++
      pairs.flatMap pairWrites ++ CaptureSink.observationWrites binding success ++
      [.obligationResult binding.obligationId result])) = pairs.map Prod.fst := by
  rw [← attemptsOf_pairWrites]
  cases success <;>
    simp [attemptsOf, CaptureSink.contentWrites, CaptureSink.observationWrites, List.filterMap_append]

theorem resultsOf_pairWrites : resultsOf (pairs.flatMap pairWrites) = pairs.map Prod.snd := by
  induction pairs with
  | nil => rfl
  | cons pair pairs ih => simpa [resultsOf, pairWrites] using ih

theorem resultsOf_rows (success : Option FetchSuccess) (binding : ObligationBinding)
    (pairs : List (FetchAttempt × FetchAttemptResult)) (result : ListObligationResult) :
    resultsOf (success.toList.map CaptureWrite.evidence ++ (CaptureSink.contentWrites binding success ++
      pairs.flatMap pairWrites ++ CaptureSink.observationWrites binding success ++
      [.obligationResult binding.obligationId result])) = pairs.map Prod.snd := by
  rw [← resultsOf_pairWrites]
  cases success <;>
    simp [resultsOf, CaptureSink.contentWrites, CaptureSink.observationWrites, List.filterMap_append]

theorem obligationResultsOf_rows (success : Option FetchSuccess) (binding : ObligationBinding)
    (pairs : List (FetchAttempt × FetchAttemptResult)) (result : ListObligationResult) :
    obligationResultsOf (success.toList.map CaptureWrite.evidence ++ (CaptureSink.contentWrites binding success ++
      pairs.flatMap pairWrites ++ CaptureSink.observationWrites binding success ++
      [.obligationResult binding.obligationId result])) = [(binding.obligationId, result)] := by
  have hpairs : obligationResultsOf (pairs.flatMap pairWrites) = [] := by
    induction pairs with
    | nil => rfl
    | cons pair pairs ih => simpa [obligationResultsOf, pairWrites] using ih
  rw [obligationResultsOf] at hpairs
  cases success <;>
    simp [obligationResultsOf, CaptureSink.contentWrites, CaptureSink.observationWrites, List.filterMap_append, hpairs]

variable {item : CaptureWorkItem}

theorem Handover.persisted {sink : CaptureSink} {binding : ObligationBinding}
    {reasons : List (Option ObligationReasonCode)} (h : Handover maxAttempts reasons terminalState success)
    (hpolicy : replayRetryPolicy maxAttempts = .ok sink.retry) (codes : List String) :
    Persisted sink item binding terminalState reasons.length
      (success.toList.map CaptureWrite.evidence ++ (CaptureSink.contentWrites binding success ++
        (replayed sink.timeline item.workItemId terminalState (success.map (CaptureSink.landedVintage binding)) 0
          reasons).flatMap pairWrites ++ CaptureSink.observationWrites binding success ++
        [.obligationResult binding.obligationId ⟨binding.listObligationId, terminalState, sink.timeline.completedAt,
          some ⟨item.workItemId, 0 + reasons.length⟩, codes⟩])) := by
  set pairs := replayed sink.timeline item.workItemId terminalState (success.map (CaptureSink.landedVintage binding)) 0
    reasons with hpairs
  have hattempts : pairs.map (FetchAttempt.attemptId ∘ Prod.fst) =
      (List.range' 1 reasons.length).map (AttemptId.mk item.workItemId) := by
    rw [← List.map_map, hpairs, map_fst_replayed, List.map_map, ← List.map_add_range' (a := 1) (s := 0), List.map_map]
    refine List.map_congr_left fun index _ => ?_
    simp [replayedAttempt, FetchAttempt.attemptId, Nat.add_comm]
  have hroom : 0 + reasons.length ≤ 20 := by
    have hbounded := sink.retry.bounded
    rw [maxAttempts_of_replayRetryPolicy hpolicy] at hbounded
    rw [Nat.zero_add]
    exact h.room.trans hbounded
  have hpair := fun pair => @pair_of_mem_replayed sink.timeline item.workItemId terminalState
    (success.map (CaptureSink.landedVintage binding)) 0 reasons hroom pair
  have hzip : (pairs.map Prod.fst).zip (pairs.map Prod.snd) = pairs := (List.zip_of_prod rfl rfl).symm
  obtain ⟨last, reason, hlast⟩ := @getLast?_replayed sink.timeline item.workItemId terminalState
    (success.map (CaptureSink.landedVintage binding)) 0 reasons h.attempted
  rw [← hpairs] at hlast
  refine ⟨?_, ?_, ?_, ?_, ?_, ?_, ?_⟩ <;> simp only [attemptsOf_rows, resultsOf_rows, obligationResultsOf_rows, hzip]
  · rw [List.map_map, hattempts]
  · rw [List.map_map, List.map_map]
    exact List.map_congr_left fun pair hmem => (hpair pair hmem).1
  · exact fun pair hmem => (hpair pair hmem).2.1
  · exact isChain_replayed 0 reasons
  · intro result hmem
    rw [← List.map_dropLast, List.mem_map] at hmem
    obtain ⟨pair, hmem, rfl⟩ := hmem
    obtain ⟨i, retriedReason, hretried, heq⟩ := retried_of_mem_dropLast_replayed hmem
    rw [heq]
    exact ⟨retriedOutcome_mem hpolicy (h.retried retriedReason hretried), rfl⟩
  · refine ⟨_, by rw [List.getLast?_map, hlast]; rfl, terminalOutcome_mem h.executed, ?_⟩
    simpa [settledResult] using h.served
  · refine ⟨_, rfl, rfl, ?_, ?_⟩
    · obtain ⟨n, hn⟩ := Nat.exists_eq_succ_of_ne_zero (mt List.length_eq_zero_iff.mp h.attempted)
      rw [← List.getLast?_map, List.map_map, hattempts, hn, List.range'_concat, List.map_append, List.map_singleton,
        List.getLast?_concat, Nat.zero_add, Nat.one_mul, Nat.add_comm]
    · intro result hmem
      obtain ⟨pair, hpairMem, rfl⟩ := List.mem_map.mp hmem
      exact (hpair pair hpairMem).2.2.trans_lt sink.timeline.terminalAttemptAt_lt_completedAt

def ItemPersisted {σ : Type} (sink : CaptureSink) (item : CaptureWorkItem) (calls : ℕ) (run : ItemRun (σ × ℕ)) : Prop :=
  ∃ binding fetched, sink.bindings item.workItemId = some binding ∧ run.state.2 = calls + fetched ∧
    Persisted sink item binding run.outcome.terminalState fetched run.writes

inductive AllPersisted {σ : Type} (sink : CaptureSink) : List CaptureWorkItem → ℕ → List (ItemRun (σ × ℕ)) → Prop
  | done (calls : ℕ) : AllPersisted sink [] calls []
  | halted {item : CaptureWorkItem} (items : List CaptureWorkItem) {calls : ℕ} {run : ItemRun (σ × ℕ)}
      (persisted : ItemPersisted sink item calls run) (halts : run.halt = true) :
      AllPersisted sink (item :: items) calls [run]
  | next {item : CaptureWorkItem} {items : List CaptureWorkItem} {calls : ℕ} {run : ItemRun (σ × ℕ)}
      {runs : List (ItemRun (σ × ℕ))} (persisted : ItemPersisted sink item calls run) (goes : run.halt = false)
      (rest : AllPersisted sink items run.state.2 runs) : AllPersisted sink (item :: items) calls (run :: runs)

section Executor

variable {σ : Type} {port : SourcePort σ} {sink : CaptureSink} {maxAttempts : ℕ}

theorem runItem_persisted (hpolicy : replayRetryPolicy maxAttempts = .ok sink.retry) (hrecords : port.CarriesRecords) {binding : ObligationBinding} (hbinding : sink.bindings item.workItemId = some binding)
    (state : σ × ℕ) :
    (∃ message, CaptureExecutor.runItem ⟨some sink, maxAttempts⟩ port.counted item state = .error (.port message) ∧
      ¬ port.Marks) ∨
    ∃ run, CaptureExecutor.runItem ⟨some sink, maxAttempts⟩ port.counted item state = .ok run ∧
      ItemPersisted sink item state.2 run := by
  have hpos : 0 < maxAttempts := by
    have hpositive := sink.retry.positive
    rwa [maxAttempts_of_replayRetryPolicy hpolicy] at hpositive
  have hconcludes : CaptureExecutor.Concludes ⟨some sink, maxAttempts⟩ port item state.2 _ :=
    CaptureExecutor.runItem_concludes hrecords hpos state
  refine hconcludes.imp id ?_
  rintro ⟨reasons, terminalState, success, halt, after, hhandover, hcount, hrun⟩
  obtain ⟨codes, hrecord⟩ := hhandover.recordOutcome_eq_ok hpolicy hbinding
  exact ⟨_, hrun.trans (CaptureExecutor.terminal_eq_ok hrecord), binding, reasons.length, hbinding, hcount,
    hhandover.persisted hpolicy codes⟩

/-- Every outcome of a run over planned work items is persisted. -/
theorem every_outcome_is_persisted (hpolicy : replayRetryPolicy maxAttempts = .ok sink.retry)
    (hrecords : port.CarriesRecords) {items : List CaptureWorkItem}
    (hplanned : ∀ item ∈ items, (sink.bindings item.workItemId).isSome) (state : σ × ℕ) :
    (∃ message, CaptureExecutor.runItems ⟨some sink, maxAttempts⟩ port.counted items state = .error (.port message) ∧
      ¬ port.Marks) ∨
    ∃ runs, CaptureExecutor.runItems ⟨some sink, maxAttempts⟩ port.counted items state = .ok runs ∧
      AllPersisted sink items state.2 runs := by
  induction items generalizing state with
  | nil => exact .inr ⟨[], rfl, .done state.2⟩
  | cons item items ih =>
    obtain ⟨binding, hbinding⟩ := Option.isSome_iff_exists.mp (hplanned item List.mem_cons_self)
    rcases runItem_persisted hpolicy hrecords hbinding state with
      ⟨message, herror, hmarks⟩ | ⟨run, hrun, hpersisted⟩
    · exact .inl ⟨message, by simp only [CaptureExecutor.runItems, herror, bind, Except.bind], hmarks⟩
    · cases hhalt : run.halt with
      | true =>
        exact .inr ⟨[run], by simp [CaptureExecutor.runItems, hrun, hhalt, bind, Except.bind, pure, Except.pure],
          .halted items hpersisted hhalt⟩
      | false =>
        rcases ih (fun other hother => hplanned other (List.mem_cons_of_mem item hother)) run.state with
          ⟨message, herror, hmarks⟩ | ⟨runs, hruns, hall⟩
        · exact .inl ⟨message, by simp [CaptureExecutor.runItems, hrun, hhalt, herror, bind, Except.bind], hmarks⟩
        · exact .inr ⟨run :: runs,
            by simp [CaptureExecutor.runItems, hrun, hhalt, hruns, bind, Except.bind, pure, Except.pure],
            .next hpersisted hhalt hall⟩

end Executor

def sampleItem : CaptureWorkItem := ⟨"capture-work-item:a", "capture-campaign:a", "source-request:a", "schedule-policy:a"⟩

def sampleSuccess : FetchSuccess where
  raw := ⟨"a", "record:a"⟩
  normalizedSha256 := "b"
  validFrom := 0
  transactionTime := 0
  confidence := none
  record := some ⟨[], "parser:v1", "mapping:v1"⟩
  corroborations := []
  servedByFailover := none
  failoverReason := none
  declared := by simp
  single := by simp
  servable := by simp

def samplePort : SourcePort Bool where
  fetch _ asked := if asked then (.success sampleSuccess, true) else (.failure .timeout, true)
  failover := none

theorem sampleSuccess_of_fetch {asked : Bool} {success : FetchSuccess}
    (h : (samplePort.fetch item asked).1 = .success success) : success = sampleSuccess := by
  cases asked
  · cases h
  · exact (FetchOutcome.success.inj h).symm

theorem timed_out_item_is_persisted : ∃ sink runs,
    CaptureExecutor.runItems ⟨some sink, 3⟩ samplePort.counted [sampleItem] (false, 0) = .ok runs ∧
      AllPersisted sink [sampleItem] 0 runs := by
  obtain ⟨policy, hpolicy⟩ := exists_replayRetryPolicy_iff.mpr (by decide : 1 ≤ 3 ∧ 3 ≤ 20)
  have hrecords : samplePort.CarriesRecords :=
    ⟨fun _ _ _ h => sampleSuccess_of_fetch h ▸ rfl, fun ask hask => by cases hask⟩
  have hmarks : samplePort.Marks :=
    ⟨fun _ _ _ h => sampleSuccess_of_fetch h ▸ rfl, fun ask hask => by cases hask⟩
  refine ⟨⟨fun _ => some ⟨"capture-list-obligation:a", "list-obligation:a", "source-request:a"⟩, ⟨0⟩, policy⟩, ?_⟩
  refine (every_outcome_is_persisted hpolicy hrecords ?_ (false, 0)).resolve_left ?_
  · simp
  · exact fun ⟨_, _, hno⟩ => hno hmarks

end TrueAlpha.Datahub
