import TrueAlpha.Datahub.CaptureExecutor
import TrueAlpha.Datahub.PointerRegistry

/-!
# The effects of a capture run

`run` of `executor.py` with its effects in their order: the appends to the evidence graph, the calls of the port and the
outcomes for the sink.  Without them it is `CaptureExecutor.runItem` (`runItem_eq_traced`).
-/

namespace TrueAlpha.Datahub

open Contracts

inductive CaptureEffect where
  | appended (nodes : List EvidenceNode) (edges : List EvidenceEdge)
  | fetched (item : CaptureWorkItem) (outcome : FetchOutcome)
  | askedFailover (item : CaptureWorkItem) (primaryReason : ObligationReasonCode) (served : Option FetchSuccess)
  | recorded (item : CaptureWorkItem) (attemptReasons : List (Option ObligationReasonCode))
      (terminalState : ObligationTerminalState) (success : Option FetchSuccess)

structure Progress (σ : Type) where
  state : σ
  effects : List CaptureEffect

structure RunRef where
  runId : String
  recordedAt : Instant
  deriving DecidableEq, Repr

structure ToptCaptureRunReport where
  runId : String
  outcomes : List ObligationOutcome
  halted : Bool
  haltReason : Option ObligationReasonCode
  deriving DecidableEq, Repr

namespace ToptCaptureRunReport

def total (report : ToptCaptureRunReport) : ℕ := report.outcomes.length

/-- No STOP is outstanding. -/
def succeeded (report : ToptCaptureRunReport) : Bool := ¬ report.halted ∧ report.total = report.outcomes.length

end ToptCaptureRunReport

inductive CaptureRunError where
  | notCaptureRun
  | nodeId (kind nodeId : String)
  | item (error : RunError)
  deriving DecidableEq, Repr

/-- The nodes and edges of `_write_success`. -/
def successEvidence (run : RunRef) (success : FetchSuccess) : List EvidenceNode × List EvidenceEdge :=
  let rawId := "raw-fetch:" ++ success.raw.sha256
  let observationId := "normalized-observation:" ++ success.normalizedSha256
  let stamp : BitemporalStamp := ⟨success.validFrom, success.transactionTime, run.recordedAt⟩
  ([⟨rawId, "raw-fetch", stamp⟩, ⟨observationId, "normalized-observation", stamp⟩],
    [⟨observationId, rawId, "derived_from", stamp⟩, ⟨rawId, run.runId, "member_of", stamp⟩])

def runEvidence (run : RunRef) (cutoff : Instant) : List EvidenceNode × List EvidenceEdge :=
  ([⟨run.runId, "capture-run", ⟨utcDate cutoff, cutoff, run.recordedAt⟩⟩], [])

def appendOf (evidence : List EvidenceNode × List EvidenceEdge) : CaptureEffect := .appended evidence.1 evidence.2

variable (reasons : List (Option ObligationReasonCode))

namespace Traced

variable {σ : Type}

def Progress.after (progress : Progress σ) (effect : CaptureEffect) : Progress σ :=
  { progress with effects := progress.effects ++ [effect] }

def fetch (port : SourcePort σ) (item : CaptureWorkItem) (progress : Progress σ) : FetchOutcome × Progress σ :=
  let (outcome, state) := port.fetch item progress.state
  (outcome, ⟨state, progress.effects ++ [.fetched item outcome]⟩)

def failover (port : SourcePort σ) (item : CaptureWorkItem) (primaryReason : ObligationReasonCode)
    (progress : Progress σ) : Except RunError (Option FetchSuccess × Progress σ) :=
  match port.failover with
  | none => .ok (none, progress)
  | some ask =>
    let (served, state) := ask item primaryReason progress.state
    let progress := ⟨state, progress.effects ++ [.askedFailover item primaryReason served]⟩
    match served with
    | none => .ok (none, progress)
    | some served =>
      if served.servedByFailover = none then
        .error (.port (item.workItemId ++ ": a failover success must name the origin that served it"))
      else .ok (some served, progress)

def writeSuccess (run : RunRef) (success : FetchSuccess) (progress : Progress σ) : Progress σ :=
  Progress.after progress (appendOf (successEvidence run success))

variable (executor : CaptureExecutor) (run : RunRef)

def terminal (item : CaptureWorkItem) (reasons : List (Option ObligationReasonCode))
    (terminalState : ObligationTerminalState) (success : Option FetchSuccess) (progress : Progress σ) :
    Except RunError (ObligationOutcome × Progress σ) := do
  let progress ← match executor.sink with
    | none => .ok progress
    | some sink => do
      let _ ← (sink.recordOutcome item reasons terminalState success).mapError .sink
      .ok (Progress.after progress (.recorded item reasons terminalState success))
  return ({
    workItemId := item.workItemId
    terminalState
    reasonCode := reasons.getLast?.join
    attempts := reasons.length
    servedByFailover := success.bind FetchSuccess.servedByFailover }, progress)

def finish (item : CaptureWorkItem) (reasons : List (Option ObligationReasonCode))
    (terminalState : ObligationTerminalState) (success : Option FetchSuccess) (halt : Bool) (progress : Progress σ) :
    Except RunError (ObligationOutcome × Bool × Progress σ) := do
  let progress := success.elim progress fun success => writeSuccess run success progress
  let (outcome, progress) ← terminal executor item reasons terminalState success progress
  return (outcome, halt, progress)

/-- The end of `_run_item` after the loop. -/
def exhausted (port : SourcePort σ) (item : CaptureWorkItem) (reasons : List (Option ObligationReasonCode))
    (primaryReason : Option ObligationReasonCode) (progress : Progress σ) :
    Except RunError (ObligationOutcome × Bool × Progress σ) :=
  match primaryReason with
  | none => .error .assertion
  | some reason => do
    match ← failover port item reason progress with
    | (some served, progress) => finish executor run item reasons .success (some served) false progress
    | (none, progress) => finish executor run item reasons .unavailable none false progress

/-- The loop of `_run_item`, with the number of attempts that are left. -/
def attemptLoop (port : SourcePort σ) (item : CaptureWorkItem) :
    ℕ → List (Option ObligationReasonCode) → Option ObligationReasonCode → Progress σ →
      Except RunError (ObligationOutcome × Bool × Progress σ)
  | 0, reasons, primaryReason, progress => exhausted executor run port item reasons primaryReason progress
  | left + 1, reasons, _, progress =>
    match fetch port item progress with
    | (.success result, progress) =>
      if result.servedByFailover ≠ none then
        .error (.port (item.workItemId ++ ": a failover success must come from `failover`, not `fetch`"))
      else match result.failoverReason with
        | none => finish executor run item (reasons ++ [none]) .success (some result) false progress
        | some reason => do
          match ← failover port item reason progress with
          | (some served, progress) =>
            finish executor run item (reasons ++ [some reason]) .success (some served) false progress
          | (none, progress) => finish executor run item (reasons ++ [none]) .success (some result) false progress
    | (.failure reason, progress) =>
      let reasons := reasons ++ [some reason]
      match dispositionFor reason with
      | .stop => finish executor run item reasons .failed none true progress
      | .traceOnly => exhausted executor run port item reasons (some reason) progress
      | .retry => attemptLoop port item left reasons (some reason) progress

def runItem (port : SourcePort σ) (item : CaptureWorkItem) (progress : Progress σ) :
    Except RunError (ObligationOutcome × Bool × Progress σ) :=
  attemptLoop executor run port item executor.maxAttempts [] none progress

def runItems (port : SourcePort σ) :
    List CaptureWorkItem → List ObligationOutcome → Progress σ → Except RunError (ToptCaptureRunReport × Progress σ)
  | [], outcomes, progress => .ok (⟨run.runId, outcomes, false, none⟩, progress)
  | item :: items, outcomes, progress => do
    let (outcome, halt, progress) ← runItem executor run port item progress
    if halt then return (⟨run.runId, outcomes ++ [outcome], true, outcome.reasonCode⟩, progress)
    runItems port items (outcomes ++ [outcome]) progress

def runCapture (port : SourcePort σ) (items : List CaptureWorkItem) (cutoff : Instant) (state : σ) :
    Except CaptureRunError (ToptCaptureRunReport × Progress σ) :=
  if ¬ "capture-run:".toList.isPrefixOf run.runId.toList then .error .notCaptureRun
  else if ¬ isContentId "capture-run" run.runId then .error (.nodeId "capture-run" run.runId)
  else (runItems executor run port items [] ⟨state, [appendOf (runEvidence run cutoff)]⟩).mapError .item

variable {executor run} {port : SourcePort σ} {item : CaptureWorkItem}

theorem failover_eq_traced (reason : ObligationReasonCode) (progress : Progress σ) :
    CaptureExecutor.failover port item reason progress.state =
      (failover port item reason progress).map fun done => (done.1, done.2.state) := by
  unfold CaptureExecutor.failover failover
  cases port.failover with
  | none => rfl
  | some ask =>
    dsimp only
    rcases ask item reason progress.state with ⟨_ | served, state⟩
    · rfl
    · dsimp only
      split_ifs <;> rfl

def withoutEffects (done : ObligationOutcome × Bool × Progress σ) : ObligationOutcome × Bool × σ :=
  (done.1, done.2.1, done.2.2.state)

def withoutRows (done : ItemRun σ) : ObligationOutcome × Bool × σ := (done.outcome, done.halt, done.state)

theorem terminal_eq_traced (terminalState : ObligationTerminalState)
    (success : Option FetchSuccess) (halt : Bool) (progress : Progress σ) :
    (executor.terminal item reasons terminalState success halt progress.state).map withoutRows =
      (finish executor run item reasons terminalState success halt progress).map withoutEffects := by
  unfold CaptureExecutor.terminal finish terminal
  cases hsink : executor.sink with
  | none => cases success <;> rfl
  | some sink =>
    dsimp only
    cases sink.recordOutcome item reasons terminalState success with
    | error message => rfl
    | ok rows => cases success <;> rfl

theorem bind_failover_eq_traced (reason : ObligationReasonCode) (progress : Progress σ)
    {done : Option FetchSuccess × σ → Except RunError (ItemRun σ)}
    {traced : Option FetchSuccess × Progress σ → Except RunError (ObligationOutcome × Bool × Progress σ)}
    (h : ∀ served after, (done (served, after.state)).map withoutRows = (traced (served, after)).map withoutEffects) :
    (CaptureExecutor.failover port item reason progress.state >>= done).map withoutRows =
      (failover port item reason progress >>= traced).map withoutEffects := by
  rw [failover_eq_traced reason progress]
  rcases failover port item reason progress with error | ⟨served, after⟩
  · rfl
  · exact h served after

theorem exhausted_eq_traced (reason : Option ObligationReasonCode) (progress : Progress σ) :
    (executor.exhausted port item reasons reason progress.state).map withoutRows =
      (exhausted executor run port item reasons reason progress).map withoutEffects := by
  cases reason with
  | none => rfl
  | some reason =>
    refine bind_failover_eq_traced reason progress fun served after => ?_
    cases served with
    | none => exact terminal_eq_traced _ _ _ _ _
    | some served => exact terminal_eq_traced _ _ _ _ _

theorem attemptLoop_eq_traced (left : ℕ) (reasons : List (Option ObligationReasonCode))
    (reason : Option ObligationReasonCode) (progress : Progress σ) :
    (executor.attemptLoop port item left reasons reason progress.state).map withoutRows =
      (attemptLoop executor run port item left reasons reason progress).map withoutEffects := by
  induction left generalizing reasons reason progress with
  | zero => exact exhausted_eq_traced reasons reason progress
  | succ left ih =>
    unfold CaptureExecutor.attemptLoop attemptLoop fetch
    rcases hfetch : port.fetch item progress.state with ⟨result | failed, state⟩
    · dsimp only
      split_ifs with hserved
      · rfl
      · cases hreason : result.failoverReason with
        | none => exact terminal_eq_traced _ _ _ _ ⟨state, progress.effects ++ [.fetched item (.success result)]⟩
        | some short =>
          refine bind_failover_eq_traced short ⟨state, progress.effects ++ [.fetched item (.success result)]⟩
            fun served after => ?_
          cases served with
          | none => exact terminal_eq_traced _ _ _ _ _
          | some served => exact terminal_eq_traced _ _ _ _ _
    · dsimp only
      cases dispositionFor failed with
      | stop => exact terminal_eq_traced _ _ _ _ ⟨state, progress.effects ++ [.fetched item (.failure failed)]⟩
      | traceOnly =>
        exact exhausted_eq_traced _ _ ⟨state, progress.effects ++ [.fetched item (.failure failed)]⟩
      | retry => exact ih _ _ ⟨state, progress.effects ++ [.fetched item (.failure failed)]⟩

theorem runItem_eq_traced (progress : Progress σ) : (executor.runItem port item progress.state).map withoutRows =
      (runItem executor run port item progress).map withoutEffects :=
  attemptLoop_eq_traced _ _ _ _

end Traced

end TrueAlpha.Datahub
