import TrueAlpha.Datahub.CaptureSink

/-!
# The capture executor

`_run_item`, `_failover` and `_terminal` of `executor.py`, and the loop of `run` over its work items.  A port answers
from a state of its own, so that it may behave in any way from one call to the next.
-/

namespace TrueAlpha.Datahub

open Contracts

inductive FetchOutcome where
  | success (success : FetchSuccess)
  | failure (reason : ObligationReasonCode)

/-- `SourceFetchPort`, and `FailoverFetchPort` where it has one. -/
structure SourcePort (σ : Type) where
  fetch : CaptureWorkItem → σ → FetchOutcome × σ
  failover : Option (CaptureWorkItem → ObligationReasonCode → σ → Option FetchSuccess × σ)

inductive RunError where
  | port (message : String)
  | assertion
  | sink (message : String)
  deriving DecidableEq, Repr

structure ObligationOutcome where
  workItemId : String
  terminalState : ObligationTerminalState
  reasonCode : Option ObligationReasonCode
  attempts : ℕ
  servedByFailover : Option String
  deriving DecidableEq, Repr

structure ItemRun (σ : Type) where
  outcome : ObligationOutcome
  halt : Bool
  writes : List CaptureWrite
  state : σ

/-- `ToptCaptureExecutor`. -/
structure CaptureExecutor where
  sink : Option CaptureSink
  maxAttempts : ℕ

namespace CaptureExecutor

variable {σ : Type}

def failover (port : SourcePort σ) (item : CaptureWorkItem) (primaryReason : ObligationReasonCode) (state : σ) :
    Except RunError (Option FetchSuccess × σ) :=
  match port.failover with
  | none => .ok (none, state)
  | some ask =>
    match ask item primaryReason state with
    | (none, state) => .ok (none, state)
    | (some served, state) =>
      if served.servedByFailover = none then
        .error (.port (item.workItemId ++ ": a failover success must name the origin that served it"))
      else .ok (some served, state)

/-- `_terminal`, after `_write_success` where there is a success. -/
def terminal (executor : CaptureExecutor) (item : CaptureWorkItem) (reasons : List (Option ObligationReasonCode))
    (terminalState : ObligationTerminalState) (success : Option FetchSuccess) (halt : Bool) (state : σ) :
    Except RunError (ItemRun σ) := do
  let rows ← match executor.sink with
    | none => .ok []
    | some sink => (sink.recordOutcome item reasons terminalState success).mapError .sink
  return {
    outcome := {
      workItemId := item.workItemId
      terminalState
      reasonCode := reasons.getLast?.join
      attempts := reasons.length
      servedByFailover := success.bind FetchSuccess.servedByFailover }
    halt
    writes := success.toList.map CaptureWrite.evidence ++ rows
    state }

/-- The end of `_run_item` after the loop: the primary could not serve. -/
def exhausted (executor : CaptureExecutor) (port : SourcePort σ) (item : CaptureWorkItem)
    (reasons : List (Option ObligationReasonCode)) (primaryReason : Option ObligationReasonCode) (state : σ) :
    Except RunError (ItemRun σ) :=
  match primaryReason with
  | none => .error .assertion
  | some reason => do
    match ← failover port item reason state with
    | (some served, state) => executor.terminal item reasons .success (some served) false state
    | (none, state) => executor.terminal item reasons .unavailable none false state

/-- The loop of `_run_item`, with the number of attempts that are left. -/
def attemptLoop (executor : CaptureExecutor) (port : SourcePort σ) (item : CaptureWorkItem) :
    ℕ → List (Option ObligationReasonCode) → Option ObligationReasonCode → σ → Except RunError (ItemRun σ)
  | 0, reasons, primaryReason, state => executor.exhausted port item reasons primaryReason state
  | left + 1, reasons, _, state =>
    match port.fetch item state with
    | (.success result, state) =>
      if result.servedByFailover ≠ none then
        .error (.port (item.workItemId ++ ": a failover success must come from `failover`, not `fetch`"))
      else match result.failoverReason with
        | none => executor.terminal item (reasons ++ [none]) .success (some result) false state
        | some reason => do
          match ← failover port item reason state with
          | (some served, state) =>
            executor.terminal item (reasons ++ [some reason]) .success (some served) false state
          | (none, state) => executor.terminal item (reasons ++ [none]) .success (some result) false state
    | (.failure reason, state) =>
      let reasons := reasons ++ [some reason]
      match dispositionFor reason with
      | .stop => executor.terminal item reasons .failed none true state
      | .traceOnly => executor.exhausted port item reasons (some reason) state
      | .retry => attemptLoop executor port item left reasons (some reason) state

def runItem (executor : CaptureExecutor) (port : SourcePort σ) (item : CaptureWorkItem) (state : σ) :
    Except RunError (ItemRun σ) :=
  executor.attemptLoop port item executor.maxAttempts [] none state

/-- The loop of `run`: what each item leaves, up to the one that halts the run. -/
def runItems (executor : CaptureExecutor) (port : SourcePort σ) : List CaptureWorkItem → σ → Except RunError (List (ItemRun σ))
  | [], _ => .ok []
  | item :: items, state => do
    let done ← executor.runItem port item state
    if done.halt then return [done]
    return done :: (← executor.runItems port items done.state)

end CaptureExecutor

end TrueAlpha.Datahub
