import TrueAlpha.Datahub.CaptureTrace
import TrueAlpha.Datahub.PersistableOutcomes

/-!
# The disposition rules of a capture run

The run of an item as a story: its fetches, the failover it asks for, and its outcome.  The effects of a run are the stories of
its items in order, up to the first that a STOP halts (`capture_run_follows_rules`).
-/

namespace TrueAlpha.Datahub

open Contracts

structure ItemStory where
  fetches : List FetchOutcome
  asks : List (ObligationReasonCode × Option FetchSuccess)
  reasons : List (Option ObligationReasonCode)
  terminalState : ObligationTerminalState
  success : Option FetchSuccess
  halt : Bool

def endEffects (executor : CaptureExecutor) (run : RunRef) (item : CaptureWorkItem)
    (reasons : List (Option ObligationReasonCode)) (terminalState : ObligationTerminalState)
    (success : Option FetchSuccess) : List CaptureEffect :=
  success.toList.map (fun success => appendOf (successEvidence run success)) ++
    if executor.sink.isSome then [.recorded item reasons terminalState success] else []

def outcomeOf (item : CaptureWorkItem) (reasons : List (Option ObligationReasonCode))
    (terminalState : ObligationTerminalState) (success : Option FetchSuccess) : ObligationOutcome where
  workItemId := item.workItemId
  terminalState
  reasonCode := reasons.getLast?.join
  attempts := reasons.length
  servedByFailover := success.bind FetchSuccess.servedByFailover

def RetriedFetch (fetch : FetchOutcome) : Prop := ∃ code, fetch = .failure code ∧ dispositionFor code = .retry

theorem retriedFetch_failure_iff {code : ObligationReasonCode} : RetriedFetch (.failure code) ↔ dispositionFor code = .retry := by
  constructor
  · rintro ⟨other, hother, hretry⟩
    cases hother
    exact hretry
  · intro hretry
    exact ⟨code, rfl, hretry⟩

/-- A failover follows a short success, a traced failure, or as many retried failures as there are attempts. -/
inductive InTurn (maxAttempts : ℕ) (fetches : List FetchOutcome) (reason : ObligationReasonCode) : Prop where
  | short (success : FetchSuccess) (hlast : fetches.getLast? = some (.success success))
      (hreason : success.failoverReason = some reason)
  | traceOnly (hlast : fetches.getLast? = some (.failure reason)) (hdisposition : dispositionFor reason = .traceOnly)
  | spent (hlast : fetches.getLast? = some (.failure reason)) (hlength : fetches.length = maxAttempts)
      (hretried : ∀ fetch ∈ fetches, RetriedFetch fetch)

def Explains : FetchOutcome → Option ObligationReasonCode → Prop
  | .failure code, reason => reason = some code
  | .success success, reason => reason = none ∨ reason = success.failoverReason

def Stops (fetch : FetchOutcome) : Prop := ∃ code, fetch = .failure code ∧ dispositionFor code = .stop

namespace ItemStory

def effects (executor : CaptureExecutor) (run : RunRef) (item : CaptureWorkItem) (story : ItemStory) : List CaptureEffect :=
  story.fetches.map (fun outcome => .fetched item outcome) ++ (story.asks.map (fun ask => .askedFailover item ask.1 ask.2) ++
      endEffects executor run item story.reasons story.terminalState story.success)

def outcome (item : CaptureWorkItem) (story : ItemStory) : ObligationOutcome :=
  outcomeOf item story.reasons story.terminalState story.success

structure Follows (maxAttempts : ℕ) (story : ItemStory) : Prop where
  attempts_pos : 0 < story.fetches.length
  attempts_le : story.fetches.length ≤ maxAttempts
  explained : List.Forall₂ Explains story.fetches story.reasons
  executed : story.terminalState ∈ [.success, .unavailable, .failed]
  success_iff : story.success.isSome = true ↔ story.terminalState = .success
  failed_iff : story.terminalState = .failed ↔ story.halt = true
  halt_iff : story.halt = true ↔ ∃ fetch ∈ story.fetches, Stops fetch
  retried : ∀ fetch ∈ story.fetches.dropLast, RetriedFetch fetch
  spent : ∀ fetch, story.fetches.getLast? = some fetch → RetriedFetch fetch → story.fetches.length = maxAttempts
  asks_le : story.asks.length ≤ 1
  asks_in_turn : ∀ ask ∈ story.asks, InTurn maxAttempts story.fetches ask.1
  not_asked_of_halt : story.halt = true → story.asks = []
  served : ∀ reason served, (reason, some served) ∈ story.asks →
    story.success = some served ∧ story.reasons.getLast? = some (some reason)
  fetched : ∀ result, story.fetches.getLast? = some (.success result) → story.success.isSome = true
  unserved : (∀ ask ∈ story.asks, ask.2 = none) → ∀ result ∈ story.success,
    story.fetches.getLast? = some (.success result) ∧ story.reasons.getLast? = some none

end ItemStory

/-! ## The run of an item -/

variable {terminalState : ObligationTerminalState} {success : Option FetchSuccess}

variable {reason : ObligationReasonCode} {reasons : List (Option ObligationReasonCode)}

variable {error : RunError} {codes : List ObligationReasonCode}

variable {asks : List (ObligationReasonCode × Option FetchSuccess)} {outcomes : List ObligationOutcome}

namespace Traced

variable {σ : Type} {executor : CaptureExecutor} {run : RunRef} {port : SourcePort σ} {item : CaptureWorkItem}
  {start : List CaptureEffect} {progress : Progress σ}

variable {done : ObligationOutcome × Bool × Progress σ}

theorem finish_eq_ok {halt : Bool} (h : finish executor run item reasons terminalState success halt progress = .ok done) :
    done.1 = outcomeOf item reasons terminalState success ∧ done.2.1 = halt ∧
      done.2.2.effects = progress.effects ++ endEffects executor run item reasons terminalState success := by
  unfold finish terminal at h
  unfold endEffects
  cases hsink : executor.sink with
  | none =>
    rw [hsink] at h
    cases success <;> cases h <;> simp [outcomeOf, writeSuccess, Progress.after]
  | some sink =>
    rw [hsink] at h
    dsimp only at h
    cases hrecord : sink.recordOutcome item reasons terminalState success with
    | error message =>
      rw [hrecord] at h
      cases h
    | ok rows =>
      rw [hrecord] at h
      cases success <;> cases h <;> simp [outcomeOf, writeSuccess, Progress.after]

variable {answer : Option FetchSuccess × Progress σ}

theorem failover_eq_ok
    (h : failover port item reason progress = .ok answer) :
    ∃ asks : List (ObligationReasonCode × Option FetchSuccess), asks.length ≤ 1 ∧
      (∀ ask ∈ asks, ask = (reason, answer.1)) ∧ (answer.1 ≠ none → asks ≠ []) ∧
      answer.2.effects = progress.effects ++ asks.map fun ask => .askedFailover item ask.1 ask.2 := by
  unfold failover at h
  cases hport : port.failover with
  | none =>
    rw [hport] at h
    cases h
    exact ⟨[], by simp, by simp, by simp, by simp⟩
  | some ask =>
    rw [hport] at h
    dsimp only at h
    rcases hask : ask item reason progress.state with ⟨_ | served, state⟩
    · rw [hask] at h
      cases h
      exact ⟨[(reason, none)], le_refl 1, by simp, by simp, by simp⟩
    · rw [hask] at h
      dsimp only at h
      split_ifs at h
      cases h
      exact ⟨[(reason, some served)], le_refl 1, by simp, by simp, by simp⟩

/-- What an item did since `start` is a story that follows the rules. -/
def Told (executor : CaptureExecutor) (run : RunRef) (item : CaptureWorkItem) (start : List CaptureEffect)
    (done : ObligationOutcome × Bool × Progress σ) : Prop :=
  ∃ story : ItemStory, story.Follows executor.maxAttempts ∧ done.1 = story.outcome item ∧ done.2.1 = story.halt ∧
    done.2.2.effects = start ++ story.effects executor run item

variable {reasons : List (Option ObligationReasonCode)} {done : ObligationOutcome × Bool × Progress σ}

theorem told_of_finish {fetches : List FetchOutcome} {halt : Bool}
    (h : finish executor run item reasons terminalState success halt progress = .ok done)
    (heffects : progress.effects = start ++ (fetches.map (fun outcome => .fetched item outcome) ++
      asks.map fun ask => .askedFailover item ask.1 ask.2))
    (hfollows : ItemStory.Follows executor.maxAttempts ⟨fetches, asks, reasons, terminalState, success, halt⟩) :
    Told executor run item start done := by
  obtain ⟨houtcome, hhalt, hend⟩ := finish_eq_ok h
  refine ⟨_, hfollows, houtcome, hhalt, ?_⟩
  rw [hend, heffects, ItemStory.effects, List.append_assoc, List.append_assoc]

/-! ### The fetches -/

def failures (codes : List ObligationReasonCode) : List FetchOutcome := codes.map .failure

theorem failures_concat (codes : List ObligationReasonCode) (code : ObligationReasonCode) :
    failures (codes ++ [code]) = failures codes ++ [.failure code] := List.map_append

theorem explained_failures (codes : List ObligationReasonCode) : List.Forall₂ Explains (failures codes) (codes.map some) := by
  rw [failures, List.forall₂_map_left_iff, List.forall₂_map_right_iff, List.forall₂_same]
  exact fun _ _ => rfl

structure Attempts (maxAttempts : ℕ) (codes : List ObligationReasonCode) (last : FetchOutcome) : Prop where
  retried : ∀ code ∈ codes, dispositionFor code = .retry
  room : codes.length < maxAttempts
  spent : RetriedFetch last → codes.length + 1 = maxAttempts

inductive Ends (last : FetchOutcome) (asks : List (ObligationReasonCode × Option FetchSuccess)) :
    Option ObligationReasonCode → ObligationTerminalState → Option FetchSuccess → Bool → Prop where
  | fetched (result : FetchSuccess) (hlast : last = .success result) (hasks : ∀ ask ∈ asks, ask.2 = none) :
      Ends last asks none .success (some result) false
  | served (reason : ObligationReasonCode) (served : FetchSuccess) (hasks : ∀ ask ∈ asks, ask = (reason, some served))
      (hasked : asks ≠ []) (hexplains : Explains last (some reason)) (hstops : ¬ Stops last) :
      Ends last asks (some reason) .success (some served) false
  | unavailable (code : ObligationReasonCode) (hlast : last = .failure code) (hasks : ∀ ask ∈ asks, ask.2 = none)
      (hstops : ¬ Stops last) : Ends last asks (some code) .unavailable none false
  | stopped (code : ObligationReasonCode) (hlast : last = .failure code) (hstop : dispositionFor code = .stop)
      (hasks : asks = []) : Ends last asks (some code) .failed none true

namespace Attempts

variable {maxAttempts : ℕ} {codes : List ObligationReasonCode} {last : FetchOutcome}

theorem retriedFetch (h : Attempts maxAttempts codes last) : ∀ fetch ∈ failures codes, RetriedFetch fetch := by
  intro fetch hfetch
  obtain ⟨code, hcode, rfl⟩ := List.mem_map.mp hfetch
  exact ⟨code, rfl, h.retried code hcode⟩

theorem stops_iff (h : Attempts maxAttempts codes last) : (∃ fetch ∈ failures codes ++ [last], Stops fetch) ↔ Stops last := by
  constructor
  · rintro ⟨fetch, hfetch, code, rfl, hstop⟩
    rcases List.mem_append.mp hfetch with hbefore | hlast
    · obtain ⟨other, hother, hretry⟩ := h.retriedFetch _ hbefore
      cases hother
      rw [hretry] at hstop
      cases hstop
    · rw [← List.mem_singleton.mp hlast]
      exact ⟨code, rfl, hstop⟩
  · rintro hstops
    exact ⟨last, List.mem_append_right _ (List.mem_singleton.mpr rfl), hstops⟩

theorem length_fetches : (failures codes ++ [last]).length = codes.length + 1 := by
  rw [List.length_append, failures, List.length_map, List.length_singleton]

theorem follows (h : Attempts maxAttempts codes last) {reason : Option ObligationReasonCode}
    {halt : Bool} (hends : Ends last asks reason terminalState success halt) (hasks : asks.length ≤ 1)
    (hturn : ∀ ask ∈ asks, InTurn maxAttempts (failures codes ++ [last]) ask.1) :
    ItemStory.Follows maxAttempts
      ⟨failures codes ++ [last], asks, codes.map some ++ [reason], terminalState, success, halt⟩ where
  attempts_pos := by rw [length_fetches]; omega
  attempts_le := by
    have hroom := h.room
    rw [length_fetches]
    omega
  explained := by
    refine List.rel_append (explained_failures codes) (.cons ?_ .nil)
    cases hends with
    | fetched result hlast _ => rw [hlast]; exact Or.inl rfl
    | served _ _ _ _ hexplains _ => exact hexplains
    | unavailable code hlast _ _ => rw [hlast]; rfl
    | stopped code hlast _ _ => rw [hlast]; rfl
  executed := by cases hends <;> simp
  success_iff := by cases hends <;> simp
  failed_iff := by cases hends <;> simp
  halt_iff := by
    rw [h.stops_iff]
    cases hends with
    | fetched result hlast _ =>
      rw [hlast]
      exact iff_of_false (by simp) fun ⟨_, hfailure, _⟩ => by cases hfailure
    | served _ _ _ _ _ hstops => exact iff_of_false (by simp) hstops
    | unavailable _ _ _ hstops => exact iff_of_false (by simp) hstops
    | stopped code hlast hstop _ => exact iff_of_true rfl ⟨code, hlast, hstop⟩
  retried := by
    rw [List.dropLast_concat]
    exact h.retriedFetch
  spent fetch hlast hretried := by
    rw [List.getLast?_concat] at hlast
    rw [length_fetches]
    exact h.spent (Option.some.inj hlast ▸ hretried)
  asks_le := hasks
  asks_in_turn := hturn
  not_asked_of_halt hhalt := by
    cases hends with
    | stopped _ _ _ hasks => exact hasks
    | _ => cases hhalt
  served asked served hserved := by
    rw [List.getLast?_concat]
    cases hends with
    | served _ _ hasks => cases hasks _ hserved; exact ⟨rfl, rfl⟩
    | fetched _ _ hasks => cases hasks _ hserved
    | unavailable _ _ hasks => cases hasks _ hserved
    | stopped _ _ _ hasks => rw [hasks] at hserved; cases hserved
  fetched result hlast := by
    rw [List.getLast?_concat] at hlast
    cases hends with
    | unavailable _ hfailure => rw [hfailure] at hlast; cases hlast
    | stopped _ hfailure => rw [hfailure] at hlast; cases hlast
    | _ => rfl
  unserved hnone result hresult := by
    rw [List.getLast?_concat, List.getLast?_concat]
    cases hends with
    | fetched _ hlast => cases hresult; exact ⟨congrArg some hlast, rfl⟩
    | served _ served hasks hasked =>
      obtain ⟨ask, hask⟩ := List.exists_mem_of_ne_nil _ hasked
      have hanswer := hnone ask hask
      rw [hasks ask hask] at hanswer
      cases hanswer
    | unavailable => cases hresult
    | stopped => cases hresult

end Attempts

theorem told_of_failover {last : FetchOutcome} {unserved : Option ObligationReasonCode}
    (hattempts : Attempts executor.maxAttempts codes last)
    (hturn : InTurn executor.maxAttempts (failures codes ++ [last]) reason)
    (hexplains : Explains last (some reason)) (hstops : ¬ Stops last)
    (hends : ∀ asks : List (ObligationReasonCode × Option FetchSuccess), (∀ ask ∈ asks, ask.2 = none) →
      Ends last asks unserved terminalState success false)
    (heffects : progress.effects = start ++ (failures codes ++ [last]).map fun outcome => .fetched item outcome) (hfailover : failover port item reason progress = .ok answer)
    (hserved : ∀ served, answer.1 = some served →
      finish executor run item (codes.map some ++ [some reason]) .success (some served) false answer.2 = .ok done)
    (hunserved : answer.1 = none →
      finish executor run item (codes.map some ++ [unserved]) terminalState success false answer.2 = .ok done) :
    Told executor run item start done := by
  obtain ⟨asks, hlength, hasks, hasked, hafter⟩ := failover_eq_ok hfailover
  have hturns : ∀ ask ∈ asks, InTurn executor.maxAttempts (failures codes ++ [last]) ask.1 := by
    intro ask hask
    rw [hasks ask hask]
    exact hturn
  have hsofar : answer.2.effects = start ++ ((failures codes ++ [last]).map (fun outcome => .fetched item outcome) ++
      asks.map fun ask => .askedFailover item ask.1 ask.2) := by
    rw [hafter, heffects, List.append_assoc]
  cases hanswer : answer.1 with
  | none =>
    have hnone : ∀ ask ∈ asks, ask.2 = none := by
      intro ask hask
      rw [hasks ask hask]
      exact hanswer
    exact told_of_finish (hunserved hanswer) hsofar (hattempts.follows (hends asks hnone) hlength hturns)
  | some served =>
    have hanswered : ∀ ask ∈ asks, ask = (reason, some served) := by
      intro ask hask
      rw [hasks ask hask, hanswer]
    have hsome : asks ≠ [] := hasked (by rw [hanswer]; exact Option.some_ne_none served)
    exact told_of_finish (hserved served hanswer) hsofar
      (hattempts.follows (.served reason served hanswered hsome hexplains hstops) hlength hturns)

theorem exhausted_told {code : ObligationReasonCode}
    (hattempts : Attempts executor.maxAttempts codes (.failure code)) (hwhy : dispositionFor code = .traceOnly ∨
      codes.length + 1 = executor.maxAttempts ∧ dispositionFor code = .retry) (heffects : progress.effects =
      start ++ (failures codes ++ [FetchOutcome.failure code]).map fun outcome => .fetched item outcome)
    (h : exhausted executor run port item (codes.map some ++ [some code]) (some code) progress = .ok done) :
    Told executor run item start done := by
  obtain ⟨⟨served, after⟩, hfailover, hfinish⟩ := bind_eq_ok_iff.mp h
  have hlast : (failures codes ++ [FetchOutcome.failure code]).getLast? = some (.failure code) := List.getLast?_concat
  have hturn : InTurn executor.maxAttempts (failures codes ++ [FetchOutcome.failure code]) code := by
    rcases hwhy with htrace | ⟨hlength, hretry⟩
    · exact .traceOnly hlast htrace
    · refine .spent hlast (by rw [Attempts.length_fetches, hlength]) fun fetch hfetch => ?_
      rcases List.mem_append.mp hfetch with hbefore | hlast
      · exact hattempts.retriedFetch fetch hbefore
      · exact ⟨code, List.mem_singleton.mp hlast, hretry⟩
  have hstops : ¬ Stops (.failure code) := by
    rintro ⟨other, hother, hstop⟩
    cases hother
    rcases hwhy with htrace | ⟨-, hretry⟩
    · rw [htrace] at hstop
      cases hstop
    · rw [hretry] at hstop
      cases hstop
  refine told_of_failover hattempts hturn rfl hstops (fun asks hnone => .unavailable code rfl hnone hstops) heffects
    hfailover ?_ ?_
  · rintro success rfl
    exact hfinish
  · rintro rfl
    exact hfinish

theorem attemptLoop_told (left : ℕ)
    (hretried : ∀ code ∈ codes, dispositionFor code = .retry) (hleft : left + codes.length = executor.maxAttempts)
    (hpos : 0 < executor.maxAttempts)
    (heffects : progress.effects = start ++ (failures codes).map fun outcome => .fetched item outcome)
    (h : attemptLoop executor run port item left (codes.map some) codes.getLast? progress = .ok done) :
    Told executor run item start done := by
  induction left generalizing codes progress with
  | zero =>
    rw [Nat.zero_add] at hleft
    have hne : codes ≠ [] := List.ne_nil_of_length_pos (by omega)
    obtain ⟨before, code, rfl⟩ := (List.eq_nil_or_concat' codes).resolve_left hne
    have hcode : dispositionFor code = .retry := hretried code (List.mem_append_right _ (List.mem_singleton.mpr rfl))
    rw [List.length_append, List.length_singleton] at hleft
    rw [List.getLast?_concat, List.map_append] at h
    refine exhausted_told ⟨fun other hother => hretried other (List.mem_append_left _ hother), by omega, fun _ => hleft⟩
      (Or.inr ⟨hleft, hcode⟩) ?_ h
    rw [heffects, failures_concat]
  | succ left ih =>
    unfold attemptLoop fetch at h
    have hattempts : ∀ last, (RetriedFetch last → left = 0) → Attempts executor.maxAttempts codes last := by
      intro last hlast
      exact ⟨hretried, by omega, fun hretry => by rw [hlast hretry] at hleft; omega⟩
    have hfetched : ∀ last, progress.effects ++ [.fetched item last] =
        start ++ (failures codes ++ [last]).map fun outcome => .fetched item outcome := by
      intro last
      rw [heffects, List.map_append, List.append_assoc]
      rfl
    rcases hfetch : port.fetch item progress.state with ⟨result | code, state⟩
    · rw [hfetch] at h
      dsimp only at h
      split_ifs at h with hmark
      have hlast : (failures codes ++ [FetchOutcome.success result]).getLast? = some (.success result) := List.getLast?_concat
      have hsuccess : Attempts executor.maxAttempts codes (.success result) :=
        hattempts _ (by rintro ⟨_, hfailure, -⟩; cases hfailure)
      have hstops : ¬ Stops (.success result) := by
        rintro ⟨_, hfailure, -⟩
        cases hfailure
      cases hreason : result.failoverReason with
      | none =>
        rw [hreason] at h
        refine told_of_finish h ?_ (hsuccess.follows (.fetched result rfl (List.forall_mem_nil _)) (by simp) (by simp))
        rw [hfetched, List.map_nil, List.append_nil]
      | some short =>
        rw [hreason] at h
        obtain ⟨⟨served, after⟩, hfailover, hfinish⟩ := bind_eq_ok_iff.mp h
        refine told_of_failover hsuccess (.short result hlast hreason) (Or.inr hreason.symm) hstops
          (fun asks hnone => .fetched result rfl hnone) (hfetched _) hfailover ?_ ?_
        · rintro success rfl
          exact hfinish
        · rintro rfl
          exact hfinish
    · rw [hfetch] at h
      dsimp only at h
      cases hdisposition : dispositionFor code with
      | stop =>
        rw [hdisposition] at h
        have hfailed : Attempts executor.maxAttempts codes (.failure code) := by
          refine hattempts _ fun hretried => ?_
          rw [retriedFetch_failure_iff, hdisposition] at hretried
          cases hretried
        refine told_of_finish h ?_ (hfailed.follows (.stopped code rfl hdisposition rfl) (by simp) (by simp))
        rw [hfetched, List.map_nil, List.append_nil]
      | traceOnly =>
        rw [hdisposition] at h
        have hfailed : Attempts executor.maxAttempts codes (.failure code) := by
          refine hattempts _ fun hretried => ?_
          rw [retriedFetch_failure_iff, hdisposition] at hretried
          cases hretried
        exact exhausted_told hfailed (Or.inl hdisposition) (hfetched _) h
      | retry =>
        rw [hdisposition] at h
        have hall : ∀ other ∈ codes ++ [code], dispositionFor other = .retry := by
          intro other hother
          rcases List.mem_append.mp hother with hbefore | hlast
          · exact hretried other hbefore
          · rw [List.mem_singleton.mp hlast]
            exact hdisposition
        have hmore : (Progress.mk state (progress.effects ++ [.fetched item (.failure code)])).effects =
            start ++ (failures (codes ++ [code])).map fun outcome => .fetched item outcome := by
          rw [failures_concat]
          exact hfetched _
        refine ih hall (by rw [List.length_append, List.length_singleton]; omega) hmore ?_
        rw [List.getLast?_concat, List.map_append]
        exact h

theorem runItem_told (hpos : 0 < executor.maxAttempts) (h : runItem executor run port item progress = .ok done) :
    Told executor run item progress.effects done := by
  refine attemptLoop_told executor.maxAttempts (List.forall_mem_nil _) rfl hpos ?_ h
  rw [failures, List.map_nil, List.map_nil, List.append_nil]

def storyEffects (executor : CaptureExecutor) (run : RunRef) (told : List (CaptureWorkItem × ItemStory)) : List CaptureEffect :=
  told.flatMap fun done => done.2.effects executor run done.1

structure RunTold (executor : CaptureExecutor) (items : List CaptureWorkItem) (told : List (CaptureWorkItem × ItemStory))
    (halted : Bool) : Prop where
  in_order : told.map Prod.fst <+: items
  follows : ∀ done ∈ told, done.2.Follows executor.maxAttempts
  halts_last : ∀ done ∈ told.dropLast, done.2.halt = false
  halted_iff : halted = true ↔ ∃ done ∈ told, done.2.halt = true
  all_of_goes : halted = false → told.map Prod.fst = items

namespace RunTold

variable {items : List CaptureWorkItem} {story : ItemStory} {told : List (CaptureWorkItem × ItemStory)} {halted : Bool}

theorem nil : RunTold executor [] [] false where
  in_order := List.nil_prefix
  follows := List.forall_mem_nil _
  halts_last := List.forall_mem_nil _
  halted_iff := by simp
  all_of_goes _ := rfl

theorem halt (hfollows : story.Follows executor.maxAttempts) (hhalt : story.halt = true) :
    RunTold executor (item :: items) [(item, story)] true where
  in_order := (List.prefix_cons_inj item).mpr List.nil_prefix
  follows := by simpa using hfollows
  halts_last := by simp
  halted_iff := by simpa using hhalt
  all_of_goes h := by cases h

theorem cons (hfollows : story.Follows executor.maxAttempts) (hhalt : story.halt = false)
    (h : RunTold executor items told halted) : RunTold executor (item :: items) ((item, story) :: told) halted where
  in_order := (List.prefix_cons_inj item).mpr h.in_order
  follows := List.forall_mem_cons.mpr ⟨hfollows, h.follows⟩
  halts_last := by
    cases told with
    | nil => simp
    | cons first rest => exact List.forall_mem_cons.mpr ⟨hhalt, h.halts_last⟩
  halted_iff := by
    rw [h.halted_iff, List.exists_mem_cons_iff, hhalt]
    simp
  all_of_goes hgoes := by rw [List.map_cons, h.all_of_goes hgoes]

end RunTold

def reportOf (run : RunRef) (outcomes : List ObligationOutcome) (told : List (CaptureWorkItem × ItemStory))
    (halted : Bool) : ToptCaptureRunReport where
  runId := run.runId
  outcomes := outcomes ++ told.map fun done => done.2.outcome done.1
  halted
  haltReason := if halted then (told.getLast?.map fun done => (done.2.outcome done.1).reasonCode).join else none

theorem runItems_told (hpos : 0 < executor.maxAttempts) (items : List CaptureWorkItem) {report : ToptCaptureRunReport} {after : Progress σ}
    (h : runItems executor run port items outcomes progress = .ok (report, after)) :
    ∃ told halted, RunTold executor items told halted ∧ report = reportOf run outcomes told halted ∧
      after.effects = progress.effects ++ storyEffects executor run told := by
  induction items generalizing outcomes progress with
  | nil =>
    cases h
    exact ⟨[], false, .nil, by simp [reportOf], by simp [storyEffects]⟩
  | cons item items ih =>
    obtain ⟨⟨outcome, halt, next⟩, hitem, hrest⟩ := bind_eq_ok_iff.mp h
    obtain ⟨story, hfollows, houtcome, hhalt, heffects⟩ := runItem_told hpos hitem
    dsimp only at houtcome hhalt heffects hrest
    cases halt with
    | true =>
      cases hrest
      refine ⟨[(item, story)], true, .halt hfollows hhalt.symm, ?_, ?_⟩
      · simp [reportOf, houtcome]
      · simpa [storyEffects] using heffects
    | false =>
      obtain ⟨told, halted, htold, hreport, hafter⟩ := ih hrest
      refine ⟨(item, story) :: told, halted, .cons hfollows hhalt.symm htold, ?_, ?_⟩
      · rw [hreport, houtcome, reportOf, reportOf, List.append_assoc]
        cases told with
        | nil => simp [show halted = false by simpa using htold.halted_iff]
        | cons first rest => simp [List.getLast?_cons_cons]
      · rw [hafter, heffects, List.append_assoc]
        rfl

/-! ## A run that raises -/

inductive ItemRaises (executor : CaptureExecutor) (port : SourcePort σ) (item : CaptureWorkItem) : RunError → Prop where
  | port (message : String) (hmarks : ¬ port.Marks) : ItemRaises executor port item (.port message)
  | sink (message : String) (sink : CaptureSink) (hsink : executor.sink = some sink)
      (reasons : List (Option ObligationReasonCode)) (terminalState : ObligationTerminalState)
      (success : Option FetchSuccess)
      (hrefused : sink.recordOutcome item reasons terminalState success = .error message) :
      ItemRaises executor port item (.sink message)

theorem finish_raises {halt : Bool} (h : finish executor run item reasons terminalState success halt progress = .error error) :
    ItemRaises executor port item error := by
  unfold finish terminal at h
  cases hsink : executor.sink with
  | none =>
    rw [hsink] at h
    cases h
  | some sink =>
    rw [hsink] at h
    dsimp only at h
    cases hrecord : sink.recordOutcome item reasons terminalState success with
    | error message =>
      rw [hrecord] at h
      cases h
      exact .sink message sink hsink reasons terminalState success hrecord
    | ok rows =>
      rw [hrecord] at h
      cases h

theorem failover_raises
    (h : failover port item reason progress = .error error) : ItemRaises executor port item error := by
  unfold failover at h
  cases hport : port.failover with
  | none =>
    rw [hport] at h
    cases h
  | some ask =>
    rw [hport] at h
    dsimp only at h
    rcases hask : ask item reason progress.state with ⟨_ | served, state⟩
    · rw [hask] at h
      cases h
    · rw [hask] at h
      dsimp only at h
      split_ifs at h with hmark
      cases h
      refine .port _ fun hmarks => hmarks.served ask hport item reason progress.state served ?_ hmark
      rw [hask]
      rfl

theorem exhausted_raises
    (h : exhausted executor run port item reasons (some reason) progress = .error error) :
    ItemRaises executor port item error := by
  rcases bind_eq_error_iff.mp h with hfailover | ⟨⟨served, after⟩, -, hfinish⟩
  · exact failover_raises hfailover
  · cases served with
    | none => exact finish_raises hfinish
    | some served => exact finish_raises hfinish

theorem attemptLoop_raises (left : ℕ) {reason : Option ObligationReasonCode} (hasked : left = 0 → reason.isSome = true)
    (h : attemptLoop executor run port item left reasons reason progress = .error error) :
    ItemRaises executor port item error := by
  induction left generalizing reasons reason progress with
  | zero =>
    obtain ⟨code, rfl⟩ := Option.isSome_iff_exists.mp (hasked rfl)
    exact exhausted_raises h
  | succ left ih =>
    unfold attemptLoop fetch at h
    rcases hfetch : port.fetch item progress.state with ⟨result | code, state⟩
    · rw [hfetch] at h
      dsimp only at h
      split_ifs at h with hmark
      · cases h
        refine .port _ fun hmarks => hmark (hmarks.fetched item progress.state result ?_)
        rw [hfetch]
      · cases hreason : result.failoverReason with
        | none =>
          rw [hreason] at h
          exact finish_raises h
        | some short =>
          rw [hreason] at h
          rcases bind_eq_error_iff.mp h with hfailover | ⟨⟨served, after⟩, -, hfinish⟩
          · exact failover_raises hfailover
          · cases served with
            | none => exact finish_raises hfinish
            | some served => exact finish_raises hfinish
    · rw [hfetch] at h
      dsimp only at h
      cases hdisposition : dispositionFor code with
      | stop =>
        rw [hdisposition] at h
        exact finish_raises h
      | traceOnly =>
        rw [hdisposition] at h
        exact exhausted_raises h
      | retry =>
        rw [hdisposition] at h
        exact ih (fun _ => rfl) h

theorem runItems_raises (hpos : 0 < executor.maxAttempts) (items : List CaptureWorkItem)
    (h : runItems executor run port items outcomes progress = .error error) :
    ∃ item ∈ items, ItemRaises executor port item error := by
  induction items generalizing outcomes progress with
  | nil => cases h
  | cons item items ih =>
    rcases bind_eq_error_iff.mp h with hitem | ⟨⟨outcome, halt, next⟩, -, hrest⟩
    · exact ⟨item, List.mem_cons_self, attemptLoop_raises _ (fun hzero => absurd hzero hpos.ne') hitem⟩
    · cases halt with
      | true => cases hrest
      | false =>
        obtain ⟨other, hother, hraises⟩ := ih hrest
        exact ⟨other, List.mem_cons_of_mem item hother, hraises⟩

inductive RunRaises (executor : CaptureExecutor) (run : RunRef) (port : SourcePort σ) (items : List CaptureWorkItem) :
    CaptureRunError → Prop where
  | notCaptureRun (h : ¬ "capture-run:".toList.isPrefixOf run.runId.toList) :
      RunRaises executor run port items .notCaptureRun
  | nodeId (h : ¬ isContentId "capture-run" run.runId) :
      RunRaises executor run port items (.nodeId "capture-run" run.runId)
  | item (error : RunError) (h : ∃ item ∈ items, ItemRaises executor port item error) :
      RunRaises executor run port items (.item error)

theorem RunTold.succeeded_iff {items : List CaptureWorkItem} {told : List (CaptureWorkItem × ItemStory)} {halted : Bool}
    (h : RunTold executor items told halted) :
    (reportOf run [] told halted).succeeded = true ↔
      (reportOf run [] told halted).outcomes.map ObligationOutcome.workItemId = items.map CaptureWorkItem.workItemId ∧
        ∀ done ∈ told, ∀ fetch ∈ done.2.fetches, ¬ Stops fetch := by
  have hsucceeded : (reportOf run [] told halted).succeeded = true ↔ halted = false := by
    cases halted <;> simp [ToptCaptureRunReport.succeeded, ToptCaptureRunReport.total, reportOf]
  have hids : (reportOf run [] told halted).outcomes.map ObligationOutcome.workItemId =
      (told.map Prod.fst).map CaptureWorkItem.workItemId := by
    rw [reportOf, List.nil_append, List.map_map, List.map_map]
    rfl
  rw [hsucceeded, hids]
  constructor
  · intro hgoes
    refine ⟨by rw [h.all_of_goes hgoes], fun done hdone fetch hfetch hstops => ?_⟩
    have hhalt : done.2.halt = true := (h.follows done hdone).halt_iff.mpr ⟨fetch, hfetch, hstops⟩
    rw [h.halted_iff.mpr ⟨done, hdone, hhalt⟩] at hgoes
    cases hgoes
  · rintro ⟨-, hnone⟩
    rw [← Bool.not_eq_true]
    intro hhalted
    obtain ⟨done, hdone, hhalt⟩ := h.halted_iff.mp hhalted
    obtain ⟨fetch, hfetch, hstops⟩ := (h.follows done hdone).halt_iff.mp hhalt
    exact hnone done hdone fetch hfetch hstops

/-- A run that returns writes its evidence node and then the stories of its items in order, up to the first that a STOP halts.  It
raises only over its name, a wrongly marked answer or a refusal of the sink. -/
theorem capture_run_follows_rules (executor : CaptureExecutor) (hattempts : 1 ≤ executor.maxAttempts) (run : RunRef)
    (port : SourcePort σ) (items : List CaptureWorkItem) (cutoff : Instant) (state : σ) :
    (∀ report after, runCapture executor run port items cutoff state = .ok (report, after) →
      ∃ told halted, RunTold executor items told halted ∧ report = reportOf run [] told halted ∧
        after.effects = appendOf (runEvidence run cutoff) :: storyEffects executor run told ∧
        (report.succeeded = true ↔ report.outcomes.map ObligationOutcome.workItemId = items.map CaptureWorkItem.workItemId ∧
            ∀ done ∈ told, ∀ fetch ∈ done.2.fetches, ¬ Stops fetch)) ∧
    ∀ error, runCapture executor run port items cutoff state = .error error → RunRaises executor run port items error := by
  unfold runCapture
  by_cases hnamed : "capture-run:".toList.isPrefixOf run.runId.toList
  · rw [if_neg (not_not.mpr hnamed)]
    by_cases hid : isContentId "capture-run" run.runId
    · rw [if_neg (not_not.mpr hid)]
      cases hitems : runItems executor run port items [] ⟨state, [appendOf (runEvidence run cutoff)]⟩ with
      | error raised =>
        refine ⟨fun _ _ h => (by cases h), fun error h => ?_⟩
        cases h
        exact .item raised (runItems_raises hattempts items hitems)
      | ok done =>
        refine ⟨fun report after h => ?_, fun error h => (by cases h)⟩
        cases h
        obtain ⟨told, halted, htold, hreport, heffects⟩ := runItems_told hattempts items hitems
        refine ⟨told, halted, htold, hreport, heffects, ?_⟩
        rw [hreport]
        exact htold.succeeded_iff
    · rw [if_pos hid]
      refine ⟨fun _ _ h => (by cases h), fun error h => ?_⟩
      cases h
      exact .nodeId hid
  · rw [if_pos hnamed]
    refine ⟨fun _ _ h => (by cases h), fun error h => ?_⟩
    cases h
    exact .notCaptureRun hnamed

end Traced

def tracedSampleRun : RunRef := ⟨"capture-run:" ++ digestOf 'a', 0⟩

theorem isContentId_tracedSampleRun : isContentId "capture-run" tracedSampleRun.runId = true := by decide +kernel

/-- The run returns, with a story of the item that has its rules, and has succeeded. -/
theorem capture_run_follows_rules_sample : ∃ report after told,
    Traced.runCapture ⟨none, 3⟩ tracedSampleRun samplePort [sampleItem] 0 false = .ok (report, after) ∧
      Traced.RunTold ⟨none, 3⟩ [sampleItem] told false ∧ report.succeeded = true := by
  have hrun : ∃ report after, Traced.runCapture ⟨none, 3⟩ tracedSampleRun samplePort [sampleItem] 0 false =
      .ok (report, after) ∧ report.halted = false := by
    unfold Traced.runCapture
    rw [if_neg (by decide +kernel), if_neg (by rw [isContentId_tracedSampleRun]; decide)]
    exact ⟨_, _, rfl, rfl⟩
  obtain ⟨report, after, hreturns, hgoes⟩ := hrun
  obtain ⟨told, halted, htold, hreport, -, -⟩ :=
    (Traced.capture_run_follows_rules ⟨none, 3⟩ (by decide) tracedSampleRun samplePort [sampleItem] 0 false).1
      report after hreturns
  have hhalted : halted = false := by
    rw [hreport] at hgoes
    exact hgoes
  rw [hhalted] at htold
  refine ⟨report, after, told, hreturns, htold, ?_⟩
  simp [ToptCaptureRunReport.succeeded, ToptCaptureRunReport.total, hgoes]

end TrueAlpha.Datahub
