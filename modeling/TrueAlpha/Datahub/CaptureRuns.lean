import TrueAlpha.Datahub.CaptureSteps

/-!
# Capture runs over shared tables

Runs of any universes and cutoffs plan, record and reuse over the same tables, in any order (`CaptureStep`).  A resolved cell
never changes (`Keeps`), and uses exactly the observations of the one fetch behind it (`Sound.rooted`).
-/

namespace TrueAlpha.Datahub

open Contracts

structure CaptureState where
  plans : List PlannedRun
  tables : CaptureTables

/-- A step of some run: its plan, the outcome of one of its open cells, or its reuse before any outcome. -/
inductive CaptureStep (ids : ContentIds) : CaptureState → CaptureState → Prop
  | plan {state : CaptureState} {plan : PlannedRun}
      (label : ∀ planned ∈ state.plans, planned.sourceLabel ≠ plan.sourceLabel)
      (inserted : ∀ stored ∈ state.tables.obligations, ∀ obligation ∈ plan.obligations,
        stored.obligationId ≠ obligation.obligationId) :
      CaptureStep ids state ⟨state.plans ++ [plan], state.tables.persistPlan plan⟩
  | outcome {state : CaptureState} {tables' : CaptureTables} {plan : PlannedRun} {cell : PlannedCell}
      {lost : Corroboration → Bool} {reasons : List (Option ObligationReasonCode)}
      {terminalState : ObligationTerminalState} {success : Option FetchSuccess}
      (planned : plan ∈ state.plans) (mem : cell ∈ plan.cells ids)
      (unresolved : state.tables.resultOf cell.obligation.obligationId = none)
      (recorded : state.tables.recordOutcome ids plan cell lost reasons terminalState success = .ok tables') :
      CaptureStep ids state ⟨state.plans, tables'⟩
  | reuse {state : CaptureState} {tables' : CaptureTables} {satisfied : List String} {plan : PlannedRun}
      {settings : ReuseSettings} {first : TieBreak AnchorRow} (planned : plan ∈ state.plans)
      (unresolved : ∀ cell ∈ plan.cells ids, state.tables.resultOf cell.obligation.obligationId = none)
      (reused : state.tables.satisfyFromRecentObservations ids settings plan first = .ok (tables', satisfied)) :
      CaptureStep ids state ⟨state.plans, tables'⟩

def CaptureReaches (ids : ContentIds) : CaptureState → CaptureState → Prop := Relation.ReflTransGen (CaptureStep ids)

def CaptureState.initial : CaptureState := ⟨[], .empty⟩

def IsPlanned (ids : ContentIds) (plans : List PlannedRun) (cell : PlannedCell) : Prop := ∃ plan ∈ plans, cell ∈ plan.cells ids

def OfCell (ids : ContentIds) (plan : PlannedRun) (cell : PlannedCell) (observation : NormalizedObservation) : Prop :=
  observation.sourceVintageId.sourceRequestId = cell.sourceRequestId ∨ ∃ origin, observation.sourceVintageId.sourceRequestId =
      ids.sourceRequest (plan.corroboratingRequest cell.ordinal cell.obligation origin)

structure Fetched (tables : CaptureTables) (cell : PlannedCell) (observation : NormalizedObservation) : Prop where
  success : ∃ result, tables.resultOf cell.obligation.obligationId = some result ∧ result.terminalState = .success
  request : observation.sourceVintageId.sourceRequestId = cell.sourceRequestId
  subject : observation.subject = cell.obligation.subject
  semanticType : observation.semanticType = cell.obligation.semanticType
  used : (cell.obligation.obligationId, observation) ∈ tables.usages
  only : ∀ row ∈ tables.observations.rows, row.observation.sourceVintageId.sourceRequestId = cell.sourceRequestId →
    row = ⟨observation, cell.obligation.obligationId⟩

def Rooted (ids : ContentIds) (plans : List PlannedRun) (tables : CaptureTables) (vintage : VintageId)
    (bound : NormalizedObservation → Prop) : Prop :=
  ∃ cell, IsPlanned ids plans cell ∧ ∃ observation, Fetched tables cell observation ∧ observation.sourceVintageId = vintage ∧
    ∀ other, bound other ↔ (cell.obligation.obligationId, other) ∈ tables.usages

structure Keeps (ids : ContentIds) (plans : List PlannedRun) (tables tables' : CaptureTables) : Prop where
  result : ∀ obligationId result, tables.resultOf obligationId = some result → tables'.resultOf obligationId = some result
  usages : ∀ obligationId, (tables.resultOf obligationId).isSome → ∀ observation,
    (obligationId, observation) ∈ tables'.usages ↔ (obligationId, observation) ∈ tables.usages
  attempts : ∀ attempt ∈ tables.attemptResults, attempt ∈ tables'.attemptResults
  rows : ∀ cell, IsPlanned ids plans cell → (tables.resultOf cell.obligation.obligationId).isSome →
    ∀ row ∈ tables'.observations.rows, row.observation.sourceVintageId.sourceRequestId = cell.sourceRequestId →
      row ∈ tables.observations.rows

variable {observation : NormalizedObservation} {obligationId : String}

namespace Keeps

variable {ids : ContentIds} {plans plans' : List PlannedRun} {tables tables' tables'' : CaptureTables}

theorem refl (tables : CaptureTables) : Keeps ids plans tables tables :=
  ⟨fun _ _ h => h, fun _ _ _ => Iff.rfl, fun _ h => h, fun _ _ _ _ h _ => h⟩

section

variable (h : Keeps ids plans tables tables')

include h

theorem isSome
    (hsome : (tables.resultOf obligationId).isSome) : (tables'.resultOf obligationId).isSome := by
  obtain ⟨result, hresult⟩ := Option.isSome_iff_exists.mp hsome
  exact Option.isSome_iff_exists.mpr ⟨result, h.result obligationId result hresult⟩

theorem trans (hplans : ∀ plan ∈ plans, plan ∈ plans')
    (h' : Keeps ids plans' tables' tables'') : Keeps ids plans tables tables'' where
  result obligationId result hresult := h'.result obligationId result (h.result obligationId result hresult)
  usages obligationId hsome observation :=
    (h'.usages obligationId (h.isSome hsome) observation).trans (h.usages obligationId hsome observation)
  attempts attempt hmem := h'.attempts attempt (h.attempts attempt hmem)
  rows cell hplanned hsome row hrow hrequest := by
    obtain ⟨plan, hplan, hcell⟩ := hplanned
    exact h.rows cell ⟨plan, hplan, hcell⟩ hsome row
      (h'.rows cell ⟨plan, hplans plan hplan, hcell⟩ (h.isSome hsome) row hrow hrequest) hrequest

theorem fetched {cell : PlannedCell} (hplanned : IsPlanned ids plans cell) (hfetched : Fetched tables cell observation) :
    Fetched tables' cell observation := by
  obtain ⟨result, hresult, hstate⟩ := hfetched.success
  have hsome : (tables.resultOf cell.obligation.obligationId).isSome := Option.isSome_iff_exists.mpr ⟨result, hresult⟩
  exact { hfetched with
    success := ⟨result, h.result _ _ hresult, hstate⟩
    used := (h.usages _ hsome observation).mpr hfetched.used
    only := fun row hrow hrequest => hfetched.only row (h.rows cell hplanned hsome row hrow hrequest) hrequest }

theorem rooted {vintage : VintageId} {bound bound' : NormalizedObservation → Prop}
    (hbound : ∀ observation, bound' observation ↔ bound observation) (hrooted : Rooted ids plans tables vintage bound) :
    Rooted ids plans tables' vintage bound' := by
  obtain ⟨cell, hplanned, observation, hfetched, hvintage, huses⟩ := hrooted
  refine ⟨cell, hplanned, observation, h.fetched hplanned hfetched, hvintage, fun other => ?_⟩
  obtain ⟨result, hresult, -⟩ := hfetched.success
  rw [hbound other, huses other, h.usages cell.obligation.obligationId (Option.isSome_iff_exists.mpr ⟨result, hresult⟩) other]

end

end Keeps

/-! ## The invariant -/

structure Sound (ids : ContentIds) (plans : List PlannedRun) (tables : CaptureTables) : Prop where
  labels : (plans.map PlannedRun.sourceLabel).Nodup
  obligations_eq : tables.obligations = plans.flatMap PlannedRun.obligations
  obligation_ids : (tables.obligations.map CaptureObligation.obligationId).Nodup
  keyed : tables.Keyed
  results : ∀ entry ∈ tables.results, entry.1 ∈ tables.obligations.map CaptureObligation.obligationId
  usages : ∀ usage ∈ tables.usages, (tables.resultOf usage.1).isSome
  rows : ∀ row ∈ tables.observations.rows, ∃ plan ∈ plans, ∃ cell ∈ plan.cells ids,
    row.captureObligationId = cell.obligation.obligationId ∧ OfCell ids plan cell row.observation ∧
      (tables.resultOf cell.obligation.obligationId).isSome
  rooted : ∀ obligationId result, tables.resultOf obligationId = some result → result.terminalState ∈ resolvedStates →
    ∃ attempt ∈ tables.attemptResults, result.finalAttemptId = some attempt.attemptId ∧
      ∃ vintage, attemptVintage attempt = some vintage ∧
        Rooted ids plans tables vintage fun observation => (obligationId, observation) ∈ tables.usages

variable {result : ListObligationResult} {success : Option FetchSuccess}

namespace Sound

variable {ids : ContentIds} {plans : List PlannedRun} {tables tables' : CaptureTables}

variable {plan : PlannedRun} {cell : PlannedCell} {written : NormalizedObservation → Prop}

section

variable (hs : Sound ids plans tables)

include hs

section

variable (hplan : plan ∈ plans)

include hplan

section

variable (hcell : cell ∈ plan.cells ids)

include hcell

theorem cell_eq {plan' : PlannedRun} {cell' : PlannedCell} (hplan' : plan' ∈ plans) (hcell' : cell' ∈ plan'.cells ids)
    (hrequest : cell.sourceRequestId = cell'.sourceRequestId) : cell = cell' := by
  have hlabel := PlannedRun.label_eq_of_request hcell hcell' hrequest
  have hplans : plan = plan' := List.inj_on_of_nodup_map hs.labels hplan hplan' hlabel
  subst hplans
  exact PlannedRun.cell_eq_of_request hcell hcell' hrequest

section

variable (hopen : tables.resultOf cell.obligation.obligationId = none)

include hopen

theorem row_request_ne {row : ObservationRow}
    (hrow : row ∈ tables.observations.rows) : row.observation.sourceVintageId.sourceRequestId ≠ cell.sourceRequestId := by
  obtain ⟨plan', hplan', cell', hcell', -, hof, hresolved⟩ := hs.rows row hrow
  intro heq
  rcases hof with hrequest | ⟨origin, hrequest⟩
  · have hcells := hs.cell_eq hplan hcell hplan' hcell' (heq.symm.trans hrequest)
    rw [← hcells, hopen] at hresolved
    cases hresolved
  · exact PlannedRun.corroborating_ne_request hcell _ _ origin (hrequest.symm.trans heq)

theorem keeps_of_grows
    (hgrows : CaptureTables.Grows cell written tables tables')
    (hwritten : ∀ observation, written observation → OfCell ids plan cell observation) :
    Keeps ids plans tables tables' where
  result _ _ hresult := hgrows.resultOf_eq hresult
  usages obligationId hsome observation := by
    refine hgrows.usage_mem_iff_of_ne fun heq => ?_
    rw [show obligationId = cell.obligation.obligationId from heq, hopen] at hsome
    cases hsome
  attempts _ hmem := hgrows.attempt_mem hmem
  rows other hother hsome row hrow hrequest := by
    refine (hgrows.row_of_mem hrow).resolve_right ?_
    rintro ⟨-, hkind⟩
    obtain ⟨plan', hplan', hcell'⟩ := hother
    rcases hwritten _ hkind with hown | ⟨origin, hown⟩
    · have hcells := hs.cell_eq hplan hcell hplan' hcell' (hown.symm.trans hrequest)
      rw [← hcells, hopen] at hsome
      cases hsome
    · exact PlannedRun.corroborating_ne_request hcell' _ _ origin (hown.symm.trans hrequest)

theorem of_grows
    (hgrows : CaptureTables.Grows cell written tables tables')
    (hwritten : ∀ observation, written observation → OfCell ids plan cell observation) (hkeyed : tables'.Keyed) (hresult : tables'.resultOf cell.obligation.obligationId = some result)
    (hrooted : result.terminalState ∈ resolvedStates → ∃ attempt ∈ tables'.attemptResults,
      result.finalAttemptId = some attempt.attemptId ∧ ∃ vintage, attemptVintage attempt = some vintage ∧
        Rooted ids plans tables' vintage fun observation =>
          (cell.obligation.obligationId, observation) ∈ tables'.usages) :
    Sound ids plans tables' := by
  have hkeeps := hs.keeps_of_grows hplan hcell hopen hgrows hwritten
  have hsome : (tables'.resultOf cell.obligation.obligationId).isSome := Option.isSome_iff_exists.mpr ⟨result, hresult⟩
  refine ⟨hs.labels, hgrows.obligations_eq.trans hs.obligations_eq, ?_, hkeyed, ?_, ?_, ?_, ?_⟩
  · rw [hgrows.obligations_eq]
    exact hs.obligation_ids
  · rw [hgrows.obligations_eq]
    obtain ⟨added, heq, hown⟩ := hgrows.results
    intro entry hentry
    rw [heq, List.mem_append] at hentry
    rcases hentry with hold | hadded
    · exact hs.results entry hold
    · rw [hown entry hadded, hs.obligations_eq]
      exact List.mem_map_of_mem (List.mem_flatMap.mpr ⟨plan, hplan, PlannedRun.obligation_mem hcell⟩)
  · intro usage husage
    by_cases howner : usage.1 = cell.obligation.obligationId
    · rwa [howner]
    · exact hkeeps.isSome (hs.usages usage ((hgrows.usage_mem_iff_of_ne howner).mp husage))
  · intro row hrow
    rcases hgrows.row_of_mem hrow with hold | ⟨howner, hkind⟩
    · obtain ⟨plan', hplan', cell', hcell', howner, hof, hresolved⟩ := hs.rows row hold
      exact ⟨plan', hplan', cell', hcell', howner, hof, hkeeps.isSome hresolved⟩
    · exact ⟨plan, hplan, cell, hcell, howner, hwritten _ hkind, hsome⟩
  · intro obligationId other hother hstate
    by_cases howner : obligationId = cell.obligation.obligationId
    · subst howner
      rw [hresult] at hother
      cases hother
      exact hrooted hstate
    · rw [hgrows.resultOf_of_ne howner] at hother
      obtain ⟨attempt, hattempt, hfinal, vintage, hvintage, hroot⟩ := hs.rooted obligationId other hother hstate
      refine ⟨attempt, hgrows.attempt_mem hattempt, hfinal, vintage, hvintage, hkeeps.rooted (fun observation => ?_) hroot⟩
      exact hkeeps.usages obligationId (Option.isSome_iff_exists.mpr ⟨other, hother⟩) observation

end

end

end

end

theorem initial : Sound ids [] .empty where
  labels := List.nodup_nil
  obligations_eq := rfl
  obligation_ids := List.nodup_nil
  keyed := CaptureTables.keyed_empty
  results _ h := absurd h List.not_mem_nil
  usages _ h := absurd h List.not_mem_nil
  rows _ h := absurd h List.not_mem_nil
  rooted _ _ h := absurd h (Option.some_ne_none _ ∘ Eq.symm)

theorem of_plan (hs : Sound ids plans tables) (hlabel : ∀ planned ∈ plans, planned.sourceLabel ≠ plan.sourceLabel)
    (hinserted : ∀ stored ∈ tables.obligations, ∀ obligation ∈ plan.obligations, stored.obligationId ≠ obligation.obligationId) :
    Sound ids (plans ++ [plan]) (tables.persistPlan plan) where
  labels := by
    rw [List.map_append, List.map_cons, List.map_nil]
    refine hs.labels.append (List.nodup_singleton _) (List.disjoint_singleton.mpr fun hmem => ?_)
    obtain ⟨planned, hplanned, heq⟩ := List.mem_map.mp hmem
    exact hlabel planned hplanned heq
  obligations_eq := by
    rw [List.flatMap_append, List.flatMap_cons, List.flatMap_nil, List.append_nil, ← hs.obligations_eq]
    rfl
  obligation_ids := by
    show ((tables.obligations ++ plan.obligations).map CaptureObligation.obligationId).Nodup
    rw [List.map_append]
    refine hs.obligation_ids.append plan.nodup fun obligationId hstored hnew => ?_
    obtain ⟨stored, hmem, rfl⟩ := List.mem_map.mp hstored
    obtain ⟨obligation, hmem', heq⟩ := List.mem_map.mp hnew
    exact hinserted stored hmem obligation hmem' heq.symm
  keyed := ⟨hs.keyed.attempts, hs.keyed.results, hs.keyed.usages, hs.keyed.stored⟩
  results entry hentry := by
    show entry.1 ∈ (tables.obligations ++ plan.obligations).map CaptureObligation.obligationId
    rw [List.map_append]
    exact List.mem_append_left _ (hs.results entry hentry)
  usages := hs.usages
  rows row hrow := by
    obtain ⟨planned, hplanned, hrest⟩ := hs.rows row hrow
    exact ⟨planned, List.mem_append_left _ hplanned, hrest⟩
  rooted obligationId result hresult hstate := by
    obtain ⟨attempt, hattempt, hfinal, vintage, hvintage, cell, ⟨planned, hplanned, hcell⟩, observation, hfetched, hrest⟩ :=
      hs.rooted obligationId result hresult hstate
    refine ⟨attempt, hattempt, hfinal, vintage, hvintage, cell, ⟨planned, List.mem_append_left _ hplanned, hcell⟩,
      observation, ?_, hrest⟩
    exact ⟨hfetched.success, hfetched.request, hfetched.subject, hfetched.semanticType, hfetched.used, hfetched.only⟩

theorem keeps_of_plan (plan : PlannedRun) : Keeps ids plans tables (tables.persistPlan plan) :=
  ⟨fun _ _ h => h, fun _ _ _ => Iff.rfl, fun _ h => h, fun _ _ _ _ h _ => h⟩

theorem ofCell_of_written (h : CaptureTables.Written ids plan cell success observation) : OfCell ids plan cell observation := by
  rcases h with ⟨fetched, -, record, -, rfl⟩ | ⟨corroboration, rfl⟩
  · exact .inl rfl
  · exact .inr ⟨corroboration.origin, rfl⟩

theorem of_outcome (hs : Sound ids plans tables) {lost : Corroboration → Bool}
    {reasons : List (Option ObligationReasonCode)} {terminalState : ObligationTerminalState} (hplan : plan ∈ plans) (hcell : cell ∈ plan.cells ids)
    (hopen : tables.resultOf cell.obligation.obligationId = none)
    (h : tables.recordOutcome ids plan cell lost reasons terminalState success = .ok tables') :
    Sound ids plans tables' ∧ Keeps ids plans tables tables' := by
  obtain ⟨hgrows, hkeyed, result, hrecorded⟩ := CaptureTables.of_recordOutcome hcell h
  refine ⟨hs.of_grows hplan hcell hopen hgrows (fun _ => ofCell_of_written) (hkeyed hs.keyed) hrecorded.result_eq ?_,
    hs.keeps_of_grows hplan hcell hopen hgrows fun _ => ofCell_of_written⟩
  intro hstate
  have hterminal : terminalState = .success := by
    rw [hrecorded.state_eq] at hstate
    simpa [resolvedStates, hrecorded.not_unchanged] using hstate
  obtain ⟨fetched, hfetched, record, hrecord, ⟨attempt, hattempt, hfinal, hvintage⟩, hused⟩ := hrecorded.landed hterminal
  refine ⟨attempt, hattempt, hfinal, _, hvintage, cell, ⟨plan, hplan, hcell⟩, CaptureTables.primaryObservation
    cell.obligation fetched record (CaptureSink.landedVintage cell.binding fetched), ?_, rfl, fun _ => Iff.rfl⟩
  refine ⟨⟨result, hrecorded.result_eq, hrecorded.state_eq.trans hterminal⟩, rfl, rfl, rfl, hused, ?_⟩
  rintro row hrow hrequest
  rcases hgrows.row_of_mem hrow with hold | ⟨howner, ⟨other, hother, record', hrecord', heq⟩ | ⟨corroboration, heq⟩⟩
  · exact absurd hrequest (hs.row_request_ne hplan hcell hopen hold)
  · cases hfetched.symm.trans hother
    cases hrecord.symm.trans hrecord'
    cases row
    cases howner
    cases heq
    rfl
  · rw [heq] at hrequest
    exact absurd hrequest (PlannedRun.corroborating_ne_request hcell _ _ corroboration.origin)

end Sound

structure Satisfied (tables : CaptureTables) (cell : PlannedCell) (candidate : ReuseCandidate)
    (result : ListObligationResult) (attempt : FetchAttemptResult) : Prop where
  result_eq : tables.resultOf cell.obligation.obligationId = some result
  state_eq : result.terminalState = .unchanged
  attempt_mem : attempt ∈ tables.attemptResults
  final : result.finalAttemptId = some attempt.attemptId
  source : attempt.sourceVintageId = none
  reused : attempt.reusedSourceVintageId = some candidate.vintage
  usages : ∀ observation, (cell.obligation.obligationId, observation) ∈ tables.usages ↔ observation ∈ candidate.observations

section Loop

variable {ids : ContentIds} {plans : List PlannedRun} {tables tables' : CaptureTables} {plan : PlannedRun}
  {settings : ReuseSettings} {candidates : PlannedCell → Option ReuseCandidate} {cell : PlannedCell}
  {candidate : ReuseCandidate}

theorem Satisfied.keeps (hkeeps : Keeps ids plans tables tables')
    {attempt : FetchAttemptResult} (h : Satisfied tables cell candidate result attempt) :
    Satisfied tables' cell candidate result attempt :=
  { h with
    result_eq := hkeeps.result _ _ h.result_eq
    attempt_mem := hkeeps.attempts _ h.attempt_mem
    usages := fun observation => (hkeeps.usages _ (Option.isSome_iff_exists.mpr ⟨result, h.result_eq⟩) observation).trans
      (h.usages observation) }

theorem Sound.of_resolveUnchanged (hs : Sound ids plans tables) (hplan : plan ∈ plans) (hcell : cell ∈ plan.cells ids)
    (hopen : tables.resultOf cell.obligation.obligationId = none)
    (hroot : Rooted ids plans tables candidate.vintage (· ∈ candidate.observations))
    (h : tables.resolveUnchanged plan cell candidate = .ok tables') :
    Sound ids plans tables' ∧ Keeps ids plans tables tables' ∧ (∀ obligationId, obligationId ≠ cell.obligation.obligationId →
        tables'.resultOf obligationId = tables.resultOf obligationId) ∧
      ∃ result attempt, Satisfied tables' cell candidate result attempt := by
  have hstored : ∀ observation ∈ candidate.observations,
      observation ∈ tables.observations.rows.map ObservationRow.observation := by
    intro observation hmem
    obtain ⟨source, -, -, -, -, huses⟩ := hroot
    exact hs.keyed.stored _ ((huses observation).mp hmem)
  obtain ⟨hgrows, hkeyed, result, attempt, hreused⟩ := CaptureTables.of_resolveUnchanged h hstored
  have hkeeps := hs.keeps_of_grows hplan hcell hopen hgrows fun _ => False.elim
  have husages : ∀ observation, (cell.obligation.obligationId, observation) ∈ tables'.usages ↔
      observation ∈ candidate.observations := by
    intro observation
    rw [hreused.usages, or_iff_right fun hold => ?_]
    · exact and_iff_right rfl
    · have hsome := hs.usages _ hold
      rw [hopen] at hsome
      cases hsome
  refine ⟨hs.of_grows hplan hcell hopen hgrows (fun _ => False.elim) (hkeyed hs.keyed) hreused.result_eq fun _ => ?_,
    hkeeps, fun _ => hgrows.resultOf_of_ne, result, attempt, hreused.result_eq, hreused.state_eq, hreused.attempt_mem,
    hreused.final, hreused.source, hreused.reused, husages⟩
  refine ⟨attempt, hreused.attempt_mem, hreused.final, candidate.vintage, ?_, hkeeps.rooted husages hroot⟩
  rw [attemptVintage, hreused.source, Option.none_or, hreused.reused]

theorem Sound.of_satisfyCells (hplan : plan ∈ plans) {cells : List PlannedCell} (hcells : ∀ cell ∈ cells, cell ∈ plan.cells ids)
    (hnodup : (cells.map fun cell => cell.obligation.obligationId).Nodup) {items items' : List String}
    (hs : Sound ids plans tables) (hopen : ∀ cell ∈ cells, tables.resultOf cell.obligation.obligationId = none)
    (hroots : ∀ cell ∈ cells, ∀ candidate, candidates cell = some candidate →
      Rooted ids plans tables candidate.vintage (· ∈ candidate.observations))
    (h : cells.foldlM (CaptureTables.satisfyCell settings plan candidates) (tables, items) = .ok (tables', items')) :
    Sound ids plans tables' ∧ Keeps ids plans tables tables' ∧
      (∀ item, item ∈ items' ↔ item ∈ items ∨ ∃ cell ∈ cells, cell.workItemId = item ∧ ∃ candidate,
        candidates cell = some candidate ∧ CaptureTables.InSession settings cell.obligation.semanticType candidate.knowableAt) ∧
      ∀ cell ∈ cells, ∀ candidate, candidates cell = some candidate →
        CaptureTables.InSession settings cell.obligation.semanticType candidate.knowableAt →
        ∃ result attempt, Satisfied tables' cell candidate result attempt := by
  induction cells generalizing tables items with
  | nil =>
    cases foldlM_nil_eq_ok.mp h
    exact ⟨hs, Keeps.refl _, fun item => by simp, fun _ hmem => absurd hmem List.not_mem_nil⟩
  | cons cell rest ih =>
    obtain ⟨⟨middle, items₁⟩, hcell, hrest⟩ := foldlM_cons_eq_ok.mp h
    obtain ⟨hfresh, hnodup'⟩ := List.nodup_cons.mp hnodup
    have hmem := hcells cell List.mem_cons_self
    have hstep : Sound ids plans middle ∧ Keeps ids plans tables middle ∧
        (∀ other ∈ rest, middle.resultOf other.obligation.obligationId = none) ∧
        (∀ item, item ∈ items₁ ↔ item ∈ items ∨ cell.workItemId = item ∧ ∃ candidate, candidates cell = some candidate ∧
          CaptureTables.InSession settings cell.obligation.semanticType candidate.knowableAt) ∧
        ∀ candidate, candidates cell = some candidate →
          CaptureTables.InSession settings cell.obligation.semanticType candidate.knowableAt →
          ∃ result attempt, Satisfied middle cell candidate result attempt := by
      have hrestOpen : ∀ other ∈ rest, tables.resultOf other.obligation.obligationId = none :=
        fun other hother => hopen other (List.mem_cons_of_mem _ hother)
      unfold CaptureTables.satisfyCell at hcell
      rcases hcandidate : candidates cell with _ | candidate <;> simp only [hcandidate] at hcell
      · cases hcell
        exact ⟨hs, Keeps.refl _, hrestOpen, by simp, fun candidate hsome => absurd hsome.symm (Option.some_ne_none _)⟩
      split_ifs at hcell with hsession
      · obtain ⟨stored, hresolve, heq⟩ := bind_eq_ok_iff.mp hcell
        cases heq
        obtain ⟨hsound, hkeeps, hother, hsatisfied⟩ := hs.of_resolveUnchanged hplan hmem
          (hopen cell List.mem_cons_self) (hroots cell List.mem_cons_self candidate hcandidate) hresolve
        refine ⟨hsound, hkeeps, fun other hotherMem => ?_, fun item => ?_, ?_⟩
        · rw [hother _ fun heq => hfresh (List.mem_map.mpr ⟨other, hotherMem, heq⟩)]
          exact hrestOpen other hotherMem
        · rw [List.mem_append, List.mem_singleton, eq_comm]
          simp [hsession]
        · rintro _ ⟨⟩ -
          exact hsatisfied
      · cases hcell
        refine ⟨hs, Keeps.refl _, hrestOpen, by simp [hsession], ?_⟩
        rintro _ ⟨⟩ hin
        exact absurd hin hsession
    obtain ⟨hsound, hkeeps, hopen', hitems, hsatisfied⟩ := hstep
    obtain ⟨hsound', hkeeps', hitems', hsatisfied'⟩ := ih (fun other hother => hcells other (List.mem_cons_of_mem _ hother))
      hnodup' hsound hopen' (fun other hother candidate hcandidate => hkeeps.rooted (fun _ => Iff.rfl)
        (hroots other (List.mem_cons_of_mem _ hother) candidate hcandidate)) hrest
    refine ⟨hsound', hkeeps.trans (fun _ h => h) hkeeps', fun item => ?_, fun other hother candidate hcandidate hin => ?_⟩
    · rw [hitems' item, hitems item, or_assoc]
      simp only [List.exists_mem_cons_iff]
    · rcases List.mem_cons.mp hother with rfl | hother
      · obtain ⟨result, attempt, h⟩ := hsatisfied candidate hcandidate hin
        exact ⟨result, attempt, h.keeps hkeeps'⟩
      · exact hsatisfied' other hother candidate hcandidate hin

end Loop

/-! ## The anchors of the query -/

variable {candidate : ReuseCandidate}

section Anchors

variable {ids : ContentIds} {plans : List PlannedRun} {tables tables' : CaptureTables} {plan : PlannedRun}
  {settings : ReuseSettings} {cell : PlannedCell} {coordinates : Coordinates} {anchor : AnchorRow}

theorem resultOf_of_mem (hkeyed : tables.Keyed)
    (h : (obligationId, result) ∈ tables.results) : tables.resultOf obligationId = some result := by
  obtain ⟨before, after, heq⟩ := List.append_of_mem h
  refine List.lookup_eq_some_iff.mpr ⟨before, after, heq, fun entry hentry => ?_⟩
  have hnodup := hkeyed.results
  rw [heq, List.map_append, List.map_cons] at hnodup
  have hdisjoint := (List.nodup_append.mp hnodup).2.2 entry.1 (List.mem_map_of_mem hentry) obligationId List.mem_cons_self
  exact bne_iff_ne.mpr hdisjoint.symm

structure AnchorRoot (ids : ContentIds) (plans : List PlannedRun) (tables : CaptureTables) (plan : PlannedRun)
    (anchor : AnchorRow) (fetch : PlannedCell) : Prop where
  planned : IsPlanned ids plans fetch
  fetched : Fetched tables fetch anchor.observation
  recent : ∃ original, tables.resultOf fetch.obligation.obligationId = some original ∧ CaptureTables.IsRecent plan original
  uses : ∀ observation, (anchor.sourceObligationId, observation) ∈ tables.usages ↔
    (fetch.obligation.obligationId, observation) ∈ tables.usages

theorem Sound.anchorRoot (hs : Sound ids plans tables) (h : anchor ∈ tables.anchors settings plan cell coordinates) :
    (∃ fetch, AnchorRoot ids plans tables plan anchor fetch) ∧
      CaptureTables.IsAnchorObservation settings plan cell coordinates anchor.observation := by
  simp only [CaptureTables.anchors, List.mem_flatMap, List.mem_map, List.mem_filter, decide_eq_true_eq] at h
  obtain ⟨source, ⟨-, -⟩, done, ⟨hdone, hkey, hstate, -⟩, attempt, ⟨hattempt, hfinal⟩, row, ⟨hrow, hvintage, hanchor⟩,
    original, ⟨horiginal, howner, hrecent⟩, rfl⟩ := h
  have hresult : tables.resultOf source.obligationId = some done.2 := by
    refine resultOf_of_mem hs.keyed ?_
    rwa [← hkey]
  obtain ⟨attempt', hattempt', hfinal', vintage, hvintage', fetch, hplanned, observation, hfetched, hroot, huses⟩ :=
    hs.rooted source.obligationId done.2 hresult hstate
  have hsame : attempt = attempt' :=
    List.inj_on_of_nodup_map hs.keyed.attempts hattempt hattempt' (Option.some_inj.mp (hfinal.trans hfinal'))
  subst hsame
  have hrowVintage : row.observation.sourceVintageId = vintage := Option.some_inj.mp (hvintage.trans hvintage')
  have hfetchRow := hfetched.only row hrow (by rw [hrowVintage, ← hroot, hfetched.request])
  subst hfetchRow
  refine ⟨⟨fetch, hplanned, hfetched, ⟨original.2, ?_, hrecent⟩, huses⟩, hanchor⟩
  refine resultOf_of_mem hs.keyed ?_
  rwa [show fetch.obligation.obligationId = original.1 from howner.symm]

variable {first : TieBreak AnchorRow}

theorem of_reuseCandidate (h : tables.reuseCandidate ids settings plan first cell = some candidate) :
    ∃ coordinates anchor, CaptureTables.mine plan cell = some coordinates ∧
      first.pick (tables.firstAnchors ids settings plan cell coordinates) = some anchor ∧
      tables.TakenWhole settings plan cell coordinates anchor ∧
      candidate = ⟨anchor.observation.sourceVintageId, anchor.observation.knowableAt,
        sortedBy ids.observation (tables.boundTo anchor.sourceObligationId)⟩ := by
  simp only [CaptureTables.reuseCandidate, Option.bind_eq_bind, Option.bind_eq_some_iff] at h
  obtain ⟨coordinates, hmine, anchor, hpick, h⟩ := h
  split_ifs at h with hwhole
  exact ⟨coordinates, anchor, hmine, hpick, hwhole, (Option.some_inj.mp h).symm⟩

theorem mem_boundTo_iff : observation ∈ tables.boundTo obligationId ↔ (obligationId, observation) ∈ tables.usages := by
  simp only [CaptureTables.boundTo, List.mem_map, List.mem_filter, decide_eq_true_eq]
  constructor
  · rintro ⟨⟨owner, used⟩, ⟨hmem, rfl⟩, rfl⟩
    exact hmem
  · exact fun hmem => ⟨(obligationId, observation), ⟨hmem, rfl⟩, rfl⟩

theorem mem_anchors_of_pick (h : first.pick (tables.firstAnchors ids settings plan cell coordinates) = some anchor) :
    anchor ∈ tables.anchors settings plan cell coordinates :=
  (List.mem_filter.mp (first.pick_mem _ _ h)).1

theorem Sound.reuseCandidate_rooted (hs : Sound ids plans tables)
    (h : tables.reuseCandidate ids settings plan first cell = some candidate) :
    Rooted ids plans tables candidate.vintage (· ∈ candidate.observations) := by
  obtain ⟨coordinates, anchor, -, hpick, -, rfl⟩ := of_reuseCandidate h
  obtain ⟨⟨fetch, hroot⟩, -⟩ := hs.anchorRoot (mem_anchors_of_pick hpick)
  refine ⟨fetch, hroot.planned, anchor.observation, hroot.fetched, rfl, fun observation => ?_⟩
  show observation ∈ sortedBy ids.observation (tables.boundTo anchor.sourceObligationId) ↔ _
  rw [mem_sortedBy, mem_boundTo_iff, hroot.uses observation]

end Anchors

section Reachable

variable {ids : ContentIds} {state state' : CaptureState}

theorem PlannedRun.nodup_cells (plan : PlannedRun) (ids : ContentIds) :
    ((plan.cells ids).map fun cell => cell.obligation.obligationId).Nodup := by
  have hmap : (plan.cells ids).map (fun cell => cell.obligation.obligationId) =
      plan.obligations.map CaptureObligation.obligationId := by
    rw [PlannedRun.cells, List.map_map, ← List.zipIdx_map_fst 0 plan.obligations, List.map_map]
    simp [Function.comp_def, PlannedRun.cellOf]
  rw [hmap]
  exact plan.nodup

theorem Sound.of_satisfyFromRecentObservations {plans : List PlannedRun} {tables tables' : CaptureTables}
    {plan : PlannedRun} {settings : ReuseSettings} {first : TieBreak AnchorRow} {satisfied : List String}
    (hs : Sound ids plans tables) (hplan : plan ∈ plans)
    (hopen : ∀ cell ∈ plan.cells ids, tables.resultOf cell.obligation.obligationId = none)
    (h : tables.satisfyFromRecentObservations ids settings plan first = .ok (tables', satisfied)) :
    Sound ids plans tables' ∧ Keeps ids plans tables tables' ∧ ∀ cell ∈ plan.cells ids,
        (cell.workItemId ∈ satisfied ↔ ∃ candidate, tables.reuseCandidate ids settings plan first cell = some candidate ∧
          CaptureTables.InSession settings cell.obligation.semanticType candidate.knowableAt) ∧
        ∀ candidate, tables.reuseCandidate ids settings plan first cell = some candidate →
          CaptureTables.InSession settings cell.obligation.semanticType candidate.knowableAt →
          ∃ result attempt, Satisfied tables' cell candidate result attempt := by
  obtain ⟨hsound, hkeeps, hitems, hsatisfied⟩ := Sound.of_satisfyCells hplan (fun _ hmem => hmem) (plan.nodup_cells ids)
    hs hopen (fun _ _ _ hcandidate => hs.reuseCandidate_rooted hcandidate) h
  refine ⟨hsound, hkeeps, fun cell hcell => ⟨?_, hsatisfied cell hcell⟩⟩
  rw [hitems cell.workItemId, or_iff_right List.not_mem_nil]
  constructor
  · rintro ⟨other, hother, heq, hrest⟩
    rwa [PlannedRun.cell_eq_of_request hother hcell ((PlannedRun.workItemId_eq_iff hother hcell).mp heq)] at hrest
  · exact fun hrest => ⟨cell, hcell, rfl, hrest⟩

theorem Sound.of_step (h : CaptureStep ids state state') (hs : Sound ids state.plans state.tables) :
    Sound ids state'.plans state'.tables ∧ Keeps ids state.plans state.tables state'.tables ∧
      ∀ plan ∈ state.plans, plan ∈ state'.plans := by
  cases h with
  | plan hlabel hinserted =>
    exact ⟨hs.of_plan hlabel hinserted, keeps_of_plan _, fun _ hmem => List.mem_append_left _ hmem⟩
  | outcome hplan hcell hopen h =>
    obtain ⟨hsound, hkeeps⟩ := hs.of_outcome hplan hcell hopen h
    exact ⟨hsound, hkeeps, fun _ hmem => hmem⟩
  | reuse hplan hopen h =>
    obtain ⟨hsound, hkeeps, -⟩ := hs.of_satisfyFromRecentObservations hplan hopen h
    exact ⟨hsound, hkeeps, fun _ hmem => hmem⟩

theorem Sound.of_reaches (h : CaptureReaches ids state state') (hs : Sound ids state.plans state.tables) :
    Sound ids state'.plans state'.tables ∧ Keeps ids state.plans state.tables state'.tables ∧
      ∀ plan ∈ state.plans, plan ∈ state'.plans := by
  induction h with
  | refl => exact ⟨hs, Keeps.refl _, fun _ hmem => hmem⟩
  | tail _ hstep ih =>
    obtain ⟨hsound, hkeeps, hplans⟩ := ih
    obtain ⟨hsound', hkeeps', hplans'⟩ := hsound.of_step hstep
    exact ⟨hsound', hkeeps.trans hplans hkeeps', fun plan hmem => hplans' plan (hplans plan hmem)⟩

theorem sound_of_reaches (h : CaptureReaches ids .initial state) : Sound ids state.plans state.tables :=
  (Sound.initial.of_reaches h).1

end Reachable

end TrueAlpha.Datahub
