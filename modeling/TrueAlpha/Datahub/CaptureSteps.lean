import TrueAlpha.Datahub.ObservationReuse

/-!
# What resolving a cell leaves

`record_outcome` and the reuse only add rows of their cell (`Grows`), and the keys of the tables stay unique (`Keyed`).  A write
leaves its own row (`Left`), so a recorded outcome leaves its result (`of_recordOutcome`).
-/

namespace TrueAlpha.Datahub

open Contracts

namespace PlannedRun

variable {plan plan' : PlannedRun} {ids : ContentIds} {cell cell' : PlannedCell}

theorem mem_cells_iff : cell ∈ plan.cells ids ↔
    ∃ obligation ordinal, plan.obligations[ordinal]? = some obligation ∧ cell = plan.cellOf ids (obligation, ordinal) := by
  rw [cells, List.mem_map]
  constructor
  · rintro ⟨⟨obligation, ordinal⟩, hmem, rfl⟩
    exact ⟨obligation, ordinal, List.mk_mem_zipIdx_iff_getElem?.mp hmem, rfl⟩
  · rintro ⟨obligation, ordinal, hget, rfl⟩
    exact ⟨(obligation, ordinal), List.mk_mem_zipIdx_iff_getElem?.mpr hget, rfl⟩

section

variable (h : cell ∈ plan.cells ids)

include h

theorem obligation_mem : cell.obligation ∈ plan.obligations := by
  obtain ⟨obligation, ordinal, hget, rfl⟩ := mem_cells_iff.mp h
  exact List.mem_of_getElem? hget

theorem sourceRequestId_of_mem : cell.sourceRequestId = ids.sourceRequest (plan.sourceRequest cell.ordinal cell.obligation) := by
  obtain ⟨obligation, ordinal, -, rfl⟩ := mem_cells_iff.mp h
  rfl

theorem workItemId_of_mem : cell.workItemId = "capture-work-item:" ++ cell.sourceRequestId := by
  obtain ⟨obligation, ordinal, -, rfl⟩ := mem_cells_iff.mp h
  rfl

theorem workItemId_eq_iff (h' : cell' ∈ plan'.cells ids) :
    cell.workItemId = cell'.workItemId ↔ cell.sourceRequestId = cell'.sourceRequestId := by
  rw [workItemId_of_mem h, workItemId_of_mem h', String.append_right_inj]

theorem cell_eq_of_request (h' : cell' ∈ plan.cells ids)
    (hrequest : cell.sourceRequestId = cell'.sourceRequestId) : cell = cell' := by
  obtain ⟨obligation, ordinal, hget, rfl⟩ := mem_cells_iff.mp h
  obtain ⟨obligation', ordinal', hget', rfl⟩ := mem_cells_iff.mp h'
  have hordinal : ordinal = ordinal' := congrArg SourceRequest.ordinal (ids.sourceRequest_injective hrequest)
  subst hordinal
  rw [hget] at hget'
  cases hget'
  rfl

theorem label_eq_of_request (h' : cell' ∈ plan'.cells ids)
    (hrequest : cell.sourceRequestId = cell'.sourceRequestId) : plan.sourceLabel = plan'.sourceLabel := by
  rw [sourceRequestId_of_mem h, sourceRequestId_of_mem h'] at hrequest
  have hversion := congrArg SourceRequest.fingerprintVersion (ids.sourceRequest_injective hrequest)
  exact (String.append_left_inj _).mp hversion

theorem corroborating_ne_request (ordinal : ℕ) (obligation : CaptureObligation)
    (origin : String) : ids.sourceRequest (plan'.corroboratingRequest ordinal obligation origin) ≠ cell.sourceRequestId := by
  rw [sourceRequestId_of_mem h]
  intro heq
  exact absurd (congrArg SourceRequest.origin (ids.sourceRequest_injective heq)) (Option.some_ne_none _)

theorem bindings_eq : (plan.sink ids).bindings (plan.workItem cell).workItemId = some cell.binding := by
  have hfind : (plan.cells ids).find? (fun other => other.workItemId = cell.workItemId) = some cell := by
    obtain ⟨found, hfound⟩ : ∃ found, (plan.cells ids).find? (fun other => other.workItemId = cell.workItemId) = some found := by
      rw [← Option.isSome_iff_exists, List.find?_isSome]
      exact ⟨cell, h, decide_eq_true rfl⟩
    have hmem := List.mem_of_find?_eq_some hfound
    have hitem : found.workItemId = cell.workItemId := by simpa using List.find?_some hfound
    rw [hfound, cell_eq_of_request hmem h ((workItemId_eq_iff hmem h).mp hitem)]
  show ((plan.cells ids).find? fun other => other.workItemId = cell.workItemId).map PlannedCell.binding = some cell.binding
  rw [hfind, Option.map_some]

end

end PlannedRun

variable {outcome : FetchAttemptOutcome}

namespace AttemptLedger

variable {ledger started finished : AttemptLedger} {attempt : FetchAttempt} {result : FetchAttemptResult}

theorem of_start {startedAt : Instant} (h : ledger.start startedAt = .ok (attempt, started)) :
    attempt.attemptId = ⟨ledger.workItemId, ledger.attempts.length + 1⟩ ∧
      started = { ledger with attempts := ledger.attempts ++ [attempt] } := by
  unfold start at h
  split_ifs at h
  cases h
  exact ⟨rfl, rfl⟩

variable {sourceVintageId reusedSourceVintageId : Option VintageId}

theorem of_checkVintages {onSuccess onUnchanged onOther : String}
    (h : checkVintages onSuccess onUnchanged onOther outcome sourceVintageId reusedSourceVintageId = .ok ()) :
    (outcome = .success → sourceVintageId.isSome) ∧ (outcome = .unchanged → reusedSourceVintageId.isSome) := by
  unfold checkVintages at h
  split_ifs at h with hsuccess hnamed hunchanged hreused
  · refine ⟨fun _ => ?_, fun heq => absurd (hsuccess.symm.trans heq) (by decide)⟩
    exact Option.isSome_iff_ne_none.mpr fun hnone => hnamed (.inl hnone)
  · refine ⟨fun heq => absurd heq hsuccess, fun _ => ?_⟩
    exact Option.isSome_iff_ne_none.mpr fun hnone => hreused (.inl hnone)
  · exact ⟨fun heq => absurd heq hsuccess, fun heq => absurd heq hunchanged⟩

theorem of_build {built : FetchAttemptResult} (h : result.build = .ok built) :
    built.attemptId = result.attemptId ∧ built.sourceVintageId = result.sourceVintageId ∧
      built.reusedSourceVintageId = result.reusedSourceVintageId := by
  unfold FetchAttemptResult.build at h
  split_ifs at h
  · cases h
  · obtain ⟨codes, -, h⟩ := bind_eq_ok_iff.mp h
    obtain ⟨_, -, h⟩ := bind_eq_ok_iff.mp h
    cases h
    exact ⟨rfl, rfl, rfl⟩

theorem of_finish {completedAt : Instant} {errorCode : Option String} {statusCode : Option ℕ}
    (h : ledger.finish attempt completedAt outcome errorCode statusCode sourceVintageId reusedSourceVintageId =
      .ok (result, finished)) :
    result.attemptId = attempt.attemptId ∧ result.sourceVintageId = sourceVintageId ∧
      result.reusedSourceVintageId = reusedSourceVintageId ∧ finished.workItemId = ledger.workItemId ∧
      finished.attempts = ledger.attempts ∧ (outcome = .success → sourceVintageId.isSome) ∧
      (outcome = .unchanged → reusedSourceVintageId.isSome) := by
  unfold finish at h
  simp only [bind, Except.bind, pure, Except.pure] at h
  split_ifs at h
  all_goals split at h
  any_goals cases h
  case h_2 _ _ hvintages =>
    split at h
    · cases h
    · rename_i built hbuilt
      cases h
      obtain ⟨hid, hsource, hreused⟩ := of_build hbuilt
      obtain ⟨hsuccess, hunchanged⟩ := of_checkVintages hvintages
      exact ⟨hid, hsource, hreused, rfl, rfl, hsuccess, hunchanged⟩

end AttemptLedger

variable {result : ListObligationResult} {reasons : List (Option ObligationReasonCode)}

variable {write : CaptureWrite} {terminalState : ObligationTerminalState}

variable {writes : List CaptureWrite}

namespace CaptureTables

variable {cell : PlannedCell} {written : NormalizedObservation → Prop} {tables tables' tables'' : CaptureTables}

structure Grows (cell : PlannedCell) (written : NormalizedObservation → Prop) (tables tables' : CaptureTables) : Prop where
  obligations_eq : tables'.obligations = tables.obligations
  runPlans_eq : tables'.runPlans = tables.runPlans
  attempts : ∃ added, tables'.attemptResults = tables.attemptResults ++ added ∧
    ∀ attempt ∈ added, attempt.attemptId.workItemId = cell.workItemId
  rows : ∃ added, tables'.observations.rows = tables.observations.rows ++ added ∧
    ∀ row ∈ added, row.captureObligationId = cell.obligation.obligationId ∧ written row.observation
  usages : ∃ added, tables'.usages = tables.usages ++ added ∧ ∀ usage ∈ added, usage.1 = cell.obligation.obligationId
  results : ∃ added, tables'.results = tables.results ++ added ∧ ∀ result ∈ added, result.1 = cell.obligation.obligationId

structure Keyed (tables : CaptureTables) : Prop where
  attempts : (tables.attemptResults.map FetchAttemptResult.attemptId).Nodup
  results : (tables.results.map Prod.fst).Nodup
  usages : tables.usages.Nodup
  stored : ∀ usage ∈ tables.usages, usage.2 ∈ tables.observations.rows.map ObservationRow.observation

theorem keyed_empty : empty.Keyed := ⟨List.nodup_nil, List.nodup_nil, List.nodup_nil, fun _ h => absurd h List.not_mem_nil⟩

variable {α : Type} {obligationId : String} {own : α → Prop}

theorem exists_append_trans {l l' l'' : List α} (h : ∃ added, l' = l ++ added ∧ ∀ a ∈ added, own a)
    (h' : ∃ added, l'' = l' ++ added ∧ ∀ a ∈ added, own a) : ∃ added, l'' = l ++ added ∧ ∀ a ∈ added, own a := by
  obtain ⟨added, rfl, hown⟩ := h
  obtain ⟨added', rfl, hown'⟩ := h'
  refine ⟨added ++ added', List.append_assoc l added added', fun a ha => ?_⟩
  exact (List.mem_append.mp ha).elim (hown a) (hown' a)

theorem exists_append_nil (l : List α) : ∃ added, l = l ++ added ∧ ∀ a ∈ added, own a :=
  ⟨[], (List.append_nil l).symm, fun _ h => absurd h List.not_mem_nil⟩

theorem exists_append_one (l : List α) {a : α} (h : own a) : ∃ added, l ++ [a] = l ++ added ∧ ∀ b ∈ added, own b :=
  ⟨[a], rfl, fun b hb => by rwa [List.mem_singleton.mp hb]⟩

namespace Grows

theorem refl (tables : CaptureTables) : Grows cell written tables tables :=
  ⟨rfl, rfl, exists_append_nil _, exists_append_nil _, exists_append_nil _, exists_append_nil _⟩

section

variable (h : Grows cell written tables tables')

include h

theorem trans (h' : Grows cell written tables' tables'') : Grows cell written tables tables'' where
  obligations_eq := h'.obligations_eq.trans h.obligations_eq
  runPlans_eq := h'.runPlans_eq.trans h.runPlans_eq
  attempts := exists_append_trans h.attempts h'.attempts
  rows := exists_append_trans h.rows h'.rows
  usages := exists_append_trans h.usages h'.usages
  results := exists_append_trans h.results h'.results

theorem attempt_mem {attempt : FetchAttemptResult}
    (hmem : attempt ∈ tables.attemptResults) : attempt ∈ tables'.attemptResults := by
  obtain ⟨added, heq, -⟩ := h.attempts
  rw [heq]
  exact List.mem_append_left _ hmem

theorem row_mem {row : ObservationRow} (hmem : row ∈ tables.observations.rows) : row ∈ tables'.observations.rows := by
  obtain ⟨added, heq, -⟩ := h.rows
  rw [heq]
  exact List.mem_append_left _ hmem

end

variable {usage : String × NormalizedObservation}

section

variable (h : Grows cell written tables tables')

include h

theorem usage_mem (hmem : usage ∈ tables.usages) : usage ∈ tables'.usages := by
  obtain ⟨added, heq, -⟩ := h.usages
  rw [heq]
  exact List.mem_append_left _ hmem

theorem resultOf_eq
    (hresult : tables.resultOf obligationId = some result) : tables'.resultOf obligationId = some result := by
  obtain ⟨added, heq, -⟩ := h.results
  rw [resultOf, heq, List.lookup_append, show tables.results.lookup obligationId = some result from hresult, Option.some_or]

theorem resultOf_of_ne (hne : obligationId ≠ cell.obligation.obligationId) :
    tables'.resultOf obligationId = tables.resultOf obligationId := by
  obtain ⟨added, heq, hown⟩ := h.results
  have hnone : added.lookup obligationId = none := by
    refine List.lookup_eq_none_iff.mpr fun entry hentry => ?_
    simpa [hown entry hentry] using hne
  rw [resultOf, heq, List.lookup_append, hnone, Option.or_none, resultOf]

theorem usage_mem_iff_of_ne (hne : usage.1 ≠ cell.obligation.obligationId) : usage ∈ tables'.usages ↔ usage ∈ tables.usages := by
  obtain ⟨added, heq, hown⟩ := h.usages
  rw [heq, List.mem_append, or_iff_left fun hadded => hne (hown usage hadded)]

theorem row_of_mem {row : ObservationRow} (hmem : row ∈ tables'.observations.rows) : row ∈ tables.observations.rows ∨
      row.captureObligationId = cell.obligation.obligationId ∧ written row.observation := by
  obtain ⟨added, heq, hown⟩ := h.rows
  rw [heq, List.mem_append] at hmem
  exact hmem.imp id (hown row)

end

end Grows

theorem of_putAttemptResult (written : NormalizedObservation → Prop) {result : FetchAttemptResult} (h : tables.putAttemptResult result = .ok tables')
    (hown : result.attemptId.workItemId = cell.workItemId) :
    Grows cell written tables tables' ∧ (tables.Keyed → tables'.Keyed) ∧ result ∈ tables'.attemptResults := by
  unfold putAttemptResult at h
  split at h
  · rename_i hnone
    cases h
    refine ⟨⟨rfl, rfl, exists_append_one _ hown, exists_append_nil _, exists_append_nil _, exists_append_nil _⟩,
      fun hkeyed => { hkeyed with attempts := ?_ }, List.mem_append_right _ List.mem_cons_self⟩
    rw [List.map_append, List.map_cons, List.map_nil]
    refine hkeyed.attempts.append (List.nodup_singleton _) (List.disjoint_singleton.mpr fun hmem => ?_)
    obtain ⟨stored, hstored, heq⟩ := List.mem_map.mp hmem
    exact absurd heq (by simpa using List.find?_eq_none.mp hnone stored hstored)
  · rename_i stored hfound
    split_ifs at h with heq
    cases h
    exact ⟨Grows.refl _, id, heq ▸ List.mem_of_find?_eq_some hfound⟩

theorem usages_of_putAttemptResult {result : FetchAttemptResult} (h : tables.putAttemptResult result = .ok tables') :
    tables'.usages = tables.usages := by
  unfold putAttemptResult at h
  split at h
  · cases h
    rfl
  · split_ifs at h
    cases h
    rfl

theorem of_bindObservation (written : NormalizedObservation → Prop) (tables : CaptureTables) (obligationId : String)
    (observation : NormalizedObservation)
    (hown : obligationId = cell.obligation.obligationId) :
    Grows cell written tables (tables.bindObservation obligationId observation) ∧
      (tables.Keyed → observation ∈ tables.observations.rows.map ObservationRow.observation →
        (tables.bindObservation obligationId observation).Keyed) ∧
      (obligationId, observation) ∈ (tables.bindObservation obligationId observation).usages := by
  unfold bindObservation
  split_ifs with hmem
  · exact ⟨Grows.refl _, fun hkeyed _ => hkeyed, hmem⟩
  · refine ⟨⟨rfl, rfl, exists_append_nil _, exists_append_nil _, exists_append_one _ hown, exists_append_nil _⟩,
      fun hkeyed hstored => { hkeyed with usages := ?_, stored := fun usage husage => ?_ },
      List.mem_append_right _ List.mem_cons_self⟩
    · exact hkeyed.usages.append (List.nodup_singleton _) (List.disjoint_singleton.mpr hmem)
    · rcases List.mem_append.mp husage with hold | hnew
      · exact hkeyed.stored usage hold
      · rw [List.mem_singleton.mp hnew]
        exact hstored

theorem of_putObservation (tables : CaptureTables) {observation : NormalizedObservation}
    (hown : obligationId = cell.obligation.obligationId) (hwritten : written observation) :
    Grows cell written tables (tables.putObservation obligationId observation) ∧
      (tables.Keyed → (tables.putObservation obligationId observation).Keyed) ∧
      (obligationId, observation) ∈ (tables.putObservation obligationId observation).usages := by
  have hinsert : Grows cell written tables
        { tables with observations := (tables.observations.insert ⟨observation, obligationId⟩).1 } ∧
      observation ∈ (tables.observations.insert ⟨observation, obligationId⟩).1.rows.map ObservationRow.observation := by
    by_cases hholds : tables.observations.Holds ⟨observation, obligationId⟩
    · rw [AppendOnly.insert_of_holds hholds]
      exact ⟨Grows.refl _, AppendOnly.mem_keys_iff.mpr hholds⟩
    · have hrows := (AppendOnly.insert_of_not_holds hholds).1
      refine ⟨⟨rfl, rfl, exists_append_nil _, ?_, exists_append_nil _, exists_append_nil _⟩, ?_⟩
      · rw [hrows]
        exact exists_append_one _ ⟨hown, hwritten⟩
      · rw [hrows, List.map_append]
        exact List.mem_append_right _ List.mem_cons_self
  obtain ⟨hgrows, hstored⟩ := hinsert
  obtain ⟨hbind, hkeyed, hmem⟩ := of_bindObservation written { tables with
    observations := (tables.observations.insert ⟨observation, obligationId⟩).1 } obligationId observation hown
  refine ⟨hgrows.trans hbind, fun hk => hkeyed { hk with stored := fun usage husage => ?_ } hstored, hmem⟩
  obtain ⟨row, hrow, heq⟩ := List.mem_map.mp (hk.stored usage husage)
  exact List.mem_map.mpr ⟨row, hgrows.row_mem hrow, heq⟩

theorem of_putObligationResult (written : NormalizedObservation → Prop)
    (h : tables.putObligationResult obligationId result = .ok tables')
    (hown : obligationId = cell.obligation.obligationId) :
    Grows cell written tables tables' ∧ (tables.Keyed → tables'.Keyed) ∧ tables'.resultOf obligationId = some result := by
  unfold putObligationResult at h
  split at h
  · cases h
  split_ifs at h
  split at h
  · rename_i hnone
    cases h
    have hfresh : obligationId ∉ tables.results.map Prod.fst := by
      intro hmem
      obtain ⟨stored, hstored, heq⟩ := List.mem_map.mp hmem
      exact absurd heq.symm (by simpa using List.lookup_eq_none_iff.mp hnone stored hstored)
    refine ⟨⟨rfl, rfl, exists_append_nil _, exists_append_nil _, exists_append_nil _, exists_append_one _ hown⟩,
      fun hkeyed => { hkeyed with results := ?_ }, ?_⟩
    · rw [List.map_append, List.map_cons, List.map_nil]
      exact hkeyed.results.append (List.nodup_singleton _) (List.disjoint_singleton.mpr hfresh)
    · rw [resultOf, List.lookup_append, show tables.results.lookup obligationId = none from hnone, Option.none_or,
        List.lookup_cons_self]
  · rename_i stored hstored
    split_ifs at h with heq
    cases h
    exact ⟨Grows.refl _, id, heq ▸ hstored⟩

theorem usages_of_putObligationResult
    (h : tables.putObligationResult obligationId result = .ok tables') : tables'.usages = tables.usages := by
  unfold putObligationResult at h
  split at h
  · cases h
  split_ifs at h
  split at h
  · cases h
    rfl
  · split_ifs at h
    cases h
    rfl

/-! ## Recorded outcomes -/

section Outcome

variable {ids : ContentIds} {plan : PlannedRun} {lost : Corroboration → Bool}

def IsOwn (ids : ContentIds) (plan : PlannedRun) (cell : PlannedCell) (written : NormalizedObservation → Prop) :
    CaptureWrite → Prop
  | .attemptResult result => result.attemptId.workItemId = cell.workItemId
  | .observation obligationId success vintage => obligationId = cell.obligation.obligationId ∧
      ∀ record ∈ success.record, written (primaryObservation cell.obligation success record vintage)
  | .corroboration obligationId corroboration => obligationId = cell.obligation.obligationId ∧
      written (corroboratingObservation ids plan cell corroboration)
  | .obligationResult obligationId _ => obligationId = cell.obligation.obligationId
  | .evidence _ => True
  | .content _ _ => True
  | .attempt _ => True

def Left (cell : PlannedCell) (tables : CaptureTables) : CaptureWrite → Prop
  | .attemptResult result => result ∈ tables.attemptResults
  | .observation obligationId success vintage => ∃ record ∈ success.record,
      (obligationId, primaryObservation cell.obligation success record vintage) ∈ tables.usages
  | .obligationResult obligationId result => tables.resultOf obligationId = some result
  | .corroboration _ _ => True
  | .evidence _ => True
  | .content _ _ => True
  | .attempt _ => True

theorem Grows.left (h : Grows cell written tables tables') (hleft : Left cell tables write) : Left cell tables' write := by
  cases write with
  | attemptResult result => exact h.attempt_mem hleft
  | observation obligationId success vintage =>
    obtain ⟨record, hrecord, husage⟩ := hleft
    exact ⟨record, hrecord, h.usage_mem husage⟩
  | obligationResult obligationId result => exact h.resultOf_eq hleft
  | corroboration => trivial
  | evidence => trivial
  | content => trivial
  | attempt => trivial

theorem of_applyWrite (h : applyWrite ids plan cell lost tables write = .ok tables') (hown : IsOwn ids plan cell written write) :
    Grows cell written tables tables' ∧ (tables.Keyed → tables'.Keyed) ∧ Left cell tables' write := by
  cases write with
  | attemptResult result => exact of_putAttemptResult written h hown
  | observation obligationId success vintage =>
    rcases hrecord : success.record with _ | record <;> simp only [applyWrite, hrecord] at h
    · cases h
    · cases h
      obtain ⟨hgrows, hkeyed, hmem⟩ := of_putObservation tables hown.1 (hown.2 record hrecord)
      exact ⟨hgrows, hkeyed, record, hrecord, hmem⟩
  | corroboration obligationId corroboration =>
    simp only [applyWrite] at h
    split_ifs at h <;> cases h
    · exact ⟨Grows.refl _, id, trivial⟩
    · obtain ⟨hgrows, hkeyed, -⟩ := of_putObservation tables hown.1 hown.2
      exact ⟨hgrows, hkeyed, trivial⟩
  | obligationResult obligationId result => exact of_putObligationResult written h hown
  | evidence => cases h; exact ⟨Grows.refl _, id, trivial⟩
  | content => cases h; exact ⟨Grows.refl _, id, trivial⟩
  | attempt => cases h; exact ⟨Grows.refl _, id, trivial⟩

theorem of_writes (h : writes.foldlM (applyWrite ids plan cell lost) tables = .ok tables')
    (hown : ∀ write ∈ writes, IsOwn ids plan cell written write) :
    Grows cell written tables tables' ∧ (tables.Keyed → tables'.Keyed) ∧ ∀ write ∈ writes, Left cell tables' write := by
  induction writes generalizing tables with
  | nil =>
    cases foldlM_nil_eq_ok.mp h
    exact ⟨Grows.refl _, id, fun _ hmem => absurd hmem List.not_mem_nil⟩
  | cons write rest ih =>
    obtain ⟨middle, hwrite, hrest⟩ := foldlM_cons_eq_ok.mp h
    obtain ⟨hgrows, hkeyed, hleft⟩ := of_applyWrite hwrite (hown write List.mem_cons_self)
    obtain ⟨hgrows', hkeyed', hleft'⟩ := ih hrest fun other hother => hown other (List.mem_cons_of_mem _ hother)
    refine ⟨hgrows.trans hgrows', hkeyed' ∘ hkeyed, fun other hother => ?_⟩
    rcases List.mem_cons.mp hother with rfl | hother
    · exact hgrows'.left hleft
    · exact hleft' other hother

def IsAttemptOf (workItemId : String) : CaptureWrite → Prop
  | .attempt _ => True
  | .attemptResult result => result.attemptId.workItemId = workItemId
  | _ => False

theorem IsAttemptOf.isOwn (h : IsAttemptOf cell.workItemId write) : IsOwn ids plan cell written write := by
  cases write with
  | attempt => trivial
  | attemptResult => exact h
  | evidence | content | observation | corroboration | obligationResult => exact h.elim

theorem of_replayAttempts {timeline : CaptureTimeline}
    {sourceVintageId : Option VintageId} {ledger : AttemptLedger} {last lastId : Option AttemptId} {index : ℕ}
    (h : CaptureSink.replayAttempts timeline terminalState sourceVintageId ledger last index reasons =
      .ok (lastId, writes)) (hne : reasons ≠ []) :
    (∀ write ∈ writes, IsAttemptOf ledger.workItemId write) ∧ terminalState ≠ .unchanged ∧
      (terminalState = .success → ∃ vintage ∈ sourceVintageId, ∃ result, .attemptResult result ∈ writes ∧
        lastId = some result.attemptId ∧ result.sourceVintageId = some vintage) := by
  induction reasons generalizing ledger last index writes with
  | nil => exact absurd rfl hne
  | cons reason rest ih =>
    simp only [CaptureSink.replayAttempts, bind_eq_ok_iff, pure_eq_ok_iff] at h
    obtain ⟨⟨attempt, started⟩, hstart, ⟨result, finished⟩, hfinish, ⟨restId, restWrites⟩, hrest, heq⟩ := h
    cases heq
    obtain ⟨hid, rfl⟩ := AttemptLedger.of_start hstart
    obtain ⟨hresult, hsource, -, hitem, -, hsuccess, hunchanged⟩ := AttemptLedger.of_finish hfinish
    have hown : result.attemptId.workItemId = ledger.workItemId := by rw [hresult, hid]
    have hcons : ∀ {tail : List CaptureWrite}, (∀ write ∈ tail, IsAttemptOf ledger.workItemId write) →
        ∀ write ∈ CaptureWrite.attempt attempt :: .attemptResult result :: tail, IsAttemptOf ledger.workItemId write := by
      intro tail htail write hmem
      rcases List.mem_cons.mp hmem with rfl | hmem
      · trivial
      rcases List.mem_cons.mp hmem with rfl | hmem
      · exact hown
      · exact htail write hmem
    rcases rest with _ | ⟨next, later⟩
    · -- the attempt is the last one, so its outcome is that of the terminal state
      cases pure_eq_ok_iff.mp hrest
      refine ⟨hcons fun _ hmem => absurd hmem List.not_mem_nil, ?_, ?_⟩
      · rintro rfl
        exact absurd (hunchanged rfl) (by decide)
      · rintro rfl
        have hvintage : result.sourceVintageId = sourceVintageId := hsource
        obtain ⟨vintage, hsome⟩ := Option.isSome_iff_exists.mp (hsuccess rfl)
        have hsome : sourceVintageId = some vintage := hsome
        exact ⟨vintage, hsome, result, List.mem_cons_of_mem _ List.mem_cons_self, congrArg some hresult.symm,
          hvintage.trans hsome⟩
    · obtain ⟨hattempts, hstate, hfinal⟩ := ih hrest (List.cons_ne_nil _ _)
      rw [hitem] at hattempts
      refine ⟨hcons hattempts, hstate, fun hterminal => ?_⟩
      obtain ⟨vintage, hvintage, final, hmem, hlast⟩ := hfinal hterminal
      exact ⟨vintage, hvintage, final, List.mem_cons_of_mem _ (List.mem_cons_of_mem _ hmem), hlast⟩

theorem of_resultBuild {result built : ListObligationResult} (h : result.build = .ok built) :
    built.terminalState = result.terminalState ∧ built.finalAttemptId = result.finalAttemptId := by
  unfold ListObligationResult.build at h
  obtain ⟨codes, -, h⟩ := bind_eq_ok_iff.mp h
  split_ifs at h <;> cases h <;> exact ⟨rfl, rfl⟩

def Written (ids : ContentIds) (plan : PlannedRun) (cell : PlannedCell) (success : Option FetchSuccess)
    (observation : NormalizedObservation) : Prop :=
  (∃ fetched ∈ success, ∃ record ∈ fetched.record,
      observation = primaryObservation cell.obligation fetched record (CaptureSink.landedVintage cell.binding fetched)) ∨
    ∃ corroboration, observation = corroboratingObservation ids plan cell corroboration

structure Recorded (cell : PlannedCell) (success : Option FetchSuccess) (terminalState : ObligationTerminalState)
    (tables' : CaptureTables) (result : ListObligationResult) : Prop where
  result_eq : tables'.resultOf cell.obligation.obligationId = some result
  state_eq : result.terminalState = terminalState
  not_unchanged : terminalState ≠ .unchanged
  landed : terminalState = .success → ∃ fetched ∈ success, ∃ record ∈ fetched.record,
    (∃ attempt ∈ tables'.attemptResults, result.finalAttemptId = some attempt.attemptId ∧
      attemptVintage attempt = some (CaptureSink.landedVintage cell.binding fetched)) ∧
    (cell.obligation.obligationId, primaryObservation cell.obligation fetched record
      (CaptureSink.landedVintage cell.binding fetched)) ∈ tables'.usages

theorem of_recordOutcome
    {success : Option FetchSuccess} (hcell : cell ∈ plan.cells ids)
    (h : tables.recordOutcome ids plan cell lost reasons terminalState success = .ok tables') :
    Grows cell (Written ids plan cell success) tables tables' ∧ (tables.Keyed → tables'.Keyed) ∧
      ∃ result, Recorded cell success terminalState tables' result := by
  unfold recordOutcome at h
  obtain ⟨writes, hwrites, hfold⟩ := bind_eq_ok_iff.mp h
  simp only [CaptureSink.recordOutcome, PlannedRun.bindings_eq hcell, bind_eq_ok_iff, pure_eq_ok_iff] at hwrites
  obtain ⟨_, hhandover, ⟨finalId, attempts⟩, hreplay, result, hbuild, rfl⟩ := hwrites
  have hreasons : reasons ≠ [] := by
    rintro rfl
    cases hhandover
  obtain ⟨hattempts, hunchanged, hfinal⟩ := of_replayAttempts hreplay hreasons
  obtain ⟨hstate, hfinalId⟩ := of_resultBuild hbuild
  have hown : ∀ write ∈ CaptureSink.contentWrites cell.binding success ++ attempts ++
      CaptureSink.observationWrites cell.binding success ++ [.obligationResult cell.binding.obligationId result],
      IsOwn ids plan cell (Written ids plan cell success) write := by
    intro write hmem
    simp only [List.mem_append, List.mem_singleton] at hmem
    rcases hmem with ((hmem | hmem) | hmem) | rfl
    · obtain ⟨fetched, -, rfl⟩ := List.mem_map.mp hmem
      trivial
    · exact (hattempts write hmem).isOwn
    · obtain ⟨fetched, hfetched, hmem⟩ := List.mem_flatMap.mp hmem
      rcases List.mem_cons.mp hmem with rfl | hmem
      · exact ⟨rfl, fun record hrecord => .inl ⟨fetched, Option.mem_toList.mp hfetched, record, hrecord, rfl⟩⟩
      · obtain ⟨corroboration, -, rfl⟩ := List.mem_map.mp hmem
        exact ⟨rfl, .inr ⟨corroboration, rfl⟩⟩
    · exact rfl
  obtain ⟨hgrows, hkeyed, hleft⟩ := of_writes hfold hown
  refine ⟨hgrows, hkeyed, result, ?_, hstate, hunchanged, ?_⟩
  · exact hleft _ (List.mem_append_right _ List.mem_cons_self)
  · intro hsuccess
    obtain ⟨vintage, hvintage, attempt, hmem, hlast, hsource⟩ := hfinal hsuccess
    obtain ⟨fetched, hfetched, rfl⟩ := Option.map_eq_some_iff.mp hvintage
    have hobservation : CaptureWrite.observation cell.binding.obligationId fetched
        (CaptureSink.landedVintage cell.binding fetched) ∈ CaptureSink.observationWrites cell.binding success :=
      List.mem_flatMap.mpr ⟨fetched, Option.mem_toList.mpr hfetched, List.mem_cons_self⟩
    obtain ⟨record, hrecord, husage⟩ := hleft _ (List.mem_append_left _ (List.mem_append_right _ hobservation))
    refine ⟨fetched, hfetched, record, hrecord, ⟨attempt, ?_, hfinalId.trans hlast, ?_⟩, husage⟩
    · exact hleft _ (List.mem_append_left _ (List.mem_append_left _ (List.mem_append_right _ hmem)))
    · rw [attemptVintage, hsource, Option.some_or]

end Outcome

section Reuse

variable {plan : PlannedRun}

theorem of_bindObservations (cell : PlannedCell) (written : NormalizedObservation → Prop)
    {observations : List NormalizedObservation}
    (hstored : ∀ observation ∈ observations, observation ∈ tables.observations.rows.map ObservationRow.observation) :
    Grows cell written tables (observations.foldl (bindObservation · cell.obligation.obligationId) tables) ∧
      (tables.Keyed → (observations.foldl (bindObservation · cell.obligation.obligationId) tables).Keyed) ∧
      ∀ usage, usage ∈ (observations.foldl (bindObservation · cell.obligation.obligationId) tables).usages ↔
        usage ∈ tables.usages ∨ usage.1 = cell.obligation.obligationId ∧ usage.2 ∈ observations := by
  induction observations generalizing tables with
  | nil => exact ⟨Grows.refl _, id, fun usage => by simp⟩
  | cons observation rest ih =>
    obtain ⟨hgrows, hkeyed, hmem⟩ := of_bindObservation written tables cell.obligation.obligationId observation
      (Eq.refl cell.obligation.obligationId)
    have hrest : ∀ other ∈ rest, other ∈ (tables.bindObservation cell.obligation.obligationId
        observation).observations.rows.map ObservationRow.observation := by
      intro other hother
      obtain ⟨row, hrow, heq⟩ := List.mem_map.mp (hstored other (List.mem_cons_of_mem _ hother))
      exact List.mem_map.mpr ⟨row, hgrows.row_mem hrow, heq⟩
    have hfirst : ∀ usage, usage ∈ (tables.bindObservation cell.obligation.obligationId observation).usages ↔
        usage ∈ tables.usages ∨ usage = (cell.obligation.obligationId, observation) := by
      intro usage
      unfold bindObservation at hmem ⊢
      split_ifs at hmem ⊢ with hheld
      · exact ⟨.inl, fun h => h.elim id fun heq => heq ▸ hheld⟩
      · rw [List.mem_append, List.mem_singleton]
    obtain ⟨hgrows', hkeyed', husages⟩ := ih hrest
    refine ⟨hgrows.trans hgrows', fun hk => hkeyed' (hkeyed hk (hstored observation List.mem_cons_self)), fun usage => ?_⟩
    rw [List.foldl_cons, husages usage, hfirst usage, or_assoc, List.mem_cons, Prod.ext_iff]
    tauto

structure Reused (cell : PlannedCell) (candidate : ReuseCandidate) (tables tables' : CaptureTables)
    (result : ListObligationResult) (attempt : FetchAttemptResult) : Prop where
  result_eq : tables'.resultOf cell.obligation.obligationId = some result
  state_eq : result.terminalState = .unchanged
  attempt_mem : attempt ∈ tables'.attemptResults
  final : result.finalAttemptId = some attempt.attemptId
  source : attempt.sourceVintageId = none
  reused : attempt.reusedSourceVintageId = some candidate.vintage
  usages : ∀ usage, usage ∈ tables'.usages ↔
    usage ∈ tables.usages ∨ usage.1 = cell.obligation.obligationId ∧ usage.2 ∈ candidate.observations

theorem of_resolveUnchanged {candidate : ReuseCandidate}
    (h : tables.resolveUnchanged plan cell candidate = .ok tables') (hstored : ∀ observation ∈ candidate.observations,
      observation ∈ tables.observations.rows.map ObservationRow.observation) :
    Grows cell (fun _ => False) tables tables' ∧ (tables.Keyed → tables'.Keyed) ∧
      ∃ result attempt, Reused cell candidate tables tables' result attempt := by
  simp only [resolveUnchanged, bind_eq_ok_iff] at h
  obtain ⟨⟨attempt, started⟩, hstart, ⟨attemptResult, finished⟩, hfinish, middle, hput, result, hbuild, hresult⟩ := h
  obtain ⟨hid, rfl⟩ := AttemptLedger.of_start hstart
  obtain ⟨hattempt, hsource, hreused, -⟩ := AttemptLedger.of_finish hfinish
  obtain ⟨hstate, hfinal⟩ := of_resultBuild hbuild
  have hown : attemptResult.attemptId.workItemId = cell.workItemId := by rw [hattempt, hid]; rfl
  obtain ⟨hgrows, hkeyed, hmem⟩ := of_putAttemptResult (fun _ => False) hput hown
  have hkept : ∀ observation ∈ candidate.observations, observation ∈ middle.observations.rows.map ObservationRow.observation := by
    intro observation hobservation
    obtain ⟨row, hrow, heq⟩ := List.mem_map.mp (hstored observation hobservation)
    exact List.mem_map.mpr ⟨row, hgrows.row_mem hrow, heq⟩
  obtain ⟨hgrows', hkeyed', husages⟩ := of_bindObservations cell (fun _ => False) hkept
  obtain ⟨hgrows'', hkeyed'', hresultOf⟩ := of_putObligationResult (fun _ => False) hresult (Eq.refl cell.obligation.obligationId)
  refine ⟨(hgrows.trans hgrows').trans hgrows'', hkeyed'' ∘ hkeyed' ∘ hkeyed, result, attemptResult, ?_⟩
  refine ⟨hresultOf, hstate, (hgrows'.trans hgrows'').attempt_mem hmem, ?_, hsource, hreused, fun usage => ?_⟩
  · rw [hfinal, hattempt]
  · rw [usages_of_putObligationResult hresult, husages usage, usages_of_putAttemptResult hput]

end Reuse

end CaptureTables

end TrueAlpha.Datahub
