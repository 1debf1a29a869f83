import TrueAlpha.Contracts.Execution

/-!
# Chains of factor outputs

An output is built from the records of a snapshot, or from an upstream output.  Along such a chain the records are those of one
snapshot, knowable at its cutoff, and the least confidence of what was read is kept.
-/

namespace TrueAlpha.Contracts

variable {canonicalSha256 : Json → String} {execution : FactorExecution} {snapshot : SnapshotManifest canonicalSha256}
  {runner : Runner} {selectedAt materializedAt : Instant} {supplied selection : RunnerInputSelection}
  {draft : FactorOutputDraft} {events : List InputReadEvent} {output : MaterializedFactorOutput}
  {binding : RunnerInputBinding} {demand : SnapshotDemandCell} {batch : MaterializedFactorBatch}

structure AcceptedSelection (canonicalSha256 : Json → String) (selection : RunnerInputSelection) : Prop where
  checked : ∀ binding ∈ selection.bindings, binding.check = .ok ()
  handles_nodup : (selection.bindings.map RunnerInputBinding.handleId).Nodup
  minted : ∀ binding ∈ selection.bindings, binding.handleId = mintRequirementHandle canonicalSha256
    selection.factorExecutionId selection.snapshotId binding.demand binding.inputId selection.runner

theorem selectionFreeze_eq_ok (h : supplied.freezeAndIdentify canonicalSha256 = .ok selection) :
    selection.bindings.Perm supplied.bindings ∧ selection.factorExecutionId = supplied.factorExecutionId ∧
      selection.snapshotId = supplied.snapshotId ∧ selection.runner = supplied.runner ∧
      AcceptedSelection canonicalSha256 selection := by
  unfold RunnerInputSelection.freezeAndIdentify at h
  obtain ⟨_, hchecked, h⟩ := bind_eq_ok_iff.mp h
  obtain ⟨_, -, h⟩ := bind_eq_ok_iff.mp h
  dsimp only at h
  split at h
  · cases h
  · next hnodup =>
    split at h
    · cases h
    · obtain ⟨_, hhandles, h⟩ := bind_eq_ok_iff.mp h
      obtain ⟨⟨selectionId, hash⟩, -, h⟩ := bind_eq_ok_iff.mp h
      cases h
      refine ⟨perm_sortedBy _ _, rfl, rfl, rfl, fun binding hmem => ?_, not_not.mp hnodup, fun binding hmem => ?_⟩
      · exact forM_eq_ok_iff.mp hchecked binding ((mem_sortedBy _).mp hmem)
      · have hhandle := forM_eq_ok_iff.mp hhandles binding hmem
        rw [RunnerInputSelection.checkHandle] at hhandle
        split at hhandle
        · assumption
        · cases hhandle

theorem RunnerInputBinding.check_eq_ok (h : binding.check = .ok ()) : binding.observation.subject = binding.demand.subject ∧
      isFactorOutput binding.inputId = binding.upstreamBatchId.isSome := by
  unfold RunnerInputBinding.check at h
  split at h
  · cases h
  · split at h
    · cases h
    · split at h
      · cases h
      · obtain ⟨_, -, h⟩ := bind_eq_ok_iff.mp h
        split at h
        · cases h
        · next hsubject =>
          split at h
          · cases h
          · next hupstream => exact ⟨not_not.mp hsubject, not_not.mp hupstream⟩

def BindsRecord (execution : FactorExecution) (snapshot : SnapshotManifest canonicalSha256) (runner : Runner)
    (binding : RunnerInputBinding) : Prop :=
  ∃ cell ∈ snapshot.selections, cell.demand.requirementId ∈ execution.template.dataRequirementIds ∧
    ∃ id ∈ cell.normalizedRecordIds, ∃ record ∈ snapshot.normalizedRecords,
      record.normalizedRecordId canonicalSha256 = id ∧ binding =
        ⟨mintRequirementHandle canonicalSha256 (execution.factorExecutionId canonicalSha256) snapshot.snapshotId cell.demand
          id runner, cell.demand, id, record.observation snapshot.request.asOf, record.evidenceStatus, none⟩

theorem recordBinding_eq_ok {inputId : String} (h : recordBinding execution snapshot runner demand inputId = .ok binding) :
    ∃ record ∈ snapshot.normalizedRecords, record.normalizedRecordId canonicalSha256 = inputId ∧ binding =
      ⟨mintRequirementHandle canonicalSha256 (execution.factorExecutionId canonicalSha256) snapshot.snapshotId demand
        inputId runner, demand, inputId, record.observation snapshot.request.asOf, record.evidenceStatus, none⟩ := by
  unfold recordBinding at h
  split at h
  · cases h
  · next record hrecord =>
    cases h
    obtain ⟨hmem, hid⟩ := snapshot.record?_eq_some.mp hrecord
    exact ⟨record, hmem, hid, rfl⟩

theorem mem_recordBindings {bindings : List RunnerInputBinding} (h : recordBindings execution snapshot runner = .ok bindings) :
    binding ∈ bindings ↔ BindsRecord execution snapshot runner binding := by
  unfold recordBindings at h
  obtain ⟨lists, hlists, h⟩ := bind_eq_ok_iff.mp h
  cases h
  rw [List.mem_flatten]
  constructor
  · rintro ⟨list, hlist, hmem⟩
    obtain ⟨cell, hcell, hbindings⟩ := exists_of_mem_mapM hlists hlist
    obtain ⟨id, hid, hbinding⟩ := exists_of_mem_mapM hbindings hmem
    obtain ⟨hcell, hdeclared⟩ := List.mem_filter.mp hcell
    obtain ⟨record, hrecord, hsame, heq⟩ := recordBinding_eq_ok hbinding
    exact ⟨cell, hcell, of_decide_eq_true hdeclared, id, hid, record, hrecord, hsame, heq⟩
  · rintro ⟨cell, hcell, hdeclared, id, hid, record, hrecord, hsame, heq⟩
    obtain ⟨list, hlist, hbindings⟩ := mem_of_mapM hlists (List.mem_filter.mpr ⟨hcell, decide_eq_true hdeclared⟩)
    obtain ⟨built, hbuilt, hbinding⟩ := mem_of_mapM hbindings hid
    refine ⟨list, hlist, ?_⟩
    have hfound := snapshot.record?_eq_some.mpr ⟨hrecord, hsame⟩
    rw [recordBinding, hfound] at hbinding
    cases hbinding
    rwa [heq]

theorem buildRunnerInputSelection_eq_ok (h : buildRunnerInputSelection execution snapshot selectedAt runner = .ok selection) :
    AcceptedSelection canonicalSha256 selection ∧
      ∀ binding, binding ∈ selection.bindings ↔ BindsRecord execution snapshot runner binding := by
  unfold buildRunnerInputSelection at h
  split at h
  · cases h
  · dsimp only at h
    split at h
    · cases h
    · obtain ⟨bindings, hbindings, h⟩ := bind_eq_ok_iff.mp h
      obtain ⟨hperm, -, -, -, haccepted⟩ := selectionFreeze_eq_ok h
      exact ⟨haccepted, fun binding => hperm.mem_iff.trans (mem_recordBindings hbindings)⟩

/-! ## Materialization -/

theorem mem_consumedBindings (hselection : (selection.bindings.map RunnerInputBinding.handleId).Nodup) :
    binding ∈ consumedBindings selection events ↔
      binding ∈ selection.bindings ∧ binding.handleId ∈ events.map (·.requirementHandleId) := by
  unfold consumedBindings
  rw [List.mem_filterMap]
  constructor
  · rintro ⟨handleId, hread, hfind⟩
    have hhandle : binding.handleId = handleId := by simpa using List.find?_some hfind
    exact ⟨List.mem_of_find?_eq_some hfind, hhandle ▸ mem_sortedSet.mp hread⟩
  · rintro ⟨hmem, hread⟩
    refine ⟨binding.handleId, mem_sortedSet.mpr hread, ?_⟩
    obtain ⟨found, hfound⟩ : ∃ found, selection.bindings.find? (·.handleId = binding.handleId) = some found :=
      Option.isSome_iff_exists.mp (List.find?_isSome.mpr ⟨binding, hmem, decide_eq_true rfl⟩)
    have hsame : found.handleId = binding.handleId := by simpa using List.find?_some hfound
    rw [hfound, List.inj_on_of_nodup_map hselection (List.mem_of_find?_eq_some hfound) hmem hsame]

theorem lineageOf_eq_ok {lineage : InputConsumptionLineage} (h : lineageOf canonicalSha256 events binding = .ok lineage) :
    lineage.inputId = binding.inputId ∧ lineage.evidenceStatus = binding.evidenceStatus := by
  unfold lineageOf at h
  dsimp only at h
  unfold InputConsumptionLineage.frozen at h
  split at h
  · cases h
  · split at h
    · cases h
    · split at h
      · cases h
      · cases h
        exact ⟨rfl, rfl⟩

structure Materialized (snapshot : SnapshotManifest canonicalSha256) (draft : FactorOutputDraft)
    (consumed : List RunnerInputBinding) (output : MaterializedFactorOutput) : Prop where
  snapshotId : output.snapshotId = snapshot.snapshotId
  asOf : output.asOf = snapshot.request.asOf
  draft_eq : output.draft = draft
  inputs : ∀ id, id ∈ output.consumedInputIds ↔ id ∈ consumed.map (·.inputId)
  upstream : ∀ id, id ∈ output.upstreamOutputIds ↔ id ∈ (consumed.map (·.inputId)).filter isFactorOutput
  minimum : output.minimumConsumedConfidence = (consumed.map (·.observation.confidence)).min?
  available : draft.availabilityStatus = .available → consumed ≠ [] ∧ ∀ binding ∈ consumed, binding.evidenceStatus ≠ .rejected

theorem checkStatus_eq_ok (h : output.checkStatus = .ok ()) (havailable : output.draft.availabilityStatus = .available) :
    output.inputLineage ≠ [] ∧ ∀ lineage ∈ output.inputLineage, lineage.evidenceStatus ≠ .rejected := by
  unfold MaterializedFactorOutput.checkStatus at h
  rw [if_pos havailable] at h
  split at h
  · cases h
  · next hne =>
    split at h
    · cases h
    · split at h
      · cases h
      · next hrejected =>
        refine ⟨hne, fun lineage hlineage heq => hrejected ?_⟩
        exact List.any_eq_true.mpr ⟨lineage, hlineage, decide_eq_true heq⟩

theorem outputFreeze_eq_ok {given : MaterializedFactorOutput} (h : given.freezeAndIdentify canonicalSha256 = .ok output) :
    output.snapshotId = given.snapshotId ∧ output.asOf = given.asOf ∧ output.draft = given.draft ∧
      output.inputLineage.Perm given.inputLineage ∧ output.upstreamOutputIds = sortedSet given.upstreamOutputIds ∧
      output.minimumConsumedConfidence = given.minimumConsumedConfidence ∧
      (output.draft.availabilityStatus = .available →
        output.inputLineage ≠ [] ∧ ∀ lineage ∈ output.inputLineage, lineage.evidenceStatus ≠ .rejected) := by
  unfold MaterializedFactorOutput.freezeAndIdentify at h
  split at h
  · cases h
  · split at h
    · cases h
    · dsimp only at h
      split at h
      · cases h
      · split at h
        · cases h
        · obtain ⟨_, hstatus, h⟩ := bind_eq_ok_iff.mp h
          split at h
          · cases h
          · obtain ⟨⟨outputId, hash⟩, -, h⟩ := bind_eq_ok_iff.mp h
            cases h
            exact ⟨rfl, rfl, rfl, perm_sortedBy _ _, rfl, rfl, fun havailable => checkStatus_eq_ok hstatus havailable⟩

theorem materialize_eq_ok
    (h : materializeFactorOutput execution snapshot selection draft events materializedAt = .ok output) :
    execution.Binds snapshot ∧ Materialized snapshot draft (consumedBindings selection events) output := by
  unfold materializeFactorOutput at h
  split at h
  · cases h
  · next hbinds =>
    split at h
    · cases h
    · split at h
      · cases h
      · obtain ⟨_, -, h⟩ := bind_eq_ok_iff.mp h
        obtain ⟨_, -, h⟩ := bind_eq_ok_iff.mp h
        obtain ⟨lineage, hlineage, h⟩ := bind_eq_ok_iff.mp h
        obtain ⟨_, -, h⟩ := bind_eq_ok_iff.mp h
        obtain ⟨hsnapshot, hasOf, hdraft, hperm, hupstream, hminimum, hstatus⟩ := outputFreeze_eq_ok h
        have hbinds := not_not.mp hbinds
        refine ⟨hbinds, hsnapshot.trans hbinds.1, hasOf, hdraft, fun id => ?_, fun id => ?_, hminimum, fun havailable => ?_⟩
        · rw [MaterializedFactorOutput.consumedInputIds, mem_sortedBy, (hperm.map _).mem_iff, List.mem_map, List.mem_map]
          constructor
          · rintro ⟨row, hrow, rfl⟩
            obtain ⟨binding, hbinding, hof⟩ := exists_of_mem_mapM hlineage hrow
            exact ⟨binding, hbinding, (lineageOf_eq_ok hof).1.symm⟩
          · rintro ⟨binding, hbinding, rfl⟩
            obtain ⟨row, hrow, hof⟩ := mem_of_mapM hlineage hbinding
            exact ⟨row, hrow, (lineageOf_eq_ok hof).1⟩
        · rw [hupstream, mem_sortedSet, mem_sortedBy]
        · obtain ⟨hne, hrejected⟩ := hstatus (by rw [hdraft]; exact havailable)
          refine ⟨fun hnil => ?_, fun binding hbinding heq => ?_⟩
          · rw [hnil, List.mapM_nil] at hlineage
            cases hlineage
            exact hne (List.perm_nil.mp hperm)
          · obtain ⟨row, hrow, hof⟩ := mem_of_mapM hlineage hbinding
            exact hrejected row (hperm.mem_iff.mpr hrow) ((lineageOf_eq_ok hof).2.trans heq)

variable {events' : List InputReadEvent}

theorem consumedBindings_perm (h : events'.Perm events) :
    consumedBindings selection events' = consumedBindings selection events := by
  rw [consumedBindings, consumedBindings, sortedSet_congr_mem fun handleId => (h.map (·.requirementHandleId)).mem_iff]

theorem frozen_perm (lineage : InputConsumptionLineage) {ids : List String} (h : ids.Perm lineage.inputReadEventIds) :
    ({ lineage with inputReadEventIds := ids } : InputConsumptionLineage).frozen = lineage.frozen := by
  have hnil : ids = [] ↔ lineage.inputReadEventIds = [] := by
    rw [← List.length_eq_zero_iff, ← List.length_eq_zero_iff, h.length_eq]
  unfold InputConsumptionLineage.frozen
  dsimp only
  by_cases hnodup : lineage.inputReadEventIds.Nodup
  · have hsorted : sortedBy id ids = sortedBy id lineage.inputReadEventIds :=
      sortedBy_eq_of_perm id h (by rw [List.map_id]; exact h.nodup_iff.mpr hnodup)
    simp only [hnil, h.nodup_iff, hsorted]
  · simp only [hnil, h.nodup_iff, hnodup, not_false_eq_true, true_or, if_true]

theorem lineageOf_perm (h : events'.Perm events) :
    lineageOf canonicalSha256 events' binding = lineageOf canonicalSha256 events binding := by
  have hreads : (events'.filter (·.requirementHandleId = binding.handleId)).Perm
      (events.filter (·.requirementHandleId = binding.handleId)) := h.filter _
  have htraces : sortedSet ((events'.filter (·.requirementHandleId = binding.handleId)).map (·.traceId)) =
      sortedSet ((events.filter (·.requirementHandleId = binding.handleId)).map (·.traceId)) :=
    sortedSet_congr_mem fun traceId => (hreads.map (·.traceId)).mem_iff
  unfold lineageOf
  dsimp only
  rw [htraces]
  exact frozen_perm ⟨_, _, _, _, _, _, _, _⟩ (hreads.map _)

theorem checkEvents_perm (h : events'.Perm events) : checkEvents canonicalSha256 execution selection draft events' =
      checkEvents canonicalSha256 execution selection draft events := by
  have hany : ∀ p : InputReadEvent → Bool, events'.any p = events.any p := by
    intro p
    rw [Bool.eq_iff_iff, List.any_eq_true, List.any_eq_true]
    simp only [h.mem_iff]
  simp only [checkEvents, hany, (h.map fun event => (event.requirementHandleId, event.readIndex)).nodup_iff]

theorem materialize_perm (h : events'.Perm events) :
    materializeFactorOutput execution snapshot selection draft events' materializedAt =
      materializeFactorOutput execution snapshot selection draft events materializedAt := by
  have hlineage : ∀ consumed : List RunnerInputBinding,
      consumed.mapM (lineageOf canonicalSha256 events') = consumed.mapM (lineageOf canonicalSha256 events) := fun consumed =>
    mapM_congr_mem fun binding _ => lineageOf_perm h
  simp only [materializeFactorOutput, checkEvents_perm h, consumedBindings_perm h, hlineage]

/-! ## Chains -/

structure Consumption (canonicalSha256 : Json → String) where
  inputs : Set (String × ℚ)
  outputs : Set String
  records : Set (SnapshotManifest canonicalSha256 × NormalizedRecordRef)

def recordConsumption (snapshot : SnapshotManifest canonicalSha256) (output : MaterializedFactorOutput) :
    Consumption canonicalSha256 where
  inputs :=
    {input | ∃ record ∈ snapshot.normalizedRecords, record.normalizedRecordId canonicalSha256 ∈ output.consumedInputIds ∧
      input = (record.normalizedRecordId canonicalSha256, record.confidence)}
  outputs := ∅
  records := {entry | entry.1 = snapshot ∧ entry.2 ∈ snapshot.normalizedRecords ∧
    entry.2.normalizedRecordId canonicalSha256 ∈ output.consumedInputIds}

def upstreamConsumption (upstream : MaterializedFactorOutput) (consumption : Consumption canonicalSha256)
    (output : MaterializedFactorOutput) : Consumption canonicalSha256 where
  inputs := {input | input.1 = upstream.materializedOutputId ∧ input.1 ∈ output.consumedInputIds ∧
    upstream.minimumConsumedConfidence = some input.2}
  outputs := {id | id = upstream.materializedOutputId ∧ id ∈ output.consumedInputIds}
  records := {entry | entry ∈ consumption.records ∧ upstream.materializedOutputId ∈ output.consumedInputIds}

inductive FactorChain :
    SnapshotManifest canonicalSha256 → MaterializedFactorOutput → Consumption canonicalSha256 → Prop
  | ofRecords (execution : FactorExecution) (snapshot : SnapshotManifest canonicalSha256) (selectedAt : Instant)
      (runner : Runner) (selection : RunnerInputSelection) (draft : FactorOutputDraft) (events : List InputReadEvent)
      (materializedAt : Instant) (output : MaterializedFactorOutput) :
      buildRunnerInputSelection execution snapshot selectedAt runner = .ok selection →
      materializeFactorOutput execution snapshot selection draft events materializedAt = .ok output →
      FactorChain snapshot output (recordConsumption snapshot output)
  | ofUpstream (execution : FactorExecution) (snapshot : SnapshotManifest canonicalSha256) (demand : SnapshotDemandCell)
      (batch : MaterializedFactorBatch) (upstreamSnapshot : SnapshotManifest canonicalSha256)
      (upstream : MaterializedFactorOutput) (consumption : Consumption canonicalSha256) (selectedAt : Instant)
      (runner : Runner) (selection : RunnerInputSelection) (draft : FactorOutputDraft) (events : List InputReadEvent)
      (materializedAt : Instant) (output : MaterializedFactorOutput) :
      FactorChain upstreamSnapshot upstream consumption →
      buildRunnerUpstreamInputSelection execution snapshot demand batch upstream selectedAt runner = .ok selection →
      materializeFactorOutput execution snapshot selection draft events materializedAt = .ok output →
      FactorChain snapshot output (upstreamConsumption upstream consumption output)

structure ChainSound (snapshot : SnapshotManifest canonicalSha256) (output : MaterializedFactorOutput)
    (consumption : Consumption canonicalSha256) : Prop where
  snapshotId : output.snapshotId = snapshot.snapshotId
  asOf : output.asOf = snapshot.request.asOf
  inputs : ∀ id, id ∈ output.consumedInputIds ↔ ∃ confidence, (id, confidence) ∈ consumption.inputs
  outputs : ∀ id, id ∈ output.upstreamOutputIds ↔ id ∈ consumption.outputs
  records : output.draft.availabilityStatus = .available → ∀ entry ∈ consumption.records,
    entry.1.snapshotId = output.snapshotId ∧ entry.2 ∈ entry.1.normalizedRecords ∧
      entry.2.draft.knowableAt ≤ output.asOf ∧ 0 < entry.2.confidence
  minimum : output.draft.availabilityStatus = .available → ∃ least, output.minimumConsumedConfidence = some least ∧
    IsLeast {confidence | ∃ id, (id, confidence) ∈ consumption.inputs} least ∧
      ∀ entry ∈ consumption.records, least ≤ entry.2.confidence

theorem exists_min? {l : List ℚ} (hne : l ≠ []) : ∃ least, l.min? = some least ∧ least ∈ l ∧ ∀ a ∈ l, least ≤ a := by
  obtain ⟨least, hleast⟩ := Option.isSome_iff_exists.mp (List.isSome_min?_of_ne_nil hne)
  exact ⟨least, hleast, List.min?_eq_some_iff.mp hleast⟩

theorem chainSound_ofRecords (hbuild : buildRunnerInputSelection execution snapshot selectedAt runner = .ok selection)
    (h : materializeFactorOutput execution snapshot selection draft events materializedAt = .ok output) :
    ChainSound snapshot output (recordConsumption snapshot output) := by
  obtain ⟨haccepted, hbindings⟩ := buildRunnerInputSelection_eq_ok hbuild
  obtain ⟨-, hfacts⟩ := materialize_eq_ok h
  have hconsumed : ∀ binding ∈ consumedBindings selection events, binding.upstreamBatchId = none ∧
      ∃ record ∈ snapshot.normalizedRecords, record.normalizedRecordId canonicalSha256 = binding.inputId ∧
        binding.observation.confidence = record.confidence ∧ binding.evidenceStatus = record.evidenceStatus := by
    intro binding hmem
    have hin := ((mem_consumedBindings haccepted.handles_nodup).mp hmem).1
    obtain ⟨-, -, -, id, -, record, hrecord, hid, rfl⟩ := (hbindings binding).mp hin
    exact ⟨rfl, record, hrecord, hid, rfl, rfl⟩
  have hinput : ∀ record ∈ snapshot.normalizedRecords, record.normalizedRecordId canonicalSha256 ∈ output.consumedInputIds →
        ∃ binding ∈ consumedBindings selection events, binding.observation.confidence = record.confidence ∧
          binding.evidenceStatus = record.evidenceStatus := by
    intro record hrecord hid
    obtain ⟨binding, hbinding, hsame⟩ := List.mem_map.mp ((hfacts.inputs _).mp hid)
    obtain ⟨-, other, hother, hid', hconfidence, hstatus⟩ := hconsumed binding hbinding
    have heq : other = record := by
      have hfound := snapshot.record?_eq_some.mpr ⟨hother, hid'.trans hsame⟩
      exact Option.some.inj (hfound.symm.trans (snapshot.record?_eq_some.mpr ⟨hrecord, rfl⟩))
    exact ⟨binding, hbinding, heq ▸ hconfidence, heq ▸ hstatus⟩
  refine ⟨hfacts.snapshotId, hfacts.asOf, fun id => ?_, fun id => ?_, fun havailable entry hentry => ?_, fun havailable => ?_⟩
  · constructor
    · intro hid
      obtain ⟨binding, hbinding, rfl⟩ := List.mem_map.mp ((hfacts.inputs id).mp hid)
      obtain ⟨-, record, hrecord, hsame, -, -⟩ := hconsumed binding hbinding
      exact ⟨record.confidence, record, hrecord, hsame ▸ hid, by rw [hsame]⟩
    · rintro ⟨confidence, record, -, hid, heq⟩
      rwa [(Prod.mk.inj heq).1]
  · rw [hfacts.upstream, List.mem_filter]
    refine iff_of_false ?_ (Set.notMem_empty id)
    rintro ⟨hid, hfactor⟩
    obtain ⟨binding, hbinding, rfl⟩ := List.mem_map.mp hid
    have hin := ((mem_consumedBindings haccepted.handles_nodup).mp hbinding).1
    have hcheck := (RunnerInputBinding.check_eq_ok (haccepted.checked binding hin)).2
    rw [hfactor, (hconsumed binding hbinding).1] at hcheck
    cases hcheck
  · obtain ⟨heq, hrecord, hid⟩ := hentry
    rw [hfacts.draft_eq] at havailable
    obtain ⟨binding, hbinding, -, hstatus⟩ := hinput entry.2 hrecord hid
    have hrejected := (hfacts.available havailable).2 binding hbinding
    refine ⟨by rw [heq, hfacts.snapshotId], heq ▸ hrecord, ?_, ?_⟩
    · rw [hfacts.asOf]
      exact snapshot.records_knowable entry.2 hrecord
    · by_contra hnot
      rw [hstatus, NormalizedRecordRef.evidenceStatus, if_neg hnot] at hrejected
      exact hrejected rfl
  · rw [hfacts.draft_eq] at havailable
    have hne : (consumedBindings selection events).map (·.observation.confidence) ≠ [] := by
      rw [Ne, List.map_eq_nil_iff]
      exact (hfacts.available havailable).1
    obtain ⟨least, hleast, hmem, hle⟩ := exists_min? hne
    refine ⟨least, hfacts.minimum.trans hleast, ⟨?_, ?_⟩, ?_⟩
    · obtain ⟨binding, hbinding, rfl⟩ := List.mem_map.mp hmem
      obtain ⟨-, record, hrecord, hid, hconfidence, -⟩ := hconsumed binding hbinding
      refine ⟨binding.inputId, record, hrecord, ?_, by rw [hid, hconfidence]⟩
      rw [hid, hfacts.inputs]
      exact List.mem_map_of_mem hbinding
    · rintro confidence ⟨id, record, hrecord, hid, heq⟩
      obtain ⟨binding, hbinding, hconfidence, -⟩ := hinput record hrecord hid
      rw [(Prod.mk.inj heq).2, ← hconfidence]
      exact hle _ (List.mem_map_of_mem hbinding)
    · rintro entry ⟨-, hrecord, hid⟩
      obtain ⟨binding, hbinding, hconfidence, -⟩ := hinput entry.2 hrecord hid
      rw [← hconfidence]
      exact hle _ (List.mem_map_of_mem hbinding)

variable {upstream : MaterializedFactorOutput} {hash : String}

theorem buildRunnerUpstreamInputSelection_eq_ok
    (h : buildRunnerUpstreamInputSelection execution snapshot demand batch upstream selectedAt runner = .ok selection) :
    upstream.snapshotId = execution.snapshotId ∧ upstream.asOf = snapshot.request.asOf ∧
      upstream.draft.availabilityStatus = .available ∧ AcceptedSelection canonicalSha256 selection ∧
      ∃ binding confidence, selection.bindings = [binding] ∧ binding.inputId = upstream.materializedOutputId ∧
        upstream.minimumConsumedConfidence = some confidence ∧ binding.observation.confidence = confidence ∧
        binding.upstreamBatchId.isSome := by
  unfold buildRunnerUpstreamInputSelection at h
  obtain ⟨_, hchecks, h⟩ := bind_eq_ok_iff.mp h
  have hscope : upstream.snapshotId = execution.snapshotId ∧ upstream.asOf = snapshot.request.asOf := by
    obtain ⟨-, hchecks⟩ := guard_eq_ok_iff.mp hchecks
    obtain ⟨-, hchecks⟩ := guard_eq_ok_iff.mp hchecks
    obtain ⟨-, hchecks⟩ := guard_eq_ok_iff.mp hchecks
    obtain ⟨-, hchecks⟩ := guard_eq_ok_iff.mp hchecks
    obtain ⟨hsnapshot, hchecks⟩ := guard_eq_ok_iff.mp hchecks
    exact ⟨not_not.mp (not_or.mp hsnapshot).2, not_not.mp (guard_eq_ok_iff.mp hchecks).1⟩
  split at h
  · cases h
  · next confidence hconfidence =>
    split at h
    · cases h
    · next hcomplete =>
      obtain ⟨hperm, -, -, -, haccepted⟩ := selectionFreeze_eq_ok h
      exact ⟨hscope.1, hscope.2, not_not.mp (not_or.mp hcomplete).1, haccepted, _, confidence,
        List.perm_singleton.mp hperm, rfl, hconfidence, rfl, rfl⟩

theorem chainSound_ofUpstream {upstreamSnapshot : SnapshotManifest canonicalSha256}
    {consumption : Consumption canonicalSha256} (hupstream : ChainSound upstreamSnapshot upstream consumption)
    (hbuild : buildRunnerUpstreamInputSelection execution snapshot demand batch upstream selectedAt runner = .ok selection)
    (h : materializeFactorOutput execution snapshot selection draft events materializedAt = .ok output) :
    ChainSound snapshot output (upstreamConsumption upstream consumption output) := by
  obtain ⟨hid, hasOf, havailable, haccepted, only, confidence, hbindings, hinput, hminimum, hconfidence, hbatch⟩ :=
    buildRunnerUpstreamInputSelection_eq_ok hbuild
  obtain ⟨hbinds, hfacts⟩ := materialize_eq_ok h
  have honly : ∀ binding ∈ consumedBindings selection events, binding = only := by
    intro binding hmem
    have hin := ((mem_consumedBindings haccepted.handles_nodup).mp hmem).1
    rwa [hbindings, List.mem_singleton] at hin
  have hfactor : isFactorOutput only.inputId = true := by
    have hin : only ∈ selection.bindings := by
      rw [hbindings]
      exact List.mem_singleton_self only
    rw [(RunnerInputBinding.check_eq_ok (haccepted.checked only hin)).2, hbatch]
  have hids : ∀ id, id ∈ output.consumedInputIds → id = upstream.materializedOutputId := by
    intro id hmem
    obtain ⟨binding, hbinding, rfl⟩ := List.mem_map.mp ((hfacts.inputs id).mp hmem)
    rw [honly binding hbinding, hinput]
  have hsnapshot : upstream.snapshotId = output.snapshotId := by
    rw [hid, hbinds.1, hfacts.snapshotId]
  have hcutoff : upstream.asOf = output.asOf := by rw [hasOf, hfacts.asOf]
  refine ⟨hfacts.snapshotId, hfacts.asOf, fun id => ?_, fun id => ?_, fun _ entry hentry => ?_, fun hopen => ?_⟩
  · exact ⟨fun hmem => ⟨confidence, hids id hmem, hmem, hminimum⟩, fun ⟨_, _, hmem, _⟩ => hmem⟩
  · rw [hfacts.upstream, List.mem_filter, ← hfacts.inputs]
    refine ⟨fun ⟨hmem, _⟩ => ⟨hids id hmem, hmem⟩, fun ⟨heq, hmem⟩ => ⟨hmem, ?_⟩⟩
    rw [heq, ← hinput]
    exact hfactor
  · obtain ⟨hin, hrecord, hknowable, hpositive⟩ := hupstream.records havailable entry hentry.1
    exact ⟨hin.trans hsnapshot, hrecord, hcutoff ▸ hknowable, hpositive⟩
  · rw [hfacts.draft_eq] at hopen
    have hne : (consumedBindings selection events).map (·.observation.confidence) ≠ [] := by
      rw [Ne, List.map_eq_nil_iff]
      exact (hfacts.available hopen).1
    obtain ⟨least, hleast, hmem, -⟩ := exists_min? hne
    obtain ⟨binding, hbinding, hvalue⟩ := List.mem_map.mp hmem
    have hsame : least = confidence := by rw [← hvalue, honly binding hbinding, hconfidence]
    have hread : upstream.materializedOutputId ∈ output.consumedInputIds := by
      rw [hfacts.inputs, ← hinput, ← honly binding hbinding]
      exact List.mem_map_of_mem hbinding
    refine ⟨least, hfacts.minimum.trans hleast, ⟨⟨upstream.materializedOutputId, rfl, hread, ?_⟩, ?_⟩, fun entry hentry => ?_⟩
    · rw [hminimum, hsame]
    · rintro other ⟨id, -, -, hother⟩
      rw [hminimum] at hother
      rw [hsame, Option.some.inj hother]
    · obtain ⟨least', hleast', -, hall⟩ := hupstream.minimum havailable
      cases hminimum.symm.trans hleast'
      rw [hsame]
      exact hall entry hentry.1

theorem FactorChain.sound {consumption : Consumption canonicalSha256} (h : FactorChain snapshot output consumption) :
    ChainSound snapshot output consumption := by
  induction h with
  | ofRecords execution snapshot selectedAt runner selection draft events materializedAt output hbuild hmaterialize =>
    exact chainSound_ofRecords hbuild hmaterialize
  | ofUpstream execution snapshot demand batch upstreamSnapshot upstream consumption selectedAt runner selection draft
      events materializedAt output _ hbuild hmaterialize ih =>
    exact chainSound_ofUpstream ih hbuild hmaterialize

/-- Every available output of a chain is as of its snapshot's cutoff; its records are of that snapshot, knowable, and of a
positive confidence; it keeps the least confidence; and the order of the read events does not matter. -/
theorem chain_is_point_in_time_safe (canonicalSha256 : Json → String) (snapshot : SnapshotManifest canonicalSha256)
    (output : MaterializedFactorOutput) (consumption : Consumption canonicalSha256)
    (h : FactorChain snapshot output consumption) (havailable : output.draft.availabilityStatus = .available) :
    output.asOf = snapshot.request.asOf ∧
    (∀ entry ∈ consumption.records, entry.1.snapshotId = output.snapshotId ∧ entry.2 ∈ entry.1.normalizedRecords ∧
      entry.2.draft.knowableAt ≤ snapshot.request.asOf ∧ 0 < entry.2.confidence) ∧
    (∃ least, output.minimumConsumedConfidence = some least ∧
      IsLeast {confidence | ∃ id, (id, confidence) ∈ consumption.inputs} least ∧
        ∀ entry ∈ consumption.records, least ≤ entry.2.confidence) ∧
    (∀ id, id ∈ output.consumedInputIds ↔ ∃ confidence, (id, confidence) ∈ consumption.inputs) ∧
    (∀ id, id ∈ output.upstreamOutputIds ↔ id ∈ consumption.outputs) ∧
    ∀ (execution : FactorExecution) (selection : RunnerInputSelection) (draft : FactorOutputDraft)
      (events events' : List InputReadEvent) (materializedAt : Instant), events'.Perm events →
      materializeFactorOutput execution snapshot selection draft events' materializedAt =
        materializeFactorOutput execution snapshot selection draft events materializedAt := by
  have hsound := h.sound
  refine ⟨hsound.asOf, ?_, hsound.minimum havailable, hsound.inputs, hsound.outputs,
    fun execution selection draft events events' materializedAt hperm => materialize_perm hperm⟩
  rw [← hsound.asOf]
  exact hsound.records havailable

/-! ### Selections of one record -/

theorem isFactorOutput_record (record : NormalizedRecordRef) :
    isFactorOutput (record.normalizedRecordId canonicalSha256) = false := by
  have hfactor : "factor-output:".toList = 'f' :: "actor-output:".toList := by decide +kernel
  have hrecord : "normalized-record:".toList = 'n' :: "ormalized-record:".toList := by decide +kernel
  unfold isFactorOutput NormalizedRecordRef.normalizedRecordId
  rw [String.toList_append, hfactor, hrecord, List.cons_append, List.isPrefixOf]
  rfl

theorem check_recordBinding {record : NormalizedRecordRef} (hinput : binding.inputId = record.normalizedRecordId canonicalSha256)
    (hid : isContentId "normalized-record" binding.inputId = true) (hbatch : binding.upstreamBatchId = none)
    (hhandle : isContentId "requirement-handle" binding.handleId = true) (hobservation : binding.observation.check = .ok ())
    (hsubject : binding.observation.subject = binding.demand.subject) : binding.check = .ok () := by
  have hfactor : isFactorOutput binding.inputId = false := by
    rw [hinput]
    exact isFactorOutput_record record
  simp [RunnerInputBinding.check, hhandle, hid, hbatch, hobservation, hsubject, hfactor, ok_bind]

theorem freeze_of_single (hbindings : selection.bindings = [binding]) (hcheck : binding.check = .ok ())
    (hfields : selection.checkFields = .ok ()) (hminted : selection.checkHandle canonicalSha256 binding = .ok ())
    (hcontent : canonicalSha256 (selection.content canonicalSha256) = hash)
    (hhash : selection.contentSha256 ∈ ["", hash])
    (hid : selection.selectionId ∈ ["", "runner-selection" ++ ":" ++ hash]) :
    selection.freezeAndIdentify canonicalSha256 =
      .ok { selection with selectionId := "runner-selection" ++ ":" ++ hash, contentSha256 := hash } := by
  obtain ⟨selectionId, contentSha256, factorExecutionId, snapshotId, bindings, selectedAt, runner⟩ := selection
  dsimp only at hbindings hhash hid
  subst hbindings
  have hsorted : sortedBy RunnerInputBinding.handleId [binding] = [binding] := rfl
  have hchecked : [binding].forM RunnerInputBinding.check = .ok () := forM_eq_ok_iff.mpr (by simpa using hcheck)
  have hhandles : [binding].forM (RunnerInputSelection.checkHandle canonicalSha256
      ⟨selectionId, contentSha256, factorExecutionId, snapshotId, [binding], selectedAt, runner⟩) = .ok () :=
    forM_eq_ok_iff.mpr (by simpa using hminted)
  rw [RunnerInputSelection.freezeAndIdentify, hchecked, ok_bind, hfields, ok_bind]
  rw [hsorted, if_neg (by simp), if_neg (by simp), hhandles, ok_bind]
  dsimp only
  rw [identify_of hcontent hhash hid, ok_bind]
  rfl

/-! ### One record -/

def repeatedSha256 (_ : Json) : String := digestOf 'f'

def priceSnapshotCell : SnapshotDemandCell where
  requirementId := "data-requirement:" ++ digestOf '1'
  captureRequirementId := "capture-requirement:" ++ digestOf '2'
  semanticTypeId := "semantic.price"
  domain := .marketPrices
  subject := listingSubject
  partitionKey := "2026Q2"
  semanticTypeVersion := "v1"
  level := .required
  requirementId_valid := priceDemand.requirementId_valid
  captureRequirementId_valid := priceDemand.captureRequirementId_valid
  semanticTypeId_valid := priceDemand.semanticTypeId_valid
  partitionKey_ne := priceDemand.partitionKey_ne
  semanticTypeVersion_valid := isStableId_v1

def priceRecord : NormalizedRecordRef where
  draft :=
    { semanticTypeId := "semantic.price", semanticTypeVersion := "v1", payloadModelKey := "price-model"
      payloadSha256 := digestOf '3', subject := listingSubject, validFrom := 1, validTo := 9, knowableAt := 19
      others := [], semanticTypeId_valid := priceDemand.semanticTypeId_valid, semanticTypeVersion_valid := isStableId_v1
      payloadModelKey_valid := by decide +kernel, payloadSha256_valid := isSha256_digestOf rfl, period := by decide }
  sourceRegistryEntryId := "source-registry-entry:" ++ digestOf '4'
  sourceRegistryEntrySha256 := digestOf '4'
  recordedAt := 20
  confidence := 4 / 5
  others := []
  confidence_nonneg := by decide +kernel
  confidence_le := by decide +kernel
  recorded := by decide

def priceRegistry : RegistrySnapshot where
  registrySnapshotId := "registry-snapshot:" ++ digestOf '8'
  contentSha256 := digestOf '8'
  sourceRegistrySnapshotId := "source-registry:" ++ digestOf '8'
  sourceRegistrySha256 := digestOf '8'
  semanticTypeRegistrySnapshotId := "semantic-type-registry:" ++ digestOf '8'
  semanticTypeRegistrySha256 := digestOf '8'
  semanticTypes := [("semantic.price", "v1")]
  sources := [("source-registry-entry:" ++ digestOf '4', digestOf '4')]
  dump := .empty

def samplePolicyBinding (role : PolicyRole) : PolicyBinding :=
  ⟨role, "policy-1", "v1", digestOf '6', by decide +kernel, isStableId_v1, isSha256_digestOf rfl⟩

def priceRequest : SnapshotRequest where
  subjects := [listingSubject]
  universeRef := none
  asOf := 20
  validOn := 5
  registryIdentities := priceRegistry.identities
  policyBindings := [.applicability, .corporateAction, .extraction, .fusion, .fx, .identity, .marketCalendar, .metric,
    .price].map samplePolicyBinding
  demandCells := [priceSnapshotCell]
  oneScope := by decide +kernel
  subjects_sorted := List.pairwise_singleton _ _
  policies_sorted := by decide +kernel
  policies_complete := by decide +kernel
  membership_policy := by decide
  cells_ne := by decide +kernel
  cells_sorted := List.pairwise_singleton _ _
  cells_inside := fun _ => by decide +kernel

def priceSnapshot : SnapshotManifest repeatedSha256 where
  request := priceRequest
  registrySnapshot := priceRegistry
  resolvedSubjects := [listingSubject]
  universeManifest := none
  universeMemberships := []
  normalizedRecords := [priceRecord]
  selections := [⟨priceSnapshotCell, [priceRecord.normalizedRecordId repeatedSha256], [], List.pairwise_singleton _ _,
    List.Pairwise.nil, by decide +kernel, by decide +kernel⟩]
  resolvedAt := 21
  resolverId := "resolver-1"
  resolverVersion := "v1"
  resolverImplementationSha256 := digestOf '7'
  resolved := by decide
  registry_bound := rfl
  subjects_ne := by decide +kernel
  subjects_sorted := List.pairwise_singleton _ _
  subjects_explicit := fun _ => rfl
  memberships_sorted := List.Pairwise.nil
  universe_evidence := ⟨rfl, rfl⟩
  records_ne := by decide +kernel
  records_sorted := List.pairwise_singleton _ _
  records_typed := by decide +kernel
  records_knowable := by decide +kernel
  records_valid := by decide +kernel
  records_sourced := by decide +kernel
  selections_ne := by decide +kernel
  selections_complete := rfl
  selections_match := by decide +kernel
  records_selected := by decide +kernel
  resolverId_valid := by decide +kernel
  resolverVersion_valid := isStableId_v1
  resolverImplementationSha256_valid := isSha256_digestOf rfl

theorem priceSnapshot_valid : isContentId "snapshot" priceSnapshot.snapshotId = true :=
  show isContentId "snapshot" ("snapshot:" ++ digestOf 'f') = true from isContentId_digestOf rfl rfl

def priceExecution : FactorExecution where
  template :=
    { factorKind := .base, dataRequirementIds := ["data-requirement:" ++ digestOf '1'], dependencies := []
      others := [], requirements_sorted := List.pairwise_singleton _ _, requirements_ne := by decide +kernel
      requirements_valid := by decide +kernel, dependencies_sorted := List.Pairwise.nil, dependencies_kind := by decide }
  snapshotId := priceSnapshot.snapshotId
  snapshotSha256 := priceSnapshot.contentSha256
  orderedSubjects := [listingSubject]
  upstreamBatchIds := []
  startedAt := 22
  snapshotId_valid := priceSnapshot_valid
  snapshotSha256_valid := show isSha256 (digestOf 'f') = true from isSha256_digestOf rfl
  subjects_ne := by decide +kernel
  subjects_nodup := List.nodup_singleton _
  batches_sorted := List.Pairwise.nil
  batches_kind := by decide

def sampleRunner : Runner := ⟨"runner-1", "v1", digestOf '9'⟩

def acceptedOr (result : Except String RunnerInputSelection) : RunnerInputSelection :=
  result.toOption.getD ⟨"", "", "", "", [], 0, sampleRunner⟩

def priceSelection : RunnerInputSelection := acceptedOr (buildRunnerInputSelection priceExecution priceSnapshot 23 sampleRunner)

def priceHandle : String :=
  mintRequirementHandle repeatedSha256 (priceExecution.factorExecutionId repeatedSha256) priceSnapshot.snapshotId
    priceSnapshotCell (priceRecord.normalizedRecordId repeatedSha256) sampleRunner

def builtBinding : RunnerInputBinding :=
  ⟨priceHandle, priceSnapshotCell, priceRecord.normalizedRecordId repeatedSha256, priceRecord.observation 20, .verified, none⟩

def selectionOf (binding : RunnerInputBinding) (selectionId contentSha256 : String) : RunnerInputSelection :=
  ⟨selectionId, contentSha256, priceExecution.factorExecutionId repeatedSha256, priceSnapshot.snapshotId, [binding], 23,
    sampleRunner⟩

def sampleSelectionId : String := "runner-selection" ++ ":" ++ digestOf 'f'

theorem priceHandle_valid : isContentId "requirement-handle" priceHandle = true := isContentId_digestOf rfl rfl

theorem priceExecution_valid : isContentId "factor-execution" (priceExecution.factorExecutionId repeatedSha256) = true :=
  isContentId_digestOf rfl rfl

theorem observation_check {observation : ProvenanceNeutralInput}
    (h : observation = { priceRecord.observation 20 with confidence := observation.confidence })
    (hconfidence : 0 ≤ observation.confidence ∧ observation.confidence ≤ 1) : observation.check = .ok () := by
  have hkey : isStableId "price-model" = true := by decide +kernel
  have hsha : isSha256 (digestOf '3') = true := isSha256_digestOf rfl
  have hbounds : ¬ (observation.confidence < 0 ∨ 1 < observation.confidence) :=
    not_or.mpr ⟨not_lt.mpr hconfidence.1, not_lt.mpr hconfidence.2⟩
  have hperiod : ¬ ((9 : ℤ) < 1) := by decide
  rw [h]
  change ProvenanceNeutralInput.check ⟨_, "price-model", digestOf '3', (1 : ℤ), (9 : ℤ), observation.confidence, _⟩ = _
  rw [ProvenanceNeutralInput.check, hkey, hsha, if_neg (by decide), if_neg (by decide), if_neg hbounds]
  exact if_neg hperiod

theorem builtBinding_check {confidence : ℚ} (h : 0 ≤ confidence ∧ confidence ≤ 1) : RunnerInputBinding.check
    { builtBinding with observation := { priceRecord.observation 20 with confidence := confidence } } = .ok () :=
  check_recordBinding (show _ = priceRecord.normalizedRecordId repeatedSha256 from rfl) (isContentId_digestOf rfl rfl) rfl
    priceHandle_valid (observation_check rfl h) rfl

theorem checkFields_selectionOf {selectionId : String} : (selectionOf binding selectionId hash).checkFields = .ok () := by
  have hrunner : isStableId sampleRunner.runnerId ∧ isStableId sampleRunner.runnerVersion := by decide +kernel
  have hsha : isSha256 sampleRunner.runnerImplementationSha256 = true := isSha256_digestOf rfl
  simp [RunnerInputSelection.checkFields, selectionOf, priceExecution_valid, priceSnapshot_valid, hrunner, hsha]

theorem freeze_selectionOf {selectionId : String} (hcheck : binding.check = .ok ())
    (hminted : (selectionOf binding selectionId hash).checkHandle repeatedSha256 binding = .ok ())
    (hid : selectionId ∈ ["", sampleSelectionId]) (hhash : hash ∈ ["", digestOf 'f']) :
    (selectionOf binding selectionId hash).freezeAndIdentify repeatedSha256 =
      .ok (selectionOf binding sampleSelectionId (digestOf 'f')) :=
  freeze_of_single rfl hcheck checkFields_selectionOf hminted rfl hhash hid

theorem price_is_selected : buildRunnerInputSelection priceExecution priceSnapshot 23 sampleRunner =
    .ok (selectionOf builtBinding sampleSelectionId (digestOf 'f')) := by
  have hbindings : recordBindings priceExecution priceSnapshot sampleRunner = .ok [builtBinding] := by decide +kernel
  have hmissing : priceExecution.template.dataRequirementIds.filter
      (· ∉ priceSnapshot.selections.map (·.demand.requirementId)) = [] := by decide +kernel
  rw [buildRunnerInputSelection, if_neg (not_not.mpr ⟨rfl, rfl⟩)]
  dsimp only
  rw [hmissing, if_neg (by simp), hbindings, ok_bind]
  exact freeze_selectionOf (builtBinding_check (by decide +kernel)) (if_pos rfl) List.mem_cons_self List.mem_cons_self

theorem priceSelection_eq : priceSelection = selectionOf builtBinding sampleSelectionId (digestOf 'f') := by
  rw [priceSelection, price_is_selected]
  rfl

def readUnder (selectionId : String) (h : isContentId "runner-selection" selectionId = true) : InputReadEvent where
  factorExecutionId := priceExecution.factorExecutionId repeatedSha256
  selectionId := selectionId
  requirementHandleId := priceHandle
  outputKey := "price"
  readIndex := 0
  traceId := "trace-1"
  occurredAt := 24
  factorExecutionId_valid := priceExecution_valid
  selectionId_valid := h
  requirementHandleId_valid := priceHandle_valid
  outputKey_valid := by decide +kernel
  traceId_valid := by decide +kernel

theorem sampleSelectionId_valid : isContentId "runner-selection" sampleSelectionId = true := isContentId_digestOf rfl rfl

def priceRead : InputReadEvent where
  factorExecutionId := priceExecution.factorExecutionId repeatedSha256
  selectionId := priceSelection.selectionId
  requirementHandleId := priceHandle
  outputKey := "price"
  readIndex := 0
  traceId := "trace-1"
  occurredAt := 24
  factorExecutionId_valid := priceExecution_valid
  selectionId_valid := by
    rw [priceSelection_eq]
    exact sampleSelectionId_valid
  requirementHandleId_valid := priceHandle_valid
  outputKey_valid := by decide +kernel
  traceId_valid := by decide +kernel

theorem priceRead_eq : priceRead = readUnder sampleSelectionId sampleSelectionId_valid := by
  have hselection : priceSelection.selectionId = sampleSelectionId := by
    rw [priceSelection_eq]
    rfl
  simp only [priceRead, readUnder, hselection]

def priceDraft : FactorOutputDraft where
  outputKey := "price"
  subject := listingSubject
  outputModelKey := "price-output"
  outputPayloadSha256 := digestOf 'a'
  availabilityStatus := .available
  reasonCodes := []
  others := []
  outputKey_valid := by decide +kernel
  outputModelKey_valid := by decide +kernel
  outputPayloadSha256_valid := isSha256_digestOf rfl
  reasons_sorted := List.Pairwise.nil
  reasons_status := by decide

theorem price_is_materialized :
    (materializeFactorOutput priceExecution priceSnapshot priceSelection priceDraft [priceRead] 25).toOption.any
      fun output => output.minimumConsumedConfidence = some (4 / 5) ∧ output.draft.availabilityStatus = .available := by
  rw [priceRead_eq, priceSelection_eq]
  decide +kernel

/-- An output that read the price keeps its confidence. -/
theorem price_output_keeps_its_confidence : ∃ output consumption, FactorChain priceSnapshot output consumption ∧
      output.minimumConsumedConfidence = some (4 / 5) ∧
      ∀ entry ∈ consumption.records, entry.2.draft.knowableAt ≤ 20 ∧ 4 / 5 ≤ entry.2.confidence := by
  have hbuild : buildRunnerInputSelection priceExecution priceSnapshot 23 sampleRunner = .ok priceSelection := by
    rw [priceSelection_eq]
    exact price_is_selected
  obtain ⟨output, houtput, hfacts⟩ := exists_ok_of_any price_is_materialized
  obtain ⟨hminimum, havailable⟩ := of_decide_eq_true hfacts
  have hchain := FactorChain.ofRecords priceExecution priceSnapshot 23 sampleRunner priceSelection priceDraft [priceRead] 25
    output hbuild houtput
  obtain ⟨-, hrecords, ⟨least, hleast, -, hall⟩, -⟩ := chain_is_point_in_time_safe repeatedSha256 priceSnapshot output _
    hchain havailable
  refine ⟨output, _, hchain, hminimum, fun entry hentry => ⟨(hrecords entry hentry).2.2.1, ?_⟩⟩
  cases hminimum.symm.trans hleast
  exact hall entry hentry

end TrueAlpha.Contracts
