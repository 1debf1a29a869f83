import TrueAlpha.Contracts.FactorChain

/-!
# Selections that the builder did not make

The handle of a binding hashes its execution, snapshot, demand, input and runner, and nothing compares the rest with the
snapshot.  So an output consumes what was selected exactly when its bindings are those of the builder.
-/

namespace TrueAlpha.Contracts

variable {canonicalSha256 : Json → String} {execution : FactorExecution} {snapshot : SnapshotManifest canonicalSha256}
  {supplied selection : RunnerInputSelection} {draft : FactorOutputDraft} {events : List InputReadEvent}
  {materializedAt : Instant} {output : MaterializedFactorOutput} {binding : RunnerInputBinding}

def OfSnapshot (snapshot : SnapshotManifest canonicalSha256) (binding : RunnerInputBinding) : Prop :=
  ∃ cell ∈ snapshot.selections, cell.demand = binding.demand ∧ binding.inputId ∈ cell.normalizedRecordIds ∧
    ∃ record ∈ snapshot.normalizedRecords, record.normalizedRecordId canonicalSha256 = binding.inputId ∧
      binding.observation.subject = record.draft.subject ∧ binding.observation.payloadSha256 = record.draft.payloadSha256 ∧
      binding.observation.validFrom = record.draft.validFrom ∧ binding.observation.validTo = record.draft.validTo ∧
      binding.observation.confidence = record.confidence ∧ binding.evidenceStatus = record.evidenceStatus

def ConsumesSelected (snapshot : SnapshotManifest canonicalSha256) (selection : RunnerInputSelection)
    (events : List InputReadEvent) : Prop :=
  ∀ binding ∈ consumedBindings selection events, isFactorOutput binding.inputId = false → OfSnapshot snapshot binding

def RunnerInputBinding.withModelKey (binding : RunnerInputBinding) (payloadModelKey : String) : RunnerInputBinding :=
  { binding with observation := { binding.observation with payloadModelKey := payloadModelKey } }

/-- Payload model keys apart, the read bindings of records are among those that the builder mints. -/
def ReadsBuilt (execution : FactorExecution) (snapshot : SnapshotManifest canonicalSha256)
    (selection : RunnerInputSelection) (events : List InputReadEvent) : Prop :=
  ∀ binding ∈ selection.bindings, binding.handleId ∈ events.map (·.requirementHandleId) → isFactorOutput binding.inputId = false →
      ∃ payloadModelKey, BindsRecord execution snapshot selection.runner (binding.withModelKey payloadModelKey)

theorem consumed_of_materialize
    (h : materializeFactorOutput execution snapshot selection draft events materializedAt = .ok output) :
    selection.factorExecutionId = execution.factorExecutionId canonicalSha256 ∧ selection.snapshotId = snapshot.snapshotId ∧
      ∀ binding ∈ consumedBindings selection events, binding.observation.asOf = snapshot.request.asOf ∧
        binding.demand.requirementId ∈ execution.template.dataRequirementIds := by
  unfold materializeFactorOutput at h
  split at h
  · cases h
  · next hbinds =>
    split at h
    · cases h
    · next hexecution =>
      split at h
      · cases h
      · next hsnapshot =>
        obtain ⟨_, -, h⟩ := bind_eq_ok_iff.mp h
        obtain ⟨_, hconsumed, -⟩ := bind_eq_ok_iff.mp h
        refine ⟨not_not.mp hexecution, (not_not.mp hsnapshot).trans (not_not.mp hbinds).1, fun binding hbinding => ?_⟩
        unfold checkConsumed at hconsumed
        split at hconsumed
        · cases hconsumed
        · next hasOf =>
          dsimp only at hconsumed
          split at hconsumed
          · cases hconsumed
          · next hdeclared =>
            constructor
            · by_contra hne
              exact hasOf (List.any_eq_true.mpr ⟨binding, hbinding, decide_eq_true hne⟩)
            · by_contra hnot
              have hmem : binding.demand.requirementId ∈ sortedSet
                  (((consumedBindings selection events).map (·.demand.requirementId)).filter
                    (· ∉ execution.template.dataRequirementIds)) := by
                rw [mem_sortedSet, List.mem_filter, decide_eq_true_eq]
                exact ⟨List.mem_map_of_mem hbinding, hnot⟩
              rw [not_not.mp hdeclared] at hmem
              cases hmem

theorem ofSnapshot_iff (hchecked : binding.check = .ok ()) (hfactor : isFactorOutput binding.inputId = false)
    (hhandle : binding.handleId = mintRequirementHandle canonicalSha256 (execution.factorExecutionId canonicalSha256)
      snapshot.snapshotId binding.demand binding.inputId selection.runner)
    (hasOf : binding.observation.asOf = snapshot.request.asOf)
    (hdeclared : binding.demand.requirementId ∈ execution.template.dataRequirementIds) :
    OfSnapshot snapshot binding ↔
      ∃ payloadModelKey, BindsRecord execution snapshot selection.runner (binding.withModelKey payloadModelKey) := by
  have hbatch : binding.upstreamBatchId = none := by
    have hsome := (RunnerInputBinding.check_eq_ok hchecked).2
    rw [hfactor] at hsome
    exact Option.not_isSome_iff_eq_none.mp (by rw [← hsome]; decide)
  constructor
  · rintro ⟨cell, hcell, hdemand, hid, record, hrecord, hsame, hsubject, hpayload, hfrom, hto, hconfidence, hstatus⟩
    refine ⟨record.draft.payloadModelKey, cell, hcell, hdemand ▸ hdeclared, binding.inputId, hid, record, hrecord, hsame, ?_⟩
    obtain ⟨handleId, demand, inputId, observation, status, batchId⟩ := binding
    obtain ⟨subject, modelKey, payload, validFrom, validTo, confidence, asOf⟩ := observation
    dsimp only at hbatch hhandle hdemand hsubject hpayload hfrom hto hconfidence hstatus hasOf
    subst hbatch hdemand hhandle hsubject hpayload hfrom hto hconfidence hstatus hasOf
    rfl
  · rintro ⟨payloadModelKey, cell, hcell, -, id, hid, record, hrecord, hsame, heq⟩
    obtain ⟨handleId, demand, inputId, observation, status, batchId⟩ := binding
    obtain ⟨subject, modelKey, payload, validFrom, validTo, confidence, asOf⟩ := observation
    obtain ⟨-, rfl, rfl, hobservation, rfl, -⟩ := RunnerInputBinding.mk.inj heq
    obtain ⟨rfl, -, rfl, rfl, rfl, rfl, -⟩ := ProvenanceNeutralInput.mk.inj hobservation
    exact ⟨cell, hcell, rfl, hid, record, hrecord, hsame, rfl, rfl, rfl, rfl, rfl, rfl⟩

/-- An output consumes what the snapshot selected exactly when its read bindings of records are the builder's; then the least
confidence is not above any record's. -/
theorem consumes_selected_iff (canonicalSha256 : Json → String) (execution : FactorExecution)
    (snapshot : SnapshotManifest canonicalSha256) (supplied selection : RunnerInputSelection) (draft : FactorOutputDraft)
    (events : List InputReadEvent) (materializedAt : Instant) (output : MaterializedFactorOutput)
    (hselection : supplied.freezeAndIdentify canonicalSha256 = .ok selection)
    (h : materializeFactorOutput execution snapshot selection draft events materializedAt = .ok output) :
    (ConsumesSelected snapshot selection events ↔ ReadsBuilt execution snapshot selection events) ∧
      (ReadsBuilt execution snapshot selection events → ∀ record ∈ snapshot.normalizedRecords,
        record.normalizedRecordId canonicalSha256 ∈ output.consumedInputIds →
          ∀ least ∈ output.minimumConsumedConfidence, least ≤ record.confidence) := by
  obtain ⟨-, -, -, -, haccepted⟩ := selectionFreeze_eq_ok hselection
  obtain ⟨hexecution, hsnapshot, hconsumed⟩ := consumed_of_materialize h
  have hiff : ConsumesSelected snapshot selection events ↔ ReadsBuilt execution snapshot selection events := by
    have hone : ∀ binding ∈ consumedBindings selection events, isFactorOutput binding.inputId = false →
        (OfSnapshot snapshot binding ↔
          ∃ payloadModelKey, BindsRecord execution snapshot selection.runner (binding.withModelKey payloadModelKey)) := by
      intro binding hbinding hfactor
      have hin := ((mem_consumedBindings haccepted.handles_nodup).mp hbinding).1
      have hhandle := haccepted.minted binding hin
      rw [hexecution, hsnapshot] at hhandle
      exact ofSnapshot_iff (haccepted.checked binding hin) hfactor hhandle (hconsumed binding hbinding).1
        (hconsumed binding hbinding).2
    constructor
    · intro hselected binding hin hread hfactor
      have hbinding := (mem_consumedBindings haccepted.handles_nodup).mpr ⟨hin, hread⟩
      exact (hone binding hbinding hfactor).mp (hselected binding hbinding hfactor)
    · intro hbuilt binding hbinding hfactor
      obtain ⟨hin, hread⟩ := (mem_consumedBindings haccepted.handles_nodup).mp hbinding
      exact (hone binding hbinding hfactor).mpr (hbuilt binding hin hread hfactor)
  refine ⟨hiff, fun hbuilt record hrecord hid least hleast => ?_⟩
  obtain ⟨-, hfacts⟩ := materialize_eq_ok h
  obtain ⟨binding, hbinding, hsame⟩ := List.mem_map.mp ((hfacts.inputs _).mp hid)
  obtain ⟨-, -, -, -, other, hother, hid', -, -, -, -, hconfidence, -⟩ :=
    hiff.mpr hbuilt binding hbinding (by rw [hsame]; exact isFactorOutput_record record)
  have heq : other = record := by
    have hfound := snapshot.record?_eq_some.mpr ⟨hother, hid'.trans hsame⟩
    exact Option.some.inj (hfound.symm.trans (snapshot.record?_eq_some.mpr ⟨hrecord, rfl⟩))
  rw [hfacts.minimum] at hleast
  rw [← heq, ← hconfidence]
  exact (List.min?_eq_some_iff.mp hleast).2 _ (List.mem_map_of_mem hbinding)

/-! ### A selection made by hand -/

def forgedBinding : RunnerInputBinding := ⟨priceHandle, priceSnapshotCell, priceRecord.normalizedRecordId repeatedSha256,
    { priceRecord.observation 20 with confidence := 1 }, .verified, none⟩

def forgedSelection : RunnerInputSelection :=
  ⟨"", "", priceExecution.factorExecutionId repeatedSha256, priceSnapshot.snapshotId, [forgedBinding], 23, sampleRunner⟩

/-- An accepted selection raises the confidence of a record. -/
theorem forged_confidence_is_consumed :
    ¬ ∀ (canonicalSha256 : Json → String) (execution : FactorExecution) (snapshot : SnapshotManifest canonicalSha256)
      (supplied selection : RunnerInputSelection) (draft : FactorOutputDraft) (events : List InputReadEvent)
      (materializedAt : Instant) (output : MaterializedFactorOutput),
      supplied.freezeAndIdentify canonicalSha256 = .ok selection →
      materializeFactorOutput execution snapshot selection draft events materializedAt = .ok output →
      ConsumesSelected snapshot selection events := by
  intro hall
  let selection := selectionOf forgedBinding sampleSelectionId (digestOf 'f')
  have hselection : forgedSelection.freezeAndIdentify repeatedSha256 = .ok selection :=
    freeze_selectionOf (builtBinding_check (by decide +kernel)) (if_pos rfl) List.mem_cons_self List.mem_cons_self
  have hrun : (materializeFactorOutput priceExecution priceSnapshot selection priceDraft [priceRead] 25).toOption.any
      fun output => output.minimumConsumedConfidence = some 1 ∧ consumedBindings selection [priceRead] = [forgedBinding] := by
    rw [priceRead_eq]
    decide +kernel
  have hrecord : isFactorOutput forgedBinding.inputId = false := isFactorOutput_record priceRecord
  obtain ⟨output, houtput, hfacts⟩ := exists_ok_of_any hrun
  obtain ⟨-, hconsumed⟩ := of_decide_eq_true hfacts
  have hbound := hall repeatedSha256 priceExecution priceSnapshot forgedSelection selection priceDraft [priceRead] 25 output
    hselection houtput forgedBinding (by rw [hconsumed]; exact List.mem_singleton_self _) hrecord
  obtain ⟨-, -, -, -, record, hmem, -, -, -, -, -, hconfidence, -⟩ := hbound
  rw [List.mem_singleton.mp hmem] at hconfidence
  have hne : forgedBinding.observation.confidence ≠ priceRecord.confidence := by decide +kernel
  exact hne hconfidence

/-- The builder's own selection of the price. -/
theorem built_selection_is_consumed : ∃ selection output, priceSelection.freezeAndIdentify repeatedSha256 = .ok selection ∧
      materializeFactorOutput priceExecution priceSnapshot selection priceDraft [priceRead] 25 = .ok output ∧
      (ConsumesSelected priceSnapshot selection [priceRead] ↔ ReadsBuilt priceExecution priceSnapshot selection [priceRead]) := by
  have hselection : priceSelection.freezeAndIdentify repeatedSha256 = .ok priceSelection := by
    rw [priceSelection_eq]
    exact freeze_selectionOf (builtBinding_check (by decide +kernel)) (if_pos rfl) (List.mem_cons_of_mem _ List.mem_cons_self)
      (List.mem_cons_of_mem _ List.mem_cons_self)
  obtain ⟨output, houtput, -⟩ := exists_ok_of_any price_is_materialized
  exact ⟨priceSelection, output, hselection, houtput, (consumes_selected_iff repeatedSha256 priceExecution priceSnapshot
    priceSelection priceSelection priceDraft [priceRead] 25 output hselection houtput).1⟩

end TrueAlpha.Contracts
