import TrueAlpha.Datahub.CaptureRuns
import TrueAlpha.Datahub.ObservationSelection

/-!
# What the freeze finds at a reused cell

A reused cell keeps the one observation that the freeze selects (`selected_of_satisfied`).  The anchor is chosen by its listing
alone, so the validation passes exactly when it carries the plan's issuer and instrument (`freezable_iff_accepted`).
-/

namespace TrueAlpha.Datahub

open Contracts

theorem filter_eq_singleton {α : Type} {l : List α} {p : α → Bool} {a : α} (hnodup : l.Nodup) (hmem : a ∈ l)
    (hp : p a = true) (honly : ∀ b ∈ l, p b = true → b = a) : l.filter p = [a] := by
  refine List.perm_singleton.mp ((List.perm_ext_iff_of_nodup (hnodup.filter p) (List.nodup_singleton a)).mpr fun b => ?_)
  rw [List.mem_filter, List.mem_singleton]
  constructor
  · exact fun h => honly b h.1 h.2
  · rintro rfl
    exact ⟨hmem, hp⟩

variable {observation : NormalizedObservation}

section Selection

variable {ids : ContentIds} {plans : List PlannedRun} {tables tables' : CaptureTables} {plan : PlannedRun}
  {settings : ReuseSettings} {cell fetch : PlannedCell} {coordinates : Coordinates} {anchor : AnchorRow}
  {candidate : ReuseCandidate} {result : ListObligationResult} {attempt : FetchAttemptResult}

theorem mem_results_of_resultOf {obligationId : String} (h : tables.resultOf obligationId = some result) :
    (obligationId, result) ∈ tables.results := by
  obtain ⟨before, after, heq, -⟩ := List.lookup_eq_some_iff.mp h
  rw [heq]
  exact List.mem_append_right _ List.mem_cons_self

theorem nodup_boundTo (hkeyed : tables.Keyed) (obligationId : String) : (tables.boundTo obligationId).Nodup := by
  refine List.Nodup.map_on ?_ (hkeyed.usages.filter _)
  rintro ⟨owner, used⟩ hmem ⟨owner', used'⟩ hmem' heq
  have howner := of_decide_eq_true (List.mem_filter.mp hmem).2
  have howner' := of_decide_eq_true (List.mem_filter.mp hmem').2
  exact Prod.ext (howner.trans howner'.symm) heq

theorem selected_of_satisfied (hkeyed : tables.Keyed) (h : Satisfied tables cell candidate result attempt) (hfetched : Fetched tables fetch observation)
    (hvintage : candidate.vintage = observation.sourceVintageId) (hbound : observation ∈ candidate.observations)
    (hanchor : CaptureTables.IsAnchorObservation settings plan cell coordinates observation) :
    tables.selected plan.cutoff cell = [observation] := by
  obtain ⟨hsubject, htype, hknowable, -, hvalid, -⟩ := hanchor
  have hattemptVintage : attemptVintage attempt = some observation.sourceVintageId := by
    rw [attemptVintage, h.source, Option.none_or, h.reused, hvintage]
  have hresults : (tables.results.filter fun terminal => terminal.1 = cell.obligation.obligationId ∧
      terminal.2.terminalState ∈ resolvedStates) = [(cell.obligation.obligationId, result)] := by
    have hmem := mem_results_of_resultOf h.result_eq
    refine filter_eq_singleton hkeyed.results.of_map hmem (by simp [h.state_eq, resolvedStates]) fun entry hentry hp => ?_
    exact List.inj_on_of_nodup_map hkeyed.results hentry hmem (of_decide_eq_true hp).1
  have hattempts : (tables.attemptResults.filter fun stored => some stored.attemptId = result.finalAttemptId) = [attempt] := by
    refine filter_eq_singleton hkeyed.attempts.of_map h.attempt_mem (by simp [h.final]) fun stored hstored hp => ?_
    have hid := of_decide_eq_true hp
    rw [h.final] at hid
    exact List.inj_on_of_nodup_map hkeyed.attempts hstored h.attempt_mem (Option.some_inj.mp hid)
  have hbounds : ((tables.boundTo cell.obligation.obligationId).filter
      (CaptureTables.IsSelected plan.cutoff cell.obligation cell.sourceRequestId attempt ·)) = [observation] := by
    refine filter_eq_singleton (nodup_boundTo hkeyed _) (mem_boundTo_iff.mpr ((h.usages _).mpr hbound)) ?_ ?_
    · refine decide_eq_true ⟨.inr ?_, hattemptVintage.symm, hsubject, htype, hvalid, hknowable⟩
      rw [h.reused, hvintage]
    · intro other hother hp
      have hsame := (of_decide_eq_true hp).2.1
      rw [hattemptVintage, Option.some_inj] at hsame
      obtain ⟨row, hrow, heq⟩ := List.mem_map.mp (hkeyed.stored _ (mem_boundTo_iff.mp hother))
      have honly := hfetched.only row hrow (by rw [heq, hsame, hfetched.request])
      exact heq.symm.trans (congrArg ObservationRow.observation honly)
  rw [CaptureTables.selected, hresults, List.flatMap_cons, List.flatMap_nil, List.append_nil, hattempts,
    List.flatMap_cons, List.flatMap_nil, List.append_nil, hbounds]

end Selection

/-- What a reuse promises of a cell: the freeze selects one observation; its listing's rows validate when the other cells carry
the plan's identifiers; its observations are knowable, valid, and all those of a fetch that succeeded within the reuse age. -/
structure Freezable (ids : ContentIds) (models : PayloadModels) (plans : List PlannedRun) (plan : PlannedRun)
    (cell : PlannedCell) (tables : CaptureTables) : Prop where
  selects : ∃ observation, tables.selected plan.cutoff cell = [observation]
  validates : ∀ coordinates ∈ CaptureTables.mine plan cell, ∀ byType : MemberRows,
    byType cell.obligation.semanticType = tables.selectedRow ids plan.cutoff cell →
    (∀ other, other ≠ cell.obligation.semanticType → ∃ row, byType other = some row ∧ row.Carries models coordinates other) →
    ∃ members, validateMemberRows models cell.obligation.subject.id byType = .ok members
  pointInTime : ∀ observation ∈ tables.boundTo cell.obligation.obligationId,
    observation.knowableAt ≤ plan.cutoff ∧ ValidOn (utcDate plan.cutoff) observation
  whole : ∃ result attempt vintage fetch anchor, tables.resultOf cell.obligation.obligationId = some result ∧
    result.terminalState = .unchanged ∧ attempt ∈ tables.attemptResults ∧
    result.finalAttemptId = some attempt.attemptId ∧ attempt.reusedSourceVintageId = some vintage ∧
    IsPlanned ids plans fetch ∧ Fetched tables fetch anchor ∧ anchor.sourceVintageId = vintage ∧
    (∃ original, tables.resultOf fetch.obligation.obligationId = some original ∧ CaptureTables.IsRecent plan original) ∧
    ∀ observation, observation ∈ tables.boundTo cell.obligation.obligationId ↔
      observation ∈ tables.boundTo fetch.obligation.obligationId

section Freezable

variable {ids : ContentIds} {models : PayloadModels} {plans : List PlannedRun} {tables tables' : CaptureTables}
  {plan : PlannedRun} {settings : ReuseSettings} {cell : PlannedCell} {coordinates : Coordinates} {anchor : AnchorRow}

theorem selectedRow_of_selected (ids : ContentIds) {cutoff : Instant} (h : tables.selected cutoff cell = [observation]) :
    ∃ row, tables.selectedRow ids cutoff cell = some row ∧ row.observation = observation := by
  rw [CaptureTables.selectedRow, h]
  exact ⟨_, rfl, rfl⟩

theorem mine_eq_some (h : CaptureTables.mine plan cell = some coordinates) : cell.obligation.semanticType ∉ releaseSemantics := by
  unfold CaptureTables.mine at h
  split_ifs at h with hrelease
  exact hrelease

theorem freezable_iff_accepted (hs : Sound ids plans tables) (hkeyed : tables'.Keyed)
    (hkeeps : Keeps ids plans tables tables') (hmine : CaptureTables.mine plan cell = some coordinates)
    (hanchor : anchor ∈ tables.anchors settings plan cell coordinates)
    (hwhole : tables.TakenWhole settings plan cell coordinates anchor) {result : ListObligationResult}
    {attempt : FetchAttemptResult} (h : Satisfied tables' cell ⟨anchor.observation.sourceVintageId,
      anchor.observation.knowableAt, sortedBy ids.observation (tables.boundTo anchor.sourceObligationId)⟩ result attempt) :
    Freezable ids models plans plan cell tables' ↔
      (coordinates.payloadIds.Named → Accepted models coordinates anchor.observation) := by
  obtain ⟨⟨fetch, hroot⟩, hadmitted⟩ := hs.anchorRoot hanchor
  have hfetched := hkeeps.fetched hroot.planned hroot.fetched
  obtain ⟨original, horiginal, hrecent⟩ := hroot.recent
  have hbound : ∀ observation, observation ∈ tables'.boundTo cell.obligation.obligationId ↔
      observation ∈ tables.boundTo anchor.sourceObligationId := by
    intro observation
    rw [mem_boundTo_iff, h.usages observation]
    exact mem_sortedBy ids.observation
  have hfetch : ∀ observation, observation ∈ tables'.boundTo fetch.obligation.obligationId ↔
      observation ∈ tables.boundTo anchor.sourceObligationId := by
    intro observation
    rw [mem_boundTo_iff, hkeeps.usages _ (Option.isSome_iff_exists.mpr ⟨original, horiginal⟩), mem_boundTo_iff,
      hroot.uses observation]
  have hused : anchor.observation ∈ sortedBy ids.observation (tables.boundTo anchor.sourceObligationId) := by
    rw [mem_sortedBy, mem_boundTo_iff, hroot.uses]
    exact hroot.fetched.used
  have hselected := selected_of_satisfied hkeyed h hfetched rfl hused hadmitted
  obtain ⟨row, hrow, hobservation⟩ := selectedRow_of_selected ids hselected
  have htype : row.observation.semanticType = cell.obligation.semanticType := by
    rw [hobservation, hadmitted.2.1]
  have hvalidates := validates_iff_accepted models cell.obligation.subject.id row (htype ▸ mine_eq_some hmine) (hobservation ▸ hadmitted.2.2.2.2.2.1)
  rw [hobservation] at htype
  rw [hobservation, htype] at hvalidates
  rw [← hvalidates]
  constructor
  · intro hfreezable byType hbyType hothers
    exact hfreezable.validates coordinates hmine byType (hbyType.trans hrow.symm) hothers
  · intro haccepts
    refine ⟨⟨_, hselected⟩, ?_, ?_, ?_⟩
    · intro other hother byType hbyType hothers
      cases hmine.symm.trans hother
      exact haccepts byType (hbyType.trans hrow) hothers
    · intro observation hmem
      obtain ⟨-, hknowable, hvalid⟩ := hwhole.2.1 observation ((hbound observation).mp hmem)
      exact ⟨hknowable, hvalid⟩
    · exact ⟨result, attempt, _, fetch, anchor.observation, h.result_eq, h.state_eq, h.attempt_mem, h.final, h.reused,
        hroot.planned, hfetched, rfl, ⟨original, hkeeps.result _ _ horiginal, hrecent⟩,
        fun observation => (hbound observation).trans (hfetch observation).symm⟩

end Freezable

section Ties

variable {ids : ContentIds} {plans : List PlannedRun} {tables : CaptureTables} {plan : PlannedRun}
  {settings : ReuseSettings} {cell : PlannedCell} {coordinates : Coordinates} {anchor anchor' : AnchorRow}

theorem mem_firstAnchors_iff : anchor ∈ tables.firstAnchors ids settings plan cell coordinates ↔
    anchor ∈ tables.anchors settings plan cell coordinates ∧
      ∀ other ∈ tables.anchors settings plan cell coordinates, CaptureTables.anchorKey ids other ≤
        CaptureTables.anchorKey ids anchor := by
  rw [CaptureTables.firstAnchors, List.mem_filter, decide_eq_true_eq]

theorem observation_eq_of_tie (h : anchor ∈ tables.firstAnchors ids settings plan cell coordinates)
    (h' : anchor' ∈ tables.firstAnchors ids settings plan cell coordinates) :
    anchor.observation = anchor'.observation := by
  obtain ⟨hmem, hmax⟩ := mem_firstAnchors_iff.mp h
  obtain ⟨hmem', hmax'⟩ := mem_firstAnchors_iff.mp h'
  have hkey := le_antisymm (hmax' anchor hmem) (hmax anchor' hmem')
  simp only [CaptureTables.anchorKey, toLex_inj, Prod.mk.injEq] at hkey
  exact ids.observation_injective hkey.2.2.2.2

theorem takenWhole_of_tie (hs : Sound ids plans tables) (h : anchor ∈ tables.firstAnchors ids settings plan cell coordinates)
    (h' : anchor' ∈ tables.firstAnchors ids settings plan cell coordinates)
    (hwhole : tables.TakenWhole settings plan cell coordinates anchor) :
    tables.TakenWhole settings plan cell coordinates anchor' := by
  obtain ⟨⟨fetch, hroot⟩, -⟩ := hs.anchorRoot (mem_firstAnchors_iff.mp h).1
  obtain ⟨⟨fetch', hroot'⟩, -⟩ := hs.anchorRoot (mem_firstAnchors_iff.mp h').1
  have hfetch : fetch = fetch' := by
    obtain ⟨planned, hplanned, hmem⟩ := hroot.planned
    obtain ⟨planned', hplanned', hmem'⟩ := hroot'.planned
    refine hs.cell_eq hplanned hmem hplanned' hmem' ?_
    rw [← hroot.fetched.request, ← hroot'.fetched.request, observation_eq_of_tie h h']
  subst hfetch
  have hset : ∀ observation, observation ∈ tables.boundTo anchor.sourceObligationId ↔
      observation ∈ tables.boundTo anchor'.sourceObligationId := by
    intro observation
    rw [mem_boundTo_iff, mem_boundTo_iff, hroot.uses, hroot'.uses]
  obtain ⟨hne, hqualify, hnamed, hcovered, hconfigured⟩ := hwhole
  refine ⟨?_, fun observation hmem => hqualify observation ((hset observation).mpr hmem),
    fun observation hmem => hnamed observation ((hset observation).mpr hmem), fun source hsource => ?_,
    fun observation hmem => hconfigured observation ((hset observation).mpr hmem)⟩
  · obtain ⟨observation, hmem⟩ := List.exists_mem_of_ne_nil _ hne
    exact List.ne_nil_of_mem ((hset observation).mp hmem)
  · obtain ⟨observation, hmem, heq⟩ := hcovered source hsource
    exact ⟨observation, (hset observation).mp hmem, heq⟩

theorem exists_reuseCandidate (hs : Sound ids plans tables) (first : TieBreak AnchorRow)
    (hmine : CaptureTables.mine plan cell = some coordinates)
    (h : anchor ∈ tables.firstAnchors ids settings plan cell coordinates)
    (hwhole : tables.TakenWhole settings plan cell coordinates anchor) :
    ∃ picked, picked ∈ tables.firstAnchors ids settings plan cell coordinates ∧ picked.observation = anchor.observation ∧
      tables.TakenWhole settings plan cell coordinates picked ∧
      tables.reuseCandidate ids settings plan first cell = some ⟨picked.observation.sourceVintageId,
        picked.observation.knowableAt, sortedBy ids.observation (tables.boundTo picked.sourceObligationId)⟩ := by
  rcases hpick : first.pick (tables.firstAnchors ids settings plan cell coordinates) with _ | picked
  · rw [first.pick_none _ hpick] at h
    exact absurd h List.not_mem_nil
  · have hmem := first.pick_mem _ _ hpick
    have hwhole' := takenWhole_of_tie hs h hmem hwhole
    refine ⟨picked, hmem, observation_eq_of_tie hmem h, hwhole', ?_⟩
    simp only [CaptureTables.reuseCandidate, hmine, hpick, Option.bind_eq_bind, Option.bind_some, if_pos hwhole']

end Ties

/-- The freeze takes every cell that a plan's reuse resolves, then and later, exactly when every anchor taken for a listing with
identifiers has an accepted payload and, for a financial fact, the plan's issuer and instrument. -/
theorem reused_cells_freezable_iff {ids : ContentIds} (models : PayloadModels) {state : CaptureState}
    {tables' : CaptureTables} {plan : PlannedRun} {settings : ReuseSettings} {first : TieBreak AnchorRow}
    {satisfied : List String} (hreach : CaptureReaches ids .initial state) (hplan : plan ∈ state.plans)
    (hopen : ∀ cell ∈ plan.cells ids, state.tables.resultOf cell.obligation.obligationId = none)
    (h : state.tables.satisfyFromRecentObservations ids settings plan first = .ok (tables', satisfied)) :
    (∀ cell ∈ plan.cells ids, cell.workItemId ∈ satisfied → ∀ later, CaptureReaches ids ⟨state.plans, tables'⟩ later →
          Freezable ids models state.plans plan cell later.tables) ↔
      ∀ cell ∈ plan.cells ids, ∀ coordinates ∈ CaptureTables.mine plan cell, coordinates.payloadIds.Named →
        ∀ anchor ∈ state.tables.firstAnchors ids settings plan cell coordinates,
          state.tables.TakenWhole settings plan cell coordinates anchor →
          CaptureTables.InSession settings cell.obligation.semanticType anchor.observation.knowableAt →
          Accepted models coordinates anchor.observation := by
  have hs := sound_of_reaches hreach
  obtain ⟨hsound, hkeeps, hcells⟩ := hs.of_satisfyFromRecentObservations hplan hopen h
  constructor
  · intro hfreezable cell hcell coordinates hmine hnamed anchor hanchor hwhole hsession
    obtain ⟨picked, hpicked, hsame, hwhole', hcandidate⟩ := exists_reuseCandidate hs first hmine hanchor hwhole
    rw [← hsame] at hsession ⊢
    obtain ⟨hiff, hsatisfied⟩ := hcells cell hcell
    obtain ⟨result, attempt, hdone⟩ := hsatisfied _ hcandidate hsession
    have hnow := hfreezable cell hcell (hiff.mpr ⟨_, hcandidate, hsession⟩) ⟨state.plans, tables'⟩ .refl
    exact (freezable_iff_accepted hs hsound.keyed hkeeps hmine (mem_firstAnchors_iff.mp hpicked).1 hwhole' hdone).mp hnow
      hnamed
  · intro haccepted cell hcell hmem later hlater
    obtain ⟨hiff, hsatisfied⟩ := hcells cell hcell
    obtain ⟨candidate, hcandidate, hsession⟩ := hiff.mp hmem
    obtain ⟨result, attempt, hdone⟩ := hsatisfied candidate hcandidate hsession
    obtain ⟨coordinates, anchor, hmine, hpick, hwhole, rfl⟩ := of_reuseCandidate hcandidate
    obtain ⟨hsound', hkeeps', hplans⟩ := hsound.of_reaches hlater
    refine (freezable_iff_accepted hs hsound'.keyed (hkeeps.trans (fun _ hmem => hmem) hkeeps') hmine
      (mem_anchors_of_pick hpick) hwhole (hdone.keeps hkeeps')).mpr fun hnamed => ?_
    exact haccepted cell hcell coordinates hmine hnamed anchor (first.pick_mem _ _ hpick) hwhole hsession

/-! ## One financial fact under two corpora -/

variable {plan : PlannedRun} {label issuerId : String}

section Sample

theorem reaches_of_fetch {ids : ContentIds} {plan plan' : PlannedRun} {cell : PlannedCell} {lost : Corroboration → Bool}
    {reasons : List (Option ObligationReasonCode)} {terminalState : ObligationTerminalState}
    {success : Option FetchSuccess} {recorded : CaptureTables} (hcell : cell ∈ plan.cells ids)
    (hrecord : (CaptureTables.empty.persistPlan plan).recordOutcome ids plan cell lost reasons terminalState success =
      .ok recorded) (hlabel : plan.sourceLabel ≠ plan'.sourceLabel)
    (hinserted : ∀ stored ∈ recorded.obligations, ∀ obligation ∈ plan'.obligations,
      stored.obligationId ≠ obligation.obligationId) :
    CaptureReaches ids .initial ⟨[plan, plan'], recorded.persistPlan plan'⟩ := by
  have hplanned : CaptureStep ids .initial ⟨[plan], CaptureTables.empty.persistPlan plan⟩ :=
    .plan (fun _ h => absurd h List.not_mem_nil) fun _ h => absurd h List.not_mem_nil
  have hrecorded : CaptureStep ids ⟨[plan], CaptureTables.empty.persistPlan plan⟩ ⟨[plan], recorded⟩ :=
    .outcome List.mem_cons_self hcell rfl hrecord
  have hnext : CaptureStep ids ⟨[plan], recorded⟩ ⟨[plan, plan'], recorded.persistPlan plan'⟩ :=
    .plan (fun planned h => by rwa [List.mem_singleton.mp h]) hinserted
  exact ((Relation.ReflTransGen.single hplanned).tail hrecorded).tail hnext

theorem reusePolicy_required : ∀ outcome ∈ requiredTerminal, outcome ∈ [.failed, .success, .unavailable, .unchanged] := by decide

def reusePolicy : RetryPolicy where
  maxAttempts := 3
  retryableOutcomes := [.interrupted, .rateLimited, .serverError, .transportError]
  terminalOutcomes := [.failed, .success, .unavailable, .unchanged]
  positive := by decide
  bounded := by decide
  apart := by decide
  required := reusePolicy_required

def tickCutoff : Instant := 739904 * microsPerDay + minutes (22 * 60 + 15)

def sampleObligation (label : String) : CaptureObligation where
  obligationId := "capture-obligation:" ++ label
  listObligationId := "list-obligation:" ++ label
  runId := "capture-run:" ++ label
  subject := ⟨"listing", "listing:xnas:aapl"⟩
  semanticType := .financialFact
  partitionKey := "2026-09-30"

def sampleCoordinates (issuerId : String) : Coordinates := ⟨issuerId, "instrument:aapl", "listing:xnas:aapl", "AAPL"⟩

def factRun (label issuerId : String) (cutoff : Instant) : PlannedRun where
  runId := "capture-run:" ++ label
  campaignId := "capture-campaign:" ++ label
  schedulePolicyId := "schedule-policy:" ++ label
  sourceLabel := label
  cutoff
  obligations := [sampleObligation label]
  coordinates := Dict.ofList [("listing:xnas:aapl", sampleCoordinates issuerId)]
  retry := reusePolicy
  freshnessWindows := []
  defaultFreshnessMaxAge := minutes (2 * 24 * 60)
  forcedFetch := false
  ofRun := fun obligation hmem => by rw [List.mem_singleton.mp hmem]; rfl
  nodup := List.nodup_singleton _

def sampleTopt : PlannedRun := factRun "production-topt-v1" "issuer:lei:HWUPKR0MPOU8FGXBT394" tickCutoff

def sampleAlike : PlannedRun := factRun "production-canary-v1" "issuer:lei:HWUPKR0MPOU8FGXBT394" (tickCutoff + minutes 65)

def sampleForeign : PlannedRun := factRun "production-qqq-v1" "issuer:cik:0000320193" (tickCutoff + minutes 65)

theorem no_failover : (none : Option String).isSome → (none : Option ObligationReasonCode) = none := nofun

theorem no_failover_reason : ∀ reason ∈ (none : Option ObligationReasonCode), dispositionFor reason ≠ .stop := nofun

def sampleFact : FetchSuccess where
  raw := ⟨"a1", "companyfacts:0000320193"⟩
  normalizedSha256 := "b2"
  validFrom := 739875
  transactionTime := 739880 * microsPerDay
  confidence := none
  record := some
    { payload := [("issuer_id", .text "issuer:lei:HWUPKR0MPOU8FGXBT394"), ("instrument_id", .text "instrument:aapl"),
          ("listing_id", .text "listing:xnas:aapl"), ("operating_branch", .text "operating_company"),
          ("currency", .text "USD"), ("gross_profit", .text "180683000000"), ("total_assets", .null),
          ("headcount", .null), ("revenue", .null), ("shares_outstanding", .null), ("pre_provision_profit", .null)]
      parserVersion := "topt-parser:v10"
      mappingVersion := "topt-map:v10" }
  corroborations := []
  servedByFailover := none
  failoverReason := none
  declared := by simp
  single := no_failover
  servable := no_failover_reason

def reuseSettings : ReuseSettings where
  parserVersion := "topt-parser:v10"
  parserVersionHistory := ["topt-parser:v10"]
  sourceByParser := fun _ => none
  configuredOriginSources := fun _ => ["primary"]
  sessionBound := fun semanticType => semanticType = .marketPrice
  settled := 739904

def readIds (payload : List (String × Json)) : Option PayloadIds :=
  match payloadText payload "issuer_id", payloadText payload "instrument_id", payloadText payload "listing_id" with
  | some issuerId, some instrumentId, some listingId =>
    if issuerId ≠ "" ∧ instrumentId ≠ "" ∧ listingId ≠ "" then some ⟨issuerId, instrumentId, listingId⟩ else none
  | _, _, _ => none

theorem readIds_eq_some {payload : List (String × Json)} {payloadIds : PayloadIds}
    (h : readIds payload = some payloadIds) : payloadIds.Named ∧ payloadText payload "issuer_id" = some payloadIds.issuerId ∧
      payloadText payload "instrument_id" = some payloadIds.instrumentId ∧
      payloadText payload "listing_id" = some payloadIds.listingId := by
  unfold readIds at h
  split at h
  · rename_i issuerId instrumentId listingId hissuer hinstrument hlisting
    split_ifs at h with hnamed
    cases h
    exact ⟨hnamed, hissuer, hinstrument, hlisting⟩
  · cases h

theorem readIds_accepts (payloadIds : PayloadIds) (h : payloadIds.Named) : ∃ payload, readIds payload = some payloadIds :=
  ⟨[("issuer_id", .text payloadIds.issuerId), ("instrument_id", .text payloadIds.instrumentId),
    ("listing_id", .text payloadIds.listingId)], if_pos h⟩

def sampleModels : PayloadModels where
  identity := readIds
  financial := readIds
  price := readIds
  identity_named _ _ h := (readIds_eq_some h).1
  financial_text _ _ h := (readIds_eq_some h).2
  price_text _ _ h := (readIds_eq_some h).2.2.2
  identity_accepts := readIds_accepts
  financial_accepts := readIds_accepts
  price_accepts := readIds_accepts

def factCell (plan : PlannedRun) : PlannedCell := plan.cellOf .coded (sampleObligation plan.sourceLabel, 0)

theorem cells_factRun (label issuerId : String) (cutoff : Instant) :
    (factRun label issuerId cutoff).cells .coded = [factCell (factRun label issuerId cutoff)] := rfl

def sampleOutcome : Except String CaptureTables :=
  (CaptureTables.empty.persistPlan sampleTopt).recordOutcome .coded sampleTopt (factCell sampleTopt) (fun _ => false)
    [none] .success (some sampleFact)

def sampleTables (plan : PlannedRun) : CaptureTables := (sampleOutcome.toOption.getD .empty).persistPlan plan

theorem eq_ok_getD {ε α : Type} {x : Except ε α} (d : α) (h : x.toOption.isSome) : x = .ok (x.toOption.getD d) := by
  cases x with
  | error => cases h
  | ok => rfl

theorem sampleOutcome_facts : sampleOutcome.toOption.isSome ∧
    ∀ plan ∈ [sampleForeign, sampleAlike], sampleTopt.sourceLabel ≠ plan.sourceLabel ∧
      (∀ stored ∈ (sampleOutcome.toOption.getD .empty).obligations, ∀ obligation ∈ plan.obligations,
        stored.obligationId ≠ obligation.obligationId) ∧
      (sampleOutcome.toOption.getD .empty).resultOf ("capture-obligation:" ++ plan.sourceLabel) = none := by
  decide +kernel

theorem sampleOutcome_eq : sampleOutcome = .ok (sampleOutcome.toOption.getD .empty) := eq_ok_getD _ sampleOutcome_facts.1

theorem sampleTables_reached (plan : PlannedRun) (hlabel : sampleTopt.sourceLabel ≠ plan.sourceLabel)
    (hinserted : ∀ stored ∈ (sampleOutcome.toOption.getD .empty).obligations, ∀ obligation ∈ plan.obligations,
      stored.obligationId ≠ obligation.obligationId) :
    CaptureReaches .coded .initial ⟨[sampleTopt, plan], sampleTables plan⟩ :=
  reaches_of_fetch (by rw [sampleTopt, cells_factRun]; exact List.mem_cons_self) sampleOutcome_eq hlabel hinserted

def sampleAnchors (plan : PlannedRun) (coordinates : Coordinates) : List AnchorRow :=
  (sampleTables plan).anchors reuseSettings plan (factCell plan) coordinates

/-- The anchor binds its set whole, its cell can be resolved with it, and it has its run's issuer. -/
def IsSampleAnchor (plan : PlannedRun) (coordinates : Coordinates) (anchor : AnchorRow) : Prop :=
  (sampleTables plan).TakenWhole reuseSettings plan (factCell plan) coordinates anchor ∧
    ((sampleTables plan).resolveUnchanged plan (factCell plan) ⟨anchor.observation.sourceVintageId,
      anchor.observation.knowableAt, sortedBy ContentIds.coded.observation
        ((sampleTables plan).boundTo anchor.sourceObligationId)⟩).toOption.isSome ∧
    anchor.observation.semanticType = .financialFact ∧ (readIds anchor.observation.payload).isSome ∧
    payloadText anchor.observation.payload "issuer_id" = some "issuer:lei:HWUPKR0MPOU8FGXBT394" ∧
    payloadText anchor.observation.payload "instrument_id" = some "instrument:aapl"

instance (plan : PlannedRun) (coordinates : Coordinates) (anchor : AnchorRow) :
    Decidable (IsSampleAnchor plan coordinates anchor) := inferInstanceAs (Decidable (_ ∧ _))

theorem reuseCandidate_of_single {ids : ContentIds} {settings : ReuseSettings} {tables : CaptureTables}
    {cell : PlannedCell} {coordinates : Coordinates} {anchor : AnchorRow}
    (hmine : CaptureTables.mine plan cell = some coordinates)
    (hfirst : tables.firstAnchors ids settings plan cell coordinates = [anchor])
    (hwhole : tables.TakenWhole settings plan cell coordinates anchor) :
    tables.reuseCandidate ids settings plan .stored cell = some ⟨anchor.observation.sourceVintageId,
      anchor.observation.knowableAt, sortedBy ids.observation (tables.boundTo anchor.sourceObligationId)⟩ := by
  rw [CaptureTables.reuseCandidate, hmine]
  simp only [hfirst, TieBreak.stored, List.head?_cons, Option.bind_eq_bind, Option.bind_some, if_pos hwhole]

theorem sample_satisfied (hplan : plan = factRun label issuerId (tickCutoff + minutes 65))
    (hone : (sampleAnchors plan (sampleCoordinates issuerId)).length = 1)
    (hall : ∀ anchor ∈ sampleAnchors plan (sampleCoordinates issuerId), IsSampleAnchor plan (sampleCoordinates issuerId) anchor) :
    CaptureTables.mine plan (factCell plan) = some (sampleCoordinates issuerId) ∧ ∃ anchor tables',
      anchor ∈ (sampleTables plan).firstAnchors .coded reuseSettings plan (factCell plan) (sampleCoordinates issuerId) ∧
      IsSampleAnchor plan (sampleCoordinates issuerId) anchor ∧
      (sampleTables plan).satisfyFromRecentObservations .coded reuseSettings plan .stored =
        .ok (tables', [(factCell plan).workItemId]) := by
  have hmine : CaptureTables.mine plan (factCell plan) = some (sampleCoordinates issuerId) := by
    rw [hplan]
    rfl
  obtain ⟨anchor, hanchors⟩ := List.length_eq_one_iff.mp hone
  have hanchor := hall anchor (by rw [hanchors]; exact List.mem_cons_self)
  have hfirst : (sampleTables plan).firstAnchors .coded reuseSettings plan (factCell plan)
      (sampleCoordinates issuerId) = [anchor] := by
    rw [CaptureTables.firstAnchors, show CaptureTables.anchors _ _ _ _ _ = [anchor] from hanchors]
    simp
  have hcandidate : (sampleTables plan).reuseCandidate .coded reuseSettings plan .stored (factCell plan) =
      some ⟨anchor.observation.sourceVintageId, anchor.observation.knowableAt,
        sortedBy ContentIds.coded.observation ((sampleTables plan).boundTo anchor.sourceObligationId)⟩ :=
    reuseCandidate_of_single hmine hfirst hanchor.1
  have hcells : plan.cells .coded = [factCell plan] := by
    rw [hplan, cells_factRun]
  obtain ⟨tables', hresolve⟩ : ∃ tables', (sampleTables plan).resolveUnchanged plan (factCell plan)
      ⟨anchor.observation.sourceVintageId, anchor.observation.knowableAt, sortedBy ContentIds.coded.observation
        ((sampleTables plan).boundTo anchor.sourceObligationId)⟩ = .ok tables' := ⟨_, eq_ok_getD .empty hanchor.2.1⟩
  refine ⟨hmine, anchor, tables', by rw [hfirst]; exact List.mem_cons_self, hanchor, ?_⟩
  rw [CaptureTables.satisfyFromRecentObservations, CaptureTables.satisfyFrom, hcells, List.foldlM_cons]
  simp only [CaptureTables.satisfyCell, hcandidate]
  have hsession : CaptureTables.InSession reuseSettings (factCell plan).obligation.semanticType
      anchor.observation.knowableAt :=
    fun h => absurd (show decide (SemanticType.financialFact = .marketPrice) = true from h) (by decide)
  rw [if_pos hsession, hresolve]
  rfl

theorem sample_anchors : ∀ sample ∈ [(sampleForeign, "issuer:cik:0000320193"), (sampleAlike, "issuer:lei:HWUPKR0MPOU8FGXBT394")],
    (sampleAnchors sample.1 (sampleCoordinates sample.2)).length = 1 ∧
      ∀ anchor ∈ sampleAnchors sample.1 (sampleCoordinates sample.2),
        IsSampleAnchor sample.1 (sampleCoordinates sample.2) anchor := by
  decide +kernel

theorem resultOf_persistPlan (tables : CaptureTables) (plan : PlannedRun) (obligationId : String) :
    (tables.persistPlan plan).resultOf obligationId = tables.resultOf obligationId := rfl

theorem sampleTables_open (hplan : plan = factRun label issuerId (tickCutoff + minutes 65))
    (hnone : (sampleOutcome.toOption.getD .empty).resultOf ("capture-obligation:" ++ label) = none) :
    ∀ cell ∈ plan.cells .coded, (sampleTables plan).resultOf cell.obligation.obligationId = none := by
  subst hplan
  intro cell hcell
  rw [cells_factRun] at hcell
  rw [List.mem_singleton.mp hcell, sampleTables, resultOf_persistPlan]
  exact hnone

/-- The freeze refuses a financial fact that was reused under a foreign issuer. -/
theorem reused_cell_refused : ¬ ∀ (ids : ContentIds) (models : PayloadModels) (state : CaptureState)
    (tables' : CaptureTables) (plan : PlannedRun) (settings : ReuseSettings) (first : TieBreak AnchorRow)
    (satisfied : List String), CaptureReaches ids .initial state → plan ∈ state.plans →
    (∀ cell ∈ plan.cells ids, state.tables.resultOf cell.obligation.obligationId = none) →
    state.tables.satisfyFromRecentObservations ids settings plan first = .ok (tables', satisfied) →
    ∀ cell ∈ plan.cells ids, cell.workItemId ∈ satisfied → ∀ later, CaptureReaches ids ⟨state.plans, tables'⟩ later →
      Freezable ids models state.plans plan cell later.tables := by
  intro hall
  obtain ⟨hone, hanchors⟩ := sample_anchors _ List.mem_cons_self
  obtain ⟨hmine, anchor, tables', hfirst, hanchor, hreuse⟩ := sample_satisfied (Eq.refl sampleForeign) hone hanchors
  obtain ⟨hlabel, hinserted, hnone⟩ := sampleOutcome_facts.2 sampleForeign List.mem_cons_self
  have hreach := sampleTables_reached sampleForeign hlabel hinserted
  have hopen := sampleTables_open (Eq.refl sampleForeign) hnone
  have hcell : factCell sampleForeign ∈ sampleForeign.cells .coded := by
    rw [sampleForeign, cells_factRun]
    exact List.mem_cons_self
  have hplan : sampleForeign ∈ [sampleTopt, sampleForeign] := List.mem_cons_of_mem _ List.mem_cons_self
  have hfreezable := hall .coded sampleModels ⟨[sampleTopt, sampleForeign], sampleTables sampleForeign⟩ tables'
    sampleForeign reuseSettings .stored [(factCell sampleForeign).workItemId] hreach hplan hopen hreuse
    (factCell sampleForeign) hcell List.mem_cons_self ⟨[sampleTopt, sampleForeign], tables'⟩ .refl
  have hs := sound_of_reaches hreach
  obtain ⟨hsound, hkeeps, hcells⟩ := hs.of_satisfyFromRecentObservations hplan hopen hreuse
  obtain ⟨picked, hpicked, hsame, hwhole, hcandidate⟩ := exists_reuseCandidate hs .stored hmine hfirst hanchor.1
  obtain ⟨result, attempt, hdone⟩ := (hcells (factCell sampleForeign) hcell).2 _ hcandidate
    fun h => absurd h (by decide)
  have haccepted := (freezable_iff_accepted hs hsound.keyed hkeeps hmine (mem_firstAnchors_iff.mp hpicked).1 hwhole
    hdone).mp hfreezable ⟨by decide, by decide, by decide⟩
  rw [hsame] at haccepted
  have hissuer := (haccepted.2 hanchor.2.2.1).1
  rw [hanchor.2.2.2.2.1] at hissuer
  exact absurd (Option.some_inj.mp hissuer) (by decide)

/-- The freeze takes the financial fact of a run that is keyed alike. -/
theorem alike_cell_freezable : ∃ tables' satisfied, (sampleTables sampleAlike).satisfyFromRecentObservations .coded
      reuseSettings sampleAlike .stored = .ok (tables', satisfied) ∧ (factCell sampleAlike).workItemId ∈ satisfied ∧
    ∀ later, CaptureReaches .coded ⟨[sampleTopt, sampleAlike], tables'⟩ later →
      Freezable .coded sampleModels [sampleTopt, sampleAlike] sampleAlike (factCell sampleAlike) later.tables := by
  obtain ⟨hone, hall⟩ := sample_anchors _ (List.mem_cons_of_mem _ List.mem_cons_self)
  obtain ⟨hmine, anchor, tables', hfirst, hanchor, hreuse⟩ := sample_satisfied (Eq.refl sampleAlike) hone hall
  obtain ⟨hlabel, hinserted, hnone⟩ := sampleOutcome_facts.2 sampleAlike (List.mem_cons_of_mem _ List.mem_cons_self)
  have hreach := sampleTables_reached sampleAlike hlabel hinserted
  have hopen := sampleTables_open (Eq.refl sampleAlike) hnone
  have hcell : factCell sampleAlike ∈ sampleAlike.cells .coded := by
    rw [sampleAlike, cells_factRun]
    exact List.mem_cons_self
  refine ⟨tables', _, hreuse, List.mem_cons_self, ?_⟩
  refine (reused_cells_freezable_iff sampleModels hreach (List.mem_cons_of_mem _ List.mem_cons_self) hopen hreuse).mpr ?_
    (factCell sampleAlike) hcell List.mem_cons_self
  intro cell hmem coordinates hcoordinates _ other hother _ _
  rw [sampleAlike, cells_factRun, List.mem_singleton] at hmem
  subst hmem
  cases hmine.symm.trans hcoordinates
  rw [← observation_eq_of_tie hfirst hother]
  obtain ⟨-, -, htype, hsome, hissuer, hinstrument⟩ := hanchor
  refine ⟨?_, fun _ => ⟨hissuer, hinstrument⟩⟩
  rw [htype]
  exact hsome

end Sample

end TrueAlpha.Datahub
