import TrueAlpha.Contracts.InterfaceBundle

/-!
# Traces of a closed bundle

Every record of a closed bundle but a campaign has an edge to it, and a chain links each result to a campaign (`Linked`).
Nothing ties a source vintage to a result, so an observation traces back exactly when a result leads to it (`tracesBack_iff`).
-/

namespace TrueAlpha.Contracts

open InterfaceBundle

def InterfaceBundle.FetchAttemptResult.Names (result : InterfaceBundle.FetchAttemptResult) (sourceVintageId : String) :
    Prop := result.sourceVintageId = some sourceVintageId ∨ result.reusedSourceVintageId = some sourceVintageId

structure Linked (bundle : DataHubInterfaceBundle) : Prop where
  campaign : ∀ workItem ∈ bundle.workItems, ∃ campaign ∈ bundle.campaigns, campaign.campaignId = workItem.campaignId
  workItem : ∀ attempt ∈ bundle.attempts, ∃ workItem ∈ bundle.workItems, workItem.workItemId = attempt.workItemId
  attempt : ∀ result ∈ bundle.attemptResults, ∃ attempt ∈ bundle.attempts, attempt.attemptId = result.attemptId
  rawObject : ∀ vintage ∈ bundle.sourceVintages, ∃ raw ∈ bundle.rawObjects, raw.rawObjectId = vintage.rawObjectId
  vintage : ∀ observation ∈ bundle.observations,
    ∃ vintage ∈ bundle.sourceVintages, vintage.sourceVintageId = observation.sourceVintageId
  contains : ∀ workItem ∈ bundle.workItems, Leads bundle.provenance.edges workItem.campaignId workItem.sourceRequestId
  dispatches : ∀ workItem ∈ bundle.workItems, Leads bundle.provenance.edges workItem.sourceRequestId workItem.workItemId
  attemptedBy : ∀ attempt ∈ bundle.attempts, Leads bundle.provenance.edges attempt.workItemId attempt.attemptId
  completes : ∀ result ∈ bundle.attemptResults, Leads bundle.provenance.edges result.attemptId result.attemptResultId
  names : ∀ result ∈ bundle.attemptResults, ∀ sourceVintageId, result.Names sourceVintageId →
    Leads bundle.provenance.edges result.attemptResultId sourceVintageId
  normalizedAs : ∀ observation ∈ bundle.observations,
    Leads bundle.provenance.edges observation.sourceVintageId observation.observationId
  node : ∀ entry ∈ requiredNodes bundle, entry.1 ∈ bundle.provenance.nodeIds
  incoming : ∀ id ∈ (requiredNodes bundle).map Prod.fst, (∃ source, Leads bundle.provenance.edges source id) ∨
    ∃ campaign ∈ bundle.campaigns, campaign.campaignId = id

/-! ## What the checks say -/

variable {edges : List ProvenanceEdge}

theorem leads_of_requireEdge {source target : String} {edgeType : ProvenanceEdgeKind}
    (h : requireEdge edges source edgeType target = .ok ()) : Leads edges source target := by
  have hmem := of_decide_eq_true (require_eq_ok_iff.mp h)
  obtain ⟨edge, hedge, heq⟩ := List.mem_map.mp hmem
  cases heq
  exact ⟨edge, hedge, rfl, rfl⟩

theorem exists_of_mem_keys {ν : Type} {idField : String} {identifier contentSha256 : ν → String} {values : List ν}
    {found : Dict String ν} (h : index idField identifier contentSha256 values = .ok found) {key : String}
    (hkey : key ∈ found.keys) : ∃ value ∈ values, identifier value = key := by
  obtain ⟨value, hget⟩ := (Dict.mem_keys_iff _ _).mp hkey
  exact ⟨value, (get?_of_index h).mp hget⟩

theorem values_of_index {ν : Type} {idField : String} {identifier contentSha256 : ν → String} {values : List ν}
    {found : Dict String ν} (h : index idField identifier contentSha256 values = .ok found) : found.values = values := by
  rw [Dict.values, items_of_index h, List.map_map]
  exact List.map_id values

theorem workItem_of_foldlM {indexes : Indexes} {attempts : List InterfaceBundle.FetchAttempt}
    {found : Dict String (List InterfaceBundle.FetchAttempt)}
    (h : attempts.foldlM indexes.addAttempt Dict.empty = .ok found) :
    ∀ attempt ∈ attempts, attempt.workItemId ∈ indexes.workItems.keys := by
  intro attempt hattempt
  obtain ⟨before, after, hstep⟩ := step_of_foldlM h hattempt
  exact of_decide_eq_true (require_eq_ok_iff.mp (check_bind_eq_ok_iff.mp hstep).1)

theorem resultByAttempt_of_foldlM {indexes : Indexes} {results : List InterfaceBundle.FetchAttemptResult}
    {found : Dict String InterfaceBundle.FetchAttemptResult}
    (h : results.foldlM indexes.addAttemptResult Dict.empty = .ok found) :
    ∀ result ∈ results, result.attemptId ∈ indexes.attempts.keys ∧ found.get? result.attemptId = some result := by
  refine foldlM_inv (fun seen (found : Dict String InterfaceBundle.FetchAttemptResult) => ∀ result ∈ seen,
    result.attemptId ∈ indexes.attempts.keys ∧ found.get? result.attemptId = some result) h
    (fun _ hmem => absurd hmem List.not_mem_nil) ?_
  intro seen result _ before after _ hseen hstep other hother
  unfold Indexes.addAttemptResult at hstep
  cases hattempt : indexes.attempts.get? result.attemptId with
  | none =>
    rw [hattempt] at hstep
    cases hstep
  | some attempt =>
    rw [hattempt] at hstep
    simp only [check_bind_eq_ok_iff, require_eq_ok_iff, decide_eq_true_eq, pure_eq_ok_iff] at hstep
    obtain ⟨hnew, -, rfl⟩ := hstep
    rcases List.mem_append.mp hother with hold | hlast
    · obtain ⟨hkey, hget⟩ := hseen other hold
      have hne : result.attemptId ≠ other.attemptId := by
        intro hsame
        rw [hsame] at hnew
        exact hnew ((Dict.mem_keys_iff _ _).mpr ⟨other, hget⟩)
      exact ⟨hkey, by rw [Dict.get?_set_of_ne _ _ hne, hget]⟩
    · rw [List.mem_singleton.mp hlast]
      exact ⟨(Dict.mem_keys_iff _ _).mpr ⟨attempt, hattempt⟩, Dict.get?_set_self ..⟩

variable {bundle : DataHubInterfaceBundle}

theorem of_checkNodes (h : checkNodes bundle = .ok ()) : (∀ entry ∈ requiredNodes bundle, entry.1 ∈ bundle.provenance.nodeIds) ∧
      ∀ id ∈ (requiredNodes bundle).map Prod.fst, (∃ source, Leads bundle.provenance.edges source id) ∨
        (id, ProvenanceNodeKind.campaign) ∈ requiredNodes bundle := by
  simp only [checkNodes, check_bind_eq_ok_iff, require_eq_ok_iff, decide_eq_true_eq] at h
  obtain ⟨hmissing, -, hdisconnected⟩ := h
  constructor
  · intro entry hentry
    have hkey := Dict.mem_keys_ofList.mpr (List.mem_map_of_mem hentry)
    have hactual := List.filter_eq_nil_iff.mp hmissing entry.1 hkey
    have hnode := Dict.mem_keys_ofList.mp (not_not.mp (by simpa using hactual))
    simpa [ProvenanceGraph.nodeIds] using hnode
  · intro id hid
    obtain ⟨kind, hget⟩ := (Dict.mem_keys_iff _ _).mp (Dict.mem_keys_ofList.mpr hid)
    by_cases hkind : kind = .campaign
    · rw [hkind] at hget
      exact Or.inr (Dict.mem_of_get?_ofList hget)
    · have hnonRoot : id ∈ ((Dict.ofList (requiredNodes bundle)).items.filter fun entry =>
          entry.2 ≠ ProvenanceNodeKind.campaign).map Prod.fst := by
        refine List.mem_map.mpr ⟨(id, kind), List.mem_filter.mpr ⟨(Dict.get?_eq_some_iff ..).mp hget, ?_⟩, rfl⟩
        exact decide_eq_true hkind
      have hincoming := List.filter_eq_nil_iff.mp hdisconnected id hnonRoot
      obtain ⟨edge, hedge, hto⟩ := List.mem_map.mp (not_not.mp (by simpa using hincoming))
      exact Or.inl ⟨edge.fromNodeId, edge, hedge, rfl, hto⟩

theorem mem_campaigns_of_mem {id : String} (h : (id, ProvenanceNodeKind.campaign) ∈ requiredNodes bundle) :
    ∃ campaign ∈ bundle.campaigns, campaign.campaignId = id := by
  simpa [requiredNodes] using h

structure IndexOf (bundle : DataHubInterfaceBundle) (indexes : Indexes) : Prop where
  campaigns : ∀ key ∈ indexes.campaigns.keys, ∃ campaign ∈ bundle.campaigns, campaign.campaignId = key
  workItems : ∀ key ∈ indexes.workItems.keys, ∃ workItem ∈ bundle.workItems, workItem.workItemId = key
  attempts : ∀ key ∈ indexes.attempts.keys, ∃ attempt ∈ bundle.attempts, attempt.attemptId = key
  rawObjects : ∀ key ∈ indexes.rawObjects.keys, ∃ raw ∈ bundle.rawObjects, raw.rawObjectId = key
  sourceVintages : ∀ key ∈ indexes.sourceVintages.keys, ∃ vintage ∈ bundle.sourceVintages, vintage.sourceVintageId = key
  attemptResults : indexes.attemptResults.values = bundle.attemptResults

theorem indexOf_of_indexes {found : Indexes} (h : indexes bundle = .ok found) : IndexOf bundle found := by
  simp only [indexes, bind_eq_ok_iff, pure_eq_ok_iff] at h
  obtain ⟨_, -, campaigns, hcampaigns, _, -, _, -, _, -, workItems, hworkItems, _, -, attempts, hattempts,
    attemptResults, hattemptResults, rawObjects, hrawObjects, sourceVintages, hsourceVintages, _, -, _, -, _, -,
    rfl⟩ := h
  exact {
    campaigns := fun _ => exists_of_mem_keys hcampaigns
    workItems := fun _ => exists_of_mem_keys hworkItems
    attempts := fun _ => exists_of_mem_keys hattempts
    rawObjects := fun _ => exists_of_mem_keys hrawObjects
    sourceVintages := fun _ => exists_of_mem_keys hsourceVintages
    attemptResults := values_of_index hattemptResults }

variable {resultByAttempt : Dict String InterfaceBundle.FetchAttemptResult}
  {result : InterfaceBundle.FetchAttemptResult}

theorem edges_of_checkEdges {bound : Dict String String} (h : checkEdges bundle bound resultByAttempt = .ok ()) :
    (∀ workItem ∈ bundle.workItems, Leads bundle.provenance.edges workItem.campaignId workItem.sourceRequestId ∧
      Leads bundle.provenance.edges workItem.sourceRequestId workItem.workItemId) ∧
    (∀ attempt ∈ bundle.attempts, checkAttemptEdges bundle.provenance.edges resultByAttempt attempt = .ok ()) ∧
    ∀ observation ∈ bundle.observations, Leads bundle.provenance.edges observation.sourceVintageId observation.observationId := by
  simp only [checkEdges, check_bind_eq_ok_iff] at h
  obtain ⟨-, -, -, hwork, hattempts, -, hobservations⟩ := h
  refine ⟨fun workItem hmem => ?_, fun attempt hmem => forM_eq_ok_iff.mp hattempts attempt hmem,
    fun observation hmem => leads_of_requireEdge (forM_eq_ok_iff.mp hobservations observation hmem)⟩
  obtain ⟨hcontains, hdispatches⟩ := check_bind_eq_ok_iff.mp (forM_eq_ok_iff.mp hwork workItem hmem)
  exact ⟨leads_of_requireEdge hcontains, leads_of_requireEdge hdispatches⟩

theorem edges_of_checkAttemptEdges {attempt : InterfaceBundle.FetchAttempt}
    (hget : resultByAttempt.get? attempt.attemptId = some result)
    (h : checkAttemptEdges edges resultByAttempt attempt = .ok ()) :
    Leads edges attempt.workItemId attempt.attemptId ∧ Leads edges attempt.attemptId result.attemptResultId ∧
      ∀ sourceVintageId, result.Names sourceVintageId → Leads edges result.attemptResultId sourceVintageId := by
  obtain ⟨hattempted, h⟩ := check_bind_eq_ok_iff.mp h
  rw [item_eq_ok_iff.mpr hget, ok_bind] at h
  obtain ⟨hcompletes, h⟩ := check_bind_eq_ok_iff.mp h
  obtain ⟨hobserved, hreuses⟩ := check_bind_eq_ok_iff.mp h
  refine ⟨leads_of_requireEdge hattempted, leads_of_requireEdge hcompletes, ?_⟩
  rintro sourceVintageId (hown | hreused)
  · exact leads_of_requireEdge (forM_eq_ok_iff.mp hobserved sourceVintageId (by simpa using hown))
  · exact leads_of_requireEdge (forM_eq_ok_iff.mp hreuses sourceVintageId (by simpa using hreused))

theorem linked_of_validateClosedBundle (h : bundle.validateClosedBundle = .ok ()) : Linked bundle := by
  unfold DataHubInterfaceBundle.validateClosedBundle at h
  obtain ⟨found, hfound, h⟩ := bind_eq_ok_iff.mp h
  have hindex := indexOf_of_indexes hfound
  obtain ⟨-, h⟩ := check_bind_eq_ok_iff.mp h
  obtain ⟨-, h⟩ := check_bind_eq_ok_iff.mp h
  obtain ⟨hworkItems, h⟩ := check_bind_eq_ok_iff.mp h
  obtain ⟨_, -, h⟩ := bind_eq_ok_iff.mp h
  obtain ⟨-, h⟩ := check_bind_eq_ok_iff.mp h
  obtain ⟨bound, -, h⟩ := bind_eq_ok_iff.mp h
  obtain ⟨-, h⟩ := check_bind_eq_ok_iff.mp h
  obtain ⟨attemptsByWork, hattempts, h⟩ := bind_eq_ok_iff.mp h
  obtain ⟨-, h⟩ := check_bind_eq_ok_iff.mp h
  obtain ⟨resultByAttempt, hresults, h⟩ := bind_eq_ok_iff.mp h
  obtain ⟨-, h⟩ := check_bind_eq_ok_iff.mp h
  obtain ⟨hvintages, h⟩ := check_bind_eq_ok_iff.mp h
  obtain ⟨_, -, h⟩ := bind_eq_ok_iff.mp h
  obtain ⟨-, h⟩ := check_bind_eq_ok_iff.mp h
  obtain ⟨-, h⟩ := check_bind_eq_ok_iff.mp h
  obtain ⟨hobservations, h⟩ := check_bind_eq_ok_iff.mp h
  obtain ⟨-, h⟩ := check_bind_eq_ok_iff.mp h
  obtain ⟨hnodes, hedges⟩ := check_bind_eq_ok_iff.mp h
  rw [hindex.attemptResults] at hresults
  obtain ⟨hwork, hattempt, hnormalized⟩ := edges_of_checkEdges hedges
  obtain ⟨hnode, hincoming⟩ := of_checkNodes hnodes
  have hresult : ∀ result ∈ bundle.attemptResults, ∃ attempt ∈ bundle.attempts, attempt.attemptId = result.attemptId ∧
      Leads bundle.provenance.edges result.attemptId result.attemptResultId ∧
      ∀ sourceVintageId, result.Names sourceVintageId → Leads bundle.provenance.edges result.attemptResultId sourceVintageId := by
    intro result hmem
    obtain ⟨hkey, hget⟩ := resultByAttempt_of_foldlM hresults result hmem
    obtain ⟨attempt, hmemAttempt, hid⟩ := hindex.attempts _ hkey
    rw [← hid] at hget ⊢
    exact ⟨attempt, hmemAttempt, rfl, (edges_of_checkAttemptEdges hget (hattempt attempt hmemAttempt)).2⟩
  have hown : ∀ attempt ∈ bundle.attempts, Leads bundle.provenance.edges attempt.workItemId attempt.attemptId := by
    intro attempt hmem
    obtain ⟨hattempted, -⟩ := check_bind_eq_ok_iff.mp (hattempt attempt hmem)
    exact leads_of_requireEdge hattempted
  exact {
    campaign := fun workItem hmem =>
      hindex.campaigns _ (of_decide_eq_true (require_eq_ok_iff.mp (forM_eq_ok_iff.mp hworkItems workItem hmem))).1
    workItem := fun attempt hmem => hindex.workItems _ (workItem_of_foldlM hattempts attempt hmem)
    attempt := fun result hmem => (hresult result hmem).imp fun _ hattempt => ⟨hattempt.1, hattempt.2.1⟩
    rawObject := fun vintage hmem => by
      obtain ⟨-, hraw⟩ := check_bind_eq_ok_iff.mp (forM_eq_ok_iff.mp hvintages vintage hmem)
      exact hindex.rawObjects _ (of_decide_eq_true (require_eq_ok_iff.mp hraw))
    vintage := fun observation hmem => by
      obtain ⟨hvintage, -⟩ := check_bind_eq_ok_iff.mp (forM_eq_ok_iff.mp hobservations observation hmem)
      exact hindex.sourceVintages _ (of_decide_eq_true (require_eq_ok_iff.mp hvintage))
    contains := fun workItem hmem => (hwork workItem hmem).1
    dispatches := fun workItem hmem => (hwork workItem hmem).2
    attemptedBy := hown
    completes := fun result hmem => (hresult result hmem).elim fun _ hattempt => hattempt.2.2.1
    names := fun result hmem => (hresult result hmem).elim fun _ hattempt => hattempt.2.2.2
    normalizedAs := hnormalized
    node := hnode
    incoming := fun key hkey => (hincoming key hkey).imp_right mem_campaigns_of_mem }

def TracesBack (bundle : DataHubInterfaceBundle) (observation : NormalizedObservation) : Prop :=
  ∃ ids, bundle.provenance.reverseNodeIds observation.observationId = .ok ids ∧
    (∃ vintage ∈ bundle.sourceVintages, vintage.sourceVintageId = observation.sourceVintageId ∧
      vintage.sourceVintageId ∈ ids ∧ ∃ raw ∈ bundle.rawObjects, raw.rawObjectId = vintage.rawObjectId) ∧
    (∃ result ∈ bundle.attemptResults, result.attemptResultId ∈ ids) ∧
    ∃ campaign ∈ bundle.campaigns, campaign.campaignId ∈ ids

theorem Linked.exists_campaign (h : Linked bundle) (hresult : result ∈ bundle.attemptResults) : ∃ campaign ∈ bundle.campaigns,
      Relation.TransGen (Leads bundle.provenance.edges) campaign.campaignId result.attemptResultId := by
  obtain ⟨attempt, hattempt, hid⟩ := h.attempt result hresult
  obtain ⟨workItem, hworkItem, hwork⟩ := h.workItem attempt hattempt
  obtain ⟨campaign, hcampaign, hroot⟩ := h.campaign workItem hworkItem
  have hattempted := h.attemptedBy attempt hattempt
  have hcompletes := h.completes result hresult
  have hcontains := h.contains workItem hworkItem
  rw [← hwork] at hattempted
  rw [← hid] at hcompletes
  rw [← hroot] at hcontains
  exact ⟨campaign, hcampaign,
    (((Relation.TransGen.single hcontains).tail (h.dispatches workItem hworkItem)).tail hattempted).tail hcompletes⟩

variable {observation : NormalizedObservation}

theorem Linked.observation_mem (h : Linked bundle) (hobservation : observation ∈ bundle.observations) :
    observation.observationId ∈ bundle.provenance.nodeIds := by
  refine h.node (observation.observationId, .normalizedObservation) ?_
  simp only [requiredNodes, List.mem_append, List.mem_map, Prod.mk.injEq]
  exact Or.inl (Or.inr ⟨observation, hobservation, rfl, trivial⟩)

/-- An observation of a closed bundle traces back to a result and a campaign exactly when a result leads to it. -/
theorem tracesBack_iff {bundle : DataHubInterfaceBundle} (h : bundle.validateClosedBundle = .ok ())
    {observation : NormalizedObservation} (hobservation : observation ∈ bundle.observations) :
    TracesBack bundle observation ↔ ∃ result ∈ bundle.attemptResults,
      Relation.TransGen (Leads bundle.provenance.edges) result.attemptResultId observation.observationId := by
  have hlinked := linked_of_validateClosedBundle h
  obtain ⟨ids, hids, hmem⟩ := ProvenanceGraph.mem_reverseNodeIds_iff (hlinked.observation_mem hobservation)
  constructor
  · rintro ⟨ids', hids', -, ⟨result, hresult, hback⟩, -⟩
    rw [hids] at hids'
    cases hids'
    exact ⟨result, hresult, (hmem _).mp hback⟩
  · rintro ⟨result, hresult, hpath⟩
    obtain ⟨vintage, hvintage, hid⟩ := hlinked.vintage observation hobservation
    have hnormalized := hlinked.normalizedAs observation hobservation
    rw [← hid] at hnormalized
    obtain ⟨campaign, hcampaign, hroot⟩ := hlinked.exists_campaign hresult
    exact ⟨ids, hids, ⟨vintage, hvintage, hid, (hmem _).mpr (.single hnormalized), hlinked.rawObject vintage hvintage⟩,
      ⟨result, hresult, (hmem _).mpr hpath⟩, campaign, hcampaign, (hmem _).mpr (hroot.trans hpath)⟩

theorem Linked.leads_of_names (h : Linked bundle) (hobservation : observation ∈ bundle.observations)
    (hresult : result ∈ bundle.attemptResults) (hnames : result.Names observation.sourceVintageId) :
    Relation.TransGen (Leads bundle.provenance.edges) result.attemptResultId observation.observationId :=
  (Relation.TransGen.single (h.names result hresult _ hnames)).tail (h.normalizedAs observation hobservation)

def sampleNode (nodeId : String) (kind : ProvenanceNodeKind) : ProvenanceNode := ⟨nodeId, kind, none⟩

def sampleNodes : List ProvenanceNode :=
  [sampleNode "attempt" .fetchAttempt, sampleNode "campaign" .campaign, sampleNode "obligation" .listObligation,
    sampleNode "observation" .normalizedObservation, sampleNode "raw" .rawObject, sampleNode "request" .sourceRequest,
    sampleNode "result" .fetchAttemptResult, sampleNode "run" .run, sampleNode "snapshot" .snapshot,
    sampleNode "vintage" .sourceVintage, sampleNode "work" .workItem]

def sampleEdges (observed : Bool) : List ProvenanceEdge :=
  [⟨"a", "campaign", .contains, "run", 0, by decide⟩, ⟨"b", "run", .requires, "obligation", 0, by decide⟩,
    ⟨"c", "obligation", .satisfiedBy, "work", 0, by decide⟩, ⟨"d", "campaign", .contains, "request", 0, by decide⟩,
    ⟨"e", "request", .dispatches, "work", 0, by decide⟩, ⟨"f", "work", .attemptedBy, "attempt", 0, by decide⟩,
    ⟨"g", "attempt", .completes, "result", 0, by decide⟩, ⟨"h", "vintage", .archivesAs, "raw", 0, by decide⟩,
    ⟨"i", "vintage", .normalizedAs, "observation", 0, by decide⟩,
    if observed then ⟨"j", "result", .observed, "vintage", 0, by decide⟩
    else ⟨"j", "snapshot", .selectedInto, "vintage", 0, by decide⟩]

def sampleRank (node : String) : ℕ :=
  ["campaign", "run", "obligation", "request", "work", "attempt", "result", "snapshot", "vintage"].idxOf node

theorem sampleEdges_noCycle (observed : Bool) : NoCycle (sampleEdges observed) := by
  refine noCycle_of_rank sampleRank ?_
  cases observed <;> decide +kernel

def sampleGraph (observed : Bool) : ProvenanceGraph where
  schemaVersion := "provenance-schema:v2"
  nodes := sampleNodes
  edges := sampleEdges observed
  nodes_nonempty := by simp [sampleNodes]
  nodes_sorted := by decide +kernel
  edges_sorted := by cases observed <;> decide +kernel
  closed := by cases observed <;> (unfold Closed; decide +kernel)
  noCycle := sampleEdges_noCycle observed

def sampleUniverse : UniverseRef where
  universeId := "tiny-alpha"
  universeVersion := "v1"
  contentSha256 := "aaaaaaaaaaaaaaaaaaaaaaaaaaaaaaaaaaaaaaaaaaaaaaaaaaaaaaaaaaaaaaaa"
  universeId_valid := by decide +kernel
  universeVersion_valid := by decide +kernel
  contentSha256_valid := by decide +kernel

def sampleSubject : SubjectRef := ⟨.listing, "listing-1", listingSubject.id_valid⟩

def sampleRetry : RetryPolicy where
  maxAttempts := 1
  retryableOutcomes := [.rateLimited]
  terminalOutcomes := [.failed, .success, .unavailable, .unchanged]
  positive := by decide
  bounded := by decide
  apart := by decide
  required := by decide

def sampleObservation : NormalizedObservation where
  observationId := "observation"
  contentSha256 := ""
  semanticType := "daily-bar"
  semanticVersion := "v1"
  subject := sampleSubject
  validFrom := 0
  knowableAt := 1
  sourceVintageId := "vintage"
  normalizedPayloadSha256 := ""
  supersedesObservationId := none
  proper := by decide

def sampleAttemptResult : Bool → InterfaceBundle.FetchAttemptResult
  | true => ⟨"result", "", "attempt", 1, .success, some "vintage", none, by simp [VintagesNamed]⟩
  | false => ⟨"result", "", "attempt", 1, .unavailable, none, none, by simp [VintagesNamed]⟩

def sampleBundle (observed : Bool) : DataHubInterfaceBundle where
  schedulePolicies := [⟨"policy", "", sampleRetry⟩]
  campaigns := [⟨"campaign", "", [sampleUniverse]⟩]
  runs := [⟨"run", "", "campaign", "policy"⟩]
  obligations := [⟨"obligation", "", "run", sampleUniverse, sampleSubject, "daily-bar:v1", "2025-01-03"⟩]
  sourceRequests := [⟨"request", "", [sampleSubject], ["daily-bar:v1"], "2025-01-03"⟩]
  workItems := [⟨"work", "", "campaign", "request", "policy"⟩]
  bindings := [⟨"binding", "", "obligation", "work"⟩]
  attempts := [⟨"attempt", "", "work", 1, 0, by decide⟩]
  attemptResults := [sampleAttemptResult observed]
  rawObjects := [⟨"raw", ""⟩]
  sourceVintages := [⟨"vintage", "", "request", "raw"⟩]
  results := [⟨"obligation-result", "", "obligation", if observed then .success else .unavailable, some "attempt",
    by cases observed <;> decide⟩]
  observations := [sampleObservation]
  assessments := []
  provenance := sampleGraph observed
  nonempty := by simp

theorem sampleBundle_closed (observed : Bool) : (sampleBundle observed).validateClosedBundle = .ok () := by
  cases observed <;> decide +kernel

/-- Where the attempt observed the vintage, the observation traces back. -/
theorem tracesBack_iff_sample :
    sampleObservation ∈ (sampleBundle true).observations ∧ TracesBack (sampleBundle true) sampleObservation := by
  have hmem : sampleObservation ∈ (sampleBundle true).observations := List.mem_singleton.mpr rfl
  have hclosed := sampleBundle_closed true
  refine ⟨hmem, (tracesBack_iff hclosed hmem).mpr ⟨sampleAttemptResult true, List.mem_singleton.mpr rfl, ?_⟩⟩
  exact (linked_of_validateClosedBundle hclosed).leads_of_names hmem (List.mem_singleton.mpr rfl) (Or.inl rfl)

/-- A closed bundle whose observation traces back to a snapshot only. -/
theorem not_tracesBack : ¬ ∀ bundle : DataHubInterfaceBundle, bundle.validateClosedBundle = .ok () →
    ∀ observation ∈ bundle.observations, TracesBack bundle observation := by
  intro h
  obtain ⟨ids, hids, -, ⟨result, hresult, hback⟩, -⟩ :=
    h (sampleBundle false) (sampleBundle_closed false) sampleObservation (List.mem_singleton.mpr rfl)
  have hreverse : (sampleBundle false).provenance.reverseNodeIds "observation" = .ok ["snapshot", "vintage"] := by
    decide +kernel
  rw [hreverse.symm.trans hids |> Except.ok.inj |>.symm] at hback
  obtain rfl := List.mem_singleton.mp hresult
  revert hback
  decide

end TrueAlpha.Contracts
