import Mathlib
import TrueAlpha.Contracts.VendorAccounts
import TrueAlpha.Lib.Sort

/-!
# Scheduled universes

The universe records and the three answers to whether a universe is scheduled.  The pattern of an id prefix makes the prefixes
of a contract prefix-free, so the answers agree (`one_answer_to_scheduled`).
-/

namespace TrueAlpha.Contracts

/-! ## Records -/

inductive UniverseStatus where
  | scheduled
  | stopped
  deriving DecidableEq, Repr

inductive UniverseRole where
  | strategy
  | fundConsolidation
  | sentinel
  deriving DecidableEq, Repr

inductive MembershipKind where
  | frozenCorpus
  | indexApi
  | nport
  | static
  deriving DecidableEq, Repr

/-- `[a-z]`. -/
def isLowerLetter (c : Char) : Bool := 'a' ≤ c ∧ c ≤ 'z'

/-- `[a-z0-9]`. -/
def isKeyLetter (c : Char) : Bool := isLowerLetter c ∨ ('0' ≤ c ∧ c ≤ '9')

def universeMark : List Char := "universe:".toList

/-- `^universe:[a-z0-9]+-[a-z]{2}-$`. -/
def matchesIdPrefix (text : String) : Bool := universeMark.isPrefixOf text.toList &&
    let body := text.toList.drop universeMark.length
    body.takeWhile isKeyLetter ≠ [] &&
      match body.dropWhile isKeyLetter with
      | ['-', first, second, '-'] => isLowerLetter first && isLowerLetter second
      | _ => false

/-- `UniverseRecord`, whose cron is read for its environments. -/
structure UniverseRecord where
  idPrefix : String
  laneName : String
  membership : MembershipKind
  roles : List UniverseRole
  cron : List EnvironmentKey
  idPrefix_matches : matchesIdPrefix idPrefix = true
  laneName_ne : laneName ≠ ""
  cron_ne_nil : cron ≠ []

def UniverseRecord.isSentinel (record : UniverseRecord) : Bool := .sentinel ∈ record.roles

structure EnvironmentUniverse where
  key : String
  status : UniverseStatus
  deriving DecidableEq, Repr

structure EnvironmentSpec where
  universes : List EnvironmentUniverse
  listRefresh : List String
  ticks : List String
  nodup_universes : (universes.map EnvironmentUniverse.key).Nodup
  nodup_listRefresh : listRefresh.Nodup

structure EnvironmentContract where
  universes : Dict String UniverseRecord
  environments : Dict String EnvironmentSpec
  universes_ne_nil : universes.items ≠ []
  nodup_prefixes : (universes.items.map fun item => item.2.idPrefix).Nodup
  nodup_lanes : (universes.items.map fun item => item.2.laneName).Nodup
  ticks_agree : ∀ environment ∈ environments.items, ∀ item ∈ universes.items,
    item.1 ∈ environment.2.ticks ↔ environment.1 ∈ item.2.cron.map EnvironmentKey.name
  ticks_known : ∀ environment ∈ environments.items, ∀ key ∈ environment.2.ticks, key ∈ universes.keys
  listed_known : ∀ environment ∈ environments.items, ∀ entry ∈ environment.2.universes, entry.key ∈ universes.keys
  listRefresh_known : ∀ environment ∈ environments.items, ∀ key ∈ environment.2.listRefresh, ∃ record,
    universes.get? key = some record ∧ record.membership ∈ [.indexApi, .nport]
  listed_agree : ∀ environment ∈ environments.items, ∀ item ∈ universes.items,
    item.1 ∈ environment.2.universes.map EnvironmentUniverse.key ↔ item.1 ∈ environment.2.ticks ∧ item.2.isSentinel = false
  required : ∀ key ∈ environmentKeys, key.name ∈ environments.keys

/-- What was asked for, and what the records hold. -/
inductive UnknownUniverse where
  | key (key : String) (known : List String)
  | id (universeId : String) (prefixes : List String)
  deriving DecidableEq, Repr

def startsWith (text mark : String) : Bool := mark.toList.isPrefixOf text.toList

namespace EnvironmentContract

variable (contract : EnvironmentContract)

def record (key : String) : Except UnknownUniverse UniverseRecord :=
  match contract.universes.get? key with
  | some record => .ok record
  | none => .error (.key key (sortedBy id contract.universes.keys))

def matchingKeys (universeId : String) : List String :=
  (contract.universes.items.filter fun item => startsWith universeId item.2.idPrefix).map Prod.fst

def prefixLength (key : String) : ℕ := ((contract.universes.get? key).map fun record => record.idPrefix.length).getD 0

def universeOfId (universeId : String) : Except UnknownUniverse String :=
  match (contract.matchingKeys universeId).argmax contract.prefixLength with
  | some key => .ok key
  | none => .error (.id universeId (sortedBy id (contract.universes.items.map fun item => item.2.idPrefix)))

def universeStatus (spec : EnvironmentSpec) (key : String) : Option UniverseStatus :=
  (spec.universes.find? fun entry => entry.key = key).map EnvironmentUniverse.status

def isRecordScheduled (key : String) (record : UniverseRecord) (environment : String) : Bool :=
  match contract.environments.get? (normalizeEnvironment environment) with
  | none => false
  | some spec =>
    key ∈ spec.ticks ∧ (record.isSentinel ∨ universeStatus spec key = some .scheduled)

def isUniverseScheduled (key environment : String) : Except UnknownUniverse Bool :=
  (contract.record key).map fun record => contract.isRecordScheduled key record environment

def unscheduledIdPrefixes : Dict String (List String) :=
  Dict.ofList ((contract.environments.keys.filter fun environment => environment ≠ "preview").map fun environment =>
    (environment, (contract.universes.items.filter fun item =>
      ¬ contract.isRecordScheduled item.1 item.2 environment).map fun item => item.2.idPrefix))

/-- `is_head_scheduled`, where an omitted environment is the empty name. -/
def isHeadScheduled (universeId environment : String) : Bool :=
  match contract.unscheduledIdPrefixes.get? (normalizeEnvironment environment) with
  | none => true
  | some prefixes => ¬ prefixes.any (startsWith universeId)

end EnvironmentContract

theorem not_isKeyLetter_hyphen : isKeyLetter '-' = false := by decide

theorem of_matchesIdPrefix {text : String} (h : matchesIdPrefix text = true) : ∃ name first second,
    text.toList = universeMark ++ (name ++ ['-', first, second, '-']) ∧ ∀ c ∈ name, isKeyLetter c = true := by
  simp only [matchesIdPrefix, Bool.and_eq_true, List.isPrefixOf_iff_prefix] at h
  obtain ⟨⟨body, hbody⟩, -, hrest⟩ := h
  rw [← hbody, List.drop_left] at hrest
  split at hrest
  · rename_i first second hdrop
    refine ⟨body.takeWhile isKeyLetter, first, second, ?_, fun c hc => List.mem_takeWhile_imp hc⟩
    rw [← hdrop, List.takeWhile_append_dropWhile, hbody]
  · cases hrest

theorem takeWhile_name {name : List Char} (rest : List Char) (h : ∀ c ∈ name, isKeyLetter c = true) :
    (name ++ '-' :: rest).takeWhile isKeyLetter = name := by
  rw [List.takeWhile_append_of_pos h, List.takeWhile_cons_of_neg (by rw [not_isKeyLetter_hyphen]; simp), List.append_nil]

theorem eq_idPrefix_of_starts {text text' : String} (h : matchesIdPrefix text = true) (h' : matchesIdPrefix text' = true)
    (hstart : text.toList <+: text'.toList) : text = text' := by
  obtain ⟨name, first, second, htext, hname⟩ := of_matchesIdPrefix h
  obtain ⟨name', first', second', htext', hname'⟩ := of_matchesIdPrefix h'
  obtain ⟨rest, hrest⟩ := hstart
  rw [htext, htext', List.append_assoc, List.append_cancel_left_eq, List.append_assoc] at hrest
  -- the first hyphen ends the name in both
  have hnames : name = name' := by
    rw [← takeWhile_name (first :: second :: '-' :: rest) hname, ← takeWhile_name _ hname']
    exact congrArg _ hrest
  subst hnames
  have htail := List.append_cancel_left hrest
  simp only [List.cons_append, List.nil_append, List.cons.injEq, true_and] at htail
  obtain ⟨rfl, rfl, -⟩ := htail
  exact String.toList_inj.mp (htext.trans htext'.symm)

theorem isSpace_toLower (c : Char) : isSpace c.toLower = isSpace c := by
  by_cases hupper : c.isUpper
  · obtain ⟨n, hlow, hhigh, rfl⟩ : ∃ n, 65 ≤ n ∧ n ≤ 90 ∧ c = Char.ofNat n := by
      have hbounds : 65 ≤ c.toNat ∧ c.toNat ≤ 90 := by
        unfold Char.isUpper at hupper
        simpa [UInt32.le_iff_toNat_le] using hupper
      exact ⟨c.toNat, hbounds.1, hbounds.2, (Char.ofNat_toNat c).symm⟩
    interval_cases n <;> decide
  · rw [Char.toLower_eq_of_not_isUpper hupper]

theorem strip_toLower (text : String) : strip text.toLower = (strip text).toLower := by
  have hdrop : ∀ l : List Char, (l.map Char.toLower).dropWhile isSpace = (l.dropWhile isSpace).map Char.toLower := by
    intro l
    rw [List.dropWhile_map]
    congr 2
    funext c
    exact isSpace_toLower c
  rw [← String.toList_inj]
  simp only [strip, String.toLower, String.toList_map, String.toList_ofList, hdrop, ← List.map_reverse]

theorem toLower_toLower (text : String) : text.toLower.toLower = text.toLower := by
  rw [← String.toList_inj]
  simp only [String.toLower, String.toList_map, List.map_map]
  congr 1
  funext c
  exact Char.toLower_toLower_eq_toLower c

theorem normalizeEnvironment_normalizeEnvironment (environment : String) :
    normalizeEnvironment (normalizeEnvironment environment) = normalizeEnvironment environment := by
  by_cases hprod : (strip environment).toLower = "prod"
  · have hname : normalizeEnvironment environment = "production" := if_pos hprod
    rw [hname]
    exact normalizeEnvironment_name .production
  · have hname : normalizeEnvironment environment = (strip environment).toLower := if_neg hprod
    have hstrip : strip (strip environment).toLower = (strip environment).toLower := by
      rw [strip_toLower, strip_strip]
    rw [hname, normalizeEnvironment, hstrip, toLower_toLower]
    exact if_neg hprod

/-! ## One answer -/

namespace EnvironmentContract

variable {contract : EnvironmentContract} {universeId : String}

theorem item_eq {item item' : String × UniverseRecord} (hitem : item ∈ contract.universes.items)
    (hitem' : item' ∈ contract.universes.items) (h : startsWith universeId item.2.idPrefix = true)
    (h' : startsWith universeId item'.2.idPrefix = true) : item = item' := by
  have hstart := List.isPrefixOf_iff_prefix.mp h
  have hstart' := List.isPrefixOf_iff_prefix.mp h'
  have hsame : item.2.idPrefix = item'.2.idPrefix := by
    rcases List.prefix_or_prefix_of_prefix hstart hstart' with hstarts | hstarts
    · exact eq_idPrefix_of_starts item.2.idPrefix_matches item'.2.idPrefix_matches hstarts
    · exact (eq_idPrefix_of_starts item'.2.idPrefix_matches item.2.idPrefix_matches hstarts).symm
  exact List.inj_on_of_nodup_map contract.nodup_prefixes hitem hitem' hsame

theorem mem_matchingKeys_iff {key : String} : key ∈ contract.matchingKeys universeId ↔
    ∃ record, (key, record) ∈ contract.universes.items ∧ startsWith universeId record.idPrefix = true := by
  simp only [matchingKeys, List.mem_map, List.mem_filter]
  constructor
  · rintro ⟨⟨key, record⟩, hmem, rfl⟩
    exact ⟨record, hmem⟩
  · rintro ⟨record, hmem⟩
    exact ⟨(key, record), hmem, rfl⟩

theorem universeOfId_eq_ok_iff {key : String} : contract.universeOfId universeId = .ok key ↔
    ∃ record, (key, record) ∈ contract.universes.items ∧ startsWith universeId record.idPrefix = true := by
  rw [← mem_matchingKeys_iff]
  unfold universeOfId
  split
  · rename_i picked hpicked
    have hmem := List.argmax_mem hpicked
    constructor
    · rintro ⟨⟩
      exact hmem
    · intro hkey
      obtain ⟨record, hrecord, hstarts⟩ := mem_matchingKeys_iff.mp hmem
      obtain ⟨record', hrecord', hstarts'⟩ := mem_matchingKeys_iff.mp hkey
      exact congrArg (fun item => Except.ok item.1) (item_eq hrecord hrecord' hstarts hstarts')
  · rename_i hnone
    rw [List.argmax_eq_none.mp hnone]
    exact ⟨fun h => (by cases h), fun h => absurd h List.not_mem_nil⟩

theorem universeOfId_perm {other : EnvironmentContract} (h : other.universes.items.Perm contract.universes.items) :
    other.universeOfId universeId = contract.universeOfId universeId := by
  rcases hanswer : contract.universeOfId universeId with error | key
  · rcases hother : other.universeOfId universeId with error' | key
    · unfold universeOfId at hanswer hother
      split at hanswer
      · cases hanswer
      · split at hother
        · cases hother
        · cases hanswer
          cases hother
          rw [sortedBy_eq_of_perm id (h.map fun item => item.2.idPrefix) (by
            rw [List.map_id]
            exact other.nodup_prefixes)]
    · obtain ⟨record, hmem, hstarts⟩ := universeOfId_eq_ok_iff.mp hother
      rw [universeOfId_eq_ok_iff.mpr ⟨record, h.mem_iff.mp hmem, hstarts⟩] at hanswer
      cases hanswer
  · obtain ⟨record, hmem, hstarts⟩ := universeOfId_eq_ok_iff.mp hanswer
    exact universeOfId_eq_ok_iff.mpr ⟨record, h.mem_iff.mpr hmem, hstarts⟩

theorem get?_unscheduledIdPrefixes {environment : String} (hdeclared : environment ∈ contract.environments.keys)
    (hgates : environment ≠ "preview") : contract.unscheduledIdPrefixes.get? environment =
      some ((contract.universes.items.filter fun item =>
        ¬ contract.isRecordScheduled item.1 item.2 environment).map fun item => item.2.idPrefix) := by
  refine (Dict.get?_ofList_eq_some_iff ?_ _ _).mpr ?_
  · rw [List.map_map, Function.comp_def, List.map_id']
    exact contract.environments.nodup.filter _
  · refine List.mem_map.mpr ⟨environment, List.mem_filter.mpr ⟨hdeclared, by simpa using hgates⟩, rfl⟩

theorem isRecordScheduled_normalize (key : String) (record : UniverseRecord) (environment : String) :
    contract.isRecordScheduled key record (normalizeEnvironment environment) =
      contract.isRecordScheduled key record environment := by
  rw [isRecordScheduled, isRecordScheduled, normalizeEnvironment_normalizeEnvironment]

theorem isHeadScheduled_iff {key environment : String} (hkey : contract.universeOfId universeId = .ok key)
    (hdeclared : normalizeEnvironment environment ∈ contract.environments.keys)
    (hgates : normalizeEnvironment environment ≠ "preview") :
    contract.isHeadScheduled universeId environment = true ↔ contract.isUniverseScheduled key environment = .ok true := by
  obtain ⟨record, hmem, hstarts⟩ := universeOfId_eq_ok_iff.mp hkey
  have hget : contract.universes.get? key = some record := (Dict.get?_eq_some_iff _ _ _).mpr hmem
  have hschedule : contract.isUniverseScheduled key environment =
      .ok (contract.isRecordScheduled key record (normalizeEnvironment environment)) := by
    rw [isUniverseScheduled, EnvironmentContract.record, hget, isRecordScheduled_normalize]
    rfl
  rw [hschedule, Except.ok.injEq]
  simp only [isHeadScheduled, get?_unscheduledIdPrefixes hdeclared hgates, decide_eq_true_eq, List.any_eq_true,
    List.mem_map, List.mem_filter]
  constructor
  · intro hnone
    by_contra hunscheduled
    exact hnone ⟨record.idPrefix, ⟨(key, record), ⟨hmem, hunscheduled⟩, rfl⟩, hstarts⟩
  · rintro hscheduled ⟨_, ⟨item, ⟨hitem, hunscheduled⟩, rfl⟩, hitemStarts⟩
    cases item_eq hmem hitem hstarts hitemStarts
    exact hunscheduled hscheduled

end EnvironmentContract

/-- At most one record matches an id, so `universe_of_id` depends on no order; where a declared environment gates its heads, a
head is scheduled exactly when its universe is. -/
theorem one_answer_to_scheduled (contract : EnvironmentContract) (universeId : String) :
    (∀ item ∈ contract.universes.items, ∀ item' ∈ contract.universes.items,
      startsWith universeId item.2.idPrefix = true → startsWith universeId item'.2.idPrefix = true → item = item') ∧
    (∀ key ∈ contract.matchingKeys universeId, contract.universeOfId universeId = .ok key) ∧
    (∀ other : EnvironmentContract, other.universes.items.Perm contract.universes.items →
      other.universeOfId universeId = contract.universeOfId universeId) ∧
    ∀ key, contract.universeOfId universeId = .ok key → ∀ environment,
      normalizeEnvironment environment ∈ contract.environments.keys → normalizeEnvironment environment ≠ "preview" →
      (contract.isHeadScheduled universeId environment = true ↔ contract.isUniverseScheduled key environment = .ok true) := by
  refine ⟨fun item hitem item' hitem' => EnvironmentContract.item_eq hitem hitem', fun key hkey => ?_,
    fun other => EnvironmentContract.universeOfId_perm, fun key hkey environment =>
      EnvironmentContract.isHeadScheduled_iff hkey⟩
  exact EnvironmentContract.universeOfId_eq_ok_iff.mpr (EnvironmentContract.mem_matchingKeys_iff.mp hkey)

def toptRecord : UniverseRecord where
  idPrefix := "universe:topt-us-"
  laneName := "topt"
  membership := .frozenCorpus
  roles := [.strategy]
  cron := [.staging]
  idPrefix_matches := by decide +kernel
  laneName_ne := by decide
  cron_ne_nil := by decide

def quietEnvironment : EnvironmentSpec := ⟨[], [], [], List.nodup_nil, List.nodup_nil⟩

def stagingEnvironment : EnvironmentSpec := ⟨[⟨"topt", .scheduled⟩], [], ["topt"], List.nodup_singleton _, List.nodup_nil⟩

def sampleContract : EnvironmentContract where
  universes := ⟨[("topt", toptRecord)], List.nodup_singleton _⟩
  environments := ⟨[("preview", quietEnvironment), ("staging", stagingEnvironment), ("production", quietEnvironment),
    ("QA", quietEnvironment)], by decide⟩
  universes_ne_nil := List.cons_ne_nil _ _
  nodup_prefixes := List.nodup_singleton _
  nodup_lanes := List.nodup_singleton _
  ticks_agree := by decide
  ticks_known := by decide
  listed_known := by decide
  listRefresh_known := by simp [quietEnvironment, stagingEnvironment]
  listed_agree := by decide
  required := by decide

/-- In an environment whose declared name is not normal, a head is scheduled that no universe schedules. -/
theorem capital_environment_disagrees : ¬ ∀ (contract : EnvironmentContract) (universeId key environment : String),
    contract.universeOfId universeId = .ok key → environment ∈ contract.environments.keys → environment ≠ "preview" →
    (contract.isHeadScheduled universeId environment = true ↔ contract.isUniverseScheduled key environment = .ok true) := by
  intro hall
  have hiff := hall sampleContract "universe:topt-us-2026-09-30" "topt" "QA" (by decide +kernel) (by decide) (by decide)
  revert hiff
  decide +kernel

/-- The answers agree under a capital alias of a declared environment. -/
theorem one_answer_to_scheduled_sample : sampleContract.isHeadScheduled "universe:topt-us-2026-09-30" "Prod" = true ↔
      sampleContract.isUniverseScheduled "topt" "Prod" = .ok true :=
  (one_answer_to_scheduled sampleContract "universe:topt-us-2026-09-30").2.2.2 "topt" (by decide +kernel) "Prod"
    (by decide +kernel) (by decide +kernel)

end TrueAlpha.Contracts
