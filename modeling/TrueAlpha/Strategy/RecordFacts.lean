import TrueAlpha.Strategy.EvaluatorSpec

/-!
# The facts of records that are not periodic

Keys that are not periodic, and that no other key stands in for, give one fact for each record
(`factsFor_eq`), and the fact of a metric is the one of its key (`findFact_recordFacts`).
-/

namespace TrueAlpha.Strategy

def IssuerInput.recordFact (issuer : IssuerInput) (key : String) (record : Measure × ℚ) : Fact :=
  ⟨issuer.issuerId, metricForKey key, some record.1.value, record.2, none, some record.1.unit⟩

def IssuerInput.recordFacts (issuer : IssuerInput) (keys : List String) : List Fact :=
  keys.filterMap fun key => (issuer.records.get? key).map (issuer.recordFact key)

def IssuerInput.recorded (issuer : IssuerInput) (key : String) : Option ℚ :=
  (issuer.records.get? key).map fun record => record.1.value

def ValidRecord (key : String) (record : Measure × ℚ) : Prop :=
  (unitFamilyOf (metricForKey key)).isSome ∧ 0 ≤ record.2 ∧ record.2 ≤ 1

section

variable {issuer : IssuerInput} {keys : List String}

theorem factsOfKey_eq {key : String} (hperiodic : issuer.periodicRecords.get? key = none)
    (hdirect : issuer.recordFor key = issuer.records.get? key)
    (hvalid : ∀ record, issuer.records.get? key = some record → ValidRecord key record) :
    issuer.factsOfKey key = .ok ((issuer.records.get? key).map (issuer.recordFact key)).toList := by
  simp only [IssuerInput.factsOfKey, hperiodic, hdirect]
  cases hrecord : issuer.records.get? key with
  | none => rfl
  | some record =>
    obtain ⟨hmetric, hlow, hhigh⟩ := hvalid record hrecord
    have hregistered : ¬ (unitFamilyOf (metricForKey key)).isNone := by
      rw [Bool.not_eq_true, Option.isNone_eq_false_iff]
      exact hmetric
    have hrange : ¬ (record.2 < 0 ∨ 1 < record.2) := by
      rw [not_or]
      exact ⟨not_lt.mpr hlow, not_lt.mpr hhigh⟩
    simp only [factOf, if_neg hregistered, if_neg hrange]
    rfl

theorem factsFor_eq (hperiodic : ∀ key ∈ keys, issuer.periodicRecords.get? key = none)
    (hdirect : ∀ key ∈ keys, issuer.recordFor key = issuer.records.get? key)
    (hvalid : ∀ key ∈ keys, ∀ record, issuer.records.get? key = some record → ValidRecord key record) :
    issuer.factsFor keys = .ok (issuer.recordFacts keys) := by
  suffices h : ∀ facts, keys.foldlM (fun facts key => do
      let more ← issuer.factsOfKey key
      return facts ++ more) facts = Except.ok (facts ++ issuer.recordFacts keys) from h []
  induction keys with
  | nil =>
    intro facts
    rw [IssuerInput.recordFacts, List.filterMap_nil, List.append_nil]
    rfl
  | cons key keys ih =>
    intro facts
    simp only [List.forall_mem_cons] at hperiodic hdirect hvalid
    rw [List.foldlM_cons, factsOfKey_eq hperiodic.1 hdirect.1 hvalid.1]
    simp only [ok_bind]
    refine (ih hperiodic.2 hdirect.2 hvalid.2 _).trans ?_
    rw [List.append_assoc]
    cases hrecord : issuer.records.get? key <;> simp [IssuerInput.recordFacts, hrecord]

theorem filter_recordFacts (metric : String) :
    (issuer.recordFacts keys).filter (fun fact => fact.entityId = issuer.issuerId ∧ fact.metric = metric) =
      issuer.recordFacts (keys.filter fun key => metricForKey key = metric) := by
  induction keys with
  | nil => rfl
  | cons key keys ih =>
    cases hrecord : issuer.records.get? key with
    | none =>
      by_cases hmetric : metricForKey key = metric <;>
        simpa [IssuerInput.recordFacts, hrecord, hmetric] using ih
    | some record =>
      by_cases hmetric : metricForKey key = metric <;>
        simpa [IssuerInput.recordFacts, hrecord, hmetric, IssuerInput.recordFact] using ih

theorem findFact_recordFacts_none {metric : String} (h : metric ∉ keys.map metricForKey) :
    findFact (issuer.recordFacts keys) issuer.issuerId metric = .ok none := by
  have hfilter : (keys.filter fun key => metricForKey key = metric) = [] := by
    rw [List.filter_eq_nil_iff]
    intro key hkey hmetric
    exact h (List.mem_map.mpr ⟨key, hkey, of_decide_eq_true hmetric⟩)
  rw [findFact, filter_recordFacts, hfilter]
  rfl

theorem findFact_recordFacts (hnodup : (keys.map metricForKey).Nodup) {key : String} (hkey : key ∈ keys) :
    findFact (issuer.recordFacts keys) issuer.issuerId (metricForKey key) =
      .ok ((issuer.records.get? key).map (issuer.recordFact key)) := by
  have hfilter : (keys.filter fun other => metricForKey other = metricForKey key) = [key] := by
    have hinj : ∀ other ∈ keys, metricForKey other = metricForKey key ↔ other = key := by
      intro other hother
      exact ⟨fun h => List.inj_on_of_nodup_map hnodup hother hkey h, fun h => by rw [h]⟩
    have hcongr : (keys.filter fun other => metricForKey other = metricForKey key) = keys.filter fun other => other = key := by
      apply List.filter_congr
      intro other hother
      exact decide_eq_decide.mpr (hinj other hother)
    have hcount : keys.count key = 1 := List.count_eq_one_of_mem (List.Nodup.of_map _ hnodup) hkey
    rw [hcongr, List.filter_eq, hcount, List.replicate_one]
  rw [findFact, filter_recordFacts, hfilter]
  cases hrecord : issuer.records.get? key <;> simp [IssuerInput.recordFacts, hrecord]

end

end TrueAlpha.Strategy
