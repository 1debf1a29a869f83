import TrueAlpha.Strategy.Gates

/-!
# The rules on the inputs of an issuer

The rules of `_evaluate_issuer` as predicates of an input key: `Missing`, `Old`, `OldPeriod`, and the confidence floor last. A
refused issuer has the reason of the first that fails (`inputGate_of_firstFailure`).
-/

namespace TrueAlpha.Strategy

namespace IssuerInput

variable (issuer : IssuerInput)

def Missing (key : String) : Prop := issuer.recordFor key = none

def knowableFor (key : String) : Option Instant := issuer.knowableAt.get? (resolveBankNumeratorKey key issuer.knowableAt.keys)

def Old (asOf : Instant) (maximumAgeDays : ℕ) (key : String) : Prop :=
  ∃ instant ∈ issuer.knowableFor key, (maximumAgeDays : ℤ) * microsPerDay < asOf - instant

def OldPeriod (asOf : Instant) (maximumAgeDays : ℕ) (key : String) : Prop :=
  ∃ record ∈ issuer.recordFor key, ∃ finish, periodEndOf record.1.period = .ok (some finish) ∧
    (maximumAgeDays : ℤ) < utcDate asOf - finish

end IssuerInput

variable {reason : ExclusionReason}

section

variable {issuer : IssuerInput} {definition : StrategyDefinition} {asOf : Instant} {maximumAgeDays : ℕ}
  {key : String} {keys consumed : List String} {required : List (String × ExclusionReason)} {stale : Bool}
  {confidence : ℚ}

theorem get?_resolveBankNumeratorKey (issuer : IssuerInput) (key : String) :
    issuer.records.get? (resolveBankNumeratorKey key issuer.records.keys) = issuer.recordFor key := by
  unfold resolveBankNumeratorKey IssuerInput.recordFor
  by_cases hkey : key ∈ issuer.records.keys
  · obtain ⟨record, hrecord⟩ := (Dict.mem_keys_iff _ _).mp hkey
    rw [if_pos hkey, hrecord]
  · have hnone := (Dict.get?_eq_none_iff _ _).mpr hkey
    rw [if_neg hkey, hnone]
    dsimp only
    by_cases hpre : "pre_provision_profit" ∈ issuer.records.keys
    · obtain ⟨record, hrecord⟩ := (Dict.mem_keys_iff _ _).mp hpre
      have hne : key ≠ "pre_provision_profit" := fun h => hkey (h ▸ hpre)
      by_cases hbank : key = "bank_net_revenue"
      · rw [if_pos (.inr hbank), if_pos hpre, if_neg hne, if_pos hbank, hrecord]
        rfl
      · rw [if_neg (not_or.mpr ⟨hne, hbank⟩), if_neg hne, if_neg hbank, hnone]
    · have hpreNone := (Dict.get?_eq_none_iff _ _).mpr hpre
      by_cases hbank : key = "pre_provision_profit" ∨ key = "bank_net_revenue"
      · rw [if_pos hbank, if_neg hpre]
        by_cases hgross : "gross_profit" ∈ issuer.records.keys
        · rw [if_pos hgross]
          obtain rfl | rfl := hbank
          · rw [if_pos rfl]
          · rw [if_neg (by decide), if_pos rfl, hpreNone, Option.none_or]
        · rw [if_neg hgross, hnone]
          have hgrossNone := (Dict.get?_eq_none_iff _ _).mpr hgross
          obtain rfl | rfl := hbank
          · rw [if_pos rfl, hgrossNone]
          · rw [if_neg (by decide), if_pos rfl, hpreNone, hgrossNone]
            rfl
      · obtain ⟨hne, hne'⟩ := not_or.mp hbank
        rw [if_neg hbank, if_neg hne, if_neg hne', hnone]

theorem resolved_mem_iff : resolveBankNumeratorKey key issuer.records.keys ∈ issuer.records.keys ↔ ¬ issuer.Missing key := by
  rw [IssuerInput.Missing, ← get?_resolveBankNumeratorKey, Dict.get?_eq_none_iff, not_not]

theorem missingRequiredReason_eq_some_iff : missingRequiredReason issuer required = some reason ↔ ∃ before key after,
      required = before ++ (key, reason) :: after ∧ (∀ entry ∈ before, ¬ issuer.Missing entry.1) ∧ issuer.Missing key := by
  unfold missingRequiredReason
  rw [Option.map_eq_some_iff]
  constructor
  · rintro ⟨⟨key, reason'⟩, hfind, rfl⟩
    obtain ⟨hmissing, before, after, hsplit, hbefore⟩ := List.find?_eq_some_iff_append.mp hfind
    refine ⟨before, key, after, hsplit, fun entry hentry => ?_, ?_⟩
    · simpa [resolved_mem_iff] using hbefore entry hentry
    · simpa [resolved_mem_iff] using hmissing
  · rintro ⟨before, key, after, hsplit, hbefore, hmissing⟩
    refine ⟨(key, reason), List.find?_eq_some_iff_append.mpr ⟨?_, before, after, hsplit, fun entry hentry => ?_⟩, rfl⟩
    · simpa [resolved_mem_iff] using hmissing
    · simpa [resolved_mem_iff] using hbefore entry hentry

theorem missingRequiredReason_eq_none_iff :
    missingRequiredReason issuer required = none ↔ ∀ entry ∈ required, ¬ issuer.Missing entry.1 := by
  unfold missingRequiredReason
  rw [Option.map_eq_none_iff, List.find?_eq_none]
  simp [resolved_mem_iff]

theorem hasStaleRequiredInput_spec (h : hasStaleRequiredInput issuer keys asOf maximumAgeDays = .ok stale) :
    (∀ item ∈ issuer.knowableAt.items, item.2 ≤ asOf) ∧ (∀ key ∈ keys, ∃ instant, issuer.knowableFor key = some instant) ∧
      (stale = true ↔ ∃ key ∈ keys, issuer.Old asOf maximumAgeDays key) := by
  unfold hasStaleRequiredInput at h
  split at h
  · cases h
  · next hfind =>
    dsimp only at h
    split_ifs at h with hunknown
    cases h
    refine ⟨fun item hitem => ?_, fun key hkey => ?_, ?_⟩
    · have hnot := List.find?_eq_none.mp hfind item hitem
      simpa using hnot
    · have hall := List.filter_eq_nil_iff.mp (not_not.mp hunknown)
      have hmem := hall _ (List.mem_map_of_mem hkey)
      exact (Dict.mem_keys_iff _ _).mp (by simpa using hmem)
    · rw [decide_eq_true_iff]
      constructor
      · rintro ⟨_, hmem, instant, hinstant, hold⟩
        obtain ⟨key, hkey, rfl⟩ := List.mem_map.mp hmem
        exact ⟨key, hkey, instant, hinstant, hold⟩
      · rintro ⟨key, hkey, instant, hinstant, hold⟩
        exact ⟨_, List.mem_map_of_mem hkey, instant, hinstant, hold⟩

theorem hasStalePeriod_spec (h : hasStalePeriod issuer asOf maximumAgeDays keys = .ok stale) :
    stale = true ↔ ∃ key ∈ keys, issuer.OldPeriod asOf maximumAgeDays key := by
  induction keys with
  | nil =>
    cases h
    simp
  | cons key rest ih =>
    -- the rule goes on exactly when this key has no old period
    have hrest (hnot : ¬ issuer.OldPeriod asOf maximumAgeDays key)
        (h : hasStalePeriod issuer asOf maximumAgeDays rest = .ok stale) :
        stale = true ↔ ∃ key' ∈ key :: rest, issuer.OldPeriod asOf maximumAgeDays key' := by
      rw [ih h, List.exists_mem_cons_iff, or_iff_right hnot]
    rw [hasStalePeriod] at h
    split at h
    · next hrecord => exact hrest (fun ⟨record, hmem, _⟩ => by cases hrecord.symm.trans hmem) h
    · next measure confidence hrecord =>
      obtain ⟨finish, hfinish, h⟩ := bind_eq_ok_iff.mp h
      have hunique : ∀ day, issuer.OldPeriod asOf maximumAgeDays key → finish = some day →
          (maximumAgeDays : ℤ) < utcDate asOf - day := by
        rintro day ⟨record, hmem, finish', hfinish', hold⟩ rfl
        cases hrecord.symm.trans hmem
        cases hfinish.symm.trans hfinish'
        exact hold
      cases finish with
      | none =>
        refine hrest (fun ⟨record, hmem, finish', hfinish', _⟩ => ?_) h
        cases hrecord.symm.trans hmem
        cases hfinish.symm.trans hfinish'
      | some day =>
        dsimp only at h
        by_cases hold : (maximumAgeDays : ℤ) < utcDate asOf - day
        · rw [if_pos hold] at h
          obtain rfl := pure_eq_ok_iff.mp h
          exact ⟨fun _ => ⟨key, List.mem_cons_self, _, hrecord, day, hfinish, hold⟩, fun _ => rfl⟩
        · rw [if_neg hold] at h
          exact hrest (fun hperiod => hold (hunique day hperiod rfl)) h

theorem le_minimum_iff {l : List ℚ} {m bound : ℚ} (h : minimum l = .ok m) : bound ≤ m ↔ ∀ y ∈ l, bound ≤ y := by
  cases l with
  | nil => cases h
  | cons x l =>
    cases h
    rw [foldl_min_le_iff, List.forall_mem_cons]

theorem le_consumedConfidenceFor_iff {bound : ℚ} (h : consumedConfidenceFor issuer required = .ok confidence) :
    bound ≤ confidence ↔ ∀ entry ∈ required, ∀ record ∈ issuer.recordFor entry.1, bound ≤ record.2 := by
  rw [le_minimum_iff h]
  simp only [get?_resolveBankNumeratorKey, List.mem_filterMap, Option.map_eq_some_iff]
  constructor
  · intro hall entry hentry record hrecord
    exact hall _ ⟨entry, hentry, record, hrecord, rfl⟩
  · rintro hall _ ⟨entry, hentry, record, hrecord, rfl⟩
    exact hall entry hentry record hrecord

/-! ## The first rule that fails -/

def requiredKeys (definition : StrategyDefinition) (consumed : List String) : List String :=
  (requiredReasons definition.valuationBasis consumed).map Prod.fst

def IssuerInput.Uncertain (issuer : IssuerInput) (definition : StrategyDefinition) (key : String) : Prop :=
  ∃ facts, issuer.factsOfKey key = .ok facts ∧ ∃ fact ∈ facts, ∃ floor ∈ definition.eligibility.minimumConfidence,
    fact.confidence < floor

inductive FirstFailure (definition : StrategyDefinition) (asOf : Instant) (consumed : List String)
    (issuer : IssuerInput) : ExclusionReason → Prop
  | missing {before after : List (String × ExclusionReason)} {key : String} {reason : ExclusionReason}
      (hrequired : requiredReasons definition.valuationBasis consumed = before ++ (key, reason) :: after)
      (hbefore : ∀ entry ∈ before, ¬ issuer.Missing entry.1) (h : issuer.Missing key) :
      FirstFailure definition asOf consumed issuer reason
  | old (hpresent : ∀ key ∈ requiredKeys definition consumed, ¬ issuer.Missing key)
      (h : ∃ key ∈ requiredKeys definition consumed, issuer.Old asOf definition.eligibility.maximumInputAgeDays key) :
      FirstFailure definition asOf consumed issuer .staleRequiredInput
  | oldPeriod (hpresent : ∀ key ∈ requiredKeys definition consumed, ¬ issuer.Missing key)
      (hyoung : ∀ key ∈ requiredKeys definition consumed, ¬ issuer.Old asOf definition.eligibility.maximumInputAgeDays key)
      (h : ∃ key ∈ consumed, issuer.OldPeriod asOf definition.eligibility.maximumInputAgeDays key) :
      FirstFailure definition asOf consumed issuer .stalePeriod
  | uncertain (hpresent : ∀ key ∈ requiredKeys definition consumed, ¬ issuer.Missing key)
      (hyoung : ∀ key ∈ requiredKeys definition consumed, ¬ issuer.Old asOf definition.eligibility.maximumInputAgeDays key)
      (hperiods : ∀ key ∈ consumed, ¬ issuer.OldPeriod asOf definition.eligibility.maximumInputAgeDays key)
      (h : ∃ key ∈ requiredKeys definition consumed, issuer.Uncertain definition key) :
      FirstFailure definition asOf consumed issuer .belowConfidenceFloor

theorem forall_requiredKeys {P : String → Prop} : (∀ key ∈ requiredKeys definition consumed, P key) ↔
    ∀ entry ∈ requiredReasons definition.valuationBasis consumed, P entry.1 := List.forall_mem_map

structure PassedRules (definition : StrategyDefinition) (asOf : Instant) (consumed : List String)
    (issuer : IssuerInput) : Prop where
  present : ∀ key ∈ requiredKeys definition consumed, ¬ issuer.Missing key
  pointInTime : ∀ item ∈ issuer.knowableAt.items, item.2 ≤ asOf
  known : ∀ key ∈ requiredKeys definition consumed, ∃ instant, issuer.knowableFor key = some instant
  young : ∀ key ∈ requiredKeys definition consumed, ¬ issuer.Old asOf definition.eligibility.maximumInputAgeDays key
  periods : ∀ key ∈ consumed, ¬ issuer.OldPeriod asOf definition.eligibility.maximumInputAgeDays key
  confident : ∀ key ∈ requiredKeys definition consumed, ∀ record ∈ issuer.recordFor key,
    ∀ floor ∈ definition.eligibility.minimumConfidence, floor ≤ record.2

theorem not_exists_of_false {α : Type} {p q : α → Prop} (h : false = true ↔ ∃ x, p x ∧ q x) : ∀ x, p x → ¬ q x :=
  fun x hp hq => Bool.false_ne_true (h.mpr ⟨x, hp, hq⟩)

theorem passedRules_of_inputGate (h : inputGate definition asOf consumed issuer = .ok (.passed confidence)) :
    PassedRules definition asOf consumed issuer := by
  obtain ⟨hmissing, hstale, hperiod, hconfidence, hfloor⟩ := inputGate_passed_iff.mp h
  obtain ⟨hpoint, hknown, hold⟩ := hasStaleRequiredInput_spec hstale
  refine ⟨forall_requiredKeys.mpr (missingRequiredReason_eq_none_iff.mp hmissing), hpoint, hknown,
    not_exists_of_false hold, not_exists_of_false (hasStalePeriod_spec hperiod), ?_⟩
  rw [forall_requiredKeys]
  intro entry hentry record hrecord floor hmin
  exact (le_consumedConfidenceFor_iff hconfidence).mp (hfloor floor hmin) entry hentry record hrecord

theorem inputGate_of_passedRules {verdict : GateVerdict} (h : inputGate definition asOf consumed issuer = .ok verdict)
    (hpassed : PassedRules definition asOf consumed issuer) : ∃ confidence, verdict = .passed confidence := by
  have hnone := missingRequiredReason_eq_none_iff.mpr (forall_requiredKeys.mp hpassed.present)
  simp only [inputGate, hnone] at h
  obtain ⟨stale, hstale, h⟩ := bind_eq_ok_iff.mp h
  cases stale with
  | true =>
    obtain ⟨key, hkey, hold⟩ := (hasStaleRequiredInput_spec hstale).2.2.mp rfl
    exact absurd hold (hpassed.young key hkey)
  | false =>
    obtain ⟨period, hperiod, h⟩ := bind_eq_ok_iff.mp h
    cases period with
    | true =>
      obtain ⟨key, hkey, hold⟩ := (hasStalePeriod_spec hperiod).mp rfl
      exact absurd hold (hpassed.periods key hkey)
    | false =>
      obtain ⟨confidence, hconfidence, h⟩ := bind_eq_ok_iff.mp h
      by_cases hfloor : ∃ floor ∈ definition.eligibility.minimumConfidence, confidence < floor
      · obtain ⟨floor, hmin, hlt⟩ := hfloor
        have hle : floor ≤ confidence := by
          rw [le_consumedConfidenceFor_iff hconfidence]
          exact fun entry hentry record hrecord =>
            forall_requiredKeys.mp hpassed.confident entry hentry record hrecord floor hmin
        exact absurd hlt (not_lt.mpr hle)
      · rw [if_neg hfloor] at h
        exact ⟨confidence, (pure_eq_ok_iff.mp h).symm⟩

/-- The gate refuses an issuer with the first failing rule's reason, unless its records reach the confidence floor and its facts
do not. -/
theorem inputGate_of_firstFailure {verdict : GateVerdict}
    (h : inputGate definition asOf consumed issuer = .ok verdict) (hfail : FirstFailure definition asOf consumed issuer reason) :
    (∃ confidence, verdict = .refused reason confidence) ∨
      (∃ confidence, verdict = .passed confidence) ∧ ∃ key ∈ requiredKeys definition consumed, issuer.Uncertain definition key := by
  -- past the first rule, the verdict comes from the next ones
  have hrules (hpresent : ∀ key ∈ requiredKeys definition consumed, ¬ issuer.Missing key) : ∃ stale,
      (stale = true ↔ ∃ key ∈ requiredKeys definition consumed, issuer.Old asOf definition.eligibility.maximumInputAgeDays key) ∧
      (stale = true → verdict = .refused .staleRequiredInput none) ∧ (stale = false → ∃ period,
        (period = true ↔ ∃ key ∈ consumed, issuer.OldPeriod asOf definition.eligibility.maximumInputAgeDays key) ∧
        (period = true → verdict = .refused .stalePeriod none) ∧ (period = false →
          (∃ confidence, verdict = .refused .belowConfidenceFloor confidence) ∨ ∃ confidence, verdict = .passed confidence)) := by
    have hnone := missingRequiredReason_eq_none_iff.mpr (forall_requiredKeys.mp hpresent)
    simp only [inputGate, hnone] at h
    obtain ⟨stale, hstale, h⟩ := bind_eq_ok_iff.mp h
    refine ⟨stale, (hasStaleRequiredInput_spec hstale).2.2, ?_, ?_⟩
    · rintro rfl
      exact (pure_eq_ok_iff.mp h).symm
    · rintro rfl
      obtain ⟨period, hperiod, h⟩ := bind_eq_ok_iff.mp h
      refine ⟨period, hasStalePeriod_spec hperiod, ?_, ?_⟩
      · rintro rfl
        exact (pure_eq_ok_iff.mp h).symm
      · rintro rfl
        obtain ⟨confidence, -, h⟩ := bind_eq_ok_iff.mp h
        split_ifs at h
        · exact .inl ⟨_, (pure_eq_ok_iff.mp h).symm⟩
        · exact .inr ⟨_, (pure_eq_ok_iff.mp h).symm⟩
  cases hfail with
  | missing hrequired hbefore hmissing =>
    have hreason := missingRequiredReason_eq_some_iff.mpr ⟨_, _, _, hrequired, hbefore, hmissing⟩
    simp only [inputGate, hreason] at h
    exact .inl ⟨none, (Except.ok.inj h).symm⟩
  | old hpresent hold =>
    obtain ⟨stale, hiff, hrefused, -⟩ := hrules hpresent
    exact .inl ⟨none, hrefused (hiff.mpr hold)⟩
  | oldPeriod hpresent hyoung hold =>
    obtain ⟨stale, hiff, -, hnext⟩ := hrules hpresent
    have hfalse : stale = false := Bool.eq_false_iff.mpr fun htrue => by
      obtain ⟨key, hkey, h⟩ := hiff.mp htrue
      exact hyoung key hkey h
    obtain ⟨period, hperiod, hrefused, -⟩ := hnext hfalse
    exact .inl ⟨none, hrefused (hperiod.mpr hold)⟩
  | uncertain hpresent hyoung hperiods huncertain =>
    obtain ⟨stale, hiff, -, hnext⟩ := hrules hpresent
    have hfalse : stale = false := Bool.eq_false_iff.mpr fun htrue => by
      obtain ⟨key, hkey, h⟩ := hiff.mp htrue
      exact hyoung key hkey h
    obtain ⟨period, hperiod, -, hlast⟩ := hnext hfalse
    have hfalse' : period = false := Bool.eq_false_iff.mpr fun htrue => by
      obtain ⟨key, hkey, h⟩ := hperiod.mp htrue
      exact hperiods key hkey h
    obtain hrefused | hpassed := hlast hfalse'
    · exact .inl hrefused
    · exact .inr ⟨hpassed, huncertain⟩

end

end TrueAlpha.Strategy
