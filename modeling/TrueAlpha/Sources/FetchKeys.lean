import Mathlib.Data.String.Basic
import TrueAlpha.Lib.QueryText
import TrueAlpha.Lib.Sort
import TrueAlpha.Sources.LandedKeys

/-!
# The keys of requests

The constructors of `datahub.fetch_key`, which split the query parameters over the entity, the as-of and the endpoint label.
Equal keys come from requests for one entity and one as-of (`forRequest_determines`).
-/

namespace TrueAlpha.Sources

open Contracts (strip)
open QueryText (urlencode urlencode_injective urlencode_ne_nil)

inductive FetchKeyError where
  /-- A part without text. -/
  | emptyPart (field value : String)
  /-- A part that holds the separator. -/
  | separatorInPart (field value : String)
  /-- The subscript of an absent parameter. -/
  | missingParam (name : String)
  /-- A ledger key of another number of parts. -/
  | wrongParts (count : ℕ)
  deriving DecidableEq

def ValidPart (part : String) : Prop := strip part ≠ "" ∧ keySeparator ∉ part.toList

def checkPart (field part : String) : Except FetchKeyError (PLift (ValidPart part)) :=
  if hblank : strip part = "" then .error (.emptyPart field part)
  else if hseparator : keySeparator ∈ part.toList then .error (.separatorInPart field part)
  else .ok ⟨hblank, hseparator⟩

variable {seat endpoint canonicalEntityId asOf : String}

theorem parts_valid_of (h₁ : ValidPart seat) (h₂ : ValidPart endpoint) (h₃ : ValidPart canonicalEntityId) (h₄ : ValidPart asOf) :
    ∀ part ∈ [seat, endpoint, canonicalEntityId, asOf], strip part ≠ "" ∧ keySeparator ∉ part.toList := by
  intro part hpart
  simp only [List.mem_cons, List.not_mem_nil, or_false] at hpart
  rcases hpart with rfl | rfl | rfl | rfl
  · exact h₁
  · exact h₂
  · exact h₃
  · exact h₄

/-- `FetchKey(...)`: a key, when each of its parts passes the checks, in order. -/
def FetchKey.make (seat endpoint canonicalEntityId asOf : String) : Except FetchKeyError FetchKey := do
  let hseat ← checkPart "seat" seat
  let hendpoint ← checkPart "endpoint" endpoint
  let hentity ← checkPart "canonical_entity_id" canonicalEntityId
  let hasOf ← checkPart "as_of" asOf
  return ⟨seat, endpoint, canonicalEntityId, asOf, parts_valid_of hseat.down hendpoint.down hentity.down hasOf.down⟩

def FetchKey.parts (key : FetchKey) : List String := [key.seat, key.endpoint, key.canonicalEntityId, key.asOf]

/-- `FetchKey.ledger_key`: the parts, joined by the separator. -/
def FetchKey.ledgerKey (key : FetchKey) : String := String.ofList ([keySeparator].intercalate (key.parts.map String.toList))

def FetchKey.fromLedgerKey (ledgerKey : String) : Except FetchKeyError FetchKey :=
  match (ledgerKey.toList.splitOn keySeparator).map String.ofList with
  | [seat, endpoint, canonicalEntityId, asOf] => FetchKey.make seat endpoint canonicalEntityId asOf
  | parts => .error (.wrongParts parts.length)

section Request

variable (entityParam : String) (asOfParams : List String) (defaultAsOf : String) (exclude : List String)

def remainingParams (params : Dict String String) : List (String × String) :=
  params.items.filter fun item => item.1 ≠ entityParam ∧ item.1 ∉ exclude ∧ item.1 ∉ asOfParams

def requestAsOf (params : Dict String String) : String := (asOfParams.findSome? params.get?).getD defaultAsOf

def requestLabel (endpoint : String) (params : Dict String String) : String :=
  let remaining := remainingParams entityParam asOfParams exclude params
  if remaining = [] then endpoint
  else endpoint ++ String.ofList ('?' :: urlencode (sortedBy Prod.fst remaining))

def FetchKey.forRequest (seat endpoint : String) (params : Dict String String) : Except FetchKeyError FetchKey :=
  match params.get? entityParam with
  | none => .error (.missingParam entityParam)
  | some entity =>
    FetchKey.make seat (requestLabel entityParam asOfParams exclude endpoint params) ("symbol:" ++ entity)
      (requestAsOf asOfParams defaultAsOf params)

end Request

theorem checkPart_of_valid (field : String) {part : String} (h : ValidPart part) : checkPart field part = .ok ⟨h⟩ := by
  unfold checkPart
  rw [dif_neg h.1, dif_neg h.2]

theorem make_eq_ok_iff {key : FetchKey} :
    FetchKey.make seat endpoint canonicalEntityId asOf = .ok key ↔ key.parts = [seat, endpoint, canonicalEntityId, asOf] := by
  unfold FetchKey.make
  constructor
  · simp only [bind_eq_ok_iff, pure_eq_ok_iff]
    rintro ⟨_, -, _, -, _, -, _, -, rfl⟩
    rfl
  · intro hparts
    obtain ⟨seat', endpoint', entity', asOf', hvalid⟩ := key
    obtain ⟨rfl, rfl, rfl, rfl⟩ : seat' = seat ∧ endpoint' = endpoint ∧ entity' = canonicalEntityId ∧ asOf' = asOf := by
      simpa [FetchKey.parts] using hparts
    have h : ∀ part ∈ [seat', endpoint', entity', asOf'], ValidPart part := hvalid
    simp only [List.forall_mem_cons] at h
    obtain ⟨h₁, h₂, h₃, h₄, -⟩ := h
    rw [checkPart_of_valid _ h₁, checkPart_of_valid _ h₂, checkPart_of_valid _ h₃, checkPart_of_valid _ h₄]
    rfl

theorem splitOn_ledgerKey (key : FetchKey) : (key.ledgerKey.toList.splitOn keySeparator).map String.ofList = key.parts := by
  have hparts : ∀ l ∈ key.parts.map String.toList, keySeparator ∉ l := by
    intro l hl
    obtain ⟨part, hpart, rfl⟩ := List.mem_map.mp hl
    exact (key.parts_valid part hpart).2
  rw [FetchKey.ledgerKey, String.toList_ofList, List.splitOn_intercalate keySeparator hparts (by simp [FetchKey.parts]),
    List.map_map]
  exact (List.map_congr_left fun part _ => String.ofList_toList).trans (List.map_id _)

theorem fromLedgerKey_ledgerKey (key : FetchKey) : FetchKey.fromLedgerKey key.ledgerKey = .ok key := by
  unfold FetchKey.fromLedgerKey
  rw [splitOn_ledgerKey]
  exact make_eq_ok_iff.mpr rfl

theorem ledgerKey_injective : Function.Injective FetchKey.ledgerKey := by
  intro key key' h
  have hback := fromLedgerKey_ledgerKey key
  rw [h, fromLedgerKey_ledgerKey] at hback
  exact (Except.ok.inj hback).symm

variable {params : Dict String String}

section Request

variable {entityParam : String} {asOfParams : List String} {defaultAsOf : String} {exclude : List String}

theorem forRequest_eq_ok_iff {seat endpoint : String} {key : FetchKey} :
    FetchKey.forRequest entityParam asOfParams defaultAsOf exclude seat endpoint params = .ok key ↔
      ∃ entity, params.get? entityParam = some entity ∧
        key.parts = [seat, requestLabel entityParam asOfParams exclude endpoint params, "symbol:" ++ entity,
          requestAsOf asOfParams defaultAsOf params] := by
  unfold FetchKey.forRequest
  rcases params.get? entityParam with _ | entity
  · simp
  · simp [make_eq_ok_iff]

theorem remainingParams_of_label {endpoint : String} {params params' : Dict String String}
    (h : requestLabel entityParam asOfParams exclude endpoint params =
      requestLabel entityParam asOfParams exclude endpoint params') (item : String × String) :
    item ∈ remainingParams entityParam asOfParams exclude params ↔
      item ∈ remainingParams entityParam asOfParams exclude params' := by
  have hne : ∀ text : List Char, endpoint ≠ endpoint ++ String.ofList ('?' :: text) := by
    intro text heq
    have hlength := congrArg (fun s : String => s.toList.length) heq
    simp [String.toList_append] at hlength
  unfold requestLabel at h
  dsimp only at h
  split_ifs at h with hnil hnil' hnil'
  · rw [hnil, hnil']
  · exact absurd h (hne _)
  · exact absurd h.symm (hne _)
  · have htext := congrArg String.toList h
    rw [String.toList_append, String.toList_append, List.append_cancel_left_eq, String.toList_ofList,
      String.toList_ofList, List.cons_inj_right] at htext
    rw [← mem_sortedBy Prod.fst, urlencode_injective htext, mem_sortedBy]

theorem mem_remainingParams {name value : String} (hentity : name ≠ entityParam)
    (hexclude : name ∉ exclude) (hasOf : name ∉ asOfParams) :
    (name, value) ∈ remainingParams entityParam asOfParams exclude params ↔ params.get? name = some value := by
  rw [remainingParams, List.mem_filter, ← Dict.get?_eq_some_iff]
  simp [hentity, hexclude, hasOf]

end Request

/-- Requests with one key ask for one entity and as-of, and agree on every other parameter that is not excluded.  The ledger form
of a key reads back as the key. -/
theorem forRequest_determines (entityParam : String) (asOfParams : List String) (defaultAsOf : String)
    (exclude : List String) (seat endpoint : String) (params params' : Dict String String) (key : FetchKey)
    (h : FetchKey.forRequest entityParam asOfParams defaultAsOf exclude seat endpoint params = .ok key)
    (h' : FetchKey.forRequest entityParam asOfParams defaultAsOf exclude seat endpoint params' = .ok key) :
    (params.get? entityParam = params'.get? entityParam ∧
        requestAsOf asOfParams defaultAsOf params = requestAsOf asOfParams defaultAsOf params' ∧
        ∀ name, name ∉ exclude → name ∉ asOfParams → params.get? name = params'.get? name) ∧
      FetchKey.fromLedgerKey key.ledgerKey = .ok key ∧
      ∀ other : FetchKey, other.ledgerKey = key.ledgerKey → other = key := by
  obtain ⟨entity, hentity, hparts⟩ := forRequest_eq_ok_iff.mp h
  obtain ⟨entity', hentity', hparts'⟩ := forRequest_eq_ok_iff.mp h'
  rw [hparts] at hparts'
  obtain ⟨-, hlabel, hname, hasOf, -⟩ : _ ∧ _ ∧ _ ∧ _ ∧ _ := by simpa only [List.cons.injEq] using hparts'
  have hsame : params.get? entityParam = params'.get? entityParam := by
    have htext := congrArg String.toList hname
    rw [String.toList_append, String.toList_append, List.append_cancel_left_eq, String.toList_inj] at htext
    rw [hentity, hentity', htext]
  refine ⟨⟨hsame, hasOf, fun name hexclude hnot => ?_⟩, fromLedgerKey_ledgerKey key,
    fun other hother => ledgerKey_injective hother⟩
  by_cases heq : name = entityParam
  · rw [heq]
    exact hsame
  · refine Option.ext fun value => ?_
    rw [← mem_remainingParams heq hexclude hnot, ← mem_remainingParams heq hexclude hnot]
    exact remainingParams_of_label hlabel (name, value)

def sampleKey : FetchKey where
  seat := "twelve_data"
  endpoint := "time_series?interval=1day"
  canonicalEntityId := "symbol:AAPL"
  asOf := "2026-10-27"
  parts_valid := by decide +kernel

def datedRequest : Dict String String :=
  Dict.ofList [("symbol", "AAPL"), ("interval", "1day"), ("end_date", "2026-10-27"), ("apikey", "k")]

def openRequest : Dict String String := Dict.ofList [("interval", "1day"), ("symbol", "AAPL")]

theorem forRequest_determines_sample : datedRequest.get? "symbol" = openRequest.get? "symbol" ∧
      requestAsOf ["end_date", "date"] "2026-10-27" datedRequest = requestAsOf ["end_date", "date"] "2026-10-27" openRequest := by
  have h := (forRequest_determines "symbol" ["end_date", "date"] "2026-10-27" ["apikey"] "twelve_data" "time_series"
    datedRequest openRequest sampleKey (forRequest_eq_ok_iff.mpr ⟨"AAPL", by decide +kernel, by decide +kernel⟩)
    (forRequest_eq_ok_iff.mpr ⟨"AAPL", by decide +kernel, by decide +kernel⟩)).1
  exact ⟨h.1, h.2.1⟩

/-- A request that names its as-of and one that leaves it to the default share a key. -/
theorem forRequest_default_shares :
    FetchKey.forRequest "symbol" ["end_date", "date"] "2026-10-27" ["apikey"] "twelve_data" "time_series" datedRequest =
        .ok sampleKey ∧
      FetchKey.forRequest "symbol" ["end_date", "date"] "2026-10-27" ["apikey"] "twelve_data" "time_series" openRequest =
        .ok sampleKey ∧
      "end_date" ∉ ["apikey"] ∧ datedRequest.get? "end_date" ≠ openRequest.get? "end_date" := by
  refine ⟨forRequest_eq_ok_iff.mpr ⟨"AAPL", ?_, ?_⟩, forRequest_eq_ok_iff.mpr ⟨"AAPL", ?_, ?_⟩, ?_, ?_⟩ <;>
    decide +kernel

end TrueAlpha.Sources
