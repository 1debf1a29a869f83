import TrueAlpha.Contracts.VendorAccounts

/-!
# Landed keys

The index of `sources.landed_keys`, the accept rules and the keyed fetch.  A call of `fetchOnce` comes with what its
surroundings answer.  Landed bytes change only where a call that missed lands an accepted answer (`landed_key_answered_once`).
-/

namespace TrueAlpha.Sources

open Contracts (strip)

def keySeparator : Char := '|'

structure FetchKey where
  seat : String
  endpoint : String
  canonicalEntityId : String
  asOf : String
  parts_valid : ∀ part ∈ [seat, endpoint, canonicalEntityId, asOf], strip part ≠ "" ∧ keySeparator ∉ part.toList
  deriving DecidableEq

abbrev Bytes := List UInt8

abbrev AcceptRule := FetchKey → Bytes → Option Bool

/-- `ACCEPT_RULES`, by seat and endpoint family. -/
abbrev AcceptRules := Dict (String × String) AcceptRule

/-- The endpoint up to its first `?` or `:`. -/
def endpointFamily (endpoint : String) : String := String.ofList (endpoint.toList.takeWhile fun c => c ≠ '?' ∧ c ≠ ':')

/-- Whether a body is the resource that a key names. -/
def accepts (rules : AcceptRules) (key : FetchKey) (body : Bytes) : Bool :=
  match rules.get? (key.seat, endpointFamily key.endpoint) with
  | none => true
  | some rule => (rule key body).getD false

/-- The landed bytes, and the reuses of each key. -/
structure MemoryLandedKeys where
  bodies : Dict FetchKey Bytes
  reuses : Dict FetchKey ℕ

namespace MemoryLandedKeys

def empty : MemoryLandedKeys := ⟨.empty, .empty⟩

/-- A hit counts as one reuse. -/
def lookup (index : MemoryLandedKeys) (key : FetchKey) : Option Bytes × MemoryLandedKeys :=
  match index.bodies.get? key with
  | some body => (some body, { index with reuses := index.reuses.set key ((index.reuses.get? key).getD 0 + 1) })
  | none => (none, index)

/-- The bytes of a key, in place of those it had. -/
def land (index : MemoryLandedKeys) (key : FetchKey) (body : Bytes) : MemoryLandedKeys :=
  { index with bodies := index.bodies.set key body }

@[simp] theorem lookup_fst (index : MemoryLandedKeys) (key : FetchKey) : (index.lookup key).1 = index.bodies.get? key := by
  unfold lookup
  split <;> simp_all

@[simp] theorem lookup_bodies (index : MemoryLandedKeys) (key : FetchKey) : (index.lookup key).2.bodies = index.bodies := by
  unfold lookup
  split <;> rfl

theorem lookup_of_miss {index : MemoryLandedKeys} {key : FetchKey} (h : index.bodies.get? key = none) :
    index.lookup key = (none, index) := by
  rw [lookup, h]

end MemoryLandedKeys

structure Flags where
  probe : Bool
  windowFinal : Bool
  deriving DecidableEq, Repr

inductive Access where
  | lookup (key : FetchKey)
  | land (key : FetchKey) (body : Bytes)
  deriving DecidableEq

structure Gateway where
  flags : Flags
  scopes : List Bool
  index : MemoryLandedKeys
  accesses : List Access
  requests : List (FetchKey × Flags)

structure KeyedCall (Raised : Type) where
  key : FetchKey
  keep : Bool
  ledgerOff : Bool
  rules : AcceptRules
  lookupFails : Bool
  fetch : Flags → FetchKey → Except Raised Bytes
  landFails : Bool

section

variable {Raised : Type}

/-- The bytes of the key of a call; a lookup that fails reads as a miss. -/
def landed (gateway : Gateway) (call : KeyedCall Raised) : Option Bytes × Gateway :=
  if call.ledgerOff ∨ gateway.flags.probe then (none, gateway)
  else
    let looked := { gateway with accesses := gateway.accesses ++ [.lookup call.key] }
    if call.lookupFails then (none, looked)
    else
      let (hit, index) := gateway.index.lookup call.key
      (hit, { looked with index := index })

/-- A landing that fails leaves the index as it is. -/
def land (gateway : Gateway) (call : KeyedCall Raised) (body : Bytes) : Gateway :=
  if call.ledgerOff ∨ gateway.flags.probe then gateway
  else
    let wrote := { gateway with accesses := gateway.accesses ++ [.land call.key body] }
    if call.landFails then wrote
    else { wrote with index := gateway.index.land call.key body }

def request (gateway : Gateway) (call : KeyedCall Raised) : Except Raised Bytes × Gateway :=
  (call.fetch gateway.flags call.key, { gateway with requests := gateway.requests ++ [(call.key, gateway.flags)] })

def requestNotFinal (gateway : Gateway) (call : KeyedCall Raised) : Except Raised Bytes × Gateway :=
  let (answer, after) := request { gateway with flags := { gateway.flags with windowFinal := false } } call
  (answer, { after with flags := { after.flags with windowFinal := gateway.flags.windowFinal } })

def fetchOnce (gateway : Gateway) (call : KeyedCall Raised) : Except Raised Bytes × Gateway :=
  if gateway.flags.probe then request gateway call
  else if ¬ call.keep then requestNotFinal gateway call
  else
    match landed gateway call with
    | (some hit, gateway) => (.ok hit, gateway)
    | (none, gateway) =>
      match request gateway call with
      | (.error raised, gateway) => (.error raised, gateway)
      | (.ok body, gateway) =>
        (.ok body, if accepts call.rules call.key body then land gateway call body else gateway)

inductive GatewayEvent (Raised : Type) where
  | enterProbe (active : Bool)
  | leaveProbe
  | call (call : KeyedCall Raised)

/-- `probe_scope`: the flag of the scope, and the flag it found when the scope ends. -/
def Gateway.enterProbe (gateway : Gateway) (active : Bool) : Gateway :=
  { gateway with flags := { gateway.flags with probe := active }, scopes := gateway.flags.probe :: gateway.scopes }

def Gateway.leaveProbe (gateway : Gateway) : Gateway :=
  match gateway.scopes with
  | [] => gateway
  | found :: scopes => { gateway with flags := { gateway.flags with probe := found }, scopes }

def Gateway.step (gateway : Gateway) : GatewayEvent Raised → Gateway
  | .enterProbe active => gateway.enterProbe active
  | .leaveProbe => gateway.leaveProbe
  | .call call => (fetchOnce gateway call).2

structure Visit (Raised : Type) where
  before : Gateway
  call : KeyedCall Raised
  result : Except Raised Bytes
  after : Gateway

def visits (gateway : Gateway) : List (GatewayEvent Raised) → List (Visit Raised)
  | [] => []
  | .call call :: events =>
    let (result, after) := fetchOnce gateway call
    ⟨gateway, call, result, after⟩ :: visits after events
  | event :: events => visits (gateway.step event) events

/-! ## What a call does -/

variable {gateway : Gateway} {call : KeyedCall Raised}

theorem landed_of_hit (hledger : call.ledgerOff = false) (hprobe : gateway.flags.probe = false)
    (hlookup : call.lookupFails = false) {body : Bytes} (hbody : gateway.index.bodies.get? call.key = some body) :
    (landed gateway call).1 = some body := by
  simp [landed, hledger, hprobe, hlookup, hbody]

structure Looked (gateway after : Gateway) (hit : Option Bytes) : Prop where
  flags : after.flags = gateway.flags
  requests : after.requests = gateway.requests
  bodies : after.index.bodies = gateway.index.bodies
  index_of_miss : hit = none → after.index = gateway.index

theorem looked_landed (gateway : Gateway) (call : KeyedCall Raised) :
    Looked gateway (landed gateway call).2 (landed gateway call).1 := by
  unfold landed
  split_ifs
  · exact ⟨rfl, rfl, rfl, fun _ => rfl⟩
  · exact ⟨rfl, rfl, rfl, fun _ => rfl⟩
  · refine ⟨rfl, rfl, MemoryLandedKeys.lookup_bodies _ _, fun hmiss => ?_⟩
    have hnone : gateway.index.bodies.get? call.key = none := by
      rw [← MemoryLandedKeys.lookup_fst]
      exact hmiss
    exact congrArg Prod.snd (MemoryLandedKeys.lookup_of_miss hnone)

inductive Fetched (gateway : Gateway) (call : KeyedCall Raised) : Except Raised Bytes × Gateway → Prop where
  | aside (flags : Flags) (h : gateway.flags.probe = true ∨ call.keep = false) :
      Fetched gateway call
        (call.fetch flags call.key, { gateway with requests := gateway.requests ++ [(call.key, flags)] })
  | hit (hprobe : gateway.flags.probe = false) (hkeep : call.keep = true) {body : Bytes} {after : Gateway}
      (hlanded : landed gateway call = (some body, after)) : Fetched gateway call (.ok body, after)
  | raised (hprobe : gateway.flags.probe = false) (hkeep : call.keep = true) {after : Gateway}
      (hlanded : landed gateway call = (none, after)) {raised : Raised}
      (hfetch : call.fetch gateway.flags call.key = .error raised) :
      Fetched gateway call
        (.error raised, { after with requests := gateway.requests ++ [(call.key, gateway.flags)] })
  | answered (hprobe : gateway.flags.probe = false) (hkeep : call.keep = true) {after : Gateway}
      (hlanded : landed gateway call = (none, after)) {body : Bytes}
      (hfetch : call.fetch gateway.flags call.key = .ok body) :
      Fetched gateway call
        (.ok body,
          if accepts call.rules call.key body then
            land { after with requests := gateway.requests ++ [(call.key, gateway.flags)] } call body
          else { after with requests := gateway.requests ++ [(call.key, gateway.flags)] })

theorem fetched_fetchOnce : Fetched gateway call (fetchOnce gateway call) := by
  unfold fetchOnce
  by_cases hprobe : gateway.flags.probe
  · rw [if_pos hprobe]
    exact .aside gateway.flags (Or.inl hprobe)
  · rw [if_neg hprobe]
    rw [Bool.not_eq_true] at hprobe
    by_cases hkeep : call.keep
    · rw [if_neg (not_not.mpr hkeep)]
      have hlooked := looked_landed gateway call
      rcases hlanded : landed gateway call with ⟨_ | hit, after⟩
      · rw [hlanded] at hlooked
        have hrequest : request after call = (call.fetch gateway.flags call.key,
            { after with requests := gateway.requests ++ [(call.key, gateway.flags)] }) := by
          rw [request, hlooked.flags, hlooked.requests]
        simp only [hrequest]
        rcases hfetch : call.fetch gateway.flags call.key with raised | body
        · exact .raised hprobe hkeep hlanded hfetch
        · exact .answered hprobe hkeep hlanded hfetch
      · exact .hit hprobe hkeep hlanded
    · rw [if_pos hkeep]
      -- the flag is the one that the call found
      exact .aside { gateway.flags with windowFinal := false } (Or.inr (by simpa using hkeep))

theorem land_flags (gateway : Gateway) (call : KeyedCall Raised) (body : Bytes) :
    (land gateway call body).flags = gateway.flags := by
  unfold land
  split_ifs <;> rfl

theorem land_index (gateway : Gateway) (call : KeyedCall Raised) (body : Bytes) : (land gateway call body).index = gateway.index ∨
      (land gateway call body).index = gateway.index.land call.key body := by
  unfold land
  split_ifs
  · exact Or.inl rfl
  · exact Or.inl rfl
  · exact Or.inr rfl

theorem Fetched.flags {outcome : Except Raised Bytes × Gateway} (h : Fetched gateway call outcome) :
    outcome.2.flags = gateway.flags := by
  have hlooked := looked_landed gateway call
  cases h with
  | aside flags h => rfl
  | hit hprobe hkeep hlanded =>
    rw [hlanded] at hlooked
    exact hlooked.flags
  | raised hprobe hkeep hlanded hfetch =>
    rw [hlanded] at hlooked
    exact hlooked.flags
  | answered hprobe hkeep hlanded hfetch =>
    rw [hlanded] at hlooked
    dsimp only
    split_ifs
    · rw [land_flags]
      exact hlooked.flags
    · exact hlooked.flags

end

namespace Visit

variable {Raised : Type}

/-- The index changes only by a hit's reuse count, or where a call that missed lands the accepted bytes under its key. -/
def LandsOnce (visit : Visit Raised) : Prop := visit.after.index = visit.before.index ∨
    visit.before.flags.probe = false ∧ visit.call.keep = true ∧
      ((landed visit.before visit.call).1.isSome = true ∧ visit.after.index.bodies = visit.before.index.bodies ∨
        (landed visit.before visit.call).1 = none ∧ ∃ body, visit.call.fetch visit.before.flags visit.call.key = .ok body ∧
            accepts visit.call.rules visit.call.key body = true ∧
            visit.after.index = visit.before.index.land visit.call.key body)

def ServesLanded (visit : Visit Raised) : Prop :=
  visit.before.flags.probe = false → visit.call.keep = true → visit.call.ledgerOff = false →
    visit.call.lookupFails = false → ∀ body, visit.before.index.bodies.get? visit.call.key = some body →
      visit.result = .ok body ∧ visit.after.requests = visit.before.requests

def StaysAside (visit : Visit Raised) : Prop := visit.before.flags.probe = true ∨ visit.call.keep = false →
    visit.after.accesses = visit.before.accesses ∧ visit.after.index = visit.before.index

def RaisesCleanly (visit : Visit Raised) : Prop := ∀ raised, visit.result = .error raised →
    visit.after.index = visit.before.index ∧ visit.after.flags.windowFinal = visit.before.flags.windowFinal

end Visit

namespace Fetched

variable {Raised : Type} {gateway : Gateway} {call : KeyedCall Raised} {outcome : Except Raised Bytes × Gateway}

section

variable (h : Fetched gateway call outcome)

include h

theorem landsOnce : Visit.LandsOnce ⟨gateway, call, outcome.1, outcome.2⟩ := by
  have hlooked := looked_landed gateway call
  cases h with
  | aside flags h => exact Or.inl rfl
  | hit hprobe hkeep hlanded =>
    rw [hlanded] at hlooked
    exact Or.inr ⟨hprobe, hkeep, Or.inl ⟨by rw [hlanded]; rfl, hlooked.bodies⟩⟩
  | raised hprobe hkeep hlanded hfetch =>
    rw [hlanded] at hlooked
    exact Or.inl (hlooked.index_of_miss rfl)
  | @answered hprobe hkeep after hlanded body hfetch =>
    have hnone : (landed gateway call).1 = none := by rw [hlanded]
    rw [hlanded] at hlooked
    have hmiss : after.index = gateway.index := hlooked.index_of_miss rfl
    unfold Visit.LandsOnce
    dsimp only
    by_cases haccepts : accepts call.rules call.key body
    · rw [if_pos haccepts]
      rcases land_index { after with requests := gateway.requests ++ [(call.key, gateway.flags)] } call body with
        hindex | hindex
      · exact Or.inl (hindex.trans hmiss)
      · exact Or.inr ⟨hprobe, hkeep, Or.inr ⟨hnone, body, hfetch, haccepts, by rw [hindex, hmiss]⟩⟩
    · rw [if_neg haccepts]
      exact Or.inl hmiss

theorem servesLanded : Visit.ServesLanded ⟨gateway, call, outcome.1, outcome.2⟩ := by
  intro hprobe hkeep hledger hlookup body hbody
  have hlooked := looked_landed gateway call
  have hhit : (landed gateway call).1 = some body := landed_of_hit hledger hprobe hlookup hbody
  cases h with
  | aside flags h => rcases h with h | h <;> simp_all
  | hit hprobe hkeep hlanded =>
    rw [hlanded] at hhit hlooked
    exact ⟨congrArg Except.ok (Option.some.inj hhit), hlooked.requests⟩
  | raised hprobe hkeep hlanded hfetch => rw [hlanded] at hhit; cases hhit
  | answered hprobe hkeep hlanded hfetch => rw [hlanded] at hhit; cases hhit

theorem staysAside : Visit.StaysAside ⟨gateway, call, outcome.1, outcome.2⟩ := by
  intro haside
  have haside' : gateway.flags.probe = true ∨ call.keep = false := haside
  cases h with
  | aside flags h => exact ⟨rfl, rfl⟩
  | hit hprobe hkeep hlanded => simp [hprobe, hkeep] at haside'
  | raised hprobe hkeep hlanded hfetch => simp [hprobe, hkeep] at haside'
  | answered hprobe hkeep hlanded hfetch => simp [hprobe, hkeep] at haside'

theorem raisesCleanly : Visit.RaisesCleanly ⟨gateway, call, outcome.1, outcome.2⟩ := by
  intro raised hraised
  refine ⟨?_, congrArg Flags.windowFinal h.flags⟩
  have hlooked := looked_landed gateway call
  cases h with
  | aside flags h => rfl
  | hit hprobe hkeep hlanded => cases hraised
  | raised hprobe hkeep hlanded hfetch =>
    rw [hlanded] at hlooked
    exact hlooked.index_of_miss rfl
  | answered hprobe hkeep hlanded hfetch => cases hraised

end

end Fetched

section

variable {Raised : Type}

theorem step_windowFinal (gateway : Gateway) (event : GatewayEvent Raised) :
    (gateway.step event).flags.windowFinal = gateway.flags.windowFinal := by
  cases event with
  | enterProbe active => rfl
  | leaveProbe =>
    simp only [Gateway.step, Gateway.leaveProbe]
    split <;> rfl
  | call call => exact congrArg Flags.windowFinal fetched_fetchOnce.flags

theorem fetched_of_mem_visits {gateway : Gateway} {events : List (GatewayEvent Raised)} {visit : Visit Raised}
    (h : visit ∈ visits gateway events) :
    Fetched visit.before visit.call (visit.result, visit.after) ∧ visit.before.flags.windowFinal = gateway.flags.windowFinal := by
  induction events generalizing gateway with
  | nil => cases h
  | cons event events ih =>
    have hflag := step_windowFinal gateway event
    cases event with
    | enterProbe active =>
      obtain ⟨hvisit, hstart⟩ := ih (show visit ∈ visits (gateway.enterProbe active) events from h)
      exact ⟨hvisit, hstart.trans hflag⟩
    | leaveProbe =>
      obtain ⟨hvisit, hstart⟩ := ih (show visit ∈ visits gateway.leaveProbe events from h)
      exact ⟨hvisit, hstart.trans hflag⟩
    | call call =>
      rcases List.mem_cons.mp h with rfl | h
      · exact ⟨fetched_fetchOnce, rfl⟩
      · obtain ⟨hvisit, hstart⟩ := ih h
        exact ⟨hvisit, hstart.trans hflag⟩

/-- In every run a landed key is answered from the landed bytes, and only an accepted answer to a call that missed lands. -/
theorem landed_key_answered_once (gateway : Gateway) (events : List (GatewayEvent Raised)) :
    ∀ visit ∈ visits gateway events, visit.LandsOnce ∧ visit.ServesLanded ∧ visit.StaysAside ∧ visit.RaisesCleanly ∧
      visit.after.flags.windowFinal = gateway.flags.windowFinal := by
  intro visit hmem
  obtain ⟨hvisit, hflag⟩ := fetched_of_mem_visits hmem
  exact ⟨hvisit.landsOnce, hvisit.servesLanded, hvisit.staysAside, hvisit.raisesCleanly,
    (congrArg Flags.windowFinal hvisit.flags).trans hflag⟩

end

/-! ### A key that lands and is served -/

def factsKey : FetchKey := ⟨"sec", "companyfacts", "issuer:cik:0000320193", "2026-10-21", by decide⟩

def factsCall (keep : Bool) (answer : Except String Bytes) : KeyedCall String where
  key := factsKey
  keep
  ledgerOff := false
  rules := Dict.ofList [(("sec", "companyfacts"), fun _ body => some (body ≠ []))]
  lookupFails := false
  fetch _ _ := answer
  landFails := false

def factsRun : List (GatewayEvent String) :=
  [.call (factsCall true (.ok [])), .call (factsCall false (.error "timeout")), .call (factsCall true (.ok [1, 2])),
    .enterProbe true, .call (factsCall true (.error "HTTP 500")), .leaveProbe, .call (factsCall true (.ok [3]))]

def freshGateway : Gateway := ⟨⟨false, true⟩, [], .empty, [], []⟩

example : (visits freshGateway factsRun).map (fun visit => visit.result.toOption) =
    [some [], none, some [1, 2], none, some [1, 2]] := by decide +kernel

theorem landed_key_answered_once_sample : ∃ visit ∈ visits freshGateway factsRun,
    visit.result = .ok [1, 2] ∧ visit.LandsOnce ∧ visit.ServesLanded ∧ visit.StaysAside ∧ visit.RaisesCleanly ∧
      visit.after.flags.windowFinal = freshGateway.flags.windowFinal := by
  have hmem : (⟨_, _, _, _⟩ : Visit String) ∈ visits freshGateway factsRun :=
    List.mem_cons_of_mem _ (List.mem_cons_of_mem _ List.mem_cons_self)
  exact ⟨_, hmem, rfl, landed_key_answered_once freshGateway factsRun _ hmem⟩

end TrueAlpha.Sources
