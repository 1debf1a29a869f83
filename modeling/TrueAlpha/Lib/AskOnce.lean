import Mathlib.Order.Nat
import TrueAlpha.Lib.Latest
import TrueAlpha.Lib.Run

/-!
# Asking once under a lock

Sessions answer calls from a table.  A call locks its key and reads the first row that answers it, or asks and inserts.  Where
the rows for a query are all recorded under one key, the first committed answer stays the answer.
-/

namespace TrueAlpha.AskOnce

/-- What a call asks, the key it locks, the rows that answer a query, the row of an answer, and whether an insert adds it to the
visible rows. -/
structure Protocol (Call Query Key Answer Row : Type) where
  query : Call → Query
  key : Call → Key
  answers : Query → Row → Bool
  record : Call → Answer → Option Row
  stores : List (ℕ × Row) → Row → Bool

/-- Where a session is in its call. -/
inductive Phase (Call : Type) where
  | idle
  | locked (call : Call)
  | unanswered (call : Call)

/-- The committed rows, the lock holders, the sessions with their uncommitted rows, the answered calls and those that asked. -/
structure State (Session Call Key Row : Type) where
  rows : List (ℕ × Row)
  nextId : ℕ
  holder : Key → Option Session
  phase : Session → Phase Call
  pending : Session → List (ℕ × Row)
  returned : List (Call × (ℕ × Row))
  asked : List Call

/-- A session's steps: a call, its read, its ask with the id of its row, and the transaction's end. -/
inductive Event (Session Call Answer : Type) where
  | lock (session : Session) (call : Call)
  | read (session : Session)
  | ask (session : Session) (answer : Answer) (id : ℕ)
  | commit (session : Session)
  | rollback (session : Session)

/-- Why a session cannot make a step. -/
inductive Blocked where
  | lockHeld
  | outOfTurn
  deriving DecidableEq, Repr

/-- A table whose ids are all below the next one. -/
structure Table (Row : Type) where
  rows : List (ℕ × Row)
  nextId : ℕ
  below : ∀ row ∈ rows, row.1 < nextId

variable {Session Call Query Key Answer Row : Type}

/-- No session is in a transaction. -/
def Table.start (table : Table Row) : State Session Call Key Row where
  rows := table.rows
  nextId := table.nextId
  holder _ := none
  phase _ := .idle
  pending _ := []
  returned := []
  asked := []

section Steps

variable (protocol : Protocol Call Query Key Answer Row)

/-- The row with the least id that answers a query. -/
def Protocol.first (query : Query) (rows : List (ℕ × Row)) : Option (ℕ × Row) :=
  latestBy (fun row => OrderDual.toDual row.1) (rows.filter fun row => protocol.answers query row.2)

/-- The rows that an ask adds. -/
def Protocol.inserted (call : Call) (answer : Answer) (id : ℕ) (visible : List (ℕ × Row)) : List (ℕ × Row) :=
  match protocol.record call answer with
  | some row => if protocol.stores visible row then [(id, row)] else []
  | none => []

variable [DecidableEq Session] [DecidableEq Key]

/-- The rows and the locks of a session after its transaction. -/
def State.released (state : State Session Call Key Row) (session : Session) : State Session Call Key Row :=
  { state with
    holder := fun key => if state.holder key = some session then none else state.holder key
    phase := Function.update state.phase session .idle
    pending := Function.update state.pending session [] }

def step (state : State Session Call Key Row) : Event Session Call Answer → Except Blocked (State Session Call Key Row)
  | .lock session call =>
    match state.phase session with
    | .idle =>
      if state.holder (protocol.key call) = none ∨ state.holder (protocol.key call) = some session then
        .ok { state with
          holder := Function.update state.holder (protocol.key call) (some session)
          phase := Function.update state.phase session (.locked call) }
      else .error .lockHeld
    | _ => .error .outOfTurn
  | .read session =>
    match state.phase session with
    | .locked call =>
      match protocol.first (protocol.query call) (state.rows ++ state.pending session) with
      | some row =>
        .ok { state with
          phase := Function.update state.phase session .idle
          returned := state.returned ++ [(call, row)] }
      | none => .ok { state with phase := Function.update state.phase session (.unanswered call) }
    | _ => .error .outOfTurn
  | .ask session answer id =>
    match state.phase session with
    | .unanswered call =>
      if state.nextId ≤ id then
        .ok { state with
          nextId := id + 1
          phase := Function.update state.phase session .idle
          pending := Function.update state.pending session (state.pending session ++
            protocol.inserted call answer id (state.rows ++ state.pending session))
          asked := state.asked ++ [call] }
      else .error .outOfTurn
    | _ => .error .outOfTurn
  | .commit session =>
    match state.phase session with
    | .idle => .ok { state.released session with rows := state.rows ++ state.pending session }
    | _ => .error .outOfTurn
  | .rollback session => .ok (state.released session)

/-- What a step can do. -/
inductive Step (state : State Session Call Key Row) : State Session Call Key Row → Prop
  | lock (session : Session) (call : Call) (hidle : state.phase session = .idle)
      (hfree : state.holder (protocol.key call) = none ∨ state.holder (protocol.key call) = some session) :
      Step state { state with
        holder := Function.update state.holder (protocol.key call) (some session)
        phase := Function.update state.phase session (.locked call) }
  | answered (session : Session) (call : Call) (row : ℕ × Row) (hlocked : state.phase session = .locked call)
      (hfirst : protocol.first (protocol.query call) (state.rows ++ state.pending session) = some row) :
      Step state { state with
        phase := Function.update state.phase session .idle
        returned := state.returned ++ [(call, row)] }
  | missed (session : Session) (call : Call) (hlocked : state.phase session = .locked call)
      (hnone : protocol.first (protocol.query call) (state.rows ++ state.pending session) = none) :
      Step state { state with phase := Function.update state.phase session (.unanswered call) }
  | asked (session : Session) (call : Call) (answer : Answer) (id : ℕ)
      (hunanswered : state.phase session = .unanswered call) (hid : state.nextId ≤ id) :
      Step state { state with
        nextId := id + 1
        phase := Function.update state.phase session .idle
        pending := Function.update state.pending session (state.pending session ++
          protocol.inserted call answer id (state.rows ++ state.pending session))
        asked := state.asked ++ [call] }
  | committed (session : Session) :
      Step state { state.released session with rows := state.rows ++ state.pending session }
  | rolledBack (session : Session) : Step state (state.released session)

end Steps

/-! ## What every step keeps -/

/-- The rows that answer a query are recorded under the key of the calls that ask it. -/
def Protocol.Covers (protocol : Protocol Call Query Key Answer Row) : Prop :=
  ∀ call answer row call', protocol.record call answer = some row → protocol.answers (protocol.query call') row = true →
    protocol.key call = protocol.key call'

variable {protocol : Protocol Call Query Key Answer Row} {call : Call} {row : ℕ × Row} {query : Query} {rows : List (ℕ × Row)}

variable {answer : Answer}

variable {visible : List (ℕ × Row)}

theorem Protocol.mem_inserted {id : ℕ}
    (h : row ∈ protocol.inserted call answer id visible) : row.1 = id ∧ protocol.record call answer = some row.2 := by
  rw [Protocol.inserted] at h
  split at h
  · next stored hrecord =>
    split at h
    · cases List.mem_singleton.mp h
      exact ⟨rfl, hrecord⟩
    · cases h
  · cases h

theorem Protocol.length_inserted_le (call : Call) (answer : Answer) (id : ℕ) (visible : List (ℕ × Row)) :
    (protocol.inserted call answer id visible).length ≤ 1 := by
  rw [Protocol.inserted]
  split
  · split <;> simp
  · simp

theorem Protocol.first_eq_none_iff : protocol.first query rows = none ↔ ∀ row ∈ rows, protocol.answers query row.2 = false := by
  rw [Protocol.first, latestBy_eq_none_iff, List.filter_eq_nil_iff]
  simp

theorem Protocol.first_eq_some (h : protocol.first query rows = some row) : row ∈ rows ∧ protocol.answers query row.2 = true ∧
      ∀ stored ∈ rows, protocol.answers query stored.2 = true → row.1 ≤ stored.1 := by
  obtain ⟨hmem, hleast⟩ := latestBy_eq_some _ h
  obtain ⟨hrow, hanswers⟩ := List.mem_filter.mp hmem
  exact ⟨hrow, hanswers, fun stored hstored hanswers => hleast stored (List.mem_filter.mpr ⟨hstored, hanswers⟩)⟩

/-- Answers with larger ids do not become the first. -/
theorem Protocol.first_append {rows' : List (ℕ × Row)} (h : protocol.first query rows = some row)
    (hlater : ∀ new ∈ rows', protocol.answers query new.2 = true → row.1 < new.1) :
    protocol.first query (rows ++ rows') = some row := by
  rw [Protocol.first, List.filter_append]
  refine latestBy_append_of_lt _ h fun new hnew => ?_
  obtain ⟨hmem, hanswers⟩ := List.mem_filter.mp hnew
  exact hlater new hmem hanswers

/-- A call holds its lock, uncommitted rows are under held locks, ids grow, and a call that asks has no answer. -/
structure Orderly (protocol : Protocol Call Query Key Answer Row) (state : State Session Call Key Row) : Prop where
  locked : ∀ session call, state.phase session = .locked call ∨ state.phase session = .unanswered call →
    state.holder (protocol.key call) = some session
  pending : ∀ session, ∀ row ∈ state.pending session, ∃ call answer,
    protocol.record call answer = some row.2 ∧ state.holder (protocol.key call) = some session
  below : ∀ row ∈ state.rows, row.1 < state.nextId
  pending_below : ∀ session, ∀ row ∈ state.pending session, row.1 < state.nextId
  unanswered : ∀ session call, state.phase session = .unanswered call →
    ∀ row ∈ state.rows ++ state.pending session, protocol.answers (protocol.query call) row.2 = false
  later : ∀ session, ∀ row ∈ state.pending session, ∀ stored ∈ state.rows, ∀ call,
    protocol.answers (protocol.query call) row.2 = true → protocol.answers (protocol.query call) stored.2 = true →
      stored.1 < row.1

theorem orderly_start (table : Table Row) : Orderly protocol (table.start : State Session Call Key Row) where
  locked _ _ h := by simp [Table.start] at h
  pending _ _ h := by simp [Table.start] at h
  below := table.below
  pending_below _ _ h := by simp [Table.start] at h
  unanswered _ _ h := by simp [Table.start] at h
  later _ _ h := by simp [Table.start] at h

variable {state : State Session Call Key Row} {session session' : Session}

/-- Two sessions do not record answers to one query at a time. -/
theorem Orderly.session_eq (h : Orderly protocol state) (hcovers : protocol.Covers) {row' : ℕ × Row}
    (hrow : row ∈ state.pending session) (hrow' : row' ∈ state.pending session')
    (hanswers : protocol.answers (protocol.query call) row.2 = true)
    (hanswers' : protocol.answers (protocol.query call) row'.2 = true) : session = session' := by
  obtain ⟨asker, answer, hrecord, hholder⟩ := h.pending session row hrow
  obtain ⟨asker', answer', hrecord', hholder'⟩ := h.pending session' row' hrow'
  rw [hcovers _ _ _ _ hrecord hanswers] at hholder
  rw [hcovers _ _ _ _ hrecord' hanswers', hholder] at hholder'
  exact Option.some.inj hholder'

/-- A session that is in a call shuts the others out of its query. -/
theorem Orderly.not_answers (h : Orderly protocol state) (hcovers : protocol.Covers) (hne : session' ≠ session)
    (hphase : state.phase session = .locked call ∨ state.phase session = .unanswered call)
    (hrow : row ∈ state.pending session') : protocol.answers (protocol.query call) row.2 = false := by
  obtain ⟨asker, answer, hrecord, hholder⟩ := h.pending session' row hrow
  by_contra hanswers
  rw [Bool.not_eq_false] at hanswers
  rw [hcovers _ _ _ _ hrecord hanswers, h.locked session call hphase] at hholder
  exact hne (Option.some.inj hholder).symm

/-- A later row that answers a query has a larger id: the first answer is settled. -/
theorem Orderly.first_visible (h : Orderly protocol state)
    (hfirst : protocol.first (protocol.query call) state.rows = some row) (session : Session) :
    protocol.first (protocol.query call) (state.rows ++ state.pending session) = some row := by
  obtain ⟨hmem, hanswers, -⟩ := Protocol.first_eq_some hfirst
  exact Protocol.first_append hfirst fun new hnew hanswers' => h.later session new hnew row hmem call hanswers' hanswers

/-- A property of the answers that only the calls of one query record. -/
structure Protocol.Owns (protocol : Protocol Call Query Key Answer Row) (call : Call) (own : Row → Bool) : Prop where
  answers : ∀ row, own row = true → protocol.answers (protocol.query call) row = true
  asker : ∀ caller answer row, protocol.record caller answer = some row → own row = true →
    protocol.query caller = protocol.query call

variable {own : Row → Bool} {events : List (Event Session Call Answer)}

/-- A call that asks finds no own answer, so the one that it records is alone. -/
theorem Orderly.countP_inserted (howns : protocol.Owns call own) (h : Orderly protocol state) {caller : Call}
    (hunanswered : state.phase session = .unanswered caller)
    (hvisible : ∀ row ∈ visible, row ∈ state.rows ++ state.pending session) {id : ℕ}
    {among : List (ℕ × Row)} (hone : visible.countP (fun row => own row.2) ≤ 1) :
    (visible ++ protocol.inserted caller answer id among).countP (fun row => own row.2) ≤ 1 := by
  rw [List.countP_append]
  by_cases hown : ∃ row ∈ protocol.inserted caller answer id among, own row.2 = true
  · obtain ⟨row, hrow, hown⟩ := hown
    have hquery := howns.asker caller answer row.2 (Protocol.mem_inserted hrow).2 hown
    have hnone : visible.countP (fun row => own row.2) = 0 := by
      refine List.countP_eq_zero.mpr fun stored hstored hown => ?_
      have hanswers := h.unanswered session caller hunanswered stored (hvisible stored hstored)
      rw [hquery, howns.answers stored.2 hown] at hanswers
      cases hanswers
    have hlength := (List.countP_le_length (p := fun row : ℕ × Row => own row.2)).trans
      (protocol.length_inserted_le caller answer id among)
    omega
  · have hnone : (protocol.inserted caller answer id among).countP (fun row => own row.2) = 0 :=
      List.countP_eq_zero.mpr fun row hrow hown' => hown ⟨row, hrow, hown'⟩
    omega

/-- Two sessions do not both wait to commit an own answer. -/
theorem Orderly.countP_pending (howns : protocol.Owns call own) (h : Orderly protocol state)
    (hcovers : protocol.Covers) (hne : session ≠ session') :
    (state.pending session).countP (fun row => own row.2) = 0 ∨ (state.pending session').countP (fun row => own row.2) = 0 := by
  by_contra hboth
  simp only [not_or, ← Nat.pos_iff_ne_zero, List.countP_pos_iff] at hboth
  obtain ⟨⟨row, hrow, hown⟩, row', hrow', hown'⟩ := hboth
  exact hne (h.session_eq hcovers hrow hrow' (howns.answers row.2 hown) (howns.answers row'.2 hown'))

theorem holder_lock [DecidableEq Key] {key key' : Key}
    (hfree : state.holder key = none ∨ state.holder key = some session) (h : state.holder key' = some session') :
    Function.update state.holder key (some session) key' = some session' := by
  obtain rfl | hne := eq_or_ne key' key
  · rw [Function.update_self]
    simpa [h, eq_comm] using hfree
  · rw [Function.update_of_ne hne, h]

variable [DecidableEq Session] {state : State Session Call Key Row}

theorem Orderly.released (h : Orderly protocol state) (session : Session) : Orderly protocol (state.released session) where
  locked session' call hphase := by
    obtain rfl | hne := eq_or_ne session' session
    · simp [State.released] at hphase
    · have hholder := h.locked session' call (by simpa [State.released, hne] using hphase)
      simp [State.released, hholder, hne]
  pending session' row hrow := by
    obtain rfl | hne := eq_or_ne session' session
    · simp [State.released] at hrow
    · obtain ⟨call, answer, hrecord, hholder⟩ := h.pending session' row (by simpa [State.released, hne] using hrow)
      exact ⟨call, answer, hrecord, by simp [State.released, hholder, hne]⟩
  below := h.below
  pending_below session' row hrow := by
    obtain rfl | hne := eq_or_ne session' session
    · simp [State.released] at hrow
    · exact h.pending_below session' row (by simpa [State.released, hne] using hrow)
  unanswered session' call hphase row hrow := by
    obtain rfl | hne := eq_or_ne session' session
    · simp [State.released] at hphase
    · exact h.unanswered session' call (by simpa [State.released, hne] using hphase) row
        (by simpa [State.released, hne] using hrow)
  later session' row hrow := by
    obtain rfl | hne := eq_or_ne session' session
    · simp [State.released] at hrow
    · exact h.later session' row (by simpa [State.released, hne] using hrow)

theorem Orderly.answered (h : Orderly protocol state) {returned : List (Call × (ℕ × Row))} :
    Orderly protocol { state with phase := Function.update state.phase session .idle, returned } where
  locked session' call hphase := by
    obtain rfl | hne := eq_or_ne session' session
    · simp at hphase
    · exact h.locked session' call (by simpa [hne] using hphase)
  pending := h.pending
  below := h.below
  pending_below := h.pending_below
  unanswered session' call hphase := by
    obtain rfl | hne := eq_or_ne session' session
    · simp at hphase
    · exact h.unanswered session' call (by simpa [hne] using hphase)
  later := h.later

theorem Orderly.missed (h : Orderly protocol state) (hlocked : state.phase session = .locked call)
    (hnone : protocol.first (protocol.query call) (state.rows ++ state.pending session) = none) :
    Orderly protocol { state with phase := Function.update state.phase session (.unanswered call) } where
  locked session' call' hphase := by
    obtain rfl | hne := eq_or_ne session' session
    · obtain rfl : call = call' := by simpa using hphase
      exact h.locked session' call (.inl hlocked)
    · exact h.locked session' call' (by simpa [hne] using hphase)
  pending := h.pending
  below := h.below
  pending_below := h.pending_below
  unanswered session' call' hphase := by
    obtain rfl | hne := eq_or_ne session' session
    · obtain rfl : call = call' := by simpa using hphase
      exact Protocol.first_eq_none_iff.mp hnone
    · exact h.unanswered session' call' (by simpa [hne] using hphase)
  later := h.later

variable {call : Call}

theorem Orderly.asked (h : Orderly protocol state) {session : Session} {id : ℕ} (hunanswered : state.phase session = .unanswered call) (hid : state.nextId ≤ id) :
    Orderly protocol { state with
      nextId := id + 1
      phase := Function.update state.phase session .idle
      pending := Function.update state.pending session (state.pending session ++
        protocol.inserted call answer id (state.rows ++ state.pending session))
      asked := state.asked ++ [call] } where
  locked session' call' hphase := by
    obtain rfl | hne := eq_or_ne session' session
    · simp at hphase
    · exact h.locked session' call' (by simpa [hne] using hphase)
  pending session' row hrow := by
    obtain rfl | hne := eq_or_ne session' session
    · dsimp only at hrow
      rw [Function.update_self] at hrow
      obtain hrow | hrow := List.mem_append.mp hrow
      · exact h.pending session' row hrow
      · exact ⟨call, answer, (Protocol.mem_inserted hrow).2, h.locked session' call (.inr hunanswered)⟩
    · exact h.pending session' row (by simpa [hne] using hrow)
  below row hrow := by
    have := h.below row hrow
    dsimp only
    omega
  pending_below session' row hrow := by
    dsimp only
    obtain rfl | hne := eq_or_ne session' session
    · dsimp only at hrow
      rw [Function.update_self] at hrow
      obtain hrow | hrow := List.mem_append.mp hrow
      · have := h.pending_below session' row hrow
        omega
      · have := (Protocol.mem_inserted hrow).1
        omega
    · have := h.pending_below session' row (by simpa [hne] using hrow)
      omega
  unanswered session' call' hphase := by
    obtain rfl | hne := eq_or_ne session' session
    · simp at hphase
    · simpa [hne] using h.unanswered session' call' (by simpa [hne] using hphase)
  later session' row hrow stored hstored call' := by
    obtain rfl | hne := eq_or_ne session' session
    · dsimp only at hrow
      rw [Function.update_self] at hrow
      obtain hrow | hrow := List.mem_append.mp hrow
      · exact h.later session' row hrow stored hstored call'
      · intro _ _
        have hrowid := (Protocol.mem_inserted hrow).1
        have := h.below stored hstored
        omega
    · exact h.later session' row (by simpa [hne] using hrow) stored hstored call'

theorem Orderly.committed (h : Orderly protocol state) (hcovers : protocol.Covers) (session : Session) :
    Orderly protocol { state.released session with rows := state.rows ++ state.pending session } where
  locked := (h.released session).locked
  pending := (h.released session).pending
  below row hrow := by
    obtain hrow | hrow := List.mem_append.mp hrow
    · exact h.below row hrow
    · exact h.pending_below session row hrow
  pending_below := (h.released session).pending_below
  unanswered session' call hphase row hrow := by
    obtain rfl | hne := eq_or_ne session' session
    · simp [State.released] at hphase
    · have hphase' : state.phase session' = .unanswered call := by simpa [State.released, hne] using hphase
      rw [List.append_assoc] at hrow
      obtain hrow | hrow := List.mem_append.mp hrow
      · exact h.unanswered session' call hphase' row (List.mem_append_left _ hrow)
      · obtain hrow | hrow := List.mem_append.mp hrow
        · exact h.not_answers hcovers hne.symm (.inr hphase') hrow
        · exact h.unanswered session' call hphase' row
            (List.mem_append_right _ (by simpa [State.released, hne] using hrow))
  later session' row hrow stored hstored call hanswers hanswers' := by
    obtain rfl | hne := eq_or_ne session' session
    · simp [State.released] at hrow
    · have hrow' : row ∈ state.pending session' := by simpa [State.released, hne] using hrow
      obtain hstored | hstored := List.mem_append.mp hstored
      · exact h.later session' row hrow' stored hstored call hanswers hanswers'
      · exact absurd (h.session_eq hcovers hrow' hstored hanswers hanswers') hne

variable [DecidableEq Key] {state state' : State Session Call Key Row}

theorem step_cases {event : Event Session Call Answer}
    (h : step protocol state event = .ok state') : Step protocol state state' := by
  cases event with
  | lock session call =>
    rw [step] at h
    split at h
    · next hidle =>
      split at h
      · next hfree =>
        cases h
        exact .lock session call hidle hfree
      · cases h
    · cases h
  | read session =>
    rw [step] at h
    split at h
    · next call hlocked =>
      split at h
      · next row hfirst =>
        cases h
        exact .answered session call row hlocked hfirst
      · next hnone =>
        cases h
        exact .missed session call hlocked hnone
    · cases h
  | ask session answer id =>
    rw [step] at h
    split at h
    · next call hunanswered =>
      split at h
      · next hid =>
        cases h
        exact .asked session call answer id hunanswered hid
      · cases h
    · cases h
  | commit session =>
    rw [step] at h
    split at h
    · cases h
      exact .committed session
    · cases h
  | rollback session =>
    cases h
    exact .rolledBack session

theorem Orderly.lock (h : Orderly protocol state)
    (hfree : state.holder (protocol.key call) = none ∨ state.holder (protocol.key call) = some session) :
    Orderly protocol { state with
      holder := Function.update state.holder (protocol.key call) (some session)
      phase := Function.update state.phase session (.locked call) } where
  locked session' call' hphase := by
    obtain rfl | hne := eq_or_ne session' session
    · obtain rfl : call = call' := by simpa using hphase
      exact Function.update_self ..
    · exact holder_lock hfree (h.locked session' call' (by simpa [hne] using hphase))
  pending session' row hrow := by
    obtain ⟨call', answer, hrecord, hholder⟩ := h.pending session' row hrow
    exact ⟨call', answer, hrecord, holder_lock hfree hholder⟩
  below := h.below
  pending_below := h.pending_below
  unanswered session' call' hphase := by
    obtain rfl | hne := eq_or_ne session' session
    · simp at hphase
    · exact h.unanswered session' call' (by simpa [hne] using hphase)
  later := h.later

theorem Orderly.step (h : Orderly protocol state)
    (hcovers : protocol.Covers) (hstep : Step protocol state state') : Orderly protocol state' := by
  cases hstep with
  | lock session call _ hfree => exact h.lock hfree
  | answered session call row _ _ => exact h.answered
  | missed session call hlocked hnone => exact h.missed hlocked hnone
  | asked session call answer id hunanswered hid => exact h.asked hunanswered hid
  | committed session => exact h.committed hcovers session
  | rolledBack session => exact h.released session

theorem orderly_run {state' : State Session Call Key Row} (h : Orderly protocol state) (hcovers : protocol.Covers)
    (hrun : events.foldlM (step protocol) state = .ok state') :
    Orderly protocol state' :=
  foldlM_inv (fun _ => Orderly protocol) hrun h fun _ _ _ _ _ _ h hstep => h.step hcovers (step_cases hstep)

variable {row : ℕ × Row}

theorem Orderly.first_step (h : Orderly protocol state) (hstep : Step protocol state state')
    (hfirst : protocol.first (protocol.query call) state.rows = some row) :
    protocol.first (protocol.query call) state'.rows = some row := by
  cases hstep with
  | committed session => exact h.first_visible hfirst session
  | lock | answered | missed | asked | rolledBack => exact hfirst

/-- After a query's first committed answer, a step answers its calls with it, and none asks. -/
theorem Orderly.log_step (h : Orderly protocol state) (hstep : Step protocol state state')
    (hfirst : protocol.first (protocol.query call) state.rows = some row) :
    (∃ results, state'.returned = state.returned ++ results ∧
      ∀ result ∈ results, protocol.query result.1 = protocol.query call → result.2 = row) ∧
    ∃ asks, state'.asked = state.asked ++ asks ∧ ∀ asker ∈ asks, protocol.query asker ≠ protocol.query call := by
  cases hstep with
  | answered session caller found hlocked hfound =>
    refine ⟨⟨[(caller, found)], rfl, fun result hresult hquery => ?_⟩, [], (List.append_nil _).symm, by simp⟩
    cases List.mem_singleton.mp hresult
    rw [show protocol.query caller = protocol.query call from hquery, h.first_visible hfirst session] at hfound
    exact (Option.some.inj hfound).symm
  | asked session caller answer id hunanswered hid =>
    refine ⟨⟨[], (List.append_nil _).symm, by simp⟩, [caller], rfl, fun asker hasker hquery => ?_⟩
    cases List.mem_singleton.mp hasker
    obtain ⟨hmem, hanswers, -⟩ := Protocol.first_eq_some hfirst
    have hnone := h.unanswered session caller hunanswered row (List.mem_append_left _ hmem)
    rw [hquery, hanswers] at hnone
    cases hnone
  | lock | missed | committed | rolledBack =>
    exact ⟨⟨[], (List.append_nil _).symm, by simp⟩, [], (List.append_nil _).symm, by simp⟩

/-- After a query's first committed answer, every run answers its calls with it, and none asks. -/
theorem Orderly.log_run (h : Orderly protocol state) (hcovers : protocol.Covers) {events : List (Event Session Call Answer)}
    (hrun : events.foldlM (AskOnce.step protocol) state = .ok state')
    (hfirst : protocol.first (protocol.query call) state.rows = some row) :
    (∃ results, state'.returned = state.returned ++ results ∧
      ∀ result ∈ results, protocol.query result.1 = protocol.query call → result.2 = row) ∧
    ∃ asks, state'.asked = state.asked ++ asks ∧ ∀ asker ∈ asks, protocol.query asker ≠ protocol.query call := by
  induction events generalizing state with
  | nil =>
    obtain rfl := foldlM_nil_eq_ok.mp hrun
    exact ⟨⟨[], (List.append_nil _).symm, by simp⟩, [], (List.append_nil _).symm, by simp⟩
  | cons event events ih =>
    obtain ⟨middle, hstep, hrest⟩ := foldlM_cons_eq_ok.mp hrun
    have hstep := step_cases hstep
    obtain ⟨⟨results, hresults, hsame⟩, asks, hasks, hother⟩ := h.log_step hstep hfirst
    obtain ⟨⟨results', hresults', hsame'⟩, asks', hasks', hother'⟩ := ih (h.step hcovers hstep) hrest (h.first_step hstep hfirst)
    refine ⟨⟨results ++ results', by rw [hresults', hresults, List.append_assoc], fun result hresult => ?_⟩,
      asks ++ asks', by rw [hasks', hasks, List.append_assoc], fun asker hasker => ?_⟩
    · exact (List.mem_append.mp hresult).elim (hsame result) (hsame' result)
    · exact (List.mem_append.mp hasker).elim (hother asker) (hother' asker)

/-- Since the start only calls' rows are committed, and at most one own answer is or waits to be. -/
structure OneOwn (protocol : Protocol Call Query Key Answer Row) (start : List (ℕ × Row)) (own : Row → Bool)
    (state : State Session Call Key Row) (new : List (ℕ × Row)) : Prop where
  rows : state.rows = start ++ new
  recorded : ∀ row ∈ new, ∃ call answer, protocol.record call answer = some row.2
  committed : new.countP (fun row => own row.2) ≤ 1
  waiting : ∀ session, (new ++ state.pending session).countP (fun row => own row.2) ≤ 1

theorem OneOwn.step {start : List (ℕ × Row)} {own : Row → Bool} (howns : protocol.Owns call own) (h : Orderly protocol state) (hcovers : protocol.Covers)
    (hstep : Step protocol state state') {new : List (ℕ × Row)} (hone : OneOwn protocol start own state new) :
    ∃ new, OneOwn protocol start own state' new := by
  cases hstep with
  | lock | answered | missed => exact ⟨new, hone.rows, hone.recorded, hone.committed, hone.waiting⟩
  | rolledBack session =>
    refine ⟨new, hone.rows, hone.recorded, hone.committed, fun session' => ?_⟩
    obtain rfl | hne := eq_or_ne session' session
    · simpa [State.released] using hone.committed
    · simpa [State.released, hne] using hone.waiting session'
  | asked session caller answer id hunanswered hid =>
    refine ⟨new, hone.rows, hone.recorded, hone.committed, fun session' => ?_⟩
    obtain rfl | hne := eq_or_ne session' session
    · simp only [Function.update_self]
      rw [← List.append_assoc]
      refine h.countP_inserted howns hunanswered (fun row hrow => ?_) (hone.waiting session')
      rw [hone.rows, List.append_assoc]
      exact List.mem_append_right _ hrow
    · simpa [hne] using hone.waiting session'
  | committed session =>
    refine ⟨new ++ state.pending session, by rw [hone.rows, List.append_assoc], fun row hrow => ?_,
      hone.waiting session, fun session' => ?_⟩
    · obtain hrow | hrow := List.mem_append.mp hrow
      · exact hone.recorded row hrow
      · obtain ⟨caller, answer, hrecord, -⟩ := h.pending session row hrow
        exact ⟨caller, answer, hrecord⟩
    · obtain rfl | hne := eq_or_ne session' session
      · simpa [State.released] using hone.waiting session'
      · have hsession := hone.waiting session
        have hsession' := hone.waiting session'
        have hpending := h.countP_pending howns hcovers hne.symm
        simp only [State.released, Function.update_of_ne hne, List.countP_append] at hsession hsession' ⊢
        omega

theorem oneOwn_run {table : Table Row} (hcovers : protocol.Covers)
    (hrun : events.foldlM (AskOnce.step protocol) table.start = .ok state) (howns : protocol.Owns call own) :
    ∃ new, OneOwn protocol table.rows own state new := by
  have hstart : OneOwn protocol table.rows own (table.start : State Session Call Key Row) [] :=
    ⟨(List.append_nil _).symm, by simp, by simp, fun _ => by simp [Table.start]⟩
  exact (foldlM_inv (fun _ state => Orderly protocol state ∧ ∃ new, OneOwn protocol table.rows own state new) hrun
    ⟨orderly_start table, [], hstart⟩ fun _ _ _ _ _ _ ⟨h, _, hone⟩ hstep =>
      ⟨h.step hcovers (step_cases hstep), hone.step howns h hcovers (step_cases hstep)⟩).2

end TrueAlpha.AskOnce
