import TrueAlpha.Datahub.PointerHistory

/-!
# Transactions that race for a head

Transactions run calls of `register_run_evidence`, and their statements interleave over the committed rows.  The locked read of
`advance` chooses its row before it waits, so it may return a row that is no longer the head.
-/

namespace TrueAlpha.Datahub

open TrueAlpha.Contracts

/-! ## Statements -/

/-- A call up to its `advance`: the pointer that it adds behind the head it reads. -/
def RunStatuses.prepare (runs : RunStatuses) (pointers : List CurrentPointer) (runId : String) :
    Except RegistryError (Option CurrentPointer) :=
  match runs.status runId with
  | none => .error (.noCaptureStatus runId)
  | some status => do
    let environment ← RunStatuses.environmentOf status
    let key ← CurrentPointerKey.validated ⟨environment, status.universeId, status.universeVersion, pointerFactorId⟩
    RunStatuses.nextPointer key (headOf pointers key) runId status.cutoff

inductive Phase where
  /-- Between two calls. -/
  | idle
  /-- The head was read. -/
  | prepared (pointer : CurrentPointer)
  /-- The locked read chose its row and waits for the lock. -/
  | waiting (pointer : CurrentPointer) (row : Option CurrentPointer)
  /-- The row that was locked allows the pointer. -/
  | checked (pointer : CurrentPointer)

inductive Transaction where
  | active (phase : Phase) (written locked : List CurrentPointer)
  | committed (written : List CurrentPointer)
  | aborted

def Phase.pointer : Phase → Option CurrentPointer
  | .idle => none
  | .prepared pointer | .waiting pointer _ | .checked pointer => some pointer

namespace Transaction

def pending : Transaction → List CurrentPointer
  | .active _ written _ => written
  | .committed _ | .aborted => []

def locked : Transaction → List CurrentPointer
  | .active _ _ locked => locked
  | .committed _ | .aborted => []

def pointer : Transaction → Option CurrentPointer
  | .active phase _ _ => phase.pointer
  | .committed _ | .aborted => none

end Transaction

structure Registry (ι : Type*) where
  rows : List (ι × CurrentPointer)
  transactions : ι → Transaction

namespace Registry

variable {ι : Type*}

def start : Registry ι := ⟨[], fun _ => .active .idle [] []⟩

def committed (registry : Registry ι) : List CurrentPointer := registry.rows.map (·.2)

def visible (registry : Registry ι) (id : ι) : List CurrentPointer := registry.committed ++ (registry.transactions id).pending

variable [DecidableEq ι]

def set (registry : Registry ι) (id : ι) (transaction : Transaction) : Registry ι :=
  { registry with transactions := Function.update registry.transactions id transaction }

inductive Step (runs : RunStatuses) (registry : Registry ι) : Registry ι → Prop
  /-- The head read: a run that is the head needs no pointer. -/
  | readHead (id : ι) (runId : String) (written locked : List CurrentPointer) (pointer : Option CurrentPointer) :
      registry.transactions id = .active .idle written locked →
      runs.prepare (registry.visible id) runId = .ok pointer →
      Step runs registry (registry.set id (.active (pointer.elim .idle .prepared) written locked))
  /-- The locked read of `advance` starts: it takes the head that it sees. -/
  | chooseRow (id : ι) (pointer : CurrentPointer) (written locked : List CurrentPointer) :
      registry.transactions id = .active (.prepared pointer) written locked →
      Step runs registry
        (registry.set id (.active (.waiting pointer (headOf (registry.visible id) pointer.key)) written locked))
  /-- No other transaction locks the row of the locked read, and the checks of `advance` hold. -/
  | lockRow (id : ι) (pointer : CurrentPointer) (row : Option CurrentPointer) (written locked : List CurrentPointer) :
      registry.transactions id = .active (.waiting pointer row) written locked →
      (∀ other ≠ id, ∀ held ∈ row, held ∉ (registry.transactions other).locked) →
      checkAdvance row pointer = .ok () →
      Step runs registry (registry.set id (.active (.checked pointer) written (locked ++ row.toList)))
  /-- The insert: no open transaction holds the place, and the constraints hold. -/
  | insert (id : ι) (pointer : CurrentPointer) (nodes : List EvidenceNode) (written locked : List CurrentPointer) :
      registry.transactions id = .active (.checked pointer) written locked →
      (∀ other ≠ id, ∀ stored ∈ (registry.transactions other).pending, ¬ SamePlace pointer stored) →
      insertPointer nodes (registry.visible id) pointer = .ok (registry.visible id ++ [pointer]) →
      Step runs registry (registry.set id (.active .idle (written ++ [pointer]) locked))
  | commit (id : ι) (written locked : List CurrentPointer) :
      registry.transactions id = .active .idle written locked →
      Step runs registry
        { registry.set id (.committed written) with rows := registry.rows ++ written.map (Prod.mk id) }
  /-- A failing statement ends its transaction, and the caller may end it at any time. -/
  | abort (id : ι) (phase : Phase) (written locked : List CurrentPointer) :
      registry.transactions id = .active phase written locked →
      Step runs registry (registry.set id .aborted)

abbrev Steps (runs : RunStatuses) : Registry ι → Registry ι → Prop := Relation.ReflTransGen (Step runs)

end Registry

variable {ι : Type*} {runs : RunStatuses} {registry registry' : Registry ι} {id : ι} {transaction : Transaction}
  {pointer : CurrentPointer} {pointers : List CurrentPointer} {key : CurrentPointerKey}

def Behind (pointers : List CurrentPointer) (pointer : CurrentPointer) : Prop :=
  (pointer.sequence = 0 ∧ pointer.previousRun = none) ∨ ∃ stored ∈ historyOf pointers pointer.key,
      pointer.sequence = stored.sequence + 1 ∧ pointer.previousRun = some stored.targetRun

theorem mem_history_of_headOf {head : CurrentPointer} (h : headOf pointers key = some head) : head ∈ historyOf pointers key :=
  (latestBy_eq_some _ h).1

theorem behind_of_prepare {runId : String} {next : Option CurrentPointer} (h : runs.prepare pointers runId = .ok next) :
    ∀ pointer ∈ next, Behind pointers pointer := by
  unfold RunStatuses.prepare at h
  split at h
  · cases h
  · obtain ⟨environment, -, h⟩ := bind_eq_ok_iff.mp h
    obtain ⟨key, -, h⟩ := bind_eq_ok_iff.mp h
    intro pointer hmem
    obtain ⟨-, -, -, rfl⟩ | ⟨-, rfl⟩ := nextPointer_eq_ok h
    · cases hmem
    · cases hmem
      rcases hhead : headOf pointers key with _ | head
      · exact .inl ⟨rfl, rfl⟩
      · exact .inr ⟨head, mem_history_of_headOf hhead, rfl, rfl⟩

theorem historyOf_append_list (pointers pointers' : List CurrentPointer) (key : CurrentPointerKey) :
    historyOf (pointers ++ pointers') key = historyOf pointers key ++ historyOf pointers' key := List.filter_append ..

theorem SamePlace.symm {stored : CurrentPointer} (h : SamePlace pointer stored) : SamePlace stored pointer := ⟨h.1.symm, h.2.symm⟩

theorem linked_insert {nodes : List EvidenceNode} {pointers' : List CurrentPointer}
    (hlinked : ∀ key, pointerLinks.Linked (historyOf pointers key)) (hbehind : Behind pointers pointer)
    (h : insertPointer nodes pointers pointer = .ok pointers') (key : CurrentPointerKey) :
    pointerLinks.Linked (historyOf pointers' key) := by
  obtain ⟨hrow, hfree, rfl⟩ := insertPointer_eq_ok h
  rw [historyOf_append]
  split
  · next hkey =>
    subst hkey
    refine (hlinked _).concat ((hlinked _).follows (fun stored hstored hplace => ?_) (checkRow_eq_ok hrow).2 hbehind)
    obtain ⟨hmem, hkey⟩ := mem_historyOf.mp hstored
    exact hfree stored hmem ⟨hkey, hplace⟩
  · rw [List.append_nil]
    exact hlinked key

/-! ## The invariant -/

variable {written locked : List CurrentPointer}

namespace Registry

/-- What every transaction sees is linked, no two hold one place, and a call is behind a row that it sees. -/
structure Chained (registry : Registry ι) : Prop where
  own : ∀ id key, pointerLinks.Linked (historyOf (registry.visible id) key)
  apart : ∀ id other, other ≠ id → ∀ pointer ∈ (registry.transactions id).pending,
    ∀ stored ∈ (registry.transactions other).pending, ¬ SamePlace pointer stored
  called : ∀ id, ∀ pointer ∈ (registry.transactions id).pointer, Behind (registry.visible id) pointer

theorem chained_start : (start : Registry ι).Chained where
  own _ _ := Links.linked_nil
  apart _ _ _ _ hmem := absurd hmem List.not_mem_nil
  called _ _ hmem := by cases hmem

theorem Chained.committed (h : registry.Chained) (id : ι) (key : CurrentPointerKey) :
    pointerLinks.Linked (historyOf registry.committed key) := by
  have hown := h.own id key
  rw [visible, historyOf_append_list] at hown
  exact hown.left

theorem Chained.append (h : registry.Chained) {other : ι} (hne : other ≠ id) (key : CurrentPointerKey) :
    pointerLinks.Linked (historyOf
      (registry.committed ++ (registry.transactions id).pending ++ (registry.transactions other).pending) key) := by
  have hown := h.own id key
  have hother := h.own other key
  rw [visible, historyOf_append_list] at hown hother
  have hnil := hown.eq_nil_or_eq_nil hother fun pointer hpointer stored hstored heq => by
    obtain ⟨hpointer, hkey⟩ := mem_historyOf.mp hpointer
    obtain ⟨hstored, hkey'⟩ := mem_historyOf.mp hstored
    exact h.apart id other hne pointer hpointer stored hstored ⟨hkey'.trans hkey.symm, heq.symm⟩
  rw [historyOf_append_list, historyOf_append_list]
  obtain hnil | hnil := hnil
  · rwa [hnil, List.append_nil]
  · rwa [hnil, List.append_nil]

variable [DecidableEq ι]

@[simp] theorem transactions_set_self : (registry.set id transaction).transactions id = transaction := Function.update_self ..

theorem transactions_set_of_ne {other : ι} (h : other ≠ id) :
    (registry.set id transaction).transactions other = registry.transactions other :=
  Function.update_of_ne h ..

section

variable (h : registry.Chained)

include h

theorem Chained.set
    (hown : ∀ key, pointerLinks.Linked (historyOf (registry.committed ++ transaction.pending) key))
    (hapart : ∀ other ≠ id, ∀ pointer ∈ transaction.pending, ∀ stored ∈ (registry.transactions other).pending,
      ¬ SamePlace pointer stored)
    (hcalled : ∀ pointer ∈ transaction.pointer, Behind (registry.committed ++ transaction.pending) pointer) :
    (registry.set id transaction).Chained where
  own other key := by
    by_cases heq : other = id
    · subst heq
      rw [visible, transactions_set_self]
      exact hown key
    · rw [visible, transactions_set_of_ne heq]
      exact h.own other key
  apart first second hne pointer hpointer stored hstored hsame := by
    by_cases hfirst : first = id
    · subst hfirst
      rw [transactions_set_self] at hpointer
      rw [transactions_set_of_ne hne] at hstored
      exact hapart second hne pointer hpointer stored hstored hsame
    · rw [transactions_set_of_ne hfirst] at hpointer
      by_cases hsecond : second = id
      · subst hsecond
        rw [transactions_set_self] at hstored
        exact hapart first hfirst stored hstored pointer hpointer hsame.symm
      · rw [transactions_set_of_ne hsecond] at hstored
        exact h.apart first second hne pointer hpointer stored hstored hsame
  called other pointer hmem := by
    by_cases heq : other = id
    · subst heq
      rw [transactions_set_self] at hmem
      rw [visible, transactions_set_self]
      exact hcalled pointer hmem
    · rw [transactions_set_of_ne heq] at hmem
      rw [visible, transactions_set_of_ne heq]
      exact h.called other pointer hmem

theorem Chained.set_phase {phase phase' : Phase} {written locked locked' : List CurrentPointer}
    (hid : registry.transactions id = .active phase written locked)
    (hpointer : ∀ pointer ∈ phase'.pointer, Behind (registry.visible id) pointer) :
    (registry.set id (.active phase' written locked')).Chained := by
  have hpending : (registry.transactions id).pending = written := by rw [hid, Transaction.pending]
  refine h.set (fun key => ?_) (fun other hne => ?_) fun pointer hmem => ?_
  · have hown := h.own id key
    rwa [visible, hpending] at hown
  · have hapart := h.apart id other hne
    rwa [hpending] at hapart
  · have hbehind := hpointer pointer hmem
    rwa [visible, hpending] at hbehind

theorem Chained.commit
    (hid : registry.transactions id = .active .idle written locked) :
    { registry.set id (.committed written) with rows := registry.rows ++ written.map (Prod.mk id) }.Chained := by
  have hpending : (registry.transactions id).pending = written := by rw [hid, Transaction.pending]
  have hrows : (registry.rows ++ written.map (Prod.mk id)).map (·.2) = registry.committed ++ written := by
    rw [List.map_append, List.map_map]
    exact congrArg _ (List.map_id written)
  refine ⟨fun other key => ?_, fun first second hne pointer hpointer stored hstored => ?_, fun other pointer hmem => ?_⟩
  · rw [visible, Registry.committed, hrows]
    by_cases heq : other = id
    · subst heq
      rw [transactions_set_self, Transaction.pending, List.append_nil, ← hpending]
      exact h.own other key
    · rw [transactions_set_of_ne heq, ← hpending]
      exact h.append heq key
  · by_cases hfirst : first = id
    · subst hfirst
      rw [transactions_set_self] at hpointer
      cases hpointer
    · rw [transactions_set_of_ne hfirst] at hpointer
      by_cases hsecond : second = id
      · subst hsecond
        rw [transactions_set_self] at hstored
        cases hstored
      · rw [transactions_set_of_ne hsecond] at hstored
        exact h.apart first second hne pointer hpointer stored hstored
  · by_cases heq : other = id
    · subst heq
      rw [transactions_set_self] at hmem
      cases hmem
    · rw [transactions_set_of_ne heq] at hmem
      rw [visible, Registry.committed, hrows, transactions_set_of_ne heq]
      obtain hfirst | ⟨row, hrow, hlink⟩ := h.called other pointer hmem
      · exact .inl hfirst
      · refine .inr ⟨row, ?_, hlink⟩
        rw [visible, historyOf_append_list, List.mem_append] at hrow
        rw [historyOf_append_list, historyOf_append_list, List.mem_append, List.mem_append]
        exact hrow.imp_left .inl

theorem Chained.step (hstep : registry.Step runs registry') : registry'.Chained := by
  cases hstep with
  | readHead id runId written locked pointer hid hprepare =>
    refine h.set_phase hid fun built hbuilt => ?_
    cases pointer with
    | none => cases hbuilt
    | some pointer => exact behind_of_prepare hprepare built hbuilt
  | chooseRow id pointer written locked hid =>
    exact h.set_phase hid fun built hbuilt => h.called id built (by rw [hid]; exact hbuilt)
  | lockRow id pointer row written locked hid =>
    exact h.set_phase hid fun built hbuilt => h.called id built (by rw [hid]; exact hbuilt)
  | insert id pointer nodes written locked hid hfree hinsert =>
    have hpending : (registry.transactions id).pending = written := by rw [hid, Transaction.pending]
    have hbehind : Behind (registry.visible id) pointer := h.called id pointer (by rw [hid]; rfl)
    refine h.set (fun key => ?_) (fun other hne stored hstored => ?_) fun built hbuilt => by cases hbuilt
    · rw [Transaction.pending, ← List.append_assoc, ← hpending]
      exact linked_insert (h.own id) hbehind hinsert key
    · obtain hstored | hstored := List.mem_append.mp hstored
      · exact h.apart id other hne stored (hpending ▸ hstored)
      · rw [List.mem_singleton.mp hstored]
        exact hfree other hne
  | commit id written locked hid => exact h.commit hid
  | abort id phase written locked hid =>
    refine h.set (fun key => ?_) (fun other _ pointer hmem => absurd hmem List.not_mem_nil) fun pointer hmem => by cases hmem
    rw [Transaction.pending, List.append_nil]
    exact h.committed id key

theorem Chained.steps (hsteps : Steps runs registry registry') : registry'.Chained := by
  induction hsteps with
  | refl => exact h
  | tail _ hstep ih => exact ih.step hstep

end

structure Recorded (registry : Registry ι) : Prop where
  written : ∀ id pointer, (id, pointer) ∈ registry.rows →
    ∃ written, registry.transactions id = .committed written ∧ pointer ∈ written
  kept : ∀ id written, registry.transactions id = .committed written → ∀ pointer ∈ written, (id, pointer) ∈ registry.rows

omit [DecidableEq ι] in
theorem recorded_start : (start : Registry ι).Recorded where
  written _ _ hmem := absurd hmem List.not_mem_nil
  kept _ _ hid := by cases hid

section

variable (h : registry.Recorded)

include h

theorem Recorded.set {phase : Phase}
    (hid : registry.transactions id = .active phase written locked) (hopen : ∀ written, transaction ≠ .committed written) :
    (registry.set id transaction).Recorded where
  written other pointer hmem := by
    obtain ⟨rows, hother, hrows⟩ := h.written other pointer hmem
    have hne : other ≠ id := by
      rintro rfl
      cases hother.symm.trans hid
    exact ⟨rows, by rwa [transactions_set_of_ne hne], hrows⟩
  kept other rows hother := by
    by_cases heq : other = id
    · subst heq
      rw [transactions_set_self] at hother
      exact absurd hother (hopen rows)
    · rw [transactions_set_of_ne heq] at hother
      exact h.kept other rows hother

theorem Recorded.commit
    (hid : registry.transactions id = .active .idle written locked) :
    { registry.set id (.committed written) with rows := registry.rows ++ written.map (Prod.mk id) }.Recorded := by
  refine ⟨fun other pointer hmem => ?_, fun other rows hother pointer hpointer => ?_⟩
  · obtain hmem | hmem := List.mem_append.mp hmem
    · obtain ⟨rows, hother, hrows⟩ := h.written other pointer hmem
      have hne : other ≠ id := by
        rintro rfl
        cases hother.symm.trans hid
      exact ⟨rows, (transactions_set_of_ne hne).trans hother, hrows⟩
    · obtain ⟨row, hrow, heq⟩ := List.mem_map.mp hmem
      cases heq
      exact ⟨written, transactions_set_self, hrow⟩
  · by_cases heq : other = id
    · subst heq
      cases transactions_set_self.symm.trans hother
      exact List.mem_append_right _ (List.mem_map_of_mem hpointer)
    · exact List.mem_append_left _ (h.kept other rows ((transactions_set_of_ne heq).symm.trans hother) pointer hpointer)

theorem Recorded.step (hstep : registry.Step runs registry') : registry'.Recorded := by
  cases hstep with
  | readHead id runId written locked pointer hid => exact h.set hid fun _ heq => by cases heq
  | chooseRow id pointer written locked hid => exact h.set hid fun _ heq => by cases heq
  | lockRow id pointer row written locked hid => exact h.set hid fun _ heq => by cases heq
  | insert id pointer nodes written locked hid => exact h.set hid fun _ heq => by cases heq
  | commit id written locked hid => exact h.commit hid
  | abort id phase written locked hid => exact h.set hid fun _ heq => by cases heq

theorem Recorded.steps (hsteps : Steps runs registry registry') : registry'.Recorded := by
  induction hsteps with
  | refl => exact h
  | tail _ hstep ih => exact ih.step hstep

end

theorem rows_prefix_of_step (hstep : registry.Step runs registry') : registry.rows <+: registry'.rows := by
  cases hstep with
  | commit id written => exact List.prefix_append ..
  | _ => exact List.prefix_rfl

theorem rows_prefix_of_steps (hsteps : Steps runs registry registry') : registry.rows <+: registry'.rows := by
  induction hsteps with
  | refl => exact List.prefix_rfl
  | tail _ hstep ih => exact ih.trans (rows_prefix_of_step hstep)

def Lost (registry : Registry ι) (id : ι) (pointer : CurrentPointer) : Prop :=
  (registry.transactions id).pointer = some pointer ∧ ∃ stored ∈ registry.committed, SamePlace pointer stored

omit [DecidableEq ι] in
theorem exists_samePlace_of_prefix (h : registry.rows <+: registry'.rows)
    (hstored : ∃ stored ∈ registry.committed, SamePlace pointer stored) :
    ∃ stored ∈ registry'.committed, SamePlace pointer stored := by
  obtain ⟨stored, hmem, hsame⟩ := hstored
  exact ⟨stored, (h.map (·.2)).subset hmem, hsame⟩

theorem Lost.step (h : registry.Lost id pointer) (hstep : registry.Step runs registry') :
    registry'.Lost id pointer ∨ registry'.transactions id = .aborted := by
  obtain ⟨hcall, hstored⟩ := h
  have hplace := exists_samePlace_of_prefix (rows_prefix_of_step hstep) hstored
  have hkeep : (registry'.transactions id).pointer = some pointer →
      registry'.Lost id pointer ∨ registry'.transactions id = .aborted := fun hcall' => .inl ⟨hcall', hplace⟩
  have hother : ∀ {actor transaction}, id ≠ actor →
      ((registry.set actor transaction).transactions id).pointer = some pointer := by
    intro actor transaction hne
    rwa [transactions_set_of_ne hne]
  cases hstep with
  | readHead actor runId written locked next hid =>
    by_cases heq : id = actor
    · subst heq
      rw [hid] at hcall
      cases hcall
    · exact hkeep (hother heq)
  | chooseRow actor built written locked hid =>
    by_cases heq : id = actor
    · subst heq
      rw [hid] at hcall
      exact hkeep (by rw [transactions_set_self]; exact hcall)
    · exact hkeep (hother heq)
  | lockRow actor built row written locked hid =>
    by_cases heq : id = actor
    · subst heq
      rw [hid] at hcall
      exact hkeep (by rw [transactions_set_self]; exact hcall)
    · exact hkeep (hother heq)
  | insert actor built nodes written locked hid hfree hinsert =>
    by_cases heq : id = actor
    · subst heq
      rw [hid] at hcall
      cases hcall
      -- the unique key sees every committed row
      obtain ⟨stored, hmem, hsame⟩ := hstored
      exact absurd hsame ((insertPointer_eq_ok hinsert).2.1 stored (List.mem_append_left _ hmem))
    · exact hkeep (hother heq)
  | commit actor written locked hid =>
    by_cases heq : id = actor
    · subst heq
      rw [hid] at hcall
      cases hcall
    · exact hkeep (hother heq)
  | abort actor phase written locked hid =>
    by_cases heq : id = actor
    · subst heq
      exact .inr transactions_set_self
    · exact hkeep (hother heq)

theorem aborted_step (h : registry.transactions id = .aborted) (hstep : registry.Step runs registry') :
    registry'.transactions id = .aborted := by
  have hother : ∀ {actor phase written locked transaction}, registry.transactions actor = .active phase written locked →
      (registry.set actor transaction).transactions id = .aborted := by
    intro actor phase written locked transaction hactor
    have hne : id ≠ actor := by
      rintro rfl
      cases h.symm.trans hactor
    rwa [transactions_set_of_ne hne]
  cases hstep with
  | readHead actor runId written locked next hid => exact hother hid
  | chooseRow actor built written locked hid => exact hother hid
  | lockRow actor built row written locked hid => exact hother hid
  | insert actor built nodes written locked hid => exact hother hid
  | commit actor written locked hid => exact hother hid
  | abort actor phase written locked hid => exact hother hid

theorem Lost.steps (h : registry.Lost id pointer) (hsteps : Steps runs registry registry') :
    registry'.Lost id pointer ∨ registry'.transactions id = .aborted := by
  induction hsteps with
  | refl => exact .inl h
  | tail _ hstep ih => exact ih.elim (·.step hstep) fun haborted => .inr (aborted_step haborted hstep)

omit [DecidableEq ι] in
theorem Recorded.not_mem_of_lost (h : registry.Recorded)
    (hlost : registry.Lost id pointer ∨ registry.transactions id = .aborted) (row : CurrentPointer) :
    (id, row) ∉ registry.rows := by
  intro hmem
  obtain ⟨written, hid, -⟩ := h.written id row hmem
  obtain ⟨hcall, -⟩ | haborted := hlost
  · rw [hid] at hcall
    cases hcall
  · cases hid.symm.trans haborted

end Registry

variable {store store' : EvidenceStore}

theorem statements_of_register {call : Registration} (hregister : runs.register store call = .ok store') :
    (runs.prepare store.pointers call.runId = .ok none ∧ store'.pointers = store.pointers) ∨
    ∃ pointer nodes, runs.prepare store.pointers call.runId = .ok (some pointer) ∧
      checkAdvance (headOf store.pointers pointer.key) pointer = .ok () ∧
      insertPointer nodes store.pointers pointer = .ok store'.pointers := by
  obtain ⟨⟨registration, last⟩, h, rfl⟩ := map_eq_ok_iff.mp hregister
  unfold RunStatuses.registerRunEvidence at h
  split at h
  · cases h
  · next status hstatus =>
    obtain ⟨environment, henvironment, h⟩ := bind_eq_ok_iff.mp h
    obtain ⟨bound, hbound, h⟩ := bind_eq_ok_iff.mp h
    obtain ⟨key, hkey, h⟩ := bind_eq_ok_iff.mp h
    obtain ⟨next, hnext, h⟩ := bind_eq_ok_iff.mp h
    have hpointers := bindManifest_pointers hbound
    rw [hpointers] at hnext
    have hprepare : runs.prepare store.pointers call.runId = .ok next := by
      rw [RunStatuses.prepare, hstatus]
      exact bind_eq_ok_iff.mpr ⟨environment, henvironment, bind_eq_ok_iff.mpr ⟨key, hkey, hnext⟩⟩
    rcases next with _ | pointer
    · cases h
      exact .inl ⟨hprepare, hpointers⟩
    · obtain ⟨advanced, hadvanced, h⟩ := bind_eq_ok_iff.mp h
      cases h
      obtain ⟨_, hcheck, hadvanced⟩ := bind_eq_ok_iff.mp hadvanced
      obtain ⟨inserted, hinserted, hadvanced⟩ := bind_eq_ok_iff.mp hadvanced
      cases hadvanced
      rw [hpointers] at hcheck hinserted
      exact .inr ⟨pointer, bound.nodes, hprepare, hcheck, hinserted⟩

namespace Registry

variable [DecidableEq ι]

theorem set_set {transaction' : Transaction} :
    (registry.set id transaction).set id transaction' = registry.set id transaction' := by
  rw [set, set, set, Function.update_idem]

theorem visible_set : (registry.set id transaction).visible id = registry.committed ++ transaction.pending := by
  rw [visible, transactions_set_self]
  rfl

theorem steps_of_register {call : Registration}
    (hid : registry.transactions id = .active .idle written locked) (hstore : store.pointers = registry.visible id)
    (halone : ∀ other ≠ id, (registry.transactions other).locked = [] ∧ (registry.transactions other).pending = [])
    (h : runs.register store call = .ok store') :
    ∃ written' locked', Steps runs registry (registry.set id (.active .idle written' locked')) ∧
      store'.pointers = registry.committed ++ written' := by
  have hvisible : registry.visible id = registry.committed ++ written := by rw [visible, hid, Transaction.pending]
  obtain ⟨hprepare, heq⟩ | ⟨pointer, nodes, hprepare, hcheck, hinsert⟩ := statements_of_register h
  · rw [hstore] at hprepare
    exact ⟨written, locked, .single (.readHead id call.runId written locked none hid hprepare), (heq.trans hstore).trans hvisible⟩
  · rw [hstore] at hprepare hcheck hinsert
    obtain ⟨-, -, heq⟩ := insertPointer_eq_ok hinsert
    have hread : Step runs registry (registry.set id (.active (.prepared pointer) written locked)) :=
      .readHead id call.runId written locked (some pointer) hid hprepare
    have hchoose : Step runs (registry.set id (.active (.prepared pointer) written locked)) _ :=
      .chooseRow id pointer written locked transactions_set_self
    rw [set_set, visible_set, Transaction.pending, ← hvisible] at hchoose
    set row := headOf (registry.visible id) pointer.key with hrow
    have hlock : Step runs (registry.set id (.active (.waiting pointer row) written locked)) _ :=
      .lockRow id pointer row written locked transactions_set_self (fun other hne held _ => by
        rw [transactions_set_of_ne hne, (halone other hne).1]
        exact List.not_mem_nil) hcheck
    rw [set_set] at hlock
    have hwrite : Step runs (registry.set id (.active (.checked pointer) written (locked ++ row.toList))) _ :=
      .insert id pointer nodes written (locked ++ row.toList) transactions_set_self (fun other hne stored hstored => by
        rw [transactions_set_of_ne hne, (halone other hne).2] at hstored
        exact absurd hstored List.not_mem_nil) (by rwa [visible_set, Transaction.pending, ← hvisible, ← heq])
    rw [set_set] at hwrite
    refine ⟨written ++ [pointer], locked ++ row.toList, ?_, by rw [heq, hvisible, List.append_assoc]⟩
    exact Relation.ReflTransGen.refl.tail hread |>.tail hchoose |>.tail hlock |>.tail hwrite

end Registry

/-- The sequences count the rows, and each later row replaces the target of the row before it by another run. -/
structure OneChain (log : List CurrentPointer) : Prop where
  sequences : log.map (·.sequence) = List.range log.length
  first : ∀ row ∈ log.head?, row.previousRun = none
  next : ∀ n (h : n + 1 < log.length), log[n + 1].previousRun = some log[n].targetRun ∧ log[n + 1].targetRun ≠ log[n].targetRun
  head : log ≠ [] → ∃! head, head ∈ log ∧ ∀ row ∈ log, row.sequence ≤ head.sequence

theorem oneChain_of_linked {log : List CurrentPointer} (h : pointerLinks.Linked log) : OneChain log where
  sequences := h.map_place
  first row hrow := by
    rcases log with _ | ⟨head, rest⟩
    · cases hrow
    · cases hrow
      exact (h 0 (Nat.zero_lt_succ _)).previous
  next n hn := by
    have hfollows := h (n + 1) hn
    have hlast : (log.take (n + 1)).getLast? = some log[n] := by
      rw [List.getLast?_eq_getElem?, List.length_take, min_eq_left hn.le, Nat.add_sub_cancel,
        List.getElem?_take_of_lt (Nat.lt_succ_self n), List.getElem?_eq_getElem]
    have hprevious : log[n + 1].previousRun = some log[n].targetRun := by
      have hprevious := hfollows.previous
      rwa [hlast] at hprevious
    exact ⟨hprevious, fun heq => hfollows.changes (hprevious.trans (congrArg some heq.symm))⟩
  head hne := by
    have hlast := List.getLast_mem hne
    have hplace : pointerLinks.place (log.getLast hne) + 1 = log.length := by
      have hlt : log.length - 1 < log.length := Nat.sub_lt (List.length_pos_iff.mpr hne) Nat.one_pos
      rw [List.getLast_eq_getElem, h.place_getElem hlt]
      omega
    have hmax : ∀ row ∈ log, row.sequence ≤ (log.getLast hne).sequence := by
      intro row hrow
      have hlt : row.sequence < log.length := h.place_lt hrow
      have heq : (log.getLast hne).sequence + 1 = log.length := hplace
      omega
    refine ⟨log.getLast hne, ⟨hlast, hmax⟩, fun other ⟨hother, hle⟩ => h.eq_of_place hother hlast ?_⟩
    exact le_antisymm (hmax other hother) (hle _ hlast)

/-- After any interleaving the committed rows of a key are one chain.  A committed transaction has all its rows in them and no
other has any; one that finds its place taken can only abort. -/
theorem committed_rows_are_one_chain (runs : RunStatuses) (registry : Registry ι) [DecidableEq ι]
    (h : Registry.Steps runs Registry.start registry) :
    (∀ key, OneChain (historyOf registry.committed key)) ∧
    (∀ id pointer, (id, pointer) ∈ registry.rows ↔ ∃ written, registry.transactions id = .committed written ∧ pointer ∈ written) ∧
    ∀ last, Registry.Steps runs registry last → registry.rows <+: last.rows ∧ ∀ id pointer, registry.Lost id pointer →
        (last.Lost id pointer ∨ last.transactions id = .aborted) ∧ ∀ row, (id, row) ∉ last.rows := by
  have hchained := Registry.chained_start.steps h
  have hrecorded := Registry.recorded_start.steps h
  refine ⟨fun key => ?_, fun id pointer => ⟨hrecorded.written id pointer, ?_⟩, fun last hlast => ?_⟩
  · rcases isEmpty_or_nonempty ι with hempty | ⟨⟨id⟩⟩
    · have hnil : registry.committed = [] := by
        rw [Registry.committed, List.map_eq_nil_iff, List.eq_nil_iff_forall_not_mem]
        exact fun row _ => hempty.elim row.1
      rw [hnil]
      exact oneChain_of_linked Links.linked_nil
    · exact oneChain_of_linked (hchained.committed id key)
  · rintro ⟨written, hid, hmem⟩
    exact hrecorded.kept id written hid pointer hmem
  · refine ⟨Registry.rows_prefix_of_steps hlast, fun id pointer hlost => ?_⟩
    have hafter := hlost.steps hlast
    exact ⟨hafter, (hrecorded.steps hlast).not_mem_of_lost hafter⟩

/-- Two transactions read the empty head: the second loses its place when the first commits. -/
theorem second_first_advance_is_lost :
    ∃ (registry : Registry Bool) (pointer : CurrentPointer), Registry.Steps sampleRuns Registry.start registry ∧
      registry.Lost true pointer ∧ historyOf registry.committed sampleKey ≠ [] ∧
      OneChain (historyOf registry.committed sampleKey) := by
  have hsecond : (sampleRuns.prepare [] (runOfDay '2')).toOption.any fun next => next.any fun pointer =>
      pointer.key = sampleKey ∧ pointer.sequence = 0 := by decide +kernel
  have hfirst : (sampleRuns.register sampleRegistry (tick '1')).toOption.any fun store => store.pointers.any fun pointer =>
      pointer.key = sampleKey ∧ pointer.sequence = 0 := by decide +kernel
  obtain ⟨next, hprepare, hnext⟩ := exists_ok_of_any hsecond
  obtain ⟨pointer, rfl, hpointer⟩ := (Option.any_eq_true _ _).mp hnext
  obtain ⟨store, hregister, hstore⟩ := exists_ok_of_any hfirst
  obtain ⟨stored, hstored, hplace⟩ := List.any_eq_true.mp hstore
  obtain ⟨hkey, hsequence⟩ := of_decide_eq_true hpointer
  obtain ⟨hkey', hsequence'⟩ := of_decide_eq_true hplace
  set race : Registry Bool := Registry.start.set true (.active (.prepared pointer) [] []) with hrace
  have hread : Registry.Step sampleRuns Registry.start race := .readHead true (runOfDay '2') [] [] (some pointer) rfl hprepare
  have halone : ∀ other ≠ false, (race.transactions other).locked = [] ∧ (race.transactions other).pending = [] := by
    intro other hne
    obtain rfl := Bool.eq_true_of_not_eq_false hne
    exact ⟨rfl, rfl⟩
  have hid : race.transactions false = .active .idle [] [] := rfl
  obtain ⟨written, locked, hcall, hwritten⟩ := Registry.steps_of_register hid rfl halone hregister
  have hcommit : Registry.Step sampleRuns (race.set false (.active .idle written locked)) _ :=
    .commit false written locked Registry.transactions_set_self
  have hsteps := (Relation.ReflTransGen.refl.tail hread).trans (hcall.tail hcommit)
  have hmem : stored ∈ written := by
    rw [hwritten] at hstored
    exact hstored
  have hcommitted : stored ∈ (written.map (Prod.mk false)).map (·.2) := by
    rw [List.map_map]
    exact List.mem_map.mpr ⟨stored, hmem, rfl⟩
  refine ⟨_, pointer, hsteps, ⟨rfl, stored, hcommitted, hkey'.trans hkey.symm, hsequence'.trans hsequence.symm⟩, ?_,
    (committed_rows_are_one_chain sampleRuns _ hsteps).1 sampleKey⟩
  exact List.ne_nil_of_mem (mem_historyOf.mpr ⟨hcommitted, hkey'⟩)

end TrueAlpha.Datahub
