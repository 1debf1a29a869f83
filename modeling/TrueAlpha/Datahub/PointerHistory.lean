import TrueAlpha.Datahub.PointerRegistry

/-!
# The head through registrations

The pointers of a key are a linked log.  Nothing compares the cutoff of a run with that of the head, which keeps the newest
cutoff exactly when every registered run is the head or is new and not older.
-/

namespace TrueAlpha.Datahub

open TrueAlpha.Contracts

def pointerLinks : Links CurrentPointer String := ⟨(·.sequence), (·.targetRun), (·.previousRun)⟩

/-- A call of `register_run_evidence`. -/
structure Registration where
  runId : String
  manifestId : String

namespace RunStatuses

variable (runs : RunStatuses)

def cutoffOf (runId : String) : Option Instant := (runs.status runId).map (·.cutoff)

def keyOf (runId : String) : Option CurrentPointerKey :=
  (runs.status runId).bind fun status => (CaptureEnvironment.ofText status.environment).map fun environment =>
    ⟨environment, status.universeId, status.universeVersion, pointerFactorId⟩

def register (store : EvidenceStore) (call : Registration) : Except RegistryError EvidenceStore :=
  (runs.registerRunEvidence store call.runId call.manifestId).map (·.2)

end RunStatuses

variable {runs : RunStatuses} {store store' : EvidenceStore} {call : Registration} {key : CurrentPointerKey}
  {pointer : CurrentPointer} {pointers : List CurrentPointer}

/-! ## What a registration does -/

variable {runId : String} {cutoff : Instant} {nodes : List EvidenceNode} {pointers' : List CurrentPointer}

theorem bindManifest_pointers {manifestId : String} (h : runs.bindManifest store runId manifestId cutoff = .ok store') :
    store'.pointers = store.pointers := by
  have hnode : ∀ node, (store.appendNode node).pointers = store.pointers := by
    intro node
    rw [EvidenceStore.appendNode]
    split <;> rfl
  obtain ⟨_, -, h⟩ := bind_eq_ok_iff.mp h
  obtain ⟨_, -, h⟩ := bind_eq_ok_iff.mp h
  dsimp only at h
  split at h
  · cases h
  · rw [EvidenceStore.appendEdge] at h
    split at h
    · cases h
      exact hnode _
    · split at h
      · cases h
        exact hnode _
      · cases h

theorem environmentOf_eq_ok {status : CaptureStatus} {environment : CaptureEnvironment}
    (h : RunStatuses.environmentOf status = .ok environment) :
    CaptureEnvironment.ofText status.environment = some environment := by
  rw [RunStatuses.environmentOf] at h
  split at h
  · cases h
  · next found hfound =>
    cases h
    exact hfound

theorem key_eq_of_validated {key' : CurrentPointerKey} (h : key.validated = .ok key') : key' = key := by
  rw [CurrentPointerKey.validated] at h
  repeat' split at h
  all_goals cases h
  rfl

theorem CurrentPointer.validated_eq_ok {pointer' : CurrentPointer} (h : pointer.validated = .ok pointer') :
    pointer' = pointer ∧ pointer.previousRun ≠ some pointer.targetRun := by
  rw [CurrentPointer.validated] at h
  split at h
  · next previous hprevious =>
    split at h
    · cases h
    · next hne =>
      split at h
      · cases h
      · cases h
        exact ⟨rfl, fun heq => hne (Option.some.inj (hprevious.symm.trans heq))⟩
  · next hnone =>
    split at h
    · cases h
    · cases h
      exact ⟨rfl, fun heq => by rw [hnone] at heq; cases heq⟩

theorem nextPointer_eq_ok {head : Option CurrentPointer} {next : Option CurrentPointer}
    (h : RunStatuses.nextPointer key head runId cutoff = .ok next) :
    (∃ head', head = some head' ∧ head'.targetRun = runId ∧ next = none) ∨
    (∀ head' ∈ head, head'.targetRun ≠ runId) ∧
      next = some ⟨key, runId, (head.map fun head' => head'.sequence + 1).getD 0, head.map (·.targetRun), cutoff⟩ := by
  rw [RunStatuses.nextPointer.eq_def] at h
  split at h
  · obtain ⟨pointer, hvalid, rfl⟩ := map_eq_ok_iff.mp h
    obtain ⟨rfl, -⟩ := CurrentPointer.validated_eq_ok hvalid
    exact .inr ⟨fun _ hmem => by simp at hmem, rfl⟩
  · next head' =>
    split at h
    · next heq =>
      cases h
      exact .inl ⟨head', rfl, heq, rfl⟩
    · next hne =>
      obtain ⟨pointer, hvalid, rfl⟩ := map_eq_ok_iff.mp h
      obtain ⟨rfl, -⟩ := CurrentPointer.validated_eq_ok hvalid
      refine .inr ⟨fun other hother => ?_, rfl⟩
      rw [Option.mem_some_iff] at hother
      rwa [← hother]

theorem insertPointer_eq_ok (h : insertPointer nodes pointers pointer = .ok pointers') :
    checkRow nodes pointer = .ok () ∧ (∀ stored ∈ pointers, ¬ SamePlace pointer stored) ∧ pointers' = pointers ++ [pointer] := by
  obtain ⟨_, hrow, h⟩ := bind_eq_ok_iff.mp h
  split at h
  · cases h
  · next hfree =>
    cases h
    exact ⟨hrow, fun stored hstored hsame => hfree ⟨stored, hstored, hsame⟩, rfl⟩

theorem checkRow_eq_ok (h : checkRow nodes pointer = .ok ()) :
    (pointer.sequence = 0 ↔ pointer.previousRun = none) ∧ pointer.previousRun ≠ some pointer.targetRun := by
  rw [checkRow] at h
  split at h
  · cases h
  · next hfirst =>
    split at h
    · cases h
    · next hkeeps => exact ⟨not_not.mp hfirst, hkeeps⟩

theorem register_eq_ok (hregister : runs.register store call = .ok store') :
    ∃ key cutoff, runs.keyOf call.runId = some key ∧ runs.cutoffOf call.runId = some cutoff ∧
      ((∃ head, headOf store.pointers key = some head ∧ head.targetRun = call.runId ∧ store'.pointers = store.pointers) ∨
        (∀ head ∈ headOf store.pointers key, head.targetRun ≠ call.runId) ∧ ∃ pointer nodes,
          pointer = ⟨key, call.runId, ((headOf store.pointers key).map fun head => head.sequence + 1).getD 0,
            (headOf store.pointers key).map (·.targetRun), cutoff⟩ ∧
          insertPointer nodes store.pointers pointer = .ok store'.pointers) := by
  obtain ⟨⟨registration, last⟩, h, rfl⟩ := map_eq_ok_iff.mp hregister
  unfold RunStatuses.registerRunEvidence at h
  split at h
  · cases h
  · next status hstatus =>
    obtain ⟨environment, henvironment, h⟩ := bind_eq_ok_iff.mp h
    obtain ⟨bound, hbound, h⟩ := bind_eq_ok_iff.mp h
    obtain ⟨key, hkey, h⟩ := bind_eq_ok_iff.mp h
    obtain rfl := key_eq_of_validated hkey
    obtain ⟨next, hnext, h⟩ := bind_eq_ok_iff.mp h
    have hkeyOf : runs.keyOf call.runId = some ⟨environment, status.universeId, status.universeVersion, pointerFactorId⟩ := by
      rw [RunStatuses.keyOf, hstatus, Option.bind_some, environmentOf_eq_ok henvironment]
      rfl
    refine ⟨_, status.cutoff, hkeyOf, by rw [RunStatuses.cutoffOf, hstatus]; rfl, ?_⟩
    rw [bindManifest_pointers hbound] at hnext h
    obtain ⟨head, hhead, htarget, rfl⟩ | ⟨hother, rfl⟩ := nextPointer_eq_ok hnext
    · cases h
      exact .inl ⟨head, hhead, htarget, bindManifest_pointers hbound⟩
    · obtain ⟨advanced, hadvanced, h⟩ := bind_eq_ok_iff.mp h
      cases h
      obtain ⟨_, -, hadvanced⟩ := bind_eq_ok_iff.mp hadvanced
      obtain ⟨inserted, hinserted, hadvanced⟩ := bind_eq_ok_iff.mp hadvanced
      cases hadvanced
      rw [bindManifest_pointers hbound] at hinserted
      exact .inr ⟨hother, _, bound.nodes, rfl, hinserted⟩

theorem historyOf_append (pointers : List CurrentPointer) (key : CurrentPointerKey) (pointer : CurrentPointer) :
    historyOf (pointers ++ [pointer]) key = historyOf pointers key ++ if pointer.key = key then [pointer] else [] := by
  rw [historyOf, List.filter_append, List.filter_singleton]
  by_cases heq : pointer.key = key <;> simp [heq, historyOf]

theorem mem_historyOf : pointer ∈ historyOf pointers key ↔ pointer ∈ pointers ∧ pointer.key = key := by
  rw [historyOf, List.mem_filter, decide_eq_true_eq]

theorem headOf_eq (h : pointerLinks.Linked (historyOf pointers key)) :
    headOf pointers key = (historyOf pointers key).getLast? := h.latestBy_eq

theorem follows_of_insert (hlinked : pointerLinks.Linked (historyOf pointers key)) (h : insertPointer nodes pointers
      ⟨key, runId, ((headOf pointers key).map fun head => head.sequence + 1).getD 0,
        (headOf pointers key).map (·.targetRun), cutoff⟩ = .ok pointers') :
    pointerLinks.Follows (historyOf pointers key)
      ⟨key, runId, ((headOf pointers key).map fun head => head.sequence + 1).getD 0,
        (headOf pointers key).map (·.targetRun), cutoff⟩ := by
  obtain ⟨hrow, hfree, rfl⟩ := insertPointer_eq_ok h
  refine hlinked.follows (fun stored hstored heq => ?_) (checkRow_eq_ok hrow).2 ?_
  · obtain ⟨hmem, hkey⟩ := mem_historyOf.mp hstored
    exact hfree stored hmem ⟨hkey, heq⟩
  · rcases hhead : headOf pointers key with _ | head
    · exact .inl ⟨rfl, rfl⟩
    · have hmem := List.mem_of_getLast? ((headOf_eq hlinked).symm.trans hhead)
      exact .inr ⟨head, hmem, rfl, rfl⟩

/-- After any registrations the log of each key is linked, and a row carries its run's key and cutoff. -/
structure Governed (runs : RunStatuses) (pointers : List CurrentPointer) : Prop where
  linked : ∀ key, pointerLinks.Linked (historyOf pointers key)
  keys : ∀ pointer ∈ pointers, runs.keyOf pointer.targetRun = some pointer.key
  cutoffs : ∀ pointer ∈ pointers, runs.cutoffOf pointer.targetRun = some pointer.advancedAt

theorem governed_nil (runs : RunStatuses) : Governed runs [] where
  linked _ := Links.linked_nil
  keys _ hmem := absurd hmem List.not_mem_nil
  cutoffs _ hmem := absurd hmem List.not_mem_nil

theorem Governed.register (hgoverned : Governed runs store.pointers) (h : runs.register store call = .ok store') :
    Governed runs store'.pointers := by
  obtain ⟨key, cutoff, hkey, hcutoff, ⟨head, -, -, heq⟩ | ⟨-, pointer, nodes, rfl, hinsert⟩⟩ := register_eq_ok h
  · rwa [heq]
  · have hfollows := follows_of_insert (hgoverned.linked key) hinsert
    obtain ⟨-, -, heq⟩ := insertPointer_eq_ok hinsert
    rw [heq]
    refine ⟨fun key' => ?_, fun stored hstored => ?_, fun stored hstored => ?_⟩
    · rw [historyOf_append]
      split
      · next hsame =>
        cases hsame
        exact (hgoverned.linked key).concat hfollows
      · rw [List.append_nil]
        exact hgoverned.linked key'
    · obtain hstored | hstored := List.mem_append.mp hstored
      · exact hgoverned.keys stored hstored
      · rw [List.mem_singleton.mp hstored]
        exact hkey
    · obtain hstored | hstored := List.mem_append.mp hstored
      · exact hgoverned.cutoffs stored hstored
      · rw [List.mem_singleton.mp hstored]
        exact hcutoff

/-! ## The law of the head -/

/-- The head's cutoff and stamp do not decrease, a replaced run does not return, a run registered before changes nothing, and the
head names the newest cutoff. -/
structure KeepsTime (runs : RunStatuses) (store store' : EvidenceStore) (runId : String) (key : CurrentPointerKey) :
    Prop where
  cutoff : ∀ head ∈ headOf store.pointers key, ∀ head' ∈ headOf store'.pointers key,
    ∀ cutoff ∈ runs.cutoffOf head.targetRun, ∀ cutoff' ∈ runs.cutoffOf head'.targetRun, cutoff ≤ cutoff'
  stamp : ∀ head ∈ headOf store.pointers key, ∀ head' ∈ headOf store'.pointers key, head.advancedAt ≤ head'.advancedAt
  replaced : ∀ head' ∈ headOf store'.pointers key, ∀ row ∈ historyOf store.pointers key,
    row.targetRun = head'.targetRun → ∃ head ∈ headOf store.pointers key, head.targetRun = head'.targetRun
  again : runId ∈ (historyOf store.pointers key).map (·.targetRun) → store'.pointers = store.pointers
  newest : ∀ head' ∈ headOf store'.pointers key, ∀ row ∈ historyOf store'.pointers key, row.advancedAt ≤ head'.advancedAt

def Timely (runs : RunStatuses) (store : EvidenceStore) (call : Registration) : Prop :=
  ∀ key ∈ runs.keyOf call.runId, ∀ head ∈ headOf store.pointers key, head.targetRun = call.runId ∨
    call.runId ∉ (historyOf store.pointers key).map (·.targetRun) ∧ ∀ cutoff ∈ runs.cutoffOf call.runId, head.advancedAt ≤ cutoff

def HeadNewest (pointers : List CurrentPointer) : Prop :=
  ∀ key, ∀ head ∈ headOf pointers key, ∀ row ∈ historyOf pointers key, row.advancedAt ≤ head.advancedAt

theorem headOf_concat (hlinked : pointerLinks.Linked (historyOf pointers key))
    (hfollows : pointerLinks.Follows (historyOf pointers key) pointer) (hkey : pointer.key = key) :
    headOf (pointers ++ [pointer]) key = some pointer := by
  have hhistory : historyOf (pointers ++ [pointer]) key = historyOf pointers key ++ [pointer] := by
    rw [historyOf_append, if_pos hkey]
  rw [headOf_eq (hhistory ▸ hlinked.concat hfollows), hhistory, List.getLast?_concat]

theorem headOf_concat_of_ne (hkey : pointer.key ≠ key) : headOf (pointers ++ [pointer]) key = headOf pointers key := by
  rw [headOf, headOf, historyOf_append, if_neg hkey, List.append_nil]

theorem keepsTime_iff (hgoverned : Governed runs store.pointers) (hnewest : HeadNewest store.pointers)
    (h : runs.register store call = .ok store') :
    ((∀ key ∈ runs.keyOf call.runId, KeepsTime runs store store' call.runId key) ↔ Timely runs store call) ∧
      (Timely runs store call → HeadNewest store'.pointers) := by
  have hgoverned' := hgoverned.register h
  obtain ⟨key, cutoff, hkey, hcutoff, ⟨head, hhead, htarget, heq⟩ | ⟨hother, pointer, nodes, rfl, hinsert⟩⟩ := register_eq_ok h
  · -- the run heads its key
    have htimely : Timely runs store call := by
      intro key' hkey' head' hhead'
      cases hkey.symm.trans hkey'
      cases hhead.symm.trans hhead'
      exact .inl htarget
    refine ⟨⟨fun _ => htimely, fun _ key' hkey' => ?_⟩, fun _ => heq ▸ hnewest⟩
    refine ⟨?_, ?_, ?_, fun _ => heq, ?_⟩ <;> rw [heq]
    · intro first hfirst second hsecond c hc c' hc'
      cases hfirst.symm.trans hsecond
      cases hc.symm.trans hc'
      exact le_rfl
    · intro first hfirst second hsecond
      cases hfirst.symm.trans hsecond
      exact le_rfl
    · exact fun first hfirst _ _ _ => ⟨first, hfirst, rfl⟩
    · exact hnewest key'
  · have hfollows := follows_of_insert (hgoverned.linked key) hinsert
    obtain ⟨-, -, heq⟩ := insertPointer_eq_ok hinsert
    set pointer : CurrentPointer := ⟨key, call.runId, ((headOf store.pointers key).map fun head => head.sequence + 1).getD 0,
      (headOf store.pointers key).map (·.targetRun), cutoff⟩ with hpointer
    have hhead' : headOf store'.pointers key = some pointer := heq ▸ headOf_concat (hgoverned.linked key) hfollows rfl
    have hchanged : store'.pointers ≠ store.pointers := by
      rw [heq]
      exact fun hsame => by simpa using congrArg List.length hsame
    have hafter : Timely runs store call → HeadNewest store'.pointers := by
      intro htimely key' head hhead row hrow
      rw [heq] at hhead hrow
      by_cases hsame : key' = key
      · subst hsame
        have hsame : pointer = head := Option.some.inj ((heq ▸ hhead').symm.trans hhead)
        rw [← hsame]
        rw [historyOf_append, if_pos rfl, List.mem_append] at hrow
        obtain hrow | hrow := hrow
        · rcases hlast : headOf store.pointers key' with _ | last
          · rw [headOf_eq (hgoverned.linked key'), List.getLast?_eq_none_iff] at hlast
            rw [hlast] at hrow
            cases hrow
          · obtain heq' | ⟨-, hle⟩ := htimely key' hkey last hlast
            · exact absurd heq' (hother last hlast)
            · exact (hnewest key' last hlast row hrow).trans (hle cutoff hcutoff)
        · rw [List.mem_singleton.mp hrow]
      · have hne : pointer.key ≠ key' := fun hpk => hsame hpk.symm
        rw [headOf_concat_of_ne hne] at hhead
        rw [historyOf_append, if_neg hne, List.append_nil] at hrow
        exact hnewest key' head hhead row hrow
    refine ⟨⟨fun hkeeps key' hkey' head hhead => ?_, fun htimely key' hkey' => ?_⟩, hafter⟩
    · cases hkey.symm.trans hkey'
      have hlaw := hkeeps key hkey
      refine .inr ⟨fun hmem => hchanged (hlaw.again hmem), fun c hc => ?_⟩
      cases hcutoff.symm.trans hc
      exact hlaw.stamp head hhead pointer hhead'
    · cases hkey.symm.trans hkey'
      have hin : ∀ head ∈ headOf store.pointers key, call.runId ∉ (historyOf store.pointers key).map (·.targetRun) ∧
          head.advancedAt ≤ cutoff := by
        intro head hhead
        obtain heq' | ⟨hnew, hle⟩ := htimely key hkey head hhead
        · exact absurd heq' (hother head hhead)
        · exact ⟨hnew, hle cutoff hcutoff⟩
      have hnew : call.runId ∉ (historyOf store.pointers key).map (·.targetRun) := by
        rcases hlast : headOf store.pointers key with _ | last
        · rw [headOf_eq (hgoverned.linked key), List.getLast?_eq_none_iff] at hlast
          rw [hlast]
          simp
        · exact (hin last hlast).1
      refine ⟨fun head hhead head' hhead'' c hc c' hc' => ?_, fun head hhead head' hhead'' => ?_,
        fun head' hhead'' row hrow hrun => ?_, fun hmem => absurd hmem hnew, hafter htimely key⟩
      · cases hhead'.symm.trans hhead''
        have hmem := (mem_historyOf.mp (List.mem_of_getLast? ((headOf_eq (hgoverned.linked key)).symm.trans hhead))).1
        cases (hgoverned.cutoffs head hmem).symm.trans hc
        cases hcutoff.symm.trans hc'
        exact (hin head hhead).2
      · cases hhead'.symm.trans hhead''
        exact (hin head hhead).2
      · cases hhead'.symm.trans hhead''
        exact absurd (List.mem_map.mpr ⟨row, hrow, hrun⟩) hnew

def LawfulStep (runs : RunStatuses) (store : EvidenceStore) (call : Registration) : Prop :=
  ∀ store', runs.register store call = .ok store' → ∀ key ∈ runs.keyOf call.runId, KeepsTime runs store store' call.runId key

theorem headNewest_nil : HeadNewest [] := fun _ _ hhead => by cases hhead

theorem lawful_run_iff {calls : List Registration} {last : EvidenceStore} (hgoverned : Governed runs store.pointers)
    (hnewest : HeadNewest store.pointers) (h : calls.foldlM runs.register store = .ok last) :
    AtEach runs.register calls store (LawfulStep runs) ↔ AtEach runs.register calls store (Timely runs) := by
  induction calls generalizing store with
  | nil => exact iff_of_true atEach_nil atEach_nil
  | cons call calls ih =>
    obtain ⟨next, hnext, hrest⟩ := foldlM_cons_eq_ok.mp h
    obtain ⟨hstep, hafter⟩ := keepsTime_iff hgoverned hnewest hnext
    have hlawful : LawfulStep runs store call ↔ Timely runs store call := by
      rw [← hstep]
      refine ⟨fun hlaw => hlaw next hnext, fun hlaw store' hstore' => ?_⟩
      cases hnext.symm.trans hstore'
      exact hlaw
    rw [atEach_cons_iff, atEach_cons_iff, hlawful]
    refine and_congr_right fun htimely => forall₂_congr fun store' hstore' => ?_
    cases hnext.symm.trans hstore'
    exact ih (hgoverned.register hnext) (hafter htimely) hrest

/-- The head keeps its law through committed registrations exactly when each of them is in time. -/
theorem head_keeps_time_iff (runs : RunStatuses) {first last : EvidenceStore} {calls : List Registration}
    (hfirst : first.pointers = []) (h : calls.foldlM runs.register first = .ok last) :
    AtEach runs.register calls first (LawfulStep runs) ↔ AtEach runs.register calls first (Timely runs) :=
  lawful_run_iff (hfirst ▸ governed_nil runs) (hfirst ▸ headNewest_nil) h

/-! ### A late tick -/

def runOfDay (day : Char) : String := "capture-run:" ++ String.ofList (List.replicate 64 day)

def sampleManifest : String := "release-manifest:" ++ String.ofList (List.replicate 64 'a')

def sampleRuns : RunStatuses where
  status runId :=
    if runId = runOfDay '1' then some ⟨"universe:topt", "v1", 1 * microsPerDay, "production"⟩
    else if runId = runOfDay '2' then some ⟨"universe:topt", "v1", 2 * microsPerDay, "production"⟩
    else if runId = runOfDay '3' then some ⟨"universe:topt", "v1", 3 * microsPerDay, "production"⟩
    else none
  localDate := utcDate

def sampleKey : CurrentPointerKey := ⟨.production, "universe:topt", "v1", pointerFactorId⟩

def sampleRegistry : EvidenceStore := ⟨['1', '2', '3'].map fun day => ⟨runOfDay day, "capture_run", ⟨1, 1, 1⟩⟩, [], []⟩

def tick (day : Char) : Registration := ⟨runOfDay day, sampleManifest⟩

/-- A late retry of the first day takes the head back. -/
theorem late_tick_takes_the_head_back :
    ¬ ∀ (runs : RunStatuses) (first last : EvidenceStore) (calls : List Registration), first.pointers = [] →
      calls.foldlM runs.register first = .ok last → AtEach runs.register calls first (LawfulStep runs) := by
  intro hall
  have hrun : (sampleRuns.register sampleRegistry (tick '2')).toOption.any fun second =>
      (sampleRuns.register second (tick '1')).toOption.any fun last =>
        (headOf second.pointers sampleKey).any fun head => (headOf last.pointers sampleKey).any fun head' =>
          head'.advancedAt < head.advancedAt := by decide +kernel
  have hkey : sampleRuns.keyOf (tick '1').runId = some sampleKey := by decide +kernel
  obtain ⟨second, hsecond, hrest⟩ := exists_ok_of_any hrun
  obtain ⟨last, hlast, hheads⟩ := exists_ok_of_any hrest
  obtain ⟨head, hhead, hheads⟩ := (Option.any_eq_true _ _).mp hheads
  obtain ⟨head', hhead', hlt⟩ := (Option.any_eq_true _ _).mp hheads
  have hlaw := hall sampleRuns sampleRegistry last [tick '2', tick '1'] rfl
    (foldlM_cons_eq_ok.mpr ⟨second, hsecond, foldlM_cons_eq_ok.mpr ⟨last, hlast, rfl⟩⟩)
  have hstep := ((hlaw.tail hsecond).head last hlast sampleKey hkey).stamp head hhead head' hhead'
  exact absurd (of_decide_eq_true hlt) (not_lt.mpr hstep)

/-- Two days in their order, the second one twice, keep the law. -/
theorem ticks_in_order_keep_time : ∃ last, [tick '1', tick '2', tick '2'].foldlM sampleRuns.register sampleRegistry = .ok last ∧
      AtEach sampleRuns.register [tick '1', tick '2', tick '2'] sampleRegistry (LawfulStep sampleRuns) := by
  have hrun : (sampleRuns.register sampleRegistry (tick '1')).toOption.any fun first =>
      (sampleRuns.register first (tick '2')).toOption.any fun second =>
        (sampleRuns.register second (tick '2')).toOption.any fun _ =>
          headOf sampleRegistry.pointers sampleKey = none ∧ ((headOf first.pointers sampleKey).all fun head =>
              runOfDay '2' ∉ (historyOf first.pointers sampleKey).map (·.targetRun) ∧ head.advancedAt ≤ 2 * microsPerDay) ∧
            (headOf second.pointers sampleKey).all fun head => head.targetRun = runOfDay '2' := by decide +kernel
  have hkeys : sampleRuns.keyOf (runOfDay '1') = some sampleKey ∧ sampleRuns.keyOf (runOfDay '2') = some sampleKey := by
    decide +kernel
  have hcutoff : sampleRuns.cutoffOf (runOfDay '2') = some (2 * microsPerDay) := by decide +kernel
  obtain ⟨first, hfirst, hrest⟩ := exists_ok_of_any hrun
  obtain ⟨second, hsecond, hrest⟩ := exists_ok_of_any hrest
  obtain ⟨last, hlast, hheads⟩ := exists_ok_of_any hrest
  obtain ⟨hnone, hnew, hsame⟩ := of_decide_eq_true hheads
  have hall : [tick '1', tick '2', tick '2'].foldlM sampleRuns.register sampleRegistry = .ok last :=
    foldlM_cons_eq_ok.mpr ⟨first, hfirst, foldlM_cons_eq_ok.mpr ⟨second, hsecond, foldlM_cons_eq_ok.mpr ⟨last, hlast, rfl⟩⟩⟩
  refine ⟨last, hall, (head_keeps_time_iff sampleRuns rfl hall).mpr ?_⟩
  refine atEach_cons_iff.mpr ⟨fun key hkey head hhead => ?_, fun first' hfirst' => ?_⟩
  · cases hkeys.1.symm.trans hkey
    cases hnone.symm.trans hhead
  · cases hfirst.symm.trans hfirst'
    refine atEach_cons_iff.mpr ⟨fun key hkey head hhead => ?_, fun second' hsecond' => ?_⟩
    · cases hkeys.2.symm.trans hkey
      obtain ⟨hnew, hle⟩ := of_decide_eq_true (Option.all_eq_true _ _ |>.mp hnew head hhead)
      refine .inr ⟨hnew, fun cutoff hc => ?_⟩
      cases hcutoff.symm.trans hc
      exact hle
    · cases hsecond.symm.trans hsecond'
      refine atEach_cons_iff.mpr ⟨fun key hkey head hhead => ?_, fun _ _ => atEach_nil⟩
      cases hkeys.2.symm.trans hkey
      exact .inl (of_decide_eq_true (Option.all_eq_true _ _ |>.mp hsame head hhead))

end TrueAlpha.Datahub
