import TrueAlpha.Lib.Combinations
import TrueAlpha.Lib.Median
import TrueAlpha.Lib.Run
import Mathlib.Data.String.Basic

/-!
# The owner's consensus rule

`gradeConsensus` decides one cell from the votes of independent origin groups.  Its numbers are any type with a value and a half
of a sum; `Arithmetic.exact` is the case of exact rationals.
-/

namespace TrueAlpha.Contracts

/-! ## Votes and grades -/

structure Arithmetic (N : Type) where
  value : N → ℚ
  half : N → N → N

def Arithmetic.exact : Arithmetic ℚ := ⟨id, fun left right => (left + right) / 2⟩

inductive VoteValue (N : Type) where
  | number (value : N)
  | text (value : String)
  deriving DecidableEq, Repr

def VoteValue.number? {N : Type} : VoteValue N → Option N
  | .number value => some value
  | .text _ => none

def VoteValue.text? {N : Type} : VoteValue N → Option String
  | .number _ => none
  | .text value => some value

structure ConsensusVote (N : Type) where
  groupId : String
  rank : ℤ
  value : VoteValue N
  deriving DecidableEq, Repr

structure ConsensusGrade (N : Type) where
  servedValue : Option (VoteValue N)
  servedGroupId : Option String
  agreeingGroupIds : List String
  outlierGroupIds : List String
  deriving DecidableEq, Repr

def pairQuorumGroups : ℕ := 2

def medianQuorumGroups : ℕ := 3

def ConsensusVote.priorityKey {N : Type} (vote : ConsensusVote N) : ℤ ×ₗ String := toLex (vote.rank, vote.groupId)

section Grade

variable {N : Type} (arithmetic : Arithmetic N)

/-- The median; the middle of no values is an error of the source (`none`). -/
def median (values : List N) : Option N :=
  let ordered := sortedBy arithmetic.value values
  let middle := ordered.length / 2
  if ordered.length % 2 = 1 then ordered[middle]?
  else
    match ordered[middle - 1]?, ordered[middle]? with
    | some lower, some upper =>
      if arithmetic.value lower = arithmetic.value upper then some upper else some (arithmetic.half lower upper)
    | _, _ => none

def consensusValue (values : List (VoteValue N)) (relativeTolerance absoluteTolerance : ℚ) : Option (VoteValue N × ℚ) :=
  let texts := values.filterMap VoteValue.text?
  let numbers := values.filterMap VoteValue.number?
  if texts.length = values.length then
    if texts.dedup.length = 1 then texts.head?.map fun text => (.text text, 0) else none
  else if numbers.length ≠ values.length then none
  else
    (median arithmetic numbers).bind fun middle =>
      let bound := absoluteTolerance + relativeTolerance * |arithmetic.value middle|
      let spread := (numbers.map fun value => |arithmetic.value value - arithmetic.value middle|).foldr max 0
      if spread ≤ bound then some (.number middle, spread) else none

def tightest (ordered : List (ConsensusVote N)) (relativeTolerance absoluteTolerance : ℚ) (size : ℕ) :
    Option (List (ConsensusVote N) × VoteValue N × ℚ) :=
  firstLeast
    (fun members => consensusValue arithmetic (members.map ConsensusVote.value) relativeTolerance absoluteTolerance)
    Prod.snd (combinations ordered size)

def gradeOf (groupIds : List String) (served : VoteValue N) (members : List (ConsensusVote N)) : ConsensusGrade N :=
  let chosen := members.map ConsensusVote.groupId
  { servedValue := some served
    servedGroupId := chosen.head?
    agreeingGroupIds := sortedSet chosen
    outlierGroupIds := sortedSet (groupIds.filter fun groupId => groupId ∉ chosen) }

def gradeConsensus (votes : List (ConsensusVote N)) (relativeTolerance absoluteTolerance : ℚ) :
    Except String (ConsensusGrade N) :=
  let groupIds := votes.map ConsensusVote.groupId
  match sortedBy ConsensusVote.priorityKey votes with
  | [] => .ok ⟨none, none, [], []⟩
  | priority :: rest =>
    if ¬ groupIds.Nodup then .error "each independent origin group votes once"
    else
      match descend (tightest arithmetic (priority :: rest) relativeTolerance absoluteTolerance) votes.length with
      | some (members, served, _) => .ok (gradeOf groupIds served members)
      | none => .ok (gradeOf groupIds priority.value [priority])

end Grade

section Order

variable {N : Type} {votes : List (ConsensusVote N)}

section

variable (h : (votes.map ConsensusVote.groupId).Nodup)

include h

theorem nodup_of_map_groupId : votes.Nodup := List.Nodup.of_map _ h

theorem priorityKey_injOn
    {a b : ConsensusVote N} (ha : a ∈ votes) (hb : b ∈ votes) (hkey : a.priorityKey = b.priorityKey) : a = b := by
  have hgroup : a.groupId = b.groupId := congrArg (fun key => (ofLex key).2) hkey
  exact List.inj_on_of_nodup_map h ha hb hgroup

theorem nodup_map_priorityKey : (votes.map ConsensusVote.priorityKey).Nodup :=
  (nodup_of_map_groupId h).map_on fun _ ha _ hb hkey => priorityKey_injOn h ha hb hkey

theorem ordered_strict : (sortedBy ConsensusVote.priorityKey votes).Pairwise fun a b => a.priorityKey < b.priorityKey :=
  strictSorted_sortedBy _ (nodup_map_priorityKey h)

end

theorem ordered_perm {votes votes' : List (ConsensusVote N)} (hp : votes'.Perm votes)
    (h : (votes.map ConsensusVote.groupId).Nodup) :
    sortedBy ConsensusVote.priorityKey votes' = sortedBy ConsensusVote.priorityKey votes := by
  have h' : (votes'.map ConsensusVote.groupId).Nodup := (hp.map _).nodup_iff.mpr h
  refine eq_of_strictSorted_key ConsensusVote.priorityKey (ordered_strict h') (ordered_strict h) fun a => ?_
  rw [mem_sortedBy, mem_sortedBy, hp.mem_iff]

theorem sublist_ordered {votes members : List (ConsensusVote N)} (h : (votes.map ConsensusVote.groupId).Nodup)
    (hnodup : members.Nodup) (hsubset : members ⊆ votes) :
    (sortedBy ConsensusVote.priorityKey members).Sublist (sortedBy ConsensusVote.priorityKey votes) := by
  classical
  have hgroups : (members.map ConsensusVote.groupId).Nodup := by
    refine hnodup.map_on fun a ha b hb hgroup => ?_
    exact List.inj_on_of_nodup_map h (hsubset ha) (hsubset hb) hgroup
  have heq : sortedBy ConsensusVote.priorityKey members = (sortedBy ConsensusVote.priorityKey votes).filter (· ∈ members) := by
    refine eq_of_strictSorted_key ConsensusVote.priorityKey (ordered_strict hgroups) ((ordered_strict h).filter _)
      fun a => ?_
    rw [mem_sortedBy, List.mem_filter, mem_sortedBy]
    simp only [decide_eq_true_eq]
    exact ⟨fun ha => ⟨hsubset ha, ha⟩, And.right⟩
  rw [heq]
  exact List.filter_sublist

theorem sortedSet_perm {l l' : List String} (h : l'.Perm l) : sortedSet l' = sortedSet l :=
  eq_of_strictSorted (strictSorted_sortedSet l') (strictSorted_sortedSet l) fun a => by
    rw [mem_sortedSet, mem_sortedSet, h.mem_iff]

end Order

/-! ## What the search finds -/

section Search

variable {N : Type} {arithmetic : Arithmetic N} {votes : List (ConsensusVote N)} {relative absolute : ℚ}

def agreement (arithmetic : Arithmetic N) (relative absolute : ℚ) (members : List (ConsensusVote N)) : Option (VoteValue N × ℚ) :=
  consensusValue arithmetic (members.map ConsensusVote.value) relative absolute

variable {ordered : List (ConsensusVote N)}

theorem tightest_eq_none_iff {size : ℕ} :
    tightest arithmetic ordered relative absolute size = none ↔ ∀ members, members.Sublist ordered → members.length = size →
        agreement arithmetic relative absolute members = none := by
  rw [tightest, firstLeast_eq_none_iff]
  refine ⟨fun h members hsub hlength => h members (mem_combinations.mpr ⟨hsub, hlength⟩), fun h members hmem => ?_⟩
  obtain ⟨hsub, hlength⟩ := mem_combinations.mp hmem
  exact h members hsub hlength

/-- A grade serves an agreeing combination that no larger, no tighter and no earlier one displaces. -/
structure Search (arithmetic : Arithmetic N) (relative absolute : ℚ) (ordered members : List (ConsensusVote N))
    (served : VoteValue N) (spread : ℚ) : Prop where
  sublist : members.Sublist ordered
  two_le : 2 ≤ members.length
  agreed : agreement arithmetic relative absolute members = some (served, spread)
  largest : ∀ other, other.Sublist ordered → members.length < other.length → agreement arithmetic relative absolute other = none
  tightest : ∀ other, other.Sublist ordered → other.length = members.length → ∀ found,
    agreement arithmetic relative absolute other = some found → spread ≤ found.2
  first : ∀ other, other.Sublist ordered → other.length = members.length → ∀ found,
    agreement arithmetic relative absolute other = some found → found.2 = spread →
      other = members ∨ List.Lex (fun a b => a.priorityKey < b.priorityKey) members other

theorem search_of_tightest
    (hordered : ordered.Pairwise fun a b => a.priorityKey < b.priorityKey) {size : ℕ} (hsize : 2 ≤ size)
    {members : List (ConsensusVote N)} {served : VoteValue N} {spread : ℚ}
    (hfound : tightest arithmetic ordered relative absolute size = some (members, served, spread))
    (hlarger : ∀ larger, size < larger → larger ≤ ordered.length → tightest arithmetic ordered relative absolute larger = none) :
    Search arithmetic relative absolute ordered members served spread := by
  obtain ⟨hmem, hagreed, hleast, hfirst⟩ := firstLeast_eq_some _ _ (pairwise_combinations hordered size) hfound
  obtain ⟨hsub, hlength⟩ := mem_combinations.mp hmem
  subst hlength
  refine ⟨hsub, hsize, hagreed, fun other hother hlt => ?_, fun other hother hlength => ?_, fun other hother hlength => ?_⟩
  · exact tightest_eq_none_iff.mp (hlarger _ hlt hother.length_le) other hother rfl
  · exact hleast other (mem_combinations.mpr ⟨hother, hlength⟩)
  · exact hfirst other (mem_combinations.mpr ⟨hother, hlength⟩)

theorem gradeConsensus_cases (arithmetic : Arithmetic N) (relative absolute : ℚ)
    (h : (votes.map ConsensusVote.groupId).Nodup) (hne : votes ≠ []) :
    (∃ members served spread,
      Search arithmetic relative absolute (sortedBy ConsensusVote.priorityKey votes) members served spread ∧
        gradeConsensus arithmetic votes relative absolute = .ok (gradeOf (votes.map ConsensusVote.groupId) served members)) ∨
      ∃ priority rest, sortedBy ConsensusVote.priorityKey votes = priority :: rest ∧
        (∀ members, members.Sublist (priority :: rest) → 2 ≤ members.length →
          agreement arithmetic relative absolute members = none) ∧
        gradeConsensus arithmetic votes relative absolute =
          .ok (gradeOf (votes.map ConsensusVote.groupId) priority.value [priority]) := by
  have hperm := perm_sortedBy ConsensusVote.priorityKey votes
  have hstrict := ordered_strict h
  unfold gradeConsensus
  rcases hordered : sortedBy ConsensusVote.priorityKey votes with _ | ⟨priority, rest⟩
  · rw [hordered] at hperm
    exact absurd hperm.nil_eq.symm hne
  · rw [hordered] at hperm hstrict
    simp only [h, not_true, if_false]
    rcases descend_spec (tightest arithmetic (priority :: rest) relative absolute) votes.length with
      ⟨hnone, hall⟩ | ⟨size, ⟨members, served, spread⟩, hsize, hle, hsome, hfound, hlarger⟩
    · refine .inr ⟨priority, rest, rfl, fun members hsub hlength => ?_, by rw [hnone]⟩
      exact tightest_eq_none_iff.mp (hall _ hlength (hperm.length_eq ▸ hsub.length_le)) members hsub rfl
    · refine .inl ⟨members, served, spread, search_of_tightest hstrict hsize hfound ?_, by rw [hsome]⟩
      intro larger hlt hle'
      exact hlarger larger hlt (hperm.length_eq ▸ hle')

theorem gradeConsensus_perm {votes' : List (ConsensusVote N)} (hp : votes'.Perm votes)
    (h : (votes.map ConsensusVote.groupId).Nodup) :
    gradeConsensus arithmetic votes' relative absolute = gradeConsensus arithmetic votes relative absolute := by
  have h' : (votes'.map ConsensusVote.groupId).Nodup := (hp.map _).nodup_iff.mpr h
  have hgrade : ∀ served (members : List (ConsensusVote N)), gradeOf (votes'.map ConsensusVote.groupId) served members =
        gradeOf (votes.map ConsensusVote.groupId) served members := by
    intro served members
    simp only [gradeOf]
    rw [sortedSet_perm ((hp.map ConsensusVote.groupId).filter _)]
  simp only [gradeConsensus, ordered_perm hp h, hp.length_eq, h, h', hgrade]

structure GradeParts (votes : List (ConsensusVote N)) (grade : ConsensusGrade N) (served : VoteValue N)
    (servedGroupId : String) : Prop where
  servedValue : grade.servedValue = some served
  servedGroup : grade.servedGroupId = some servedGroupId
  served_agrees : servedGroupId ∈ grade.agreeingGroupIds
  agreeing_nodup : grade.agreeingGroupIds.Nodup
  outliers_nodup : grade.outlierGroupIds.Nodup
  disjoint : ∀ groupId ∈ grade.agreeingGroupIds, groupId ∉ grade.outlierGroupIds
  cover : ∀ groupId, groupId ∈ votes.map ConsensusVote.groupId ↔
    groupId ∈ grade.agreeingGroupIds ∨ groupId ∈ grade.outlierGroupIds
  text_voted : ∀ text, served = .text text → ∃ vote ∈ votes, vote.value = .text text

theorem nodup_sortedSet (l : List String) : (sortedSet l).Nodup := (strictSorted_sortedSet l).imp fun h => ne_of_lt h

theorem gradeParts_gradeOf {served : VoteValue N} {preferred : ConsensusVote N} {rest : List (ConsensusVote N)}
    (hsubset : preferred :: rest ⊆ votes)
    (htext : ∀ text, served = .text text → ∃ vote ∈ votes, vote.value = .text text) :
    GradeParts votes (gradeOf (votes.map ConsensusVote.groupId) served (preferred :: rest)) served
      preferred.groupId := by
  refine ⟨rfl, rfl, ?_, nodup_sortedSet _, nodup_sortedSet _, fun groupId hin hout => ?_, fun groupId => ?_, htext⟩
  · exact mem_sortedSet.mpr List.mem_cons_self
  · have hnot := (List.mem_filter.mp (mem_sortedSet.mp hout)).2
    rw [decide_eq_true_eq] at hnot
    exact hnot (mem_sortedSet.mp hin)
  · simp only [gradeOf, mem_sortedSet, List.mem_filter, decide_eq_true_eq]
    refine ⟨fun hgroup => ?_, ?_⟩
    · by_cases hin : groupId ∈ (preferred :: rest).map ConsensusVote.groupId
      · exact .inl hin
      · exact .inr ⟨hgroup, hin⟩
    · rintro (hin | ⟨hgroup, -⟩)
      · exact List.map_subset _ hsubset hin
      · exact hgroup

theorem text_of_consensusValue {values : List (VoteValue N)} {text : String} {spread : ℚ}
    (h : consensusValue arithmetic values relative absolute = some (.text text, spread)) : .text text ∈ values := by
  unfold consensusValue at h
  simp only at h
  split_ifs at h with htexts hone hnumbers
  · obtain ⟨found, hfound, heq⟩ := Option.map_eq_some_iff.mp h
    cases heq
    obtain ⟨value, hvalue, htext⟩ := List.mem_filterMap.mp (List.mem_of_mem_head? hfound)
    cases value with
    | number value => cases htext
    | text value =>
      cases htext
      exact hvalue
  · obtain ⟨middle, -, h⟩ := Option.bind_eq_some_iff.mp h
    split_ifs at h
    cases h

theorem gradeConsensus_parts (arithmetic : Arithmetic N) (relative absolute : ℚ)
    (h : (votes.map ConsensusVote.groupId).Nodup) (hne : votes ≠ []) :
    ∃ grade served servedGroupId, gradeConsensus arithmetic votes relative absolute = .ok grade ∧
      GradeParts votes grade served servedGroupId := by
  have hmem : ∀ {vote}, vote ∈ sortedBy ConsensusVote.priorityKey votes → vote ∈ votes := (mem_sortedBy _).mp
  rcases gradeConsensus_cases arithmetic relative absolute h hne with
    ⟨members, served, spread, hsearch, hgrade⟩ | ⟨priority, rest, hordered, -, hgrade⟩
  · have htwo := hsearch.two_le
    match members, hsearch with
    | preferred :: rest, hsearch =>
      refine ⟨_, served, preferred.groupId, hgrade, gradeParts_gradeOf (fun vote hvote => ?_) ?_⟩
      · exact hmem (hsearch.sublist.subset hvote)
      · rintro text rfl
        obtain ⟨vote, hvote, hvalue⟩ := List.mem_map.mp (text_of_consensusValue hsearch.agreed)
        exact ⟨vote, hmem (hsearch.sublist.subset hvote), hvalue⟩
  · have hpriority : priority ∈ votes := hmem (hordered ▸ List.mem_cons_self)
    refine ⟨_, priority.value, priority.groupId, hgrade, gradeParts_gradeOf (fun vote hvote => ?_) ?_⟩
    · rw [List.mem_singleton.mp hvote]
      exact hpriority
    · exact fun text htext => ⟨priority, hpriority, htext⟩

end Search

end TrueAlpha.Contracts
