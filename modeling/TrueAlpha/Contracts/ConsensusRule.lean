import TrueAlpha.Contracts.Consensus

/-!
# The consensus rule over exact rationals

Votes agree when all are one text, or all are within the tolerance of their median.  The grade serves the largest agreeing set,
the tightest of these and then the first in the order of preference, or else the preferred vote alone.
-/

namespace TrueAlpha.Contracts

def numbersOf (members : List (ConsensusVote ℚ)) : List ℚ := members.filterMap fun vote => vote.value.number?

def Agree (relative absolute : ℚ) (members : List (ConsensusVote ℚ)) : Prop :=
  (∃ text, ∀ vote ∈ members, vote.value = .text text) ∨
    (∀ vote ∈ members, ∃ x, vote.value = .number x) ∧ Cluster relative absolute (numbersOf members)

def spread (members : List (ConsensusVote ℚ)) : ℚ := spreadOf (numbersOf members)

def Serves (relative absolute : ℚ) (members : List (ConsensusVote ℚ)) (served : VoteValue ℚ) : Prop :=
  (∃ text, served = .text text ∧ ∀ vote ∈ members, vote.value = .text text) ∨
    served = .number (medianOf (numbersOf members)) ∧ ∀ vote ∈ members, ∃ x, vote.value = .number x ∧
      |x - medianOf (numbersOf members)| ≤ absolute + relative * |medianOf (numbersOf members)|

variable {relative' absolute' : ℚ}

section Agreement

variable {relative absolute : ℚ} {members members' : List (ConsensusVote ℚ)}

theorem numbersOf_perm (hp : members.Perm members') : (numbersOf members).Perm (numbersOf members') := hp.filterMap _

theorem spread_perm (hp : members.Perm members') : spread members = spread members' := spreadOf_perm (numbersOf_perm hp)

theorem Agree.perm (h : Agree relative absolute members) (hp : members.Perm members') : Agree relative absolute members' := by
  rcases h with ⟨text, htext⟩ | ⟨hnumbers, hcluster⟩
  · exact .inl ⟨text, fun vote hvote => htext vote (hp.mem_iff.mpr hvote)⟩
  · exact .inr ⟨fun vote hvote => hnumbers vote (hp.mem_iff.mpr hvote), hcluster.perm (numbersOf_perm hp)⟩

theorem Agree.mono (h : Agree relative absolute members) (hrelative : relative ≤ relative')
    (habsolute : absolute ≤ absolute') : Agree relative' absolute' members := by
  rcases h with htext | ⟨hnumbers, hcluster⟩
  · exact .inl htext
  · exact .inr ⟨hnumbers, hcluster.mono hrelative habsolute⟩

theorem numbersOf_eq_map {value : ConsensusVote ℚ → ℚ} (h : ∀ vote ∈ members, vote.value = .number (value vote)) :
    numbersOf members = members.map value := by
  induction members with
  | nil => rfl
  | cons vote members ih =>
    rw [List.forall_mem_cons] at h
    rw [numbersOf, List.filterMap_cons, h.1]
    exact congrArg _ (ih h.2)

def numberOf (vote : ConsensusVote ℚ) : ℚ := vote.value.number?.getD 0

theorem value_eq_number {vote : ConsensusVote ℚ} (h : ∃ x, vote.value = .number x) : vote.value = .number (numberOf vote) := by
  obtain ⟨x, hx⟩ := h
  rw [numberOf, hx]
  rfl

theorem Agree.exists_pair (hrelative : 0 ≤ relative) (hnodup : members.Nodup) (hlength : 2 ≤ members.length)
    (h : Agree relative absolute members) :
    ∃ a ∈ members, ∃ b ∈ members, a ≠ b ∧ Agree relative absolute [a, b] := by
  rcases h with ⟨text, htext⟩ | ⟨hnumbers, hcluster⟩
  · match members, hnodup, hlength with
    | a :: b :: rest, hnodup, _ =>
      rw [List.nodup_cons] at hnodup
      refine ⟨a, by simp, b, by simp, fun heq => hnodup.1 (by simp [heq]), .inl ⟨text, ?_⟩⟩
      intro vote hvote
      exact htext vote (by simp only [List.mem_cons, List.not_mem_nil, or_false] at hvote ⊢; tauto)
  · have hvalue : ∀ vote ∈ members, vote.value = .number (numberOf vote) :=
      fun vote hvote => value_eq_number (hnumbers vote hvote)
    rw [numbersOf_eq_map hvalue] at hcluster
    obtain ⟨i, hi, hpair⟩ := exists_pair_cluster hrelative (by rwa [List.length_map]) hcluster
    rw [List.length_map] at hi
    -- the votes in the order of their numbers
    set sorted := sortedBy numberOf members with hsorted
    have hperm : sorted.Perm members := perm_sortedBy numberOf members
    have hsortedAt : ∀ j (hj : j < sorted.length), sortedAt (members.map numberOf) j = numberOf (sorted.get ⟨j, hj⟩) := by
      intro j hj
      rw [sortedAt, sortedBy_map numberOf id numberOf (fun _ => rfl), ← hsorted,
        List.getD_eq_getElem _ _ (by rwa [List.length_map]), List.getElem_map]
      rfl
    have hlt : i + 1 < sorted.length := by rwa [hperm.length_eq]
    have hmem : ∀ j (hj : j < sorted.length), sorted.get ⟨j, hj⟩ ∈ members := fun j hj => hperm.mem_iff.mp (List.get_mem _ _)
    refine ⟨sorted.get ⟨i, by omega⟩, hmem _ _, sorted.get ⟨i + 1, hlt⟩, hmem _ _, fun heq => ?_, .inr ⟨?_, ?_⟩⟩
    · have hindex := (List.nodup_iff_injective_get.mp (hperm.nodup_iff.mpr hnodup)) heq
      rw [Fin.mk.injEq] at hindex
      omega
    · intro vote hvote
      simp only [List.mem_cons, List.not_mem_nil, or_false] at hvote
      rcases hvote with rfl | rfl
      · exact hnumbers _ (hmem _ _)
      · exact hnumbers _ (hmem _ _)
    · have hpairValue : ∀ vote ∈ [sorted.get ⟨i, by omega⟩, sorted.get ⟨i + 1, hlt⟩],
          vote.value = .number (numberOf vote) := by
        intro vote hvote
        simp only [List.mem_cons, List.not_mem_nil, or_false] at hvote
        rcases hvote with rfl | rfl
        · exact hvalue _ (hmem _ _)
        · exact hvalue _ (hmem _ _)
      rw [numbersOf_eq_map hpairValue]
      rwa [hsortedAt i (by omega), hsortedAt (i + 1) hlt] at hpair

end Agreement

section Exact

variable {relative absolute : ℚ} {members : List (ConsensusVote ℚ)}

theorem Arithmetic.exact_value : Arithmetic.exact.value = id := rfl

theorem Arithmetic.exact_half (left right : ℚ) : Arithmetic.exact.half left right = (left + right) / 2 := rfl

theorem sortedBy_getElem? {values : List ℚ} {i : ℕ} (h : i < values.length) :
    (sortedBy id values)[i]? = some (sortedAt values i) := by
  have hlt : i < (sortedBy id values).length := by rwa [(perm_sortedBy id values).length_eq]
  rw [List.getElem?_eq_getElem hlt, sortedAt, List.getD_eq_getElem _ _ hlt]

theorem median_exact {values : List ℚ} (hne : values ≠ []) : median Arithmetic.exact values = some (medianOf values) := by
  have hpos : 0 < values.length := List.length_pos_iff.mpr hne
  have hlength : (sortedBy Arithmetic.exact.value values).length = values.length := (perm_sortedBy id values).length_eq
  have hmiddle := sortedBy_getElem? (show values.length / 2 < values.length by omega)
  simp only [median, hlength]
  by_cases hodd : values.length % 2 = 1
  · rw [if_pos hodd]
    refine hmiddle.trans (congrArg some ?_)
    rw [medianOf, show (values.length - 1) / 2 = values.length / 2 by omega]
    ring
  · rw [if_neg hodd]
    have hlower := sortedBy_getElem? (show values.length / 2 - 1 < values.length by omega)
    have hvalue : medianOf values = (sortedAt values (values.length / 2 - 1) + sortedAt values (values.length / 2)) / 2 := by
      rw [medianOf, show (values.length - 1) / 2 = values.length / 2 - 1 by omega]
    simp only [Arithmetic.exact_value, Arithmetic.exact_half, hlower, hmiddle, hvalue, id]
    by_cases hsame : sortedAt values (values.length / 2 - 1) = sortedAt values (values.length / 2)
    · exact (if_pos hsame).trans (by rw [hsame, add_self_div_two])
    · exact if_neg hsame

theorem length_filterMap_eq_iff {α β : Type} {f : α → Option β} {l : List α} :
    (l.filterMap f).length = l.length ↔ ∀ a ∈ l, ∃ b, f a = some b := by
  rw [List.length_filterMap_eq_countP, List.countP_eq_length]
  simp only [Option.isSome_iff_exists]

theorem texts_eq_map {l : List (VoteValue ℚ)} (text : String) (h : ∀ value ∈ l, value = .text text) :
    l.filterMap VoteValue.text? = List.replicate l.length text := by
  induction l with
  | nil => rfl
  | cons value l ih =>
    rw [List.forall_mem_cons] at h
    rw [List.filterMap_cons, h.1, List.length_cons, List.replicate_succ, ← ih h.2]
    rfl

theorem agreement_exact (hrelative : 0 ≤ relative) (habsolute : 0 ≤ absolute) (hne : members ≠ []) :
    (¬ Agree relative absolute members ∧ agreement Arithmetic.exact relative absolute members = none) ∨
      Agree relative absolute members ∧ ∃ served, Serves relative absolute members served ∧
        agreement Arithmetic.exact relative absolute members = some (served, spread members) := by
  have hpos : 0 < members.length := List.length_pos_iff.mpr hne
  have htextIff : ((members.map ConsensusVote.value).filterMap VoteValue.text?).length =
      (members.map ConsensusVote.value).length ↔ ∀ vote ∈ members, ∃ text, vote.value = .text text := by
    rw [length_filterMap_eq_iff, List.forall_mem_map]
    refine forall₂_congr fun vote _ => ?_
    rcases vote.value with x | text <;> simp [VoteValue.text?]
  have hnumberIff : ((members.map ConsensusVote.value).filterMap VoteValue.number?).length =
      (members.map ConsensusVote.value).length ↔ ∀ vote ∈ members, ∃ x, vote.value = .number x := by
    rw [length_filterMap_eq_iff, List.forall_mem_map]
    refine forall₂_congr fun vote _ => ?_
    rcases vote.value with x | text <;> simp [VoteValue.number?]
  have hnumbers : (members.map ConsensusVote.value).filterMap VoteValue.number? = numbersOf members := by
    rw [List.filterMap_map]
    rfl
  have hnotBoth : ∀ {x : ℚ} {text : String}, (VoteValue.number x : VoteValue ℚ) ≠ .text text := fun h => by cases h
  obtain ⟨first, hfirst⟩ := List.exists_mem_of_ne_nil members hne
  rw [agreement, consensusValue]
  by_cases htexts : ∀ vote ∈ members, ∃ text, vote.value = .text text
  · simp only [htextIff.mpr htexts, if_true]
    by_cases hone : ((members.map ConsensusVote.value).filterMap VoteValue.text?).dedup.length = 1
    · obtain ⟨text, htext⟩ := List.length_eq_one_iff.mp hone
      have hall : ∀ vote ∈ members, vote.value = .text text := by
        intro vote hvote
        obtain ⟨own, hown⟩ := htexts vote hvote
        have hmem : own ∈ ((members.map ConsensusVote.value).filterMap VoteValue.text?).dedup :=
          List.mem_dedup.mpr (List.mem_filterMap.mpr ⟨vote.value, List.mem_map_of_mem hvote, by rw [hown]; rfl⟩)
        rw [htext, List.mem_singleton] at hmem
        rw [hown, hmem]
      have hspread : spread members = 0 := by
        have hnil : numbersOf members = [] :=
          List.filterMap_eq_nil_iff.mpr fun vote hvote => by rw [hall vote hvote]; rfl
        rw [spread, hnil]
        rfl
      refine .inr ⟨.inl ⟨text, hall⟩, .text text, .inl ⟨text, rfl, hall⟩, ?_⟩
      rw [if_pos hone, texts_eq_map text (List.forall_mem_map.mpr hall), List.length_map, hspread,
        List.head?_replicate, if_neg (Nat.ne_of_gt hpos)]
      rfl
    · refine .inl ⟨?_, by rw [if_neg hone]⟩
      rintro (⟨text, htext⟩ | ⟨hall, -⟩)
      · apply hone
        rw [texts_eq_map text (List.forall_mem_map.mpr htext), List.length_map,
          List.replicate_dedup (Nat.ne_of_gt hpos), List.length_singleton]
      · obtain ⟨x, hx⟩ := hall first hfirst
        obtain ⟨text, htext⟩ := htexts first hfirst
        exact hnotBoth (hx.symm.trans htext)
  · have hnoText : ¬ ∃ text, ∀ vote ∈ members, vote.value = .text text :=
      fun ⟨text, htext⟩ => htexts fun vote hvote => ⟨text, htext vote hvote⟩
    simp only [mt htextIff.mp htexts, if_false]
    by_cases hall : ∀ vote ∈ members, ∃ x, vote.value = .number x
    · have hnumbersNe : numbersOf members ≠ [] := by
        rw [numbersOf_eq_map fun vote hvote => value_eq_number (hall vote hvote)]
        simpa using hne
      simp only [ne_eq, hnumberIff.mpr hall, not_true, if_false]
      rw [hnumbers, median_exact hnumbersNe, Option.bind_some]
      have hiff := cluster_iff_spreadOf_le hrelative habsolute (numbersOf members)
      by_cases hcluster : Cluster relative absolute (numbersOf members)
      · refine .inr ⟨.inr ⟨hall, hcluster⟩, .number (medianOf (numbersOf members)), .inr ⟨rfl, ?_⟩, ?_⟩
        · intro vote hvote
          have hvalue := value_eq_number (hall vote hvote)
          refine ⟨numberOf vote, hvalue, hcluster _ ?_⟩
          exact List.mem_filterMap.mpr ⟨vote, hvote, by rw [hvalue]; rfl⟩
        · exact if_pos (hiff.mp hcluster)
      · refine .inl ⟨?_, if_neg (mt hiff.mpr hcluster)⟩
        rintro (htext | ⟨-, h⟩)
        · exact hnoText htext
        · exact hcluster h
    · refine .inl ⟨?_, ?_⟩
      · rintro (htext | ⟨h, -⟩)
        · exact hnoText htext
        · exact hall h
      · simp only [ne_eq, mt hnumberIff.mp hall, not_false_eq_true, if_true]

end Exact

/-! ## The rule -/

structure VoteSet (votes members : List (ConsensusVote ℚ)) : Prop where
  nodup : members.Nodup
  subset : members ⊆ votes

structure Best (relative absolute : ℚ) (votes chosen : List (ConsensusVote ℚ)) : Prop where
  isSet : VoteSet votes chosen
  agree : Agree relative absolute chosen
  largest : ∀ members, VoteSet votes members → Agree relative absolute members → members.length ≤ chosen.length
  tightest : ∀ members, VoteSet votes members → Agree relative absolute members →
    members.length = chosen.length → spread chosen ≤ spread members
  first : ∀ members, VoteSet votes members → Agree relative absolute members →
    members.length = chosen.length → spread members = spread chosen →
      members.Perm chosen ∨ List.Lex (fun a b => a.priorityKey < b.priorityKey)
        (sortedBy ConsensusVote.priorityKey chosen) (sortedBy ConsensusVote.priorityKey members)

structure GradedFrom (votes chosen : List (ConsensusVote ℚ)) (served : VoteValue ℚ) (grade : ConsensusGrade ℚ) :
    Prop where
  servedValue : grade.servedValue = some served
  servedGroup : ∃ preferred ∈ chosen, (∀ vote ∈ chosen, preferred.priorityKey ≤ vote.priorityKey) ∧
    grade.servedGroupId = some preferred.groupId
  agreeing : grade.agreeingGroupIds = sortedSet (chosen.map ConsensusVote.groupId)
  outliers : grade.outlierGroupIds = sortedSet ((votes.filter fun vote => vote ∉ chosen).map ConsensusVote.groupId)

variable {grade : ConsensusGrade ℚ} {served : VoteValue ℚ}

section Rule

variable {relative absolute : ℚ} {votes : List (ConsensusVote ℚ)} {members : List (ConsensusVote ℚ)}

section

variable (h : (votes.map ConsensusVote.groupId).Nodup)

include h

theorem VoteSet.sublist (hset : VoteSet votes members) :
    (sortedBy ConsensusVote.priorityKey members).Sublist (sortedBy ConsensusVote.priorityKey votes) :=
  sublist_ordered h hset.nodup hset.subset

theorem voteSet_of_sublist
    (hsub : members.Sublist (sortedBy ConsensusVote.priorityKey votes)) : VoteSet votes members := by
  have hperm := perm_sortedBy ConsensusVote.priorityKey votes
  refine ⟨hsub.nodup (hperm.nodup_iff.mpr (nodup_of_map_groupId h)), fun vote hvote => ?_⟩
  exact hperm.mem_iff.mp (hsub.subset hvote)

theorem sortedBy_of_sublist
    (hsub : members.Sublist (sortedBy ConsensusVote.priorityKey votes)) :
    sortedBy ConsensusVote.priorityKey members = members := by
  have hstrict := (ordered_strict h).sublist hsub
  have hgroups : (members.map ConsensusVote.groupId).Nodup :=
    (((perm_sortedBy ConsensusVote.priorityKey votes).map _).nodup_iff.mpr h).sublist (hsub.map _)
  exact eq_of_strictSorted_key ConsensusVote.priorityKey (ordered_strict hgroups) hstrict fun a => by
    rw [mem_sortedBy]

end

theorem agreement_of_agree (hrelative : 0 ≤ relative) (habsolute : 0 ≤ absolute) (hne : members ≠ [])
    (hagree : Agree relative absolute members) :
    ∃ served, agreement Arithmetic.exact relative absolute (sortedBy ConsensusVote.priorityKey members) =
      some (served, spread members) := by
  have hperm := perm_sortedBy ConsensusVote.priorityKey members
  have hsorted : sortedBy ConsensusVote.priorityKey members ≠ [] := fun h => hne (by simpa [h] using hperm)
  rcases agreement_exact hrelative habsolute hsorted with ⟨hnot, -⟩ | ⟨-, served, -, hvalue⟩
  · exact absurd (hagree.perm hperm.symm) hnot
  · exact ⟨served, by rw [hvalue, spread_perm hperm]⟩

theorem best_of_search (h : (votes.map ConsensusVote.groupId).Nodup) (hrelative : 0 ≤ relative)
    (habsolute : 0 ≤ absolute) {width : ℚ}
    (hsearch : Search Arithmetic.exact relative absolute (sortedBy ConsensusVote.priorityKey votes) members served
      width) : Best relative absolute votes members ∧ Serves relative absolute members served := by
  have htwo := hsearch.two_le
  have hne : members ≠ [] := List.length_pos_iff.mp (by omega)
  rcases agreement_exact hrelative habsolute hne with ⟨-, hnone⟩ | ⟨hagree, value, hserves, hvalue⟩
  · rw [hsearch.agreed] at hnone
    cases hnone
  · rw [hsearch.agreed] at hvalue
    cases hvalue
    have hlength : ∀ other : List (ConsensusVote ℚ), (sortedBy ConsensusVote.priorityKey other).length = other.length :=
      fun other => (perm_sortedBy _ other).length_eq
    refine ⟨⟨voteSet_of_sublist h hsearch.sublist, hagree, fun other hset hother => ?_,
      fun other hset hother hsize => ?_, fun other hset hother hsize hsame => ?_⟩, hserves⟩
    · by_contra hlarger
      have hotherNe : other ≠ [] := List.length_pos_iff.mp (by omega)
      obtain ⟨found, hfound⟩ := agreement_of_agree hrelative habsolute hotherNe hother
      rw [hsearch.largest _ (hset.sublist h) (by rw [hlength]; omega)] at hfound
      cases hfound
    · have hotherNe : other ≠ [] := List.length_pos_iff.mp (by omega)
      obtain ⟨found, hfound⟩ := agreement_of_agree hrelative habsolute hotherNe hother
      exact hsearch.tightest _ (hset.sublist h) (by rw [hlength, hsize]) _ hfound
    · have hotherNe : other ≠ [] := List.length_pos_iff.mp (by omega)
      obtain ⟨found, hfound⟩ := agreement_of_agree hrelative habsolute hotherNe hother
      rcases hsearch.first _ (hset.sublist h) (by rw [hlength, hsize]) _ hfound hsame with heq | hlex
      · refine .inl ?_
        rw [← heq]
        exact (perm_sortedBy _ other).symm
      · refine .inr ?_
        rwa [sortedBy_of_sublist h hsearch.sublist]

theorem gradedFrom_gradeOf (h : (votes.map ConsensusVote.groupId).Nodup)
    (hsub : members.Sublist (sortedBy ConsensusVote.priorityKey votes)) (hne : members ≠ []) (served : VoteValue ℚ) :
    GradedFrom votes members served (gradeOf (votes.map ConsensusVote.groupId) served members) := by
  have hset := voteSet_of_sublist h hsub
  refine ⟨rfl, ?_, rfl, ?_⟩
  · cases members with
    | nil => exact absurd rfl hne
    | cons preferred rest =>
      refine ⟨preferred, List.mem_cons_self, fun vote hvote => ?_, rfl⟩
      rcases List.mem_cons.mp hvote with rfl | hvote
      · exact le_rfl
      · exact ((List.pairwise_cons.mp ((ordered_strict h).sublist hsub)).1 vote hvote).le
  · rw [gradeOf]
    refine eq_of_strictSorted (strictSorted_sortedSet _) (strictSorted_sortedSet _) fun groupId => ?_
    rw [mem_sortedSet, mem_sortedSet]
    simp only [decide_eq_true_eq, List.mem_map, List.mem_filter]
    refine ⟨?_, ?_⟩
    · rintro ⟨⟨vote, hvote, rfl⟩, hout⟩
      exact ⟨vote, ⟨hvote, fun hmem => hout ⟨vote, hmem, rfl⟩⟩, rfl⟩
    · rintro ⟨vote, ⟨hvote, hout⟩, rfl⟩
      refine ⟨⟨vote, hvote, rfl⟩, ?_⟩
      rintro ⟨other, hother, hgroup⟩
      rw [List.inj_on_of_nodup_map h (hset.subset hother) hvote hgroup] at hother
      exact hout hother

theorem length_sortedSet {l : List String} (h : l.Nodup) : (sortedSet l).length = l.length := by
  rw [sortedSet, (perm_sortedBy id _).length_eq, h.dedup]

def SomeTwoAgree (relative absolute : ℚ) (votes : List (ConsensusVote ℚ)) : Prop :=
  ∃ a ∈ votes, ∃ b ∈ votes, a ≠ b ∧ Agree relative absolute [a, b]

theorem gradeConsensus_choice (h : (votes.map ConsensusVote.groupId).Nodup) (hrelative : 0 ≤ relative)
    (habsolute : 0 ≤ absolute) (hne : votes ≠ []) :
    ∃ chosen served grade, gradeConsensus Arithmetic.exact votes relative absolute = .ok grade ∧
      GradedFrom votes chosen served grade ∧ VoteSet votes chosen ∧
      (SomeTwoAgree relative absolute votes ∧ 2 ≤ chosen.length ∧ Best relative absolute votes chosen ∧
          Serves relative absolute chosen served ∨
        ¬ SomeTwoAgree relative absolute votes ∧ ∃ preferred ∈ votes,
          (∀ vote ∈ votes, preferred.priorityKey ≤ vote.priorityKey) ∧ chosen = [preferred] ∧ served = preferred.value) := by
  rcases gradeConsensus_cases Arithmetic.exact relative absolute h hne with
    ⟨members, served, width, hsearch, hgrade⟩ | ⟨preferred, rest, hordered, hnone, hgrade⟩
  · have htwo := hsearch.two_le
    obtain ⟨hbest, hserves⟩ := best_of_search h hrelative habsolute hsearch
    obtain ⟨a, ha, b, hb, hab, hpair⟩ := hbest.agree.exists_pair hrelative hbest.isSet.nodup htwo
    have hgraded := gradedFrom_gradeOf h hsearch.sublist (List.length_pos_iff.mp (by omega)) served
    exact ⟨members, served, _, hgrade, hgraded, hbest.isSet, .inl ⟨⟨a, hbest.isSet.subset ha, b,
      hbest.isSet.subset hb, hab, hpair⟩, htwo, hbest, hserves⟩⟩
  · have hsub : [preferred].Sublist (sortedBy ConsensusVote.priorityKey votes) := by
      rw [hordered]
      exact List.singleton_sublist.mpr List.mem_cons_self
    have hstrict := ordered_strict h
    rw [hordered, List.pairwise_cons] at hstrict
    have hmem : ∀ vote, vote ∈ votes ↔ vote ∈ preferred :: rest := by
      intro vote
      rw [← hordered, mem_sortedBy]
    refine ⟨[preferred], preferred.value, _, hgrade, gradedFrom_gradeOf h hsub (by simp) preferred.value,
      voteSet_of_sublist h hsub, .inr ⟨?_, preferred, (hmem preferred).mpr List.mem_cons_self, ?_, rfl, rfl⟩⟩
    · rintro ⟨a, ha, b, hb, hab, hpair⟩
      have hset : VoteSet votes [a, b] := by
        refine ⟨by simp [hab], fun vote hvote => ?_⟩
        simp only [List.mem_cons, List.not_mem_nil, or_false] at hvote
        rcases hvote with rfl | rfl <;> assumption
      obtain ⟨value, hvalue⟩ := agreement_of_agree hrelative habsolute (by simp) hpair
      rw [hnone _ (hordered ▸ hset.sublist h) (by rw [(perm_sortedBy _ [a, b]).length_eq]; simp)] at hvalue
      cases hvalue
    · intro vote hvote
      rcases List.mem_cons.mp ((hmem vote).mp hvote) with rfl | hvote
      · exact le_rfl
      · exact (hstrict.1 vote hvote).le

theorem length_agreeing {chosen : List (ConsensusVote ℚ)}
    (h : (votes.map ConsensusVote.groupId).Nodup) (hset : VoteSet votes chosen)
    (hgraded : GradedFrom votes chosen served grade) : grade.agreeingGroupIds.length = chosen.length := by
  have hgroups : (chosen.map ConsensusVote.groupId).Nodup := by
    refine hset.nodup.map_on fun a ha b hb hgroup => ?_
    exact List.inj_on_of_nodup_map h (hset.subset ha) (hset.subset hb) hgroup
  rw [hgraded.agreeing, length_sortedSet hgroups, List.length_map]

theorem SomeTwoAgree.mono (h : SomeTwoAgree relative absolute votes)
    (hrelative : relative ≤ relative') (habsolute : absolute ≤ absolute') :
    SomeTwoAgree relative' absolute' votes := by
  obtain ⟨a, ha, b, hb, hab, hpair⟩ := h
  exact ⟨a, ha, b, hb, hab, hpair.mono hrelative habsolute⟩

theorem length_agreeing_mono (h : (votes.map ConsensusVote.groupId).Nodup)
    (hrelative : 0 ≤ relative) (habsolute : 0 ≤ absolute) (hrelative' : relative ≤ relative')
    (habsolute' : absolute ≤ absolute')
    (hgrade : gradeConsensus Arithmetic.exact votes relative absolute = .ok grade) :
    ∃ grade', gradeConsensus Arithmetic.exact votes relative' absolute' = .ok grade' ∧
      grade.agreeingGroupIds.length ≤ grade'.agreeingGroupIds.length := by
  by_cases hne : votes = []
  · subst hne
    exact ⟨grade, hgrade, le_rfl⟩
  · obtain ⟨chosen, served, first, hfirst, hgraded, hset, hchoice⟩ := gradeConsensus_choice h hrelative habsolute hne
    obtain ⟨chosen', served', grade', hgrade', hgraded', hset', hchoice'⟩ :=
      gradeConsensus_choice h (hrelative.trans hrelative') (habsolute.trans habsolute') hne
    rw [hfirst] at hgrade
    cases hgrade
    refine ⟨grade', hgrade', ?_⟩
    rw [length_agreeing h hset hgraded, length_agreeing h hset' hgraded']
    rcases hchoice with ⟨htwo, -, hbest, -⟩ | ⟨-, preferred, -, -, rfl, -⟩
    · rcases hchoice' with ⟨-, -, hbest', -⟩ | ⟨hnone, -⟩
      · exact hbest'.largest chosen hset (hbest.agree.mono hrelative' habsolute')
      · exact absurd (htwo.mono hrelative' habsolute') hnone
    · rcases hchoice' with ⟨-, htwo', -⟩ | ⟨-, preferred', -, -, rfl, -⟩
      · rw [List.length_singleton]
        omega
      · exact le_rfl

end Rule

/-- The served set is the largest agreeing one, then the tightest, then the first in the order of preference; its median or text
is served, and other groups are outliers.  Where no two agree the preferred vote is served.  The order of the votes does not
matter, and looser tolerances never shrink the set. -/
theorem grade_consensus_rule (votes : List (ConsensusVote ℚ)) (relative absolute : ℚ)
    (hdistinct : (votes.map ConsensusVote.groupId).Nodup) (hrelative : 0 ≤ relative) (habsolute : 0 ≤ absolute) :
    ∃ grade, gradeConsensus Arithmetic.exact votes relative absolute = .ok grade ∧
      (SomeTwoAgree relative absolute votes → ∃ chosen served, Best relative absolute votes chosen ∧
        2 ≤ chosen.length ∧ Serves relative absolute chosen served ∧ GradedFrom votes chosen served grade) ∧
      (¬ SomeTwoAgree relative absolute votes → votes ≠ [] → ∃ preferred ∈ votes,
        (∀ vote ∈ votes, preferred.priorityKey ≤ vote.priorityKey) ∧ GradedFrom votes [preferred] preferred.value grade) ∧
      (votes = [] → grade = ⟨none, none, [], []⟩) ∧
      (∀ votes' : List (ConsensusVote ℚ), votes'.Perm votes →
        gradeConsensus Arithmetic.exact votes' relative absolute = .ok grade) ∧
      ∀ relative' absolute', relative ≤ relative' → absolute ≤ absolute' → ∃ grade',
        gradeConsensus Arithmetic.exact votes relative' absolute' = .ok grade' ∧
          grade.agreeingGroupIds.length ≤ grade'.agreeingGroupIds.length := by
  by_cases hne : votes = []
  · subst hne
    refine ⟨⟨none, none, [], []⟩, rfl, ?_, fun _ hne => absurd rfl hne, fun _ => rfl, ?_, ?_⟩
    · rintro ⟨a, ha, -⟩
      cases ha
    · intro votes' hp
      exact gradeConsensus_perm hp hdistinct
    · intro relative' absolute' _ _
      exact ⟨_, rfl, le_rfl⟩
  · obtain ⟨chosen, served, grade, hgrade, hgraded, -, hchoice⟩ := gradeConsensus_choice hdistinct hrelative habsolute hne
    refine ⟨grade, hgrade, fun htwo => ?_, fun hnone _ => ?_, fun h => absurd h hne, fun votes' hp => ?_, ?_⟩
    · rcases hchoice with ⟨-, hlength, hbest, hserves⟩ | ⟨hnone, -⟩
      · exact ⟨chosen, served, hbest, hlength, hserves, hgraded⟩
      · exact absurd htwo hnone
    · rcases hchoice with ⟨htwo, -⟩ | ⟨-, preferred, hmem, hleast, rfl, rfl⟩
      · exact absurd htwo hnone
      · exact ⟨preferred, hmem, hleast, hgraded⟩
    · rw [gradeConsensus_perm hp hdistinct, hgrade]
    · intro relative' absolute' hrelative' habsolute'
      exact length_agreeing_mono hdistinct hrelative habsolute hrelative' habsolute' hgrade

/-! ## A vote that joins nobody -/

section Outlier

variable {relative absolute : ℚ} {votes chosen chosen' : List (ConsensusVote ℚ)} {vote : ConsensusVote ℚ}

/-- Two searches that may choose each other's set choose one set. -/
theorem Best.perm {votes' : List (ConsensusVote ℚ)} (hbest : Best relative absolute votes chosen)
    (hbest' : Best relative absolute votes' chosen') (hset : VoteSet votes' chosen) (hset' : VoteSet votes chosen') :
    chosen.Perm chosen' := by
  have hlength : chosen.length = chosen'.length :=
    le_antisymm (hbest'.largest _ hset hbest.agree) (hbest.largest _ hset' hbest'.agree)
  have hspread : spread chosen = spread chosen' :=
    le_antisymm (hbest.tightest _ hset' hbest'.agree hlength.symm) (hbest'.tightest _ hset hbest.agree hlength)
  rcases hbest.first _ hset' hbest'.agree hlength.symm hspread.symm with hperm | hlex
  · exact hperm.symm
  · rcases hbest'.first _ hset hbest.agree hlength hspread with hperm | hlex'
    · exact hperm
    · have : Std.Asymm fun a b : ConsensusVote ℚ => a.priorityKey < b.priorityKey := ⟨fun _ _ => lt_asymm⟩
      exact absurd hlex' (asymm hlex)

theorem Serves.unique {served served' : VoteValue ℚ} (h : Serves relative absolute chosen served)
    (h' : Serves relative absolute chosen' served') (hperm : chosen.Perm chosen') (hne : chosen ≠ []) : served = served' := by
  obtain ⟨first, hfirst⟩ := List.exists_mem_of_ne_nil _ hne
  have hfirst' := hperm.mem_iff.mp hfirst
  rcases h with ⟨text, rfl, htext⟩ | ⟨rfl, hnumber⟩
  · rcases h' with ⟨text', rfl, htext'⟩ | ⟨-, hnumber'⟩
    · exact (htext first hfirst).symm.trans (htext' first hfirst')
    · obtain ⟨x, hx, -⟩ := hnumber' first hfirst'
      cases (htext first hfirst).symm.trans hx
  · rcases h' with ⟨text', rfl, htext'⟩ | ⟨rfl, -⟩
    · obtain ⟨x, hx, -⟩ := hnumber first hfirst
      cases (htext' first hfirst').symm.trans hx
    · rw [medianOf_perm (numbersOf_perm hperm)]

/-- A new vote that joins no agreeing set only adds its group to the outliers. -/
theorem gradeConsensus_outlier {grade : ConsensusGrade ℚ} (hdistinct : ((vote :: votes).map ConsensusVote.groupId).Nodup)
    (hrelative : 0 ≤ relative) (habsolute : 0 ≤ absolute) (htwo : SomeTwoAgree relative absolute votes)
    (hout : ∀ members, VoteSet (vote :: votes) members → vote ∈ members → 2 ≤ members.length → ¬ Agree relative absolute members)
    (hgrade : gradeConsensus Arithmetic.exact votes relative absolute = .ok grade) :
    gradeConsensus Arithmetic.exact (vote :: votes) relative absolute =
      .ok { grade with outlierGroupIds := sortedSet (vote.groupId :: grade.outlierGroupIds) } := by
  have hne : votes ≠ [] := by
    rintro rfl
    obtain ⟨_, h, -⟩ := htwo
    cases h
  obtain ⟨chosen, served, grade, hfirst, hgraded, hset, ⟨-, hlength, hbest, hserves⟩ | ⟨hnone, -⟩⟩ :=
    gradeConsensus_choice (List.nodup_cons.mp hdistinct).2 hrelative habsolute hne
  swap
  · exact absurd htwo hnone
  cases hfirst.symm.trans hgrade
  obtain ⟨chosen', served', grade', hsecond, hgraded', hset', ⟨-, hlength', hbest', hserves'⟩ | ⟨hnone, -⟩⟩ :=
    gradeConsensus_choice hdistinct hrelative habsolute (List.cons_ne_nil vote votes)
  swap
  · obtain ⟨a, ha, b, hb, hpair⟩ := htwo
    exact absurd ⟨a, List.mem_cons_of_mem _ ha, b, List.mem_cons_of_mem _ hb, hpair⟩ hnone
  have hvote : vote ∉ chosen' := fun hmem => hout chosen' hset' hmem hlength' hbest'.agree
  have hperm : chosen.Perm chosen' := hbest.perm hbest' ⟨hset.nodup, fun a ha => List.mem_cons_of_mem _ (hset.subset ha)⟩
    ⟨hset'.nodup, fun a ha => (List.mem_cons.mp (hset'.subset ha)).resolve_left fun heq => hvote (heq ▸ ha)⟩
  rw [hsecond]
  obtain ⟨value, groupId, agreeing, outliers⟩ := grade
  obtain ⟨value', groupId', agreeing', outliers'⟩ := grade'
  congr 1
  refine ConsensusGrade.mk.injEq .. |>.mpr ⟨?_, ?_, ?_, ?_⟩
  · exact hgraded'.servedValue.trans ((congrArg some (hserves.unique hserves' hperm
      (List.length_pos_iff.mp (by omega)))).symm.trans hgraded.servedValue.symm)
  · obtain ⟨preferred, hmem, hleast, hid⟩ := hgraded.servedGroup
    obtain ⟨preferred', hmem', hleast', hid'⟩ := hgraded'.servedGroup
    have hkey := le_antisymm (hleast preferred' (hperm.mem_iff.mpr hmem')) (hleast' preferred (hperm.mem_iff.mp hmem))
    have hgroup : preferred.groupId = preferred'.groupId := congrArg (fun key => (ofLex key).2) hkey
    exact hid'.trans (hgroup ▸ hid.symm)
  · exact hgraded'.agreeing.trans ((sortedSet_congr_mem fun a => (hperm.map _).mem_iff.symm).trans hgraded.agreeing.symm)
  · refine hgraded'.outliers.trans (sortedSet_congr_mem fun a => ?_)
    change _ ↔ a ∈ vote.groupId :: outliers
    rw [show outliers = _ from hgraded.outliers]
    simp [hvote, hperm.mem_iff]

end Outlier

def sampleVotes : List (ConsensusVote ℚ) := [⟨"yahoo", 1, .number 1000⟩, ⟨"sec", 0, .number 1001⟩, ⟨"moomoo", 2, .number 1500⟩]

theorem grade_consensus_rule_sample : (sampleVotes.map ConsensusVote.groupId).Nodup ∧
    ∃ grade, gradeConsensus Arithmetic.exact sampleVotes (1 / 1000) 0 = .ok grade ∧
      grade = ⟨some (.number (2001 / 2)), some "sec", ["sec", "yahoo"], ["moomoo"]⟩ ∧
      ∃ chosen served, Best (1 / 1000) 0 sampleVotes chosen ∧ 2 ≤ chosen.length ∧
        Serves (1 / 1000) 0 chosen served ∧ GradedFrom sampleVotes chosen served grade := by
  have hdistinct : (sampleVotes.map ConsensusVote.groupId).Nodup := by decide
  obtain ⟨grade, hgrade, hagree, -⟩ := grade_consensus_rule sampleVotes (1 / 1000) 0 hdistinct (by norm_num) le_rfl
  refine ⟨hdistinct, grade, hgrade, ?_, hagree ?_⟩
  · have hvalue : gradeConsensus Arithmetic.exact sampleVotes (1 / 1000) 0 =
        .ok ⟨some (.number (2001 / 2)), some "sec", ["sec", "yahoo"], ["moomoo"]⟩ := by
      decide +kernel
    rw [hgrade] at hvalue
    exact Except.ok.inj hvalue
  · refine ⟨⟨"yahoo", 1, .number 1000⟩, by simp [sampleVotes], ⟨"sec", 0, .number 1001⟩, by simp [sampleVotes], by simp,
      .inr ⟨?_, ?_⟩⟩
    · simp
    · show Cluster (1 / 1000) 0 [1000, 1001]
      rw [cluster_pair_iff]
      norm_num [abs_of_nonneg, abs_of_neg]

/-- A text joins no numbers. -/
theorem gradeConsensus_outlier_sample : ∃ grade, gradeConsensus Arithmetic.exact sampleVotes (1 / 100) 0 = .ok grade ∧
    gradeConsensus Arithmetic.exact (⟨"figi", 3, .text "pending"⟩ :: sampleVotes) (1 / 100) 0 =
      .ok { grade with outlierGroupIds := sortedSet ("figi" :: grade.outlierGroupIds) } := by
  obtain ⟨_, _, grade, hgrade, -⟩ := @gradeConsensus_choice (1 / 100) 0 sampleVotes (by decide) (by norm_num) le_rfl (by decide)
  have hpair : SomeTwoAgree (1 / 100) 0 sampleVotes := by
    refine ⟨⟨"yahoo", 1, .number 1000⟩, by simp [sampleVotes], ⟨"sec", 0, .number 1001⟩, by simp [sampleVotes], by decide,
      .inr ⟨by simp, ?_⟩⟩
    show Cluster (1 / 100) 0 [1000, 1001]
    rw [cluster_pair_iff]
    norm_num [abs_of_nonneg, abs_of_neg]
  refine ⟨grade, hgrade, gradeConsensus_outlier (by decide) (by norm_num) le_rfl hpair ?_ hgrade⟩
  rintro members hset hmem hlength (⟨text, htext⟩ | ⟨hnumber, -⟩)
  · have hmany : ¬ members ⊆ [⟨"figi", 3, .text "pending"⟩] := fun hall =>
      absurd (hlength.trans (List.subperm_of_subset hset.nodup hall).length_le) (by decide)
    refine hmany fun other hother => List.mem_singleton.mpr ?_
    rcases List.mem_cons.mp (hset.subset hother) with heq | hold
    · exact heq
    · have hnumbers : ∀ vote ∈ sampleVotes, vote.value.number?.isSome := by decide
      have hfalse := hnumbers other hold
      rw [htext other hother] at hfalse
      cases hfalse
  · obtain ⟨x, hx⟩ := hnumber _ hmem
    cases hx

end TrueAlpha.Contracts
