import TrueAlpha.Lib.Dict
import TrueAlpha.Lib.Sort

/-!
# Dictionaries that answer alike

`Dict.Same R d e` relates the values of each key, whatever the order of the items: with equality it is the equality of
dictionaries.  A function of the items that does not see their order keeps it.
-/

namespace TrueAlpha

/-- Loops over related lists: where the first returns, the second returns related results. -/
theorem exists_mapM_of_forall₂ {ε α α' β β' : Type} {R : α → α' → Prop} {S : β → β' → Prop} {f : α → Except ε β}
    {g : α' → Except ε β'} {l : List α} {l' : List α'} {r : List β}
    (hfg : ∀ a a', R a a' → ∀ b, f a = .ok b → ∃ b', g a' = .ok b' ∧ S b b') (h : List.Forall₂ R l l')
    (hr : l.mapM f = .ok r) : ∃ r', l'.mapM g = .ok r' ∧ List.Forall₂ S r r' := by
  induction h generalizing r with
  | nil =>
    obtain rfl := pure_eq_ok_iff.mp hr
    exact ⟨[], rfl, .nil⟩
  | @cons a a' l l' ha hl ih =>
    obtain ⟨b, rest, hb, hrest, rfl⟩ := List.forall₂_cons_left_iff.mp (mapM_eq_ok_iff.mp hr)
    obtain ⟨b', hb', hS⟩ := hfg a a' ha b hb
    obtain ⟨rest', hrest', hall⟩ := ih (mapM_eq_ok_iff.mpr hrest)
    exact ⟨b' :: rest', mapM_eq_ok_iff.mpr (.cons hb' (mapM_eq_ok_iff.mp hrest')), .cons hS hall⟩

namespace Dict

variable {κ ν ν' μ μ' : Type} [DecidableEq κ]

/-- Every key has related values, or none in both. -/
def Same (R : ν → ν' → Prop) (d : Dict κ ν) (e : Dict κ ν') : Prop := ∀ k, Option.Rel R (d.get? k) (e.get? k)

section

variable {R : ν → ν' → Prop} {S : μ → μ' → Prop} {d : Dict κ ν} {e : Dict κ ν'}

theorem Same.rel (h : Same R d e) {k : κ} {v : ν} {w : ν'} (hv : d.get? k = some v) (hw : e.get? k = some w) : R v w := by
  have hrel := h k
  rw [hv, hw] at hrel
  cases hrel with
  | some hvw => exact hvw

theorem Same.exists_of_right (h : Same R d e) {k : κ} {w : ν'} (hw : e.get? k = some w) : ∃ v, d.get? k = some v ∧ R v w := by
  have hrel := h k
  rw [hw] at hrel
  cases hv : d.get? k with
  | none =>
    rw [hv] at hrel
    cases hrel
  | some v => exact ⟨v, rfl, h.rel hv hw⟩

theorem same_eq_iff {d e : Dict κ ν} : Same Eq d e ↔ ∀ k, d.get? k = e.get? k := by
  refine forall_congr' fun k => ?_
  cases d.get? k <;> cases e.get? k <;> simp

theorem same_of_perm {d e : Dict κ ν} (h : d.items.Perm e.items) : Same Eq d e := by
  rw [same_eq_iff]
  intro k
  refine Option.ext fun v => ?_
  rw [get?_eq_some_iff, get?_eq_some_iff, h.mem_iff]

theorem Same.mapVal {f : κ → ν → μ} {g : κ → ν' → μ'} (h : Same R d e) (hfg : ∀ k v w, R v w → S (f k v) (g k w)) :
    Same S (d.mapVal f) (e.mapVal g) := by
  intro k
  rw [get?_mapVal, get?_mapVal]
  have hrel := h k
  cases hv : d.get? k with
  | none =>
    rw [hv] at hrel
    cases hw : e.get? k with
    | none => exact .none
    | some w =>
      rw [hw] at hrel
      cases hrel
  | some v =>
    rw [hv] at hrel
    cases hw : e.get? k with
    | none =>
      rw [hw] at hrel
      cases hrel
    | some w => exact .some (hfg k v w (h.rel hv hw))

end

variable {f : κ → ν → Except ε μ}

section

variable {ε : Type} {R : ν → ν' → Prop} {S : μ → μ' → Prop} {d : Dict κ ν} {e : Dict κ ν'}

theorem exists_mapValM (h : ∀ k v, d.get? k = some v → ∃ w, f k v = .ok w) : ∃ d', d.mapValM f = .ok d' := by
  obtain ⟨items, hitems⟩ := exists_mapM_ok (f := fun item : κ × ν => (f item.1 item.2).map fun w => (item.1, w))
    (l := d.items) fun item hitem => by
      obtain ⟨w, hw⟩ := h item.1 item.2 ((get?_eq_some_iff _ _ _).mpr hitem)
      exact ⟨(item.1, w), by rw [hw]; rfl⟩
  exact ⟨ofList items, by rw [mapValM, hitems]; rfl⟩

/-- A loop that returns on a dictionary returns on the same dictionary. -/
theorem Same.exists_mapValM {g : κ → ν' → Except ε μ'} (h : Same R d e)
    (hfg : ∀ k v w, R v w → ∀ v', f k v = .ok v' → ∃ w', g k w = .ok w' ∧ S v' w') {d' : Dict κ μ}
    (hd : d.mapValM f = .ok d') : ∃ e', e.mapValM g = .ok e' ∧ Same S d' e' := by
  have hvalue : ∀ k v, d.get? k = some v → ∃ v', f k v = .ok v' ∧ d'.get? k = some v' := by
    intro k v hv
    obtain ⟨entry, hentry, hf⟩ := mem_of_mapM (mapValM_eq_ok hd).1 ((get?_eq_some_iff _ _ _).mp hv)
    obtain ⟨v', hv', rfl⟩ := map_eq_ok_iff.mp hf
    exact ⟨v', hv', (get?_eq_some_iff _ _ _).mpr hentry⟩
  obtain ⟨e', he'⟩ := Dict.exists_mapValM (d := e) (f := g) fun k w hw => by
    obtain ⟨v, hv, hR⟩ := h.exists_of_right hw
    obtain ⟨v', hv', -⟩ := hvalue k v hv
    obtain ⟨w', hw', -⟩ := hfg k v w hR v' hv'
    exact ⟨w', hw'⟩
  refine ⟨e', he', fun k => ?_⟩
  have hrel := h k
  cases hv : d.get? k with
  | none =>
    rw [hv] at hrel
    cases hw : e.get? k with
    | none =>
      rw [(get?_mapValM_eq_none hd).mpr hv, (get?_mapValM_eq_none he').mpr hw]
      exact .none
    | some w =>
      rw [hw] at hrel
      cases hrel
  | some v =>
    rw [hv] at hrel
    cases hw : e.get? k with
    | none =>
      rw [hw] at hrel
      cases hrel
    | some w =>
      obtain ⟨v', hfv, hget⟩ := hvalue k v hv
      obtain ⟨w', hgw, hS⟩ := hfg k v w (h.rel hv hw) v' hfv
      rw [hget, (get?_mapValM he').mpr ⟨w, hw, hgw⟩]
      exact .some hS

end

section

variable {R : ν → ν' → Prop} {d : Dict κ (Dict κ ν)} {e : Dict κ (Dict κ ν')}

/-- No inner dictionary is empty. -/
def Filled (d : Dict κ (Dict κ ν)) : Prop := ∀ k inner, d.get? k = some inner → ∃ k' v, inner.get? k' = some v

/-- Dictionaries of dictionaries that are not empty are related when their values are. -/
theorem same_of_filled (hd : d.Filled) (he : e.Filled)
    (h : ∀ k k', Option.Rel R ((d.get? k).bind fun inner => inner.get? k') ((e.get? k).bind fun inner => inner.get? k')) :
    Same (Same R) d e := by
  intro k
  have hk := h k
  cases hv : d.get? k with
  | none =>
    cases hw : e.get? k with
    | none => exact .none
    | some inner =>
      obtain ⟨k', w, hw'⟩ := he k inner hw
      have hrel := hk k'
      rw [hv, hw, Option.bind_none, Option.bind_some, hw'] at hrel
      cases hrel
  | some inner =>
    cases hw : e.get? k with
    | none =>
      obtain ⟨k', v, hv'⟩ := hd k inner hv
      have hrel := hk k'
      rw [hv, hw, Option.bind_none, Option.bind_some, hv'] at hrel
      cases hrel
    | some inner' =>
      refine .some fun k' => ?_
      have hrel := hk k'
      rwa [hv, hw, Option.bind_some, Option.bind_some] at hrel

end

/-- The items in the order of their keys are related one by one. -/
theorem Same.forall₂_sortedBy {κ ν ν' : Type} [LinearOrder κ] {R : ν → ν' → Prop} {d : Dict κ ν} {e : Dict κ ν'}
    (h : Same R d e) : List.Forall₂ (fun a b : κ × _ => a.1 = b.1 ∧ R a.2 b.2) (sortedBy Prod.fst d.items)
      (sortedBy Prod.fst e.items) := by
  have hkeys : (sortedBy Prod.fst d.items).map Prod.fst = (sortedBy Prod.fst e.items).map Prod.fst := by
    have hd := strictSorted_sortedBy Prod.fst d.nodup_keys
    have he := strictSorted_sortedBy Prod.fst e.nodup_keys
    refine eq_of_strictSorted (List.pairwise_map.mpr hd) (List.pairwise_map.mpr he) fun k => ?_
    have hmem : ∀ {ν : Type} (d : Dict κ ν), k ∈ (sortedBy Prod.fst d.items).map Prod.fst ↔ (d.get? k).isSome := by
      intro ν d
      rw [((perm_sortedBy Prod.fst d.items).map Prod.fst).mem_iff, Option.isSome_iff_exists]
      exact Dict.mem_keys_iff d k
    rw [hmem, hmem]
    have hrel := h k
    cases hv : d.get? k <;> cases hw : e.get? k <;> rw [hv, hw] at hrel <;> first | rfl | cases hrel
  have hlength : (sortedBy Prod.fst d.items).length = (sortedBy Prod.fst e.items).length := by
    simpa using congrArg List.length hkeys
  rw [List.forall₂_iff_get]
  refine ⟨hlength, fun i hi hi' => ?_⟩
  have hfst : ((sortedBy Prod.fst d.items).get ⟨i, hi⟩).1 = ((sortedBy Prod.fst e.items).get ⟨i, hi'⟩).1 := by
    have hget := congrArg (fun l => l[i]?) hkeys
    simpa [hi, hi'] using hget
  have hv := (get?_eq_some_iff d _ _).mpr ((mem_sortedBy Prod.fst).mp (List.get_mem (sortedBy Prod.fst d.items) ⟨i, hi⟩))
  have hw := (get?_eq_some_iff e _ _).mpr ((mem_sortedBy Prod.fst).mp (List.get_mem (sortedBy Prod.fst e.items) ⟨i, hi'⟩))
  rw [← hfst] at hw
  exact ⟨hfst, h.rel hv hw⟩

end Dict

end TrueAlpha
