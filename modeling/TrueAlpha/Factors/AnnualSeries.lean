import TrueAlpha.Factors.GrowthWindow

/-!
# The annual series of a list of facts

`_annual_by_period_end` returns exactly when every period text is read and no two annual facts end at one date
(`annualByPeriodEnd_eq_ok_iff`).  A window of nearest ends is taken in some order of the facts (`exists_perm_windowOf`).
-/

namespace TrueAlpha

def annualEntry (entityId metric : String) (fact : Fact) : Option (Date × ℚ) :=
  if fact.entityId = entityId ∧ fact.metric = metric then
    fact.value.bind fun value => fact.annualEnd.map fun finish => (finish, value)
  else none

def PeriodRead (entityId metric : String) (fact : Fact) : Prop :=
  fact.entityId = entityId → fact.metric = metric → fact.value.isSome → ∀ tag ∈ fact.fiscalPeriod, parseAnnual tag ≠ .error ()

section

variable {facts facts' : List Fact} {entityId metric : String} {fact : Fact} {byEnd next series : Dict Date ℚ}

theorem annualStep_eq_ok_iff : annualStep entityId metric byEnd fact = .ok next ↔ PeriodRead entityId metric fact ∧
    ((annualEntry entityId metric fact).toList.map Prod.fst).Disjoint byEnd.keys ∧
      next.items = byEnd.items ++ (annualEntry entityId metric fact).toList := by
  by_cases hown : fact.entityId = entityId ∧ fact.metric = metric
  · cases hvalue : fact.value with
    | none => simp [annualStep, annualEntry, PeriodRead, hown, hvalue, Dict.ext_iff, eq_comm]
    | some value =>
      cases hperiod : fact.fiscalPeriod with
      | none => simp [annualStep, annualEntry, Fact.annualEnd, PeriodRead, hown, hvalue, hperiod, Dict.ext_iff, eq_comm]
      | some tag =>
        cases hparse : parseAnnual tag with
        | error _ => simp [annualStep, annualEntry, Fact.annualEnd, PeriodRead, hown, hvalue, hperiod, hparse]
        | ok period =>
          cases period with
          | none =>
            simp [annualStep, annualEntry, Fact.annualEnd, PeriodRead, hown, hvalue, hperiod, hparse, Dict.ext_iff, eq_comm]
          | some period =>
            by_cases hnew : period.finish ∈ byEnd.keys
            · have hsome : (byEnd.get? period.finish).isSome = true :=
                Option.isSome_iff_exists.mpr ((Dict.mem_keys_iff _ _).mp hnew)
              simp [annualStep, annualEntry, Fact.annualEnd, PeriodRead, hown, hvalue, hperiod, hparse, hsome, hnew]
            · have hnone : byEnd.get? period.finish = none := (Dict.get?_eq_none_iff _ _).mpr hnew
              simp [annualStep, annualEntry, Fact.annualEnd, PeriodRead, hown, hvalue, hperiod, hparse, hnone, hnew,
                Dict.ext_iff, Dict.items_set_of_not_mem _ hnew, eq_comm]
  · have hskip : annualStep entityId metric byEnd fact = .ok byEnd := by
      unfold annualStep
      rw [decide_eq_false hown]
    have hread : PeriodRead entityId metric fact := fun hentity hmetric => absurd ⟨hentity, hmetric⟩ hown
    have hentry : annualEntry entityId metric fact = none := if_neg hown
    rw [hskip, hentry, Except.ok.injEq, Dict.ext_iff, eq_comm]
    simp [hread]

theorem annualStep_foldlM_eq_ok_iff : facts.foldlM (annualStep entityId metric) byEnd = .ok series ↔
    (∀ fact ∈ facts, PeriodRead entityId metric fact) ∧
      (byEnd.keys ++ (facts.filterMap (annualEntry entityId metric)).map Prod.fst).Nodup ∧
        series.items = byEnd.items ++ facts.filterMap (annualEntry entityId metric) := by
  induction facts generalizing byEnd with
  | nil =>
    rw [foldlM_nil_eq_ok, Dict.ext_iff, eq_comm]
    simp [byEnd.nodup]
  | cons fact facts ih =>
    rw [foldlM_cons_eq_ok, List.forall_mem_cons]
    have hentries : (fact :: facts).filterMap (annualEntry entityId metric) =
        (annualEntry entityId metric fact).toList ++ facts.filterMap (annualEntry entityId metric) := by
      cases hentry : annualEntry entityId metric fact <;> simp [hentry]
    rw [hentries]
    constructor
    · rintro ⟨next, hnext, hrest⟩
      obtain ⟨hread, -, hitems⟩ := annualStep_eq_ok_iff.mp hnext
      obtain ⟨hreads, hnodup, hseries⟩ := ih.mp hrest
      refine ⟨⟨hread, hreads⟩, ?_, ?_⟩
      · rw [Dict.keys, hitems, List.map_append, List.append_assoc] at hnodup
        rwa [List.map_append]
      · rw [hseries, hitems, List.append_assoc]
    · rintro ⟨⟨hread, hreads⟩, hnodup, hseries⟩
      rw [List.map_append, ← List.append_assoc] at hnodup
      have hkeys := (List.nodup_append.mp hnodup).1
      have hnext : ∃ next, annualStep entityId metric byEnd fact = .ok next := by
        have hdict : ((byEnd.items ++ (annualEntry entityId metric fact).toList).map Prod.fst).Nodup := by
          rwa [List.map_append]
        refine ⟨⟨byEnd.items ++ (annualEntry entityId metric fact).toList, hdict⟩, annualStep_eq_ok_iff.mpr
          ⟨hread, (List.disjoint_of_nodup_append hkeys).symm, rfl⟩⟩
      obtain ⟨next, hnext⟩ := hnext
      have hitems := (annualStep_eq_ok_iff.mp hnext).2.2
      refine ⟨next, hnext, ih.mpr ⟨hreads, ?_, ?_⟩⟩
      · rwa [Dict.keys, hitems, List.map_append]
      · rw [hseries, hitems, List.append_assoc]

theorem annualByPeriodEnd_eq_ok_iff : annualByPeriodEnd facts entityId metric = .ok series ↔
    (∀ fact ∈ facts, PeriodRead entityId metric fact) ∧ ((facts.filterMap (annualEntry entityId metric)).map Prod.fst).Nodup ∧
        series.items = facts.filterMap (annualEntry entityId metric) :=
  annualStep_foldlM_eq_ok_iff

theorem exists_annualByPeriodEnd_perm (h : facts.Perm facts') (hseries : annualByPeriodEnd facts entityId metric = .ok series) :
    ∃ series', annualByPeriodEnd facts' entityId metric = .ok series' ∧ series.items.Perm series'.items := by
  obtain ⟨hreads, hnodup, hitems⟩ := annualByPeriodEnd_eq_ok_iff.mp hseries
  have hperm := h.filterMap (annualEntry entityId metric)
  have hnodup' := (hperm.map Prod.fst).nodup_iff.mp hnodup
  exact ⟨⟨_, hnodup'⟩, annualByPeriodEnd_eq_ok_iff.mpr ⟨fun fact hfact => hreads fact (h.mem_iff.mpr hfact), hnodup', rfl⟩,
    hitems ▸ hperm⟩

end

section

variable {ends ends' front back steps : List Date} {latest finish : Date} {targetDays : ℤ} {years : ℕ}

theorem IsNearest.of_mem_iff (hends : ∀ other, other ∈ ends ↔ other ∈ ends') (h : IsNearest ends latest targetDays finish) :
    IsNearest ends' latest targetDays finish :=
  ⟨(hends finish).mp h.1, fun other hother => h.2.1 other ((hends other).mpr hother), h.2.2⟩

theorem IsWindow.of_mem_iff (hends : ∀ other, other ∈ ends ↔ other ∈ ends') (h : IsWindow ends latest years steps) :
    IsWindow ends' latest years steps :=
  List.Forall₂.imp (fun _ _ hnear => hnear.of_mem_iff hends) h

theorem nearestEnd_append (hlatest : ∀ other ∈ front ++ back, other ≤ latest)
    (h : IsNearest (front ++ back) latest targetDays finish) (hfront : finish ∈ front)
    (hunique : ∀ other ∈ front, IsNearest (front ++ back) latest targetDays other → other = finish) :
    nearestEnd (front ++ back) latest targetDays = some finish := by
  have hall : ((front ++ back).filter fun finish => finish ≤ latest) = front ++ back :=
    List.filter_eq_self.mpr fun other hother => decide_eq_true (hlatest other hother)
  have hsome : (front.find? fun finish => ∀ other ∈ front ++ back,
      windowDistance latest targetDays finish ≤ windowDistance latest targetDays other).isSome := by
    rw [List.find?_isSome]
    exact ⟨finish, hfront, decide_eq_true h.2.1⟩
  obtain ⟨best, hbest⟩ := Option.isSome_iff_exists.mp hsome
  have hmem := List.mem_of_find?_eq_some hbest
  have hfound := List.find?_some hbest
  have hleast := of_decide_eq_true hfound
  obtain rfl := hunique best hmem ⟨List.mem_append_left _ hmem, hleast, (hleast finish h.1).trans h.2.2⟩
  unfold nearestEnd
  rw [hall]
  dsimp only
  rw [List.find?_append, hbest, Option.some_or]
  exact Option.filter_eq_some_iff.mpr ⟨rfl, decide_eq_true h.2.2⟩

theorem eq_of_isNearest (h : IsWindow ends latest years steps) {offset : ℕ} {other : Date}
    (hpair : (offset, finish) ∈ (List.range (years + 1)).zip steps) (hother : other ∈ steps)
    (hnear : IsNearest ends latest (boundaryDays offset) other) : other = finish := by
  obtain ⟨hlength, hpairs⟩ := List.forall₂_iff_zip.mp h
  have hsnd : ((List.range (years + 1)).zip steps).map Prod.snd = steps := List.map_snd_zip hlength.ge
  have hfst : (((List.range (years + 1)).zip steps).map Prod.fst).Nodup := by
    rw [List.map_fst_zip hlength.le]
    exact List.nodup_range
  rw [← hsnd] at hother
  obtain ⟨⟨offset', other⟩, hpair', rfl⟩ := List.mem_map.mp hother
  have hnear' := hpairs hpair'
  have hclose := abs_le.mp hnear.2.2
  have hclose' := abs_le.mp hnear'.2.2
  have key : ∀ a b c x w : ℤ, x - c - a ≤ w → -w ≤ x - c - a → x - c - b ≤ w → -w ≤ x - c - b → ¬ a + 2 * w < b := by
    intro a b c x w
    omega
  have hoffset : offset = offset' := by
    obtain hlt | heq | hgt := lt_trichotomy offset offset'
    · exact absurd (boundaryDays_gap hlt) (key _ _ other latest _ hclose.2 hclose.1 hclose'.2 hclose'.1)
    · exact heq
    · exact absurd (boundaryDays_gap hgt) (key _ _ other latest _ hclose'.2 hclose'.1 hclose.2 hclose.1)
  exact (Prod.mk.inj (List.inj_on_of_nodup_map hfst hpair' hpair hoffset.symm)).2

theorem exists_windowOf_of_isWindow (hlatest : ∀ other ∈ ends, other ≤ latest) (h : IsWindow ends latest years steps) :
    ∃ taken, windowOf ends latest years = some taken := by
  have hall : ∀ offset ∈ List.range (years + 1), ∃ finish, nearestEnd ends latest (boundaryDays offset) = some finish := by
    intro offset hoffset
    obtain ⟨finish, -, hnear⟩ := exists_of_mem_forall₂ h hoffset
    exact (exists_nearestEnd_iff hlatest).mpr ⟨finish, hnear.1, hnear.2.2⟩
  unfold windowOf
  generalize List.range (years + 1) = offsets at hall
  induction offsets with
  | nil => exact ⟨[], rfl⟩
  | cons offset offsets ih =>
    rw [List.forall_mem_cons] at hall
    obtain ⟨finish, hfinish⟩ := hall.1
    obtain ⟨taken, htaken⟩ := ih hall.2
    exact ⟨finish :: taken, mapM_eq_some_iff.mpr (.cons hfinish (mapM_eq_some_iff.mp htaken))⟩

theorem windowOf_append (hlatest : ∀ other ∈ front ++ back, other ≤ latest)
    (h : IsWindow (front ++ back) latest years steps) (hfront : ∀ other, other ∈ front ↔ other ∈ steps) :
    windowOf (front ++ back) latest years = some steps := by
  obtain ⟨hlength, hpairs⟩ := List.forall₂_iff_zip.mp h
  refine mapM_eq_some_iff.mpr (List.forall₂_iff_zip.mpr ⟨hlength, fun {offset finish} hpair => ?_⟩)
  exact nearestEnd_append hlatest (hpairs hpair) ((hfront finish).mpr (List.of_mem_zip hpair).2)
    fun other hother hnear => eq_of_isNearest h hpair ((hfront other).mp hother) hnear

end

section

variable {facts : List Fact} {entityId metric : String} {series : Dict Date ℚ} {latest : Date} {years : ℕ}
  {steps : List Date}

theorem exists_perm_windowOf (hseries : annualByPeriodEnd facts entityId metric = .ok series)
    (hlatest : ∀ other ∈ series.keys, other ≤ latest) (h : IsWindow series.keys latest years steps) :
    ∃ facts' series', facts.Perm facts' ∧ annualByPeriodEnd facts' entityId metric = .ok series' ∧
      series.items.Perm series'.items ∧ windowOf series'.keys latest years = some steps := by
  -- the facts of the window first
  let chosen : Fact → Bool := fun fact => decide (∃ entry ∈ annualEntry entityId metric fact, entry.1 ∈ steps)
  have hperm : facts.Perm (facts.filter chosen ++ facts.filter fun fact => !chosen fact) :=
    (List.filter_append_perm chosen facts).symm
  obtain ⟨series', hseries', hitems⟩ := exists_annualByPeriodEnd_perm hperm hseries
  have hends : ∀ other, other ∈ series.keys ↔ other ∈ series'.keys := fun other => (hitems.map Prod.fst).mem_iff
  have hkeys : series'.keys = ((facts.filter chosen).filterMap (annualEntry entityId metric)).map Prod.fst ++
      ((facts.filter fun fact => !chosen fact).filterMap (annualEntry entityId metric)).map Prod.fst := by
    rw [Dict.keys, (annualByPeriodEnd_eq_ok_iff.mp hseries').2.2, List.filterMap_append, List.map_append]
  refine ⟨_, series', hperm, hseries', hitems, ?_⟩
  have hwindow := h.of_mem_iff hends
  have hmax : ∀ other ∈ series'.keys, other ≤ latest := fun other hother => hlatest other ((hends other).mpr hother)
  rw [hkeys] at hwindow hmax ⊢
  refine windowOf_append hmax hwindow fun other => ?_
  constructor
  · intro hother
    obtain ⟨entry, hentry, rfl⟩ := List.mem_map.mp hother
    obtain ⟨fact, hfact, hentry⟩ := List.mem_filterMap.mp hentry
    obtain ⟨entry', hentry', hstep⟩ := of_decide_eq_true (List.mem_filter.mp hfact).2
    rw [hentry] at hentry'
    rwa [Option.mem_some_iff.mp hentry']
  · intro hother
    obtain ⟨offset, -, hnear⟩ := exists_of_mem_forall₂ (List.Forall₂.flip h) hother
    have hmem := hnear.1
    rw [Dict.keys, (annualByPeriodEnd_eq_ok_iff.mp hseries).2.2] at hmem
    obtain ⟨entry, hentry, rfl⟩ := List.mem_map.mp hmem
    obtain ⟨fact, hfact, hentry⟩ := List.mem_filterMap.mp hentry
    exact List.mem_map_of_mem (List.mem_filterMap.mpr
      ⟨fact, List.mem_filter.mpr ⟨hfact, decide_eq_true ⟨entry, hentry, hother⟩⟩, hentry⟩)

end

end TrueAlpha
