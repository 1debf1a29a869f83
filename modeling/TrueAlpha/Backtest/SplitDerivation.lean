import TrueAlpha.Backtest.CorporateActions
import TrueAlpha.Backtest.EngineSpec
import Mathlib.Tactic.Positivity

/-!
# What the derivation of splits returns

The events that `deriveSplitEvents` returns explain the ratio of every session with both closes, up to a band that widens by one
tolerance for each later event (`deriveSplitEvents_sound`).
-/

namespace TrueAlpha.Backtest

/-! ## The functions -/

theorem positive_eq_some_iff {value : Option ℚ} {v : ℚ} : positive value = some v ↔ value = some v ∧ 0 < v := by
  unfold positive
  rw [Option.filter_eq_some_iff]
  simp

variable {bar : SeriesBar} {r f : ℚ} {symbol : Symbol}

theorem ratio_eq_some_iff : bar.ratio = some r ↔ ∃ u a, bar.unadjustedClose = some u ∧ bar.splitAdjustedClose = some a ∧
      0 < u ∧ 0 < a ∧ r = u / a := by
  unfold SeriesBar.ratio
  rw [Option.bind_eq_some_iff]
  constructor
  · intro ⟨u, hu, hmap⟩
    obtain ⟨a, ha, rfl⟩ := Option.map_eq_some_iff.1 hmap
    obtain ⟨hu, hupos⟩ := positive_eq_some_iff.1 hu
    obtain ⟨ha, hapos⟩ := positive_eq_some_iff.1 ha
    exact ⟨u, a, hu, ha, hupos, hapos, rfl⟩
  · intro ⟨u, a, hu, ha, hupos, hapos, hr⟩
    refine ⟨u, positive_eq_some_iff.2 ⟨hu, hupos⟩, ?_⟩
    rw [positive_eq_some_iff.2 ⟨ha, hapos⟩, Option.map_some, hr]

theorem ratio_pos (h : bar.ratio = some r) : 0 < r := by
  obtain ⟨u, a, -, -, hu, ha, rfl⟩ := ratio_eq_some_iff.1 h
  exact div_pos hu ha

theorem snap_eq_ok_iff {session : Date} {step : ℚ} : snap symbol session step = .ok f ↔
      nearestRatio step = .ok f ∧ f ≠ 1 ∧ |f / step - 1| ≤ ratioTolerance := by
  unfold snap
  rw [bind_eq_ok_iff]
  constructor
  · intro ⟨c, hc, hrest⟩
    by_cases hone : c = 1
    · rw [if_pos hone] at hrest
      cases hrest
    · rw [if_neg hone] at hrest
      by_cases herr : ratioTolerance < |c / step - 1|
      · rw [if_pos herr] at hrest
        cases hrest
      · rw [if_neg herr, pure_eq_ok_iff] at hrest
        subst hrest
        exact ⟨hc, hone, not_lt.1 herr⟩
  · intro ⟨hc, hone, herr⟩
    refine ⟨f, hc, ?_⟩
    rw [if_neg hone, if_neg (not_lt.2 herr)]
    rfl

inductive AnchorStep (symbol : Symbol) (state : DeriveState) (bar : SeriesBar) (ratio : ℚ) :
    DeriveState → Prop where
  | first (hanchor : state.anchor = none) :
      AnchorStep symbol state bar ratio { state with anchor := some ratio }
  | same {anchor : ℚ} (hanchor : state.anchor = some anchor)
      (hnear : |anchor / ratio - 1| ≤ ratioTolerance) : AnchorStep symbol state bar ratio state
  | split {anchor factor close : ℚ} (hanchor : state.anchor = some anchor)
      (hfar : ratioTolerance < |anchor / ratio - 1|)
      (hsnap : snap symbol bar.session (anchor / ratio) = .ok factor)
      (hclose : state.previousClose = some close)
      (hconfirm : confirm symbol bar.session factor close bar = .ok ()) :
      AnchorStep symbol state bar ratio
        { state with
          events := state.events ++ [⟨symbol, bar.session, factor.num, factor.den⟩]
          anchor := some ratio }

variable {state state' : DeriveState}

theorem anchorStep_eq_ok_iff {ratio : ℚ} :
    anchorStep symbol state bar ratio = .ok state' ↔ AnchorStep symbol state bar ratio state' := by
  unfold anchorStep
  rcases hanchor : state.anchor with _ | anchor
  · constructor
    · intro h
      cases h
      exact .first hanchor
    · intro h
      cases h with
      | first => rfl
      | same h => rw [hanchor] at h; cases h
      | split h => rw [hanchor] at h; cases h
  · dsimp only
    by_cases hfar : ratioTolerance < |anchor / ratio - 1|
    · rw [if_pos hfar, bind_eq_ok_iff]
      constructor
      · intro ⟨factor, hsnap, hrest⟩
        rcases hclose : state.previousClose with _ | close
        · rw [hclose] at hrest
          cases hrest
        · rw [hclose] at hrest
          dsimp only at hrest
          rw [bind_eq_ok_iff] at hrest
          obtain ⟨⟨⟩, hconfirm, hrest⟩ := hrest
          rw [pure_eq_ok_iff] at hrest
          subst hrest
          have hsplit := AnchorStep.split hanchor hfar hsnap hclose hconfirm
          rwa [hclose] at hsplit
      · intro h
        cases h with
        | first h => rw [hanchor] at h; cases h
        | same h hnear =>
          rw [hanchor] at h
          cases h
          exact absurd hfar (not_lt.2 hnear)
        | split h _ hsnap hclose hconfirm =>
          rw [hanchor] at h
          cases h
          refine ⟨_, hsnap, ?_⟩
          rw [hclose]
          exact bind_eq_ok_iff.2 ⟨(), hconfirm, rfl⟩
    · rw [if_neg hfar, Except.ok.injEq]
      constructor
      · intro h
        subst h
        exact .same hanchor (not_lt.1 hfar)
      · intro h
        cases h with
        | first h => rw [hanchor] at h; cases h
        | same => rfl
        | split h hfar' =>
          rw [hanchor] at h
          cases h
          exact absurd hfar' hfar

def DeriveState.after (state : DeriveState) (bar : SeriesBar) : DeriveState :=
  match bar.ratio with
  | none => { state with previousClose := (positive bar.unadjustedClose).or state.previousClose }
  | some ratio => { state with
      latestRatio := some ratio
      previousClose := (positive bar.unadjustedClose).or state.previousClose
      firstPaired := state.firstPaired.or (some bar.session)
      lastPaired := some bar.session }

theorem deriveStep_eq_ok_iff : deriveStep symbol state bar = .ok state' ↔ ∃ mid, state' = mid.after bar ∧
        ((bar.ratio = none ∧ mid = state) ∨ ∃ ratio, bar.ratio = some ratio ∧ AnchorStep symbol state bar ratio mid) := by
  unfold deriveStep pairedStep DeriveState.after
  rcases hratio : bar.ratio with _ | ratio
  · simp only [ok_bind, pure_eq_ok_iff, true_and]
    constructor
    · intro h
      exact ⟨state, h.symm, .inl rfl⟩
    · intro ⟨mid, h, hmid⟩
      rcases hmid with rfl | ⟨_, h', -⟩
      · exact h.symm
      · cases h'
  · simp only [bind_eq_ok_iff, pure_eq_ok_iff, anchorStep_eq_ok_iff]
    constructor
    · intro ⟨_, ⟨mid, hmid, rfl⟩, h⟩
      exact ⟨mid, h.symm, .inr ⟨ratio, rfl, hmid⟩⟩
    · intro ⟨mid, h, hmid⟩
      rcases hmid with ⟨h', -⟩ | ⟨_, h', hmid⟩
      · cases h'
      · cases h'
        exact ⟨_, ⟨mid, hmid, rfl⟩, h.symm⟩

@[simp] theorem after_events (state : DeriveState) (bar : SeriesBar) : (state.after bar).events = state.events := by
  unfold DeriveState.after
  cases bar.ratio <;> rfl

@[simp] theorem after_anchor (state : DeriveState) (bar : SeriesBar) : (state.after bar).anchor = state.anchor := by
  unfold DeriveState.after
  cases bar.ratio <;> rfl

theorem after_latestRatio (state : DeriveState) (bar : SeriesBar) :
    (state.after bar).latestRatio = bar.ratio.or state.latestRatio := by
  unfold DeriveState.after
  cases bar.ratio <;> rfl

theorem checkLatest_eq_ok_iff {symbol : Symbol} {latest : Option ℚ} :
    checkLatest symbol latest = .ok () ↔ ∀ r, latest = some r → |r - 1| ≤ ratioTolerance := by
  unfold checkLatest
  cases latest with
  | none => simp
  | some r =>
    dsimp only
    by_cases h : ratioTolerance < |r - 1|
    · rw [if_pos h]
      constructor
      · intro h'
        cases h'
      · intro h'
        exact absurd h (not_lt.2 (h' r rfl))
    · rw [if_neg h]
      simpa using h

variable {bars : List SeriesBar} {events : List SplitEvent}

theorem deriveSplitEvents_eq_ok_iff : deriveSplitEvents symbol bars = .ok events ↔ (bars.map SeriesBar.session).Nodup ∧ ∃ state,
        (sortedBy SeriesBar.session bars).foldlM (deriveStep symbol) DeriveState.initial = .ok state ∧
        checkSpan symbol (unadjustedSessions (sortedBy SeriesBar.session bars)) state.firstPaired
          state.lastPaired = .ok () ∧
        checkLatest symbol state.latestRatio = .ok () ∧ events = state.events := by
  have hdedup : ((sortedBy SeriesBar.session bars).map SeriesBar.session).dedup.length ≠
      (sortedBy SeriesBar.session bars).length ↔ ¬ (bars.map SeriesBar.session).Nodup := by
    rw [not_iff_not, ← ((perm_sortedBy SeriesBar.session bars).map _).nodup_iff]
    constructor
    · intro h
      refine List.dedup_eq_self.1 ((List.dedup_sublist _).eq_of_length ?_)
      rw [h, List.length_map]
    · intro h
      rw [h.dedup, List.length_map]
  unfold deriveSplitEvents
  simp only [hdedup]
  by_cases hnodup : (bars.map SeriesBar.session).Nodup
  · simp only [hnodup, not_true_eq_false, if_false, true_and, bind_eq_ok_iff, pure_eq_ok_iff]
    constructor
    · intro ⟨state, hfold, ⟨⟩, hspan, ⟨⟩, hlatest, h⟩
      exact ⟨state, hfold, hspan, hlatest, h.symm⟩
    · intro ⟨state, hfold, hspan, hlatest, h⟩
      exact ⟨state, hfold, (), hspan, (), hlatest, h.symm⟩
  · simp only [hnodup, not_false_eq_true, if_true, false_and, iff_false]
    intro h
    cases h

/-! ## Soundness -/

def factorAfter (events : List SplitEvent) (day : Date) : ℚ :=
  ((events.filter fun event => day < event.exDate).map SplitEvent.factor).prod

def countAfter (events : List SplitEvent) (day : Date) : ℕ := (events.filter fun event => day < event.exDate).length

/-- `a` is `b` up to `n` tolerances. -/
def Near (n : ℕ) (a b : ℚ) : Prop := b / (1 + ratioTolerance) ^ n ≤ a ∧ a ≤ b / (1 - ratioTolerance) ^ n

theorem one_sub_tolerance_pos : 0 < 1 - ratioTolerance := by norm_num [ratioTolerance]

theorem one_add_tolerance_pos : 0 < 1 + ratioTolerance := by norm_num [ratioTolerance]

theorem abs_sub_one_le_iff {x : ℚ} :
    |x - 1| ≤ ratioTolerance ↔ 1 - ratioTolerance ≤ x ∧ x ≤ 1 + ratioTolerance := by
  rw [abs_le]
  constructor
  · intro ⟨h₁, h₂⟩
    exact ⟨by linarith, by linarith⟩
  · intro ⟨h₁, h₂⟩
    exact ⟨by linarith, by linarith⟩

variable {a : ℚ}

theorem near_of_abs_le (hr : 0 < r) (h : |a / r - 1| ≤ ratioTolerance) : Near 1 r a := by
  obtain ⟨hlo, hhi⟩ := abs_sub_one_le_iff.1 h
  rw [le_div_iff₀ hr] at hlo
  rw [div_le_iff₀ hr] at hhi
  rw [Near, pow_one, pow_one, div_le_iff₀ one_add_tolerance_pos, le_div_iff₀ one_sub_tolerance_pos]
  exact ⟨by linarith, by linarith⟩

theorem near_self (ha : 0 < a) : Near 1 a a := by
  refine near_of_abs_le ha ?_
  rw [div_self ha.ne', sub_self, abs_zero]
  norm_num [ratioTolerance]

theorem factor_pos_of_snap (ha : 0 < a) (hr : 0 < r) (h : |f / (a / r) - 1| ≤ ratioTolerance) : 0 < f := by
  obtain ⟨hlo, -⟩ := abs_sub_one_le_iff.1 h
  have hquot : 0 < f / (a / r) := lt_of_lt_of_le one_sub_tolerance_pos hlo
  have hstep : 0 < a / r := div_pos ha hr
  exact (div_pos_iff_of_pos_right hstep).1 hquot

theorem Near.split {n : ℕ} {w : ℚ} (h : Near n w a) (ha : 0 < a) (hr : 0 < r)
    (hsnap : |f / (a / r) - 1| ≤ ratioTolerance) : Near (n + 1) (w / f) r := by
  have hf := factor_pos_of_snap ha hr hsnap
  obtain ⟨hlo, hhi⟩ := abs_sub_one_le_iff.1 hsnap
  have hquot : f / (a / r) = f * r / a := div_div_eq_mul_div f a r
  rw [hquot, le_div_iff₀ ha] at hlo
  rw [hquot, div_le_iff₀ ha] at hhi
  have hplus : 0 < (1 + ratioTolerance) ^ n := pow_pos one_add_tolerance_pos n
  have hminus : 0 < (1 - ratioTolerance) ^ n := pow_pos one_sub_tolerance_pos n
  obtain ⟨hw₁, hw₂⟩ := h
  rw [div_le_iff₀ hplus] at hw₁
  rw [le_div_iff₀ hminus] at hw₂
  constructor
  · rw [pow_succ, div_le_iff₀ (mul_pos hplus one_add_tolerance_pos), div_mul_eq_mul_div, le_div_iff₀ hf]
    calc r * f = f * r := mul_comm r f
      _ ≤ (1 + ratioTolerance) * a := hhi
      _ ≤ (1 + ratioTolerance) * (w * (1 + ratioTolerance) ^ n) :=
        mul_le_mul_of_nonneg_left hw₁ one_add_tolerance_pos.le
      _ = w * ((1 + ratioTolerance) ^ n * (1 + ratioTolerance)) := by ring
  · rw [pow_succ, le_div_iff₀ (mul_pos hminus one_sub_tolerance_pos), div_mul_eq_mul_div, div_le_iff₀ hf]
    calc w * ((1 - ratioTolerance) ^ n * (1 - ratioTolerance))
        = (1 - ratioTolerance) * (w * (1 - ratioTolerance) ^ n) := by ring
      _ ≤ (1 - ratioTolerance) * a := mul_le_mul_of_nonneg_left hw₂ one_sub_tolerance_pos.le
      _ ≤ f * r := hlo
      _ = r * f := mul_comm f r

/-- What the loop keeps, after the bars `pre`. -/
structure DriftInv (pre : List SeriesBar) (state : DeriveState) : Prop where
  dates : state.events.Pairwise fun a b => a.exDate < b.exDate
  events : ∀ event ∈ state.events, event.factor ≠ 1 ∧ ∃ bar ∈ pre, bar.session = event.exDate ∧ bar.ratio.isSome
  anchor_pos : ∀ a, state.anchor = some a → 0 < a
  paired : ∀ bar ∈ pre, ∀ r, bar.ratio = some r → ∃ a, state.anchor = some a ∧
    Near (countAfter state.events bar.session + 1) (r / factorAfter state.events bar.session) a
  latest : ∀ a, state.anchor = some a → ∃ r, state.latestRatio = some r ∧ Near 1 r a

variable {day : Date} {pre : List SeriesBar}

theorem factorAfter_eq_one (h : ∀ event ∈ events, event.exDate ≤ day) :
    factorAfter events day = 1 ∧ countAfter events day = 0 := by
  have hnil : (events.filter fun event => day < event.exDate) = [] :=
    List.filter_eq_nil_iff.2 fun event hevent => by simpa using h event hevent
  rw [factorAfter, countAfter, hnil]
  exact ⟨rfl, rfl⟩

theorem after_concat {event : SplitEvent} (h : day < event.exDate) :
    factorAfter (events ++ [event]) day = factorAfter events day * event.factor ∧
      countAfter (events ++ [event]) day = countAfter events day + 1 := by
  simp [factorAfter, countAfter, h]

theorem factor_num_den (symbol : Symbol) (session : Date) (f : ℚ) : SplitEvent.factor ⟨symbol, session, f.num, f.den⟩ = f := by
  rw [SplitEvent.factor, Int.cast_natCast]
  exact Rat.num_div_den f

theorem DriftInv.events_lt (h : DriftInv pre state) (hlt : ∀ bar ∈ pre, bar.session < day) :
    ∀ event ∈ state.events, event.exDate < day := by
  intro event hevent
  obtain ⟨-, bar, hbar, hdate, -⟩ := h.events event hevent
  exact hdate ▸ hlt bar hbar

theorem DriftInv.paired_step (h : DriftInv pre state) (hlt : ∀ b ∈ pre, b.session < bar.session)
    (hratio : bar.ratio = some r) (hevents : state'.events = state.events) (hanchor : state'.anchor = some a)
    (hlatest : state'.latestRatio = some r) (ha : 0 < a) (hnear : Near 1 r a)
    (hold : ∀ b, state.anchor = some b → b = a) :
    DriftInv (pre ++ [bar]) state' := by
  refine ⟨hevents ▸ h.dates, ?_, ?_, ?_, ?_⟩
  · intro event hevent
    obtain ⟨hone, b, hb, hdate, hsome⟩ := h.events event (hevents ▸ hevent)
    exact ⟨hone, b, List.mem_append_left _ hb, hdate, hsome⟩
  · intro b hb
    rw [hanchor, Option.some.injEq] at hb
    exact hb ▸ ha
  · intro b hb rb hrb
    rw [hevents]
    rcases List.mem_append.1 hb with hb | hb
    · obtain ⟨c, hc, hnearc⟩ := h.paired b hb rb hrb
      exact ⟨a, hanchor, hold c hc ▸ hnearc⟩
    · rw [List.mem_singleton] at hb
      subst hb
      rw [hratio, Option.some.injEq] at hrb
      subst hrb
      obtain ⟨hfactor, hcount⟩ := factorAfter_eq_one fun event hevent => (h.events_lt hlt event hevent).le
      refine ⟨a, hanchor, ?_⟩
      rw [hfactor, hcount, div_one]
      exact hnear
  · intro b hb
    rw [hanchor, Option.some.injEq] at hb
    exact ⟨r, hlatest, hb ▸ hnear⟩

theorem DriftInv.step (h : DriftInv pre state) (hlt : ∀ b ∈ pre, b.session < bar.session)
    (hstep : deriveStep symbol state bar = .ok state') : DriftInv (pre ++ [bar]) state' := by
  obtain ⟨mid, rfl, hmid⟩ := deriveStep_eq_ok_iff.1 hstep
  rcases hmid with ⟨hnone, rfl⟩ | ⟨r, hratio, hmid⟩
  · -- a session without one of the closes: only the previous close changes
    refine ⟨by simpa using h.dates, ?_, by simpa using h.anchor_pos, ?_, ?_⟩
    · intro event hevent
      rw [after_events] at hevent
      obtain ⟨hone, b, hb, hdate⟩ := h.events event hevent
      exact ⟨hone, b, List.mem_append_left _ hb, hdate⟩
    · intro b hb r hr
      rw [after_events, after_anchor]
      rcases List.mem_append.1 hb with hb | hb
      · exact h.paired b hb r hr
      · rw [List.mem_singleton.1 hb, hnone] at hr
        cases hr
    · rw [after_anchor, after_latestRatio, hnone]
      exact h.latest
  · have hr := ratio_pos hratio
    have hlatest : (mid.after bar).latestRatio = some r := by
      rw [after_latestRatio, hratio]
      rfl
    cases hmid with
    | first hanchor =>
      refine h.paired_step hlt hratio (after_events _ _) (after_anchor _ _) hlatest hr (near_self hr)
        fun b hb => ?_
      rw [hanchor] at hb
      cases hb
    | same hanchor hnear =>
      refine h.paired_step hlt hratio (after_events _ _) ((after_anchor _ _).trans hanchor) hlatest
        (h.anchor_pos _ hanchor) (near_of_abs_le hr hnear) fun b hb => ?_
      rw [hanchor, Option.some.injEq] at hb
      exact hb.symm
    | @split anchor factor close hanchor hfar hsnap hclose hconfirm =>
      obtain ⟨-, hone, herr⟩ := snap_eq_ok_iff.1 hsnap
      have ha := h.anchor_pos _ hanchor
      have hbefore := h.events_lt hlt
      refine ⟨?_, ?_, ?_, ?_, ?_⟩
      · rw [after_events]
        refine List.pairwise_append.2 ⟨h.dates, List.pairwise_singleton _ _, fun e he e' he' => ?_⟩
        rw [List.mem_singleton.1 he']
        exact hbefore e he
      · intro event hevent
        rw [after_events] at hevent
        rcases List.mem_append.1 hevent with hevent | hevent
        · obtain ⟨hone, b, hb, hdate⟩ := h.events event hevent
          exact ⟨hone, b, List.mem_append_left _ hb, hdate⟩
        · rw [List.mem_singleton.1 hevent, factor_num_den]
          exact ⟨hone, bar, by simp, rfl, by rw [hratio]; rfl⟩
      · intro b hb
        rw [after_anchor, Option.some.injEq] at hb
        exact hb ▸ hr
      · intro b hb rb hrb
        refine ⟨r, after_anchor _ _, ?_⟩
        rw [after_events]
        rcases List.mem_append.1 hb with hb | hb
        · obtain ⟨c, hc, hnear⟩ := h.paired b hb rb hrb
          rw [hanchor, Option.some.injEq] at hc
          subst hc
          have hday : b.session < (SplitEvent.mk symbol bar.session factor.num factor.den).exDate := hlt b hb
          obtain ⟨hfactor, hcount⟩ := @after_concat state.events _ _ hday
          rw [hfactor, hcount, factor_num_den, ← div_div]
          exact hnear.split ha hr herr
        · rw [List.mem_singleton] at hb
          subst hb
          rw [hratio, Option.some.injEq] at hrb
          subst hrb
          have hle : ∀ event ∈ state.events ++ [⟨symbol, b.session, factor.num, factor.den⟩], event.exDate ≤ b.session := by
            intro event hevent
            rcases List.mem_append.1 hevent with hevent | hevent
            · exact (hbefore event hevent).le
            · rw [List.mem_singleton.1 hevent]
          obtain ⟨hfactor, hcount⟩ := factorAfter_eq_one hle
          rw [hfactor, hcount, div_one]
          exact near_self hr
      · intro b hb
        rw [after_anchor, Option.some.injEq] at hb
        exact ⟨r, hlatest, hb ▸ near_self hr⟩

theorem driftInv_initial : DriftInv [] DeriveState.initial := ⟨.nil, nofun, nofun, nofun, nofun⟩

theorem session_lt_of_split {post : List SeriesBar} (hsorted : bars.Pairwise fun a b => a.session < b.session)
    (hsplit : bars = pre ++ bar :: post) :
    ∀ b ∈ pre, b.session < bar.session := by
  intro b hb
  rw [hsplit] at hsorted
  exact (List.pairwise_append.1 hsorted).2.2 b hb bar List.mem_cons_self

theorem driftInv_run (hsorted : bars.Pairwise fun a b => a.session < b.session)
    (hrun : bars.foldlM (deriveStep symbol) DeriveState.initial = .ok state) : DriftInv bars state := by
  refine foldlM_inv DriftInv hrun driftInv_initial fun pre bar post state state' hsplit hinv hstep => ?_
  exact hinv.step (session_lt_of_split hsorted hsplit) hstep

theorem anchor_bounds (hnear : Near 1 r a) (hr : |r - 1| ≤ ratioTolerance) :
    (1 - ratioTolerance) ^ 2 ≤ a ∧ a ≤ (1 + ratioTolerance) ^ 2 := by
  obtain ⟨hlo, hhi⟩ := abs_sub_one_le_iff.1 hr
  obtain ⟨h₁, h₂⟩ := hnear
  rw [pow_one, div_le_iff₀ one_add_tolerance_pos] at h₁
  rw [pow_one, le_div_iff₀ one_sub_tolerance_pos] at h₂
  constructor
  · calc (1 - ratioTolerance) ^ 2 = (1 - ratioTolerance) * (1 - ratioTolerance) := sq _
      _ ≤ r * (1 - ratioTolerance) := mul_le_mul_of_nonneg_right hlo one_sub_tolerance_pos.le
      _ ≤ a := h₂
  · calc a ≤ r * (1 + ratioTolerance) := h₁
      _ ≤ (1 + ratioTolerance) * (1 + ratioTolerance) :=
        mul_le_mul_of_nonneg_right hhi one_add_tolerance_pos.le
      _ = (1 + ratioTolerance) ^ 2 := (sq _).symm

/-- The events explain every accepted series: increasing ex-dates at sessions with both closes, no factor of one, and each
session's ratio, less the later events, one up to the tolerances. -/
theorem deriveSplitEvents_sound (symbol : Symbol) (bars : List SeriesBar) (events : List SplitEvent)
    (h : deriveSplitEvents symbol bars = .ok events) :
    (events.Pairwise fun a b => a.exDate < b.exDate) ∧
    (∀ event ∈ events, event.factor ≠ 1 ∧ ∃ bar ∈ bars, bar.session = event.exDate ∧
      ∃ u a, bar.unadjustedClose = some u ∧ bar.splitAdjustedClose = some a ∧ 0 < u ∧ 0 < a) ∧
    ∀ bar ∈ bars, ∀ u a, bar.unadjustedClose = some u → bar.splitAdjustedClose = some a → 0 < u → 0 < a →
      (1 - ratioTolerance) ^ 2 / (1 + ratioTolerance) ^ (countAfter events bar.session + 1) ≤
        u / a / factorAfter events bar.session ∧
      u / a / factorAfter events bar.session ≤
        (1 + ratioTolerance) ^ 2 / (1 - ratioTolerance) ^ (countAfter events bar.session + 1) := by
  obtain ⟨hnodup, state, hrun, -, hlatest, rfl⟩ := deriveSplitEvents_eq_ok_iff.1 h
  have hinv := driftInv_run (strictSorted_sortedBy _ hnodup) hrun
  refine ⟨hinv.dates, ?_, ?_⟩
  · intro event hevent
    obtain ⟨hone, bar, hbar, hdate, hsome⟩ := hinv.events event hevent
    obtain ⟨r, hr⟩ := Option.isSome_iff_exists.1 hsome
    obtain ⟨u, a, hu, ha, hupos, hapos, -⟩ := ratio_eq_some_iff.1 hr
    rw [mem_sortedBy] at hbar
    exact ⟨hone, bar, hbar, hdate, u, a, hu, ha, hupos, hapos⟩
  · intro bar hbar u a hu ha hupos hapos
    have hratio : bar.ratio = some (u / a) := ratio_eq_some_iff.2 ⟨u, a, hu, ha, hupos, hapos, rfl⟩
    obtain ⟨c, hc, hlo, hhi⟩ := hinv.paired bar ((mem_sortedBy _).2 hbar) _ hratio
    obtain ⟨r, hr, hnear⟩ := hinv.latest c hc
    obtain ⟨hc₁, hc₂⟩ := anchor_bounds hnear (checkLatest_eq_ok_iff.1 hlatest r hr)
    -- close the band around the anchor with the bounds of the anchor
    constructor
    · exact (div_le_div_of_nonneg_right hc₁ (pow_pos one_add_tolerance_pos _).le).trans hlo
    · exact hhi.trans (div_le_div_of_nonneg_right hc₂ (pow_pos one_sub_tolerance_pos _).le)

def sampleSeries : List SeriesBar :=
  [⟨3, some 51, some 50, some 50⟩, ⟨1, some 99, some 100, some 50⟩, ⟨2, some 100, some 102, none⟩]

theorem deriveSplitEvents_sound_sample : deriveSplitEvents "AAA" sampleSeries = .ok [⟨"AAA", 3, 2, 1⟩] ∧
      (100 : ℚ) / 50 / factorAfter [⟨"AAA", 3, 2, 1⟩] 1 ≤
        (1 + ratioTolerance) ^ 2 / (1 - ratioTolerance) ^ (countAfter [⟨"AAA", 3, 2, 1⟩] 1 + 1) := by
  have hrun : deriveSplitEvents "AAA" sampleSeries = .ok [⟨"AAA", 3, 2, 1⟩] := by decide +kernel
  have hsound := (deriveSplitEvents_sound "AAA" sampleSeries _ hrun).2.2 ⟨1, some 99, some 100, some 50⟩
    (by decide +kernel) 100 50 rfl rfl (by norm_num) (by norm_num)
  exact ⟨hrun, hsound.2⟩

end TrueAlpha.Backtest
