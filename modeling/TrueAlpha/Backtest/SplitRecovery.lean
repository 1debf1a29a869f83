import TrueAlpha.Backtest.SplitDerivation
import Mathlib.Analysis.SpecialFunctions.Log.Basic

/-!
# The derivation of splits recovers the true splits

On a series that is adjusted for a list of simple splits and confirms each of them, `deriveSplitEvents` returns exactly these
(`deriveSplitEvents_complete`): after each bar the anchor is the product of the factors after the last session with both closes.
-/

namespace TrueAlpha.Backtest

variable {x : ℚ}

theorem log_logSize (hx : 0 < x) : Real.log (logSize x : ℚ) = |Real.log x| := by
  have hpos : (0 : ℝ) < x := by exact_mod_cast hx
  have hinv : Real.log (x⁻¹ : ℚ) = -Real.log x := by
    rw [Rat.cast_inv, Real.log_inv]
  rw [logSize]
  rcases le_total x⁻¹ x with h | h
  · have hle : Real.log (x⁻¹ : ℚ) ≤ Real.log x :=
      Real.log_le_log (by exact_mod_cast inv_pos.2 hx) (by exact_mod_cast h)
    rw [max_eq_left h, abs_of_nonneg (by linarith)]
  · have hle : Real.log x ≤ Real.log (x⁻¹ : ℚ) := Real.log_le_log hpos (by exact_mod_cast h)
    rw [max_eq_right h, abs_of_nonpos (by linarith), hinv]

theorem logSize_pos (hx : 0 < x) : 0 < logSize x := lt_of_lt_of_le hx (le_max_left _ _)

theorem logSize_sq_lt_iff {f : ℚ} (hx : 0 < x) (hf : 0 < f) : logSize x ^ 2 < logSize f ↔ |Real.log x| < |Real.log f| / 2 := by
  have hxs : (0 : ℝ) < (logSize x ^ 2 : ℚ) := by exact_mod_cast pow_pos (logSize_pos hx) 2
  have hfs : (0 : ℝ) < (logSize f : ℚ) := by exact_mod_cast logSize_pos hf
  have hlog : logSize x ^ 2 < logSize f ↔ Real.log (logSize x ^ 2 : ℚ) < Real.log (logSize f : ℚ) := by
    rw [Real.log_lt_log_iff hxs hfs, Rat.cast_lt]
  rw [hlog, Rat.cast_pow, Real.log_pow, log_logSize hx, log_logSize hf, lt_div_iff₀ two_pos, mul_comm]
  norm_num

structure SplitEvent.Simple (split : SplitEvent) : Prop where
  numerator_pos : 0 < split.numerator
  denominator_pos : 0 < split.denominator
  coprime : split.numerator.natAbs.Coprime split.denominator.natAbs
  factor_far : ratioTolerance < |split.factor - 1|
  denominator_le : 1 < split.factor → split.denominator ≤ maxFactorDenominator
  numerator_le : split.factor < 1 → split.numerator ≤ maxFactorDenominator

def SeriesBar.Paired (bar : SeriesBar) : Prop := bar.ratio.isSome

def SeriesBar.Quoted (bar : SeriesBar) : Prop := (positive bar.unadjustedClose).isSome

instance : DecidablePred SeriesBar.Paired := fun bar => inferInstanceAs (Decidable (bar.ratio.isSome = true))

instance : DecidablePred SeriesBar.Quoted :=
  fun bar => inferInstanceAs (Decidable ((positive bar.unadjustedClose).isSome = true))

def PreviousClose (bars : List SeriesBar) (day : Date) (close : ℚ) : Prop :=
  ∃ prior ∈ bars, positive prior.unadjustedClose = some close ∧ prior.session < day ∧
    ∀ bar ∈ bars, bar.Quoted → bar.session < day → bar.session ≤ prior.session

/-- The bars are the unadjusted series and the series adjusted for `splits`; the unadjusted series confirms each split. -/
structure Recoverable (symbol : Symbol) (splits : List SplitEvent) (bars : List SeriesBar) : Prop where
  symbols : ∀ split ∈ splits, split.symbol = symbol
  exDates : (splits.map SplitEvent.exDate).Nodup
  simple : ∀ split ∈ splits, split.Simple
  sessions : (bars.map SeriesBar.session).Nodup
  adjusted : ∀ bar ∈ bars, ∀ u, positive bar.unadjustedClose = some u →
    ∀ a, positive bar.splitAdjustedClose = some a → a = u / factorAfter splits bar.session
  span : ∀ bar ∈ bars, bar.Quoted → ∃ first ∈ bars, ∃ last ∈ bars, first.Paired ∧ last.Paired ∧
    first.session ≤ bar.session ∧ bar.session ≤ last.session
  paired : ∀ split ∈ splits, ∃ bar ∈ bars, bar.Paired ∧ bar.session = split.exDate
  notFirst : ∀ split ∈ splits, ∃ bar ∈ bars, bar.Paired ∧ bar.session < split.exDate
  confirmed : ∀ split ∈ splits, ∀ bar ∈ bars, bar.session = split.exDate →
    ∀ close first, PreviousClose bars bar.session close → bar.firstPrice = some first →
      |Real.log (first * split.factor / close : ℚ)| < |Real.log split.factor| / 2

variable {splits : List SplitEvent} {symbol : Symbol}

theorem Recoverable.sorted {bars : List SeriesBar}
    (h : Recoverable symbol splits bars) : Recoverable symbol splits (sortedBy SeriesBar.session bars) where
  symbols := h.symbols
  exDates := h.exDates
  simple := h.simple
  sessions := ((perm_sortedBy _ _).map _).nodup_iff.2 h.sessions
  adjusted := by simpa using h.adjusted
  span := by simpa using h.span
  paired := by simpa using h.paired
  notFirst := by simpa using h.notFirst
  confirmed := by simpa [PreviousClose] using h.confirmed

section Simple

variable {split : SplitEvent} (h : split.Simple)

include h

theorem SplitEvent.Simple.factor_num : split.factor.num = split.numerator := Rat.num_div_eq_of_coprime h.denominator_pos h.coprime

theorem SplitEvent.Simple.factor_den : (split.factor.den : ℤ) = split.denominator :=
  Rat.den_div_eq_of_coprime h.denominator_pos h.coprime

theorem SplitEvent.Simple.factor_pos : 0 < split.factor :=
  div_pos (by exact_mod_cast h.numerator_pos) (by exact_mod_cast h.denominator_pos)

theorem SplitEvent.Simple.factor_ne_one : split.factor ≠ 1 := by
  intro hone
  have hfar := h.factor_far
  rw [hone, sub_self, abs_zero] at hfar
  exact absurd hfar (by decide +kernel)

theorem SplitEvent.Simple.inverse_den : ((1 / split.factor).den : ℤ) = split.numerator := by
  rw [SplitEvent.factor, one_div_div]
  exact Rat.den_div_eq_of_coprime h.numerator_pos h.coprime.symm

theorem SplitEvent.Simple.nearestRatio_eq : nearestRatio split.factor = .ok split.factor := by
  have hpos := h.factor_pos
  unfold nearestRatio
  by_cases hge : 1 ≤ split.factor
  · have hle := h.denominator_le (lt_of_le_of_ne hge h.factor_ne_one.symm)
    rw [← h.factor_den, Int.ofNat_le] at hle
    rw [if_pos hge, limitDenominator, if_pos hle]
  · have hle := h.numerator_le (not_le.1 hge)
    rw [← h.inverse_den, Int.ofNat_le] at hle
    rw [if_neg hge, reciprocal, if_neg hpos.ne', ok_bind, limitDenominator, if_pos hle, reciprocal,
      if_neg (one_div_pos.2 hpos).ne', one_div_one_div]

theorem SplitEvent.Simple.snap_eq (symbol : Symbol) (session : Date) : snap symbol session split.factor = .ok split.factor := by
  refine snap_eq_ok_iff.2 ⟨h.nearestRatio_eq, h.factor_ne_one, ?_⟩
  rw [div_self h.factor_pos.ne', sub_self, abs_zero]
  decide +kernel

end Simple

variable {bar : SeriesBar}

theorem confirm_eq_ok_iff {session : Date} {factor close : ℚ} : confirm symbol session factor close bar = .ok () ↔
      ∃ first, bar.firstPrice = some first ∧ logSize (first * factor / close) ^ 2 < logSize factor := by
  unfold confirm
  rcases bar.firstPrice with _ | first
  · simp
  · simp

def firstWith (P : SeriesBar → Prop) [DecidablePred P] (bars : List SeriesBar) : Option SeriesBar := bars.find? fun bar => P bar

def lastWith (P : SeriesBar → Prop) [DecidablePred P] (bars : List SeriesBar) : Option SeriesBar :=
  bars.reverse.find? fun bar => P bar

section FirstLast

variable {P : SeriesBar → Prop} [DecidablePred P] {bars : List SeriesBar} {bar : SeriesBar}

theorem firstWith_concat_of (h : P bar) : firstWith P (bars ++ [bar]) = (firstWith P bars).or (some bar) := by
  simp [firstWith, h]

theorem firstWith_concat_of_not (h : ¬ P bar) : firstWith P (bars ++ [bar]) = firstWith P bars := by
  simp [firstWith, h]

theorem lastWith_concat_of (h : P bar) : lastWith P (bars ++ [bar]) = some bar := by
  simp [lastWith, h]

theorem lastWith_concat_of_not (h : ¬ P bar) : lastWith P (bars ++ [bar]) = lastWith P bars := by
  simp [lastWith, h]

theorem lastWith_eq_none (h : lastWith P bars = none) : ∀ b ∈ bars, ¬ P b := by
  simpa [lastWith] using h

theorem firstWith_eq_none (h : firstWith P bars = none) : ∀ b ∈ bars, ¬ P b := by
  simpa [firstWith] using h

theorem firstWith_eq_some (hsorted : bars.Pairwise fun a b => a.session < b.session) (h : firstWith P bars = some bar) :
    bar ∈ bars ∧ P bar ∧ ∀ b ∈ bars, P b → bar.session ≤ b.session := by
  obtain ⟨hP, before, after, rfl, hbefore⟩ := List.find?_eq_some_iff_append.1 h
  refine ⟨by simp, by simpa using hP, fun b hb hPb => ?_⟩
  rcases List.mem_append.1 hb with hb | hb
  · exact absurd hPb (by simpa using hbefore b hb)
  · rcases List.mem_cons.1 hb with rfl | hb
    · exact le_rfl
    · exact ((List.pairwise_cons.1 (List.pairwise_append.1 hsorted).2.1).1 b hb).le

theorem lastWith_eq_some (hsorted : bars.Pairwise fun a b => a.session < b.session) (h : lastWith P bars = some bar) :
    bar ∈ bars ∧ P bar ∧ ∀ b ∈ bars, P b → b.session ≤ bar.session := by
  obtain ⟨hP, before, after, hsplit, hbefore⟩ := List.find?_eq_some_iff_append.1 h
  rw [← List.pairwise_reverse, hsplit] at hsorted
  refine ⟨List.mem_reverse.1 (by rw [hsplit]; simp), by simpa using hP, fun b hb hPb => ?_⟩
  rw [← List.mem_reverse, hsplit] at hb
  rcases List.mem_append.1 hb with hb | hb
  · exact absurd hPb (by simpa using hbefore b hb)
  · rcases List.mem_cons.1 hb with rfl | hb
    · exact le_rfl
    · exact ((List.pairwise_cons.1 (List.pairwise_append.1 hsorted).2.1).1 b hb).le

end FirstLast

/-! ## The loop -/

def splitsUpTo (splits : List SplitEvent) (last : Option SeriesBar) : List SplitEvent :=
  (sortedBy SplitEvent.exDate splits).filter fun split => last.any fun bar => split.exDate ≤ bar.session

theorem splitsUpTo_none (splits : List SplitEvent) : splitsUpTo splits none = [] := by
  simp [splitsUpTo]

theorem mem_splitsUpTo {split : SplitEvent} :
    split ∈ splitsUpTo splits (some bar) ↔ split ∈ splits ∧ split.exDate ≤ bar.session := by
  simp [splitsUpTo]

/-- What the loop keeps, after the bars `pre`. -/
structure RecoverInv (splits : List SplitEvent) (pre : List SeriesBar) (state : DeriveState) : Prop where
  firstPaired : state.firstPaired = (firstWith SeriesBar.Paired pre).map SeriesBar.session
  lastPaired : state.lastPaired = (lastWith SeriesBar.Paired pre).map SeriesBar.session
  latestRatio : state.latestRatio = (lastWith SeriesBar.Paired pre).map fun bar => factorAfter splits bar.session
  anchor : state.anchor = (lastWith SeriesBar.Paired pre).map fun bar => factorAfter splits bar.session
  events : state.events = splitsUpTo splits (lastWith SeriesBar.Paired pre)
  previousClose : state.previousClose = (lastWith SeriesBar.Quoted pre).bind fun bar => positive bar.unadjustedClose

theorem recoverInv_initial (splits : List SplitEvent) : RecoverInv splits [] DeriveState.initial := by
  refine ⟨rfl, rfl, rfl, rfl, ?_, rfl⟩
  exact (splitsUpTo_none splits).symm

theorem previousClose_after (bars : List SeriesBar) (bar : SeriesBar) :
    (positive bar.unadjustedClose).or ((lastWith SeriesBar.Quoted bars).bind fun b =>
        positive b.unadjustedClose) =
      (lastWith SeriesBar.Quoted (bars ++ [bar])).bind fun b => positive b.unadjustedClose := by
  rcases hclose : positive bar.unadjustedClose with _ | close
  · have hnot : ¬ bar.Quoted := by simp [SeriesBar.Quoted, hclose]
    rw [lastWith_concat_of_not hnot, Option.none_or]
  · have hquoted : bar.Quoted := by simp [SeriesBar.Quoted, hclose]
    rw [lastWith_concat_of hquoted, Option.bind_some, hclose, Option.some_or]

variable {state : DeriveState}

theorem RecoverInv.skip {pre : List SeriesBar} (h : RecoverInv splits pre state) (hnone : bar.ratio = none) :
    RecoverInv splits (pre ++ [bar]) (state.after bar) := by
  have hnot : ¬ bar.Paired := by simp [SeriesBar.Paired, hnone]
  have hafter : state.after bar = { state with previousClose := (positive bar.unadjustedClose).or state.previousClose } := by
    rw [DeriveState.after, hnone]
  rw [hafter]
  constructor
  · rw [firstWith_concat_of_not hnot]
    exact h.firstPaired
  · rw [lastWith_concat_of_not hnot]
    exact h.lastPaired
  · rw [lastWith_concat_of_not hnot]
    exact h.latestRatio
  · rw [lastWith_concat_of_not hnot]
    exact h.anchor
  · rw [lastWith_concat_of_not hnot]
    exact h.events
  · rw [← previousClose_after, ← h.previousClose]

theorem RecoverInv.pair {pre : List SeriesBar} {mid : DeriveState}
    (h : RecoverInv splits pre state) (hratio : bar.ratio = some (factorAfter splits bar.session))
    (hanchor : mid.anchor = some (factorAfter splits bar.session))
    (hevents : mid.events = splitsUpTo splits (some bar)) (hfirst : mid.firstPaired = state.firstPaired)
    (hclose : mid.previousClose = state.previousClose) :
    RecoverInv splits (pre ++ [bar]) (mid.after bar) := by
  have hpaired : bar.Paired := by simp [SeriesBar.Paired, hratio]
  have hafter : mid.after bar = { mid with
      latestRatio := some (factorAfter splits bar.session)
      previousClose := (positive bar.unadjustedClose).or mid.previousClose
      firstPaired := mid.firstPaired.or (some bar.session)
      lastPaired := some bar.session } := by
    rw [DeriveState.after, hratio]
  rw [hafter]
  constructor
  · rw [firstWith_concat_of hpaired]
    dsimp only
    rw [hfirst, h.firstPaired]
    cases firstWith SeriesBar.Paired pre <;> rfl
  · rw [lastWith_concat_of hpaired]
    rfl
  · rw [lastWith_concat_of hpaired]
    rfl
  · rw [lastWith_concat_of hpaired]
    exact hanchor
  · rw [lastWith_concat_of hpaired]
    exact hevents
  · dsimp only
    rw [hclose, h.previousClose, previousClose_after]

theorem strictSorted_splitsUpTo (h : (splits.map SplitEvent.exDate).Nodup) (last : Option SeriesBar) :
    (splitsUpTo splits last).Pairwise fun a b => a.exDate < b.exDate :=
  (strictSorted_sortedBy _ h).filter _

theorem SeriesBar.quoted_of_ratio {r : ℚ} (h : bar.ratio = some r) : bar.Quoted := by
  obtain ⟨u, -, hu, -, hupos, -⟩ := ratio_eq_some_iff.1 h
  exact Option.isSome_iff_exists.2 ⟨u, positive_eq_some_iff.2 ⟨hu, hupos⟩⟩

theorem exists_firstPrice (h : bar.Quoted) : ∃ first, bar.firstPrice = some first ∧ 0 < first := by
  obtain ⟨close, hclose⟩ := Option.isSome_iff_exists.1 h
  rcases hopen : positive bar.unadjustedOpen with _ | price
  · exact ⟨close, by rw [SeriesBar.firstPrice, hopen, hclose]; rfl, (positive_eq_some_iff.1 hclose).2⟩
  · exact ⟨price, by rw [SeriesBar.firstPrice, hopen]; rfl, (positive_eq_some_iff.1 hopen).2⟩

section Step

variable {symbol : Symbol} {splits : List SplitEvent} {bars pre post : List SeriesBar}
  {bar last : SeriesBar} (h : Recoverable symbol splits bars)
  (hsorted : bars.Pairwise fun a b => a.session < b.session) (hbars : bars = pre ++ bar :: post)

include h in
theorem Recoverable.ratio_eq {r : ℚ} (hbar : bar ∈ bars) (hr : bar.ratio = some r) : r = factorAfter splits bar.session := by
  obtain ⟨u, a, hu, ha, hupos, hapos, rfl⟩ := ratio_eq_some_iff.1 hr
  have hadjusted := h.adjusted bar hbar u (positive_eq_some_iff.2 ⟨hu, hupos⟩) a
    (positive_eq_some_iff.2 ⟨ha, hapos⟩)
  rw [hadjusted, div_div_cancel₀ hupos.ne']

include hsorted hbars

theorem mem_pre_of_lt {b : SeriesBar} (hb : b ∈ bars) (hlt : b.session < bar.session) : b ∈ pre := by
  rw [hbars] at hb hsorted
  rcases List.mem_append.1 hb with hb | hb
  · exact hb
  · rcases List.mem_cons.1 hb with rfl | hb
    · exact absurd hlt (lt_irrefl _)
    · exact absurd hlt (lt_asymm ((List.pairwise_cons.1 (List.pairwise_append.1 hsorted).2.1).1 b hb))

theorem strictSorted_pre : pre.Pairwise fun a b => a.session < b.session := by
  rw [hbars] at hsorted
  exact (List.pairwise_append.1 hsorted).1

variable (hlast : lastWith SeriesBar.Paired pre = some last)

include hlast

theorem last_lt : last.session < bar.session := session_lt_of_split hsorted hbars last
    (lastWith_eq_some (strictSorted_pre hsorted hbars) hlast).1

theorem exists_previousClose {state : DeriveState} (hinv : RecoverInv splits pre state) :
    ∃ close, state.previousClose = some close ∧ 0 < close ∧ PreviousClose bars bar.session close := by
  have hpre := strictSorted_pre hsorted hbars
  obtain ⟨r, hr⟩ := Option.isSome_iff_exists.1 (lastWith_eq_some hpre hlast).2.1
  have hquoted := SeriesBar.quoted_of_ratio hr
  rcases hprior : lastWith SeriesBar.Quoted pre with _ | prior
  · exact absurd hquoted (lastWith_eq_none hprior last (lastWith_eq_some hpre hlast).1)
  · obtain ⟨hmem, hsome, hmax⟩ := lastWith_eq_some hpre hprior
    obtain ⟨close, hclose⟩ := Option.isSome_iff_exists.1 hsome
    refine ⟨close, ?_, (positive_eq_some_iff.1 hclose).2, prior, ?_, hclose, ?_, ?_⟩
    · rw [hinv.previousClose, hprior, Option.bind_some, hclose]
    · rw [hbars]
      exact List.mem_append_left _ hmem
    · exact session_lt_of_split hsorted hbars prior hmem
    · intro b hb hquoted hlt
      exact hmax b (mem_pre_of_lt hsorted hbars hb hlt) hquoted

include h

variable {split : SplitEvent}

theorem Recoverable.exDate_le_iff (hsplit : split ∈ splits) :
    split.exDate ≤ bar.session ↔ split.exDate ≤ last.session ∨ split.exDate = bar.session := by
  constructor
  · intro hle
    obtain ⟨b, hb, hpaired, hdate⟩ := h.paired split hsplit
    rcases lt_or_eq_of_le hle with hlt | heq
    · rw [← hdate] at hlt ⊢
      have hpre := mem_pre_of_lt hsorted hbars hb hlt
      exact .inl ((lastWith_eq_some (strictSorted_pre hsorted hbars) hlast).2.2 b hpre hpaired)
    · exact .inr heq
  · intro hor
    rcases hor with hle | heq
    · exact hle.trans (last_lt hsorted hbars hlast).le
    · exact heq.le

theorem Recoverable.splitsUpTo_split (hsplit : split ∈ splits) (hdate : split.exDate = bar.session) :
    splitsUpTo splits (some bar) = splitsUpTo splits (some last) ++ [split] := by
  refine eq_of_strictSorted_key SplitEvent.exDate (strictSorted_splitsUpTo h.exDates _) ?_ fun s => ?_
  · refine List.pairwise_append.2 ⟨strictSorted_splitsUpTo h.exDates _, List.pairwise_singleton _ _, fun a ha b hb => ?_⟩
    rw [List.mem_singleton.1 hb, hdate]
    exact lt_of_le_of_lt (mem_splitsUpTo.1 ha).2 (last_lt hsorted hbars hlast)
  · rw [List.mem_append, List.mem_singleton, mem_splitsUpTo, mem_splitsUpTo]
    constructor
    · intro ⟨hs, hle⟩
      rcases (h.exDate_le_iff hsorted hbars hlast hs).1 hle with hle | heq
      · exact .inl ⟨hs, hle⟩
      · exact .inr (List.inj_on_of_nodup_map h.exDates hs hsplit (heq.trans hdate.symm))
    · intro hor
      rcases hor with ⟨hs, hle⟩ | rfl
      · exact ⟨hs, hle.trans (last_lt hsorted hbars hlast).le⟩
      · exact ⟨hsplit, hdate.le⟩

theorem Recoverable.factorAfter_split (hsplit : split ∈ splits) (hdate : split.exDate = bar.session) :
    factorAfter splits last.session = split.factor * factorAfter splits bar.session := by
  have hnodup : splits.Nodup := List.Nodup.of_map _ h.exDates
  have hlt := last_lt hsorted hbars hlast
  have hperm : (splits.filter fun s => last.session < s.exDate).Perm
      (split :: splits.filter fun s => bar.session < s.exDate) := by
    refine (List.perm_ext_iff_of_nodup (hnodup.filter _) ?_).2 fun s => ?_
    · refine List.nodup_cons.2 ⟨?_, hnodup.filter _⟩
      intro hmem
      have hlt' : bar.session < split.exDate := by simpa using (List.mem_filter.1 hmem).2
      exact absurd hdate.symm hlt'.ne
    · rw [List.mem_cons, List.mem_filter, List.mem_filter, decide_eq_true_eq, decide_eq_true_eq]
      constructor
      · intro ⟨hs, hafter⟩
        rcases lt_or_ge bar.session s.exDate with hs' | hs'
        · exact .inr ⟨hs, hs'⟩
        · rcases (h.exDate_le_iff hsorted hbars hlast hs).1 hs' with hle | heq
          · exact absurd hafter (not_lt.2 hle)
          · exact .inl (List.inj_on_of_nodup_map h.exDates hs hsplit (heq.trans hdate.symm))
      · intro hor
        rcases hor with rfl | ⟨hs, hafter⟩
        · exact ⟨hsplit, hdate ▸ hlt⟩
        · exact ⟨hs, hlt.trans hafter⟩
  rw [factorAfter, (hperm.map SplitEvent.factor).prod_eq, List.map_cons, List.prod_cons]
  rfl

theorem Recoverable.splitsUpTo_same (hnone : ∀ split ∈ splits, split.exDate ≠ bar.session) :
    splitsUpTo splits (some bar) = splitsUpTo splits (some last) ∧
      factorAfter splits last.session = factorAfter splits bar.session := by
  have hiff : ∀ s ∈ splits, s.exDate ≤ bar.session ↔ s.exDate ≤ last.session := fun s hs =>
    (h.exDate_le_iff hsorted hbars hlast hs).trans (or_iff_left (hnone s hs))
  constructor
  · refine List.filter_congr fun s hs => ?_
    simpa using hiff s ((mem_sortedBy _).1 hs)
  · rw [factorAfter, factorAfter, List.filter_congr fun s hs => ?_]
    simpa using not_congr (hiff s hs).symm

end Step

theorem RecoverInv.step {bars pre post : List SeriesBar} (h : Recoverable symbol splits bars) (hsorted : bars.Pairwise fun a b => a.session < b.session)
    (hbars : bars = pre ++ bar :: post) (hinv : RecoverInv splits pre state) :
    ∃ state', deriveStep symbol state bar = .ok state' ∧ RecoverInv splits (pre ++ [bar]) state' := by
  have hbar : bar ∈ bars := by rw [hbars]; simp
  rcases hratio : bar.ratio with _ | r
  · exact ⟨state.after bar, deriveStep_eq_ok_iff.2 ⟨state, rfl, .inl ⟨hratio, rfl⟩⟩, hinv.skip hratio⟩
  obtain rfl := h.ratio_eq hbar hratio
  -- it is enough to give the branch of the anchor, and the anchor and the events it leads to
  suffices hmid : ∃ mid, AnchorStep symbol state bar (factorAfter splits bar.session) mid ∧
      mid.anchor = some (factorAfter splits bar.session) ∧ mid.events = splitsUpTo splits (some bar) ∧
      mid.firstPaired = state.firstPaired ∧ mid.previousClose = state.previousClose by
    obtain ⟨mid, hstep, hanchor, hevents, hfirst, hclose⟩ := hmid
    refine ⟨mid.after bar, deriveStep_eq_ok_iff.2 ⟨mid, rfl, .inr ⟨_, hratio, hstep⟩⟩, ?_⟩
    exact hinv.pair hratio hanchor hevents hfirst hclose
  rcases hlast : lastWith SeriesBar.Paired pre with _ | last
  · have hanchor : state.anchor = none := by rw [hinv.anchor, hlast]; rfl
    refine ⟨_, .first hanchor, rfl, ?_, rfl, rfl⟩
    -- an ex-date is not the first session with both closes
    have hnil : splitsUpTo splits (some bar) = [] := by
      refine List.eq_nil_iff_forall_not_mem.2 fun split hsplit => ?_
      obtain ⟨hmem, hle⟩ := mem_splitsUpTo.1 hsplit
      obtain ⟨b, hb, hpaired, hlt⟩ := h.notFirst split hmem
      exact lastWith_eq_none hlast b (mem_pre_of_lt hsorted hbars hb (lt_of_lt_of_le hlt hle)) hpaired
    rw [hnil, ← splitsUpTo_none splits, ← hlast]
    exact hinv.events
  · have hanchor : state.anchor = some (factorAfter splits last.session) := by
      rw [hinv.anchor, hlast]
      rfl
    have hevents : state.events = splitsUpTo splits (some last) := by rw [hinv.events, hlast]
    have hpos := ratio_pos hratio
    by_cases hsplit : ∃ split ∈ splits, split.exDate = bar.session
    · obtain ⟨split, hmem, hdate⟩ := hsplit
      have hsimple := h.simple split hmem
      have hstep : factorAfter splits last.session / factorAfter splits bar.session = split.factor := by
        rw [h.factorAfter_split hsorted hbars hlast hmem hdate, mul_div_cancel_right₀ _ hpos.ne']
      obtain ⟨close, hclose, hclosepos, hprevious⟩ := exists_previousClose hsorted hbars hlast hinv
      obtain ⟨first, hfirst, hfirstpos⟩ := exists_firstPrice (SeriesBar.quoted_of_ratio hratio)
      have hconfirm : confirm symbol bar.session split.factor close bar = .ok () := by
        refine confirm_eq_ok_iff.2 ⟨first, hfirst, ?_⟩
        have hmove : 0 < first * split.factor / close := div_pos (mul_pos hfirstpos hsimple.factor_pos) hclosepos
        rw [logSize_sq_lt_iff hmove hsimple.factor_pos]
        exact h.confirmed split hmem bar hbar hdate.symm close first hprevious hfirst
      have hevent : (⟨symbol, bar.session, split.factor.num, split.factor.den⟩ : SplitEvent) = split := by
        rw [hsimple.factor_num, hsimple.factor_den, ← h.symbols split hmem, ← hdate]
      refine ⟨_, .split hanchor (hstep.symm ▸ hsimple.factor_far) (hstep.symm ▸ hsimple.snap_eq _ _) hclose
        hconfirm, rfl, ?_, rfl, rfl⟩
      rw [h.splitsUpTo_split hsorted hbars hlast hmem hdate, hevents, hevent]
    · obtain ⟨hsame, hfactor⟩ := h.splitsUpTo_same hsorted hbars hlast fun s hs hdate => hsplit ⟨s, hs, hdate⟩
      refine ⟨state, .same hanchor ?_, hanchor.trans (congrArg some hfactor), hevents.trans hsame.symm, rfl, rfl⟩
      rw [hfactor, div_self hpos.ne', sub_self, abs_zero]
      decide +kernel

theorem checkSpan_eq_ok {unadjusted : List Date} {firstPaired lastPaired : Option Date}
    (h : ∀ day ∈ unadjusted, ∃ first last, firstPaired = some first ∧ lastPaired = some last ∧ first ≤ day ∧ day ≤ last) :
    checkSpan symbol unadjusted firstPaired lastPaired = .ok () := by
  unfold checkSpan
  rcases hstart : unadjusted.head? with _ | start
  · rfl
  rcases hfinish : unadjusted.getLast? with _ | finish
  · rfl
  obtain ⟨first, last, hfirst, hlast, hle, -⟩ := h start (List.mem_of_head? hstart)
  obtain ⟨first', last', hfirst', hlast', -, hle'⟩ := h finish (List.mem_of_getLast? hfinish)
  rw [hlast, Option.some.injEq] at hlast'
  subst hlast'
  rw [hfirst, hlast]
  exact if_neg (not_or.2 ⟨not_lt.2 hle, not_lt.2 hle'⟩)

/-- Exactly the true splits are returned, oldest first. -/
theorem deriveSplitEvents_complete (symbol : Symbol) (splits : List SplitEvent) (bars : List SeriesBar)
    (h : Recoverable symbol splits bars) :
    deriveSplitEvents symbol bars = .ok (sortedBy SplitEvent.exDate splits) := by
  have hsorted := strictSorted_sortedBy SeriesBar.session h.sessions
  have hordered := h.sorted
  obtain ⟨state, hrun, hinv⟩ := foldlM_total (RecoverInv splits) (sortedBy SeriesBar.session bars)
    (recoverInv_initial splits) fun pre bar post state hbars hinv => hinv.step hordered hsorted hbars
  refine deriveSplitEvents_eq_ok_iff.2 ⟨h.sessions, state, hrun, checkSpan_eq_ok ?_, checkLatest_eq_ok_iff.2 ?_, ?_⟩
  · intro day hday
    obtain ⟨bar, hbar, rfl⟩ := List.mem_map.1 hday
    obtain ⟨hmem, hquoted⟩ := List.mem_filter.1 hbar
    obtain ⟨first, hfirst, last, hlast, hfirstPaired, hlastPaired, hle, hle'⟩ := hordered.span bar hmem hquoted
    rcases hfst : firstWith SeriesBar.Paired (sortedBy SeriesBar.session bars) with _ | fst
    · exact absurd hfirstPaired (firstWith_eq_none hfst first hfirst)
    rcases hlst : lastWith SeriesBar.Paired (sortedBy SeriesBar.session bars) with _ | lst
    · exact absurd hlastPaired (lastWith_eq_none hlst last hlast)
    refine ⟨fst.session, lst.session, by rw [hinv.firstPaired, hfst]; rfl,
      by rw [hinv.lastPaired, hlst]; rfl, ?_, ?_⟩
    · exact ((firstWith_eq_some hsorted hfst).2.2 first hfirst hfirstPaired).trans hle
    · exact hle'.trans ((lastWith_eq_some hsorted hlst).2.2 last hlast hlastPaired)
  · intro r hr
    rw [hinv.latestRatio, Option.map_eq_some_iff] at hr
    obtain ⟨last, hlast, rfl⟩ := hr
    have hle : ∀ split ∈ splits, split.exDate ≤ last.session := by
      intro split hsplit
      obtain ⟨bar, hbar, hpaired, hdate⟩ := hordered.paired split hsplit
      exact hdate ▸ (lastWith_eq_some hsorted hlast).2.2 bar hbar hpaired
    rw [(factorAfter_eq_one hle).1, sub_self, abs_zero]
    decide +kernel
  · rw [hinv.events, splitsUpTo]
    refine (List.filter_eq_self.2 fun split hsplit => ?_).symm
    obtain ⟨bar, hbar, hpaired, hdate⟩ := hordered.paired split ((mem_sortedBy _).1 hsplit)
    rcases hlast : lastWith SeriesBar.Paired (sortedBy SeriesBar.session bars) with _ | last
    · exact absurd hpaired (lastWith_eq_none hlast bar hbar)
    · have hle := (lastWith_eq_some hsorted hlast).2.2 bar hbar hpaired
      simpa [hdate] using hle

theorem sampleSeries_recoverable : Recoverable "AAA" [⟨"AAA", 3, 2, 1⟩] sampleSeries where
  symbols := by decide +kernel
  exDates := by decide +kernel
  simple := by
    intro split hsplit
    rw [List.mem_singleton.1 hsplit]
    exact ⟨by decide, by decide, by decide, by decide +kernel, by decide +kernel, by decide +kernel⟩
  sessions := by decide +kernel
  adjusted := by decide +kernel
  span := by decide +kernel
  paired := by decide +kernel
  notFirst := by decide +kernel
  confirmed := by
    intro split hsplit bar hbar hdate close first hclose hfirst
    rw [List.mem_singleton.1 hsplit] at hdate ⊢
    have hprices : bar.firstPrice = some 51 ∧ close = 102 := by
      obtain ⟨prior, hprior, hpositive, hlt, hmax⟩ := hclose
      rw [hdate] at hlt hmax
      have hlatest := hmax ⟨2, some 100, some 102, none⟩ (by decide +kernel) (by decide +kernel) (by decide)
      have hcases : ∀ bar ∈ sampleSeries, bar.session = 3 → bar.firstPrice = some 51 := by decide +kernel
      have hpriors : ∀ prior ∈ sampleSeries, prior.session < 3 → 2 ≤ prior.session →
          positive prior.unadjustedClose = some 102 := by decide +kernel
      refine ⟨hcases bar hbar hdate, ?_⟩
      rw [hpriors prior hprior hlt hlatest, Option.some.injEq] at hpositive
      exact hpositive.symm
    obtain ⟨hprice, rfl⟩ := hprices
    rw [hprice, Option.some.injEq] at hfirst
    subst hfirst
    rw [← logSize_sq_lt_iff (by decide +kernel) (by decide +kernel)]
    decide +kernel

theorem deriveSplitEvents_complete_sample : Recoverable "AAA" [⟨"AAA", 3, 2, 1⟩] sampleSeries ∧
      deriveSplitEvents "AAA" sampleSeries = .ok (sortedBy SplitEvent.exDate [⟨"AAA", 3, 2, 1⟩]) :=
  ⟨sampleSeries_recoverable, deriveSplitEvents_complete _ _ _ sampleSeries_recoverable⟩

end TrueAlpha.Backtest
