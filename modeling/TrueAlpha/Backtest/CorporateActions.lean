import TrueAlpha.Backtest.Engine

/-!
# Split events derived from two price series

The embedding of `factors.backtest.corporate_actions`.  A step of the ratio of the closes beyond the tolerance is a split when
it rounds to a simple ratio and the unadjusted series confirms it, and stops the run otherwise.  The confirmation compares
logarithms, here as rationals (`logSize_sq_lt_iff`).
-/

namespace TrueAlpha.Backtest

def ratioTolerance : ℚ := 5 / 1000

def maxFactorDenominator : ℕ := 20

structure SeriesBar where
  session : Date
  unadjustedOpen : Option ℚ
  unadjustedClose : Option ℚ
  splitAdjustedClose : Option ℚ
  deriving DecidableEq, Repr

inductive SplitDerivationError where
  | twoBars (symbol : Symbol)
  | noSplitFactor (symbol : Symbol) (session : Date) (step : ℚ)
  | notSimpleRatio (symbol : Symbol) (session : Date) (step : ℚ)
  | noPriceConfirms (symbol : Symbol) (session : Date)
  | notConfirmed (symbol : Symbol) (session : Date) (factor previousClose firstPrice : ℚ)
  | noCloseBefore (symbol : Symbol) (session : Date)
  | spanMismatch (symbol : Symbol) (start finish : Date) (firstPaired lastPaired : Option Date)
  | latestRatioNotOne (symbol : Symbol) (ratio : ℚ)
  | divisionByZero
  deriving DecidableEq, Repr

/-- The value, when it is positive. -/
def positive (value : Option ℚ) : Option ℚ := value.filter fun v => 0 < v

def SeriesBar.ratio (bar : SeriesBar) : Option ℚ := (positive bar.unadjustedClose).bind fun unadjusted =>
    (positive bar.splitAdjustedClose).map fun adjusted => unadjusted / adjusted

/-- The loop state of `limit_denominator`: two convergents and the rest of the division. -/
structure Convergents where
  p0 : ℤ
  q0 : ℤ
  p1 : ℤ
  q1 : ℤ
  d : ℕ

/-- The loop of `limit_denominator`, until the next denominator is too large. -/
def limitLoop (maxDenominator : ℕ) (n : ℤ) (d : ℕ) (p0 q0 p1 q1 : ℤ) : Convergents :=
  -- the source never reaches a zero rest: the loop stops at the denominator before it
  if _h : d = 0 then ⟨p0, q0, p1, q1, d⟩
  else
    let a := n / d
    let q2 := q0 + a * q1
    if maxDenominator < q2 then ⟨p0, q0, p1, q1, d⟩
    else limitLoop maxDenominator d (n % d).toNat p1 q1 (p0 + a * p1) q2
  termination_by d
  decreasing_by
    have hd : (0 : ℤ) < d := by omega
    have hlt := Int.emod_lt_of_pos n hd
    have hnonneg := Int.emod_nonneg n hd.ne'
    omega

def limitDenominator (x : ℚ) (maxDenominator : ℕ) : ℚ :=
  if x.den ≤ maxDenominator then x
  else
    let c := limitLoop maxDenominator x.num x.den 0 1 1 0
    let k := (maxDenominator - c.q0) / c.q1
    if 2 * c.d * (c.q0 + k * c.q1) ≤ x.den then c.p1 / c.q1
    else (c.p0 + k * c.p1 : ℤ) / (c.q0 + k * c.q1 : ℤ)

/-- `1 / x`, which raises at zero. -/
def reciprocal (x : ℚ) : Except SplitDerivationError ℚ :=
  if x = 0 then .error .divisionByZero else .ok (1 / x)

def nearestRatio (step : ℚ) : Except SplitDerivationError ℚ :=
  if 1 ≤ step then .ok (limitDenominator step maxFactorDenominator)
  else do
    let inverse ← reciprocal step
    reciprocal (limitDenominator inverse maxFactorDenominator)

/-- The simple ratio a step rounds to. -/
def snap (symbol : Symbol) (session : Date) (step : ℚ) : Except SplitDerivationError ℚ := do
  let candidate ← nearestRatio step
  if candidate = 1 then throw (.noSplitFactor symbol session step)
  if ratioTolerance < |candidate / step - 1| then throw (.notSimpleRatio symbol session step)
  return candidate

/-- The exponential of `|ln x|`. -/
def logSize (x : ℚ) : ℚ := max x x⁻¹

def SeriesBar.firstPrice (bar : SeriesBar) : Option ℚ := (positive bar.unadjustedOpen).or (positive bar.unadjustedClose)

/-- The unadjusted series shows the split on its ex-date. -/
def confirm (symbol : Symbol) (session : Date) (factor previousClose : ℚ) (bar : SeriesBar) : Except SplitDerivationError Unit :=
  match bar.firstPrice with
  | none => .error (.noPriceConfirms symbol session)
  | some first =>
    if logSize factor ≤ logSize (first * factor / previousClose) ^ 2 then
      .error (.notConfirmed symbol session factor previousClose first)
    else .ok ()

/-- The state of the loop of `derive_split_events`. -/
structure DeriveState where
  events : List SplitEvent
  anchor : Option ℚ
  latestRatio : Option ℚ
  previousClose : Option ℚ
  firstPaired : Option Date
  lastPaired : Option Date

def DeriveState.initial : DeriveState := ⟨[], none, none, none, none, none⟩

def anchorStep (symbol : Symbol) (state : DeriveState) (bar : SeriesBar) (ratio : ℚ) : Except SplitDerivationError DeriveState :=
  match state.anchor with
  | none => .ok { state with anchor := some ratio }
  | some anchor =>
    if ratioTolerance < |anchor / ratio - 1| then do
      let factor ← snap symbol bar.session (anchor / ratio)
      match state.previousClose with
      | none => throw (.noCloseBefore symbol bar.session)
      | some previousClose => do
        confirm symbol bar.session factor previousClose bar
        return { state with
          events := state.events ++ [⟨symbol, bar.session, factor.num, factor.den⟩]
          anchor := some ratio }
    else .ok state

def pairedStep (symbol : Symbol) (state : DeriveState) (bar : SeriesBar) : Except SplitDerivationError DeriveState :=
  match bar.ratio with
  | none => .ok state
  | some ratio => do
    let state ← anchorStep symbol state bar ratio
    return { state with
      latestRatio := some ratio
      firstPaired := state.firstPaired.or (some bar.session)
      lastPaired := some bar.session }

/-- One iteration of the loop of `derive_split_events`. -/
def deriveStep (symbol : Symbol) (state : DeriveState) (bar : SeriesBar) : Except SplitDerivationError DeriveState := do
  let state ← pairedStep symbol state bar
  return { state with previousClose := (positive bar.unadjustedClose).or state.previousClose }

def checkSpan (symbol : Symbol) (unadjusted : List Date) (firstPaired lastPaired : Option Date) :
    Except SplitDerivationError Unit :=
  match unadjusted.head?, unadjusted.getLast? with
  | some start, some finish =>
    match firstPaired, lastPaired with
    | some first, some last =>
      if start < first ∨ last < finish then
        .error (.spanMismatch symbol start finish firstPaired lastPaired)
      else .ok ()
    | _, _ => .error (.spanMismatch symbol start finish firstPaired lastPaired)
  | _, _ => .ok ()

def checkLatest (symbol : Symbol) (latestRatio : Option ℚ) : Except SplitDerivationError Unit :=
  match latestRatio with
  | none => .ok ()
  | some ratio => if ratioTolerance < |ratio - 1| then .error (.latestRatioNotOne symbol ratio) else .ok ()

def unadjustedSessions (bars : List SeriesBar) : List Date :=
  (bars.filter fun bar => (positive bar.unadjustedClose).isSome).map SeriesBar.session

/-- The splits of one symbol, oldest first. -/
def deriveSplitEvents (symbol : Symbol) (bars : List SeriesBar) : Except SplitDerivationError (List SplitEvent) := do
  let ordered := sortedBy SeriesBar.session bars
  if (ordered.map SeriesBar.session).dedup.length ≠ ordered.length then throw (.twoBars symbol)
  let state ← ordered.foldlM (deriveStep symbol) DeriveState.initial
  checkSpan symbol (unadjustedSessions ordered) state.firstPaired state.lastPaired
  checkLatest symbol state.latestRatio
  return state.events

/-- The product of the split factors with an ex-date in `(after, through]`. -/
def splitFactorBetween (events : List SplitEvent) (after through : Date) : ℚ := events.foldl (fun factor event =>
    if after < event.exDate ∧ event.exDate ≤ through then factor * event.factor else factor) 1

end TrueAlpha.Backtest
