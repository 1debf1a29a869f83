import Mathlib.Data.String.Basic
import TrueAlpha.Lib.Dict
import TrueAlpha.Lib.Sort
import TrueAlpha.Time

/-!
# The portfolio simulation

The embedding of `factors.backtest.engine` over exact rationals.  A `raise` is an `Except.error`, and every division and
subscript can fail (`divide`, `index`).  `simulate` is the run at the order floor of the source.
-/

namespace TrueAlpha.Backtest

abbrev Symbol := String

/-- One cent. -/
def minOrderNotional : ℚ := 1 / 100

/-- The two behaviors `ExecutionRules` accepts. -/
inductive UnfilledOrderBehavior where
  | remainCash
  | nextSessionOpen
  deriving DecidableEq, Repr

structure ExecutionRules where
  lagSessions : ℤ
  costRate : ℚ
  unfilledOrderBehavior : UnfilledOrderBehavior
  deriving DecidableEq, Repr

/-- One split: `numerator` new shares for each `denominator` old shares from `exDate`. -/
structure SplitEvent where
  symbol : Symbol
  exDate : Date
  numerator : ℤ
  denominator : ℤ
  deriving DecidableEq, Repr

def SplitEvent.factor (event : SplitEvent) : ℚ := event.numerator / event.denominator

structure Bar where
  «open» : Option ℚ
  close : Option ℚ
  deriving DecidableEq, Repr

def price (value : Option ℚ) : Option ℚ := value.filter fun v => 0 < v

structure PriceBook where
  bars : Dict Symbol (Dict Date Bar)
  splits : List SplitEvent
  nodup_splits : (splits.map fun event => (event.symbol, event.exDate)).Nodup

def PriceBook.sessions (book : PriceBook) : List Date := sortedSet (book.bars.values.flatMap Dict.keys)

structure TargetPortfolio where
  cutoffAt : Instant
  weights : Dict Symbol ℚ
  weights_nonneg : ∀ weight ∈ weights.values, 0 ≤ weight
  sum_weights_le_one : weights.values.sum ≤ 1

inductive Side where
  | sell
  | buy
  deriving DecidableEq, Repr

structure Trade where
  cutoffAt : Instant
  session : Date
  symbol : Symbol
  side : Side
  shares : ℚ
  price : ℚ
  notional : ℚ
  fee : ℚ
  weightBefore : ℚ
  weightAfter : ℚ
  deriving DecidableEq, Repr

structure Fill where
  cutoffAt : Instant
  session : Option Date
  unfilledSymbols : List Symbol
  turnover : ℚ
  deriving DecidableEq, Repr

structure DeferredFill where
  symbol : Symbol
  cutoffAt : Instant
  orderedSession : Date
  filledSession : Date
  deriving DecidableEq, Repr

structure AppliedSplit where
  symbol : Symbol
  exDate : Date
  numerator : ℤ
  denominator : ℤ
  sharesBefore : ℚ
  sharesAfter : ℚ
  deriving DecidableEq, Repr

structure Valuation where
  session : Date
  value : ℚ
  cumNav : ℚ
  drawdown : ℚ
  grossExposure : ℚ
  cashWeight : ℚ
  deriving DecidableEq, Repr

structure Simulation where
  valuations : List Valuation
  trades : List Trade
  fills : List Fill
  splitsApplied : List AppliedSplit
  deferredFills : List DeferredFill
  deriving DecidableEq, Repr

inductive SimulationError where
  | capitalNotPositive
  | lagSessionsBelowOne
  | twoCutoffsFill (session : Date)
  | valueNotPositive (value : ℚ) (session : Date)
  | buysExceedCash (session : Date)
  | missingKey (symbol : Symbol)
  | divisionByZero
  deriving DecidableEq, Repr

def divide (a b : ℚ) : Except SimulationError ℚ :=
  if b = 0 then .error .divisionByZero else .ok (a / b)

/-- A subscript `mapping[symbol]`, which raises on an absent key. -/
def index {ν : Type} (mapping : Dict Symbol ν) (symbol : Symbol) : Except SimulationError ν :=
  match mapping.get? symbol with
  | some value => .ok value
  | none => .error (.missingKey symbol)

structure Book where
  cash : ℚ
  shares : Dict Symbol ℚ
  last : Dict Symbol ℚ

def Book.marketValue (book : Book) : Except SimulationError ℚ := book.shares.items.foldlM
    (fun total item => do return total + item.2 * (← index book.last item.1)) 0

def Book.mark (book : Book) (prices : Dict Symbol ℚ) : Book := { book with last := book.last.update prices }

def splitLast (last : Dict Symbol ℚ) (event : SplitEvent) : Except SimulationError (Dict Symbol ℚ) :=
  match last.get? event.symbol with
  | none => .ok last
  | some price => do
    let rebased ← divide (price * event.denominator) event.numerator
    return last.set event.symbol rebased

def splitShares (shares : Dict Symbol ℚ) (event : SplitEvent) : Except SimulationError (Dict Symbol ℚ × Option AppliedSplit) :=
  match shares.get? event.symbol with
  | none => .ok (shares, none)
  | some held =>
    -- `if not held`: a zero holding is treated as no holding
    if held = 0 then .ok (shares, none)
    else do
      let after ← divide (held * event.numerator) event.denominator
      return (shares.set event.symbol after, some ⟨event.symbol, event.exDate, event.numerator, event.denominator, held, after⟩)

/-- The last price and the held shares move to the new share basis. -/
def applySplit (book : Book) (event : SplitEvent) : Except SimulationError (Book × Option AppliedSplit) := do
  let last ← splitLast book.last event
  let (shares, record) ← splitShares book.shares event
  return ({ book with shares, last }, record)

/-- One buy: `amount` of value to add to `symbol` at `price`. -/
structure Order where
  symbol : Symbol
  price : ℚ
  amount : ℚ

structure Pending where
  cutoffAt : Instant
  orderedSession : Date
  amount : ℚ

structure Leg where
  order : Order
  notional : ℚ
  fee : ℚ

def Leg.total (leg : Leg) : ℚ := leg.notional + leg.fee

/-- The legs of `_spend` and the cash they leave: in full when the cash exceeds their total, else scaled, the last for the rest.
-/
def spendLegs (cash rate : ℚ) (orders : List Order) (nonempty : orders ≠ []) (session : Date) :
    Except SimulationError (List Leg × ℚ) := do
  let full := orders.map fun order => Leg.mk order order.amount (order.amount * rate)
  let need := (full.map Leg.total).sum
  if need < cash then return (full, cash - need)
  let scale ← divide cash need
  let legs := full.dropLast.map fun leg =>
    Leg.mk leg.order (leg.notional * scale) (leg.notional * scale * rate)
  let remaining := cash - (legs.map Leg.total).sum
  if remaining < 0 then throw (.buysExceedCash session)
  let notional ← divide remaining (1 + rate)
  return (legs ++ [⟨orders.getLast nonempty, notional, remaining - notional⟩], 0)

def buyLeg (floor : ℚ) (cutoffAt : Instant) (session : Date) (value : ℚ)
    (state : Book × List Trade) (leg : Leg) : Except SimulationError (Book × List Trade) := do
  let (book, trades) := state
  if leg.notional < floor then return ({ book with cash := book.cash + leg.total }, trades)
  let order := leg.order
  let before := (book.shares.get? order.symbol).getD 0
  let bought ← divide leg.notional order.price
  let weightBefore ← divide (before * order.price) value
  let weightAfter ← divide ((before + bought) * order.price) value
  return ({ book with shares := book.shares.set order.symbol (before + bought) },
    trades ++ [⟨cutoffAt, session, order.symbol, .buy, bought, order.price, leg.notional, leg.fee, weightBefore, weightAfter⟩])

/-- Buy each order and pay its cost. -/
def spend (floor : ℚ) (book : Book) (orders : List Order) (rules : ExecutionRules)
    (cutoffAt : Instant) (session : Date) (value : ℚ) :
    Except SimulationError (Book × List Trade) :=
  if h : orders = [] then .ok (book, [])
  else do
    let (legs, cash) ← spendLegs book.cash rules.costRate orders h session
    legs.foldlM (buyLeg floor cutoffAt session value) ({ book with cash }, [])

/-! ## Rebalancing -/

def TargetPortfolio.weightOf (target : TargetPortfolio) (symbol : Symbol) : ℚ := (target.weights.get? symbol).getD 0

def soldShares (weight held excess price : ℚ) : Except SimulationError ℚ :=
  if weight = 0 then .ok held else divide excess price

/-- The state of the sell loop of `_rebalance`. -/
structure SellState where
  book : Book
  trades : List Trade
  unfilled : List Symbol
  traded : ℚ

def sellStep (floor : ℚ) (target : TargetPortfolio) (session : Date) (opens : Dict Symbol ℚ)
    (rules : ExecutionRules) (value : ℚ) (state : SellState) (symbol : Symbol) :
    Except SimulationError SellState := do
  let book := state.book
  let held ← index book.shares symbol
  let weight := target.weightOf symbol
  let current := held * (← index book.last symbol)
  let goal := weight * value
  if current - goal < floor then return state
  match opens.get? symbol with
  | none => return { state with unfilled := state.unfilled ++ [symbol] }
  | some price =>
    let sold ← soldShares weight held (current - goal) price
    let notional := sold * price
    let fee := notional * rules.costRate
    let remaining := held - sold
    let shares :=
      if remaining = 0 then book.shares.erase symbol else book.shares.set symbol remaining
    let weightBefore ← divide current value
    let weightAfter ← divide (remaining * price) value
    return {
      book := { book with cash := book.cash + (notional - fee), shares }
      trades := state.trades ++ [⟨target.cutoffAt, session, symbol, .sell, sold, price, notional, fee, weightBefore, weightAfter⟩]
      unfilled := state.unfilled
      traded := state.traded + notional }

/-- The state of the order loop of `_rebalance`. -/
structure OrderState where
  orders : List Order
  unfilled : List Symbol
  pending : Dict Symbol Pending

def orderStep (floor : ℚ) (cutoffAt : Instant) (session : Date) (opens : Dict Symbol ℚ)
    (rules : ExecutionRules) (value : ℚ) (book : Book) (state : OrderState)
    (item : Symbol × ℚ) : OrderState :=
  let (symbol, weight) := item
  if weight ≤ 0 then state
  else
    let current := (book.shares.get? symbol).getD 0 * (book.last.get? symbol).getD 0
    let amount := weight * value - current
    if amount < floor then state
    else
      match opens.get? symbol with
      | some price => { state with orders := state.orders ++ [⟨symbol, price, amount⟩] }
      | none => {
          orders := state.orders
          unfilled := if symbol ∈ state.unfilled then state.unfilled else state.unfilled ++ [symbol]
          pending :=
            if rules.unfilledOrderBehavior = .nextSessionOpen then
              state.pending.set symbol ⟨cutoffAt, session, amount⟩
            else state.pending }

def sellLoop (floor : ℚ) (target : TargetPortfolio) (session : Date) (opens : Dict Symbol ℚ)
    (rules : ExecutionRules) (value : ℚ) (book : Book) : Except SimulationError SellState :=
  (sortedBy id book.shares.keys).foldlM (sellStep floor target session opens rules value)
    ⟨book, [], [], 0⟩

/-- The order loop of `_rebalance` over the target symbols, from the book after the sales. -/
def orderLoop (floor : ℚ) (target : TargetPortfolio) (session : Date) (opens : Dict Symbol ℚ)
    (rules : ExecutionRules) (value : ℚ) (sold : SellState) : OrderState :=
  (sortedBy Prod.fst target.weights.items).foldl
    (orderStep floor target.cutoffAt session opens rules value sold.book)
    ⟨[], sold.unfilled, Dict.empty⟩

structure Traded where
  book : Book
  pending : Dict Symbol Pending
  trades : List Trade

/-- Sell what exceeds the target, then buy what it lacks; earlier pending orders are dropped. -/
def rebalance (floor : ℚ) (book : Book) (target : TargetPortfolio) (session : Date)
    (opens : Dict Symbol ℚ) (rules : ExecutionRules) :
    Except SimulationError (Traded × Fill) := do
  let book := book.mark opens
  let value := book.cash + (← book.marketValue)
  if value ≤ 0 then throw (.valueNotPositive value session)
  let sold ← sellLoop floor target session opens rules value book
  let bought := orderLoop floor target session opens rules value sold
  let (book, trades) ← spend floor sold.book bought.orders rules target.cutoffAt session value
  let traded := sold.traded + (trades.map Trade.notional).sum
  let turnover ← divide traded (2 * value)
  return (⟨book, bought.pending, sold.trades ++ trades⟩, ⟨target.cutoffAt, some session, sortedBy id bought.unfilled, turnover⟩)

/-- The state of the loop of `_fill_pending`. -/
structure PendingState where
  book : Book
  pending : Dict Symbol Pending
  trades : List Trade
  deferred : List DeferredFill

/-- One iteration of `_fill_pending`: the waiting order of one symbol, if it opens. -/
def pendingStep (floor : ℚ) (session : Date) (opens : Dict Symbol ℚ) (rules : ExecutionRules)
    (state : PendingState) (symbol : Symbol) : Except SimulationError PendingState :=
  match opens.get? symbol with
  | none => return state
  | some price => do
    let order ← index state.pending symbol
    let value := state.book.cash + (← state.book.marketValue)
    let (book, made) ←
      spend floor state.book [⟨symbol, price, order.amount⟩] rules order.cutoffAt session value
    return {
      book
      pending := state.pending.erase symbol
      trades := state.trades ++ made
      deferred := state.deferred ++ [⟨symbol, order.cutoffAt, order.orderedSession, session⟩] }

/-- Buy each waiting order whose symbol opens on this session. -/
def fillPending (floor : ℚ) (book : Book) (pending : Dict Symbol Pending) (session : Date)
    (opens : Dict Symbol ℚ) (rules : ExecutionRules) : Except SimulationError PendingState :=
  (sortedBy id pending.keys).foldlM (pendingStep floor session opens rules) ⟨book, pending, [], []⟩

/-- The insertion point after the entries equal to `day`, in a sorted list. -/
def bisectRight (sessions : List Date) (day : Date) : ℕ := (sessions.takeWhile fun session => session ≤ day).length

/-- The `lagSessions`-th session after the cutoff's calendar day. -/
def fillSession (sessions : List Date) (cutoffAt : Instant) (lagSessions : ℤ) : Except SimulationError (Option Date) :=
  if lagSessions < 1 then .error .lagSessionsBelowOne
  else .ok sessions[bisectRight sessions (utcDate cutoffAt) + (lagSessions.toNat - 1)]?

structure Schedule where
  due : Dict Date TargetPortfolio
  unscheduled : List Fill

/-- One iteration of the schedule loop of `simulate`. -/
def scheduleStep (sessions : List Date) (rules : ExecutionRules) (schedule : Schedule)
    (target : TargetPortfolio) : Except SimulationError Schedule := do
  match ← fillSession sessions target.cutoffAt rules.lagSessions with
  | none =>
    return { schedule with
      unscheduled := schedule.unscheduled ++ [⟨target.cutoffAt, none, [], 0⟩] }
  | some session =>
    if (schedule.due.get? session).isSome then throw (.twoCutoffsFill session)
    return { schedule with due := schedule.due.set session target }

def scheduleTargets (sessions : List Date) (targets : List TargetPortfolio)
    (rules : ExecutionRules) : Except SimulationError Schedule :=
  (sortedBy TargetPortfolio.cutoffAt targets).foldlM (scheduleStep sessions rules) ⟨Dict.empty, []⟩

def Schedule.first (schedule : Schedule) : Option Date :=
  match schedule.due.keys with
  | [] => none
  | session :: sessions => some (sessions.foldl min session)

def PriceBook.opensOn (book : PriceBook) (session : Date) : Dict Symbol ℚ :=
  book.bars.filterMapVal fun _ series => (series.get? session).bind fun bar => price bar.open

def PriceBook.closesOn (book : PriceBook) (session : Date) : Dict Symbol ℚ :=
  book.bars.filterMapVal fun _ series => (series.get? session).bind fun bar => price bar.close

def PriceBook.splitsOn (book : PriceBook) (session : Date) : List SplitEvent :=
  sortedBy SplitEvent.symbol (book.splits.filter fun event => event.exDate = session)

/-- The state of the session loop of `simulate`. -/
structure RunState where
  book : Book
  pending : Dict Symbol Pending
  peak : ℚ
  trades : List Trade
  fills : List Fill
  applied : List AppliedSplit
  deferred : List DeferredFill
  valuations : List Valuation

def splitStep (state : RunState) (event : SplitEvent) : Except SimulationError RunState := do
  let (book, record) ← applySplit state.book event
  return { state with book, applied := state.applied ++ record.toList }

def tradeSession (floor : ℚ) (opens : Dict Symbol ℚ) (due : Option TargetPortfolio)
    (rules : ExecutionRules) (state : RunState) (session : Date) :
    Except SimulationError RunState :=
  match due with
  | some target => do
    let (made, fill) ← rebalance floor state.book target session opens rules
    return { state with
      book := made.book
      pending := made.pending
      trades := state.trades ++ made.trades
      fills := state.fills ++ [fill] }
  | none => do
    let late ← fillPending floor (state.book.mark opens) state.pending session opens rules
    return { state with
      book := late.book
      pending := late.pending
      trades := state.trades ++ late.trades
      deferred := state.deferred ++ late.deferred }

def valueSession (capital : ℚ) (first : Date) (state : RunState) (session : Date) : Except SimulationError RunState :=
  if session < first then return state
  else do
    let market ← state.book.marketValue
    let value := state.book.cash + market
    let peak := max state.peak value
    let cumNav ← divide value capital
    let drawdown ← divide (peak - value) peak
    let grossExposure ← divide market value
    let cashWeight ← divide state.book.cash value
    return { state with
      peak
      valuations := state.valuations ++ [⟨session, value, cumNav, drawdown, grossExposure, cashWeight⟩] }

/-- One iteration of the session loop of `simulate`. -/
def sessionStep (floor : ℚ) (book : PriceBook) (due : Dict Date TargetPortfolio)
    (rules : ExecutionRules) (capital : ℚ) (first : Date) (state : RunState) (session : Date) :
    Except SimulationError RunState := do
  let split ← (book.splitsOn session).foldlM splitStep state
  let traded ← tradeSession floor (book.opensOn session) (due.get? session) rules split session
  let closed := { traded with book := traded.book.mark (book.closesOn session) }
  valueSession capital first closed session

def RunState.initial (capital : ℚ) : RunState := ⟨⟨capital, Dict.empty, Dict.empty⟩, Dict.empty, capital, [], [], [], [], []⟩

/-- The session loop of `simulate` over `sessions`. -/
def runSessions (floor : ℚ) (book : PriceBook) (due : Dict Date TargetPortfolio)
    (rules : ExecutionRules) (capital : ℚ) (first : Date) (sessions : List Date) :
    Except SimulationError RunState :=
  sessions.foldlM (sessionStep floor book due rules capital first) (RunState.initial capital)

/-- The run of `simulate` at the order floor `floor`. -/
def simulateAt (floor : ℚ) (book : PriceBook) (targets : List TargetPortfolio)
    (rules : ExecutionRules) (capital : ℚ) : Except SimulationError Simulation := do
  if capital ≤ 0 then throw .capitalNotPositive
  let schedule ← scheduleTargets book.sessions targets rules
  match schedule.first with
  | none => return ⟨[], [], schedule.unscheduled, [], []⟩
  | some first =>
    let state ← runSessions floor book schedule.due rules capital first book.sessions
    return ⟨state.valuations, state.trades,
      sortedBy Fill.cutoffAt (schedule.unscheduled ++ state.fills), state.applied, state.deferred⟩

/-- Cash until the first fill, then each target at its fill session's open. -/
def simulate (book : PriceBook) (targets : List TargetPortfolio) (rules : ExecutionRules)
    (capital : ℚ) : Except SimulationError Simulation :=
  simulateAt minOrderNotional book targets rules capital

/-! ## A small run

Two symbols over four sessions: `AAA` splits two for one on the third, which holds no price of it, and
`BBB` has no open on the second, the fill session of the one target, so its buy waits. -/

def sampleBook : PriceBook where
  bars := Dict.ofList [("AAA", Dict.ofList [(1, ⟨some 10, some 11⟩), (2, ⟨some 12, some 12⟩), (3, ⟨none, none⟩),
      (4, ⟨some 6, some 7⟩)]),
    ("BBB", Dict.ofList [(1, ⟨some 5, none⟩), (2, ⟨none, some 5⟩), (3, ⟨some 4, some 5⟩), (4, ⟨some 5, some 5⟩)])]
  splits := [⟨"AAA", 3, 2, 1⟩]
  nodup_splits := by decide

def sampleTarget : TargetPortfolio where
  cutoffAt := microsPerDay
  weights := Dict.ofList [("AAA", 1 / 2), ("BBB", 1 / 2)]
  weights_nonneg := by decide +kernel
  sum_weights_le_one := by decide +kernel

def sampleRules : ExecutionRules := ⟨1, 1 / 1000, .nextSessionOpen⟩

theorem sample_returns : ∃ r, simulate sampleBook [sampleTarget] sampleRules 1000 = .ok r := by
  have hsome : (simulate sampleBook [sampleTarget] sampleRules 1000).toOption.isSome := by
    decide +kernel
  rcases h : simulate sampleBook [sampleTarget] sampleRules 1000 with e | r
  · rw [h] at hsome
    cases hsome
  · exact ⟨r, rfl⟩

end TrueAlpha.Backtest
