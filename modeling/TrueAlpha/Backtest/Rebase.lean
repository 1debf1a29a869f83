import TrueAlpha.Backtest.Records
import Mathlib.Tactic.Positivity

/-!
# Change of units

A change of units multiplies money by `money` and the shares of a symbol by `share symbol`; the trades of a session commute with
it.  `Backtest.Capital` and `Backtest.Adjusted` are instances.
-/

namespace TrueAlpha.Backtest

structure Units where
  money : ℚ
  share : Symbol → ℚ
  money_pos : 0 < money
  share_pos : ∀ symbol, 0 < share symbol

variable {target : TargetPortfolio} {opens : Dict Symbol ℚ} {session : Date} {rules : ExecutionRules} {floor : ℚ} {value : ℚ}

namespace Units

variable (u : Units)

def price (symbol : Symbol) : ℚ := u.money / u.share symbol

theorem price_pos (symbol : Symbol) : 0 < u.price symbol := div_pos u.money_pos (u.share_pos symbol)

theorem share_mul_price (symbol : Symbol) : u.share symbol * u.price symbol = u.money :=
  mul_div_cancel₀ u.money (u.share_pos symbol).ne'

def shares (d : Dict Symbol ℚ) : Dict Symbol ℚ := d.mapVal fun symbol held => held * u.share symbol

def prices (d : Dict Symbol ℚ) : Dict Symbol ℚ := d.mapVal fun symbol p => p * u.price symbol

def book (b : Book) : Book := ⟨b.cash * u.money, u.shares b.shares, u.prices b.last⟩

def order (o : Order) : Order := ⟨o.symbol, o.price * u.price o.symbol, o.amount * u.money⟩

def leg (l : Leg) : Leg := ⟨u.order l.order, l.notional * u.money, l.fee * u.money⟩

def waiting (p : Pending) : Pending := { p with amount := p.amount * u.money }

def pending (d : Dict Symbol Pending) : Dict Symbol Pending := d.mapVal fun _ p => u.waiting p

def trade (t : Trade) : Trade :=
  { t with
    shares := t.shares * u.share t.symbol
    price := t.price * u.price t.symbol
    notional := t.notional * u.money
    fee := t.fee * u.money }

def sellState (s : SellState) : SellState := ⟨u.book s.book, s.trades.map u.trade, s.unfilled, s.traded * u.money⟩

def orderState (s : OrderState) : OrderState := ⟨s.orders.map u.order, s.unfilled, u.pending s.pending⟩

def traded (t : Traded) : Traded := ⟨u.book t.book, u.pending t.pending, t.trades.map u.trade⟩

def pendingState (s : PendingState) : PendingState := ⟨u.book s.book, u.pending s.pending, s.trades.map u.trade, s.deferred⟩

theorem held_mul_price (symbol : Symbol) (held p : ℚ) : held * u.share symbol * (p * u.price symbol) = held * p * u.money := by
  rw [← u.share_mul_price symbol]
  ring

theorem notional_div_price (symbol : Symbol) (notional p : ℚ) :
    notional * u.money / (p * u.price symbol) = notional / p * u.share symbol := by
  have hprice := (u.price_pos symbol).ne'
  rw [← u.share_mul_price symbol, ← mul_assoc, mul_div_mul_right _ _ hprice, div_mul_eq_mul_div]

theorem money_div_money (a b : ℚ) : a * u.money / (b * u.money) = a / b := mul_div_mul_right a b u.money_pos.ne'

theorem weight_eq (symbol : Symbol) (held p value : ℚ) :
    held * u.share symbol * (p * u.price symbol) / (value * u.money) = held * p / value := by
  rw [u.held_mul_price, u.money_div_money]

theorem mul_money_lt {a b : ℚ} : a * u.money < b * u.money ↔ a < b := mul_lt_mul_iff_left₀ u.money_pos

theorem mul_money_le {a b : ℚ} : a * u.money ≤ b * u.money ↔ a ≤ b := mul_le_mul_iff_left₀ u.money_pos

theorem get?_shares (d : Dict Symbol ℚ) (symbol : Symbol) : (u.shares d).get? symbol = (d.get? symbol).map (· * u.share symbol) :=
  Dict.get?_mapVal _ d symbol

theorem get?_prices (d : Dict Symbol ℚ) (symbol : Symbol) : (u.prices d).get? symbol = (d.get? symbol).map (· * u.price symbol) :=
  Dict.get?_mapVal _ d symbol

theorem get?_pending (d : Dict Symbol Pending) (symbol : Symbol) : (u.pending d).get? symbol = (d.get? symbol).map u.waiting :=
  Dict.get?_mapVal _ d symbol

theorem getD_map_mul (o : Option ℚ) (c : ℚ) : (o.map (· * c)).getD 0 = o.getD 0 * c := by
  cases o <;> simp

theorem held_book (b : Book) (symbol : Symbol) : (u.book b).held symbol = b.held symbol * u.share symbol := by
  rw [Book.held, Book.held, ← getD_map_mul, ← u.get?_shares]
  rfl

theorem lastOf_book (b : Book) (symbol : Symbol) : (u.book b).lastOf symbol = b.lastOf symbol * u.price symbol := by
  rw [Book.lastOf, Book.lastOf, ← getD_map_mul, ← u.get?_prices]
  rfl

theorem market_book (b : Book) : (u.book b).market = b.market * u.money := by
  have hterm : ∀ symbol held, held * u.share symbol * ((u.prices b.last).get? symbol).getD 0 =
      held * (b.last.get? symbol).getD 0 * u.money := by
    intro symbol held
    rw [u.get?_prices, getD_map_mul, u.held_mul_price]
  change ((u.shares b.shares).sumBy fun symbol held => held * ((u.prices b.last).get? symbol).getD 0) = _
  rw [shares, Dict.sumBy_mapVal]
  simp only [hterm]
  exact List.sum_map_mul_right b.shares.items
    (fun e : Symbol × ℚ => e.2 * (b.last.get? e.1).getD 0) u.money

theorem value_book (b : Book) : (u.book b).value = b.value * u.money := by
  rw [Book.value, Book.value, u.market_book, add_mul]
  rfl

variable {b : Book} {orders : List Order} {session : Date} {floor : ℚ} {rules : ExecutionRules}
  {opens : Dict Symbol ℚ}

theorem priced_book (h : b.Priced) : (u.book b).Priced := by
  intro symbol held hheld
  change (u.shares b.shares).get? symbol = some held at hheld
  rw [u.get?_shares, Option.map_eq_some_iff] at hheld
  obtain ⟨q, hq, -⟩ := hheld
  obtain ⟨p, hp⟩ := h symbol q hq
  refine ⟨p * u.price symbol, ?_⟩
  change (u.prices b.last).get? symbol = _
  rw [u.get?_prices, hp, Option.map_some]

theorem mark_book (b : Book) (d : Dict Symbol ℚ) : (u.book b).mark (u.prices d) = u.book (b.mark d) := by
  change Book.mk _ _ ((u.prices b.last).update (u.prices d)) = Book.mk _ _ (u.prices (b.last.update d))
  rw [prices, prices, prices, Dict.mapVal_update]
  rfl

theorem need_order (rate : ℚ) (orders : List Order) : need rate (orders.map u.order) = need rate orders * u.money := by
  have hterm : ∀ o : Order, (u.order o).amount * (1 + rate) = o.amount * (1 + rate) * u.money := by
    intro o
    change o.amount * u.money * (1 + rate) = _
    ring
  rw [need, need, List.map_map, ← List.sum_map_mul_right]
  exact congrArg List.sum (List.map_congr_left fun o _ => hterm o)

theorem spendScale_order (cash rate : ℚ) (orders : List Order) :
    spendScale (cash * u.money) rate (orders.map u.order) = spendScale cash rate orders := by
  unfold spendScale
  rw [u.need_order, u.money_div_money]
  simp only [u.mul_money_lt]

theorem spentLegs_order (cash rate : ℚ) (orders : List Order) :
    spentLegs (cash * u.money) rate (orders.map u.order) = (spentLegs cash rate orders).map u.leg := by
  unfold spentLegs legsAt
  rw [u.spendScale_order, List.map_map, List.map_map]
  refine List.map_congr_left fun o _ => ?_
  have hn : ∀ scale : ℚ, o.amount * u.money * scale = o.amount * scale * u.money := fun _ => by ring
  have hf : ∀ a : ℚ, a * u.money * rate = a * rate * u.money := fun _ => by ring
  change Leg.mk (u.order o) (o.amount * u.money * _) (o.amount * u.money * _ * rate) =
    Leg.mk (u.order o) (o.amount * _ * u.money) (o.amount * _ * rate * u.money)
  rw [hn, hf]

theorem cashAfter_order (cash rate : ℚ) (orders : List Order) :
    cashAfter (cash * u.money) rate (orders.map u.order) = cashAfter cash rate orders * u.money := by
  unfold cashAfter
  rw [u.spendScale_order, u.need_order]
  ring

theorem giveBack_book (b : Book) (l : Leg) : (u.book b).giveBack (u.leg l) = u.book (b.giveBack l) := by
  change Book.mk (b.cash * u.money + (l.notional * u.money + l.fee * u.money)) _ _ =
    Book.mk ((b.cash + (l.notional + l.fee)) * u.money) _ _
  rw [← add_mul, ← add_mul]
  rfl

theorem afterBuy_book (b : Book) (l : Leg) : (u.book b).afterBuy (u.leg l) = u.book (b.afterBuy l) := by
  have hbought : (u.book b).held l.order.symbol + (u.leg l).notional / (u.leg l).order.price =
      (b.held l.order.symbol + l.notional / l.order.price) * u.share l.order.symbol := by
    rw [u.held_book, add_mul, ← u.notional_div_price]
    rfl
  change Book.mk _ ((u.shares b.shares).set l.order.symbol
    ((u.book b).held l.order.symbol + (u.leg l).notional / (u.leg l).order.price)) _ = Book.mk _
      (u.shares (b.shares.set l.order.symbol (b.held l.order.symbol + l.notional / l.order.price))) _
  rw [hbought, shares, shares, Dict.mapVal_set]
  rfl

theorem buyTrade_book (cutoffAt : Instant) (session : Date) (value : ℚ) (b : Book) (l : Leg) :
    buyTrade cutoffAt session (value * u.money) (u.book b) (u.leg l) = u.trade (buyTrade cutoffAt session value b l) := by
  have hbought : (u.leg l).notional / (u.leg l).order.price =
      l.notional / l.order.price * u.share l.order.symbol := u.notional_div_price _ _ _
  have hbefore : (u.book b).held l.order.symbol * (u.leg l).order.price / (value * u.money) =
      b.held l.order.symbol * l.order.price / value := by
    rw [u.held_book]
    exact u.weight_eq _ _ _ _
  have hafter : ((u.book b).held l.order.symbol + (u.leg l).notional / (u.leg l).order.price) *
      (u.leg l).order.price / (value * u.money) =
        (b.held l.order.symbol + l.notional / l.order.price) * l.order.price / value := by
    rw [hbought, u.held_book, ← add_mul]
    exact u.weight_eq _ _ _ _
  change Trade.mk cutoffAt session l.order.symbol .buy ((u.leg l).notional / (u.leg l).order.price) _ _ _
    ((u.book b).held l.order.symbol * (u.leg l).order.price / (value * u.money))
    (((u.book b).held l.order.symbol + (u.leg l).notional / (u.leg l).order.price) *
      (u.leg l).order.price / (value * u.money)) = _
  rw [hbefore, hafter, hbought]
  rfl

theorem buyLeg_units {cutoffAt : Instant} {state state' : Book × List Trade} {l : Leg}
    (h : buyLeg floor cutoffAt session value state l = .ok state') :
    buyLeg (floor * u.money) cutoffAt session (value * u.money) (u.book state.1, state.2.map u.trade)
      (u.leg l) = .ok (u.book state'.1, state'.2.map u.trade) := by
  obtain ⟨b, trades⟩ := state
  apply buyLeg_eq_ok_iff.2
  cases buyLeg_eq_ok_iff.1 h with
  | dropped small =>
    have hsmall : (u.leg l).notional < floor * u.money := u.mul_money_lt.2 small
    rw [← u.giveBack_book]
    exact .dropped hsmall
  | filled large price_ne value_ne =>
    have hlarge : floor * u.money ≤ (u.leg l).notional := u.mul_money_le.2 large
    have hprice : (u.leg l).order.price ≠ 0 := mul_ne_zero price_ne (u.price_pos _).ne'
    have hvalue : value * u.money ≠ 0 := mul_ne_zero value_ne u.money_pos.ne'
    rw [← u.afterBuy_book, List.map_append, List.map_singleton, ← u.buyTrade_book]
    exact .filled hlarge hprice hvalue

theorem getLast_map_order (h : orders ≠ []) (h' : orders.map u.order ≠ []) :
    (orders.map u.order).getLast h' = u.order (orders.getLast h) := List.getLast_map h'

theorem spendLegs_units {cash rate : ℚ} {hne : orders ≠ []} (hne' : orders.map u.order ≠ []) {legs : List Leg}
    {rest : ℚ} (h : spendLegs cash rate orders hne session = .ok (legs, rest)) :
    spendLegs (cash * u.money) rate (orders.map u.order) hne' session = .ok (legs.map u.leg, rest * u.money) := by
  obtain ⟨hcond, rfl, rfl⟩ := spendLegs_eq_ok_iff.1 h
  apply spendLegs_eq_ok_iff.2
  rw [u.need_order, u.money_div_money, u.getLast_map_order hne]
  refine ⟨fun hle => ?_, (u.spentLegs_order cash rate orders).symm, ?_⟩
  · obtain ⟨hneed, hrate, hnonneg⟩ := hcond (u.mul_money_le.1 hle)
    refine ⟨mul_ne_zero hneed u.money_pos.ne', hrate, ?_⟩
    have hscaled := mul_nonneg hnonneg u.money_pos.le
    change 0 ≤ _ * ((orders.getLast hne).amount * u.money * _)
    linarith
  · rw [← u.need_order]
    exact (u.cashAfter_order cash rate orders).symm

theorem spend_units {b' : Book} {cutoffAt : Instant} {trades : List Trade}
    (h : spend floor b orders rules cutoffAt session value = .ok (b', trades)) :
    spend (floor * u.money) (u.book b) (orders.map u.order) rules cutoffAt session (value * u.money) =
      .ok (u.book b', trades.map u.trade) := by
  by_cases hne : orders = []
  · subst hne
    rw [spend_nil] at h
    cases h
    rfl
  · have hne' : orders.map u.order ≠ [] := by simpa using hne
    unfold spend at h ⊢
    rw [dif_neg hne, bind_eq_ok_iff] at h
    rw [dif_neg hne', bind_eq_ok_iff]
    obtain ⟨⟨legs, cash⟩, hlegs, hfold⟩ := h
    refine ⟨_, u.spendLegs_units hne' hlegs, ?_⟩
    exact foldlM_map_ok (fun state => (u.book state.1, state.2.map u.trade)) u.leg hfold
      fun _ _ _ hstep => u.buyLeg_units hstep

/-! ## Sales and orders -/

theorem excess_units (target : TargetPortfolio) (value held last : ℚ) (symbol : Symbol) :
    excess target (value * u.money) (held * u.share symbol) (last * u.price symbol) symbol =
      excess target value held last symbol * u.money := by
  unfold excess
  rw [u.held_mul_price]
  ring

theorem soldShares_units {weight held amount p sold : ℚ} (symbol : Symbol) (h : soldShares weight held amount p = .ok sold) :
    soldShares weight (held * u.share symbol) (amount * u.money) (p * u.price symbol) = .ok (sold * u.share symbol) := by
  obtain ⟨hp, rfl⟩ := soldShares_eq_ok_iff.1 h
  refine soldShares_eq_ok_iff.2 ⟨fun hw => mul_ne_zero (hp hw) (u.price_pos symbol).ne', ?_⟩
  rw [u.notional_div_price]
  split_ifs <;> rfl

theorem sell_units (target : TargetPortfolio) (session : Date) (rate value : ℚ) (symbol : Symbol)
    (held last p sold : ℚ) (state : SellState) :
    (u.sellState state).sell target session rate (value * u.money) symbol (held * u.share symbol)
        (last * u.price symbol) (p * u.price symbol) (sold * u.share symbol) =
      u.sellState (state.sell target session rate value symbol held last p sold) := by
  have hzero : held * u.share symbol - sold * u.share symbol = 0 ↔ held - sold = 0 := by
    rw [← sub_mul, mul_eq_zero, or_iff_left (u.share_pos symbol).ne']
  have hshares : (if held * u.share symbol - sold * u.share symbol = 0 then
        (u.shares state.book.shares).erase symbol
      else (u.shares state.book.shares).set symbol (held * u.share symbol - sold * u.share symbol)) =
      u.shares (if held - sold = 0 then state.book.shares.erase symbol
        else state.book.shares.set symbol (held - sold)) := by
    simp only [hzero]
    split_ifs
    · rw [shares, shares, Dict.mapVal_erase]
    · rw [shares, shares, Dict.mapVal_set, sub_mul]
  have hcash : state.book.cash * u.money +
      (sold * u.share symbol * (p * u.price symbol) - sold * u.share symbol * (p * u.price symbol) * rate) =
      (state.book.cash + (sold * p - sold * p * rate)) * u.money := by
    rw [u.held_mul_price]
    ring
  have htraded : state.traded * u.money + sold * u.share symbol * (p * u.price symbol) = (state.traded + sold * p) * u.money := by
    rw [u.held_mul_price]
    ring
  have htrade : Trade.mk target.cutoffAt session symbol .sell (sold * u.share symbol)
      (p * u.price symbol) (sold * u.share symbol * (p * u.price symbol))
      (sold * u.share symbol * (p * u.price symbol) * rate)
      (held * u.share symbol * (last * u.price symbol) / (value * u.money))
      ((held * u.share symbol - sold * u.share symbol) * (p * u.price symbol) / (value * u.money)) =
      u.trade ⟨target.cutoffAt, session, symbol, .sell, sold, p, sold * p, sold * p * rate,
        held * last / value, (held - sold) * p / value⟩ := by
    rw [u.weight_eq, ← sub_mul, u.weight_eq, u.held_mul_price, mul_right_comm _ u.money]
    rfl
  simp only [SellState.sell, sellState, book, List.map_append, List.map_singleton,
    SellState.mk.injEq, Book.mk.injEq, and_true, true_and]
  exact ⟨⟨hcash, hshares⟩, by rw [htrade], htraded⟩

theorem sellStep_units {state state' : SellState}
    {symbol : Symbol} (h : sellStep floor target session opens rules value state symbol = .ok state') :
    sellStep (floor * u.money) target session (u.prices opens) rules (value * u.money)
      (u.sellState state) symbol = .ok (u.sellState state') := by
  have hshares : ∀ {held : ℚ}, state.book.shares.get? symbol = some held →
      (u.sellState state).book.shares.get? symbol = some (held * u.share symbol) := by
    intro held hheld
    change (u.shares state.book.shares).get? symbol = _
    rw [u.get?_shares, hheld, Option.map_some]
  have hlasts : ∀ {last : ℚ}, state.book.last.get? symbol = some last →
      (u.sellState state).book.last.get? symbol = some (last * u.price symbol) := by
    intro last hlast
    change (u.prices state.book.last).get? symbol = _
    rw [u.get?_prices, hlast, Option.map_some]
  apply sellStep_eq_ok_iff.2
  cases sellStep_eq_ok_iff.1 h with
  | kept hheld hlast small =>
    refine .kept (hshares hheld) (hlasts hlast) ?_
    rw [u.excess_units]
    exact u.mul_money_lt.2 small
  | unfilled hheld hlast large hopen =>
    refine .unfilled (hshares hheld) (hlasts hlast) ?_ ?_
    · rw [u.excess_units]
      exact u.mul_money_le.2 large
    · rw [u.get?_prices, hopen, Option.map_none]
  | @sold held last p sold hheld hlast large hopen hsold value_ne =>
    rw [← u.sell_units]
    refine .sold (hshares hheld) (hlasts hlast) ?_ ?_ ?_ (mul_ne_zero value_ne u.money_pos.ne')
    · rw [u.excess_units]
      exact u.mul_money_le.2 large
    · rw [u.get?_prices, hopen, Option.map_some]
    · rw [u.excess_units]
      exact u.soldShares_units symbol hsold

theorem sellLoop_units {sold : SellState} (h : sellLoop floor target session opens rules value b = .ok sold) :
    sellLoop (floor * u.money) target session (u.prices opens) rules (value * u.money) (u.book b) = .ok (u.sellState sold) := by
  have hkeys : (u.book b).shares.keys = b.shares.keys := Dict.keys_mapVal _ _
  have hstart : u.sellState ⟨b, [], [], 0⟩ = ⟨u.book b, [], [], 0⟩ := by
    rw [sellState, zero_mul]
    rfl
  unfold sellLoop at h ⊢
  rw [hkeys, ← hstart]
  have := foldlM_map_ok u.sellState id h fun _ _ _ hstep => u.sellStep_units hstep
  rwa [List.map_id] at this

theorem shortfall_units (weight value : ℚ) (b : Book) (symbol : Symbol) : shortfall weight (value * u.money) (u.book b) symbol =
      shortfall weight value b symbol * u.money := by
  unfold shortfall
  rw [u.held_book, u.lastOf_book, u.held_mul_price]
  ring

theorem orderStep_units (floor : ℚ) (cutoffAt : Instant) (session : Date) (opens : Dict Symbol ℚ)
    (rules : ExecutionRules) (value : ℚ) (b : Book) (state : OrderState) (item : Symbol × ℚ) :
    orderStep (floor * u.money) cutoffAt session (u.prices opens) rules (value * u.money) (u.book b) (u.orderState state) item =
      u.orderState (orderStep floor cutoffAt session opens rules value b state item) := by
  obtain ⟨symbol, weight⟩ := item
  by_cases hw : weight ≤ 0
  · simp only [orderStep, hw, if_true]
  have hsmall : shortfall weight (value * u.money) (u.book b) symbol < floor * u.money ↔
      shortfall weight value b symbol < floor := by
    rw [u.shortfall_units, u.mul_money_lt]
  have hfold : ∀ (value : ℚ) (b : Book), weight * value - (b.shares.get? symbol).getD 0 * (b.last.get? symbol).getD 0 =
        shortfall weight value b symbol := fun _ _ => rfl
  simp only [orderStep, hw, if_false, hfold, hsmall, u.get?_prices]
  by_cases h : shortfall weight value b symbol < floor
  · simp only [h, if_true]
  · simp only [h, if_false]
    rw [u.shortfall_units]
    cases opens.get? symbol with
    | some p =>
      simp only [Option.map_some, orderState, List.map_append, List.map_singleton]
      rfl
    | none =>
      simp only [Option.map_none, orderState, OrderState.mk.injEq, true_and]
      refine ⟨rfl, ?_⟩
      by_cases hb : rules.unfilledOrderBehavior = .nextSessionOpen
      · rw [if_pos hb, if_pos hb]
        exact (Dict.mapVal_set (fun _ p => u.waiting p) state.pending symbol
          ⟨cutoffAt, session, shortfall weight value b symbol⟩).symm
      · rw [if_neg hb, if_neg hb]

theorem orderLoop_units (floor : ℚ) (target : TargetPortfolio) (session : Date)
    (opens : Dict Symbol ℚ) (rules : ExecutionRules) (value : ℚ) (sold : SellState) :
    orderLoop (floor * u.money) target session (u.prices opens) rules (value * u.money) (u.sellState sold) =
      u.orderState (orderLoop floor target session opens rules value sold) := by
  unfold orderLoop
  have hstart : OrderState.mk [] (u.sellState sold).unfilled Dict.empty = u.orderState ⟨[], sold.unfilled, Dict.empty⟩ := rfl
  rw [hstart]
  exact (List.foldl_hom u.orderState fun state item =>
    u.orderStep_units floor target.cutoffAt session opens rules value sold.book state item)

/-! ## The trades of a session -/

theorem sum_notional (trades : List Trade) :
    ((trades.map u.trade).map Trade.notional).sum = (trades.map Trade.notional).sum * u.money := by
  rw [List.map_map, ← List.sum_map_mul_right]
  rfl

theorem rebalance_units {made : Traded} {fill : Fill} (h : rebalance floor b target session opens rules = .ok (made, fill)) :
    rebalance (floor * u.money) (u.book b) target session (u.prices opens) rules = .ok (u.traded made, fill) := by
  obtain ⟨hpriced, hvalue, sold, trades, hsold, hspend, hpending, htrades, rfl⟩ := rebalance_eq_ok_iff.1 h
  have hmark : ((u.book b).mark (u.prices opens)).value = (b.mark opens).value * u.money := by
    rw [u.mark_book, u.value_book]
  have hsold' := u.sellLoop_units hsold
  have hspend' := u.spend_units hspend
  apply rebalance_eq_ok_iff.2
  rw [hmark, u.mark_book]
  refine ⟨u.priced_book hpriced, mul_pos hvalue u.money_pos, u.sellState sold, trades.map u.trade, hsold', ?_, ?_, ?_, ?_⟩
  · rw [u.orderLoop_units]
    exact hspend'
  · rw [u.orderLoop_units]
    exact congrArg u.pending hpending
  · change made.trades.map u.trade = sold.trades.map u.trade ++ _
    rw [htrades, List.map_append]
  · rw [u.orderLoop_units, u.sum_notional]
    congr 1
    change _ = (sold.traded * u.money + _) / (2 * (_ * u.money))
    rw [← add_mul, ← mul_assoc, u.money_div_money]

theorem pendingStep_units {state state' : PendingState} {symbol : Symbol}
    (h : pendingStep floor session opens rules state symbol = .ok state') :
    pendingStep (floor * u.money) session (u.prices opens) rules (u.pendingState state) symbol = .ok (u.pendingState state') := by
  apply pendingStep_eq_ok_iff.2
  cases pendingStep_eq_ok_iff.1 h with
  | waiting hopen =>
    refine .waiting ?_
    rw [u.get?_prices, hopen, Option.map_none]
  | @filled p order b made hopen horder priced hspend =>
    have hopen' : (u.prices opens).get? symbol = some (p * u.price symbol) := by
      rw [u.get?_prices, hopen, Option.map_some]
    have horder' : (u.pendingState state).pending.get? symbol = some (u.waiting order) := by
      change (u.pending state.pending).get? symbol = _
      rw [u.get?_pending, horder, Option.map_some]
    have hspend' := u.spend_units hspend
    rw [← u.value_book] at hspend'
    have hfilled := PendingStep.filled hopen' horder' (u.priced_book priced) hspend'
    have hrest : u.pending (state.pending.erase symbol) = (u.pending state.pending).erase symbol := Dict.mapVal_erase _ _ _
    simp only [pendingState, List.map_append, hrest]
    exact hfilled

theorem fillPending_units {waiting : Dict Symbol Pending} {late : PendingState}
    (h : fillPending floor b waiting session opens rules = .ok late) :
    fillPending (floor * u.money) (u.book b) (u.pending waiting) session (u.prices opens) rules = .ok (u.pendingState late) := by
  have hkeys : (u.pending waiting).keys = waiting.keys := Dict.keys_mapVal _ _
  unfold fillPending at h ⊢
  rw [hkeys]
  have := foldlM_map_ok u.pendingState id h fun _ _ _ hstep => u.pendingStep_units hstep
  rwa [List.map_id] at this

/-! ## The stages of a session

The three lemmas below relate a state of a run to a state `c` of another run whose book, waiting
orders or peak are those of the first in the new units. -/

theorem tradeSession_units
    {state traded c : RunState} {due : Option TargetPortfolio}
    (h : TradeSession floor opens rules state session due traded) (hbook : c.book = u.book state.book)
    (hpending : c.pending = u.pending state.pending) :
    ∃ made fills deferred, Appends session state traded made fills deferred ∧
      TradeSession (floor * u.money) (u.prices opens) rules c session due
        { c with
          book := u.book traded.book
          pending := u.pending traded.pending
          trades := c.trades ++ made.map u.trade
          fills := c.fills ++ fills
          deferred := c.deferred ++ deferred } := by
  obtain ⟨made, fills, deferred, happ⟩ := h.appends
  refine ⟨made, fills, deferred, happ, ?_⟩
  cases h with
  | @rebalanced target made' fill h =>
    obtain rfl : made'.trades = made := List.append_cancel_left happ.trades_eq
    obtain rfl : [fill] = fills := List.append_cancel_left happ.fills_eq
    obtain rfl : deferred = [] := List.self_eq_append_right.1 happ.deferred_eq
    have hc := u.rebalance_units h
    rw [← hbook] at hc
    rw [List.append_nil]
    exact .rebalanced hc
  | @filledPending late h =>
    obtain rfl : late.trades = made := List.append_cancel_left happ.trades_eq
    obtain rfl : late.deferred = deferred := List.append_cancel_left happ.deferred_eq
    obtain rfl : fills = [] := List.self_eq_append_right.1 happ.fills_eq
    have hc := u.fillPending_units h
    rw [← u.mark_book, ← hbook, ← hpending] at hc
    rw [List.append_nil]
    exact .filledPending hc

def valuation (v : Valuation) : Valuation := { v with value := v.value * u.money }

theorem valuationOf_units (capital peak : ℚ) (session : Date) (b : Book) :
    valuationOf (capital * u.money) (peak * u.money) session (u.book b) = u.valuation (valuationOf capital peak session b) := by
  have hcash : (u.book b).cash = b.cash * u.money := rfl
  unfold valuationOf valuation
  rw [u.value_book, u.market_book, hcash, ← max_mul_of_nonneg _ _ u.money_pos.le, ← sub_mul,
    u.money_div_money, u.money_div_money, u.money_div_money, u.money_div_money]

theorem valueSession_units {capital : ℚ} {first : Date} {state state' c : RunState}
    (h : valueSession capital first state session = .ok state') (hbook : c.book = u.book state.book)
    (hpeak : c.peak = state.peak * u.money) :
    ∃ vals, state' = { state with peak := state'.peak, valuations := state.valuations ++ vals } ∧
      (∀ v ∈ vals, v.session = session) ∧
      valueSession (capital * u.money) first c session = .ok { c with
          peak := state'.peak * u.money
          valuations := c.valuations ++ vals.map u.valuation } := by
  rcases valueSession_eq_ok_iff.1 h with ⟨hfirst, rfl⟩ | ⟨hfirst, hpriced, hc, hp, hv, rfl⟩
  · refine ⟨[], by rw [List.append_nil], by simp, valueSession_eq_ok_iff.2 (.inl ⟨hfirst, ?_⟩)⟩
    rw [← hpeak, List.map_nil, List.append_nil]
  · refine ⟨_, rfl, by simp [valuationOf], valueSession_eq_ok_iff.2 (.inr ⟨hfirst, ?_, ?_, ?_, ?_, ?_⟩)⟩
    · rw [hbook]
      exact u.priced_book hpriced
    · exact mul_ne_zero hc u.money_pos.ne'
    · rw [hbook, hpeak, u.value_book, ← max_mul_of_nonneg _ _ u.money_pos.le]
      exact mul_ne_zero hp u.money_pos.ne'
    · rw [hbook, u.value_book]
      exact mul_ne_zero hv u.money_pos.ne'
    · rw [hbook, hpeak, u.value_book, u.valuationOf_units, ← max_mul_of_nonneg _ _ u.money_pos.le]
      rfl

end Units

end TrueAlpha.Backtest
