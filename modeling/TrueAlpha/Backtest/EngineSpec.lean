import TrueAlpha.Backtest.Engine
import Mathlib.Tactic.Linarith
import Mathlib.Tactic.FieldSimp
import Mathlib.Tactic.Ring

/-!
# What each function of the simulation returns

One lemma for each function of `Backtest.Engine`: when it returns, and what.  The later files do not unfold the functions.
-/

namespace TrueAlpha.Backtest

/-! ## Divisions, subscripts and the market value -/

theorem divide_eq_ok_iff {a b c : ℚ} : divide a b = .ok c ↔ b ≠ 0 ∧ c = a / b := by
  unfold divide
  split_ifs with h
  · simp [h]
  · simp [h, eq_comm]

theorem index_eq_ok_iff {ν : Type} {d : Dict Symbol ν} {s : Symbol} {v : ν} : index d s = .ok v ↔ d.get? s = some v := by
  unfold index
  cases d.get? s <;> simp

def Book.market (book : Book) : ℚ := book.shares.sumBy fun symbol held => held * (book.last.get? symbol).getD 0

def Book.value (book : Book) : ℚ := book.cash + book.market

def Book.Priced (book : Book) : Prop := ∀ symbol held, book.shares.get? symbol = some held → ∃ p, book.last.get? symbol = some p

variable {book : Book}

theorem marketValue_eq_ok_iff {m : ℚ} : book.marketValue = .ok m ↔ book.Priced ∧ m = book.market := by
  -- the loop over a list of items, from any total
  have key : ∀ (l : List (Symbol × ℚ)) (total m : ℚ),
      l.foldlM (fun total item => do return total + item.2 * (← index book.last item.1)) total =
          (Except.ok m : Except SimulationError ℚ) ↔
        (∀ e ∈ l, ∃ p, book.last.get? e.1 = some p) ∧ m = total + (l.map fun e => e.2 * (book.last.get? e.1).getD 0).sum := by
    intro l
    induction l with
    | nil =>
      intro total m
      rw [foldlM_nil_eq_ok]
      simp [eq_comm]
    | cons e l ih =>
      intro total m
      simp only [foldlM_cons_eq_ok, bind_eq_ok_iff, index_eq_ok_iff, pure_eq_ok_iff, ih]
      constructor
      · rintro ⟨_, ⟨p, hp, rfl⟩, hl, rfl⟩
        refine ⟨?_, ?_⟩
        · intro e' he'
          rcases List.mem_cons.1 he' with rfl | he'
          · exact ⟨p, hp⟩
          · exact hl e' he'
        · simp [hp, add_assoc]
      · rintro ⟨hl, rfl⟩
        obtain ⟨p, hp⟩ := hl e List.mem_cons_self
        refine ⟨_, ⟨p, hp, rfl⟩, fun e' he' => hl e' (List.mem_cons_of_mem e he'), ?_⟩
        simp [hp, add_assoc]
  unfold Book.marketValue
  rw [key]
  unfold Book.Priced Book.market Dict.sumBy
  rw [zero_add]
  refine and_congr_left fun _ => ⟨fun h s q hq => ?_, fun h e he => ?_⟩
  · exact h (s, q) ((book.shares.get?_eq_some_iff s q).1 hq)
  · exact h e.1 e.2 ((book.shares.get?_eq_some_iff e.1 e.2).2 he)

def Book.held (book : Book) (symbol : Symbol) : ℚ := (book.shares.get? symbol).getD 0

def Book.lastOf (book : Book) (symbol : Symbol) : ℚ := (book.last.get? symbol).getD 0

variable {symbol : Symbol} {event : SplitEvent}

theorem held_of_get? {held : ℚ} (h : book.shares.get? symbol = some held) : book.held symbol = held := by
  rw [Book.held, h]
  rfl

theorem lastOf_of_get? {p : ℚ} (h : book.last.get? symbol = some p) : book.lastOf symbol = p := by
  rw [Book.lastOf, h]
  rfl

theorem elim_mul_eq (o : Option ℚ) (p : ℚ) : (o.elim 0 fun held => held * p) = o.getD 0 * p := by
  cases o <;> simp

theorem market_set_shares (book : Book) (symbol : Symbol) (q : ℚ) : Book.market { book with shares := book.shares.set symbol q } =
      book.market - book.held symbol * book.lastOf symbol + q * book.lastOf symbol := by
  unfold Book.market
  rw [Dict.sumBy_set, elim_mul_eq]
  rfl

theorem market_erase_shares (book : Book) (symbol : Symbol) : Book.market { book with shares := book.shares.erase symbol } =
      book.market - book.held symbol * book.lastOf symbol := by
  unfold Book.market
  rw [Dict.sumBy_erase, elim_mul_eq]
  rfl

theorem splitLast_eq_ok_iff {last last' : Dict Symbol ℚ} {event : SplitEvent} : splitLast last event = .ok last' ↔
      (last.get? event.symbol = none ∧ last' = last) ∨ ∃ p, last.get? event.symbol = some p ∧ event.numerator ≠ 0 ∧
          last' = last.set event.symbol (p * event.denominator / event.numerator) := by
  unfold splitLast
  cases last.get? event.symbol with
  | none => simp [eq_comm]
  | some p =>
    simp only [bind_eq_ok_iff, divide_eq_ok_iff, pure_eq_ok_iff]
    constructor
    · rintro ⟨_, ⟨hn, rfl⟩, rfl⟩
      exact .inr ⟨p, rfl, by exact_mod_cast hn, rfl⟩
    · rintro (⟨h, -⟩ | ⟨_, h, hn, rfl⟩)
      · cases h
      · cases h
        exact ⟨_, ⟨by exact_mod_cast hn, rfl⟩, rfl⟩

variable {record : Option AppliedSplit}

theorem splitShares_eq_ok_iff {shares shares' : Dict Symbol ℚ} {event : SplitEvent} :
    splitShares shares event = .ok (shares', record) ↔
      ((shares.get? event.symbol).getD 0 = 0 ∧ shares' = shares ∧ record = none) ∨
        ∃ held, shares.get? event.symbol = some held ∧ held ≠ 0 ∧ event.denominator ≠ 0 ∧
          shares' = shares.set event.symbol (held * event.numerator / event.denominator) ∧
          record = some ⟨event.symbol, event.exDate, event.numerator, event.denominator, held,
            held * event.numerator / event.denominator⟩ := by
  unfold splitShares
  cases shares.get? event.symbol with
  | none => simp [eq_comm]
  | some held =>
    by_cases h : held = 0
    · simp [h, eq_comm]
    · simp only [h, if_false, bind_eq_ok_iff, divide_eq_ok_iff, pure_eq_ok_iff, Prod.mk.injEq,
        Option.getD_some, false_and, false_or]
      constructor
      · rintro ⟨_, ⟨hd, rfl⟩, rfl, rfl⟩
        exact ⟨held, rfl, h, by exact_mod_cast hd, rfl, rfl⟩
      · rintro ⟨_, hh, -, hd, rfl, rfl⟩
        cases hh
        exact ⟨_, ⟨by exact_mod_cast hd, rfl⟩, rfl, rfl⟩

theorem applySplit_eq_ok_iff {book' : Book} : applySplit book event = .ok (book', record) ↔
      splitLast book.last event = .ok book'.last ∧
        splitShares book.shares event = .ok (book'.shares, record) ∧ book'.cash = book.cash := by
  unfold applySplit
  simp only [bind_eq_ok_iff, pure_eq_ok_iff, Prod.mk.injEq, Prod.exists]
  constructor
  · rintro ⟨last, hl, shares, record', hs, rfl, rfl⟩
    exact ⟨hl, hs, rfl⟩
  · rintro ⟨hl, hs, hc⟩
    refine ⟨_, hl, _, _, hs, ?_, rfl⟩
    cases book'
    simp_all

def splitFactor (events : List SplitEvent) (symbol : Symbol) : ℚ :=
  ((events.filter fun event => event.symbol = symbol).map SplitEvent.factor).prod

theorem splitFactor_cons (event : SplitEvent) (events : List SplitEvent) (symbol : Symbol) :
    splitFactor (event :: events) symbol = (if event.symbol = symbol then event.factor else 1) * splitFactor events symbol := by
  unfold splitFactor
  by_cases h : event.symbol = symbol
  · simp [h]
  · simp [h]

theorem splitFactor_append (l₁ l₂ : List SplitEvent) (symbol : Symbol) :
    splitFactor (l₁ ++ l₂) symbol = splitFactor l₁ symbol * splitFactor l₂ symbol := by
  simp [splitFactor]

theorem splitFactor_perm {l₁ l₂ : List SplitEvent} (h : l₁.Perm l₂) (symbol : Symbol) :
    splitFactor l₁ symbol = splitFactor l₂ symbol :=
  ((h.filter _).map _).prod_eq

/-! ## Buys -/

def need (rate : ℚ) (orders : List Order) : ℚ := (orders.map fun order => order.amount * (1 + rate)).sum

/-- The orders with every amount multiplied by `scale`. -/
def legsAt (rate scale : ℚ) (orders : List Order) : List Leg :=
  orders.map fun order => ⟨order, order.amount * scale, order.amount * scale * rate⟩

def spendScale (cash rate : ℚ) (orders : List Order) : ℚ :=
  if need rate orders < cash then 1 else cash / need rate orders

theorem sum_total_legsAt (rate scale : ℚ) (orders : List Order) :
    ((legsAt rate scale orders).map Leg.total).sum = scale * need rate orders := by
  induction orders with
  | nil => simp [legsAt, need]
  | cons order orders ih =>
    simp only [legsAt, need, List.map_cons, List.sum_cons, Leg.total] at ih ⊢
    rw [ih]
    ring

variable {orders : List Order} {rate : ℚ} {session : Date}

theorem need_eq_dropLast (rate : ℚ) (h : orders ≠ []) :
    need rate orders = need rate orders.dropLast + (orders.getLast h).amount * (1 + rate) := by
  conv_lhs => rw [← List.dropLast_append_getLast h]
  simp [need]

theorem legsAt_eq_dropLast (rate scale : ℚ) (h : orders ≠ []) : legsAt rate scale orders = legsAt rate scale orders.dropLast ++
      [⟨orders.getLast h, (orders.getLast h).amount * scale, (orders.getLast h).amount * scale * rate⟩] := by
  conv_lhs => rw [← List.dropLast_append_getLast h]
  simp [legsAt]

theorem remaining_eq {cash : ℚ} (h : orders ≠ []) (hn : need rate orders ≠ 0) :
    cash - cash / need rate orders * need rate orders.dropLast =
      cash / need rate orders * ((orders.getLast h).amount * (1 + rate)) := by
  have hmul : cash / need rate orders * need rate orders = cash := div_mul_cancel₀ cash hn
  have hsplit := need_eq_dropLast rate h
  generalize cash / need rate orders = scale at hmul ⊢
  rw [hsplit] at hmul
  linarith

theorem lastLeg_eq (scale amount : ℚ) (order : Order) (hr : 1 + rate ≠ 0) :
    Leg.mk order (scale * (amount * (1 + rate)) / (1 + rate))
        (scale * (amount * (1 + rate)) - scale * (amount * (1 + rate)) / (1 + rate)) =
      ⟨order, amount * scale, amount * scale * rate⟩ := by
  have hn : scale * (amount * (1 + rate)) / (1 + rate) = amount * scale := by
    rw [← mul_assoc, mul_div_assoc, div_self hr, mul_one, mul_comm]
  rw [hn]
  congr 1
  ring

theorem spendLegs_eq_ok_iff {cash cash' : ℚ} {h : orders ≠ []} {legs : List Leg} :
    spendLegs cash rate orders h session = .ok (legs, cash') ↔ (cash ≤ need rate orders → need rate orders ≠ 0 ∧ 1 + rate ≠ 0 ∧
          0 ≤ cash / need rate orders * ((orders.getLast h).amount * (1 + rate))) ∧
        legs = legsAt rate (spendScale cash rate orders) orders ∧
          cash' = cash - spendScale cash rate orders * need rate orders := by
  have hfull : (orders.map fun order => Leg.mk order order.amount (order.amount * rate)) =
      legsAt rate 1 orders := by simp [legsAt]
  have hneed : ((legsAt rate 1 orders).map Leg.total).sum = need rate orders := by
    rw [sum_total_legsAt, one_mul]
  have hhead : ∀ scale : ℚ, ((legsAt rate 1 orders).dropLast.map fun leg =>
      Leg.mk leg.order (leg.notional * scale) (leg.notional * scale * rate)) = legsAt rate scale orders.dropLast := by
    intro scale
    simp [legsAt, List.map_dropLast, Function.comp_def]
  unfold spendLegs
  simp only [hfull, hneed, hhead, sum_total_legsAt]
  by_cases hc : need rate orders < cash
  · simp only [hc, if_true, pure_eq_ok_iff, Prod.mk.injEq, spendScale, one_mul, not_le.2 hc, false_implies, true_and]
    exact and_congr eq_comm eq_comm
  · have hle : cash ≤ need rate orders := not_lt.1 hc
    simp only [hc, if_false, spendScale, hle, true_implies, bind_eq_ok_iff, divide_eq_ok_iff]
    constructor
    · rintro ⟨_, ⟨hn, rfl⟩, hrest⟩
      rw [remaining_eq h hn] at hrest
      split_ifs at hrest with hneg
      · cases hrest
      · simp only [bind_eq_ok_iff, divide_eq_ok_iff, pure_eq_ok_iff, Prod.mk.injEq] at hrest
        obtain ⟨_, ⟨hr, rfl⟩, rfl, rfl⟩ := hrest
        refine ⟨⟨hn, hr, not_lt.1 hneg⟩, ?_, ?_⟩
        · rw [lastLeg_eq _ _ _ hr, ← legsAt_eq_dropLast]
        · rw [div_mul_cancel₀ cash hn, sub_self]
    · rintro ⟨⟨hn, hr, hpos⟩, rfl, rfl⟩
      refine ⟨_, ⟨hn, rfl⟩, ?_⟩
      rw [remaining_eq h hn, if_neg (not_lt.2 hpos)]
      simp only [bind_eq_ok_iff, divide_eq_ok_iff, pure_eq_ok_iff, Prod.mk.injEq]
      refine ⟨_, ⟨hr, rfl⟩, ?_, ?_⟩
      · rw [lastLeg_eq _ _ _ hr, ← legsAt_eq_dropLast]
      · rw [div_mul_cancel₀ cash hn, sub_self]

def Book.giveBack (book : Book) (leg : Leg) : Book := { book with cash := book.cash + leg.total }

def Book.afterBuy (book : Book) (leg : Leg) : Book :=
  { book with
    shares := book.shares.set leg.order.symbol
      (book.held leg.order.symbol + leg.notional / leg.order.price) }

def buyTrade (cutoffAt : Instant) (session : Date) (value : ℚ) (book : Book) (leg : Leg) : Trade :=
  ⟨cutoffAt, session, leg.order.symbol, .buy, leg.notional / leg.order.price, leg.order.price,
    leg.notional, leg.fee, book.held leg.order.symbol * leg.order.price / value,
    (book.held leg.order.symbol + leg.notional / leg.order.price) * leg.order.price / value⟩

inductive BuyLeg (floor : ℚ) (cutoffAt : Instant) (session : Date) (value : ℚ) (book : Book)
    (trades : List Trade) (leg : Leg) : Book × List Trade → Prop where
  | dropped (small : leg.notional < floor) :
      BuyLeg floor cutoffAt session value book trades leg (book.giveBack leg, trades)
  | filled (large : floor ≤ leg.notional) (price_ne : leg.order.price ≠ 0) (value_ne : value ≠ 0) :
      BuyLeg floor cutoffAt session value book trades leg
        (book.afterBuy leg, trades ++ [buyTrade cutoffAt session value book leg])

variable {floor value : ℚ} {cutoffAt : Instant} {result : Book × List Trade}

theorem buyLeg_eq_ok_iff {trades : List Trade} {leg : Leg} : buyLeg floor cutoffAt session value (book, trades) leg = .ok result ↔
      BuyLeg floor cutoffAt session value book trades leg result := by
  unfold buyLeg
  by_cases h : leg.notional < floor
  · simp only [h, if_true, pure_eq_ok_iff]
    constructor
    · rintro rfl
      exact .dropped h
    · rintro (_ | ⟨large, -, -⟩)
      · rfl
      · exact absurd h (not_lt.2 large)
  · simp only [h, if_false, bind_eq_ok_iff, divide_eq_ok_iff, pure_eq_ok_iff]
    constructor
    · rintro ⟨_, ⟨hp, rfl⟩, _, ⟨hv, rfl⟩, _, ⟨-, rfl⟩, rfl⟩
      exact .filled (not_lt.1 h) hp hv
    · rintro (small | ⟨-, hp, hv⟩)
      · exact absurd small h
      · exact ⟨_, ⟨hp, rfl⟩, _, ⟨hv, rfl⟩, _, ⟨hv, rfl⟩, rfl⟩

def spentLegs (cash rate : ℚ) (orders : List Order) : List Leg := legsAt rate (spendScale cash rate orders) orders

/-- The cash that `spend` keeps before it fills the legs. -/
def cashAfter (cash rate : ℚ) (orders : List Order) : ℚ := cash - spendScale cash rate orders * need rate orders

theorem spend_nil (floor : ℚ) (book : Book) (rules : ExecutionRules) (cutoffAt : Instant) (session : Date) (value : ℚ) :
    spend floor book [] rules cutoffAt session value = .ok (book, []) := rfl

variable {rules : ExecutionRules}

theorem spend_eq_ok_iff (h : orders ≠ []) :
    spend floor book orders rules cutoffAt session value = .ok result ↔ (book.cash ≤ need rules.costRate orders →
          need rules.costRate orders ≠ 0 ∧ 1 + rules.costRate ≠ 0 ∧
          0 ≤ book.cash / need rules.costRate orders *
            ((orders.getLast h).amount * (1 + rules.costRate))) ∧
        (spentLegs book.cash rules.costRate orders).foldlM (buyLeg floor cutoffAt session value)
          ({ book with cash := cashAfter book.cash rules.costRate orders }, []) = .ok result := by
  unfold spend
  rw [dif_neg h, bind_eq_ok_iff]
  constructor
  · rintro ⟨⟨legs, cash⟩, hlegs, hfold⟩
    obtain ⟨hcond, rfl, rfl⟩ := spendLegs_eq_ok_iff.1 hlegs
    exact ⟨hcond, hfold⟩
  · rintro ⟨hcond, hfold⟩
    exact ⟨_, spendLegs_eq_ok_iff.2 ⟨hcond, rfl, rfl⟩, hfold⟩

/-! ## Sales and orders -/

theorem soldShares_eq_ok_iff {weight held excess price sold : ℚ} : soldShares weight held excess price = .ok sold ↔
      (weight ≠ 0 → price ≠ 0) ∧ sold = if weight = 0 then held else excess / price := by
  unfold soldShares
  by_cases h : weight = 0
  · simp [h, eq_comm]
  · simp [h, divide_eq_ok_iff]

def excess (target : TargetPortfolio) (value held last : ℚ) (symbol : Symbol) : ℚ := held * last - target.weightOf symbol * value

/-- The state after a sale of the excess of `held` shares. -/
def SellState.sell (target : TargetPortfolio) (session : Date) (rate value : ℚ) (symbol : Symbol)
    (held last price sold : ℚ) (state : SellState) : SellState where
  book := {
    cash := state.book.cash + (sold * price - sold * price * rate)
    shares :=
      if held - sold = 0 then state.book.shares.erase symbol
      else state.book.shares.set symbol (held - sold)
    last := state.book.last }
  trades := state.trades ++ [⟨target.cutoffAt, session, symbol, .sell, sold, price, sold * price,
    sold * price * rate, held * last / value, (held - sold) * price / value⟩]
  unfilled := state.unfilled
  traded := state.traded + sold * price

inductive SellStep (floor : ℚ) (target : TargetPortfolio) (session : Date) (opens : Dict Symbol ℚ)
    (rules : ExecutionRules) (value : ℚ) (state : SellState) (symbol : Symbol) : SellState → Prop where
  | kept {held last : ℚ} (hheld : state.book.shares.get? symbol = some held)
      (hlast : state.book.last.get? symbol = some last)
      (small : excess target value held last symbol < floor) :
      SellStep floor target session opens rules value state symbol state
  | unfilled {held last : ℚ} (hheld : state.book.shares.get? symbol = some held)
      (hlast : state.book.last.get? symbol = some last)
      (large : floor ≤ excess target value held last symbol) (hopen : opens.get? symbol = none) :
      SellStep floor target session opens rules value state symbol
        { state with unfilled := state.unfilled ++ [symbol] }
  | sold {held last price sold : ℚ} (hheld : state.book.shares.get? symbol = some held)
      (hlast : state.book.last.get? symbol = some last)
      (large : floor ≤ excess target value held last symbol) (hopen : opens.get? symbol = some price)
      (hsold : soldShares (target.weightOf symbol) held (excess target value held last symbol) price =
        .ok sold) (value_ne : value ≠ 0) :
      SellStep floor target session opens rules value state symbol
        (state.sell target session rules.costRate value symbol held last price sold)

variable {target : TargetPortfolio} {opens : Dict Symbol ℚ}

theorem sellStep_eq_ok_iff {state state' : SellState} :
    sellStep floor target session opens rules value state symbol = .ok state' ↔
      SellStep floor target session opens rules value state symbol state' := by
  unfold sellStep
  simp only [bind_eq_ok_iff, index_eq_ok_iff]
  constructor
  · rintro ⟨held, hheld, last, hlast, hrest⟩
    change (if excess target value held last symbol < floor then _ else _) = _ at hrest
    by_cases hsmall : excess target value held last symbol < floor
    · rw [if_pos hsmall, pure_eq_ok_iff] at hrest
      subst hrest
      exact .kept hheld hlast hsmall
    · rw [if_neg hsmall] at hrest
      rcases hopen : opens.get? symbol with _ | price
      · simp only [hopen, pure_eq_ok_iff] at hrest
        subst hrest
        exact .unfilled hheld hlast (not_lt.1 hsmall) hopen
      · simp only [hopen, bind_eq_ok_iff, divide_eq_ok_iff, pure_eq_ok_iff] at hrest
        obtain ⟨sold, hsold, _, ⟨hv, rfl⟩, _, ⟨-, rfl⟩, rfl⟩ := hrest
        exact .sold hheld hlast (not_lt.1 hsmall) hopen hsold hv
  · intro h
    cases h with
    | @kept held last hheld hlast hsmall =>
      refine ⟨held, hheld, last, hlast, ?_⟩
      exact (if_pos hsmall).trans rfl
    | @unfilled held last hheld hlast hlarge hopen =>
      refine ⟨held, hheld, last, hlast, ?_⟩
      refine (if_neg (not_lt.2 hlarge)).trans ?_
      simp only [hopen]
      rfl
    | @sold held last price sold hheld hlast hlarge hopen hsold hv =>
      refine ⟨held, hheld, last, hlast, ?_⟩
      refine (if_neg (not_lt.2 hlarge)).trans ?_
      simp only [hopen, bind_eq_ok_iff, divide_eq_ok_iff, pure_eq_ok_iff]
      exact ⟨sold, hsold, _, ⟨hv, rfl⟩, _, ⟨hv, rfl⟩, rfl⟩

def shortfall (weight value : ℚ) (book : Book) (symbol : Symbol) : ℚ := weight * value - book.held symbol * book.lastOf symbol

inductive OrderStep (floor : ℚ) (cutoffAt : Instant) (session : Date) (opens : Dict Symbol ℚ)
    (rules : ExecutionRules) (value : ℚ) (book : Book) (state : OrderState) (symbol : Symbol)
    (weight : ℚ) : OrderState → Prop where
  | none (h : weight ≤ 0 ∨ shortfall weight value book symbol < floor) :
      OrderStep floor cutoffAt session opens rules value book state symbol weight state
  | order {price : ℚ} (hweight : 0 < weight) (large : floor ≤ shortfall weight value book symbol)
      (hopen : opens.get? symbol = some price) :
      OrderStep floor cutoffAt session opens rules value book state symbol weight
        { state with orders := state.orders ++ [⟨symbol, price, shortfall weight value book symbol⟩] }
  | unfilled (hweight : 0 < weight) (large : floor ≤ shortfall weight value book symbol)
      (hopen : opens.get? symbol = .none) :
      OrderStep floor cutoffAt session opens rules value book state symbol weight
        { orders := state.orders
          unfilled := if symbol ∈ state.unfilled then state.unfilled else state.unfilled ++ [symbol]
          pending :=
            if rules.unfilledOrderBehavior = .nextSessionOpen then
              state.pending.set symbol ⟨cutoffAt, session, shortfall weight value book symbol⟩
            else state.pending }

theorem orderStep_spec (floor : ℚ) (cutoffAt : Instant) (session : Date) (opens : Dict Symbol ℚ)
    (rules : ExecutionRules) (value : ℚ) (book : Book) (state : OrderState) (symbol : Symbol)
    (weight : ℚ) :
    OrderStep floor cutoffAt session opens rules value book state symbol weight
      (orderStep floor cutoffAt session opens rules value book state (symbol, weight)) := by
  unfold orderStep
  by_cases hw : weight ≤ 0
  · simp only [hw, if_true]
    exact .none (.inl hw)
  · simp only [hw, if_false]
    change OrderStep _ _ _ _ _ _ _ _ _ _
      (if shortfall weight value book symbol < floor then _ else _)
    by_cases hsmall : shortfall weight value book symbol < floor
    · rw [if_pos hsmall]
      exact .none (.inr hsmall)
    · rw [if_neg hsmall]
      rcases hopen : opens.get? symbol with _ | price
      · exact .unfilled (not_le.1 hw) (not_lt.1 hsmall) hopen
      · exact .order (not_le.1 hw) (not_lt.1 hsmall) hopen

/-- The orders of the loop are at an open of the session and not below the floor, as the waiting ones are. -/
structure OrderInv (floor : ℚ) (cutoffAt : Instant) (session : Date) (opens : Dict Symbol ℚ)
    (state : OrderState) : Prop where
  orders : ∀ order ∈ state.orders, opens.get? order.symbol = some order.price ∧ floor ≤ order.amount
  pending : ∀ symbol pending, state.pending.get? symbol = some pending →
    pending.cutoffAt = cutoffAt ∧ pending.orderedSession = session ∧ floor ≤ pending.amount

variable {opens : Dict Symbol ℚ} {rules : ExecutionRules}

theorem OrderStep.inv {floor : ℚ} {session : Date} {value : ℚ} {book : Book} {state state' : OrderState} {symbol : Symbol}
    {weight : ℚ} (h : OrderStep floor cutoffAt session opens rules value book state symbol weight state')
    (hinv : OrderInv floor cutoffAt session opens state) :
    OrderInv floor cutoffAt session opens state' := by
  cases h with
  | none => exact hinv
  | order hweight large hopen =>
    refine ⟨fun order horder => ?_, hinv.pending⟩
    rcases List.mem_append.1 horder with h | h
    · exact hinv.orders order h
    · obtain rfl := List.mem_singleton.1 h
      exact ⟨hopen, large⟩
  | unfilled hweight large hopen =>
    refine ⟨hinv.orders, fun s p hp => ?_⟩
    dsimp only at hp
    split_ifs at hp with hb
    · rw [Dict.get?_set] at hp
      split_ifs at hp
      · cases hp
        exact ⟨rfl, rfl, large⟩
      · exact hinv.pending s p hp
    · exact hinv.pending s p hp

theorem orderLoop_inv (floor : ℚ) (target : TargetPortfolio) (session : Date) (opens : Dict Symbol ℚ)
    (rules : ExecutionRules) (value : ℚ) (sold : SellState) :
    OrderInv floor target.cutoffAt session opens
      (orderLoop floor target session opens rules value sold) := by
  refine foldl_inv (fun _ state => OrderInv floor target.cutoffAt session opens state) _ ?_ ?_
  · exact ⟨by simp, by simp⟩
  · rintro - ⟨symbol, weight⟩ - state - hinv
    exact (orderStep_spec floor target.cutoffAt session opens rules value sold.book state symbol
      weight).inv hinv

theorem rebalance_eq_ok_iff {made : Traded} {fill : Fill} : rebalance floor book target session opens rules = .ok (made, fill) ↔
      (book.mark opens).Priced ∧ 0 < (book.mark opens).value ∧ ∃ sold trades,
          sellLoop floor target session opens rules (book.mark opens).value (book.mark opens) = .ok sold ∧ spend floor sold.book
                (orderLoop floor target session opens rules (book.mark opens).value sold).orders rules
                target.cutoffAt session (book.mark opens).value = .ok (made.book, trades) ∧
            made.pending = (orderLoop floor target session opens rules (book.mark opens).value sold).pending ∧
            made.trades = sold.trades ++ trades ∧
            fill = ⟨target.cutoffAt, some session, sortedBy id
                (orderLoop floor target session opens rules (book.mark opens).value sold).unfilled,
              (sold.traded + (trades.map Trade.notional).sum) / (2 * (book.mark opens).value)⟩ := by
  unfold rebalance
  simp only [bind_eq_ok_iff, marketValue_eq_ok_iff]
  constructor
  · rintro ⟨_, ⟨hpriced, rfl⟩, hrest⟩
    change (if (book.mark opens).value ≤ 0 then _ else _) = _ at hrest
    split_ifs at hrest with hv
    · cases hrest
    · simp only [bind_eq_ok_iff, divide_eq_ok_iff, pure_eq_ok_iff, Prod.mk.injEq, Prod.exists] at hrest
      obtain ⟨sold, hsold, book', trades, hspend, _, ⟨-, rfl⟩, rfl, rfl⟩ := hrest
      exact ⟨hpriced, not_le.1 hv, sold, trades, hsold, hspend, rfl, rfl, rfl⟩
  · rintro ⟨hpriced, hv, sold, trades, hsold, hspend, hpending, htrades, rfl⟩
    refine ⟨_, ⟨hpriced, rfl⟩, ?_⟩
    change (if (book.mark opens).value ≤ 0 then _ else _) = _
    rw [if_neg (not_le.2 hv)]
    simp only [bind_eq_ok_iff, divide_eq_ok_iff, pure_eq_ok_iff, Prod.mk.injEq, Prod.exists]
    have hne : 2 * (book.mark opens).value ≠ 0 := by positivity
    refine ⟨sold, hsold, made.book, trades, hspend, _, ⟨hne, rfl⟩, ?_, rfl⟩
    cases made
    cases hpending
    cases htrades
    rfl

/-- The branches of one iteration of `fillPending`. -/
inductive PendingStep (floor : ℚ) (session : Date) (opens : Dict Symbol ℚ) (rules : ExecutionRules)
    (state : PendingState) (symbol : Symbol) : PendingState → Prop where
  | waiting (hopen : opens.get? symbol = none) :
      PendingStep floor session opens rules state symbol state
  | filled {price : ℚ} {order : Pending} {book : Book} {made : List Trade}
      (hopen : opens.get? symbol = some price) (horder : state.pending.get? symbol = some order)
      (priced : state.book.Priced)
      (hspend : spend floor state.book [⟨symbol, price, order.amount⟩] rules order.cutoffAt session
        state.book.value = .ok (book, made)) :
      PendingStep floor session opens rules state symbol
        { book
          pending := state.pending.erase symbol
          trades := state.trades ++ made
          deferred := state.deferred ++ [⟨symbol, order.cutoffAt, order.orderedSession, session⟩] }

theorem pendingStep_eq_ok_iff {state state' : PendingState} : pendingStep floor session opens rules state symbol = .ok state' ↔
      PendingStep floor session opens rules state symbol state' := by
  unfold pendingStep
  rcases hopen : opens.get? symbol with _ | price
  · simp only [pure_eq_ok_iff]
    constructor
    · rintro rfl
      exact .waiting hopen
    · intro h
      cases h with
      | waiting => rfl
      | filled hopen' => rw [hopen] at hopen'; cases hopen'
  · simp only [bind_eq_ok_iff, index_eq_ok_iff, marketValue_eq_ok_iff, pure_eq_ok_iff, Prod.exists]
    constructor
    · rintro ⟨order, horder, _, ⟨hpriced, rfl⟩, book, made, hspend, rfl⟩
      exact .filled hopen horder hpriced hspend
    · intro h
      cases h with
      | waiting hopen' => rw [hopen] at hopen'; cases hopen'
      | @filled price' order book made hopen' horder hpriced hspend =>
        rw [hopen] at hopen'
        cases hopen'
        exact ⟨order, horder, _, ⟨hpriced, rfl⟩, book, made, hspend, rfl⟩

/-! ## The session loop -/

def valuationOf (capital peak : ℚ) (session : Date) (book : Book) : Valuation :=
  ⟨session, book.value, book.value / capital, (max peak book.value - book.value) / max peak book.value,
    book.market / book.value, book.cash / book.value⟩

variable {state state' : RunState} {capital : ℚ}

theorem valueSession_eq_ok_iff {first : Date} : valueSession capital first state session = .ok state' ↔
      (session < first ∧ state' = state) ∨
        (first ≤ session ∧ state.book.Priced ∧ capital ≠ 0 ∧ max state.peak state.book.value ≠ 0 ∧ state.book.value ≠ 0 ∧
          state' = { state with
            peak := max state.peak state.book.value
            valuations := state.valuations ++ [valuationOf capital state.peak session state.book] }) := by
  unfold valueSession
  by_cases h : session < first
  · simp only [h, if_true, pure_eq_ok_iff, not_le.2 h, false_and, or_false, true_and]
    exact eq_comm
  · simp only [h, if_false, false_and, false_or, not_lt.1 h, true_and, bind_eq_ok_iff,
      marketValue_eq_ok_iff, divide_eq_ok_iff, pure_eq_ok_iff]
    constructor
    · rintro ⟨_, ⟨hp, rfl⟩, _, ⟨hc, rfl⟩, _, ⟨hpeak, rfl⟩, _, ⟨hv, rfl⟩, _, ⟨-, rfl⟩, rfl⟩
      exact ⟨hp, hc, hpeak, hv, rfl⟩
    · rintro ⟨hp, hc, hpeak, hv, rfl⟩
      exact ⟨_, ⟨hp, rfl⟩, _, ⟨hc, rfl⟩, _, ⟨hpeak, rfl⟩, _, ⟨hv, rfl⟩, _, ⟨hv, rfl⟩, rfl⟩

theorem splitStep_eq_ok_iff : splitStep state event = .ok state' ↔
      ∃ book record, applySplit state.book event = .ok (book, record) ∧
        state' = { state with book, applied := state.applied ++ record.toList } := by
  unfold splitStep
  simp only [bind_eq_ok_iff, pure_eq_ok_iff, Prod.exists]
  exact exists_congr fun _ => exists_congr fun _ => and_congr_right fun _ => eq_comm

variable {book : PriceBook}

theorem mem_splitsOn : event ∈ book.splitsOn session ↔ event ∈ book.splits ∧ event.exDate = session := by
  simp [PriceBook.splitsOn]

inductive TradeSession (floor : ℚ) (opens : Dict Symbol ℚ) (rules : ExecutionRules)
    (state : RunState) (session : Date) : Option TargetPortfolio → RunState → Prop where
  | rebalanced {target : TargetPortfolio} {made : Traded} {fill : Fill}
      (h : rebalance floor state.book target session opens rules = .ok (made, fill)) :
      TradeSession floor opens rules state session (some target)
        { state with
          book := made.book
          pending := made.pending
          trades := state.trades ++ made.trades
          fills := state.fills ++ [fill] }
  | filledPending {late : PendingState}
      (h : fillPending floor (state.book.mark opens) state.pending session opens rules = .ok late) :
      TradeSession floor opens rules state session none
        { state with
          book := late.book
          pending := late.pending
          trades := state.trades ++ late.trades
          deferred := state.deferred ++ late.deferred }

theorem tradeSession_eq_ok_iff {floor : ℚ} {due : Option TargetPortfolio} {state state' : RunState} {session : Date} :
    tradeSession floor opens due rules state session = .ok state' ↔ TradeSession floor opens rules state session due state' := by
  unfold tradeSession
  cases due with
  | some target =>
    simp only [bind_eq_ok_iff, pure_eq_ok_iff, Prod.exists]
    constructor
    · rintro ⟨made, fill, h, rfl⟩
      exact .rebalanced h
    · intro h
      cases h with
      | rebalanced h => exact ⟨_, _, h, rfl⟩
  | none =>
    simp only [bind_eq_ok_iff, pure_eq_ok_iff]
    constructor
    · rintro ⟨late, h, rfl⟩
      exact .filledPending h
    · intro h
      cases h with
      | filledPending h => exact ⟨_, h, rfl⟩

def RunState.close (state : RunState) (closes : Dict Symbol ℚ) : RunState := { state with book := state.book.mark closes }

theorem sessionStep_eq_ok_iff {due : Dict Date TargetPortfolio} {first : Date} :
    sessionStep floor book due rules capital first state session = .ok state' ↔
      ∃ split traded, (book.splitsOn session).foldlM splitStep state = .ok split ∧
        TradeSession floor (book.opensOn session) rules split session (due.get? session) traded ∧
        valueSession capital first (traded.close (book.closesOn session)) session = .ok state' := by
  unfold sessionStep
  simp only [bind_eq_ok_iff, tradeSession_eq_ok_iff]
  constructor
  · rintro ⟨split, hs, traded, ht, hv⟩
    exact ⟨split, traded, hs, ht, hv⟩
  · rintro ⟨split, traded, hs, ht, hv⟩
    exact ⟨split, hs, traded, ht, hv⟩

def fillDate (sessions : List Date) (rules : ExecutionRules) (cutoffAt : Instant) : Option Date :=
  sessions[bisectRight sessions (utcDate cutoffAt) + (rules.lagSessions.toNat - 1)]?

theorem scheduleStep_eq_ok_iff {sessions : List Date} {schedule schedule' : Schedule} :
    scheduleStep sessions rules schedule target = .ok schedule' ↔ 1 ≤ rules.lagSessions ∧
        ((fillDate sessions rules target.cutoffAt = none ∧ schedule' =
          { schedule with
              unscheduled := schedule.unscheduled ++ [⟨target.cutoffAt, none, [], 0⟩] }) ∨
          ∃ session, fillDate sessions rules target.cutoffAt = some session ∧ schedule.due.get? session = none ∧
            schedule' = { schedule with due := schedule.due.set session target }) := by
  unfold scheduleStep fillSession
  by_cases hlag : rules.lagSessions < 1
  · simp only [hlag, if_true, not_le.2 hlag, false_and, iff_false, bind_eq_ok_iff]
    rintro ⟨_, h, -⟩
    cases h
  · simp only [hlag, if_false, not_lt.1 hlag, true_and, ok_bind]
    rw [show sessions[bisectRight sessions (utcDate target.cutoffAt) + (rules.lagSessions.toNat - 1)]? =
      fillDate sessions rules target.cutoffAt from rfl]
    rcases fillDate sessions rules target.cutoffAt with _ | session
    · simp [ok_eq_pure_iff, eq_comm]
    · rcases hdue : schedule.due.get? session with _ | old
      · simp [hdue, ok_eq_pure_iff, eq_comm]
      · simp only [hdue, Option.isSome_some, if_true]
        constructor
        · intro h
          cases h
        · rintro (⟨h, -⟩ | ⟨_, h, hnone, -⟩)
          · cases h
          · cases h
            rw [hdue] at hnone
            cases hnone

theorem simulateAt_eq_ok_iff {targets : List TargetPortfolio} {result : Simulation} :
    simulateAt floor book targets rules capital = .ok result ↔
      0 < capital ∧ ∃ schedule, scheduleTargets book.sessions targets rules = .ok schedule ∧
        ((schedule.first = none ∧ result = ⟨[], [], schedule.unscheduled, [], []⟩) ∨ ∃ first state, schedule.first = some first ∧
            runSessions floor book schedule.due rules capital first book.sessions = .ok state ∧
            result = ⟨state.valuations, state.trades, sortedBy Fill.cutoffAt (schedule.unscheduled ++ state.fills), state.applied,
              state.deferred⟩) := by
  unfold simulateAt
  by_cases hc : capital ≤ 0
  · simp only [hc, if_true, not_lt.2 hc, false_and, iff_false]
    intro h
    cases h
  · simp only [hc, if_false, not_le.1 hc, true_and, bind_eq_ok_iff]
    constructor
    · rintro ⟨schedule, hs, hrest⟩
      refine ⟨schedule, hs, ?_⟩
      rcases hfirst : schedule.first with _ | first
      · simp only [hfirst, pure_eq_ok_iff] at hrest
        exact .inl ⟨rfl, hrest.symm⟩
      · simp only [hfirst, bind_eq_ok_iff, pure_eq_ok_iff] at hrest
        obtain ⟨state, hrun, rfl⟩ := hrest
        exact .inr ⟨first, state, rfl, hrun, rfl⟩
    · rintro ⟨schedule, hs, ⟨hfirst, rfl⟩ | ⟨first, state, hfirst, hrun, rfl⟩⟩
      · exact ⟨schedule, hs, by rw [hfirst]; rfl⟩
      · refine ⟨schedule, hs, ?_⟩
        simp only [hfirst, bind_eq_ok_iff, pure_eq_ok_iff]
        exact ⟨state, hrun, rfl⟩

end TrueAlpha.Backtest
