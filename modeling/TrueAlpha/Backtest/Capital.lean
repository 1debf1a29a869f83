import TrueAlpha.Backtest.Rebase

/-!
# Capital independence

A run at `k` times the capital and the order floor is the first run with money and shares multiplied by `k`
(`simulateAt_scale`).  At one floor the runs differ only through an amount between zero and the floor; `RunClear` excludes it.
-/

namespace TrueAlpha.Backtest

def Valuation.scale (k : ℚ) (v : Valuation) : Valuation := { v with value := k * v.value }

def Trade.scale (k : ℚ) (t : Trade) : Trade := { t with shares := k * t.shares, notional := k * t.notional, fee := k * t.fee }

def AppliedSplit.scale (k : ℚ) (s : AppliedSplit) : AppliedSplit :=
  { s with sharesBefore := k * s.sharesBefore, sharesAfter := k * s.sharesAfter }

/-- The outputs with every value, share count, notional and fee multiplied by `k`. -/
def Simulation.scale (k : ℚ) (r : Simulation) : Simulation where
  valuations := r.valuations.map (Valuation.scale k)
  trades := r.trades.map (Trade.scale k)
  fills := r.fills
  splitsApplied := r.splitsApplied.map (AppliedSplit.scale k)
  deferredFills := r.deferredFills

/-! ## The run in other units -/

variable {capital : ℚ} {rules : ExecutionRules} {due : Dict Date TargetPortfolio} {floor : ℚ}

namespace Units

variable (u : Units)

def split (s : AppliedSplit) : AppliedSplit :=
  { s with
    sharesBefore := s.sharesBefore * u.share s.symbol
    sharesAfter := s.sharesAfter * u.share s.symbol }

def runState (s : RunState) : RunState where
  book := u.book s.book
  pending := u.pending s.pending
  peak := s.peak * u.money
  trades := s.trades.map u.trade
  fills := s.fills
  applied := s.applied.map u.split
  deferred := s.deferred
  valuations := s.valuations.map u.valuation

variable {event : SplitEvent} {state state' : RunState}

theorem splitLast_units {last last' : Dict Symbol ℚ} (h : splitLast last event = .ok last') :
    splitLast (u.prices last) event = .ok (u.prices last') := by
  apply splitLast_eq_ok_iff.2
  rw [u.get?_prices]
  rcases splitLast_eq_ok_iff.1 h with ⟨hnone, rfl⟩ | ⟨p, hp, hn, rfl⟩
  · exact .inl ⟨by rw [hnone, Option.map_none], rfl⟩
  · refine .inr ⟨p * u.price event.symbol, by rw [hp, Option.map_some], hn, ?_⟩
    rw [prices, prices, Dict.mapVal_set]
    congr 1
    ring

theorem splitShares_units {shares shares' : Dict Symbol ℚ} {record : Option AppliedSplit}
    (h : splitShares shares event = .ok (shares', record)) :
    splitShares (u.shares shares) event = .ok (u.shares shares', record.map u.split) := by
  apply splitShares_eq_ok_iff.2
  rw [u.get?_shares]
  rcases splitShares_eq_ok_iff.1 h with ⟨hzero, rfl, rfl⟩ | ⟨held, hheld, hne, hd, rfl, rfl⟩
  · exact .inl ⟨by rw [getD_map_mul, hzero, zero_mul], rfl, rfl⟩
  · have hafter : held * event.numerator / event.denominator * u.share event.symbol =
        held * u.share event.symbol * event.numerator / event.denominator := by ring
    refine .inr ⟨held * u.share event.symbol, by rw [hheld, Option.map_some],
      mul_ne_zero hne (u.share_pos _).ne', hd, ?_, ?_⟩
    · rw [Units.shares, Units.shares, Dict.mapVal_set, hafter]
    · rw [← hafter]
      rfl

theorem splitStep_units (h : splitStep state event = .ok state') :
    splitStep (u.runState state) event = .ok (u.runState state') := by
  obtain ⟨b, record, happly, rfl⟩ := splitStep_eq_ok_iff.1 h
  obtain ⟨hlast, hshares, hcash⟩ := applySplit_eq_ok_iff.1 happly
  refine splitStep_eq_ok_iff.2 ⟨u.book b, record.map u.split, applySplit_eq_ok_iff.2
    ⟨u.splitLast_units hlast, u.splitShares_units hshares, ?_⟩, ?_⟩
  · change b.cash * u.money = state.book.cash * u.money
    rw [hcash]
  · simp only [runState, List.map_append, Option.toList_map]

theorem splits_units {events : List SplitEvent} (h : events.foldlM splitStep state = .ok state') :
    events.foldlM splitStep (u.runState state) = .ok (u.runState state') := by
  have := foldlM_map_ok u.runState id h fun _ _ _ hstep => u.splitStep_units hstep
  rwa [List.map_id] at this

theorem sessionStep_units {prices : PriceBook} {first : Date} {session : Date} (hprices : ∀ d, u.prices d = d)
    (h : sessionStep floor prices due rules capital first state session = .ok state') :
    sessionStep (floor * u.money) prices due rules (capital * u.money) first (u.runState state) session =
      .ok (u.runState state') := by
  obtain ⟨split, traded, hsplit, htrade, hvalue⟩ := sessionStep_eq_ok_iff.1 h
  obtain ⟨made, fills, deferred, happ, htrade'⟩ := u.tradeSession_units (c := u.runState split) htrade rfl rfl
  have hclose : (u.book traded.book).mark (prices.closesOn session) = u.book (traded.close (prices.closesOn session)).book := by
    have := u.mark_book traded.book (prices.closesOn session)
    rwa [hprices] at this
  rw [hprices] at htrade'
  obtain ⟨vals, hstate', -, hvalue'⟩ := u.valueSession_units
    (c := u.runState (traded.close (prices.closesOn session))) hvalue rfl rfl
  refine sessionStep_eq_ok_iff.2 ⟨_, _, u.splits_units hsplit, htrade', ?_⟩
  have htraded : RunState.close
      { u.runState split with
        book := u.book traded.book
        pending := u.pending traded.pending
        trades := (u.runState split).trades ++ made.map u.trade
        fills := (u.runState split).fills ++ fills
        deferred := (u.runState split).deferred ++ deferred } (prices.closesOn session) =
      u.runState (traded.close (prices.closesOn session)) := by
    simp only [RunState.close, runState, hclose, happ.trades_eq, happ.fills_eq, happ.deferred_eq,
      happ.peak_eq, happ.applied_eq, happ.valuations_eq, List.map_append]
  rw [htraded, hvalue', hstate']
  simp only [runState, List.map_append]

def ofCapital (k : ℚ) (hk : 0 < k) : Units := ⟨k, fun _ => k, hk, fun _ => hk⟩

section OfCapital

variable {k : ℚ} (hk : 0 < k)

theorem price_ofCapital (symbol : Symbol) : (ofCapital k hk).price symbol = 1 := div_self hk.ne'

theorem prices_ofCapital (d : Dict Symbol ℚ) : (ofCapital k hk).prices d = d := by
  apply Dict.ext
  simp [prices, Dict.mapVal, price_ofCapital]

theorem trade_ofCapital : (ofCapital k hk).trade = Trade.scale k := by
  funext t
  simp only [trade, Trade.scale, price_ofCapital, mul_one]
  simp only [ofCapital, mul_comm]

theorem valuation_ofCapital : (ofCapital k hk).valuation = Valuation.scale k := by
  funext v
  simp only [valuation, Valuation.scale, ofCapital, mul_comm]

theorem split_ofCapital : (ofCapital k hk).split = AppliedSplit.scale k := by
  funext s
  simp only [split, AppliedSplit.scale, ofCapital, mul_comm]

theorem initial_ofCapital (capital : ℚ) :
    RunState.initial (capital * k) = (ofCapital k hk).runState (RunState.initial capital) := rfl

theorem sessionStep_ofCapital {prices : PriceBook} {first : Date} {session : Date}
    (h : sessionStep floor prices due rules capital first state session = .ok state') :
    sessionStep (floor * k) prices due rules (capital * k) first ((ofCapital k hk).runState state)
      session = .ok ((ofCapital k hk).runState state') :=
  (ofCapital k hk).sessionStep_units (prices_ofCapital hk) h

end OfCapital

end Units

variable {targets : List TargetPortfolio}

theorem simulateAt_scale {k : ℚ} (hk : 0 < k) {book : PriceBook}
    {r : Simulation} (h : simulateAt floor book targets rules capital = .ok r) :
    simulateAt (k * floor) book targets rules (k * capital) = .ok (r.scale k) := by
  obtain ⟨hcapital, schedule, hs, hrest⟩ := simulateAt_eq_ok_iff.1 h
  refine simulateAt_eq_ok_iff.2 ⟨mul_pos hk hcapital, schedule, hs, ?_⟩
  rcases hrest with ⟨hfirst, rfl⟩ | ⟨first, state, hfirst, hrun, rfl⟩
  · exact .inl ⟨hfirst, rfl⟩
  · have hrun' := foldlM_map_ok (Units.ofCapital k hk).runState id hrun
      fun _ _ _ hstep => Units.sessionStep_ofCapital hk hstep
    rw [List.map_id, ← Units.initial_ofCapital, mul_comm floor, mul_comm capital] at hrun'
    refine .inr ⟨first, _, hfirst, hrun', ?_⟩
    simp only [Simulation.scale, Units.runState, Units.trade_ofCapital, Units.valuation_ofCapital, Units.split_ofCapital]

theorem Simulation.scale_scale (a b : ℚ) (r : Simulation) : (r.scale b).scale a = r.scale (a * b) := by
  have hv : Valuation.scale a ∘ Valuation.scale b = Valuation.scale (a * b) := by
    funext v
    simp only [Function.comp_apply, Valuation.scale, mul_assoc]
  have ht : Trade.scale a ∘ Trade.scale b = Trade.scale (a * b) := by
    funext t
    simp only [Function.comp_apply, Trade.scale, mul_assoc]
  have hs : AppliedSplit.scale a ∘ AppliedSplit.scale b = AppliedSplit.scale (a * b) := by
    funext s
    simp only [Function.comp_apply, AppliedSplit.scale, mul_assoc]
  simp only [Simulation.scale, List.map_map, hv, ht, hs]

theorem Simulation.scale_one (r : Simulation) : r.scale 1 = r := by
  have hv : Valuation.scale 1 = id := by
    funext v
    simp only [Valuation.scale, one_mul, id]
  have ht : Trade.scale 1 = id := by
    funext t
    simp only [Trade.scale, one_mul, id]
  have hs : AppliedSplit.scale 1 = id := by
    funext s
    simp only [AppliedSplit.scale, one_mul, id]
  simp only [Simulation.scale, hv, ht, hs, List.map_id]

theorem simulateAt_of_scale {k : ℚ} (hk : 0 < k) {book : PriceBook}
    {r : Simulation} (h : simulateAt (k * floor) book targets rules (k * capital) = .ok r) :
    ∃ r₀, simulateAt floor book targets rules capital = .ok r₀ ∧ r = r₀.scale k := by
  have hback := simulateAt_scale (inv_pos.2 hk) h
  rw [inv_mul_cancel_left₀ hk.ne', inv_mul_cancel_left₀ hk.ne'] at hback
  refine ⟨_, hback, ?_⟩
  rw [Simulation.scale_scale, mul_inv_cancel₀ hk.ne', Simulation.scale_one]

/-! ## Amounts near the floor -/

def Clear (floor amount : ℚ) : Prop := ¬ (0 < amount ∧ amount < floor)

theorem Clear.lt_iff {floor floor' amount : ℚ} (h : Clear floor amount) (h' : Clear floor' amount)
    (hfloor : 0 < floor) (hfloor' : 0 < floor') : amount < floor ↔ amount < floor' := by
  unfold Clear at h h'
  constructor
  · intro hlt
    by_contra hge
    exact h ⟨by linarith, hlt⟩
  · intro hlt
    by_contra hge
    exact h' ⟨by linarith, hlt⟩

/-- No buy that `spend` makes of the orders is strictly between zero and the floor. -/
def SpendClear (floor cash rate : ℚ) (orders : List Order) (session : Date) : Prop :=
  ∀ (h : orders ≠ []) (spent : List Leg × ℚ), spendLegs cash rate orders h session = .ok spent →
    ∀ leg ∈ spent.1, Clear floor leg.notional

def SellClear (floor : ℚ) (target : TargetPortfolio) (value : ℚ) (state : SellState)
    (symbol : Symbol) : Prop :=
  ∀ held, state.book.shares.get? symbol = some held → ∀ last, state.book.last.get? symbol = some last →
    Clear floor (held * last - target.weightOf symbol * value)

def OrdersClear (floor : ℚ) (target : TargetPortfolio) (value : ℚ) (book : Book) : Prop :=
  ∀ item ∈ target.weights.items, 0 < item.2 → Clear floor (shortfall item.2 value book item.1)

def RebalanceClear (floor : ℚ) (book : Book) (target : TargetPortfolio) (session : Date)
    (opens : Dict Symbol ℚ) (rules : ExecutionRules) : Prop :=
  ∀ market, (book.mark opens).marketValue = .ok market → AtEach (sellStep floor target session opens rules (book.cash + market))
        (sortedBy id book.shares.keys) ⟨book.mark opens, [], [], 0⟩
        (SellClear floor target (book.cash + market)) ∧
      ∀ sold, sellLoop floor target session opens rules (book.cash + market) (book.mark opens) = .ok sold →
        OrdersClear floor target (book.cash + market) sold.book ∧
        SpendClear floor sold.book.cash rules.costRate
          (orderLoop floor target session opens rules (book.cash + market) sold).orders session

def PendingClear (floor : ℚ) (book : Book) (pending : Dict Symbol Pending) (session : Date)
    (opens : Dict Symbol ℚ) (rules : ExecutionRules) : Prop :=
  AtEach (pendingStep floor session opens rules) (sortedBy id pending.keys) ⟨book, pending, [], []⟩
    fun state symbol => ∀ price, opens.get? symbol = some price → ∀ order, state.pending.get? symbol = some order →
      SpendClear floor state.book.cash rules.costRate [⟨symbol, price, order.amount⟩] session

def SessionClear (floor : ℚ) (book : PriceBook) (due : Dict Date TargetPortfolio)
    (rules : ExecutionRules) (state : RunState) (session : Date) : Prop :=
  ∀ split, (book.splitsOn session).foldlM splitStep state = .ok split →
    match due.get? session with
    | some target => RebalanceClear floor split.book target session (book.opensOn session) rules
    | none => PendingClear floor (split.book.mark (book.opensOn session)) split.pending session
        (book.opensOn session) rules

def RunClear (floor : ℚ) (book : PriceBook) (targets : List TargetPortfolio) (rules : ExecutionRules)
    (capital : ℚ) : Prop :=
  ∀ schedule, scheduleTargets book.sessions targets rules = .ok schedule → ∀ first, schedule.first = some first →
    AtEach (sessionStep floor book schedule.due rules capital first) book.sessions
      (RunState.initial capital) (SessionClear floor book schedule.due rules)

/-! Whether a run is clear can be computed. -/

instance (floor amount : ℚ) : Decidable (Clear floor amount) :=
  inferInstanceAs (Decidable (¬ (0 < amount ∧ amount < floor)))

instance (floor cash rate : ℚ) (orders : List Order) (session : Date) :
    Decidable (SpendClear floor cash rate orders session) :=
  if h : orders = [] then isTrue fun h' => absurd h h'
  else decidable_of_iff (∀ spent, spendLegs cash rate orders h session = .ok spent →
    ∀ leg ∈ spent.1, Clear floor leg.notional) ⟨fun hc _ => hc, fun hc => hc h⟩

instance (floor : ℚ) (target : TargetPortfolio) (value : ℚ) (state : SellState) (symbol : Symbol) :
    Decidable (SellClear floor target value state symbol) := by
  unfold SellClear
  infer_instance

instance (floor : ℚ) (target : TargetPortfolio) (value : ℚ) (book : Book) :
    Decidable (OrdersClear floor target value book) := by
  unfold OrdersClear
  infer_instance

instance (floor : ℚ) (book : Book) (target : TargetPortfolio) (session : Date)
    (opens : Dict Symbol ℚ) (rules : ExecutionRules) :
    Decidable (RebalanceClear floor book target session opens rules) := by
  unfold RebalanceClear
  infer_instance

instance (floor : ℚ) (book : Book) (pending : Dict Symbol Pending) (session : Date)
    (opens : Dict Symbol ℚ) (rules : ExecutionRules) :
    Decidable (PendingClear floor book pending session opens rules) := by
  unfold PendingClear
  infer_instance

instance (floor : ℚ) (book : PriceBook) (due : Dict Date TargetPortfolio) (rules : ExecutionRules)
    (state : RunState) (session : Date) : Decidable (SessionClear floor book due rules state session) :=
  have (split : RunState) : Decidable (match due.get? session with
      | some target => RebalanceClear floor split.book target session (book.opensOn session) rules
      | none => PendingClear floor (split.book.mark (book.opensOn session)) split.pending session
          (book.opensOn session) rules) :=
    match due.get? session with
    | some _ => inferInstance
    | none => inferInstance
  decidableForallOk

instance (floor : ℚ) (book : PriceBook) (targets : List TargetPortfolio) (rules : ExecutionRules)
    (capital : ℚ) : Decidable (RunClear floor book targets rules capital) := by
  unfold RunClear
  infer_instance

/-! ## Two floors

A run that meets no amount between zero and either of two floors is the same at both. -/

variable {symbol : Symbol}

section Floors

variable {floor floor' : ℚ} (hfloor : 0 < floor) (hfloor' : 0 < floor')
include hfloor hfloor'

variable {book : Book} {rules : ExecutionRules} {session : Date} {value : ℚ} {target : TargetPortfolio}
  {opens : Dict Symbol ℚ}

theorem spend_floors {orders : List Order} {cutoffAt : Instant} (h : SpendClear floor book.cash rules.costRate orders session)
    (h' : SpendClear floor' book.cash rules.costRate orders session) :
    spend floor book orders rules cutoffAt session value = spend floor' book orders rules cutoffAt session value := by
  unfold spend
  by_cases hne : orders = []
  · rw [dif_pos hne, dif_pos hne]
  · rw [dif_neg hne, dif_neg hne]
    rcases hlegs : spendLegs book.cash rules.costRate orders hne session with e | ⟨legs, cash⟩
    · rfl
    · refine foldlM_congr (AtEach.of_mem (h hne _ hlegs)) (AtEach.of_mem (h' hne _ hlegs)) ?_
      intro state leg hclear hclear'
      unfold buyLeg
      simp only [hclear.lt_iff hclear' hfloor hfloor']

theorem sellStep_floors {state : SellState} (h : SellClear floor target value state symbol)
    (h' : SellClear floor' target value state symbol) :
    sellStep floor target session opens rules value state symbol =
      sellStep floor' target session opens rules value state symbol := by
  unfold sellStep index
  dsimp only
  rcases hheld : state.book.shares.get? symbol with _ | held
  · rfl
  · rcases hlast : state.book.last.get? symbol with _ | last
    · rfl
    · have hiff := (h held hheld last hlast).lt_iff (h' held hheld last hlast) hfloor hfloor'
      simp only [ok_bind, hiff]

theorem sellLoop_floors (h : AtEach (sellStep floor target session opens rules value) (sortedBy id book.shares.keys)
      ⟨book, [], [], 0⟩ (SellClear floor target value))
    (h' : AtEach (sellStep floor' target session opens rules value) (sortedBy id book.shares.keys)
      ⟨book, [], [], 0⟩ (SellClear floor' target value)) :
    sellLoop floor target session opens rules value book = sellLoop floor' target session opens rules value book :=
  foldlM_congr h h' fun _ _ hclear hclear' => sellStep_floors hfloor hfloor' hclear hclear'

theorem orderLoop_floors {sold : SellState} (h : OrdersClear floor target value sold.book)
    (h' : OrdersClear floor' target value sold.book) :
    orderLoop floor target session opens rules value sold = orderLoop floor' target session opens rules value sold := by
  refine List.foldl_ext _ _ _ fun state item hitem => ?_
  have hmem : item ∈ target.weights.items := (mem_sortedBy _).1 hitem
  obtain ⟨symbol, weight⟩ := item
  unfold orderStep
  by_cases hw : weight ≤ 0
  · simp only [hw, if_true]
  · have hiff := (h _ hmem (not_le.1 hw)).lt_iff (h' _ hmem (not_le.1 hw)) hfloor hfloor'
    unfold shortfall Book.held Book.lastOf at hiff
    simp only [hw, if_false, hiff]

theorem rebalance_floors (h : RebalanceClear floor book target session opens rules)
    (h' : RebalanceClear floor' book target session opens rules) :
    rebalance floor book target session opens rules = rebalance floor' book target session opens rules := by
  unfold rebalance
  dsimp only
  rcases hmarket : (book.mark opens).marketValue with e | market
  · rfl
  obtain ⟨hsales, hbuys⟩ := h market hmarket
  obtain ⟨hsales', hbuys'⟩ := h' market hmarket
  have hcash : (book.mark opens).cash = book.cash := rfl
  simp only [ok_bind, hcash]
  rw [← sellLoop_floors hfloor hfloor' hsales hsales']
  rcases hsold : sellLoop floor target session opens rules (book.cash + market) (book.mark opens) with
    e | sold
  · rfl
  have hsold' : sellLoop floor' target session opens rules (book.cash + market) (book.mark opens) =
      .ok sold := by rw [← sellLoop_floors hfloor hfloor' hsales hsales', hsold]
  obtain ⟨horders, hspend⟩ := hbuys sold hsold
  obtain ⟨horders', hspend'⟩ := hbuys' sold hsold'
  have hloop : orderLoop floor target session opens rules (book.cash + market) sold =
      orderLoop floor' target session opens rules (book.cash + market) sold :=
    orderLoop_floors hfloor hfloor' horders horders'
  rw [← hloop] at hspend'
  simp only [ok_bind, ← hloop, spend_floors hfloor hfloor' hspend hspend']

theorem pendingStep_floors {state : PendingState}
    (h : ∀ price, opens.get? symbol = some price → ∀ order, state.pending.get? symbol = some order →
      SpendClear floor state.book.cash rules.costRate [⟨symbol, price, order.amount⟩] session)
    (h' : ∀ price, opens.get? symbol = some price → ∀ order, state.pending.get? symbol = some order →
      SpendClear floor' state.book.cash rules.costRate [⟨symbol, price, order.amount⟩] session) :
    pendingStep floor session opens rules state symbol = pendingStep floor' session opens rules state symbol := by
  unfold pendingStep index
  rcases hopen : opens.get? symbol with _ | price
  · rfl
  · rcases horder : state.pending.get? symbol with _ | order
    · rfl
    · simp only [ok_bind, spend_floors hfloor hfloor' (h price hopen order horder)
        (h' price hopen order horder)]

theorem sessionStep_floors {book : PriceBook} {first : Date}
    {state : RunState} (h : SessionClear floor book due rules state session)
    (h' : SessionClear floor' book due rules state session) :
    sessionStep floor book due rules capital first state session =
      sessionStep floor' book due rules capital first state session := by
  unfold sessionStep
  rcases hsplit : (book.splitsOn session).foldlM splitStep state with e | split
  · rfl
  have hclear := h split hsplit
  have hclear' := h' split hsplit
  unfold tradeSession
  rcases hdue : due.get? session with _ | target
  · rw [hdue] at hclear hclear'
    have hpending : fillPending floor (split.book.mark (book.opensOn session)) split.pending session
        (book.opensOn session) rules = fillPending floor' (split.book.mark (book.opensOn session))
          split.pending session (book.opensOn session) rules :=
      foldlM_congr hclear hclear' fun _ _ hc hc' => pendingStep_floors hfloor hfloor' hc hc'
    simp only [ok_bind, hpending]
  · rw [hdue] at hclear hclear'
    simp only [ok_bind, rebalance_floors hfloor hfloor' hclear hclear']

theorem simulateAt_floors {book : PriceBook} (h : RunClear floor book targets rules capital)
    (h' : RunClear floor' book targets rules capital) :
    simulateAt floor book targets rules capital = simulateAt floor' book targets rules capital := by
  unfold simulateAt
  rcases hs : scheduleTargets book.sessions targets rules with e | schedule
  · rfl
  · rcases hfirst : schedule.first with _ | first
    · simp only [ok_bind, hfirst]
    · have hrun : runSessions floor book schedule.due rules capital first book.sessions =
          runSessions floor' book schedule.due rules capital first book.sessions :=
        foldlM_congr (h schedule hs first hfirst) (h' schedule hs first hfirst)
          fun _ _ hc hc' => sessionStep_floors hfloor hfloor' hc hc'
      simp only [ok_bind, hfirst, hrun]

end Floors

/-! ## Clear runs in other units -/

namespace Units

variable (u : Units) {floor : ℚ} {session : Date} {rules : ExecutionRules}

theorem clear_units {amount : ℚ} (h : Clear (floor * u.money) (amount * u.money)) : Clear floor amount :=
  fun hlt => h ⟨mul_pos hlt.1 u.money_pos, u.mul_money_lt.2 hlt.2⟩

theorem spendClear_units {cash rate : ℚ} {orders : List Order}
    (h : SpendClear (floor * u.money) (cash * u.money) rate (orders.map u.order) session) :
    SpendClear floor cash rate orders session := by
  intro hne spent hlegs leg hleg
  have hne' : orders.map u.order ≠ [] := by simpa using hne
  have hclear := h hne' _ (u.spendLegs_units hne' hlegs) (u.leg leg) (List.mem_map_of_mem hleg)
  exact u.clear_units hclear

theorem sellClear_units {target : TargetPortfolio} {value : ℚ} {state : SellState}
    (h : SellClear (floor * u.money) target (value * u.money) (u.sellState state) symbol) :
    SellClear floor target value state symbol := by
  intro held hheld last hlast
  have hheld' : (u.sellState state).book.shares.get? symbol = some (held * u.share symbol) := by
    change (u.shares state.book.shares).get? symbol = _
    rw [u.get?_shares, hheld, Option.map_some]
  have hlast' : (u.sellState state).book.last.get? symbol = some (last * u.price symbol) := by
    change (u.prices state.book.last).get? symbol = _
    rw [u.get?_prices, hlast, Option.map_some]
  have hclear := h _ hheld' _ hlast'
  have hexcess := u.excess_units target value held last symbol
  unfold excess at hexcess
  rw [hexcess] at hclear
  exact u.clear_units hclear

theorem rebalanceClear_units {b : Book} {target : TargetPortfolio} {opens : Dict Symbol ℚ}
    (h : RebalanceClear (floor * u.money) (u.book b) target session (u.prices opens) rules) :
    RebalanceClear floor b target session opens rules := by
  intro market hmarket
  obtain ⟨hpriced, hmarket⟩ := marketValue_eq_ok_iff.1 hmarket
  have hmarket' : ((u.book b).mark (u.prices opens)).marketValue = .ok (market * u.money) := by
    rw [u.mark_book]
    exact marketValue_eq_ok_iff.2 ⟨u.priced_book hpriced, by rw [u.market_book, hmarket]⟩
  have hvalue : (u.book b).cash + market * u.money = (b.cash + market) * u.money := (add_mul _ _ _).symm
  have hkeys : (u.book b).shares.keys = b.shares.keys := Dict.keys_mapVal _ _
  have hstart : SellState.mk (u.book (b.mark opens)) [] [] 0 = u.sellState ⟨b.mark opens, [], [], 0⟩ := by
    rw [sellState, zero_mul]
    rfl
  obtain ⟨hsales, hbuys⟩ := h _ hmarket'
  rw [hvalue, hkeys, u.mark_book, hstart] at hsales
  refine ⟨(hsales.comap u.sellState fun _ _ _ hstep => u.sellStep_units hstep).imp
    fun _ _ hclear => u.sellClear_units hclear, fun sold hsold => ?_⟩
  rw [hvalue, u.mark_book] at hbuys
  obtain ⟨horders, hspend⟩ := hbuys _ (u.sellLoop_units hsold)
  refine ⟨fun item hitem hpos => ?_, ?_⟩
  · have hclear := horders item hitem hpos
    change Clear _ (shortfall item.2 _ (u.book sold.book) item.1) at hclear
    rw [u.shortfall_units] at hclear
    exact u.clear_units hclear
  · rw [u.orderLoop_units] at hspend
    exact u.spendClear_units hspend

theorem pendingClear_units {b : Book} {waiting : Dict Symbol Pending} {opens : Dict Symbol ℚ}
    (h : PendingClear (floor * u.money) (u.book b) (u.pending waiting) session (u.prices opens) rules) :
    PendingClear floor b waiting session opens rules := by
  have hkeys : (u.pending waiting).keys = waiting.keys := Dict.keys_mapVal _ _
  have hstart : PendingState.mk (u.book b) (u.pending waiting) [] [] = u.pendingState ⟨b, waiting, [], []⟩ := rfl
  unfold PendingClear at h
  rw [hkeys, hstart] at h
  refine (h.comap u.pendingState fun _ _ _ hstep => u.pendingStep_units hstep).imp ?_
  intro state symbol hclear p hopen order horder
  refine u.spendClear_units (hclear (p * u.price symbol) ?_ (u.waiting order) ?_)
  · rw [u.get?_prices, hopen, Option.map_some]
  · change (u.pending state.pending).get? symbol = _
    rw [u.get?_pending, horder, Option.map_some]

theorem runClear_ofCapital {k : ℚ} (hk : 0 < k) {book : PriceBook} (h : RunClear (floor * k) book targets rules (capital * k)) :
    RunClear floor book targets rules capital := by
  intro schedule hs first hfirst
  have hat := h schedule hs first hfirst
  rw [initial_ofCapital hk] at hat
  refine (hat.comap (ofCapital k hk).runState fun _ _ _ hstep => sessionStep_ofCapital hk hstep).imp ?_
  intro state session hclear split hsplit
  have hsession := hclear _ ((ofCapital k hk).splits_units hsplit)
  rcases hdue : schedule.due.get? session with _ | target
  · rw [hdue] at hsession
    refine (ofCapital k hk).pendingClear_units ?_
    rw [← mark_book, prices_ofCapital]
    exact hsession
  · rw [hdue] at hsession
    refine (ofCapital k hk).rebalanceClear_units ?_
    rw [prices_ofCapital]
    exact hsession

end Units

/-- At `k` times the capital and the floor the run is the scaled one; at one floor it is when no amount is strictly between zero
and it. -/
theorem simulate_capital_independent (book : PriceBook) (targets : List TargetPortfolio)
    (rules : ExecutionRules) (capital k : ℚ) (hk : 0 < k) :
    ((∀ r, simulate book targets rules capital = .ok r →
        simulateAt (k * minOrderNotional) book targets rules (k * capital) = .ok (r.scale k)) ∧
      ∀ r, simulateAt (k * minOrderNotional) book targets rules (k * capital) = .ok r →
        ∃ r₀, simulate book targets rules capital = .ok r₀ ∧ r = r₀.scale k) ∧
    (RunClear minOrderNotional book targets rules capital → RunClear minOrderNotional book targets rules (k * capital) →
      (∀ r, simulate book targets rules capital = .ok r → simulate book targets rules (k * capital) = .ok (r.scale k)) ∧
      ∀ r, simulate book targets rules (k * capital) = .ok r →
        ∃ r₀, simulate book targets rules capital = .ok r₀ ∧ r = r₀.scale k) := by
  refine ⟨⟨fun r h => simulateAt_scale hk h, fun r h => simulateAt_of_scale hk h⟩, ?_⟩
  intro hclear hclear'
  have hfloor : 0 < minOrderNotional := by decide +kernel
  -- at `k` times the capital the floor is `k` times this one
  have hdiv : minOrderNotional = minOrderNotional / k * k := (div_mul_cancel₀ _ hk.ne').symm
  rw [hdiv, mul_comm k capital] at hclear'
  have hsame : simulate book targets rules capital = simulateAt (minOrderNotional / k) book targets rules capital :=
    simulateAt_floors hfloor (div_pos hfloor hk) hclear (Units.runClear_ofCapital hk hclear')
  have hscaled : simulate book targets rules (k * capital) =
      simulateAt (k * (minOrderNotional / k)) book targets rules (k * capital) := by
    rw [simulate, mul_div_cancel₀ _ hk.ne']
  rw [hsame, hscaled]
  exact ⟨fun r h => simulateAt_scale hk h, fun r h => simulateAt_of_scale hk h⟩

/-- The small run and the run at three times its capital meet no amount below a cent. -/
theorem simulate_capital_independent_sample : RunClear minOrderNotional sampleBook [sampleTarget] sampleRules 1000 ∧
      RunClear minOrderNotional sampleBook [sampleTarget] sampleRules (3 * 1000) ∧
      ∀ r, simulate sampleBook [sampleTarget] sampleRules 1000 = .ok r →
        simulate sampleBook [sampleTarget] sampleRules (3 * 1000) = .ok (r.scale 3) := by
  have hclear : RunClear minOrderNotional sampleBook [sampleTarget] sampleRules 1000 := by
    decide +kernel
  have hclear' : RunClear minOrderNotional sampleBook [sampleTarget] sampleRules (3 * 1000) := by
    decide +kernel
  have hindep := simulate_capital_independent sampleBook [sampleTarget] sampleRules 1000 3
    (by decide +kernel)
  exact ⟨hclear, hclear', (hindep.2 hclear hclear').1⟩

end TrueAlpha.Backtest
