import TrueAlpha.Backtest.Causality

/-!
# The ledger of a run

A ledger is replayed from the applied splits and the trades alone.  It is the book of the run after every session
(`Ledger.Matches`): each trade moves value at the open of its session and loses its fee.
-/

namespace TrueAlpha.Backtest

structure Ledger where
  cash : ℚ
  shares : Symbol → ℚ

variable {book : Book} {ledger : Ledger}

namespace Ledger

def split (ledger : Ledger) (a : AppliedSplit) : Ledger :=
  { ledger with
    shares := Function.update ledger.shares a.symbol
      (ledger.shares a.symbol * a.numerator / a.denominator) }

def trade (ledger : Ledger) (t : Trade) : Ledger :=
  match t.side with
  | .sell => ⟨ledger.cash + (t.notional - t.fee),
      Function.update ledger.shares t.symbol (ledger.shares t.symbol - t.shares)⟩
  | .buy => ⟨ledger.cash - (t.notional + t.fee),
      Function.update ledger.shares t.symbol (ledger.shares t.symbol + t.shares)⟩

def start (capital : ℚ) : Ledger := ⟨capital, fun _ => 0⟩

def session (trades : List Trade) (applied : List AppliedSplit) (ledger : Ledger) (day : Date) : Ledger :=
  (trades.filter fun t => t.session = day).foldl trade
    ((applied.filter fun a => a.exDate = day).foldl split ledger)

def replay (capital : ℚ) (trades : List Trade) (applied : List AppliedSplit) (sessions : List Date) : Ledger :=
  sessions.foldl (session trades applied) (start capital)

def Matches (ledger : Ledger) (book : Book) : Prop := ledger.cash = book.cash ∧ ∀ symbol, ledger.shares symbol = book.held symbol

theorem matches_mark (h : ledger.Matches book) (prices : Dict Symbol ℚ) : ledger.Matches (book.mark prices) := h

end Ledger

open Ledger

theorem held_set (book : Book) (symbol : Symbol) (q : ℚ) (s : Symbol) :
    Book.held { book with shares := book.shares.set symbol q } s =
      if symbol = s then q else book.held s := by
  unfold Book.held
  rw [Dict.get?_set]
  split_ifs <;> rfl

theorem held_erase (book : Book) (symbol s : Symbol) : Book.held { book with shares := book.shares.erase symbol } s =
      if symbol = s then 0 else book.held s := by
  unfold Book.held
  rw [Dict.get?_erase]
  split_ifs <;> rfl

variable {ledger : Ledger} {state : RunState}

theorem update_matches (h : ∀ s, ledger.shares s = book.held s) (symbol : Symbol) {q q' : ℚ} (hq : q = q') (s : Symbol) :
    Function.update ledger.shares symbol q s = if symbol = s then q' else book.held s := by
  by_cases hs : symbol = s
  · subst hs
    rw [Function.update_self, if_pos rfl, hq]
  · rw [Function.update_of_ne (Ne.symm hs), if_neg hs, h]

variable {book book' : Book}

theorem applySplit_matches {event : SplitEvent} {record : Option AppliedSplit}
    (h : ledger.Matches book) (hok : applySplit book event = .ok (book', record)) :
    (record.toList.foldl Ledger.split ledger).Matches book' := by
  obtain ⟨-, hshares, hcash⟩ := applySplit_eq_ok_iff.1 hok
  have hheld' : ∀ s, book'.held s = Book.held { book with shares := book'.shares } s := fun _ => rfl
  rcases splitShares_eq_ok_iff.1 hshares with ⟨-, heq, rfl⟩ | ⟨held, hheld, -, -, heq, rfl⟩
  · refine ⟨h.1.trans hcash.symm, fun s => ?_⟩
    rw [hheld', heq]
    exact h.2 s
  · refine ⟨h.1.trans hcash.symm, fun s => ?_⟩
    rw [hheld', heq, held_set]
    refine update_matches h.2 event.symbol ?_ s
    rw [h.2, held_of_get? hheld]

variable {events : List SplitEvent}

theorem splits_matches {split : RunState} (h : ledger.Matches state.book) (hok : events.foldlM splitStep state = .ok split) :
    ∃ applied, split = { state with book := split.book, applied := state.applied ++ applied } ∧
      (applied.foldl Ledger.split ledger).Matches split.book := by
  refine foldlM_inv (fun _ (s : RunState) => ∃ applied, s = { state with book := s.book, applied := state.applied ++ applied } ∧
    (applied.foldl Ledger.split ledger).Matches s.book) hok ⟨[], by simp, h⟩ ?_
  intro _ event _ s s' _ hinv hstep
  obtain ⟨applied, hs, hmatch⟩ := hinv
  obtain ⟨b, record, happly, rfl⟩ := splitStep_eq_ok_iff.1 hstep
  refine ⟨applied ++ record.toList, ?_, ?_⟩
  · rw [hs]
    simp
  · rw [List.foldl_append]
    exact applySplit_matches hmatch happly

/-! ## Trades -/

structure Trade.At (opens : Dict Symbol ℚ) (rate : ℚ) (t : Trade) : Prop where
  open_eq : opens.get? t.symbol = some t.price
  notional_eq : t.notional = t.shares * t.price
  fee_eq : t.fee = rate * t.notional

variable {floor : ℚ} {rules : ExecutionRules} {session : Date} {trades : List Trade}

theorem spend_matches {orders : List Order} {cutoffAt : Instant} {value : ℚ}
    (h : ledger.Matches book) (hok : spend floor book orders rules cutoffAt session value = .ok (book', trades)) :
    (trades.foldl Ledger.trade ledger).Matches book' := by
  by_cases hne : orders = []
  · subst hne
    rw [spend_nil] at hok
    cases hok
    exact h
  have hfold := ((spend_eq_ok_iff hne).1 hok).2
  let legs := spentLegs book.cash rules.costRate orders
  let I : List Leg → Book × List Trade → Prop := fun pre state =>
    (state.2.foldl Ledger.trade ledger).cash = state.1.cash + ((legs.map Leg.total).sum - (pre.map Leg.total).sum) ∧
      ∀ s, (state.2.foldl Ledger.trade ledger).shares s = state.1.held s
  have hstart : I [] ({ book with cash := cashAfter book.cash rules.costRate orders }, []) := by
    refine ⟨?_, h.2⟩
    have htotal : (legs.map Leg.total).sum =
        spendScale book.cash rules.costRate orders * need rules.costRate orders := sum_total_legsAt _ _ _
    change ledger.cash = cashAfter book.cash rules.costRate orders + (_ - 0)
    rw [h.1, cashAfter, htotal]
    ring
  have hstep : ∀ pre leg post state state', legs = pre ++ leg :: post → I pre state →
      buyLeg floor cutoffAt session value state leg = .ok state' → I (pre ++ [leg]) state' := by
    intro pre leg post state state' _ hinv hleg
    obtain ⟨hcash, hshares⟩ := hinv
    have hsum : ((pre ++ [leg]).map Leg.total).sum = (pre.map Leg.total).sum + leg.total := by simp
    cases buyLeg_eq_ok_iff.1 hleg with
    | dropped =>
      refine ⟨?_, hshares⟩
      change _ = state.1.cash + leg.total + _
      rw [hcash, hsum]
      ring
    | filled =>
      refine ⟨?_, fun s => ?_⟩
      · rw [List.foldl_append]
        change (state.2.foldl Ledger.trade ledger).cash - (leg.notional + leg.fee) = state.1.cash + _
        rw [hcash, hsum, Leg.total]
        ring
      · rw [List.foldl_append]
        change Function.update (state.2.foldl Ledger.trade ledger).shares leg.order.symbol
          ((state.2.foldl Ledger.trade ledger).shares leg.order.symbol + leg.notional / leg.order.price) s =
            Book.held { state.1 with shares := _ } s
        rw [held_set]
        exact update_matches hshares leg.order.symbol (by rw [hshares]) s
  obtain ⟨hcash, hshares⟩ := foldlM_inv I hfold hstart hstep
  refine ⟨?_, hshares⟩
  rw [sub_self, add_zero] at hcash
  exact hcash

variable {opens : Dict Symbol ℚ} {rules : ExecutionRules} {session : Date} {floor : ℚ}

theorem spend_at {orders : List Order} {cutoffAt : Instant} {value : ℚ}
    (horders : ∀ order ∈ orders, opens.get? order.symbol = some order.price)
    (hok : spend floor book orders rules cutoffAt session value = .ok (book', trades)) :
    ∀ trade ∈ trades, trade.At opens rules.costRate := by
  by_cases hne : orders = []
  · subst hne
    rw [spend_nil] at hok
    cases hok
    simp
  refine foldlM_inv (fun _ (state : Book × List Trade) => ∀ trade ∈ state.2,
    trade.At opens rules.costRate) ((spend_eq_ok_iff hne).1 hok).2 (by simp) ?_
  intro pre leg post state state' hl hinv hleg
  have hmem : leg ∈ spentLegs book.cash rules.costRate orders := by rw [hl]; simp
  obtain ⟨order, horder, rfl⟩ := List.mem_map.1 hmem
  cases buyLeg_eq_ok_iff.1 hleg with
  | dropped => exact hinv
  | filled large price_ne value_ne =>
    refine forall_mem_concat hinv ⟨horders order horder, ?_, mul_comm _ _⟩
    exact (div_mul_cancel₀ _ price_ne).symm

variable {target : TargetPortfolio}

theorem sellLoop_matches {value : ℚ} {sold : SellState} (h : ledger.Matches book)
    (hok : sellLoop floor target session opens rules value book = .ok sold) :
    (sold.trades.foldl Ledger.trade ledger).Matches sold.book ∧ ∀ trade ∈ sold.trades, trade.At opens rules.costRate := by
  refine foldlM_inv (fun _ (s : SellState) => (s.trades.foldl Ledger.trade ledger).Matches s.book ∧
    ∀ trade ∈ s.trades, trade.At opens rules.costRate) hok ⟨h, by simp⟩ ?_
  intro _ symbol _ state state' _ hinv hstep
  obtain ⟨hmatch, hat⟩ := hinv
  cases sellStep_eq_ok_iff.1 hstep with
  | kept => exact ⟨hmatch, hat⟩
  | unfilled => exact ⟨hmatch, hat⟩
  | @sold held last price sold hheld hlast large hopen hsold value_ne =>
    refine ⟨⟨?_, fun s => ?_⟩, forall_mem_concat hat ⟨hopen, rfl, mul_comm _ _⟩⟩
    · change (List.foldl Ledger.trade ledger (state.trades ++ [_])).cash = _
      rw [List.foldl_append]
      exact congrArg (· + (sold * price - sold * price * rules.costRate)) hmatch.1
    · change (List.foldl Ledger.trade ledger (state.trades ++ [_])).shares s = Book.held
        { state.book with shares := if held - sold = 0 then _ else _ } s
      rw [List.foldl_append]
      change Function.update (state.trades.foldl Ledger.trade ledger).shares symbol
        ((state.trades.foldl Ledger.trade ledger).shares symbol - sold) s = _
      have hremaining : (state.trades.foldl Ledger.trade ledger).shares symbol - sold = held - sold := by
        rw [hmatch.2, held_of_get? hheld]
      split_ifs with hzero
      · rw [held_erase]
        exact update_matches hmatch.2 symbol (hremaining.trans hzero) s
      · rw [held_set]
        exact update_matches hmatch.2 symbol hremaining s

theorem rebalance_matches {made : Traded}
    {fill : Fill} (h : ledger.Matches book) (hok : rebalance floor book target session opens rules = .ok (made, fill)) :
    (made.trades.foldl Ledger.trade ledger).Matches made.book ∧ ∀ trade ∈ made.trades, trade.At opens rules.costRate := by
  obtain ⟨-, -, sold, trades, hsold, hspend, -, htrades, -⟩ := rebalance_eq_ok_iff.1 hok
  obtain ⟨hmatch, hat⟩ := sellLoop_matches (matches_mark h opens) hsold
  have horders := (orderLoop_inv floor target session opens rules (book.mark opens).value sold).orders
  rw [htrades, List.foldl_append]
  refine ⟨spend_matches hmatch hspend, forall_mem_append hat ?_⟩
  exact spend_at (fun order horder => (horders order horder).1) hspend

theorem fillPending_matches {pending : Dict Symbol Pending} {late : PendingState} (h : ledger.Matches book)
    (hok : fillPending floor book pending session opens rules = .ok late) :
    (late.trades.foldl Ledger.trade ledger).Matches late.book ∧ ∀ trade ∈ late.trades, trade.At opens rules.costRate := by
  refine foldlM_inv (fun _ (s : PendingState) => (s.trades.foldl Ledger.trade ledger).Matches s.book ∧
    ∀ trade ∈ s.trades, trade.At opens rules.costRate) hok ⟨h, by simp⟩ ?_
  intro _ symbol _ state state' _ hinv hstep
  obtain ⟨hmatch, hat⟩ := hinv
  cases pendingStep_eq_ok_iff.1 hstep with
  | waiting => exact ⟨hmatch, hat⟩
  | @filled price order book made hopen horder priced hspend =>
    refine ⟨?_, forall_mem_append hat ?_⟩
    · rw [List.foldl_append]
      exact spend_matches hmatch hspend
    · exact spend_at (fun o ho => by rw [List.mem_singleton.1 ho]; exact hopen) hspend

theorem TradeSession.matches
    {state traded : RunState} {due : Option TargetPortfolio}
    (h : TradeSession floor opens rules state session due traded) (hmatch : ledger.Matches state.book) :
    ∃ made, traded.trades = state.trades ++ made ∧ (made.foldl Ledger.trade ledger).Matches traded.book ∧
      ∀ trade ∈ made, trade.At opens rules.costRate := by
  cases h with
  | @rebalanced target made fill h => exact ⟨made.trades, rfl, rebalance_matches hmatch h⟩
  | @filledPending late h => exact ⟨late.trades, rfl, fillPending_matches (matches_mark hmatch opens) h⟩

/-- The cash and the shares of `symbols` at a price for each symbol. -/
def Ledger.value (ledger : Ledger) (symbols : List Symbol) (price : Symbol → ℚ) : ℚ :=
  ledger.cash + (symbols.map fun symbol => ledger.shares symbol * price symbol).sum

variable {symbols : List Symbol}

theorem sum_update (hnodup : symbols.Nodup) {symbol : Symbol} (hmem : symbol ∈ symbols) (shares price : Symbol → ℚ) (q : ℚ) :
    (symbols.map fun s => Function.update shares symbol q s * price s).sum =
      (symbols.map fun s => shares s * price s).sum + (q - shares symbol) * price symbol := by
  induction symbols with
  | nil => cases hmem
  | cons s symbols ih =>
    obtain ⟨hs, hnodup⟩ := List.nodup_cons.1 hnodup
    rw [List.map_cons, List.map_cons, List.sum_cons, List.sum_cons]
    rcases List.mem_cons.1 hmem with rfl | hmem
    · have hrest : (symbols.map fun s => Function.update shares symbol q s * price s) =
          symbols.map fun s => shares s * price s := by
        refine List.map_congr_left fun s' hs' => ?_
        have hne : s' ≠ symbol := fun h => hs (h ▸ hs')
        rw [Function.update_of_ne hne]
      rw [hrest, Function.update_self]
      ring
    · have hne : s ≠ symbol := fun h => hs (h ▸ hmem)
      rw [ih hnodup hmem, Function.update_of_ne hne]
      ring

theorem value_trade (hnodup : symbols.Nodup) {price : Symbol → ℚ} {t : Trade}
    (hmem : t.symbol ∈ symbols) (hprice : price t.symbol = t.price)
    (hnotional : t.notional = t.shares * t.price) (ledger : Ledger) :
    (ledger.trade t).value symbols price = ledger.value symbols price - t.fee := by
  unfold Ledger.value Ledger.trade
  cases t.side with
  | sell =>
    change ledger.cash + (t.notional - t.fee) + (symbols.map fun s => Function.update ledger.shares
      t.symbol (ledger.shares t.symbol - t.shares) s * price s).sum = _
    rw [sum_update hnodup hmem, hprice, hnotional]
    ring
  | buy =>
    change ledger.cash - (t.notional + t.fee) + (symbols.map fun s => Function.update ledger.shares
      t.symbol (ledger.shares t.symbol + t.shares) s * price s).sum = _
    rw [sum_update hnodup hmem, hprice, hnotional]
    ring

theorem value_trades (hnodup : symbols.Nodup) {price : Symbol → ℚ} (h : ∀ t ∈ trades, t.symbol ∈ symbols ∧ price t.symbol = t.price ∧
      t.notional = t.shares * t.price) (ledger : Ledger) :
    (trades.foldl Ledger.trade ledger).value symbols price = ledger.value symbols price - (trades.map Trade.fee).sum := by
  induction trades generalizing ledger with
  | nil => simp
  | cons t trades ih =>
    obtain ⟨hmem, hprice, hnotional⟩ := h t List.mem_cons_self
    rw [List.foldl_cons, ih (fun t' ht' => h t' (List.mem_cons_of_mem _ ht')),
      value_trade hnodup hmem hprice hnotional, List.map_cons, List.sum_cons]
    ring

theorem value_of_matches (h : ledger.Matches book) (hnodup : symbols.Nodup) (hkeys : ∀ s ∈ book.shares.keys, s ∈ symbols) :
    ledger.value symbols book.lastOf = book.value := by
  unfold Ledger.value Book.value Book.market
  rw [h.1, Dict.sumBy_eq_sum_of_subset _ _ hnodup hkeys]
  congr 2
  refine List.map_congr_left fun s _ => ?_
  rw [h.2, elim_mul_eq]
  rfl

def PriceBook.quoteOn (book : PriceBook) (symbol : Symbol) (day : Date) : Option ℚ :=
  (book.bar? symbol day).bind fun bar => (price bar.close).or (price bar.open)

/-- The latest price in `sessions`, over the factors of the symbol's later splits. -/
def PriceBook.latestIn (book : PriceBook) (sessions : List Date) (symbol : Symbol) : Option ℚ :=
  sessions.reverse.findSome? fun day => (book.quoteOn symbol day).map fun p =>
    p / splitFactor (book.splits.filter fun event => day < event.exDate ∧ event.exDate ∈ sessions) symbol

def PriceBook.latestPrice (book : PriceBook) (day : Date) (symbol : Symbol) : ℚ :=
  (book.latestIn (book.sessions.filter fun session => session ≤ day) symbol).getD 0

def PriceBook.priceAtOpen (book : PriceBook) (session : Date) (symbol : Symbol) : ℚ := (((book.opensOn session).get? symbol).or
    ((book.latestIn (book.sessions.filter fun day => day < session) symbol).map fun p =>
      p / splitFactor (book.splitsOn session) symbol)).getD 0

theorem get?_opensOn (book : PriceBook) (session : Date) (symbol : Symbol) :
    (book.opensOn session).get? symbol = (book.bar? symbol session).bind fun bar => price bar.open := by
  rw [PriceBook.opensOn, Dict.get?_filterMapVal, PriceBook.bar?, Option.bind_assoc]

theorem get?_closesOn (book : PriceBook) (session : Date) (symbol : Symbol) :
    (book.closesOn session).get? symbol = (book.bar? symbol session).bind fun bar => price bar.close := by
  rw [PriceBook.closesOn, Dict.get?_filterMapVal, PriceBook.bar?, Option.bind_assoc]

theorem quoteOn_eq (book : PriceBook) (session : Date) (symbol : Symbol) : book.quoteOn symbol session =
      ((book.closesOn session).get? symbol).or ((book.opensOn session).get? symbol) := by
  rw [get?_opensOn, get?_closesOn, PriceBook.quoteOn]
  cases book.bar? symbol session <;> rfl

variable {book : PriceBook} {symbol : Symbol} {pre : List Date} {capital : ℚ} {state' : RunState}

theorem mem_keys_of_bar? {day : Date} {bar : Bar} (h : book.bar? symbol day = some bar) : symbol ∈ book.bars.keys := by
  obtain ⟨series, hseries, -⟩ := Option.bind_eq_some_iff.1 h
  exact (Dict.mem_keys_iff _ _).2 ⟨series, hseries⟩

theorem mem_keys_of_opensOn {p : ℚ} (h : (book.opensOn session).get? symbol = some p) : symbol ∈ book.bars.keys := by
  rw [get?_opensOn] at h
  obtain ⟨bar, hbar, -⟩ := Option.bind_eq_some_iff.1 h
  exact mem_keys_of_bar? hbar

theorem mem_keys_of_latestIn {sessions : List Date} {p : ℚ} (h : book.latestIn sessions symbol = some p) :
    symbol ∈ book.bars.keys := by
  obtain ⟨day, -, hday⟩ := List.exists_of_findSome?_eq_some h
  obtain ⟨q, hq, -⟩ := Option.map_eq_some_iff.1 hday
  obtain ⟨bar, hbar, -⟩ := Option.bind_eq_some_iff.1 hq
  exact mem_keys_of_bar? hbar

theorem splits_last {state split : RunState} (hok : events.foldlM splitStep state = .ok split) (symbol : Symbol) :
    split.book.last.get? symbol = (state.book.last.get? symbol).map fun p => p / splitFactor events symbol := by
  induction events generalizing state with
  | nil =>
    obtain rfl := foldlM_nil_eq_ok.1 hok
    simp [splitFactor]
  | cons event events ih =>
    obtain ⟨mid, hstep, hok⟩ := foldlM_cons_eq_ok.1 hok
    obtain ⟨b, record, happly, rfl⟩ := splitStep_eq_ok_iff.1 hstep
    obtain ⟨hlast, -, -⟩ := applySplit_eq_ok_iff.1 happly
    rw [ih hok, splitFactor_cons]
    change (b.last.get? symbol).map _ = _
    rcases splitLast_eq_ok_iff.1 hlast with ⟨hnone, heq⟩ | ⟨p, hp, -, heq⟩
    · rw [heq]
      by_cases hs : event.symbol = symbol
      · rw [← hs, hnone, Option.map_none, Option.map_none]
      · rw [if_neg hs, one_mul]
    · rw [heq, Dict.get?_set]
      by_cases hs : event.symbol = symbol
      · rw [if_pos hs, if_pos hs, ← hs, hp, Option.map_some, Option.map_some, ← div_div, SplitEvent.factor, div_div_eq_mul_div]
      · rw [if_neg hs, if_neg hs, one_mul]

theorem splitFactor_step (book : PriceBook) {day : Date} (hpre : ∀ d ∈ pre, d < session) (hday : day < session)
    (symbol : Symbol) :
    splitFactor (book.splits.filter fun event =>
        day < event.exDate ∧ event.exDate ∈ pre ++ [session]) symbol =
      splitFactor (book.splits.filter fun event => day < event.exDate ∧ event.exDate ∈ pre) symbol *
        splitFactor (book.splitsOn session) symbol := by
  have hnot : session ∉ pre := fun hmem => lt_irrefl _ (hpre session hmem)
  let l := book.splits.filter fun event => day < event.exDate ∧ event.exDate ∈ pre ++ [session]
  have hbefore : l.filter (fun event => event.exDate ∈ pre) =
      book.splits.filter fun event => day < event.exDate ∧ event.exDate ∈ pre := by
    rw [List.filter_filter]
    refine List.filter_congr fun event _ => ?_
    by_cases he : event.exDate ∈ pre <;> simp [he]
  have hon : l.filter (fun event => !decide (event.exDate ∈ pre)) = book.splits.filter fun event => event.exDate = session := by
    rw [List.filter_filter]
    refine List.filter_congr fun event _ => ?_
    by_cases he : event.exDate = session
    · simp [he, hnot, hday]
    · by_cases hp : event.exDate ∈ pre <;> simp [he, hp]
  have hperm := List.filter_append_perm (fun event => decide (event.exDate ∈ pre)) l
  rw [hbefore, hon] at hperm
  have hsorted : splitFactor (book.splitsOn session) symbol =
      splitFactor (book.splits.filter fun event => event.exDate = session) symbol :=
    splitFactor_perm (perm_sortedBy SplitEvent.symbol _) symbol
  rw [← splitFactor_perm hperm symbol, splitFactor_append, hsorted]

theorem findSome?_congr {α β : Type} {f g : α → Option β} {l : List α} (h : ∀ a ∈ l, f a = g a) :
    l.findSome? f = l.findSome? g := by
  induction l with
  | nil => rfl
  | cons a l ih =>
    rw [List.findSome?_cons, List.findSome?_cons, h a List.mem_cons_self, ih fun b hb => h b (List.mem_cons_of_mem _ hb)]

theorem latestIn_step (book : PriceBook) {pre : List Date} (hpre : ∀ d ∈ pre, d < session) (symbol : Symbol) :
    book.latestIn (pre ++ [session]) symbol = (book.quoteOn symbol session).or
        ((book.latestIn pre symbol).map fun p => p / splitFactor (book.splitsOn session) symbol) := by
  have hown : (book.splits.filter fun event =>
      session < event.exDate ∧ event.exDate ∈ pre ++ [session]) = [] := by
    refine List.filter_eq_nil_iff.2 fun event _ => ?_
    simp only [decide_eq_true_eq, not_and, List.mem_append, List.mem_singleton, not_or]
    exact fun hlt => ⟨fun hmem => lt_asymm hlt (hpre _ hmem), fun heq => lt_irrefl _ (heq ▸ hlt)⟩
  unfold PriceBook.latestIn
  rw [List.reverse_append, List.reverse_singleton, List.singleton_append, List.findSome?_cons, hown]
  cases book.quoteOn symbol session with
  | some p => simp [splitFactor]
  | none =>
    rw [Option.map_none, Option.none_or, List.map_findSome?]
    refine findSome?_congr fun day hday => ?_
    rw [Function.comp_apply, Option.map_map, splitFactor_step book hpre (hpre day (List.mem_reverse.1 hday))]
    congr 1
    funext p
    rw [Function.comp_apply, div_div]

/-! ## The replay of a run -/

theorem replay_grew (h : Grew (· ∉ pre) state state') :
    replay capital state'.trades state'.applied pre = replay capital state.trades state.applied pre := by
  obtain ⟨t, f, a, d, v, ht, -, ha, -, -, pt, -, pa, -, -⟩ := h
  unfold replay
  refine List.foldl_ext _ _ _ fun ledger day hday => ?_
  have htrades : ∀ trade ∈ t, ¬ decide (trade.session = day) = true := by
    intro trade htrade
    have hne : trade.session ≠ day := fun heq => pt trade htrade (heq ▸ hday)
    simpa using hne
  have happlied : ∀ split ∈ a, ¬ decide (split.exDate = day) = true := by
    intro split hsplit
    have hne : split.exDate ≠ day := fun heq => pa split hsplit (heq ▸ hday)
    simpa using hne
  unfold Ledger.session
  rw [ht, ha, filter_append_of_not state.trades htrades, filter_append_of_not state.applied happlied]

/-- The value is the replayed cash and shares at the latest prices, the cash weight that cash's share. -/
def Valuation.Explained (book : PriceBook) (capital : ℚ) (trades : List Trade)
    (applied : List AppliedSplit) (v : Valuation) : Prop :=
  v.value = (replay capital trades applied (book.sessions.filter fun day => day ≤ v.session)).value
      book.bars.keys (book.latestPrice v.session) ∧
    v.cashWeight * v.value = (replay capital trades applied (book.sessions.filter fun day => day ≤ v.session)).cash

/-- What the session loop keeps, after the sessions `pre`. -/
structure LedgerInv (book : PriceBook) (rules : ExecutionRules) (capital : ℚ) (pre : List Date)
    (state : RunState) : Prop where
  grew : Grew (· ∈ pre) (RunState.initial capital) state
  replays : (replay capital state.trades state.applied pre).Matches state.book
  trades : ∀ t ∈ state.trades, t.At (book.opensOn t.session) rules.costRate
  last : ∀ symbol, state.book.last.get? symbol = book.latestIn pre symbol
  valuations : ∀ v ∈ state.valuations, v.Explained book capital state.trades state.applied

theorem filter_eq_of_mem {α : Type} {p : α → Prop} [DecidablePred p] {l₁ l₂ : List α}
    (h₁ : ∀ x ∈ l₁, ¬ p x) (h₂ : ∀ x ∈ l₂, p x) : (l₁ ++ l₂).filter (fun x => p x) = l₂ := by
  rw [List.filter_append, List.filter_eq_nil_iff.2 fun x hx => by simpa using h₁ x hx,
    List.filter_eq_self.2 fun x hx => by simpa using h₂ x hx, List.nil_append]

theorem replay_concat {made : List Trade} {applied : List AppliedSplit}
    (hgrew : Grew (· ∈ pre) (RunState.initial capital) state) (hsession : session ∉ pre)
    (htrades : state'.trades = state.trades ++ made) (happlied : state'.applied = state.applied ++ applied)
    (hmade : ∀ t ∈ made, t.session = session) (hdates : ∀ a ∈ applied, a.exDate = session)
    (hstep : Grew (· = session) state state') :
    replay capital state'.trades state'.applied (pre ++ [session]) = made.foldl Ledger.trade (applied.foldl Ledger.split
        (replay capital state.trades state.applied pre)) := by
  obtain ⟨t, f, a, d, v, ht, -, ha, -, -, pt, -, pa, -, -⟩ := hgrew
  have hold : ∀ trade ∈ state.trades, ¬ trade.session = session := by
    intro trade htrade heq
    rw [ht] at htrade
    exact hsession (heq ▸ pt trade (by simpa [RunState.initial] using htrade))
  have hold' : ∀ split ∈ state.applied, ¬ split.exDate = session := by
    intro split hsplit heq
    rw [ha] at hsplit
    exact hsession (heq ▸ pa split (by simpa [RunState.initial] using hsplit))
  have hprefix : replay capital state'.trades state'.applied pre = replay capital state.trades state.applied pre :=
    replay_grew (hstep.mono fun day hday hmem => hsession (hday ▸ hmem))
  unfold replay at hprefix ⊢
  rw [List.foldl_append, hprefix, List.foldl_cons, List.foldl_nil, Ledger.session, htrades, happlied,
    filter_eq_of_mem hold hmade, filter_eq_of_mem hold' hdates]

variable {post : List Date} {due : Dict Date TargetPortfolio}

theorem sessions_filter_le (hl : book.sessions = pre ++ session :: post) :
    (book.sessions.filter fun day => day ≤ session) = pre ++ [session] := by
  obtain ⟨hpre, hpost⟩ := sessions_split hl
  rw [hl, List.filter_append, List.filter_cons_of_pos (by simp),
    List.filter_eq_self.2 fun day hday => by simpa using (hpre day hday).le,
    List.filter_eq_nil_iff.2 fun day hday => by simpa using hpost day hday]

theorem Valuation.Explained.grew {v : Valuation} (h : v.Explained book capital state.trades state.applied)
    (hgrew : Grew (v.session < ·) state state') :
    v.Explained book capital state'.trades state'.applied := by
  have hreplay : replay capital state'.trades state'.applied
      (book.sessions.filter fun day => day ≤ v.session) = replay capital state.trades state.applied
        (book.sessions.filter fun day => day ≤ v.session) := by
    refine replay_grew (hgrew.mono fun day hlt hmem => ?_)
    have hle : day ≤ v.session := by simpa using (List.mem_filter.1 hmem).2
    exact absurd hlt (not_lt.2 hle)
  unfold Valuation.Explained
  rw [hreplay]
  exact h

theorem valuationOf_explained {peak : ℚ} (hl : book.sessions = pre ++ session :: post)
    (hreplays : (replay capital state.trades state.applied (pre ++ [session])).Matches state.book)
    (hlast : ∀ symbol, state.book.last.get? symbol = book.latestIn (pre ++ [session]) symbol)
    (hpriced : state.book.Priced) (hvalue : state.book.value ≠ 0) :
    (valuationOf capital peak session state.book).Explained book capital state.trades state.applied := by
  have hprices : book.latestPrice session = state.book.lastOf := by
    funext symbol
    rw [PriceBook.latestPrice, sessions_filter_le hl, ← hlast]
    rfl
  have hkeys : ∀ s ∈ state.book.shares.keys, s ∈ book.bars.keys := by
    intro s hs
    obtain ⟨held, hheld⟩ := (Dict.mem_keys_iff _ _).1 hs
    obtain ⟨p, hp⟩ := hpriced s held hheld
    exact mem_keys_of_latestIn ((hlast s).symm.trans hp)
  unfold Valuation.Explained
  change state.book.value = _ ∧ state.book.cash / state.book.value * state.book.value = _
  change _ = (replay capital state.trades state.applied (book.sessions.filter fun day => day ≤ session)).value
    book.bars.keys (book.latestPrice session) ∧ _ =
      (replay capital state.trades state.applied (book.sessions.filter fun day => day ≤ session)).cash
  rw [sessions_filter_le hl, hprices]
  exact ⟨(value_of_matches hreplays book.bars.nodup hkeys).symm, (div_mul_cancel₀ _ hvalue).trans hreplays.1.symm⟩

theorem sessionStep_ledger {first : Date} (hl : book.sessions = pre ++ session :: post)
    (hinv : LedgerInv book rules capital pre state)
    (hok : sessionStep floor book due rules capital first state session = .ok state') :
    LedgerInv book rules capital (pre ++ [session]) state' := by
  have hgrew := sessionStep_grew hok
  obtain ⟨hpre, -⟩ := sessions_split hl
  have hnot : session ∉ pre := fun hmem => lt_irrefl _ (hpre session hmem)
  obtain ⟨split, traded, hsplit, htrade, hvalue⟩ := sessionStep_eq_ok_iff.1 hok
  obtain ⟨applied, hsplit_eq, hmatch⟩ := splits_matches hinv.replays hsplit
  obtain ⟨made, hmade, hmatch', hat⟩ := htrade.matches hmatch
  obtain ⟨made', fills, deferred, happ⟩ := htrade.appends
  obtain rfl : made' = made := List.append_cancel_left (happ.trades_eq.symm.trans hmade)
  -- the state at the close
  let closed := traded.close (book.closesOn session)
  have htrades : closed.trades = state.trades ++ made' := by
    change traded.trades = _
    rw [hmade, hsplit_eq]
  have happlied : closed.applied = state.applied ++ applied := by
    change traded.applied = _
    rw [happ.applied_eq, hsplit_eq]
  have hvaluations : closed.valuations = state.valuations := by
    change traded.valuations = _
    rw [happ.valuations_eq, hsplit_eq]
  have hsame : state'.trades = closed.trades ∧ state'.applied = closed.applied ∧ state'.book = closed.book := by
    rcases valueSession_eq_ok_iff.1 hvalue with ⟨-, rfl⟩ | ⟨-, -, -, -, -, rfl⟩ <;> exact ⟨rfl, rfl, rfl⟩
  have hdates : ∀ a ∈ applied, a.exDate = session := by
    obtain ⟨_, _, a, _, _, -, -, ha, -, -, -, -, pa, -⟩ := hgrew
    rw [hsame.2.1, happlied] at ha
    rw [List.append_cancel_left ha]
    exact pa
  have hreplays : (replay capital closed.trades closed.applied (pre ++ [session])).Matches closed.book := by
    rw [← hsame.1, ← hsame.2.1, replay_concat hinv.grew hnot (hsame.1.trans htrades)
      (hsame.2.1.trans happlied) happ.made_session hdates hgrew]
    exact matches_mark hmatch' _
  have hlast : ∀ symbol, closed.book.last.get? symbol = book.latestIn (pre ++ [session]) symbol := by
    intro symbol
    change (traded.book.last.update (book.closesOn session)).get? symbol = _
    rw [htrade.last_eq, Dict.get?_update, Dict.get?_update, splits_last hsplit, hinv.last,
      latestIn_step book hpre, quoteOn_eq, Option.or_assoc]
  have hexplained : ∀ v ∈ state.valuations, v.Explained book capital closed.trades closed.applied := by
    intro v hv
    have hsession : v.session < session := by
      obtain ⟨_, _, _, _, vals, -, -, -, -, hvals, -, -, -, -, pv⟩ := hinv.grew
      rw [hvals] at hv
      exact hpre _ (pv v (by simpa [RunState.initial] using hv))
    have hstay := (hinv.valuations v hv).grew (hgrew.mono fun day hday => hday ▸ hsession)
    rwa [hsame.1, hsame.2.1] at hstay
  refine ⟨(hinv.grew.mono fun day hday => List.mem_append_left _ hday).trans
    (hgrew.mono fun day hday => by simp [hday]), ?_, ?_, ?_, ?_⟩
  · rw [hsame.1, hsame.2.1, hsame.2.2]
    exact hreplays
  · rw [hsame.1, htrades]
    refine forall_mem_append hinv.trades fun t ht => ?_
    rw [happ.made_session t ht]
    exact hat t ht
  · rw [hsame.2.2]
    exact hlast
  · rw [hsame.1, hsame.2.1]
    rcases valueSession_eq_ok_iff.1 hvalue with ⟨-, rfl⟩ | ⟨-, hpriced, -, -, hne, rfl⟩
    · rw [hvaluations]
      exact hexplained
    · refine forall_mem_concat ?_ (valuationOf_explained hl hreplays hlast hpriced hne)
      rw [hvaluations]
      exact hexplained

theorem ledgerInv_initial (book : PriceBook) (rules : ExecutionRules) (capital : ℚ) :
    LedgerInv book rules capital [] (RunState.initial capital) where
  grew := Grew.refl _ _
  replays := ⟨rfl, fun _ => rfl⟩
  trades := by simp [RunState.initial]
  last _ := rfl
  valuations := by simp [RunState.initial]

theorem runSessions_ledger {first : Date} {final : RunState}
    (h : runSessions floor book due rules capital first book.sessions = .ok final) (hl : book.sessions = pre ++ post) :
    ∃ state, runSessions floor book due rules capital first pre = .ok state ∧
      LedgerInv book rules capital pre state ∧ Grew (· ∈ post) state final := by
  unfold runSessions at h ⊢
  rw [hl, foldlM_append_eq_ok] at h
  obtain ⟨state, hpre, hpost⟩ := h
  refine ⟨state, hpre, ?_, sessions_grew hpost⟩
  refine foldlM_inv (fun pre state => LedgerInv book rules capital pre state) hpre
    (ledgerInv_initial book rules capital) ?_
  intro pre' session post' state state' hpre' hinv hok
  have hl' : book.sessions = pre' ++ session :: (post' ++ post) := by rw [hl, hpre']; simp
  exact sessionStep_ledger hl' hinv hok

theorem replay_session_value (rate : ℚ) (applied : List AppliedSplit)
    (hat : ∀ t ∈ trades, t.At (book.opensOn t.session) rate) (pre : List Date) (session : Date) :
    (replay capital trades applied (pre ++ [session])).value book.bars.keys (book.priceAtOpen session) =
      ((applied.filter fun a => a.exDate = session).foldl Ledger.split
          (replay capital trades applied pre)).value book.bars.keys (book.priceAtOpen session) -
        ((trades.filter fun t => t.session = session).map Trade.fee).sum := by
  unfold replay
  rw [List.foldl_append, List.foldl_cons, List.foldl_nil, Ledger.session]
  refine value_trades book.bars.nodup (fun t ht => ?_) _
  obtain ⟨hmem, hdate⟩ := List.mem_filter.1 ht
  have hsession : t.session = session := by simpa using hdate
  have hopen := (hat t hmem).open_eq
  rw [hsession] at hopen
  refine ⟨mem_keys_of_opensOn hopen, ?_, (hat t hmem).notional_eq⟩
  rw [PriceBook.priceAtOpen, hopen, Option.some_or, Option.getD_some]

/-- Every trade has the notional and the fee of its shares; the replay of the outputs gives each value and cash weight; trades
lower the value at the opens by their fees; dropped orders create and lose nothing. -/
theorem simulate_ledger (book : PriceBook) (targets : List TargetPortfolio) (rules : ExecutionRules)
    (capital : ℚ) (r : Simulation) (h : simulate book targets rules capital = .ok r) :
    (∀ t ∈ r.trades, t.notional = t.shares * t.price ∧ t.fee = rules.costRate * t.notional) ∧
      (∀ v ∈ r.valuations, v.Explained book capital r.trades r.splitsApplied) ∧
      (∀ pre session post, book.sessions = pre ++ session :: post →
        (replay capital r.trades r.splitsApplied (pre ++ [session])).value book.bars.keys
            (book.priceAtOpen session) =
          ((r.splitsApplied.filter fun a => a.exDate = session).foldl Ledger.split
              (replay capital r.trades r.splitsApplied pre)).value book.bars.keys
              (book.priceAtOpen session) -
            ((r.trades.filter fun t => t.session = session).map Trade.fee).sum) ∧
      ∀ schedule first, scheduleTargets book.sessions targets rules = .ok schedule →
        schedule.first = some first → ∀ pre post, book.sessions = pre ++ post →
        ∃ state, runSessions minOrderNotional book schedule.due rules capital first pre = .ok state ∧
          (replay capital r.trades r.splitsApplied pre).Matches state.book := by
  obtain ⟨-, schedule, hs, ⟨hfirst, rfl⟩ | ⟨first, final, hfirst, hrun, rfl⟩⟩ := simulateAt_eq_ok_iff.1 h
  · refine ⟨by simp, by simp, fun pre session _ _ => ?_, ?_⟩
    · exact replay_session_value rules.costRate [] (by simp) pre session
    · intro schedule' first' hs' hfirst'
      rw [hs] at hs'
      cases hs'
      rw [hfirst] at hfirst'
      cases hfirst'
  · obtain ⟨final', hfinal', hinv, -⟩ := runSessions_ledger hrun (List.append_nil _).symm
    obtain rfl : final = final' := by
      rw [hrun] at hfinal'
      cases hfinal'
      rfl
    refine ⟨fun t ht => ⟨(hinv.trades t ht).notional_eq, (hinv.trades t ht).fee_eq⟩, hinv.valuations,
      fun pre session _ _ => replay_session_value rules.costRate _ hinv.trades pre session, ?_⟩
    intro schedule' first' hs' hfirst' pre post hl
    rw [hs] at hs'
    cases hs'
    rw [hfirst] at hfirst'
    cases hfirst'
    obtain ⟨state, hstate, hpre, hgrew⟩ := runSessions_ledger hrun hl
    refine ⟨state, hstate, ?_⟩
    have hsorted := strictSorted_sessions book
    rw [hl, List.pairwise_append] at hsorted
    have hsame : replay capital final.trades final.applied pre = replay capital state.trades state.applied pre :=
      replay_grew (hgrew.mono fun day hpost hmem => lt_irrefl _ (hsorted.2.2 day hmem day hpost))
    rw [hsame]
    exact hpre.replays

/-- The replay of the small run, with its split and its waiting order. -/
theorem simulate_ledger_sample : ∃ r, simulate sampleBook [sampleTarget] sampleRules 1000 = .ok r ∧
      ∀ v ∈ r.valuations, v.Explained sampleBook 1000 r.trades r.splitsApplied := by
  obtain ⟨r, h⟩ := sample_returns
  exact ⟨r, h, (simulate_ledger sampleBook [sampleTarget] sampleRules 1000 r h).2.1⟩

end TrueAlpha.Backtest
