import TrueAlpha.Backtest.Ledger
import TrueAlpha.Backtest.Safety

/-!
# What a rebalance reaches

The symbols whose `surplus` at the opens reaches the order floor are sold down to the target; those whose `deficit` reaches it
are bought by one common fraction of it, which the cash allows.
-/

namespace TrueAlpha.Backtest

def Side.signed : Side → ℚ → ℚ
  | .sell, shares => -shares
  | .buy, shares => shares

def Trade.change (trade : Trade) : ℚ := trade.side.signed trade.shares

theorem shares_trade (ledger : Ledger) (t : Trade) (symbol : Symbol) : (ledger.trade t).shares symbol =
      ledger.shares symbol + if t.symbol = symbol then t.change else 0 := by
  unfold Ledger.trade Trade.change
  cases t.side with
  | sell =>
    by_cases hs : t.symbol = symbol
    · subst hs
      simp [sub_eq_add_neg, Side.signed]
    · simp [Function.update_of_ne (Ne.symm hs), hs]
  | buy =>
    by_cases hs : t.symbol = symbol
    · subst hs
      simp [Side.signed]
    · simp [Function.update_of_ne (Ne.symm hs), hs]

variable {trades : List Trade} {symbol : Symbol}

theorem shares_of_no_trade
    (h : symbol ∉ trades.map Trade.symbol) (ledger : Ledger) :
    (trades.foldl Ledger.trade ledger).shares symbol = ledger.shares symbol := by
  induction trades generalizing ledger with
  | nil => rfl
  | cons t trades ih =>
    rw [List.map_cons, List.mem_cons, not_or] at h
    rw [List.foldl_cons, ih h.2, shares_trade, if_neg (Ne.symm h.1), add_zero]

theorem shares_of_trade (hnodup : (trades.map Trade.symbol).Nodup) {t : Trade} (ht : t ∈ trades) (ledger : Ledger) :
    (trades.foldl Ledger.trade ledger).shares t.symbol = ledger.shares t.symbol + t.change := by
  induction trades generalizing ledger with
  | nil => cases ht
  | cons t' trades ih =>
    rw [List.map_cons, List.nodup_cons] at hnodup
    rw [List.foldl_cons]
    rcases List.mem_cons.1 ht with rfl | ht
    · rw [shares_of_no_trade hnodup.1, shares_trade, if_pos rfl]
    · have hne : t'.symbol ≠ t.symbol := fun heq => hnodup.1 (heq ▸ List.mem_map_of_mem ht)
      rw [ih hnodup.2 ht, shares_trade, if_neg hne, add_zero]

def Book.ledger (book : Book) : Ledger := ⟨book.cash, book.held⟩

theorem Book.ledger_matches (book : Book) : book.ledger.Matches book := ⟨rfl, fun _ => rfl⟩

theorem Book.Sound.get?_shares {book : Book} (h : book.Sound) (symbol : Symbol) :
    book.shares.get? symbol = if book.held symbol = 0 then none else some (book.held symbol) := by
  rcases hq : book.shares.get? symbol with _ | q
  · rw [if_pos (by rw [Book.held, hq]; rfl)]
  · rw [held_of_get? hq, if_neg (h.held_pos symbol q hq).ne']

structure Book.Valued (book : Book) : Prop where
  worth_nonneg : ∀ symbol, 0 ≤ book.held symbol * book.lastOf symbol
  value_nonneg : 0 ≤ book.value

theorem Book.Sound.valued {book : Book} (h : book.Sound) : book.Valued where
  worth_nonneg := by
    intro symbol
    rcases hq : book.shares.get? symbol with _ | q
    · rw [Book.held, hq]
      simp
    · rw [held_of_get? hq]
      exact (h.holding_pos hq).le
  value_nonneg := add_nonneg h.cash_nonneg h.market_nonneg

section Target

variable (floor : ℚ) (book : Book) (target : TargetPortfolio) (opens : Dict Symbol ℚ)

def surplus (symbol : Symbol) : ℚ := excess target book.value (book.held symbol) (book.lastOf symbol) symbol

def deficit (symbol : Symbol) : ℚ := shortfall (target.weightOf symbol) book.value book symbol

theorem deficit_eq_neg (symbol : Symbol) : deficit book target symbol = -surplus book target symbol := by
  unfold deficit surplus shortfall excess
  ring

def Oversold (symbol : Symbol) : Prop := floor ≤ surplus book target symbol

def Lacking (symbol : Symbol) : Prop := floor ≤ deficit book target symbol

instance decidableOversold : DecidablePred (Oversold floor book target) := fun _ => Rat.instDecidableLe _ _

instance decidableLacking : DecidablePred (Lacking floor book target) := fun _ => Rat.instDecidableLe _ _

def soldOf (symbols : List Symbol) : List Symbol :=
  symbols.filter fun symbol => Oversold floor book target symbol ∧ (opens.get? symbol).isSome

def orderedOf (symbols : List Symbol) : List Symbol :=
  symbols.filter fun symbol => Lacking floor book target symbol ∧ (opens.get? symbol).isSome

def soldSymbols : List Symbol := soldOf floor book target opens (sortedBy id book.shares.keys)

def orderedSymbols : List Symbol := orderedOf floor book target opens (sortedBy id target.weights.keys)

def cashAfterSales (rate : ℚ) : ℚ :=
  book.cash + ((soldSymbols floor book target opens).map (surplus book target)).sum * (1 - rate)

def orderScale (rate : ℚ) : ℚ := min 1 (cashAfterSales floor book target opens rate /
    ((1 + rate) * ((orderedSymbols floor book target opens).map (deficit book target)).sum))

end Target

def Trade.summary (trade : Trade) : Symbol × Side × ℚ := (trade.symbol, trade.side, trade.notional)

section Rebalance

variable {floor : ℚ} {book : Book} {target : TargetPortfolio} {session : Date} {opens : Dict Symbol ℚ}
  {rules : ExecutionRules}

/-! ## The sales -/

/-- What the sell loop has done after the symbols of `pre`. -/
structure SoldDown (floor : ℚ) (book : Book) (target : TargetPortfolio) (opens : Dict Symbol ℚ)
    (pre : List Symbol) (state : SellState) : Prop where
  rest : ∀ symbol, symbol ∉ pre → state.book.shares.get? symbol = book.shares.get? symbol
  last_eq : state.book.last = book.last
  trades : state.trades.map Trade.summary =
    (soldOf floor book target opens pre).map fun symbol => (symbol, .sell, surplus book target symbol)
  unfilled : state.unfilled = pre.filter fun symbol => Oversold floor book target symbol ∧ opens.get? symbol = none
  traded : state.traded = ((soldOf floor book target opens pre).map (surplus book target)).sum

variable {symbol : Symbol} {sold : SellState}

theorem sold_notional {held price sold value : ℚ}
    (hsold : soldShares (target.weightOf symbol) held (excess target value held price symbol) price =
      .ok sold) : sold * price = excess target value held price symbol := by
  obtain ⟨hprice, rfl⟩ := soldShares_eq_ok_iff.1 hsold
  split_ifs with hw
  · rw [excess, hw]
    ring
  · exact div_mul_cancel₀ _ (hprice hw)

theorem SoldDown.step (hopens : ∀ symbol p, opens.get? symbol = some p → book.last.get? symbol = some p)
    {pre : List Symbol} {state state' : SellState} (hpre : symbol ∉ pre)
    (h : SoldDown floor book target opens pre state)
    (hstep : SellStep floor target session opens rules book.value state symbol state') :
    SoldDown floor book target opens (pre ++ [symbol]) state' := by
  have hrest : ∀ s, s ∉ pre ++ [symbol] → s ∉ pre ∧ symbol ≠ s := by
    intro s hs
    rw [List.mem_append, List.mem_singleton, not_or] at hs
    exact ⟨hs.1, Ne.symm hs.2⟩
  -- the holding of the symbol is that of the start
  have hexcess : ∀ held last, state.book.shares.get? symbol = some held → state.book.last.get? symbol = some last →
      excess target book.value held last symbol = surplus book target symbol := by
    intro held last hheld hlast
    rw [h.rest symbol hpre] at hheld
    rw [h.last_eq] at hlast
    rw [surplus, held_of_get? hheld, lastOf_of_get? hlast]
  cases hstep with
  | @kept held last hheld hlast small =>
    have hnot : ¬ Oversold floor book target symbol := by
      rw [hexcess held last hheld hlast] at small
      exact not_le.2 small
    refine ⟨fun s hs => h.rest s (hrest s hs).1, h.last_eq, ?_, ?_, ?_⟩
    · simpa [soldOf, List.filter_append, hnot] using h.trades
    · simpa [List.filter_append, hnot] using h.unfilled
    · simpa [soldOf, List.filter_append, hnot] using h.traded
  | @unfilled held last hheld hlast large hopen =>
    have hover : Oversold floor book target symbol := by
      rw [hexcess held last hheld hlast] at large
      exact large
    refine ⟨fun s hs => h.rest s (hrest s hs).1, h.last_eq, ?_, ?_, ?_⟩
    · simpa [soldOf, List.filter_append, hopen] using h.trades
    · simp [List.filter_append, hopen, hover, h.unfilled]
    · simpa [soldOf, List.filter_append, hopen] using h.traded
  | @sold held last price sold hheld hlast large hopen hsold value_ne =>
    have hover : Oversold floor book target symbol := by
      rw [hexcess held last hheld hlast] at large
      exact large
    -- the open is the last price
    obtain rfl : last = price := by
      have := hopens symbol price hopen
      rw [← h.last_eq, hlast] at this
      exact Option.some.inj this
    have hnotional : sold * last = surplus book target symbol := by
      rw [sold_notional hsold, hexcess held last hheld hlast]
    refine ⟨fun s hs => ?_, h.last_eq, ?_, ?_, ?_⟩
    · rw [get?_sell_of_ne _ _ _ _ _ _ _ _ _ (hrest s hs).2, h.rest s (hrest s hs).1]
    · change (state.trades ++ [_]).map Trade.summary = _
      rw [List.map_append, h.trades]
      simp [soldOf, List.filter_append, hopen, hover, Trade.summary, hnotional]
    · simpa [SellState.sell, List.filter_append, hopen] using h.unfilled
    · change state.traded + sold * last = _
      rw [h.traded, hnotional]
      simp [soldOf, List.filter_append, hopen, hover]

theorem sellLoop_soldDown (hopens : ∀ symbol p, opens.get? symbol = some p → book.last.get? symbol = some p)
    (h : sellLoop floor target session opens rules book.value book = .ok sold) :
    SoldDown floor book target opens (sortedBy id book.shares.keys) sold := by
  have hnodup : (sortedBy id book.shares.keys).Nodup := (perm_sortedBy id _).nodup_iff.2 book.shares.nodup
  have hstart : SoldDown floor book target opens [] ⟨book, [], [], 0⟩ := ⟨fun _ _ => rfl, rfl, rfl, rfl, rfl⟩
  refine foldlM_inv (SoldDown floor book target opens) h hstart ?_
  intro pre symbol post state state' hl hinv hstep
  exact hinv.step hopens (not_mem_of_nodup hl hnodup) (sellStep_eq_ok_iff.1 hstep)

theorem mem_keys_of_oversold (hfloor : 0 < floor) (hvalue : 0 ≤ book.value)
    (hover : Oversold floor book target symbol) : symbol ∈ book.shares.keys := by
  by_contra hnot
  have hheld : book.held symbol = 0 := by
    rw [Book.held, (Dict.get?_eq_none_iff _ _).2 hnot]
    rfl
  have hgoal : 0 ≤ target.weightOf symbol * book.value := mul_nonneg (weightOf_nonneg target symbol) hvalue
  unfold Oversold surplus excess at hover
  rw [hheld, zero_mul] at hover
  linarith

theorem mem_soldSymbols_iff (hfloor : 0 < floor) (hvalue : 0 ≤ book.value) : symbol ∈ soldSymbols floor book target opens ↔
      Oversold floor book target symbol ∧ (opens.get? symbol).isSome := by
  unfold soldSymbols soldOf
  rw [List.mem_filter, mem_sortedBy, decide_eq_true_iff]
  exact and_iff_right_of_imp fun h => mem_keys_of_oversold hfloor hvalue h.1

theorem weightOf_of_get? {weight : ℚ} (h : target.weights.get? symbol = some weight) : target.weightOf symbol = weight := by
  rw [TargetPortfolio.weightOf, h]
  rfl

theorem mem_keys_of_lacking (hfloor : 0 < floor) (hbook : book.Valued) (hlack : Lacking floor book target symbol) :
    symbol ∈ target.weights.keys ∧ 0 < target.weightOf symbol := by
  have hheld := hbook.worth_nonneg symbol
  have hgoal : 0 < target.weightOf symbol * book.value := by
    unfold Lacking deficit shortfall at hlack
    linarith
  have hweight : 0 < target.weightOf symbol := pos_of_mul_pos_left hgoal hbook.value_nonneg
  refine ⟨?_, hweight⟩
  by_contra hnot
  rw [TargetPortfolio.weightOf, (Dict.get?_eq_none_iff _ _).2 hnot] at hweight
  exact lt_irrefl _ hweight

theorem mem_orderedSymbols_iff (hfloor : 0 < floor) (hbook : book.Valued) : symbol ∈ orderedSymbols floor book target opens ↔
      Lacking floor book target symbol ∧ (opens.get? symbol).isSome := by
  unfold orderedSymbols orderedOf
  rw [List.mem_filter, mem_sortedBy, decide_eq_true_iff]
  exact and_iff_right_of_imp fun h => (mem_keys_of_lacking hfloor hbook h.1).1

theorem not_lacking_of_oversold (hfloor : 0 < floor) (h : Oversold floor book target symbol) :
    ¬ Lacking floor book target symbol := by
  intro hlack
  rw [Lacking, deficit_eq_neg] at hlack
  rw [Oversold] at h
  linarith

theorem nodup_soldSymbols : (soldSymbols floor book target opens).Nodup :=
  ((perm_sortedBy id _).nodup_iff.2 book.shares.nodup).filter _

theorem nodup_orderedSymbols : (orderedSymbols floor book target opens).Nodup :=
  ((perm_sortedBy id _).nodup_iff.2 target.weights.nodup).filter _

/-! ## The orders -/

theorem held_soldDown (hopens : ∀ symbol p, opens.get? symbol = some p → book.last.get? symbol = some p)
    (h : sellLoop floor target session opens rules book.value book = .ok sold) (symbol : Symbol) :
    sold.book.held symbol * book.lastOf symbol =
      if symbol ∈ soldSymbols floor book target opens then target.weightOf symbol * book.value
      else book.held symbol * book.lastOf symbol := by
  have hdown := sellLoop_soldDown hopens h
  obtain ⟨hmatch, hat⟩ := sellLoop_matches book.ledger_matches h
  have hsymbols : sold.trades.map Trade.symbol = soldSymbols floor book target opens := by
    have := congrArg (List.map Prod.fst) hdown.trades
    simpa [List.map_map, Function.comp_def, Trade.summary, soldSymbols] using this
  rw [← hmatch.2 symbol]
  split_ifs with hmem
  · rw [← hsymbols] at hmem
    obtain ⟨t, ht, rfl⟩ := List.mem_map.1 hmem
    have hsum : t.summary ∈ (soldSymbols floor book target opens).map
        fun symbol => (symbol, Side.sell, surplus book target symbol) := by
      rw [soldSymbols, ← hdown.trades]
      exact List.mem_map_of_mem ht
    obtain ⟨s, -, hs⟩ := List.mem_map.1 hsum
    obtain ⟨rfl, hside, hnotional⟩ : s = t.symbol ∧ Side.sell = t.side ∧ surplus book target s = t.notional := by
      simpa [Trade.summary] using hs
    have hprice : book.lastOf t.symbol = t.price := lastOf_of_get? (hopens _ _ (hat t ht).open_eq)
    rw [shares_of_trade (hsymbols ▸ nodup_soldSymbols) ht]
    unfold Trade.change
    rw [← hside]
    change (book.held t.symbol + -t.shares) * book.lastOf t.symbol = _
    have hshares := (hat t ht).notional_eq
    rw [← hnotional, surplus, excess] at hshares
    rw [add_mul, neg_mul, hprice, ← hshares, hprice]
    ring
  · rw [← hsymbols] at hmem
    rw [shares_of_no_trade hmem]
    rfl

theorem shortfall_soldDown (hfloor : 0 < floor) (hbook : book.Valued)
    (hopens : ∀ symbol p, opens.get? symbol = some p → book.last.get? symbol = some p)
    (h : sellLoop floor target session opens rules book.value book = .ok sold) (symbol : Symbol) :
    (floor ≤ shortfall (target.weightOf symbol) book.value sold.book symbol ↔ Lacking floor book target symbol) ∧
      (Lacking floor book target symbol →
        shortfall (target.weightOf symbol) book.value sold.book symbol = deficit book target symbol) := by
  have hvalue := hbook.value_nonneg
  have hlast : sold.book.lastOf symbol = book.lastOf symbol := by
    rw [Book.lastOf, (sellLoop_soldDown hopens h).last_eq]
    rfl
  have hheld := held_soldDown hopens h symbol
  by_cases hmem : symbol ∈ soldSymbols floor book target opens
  · rw [if_pos hmem] at hheld
    have hnot := not_lacking_of_oversold hfloor ((mem_soldSymbols_iff hfloor hvalue).1 hmem).1
    have hzero : shortfall (target.weightOf symbol) book.value sold.book symbol = 0 := by
      rw [shortfall, hlast, hheld, sub_self]
    rw [hzero]
    exact ⟨⟨fun hle => absurd hfloor (not_lt.2 hle), fun hlack => absurd hlack hnot⟩, fun hlack => absurd hlack hnot⟩
  · rw [if_neg hmem] at hheld
    have heq : shortfall (target.weightOf symbol) book.value sold.book symbol = deficit book target symbol := by
      rw [shortfall, hlast, hheld]
      rfl
    rw [heq]
    exact ⟨Iff.rfl, fun _ => rfl⟩

def orderOf (book : Book) (target : TargetPortfolio) (symbol : Symbol) : Order :=
  ⟨symbol, book.lastOf symbol, deficit book target symbol⟩

/-- What the order loop has done after the symbols of `pre`. -/
structure Ordered (floor : ℚ) (book : Book) (target : TargetPortfolio) (opens : Dict Symbol ℚ)
    (sold : SellState) (pre : List Symbol) (state : OrderState) : Prop where
  orders : state.orders = (orderedOf floor book target opens pre).map (orderOf book target)
  unfilled : ∀ symbol, symbol ∈ state.unfilled ↔ symbol ∈ sold.unfilled ∨
      (symbol ∈ pre ∧ Lacking floor book target symbol ∧ opens.get? symbol = none)
  nodup : state.unfilled.Nodup

theorem Ordered.step
    (hopens : ∀ symbol p, opens.get? symbol = some p → book.last.get? symbol = some p) {sold : SellState}
    (hshort : (floor ≤ shortfall (target.weightOf symbol) book.value sold.book symbol ↔ Lacking floor book target symbol) ∧
      (Lacking floor book target symbol →
        shortfall (target.weightOf symbol) book.value sold.book symbol = deficit book target symbol))
    (hweight : Lacking floor book target symbol → 0 < target.weightOf symbol)
    {pre : List Symbol} {state state' : OrderState} (h : Ordered floor book target opens sold pre state)
    (hstep : OrderStep floor target.cutoffAt session opens rules book.value sold.book state symbol
      (target.weightOf symbol) state') :
    Ordered floor book target opens sold (pre ++ [symbol]) state' := by
  cases hstep with
  | none hskip =>
    have hnot : ¬ Lacking floor book target symbol := by
      intro hlack
      rcases hskip with hw | hsmall
      · exact absurd (hweight hlack) (not_lt.2 hw)
      · exact absurd (hshort.1.2 hlack) (not_le.2 hsmall)
    refine ⟨?_, fun s => ?_, h.nodup⟩
    · simpa [orderedOf, List.filter_append, hnot] using h.orders
    · rw [h.unfilled, List.mem_append, List.mem_singleton]
      refine or_congr_right ⟨fun hs => ⟨.inl hs.1, hs.2⟩, ?_⟩
      rintro ⟨hs | rfl, hlack⟩
      · exact ⟨hs, hlack⟩
      · exact absurd hlack.1 hnot
  | @order price _ large hopen =>
    have hlack := hshort.1.1 large
    refine ⟨?_, fun s => ?_, h.nodup⟩
    · change state.orders ++ [_] = _
      rw [h.orders, hshort.2 hlack]
      simp [orderedOf, List.filter_append, hlack, hopen, orderOf, lastOf_of_get? (hopens _ _ hopen)]
    · change s ∈ state.unfilled ↔ _
      rw [h.unfilled, List.mem_append, List.mem_singleton]
      refine or_congr_right ⟨fun hs => ⟨.inl hs.1, hs.2⟩, ?_⟩
      rintro ⟨hs | rfl, hlack, hnone⟩
      · exact ⟨hs, hlack, hnone⟩
      · rw [hopen] at hnone
        cases hnone
  | unfilled _ large hopen =>
    have hlack := hshort.1.1 large
    refine ⟨?_, fun s => ?_, ?_⟩
    · simpa [orderedOf, List.filter_append, hopen] using h.orders
    · change s ∈ (if symbol ∈ state.unfilled then state.unfilled else state.unfilled ++ [symbol]) ↔ _
      have hmem : s ∈ (if symbol ∈ state.unfilled then state.unfilled else state.unfilled ++ [symbol]) ↔
          s ∈ state.unfilled ∨ s = symbol := by
        split_ifs with hold
        · exact ⟨.inl, fun hs => hs.elim id fun heq => heq ▸ hold⟩
        · rw [List.mem_append, List.mem_singleton]
      rw [hmem, h.unfilled, List.mem_append, List.mem_singleton]
      constructor
      · rintro ((hs | ⟨hs, hrest⟩) | rfl)
        · exact .inl hs
        · exact .inr ⟨.inl hs, hrest⟩
        · exact .inr ⟨.inr rfl, hlack, hopen⟩
      · rintro (hs | ⟨hs | rfl, hrest⟩)
        · exact .inl (.inl hs)
        · exact .inl (.inr ⟨hs, hrest⟩)
        · exact .inr rfl
    · change (if symbol ∈ state.unfilled then state.unfilled else state.unfilled ++ [symbol]).Nodup
      split_ifs with hold
      · exact h.nodup
      · rw [List.nodup_append]
        refine ⟨h.nodup, List.nodup_singleton _, fun a ha b hb heq => ?_⟩
        rw [List.mem_singleton.1 hb] at heq
        exact hold (heq ▸ ha)

theorem orderLoop_ordered (hfloor : 0 < floor) (hbook : book.Valued)
    (hopens : ∀ symbol p, opens.get? symbol = some p → book.last.get? symbol = some p)
    (h : sellLoop floor target session opens rules book.value book = .ok sold) :
    Ordered floor book target opens sold (sortedBy id target.weights.keys)
      (orderLoop floor target session opens rules book.value sold) := by
  have hkeys : (sortedBy Prod.fst target.weights.items).map Prod.fst = sortedBy id target.weights.keys :=
    (sortedBy_map Prod.fst id Prod.fst (fun _ => rfl) _).symm
  have hnodup : sold.unfilled.Nodup := by
    rw [(sellLoop_soldDown hopens h).unfilled]
    exact ((perm_sortedBy id _).nodup_iff.2 book.shares.nodup).filter _
  rw [← hkeys]
  refine foldl_inv (fun pre state => Ordered floor book target opens sold (pre.map Prod.fst) state) _ ?_ ?_
  · exact ⟨rfl, fun s => by simp, hnodup⟩
  · rintro pre ⟨symbol, weight⟩ post state hl hinv
    have hitem : (symbol, weight) ∈ target.weights.items := by
      rw [← mem_sortedBy Prod.fst, hl]
      simp
    have hweight : target.weightOf symbol = weight := weightOf_of_get? ((target.weights.get?_eq_some_iff symbol weight).2 hitem)
    have hstep := orderStep_spec floor target.cutoffAt session opens rules book.value sold.book state
      symbol weight
    rw [List.map_append, List.map_singleton]
    subst hweight
    exact hinv.step hopens (shortfall_soldDown hfloor hbook hopens h symbol)
      (fun hlack => (mem_keys_of_lacking hfloor hbook hlack).2) hstep

theorem spend_trades {orders : List Order} {cutoffAt : Instant} {value : ℚ} {book' : Book}
    (h : spend floor book orders rules cutoffAt session value = .ok (book', trades)) :
    trades.map Trade.summary = ((spentLegs book.cash rules.costRate orders).filter fun leg => floor ≤ leg.notional).map
        fun leg => (leg.order.symbol, .buy, leg.notional) := by
  by_cases hne : orders = []
  · subst hne
    rw [spend_nil] at h
    cases h
    rfl
  refine foldlM_inv (fun pre (state : Book × List Trade) => state.2.map Trade.summary =
    (pre.filter fun leg => floor ≤ leg.notional).map fun leg => (leg.order.symbol, Side.buy, leg.notional))
    ((spend_eq_ok_iff hne).1 h).2 rfl ?_
  intro pre leg post state state' _ hinv hleg
  cases buyLeg_eq_ok_iff.1 hleg with
  | dropped small => simpa [List.filter_append, not_le.2 small] using hinv
  | filled large =>
    change (state.2 ++ [_]).map Trade.summary = _
    rw [List.map_append, hinv]
    simp [List.filter_append, large, Trade.summary, buyTrade]

theorem spendScale_eq_min {cash rate : ℚ} {orders : List Order} (hneed : 0 < need rate orders) :
    spendScale cash rate orders = min 1 (cash / need rate orders) := by
  unfold spendScale
  split_ifs with h
  · rw [min_eq_left]
    exact ((one_lt_div hneed).2 h).le
  · rw [min_eq_right]
    exact (div_le_one hneed).2 (not_lt.1 h)

theorem need_orderOf (rate : ℚ) (symbols : List Symbol) : need rate (symbols.map (orderOf book target)) =
      (1 + rate) * (symbols.map (deficit book target)).sum := by
  unfold need
  induction symbols with
  | nil => simp
  | cons symbol symbols ih =>
    rw [List.map_cons, List.map_cons, List.map_cons, List.sum_cons, List.sum_cons, ih]
    change deficit book target symbol * (1 + rate) + _ = _
    ring

/-! ## The whole rebalance -/

def plannedTrades (floor rate : ℚ) (book : Book) (target : TargetPortfolio) (opens : Dict Symbol ℚ) : List (Symbol × Side × ℚ) :=
  ((soldSymbols floor book target opens).map fun symbol => (symbol, .sell, surplus book target symbol)) ++
    ((orderedSymbols floor book target opens).filter fun symbol =>
        floor ≤ orderScale floor book target opens rate * deficit book target symbol).map fun symbol =>
      (symbol, .buy, orderScale floor book target opens rate * deficit book target symbol)

/-- What each symbol holds after a rebalance, the trades and fees, and the symbols that could not trade. -/
structure ReachesTarget (floor rate : ℚ) (book : Book) (target : TargetPortfolio) (opens : Dict Symbol ℚ)
    (made : Traded) (fill : Fill) : Prop where
  sold : ∀ symbol p, opens.get? symbol = some p → Oversold floor book target symbol →
    made.book.held symbol * p = target.weightOf symbol * book.value ∧
      (target.weightOf symbol = 0 → made.book.shares.get? symbol = none)
  bought : ∀ symbol p, opens.get? symbol = some p → Lacking floor book target symbol → made.book.held symbol = book.held symbol +
      if orderScale floor book target opens rate * deficit book target symbol < floor then 0
      else orderScale floor book target opens rate * deficit book target symbol / p
  unchanged : ∀ symbol, opens.get? symbol = none ∨ ¬ Oversold floor book target symbol ∧ ¬ Lacking floor book target symbol →
    made.book.shares.get? symbol = book.shares.get? symbol
  trades : made.trades.map Trade.summary = plannedTrades floor rate book target opens
  nodup : (made.trades.map Trade.symbol).Nodup
  fee_eq : ∀ trade ∈ made.trades, trade.fee = rate * trade.notional
  unfilled : ∀ symbol, symbol ∈ fill.unfilledSymbols ↔
    opens.get? symbol = none ∧ (Oversold floor book target symbol ∨ Lacking floor book target symbol)
  unfilled_sorted : fill.unfilledSymbols.Pairwise (· < ·)

theorem Book.Sound.safe (h : book.Sound) {prices : Dict Symbol ℚ} (hvalue : 0 < (book.mark prices).value) : book.Safe := by
  refine ⟨h, ?_⟩
  rcases h.cash_nonneg.eq_or_lt with hcash | hcash
  · refine .inr fun hkeys => ?_
    have hitems : book.shares.items = [] := List.map_eq_nil_iff.1 hkeys
    have hzero : (book.mark prices).value = 0 := by
      unfold Book.value Book.market Dict.sumBy
      change book.cash + (book.shares.items.map _).sum = 0
      rw [hitems, ← hcash, List.map_nil, List.sum_nil, add_zero]
    exact absurd hvalue (hzero ▸ lt_irrefl _)
  · exact .inl hcash

theorem Book.Sound.priced_mark (h : book.Sound) (prices : Dict Symbol ℚ) : (book.mark prices).Priced := by
  intro symbol held hheld
  obtain ⟨p, hp⟩ := h.priced symbol held hheld
  change ∃ p, (book.last.update prices).get? symbol = some p
  rcases hq : prices.get? symbol with _ | q
  · exact ⟨p, by rw [Dict.get?_update_of_none hq, hp]⟩
  · exact ⟨q, Dict.get?_update_of_some hq⟩

variable {side : Side} {notional : ℚ} {made : Traded}

theorem mem_plannedTrades {rate : ℚ} : (symbol, side, notional) ∈ plannedTrades floor rate book target opens ↔
      (symbol ∈ soldSymbols floor book target opens ∧ side = .sell ∧ notional = surplus book target symbol) ∨
        (symbol ∈ orderedSymbols floor book target opens ∧ side = .buy ∧
          notional = orderScale floor book target opens rate * deficit book target symbol ∧
          floor ≤ notional) := by
  unfold plannedTrades
  rw [List.mem_append, List.mem_map, List.mem_map]
  refine or_congr ⟨?_, ?_⟩ ⟨?_, ?_⟩
  · rintro ⟨s, hs, heq⟩
    cases heq
    exact ⟨hs, rfl, rfl⟩
  · rintro ⟨hs, rfl, rfl⟩
    exact ⟨symbol, hs, rfl⟩
  · rintro ⟨s, hs, heq⟩
    obtain ⟨hs, hlarge⟩ := List.mem_filter.1 hs
    cases heq
    exact ⟨hs, rfl, rfl, of_decide_eq_true hlarge⟩
  · rintro ⟨hs, rfl, rfl, hlarge⟩
    exact ⟨symbol, List.mem_filter.2 ⟨hs, decide_eq_true hlarge⟩, rfl⟩

theorem nodup_plannedTrades (hfloor : 0 < floor) (hbook : book.Valued) (rate : ℚ) :
    ((plannedTrades floor rate book target opens).map Prod.fst).Nodup := by
  have hvalue := hbook.value_nonneg
  unfold plannedTrades
  rw [List.map_append, List.map_map, List.map_map]
  change (List.map id _ ++ List.map id _).Nodup
  rw [List.map_id, List.map_id, List.nodup_append]
  refine ⟨nodup_soldSymbols, nodup_orderedSymbols.filter _, fun a ha b hb heq => ?_⟩
  subst heq
  exact not_lacking_of_oversold hfloor ((mem_soldSymbols_iff hfloor hvalue).1 ha).1
    ((mem_orderedSymbols_iff hfloor hbook).1 (List.mem_filter.1 hb).1).1

theorem rebalance_trades (hfloor : 0 < floor) (hrate0 : 0 ≤ rules.costRate) (hbook : book.Valued)
    (hopens : ∀ symbol p, opens.get? symbol = some p → book.last.get? symbol = some p)
    (hsold : sellLoop floor target session opens rules book.value book = .ok sold)
    (hcash : sold.book.cash = book.cash + sold.traded * (1 - rules.costRate)) {book' : Book} {trades : List Trade}
    (hspend : spend floor sold.book (orderLoop floor target session opens rules book.value sold).orders
      rules target.cutoffAt session book.value = .ok (book', trades)) :
    (sold.trades ++ trades).map Trade.summary = plannedTrades floor rules.costRate book target opens := by
  have hdown := sellLoop_soldDown hopens hsold
  have horders : (orderLoop floor target session opens rules book.value sold).orders =
      (orderedSymbols floor book target opens).map (orderOf book target) :=
    (orderLoop_ordered hfloor hbook hopens hsold).orders
  rw [horders] at hspend
  rw [List.map_append, hdown.trades, spend_trades hspend]
  unfold plannedTrades
  refine congrArg₂ _ rfl ?_
  by_cases hnone : orderedSymbols floor book target opens = []
  · rw [hnone]
    rfl
  have hpos : 0 < need rules.costRate ((orderedSymbols floor book target opens).map (orderOf book target)) := by
    refine need_pos hrate0 (by simpa using hnone) fun order horder => ?_
    obtain ⟨symbol, hsymbol, rfl⟩ := List.mem_map.1 horder
    exact lt_of_lt_of_le hfloor ((mem_orderedSymbols_iff hfloor hbook).1 hsymbol).1
  have hscale : spendScale sold.book.cash rules.costRate
      ((orderedSymbols floor book target opens).map (orderOf book target)) =
        orderScale floor book target opens rules.costRate := by
    rw [spendScale_eq_min hpos, need_orderOf, hcash, hdown.traded]
    rfl
  unfold spentLegs legsAt
  rw [hscale, List.map_map, List.filter_map, List.map_map]
  simp only [Function.comp_def, orderOf, mul_comm (deficit book target _)]

theorem exists_of_mem_summaries (h : (symbol, side, notional) ∈ trades.map Trade.summary) :
    ∃ t ∈ trades, t.symbol = symbol ∧ t.side = side ∧ t.notional = notional := by
  obtain ⟨t, ht, heq⟩ := List.mem_map.1 h
  cases heq
  exact ⟨t, ht, rfl, rfl, rfl⟩

theorem held_of_planned {p : ℚ} (hmatch : (made.trades.foldl Ledger.trade book.ledger).Matches made.book)
    (hat : ∀ trade ∈ made.trades, trade.At opens rules.costRate) (hnodup : (made.trades.map Trade.symbol).Nodup)
    (hopen : opens.get? symbol = some p) (hp : 0 < p) (h : (symbol, side, notional) ∈ made.trades.map Trade.summary) :
    made.book.held symbol = book.held symbol + side.signed (notional / p) := by
  obtain ⟨t, ht, rfl, rfl, rfl⟩ := exists_of_mem_summaries h
  have hprice : t.price = p := by
    have := (hat t ht).open_eq
    rw [hopen] at this
    exact (Option.some.inj this).symm
  have hshares : t.shares = t.notional / p := by
    rw [(hat t ht).notional_eq, hprice, mul_div_cancel_right₀ _ hp.ne']
  rw [← hmatch.2 t.symbol, shares_of_trade hnodup ht, Trade.change, hshares]
  rfl

theorem held_of_unplanned (hmatch : (made.trades.foldl Ledger.trade book.ledger).Matches made.book)
    (h : symbol ∉ made.trades.map Trade.symbol) : made.book.held symbol = book.held symbol := by
  rw [← hmatch.2 symbol, shares_of_no_trade h]
  rfl

theorem reachesTarget_of_rebalance (hfloor : 0 < floor) (hrate0 : 0 ≤ rules.costRate) (hrate1 : rules.costRate < 1)
    (hbook : book.Sound) (hpos : ∀ symbol p, opens.get? symbol = some p → 0 < p) {fill : Fill}
    (h : rebalance floor book target session opens rules = .ok (made, fill)) :
    ReachesTarget floor rules.costRate (book.mark opens) target opens made fill := by
  obtain ⟨-, hvalue, sold, trades, hsold, hspend, -, htrades, rfl⟩ := rebalance_eq_ok_iff.1 h
  have hsafe : (book.mark opens).Safe := (hbook.safe hvalue).mark hpos
  have hvalued := hsafe.toSound.valued
  have hopens : ∀ symbol p, opens.get? symbol = some p → (book.mark opens).last.get? symbol = some p :=
    fun symbol p hp => Dict.get?_update_of_some hp
  have hmade : made.book.Sound := by
    obtain ⟨made', fill', hok, hsafe', -⟩ := rebalance_safe hfloor hrate0 hrate1 target session hpos (hbook.safe hvalue)
    rw [h] at hok
    cases hok
    exact hsafe'.toSound
  obtain ⟨hmatch, hat⟩ := rebalance_matches book.ledger_matches h
  have hcash : sold.book.cash = (book.mark opens).cash + sold.traded * (1 - rules.costRate) := by
    obtain ⟨sold', hsold', hinv⟩ := sellLoop_safe hfloor hrate1 target session hsafe hopens
    rw [hsold] at hsold'
    cases hsold'
    exact hinv.cash_eq
  have hplan : made.trades.map Trade.summary = plannedTrades floor rules.costRate (book.mark opens) target opens := by
    rw [htrades]
    exact rebalance_trades hfloor hrate0 hvalued hopens hsold hcash hspend
  have hsymbols : made.trades.map Trade.symbol =
      (plannedTrades floor rules.costRate (book.mark opens) target opens).map Prod.fst := by
    rw [← hplan, List.map_map]
    rfl
  have hnodup : (made.trades.map Trade.symbol).Nodup := hsymbols ▸ nodup_plannedTrades hfloor hvalued _
  have hordered := orderLoop_ordered hfloor hvalued hopens hsold
  have hdown := sellLoop_soldDown hopens hsold
  -- a symbol without a trade keeps its shares
  have hkeep : ∀ symbol, (∀ side notional, (symbol, side, notional) ∉
      plannedTrades floor rules.costRate (book.mark opens) target opens) →
      made.book.held symbol = (book.mark opens).held symbol := by
    intro symbol hnone
    refine held_of_unplanned hmatch fun hmem => ?_
    rw [hsymbols] at hmem
    obtain ⟨⟨s, side, notional⟩, hplanned, rfl⟩ := List.mem_map.1 hmem
    exact hnone side notional hplanned
  refine ⟨?_, ?_, ?_, hplan, hnodup, fun trade htrade => (hat trade htrade).fee_eq, ?_, ?_⟩
  · intro symbol p hopen hover
    have hmem : symbol ∈ soldSymbols floor (book.mark opens) target opens :=
      (mem_soldSymbols_iff hfloor hvalue.le).2 ⟨hover, by rw [hopen]; rfl⟩
    have hheld := held_of_planned hmatch hat hnodup hopen (hpos _ _ hopen)
      (hplan ▸ mem_plannedTrades.2 (.inl ⟨hmem, rfl, rfl⟩))
    have hworth : made.book.held symbol * p = target.weightOf symbol * (book.mark opens).value := by
      rw [hheld]
      change ((book.mark opens).held symbol + -(surplus (book.mark opens) target symbol / p)) * p = _
      rw [add_mul, neg_mul, div_mul_cancel₀ _ (hpos _ _ hopen).ne', surplus, excess, lastOf_of_get? (hopens _ _ hopen)]
      ring
    refine ⟨hworth, fun hweight => ?_⟩
    rw [hweight, zero_mul] at hworth
    rw [hmade.get?_shares, if_pos ((mul_eq_zero.1 hworth).resolve_right (hpos _ _ hopen).ne')]
  · intro symbol p hopen hlack
    have hmem : symbol ∈ orderedSymbols floor (book.mark opens) target opens :=
      (mem_orderedSymbols_iff hfloor hvalued).2 ⟨hlack, by rw [hopen]; rfl⟩
    split_ifs with hsmall
    · rw [add_zero]
      refine hkeep symbol fun side notional hplanned => ?_
      rcases mem_plannedTrades.1 hplanned with ⟨hs, -, -⟩ | ⟨-, -, rfl, hlarge⟩
      · exact not_lacking_of_oversold hfloor ((mem_soldSymbols_iff hfloor hvalue.le).1 hs).1 hlack
      · exact absurd hsmall (not_lt.2 hlarge)
    · exact held_of_planned hmatch hat hnodup hopen (hpos _ _ hopen)
        (hplan ▸ mem_plannedTrades.2 (.inr ⟨hmem, rfl, rfl, not_lt.1 hsmall⟩))
  · intro symbol hnone
    have hheld : made.book.held symbol = (book.mark opens).held symbol := by
      refine hkeep symbol fun side notional hplanned => ?_
      have hopen : Oversold floor (book.mark opens) target symbol ∧ (opens.get? symbol).isSome ∨
          Lacking floor (book.mark opens) target symbol ∧ (opens.get? symbol).isSome := by
        rcases mem_plannedTrades.1 hplanned with ⟨hs, -⟩ | ⟨hs, -⟩
        · exact .inl ((mem_soldSymbols_iff hfloor hvalue.le).1 hs)
        · exact .inr ((mem_orderedSymbols_iff hfloor hvalued).1 hs)
      rcases hnone with hnone | ⟨hnot, hnot'⟩
      · rw [hnone] at hopen
        rcases hopen with ⟨-, hs⟩ | ⟨-, hs⟩ <;> cases hs
      · rcases hopen with ⟨hover, -⟩ | ⟨hlack, -⟩
        · exact hnot hover
        · exact hnot' hlack
    rw [hmade.get?_shares, hsafe.toSound.get?_shares, hheld]
  · intro symbol
    change symbol ∈ sortedBy id _ ↔ _
    rw [mem_sortedBy, hordered.unfilled, hdown.unfilled, List.mem_filter, mem_sortedBy, mem_sortedBy, decide_eq_true_iff]
    constructor
    · rintro (⟨-, hover, hnone⟩ | ⟨-, hlack, hnone⟩)
      · exact ⟨hnone, .inl hover⟩
      · exact ⟨hnone, .inr hlack⟩
    · rintro ⟨hnone, hover | hlack⟩
      · refine .inl ⟨?_, hover, hnone⟩
        exact mem_keys_of_oversold hfloor hvalue.le hover
      · exact .inr ⟨(mem_keys_of_lacking hfloor hvalued hlack).1, hlack, hnone⟩
  · exact strictSorted_of_nodup (pairwise_sortedBy id _) ((perm_sortedBy id _).nodup_iff.2 hordered.nodup)

theorem rebalance_eq_error (hbook : book.Sound) (hvalue : (book.mark opens).value ≤ 0) :
    rebalance floor book target session opens rules = .error (.valueNotPositive (book.mark opens).value session) := by
  unfold rebalance
  dsimp only
  rw [marketValue_eq_ok_iff.2 ⟨hbook.priced_mark opens, rfl⟩, ok_bind]
  exact if_pos hvalue

end Rebalance

/-- A rebalance of a sound book of positive value reaches its target within the cash; without value it raises. -/
theorem rebalance_reaches_target (book : Book) (target : TargetPortfolio) (session : Date)
    (opens : Dict Symbol ℚ) (rules : ExecutionRules) (hbook : book.Sound)
    (hopens : ∀ symbol p, opens.get? symbol = some p → 0 < p) (hrate0 : 0 ≤ rules.costRate)
    (hrate1 : rules.costRate < 1) :
    (0 < (book.mark opens).value → ∃ made fill, rebalance minOrderNotional book target session opens rules = .ok (made, fill) ∧
          ReachesTarget minOrderNotional rules.costRate (book.mark opens) target opens made fill) ∧
      ((book.mark opens).value ≤ 0 → rebalance minOrderNotional book target session opens rules =
          .error (.valueNotPositive (book.mark opens).value session)) ∧
      ∀ day, rebalance minOrderNotional book target session opens rules ≠ .error (.buysExceedCash day) := by
  have hfloor : 0 < minOrderNotional := by decide +kernel
  have hreturns : 0 < (book.mark opens).value → ∃ made fill,
      rebalance minOrderNotional book target session opens rules = .ok (made, fill) := by
    intro hvalue
    obtain ⟨made, fill, hok, -⟩ := rebalance_safe hfloor hrate0 hrate1 target session hopens (hbook.safe hvalue)
    exact ⟨made, fill, hok⟩
  refine ⟨fun hvalue => ?_, rebalance_eq_error hbook, fun day hday => ?_⟩
  · obtain ⟨made, fill, hok⟩ := hreturns hvalue
    exact ⟨made, fill, hok, reachesTarget_of_rebalance hfloor hrate0 hrate1 hbook hopens hok⟩
  · rcases lt_or_ge 0 (book.mark opens).value with hvalue | hvalue
    · obtain ⟨made, fill, hok⟩ := hreturns hvalue
      rw [hok] at hday
      cases hday
    · rw [rebalance_eq_error hbook hvalue] at hday
      cases hday

def heldBook : Book where
  cash := 100
  shares := Dict.ofList [("AAA", 50), ("BBB", 10)]
  last := Dict.ofList [("AAA", 10), ("BBB", 20)]

example : heldBook.value = 800 := by decide +kernel

theorem heldBook_sound : heldBook.Sound where
  cash_nonneg := by decide +kernel
  held_pos := fun _ held h =>
    (by decide +kernel : ∀ held ∈ heldBook.shares.values, 0 < held) held (Dict.mem_values_of_get? h)
  last_pos := fun _ p h =>
    (by decide +kernel : ∀ p ∈ heldBook.last.values, 0 < p) p (Dict.mem_values_of_get? h)
  priced := fun symbol held h => Option.isSome_iff_exists.1
    ((by decide +kernel : ∀ s ∈ heldBook.shares.keys, (heldBook.last.get? s).isSome) symbol
      ((Dict.mem_keys_iff _ _).2 ⟨held, h⟩))

def sampleOpens : Dict Symbol ℚ := Dict.ofList [("AAA", 12), ("BBB", 20)]

theorem sampleOpens_pos (symbol : Symbol) (p : ℚ) (h : sampleOpens.get? symbol = some p) : 0 < p :=
  (by decide +kernel : ∀ p ∈ sampleOpens.values, 0 < p) p (Dict.mem_values_of_get? h)

theorem rebalance_reaches_target_sample : 0 < (heldBook.mark sampleOpens).value ∧ ∃ made fill,
      rebalance minOrderNotional heldBook sampleTarget 2 sampleOpens sampleRules = .ok (made, fill) ∧
        ReachesTarget minOrderNotional sampleRules.costRate (heldBook.mark sampleOpens) sampleTarget
          sampleOpens made fill := by
  have hvalue : 0 < (heldBook.mark sampleOpens).value := by decide +kernel
  exact ⟨hvalue, (rebalance_reaches_target heldBook sampleTarget 2 sampleOpens sampleRules heldBook_sound
    sampleOpens_pos (by decide +kernel) (by decide +kernel)).1 hvalue⟩

def emptyBook : Book := ⟨0, Dict.empty, Dict.empty⟩

theorem emptyBook_sound : emptyBook.Sound where
  cash_nonneg := le_rfl
  held_pos := by intro _ _ h; cases h
  last_pos := by intro _ _ h; cases h
  priced := by intro _ _ h; cases h

/-- The empty book has nothing to trade, and its rebalance raises. -/
theorem rebalance_emptyBook : emptyBook.Sound ∧ (∀ symbol p, sampleOpens.get? symbol = some p → 0 < p) ∧
      0 ≤ sampleRules.costRate ∧ sampleRules.costRate < 1 ∧
      ¬ ∃ made fill, rebalance minOrderNotional emptyBook sampleTarget 2 sampleOpens sampleRules = .ok (made, fill) := by
  refine ⟨emptyBook_sound, sampleOpens_pos, by decide +kernel, by decide +kernel, ?_⟩
  rintro ⟨made, fill, h⟩
  rw [rebalance_eq_error emptyBook_sound (by decide +kernel)] at h
  cases h

end TrueAlpha.Backtest
