import TrueAlpha.Backtest.Schedule
import Mathlib.Tactic.Positivity

/-!
# The book safety invariant

The book of a run is safe (`Book.Safe`) after the splits, the trades and the close of every session, so the run can only fail on
two cutoffs that fill on one session.
-/

namespace TrueAlpha.Backtest

structure Book.Sound (book : Book) : Prop where
  cash_nonneg : 0 ≤ book.cash
  held_pos : ∀ symbol held, book.shares.get? symbol = some held → 0 < held
  last_pos : ∀ symbol last, book.last.get? symbol = some last → 0 < last
  priced : book.Priced

structure Book.Safe (book : Book) : Prop extends book.Sound where
  solvent : 0 < book.cash ∨ book.shares.keys ≠ []

namespace Book

variable {book : Book}

theorem Sound.holding_pos (h : book.Sound) {symbol : Symbol} {held : ℚ}
    (hheld : book.shares.get? symbol = some held) : 0 < held * (book.last.get? symbol).getD 0 := by
  obtain ⟨p, hp⟩ := h.priced symbol held hheld
  rw [hp]
  exact mul_pos (h.held_pos symbol held hheld) (h.last_pos symbol p hp)

theorem Sound.market_nonneg (h : book.Sound) : 0 ≤ book.market := Dict.sumBy_nonneg fun _ _ hheld => (h.holding_pos hheld).le

theorem Safe.value_pos (h : book.Safe) : 0 < book.value := by
  unfold Book.value
  rcases h.solvent with hcash | hshares
  · linarith [h.market_nonneg]
  · have : 0 < book.market := Dict.sumBy_pos hshares fun _ _ hheld => h.holding_pos hheld
    linarith [h.cash_nonneg]

theorem Safe.mark (h : book.Safe) {prices : Dict Symbol ℚ}
    (hprices : ∀ symbol p, prices.get? symbol = some p → 0 < p) : (book.mark prices).Safe where
  cash_nonneg := h.cash_nonneg
  held_pos := h.held_pos
  last_pos := by
    intro symbol p hp
    change (book.last.update prices).get? symbol = some p at hp
    rw [Dict.get?_update, Option.or_eq_some_iff] at hp
    rcases hp with hp | ⟨-, hp⟩
    · exact hprices symbol p hp
    · exact h.last_pos symbol p hp
  priced := by
    intro symbol held hheld
    obtain ⟨p, hp⟩ := h.priced symbol held hheld
    change ∃ p, (book.last.update prices).get? symbol = some p
    rcases hq : prices.get? symbol with _ | q
    · exact ⟨p, by rw [Dict.get?_update_of_none hq, hp]⟩
    · exact ⟨q, Dict.get?_update_of_some hq⟩
  solvent := h.solvent

end Book

theorem keys_set_ne_nil {ν : Type} (d : Dict Symbol ν) (symbol : Symbol) (v : ν) : (d.set symbol v).keys ≠ [] := by
  have hmem : symbol ∈ (d.set symbol v).keys := (Dict.mem_keys_iff _ _).2 ⟨v, Dict.get?_set_self d symbol v⟩
  exact List.ne_nil_of_mem hmem

variable {book : Book}

theorem applySplit_safe (h : book.Safe) {event : SplitEvent} (hn : 0 < event.numerator) (hd : 0 < event.denominator) :
    ∃ book' record, applySplit book event = .ok (book', record) ∧ book'.Safe := by
  have hnq : (0 : ℚ) < event.numerator := by exact_mod_cast hn
  have hdq : (0 : ℚ) < event.denominator := by exact_mod_cast hd
  -- the last prices
  obtain ⟨last', hlast', hpos, hmono⟩ : ∃ last', splitLast book.last event = .ok last' ∧ (∀ s p, last'.get? s = some p → 0 < p) ∧
      (∀ s p, book.last.get? s = some p → ∃ p', last'.get? s = some p') := by
    rcases hp : book.last.get? event.symbol with _ | p
    · exact ⟨book.last, splitLast_eq_ok_iff.2 (.inl ⟨hp, rfl⟩), h.last_pos, fun s p h => ⟨p, h⟩⟩
    · refine ⟨_, splitLast_eq_ok_iff.2 (.inr ⟨p, hp, hn.ne', rfl⟩), ?_, ?_⟩
      · intro s q hq
        rw [Dict.get?_set] at hq
        split_ifs at hq with hs
        · cases hq
          have := h.last_pos event.symbol p hp
          positivity
        · exact h.last_pos s q hq
      · intro s q hq
        rw [Dict.get?_set]
        split_ifs
        · exact ⟨_, rfl⟩
        · exact ⟨q, hq⟩
  -- the held shares
  rcases hq : book.shares.get? event.symbol with _ | held
  · refine ⟨⟨book.cash, book.shares, last'⟩, none, applySplit_eq_ok_iff.2 ⟨hlast', ?_, rfl⟩, ?_⟩
    · exact splitShares_eq_ok_iff.2 (.inl ⟨by rw [hq]; rfl, rfl, rfl⟩)
    · exact ⟨⟨h.cash_nonneg, h.held_pos, hpos, fun s q hs => (h.priced s q hs).elim (hmono s)⟩, h.solvent⟩
  · have hheld := h.held_pos event.symbol held hq
    have hshares := splitShares_eq_ok_iff.2 (.inr ⟨held, hq, hheld.ne', hd.ne', rfl, rfl⟩)
    refine ⟨⟨book.cash, _, last'⟩, _, applySplit_eq_ok_iff.2 ⟨hlast', hshares, rfl⟩, ?_⟩
    · refine ⟨⟨h.cash_nonneg, ?_, hpos, ?_⟩, .inr (keys_set_ne_nil _ _ _)⟩
      · intro s q hs
        change (book.shares.set _ _).get? s = some q at hs
        rw [Dict.get?_set] at hs
        split_ifs at hs
        · cases hs
          positivity
        · exact h.held_pos s q hs
      · intro s q hs
        change (book.shares.set _ _).get? s = some q at hs
        rw [Dict.get?_set] at hs
        split_ifs at hs with he
        · subst he
          exact (h.priced _ held hq).elim (hmono _)
        · exact (h.priced s q hs).elim (hmono s)

/-! ## Sales -/

variable {value : ℚ} {target : TargetPortfolio}

section Trades

variable {floor : ℚ} {rules : ExecutionRules}

theorem weightOf_nonneg (target : TargetPortfolio) (symbol : Symbol) : 0 ≤ target.weightOf symbol := by
  unfold TargetPortfolio.weightOf
  rcases hw : target.weights.get? symbol with _ | w
  · exact le_rfl
  · exact target.weights_nonneg w (Dict.mem_values_of_get? hw)

structure SellInv (rate : ℚ) (book : Book) (state : SellState) : Prop where
  safe : state.book.Safe
  last_eq : state.book.last = book.last
  cash_eq : state.book.cash = book.cash + state.traded * (1 - rate)
  market_eq : state.book.market + state.traded = book.market
  traded_nonneg : 0 ≤ state.traded
  sales : ∀ trade ∈ state.trades, trade.side = .sell ∧ 0 < trade.shares ∧
    ∃ held, book.shares.get? trade.symbol = some held ∧ trade.shares ≤ held

variable {symbol : Symbol} {opens : Dict Symbol ℚ} {book : Book} {orders : List Order}

theorem soldShares_bounds {value held price : ℚ} (hfloor : 0 < floor) (hvalue : 0 < value)
    (hheld : 0 < held) (hprice : 0 < price) (large : floor ≤ excess target value held price symbol) :
    ∃ sold, soldShares (target.weightOf symbol) held (excess target value held price symbol) price =
      .ok sold ∧ 0 < sold ∧ sold ≤ held := by
  refine ⟨_, soldShares_eq_ok_iff.2 ⟨fun _ => hprice.ne', rfl⟩, ?_⟩
  split_ifs with hw
  · exact ⟨hheld, le_rfl⟩
  · have hpos : 0 < excess target value held price symbol := lt_of_lt_of_le hfloor large
    have hgoal : 0 ≤ target.weightOf symbol * value := mul_nonneg (weightOf_nonneg target symbol) hvalue.le
    refine ⟨div_pos hpos hprice, ?_⟩
    rw [div_le_iff₀ hprice]
    unfold excess
    linarith

theorem SellInv.sell (hrate1 : rules.costRate < 1) {session : Date} {state : SellState}
    (hinv : SellInv rules.costRate book state) {symbol : Symbol} {held price sold : ℚ}
    (hbook : book.shares.get? symbol = some held)
    (hheld : state.book.shares.get? symbol = some held)
    (hlast : state.book.last.get? symbol = some price) (hpos : 0 < sold) (hle : sold ≤ held) :
    SellInv rules.costRate book
      (state.sell target session rules.costRate value symbol held price price sold) := by
  have hprice : 0 < price := hinv.safe.last_pos symbol price hlast
  have hnotional : 0 < sold * price := mul_pos hpos hprice
  have hproceeds : 0 < sold * price - sold * price * rules.costRate := by nlinarith
  have hheldOf : state.book.held symbol = held := held_of_get? hheld
  have hlastOf : state.book.lastOf symbol = price := lastOf_of_get? hlast
  have hcash : 0 < state.book.cash + (sold * price - sold * price * rules.costRate) := by
    linarith [hinv.safe.cash_nonneg]
  refine ⟨⟨⟨hcash.le, ?_, hinv.safe.last_pos, ?_⟩, .inl hcash⟩, hinv.last_eq, ?_, ?_, ?_, ?_⟩
  · intro s q hq
    change (if held - sold = 0 then state.book.shares.erase symbol
      else state.book.shares.set symbol (held - sold)).get? s = some q at hq
    split_ifs at hq with hz
    · rw [Dict.get?_erase] at hq
      split_ifs at hq
      exact hinv.safe.held_pos s q hq
    · rw [Dict.get?_set] at hq
      split_ifs at hq
      · cases hq
        exact lt_of_le_of_ne (by linarith) (Ne.symm hz)
      · exact hinv.safe.held_pos s q hq
  · intro s q hq
    change (if held - sold = 0 then state.book.shares.erase symbol
      else state.book.shares.set symbol (held - sold)).get? s = some q at hq
    change ∃ p, state.book.last.get? s = some p
    by_cases hs : symbol = s
    · exact ⟨price, hs ▸ hlast⟩
    · refine hinv.safe.priced s q ?_
      split_ifs at hq
      · rwa [Dict.get?_erase_of_ne _ hs] at hq
      · rwa [Dict.get?_set_of_ne _ _ hs] at hq
  · change state.book.cash + (sold * price - sold * price * rules.costRate) =
      book.cash + (state.traded + sold * price) * (1 - rules.costRate)
    rw [hinv.cash_eq]
    ring
  · have hmarket : (state.sell target session rules.costRate value symbol held price price sold).book.market =
        state.book.market - sold * price := by
      change Book.market ⟨_, if held - sold = 0 then state.book.shares.erase symbol
        else state.book.shares.set symbol (held - sold), state.book.last⟩ = _
      split_ifs with hz
      · have := market_erase_shares state.book symbol
        rw [hheldOf, hlastOf] at this
        rw [show sold = held by linarith]
        exact this
      · have := market_set_shares state.book symbol (held - sold)
        rw [hheldOf, hlastOf] at this
        refine Eq.trans this ?_
        ring
    rw [hmarket]
    change state.book.market - sold * price + (state.traded + sold * price) = book.market
    linarith [hinv.market_eq]
  · change 0 ≤ state.traded + sold * price
    linarith [hinv.traded_nonneg]
  · intro trade htrade
    rcases List.mem_append.1 htrade with h | h
    · exact hinv.sales trade h
    · obtain rfl := List.mem_singleton.1 h
      exact ⟨rfl, hpos, held, hbook, hle⟩

theorem get?_sell_of_ne (target : TargetPortfolio) (session : Date) (rate value held last price sold : ℚ)
    (state : SellState) {s : Symbol} (h : symbol ≠ s) :
    (state.sell target session rate value symbol held last price sold).book.shares.get? s = state.book.shares.get? s := by
  change (if held - sold = 0 then state.book.shares.erase symbol
    else state.book.shares.set symbol (held - sold)).get? s = _
  split_ifs
  · exact Dict.get?_erase_of_ne _ h
  · exact Dict.get?_set_of_ne _ _ h

theorem sellStep_safe (hfloor : 0 < floor) (hrate1 : rules.costRate < 1) (target : TargetPortfolio) (session : Date)
    (hbook : book.Safe) (hopens : ∀ symbol p, opens.get? symbol = some p → book.last.get? symbol = some p)
    {state : SellState} (hinv : SellInv rules.costRate book state) {held : ℚ}
    (hstart : book.shares.get? symbol = some held) (hheld : state.book.shares.get? symbol = some held) :
    ∃ state', sellStep floor target session opens rules book.value state symbol = .ok state' ∧
      SellInv rules.costRate book state' ∧
      ∀ s, symbol ≠ s → state'.book.shares.get? s = state.book.shares.get? s := by
  obtain ⟨last, hlast⟩ := hinv.safe.priced symbol held hheld
  by_cases hsmall : excess target book.value held last symbol < floor
  · exact ⟨state, sellStep_eq_ok_iff.2 (.kept hheld hlast hsmall), hinv, fun _ _ => rfl⟩
  · have hlarge := not_lt.1 hsmall
    rcases hopen : opens.get? symbol with _ | price
    · refine ⟨_, sellStep_eq_ok_iff.2 (.unfilled hheld hlast hlarge hopen), ?_, fun _ _ => rfl⟩
      exact ⟨hinv.safe, hinv.last_eq, hinv.cash_eq, hinv.market_eq, hinv.traded_nonneg, hinv.sales⟩
    · -- the open is the last price, so the sale is at the price it was measured at
      obtain rfl : last = price := by
        have := hopens symbol price hopen
        rw [← hinv.last_eq, hlast] at this
        exact Option.some.inj this
      obtain ⟨sold, hsold, hpos, hle⟩ := soldShares_bounds hfloor hbook.value_pos
        (hbook.held_pos symbol held hstart) (hinv.safe.last_pos symbol last hlast) hlarge
      refine ⟨_, sellStep_eq_ok_iff.2
        (.sold hheld hlast hlarge hopen hsold hbook.value_pos.ne'), ?_, ?_⟩
      · exact hinv.sell hrate1 hstart hheld hlast hpos hle
      · exact fun s hs => get?_sell_of_ne _ _ _ _ _ _ _ _ _ hs

theorem not_mem_of_nodup {α : Type} {l pre post : List α} {a : α} (hl : l = pre ++ a :: post) (h : l.Nodup) : a ∉ pre := by
  rw [hl] at h
  exact fun ha => (List.nodup_append.1 h).2.2 a ha a List.mem_cons_self rfl

theorem sellLoop_safe (hfloor : 0 < floor) (hrate1 : rules.costRate < 1) (target : TargetPortfolio) (session : Date)
    (hbook : book.Safe) (hopens : ∀ symbol p, opens.get? symbol = some p → book.last.get? symbol = some p) :
    ∃ sold, sellLoop floor target session opens rules book.value book = .ok sold ∧ SellInv rules.costRate book sold := by
  have hnodup : (sortedBy id book.shares.keys).Nodup := (perm_sortedBy id _).nodup_iff.2 book.shares.nodup
  -- the symbols still to come are held as at the start
  let I : List Symbol → SellState → Prop := fun pre state => SellInv rules.costRate book state ∧
    ∀ s, s ∉ pre → state.book.shares.get? s = book.shares.get? s
  have hstart : I [] ⟨book, [], [], 0⟩ :=
    ⟨⟨hbook, rfl, by simp, by simp, le_rfl, by simp⟩, fun _ _ => rfl⟩
  have hstep : ∀ pre symbol post state, sortedBy id book.shares.keys = pre ++ symbol :: post →
      I pre state → ∃ state', sellStep floor target session opens rules book.value state symbol =
        .ok state' ∧ I (pre ++ [symbol]) state' := by
    rintro pre symbol post state hl ⟨hinv, hrest⟩
    have hmem : symbol ∈ book.shares.keys := (mem_sortedBy id).1 (by rw [hl]; simp)
    obtain ⟨held, hheld⟩ := (Dict.mem_keys_iff _ _).1 hmem
    have hheld' : state.book.shares.get? symbol = some held := by
      rw [hrest symbol (not_mem_of_nodup hl hnodup), hheld]
    obtain ⟨state', hok, hinv', hframe⟩ := sellStep_safe hfloor hrate1 target session hbook hopens hinv hheld hheld'
    refine ⟨state', hok, hinv', fun s hs => ?_⟩
    rw [List.mem_append, List.mem_singleton, not_or] at hs
    rw [hframe s (Ne.symm hs.2), hrest s hs.1]
  obtain ⟨sold, hsold, hinv, -⟩ := foldlM_total I _ hstart hstep
  exact ⟨sold, hsold, hinv⟩

/-! ## Buys -/

theorem need_pos (hrate0 : 0 ≤ rules.costRate) (hne : orders ≠ []) (horders : ∀ order ∈ orders, 0 < order.amount) :
    0 < need rules.costRate orders := by
  apply List.sum_pos
  · intro x hx
    obtain ⟨order, horder, rfl⟩ := List.mem_map.1 hx
    have := horders order horder
    positivity
  · simpa using hne

theorem spendScale_nonneg {cash rate : ℚ} (hcash : 0 ≤ cash) (hneed : 0 < need rate orders) :
    0 ≤ spendScale cash rate orders := by
  unfold spendScale
  split_ifs
  · exact zero_le_one
  · exact div_nonneg hcash hneed.le

theorem cashAfter_nonneg {cash rate : ℚ} (hneed : 0 < need rate orders) : 0 ≤ cashAfter cash rate orders := by
  unfold cashAfter spendScale
  split_ifs with h
  · rw [one_mul]
    exact (sub_pos.2 h).le
  · rw [div_mul_cancel₀ cash hneed.ne', sub_self]

/-- What the fill loop of `spend` keeps, from the book at the start of `spend`. -/
structure SpendInv (book : Book) (cash filled : ℚ) (state : Book × List Trade) : Prop where
  last_eq : state.1.last = book.last
  cash_eq : state.1.cash + (state.2.map fun t => t.notional + t.fee).sum = cash + filled
  cash_ge : cash ≤ state.1.cash
  held_pos : ∀ symbol held, state.1.shares.get? symbol = some held → 0 < held
  priced : state.1.Priced
  buys : ∀ trade ∈ state.2, trade.side = .buy ∧ 0 ≤ trade.notional ∧ 0 ≤ trade.fee
  shares : state.1.shares = book.shares ∧ state.2 = [] ∨ state.1.shares.keys ≠ []

theorem SpendInv.leg (hfloor : 0 < floor) {cutoffAt : Instant} {session : Date}
    (hvalue : 0 < value) {cash filled : ℚ} {state : Book × List Trade}
    (hinv : SpendInv book cash filled state) (hbook : book.Sound) (leg : Leg)
    (hprice : book.last.get? leg.order.symbol = some leg.order.price) (hnotional : 0 ≤ leg.notional)
    (hfee : 0 ≤ leg.fee) :
    ∃ state', buyLeg floor cutoffAt session value state leg = .ok state' ∧ SpendInv book cash (filled + leg.total) state' := by
  obtain ⟨b, trades⟩ := state
  by_cases hsmall : leg.notional < floor
  · refine ⟨_, buyLeg_eq_ok_iff.2 (.dropped hsmall), ?_⟩
    have htotal : 0 ≤ leg.total := add_nonneg hnotional hfee
    refine ⟨hinv.last_eq, ?_, ?_, hinv.held_pos, hinv.priced, hinv.buys, hinv.shares⟩
    · change b.cash + leg.total + _ = _
      linarith [hinv.cash_eq]
    · change cash ≤ b.cash + leg.total
      linarith [hinv.cash_ge]
  · have hlarge := not_lt.1 hsmall
    have hpos : 0 < leg.order.price := hbook.last_pos _ _ hprice
    have hbought : 0 < leg.notional / leg.order.price := div_pos (lt_of_lt_of_le hfloor hlarge) hpos
    refine ⟨_, buyLeg_eq_ok_iff.2 (.filled hlarge hpos.ne' hvalue.ne'), ?_⟩
    refine ⟨hinv.last_eq, ?_, hinv.cash_ge, ?_, ?_, ?_, .inr (keys_set_ne_nil _ _ _)⟩
    · change b.cash + ((trades ++ [buyTrade cutoffAt session value b leg]).map _).sum = _
      rw [List.map_append, List.sum_append, List.map_singleton, List.sum_singleton]
      change b.cash + (_ + leg.total) = _
      linarith [hinv.cash_eq]
    · intro s q hq
      change (b.shares.set _ _).get? s = some q at hq
      rw [Dict.get?_set] at hq
      split_ifs at hq
      · cases hq
        have : 0 ≤ b.held leg.order.symbol := by
          unfold Book.held
          rcases hh : b.shares.get? leg.order.symbol with _ | held
          · exact le_rfl
          · exact (hinv.held_pos _ held hh).le
        linarith
      · exact hinv.held_pos s q hq
    · intro s q hq
      change (b.shares.set _ _).get? s = some q at hq
      change ∃ p, b.last.get? s = some p
      by_cases hs : leg.order.symbol = s
      · exact ⟨leg.order.price, by rw [hinv.last_eq, ← hs, hprice]⟩
      · exact hinv.priced s q (by rwa [Dict.get?_set_of_ne _ _ hs] at hq)
    · intro trade htrade
      rcases List.mem_append.1 htrade with h | h
      · exact hinv.buys trade h
      · obtain rfl := List.mem_singleton.1 h
        exact ⟨rfl, hnotional, hfee⟩

theorem spend_safe (hfloor : 0 < floor) (hrate0 : 0 ≤ rules.costRate) (cutoffAt : Instant) (session : Date) (hvalue : 0 < value) (hbook : book.Safe)
    (horders : ∀ order ∈ orders, 0 < order.amount ∧ book.last.get? order.symbol = some order.price) :
    ∃ book' trades, spend floor book orders rules cutoffAt session value = .ok (book', trades) ∧
      book'.Safe ∧ book'.last = book.last ∧ (∀ trade ∈ trades, trade.side = .buy) ∧
      0 ≤ (trades.map Trade.notional).sum ∧ (trades.map Trade.notional).sum ≤ book.cash := by
  by_cases hne : orders = []
  · subst hne
    exact ⟨book, [], spend_nil _ _ _ _ _ _, hbook, rfl, by simp, by simp, by simpa using hbook.cash_nonneg⟩
  have hneed : 0 < need rules.costRate orders := need_pos hrate0 hne fun o ho => (horders o ho).1
  have hscale : 0 ≤ spendScale book.cash rules.costRate orders := spendScale_nonneg hbook.cash_nonneg hneed
  -- the fill loop, with the legs filled so far
  let I : List Leg → Book × List Trade → Prop := fun pre state =>
    SpendInv book (cashAfter book.cash rules.costRate orders) (pre.map Leg.total).sum state
  have hstart : I [] ({ book with cash := cashAfter book.cash rules.costRate orders }, []) :=
    ⟨rfl, by simp, le_rfl, hbook.held_pos, hbook.priced, by simp, .inl ⟨rfl, rfl⟩⟩
  have hstep : ∀ pre leg post state, spentLegs book.cash rules.costRate orders = pre ++ leg :: post →
      I pre state → ∃ state', buyLeg floor cutoffAt session value state leg = .ok state' ∧ I (pre ++ [leg]) state' := by
    intro pre leg post state hl hinv
    have hmem : leg ∈ spentLegs book.cash rules.costRate orders := by rw [hl]; simp
    obtain ⟨order, horder, rfl⟩ := List.mem_map.1 hmem
    obtain ⟨hamount, hprice⟩ := horders order horder
    have hnotional : 0 ≤ order.amount * spendScale book.cash rules.costRate orders := mul_nonneg hamount.le hscale
    obtain ⟨state', hok, hinv'⟩ := hinv.leg hfloor hvalue hbook.toSound ⟨order, _, _⟩
      hprice hnotional (mul_nonneg hnotional hrate0)
    refine ⟨state', hok, ?_⟩
    simpa [I, List.map_append, List.sum_append] using hinv'
  obtain ⟨⟨book', trades⟩, hok, hinv⟩ := foldlM_total I _ hstart hstep
  have hcash : book'.cash + (trades.map fun t => t.notional + t.fee).sum = book.cash := by
    rw [hinv.cash_eq, spentLegs, sum_total_legsAt]
    unfold cashAfter
    ring
  have hnonneg : 0 ≤ book'.cash := le_trans (cashAfter_nonneg hneed) hinv.cash_ge
  have hsum : (trades.map Trade.notional).sum ≤ (trades.map fun t => t.notional + t.fee).sum :=
    List.sum_le_sum fun t ht => by linarith [(hinv.buys t ht).2.2]
  refine ⟨book', trades, (spend_eq_ok_iff hne).2 ⟨fun _ => ⟨hneed.ne', by linarith, ?_⟩, hok⟩,
    ⟨⟨hnonneg, hinv.held_pos, ?_, hinv.priced⟩, ?_⟩, hinv.last_eq, fun t ht => (hinv.buys t ht).1,
    ?_, by linarith⟩
  · have hamount := (horders _ (List.getLast_mem hne)).1
    have := hbook.cash_nonneg
    positivity
  · rw [hinv.last_eq]
    exact hbook.last_pos
  · rcases hinv.shares with ⟨hshares, htrades⟩ | hshares
    · -- nothing was filled, so the cash is back
      change book'.shares = book.shares at hshares
      change trades = [] at htrades
      rw [htrades, List.map_nil, List.sum_nil, add_zero] at hcash
      rw [hcash, hshares]
      exact hbook.solvent
    · exact .inr hshares
  · refine List.sum_nonneg fun x hx => ?_
    obtain ⟨t, ht, rfl⟩ := List.mem_map.1 hx
    exact (hinv.buys t ht).2.1

def Fill.Bounded (fill : Fill) : Prop := 0 ≤ fill.turnover ∧ fill.turnover ≤ 1

def SalesWithin (shares : Dict Symbol ℚ) (trades : List Trade) : Prop := ∀ trade ∈ trades, trade.side = .sell →
    0 < trade.shares ∧ ∃ held, shares.get? trade.symbol = some held ∧ trade.shares ≤ held

def PendingPos (pending : Dict Symbol Pending) : Prop := ∀ symbol order, pending.get? symbol = some order → 0 < order.amount

theorem rebalance_safe (hfloor : 0 < floor) (hrate0 : 0 ≤ rules.costRate) (hrate1 : rules.costRate < 1)
    (target : TargetPortfolio) (session : Date) (hopens : ∀ symbol p, opens.get? symbol = some p → 0 < p)
    (hbook : book.Safe) :
    ∃ made fill, rebalance floor book target session opens rules = .ok (made, fill) ∧
      made.book.Safe ∧ PendingPos made.pending ∧ SalesWithin book.shares made.trades ∧
      fill.Bounded := by
  have hmark : (book.mark opens).Safe := hbook.mark hopens
  have hlast : ∀ symbol p, opens.get? symbol = some p → (book.mark opens).last.get? symbol = some p :=
    fun symbol p h => Dict.get?_update_of_some h
  obtain ⟨sold, hsold, hinv⟩ := sellLoop_safe hfloor hrate1 target session hmark hlast
  have horders := orderLoop_inv floor target session opens rules (book.mark opens).value sold
  have hbuyable : ∀ order ∈
      (orderLoop floor target session opens rules (book.mark opens).value sold).orders,
      0 < order.amount ∧ sold.book.last.get? order.symbol = some order.price := by
    intro order horder
    obtain ⟨hopen, hlarge⟩ := horders.orders order horder
    exact ⟨lt_of_lt_of_le hfloor hlarge, by rw [hinv.last_eq]; exact hlast _ _ hopen⟩
  obtain ⟨book', trades, hspend, hsafe, -, hbuys, hnonneg, hle⟩ := spend_safe hfloor hrate0
    target.cutoffAt session hmark.value_pos hinv.safe hbuyable
  refine ⟨⟨book', _, _⟩, _, rebalance_eq_ok_iff.2
    ⟨hmark.priced, hmark.value_pos, sold, trades, hsold, hspend, rfl, rfl, rfl⟩, hsafe, ?_, ?_, ?_, ?_⟩
  · intro symbol order horder
    exact lt_of_lt_of_le hfloor (horders.pending symbol order horder).2.2
  · intro trade htrade hside
    rcases List.mem_append.1 htrade with h | h
    · exact (hinv.sales trade h).2
    · rw [hbuys trade h] at hside
      cases hside
  · have := hmark.value_pos
    exact div_nonneg (add_nonneg hinv.traded_nonneg hnonneg) (by positivity)
  · -- sales are at most the market value, buys at most the cash after the sales
    have hvalue := hmark.value_pos
    rw [div_le_one (by positivity)]
    have hmarket := hinv.safe.market_nonneg
    have hfees : 0 ≤ sold.traded * rules.costRate := mul_nonneg hinv.traded_nonneg hrate0
    have hcash := hinv.cash_eq
    have hmarket_eq := hinv.market_eq
    have hcash0 := hmark.cash_nonneg
    unfold Book.value
    linarith

/-- What the loop of `fillPending` keeps. -/
structure PendingInv (book : Book) (state : PendingState) : Prop where
  safe : state.book.Safe
  last_eq : state.book.last = book.last
  pending_pos : PendingPos state.pending
  buys : ∀ trade ∈ state.trades, trade.side = .buy

theorem pendingStep_safe (hfloor : 0 < floor) (hrate0 : 0 ≤ rules.costRate) (session : Date)
    (hopens : ∀ symbol p, opens.get? symbol = some p → book.last.get? symbol = some p) {state : PendingState}
    (hinv : PendingInv book state) {order : Pending} (horder : state.pending.get? symbol = some order) :
    ∃ state', pendingStep floor session opens rules state symbol = .ok state' ∧ PendingInv book state' ∧
      ∀ s, symbol ≠ s → state'.pending.get? s = state.pending.get? s := by
  rcases hopen : opens.get? symbol with _ | price
  · exact ⟨state, pendingStep_eq_ok_iff.2 (.waiting hopen), hinv, fun _ _ => rfl⟩
  · have hbuyable : ∀ o ∈ [Order.mk symbol price order.amount], 0 < o.amount ∧ state.book.last.get? o.symbol = some o.price := by
      intro o ho
      obtain rfl := List.mem_singleton.1 ho
      exact ⟨hinv.pending_pos symbol order horder, by rw [hinv.last_eq]; exact hopens _ _ hopen⟩
    obtain ⟨book', trades, hspend, hsafe, hlast, hbuys, -, -⟩ := spend_safe hfloor hrate0
      order.cutoffAt session hinv.safe.value_pos hinv.safe hbuyable
    refine ⟨_, pendingStep_eq_ok_iff.2 (.filled hopen horder hinv.safe.priced hspend),
      ⟨hsafe, hlast.trans hinv.last_eq, ?_, ?_⟩, fun s hs => Dict.get?_erase_of_ne _ hs⟩
    · intro s p hp
      change (state.pending.erase symbol).get? s = some p at hp
      rw [Dict.get?_erase] at hp
      split_ifs at hp
      exact hinv.pending_pos s p hp
    · intro trade htrade
      rcases List.mem_append.1 htrade with h | h
      · exact hinv.buys trade h
      · exact hbuys trade h

theorem fillPending_safe (hfloor : 0 < floor) (hrate0 : 0 ≤ rules.costRate) (session : Date) (hbook : book.Safe)
    (hopens : ∀ symbol p, opens.get? symbol = some p → book.last.get? symbol = some p) {pending : Dict Symbol Pending}
    (hpending : PendingPos pending) :
    ∃ late, fillPending floor book pending session opens rules = .ok late ∧ PendingInv book late := by
  have hnodup : (sortedBy id pending.keys).Nodup := (perm_sortedBy id _).nodup_iff.2 pending.nodup
  let I : List Symbol → PendingState → Prop := fun pre state => PendingInv book state ∧
    ∀ s, s ∉ pre → state.pending.get? s = pending.get? s
  have hstart : I [] ⟨book, pending, [], []⟩ :=
    ⟨⟨hbook, rfl, hpending, by simp⟩, fun _ _ => rfl⟩
  have hstep : ∀ pre symbol post state, sortedBy id pending.keys = pre ++ symbol :: post →
      I pre state → ∃ state', pendingStep floor session opens rules state symbol = .ok state' ∧ I (pre ++ [symbol]) state' := by
    rintro pre symbol post state hl ⟨hinv, hrest⟩
    have hmem : symbol ∈ pending.keys := (mem_sortedBy id).1 (by rw [hl]; simp)
    obtain ⟨order, horder⟩ := (Dict.mem_keys_iff _ _).1 hmem
    obtain ⟨state', hok, hinv', hframe⟩ := pendingStep_safe hfloor hrate0 session
      hopens hinv (by rw [hrest symbol (not_mem_of_nodup hl hnodup)]; exact horder)
    refine ⟨state', hok, hinv', fun s hs => ?_⟩
    rw [List.mem_append, List.mem_singleton, not_or] at hs
    rw [hframe s (Ne.symm hs.2), hrest s hs.1]
  obtain ⟨late, hlate, hinv, -⟩ := foldlM_total I _ hstart hstep
  exact ⟨late, hlate, hinv⟩

end Trades

/-! ## The session loop -/

def Valuation.Bounded (v : Valuation) : Prop := (0 ≤ v.drawdown ∧ v.drawdown < 1) ∧ (0 ≤ v.grossExposure ∧ v.grossExposure ≤ 1) ∧
    (0 ≤ v.cashWeight ∧ v.cashWeight ≤ 1) ∧ v.grossExposure + v.cashWeight = 1

theorem valuationOf_bounded (h : book.Safe) (capital peak : ℚ) (session : Date) :
    (valuationOf capital peak session book).Bounded := by
  have hvalue := h.value_pos
  have hpeak : 0 < max peak book.value := lt_max_of_lt_right hvalue
  have hle : book.value ≤ max peak book.value := le_max_right _ _
  have hmarket := h.market_nonneg
  have hcash := h.cash_nonneg
  refine ⟨⟨div_nonneg (by linarith) hpeak.le, ?_⟩, ⟨div_nonneg hmarket hvalue.le, ?_⟩,
    ⟨div_nonneg hcash hvalue.le, ?_⟩, ?_⟩
  · exact (div_lt_one hpeak).2 (by linarith)
  · exact (div_le_one hvalue).2 (by unfold Book.value; linarith)
  · exact (div_le_one hvalue).2 (by unfold Book.value; linarith)
  · change book.market / book.value + book.cash / book.value = 1
    rw [← add_div, add_comm]
    exact div_self hvalue.ne'

structure RunInv (state : RunState) : Prop where
  safe : state.book.Safe
  pending_pos : PendingPos state.pending
  valuations : ∀ v ∈ state.valuations, v.Bounded
  fills : ∀ fill ∈ state.fills, fill.Bounded

theorem price_pos {value : Option ℚ} {p : ℚ} (h : price value = some p) : 0 < p := by
  unfold price at h
  rw [Option.filter_eq_some_iff] at h
  simpa using h.2

theorem opensOn_pos (book : PriceBook) (session : Date) (symbol : Symbol) (p : ℚ)
    (h : (book.opensOn session).get? symbol = some p) : 0 < p := by
  rw [PriceBook.opensOn, Dict.get?_filterMapVal] at h
  simp only [Option.bind_eq_some_iff] at h
  obtain ⟨_, -, _, -, h⟩ := h
  exact price_pos h

theorem closesOn_pos (book : PriceBook) (session : Date) (symbol : Symbol) (p : ℚ)
    (h : (book.closesOn session).get? symbol = some p) : 0 < p := by
  rw [PriceBook.closesOn, Dict.get?_filterMapVal] at h
  simp only [Option.bind_eq_some_iff] at h
  obtain ⟨_, -, _, -, h⟩ := h
  exact price_pos h

variable {state : RunState}

theorem splits_safe {book : PriceBook} (hsplits : ∀ event ∈ book.splits, 0 < event.numerator ∧ 0 < event.denominator)
    (h : RunInv state) (session : Date) :
    ∃ split, (book.splitsOn session).foldlM splitStep state = .ok split ∧ RunInv split ∧ split.trades = state.trades := by
  let I : List SplitEvent → RunState → Prop := fun _ split => RunInv split ∧ split.trades = state.trades
  have hstep : ∀ pre event post split, book.splitsOn session = pre ++ event :: post → I pre split →
      ∃ split', splitStep split event = .ok split' ∧ I (pre ++ [event]) split' := by
    rintro pre event post split hl ⟨hinv, htrades⟩
    have hmem : event ∈ book.splitsOn session := by rw [hl]; simp
    obtain ⟨hn, hd⟩ := hsplits event (mem_splitsOn.1 hmem).1
    obtain ⟨book', record, hok, hsafe⟩ := applySplit_safe hinv.safe hn hd
    exact ⟨_, splitStep_eq_ok_iff.2 ⟨book', record, hok, rfl⟩, ⟨hsafe, hinv.pending_pos, hinv.valuations, hinv.fills⟩, htrades⟩
  obtain ⟨split, hok, hinv, htrades⟩ := foldlM_total I _ ⟨h, rfl⟩ hstep
  exact ⟨split, hok, hinv, htrades⟩

variable {rules : ExecutionRules} {floor : ℚ}

theorem tradeSession_safe (hfloor : 0 < floor) (hrate0 : 0 ≤ rules.costRate) (hrate1 : rules.costRate < 1) {opens : Dict Symbol ℚ}
    (hopens : ∀ symbol p, opens.get? symbol = some p → 0 < p) (h : RunInv state)
    (session : Date) (due : Option TargetPortfolio) :
    ∃ traded, TradeSession floor opens rules state session due traded ∧ RunInv traded ∧
      ∃ made, traded.trades = state.trades ++ made ∧ SalesWithin state.book.shares made := by
  cases due with
  | some target =>
    obtain ⟨made, fill, hok, hsafe, hpending, hsales, hfill⟩ := rebalance_safe hfloor hrate0 hrate1 target session hopens h.safe
    refine ⟨_, .rebalanced hok, ⟨hsafe, hpending, h.valuations, ?_⟩, made.trades, rfl, hsales⟩
    intro f hf
    rcases List.mem_append.1 hf with hf | hf
    · exact h.fills f hf
    · obtain rfl := List.mem_singleton.1 hf
      exact hfill
  | none =>
    obtain ⟨late, hok, hinv⟩ := fillPending_safe hfloor hrate0 session (h.safe.mark hopens)
      (fun symbol p hp => Dict.get?_update_of_some hp) h.pending_pos
    refine ⟨_, .filledPending hok, ⟨hinv.safe, hinv.pending_pos, h.valuations, h.fills⟩, late.trades, rfl, ?_⟩
    intro trade htrade hside
    rw [hinv.buys trade htrade] at hside
    cases hside

def SessionSafe (floor : ℚ) (book : PriceBook) (due : Dict Date TargetPortfolio)
    (rules : ExecutionRules) (state : RunState) (session : Date) : Prop :=
  ∃ split traded, (book.splitsOn session).foldlM splitStep state = .ok split ∧
    TradeSession floor (book.opensOn session) rules split session (due.get? session) traded ∧
    split.book.Safe ∧ traded.book.Safe ∧ (traded.close (book.closesOn session)).book.Safe ∧
    ∃ made, traded.trades = state.trades ++ made ∧ SalesWithin split.book.shares made

variable {capital : ℚ} {targets : List TargetPortfolio}

theorem sessionStep_safe {book : PriceBook} (hfloor : 0 < floor)
    (hsplits : ∀ event ∈ book.splits, 0 < event.numerator ∧ 0 < event.denominator) (hrate0 : 0 ≤ rules.costRate)
    (hrate1 : rules.costRate < 1) (hcapital : 0 < capital) (due : Dict Date TargetPortfolio) (first : Date) (h : RunInv state) (session : Date) :
    SessionSafe floor book due rules state session ∧
      ∃ state', sessionStep floor book due rules capital first state session = .ok state' ∧ RunInv state' := by
  obtain ⟨split, hsplit, hinv, htrades⟩ := splits_safe hsplits h session
  obtain ⟨traded, htrade, hinv', made, hmade, hsales⟩ := tradeSession_safe hfloor hrate0 hrate1
    (opensOn_pos book session) hinv session (due.get? session)
  have hclose : (traded.close (book.closesOn session)).book.Safe := hinv'.safe.mark (closesOn_pos book session)
  refine ⟨⟨split, traded, hsplit, htrade, hinv.safe, hinv'.safe, hclose, made, ?_, hsales⟩, ?_⟩
  · rw [hmade, htrades]
  by_cases hfirst : session < first
  · refine ⟨_, sessionStep_eq_ok_iff.2 ⟨split, traded, hsplit, htrade, valueSession_eq_ok_iff.2 (.inl ⟨hfirst, rfl⟩)⟩, ?_⟩
    exact ⟨hclose, hinv'.pending_pos, hinv'.valuations, hinv'.fills⟩
  · have hvalue := hclose.value_pos
    refine ⟨_, sessionStep_eq_ok_iff.2 ⟨split, traded, hsplit, htrade,
      valueSession_eq_ok_iff.2 (.inr ⟨not_lt.1 hfirst, hclose.priced, hcapital.ne',
        (lt_max_of_lt_right hvalue).ne', hvalue.ne', rfl⟩)⟩, ?_⟩
    refine ⟨hclose, hinv'.pending_pos, ?_, hinv'.fills⟩
    intro v hv
    rcases List.mem_append.1 hv with hv | hv
    · exact hinv'.valuations v hv
    · obtain rfl := List.mem_singleton.1 hv
      exact valuationOf_bounded hclose _ _ _

theorem runInv_initial (hcapital : 0 < capital) : RunInv (RunState.initial capital) where
  safe := {
    cash_nonneg := hcapital.le
    held_pos := by intro _ _ h; cases h
    last_pos := by intro _ _ h; cases h
    priced := by intro _ _ h; cases h
    solvent := .inl hcapital }
  pending_pos := by intro _ _ h; cases h
  valuations := by intro _ h; cases h
  fills := by intro _ h; cases h

theorem runSessions_safe {book : PriceBook} (hfloor : 0 < floor)
    (hsplits : ∀ event ∈ book.splits, 0 < event.numerator ∧ 0 < event.denominator) (hrate0 : 0 ≤ rules.costRate)
    (hrate1 : rules.costRate < 1) (hcapital : 0 < capital) (due : Dict Date TargetPortfolio) (first : Date)
    (sessions : List Date) :
    ∃ state, runSessions floor book due rules capital first sessions = .ok state ∧ RunInv state := by
  let I : List Date → RunState → Prop := fun _ state => RunInv state
  have hstep : ∀ pre session post state, sessions = pre ++ session :: post → I pre state →
      ∃ state', sessionStep floor book due rules capital first state session = .ok state' ∧ I (pre ++ [session]) state' := by
    intro pre session post state _ hinv
    exact (sessionStep_safe hfloor hsplits hrate0 hrate1 hcapital due first hinv session).2
  exact foldlM_total I _ (runInv_initial hcapital) hstep

theorem scheduleTargets_error {sessions : List Date} (hlag : 1 ≤ rules.lagSessions)
    {e : SimulationError} (h : scheduleTargets sessions targets rules = .error e) :
    ∃ session, e = .twoCutoffsFill session := by
  refine foldlM_error (P := fun e => ∃ session, e = .twoCutoffsFill session) h ?_
  intro schedule target e _ herror
  unfold scheduleStep fillSession at herror
  rw [if_neg (not_lt.2 hlag), ok_bind] at herror
  dsimp only at herror
  split at herror
  · cases herror
  · rename_i session _
    split_ifs at herror
    · cases herror
      exact ⟨session, rfl⟩
    · cases herror

theorem unscheduled_bounded {sessions : List Date} {schedule : Schedule}
    (h : scheduleTargets sessions targets rules = .ok schedule) :
    ∀ fill ∈ schedule.unscheduled, fill.Bounded := by
  intro fill hfill
  have hzero := (unscheduled_session h fill hfill).2
  exact ⟨hzero.ge, hzero.le.trans zero_le_one⟩

def Book.Healthy (book : Book) : Prop := 0 ≤ book.cash ∧ (∀ symbol held, book.shares.get? symbol = some held →
      0 < held ∧ ∃ p, book.last.get? symbol = some p ∧ 0 < p) ∧
    ∃ market, book.marketValue = .ok market ∧ 0 < book.cash + market

theorem Book.Safe.healthy (h : book.Safe) : book.Healthy := by
  refine ⟨h.cash_nonneg, fun symbol held hheld => ⟨h.held_pos symbol held hheld, ?_⟩,
    book.market, marketValue_eq_ok_iff.2 ⟨h.priced, rfl⟩, h.value_pos⟩
  obtain ⟨p, hp⟩ := h.priced symbol held hheld
  exact ⟨p, hp, h.last_pos symbol p hp⟩

def SessionHealthy (floor : ℚ) (book : PriceBook) (due : Dict Date TargetPortfolio)
    (rules : ExecutionRules) (state : RunState) (session : Date) : Prop :=
  ∃ split traded, (book.splitsOn session).foldlM splitStep state = .ok split ∧
    tradeSession floor (book.opensOn session) (due.get? session) rules split session = .ok traded ∧
    split.book.Healthy ∧ traded.book.Healthy ∧ (traded.book.mark (book.closesOn session)).Healthy ∧
    ∃ made, traded.trades = state.trades ++ made ∧ SalesWithin split.book.shares made

/-- `simulate` fails on two cutoffs of one session only; its valuations and fills are in range and every session is healthy. -/
theorem simulate_safe (book : PriceBook) (targets : List TargetPortfolio) (rules : ExecutionRules)
    (capital : ℚ) (hsplits : ∀ event ∈ book.splits, 0 < event.numerator ∧ 0 < event.denominator)
    (hlag : 1 ≤ rules.lagSessions) (hrate0 : 0 ≤ rules.costRate) (hrate1 : rules.costRate < 1)
    (hcapital : 0 < capital) :
    (∀ e, simulate book targets rules capital = .error e → ∃ session, e = .twoCutoffsFill session) ∧
      (∀ result, simulate book targets rules capital = .ok result →
        (∀ v ∈ result.valuations, v.Bounded) ∧ ∀ fill ∈ result.fills, fill.Bounded) ∧
      ∀ schedule first, scheduleTargets book.sessions targets rules = .ok schedule →
        schedule.first = some first → ∀ pre session post, book.sessions = pre ++ session :: post →
        ∃ state, runSessions minOrderNotional book schedule.due rules capital first pre = .ok state ∧
          SessionHealthy minOrderNotional book schedule.due rules state session := by
  have hfloor : 0 < minOrderNotional := by decide +kernel
  have hrun : ∀ due first sessions, ∃ state,
      runSessions minOrderNotional book due rules capital first sessions = .ok state ∧ RunInv state :=
    runSessions_safe hfloor hsplits hrate0 hrate1 hcapital
  refine ⟨?_, ?_, ?_⟩
  · intro e he
    unfold simulate simulateAt at he
    rw [if_neg (not_le.2 hcapital)] at he
    rcases hs : scheduleTargets book.sessions targets rules with e' | schedule
    · rw [hs] at he
      cases he
      exact scheduleTargets_error hlag hs
    · rw [hs, ok_bind] at he
      dsimp only at he
      split at he
      · cases he
      · rename_i first _
        obtain ⟨state, hstate, -⟩ := hrun schedule.due first book.sessions
        rw [hstate] at he
        cases he
  · intro result hresult
    obtain ⟨-, schedule, hs, ⟨-, rfl⟩ | ⟨first, state, -, hstate, rfl⟩⟩ := simulateAt_eq_ok_iff.1 hresult
    · exact ⟨by simp, unscheduled_bounded hs⟩
    · obtain ⟨state', hstate', hinv⟩ := hrun schedule.due first book.sessions
      obtain rfl : state = state' := by
        rw [hstate] at hstate'
        cases hstate'
        rfl
      refine ⟨hinv.valuations, fun fill hfill => ?_⟩
      rcases List.mem_append.1 ((mem_sortedBy _).1 hfill) with hfill | hfill
      · exact unscheduled_bounded hs fill hfill
      · exact hinv.fills fill hfill
  · intro schedule first _ _ pre session post _
    obtain ⟨state, hstate, hinv⟩ := hrun schedule.due first pre
    obtain ⟨split, traded, hsplit, htrade, h₁, h₂, h₃, hsales⟩ :=
      (sessionStep_safe hfloor hsplits hrate0 hrate1 hcapital schedule.due first hinv session).1
    exact ⟨state, hstate, split, traded, hsplit, tradeSession_eq_ok_iff.2 htrade, h₁.healthy, h₂.healthy, h₃.healthy, hsales⟩

/-- The small run returns, and is in its ranges. -/
theorem simulate_safe_sample : ∃ result, simulate sampleBook [sampleTarget] sampleRules 1000 = .ok result ∧
      (∀ v ∈ result.valuations, v.Bounded) ∧ ∀ fill ∈ result.fills, fill.Bounded := by
  obtain ⟨result, h⟩ := sample_returns
  obtain ⟨-, hok, -⟩ := simulate_safe sampleBook [sampleTarget] sampleRules 1000 (by decide)
    (by decide) (by decide +kernel) (by decide +kernel) (by decide +kernel)
  exact ⟨result, h, hok result h⟩

end TrueAlpha.Backtest
