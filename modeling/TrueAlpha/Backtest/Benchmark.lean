import TrueAlpha.Backtest.LateOrders

/-!
# The symbols of the benchmark

`benchmarkNeverFilled` reports the symbols without an open at the fill, less those with a deferred fill; a symbol whose order is
dropped for want of cash is neither bought nor reported.  `Affordable` says where this cannot happen.
-/

namespace TrueAlpha.Backtest

/-- An order without an open fills at the symbol's next open. -/
def benchmarkRules (rules : ExecutionRules) : ExecutionRules := { rules with unfilledOrderBehavior := .nextSessionOpen }

/-- The symbols without an open at the first fill and without a deferred fill. -/
def benchmarkNeverFilled (benchmark : Simulation) : List Symbol :=
  match benchmark.fills with
  | [] => []
  | fill :: _ =>
    let late := benchmark.deferredFills.map DeferredFill.symbol
    sortedSet (fill.unfilledSymbols.filter fun symbol => symbol ∉ late)

section Inputs

variable (floor rate capital : ℚ) (target : TargetPortfolio)

def TargetPortfolio.ordered (symbol : Symbol) : ℚ := target.weightOf symbol * capital

variable (opens : Dict Symbol ℚ)

def filledSymbols : List Symbol := (sortedBy id target.weights.keys).filter fun symbol =>
    floor ≤ target.ordered capital symbol ∧ (opens.get? symbol).isSome

def waitingSymbols : List Symbol := (sortedBy id target.weights.keys).filter fun symbol =>
    floor ≤ target.ordered capital symbol ∧ (opens.get? symbol).isNone

def fillScale : ℚ := min 1 (capital /
    ((1 + rate) * ((filledSymbols floor capital target opens).map (target.ordered capital)).sum))

def boughtSymbols : List Symbol := (filledSymbols floor capital target opens).filter fun symbol =>
    floor ≤ fillScale floor rate capital target opens * target.ordered capital symbol

def cashAtFill : ℚ := capital - ((boughtSymbols floor rate capital target opens).map fun symbol =>
    fillScale floor rate capital target opens * target.ordered capital symbol).sum * (1 + rate)

def PriceBook.lateOrder (book : PriceBook) (day : Date) : List Symbol :=
  book.lateSymbols (book.sessions.filter fun session => day < session)
    (waitingSymbols floor capital target (book.opensOn day))

/-- At the fill the scaled amount reaches the floor; at a later open the cash still pays the floor and its fee. -/
def Affordable (book : PriceBook) (day : Date) (symbol : Symbol) : Prop :=
  (symbol ∈ filledSymbols floor capital target (book.opensOn day) →
      floor ≤ fillScale floor rate capital target (book.opensOn day) * target.ordered capital symbol) ∧
    (symbol ∈ book.lateOrder floor capital target day →
      floor * (1 + rate) ≤ cashAtFill floor rate capital target (book.opensOn day) -
        orderedBefore (target.ordered capital) (book.lateOrder floor capital target day) symbol *
          (1 + rate))

end Inputs

/-! ## The fill -/

variable {rules : ExecutionRules} {symbol : Symbol}

section Fill

variable {floor capital : ℚ} {target : TargetPortfolio} {opens : Dict Symbol ℚ} {book : Book}

theorem held_of_empty (h : book.shares = Dict.empty) (symbol : Symbol) : book.held symbol = 0 := by
  rw [Book.held, h]
  rfl

theorem value_of_empty (h : book.shares = Dict.empty) (hcash : book.cash = capital) : book.value = capital := by
  rw [Book.value, Book.market, h, Dict.sumBy_empty, add_zero, hcash]

theorem valued_of_empty (h : book.shares = Dict.empty) (hcash : book.cash = capital) (hcapital : 0 ≤ capital) : book.Valued where
  worth_nonneg symbol := by rw [held_of_empty h, zero_mul]
  value_nonneg := by rwa [value_of_empty h hcash]

theorem deficit_of_empty (h : book.shares = Dict.empty) (hcash : book.cash = capital) :
    deficit book target = target.ordered capital := by
  funext symbol
  rw [deficit, shortfall, held_of_empty h, zero_mul, sub_zero, value_of_empty h hcash]
  rfl

theorem soldSymbols_of_empty (h : book.shares = Dict.empty) : soldSymbols floor book target opens = [] := by
  unfold soldSymbols
  rw [h]
  rfl

theorem orderedSymbols_of_empty (h : book.shares = Dict.empty) (hcash : book.cash = capital) :
    orderedSymbols floor book target opens = filledSymbols floor capital target opens := by
  unfold orderedSymbols orderedOf filledSymbols Lacking
  simp only [deficit_of_empty h hcash]

theorem orderScale_of_empty (h : book.shares = Dict.empty) (hcash : book.cash = capital) (rate : ℚ) :
    orderScale floor book target opens rate = fillScale floor rate capital target opens := by
  unfold orderScale fillScale cashAfterSales
  rw [soldSymbols_of_empty h, orderedSymbols_of_empty h hcash, hcash, List.map_nil, List.sum_nil, zero_mul,
    add_zero, deficit_of_empty h hcash]

theorem plannedTrades_of_empty (h : book.shares = Dict.empty) (hcash : book.cash = capital) (rate : ℚ) :
    plannedTrades floor rate book target opens = (boughtSymbols floor rate capital target opens).map fun symbol =>
        (symbol, Side.buy, fillScale floor rate capital target opens * target.ordered capital symbol) := by
  unfold plannedTrades boughtSymbols
  rw [soldSymbols_of_empty h, orderedSymbols_of_empty h hcash, orderScale_of_empty h hcash,
    deficit_of_empty h hcash, List.map_nil, List.nil_append]

theorem cash_of_buys {trades : List Trade} {rate : ℚ}
    (h : ∀ trade ∈ trades, trade.side = .buy ∧ trade.fee = rate * trade.notional) (ledger : Ledger) :
    (trades.foldl Ledger.trade ledger).cash = ledger.cash - (trades.map Trade.notional).sum * (1 + rate) := by
  induction trades generalizing ledger with
  | nil => simp
  | cons t trades ih =>
    obtain ⟨hside, hfee⟩ := h t List.mem_cons_self
    have htrade : (ledger.trade t).cash = ledger.cash - (t.notional + t.fee) := by
      rw [Ledger.trade, hside]
    rw [List.foldl_cons, ih fun t' ht' => h t' (List.mem_cons_of_mem _ ht'), htrade, hfee, List.map_cons, List.sum_cons]
    ring

structure Awaiting (floor : ℚ) (book : Book) (target : TargetPortfolio) (opens : Dict Symbol ℚ)
    (pre : List Symbol) (state : OrderState) : Prop where
  keys : ∀ symbol, symbol ∈ state.pending.keys ↔ symbol ∈ pre ∧ Lacking floor book target symbol ∧ opens.get? symbol = none
  amounts : ∀ symbol order, state.pending.get? symbol = some order → order.amount = deficit book target symbol

theorem Awaiting.step {session : Date} {pre : List Symbol}
    {state state' : OrderState} (h : Awaiting floor book target opens pre state)
    (hweight : Lacking floor book target symbol → 0 < target.weightOf symbol)
    (hstep : OrderStep floor target.cutoffAt session opens (benchmarkRules rules) book.value book state
      symbol (target.weightOf symbol) state') :
    Awaiting floor book target opens (pre ++ [symbol]) state' := by
  -- a symbol that adds nothing leaves the waiting orders as they are
  have hkeep : ¬ (Lacking floor book target symbol ∧ opens.get? symbol = none) → ∀ s, s ∈ state.pending.keys ↔
        s ∈ pre ++ [symbol] ∧ Lacking floor book target s ∧ opens.get? s = none := by
    intro hnot s
    rw [h.keys, List.mem_append, List.mem_singleton]
    constructor
    · exact fun hs => ⟨.inl hs.1, hs.2⟩
    · rintro ⟨hs | rfl, hrest⟩
      · exact ⟨hs, hrest⟩
      · exact absurd hrest hnot
  cases hstep with
  | none hskip =>
    refine ⟨hkeep ?_, h.amounts⟩
    rintro ⟨hlack, -⟩
    rcases hskip with hw | hsmall
    · exact absurd (hweight hlack) (not_lt.2 hw)
    · exact absurd hlack (not_le.2 hsmall)
  | order _ large hopen =>
    refine ⟨hkeep ?_, h.amounts⟩
    rintro ⟨-, hnone⟩
    rw [hopen] at hnone
    cases hnone
  | unfilled _ large hopen =>
    have hpending : (if (benchmarkRules rules).unfilledOrderBehavior = .nextSessionOpen then
        state.pending.set symbol ⟨target.cutoffAt, session,
          shortfall (target.weightOf symbol) book.value book symbol⟩ else state.pending) =
        state.pending.set symbol ⟨target.cutoffAt, session, deficit book target symbol⟩ := if_pos rfl
    refine ⟨fun s => ?_, fun s order horder => ?_⟩
    · change s ∈ (if _ then _ else _ : Dict Symbol Pending).keys ↔ _
      rw [hpending, Dict.mem_keys_iff, Dict.get?_set, List.mem_append, List.mem_singleton]
      split_ifs with hs
      · subst hs
        exact iff_of_true ⟨_, rfl⟩ ⟨.inr rfl, large, hopen⟩
      · rw [← Dict.mem_keys_iff, h.keys]
        refine and_congr_left fun _ => ⟨.inl, fun hmem => hmem.resolve_right (Ne.symm hs)⟩
    · change (if _ then _ else _ : Dict Symbol Pending).get? s = _ at horder
      rw [hpending, Dict.get?_set] at horder
      split_ifs at horder with hs
      · cases horder
        rw [← hs]
      · exact h.amounts s order horder

theorem orderLoop_awaiting {session : Date} (hfloor : 0 < floor)
    (hbook : book.Valued) {sold : SellState} (hsold : sold.book = book) :
    Awaiting floor book target opens (sortedBy id target.weights.keys)
      (orderLoop floor target session opens (benchmarkRules rules) book.value sold) := by
  have hkeys : (sortedBy Prod.fst target.weights.items).map Prod.fst = sortedBy id target.weights.keys :=
    (sortedBy_map Prod.fst id Prod.fst (fun _ => rfl) _).symm
  unfold orderLoop
  rw [hsold, ← hkeys]
  refine foldl_inv (fun pre state => Awaiting floor book target opens (pre.map Prod.fst) state) _ ?_ ?_
  · exact ⟨fun s => by simp, fun s order horder => by cases horder⟩
  · rintro pre ⟨symbol, weight⟩ post state hl hinv
    have hitem : (symbol, weight) ∈ target.weights.items := by
      rw [← mem_sortedBy Prod.fst, hl]
      simp
    have hweight : target.weightOf symbol = weight := weightOf_of_get? ((target.weights.get?_eq_some_iff symbol weight).2 hitem)
    have hstep := orderStep_spec floor target.cutoffAt session opens (benchmarkRules rules) book.value book
      state symbol weight
    rw [List.map_append, List.map_singleton]
    subst hweight
    exact hinv.step (fun hlack => (mem_keys_of_lacking hfloor hbook hlack).2) hstep

theorem mem_waitingSymbols : symbol ∈ waitingSymbols floor capital target opens ↔
      symbol ∈ target.weights.keys ∧ floor ≤ target.ordered capital symbol ∧ opens.get? symbol = none := by
  unfold waitingSymbols
  rw [List.mem_filter, mem_sortedBy, decide_eq_true_iff, Option.isNone_iff_eq_none]

theorem sorted_waitingSymbols : (waitingSymbols floor capital target opens).Pairwise (· < ·) := by
  refine List.Pairwise.filter _ (strictSorted_of_nodup (pairwise_sortedBy id _) ?_)
  exact (perm_sortedBy id _).nodup_iff.2 target.weights.nodup

theorem rebalance_of_empty {session : Date} (hfloor : 0 < floor)
    (hrate : 0 ≤ rules.costRate) (hshares : book.shares = Dict.empty) (hcash : book.cash = capital)
    (hcapital : 0 < capital) {made : Traded} {fill : Fill}
    (h : rebalance floor book target session opens (benchmarkRules rules) = .ok (made, fill)) :
    Late (target.ordered capital) floor rules.costRate (cashAtFill floor rules.costRate capital target opens)
        (· ∈ boughtSymbols floor rules.costRate capital target opens)
        (· ∈ waitingSymbols floor capital target opens) [] made.book.cash made.pending made.trades [] ∧
      ∀ symbol, symbol ∈ fill.unfilledSymbols ↔ symbol ∈ waitingSymbols floor capital target opens := by
  obtain ⟨-, -, sold, trades, hsold, hspend, hpending, htrades, rfl⟩ := rebalance_eq_ok_iff.1 h
  have hshares' : (book.mark opens).shares = Dict.empty := hshares
  have hcash' : (book.mark opens).cash = capital := hcash
  have hvalued := valued_of_empty hshares' hcash' hcapital.le
  have hopens : ∀ symbol p, opens.get? symbol = some p → (book.mark opens).last.get? symbol = some p :=
    fun symbol p hp => Dict.get?_update_of_some hp
  have hstart : sold = ⟨book.mark opens, [], [], 0⟩ := by
    unfold sellLoop at hsold
    rw [hshares'] at hsold
    exact (foldlM_nil_eq_ok.1 hsold).symm
  have hlacking : ∀ symbol, Lacking floor (book.mark opens) target symbol ↔ floor ≤ target.ordered capital symbol := by
    intro symbol
    rw [Lacking, deficit_of_empty hshares' hcash']
  have hplan : made.trades.map Trade.summary =
      (boughtSymbols floor rules.costRate capital target opens).map fun symbol => (symbol, Side.buy,
        fillScale floor rules.costRate capital target opens * target.ordered capital symbol) := by
    rw [htrades, ← plannedTrades_of_empty hshares' hcash']
    have hrate' : 0 ≤ (benchmarkRules rules).costRate := hrate
    refine rebalance_trades hfloor hrate' hvalued hopens hsold ?_ hspend
    rw [hstart, zero_mul, add_zero]
  have hbuys : ∀ trade ∈ made.trades, trade.side = .buy := by
    intro trade htrade
    have hmem : trade.summary ∈ made.trades.map Trade.summary := List.mem_map_of_mem htrade
    rw [hplan] at hmem
    obtain ⟨symbol, -, heq⟩ := List.mem_map.1 hmem
    exact (congrArg (fun x => x.2.1) heq).symm
  obtain ⟨hmatch, hat⟩ := rebalance_matches book.ledger_matches h
  have hafter : made.book.cash = cashAtFill floor rules.costRate capital target opens := by
    have hnotional : made.trades.map Trade.notional = (boughtSymbols floor rules.costRate capital target opens).map fun symbol =>
          fillScale floor rules.costRate capital target opens * target.ordered capital symbol := by
      have := congrArg (List.map fun x : Symbol × Side × ℚ => x.2.2) hplan
      rw [List.map_map, List.map_map] at this
      exact this
    rw [← hmatch.1, cash_of_buys fun trade htrade => ⟨hbuys trade htrade, (hat trade htrade).fee_eq⟩, hnotional]
    change book.cash - _ = _
    rw [hcash]
    rfl
  have hsymbols : made.trades.map Trade.symbol = boughtSymbols floor rules.costRate capital target opens := by
    have := congrArg (List.map Prod.fst) hplan
    rw [List.map_map, List.map_map] at this
    exact this.trans (List.map_id _)
  have hawaiting : Awaiting floor (book.mark opens) target opens (sortedBy id target.weights.keys)
      (orderLoop floor target session opens (benchmarkRules rules) (book.mark opens).value sold) :=
    orderLoop_awaiting hfloor hvalued (by rw [hstart])
  refine ⟨⟨fun s => ?_, fun s order horder => ?_, by simp, ?_, rfl, fun s => ?_⟩, fun s => ?_⟩
  · rw [hpending, hawaiting.keys, mem_sortedBy, hlacking, mem_waitingSymbols]
  · rw [hpending] at horder
    have hkeys := (hawaiting.keys s).1 ((Dict.mem_keys_iff _ _).2 ⟨order, horder⟩)
    rw [hawaiting.amounts s order horder, deficit_of_empty hshares' hcash']
    exact ⟨rfl, (hlacking s).1 hkeys.2.1⟩
  · rw [hafter, List.map_nil, List.sum_nil, zero_mul]
    exact purse_start _ _
  · rw [← hsymbols]
    constructor
    · rintro ⟨trade, htrade, rfl, -⟩
      exact .inl (List.mem_map_of_mem htrade)
    · rintro (hmem | ⟨hmem, -⟩)
      · obtain ⟨trade, htrade, rfl⟩ := List.mem_map.1 hmem
        exact ⟨trade, htrade, rfl, hbuys trade htrade⟩
      · cases hmem
  · have hordered := orderLoop_ordered hfloor hvalued hopens hsold
    change s ∈ sortedBy id _ ↔ _
    rw [mem_sortedBy, hordered.unfilled, hstart, mem_sortedBy, hlacking, mem_waitingSymbols]
    simp

end Fill

/-! ## The run -/

variable {target : TargetPortfolio}

theorem schedule_single {sessions : List Date}
    {schedule : Schedule} {day : Date} (h : scheduleTargets sessions [target] rules = .ok schedule)
    (hfill : fillDate sessions rules target.cutoffAt = some day) :
    (∀ session due, schedule.due.get? session = some due ↔ due = target ∧ session = day) ∧
      schedule.unscheduled = [] ∧ schedule.first = some day := by
  have hdue : ∀ session due, schedule.due.get? session = some due ↔ due = target ∧ session = day := by
    intro session due
    rw [due_get?_iff h, List.mem_singleton]
    refine and_congr_right fun heq => ?_
    rw [heq, hfill, Option.some.injEq, eq_comm]
  refine ⟨hdue, ?_, ?_⟩
  · obtain ⟨mid, hstep, hend⟩ := foldlM_cons_eq_ok.1 h
    obtain rfl := foldlM_nil_eq_ok.1 hend
    obtain ⟨-, ⟨hnone, -⟩ | ⟨_, -, -, rfl⟩⟩ := scheduleStep_eq_ok_iff.1 hstep
    · rw [hfill] at hnone
      cases hnone
    · rfl
  · rcases hfirst : schedule.first with _ | first
    · have hmem : day ∈ schedule.due.keys := (Dict.mem_keys_iff _ _).2 ⟨target, (hdue day target).2 ⟨rfl, rfl⟩⟩
      rw [first_eq_none_iff.1 hfirst] at hmem
      cases hmem
    · obtain ⟨due, hdue'⟩ := (Dict.mem_keys_iff _ _).1 (first_eq_some hfirst).1
      rw [((hdue first due).1 hdue').2]

theorem simulateAt_benchmark {floor capital : ℚ} {book : PriceBook} {run : Simulation} {day : Date} (hfloor : 0 < floor)
    (hrate : 0 ≤ rules.costRate)
    (hfill : fillSession book.sessions target.cutoffAt rules.lagSessions = .ok (some day))
    (hrun : simulateAt floor book [target] (benchmarkRules rules) capital = .ok run) :
    ∃ (state : RunState) (Waits : Symbol → Prop) (fill : Fill), state.Late (target.ordered capital) floor rules.costRate
        (cashAtFill floor rules.costRate capital target (book.opensOn day))
        (· ∈ boughtSymbols floor rules.costRate capital target (book.opensOn day)) Waits
        (book.lateOrder floor capital target day) ∧
      run.trades = state.trades ∧ run.deferredFills = state.deferred ∧ run.fills = [fill] ∧
      ∀ symbol, symbol ∈ fill.unfilledSymbols ↔ symbol ∈ waitingSymbols floor capital target (book.opensOn day) := by
  have hdate : fillDate book.sessions (benchmarkRules rules) target.cutoffAt = some day := (fillSession_eq_ok_some_iff.1 hfill).2
  obtain ⟨hcapital, schedule, hschedule, ⟨hnone, -⟩ | ⟨first, state, hfirst, hstate, rfl⟩⟩ := simulateAt_eq_ok_iff.1 hrun
  · rw [(schedule_single hschedule hdate).2.2] at hnone
    cases hnone
  obtain ⟨hdue, hunscheduled, hday⟩ := schedule_single hschedule hdate
  obtain rfl : day = first := by
    rw [hday] at hfirst
    exact Option.some.inj hfirst
  have hmem : day ∈ book.sessions := List.mem_of_getElem? hdate
  obtain ⟨pre, post, hl⟩ := List.append_of_mem hmem
  obtain ⟨hpre, hpost⟩ := sessions_split hl
  have hother : ∀ session, session ≠ day → schedule.due.get? session = none := by
    intro session hne
    rcases hget : schedule.due.get? session with _ | due
    · rfl
    · exact absurd ((hdue session due).1 hget).2 hne
  unfold runSessions at hstate
  rw [hl] at hstate
  obtain ⟨before, hbefore, hrest⟩ := foldlM_append_eq_ok.1 hstate
  obtain ⟨filled, hstep, hafter⟩ := foldlM_cons_eq_ok.1 hrest
  obtain ⟨hidle, hcash⟩ := sessions_idle (fun s hs => hother s (hpre s hs).ne) hpre
    (⟨rfl, rfl, rfl, rfl, rfl, rfl, rfl⟩ : Idle (RunState.initial capital)) hbefore
  -- the fill session
  obtain ⟨split, traded, hsplit, htrade, hvalue⟩ := sessionStep_eq_ok_iff.1 hstep
  have hsplits := splits_splitOnly hsplit
  have hidle' : Idle split := foldlM_inv (fun _ s => Idle s) hsplit hidle fun _ _ _ _ _ _ hs hone => hs.splitStep hone
  have hvalued := valueSession_valueOnly hvalue
  rw [(hdue day target).2 ⟨rfl, rfl⟩] at htrade
  cases htrade with
  | @rebalanced _ made fill hrebalance =>
    obtain ⟨hlate, hunfilled⟩ := rebalance_of_empty hfloor hrate hidle'.shares
      (hsplits.cash_eq.trans hcash) hcapital hrebalance
    have hfilled : filled.Late (target.ordered capital) floor (benchmarkRules rules).costRate
        (cashAtFill floor rules.costRate capital target (book.opensOn day))
        (· ∈ boughtSymbols floor rules.costRate capital target (book.opensOn day))
        (· ∈ waitingSymbols floor capital target (book.opensOn day)) [] := by
      unfold RunState.Late
      rw [hvalued.book_eq, hvalued.pending_eq, hvalued.trades_eq, hvalued.deferred_eq]
      change Late _ _ _ _ _ _ _ made.book.cash made.pending (split.trades ++ made.trades) split.deferred
      rw [hidle'.records.1, hidle'.records.2.2.2.1]
      exact hlate
    have hrate' : 0 ≤ (benchmarkRules rules).costRate := hrate
    obtain ⟨Waits, hend, hfills⟩ := sessions_late hfloor hrate' (fun s hs => hother s (hpost s hs).ne')
      sorted_waitingSymbols hfilled hafter
    have hsessions : (book.sessions.filter fun session => day < session) = post := by
      rw [hl, List.filter_append, List.filter_cons_of_neg (by simp)]
      rw [List.filter_eq_nil_iff.2 fun s hs => by simpa using (hpre s hs).le]
      rw [List.nil_append, List.filter_eq_self.2 fun s hs => by simpa using hpost s hs]
    refine ⟨state, Waits, fill, ?_, rfl, rfl, ?_, hunfilled⟩
    · unfold PriceBook.lateOrder
      rw [hsessions]
      exact hend
    · have hone : state.fills = [fill] := by
        rw [hfills, hvalued.fills_eq]
        change split.fills ++ [fill] = [fill]
        rw [hidle'.records.2.1, List.nil_append]
      change sortedBy Fill.cutoffAt (schedule.unscheduled ++ state.fills) = [fill]
      rw [hunscheduled, hone]
      rfl

theorem mem_keys_of_ordered {floor capital : ℚ} (hfloor : 0 < floor)
    (h : floor ≤ target.ordered capital symbol) : symbol ∈ target.weights.keys := by
  by_contra hnot
  rw [TargetPortfolio.ordered, TargetPortfolio.weightOf, (Dict.get?_eq_none_iff _ _).2 hnot, Option.getD_none, zero_mul] at h
  exact absurd hfloor (not_lt.2 h)

/-- An ordered symbol is bought or reported as never filled exactly when its order is affordable. -/
theorem benchmark_shown_iff (book : PriceBook) (target : TargetPortfolio) (rules : ExecutionRules)
    (capital : ℚ) (run : Simulation) (day : Date) (symbol : Symbol) (hrate : 0 ≤ rules.costRate)
    (hfill : fillSession book.sessions target.cutoffAt rules.lagSessions = .ok (some day))
    (hrun : simulate book [target] (benchmarkRules rules) capital = .ok run)
    (hordered : minOrderNotional ≤ target.ordered capital symbol) :
    Bought run.trades symbol ∨ symbol ∈ benchmarkNeverFilled run ↔
      Affordable minOrderNotional rules.costRate capital target book day symbol := by
  have hfloor : 0 < minOrderNotional := by decide +kernel
  obtain ⟨state, Waits, fill, hlate, htrades, hdeferred, hfills, hunfilled⟩ := simulateAt_benchmark hfloor hrate hfill hrun
  have hnever : symbol ∈ benchmarkNeverFilled run ↔ symbol ∈ waitingSymbols minOrderNotional capital target (book.opensOn day) ∧
        symbol ∉ book.lateOrder minOrderNotional capital target day := by
    unfold benchmarkNeverFilled
    rw [hfills, hdeferred, hlate.deferred]
    change symbol ∈ sortedSet _ ↔ _
    rw [mem_sortedSet, List.mem_filter, hunfilled, decide_eq_true_iff]
  have hwaiting : symbol ∈ book.lateOrder minOrderNotional capital target day →
      symbol ∈ waitingSymbols minOrderNotional capital target (book.opensOn day) :=
    fun hmem => (mem_lateSymbols.1 hmem).1
  have hkeys := mem_keys_of_ordered hfloor hordered
  have hfilled : symbol ∈ filledSymbols minOrderNotional capital target (book.opensOn day) ↔
      ((book.opensOn day).get? symbol).isSome := by
    unfold filledSymbols
    rw [List.mem_filter, mem_sortedBy, decide_eq_true_iff]
    exact ⟨fun h => h.2.2, fun h => ⟨hkeys, hordered, h⟩⟩
  rw [htrades, hlate.bought, hnever]
  unfold Affordable boughtSymbols
  rw [List.mem_filter, hfilled, decide_eq_true_iff]
  rcases hopen : (book.opensOn day).get? symbol with _ | p
  · -- no open at the fill: the symbol waits
    have hmem : symbol ∈ waitingSymbols minOrderNotional capital target (book.opensOn day) :=
      mem_waitingSymbols.2 ⟨hkeys, hordered, hopen⟩
    by_cases hin : symbol ∈ book.lateOrder minOrderNotional capital target day <;> simp [hmem, hin]
  · -- an open at the fill: the symbol never waits
    have hmem : symbol ∉ waitingSymbols minOrderNotional capital target (book.opensOn day) := by
      rw [mem_waitingSymbols, hopen]
      simp
    have hin : symbol ∉ book.lateOrder minOrderNotional capital target day := fun h => hmem (hwaiting h)
    simp [hmem, hin]

/-- The waiting symbol of the small run is bought at its next open. -/
theorem benchmark_shown_sample : ∃ run, simulate sampleBook [sampleTarget] (benchmarkRules sampleRules) 1000 =
    .ok run ∧ (Bought run.trades "BBB" ∨ "BBB" ∈ benchmarkNeverFilled run) := by
  obtain ⟨run, hrun⟩ := sample_returns
  refine ⟨run, hrun, (benchmark_shown_iff sampleBook sampleTarget sampleRules 1000 run 2 "BBB"
    (by decide +kernel) ?_ hrun (by decide +kernel)).2 ?_⟩
  · exact fillSession_eq_ok_some_iff.2 ⟨by decide, by decide +kernel⟩
  · unfold Affordable
    decide +kernel

def spentTarget : TargetPortfolio where
  cutoffAt := microsPerDay
  weights := Dict.ofList [("AAA", 1000 / 1001), ("BBB", 1 / 1001)]
  weights_nonneg := by decide +kernel
  sum_weights_le_one := by decide +kernel

/-- At its next open the waiting order finds no cash. -/
theorem benchmark_hides_symbol : fillSession sampleBook.sessions spentTarget.cutoffAt sampleRules.lagSessions = .ok (some 2) ∧
      minOrderNotional ≤ spentTarget.ordered 1000 "BBB" ∧
      ∃ run, simulate sampleBook [spentTarget] (benchmarkRules sampleRules) 1000 = .ok run ∧
        ¬ (Bought run.trades "BBB" ∨ "BBB" ∈ benchmarkNeverFilled run) := by
  refine ⟨fillSession_eq_ok_some_iff.2 ⟨by decide, by decide +kernel⟩, by decide +kernel, ?_⟩
  have hrun : ∃ run ∈ (simulate sampleBook [spentTarget] (benchmarkRules sampleRules) 1000).toOption,
      "BBB" ∉ run.trades.map Trade.symbol ∧ "BBB" ∉ benchmarkNeverFilled run := by
    decide +kernel
  rcases h : simulate sampleBook [spentTarget] (benchmarkRules sampleRules) 1000 with e | run
  · rw [h] at hrun
    obtain ⟨_, hmem, -⟩ := hrun
    cases hmem
  · rw [h] at hrun
    obtain ⟨_, hmem, hbought, hnever⟩ := hrun
    cases hmem
    refine ⟨run, rfl, ?_⟩
    rintro (⟨trade, htrade, hsymbol, -⟩ | hlisted)
    · exact hbought (hsymbol ▸ List.mem_map_of_mem htrade)
    · exact hnever hlisted

end TrueAlpha.Backtest
