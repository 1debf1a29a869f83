import TrueAlpha.Backtest.Rebase
import TrueAlpha.Backtest.Schedule

/-!
# Split-adjusted prices

`book.adjusted` divides every price by the factors of the later splits of its symbol.  The run on it is the run on `book` in
units that change at each ex-date, as `applySplit` moves the shares and the last price.
-/

namespace TrueAlpha.Backtest

def PriceBook.laterFactor (book : PriceBook) (symbol : Symbol) (session : Date) : ℚ :=
  splitFactor (book.splits.filter fun event => session < event.exDate) symbol

def Bar.adjusted (factor : ℚ) (bar : Bar) : Bar := ⟨bar.open.map (· / factor), bar.close.map (· / factor)⟩

def PriceBook.adjusted (book : PriceBook) : PriceBook where
  bars := book.bars.mapVal fun symbol series =>
    series.mapVal fun session bar => bar.adjusted (book.laterFactor symbol session)
  splits := []
  nodup_splits := List.nodup_nil

def Trade.adjusted (book : PriceBook) (t : Trade) : Trade :=
  { t with
    shares := t.shares * book.laterFactor t.symbol t.session
    price := t.price / book.laterFactor t.symbol t.session }

def PositiveTerms (events : List SplitEvent) : Prop := ∀ event ∈ events, 0 < event.numerator ∧ 0 < event.denominator

theorem SplitEvent.factor_pos {event : SplitEvent} (hn : 0 < event.numerator)
    (hd : 0 < event.denominator) : 0 < event.factor := by
  have hnq : (0 : ℚ) < event.numerator := by exact_mod_cast hn
  have hdq : (0 : ℚ) < event.denominator := by exact_mod_cast hd
  exact div_pos hnq hdq

variable {events : List SplitEvent}

theorem splitFactor_pos (h : PositiveTerms events) (symbol : Symbol) : 0 < splitFactor events symbol := by
  induction events with
  | nil => exact one_pos
  | cons event events ih =>
    obtain ⟨hn, hd⟩ := h event List.mem_cons_self
    rw [splitFactor_cons]
    refine mul_pos ?_ (ih fun e he => h e (List.mem_cons_of_mem _ he))
    split_ifs
    · exact SplitEvent.factor_pos hn hd
    · exact one_pos

theorem PositiveTerms.filter (h : PositiveTerms events) (p : SplitEvent → Bool) : PositiveTerms (events.filter p) :=
  fun event hevent => h event (List.mem_filter.1 hevent).1

def splitUnits (events : List SplitEvent) (h : PositiveTerms events) : Units :=
  ⟨1, splitFactor events, one_pos, splitFactor_pos h⟩

variable {l₁ l₂ : List SplitEvent}

theorem splitUnits_congr (h₁ : PositiveTerms l₁) (h₂ : PositiveTerms l₂)
    (h : ∀ symbol, splitFactor l₁ symbol = splitFactor l₂ symbol) :
    splitUnits l₁ h₁ = splitUnits l₂ h₂ := by
  unfold splitUnits
  congr 1
  exact funext h

theorem pending_splitUnits (events : List SplitEvent) (h : PositiveTerms events)
    (d : Dict Symbol Pending) : (splitUnits events h).pending d = d := by
  apply Dict.ext
  simp [Units.pending, Units.waiting, Dict.mapVal, splitUnits]

theorem applySplit_units {book book' : Book} {event : SplitEvent} {record : Option AppliedSplit} (h : PositiveTerms (event :: events)) (h' : PositiveTerms events)
    (hok : applySplit book event = .ok (book', record)) :
    (splitUnits events h').book book' = (splitUnits (event :: events) h).book book := by
  obtain ⟨hlast, hshares, hcash⟩ := applySplit_eq_ok_iff.1 hok
  obtain ⟨hn, hd⟩ := h event List.mem_cons_self
  have hnq : (event.numerator : ℚ) ≠ 0 := by exact_mod_cast hn.ne'
  have hdq : (event.denominator : ℚ) ≠ 0 := by exact_mod_cast hd.ne'
  have hself : splitFactor (event :: events) event.symbol =
      event.factor * splitFactor events event.symbol := by rw [splitFactor_cons, if_pos rfl]
  have hother : ∀ s, event.symbol ≠ s → splitFactor (event :: events) s = splitFactor events s := by
    intro s hs
    rw [splitFactor_cons, if_neg hs, one_mul]
  have hpos := (splitFactor_pos h' event.symbol).ne'
  have hshares' : (splitUnits events h').shares book'.shares = (splitUnits (event :: events) h).shares book.shares := by
    rcases splitShares_eq_ok_iff.1 hshares with ⟨hzero, heq, -⟩ | ⟨held, hheld, -, -, heq, -⟩
    · -- a zero holding is zero in any units
      rw [heq]
      refine Dict.mapVal_congr fun s q hq => ?_
      by_cases hs : event.symbol = s
      · have hq' := (Dict.get?_eq_some_iff _ _ _).2 hq
        rw [hs, hq', Option.getD_some] at hzero
        rw [hzero, zero_mul, zero_mul]
      · exact congrArg (q * ·) (hother s hs).symm
    · rw [heq]
      refine Dict.mapVal_set_eq hheld ?_ fun s hs => ?_
      · change _ * splitFactor events _ = held * splitFactor (event :: events) _
        rw [hself, SplitEvent.factor]
        ring
      · exact funext fun q => congrArg (q * ·) (hother s hs).symm
  have hlast' : (splitUnits events h').prices book'.last = (splitUnits (event :: events) h).prices book.last := by
    rcases splitLast_eq_ok_iff.1 hlast with ⟨hnone, heq⟩ | ⟨p, hp, -, heq⟩
    · rw [heq]
      refine Dict.mapVal_congr fun s q hq => ?_
      have hs : event.symbol ≠ s := by
        intro hs
        rw [hs, (Dict.get?_eq_some_iff _ _ _).2 hq] at hnone
        cases hnone
      exact congrArg (fun c => q * (1 / c)) (hother s hs).symm
    · rw [heq]
      refine Dict.mapVal_set_eq hp ?_ fun s hs => ?_
      · change _ * (1 / splitFactor events _) = p * (1 / splitFactor (event :: events) _)
        rw [hself, SplitEvent.factor]
        field_simp
      · exact funext fun q => congrArg (fun c => q * (1 / c)) (hother s hs).symm
  unfold Units.book
  rw [hshares', hlast', hcash]
  rfl

theorem splits_rebase {events later : List SplitEvent} (h : PositiveTerms (events ++ later))
    (h' : PositiveTerms later) {state split : RunState}
    (hok : events.foldlM splitStep state = .ok split) :
    (splitUnits later h').book split.book = (splitUnits (events ++ later) h).book state.book ∧
      split = { state with book := split.book, applied := split.applied } := by
  induction events generalizing state with
  | nil =>
    obtain rfl := foldlM_nil_eq_ok.1 hok
    exact ⟨rfl, rfl⟩
  | cons event events ih =>
    obtain ⟨mid, hstep, hok⟩ := foldlM_cons_eq_ok.1 hok
    obtain ⟨b, record, happly, rfl⟩ := splitStep_eq_ok_iff.1 hstep
    have hrest : PositiveTerms (events ++ later) := fun e he => h e (List.mem_cons_of_mem _ he)
    obtain ⟨hbook, hsplit⟩ := ih hrest hok
    exact ⟨hbook.trans (applySplit_units h hrest happly), hsplit⟩

theorem sessions_adjusted (book : PriceBook) : book.adjusted.sessions = book.sessions := by
  unfold PriceBook.sessions PriceBook.adjusted
  congr 1
  simp [Dict.values, Dict.mapVal, List.flatMap_map, Dict.keys, Function.comp_def]

theorem price_map_div {factor : ℚ} (hfactor : 0 < factor) (value : Option ℚ) :
    price (value.map (· / factor)) = (price value).map (· * (1 / factor)) := by
  cases value with
  | none => rfl
  | some v =>
    have hpos : 0 < v / factor ↔ 0 < v := div_pos_iff_of_pos_right hfactor
    by_cases hv : 0 < v
    · simp [price, Option.filter, hv, hfactor, div_eq_mul_inv]
    · simp [price, Option.filter, hv, hpos]

section Book

variable {book : PriceBook} (hsplits : PositiveTerms book.splits) {session : Date}
  {later : List SplitEvent} (hlater : PositiveTerms later)
  (hfactor : ∀ symbol, splitFactor later symbol = book.laterFactor symbol session)
include hsplits hfactor

theorem prices_adjusted (side : Bar → Option ℚ)
    (hside : ∀ factor bar, side (Bar.adjusted factor bar) = (side bar).map (· / factor)) :
    (book.adjusted.bars.filterMapVal fun _ series => (series.get? session).bind fun bar => price (side bar)) =
      (splitUnits later hlater).prices
        (book.bars.filterMapVal fun _ series => (series.get? session).bind fun bar => price (side bar)) := by
  unfold PriceBook.adjusted Units.prices
  rw [Dict.filterMapVal_mapVal, Dict.mapVal_filterMapVal]
  congr 1
  funext symbol series
  have hpos : 0 < book.laterFactor symbol session := splitFactor_pos (hsplits.filter _) symbol
  have hprice : (splitUnits later hlater).price symbol = 1 / book.laterFactor symbol session := by
    rw [← hfactor]
    rfl
  rw [Dict.get?_mapVal, hprice]
  cases series.get? session with
  | none => rfl
  | some bar =>
    rw [Option.map_some, Option.bind_some, Option.bind_some, hside]
    exact price_map_div hpos _

theorem opensOn_adjusted : book.adjusted.opensOn session = (splitUnits later hlater).prices (book.opensOn session) :=
  prices_adjusted hsplits hlater hfactor Bar.open fun _ _ => rfl

theorem closesOn_adjusted : book.adjusted.closesOn session = (splitUnits later hlater).prices (book.closesOn session) :=
  prices_adjusted hsplits hlater hfactor Bar.close fun _ _ => rfl

omit hsplits in
theorem trade_adjusted {made : List Trade} (hmade : ∀ trade ∈ made, trade.session = session) :
    made.map (splitUnits later hlater).trade = made.map (Trade.adjusted book) := by
  refine List.map_congr_left fun trade htrade => ?_
  have hshare : (splitUnits later hlater).share trade.symbol = book.laterFactor trade.symbol trade.session := by
    rw [hmade trade htrade, ← hfactor]
    rfl
  have hprice : (splitUnits later hlater).price trade.symbol = 1 / book.laterFactor trade.symbol trade.session := by
    rw [← hshare]
    rfl
  have hmoney : (splitUnits later hlater).money = 1 := rfl
  unfold Units.trade Trade.adjusted
  rw [hshare, hprice, hmoney, mul_one, mul_one, mul_one_div]

end Book

/-! ## The run -/

/-- The state of the adjusted run, while the splits in `events` are still to come. -/
structure Adjusts (book : PriceBook) (events : List SplitEvent) (h : PositiveTerms events)
    (state c : RunState) : Prop where
  book_eq : c.book = (splitUnits events h).book state.book
  pending_eq : c.pending = state.pending
  peak_eq : c.peak = state.peak
  trades_eq : c.trades = state.trades.map (Trade.adjusted book)
  fills_eq : c.fills = state.fills
  applied_eq : c.applied = []
  deferred_eq : c.deferred = state.deferred
  valuations_eq : c.valuations = state.valuations

variable {book : PriceBook} {due : Dict Date TargetPortfolio} {rules : ExecutionRules}

theorem sessionStep_adjusted {floor : ℚ} (hsplits : PositiveTerms book.splits) {capital : ℚ} {first session : Date}
    {later : List SplitEvent} (hlater : PositiveTerms later)
    (hbefore : PositiveTerms (book.splitsOn session ++ later))
    (hfactor : ∀ symbol, splitFactor later symbol = book.laterFactor symbol session)
    {state state' c : RunState} (hadj : Adjusts book (book.splitsOn session ++ later) hbefore state c)
    (h : sessionStep floor book due rules capital first state session = .ok state') :
    ∃ c', sessionStep floor book.adjusted due rules capital first c session = .ok c' ∧ Adjusts book later hlater state' c' := by
  obtain ⟨split, traded, hsplit, htrade, hvalue⟩ := sessionStep_eq_ok_iff.1 h
  obtain ⟨hbook, hrest⟩ := splits_rebase hbefore hlater hsplit
  -- the trades, in the units after the splits
  have hcbook : c.book = (splitUnits later hlater).book split.book := by rw [hbook, hadj.book_eq]
  have hcpending : c.pending = (splitUnits later hlater).pending split.pending := by
    rw [pending_splitUnits, hadj.pending_eq, hrest]
  obtain ⟨made, fills, deferred, happ, htrade'⟩ := (splitUnits later hlater).tradeSession_units htrade hcbook hcpending
  have hmoney : ∀ a : ℚ, a * (splitUnits later hlater).money = a := mul_one
  rw [hmoney, ← opensOn_adjusted hsplits hlater hfactor, pending_splitUnits,
    trade_adjusted hlater hfactor happ.made_session] at htrade'
  -- the close
  have hclosed : ((splitUnits later hlater).book traded.book).mark (book.adjusted.closesOn session) =
      (splitUnits later hlater).book (traded.close (book.closesOn session)).book := by
    rw [closesOn_adjusted hsplits hlater hfactor, Units.mark_book]
    rfl
  have hpeak : c.peak = (traded.close (book.closesOn session)).peak * (splitUnits later hlater).money := by
    rw [hmoney, hadj.peak_eq]
    change state.peak = traded.peak
    rw [happ.peak_eq, hrest]
  let c₁ : RunState := RunState.close
    { c with
      book := (splitUnits later hlater).book traded.book
      pending := traded.pending
      trades := c.trades ++ made.map (Trade.adjusted book)
      fills := c.fills ++ fills
      deferred := c.deferred ++ deferred } (book.adjusted.closesOn session)
  obtain ⟨vals, hstate', -, hvalue'⟩ := (splitUnits later hlater).valueSession_units (c := c₁) hvalue hclosed hpeak
  have hvals : vals.map (splitUnits later hlater).valuation = vals := by
    refine (List.map_congr_left fun v _ => ?_).trans (List.map_id vals)
    rw [Units.valuation, hmoney]
    rfl
  rw [hmoney, hmoney, hvals] at hvalue'
  refine ⟨_, sessionStep_eq_ok_iff.2 ⟨c, _, rfl, htrade', hvalue'⟩, ?_⟩
  rw [hstate']
  refine ⟨hclosed, rfl, rfl, ?_, ?_, hadj.applied_eq, ?_, ?_⟩
  · change c.trades ++ _ = traded.trades.map _
    rw [happ.trades_eq, List.map_append, hadj.trades_eq, hrest]
  · change c.fills ++ _ = traded.fills
    rw [happ.fills_eq, hadj.fills_eq, hrest]
  · change c.deferred ++ _ = traded.deferred
    rw [happ.deferred_eq, hadj.deferred_eq, hrest]
  · change c.valuations ++ _ = traded.valuations ++ _
    rw [happ.valuations_eq, hadj.valuations_eq, hrest]

theorem Adjusts.congr {h₁ : PositiveTerms l₁} {state c : RunState} (hadj : Adjusts book l₁ h₁ state c) (h₂ : PositiveTerms l₂)
    (h : ∀ symbol, splitFactor l₁ symbol = splitFactor l₂ symbol) : Adjusts book l₂ h₂ state c :=
  { hadj with book_eq := by rw [hadj.book_eq, splitUnits_congr h₁ h₂ h] }

def PriceBook.splitsAfter (book : PriceBook) (pre : List Date) : List SplitEvent :=
  book.splits.filter fun event => event.exDate ∉ pre

theorem splitsAfter_perm {pre post : List Date} {session : Date} (hl : book.sessions = pre ++ session :: post) :
    (book.splitsAfter pre).Perm (book.splitsOn session ++ book.splitsAfter (pre ++ [session])) := by
  have hnot : session ∉ pre := fun hmem => lt_irrefl _ ((sessions_split hl).1 session hmem)
  have hon : (book.splitsAfter pre).filter (fun event => event.exDate = session) =
      book.splits.filter fun event => event.exDate = session := by
    rw [PriceBook.splitsAfter, List.filter_filter]
    refine List.filter_congr fun event _ => ?_
    by_cases he : event.exDate = session
    · simp [he, hnot]
    · simp [he]
  have hafter : (book.splitsAfter pre).filter (fun event => !decide (event.exDate = session)) =
      book.splitsAfter (pre ++ [session]) := by
    rw [PriceBook.splitsAfter, PriceBook.splitsAfter, List.filter_filter]
    refine List.filter_congr fun event _ => ?_
    by_cases he : event.exDate = session
    · simp [he]
    · simp [he]
  have hperm := List.filter_append_perm (fun event => decide (event.exDate = session))
    (book.splitsAfter pre)
  rw [hon, hafter] at hperm
  exact hperm.symm.trans (((perm_sortedBy _ _).symm).append_right _)

theorem splitFactor_splitsAfter (hdates : ∀ event ∈ book.splits, event.exDate ∈ book.sessions)
    {pre post : List Date} {session : Date} (hl : book.sessions = pre ++ session :: post)
    (symbol : Symbol) :
    splitFactor (book.splitsAfter (pre ++ [session])) symbol = book.laterFactor symbol session := by
  obtain ⟨hpre, hpost⟩ := sessions_split hl
  unfold PriceBook.laterFactor PriceBook.splitsAfter
  congr 1
  refine List.filter_congr fun event hevent => ?_
  have hmem := hdates event hevent
  rw [hl, List.mem_append, List.mem_cons] at hmem
  rw [decide_eq_decide, List.mem_append, List.mem_singleton]
  constructor
  · intro hnot
    rcases hmem with hmem | hmem | hmem
    · exact absurd (.inl hmem) hnot
    · exact absurd (.inr hmem) hnot
    · exact hpost _ hmem
  · intro hlt hmem
    rcases hmem with hmem | hmem
    · exact lt_asymm hlt (hpre _ hmem)
    · exact lt_irrefl _ (hmem ▸ hlt)

theorem runSessions_adjusted {floor : ℚ} (hsplits : PositiveTerms book.splits)
    (hdates : ∀ event ∈ book.splits, event.exDate ∈ book.sessions) {capital : ℚ} {first : Date} {state : RunState}
    (h : runSessions floor book due rules capital first book.sessions = .ok state) :
    ∃ c, runSessions floor book.adjusted due rules capital first book.sessions = .ok c ∧
      Adjusts book (book.splitsAfter book.sessions) (hsplits.filter _) state c := by
  let R : List Date → RunState → RunState → Prop := fun pre state c =>
    Adjusts book (book.splitsAfter pre) (hsplits.filter _) state c
  have hstart : R [] (RunState.initial capital) (RunState.initial capital) := by
    refine ⟨?_, rfl, rfl, rfl, rfl, rfl, rfl, rfl⟩
    change Book.mk capital _ _ = Book.mk (capital * 1) _ _
    rw [mul_one]
    rfl
  refine foldlM_sim R h hstart ?_
  intro pre session post state c state' hl hadj hok
  have hbefore : PositiveTerms (book.splitsOn session ++ book.splitsAfter (pre ++ [session])) :=
    fun event hevent => hsplits.filter _ event ((splitsAfter_perm hl).mem_iff.2 hevent)
  have hadj' := Adjusts.congr hadj hbefore (splitFactor_perm (splitsAfter_perm hl))
  exact sessionStep_adjusted hsplits (hsplits.filter _) hbefore (splitFactor_splitsAfter hdates hl) hadj' hok

/-- The adjusted run has the same fills, deferred fills and valuations, and the same trades in the last share basis. -/
theorem simulate_adjusted (book : PriceBook) (targets : List TargetPortfolio) (rules : ExecutionRules)
    (capital : ℚ) (hsplits : ∀ event ∈ book.splits, 0 < event.numerator ∧ 0 < event.denominator)
    (hdates : ∀ event ∈ book.splits, event.exDate ∈ book.sessions) (r : Simulation)
    (h : simulate book targets rules capital = .ok r) :
    simulate book.adjusted targets rules capital =
      .ok { r with trades := r.trades.map (Trade.adjusted book), splitsApplied := [] } := by
  obtain ⟨hcapital, schedule, hs, hrest⟩ := simulateAt_eq_ok_iff.1 h
  refine simulateAt_eq_ok_iff.2 ⟨hcapital, schedule, by rw [sessions_adjusted, hs], ?_⟩
  rcases hrest with ⟨hfirst, rfl⟩ | ⟨first, state, hfirst, hrun, rfl⟩
  · exact .inl ⟨hfirst, rfl⟩
  · obtain ⟨c, hc, hadj⟩ := runSessions_adjusted hsplits hdates hrun
    refine .inr ⟨first, c, hfirst, by rw [sessions_adjusted]; exact hc, ?_⟩
    rw [hadj.valuations_eq, hadj.trades_eq, hadj.fills_eq, hadj.applied_eq, hadj.deferred_eq]

/-- The small run, whose target waits across the other symbol's ex-date. -/
theorem simulate_adjusted_sample : ∃ r, simulate sampleBook [sampleTarget] sampleRules 1000 = .ok r ∧
      simulate sampleBook.adjusted [sampleTarget] sampleRules 1000 =
        .ok { r with trades := r.trades.map (Trade.adjusted sampleBook), splitsApplied := [] } := by
  obtain ⟨r, h⟩ := sample_returns
  exact ⟨r, h, simulate_adjusted sampleBook [sampleTarget] sampleRules 1000 (by decide)
    (by decide +kernel) r h⟩

end TrueAlpha.Backtest
