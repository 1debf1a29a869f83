import TrueAlpha.Backtest.RebalanceTarget

/-!
# The waiting orders of a run

After its one fill a run only buys the orders that wait, in order, with the cash that is left.  So an order is bought exactly
when what the orders before it left still pays the floor and its fee (`Purse`).
-/

namespace TrueAlpha.Backtest

/-- The cash after orders for `ordered`, fees included: accounted for while `unit` is left, and less is left after that. -/
structure Purse (start unit ordered cash : ℚ) : Prop where
  rich : unit ≤ start - ordered → cash = start - ordered
  poor : start - ordered < unit → cash < unit

theorem purse_start (start unit : ℚ) : Purse start unit 0 start where
  rich _ := (sub_zero _).symm
  poor h := by rwa [sub_zero] at h

variable {unit ordered cash : ℚ}

theorem Purse.unit_le_iff {start : ℚ} (h : Purse start unit ordered cash) : unit ≤ cash ↔ unit ≤ start - ordered := by
  constructor
  · intro hle
    by_contra hnot
    exact absurd (h.poor (not_le.1 hnot)) (not_lt.2 hle)
  · intro hle
    rw [h.rich hle]
    exact hle

theorem Purse.pay {start cost : ℚ} (h : Purse start unit ordered cash) (hunit : 0 < unit) (hle : unit ≤ cash) :
    Purse start unit (ordered + cost) (if cost < cash then cash - cost else 0) := by
  rw [h.rich (h.unit_le_iff.1 hle)]
  constructor
  · intro hrich
    have hlt : cost < start - ordered := by linarith
    rw [if_pos hlt]
    ring
  · intro hpoor
    split_ifs
    · linarith
    · exact hunit

theorem Purse.drop {start cost : ℚ} (h : Purse start unit ordered cash) (hcost : 0 ≤ cost) (hlt : cash < unit) :
    Purse start unit (ordered + cost) cash where
  rich hrich := absurd (h.unit_le_iff.2 (by linarith)) (not_le.2 hlt)
  poor _ := hlt

variable {session : Date}

section Spend

variable {floor : ℚ} {rules : ExecutionRules}

theorem need_single (rate : ℚ) (order : Order) : need rate [order] = order.amount * (1 + rate) := by
  simp [need]

theorem amount_mul_spendScale (cash : ℚ) {rate : ℚ} (order : Order) (hamount : 0 < order.amount) (hrate : 0 ≤ rate) :
    order.amount * spendScale cash rate [order] =
      if order.amount * (1 + rate) < cash then order.amount else cash / (1 + rate) := by
  have hone : (1 + rate) ≠ 0 := by positivity
  unfold spendScale
  rw [need_single]
  split_ifs
  · rw [mul_one]
  · field_simp

theorem cashAfter_single (cash : ℚ) {rate : ℚ} (order : Order) (hamount : 0 < order.amount) (hrate : 0 ≤ rate) :
    cashAfter cash rate [order] =
      if order.amount * (1 + rate) < cash then cash - order.amount * (1 + rate) else 0 := by
  have hone : (1 + rate) ≠ 0 := by positivity
  unfold cashAfter spendScale
  rw [need_single]
  split_ifs
  · rw [one_mul]
  · rw [div_mul_cancel₀ _ (by positivity), sub_self]

theorem spend_single (hfloor : 0 < floor) (hrate : 0 ≤ rules.costRate) {book book' : Book} {order : Order}
    {value : ℚ} {cutoffAt : Instant} {trades : List Trade} (hamount : floor ≤ order.amount)
    (h : spend floor book [order] rules cutoffAt session value = .ok (book', trades)) :
    (floor * (1 + rules.costRate) ≤ book.cash ∧ (∃ trade, trades = [trade] ∧ trade.symbol = order.symbol ∧ trade.side = .buy) ∧
        book'.cash = if order.amount * (1 + rules.costRate) < book.cash then
          book.cash - order.amount * (1 + rules.costRate) else 0) ∨
      (book.cash < floor * (1 + rules.costRate) ∧ trades = [] ∧ book'.cash = book.cash) := by
  have hpos : 0 < order.amount := lt_of_lt_of_le hfloor hamount
  have hone : 0 < 1 + rules.costRate := by linarith
  have hnotional := amount_mul_spendScale book.cash order hpos hrate
  have hafter := cashAfter_single book.cash order hpos hrate
  obtain ⟨-, hfold⟩ := (spend_eq_ok_iff (List.cons_ne_nil _ _)).1 h
  obtain ⟨mid, hleg, hmid⟩ := foldlM_cons_eq_ok.1 hfold
  obtain rfl := foldlM_nil_eq_ok.1 hmid
  -- the floor is reached exactly when the cash pays it and its fee
  have hlarge : floor ≤ order.amount * spendScale book.cash rules.costRate [order] ↔
      floor * (1 + rules.costRate) ≤ book.cash := by
    rw [hnotional]
    split_ifs with hfull
    · refine iff_of_true hamount (le_trans ?_ hfull.le)
      exact mul_le_mul_of_nonneg_right hamount hone.le
    · rw [le_div_iff₀ hone]
  cases buyLeg_eq_ok_iff.1 hleg with
  | dropped small =>
    have hpoor : book.cash < floor * (1 + rules.costRate) := not_le.1 fun hle =>
      absurd (hlarge.2 hle) (not_le.2 small)
    refine .inr ⟨hpoor, rfl, ?_⟩
    -- the cash that was taken is given back
    change cashAfter book.cash rules.costRate [order] + (order.amount * spendScale book.cash rules.costRate [order] +
        order.amount * spendScale book.cash rules.costRate [order] * rules.costRate) = book.cash
    rw [cashAfter, need_single]
    ring
  | filled large =>
    exact .inl ⟨hlarge.1 large, ⟨_, rfl, rfl, rfl⟩, hafter⟩

end Spend

def Bought (trades : List Trade) (symbol : Symbol) : Prop := ∃ trade ∈ trades, trade.symbol = symbol ∧ trade.side = .buy

variable {symbol : Symbol}

theorem bought_append {l₁ l₂ : List Trade} : Bought (l₁ ++ l₂) symbol ↔ Bought l₁ symbol ∨ Bought l₂ symbol := by
  simp only [Bought, List.mem_append, or_and_right, exists_or]

def orderedBefore (amount : Symbol → ℚ) (symbols : List Symbol) (symbol : Symbol) : ℚ :=
  ((symbols.takeWhile fun s => s ≠ symbol).map amount).sum

theorem takeWhile_ne_of_mem {symbols : List Symbol} (h : symbol ∈ symbols) (rest : List Symbol) :
    ((symbols ++ rest).takeWhile fun s => s ≠ symbol) = symbols.takeWhile fun s => s ≠ symbol := by
  induction symbols with
  | nil => cases h
  | cons s symbols ih =>
    by_cases hs : s = symbol
    · simp [hs]
    · have hmem : symbol ∈ symbols := (List.mem_cons.1 h).resolve_left (Ne.symm hs)
      rw [List.cons_append, List.takeWhile_cons_of_pos (by simpa using hs),
        List.takeWhile_cons_of_pos (by simpa using hs), ih hmem]

theorem takeWhile_ne_of_not_mem {symbols : List Symbol} (h : symbol ∉ symbols) (rest : List Symbol) :
    ((symbols ++ symbol :: rest).takeWhile fun s => s ≠ symbol) = symbols := by
  rw [List.takeWhile_append_of_pos, List.takeWhile_cons_of_neg (by simp), List.append_nil]
  intro s hs
  simpa using fun heq : s = symbol => h (heq ▸ hs)

/-- A symbol was bought at the fill (`Filled`), or when the orders before it left enough. -/
structure Late (amount : Symbol → ℚ) (floor rate start : ℚ) (Filled Waits : Symbol → Prop)
    (taken : List Symbol) (cash : ℚ) (pending : Dict Symbol Pending) (trades : List Trade)
    (deferred : List DeferredFill) : Prop where
  keys : ∀ symbol, symbol ∈ pending.keys ↔ Waits symbol
  amounts : ∀ symbol order, pending.get? symbol = some order → order.amount = amount symbol ∧ floor ≤ amount symbol
  taken_not : ∀ symbol ∈ taken, ¬ Waits symbol
  purse : Purse start (floor * (1 + rate)) ((taken.map amount).sum * (1 + rate)) cash
  deferred : deferred.map DeferredFill.symbol = taken
  bought : ∀ symbol, Bought trades symbol ↔ Filled symbol ∨
    (symbol ∈ taken ∧ floor * (1 + rate) ≤ start - orderedBefore amount taken symbol * (1 + rate))

variable {state state' : RunState} {sessions : List Date} {waiting taken : List Symbol}

section Late

variable {amount : Symbol → ℚ} {floor start : ℚ} {Filled : Symbol → Prop} {rules : ExecutionRules}

variable {taken : List Symbol} {pending : Dict Symbol Pending} {trades : List Trade} {deferred : List DeferredFill}
  {session : Date}

theorem Late.take (hfloor : 0 < floor) (hrate : 0 ≤ rules.costRate) {Waits : Symbol → Prop} {book book' : Book}
    {made : List Trade}
    (h : Late amount floor rules.costRate start Filled Waits taken book.cash pending trades deferred) {order : Pending} (horder : pending.get? symbol = some order) {price value : ℚ}
    (hspend : spend floor book [⟨symbol, price, order.amount⟩] rules order.cutoffAt session value = .ok (book', made)) :
    Late amount floor rules.costRate start Filled (fun s => Waits s ∧ s ≠ symbol) (taken ++ [symbol])
      book'.cash (pending.erase symbol) (trades ++ made)
      (deferred ++ [⟨symbol, order.cutoffAt, order.orderedSession, session⟩]) := by
  obtain ⟨hamount, hlarge⟩ := h.amounts symbol order horder
  have hwaits : Waits symbol := (h.keys symbol).1 ((Dict.mem_keys_iff _ _).2 ⟨order, horder⟩)
  have hnew : symbol ∉ taken := fun hmem => h.taken_not symbol hmem hwaits
  have hone : 0 < 1 + rules.costRate := by linarith
  have hunit : 0 < floor * (1 + rules.costRate) := mul_pos hfloor hone
  have hsum : ((taken ++ [symbol]).map amount).sum * (1 + rules.costRate) =
      (taken.map amount).sum * (1 + rules.costRate) + order.amount * (1 + rules.costRate) := by
    rw [List.map_append, List.sum_append, List.map_singleton, List.sum_singleton, hamount]
    ring
  have hbefore : orderedBefore amount (taken ++ [symbol]) symbol = (taken.map amount).sum := by
    rw [orderedBefore, takeWhile_ne_of_not_mem hnew]
  have hordered : floor ≤ (Order.mk symbol price order.amount).amount := by
    change floor ≤ order.amount
    rw [hamount]
    exact hlarge
  have hspent := spend_single hfloor hrate hordered hspend
  have hmade : ∀ s, Bought made s ↔
      s = symbol ∧ floor * (1 + rules.costRate) ≤ start - (taken.map amount).sum * (1 + rules.costRate) := by
    intro s
    rw [← h.purse.unit_le_iff]
    rcases hspent with ⟨hrich, ⟨trade, rfl, hsymbol, hside⟩, -⟩ | ⟨hpoor, rfl, -⟩
    · constructor
      · rintro ⟨t, ht, rfl, -⟩
        rw [List.mem_singleton.1 ht]
        exact ⟨hsymbol, hrich⟩
      · rintro ⟨rfl, -⟩
        exact ⟨trade, List.mem_singleton_self _, hsymbol, hside⟩
    · constructor
      · rintro ⟨t, ht, -⟩
        cases ht
      · rintro ⟨-, hle⟩
        exact absurd hpoor (not_lt.2 hle)
  refine ⟨fun s => ?_, fun s o ho => ?_, fun s hs => ?_, ?_, ?_, fun s => ?_⟩
  · rw [Dict.mem_keys_iff, Dict.get?_erase]
    split_ifs with heq
    · simp [heq]
    · rw [← Dict.mem_keys_iff, h.keys]
      exact (and_iff_left (Ne.symm heq)).symm
  · rw [Dict.get?_erase] at ho
    split_ifs at ho
    exact h.amounts s o ho
  · rcases List.mem_append.1 hs with hs | hs
    · exact fun hw => h.taken_not s hs hw.1
    · exact fun hw => hw.2 (List.mem_singleton.1 hs)
  · rw [hsum]
    rcases hspent with ⟨hrich, -, hcash⟩ | ⟨hpoor, -, hcash⟩
    · rw [hcash]
      exact h.purse.pay hunit hrich
    · rw [hcash]
      refine h.purse.drop (mul_nonneg ?_ hone.le) hpoor
      rw [hamount]
      exact hfloor.le.trans hlarge
  · rw [List.map_append, h.deferred]
    rfl
  · rw [bought_append, h.bought, hmade, or_assoc]
    refine or_congr_right ?_
    by_cases hs : s = symbol
    · subst hs
      rw [hbefore]
      simp [hnew]
    · by_cases hmem : s ∈ taken
      · rw [orderedBefore, orderedBefore, takeWhile_ne_of_mem hmem]
        simp [hs]
      · simp [hs, hmem]

theorem Late.congr {Waits Waits' : Symbol → Prop} {rate cash : ℚ}
    (h : Late amount floor rate start Filled Waits taken cash pending trades deferred)
    (heq : ∀ symbol, Waits symbol ↔ Waits' symbol) :
    Late amount floor rate start Filled Waits' taken cash pending trades deferred where
  keys symbol := (h.keys symbol).trans (heq symbol)
  amounts := h.amounts
  taken_not symbol hmem := fun hw => h.taken_not symbol hmem ((heq symbol).2 hw)
  purse := h.purse
  deferred := h.deferred
  bought := h.bought

/-! ## The sessions after the fill -/

def opening (opens : Dict Symbol ℚ) (waiting : List Symbol) : List Symbol :=
  waiting.filter fun symbol => (opens.get? symbol).isSome

/-- The symbols of `waiting` that do not open on a session. -/
def stillWaiting (opens : Dict Symbol ℚ) (waiting : List Symbol) : List Symbol :=
  waiting.filter fun symbol => (opens.get? symbol).isNone

def PriceBook.lateSymbols (book : PriceBook) : List Date → List Symbol → List Symbol
  | [], _ => []
  | session :: sessions, waiting =>
    opening (book.opensOn session) waiting ++ book.lateSymbols sessions (stillWaiting (book.opensOn session) waiting)

theorem mem_lateSymbols {book : PriceBook} {waiting : List Symbol} : symbol ∈ book.lateSymbols sessions waiting ↔
      symbol ∈ waiting ∧ ∃ session ∈ sessions, ((book.opensOn session).get? symbol).isSome := by
  induction sessions generalizing waiting with
  | nil => simp [PriceBook.lateSymbols]
  | cons session sessions ih =>
    rw [PriceBook.lateSymbols, List.mem_append, ih]
    unfold opening stillWaiting
    rw [List.mem_filter, List.mem_filter]
    rcases hopen : (book.opensOn session).get? symbol with _ | p <;> simp [hopen]

theorem fillPending_late (hfloor : 0 < floor) (hrate : 0 ≤ rules.costRate) {waiting : List Symbol}
    (hsorted : waiting.Pairwise (· < ·)) {book : Book}
    (h : Late amount floor rules.costRate start Filled (· ∈ waiting) taken book.cash pending trades deferred)
    {opens : Dict Symbol ℚ} {late : PendingState}
    (hok : fillPending floor book pending session opens rules = .ok late) :
    Late amount floor rules.costRate start Filled (· ∈ stillWaiting opens waiting)
      (taken ++ opening opens waiting) late.book.cash late.pending (trades ++ late.trades)
      (deferred ++ late.deferred) := by
  have hkeys : sortedBy id pending.keys = waiting := by
    refine eq_of_strictSorted ?_ hsorted fun s => ?_
    · exact strictSorted_of_nodup (pairwise_sortedBy id _) ((perm_sortedBy id _).nodup_iff.2 pending.nodup)
    · rw [mem_sortedBy, h.keys]
  unfold fillPending at hok
  rw [hkeys] at hok
  -- after the symbols of `pre`, those of them that open have been taken
  have hinv := foldlM_inv (fun pre (state : PendingState) =>
    Late amount floor rules.costRate start Filled
      (fun s => s ∈ waiting ∧ ¬ (s ∈ pre ∧ (opens.get? s).isSome)) (taken ++ opening opens pre)
      state.book.cash state.pending (trades ++ state.trades) (deferred ++ state.deferred)) hok ?_ ?_
  · refine hinv.congr fun s => ?_
    unfold stillWaiting
    rw [List.mem_filter]
    cases opens.get? s <;> simp
  · have hnil : opening opens [] = [] := rfl
    rw [hnil, List.append_nil, List.append_nil, List.append_nil]
    exact h.congr fun s => by simp
  · intro pre symbol post state state' _ hstate hstep
    cases pendingStep_eq_ok_iff.1 hstep with
    | waiting hopen =>
      have hnone : opening opens (pre ++ [symbol]) = opening opens pre := by
        simp [opening, List.filter_append, hopen]
      rw [hnone]
      refine hstate.congr fun s => and_congr_right fun _ => not_congr ?_
      rw [List.mem_append, List.mem_singleton]
      constructor
      · exact fun hs => ⟨.inl hs.1, hs.2⟩
      · rintro ⟨hs | rfl, hsome⟩
        · exact ⟨hs, hsome⟩
        · rw [hopen] at hsome
          cases hsome
    | @filled price order book' made hopen horder priced hspend =>
      have hsome : opening opens (pre ++ [symbol]) = opening opens pre ++ [symbol] := by
        simp [opening, List.filter_append, hopen]
      have htaken := hstate.take hfloor hrate horder hspend
      rw [hsome, ← List.append_assoc, ← List.append_assoc, ← List.append_assoc]
      refine htaken.congr fun s => ?_
      rw [List.mem_append, List.mem_singleton, and_assoc]
      refine and_congr_right fun _ => ?_
      constructor
      · rintro ⟨hnot, hne⟩ ⟨hs | rfl, hopens⟩
        · exact hnot ⟨hs, hopens⟩
        · exact hne rfl
      · intro hnot
        refine ⟨fun hs => hnot ⟨.inl hs.1, hs.2⟩, fun heq => hnot ⟨.inr heq, ?_⟩⟩
        rw [heq, hopen]
        rfl

structure SplitOnly (state state' : RunState) : Prop where
  cash_eq : state'.book.cash = state.book.cash
  pending_eq : state'.pending = state.pending
  trades_eq : state'.trades = state.trades
  fills_eq : state'.fills = state.fills
  deferred_eq : state'.deferred = state.deferred

variable {state : RunState}

theorem splits_splitOnly {events : List SplitEvent} {split : RunState} (h : events.foldlM splitStep state = .ok split) :
    SplitOnly state split := by
  refine foldlM_inv (fun _ s => SplitOnly state s) h ⟨rfl, rfl, rfl, rfl, rfl⟩ ?_
  intro pre event post s s' _ hinv hstep
  obtain ⟨book, record, happly, rfl⟩ := splitStep_eq_ok_iff.1 hstep
  obtain ⟨-, -, hcash⟩ := applySplit_eq_ok_iff.1 happly
  exact ⟨hcash.trans hinv.cash_eq, hinv.pending_eq, hinv.trades_eq, hinv.fills_eq, hinv.deferred_eq⟩

structure ValueOnly (state state' : RunState) : Prop where
  book_eq : state'.book = state.book
  pending_eq : state'.pending = state.pending
  trades_eq : state'.trades = state.trades
  fills_eq : state'.fills = state.fills
  deferred_eq : state'.deferred = state.deferred

theorem valueSession_valueOnly {capital : ℚ} {first : Date} {state' : RunState}
    (h : valueSession capital first state session = .ok state') : ValueOnly state state' := by
  rcases valueSession_eq_ok_iff.1 h with ⟨-, rfl⟩ | ⟨-, -, -, -, -, rfl⟩ <;> exact ⟨rfl, rfl, rfl, rfl, rfl⟩

def RunState.Late (state : RunState) (amount : Symbol → ℚ) (floor rate start : ℚ)
    (Filled Waits : Symbol → Prop) (taken : List Symbol) : Prop :=
  Backtest.Late amount floor rate start Filled Waits taken state.book.cash state.pending state.trades
    state.deferred

variable {book : PriceBook} {due : Dict Date TargetPortfolio} {capital : ℚ} {first : Date}

theorem sessionStep_late (hfloor : 0 < floor) (hrate : 0 ≤ rules.costRate) (hsorted : waiting.Pairwise (· < ·))
    (hdue : due.get? session = none)
    (h : state.Late amount floor rules.costRate start Filled (· ∈ waiting) taken)
    (hok : sessionStep floor book due rules capital first state session = .ok state') :
    state'.Late amount floor rules.costRate start Filled (· ∈ stillWaiting (book.opensOn session) waiting)
        (taken ++ opening (book.opensOn session) waiting) ∧
      state'.fills = state.fills := by
  obtain ⟨split, traded, hsplit, htrade, hvalue⟩ := sessionStep_eq_ok_iff.1 hok
  have hsplits := splits_splitOnly hsplit
  have hvalued := valueSession_valueOnly hvalue
  rw [hdue] at htrade
  cases htrade with
  | @filledPending late hlate =>
    have hstart : Backtest.Late amount floor rules.costRate start Filled (· ∈ waiting) taken
        (split.book.mark (book.opensOn session)).cash split.pending split.trades split.deferred := by
      change Backtest.Late amount floor rules.costRate start Filled (· ∈ waiting) taken split.book.cash
        split.pending split.trades split.deferred
      rw [hsplits.cash_eq, hsplits.pending_eq, hsplits.trades_eq, hsplits.deferred_eq]
      exact h
    refine ⟨?_, hvalued.fills_eq.trans hsplits.fills_eq⟩
    unfold RunState.Late
    rw [hvalued.book_eq, hvalued.pending_eq, hvalued.trades_eq, hvalued.deferred_eq]
    exact fillPending_late hfloor hrate hsorted hstart hlate

theorem sessions_late (hfloor : 0 < floor) (hrate : 0 ≤ rules.costRate) (hdue : ∀ session ∈ sessions, due.get? session = none)
    (hsorted : waiting.Pairwise (· < ·))
    (h : state.Late amount floor rules.costRate start Filled (· ∈ waiting) taken)
    (hok : sessions.foldlM (sessionStep floor book due rules capital first) state = .ok state') :
    ∃ Waits, state'.Late amount floor rules.costRate start Filled Waits
        (taken ++ book.lateSymbols sessions waiting) ∧ state'.fills = state.fills := by
  induction sessions generalizing state waiting taken with
  | nil =>
    obtain rfl := foldlM_nil_eq_ok.1 hok
    rw [PriceBook.lateSymbols, List.append_nil]
    exact ⟨_, h, rfl⟩
  | cons session sessions ih =>
    obtain ⟨mid, hstep, hrest⟩ := foldlM_cons_eq_ok.1 hok
    obtain ⟨hmid, hfills⟩ := sessionStep_late hfloor hrate hsorted (hdue session List.mem_cons_self) h hstep
    obtain ⟨Waits, hlate, hfills'⟩ := ih (fun s hs => hdue s (List.mem_cons_of_mem _ hs))
      (hsorted.filter _) hmid hrest
    rw [PriceBook.lateSymbols, ← List.append_assoc]
    exact ⟨Waits, hlate, hfills'.trans hfills⟩

theorem cash_of_idle_session (h : Idle state) (hdue : due.get? session = none)
    (hok : sessionStep floor book due rules capital first state session = .ok state') :
    state'.book.cash = state.book.cash := by
  obtain ⟨split, traded, hsplit, htrade, hvalue⟩ := sessionStep_eq_ok_iff.1 hok
  have hidle : Idle split := foldlM_inv (fun _ s => Idle s) hsplit h fun _ _ _ _ _ _ hs hstep => hs.splitStep hstep
  rw [(valueSession_valueOnly hvalue).book_eq, ← (splits_splitOnly hsplit).cash_eq]
  rw [hdue] at htrade
  cases htrade with
  | @filledPending late hlate =>
    rw [hidle.pending] at hlate
    obtain rfl := foldlM_nil_eq_ok.1 hlate
    rfl

theorem sessions_idle (hdue : ∀ session ∈ sessions, due.get? session = none)
    (hfirst : ∀ session ∈ sessions, session < first) {state' : RunState} (h : Idle state)
    (hok : sessions.foldlM (sessionStep floor book due rules capital first) state = .ok state') :
    Idle state' ∧ state'.book.cash = state.book.cash := by
  refine foldlM_inv (fun _ s => Idle s ∧ s.book.cash = state.book.cash) hok ⟨h, rfl⟩ ?_
  rintro pre session post s s' hl ⟨hidle, hcash⟩ hstep
  have hmem : session ∈ sessions := by rw [hl]; simp
  exact ⟨hidle.sessionStep (hdue session hmem) (hfirst session hmem) hstep,
    (cash_of_idle_session hidle (hdue session hmem) hstep).trans hcash⟩

end Late

end TrueAlpha.Backtest
