import TrueAlpha.Backtest.EngineSpec

/-!
# The records of a session

Every trade carries the session it was made on, and the cutoff of the target or of the waiting order that asked for it. A
session only appends to the records of the run.
-/

namespace TrueAlpha.Backtest

def Trade.Of (cutoffAt : Instant) (session : Date) (trade : Trade) : Prop := trade.cutoffAt = cutoffAt ∧ trade.session = session

theorem forall_mem_concat {α : Type} {P : α → Prop} {l : List α} {a : α} (hl : ∀ x ∈ l, P x)
    (ha : P a) : ∀ x ∈ l ++ [a], P x := by
  intro x hx
  rcases List.mem_append.1 hx with hx | hx
  · exact hl x hx
  · rw [List.mem_singleton.1 hx]
    exact ha

variable {floor : ℚ} {book : Book} {rules : ExecutionRules} {session : Date} {value : ℚ}

theorem spend_of {book' : Book} {orders : List Order} {cutoffAt : Instant} {trades : List Trade}
    (h : spend floor book orders rules cutoffAt session value = .ok (book', trades)) :
    ∀ trade ∈ trades, trade.Of cutoffAt session := by
  by_cases hne : orders = []
  · subst hne
    rw [spend_nil] at h
    cases h
    simp
  · refine foldlM_inv (fun _ state => ∀ trade ∈ state.2, trade.Of cutoffAt session)
      ((spend_eq_ok_iff hne).1 h).2 (by simp) ?_
    intro pre leg post state state' _ hinv hleg
    cases buyLeg_eq_ok_iff.1 hleg with
    | dropped => exact hinv
    | filled => exact forall_mem_concat hinv ⟨rfl, rfl⟩

variable {opens : Dict Symbol ℚ} {rules : ExecutionRules} {session : Date} {target : TargetPortfolio} {floor : ℚ} {book : Book}

theorem sellLoop_of {sold : SellState} (h : sellLoop floor target session opens rules value book = .ok sold) :
    ∀ trade ∈ sold.trades, trade.Of target.cutoffAt session := by
  refine foldlM_inv (fun _ state => ∀ trade ∈ state.trades, trade.Of target.cutoffAt session) h
    (by simp) ?_
  intro pre symbol post state state' _ hinv hstep
  cases sellStep_eq_ok_iff.1 hstep with
  | kept => exact hinv
  | unfilled => exact hinv
  | sold => exact forall_mem_concat hinv ⟨rfl, rfl⟩

theorem rebalance_of {made : Traded} {fill : Fill} (h : rebalance floor book target session opens rules = .ok (made, fill)) :
    ∀ trade ∈ made.trades, trade.Of target.cutoffAt session := by
  obtain ⟨-, -, sold, trades, hsold, hspend, -, htrades, -⟩ := rebalance_eq_ok_iff.1 h
  intro trade htrade
  rw [htrades] at htrade
  rcases List.mem_append.1 htrade with htrade | htrade
  · exact sellLoop_of hsold trade htrade
  · exact spend_of hspend trade htrade

theorem rebalance_pending {made : Traded} {fill : Fill}
    (h : rebalance floor book target session opens rules = .ok (made, fill)) {symbol : Symbol} {order : Pending}
    (horder : made.pending.get? symbol = some order) :
    order.cutoffAt = target.cutoffAt ∧ order.orderedSession = session := by
  obtain ⟨-, -, sold, trades, -, -, hpending, -, -⟩ := rebalance_eq_ok_iff.1 h
  rw [hpending] at horder
  have hinv := (orderLoop_inv floor target session opens rules (book.mark opens).value sold).pending
    symbol order horder
  exact ⟨hinv.1, hinv.2.1⟩

/-- `fillPending` records trades of this session, each for a waiting order; the orders that still wait are old. -/
structure LateOf (pending : Dict Symbol Pending) (session : Date) (state : PendingState) : Prop where
  trades : ∀ trade ∈ state.trades, ∃ symbol order, pending.get? symbol = some order ∧ trade.Of order.cutoffAt session
  deferred : ∀ fill ∈ state.deferred, fill.filledSession = session
  pending : ∀ symbol order, state.pending.get? symbol = some order → pending.get? symbol = some order

variable {pending : Dict Symbol Pending}

theorem fillPending_of {late : PendingState} (h : fillPending floor book pending session opens rules = .ok late) :
    LateOf pending session late := by
  refine foldlM_inv (fun _ state => LateOf pending session state) h
    ⟨by simp, by simp, fun _ _ h => h⟩ ?_
  intro pre symbol post state state' _ hinv hstep
  cases pendingStep_eq_ok_iff.1 hstep with
  | waiting => exact hinv
  | @filled price order book made hopen horder priced hspend =>
    refine ⟨?_, forall_mem_concat hinv.deferred rfl, ?_⟩
    · intro trade htrade
      rcases List.mem_append.1 htrade with htrade | htrade
      · exact hinv.trades trade htrade
      · exact ⟨symbol, order, hinv.pending symbol order horder, spend_of hspend trade htrade⟩
    · intro s o ho
      change (state.pending.erase symbol).get? s = some o at ho
      rw [Dict.get?_erase] at ho
      split_ifs at ho
      exact hinv.pending s o ho

structure Appends (session : Date) (state traded : RunState) (made : List Trade) (fills : List Fill)
    (deferred : List DeferredFill) : Prop where
  trades_eq : traded.trades = state.trades ++ made
  fills_eq : traded.fills = state.fills ++ fills
  deferred_eq : traded.deferred = state.deferred ++ deferred
  peak_eq : traded.peak = state.peak
  applied_eq : traded.applied = state.applied
  valuations_eq : traded.valuations = state.valuations
  made_session : ∀ trade ∈ made, trade.session = session
  fills_session : ∀ fill ∈ fills, fill.session = some session
  deferred_session : ∀ fill ∈ deferred, fill.filledSession = session

variable {due : Option TargetPortfolio} {state traded : RunState}

theorem TradeSession.appends
    (h : TradeSession floor opens rules state session due traded) :
    ∃ made fills deferred, Appends session state traded made fills deferred := by
  cases h with
  | @rebalanced target made fill h =>
    refine ⟨made.trades, [fill], [], rfl, rfl, (List.append_nil _).symm, rfl, rfl, rfl,
      fun trade ht => (rebalance_of h trade ht).2, ?_, by simp⟩
    obtain ⟨-, -, sold, trades, -, -, -, -, rfl⟩ := rebalance_eq_ok_iff.1 h
    simp
  | @filledPending late h =>
    have hlate := fillPending_of h
    refine ⟨late.trades, [], late.deferred, rfl, (List.append_nil _).symm, rfl, rfl, rfl, rfl, ?_,
      by simp, hlate.deferred⟩
    intro trade ht
    obtain ⟨_, _, -, hof⟩ := hlate.trades trade ht
    exact hof.2

/-! ## The last prices

The trades of a session do not touch the last prices: only the opens, the closes and the splits do. -/

theorem spend_last {book' : Book} {orders : List Order} {cutoffAt : Instant} {trades : List Trade}
    (h : spend floor book orders rules cutoffAt session value = .ok (book', trades)) :
    book'.last = book.last := by
  by_cases hne : orders = []
  · subst hne
    rw [spend_nil] at h
    cases h
    rfl
  · refine foldlM_inv (fun _ (state : Book × List Trade) => state.1.last = book.last)
      ((spend_eq_ok_iff hne).1 h).2 rfl ?_
    intro pre leg post state state' _ hinv hleg
    cases buyLeg_eq_ok_iff.1 hleg with
    | dropped => exact hinv
    | filled => exact hinv

theorem sellLoop_last {sold : SellState} (h : sellLoop floor target session opens rules value book = .ok sold) :
    sold.book.last = book.last := by
  refine foldlM_inv (fun _ (state : SellState) => state.book.last = book.last) h rfl ?_
  intro pre symbol post state state' _ hinv hstep
  cases sellStep_eq_ok_iff.1 hstep with
  | kept => exact hinv
  | unfilled => exact hinv
  | sold => exact hinv

theorem fillPending_last {late : PendingState} (h : fillPending floor book pending session opens rules = .ok late) :
    late.book.last = book.last := by
  refine foldlM_inv (fun _ (state : PendingState) => state.book.last = book.last) h rfl ?_
  intro pre symbol post state state' _ hinv hstep
  cases pendingStep_eq_ok_iff.1 hstep with
  | waiting => exact hinv
  | filled hopen horder priced hspend => exact (spend_last hspend).trans hinv

theorem TradeSession.last_eq
    (h : TradeSession floor opens rules state session due traded) :
    traded.book.last = state.book.last.update opens := by
  cases h with
  | rebalanced h =>
    obtain ⟨-, -, sold, trades, hsold, hspend, -, -, -⟩ := rebalance_eq_ok_iff.1 h
    exact (spend_last hspend).trans (sellLoop_last hsold)
  | filledPending h => exact fillPending_last h

/-- The run from `state` to `state'` only appended records, all of dates with `p`. -/
def Grew (p : Date → Prop) (state state' : RunState) : Prop := ∃ trades fills applied deferred valuations,
    state'.trades = state.trades ++ trades ∧ state'.fills = state.fills ++ fills ∧
    state'.applied = state.applied ++ applied ∧ state'.deferred = state.deferred ++ deferred ∧
    state'.valuations = state.valuations ++ valuations ∧
    (∀ trade ∈ trades, p trade.session) ∧ (∀ fill ∈ fills, ∃ day, fill.session = some day ∧ p day) ∧
    (∀ split ∈ applied, p split.exDate) ∧ (∀ fill ∈ deferred, p fill.filledSession) ∧
    ∀ v ∈ valuations, p v.session

theorem Grew.refl (p : Date → Prop) (state : RunState) : Grew p state state :=
  ⟨[], [], [], [], [], by simp, by simp, by simp, by simp, by simp, by simp, by simp, by simp, by simp,
    by simp⟩

theorem forall_mem_append {α : Type} {P : α → Prop} {l₁ l₂ : List α} (h₁ : ∀ x ∈ l₁, P x)
    (h₂ : ∀ x ∈ l₂, P x) : ∀ x ∈ l₁ ++ l₂, P x := by
  intro x hx
  rcases List.mem_append.1 hx with hx | hx
  · exact h₁ x hx
  · exact h₂ x hx

theorem Grew.trans {p : Date → Prop} {a b c : RunState} (h : Grew p a b) (h' : Grew p b c) : Grew p a c := by
  obtain ⟨t, f, s, d, v, ht, hf, hs, hd, hv, pt, pf, ps, pd, pv⟩ := h
  obtain ⟨t', f', s', d', v', ht', hf', hs', hd', hv', pt', pf', ps', pd', pv'⟩ := h'
  refine ⟨t ++ t', f ++ f', s ++ s', d ++ d', v ++ v', ?_, ?_, ?_, ?_, ?_, forall_mem_append pt pt',
    forall_mem_append pf pf', forall_mem_append ps ps', forall_mem_append pd pd',
    forall_mem_append pv pv'⟩
  · rw [ht', ht, List.append_assoc]
  · rw [hf', hf, List.append_assoc]
  · rw [hs', hs, List.append_assoc]
  · rw [hd', hd, List.append_assoc]
  · rw [hv', hv, List.append_assoc]

variable {state state' : RunState} {capital : ℚ} {first : Date} {due : Dict Date TargetPortfolio}

theorem Grew.mono {p q : Date → Prop} (h : Grew p state state') (hpq : ∀ day, p day → q day) : Grew q state state' := by
  obtain ⟨t, f, s, d, v, ht, hf, hs, hd, hv, pt, pf, ps, pd, pv⟩ := h
  refine ⟨t, f, s, d, v, ht, hf, hs, hd, hv, fun x hx => hpq _ (pt x hx), fun x hx => ?_,
    fun x hx => hpq _ (ps x hx), fun x hx => hpq _ (pd x hx), fun x hx => hpq _ (pv x hx)⟩
  obtain ⟨day, hday, hp⟩ := pf x hx
  exact ⟨day, hday, hpq day hp⟩

theorem splitStep_grew {event : SplitEvent} (h : splitStep state event = .ok state') : Grew (· = event.exDate) state state' := by
  obtain ⟨b, record, happly, rfl⟩ := splitStep_eq_ok_iff.1 h
  refine ⟨[], [], record.toList, [], [], by simp, by simp, rfl, by simp, by simp, by simp, by simp, ?_,
    by simp, by simp⟩
  obtain ⟨-, hshares, -⟩ := applySplit_eq_ok_iff.1 happly
  rcases splitShares_eq_ok_iff.1 hshares with ⟨-, -, rfl⟩ | ⟨held, -, -, -, -, rfl⟩ <;> simp

theorem Appends.grew {traded : RunState} {made : List Trade} {fills : List Fill} {deferred : List DeferredFill}
    (h : Appends session state traded made fills deferred) :
    Grew (· = session) state traded :=
  ⟨made, fills, [], deferred, [], h.trades_eq, h.fills_eq, by simp [h.applied_eq], h.deferred_eq,
    by simp [h.valuations_eq], h.made_session, fun fill hfill => ⟨session, h.fills_session fill hfill, rfl⟩,
    by simp, h.deferred_session, by simp⟩

theorem valueSession_grew (h : valueSession capital first state session = .ok state') : Grew (· = session) state state' := by
  rcases valueSession_eq_ok_iff.1 h with ⟨-, rfl⟩ | ⟨-, -, -, -, -, rfl⟩
  · exact Grew.refl _ _
  · exact ⟨[], [], [], [], _, by simp, by simp, by simp, by simp, rfl, by simp, by simp, by simp, by simp,
      by simp [valuationOf]⟩

theorem sessionStep_grew {book : PriceBook} (h : sessionStep floor book due rules capital first state session = .ok state') :
    Grew (· = session) state state' := by
  obtain ⟨split, traded, hsplit, htrade, hvalue⟩ := sessionStep_eq_ok_iff.1 h
  have hsplits : Grew (· = session) state split := by
    refine foldlM_inv (fun _ s => Grew (· = session) state s) hsplit (Grew.refl _ _) ?_
    intro pre event post s s' hl hgrew hstep
    have hmem : event ∈ book.splitsOn session := by rw [hl]; simp
    exact hgrew.trans ((splitStep_grew hstep).mono fun day hday => hday.trans (mem_splitsOn.1 hmem).2)
  obtain ⟨made, fills, deferred, happ⟩ := htrade.appends
  -- the close changes the last prices, which are no record
  have hclosed : Grew (· = session) (traded.close (book.closesOn session)) state' := valueSession_grew hvalue
  exact (hsplits.trans happ.grew).trans hclosed

theorem sessions_grew {book : PriceBook} {sessions : List Date}
    (h : sessions.foldlM (sessionStep floor book due rules capital first) state = .ok state') :
    Grew (· ∈ sessions) state state' := by
  refine foldlM_inv (fun _ s => Grew (· ∈ sessions) state s) h (Grew.refl _ _) ?_
  intro pre session post s s' hl hgrew hstep
  have hmem : session ∈ sessions := by rw [hl]; simp
  exact hgrew.trans ((sessionStep_grew hstep).mono fun day hday => hday ▸ hmem)

end TrueAlpha.Backtest
