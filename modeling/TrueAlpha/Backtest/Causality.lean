import TrueAlpha.Backtest.Records
import TrueAlpha.Backtest.Schedule

/-!
# No look-ahead

Two runs whose inputs agree up to a date have the same records up to it: later sessions only append records of later dates.
Every trade is on a session after the calendar day of its own cutoff.
-/

namespace TrueAlpha.Backtest

/-! ## Inputs that agree up to a date -/

def PriceBook.bar? (book : PriceBook) (symbol : Symbol) (day : Date) : Option Bar :=
  (book.bars.get? symbol).bind fun series => series.get? day

/-- The same symbols in order, the same sessions up to `s`, and equal bars and splits on each. -/
structure PriceBook.AgreeUntil (s : Date) (b₁ b₂ : PriceBook) : Prop where
  symbols : b₁.bars.keys = b₂.bars.keys
  sessions : ∀ day ≤ s, day ∈ b₁.sessions ↔ day ∈ b₂.sessions
  bars : ∀ symbol ∈ b₁.bars.keys, ∀ day ∈ b₁.sessions, day ≤ s → b₁.bar? symbol day = b₂.bar? symbol day
  splits : ∀ event, event.exDate ∈ b₁.sessions → event.exDate ≤ s → (event ∈ b₁.splits ↔ event ∈ b₂.splits)

def TargetPortfolio.FillsBy (s : Date) (book : PriceBook) (rules : ExecutionRules)
    (target : TargetPortfolio) : Prop :=
  ∃ session, fillSession book.sessions target.cutoffAt rules.lagSessions = .ok (some session) ∧ session ≤ s

/-- The two lists hold the same targets among those that fill on a session up to `s`. -/
def TargetsAgreeUntil (s : Date) (b₁ b₂ : PriceBook) (rules : ExecutionRules)
    (t₁ t₂ : List TargetPortfolio) : Prop :=
  ∀ target, (target ∈ t₁ ∧ target.FillsBy s b₁ rules) ↔ (target ∈ t₂ ∧ target.FillsBy s b₂ rules)

/-- The records of a run up to `s`. -/
def Simulation.until (s : Date) (r : Simulation) : Simulation where
  valuations := r.valuations.filter fun v => v.session ≤ s
  trades := r.trades.filter fun t => t.session ≤ s
  fills := r.fills.filter fun f => f.session.any fun session => session ≤ s
  splitsApplied := r.splitsApplied.filter fun a => a.exDate ≤ s
  deferredFills := r.deferredFills.filter fun d => d.filledSession ≤ s

namespace PriceBook.AgreeUntil

variable {s : Date} {b₁ b₂ : PriceBook} (h : b₁.AgreeUntil s b₂)
include h

theorem symm : b₂.AgreeUntil s b₁ where
  symbols := h.symbols.symm
  sessions day hday := (h.sessions day hday).symm
  bars symbol hsymbol day hday hle := (h.bars symbol (h.symbols ▸ hsymbol) day ((h.sessions day hle).2 hday) hle).symm
  splits event hevent hle := (h.splits event ((h.sessions _ hle).2 hevent) hle).symm

theorem sessions_filter : (b₁.sessions.filter fun day => day ≤ s) = b₂.sessions.filter fun day => day ≤ s := by
  refine eq_of_strictSorted ((strictSorted_sessions b₁).filter _) ((strictSorted_sessions b₂).filter _) ?_
  intro day
  rw [List.mem_filter, List.mem_filter]
  simp only [decide_eq_true_eq]
  exact and_congr_left fun hle => h.sessions day hle

variable {day : Date} (hday : day ∈ b₁.sessions) (hle : day ≤ s)
include hday hle

theorem prices_eq (side : Bar → Option ℚ) :
    (b₁.bars.filterMapVal fun _ series => (series.get? day).bind fun bar => price (side bar)) =
      b₂.bars.filterMapVal fun _ series => (series.get? day).bind fun bar => price (side bar) := by
  refine Dict.filterMapVal_eq h.symbols fun symbol => ?_
  have hassoc : ∀ b : PriceBook, ((b.bars.get? symbol).bind fun series =>
      (series.get? day).bind fun bar => price (side bar)) = (b.bar? symbol day).bind fun bar => price (side bar) := by
    intro b
    rw [PriceBook.bar?, Option.bind_assoc]
  rw [hassoc, hassoc]
  by_cases hsymbol : symbol ∈ b₁.bars.keys
  · rw [h.bars symbol hsymbol day hday hle]
  · have hsymbol' : symbol ∉ b₂.bars.keys := h.symbols ▸ hsymbol
    rw [PriceBook.bar?, PriceBook.bar?, (Dict.get?_eq_none_iff _ _).2 hsymbol, (Dict.get?_eq_none_iff _ _).2 hsymbol']

theorem opensOn_eq : b₁.opensOn day = b₂.opensOn day := prices_eq h hday hle Bar.open

theorem closesOn_eq : b₁.closesOn day = b₂.closesOn day := prices_eq h hday hle Bar.close

end PriceBook.AgreeUntil

theorem strictSorted_splitsOn (book : PriceBook) (session : Date) :
    (book.splitsOn session).Pairwise fun a b => a.symbol < b.symbol := by
  have hsorted : (book.splitsOn session).Pairwise fun a b => a.symbol ≤ b.symbol := pairwise_sortedBy _ _
  have hpairs : ((book.splitsOn session).map fun event => (event.symbol, event.exDate)).Nodup := by
    refine ((perm_sortedBy SplitEvent.symbol _).map _).nodup_iff.2 ?_
    exact book.nodup_splits.sublist (List.filter_sublist.map _)
  have hne := List.Pairwise.of_map _ (fun _ _ => id) hpairs
  refine List.Pairwise.imp_of_mem ?_ (hsorted.and hne)
  intro a b ha hb hab
  refine lt_of_le_of_ne hab.1 fun heq => hab.2 ?_
  rw [heq, (mem_splitsOn.1 ha).2, (mem_splitsOn.1 hb).2]

variable {b₁ b₂ : PriceBook} {s : Date} {day : Date}

theorem PriceBook.AgreeUntil.splitsOn_eq (h : b₁.AgreeUntil s b₂) (hday : day ∈ b₁.sessions) (hle : day ≤ s) : b₁.splitsOn day = b₂.splitsOn day := by
  refine eq_of_strictSorted_key SplitEvent.symbol (strictSorted_splitsOn b₁ day) (strictSorted_splitsOn b₂ day) ?_
  intro event
  rw [mem_splitsOn, mem_splitsOn]
  refine and_congr_left fun hdate => ?_
  subst hdate
  exact h.splits event hday hle

variable {session first : Date} {targets : List TargetPortfolio} {schedule : Schedule} {rules : ExecutionRules}

theorem PriceBook.AgreeUntil.fillDate_eq (h : b₁.AgreeUntil s b₂) {cutoffAt : Instant} (hle : session ≤ s)
    (hfill : fillDate b₁.sessions rules cutoffAt = some session) :
    fillDate b₂.sessions rules cutoffAt = some session := by
  have hsplit₁ := eq_filter_le_append (strictSorted_sessions b₁) s
  have hsplit₂ := eq_filter_le_append (strictSorted_sessions b₂) s
  have hsorted := strictSorted_sessions b₁
  rw [hsplit₁] at hfill hsorted
  rw [hsplit₂, ← h.sessions_filter]
  refine fillDate_append hsorted ?_ ?_ hle hfill
  · intro day hday
    simpa using (List.mem_filter.1 hday).2
  · intro day hday
    simpa using (List.mem_filter.1 hday).2

variable {target : TargetPortfolio}

section Schedules

variable {s : Date} {b₁ b₂ : PriceBook} (hbooks : b₁.AgreeUntil s b₂) {rules : ExecutionRules}
  {t₁ t₂ : List TargetPortfolio} (htargets : TargetsAgreeUntil s b₁ b₂ rules t₁ t₂)
  {s₁ s₂ : Schedule} (h₁ : scheduleTargets b₁.sessions t₁ rules = .ok s₁)
  (h₂ : scheduleTargets b₂.sessions t₂ rules = .ok s₂)
include hbooks htargets h₁ h₂

theorem due_of_agree (hlag : 1 ≤ rules.lagSessions) (hle : day ≤ s) (hdue : s₁.due.get? day = some target) :
    s₂.due.get? day = some target := by
  obtain ⟨hmem, hfill⟩ := (due_get?_iff h₁ day target).1 hdue
  have hboth := (htargets target).1 ⟨hmem, day, fillSession_eq_ok_some_iff.2 ⟨hlag, hfill⟩, hle⟩
  exact (due_get?_iff h₂ day target).2 ⟨hboth.1, hbooks.fillDate_eq hle hfill⟩

end Schedules

theorem lag_of_due {sessions : List Date} (h : scheduleTargets sessions targets rules = .ok schedule)
    (hdue : schedule.due.get? session = some target) :
    1 ≤ rules.lagSessions := by
  have hinv : schedule.due.keys = [] ∨ 1 ≤ rules.lagSessions := by
    refine foldlM_inv (fun _ schedule => schedule.due.keys = [] ∨ 1 ≤ rules.lagSessions) h (.inl rfl) ?_
    intro pre t post schedule schedule' _ _ hstep
    exact .inr (scheduleStep_eq_ok_iff.1 hstep).1
  rcases hinv with hnil | hlag
  · have hmem := (Dict.mem_keys_iff _ _).2 ⟨target, hdue⟩
    rw [hnil] at hmem
    cases hmem
  · exact hlag

variable {t₁ t₂ : List TargetPortfolio}

theorem TargetsAgreeUntil.symm (h : TargetsAgreeUntil s b₁ b₂ rules t₁ t₂) :
    TargetsAgreeUntil s b₂ b₁ rules t₂ t₁ := fun target => (h target).symm

variable {s₁ s₂ : Schedule}

theorem due_eq_of_agree (hbooks : b₁.AgreeUntil s b₂) (htargets : TargetsAgreeUntil s b₁ b₂ rules t₁ t₂)
    (h₁ : scheduleTargets b₁.sessions t₁ rules = .ok s₁)
    (h₂ : scheduleTargets b₂.sessions t₂ rules = .ok s₂) (hle : day ≤ s) :
    s₁.due.get? day = s₂.due.get? day := by
  refine Option.ext fun target => ⟨fun hdue => ?_, fun hdue => ?_⟩
  · exact due_of_agree hbooks htargets h₁ h₂ (lag_of_due h₁ hdue) hle hdue
  · exact due_of_agree hbooks.symm htargets.symm h₂ h₁ (lag_of_due h₂ hdue) hle hdue

theorem lt_first_iff (h : schedule.first = some first) (day : Date) :
    day < first ↔ ∀ session ≤ day, schedule.due.get? session = none := by
  obtain ⟨hmem, hmin⟩ := first_eq_some h
  constructor
  · intro hlt session hle
    refine (Dict.get?_eq_none_iff _ _).2 fun hkey => ?_
    exact absurd (hmin session hkey) (not_le.2 (lt_of_le_of_lt hle hlt))
  · intro hnone
    by_contra hge
    exact absurd hmem ((Dict.get?_eq_none_iff _ _).1 (hnone first (not_lt.1 hge)))

/-! ## The session loops up to `s` -/

/-- The records up to `s` of a state, in the order in which a run returns them. -/
def RunState.until (s : Date) (state : RunState) : Simulation :=
  Simulation.until s ⟨state.valuations, state.trades, sortedBy Fill.cutoffAt state.fills, state.applied, state.deferred⟩

theorem filter_append_of_not {α : Type} {p : α → Bool} (l₁ : List α) {l₂ : List α} (h : ∀ x ∈ l₂, ¬ p x) :
    (l₁ ++ l₂).filter p = l₁.filter p := by
  rw [List.filter_append, List.filter_eq_nil_iff.2 h, List.append_nil]

variable {state state' : RunState} {floor capital : ℚ} {book : PriceBook} {due : Dict Date TargetPortfolio}

theorem Grew.until_eq (h : Grew (s < ·) state state') : state'.until s = state.until s := by
  obtain ⟨t, f, a, d, v, ht, hf, ha, hd, hv, pt, pf, pa, pd, pv⟩ := h
  unfold RunState.until Simulation.until
  simp only [filter_sortedBy, ht, hf, ha, hd, hv]
  have hfills : ∀ fill ∈ f, ¬ (fill.session.any fun session => decide (session ≤ s)) = true := by
    intro x hx
    obtain ⟨day, hday, hlt⟩ := pf x hx
    simpa [hday] using hlt
  rw [filter_append_of_not state.fills hfills,
    filter_append_of_not state.trades fun x hx => by simpa using pt x hx,
    filter_append_of_not state.applied fun x hx => by simpa using pa x hx,
    filter_append_of_not state.deferred fun x hx => by simpa using pd x hx,
    filter_append_of_not state.valuations fun x hx => by simpa using pv x hx]

theorem sessionStep_congr {d₁ d₂ : Dict Date TargetPortfolio}
    {f₁ f₂ : Date} (state : RunState) (hsplits : b₁.splitsOn session = b₂.splitsOn session)
    (hopens : b₁.opensOn session = b₂.opensOn session) (hcloses : b₁.closesOn session = b₂.closesOn session)
    (hdue : d₁.get? session = d₂.get? session) (hfirst : session < f₁ ↔ session < f₂) :
    sessionStep floor b₁ d₁ rules capital f₁ state session = sessionStep floor b₂ d₂ rules capital f₂ state session := by
  unfold sessionStep valueSession
  simp only [hsplits, hopens, hcloses, hdue, hfirst]

theorem until_of_runSessions (s : Date) (h : runSessions floor book due rules capital first book.sessions = .ok state) :
    ∃ mid, runSessions floor book due rules capital first (book.sessions.filter fun day => day ≤ s) =
      .ok mid ∧ state.until s = mid.until s := by
  unfold runSessions at h ⊢
  rw [eq_filter_le_append (strictSorted_sessions book) s, foldlM_append_eq_ok] at h
  obtain ⟨mid, hmid, hlater⟩ := h
  refine ⟨mid, hmid, ((sessions_grew hlater).mono fun day hday => ?_).until_eq⟩
  simpa using (List.mem_filter.1 hday).2

structure Idle (state : RunState) : Prop where
  shares : state.book.shares = Dict.empty
  pending : state.pending = Dict.empty
  records : state.trades = [] ∧ state.fills = [] ∧ state.applied = [] ∧ state.deferred = [] ∧ state.valuations = []

theorem Idle.splitStep {event : SplitEvent} (h : Idle state) (hok : splitStep state event = .ok state') : Idle state' := by
  obtain ⟨b, record, happly, rfl⟩ := splitStep_eq_ok_iff.1 hok
  obtain ⟨-, hshares, -⟩ := applySplit_eq_ok_iff.1 happly
  rcases splitShares_eq_ok_iff.1 hshares with ⟨-, heq, rfl⟩ | ⟨held, hheld, -⟩
  · obtain ⟨ht, hf, ha, hd, hv⟩ := h.records
    exact ⟨heq.trans h.shares, h.pending, ht, hf, by simp [ha], hd, hv⟩
  · rw [h.shares, Dict.get?_empty] at hheld
    cases hheld

theorem Idle.sessionStep (h : Idle state) (hdue : due.get? session = none)
    (hfirst : session < first) (hok : sessionStep floor book due rules capital first state session = .ok state') :
    Idle state' := by
  obtain ⟨split, traded, hsplit, htrade, hvalue⟩ := sessionStep_eq_ok_iff.1 hok
  have hidle : Idle split := foldlM_inv (fun _ s => Idle s) hsplit h fun _ _ _ _ _ _ hs hstep => hs.splitStep hstep
  have htraded : Idle traded := by
    rw [hdue] at htrade
    cases htrade with
    | @filledPending late hlate =>
      rw [hidle.pending] at hlate
      obtain rfl := foldlM_nil_eq_ok.1 hlate
      obtain ⟨ht, hf, ha, hd, hv⟩ := hidle.records
      exact ⟨hidle.shares, rfl, by simp [ht], hf, ha, by simp [hd], hv⟩
  rcases valueSession_eq_ok_iff.1 hvalue with ⟨-, rfl⟩ | ⟨hge, -⟩
  · exact ⟨htraded.shares, htraded.pending, htraded.records⟩
  · exact absurd hfirst (not_lt.2 hge)

theorem Idle.until_eq (h : Idle state) (s : Date) : state.until s = ⟨[], [], [], [], []⟩ := by
  obtain ⟨ht, hf, ha, hd, hv⟩ := h.records
  unfold RunState.until Simulation.until
  rw [ht, hf, ha, hd, hv]
  rfl

theorem until_of_first_gt {mid : RunState} (hdue : ∀ day ≤ s, due.get? day = none) (hfirst : s < first)
    (h : runSessions floor book due rules capital first (book.sessions.filter fun day => day ≤ s) =
      .ok mid) : mid.until s = ⟨[], [], [], [], []⟩ := by
  refine Idle.until_eq ?_ s
  refine foldlM_inv (fun _ state => Idle state) h ⟨rfl, rfl, rfl, rfl, rfl, rfl, rfl⟩ ?_
  intro pre day post state state' hl hidle hok
  have hle : day ≤ s := by
    have hmem : day ∈ book.sessions.filter fun day => day ≤ s := by rw [hl]; simp
    simpa using (List.mem_filter.1 hmem).2
  exact hidle.sessionStep (hdue day hle) (lt_of_le_of_lt hle hfirst) hok

theorem simulateAt_until {r : Simulation} (s : Date) (h : simulateAt floor book targets rules capital = .ok r) :
    ∃ schedule, scheduleTargets book.sessions targets rules = .ok schedule ∧
      ((schedule.first = none ∧ r.until s = ⟨[], [], [], [], []⟩) ∨ ∃ first mid, schedule.first = some first ∧
          runSessions floor book schedule.due rules capital first
            (book.sessions.filter fun day => day ≤ s) = .ok mid ∧ r.until s = mid.until s) := by
  obtain ⟨-, schedule, hs, hrest⟩ := simulateAt_eq_ok_iff.1 h
  have hnone : (schedule.unscheduled.filter fun f => f.session.any fun session => session ≤ s) = [] := by
    refine List.filter_eq_nil_iff.2 fun fill hfill => ?_
    simp [(unscheduled_session hs fill hfill).1]
  refine ⟨schedule, hs, ?_⟩
  rcases hrest with ⟨hfirst, rfl⟩ | ⟨first, state, hfirst, hrun, rfl⟩
  · refine .inl ⟨hfirst, ?_⟩
    unfold Simulation.until
    simp only [hnone]
    rfl
  · obtain ⟨mid, hmid, heq⟩ := until_of_runSessions s hrun
    refine .inr ⟨first, mid, hfirst, hmid, Eq.trans ?_ heq⟩
    unfold RunState.until Simulation.until
    simp only [filter_sortedBy, List.filter_append, hnone, List.nil_append]

/-- Every trade is after the day of its cutoff, and every waiting order was ordered on such a session. -/
structure AfterCutoff (pre : List Date) (state : RunState) : Prop where
  trades : ∀ trade ∈ state.trades, utcDate trade.cutoffAt < trade.session
  pending : ∀ symbol order, state.pending.get? symbol = some order → ∃ day ∈ pre, utcDate order.cutoffAt < day

theorem TradeSession.afterCutoff {floor : ℚ} {opens : Dict Symbol ℚ}
    {state traded : RunState} {session : Date} {due : Option TargetPortfolio} {pre : List Date}
    (h : TradeSession floor opens rules state session due traded) (hinv : AfterCutoff pre state)
    (hpre : ∀ day ∈ pre, day < session)
    (hdue : ∀ target, due = some target → utcDate target.cutoffAt < session) :
    AfterCutoff (pre ++ [session]) traded := by
  cases h with
  | @rebalanced target made fill h =>
    have hday := hdue target rfl
    refine ⟨forall_mem_append hinv.trades ?_, ?_⟩
    · intro trade htrade
      obtain ⟨hcutoff, hsession⟩ := rebalance_of h trade htrade
      rw [hcutoff, hsession]
      exact hday
    · intro symbol order horder
      refine ⟨session, by simp, ?_⟩
      rw [(rebalance_pending h horder).1]
      exact hday
  | @filledPending late h =>
    have hlate := fillPending_of h
    refine ⟨forall_mem_append hinv.trades ?_, ?_⟩
    · intro trade htrade
      obtain ⟨symbol, order, horder, hcutoff, hsession⟩ := hlate.trades trade htrade
      obtain ⟨day, hday, hlt⟩ := hinv.pending symbol order horder
      rw [hcutoff, hsession]
      exact lt_trans hlt (hpre day hday)
    · intro symbol order horder
      obtain ⟨day, hday, hlt⟩ := hinv.pending symbol order (hlate.pending symbol order horder)
      exact ⟨day, List.mem_append_left _ hday, hlt⟩

theorem splits_afterCutoff {events : List SplitEvent} {split : RunState} {pre : List Date}
    (h : events.foldlM splitStep state = .ok split) (hinv : AfterCutoff pre state) :
    AfterCutoff pre split := by
  refine foldlM_inv (fun _ s => AfterCutoff pre s) h hinv ?_
  intro _ event _ s s' _ hs hstep
  obtain ⟨b, record, -, rfl⟩ := splitStep_eq_ok_iff.1 hstep
  exact ⟨hs.trades, hs.pending⟩

theorem runSessions_afterCutoff
    (hs : scheduleTargets book.sessions targets rules = .ok schedule)
    (h : runSessions floor book schedule.due rules capital first book.sessions = .ok state) :
    AfterCutoff book.sessions state := by
  refine foldlM_inv AfterCutoff h ⟨by simp [RunState.initial], by simp [RunState.initial]⟩ ?_
  intro pre session post state state' hl hinv hok
  obtain ⟨split, traded, hsplit, htrade, hvalue⟩ := sessionStep_eq_ok_iff.1 hok
  have htraded := htrade.afterCutoff (splits_afterCutoff hsplit hinv) (sessions_split hl).1
    fun target hdue => utcDate_lt_of_fillDate ((due_get?_iff hs session target).1 hdue).2
  rcases valueSession_eq_ok_iff.1 hvalue with ⟨-, rfl⟩ | ⟨-, -, -, -, -, rfl⟩
  · exact ⟨htraded.trades, htraded.pending⟩
  · exact ⟨htraded.trades, htraded.pending⟩

theorem simulateAt_afterCutoff {r : Simulation} (h : simulateAt floor book targets rules capital = .ok r) :
    ∀ trade ∈ r.trades, utcDate trade.cutoffAt < trade.session := by
  obtain ⟨-, schedule, hs, ⟨-, rfl⟩ | ⟨first, state, -, hrun, rfl⟩⟩ := simulateAt_eq_ok_iff.1 h
  · simp
  · exact (runSessions_afterCutoff hs hrun).trades

theorem runSessions_agree (hbooks : b₁.AgreeUntil s b₂) (hdue : ∀ day ≤ s, s₁.due.get? day = s₂.due.get? day) {f₁ f₂ : Date} (hf₁ : s₁.first = some f₁)
    (hf₂ : s₂.first = some f₂) :
    runSessions floor b₁ s₁.due rules capital f₁ (b₁.sessions.filter fun day => day ≤ s) =
      runSessions floor b₂ s₂.due rules capital f₂ (b₂.sessions.filter fun day => day ≤ s) := by
  rw [← hbooks.sessions_filter]
  refine foldlM_congr (AtEach.of_mem fun day hday => List.mem_filter.1 hday)
    (AtEach.of_mem fun _ _ => trivial) ?_
  intro state day hmem _
  have hday := hmem.1
  have hle : day ≤ s := by simpa using hmem.2
  refine sessionStep_congr state (hbooks.splitsOn_eq hday hle) (hbooks.opensOn_eq hday hle)
    (hbooks.closesOn_eq hday hle) (hdue day hle) ?_
  rw [lt_first_iff hf₁, lt_first_iff hf₂]
  refine forall_congr' fun session => forall_congr' fun hsession => ?_
  rw [hdue session (le_trans hsession hle)]

theorem until_of_empty
    (hdue : ∀ day ≤ s, s₁.due.get? day = s₂.due.get? day) (hf₁ : s₁.first = none) {mid : RunState}
    (hf₂ : s₂.first = some first)
    (h : runSessions floor book s₂.due rules capital first (book.sessions.filter fun day => day ≤ s) =
      .ok mid) : mid.until s = ⟨[], [], [], [], []⟩ := by
  have hnone : ∀ day ≤ s, s₂.due.get? day = none := by
    intro day hle
    rw [← hdue day hle, Dict.get?_eq_none_iff, first_eq_none_iff.1 hf₁]
    exact List.not_mem_nil
  exact until_of_first_gt hnone ((lt_first_iff hf₂ s).2 hnone) h

theorem simulateAt_agree (hbooks : b₁.AgreeUntil s b₂) (htargets : TargetsAgreeUntil s b₁ b₂ rules t₁ t₂) {r₁ r₂ : Simulation}
    (h₁ : simulateAt floor b₁ t₁ rules capital = .ok r₁) (h₂ : simulateAt floor b₂ t₂ rules capital = .ok r₂) :
    r₁.until s = r₂.until s := by
  obtain ⟨s₁, hs₁, hr₁⟩ := simulateAt_until s h₁
  obtain ⟨s₂, hs₂, hr₂⟩ := simulateAt_until s h₂
  have hdue : ∀ day ≤ s, s₁.due.get? day = s₂.due.get? day := fun day hle => due_eq_of_agree hbooks htargets hs₁ hs₂ hle
  rcases hr₁ with ⟨hf₁, heq₁⟩ | ⟨f₁, m₁, hf₁, hrun₁, heq₁⟩
  · rcases hr₂ with ⟨-, heq₂⟩ | ⟨f₂, m₂, hf₂, hrun₂, heq₂⟩
    · rw [heq₁, heq₂]
    · rw [heq₁, heq₂, until_of_empty hdue hf₁ hf₂ hrun₂]
  · rcases hr₂ with ⟨hf₂, heq₂⟩ | ⟨f₂, m₂, hf₂, hrun₂, heq₂⟩
    · rw [heq₁, heq₂, until_of_empty (fun day hle => (hdue day hle).symm) hf₂ hf₁ hrun₁]
    · rw [runSessions_agree hbooks hdue hf₁ hf₂, hrun₂] at hrun₁
      cases hrun₁
      rw [heq₁, heq₂]

/-- Runs whose inputs agree up to `s` have the same records up to `s`, and every trade is after its cutoff's UTC day. -/
theorem simulate_no_lookahead : (∀ (s : Date) (b₁ b₂ : PriceBook) (rules : ExecutionRules) (capital : ℚ)
        (t₁ t₂ : List TargetPortfolio) (r₁ r₂ : Simulation), b₁.AgreeUntil s b₂ →
        TargetsAgreeUntil s b₁ b₂ rules t₁ t₂ → simulate b₁ t₁ rules capital = .ok r₁ →
        simulate b₂ t₂ rules capital = .ok r₂ → r₁.until s = r₂.until s) ∧
      ∀ (book : PriceBook) (targets : List TargetPortfolio) (rules : ExecutionRules) (capital : ℚ)
        (r : Simulation), simulate book targets rules capital = .ok r →
        ∀ trade ∈ r.trades, utcDate trade.cutoffAt < trade.session :=
  ⟨fun _ _ _ _ _ _ _ _ _ hbooks htargets h₁ h₂ => simulateAt_agree hbooks htargets h₁ h₂,
    fun _ _ _ _ _ h => simulateAt_afterCutoff h⟩

/-- The small book with another future: a later last session, other prices, and a split of `BBB`. -/
def sampleFuture : PriceBook where
  bars := Dict.ofList [("AAA", Dict.ofList [(1, ⟨some 10, some 11⟩), (2, ⟨some 12, some 12⟩), (3, ⟨none, none⟩),
      (5, ⟨some 60, some 70⟩)]),
    ("BBB", Dict.ofList [(1, ⟨some 5, none⟩), (2, ⟨none, some 5⟩), (3, ⟨some 4, some 5⟩)])]
  splits := [⟨"BBB", 5, 3, 1⟩, ⟨"AAA", 3, 2, 1⟩]
  nodup_splits := by decide

def sampleExit : TargetPortfolio where
  cutoffAt := 4 * microsPerDay
  weights := Dict.empty
  weights_nonneg := by decide
  sum_weights_le_one := by decide +kernel

theorem sampleFuture_agrees : sampleBook.AgreeUntil 3 sampleFuture where
  symbols := by decide +kernel
  sessions day hday := by
    have h₁ : sampleBook.sessions = [1, 2, 3, 4] := by decide +kernel
    have h₂ : sampleFuture.sessions = [1, 2, 3, 5] := by decide +kernel
    have h4 : day ≠ 4 := fun h => by rw [h] at hday; exact absurd hday (by decide)
    have h5 : day ≠ 5 := fun h => by rw [h] at hday; exact absurd hday (by decide)
    simp [h₁, h₂, h4, h5]
  bars := by decide +kernel
  splits event _ hle := by
    have hlate : event ≠ ⟨"BBB", 5, 3, 1⟩ := fun h => by rw [h] at hle; exact absurd hle (by decide)
    simp [sampleBook, sampleFuture, hlate]

theorem sampleTargets_agree :
    TargetsAgreeUntil 3 sampleBook sampleFuture sampleRules [sampleTarget] [sampleExit, sampleTarget] := by
  intro target
  have hfill : fillSession sampleBook.sessions sampleTarget.cutoffAt sampleRules.lagSessions =
      .ok (some 2) := by decide +kernel
  have hfill' : fillSession sampleFuture.sessions sampleTarget.cutoffAt sampleRules.lagSessions =
      .ok (some 2) := by decide +kernel
  have hexit : fillSession sampleFuture.sessions sampleExit.cutoffAt sampleRules.lagSessions =
      .ok (some 5) := by decide +kernel
  constructor
  · intro h
    obtain rfl := List.mem_singleton.1 h.1
    exact ⟨by simp, 2, hfill', by decide⟩
  · intro ⟨hmem, session, hsession, hle⟩
    rcases List.mem_cons.1 hmem with rfl | hmem
    · rw [hexit] at hsession
      cases hsession
      exact absurd hle (by decide)
    · obtain rfl := List.mem_singleton.1 hmem
      exact ⟨by simp, 2, hfill, by decide⟩

/-- The small run and the run with another future, up to the third session. -/
theorem simulate_no_lookahead_sample : ∃ r₁ r₂, simulate sampleBook [sampleTarget] sampleRules 1000 = .ok r₁ ∧
      simulate sampleFuture [sampleExit, sampleTarget] sampleRules 1000 = .ok r₂ ∧
      r₁.until 3 = r₂.until 3 ∧ ∀ trade ∈ r₂.trades, utcDate trade.cutoffAt < trade.session := by
  have hsome : (simulate sampleFuture [sampleExit, sampleTarget] sampleRules 1000).toOption.isSome := by
    decide +kernel
  obtain ⟨r₁, h₁⟩ := sample_returns
  rcases h₂ : simulate sampleFuture [sampleExit, sampleTarget] sampleRules 1000 with e | r₂
  · rw [h₂] at hsome
    cases hsome
  · exact ⟨r₁, r₂, h₁, rfl, simulate_no_lookahead.1 3 sampleBook sampleFuture sampleRules 1000 _ _ r₁ r₂
      sampleFuture_agrees sampleTargets_agree h₁ h₂, simulate_no_lookahead.2 _ _ _ _ r₂ h₂⟩

end TrueAlpha.Backtest
