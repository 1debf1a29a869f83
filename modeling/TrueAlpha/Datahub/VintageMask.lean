import TrueAlpha.Datahub.UniverseMask

/-!
# The mask and the vintages of its bars

A price table keeps every vintage of a bar, and the mask counts them all.  Its records are those of the latest vintages exactly
when the earlier ones lift no short history and the last ones agree (`universe_mask_latest_iff`).
-/

namespace TrueAlpha.Datahub

theorem latestBar_spec (first : MaskBar) (rest : List MaskBar) : (∀ bar ∈ first :: rest, bar.date ≤ (latestBar first rest).date) ∧
      (first :: rest).find? (fun bar => bar.date = (latestBar first rest).date) = some (latestBar first rest) := by
  induction rest using List.reverseRecOn with
  | nil =>
    refine ⟨fun bar hbar => ?_, ?_⟩
    · rw [List.mem_singleton.mp hbar]
      exact le_rfl
    · exact List.find?_cons_of_pos (decide_eq_true rfl)
  | append_singleton rest bar ih =>
    obtain ⟨hmax, hfind⟩ := ih
    have hstep : latestBar first (rest ++ [bar]) =
        if (latestBar first rest).date < bar.date then bar else latestBar first rest := by
      rw [latestBar, List.foldl_append]
      rfl
    rw [hstep, ← List.cons_append]
    split_ifs with hlater
    · refine ⟨fun other hother => ?_, ?_⟩
      · rcases List.mem_append.mp hother with hold | hnew
        · exact (hmax other hold).trans hlater.le
        · rw [List.mem_singleton.mp hnew]
      · have hnone : (first :: rest).find? (fun other => other.date = bar.date) = none := by
          rw [List.find?_eq_none]
          intro other hother
          rw [decide_eq_true_eq]
          exact ((hmax other hother).trans_lt hlater).ne
        rw [List.find?_append, hnone, Option.none_or]
        exact List.find?_cons_of_pos (decide_eq_true rfl)
    · refine ⟨fun other hother => ?_, ?_⟩
      · rcases List.mem_append.mp hother with hold | hnew
        · exact hmax other hold
        · rw [List.mem_singleton.mp hnew]
          exact not_lt.mp hlater
      · rw [List.find?_append, hfind, Option.some_or]

theorem latestBar_eq {first : MaskBar} {rest : List MaskBar} {latest : MaskBar}
    (hmax : ∀ bar ∈ first :: rest, bar.date ≤ latest.date)
    (hfind : (first :: rest).find? (fun bar => bar.date = latest.date) = some latest) : latestBar first rest = latest := by
  obtain ⟨hmax', hfind'⟩ := latestBar_spec first rest
  have hdate : (latestBar first rest).date = latest.date :=
    le_antisymm (hmax _ (List.mem_of_find?_eq_some hfind')) (hmax' _ (List.mem_of_find?_eq_some hfind))
  rw [hdate, hfind] at hfind'
  exact (Option.some.inj hfind').symm

section

variable {symbol resolution : String} {cutoff : Date} {listing : Option Date} {bars pitBars : List MaskBar}
  {minPeriods : ℤ} (hpit : (bars.filter fun bar => bar.date ≤ cutoff) = pitBars)

def ineligible (symbol : String) (cutoff : Date) (resolution : String) (reason : MaskReason) : UniverseMaskRecord :=
  ⟨symbol, cutoff, false, reason, resolution⟩

def activityRecord (symbol : String) (cutoff : Date) (resolution : String) (active : Bool) : UniverseMaskRecord :=
  if active then ⟨symbol, cutoff, true, .ok, resolution⟩ else ineligible symbol cutoff resolution .suspended

theorem evaluate_of_unlisted (h : listing.any fun day => cutoff < day) :
    evaluateSymbolPit symbol cutoff listing bars minPeriods resolution = .ok (ineligible symbol cutoff resolution .unlisted) := by
  rw [evaluateSymbolPit, if_pos h]
  rfl

include hpit

section

variable (h : ¬ (listing.any fun day => cutoff < day))

include h

theorem evaluate_of_empty (hempty : pitBars = []) : evaluateSymbolPit symbol cutoff listing bars minPeriods resolution =
      .ok (ineligible symbol cutoff resolution
        (if listing.any fun day => day ≤ cutoff then .insufficientHistory else .unlisted)) := by
  rw [hempty] at hpit
  rw [evaluateSymbolPit, if_neg h]
  simp only [hpit]
  split_ifs <;> rfl

theorem evaluate_of_short (hne : pitBars ≠ []) (hshort : (pitBars.length : ℤ) < minPeriods) :
    evaluateSymbolPit symbol cutoff listing bars minPeriods resolution =
      .ok (ineligible symbol cutoff resolution .insufficientHistory) := by
  obtain ⟨first, rest, rfl⟩ := List.exists_cons_of_ne_nil hne
  rw [evaluateSymbolPit, if_neg h]
  simp only [hpit, if_pos hshort]
  rfl

theorem evaluate_of_latest {latest : MaskBar}
    (hlong : ¬ (pitBars.length : ℤ) < minPeriods) (hmax : ∀ bar ∈ pitBars, bar.date ≤ latest.date)
    (hfind : pitBars.find? (fun bar => bar.date = latest.date) = some latest) :
    evaluateSymbolPit symbol cutoff listing bars minPeriods resolution =
      if latest.date ≠ expectedSession resolution cutoff then .ok (ineligible symbol cutoff resolution .suspended)
      else latest.isActive.map (activityRecord symbol cutoff resolution) := by
  obtain ⟨first, rest, rfl⟩ := List.exists_cons_of_ne_nil (List.ne_nil_of_mem (List.mem_of_find?_eq_some hfind))
  rw [evaluateSymbolPit, if_neg h]
  simp only [hpit, if_neg hlong, latestBar_eq hmax hfind]
  rfl

end

end

/-! ## The vintages of a history -/

def PriceTable.history (table : PriceTable) (adjust symbol : String) (cutoff : Date) : List PriceRow :=
  table.rows.filter fun row => row.symbol = symbol ∧ row.adjust = adjust ∧ row.tradingDate ≤ cutoff

def PriceTable.isLatest (table : PriceTable) (row : PriceRow) : Bool :=
  table.rows.all fun other => other.key = row.key → other.recordedAt ≤ row.recordedAt

def latestBars (table : PriceTable) (adjust symbol : String) : List MaskBar :=
  ((table.rows.filter fun row => row.symbol = symbol ∧ row.adjust = adjust).filter table.isLatest).map maskBarOf

def fetchedBars (query : QueryOrder) (table : PriceTable) (symbols : List String) (maxCutoff : Date) (adjust symbol : String) :
    List MaskBar :=
  ((query.order (selectedRows table symbols maxCutoff adjust)).map maskBarOf).filter fun bar => bar.symbol = symbol

variable {table : PriceTable} {adjust symbol resolution : String} {symbols : List String} {cutoff maxCutoff : Date}
  {listing : Option Date} {minPeriods : ℤ}

variable {row : PriceRow}

theorem isLatest_iff :
    table.isLatest row = true ↔ ∀ other ∈ table.rows, other.key = row.key → other.recordedAt ≤ row.recordedAt := by
  simp only [PriceTable.isLatest, List.all_eq_true, decide_eq_true_eq]

theorem mem_history_iff : row ∈ table.history adjust symbol cutoff ↔
    row ∈ table.rows ∧ row.symbol = symbol ∧ row.adjust = adjust ∧ row.tradingDate ≤ cutoff := by
  rw [PriceTable.history, List.mem_filter, decide_eq_true_iff]

theorem key_eq_iff {row other : PriceRow} (hrow : row ∈ table.history adjust symbol cutoff)
    (hother : other ∈ table.history adjust symbol cutoff) : other.key = row.key ↔ other.tradingDate = row.tradingDate := by
  obtain ⟨-, hsymbol, hadjust, -⟩ := mem_history_iff.mp hrow
  obtain ⟨-, hsymbol', hadjust', -⟩ := mem_history_iff.mp hother
  simp [PriceRow.key, hsymbol, hsymbol', hadjust, hadjust']

theorem exists_isLatest (h : row ∈ table.history adjust symbol cutoff) :
    ∃ latest ∈ table.history adjust symbol cutoff, table.isLatest latest = true ∧ latest.tradingDate = row.tradingDate := by
  obtain ⟨hrow, hsymbol, hadjust, hcutoff⟩ := mem_history_iff.mp h
  have hmem : row ∈ table.vintages row.key := List.mem_filter.mpr ⟨hrow, decide_eq_true rfl⟩
  cases hlatest : latestBy PriceRow.recordedAt (table.vintages row.key) with
  | none =>
    rw [(latestBy_eq_none_iff _).mp hlatest] at hmem
    cases hmem
  | some latest =>
    obtain ⟨hin, hmax⟩ := latestBy_eq_some _ hlatest
    obtain ⟨hstored, hkey⟩ := List.mem_filter.mp hin
    have hkey := of_decide_eq_true hkey
    have hparts : latest.symbol = row.symbol ∧ latest.tradingDate = row.tradingDate ∧ latest.adjust = row.adjust := by
      simpa [PriceRow.key] using hkey
    refine ⟨latest, mem_history_iff.mpr ⟨hstored, hparts.1.trans hsymbol, hparts.2.2.trans hadjust, ?_⟩, ?_, hparts.2.1⟩
    · rw [hparts.2.1]
      exact hcutoff
    · rw [isLatest_iff]
      intro other hother hsame
      exact hmax other (List.mem_filter.mpr ⟨hother, decide_eq_true (hsame.trans hkey)⟩)

theorem nodup_latest_dates (table : PriceTable) (adjust symbol : String) (cutoff : Date) :
    (((table.history adjust symbol cutoff).filter table.isLatest).map PriceRow.tradingDate).Nodup := by
  refine List.pairwise_map.mpr (List.Pairwise.imp_of_mem ?_ ((table.recorded.filter _).filter _))
  intro earlier later hearlier hlater hrecorded hdate
  obtain ⟨hearlier, hlatest⟩ := List.mem_filter.mp hearlier
  have hlater := List.mem_of_mem_filter hlater
  have hle := isLatest_iff.mp hlatest later (mem_history_iff.mp hlater).1 ((key_eq_iff hearlier hlater).mpr hdate.symm)
  exact absurd hrecorded (not_lt.mpr hle)

theorem length_latest (table : PriceTable) (adjust symbol : String) (cutoff : Date) :
    ((table.history adjust symbol cutoff).filter table.isLatest).length =
      ((table.history adjust symbol cutoff).map PriceRow.tradingDate).dedup.length := by
  have hdates : (((table.history adjust symbol cutoff).filter table.isLatest).map PriceRow.tradingDate).length =
      ((table.history adjust symbol cutoff).filter table.isLatest).length := List.length_map _
  rw [← hdates]
  refine List.Perm.length_eq ((List.perm_ext_iff_of_nodup (nodup_latest_dates ..) (List.nodup_dedup _)).mpr fun date => ?_)
  rw [List.mem_dedup, List.mem_map, List.mem_map]
  constructor
  · rintro ⟨row, hrow, rfl⟩
    exact ⟨row, List.mem_of_mem_filter hrow, rfl⟩
  · rintro ⟨row, hrow, rfl⟩
    obtain ⟨latest, hmem, hlatest, hdate⟩ := exists_isLatest hrow
    exact ⟨latest, List.mem_filter.mpr ⟨hmem, hlatest⟩, hdate⟩

theorem latestBars_filter (table : PriceTable) (adjust symbol : String) (cutoff : Date) :
    ((latestBars table adjust symbol).filter fun bar => bar.date ≤ cutoff) =
      ((table.history adjust symbol cutoff).filter table.isLatest).map maskBarOf := by
  have hdate : ((fun bar : MaskBar => decide (bar.date ≤ cutoff)) ∘ maskBarOf) =
      fun row => decide (row.tradingDate ≤ cutoff) := rfl
  rw [latestBars, List.filter_map, hdate, List.filter_filter, List.filter_filter, PriceTable.history, List.filter_filter]
  refine congrArg _ (List.filter_congr fun row _ => ?_)
  rw [Bool.eq_iff_iff]
  simp only [Bool.and_eq_true, decide_eq_true_eq]
  tauto

variable (query : QueryOrder)

theorem fetchedBars_filter (hsymbol : symbol ∈ symbols) (hcutoff : cutoff ≤ maxCutoff) :
    ((fetchedBars query table symbols maxCutoff adjust symbol).filter fun bar => bar.date ≤ cutoff).Perm
      ((table.history adjust symbol cutoff).map maskBarOf) := by
  have hperm := (query.perm (selectedRows table symbols maxCutoff adjust)).filter
    fun row => decide (row.tradingDate ≤ cutoff) && decide (row.symbol = symbol)
  have hselected : ((selectedRows table symbols maxCutoff adjust).filter
      fun row => decide (row.tradingDate ≤ cutoff) && decide (row.symbol = symbol)) = table.history adjust symbol cutoff := by
    rw [selectedRows, PriceTable.history, List.filter_filter]
    refine List.filter_congr fun row _ => ?_
    rw [← Bool.decide_and, ← Bool.decide_and, decide_eq_decide]
    constructor
    · rintro ⟨⟨hdate, rfl⟩, -, -, hadjust⟩
      exact ⟨rfl, hadjust, hdate⟩
    · rintro ⟨rfl, hadjust, hdate⟩
      exact ⟨⟨hdate, rfl⟩, hsymbol, hdate.trans hcutoff, hadjust⟩
  rw [hselected] at hperm
  rw [fetchedBars, List.filter_filter, List.filter_map]
  exact hperm.map maskBarOf

def SameActivity (table : PriceTable) (adjust symbol : String) (cutoff : Date) (resolution : String) : Prop :=
  ∀ row ∈ table.history adjust symbol cutoff, ∀ latest ∈ table.history adjust symbol cutoff,
    table.isLatest latest = true → latest.tradingDate = row.tradingDate →
    row.tradingDate = expectedSession resolution cutoff →
    (∀ other ∈ table.history adjust symbol cutoff, other.tradingDate ≤ row.tradingDate) →
    (maskBarOf row).isActive = (maskBarOf latest).isActive

/-- The symbol is not listed yet, or has no bar, or too few rows, or as many dates as periods and agreeing last vintages. -/
def VintagesAgree (table : PriceTable) (adjust symbol : String) (cutoff : Date) (listing : Option Date)
    (minPeriods : ℤ) (resolution : String) : Prop :=
  (listing.any fun day => cutoff < day) = true ∨ table.history adjust symbol cutoff = [] ∨
    ((table.history adjust symbol cutoff).length : ℤ) < minPeriods ∨
    (minPeriods ≤ ((table.history adjust symbol cutoff).map PriceRow.tradingDate).dedup.length ∧
      SameActivity table adjust symbol cutoff resolution)

variable {bars : List MaskBar}

theorem exists_latestBar (h : bars ≠ []) : ∃ latest, (∀ bar ∈ bars, bar.date ≤ latest.date) ∧
    bars.find? (fun bar => bar.date = latest.date) = some latest := by
  obtain ⟨first, rest, rfl⟩ := List.exists_cons_of_ne_nil h
  exact ⟨_, latestBar_spec first rest⟩

theorem latest_ne_nil (h : table.history adjust symbol cutoff ≠ []) :
    ((table.history adjust symbol cutoff).filter table.isLatest).map maskBarOf ≠ [] := by
  obtain ⟨row, hrow⟩ := List.exists_mem_of_ne_nil _ h
  obtain ⟨latest, hmem, hlatest, -⟩ := exists_isLatest hrow
  exact List.ne_nil_of_mem (List.mem_map_of_mem (List.mem_filter.mpr ⟨hmem, hlatest⟩))

theorem find?_latest {bar : MaskBar} (h : bar ∈ ((table.history adjust symbol cutoff).filter table.isLatest).map maskBarOf) :
    (((table.history adjust symbol cutoff).filter table.isLatest).map maskBarOf).find?
      (fun other => other.date = bar.date) = some bar := by
  have hnodup := nodup_latest_dates table adjust symbol cutoff
  have hdates : (((table.history adjust symbol cutoff).filter table.isLatest).map maskBarOf).map MaskBar.date =
      ((table.history adjust symbol cutoff).filter table.isLatest).map PriceRow.tradingDate := by
    rw [List.map_map]
    rfl
  rw [← hdates] at hnodup
  generalize ((table.history adjust symbol cutoff).filter table.isLatest).map maskBarOf = bars at h hnodup
  cases hfind : bars.find? (fun other => other.date = bar.date) with
  | none =>
    have hnone := List.find?_eq_none.mp hfind bar h
    exact absurd (decide_eq_true rfl) hnone
  | some found =>
    have hfound := List.mem_of_find?_eq_some hfind
    have hsame := List.find?_some hfind
    rw [decide_eq_true_eq] at hsame
    rw [List.inj_on_of_nodup_map hnodup hfound h hsame]

theorem evaluate_same (hsymbol : symbol ∈ symbols) (hcutoff : cutoff ≤ maxCutoff)
    (h : VintagesAgree table adjust symbol cutoff listing minPeriods resolution) :
    evaluateSymbolPit symbol cutoff listing (fetchedBars query table symbols maxCutoff adjust symbol) minPeriods
        resolution =
      evaluateSymbolPit symbol cutoff listing (latestBars table adjust symbol) minPeriods resolution := by
  have hperm : ((fetchedBars query table symbols maxCutoff adjust symbol).filter fun bar => bar.date ≤ cutoff).Perm
      ((table.history adjust symbol cutoff).map maskBarOf) := fetchedBars_filter query hsymbol hcutoff
  have hlength := hperm.length_eq
  rw [List.length_map] at hlength
  have hlatestLength := length_latest table adjust symbol cutoff
  have hle := List.length_filter_le table.isLatest (table.history adjust symbol cutoff)
  by_cases hlisting : listing.any fun day => cutoff < day
  · rw [evaluate_of_unlisted hlisting, evaluate_of_unlisted hlisting]
  by_cases hempty : table.history adjust symbol cutoff = []
  · rw [hempty, List.map_nil, List.perm_nil] at hperm
    rw [evaluate_of_empty hperm hlisting rfl, evaluate_of_empty (latestBars_filter ..) hlisting (by rw [hempty]; rfl)]
  have hne : ((fetchedBars query table symbols maxCutoff adjust symbol).filter fun bar => bar.date ≤ cutoff) ≠ [] := by
    intro hnil
    rw [hnil] at hlength
    exact hempty (List.length_eq_zero_iff.mp hlength.symm)
  by_cases hshort : ((table.history adjust symbol cutoff).length : ℤ) < minPeriods
  · rw [evaluate_of_short rfl hlisting hne (by rw [hlength]; exact hshort),
      evaluate_of_short (latestBars_filter ..) hlisting (latest_ne_nil hempty)]
    rw [List.length_map]
    exact lt_of_le_of_lt (Int.ofNat_le.mpr hle) hshort
  · obtain ⟨hperiods, hactivity⟩ : minPeriods ≤
        (((table.history adjust symbol cutoff).map PriceRow.tradingDate).dedup.length : ℤ) ∧
          SameActivity table adjust symbol cutoff resolution := by
      rcases h with h | h | h | h
      · exact absurd h hlisting
      · exact absurd h hempty
      · exact absurd h hshort
      · exact h
    obtain ⟨found, hmax, hfind⟩ := exists_latestBar hne
    obtain ⟨held, hmax', hfind'⟩ := exists_latestBar (latest_ne_nil hempty)
    rw [evaluate_of_latest rfl hlisting (by rw [hlength]; exact hshort) hmax hfind,
      evaluate_of_latest (latestBars_filter ..) hlisting (by
        rw [List.length_map, hlatestLength]
        exact not_lt.mpr hperiods) hmax' hfind']
    -- both latest bars are of the last date
    obtain ⟨row, hrow, rfl⟩ := List.mem_map.mp (hperm.mem_iff.mp (List.mem_of_find?_eq_some hfind))
    obtain ⟨latest, hlatest, rfl⟩ := List.mem_map.mp (List.mem_of_find?_eq_some hfind')
    obtain ⟨hlatest, hisLatest⟩ := List.mem_filter.mp hlatest
    have hlast : ∀ other ∈ table.history adjust symbol cutoff, other.tradingDate ≤ row.tradingDate :=
      fun other hother => hmax _ (hperm.mem_iff.mpr (List.mem_map_of_mem hother))
    have hdate : latest.tradingDate = row.tradingDate := by
      refine le_antisymm (hlast latest hlatest) ?_
      obtain ⟨newest, hnewest, hnewestLatest, hsame⟩ := exists_isLatest hrow
      rw [← hsame]
      exact hmax' _ (List.mem_map_of_mem (List.mem_filter.mpr ⟨hnewest, hnewestLatest⟩))
    have hbars : (maskBarOf latest).date = (maskBarOf row).date := hdate
    rw [hbars]
    split_ifs with hexpected
    · rfl
    · rw [hactivity row hrow latest hlatest hisLatest hdate (not_not.mp hexpected) hlast]

/-! ## A query that returns a row first -/

def rowFirst (row : PriceRow) : QueryOrder where
  order rows := sortedBy PriceRow.tradingDate (rows.filter (· = row) ++ rows.filter (¬ · = row))
  perm rows := (perm_sortedBy _ _).trans (by
    have hsplit := List.filter_append_perm (fun other => decide (other = row)) rows
    simpa only [decide_not] using hsplit)
  sorted _ := pairwise_sortedBy _ _

theorem head?_sortedBy_cons {rest : List PriceRow} (h : ∀ other ∈ rest, row.tradingDate ≤ other.tradingDate) :
    (sortedBy PriceRow.tradingDate (row :: rest)).head? = some row := by
  have hcons : sortedBy PriceRow.tradingDate (row :: rest) =
      (sortedBy PriceRow.tradingDate rest).orderedInsert (fun a b => a.tradingDate ≤ b.tradingDate) row := rfl
  rw [hcons]
  cases hsorted : sortedBy PriceRow.tradingDate rest with
  | nil => rfl
  | cons first others =>
    have hfirst : first ∈ rest := by
      rw [← mem_sortedBy PriceRow.tradingDate, hsorted]
      exact List.mem_cons_self
    rw [orderedInsert_cons_of_key_le PriceRow.tradingDate others (h first hfirst)]
    rfl

theorem find?_fetchedBars_rowFirst (hrow : row ∈ table.history adjust symbol cutoff)
    (hsymbol : symbol ∈ symbols) (hcutoff : cutoff ≤ maxCutoff) :
    ((fetchedBars (rowFirst row) table symbols maxCutoff adjust symbol).filter fun bar => bar.date ≤ cutoff).find?
      (fun bar => bar.date = row.tradingDate) = some (maskBarOf row) := by
  obtain ⟨hstored, hsym, hadjust, hdate⟩ := mem_history_iff.mp hrow
  let p : PriceRow → Bool := fun other => decide (other.tradingDate = row.tradingDate) &&
    decide (other.tradingDate ≤ cutoff) && decide (other.symbol = symbol)
  have hp : p row = true := by simp [p, hsym, hdate]
  have hselected : row ∈ selectedRows table symbols maxCutoff adjust :=
    List.mem_filter.mpr ⟨hstored, decide_eq_true ⟨hsym ▸ hsymbol, hdate.trans hcutoff, hadjust⟩⟩
  have hhead : (((rowFirst row).order (selectedRows table symbols maxCutoff adjust)).filter p).head? = some row := by
    show ((sortedBy PriceRow.tradingDate _).filter p).head? = some row
    rw [filter_sortedBy, List.filter_append]
    obtain ⟨copies, hcopies⟩ : ∃ copies, ((selectedRows table symbols maxCutoff adjust).filter (· = row)).filter p =
        row :: copies := by
      have hmem : row ∈ ((selectedRows table symbols maxCutoff adjust).filter (· = row)).filter p :=
        List.mem_filter.mpr ⟨List.mem_filter.mpr ⟨hselected, decide_eq_true rfl⟩, hp⟩
      cases hlist : ((selectedRows table symbols maxCutoff adjust).filter (· = row)).filter p with
      | nil =>
        rw [hlist] at hmem
        cases hmem
      | cons first copies =>
        have hfirst : first ∈ (selectedRows table symbols maxCutoff adjust).filter (· = row) :=
          List.mem_of_mem_filter (p := p) (hlist ▸ List.mem_cons_self)
        rw [of_decide_eq_true (List.mem_filter.mp hfirst).2]
        exact ⟨copies, rfl⟩
    rw [hcopies, List.cons_append]
    refine head?_sortedBy_cons fun other hother => ?_
    have hother : p other = true := by
      rcases List.mem_append.mp hother with hmem | hmem
      · exact (List.mem_filter.mp (hcopies ▸ List.mem_cons_of_mem row hmem :
          other ∈ ((selectedRows table symbols maxCutoff adjust).filter (· = row)).filter p)).2
      · exact (List.mem_filter.mp hmem).2
    have hsame : other.tradingDate = row.tradingDate := by
      simp only [p, Bool.and_eq_true, decide_eq_true_eq] at hother
      exact hother.1.1
    exact hsame.ge
  have hfilter : ((fetchedBars (rowFirst row) table symbols maxCutoff adjust symbol).filter fun bar =>
      bar.date ≤ cutoff).filter (fun bar => bar.date = row.tradingDate) =
        (((rowFirst row).order (selectedRows table symbols maxCutoff adjust)).filter p).map maskBarOf := by
    rw [fetchedBars, List.filter_filter, List.filter_filter, List.filter_map]
    rfl
  rw [← List.head?_filter, hfilter, List.head?_map, hhead]
  rfl

theorem map_activityRecord_injective {x y : Except InvalidOperation Bool}
    (h : x.map (activityRecord symbol cutoff resolution) = y.map (activityRecord symbol cutoff resolution)) : x = y := by
  rcases x with error | left
  · rcases y with error' | right
    · exact congrArg _ (Except.error.inj h)
    · cases h
  · rcases y with error' | right
    · cases h
    · have hrecords := congrArg UniverseMaskRecord.eligible (Except.ok.inj h)
      cases left <;> cases right <;> first | rfl | cases hrecords

theorem evaluate_ne_short {pitBars : List MaskBar}
    (hpit : (bars.filter fun bar => bar.date ≤ cutoff) = pitBars) (h : ¬ (listing.any fun day => cutoff < day))
    (hne : pitBars ≠ []) (hlong : ¬ (pitBars.length : ℤ) < minPeriods) :
    evaluateSymbolPit symbol cutoff listing bars minPeriods resolution ≠
      .ok (ineligible symbol cutoff resolution .insufficientHistory) := by
  obtain ⟨latest, hmax, hfind⟩ := exists_latestBar hne
  rw [evaluate_of_latest hpit h hlong hmax hfind]
  intro hshort
  split_ifs at hshort with hdate
  · cases hshort
  · rcases hactive : latest.isActive with error | active
    · rw [hactive] at hshort
      cases hshort
    · rw [hactive] at hshort
      have hreason := congrArg UniverseMaskRecord.reasonCode (Except.ok.inj hshort)
      cases active <;> cases hreason

theorem evaluate_same_iff (hsymbol : symbol ∈ symbols) (hcutoff : cutoff ≤ maxCutoff) :
    (∀ query, evaluateSymbolPit symbol cutoff listing (fetchedBars query table symbols maxCutoff adjust symbol) minPeriods
        resolution =
      evaluateSymbolPit symbol cutoff listing (latestBars table adjust symbol) minPeriods resolution) ↔
      VintagesAgree table adjust symbol cutoff listing minPeriods resolution := by
  refine ⟨fun h => ?_, fun h query => evaluate_same query hsymbol hcutoff h⟩
  have hlength : ∀ query, ((fetchedBars query table symbols maxCutoff adjust symbol).filter fun bar =>
      bar.date ≤ cutoff).length = (table.history adjust symbol cutoff).length := by
    intro query
    rw [(fetchedBars_filter query hsymbol hcutoff).length_eq, List.length_map]
  by_cases hlisting : listing.any fun day => cutoff < day
  · exact Or.inl hlisting
  by_cases hempty : table.history adjust symbol cutoff = []
  · exact Or.inr (Or.inl hempty)
  by_cases hshort : ((table.history adjust symbol cutoff).length : ℤ) < minPeriods
  · exact Or.inr (Or.inr (Or.inl hshort))
  have hne : ∀ query, ((fetchedBars query table symbols maxCutoff adjust symbol).filter fun bar =>
      bar.date ≤ cutoff) ≠ [] := by
    intro query hnil
    have hzero := hlength query
    rw [hnil] at hzero
    exact hempty (List.length_eq_zero_iff.mp hzero.symm)
  have hperiods : minPeriods ≤ (((table.history adjust symbol cutoff).map PriceRow.tradingDate).dedup.length : ℤ) := by
    by_contra hfew
    obtain ⟨row, -⟩ := List.exists_mem_of_ne_nil _ hempty
    have hlatest := h (rowFirst row)
    rw [evaluate_of_short (latestBars_filter ..) hlisting (latest_ne_nil hempty) (by
      rw [List.length_map, length_latest]
      exact not_le.mp hfew)] at hlatest
    exact evaluate_ne_short rfl hlisting (hne _) (by rw [hlength]; exact hshort) hlatest
  refine Or.inr (Or.inr (Or.inr ⟨hperiods, ?_⟩))
  intro row hrow latest hlatest hisLatest hdate hexpected hlast
  have hperm : ((fetchedBars (rowFirst row) table symbols maxCutoff adjust symbol).filter fun bar =>
      bar.date ≤ cutoff).Perm ((table.history adjust symbol cutoff).map maskBarOf) :=
    fetchedBars_filter (rowFirst row) hsymbol hcutoff
  have hmax : ∀ bar ∈ (fetchedBars (rowFirst row) table symbols maxCutoff adjust symbol).filter fun bar =>
      bar.date ≤ cutoff, bar.date ≤ (maskBarOf row).date := by
    intro bar hbar
    obtain ⟨other, hother, rfl⟩ := List.mem_map.mp (hperm.mem_iff.mp hbar)
    exact hlast other hother
  have hmem : maskBarOf latest ∈ ((table.history adjust symbol cutoff).filter table.isLatest).map maskBarOf :=
    List.mem_map_of_mem (List.mem_filter.mpr ⟨hlatest, hisLatest⟩)
  have hmax' : ∀ bar ∈ ((table.history adjust symbol cutoff).filter table.isLatest).map maskBarOf,
      bar.date ≤ (maskBarOf latest).date := by
    intro bar hbar
    obtain ⟨other, hother, rfl⟩ := List.mem_map.mp hbar
    exact (hlast other (List.mem_of_mem_filter hother)).trans_eq hdate.symm
  have hrowDate : (maskBarOf row).date = expectedSession resolution cutoff := hexpected
  have hlatestDate : (maskBarOf latest).date = expectedSession resolution cutoff := hdate.trans hexpected
  have hrecords := h (rowFirst row)
  rw [evaluate_of_latest rfl hlisting (by rw [hlength]; exact hshort) hmax
      (find?_fetchedBars_rowFirst hrow hsymbol hcutoff),
    evaluate_of_latest (latestBars_filter ..) hlisting (by
      rw [List.length_map, length_latest]
      exact not_lt.mpr hperiods) hmax' (find?_latest hmem),
    if_neg (not_not.mpr hrowDate), if_neg (not_not.mpr hlatestDate)] at hrecords
  exact map_activityRecord_injective hrecords

/-! ## The mask of a table -/

def queryOutcomes (query : QueryOrder) (table : PriceTable) (symbols : List String) (cutoffDates : List Date)
    (adjust : String) (listingDates : Option (Dict String Date)) (minPeriods : ℤ) (resolution : String) :
    List (Except InvalidOperation UniverseMaskRecord) :=
  match cutoffDates.max? with
  | none => []
  | some maxCutoff => maskOutcomes (fetchedBars query table symbols maxCutoff adjust) symbols cutoffDates
      (listingDates.getD Dict.empty) minPeriods resolution

def latestOutcomes (table : PriceTable) (symbols : List String) (cutoffDates : List Date) (adjust : String)
    (listingDates : Option (Dict String Date)) (minPeriods : ℤ) (resolution : String) :
    List (Except InvalidOperation UniverseMaskRecord) :=
  maskOutcomes (latestBars table adjust) symbols cutoffDates (listingDates.getD Dict.empty) minPeriods resolution

def persistOutcomes (mask : MaskTable) (outcomes : List (Except InvalidOperation UniverseMaskRecord)) :
    Except InvalidOperation (List UniverseMaskRecord × MaskTable) := do
  let records ← outcomes.mapM id
  return (records, persistUniverseMask mask records)

theorem flatMap_map_eq_iff {α β γ : Type} {f g : α → β → γ} {outer : List α} {inner : List β} :
    (outer.flatMap fun a => inner.map (f a)) = (outer.flatMap fun a => inner.map (g a)) ↔
      ∀ a ∈ outer, ∀ b ∈ inner, f a b = g a b := by
  induction outer with
  | nil => simp
  | cons a outer ih =>
    rw [List.flatMap_cons, List.flatMap_cons, List.forall_mem_cons, ← ih]
    constructor
    · intro h
      obtain ⟨hhead, htail⟩ := List.append_inj h (by rw [List.length_map, List.length_map])
      exact ⟨List.map_inj_left.mp hhead, htail⟩
    · rintro ⟨hhead, htail⟩
      rw [List.map_inj_left.mpr hhead, htail]

variable {cutoffDates : List Date} {listingDates : Option (Dict String Date)}

theorem queryOutcomes_iff : (∀ query, queryOutcomes query table symbols cutoffDates adjust listingDates minPeriods resolution =
      latestOutcomes table symbols cutoffDates adjust listingDates minPeriods resolution) ↔
      ∀ cutoff ∈ cutoffDates, ∀ symbol ∈ symbols, VintagesAgree table adjust symbol cutoff
        ((listingDates.getD Dict.empty).get? symbol) minPeriods resolution := by
  unfold queryOutcomes latestOutcomes
  cases hmax : cutoffDates.max? with
  | none =>
    rw [List.max?_eq_none_iff.mp hmax]
    exact iff_of_true (fun _ => rfl) (by simp)
  | some maxCutoff =>
    have hle := (List.max?_eq_some_iff.mp hmax).2
    simp only [maskOutcomes, flatMap_map_eq_iff]
    constructor
    · intro h cutoff hcutoff symbol hsymbol
      exact (evaluate_same_iff hsymbol (hle cutoff hcutoff)).mp fun query => h query cutoff hcutoff symbol hsymbol
    · intro h query cutoff hcutoff symbol hsymbol
      exact (evaluate_same_iff hsymbol (hle cutoff hcutoff)).mpr (h cutoff hcutoff symbol hsymbol) query

theorem computeAndPersist_eq (mask : MaskTable) :
    computeAndPersistUniverseMaskFromDb query table mask symbols cutoffDates adjust listingDates minPeriods resolution =
      persistOutcomes mask
        (queryOutcomes query table symbols cutoffDates adjust listingDates minPeriods resolution) := by
  unfold computeAndPersistUniverseMaskFromDb queryOutcomes
  cases cutoffDates.max? with
  | none => rfl
  | some maxCutoff =>
    by_cases hsymbols : symbols = []
    · have hnone : maskOutcomes (fetchedBars query table symbols maxCutoff adjust) symbols cutoffDates
          (listingDates.getD Dict.empty) minPeriods resolution = [] := by
        rw [maskOutcomes, hsymbols]
        exact List.flatMap_eq_nil_iff.mpr fun _ _ => rfl
      simp only [if_pos hsymbols, hnone]
      rfl
    · simp only [if_neg hsymbols]
      rfl

variable {l l' : List (Except InvalidOperation UniverseMaskRecord)}

theorem eq_of_mapM_id {records : List UniverseMaskRecord}
    (h : l.mapM id = .ok records) (h' : l'.mapM id = .ok records) : l = l' := by
  rw [mapM_eq_ok_iff] at h h'
  induction h generalizing l' with
  | nil =>
    cases h'
    rfl
  | cons hhead _ ih =>
    cases h' with
    | cons hhead' htail' =>
      rw [ih htail']
      exact congrArg (· :: _) (hhead.trans hhead'.symm)

theorem eq_of_persistOutcomes {mask : MaskTable}
    (hl : ∃ records, l.mapM id = .ok records) (hl' : ∃ records, l'.mapM id = .ok records)
    (h : persistOutcomes mask l = persistOutcomes mask l') : l = l' := by
  obtain ⟨records, hrecords⟩ := hl
  obtain ⟨records', hrecords'⟩ := hl'
  unfold persistOutcomes at h
  rw [hrecords, hrecords'] at h
  have hsame : records = records' := congrArg Prod.fst (Except.ok.inj h)
  rw [← hsame] at hrecords'
  exact eq_of_mapM_id hrecords hrecords'

def PriceTable.Comparable (table : PriceTable) : Prop := ∀ row ∈ table.rows, row.close ≠ some .nan ∧ row.volume ≠ some .nan

theorem isPositive_ok {number : Option PriceNumber} (h : number ≠ some .nan) : ∃ b, isPositive number = .ok b := by
  rcases number with _ | ⟨value | negative | _⟩
  · exact ⟨_, rfl⟩
  · exact ⟨_, rfl⟩
  · exact ⟨_, rfl⟩
  · exact absurd rfl h

theorem isActive_ok (h : row.close ≠ some .nan ∧ row.volume ≠ some .nan) : ∃ b, (maskBarOf row).isActive = .ok b := by
  obtain ⟨traded, htraded⟩ := isPositive_ok h.2
  obtain ⟨priced, hpriced⟩ := isPositive_ok h.1
  simp only [MaskBar.isActive, maskBarOf, htraded, hpriced]
  cases traded
  · exact ⟨false, rfl⟩
  · exact ⟨priced, rfl⟩

theorem evaluate_ok (h : ∀ bar ∈ bars, ∃ b, bar.isActive = .ok b) :
    ∃ record, evaluateSymbolPit symbol cutoff listing bars minPeriods resolution = .ok record := by
  by_cases hlisting : listing.any fun day => cutoff < day
  · exact ⟨_, evaluate_of_unlisted hlisting⟩
  by_cases hempty : (bars.filter fun bar => bar.date ≤ cutoff) = []
  · exact ⟨_, evaluate_of_empty rfl hlisting hempty⟩
  by_cases hshort : ((bars.filter fun bar => bar.date ≤ cutoff).length : ℤ) < minPeriods
  · exact ⟨_, evaluate_of_short rfl hlisting hempty hshort⟩
  obtain ⟨latest, hmax, hfind⟩ := exists_latestBar hempty
  obtain ⟨active, hactive⟩ := h latest (List.mem_of_mem_filter (List.mem_of_find?_eq_some hfind))
  rw [evaluate_of_latest rfl hlisting hshort hmax hfind, hactive]
  split_ifs
  · exact ⟨_, rfl⟩
  · exact ⟨_, rfl⟩

theorem maskOutcomes_ok {barsOf : String → List MaskBar} {dates : Dict String Date}
    (h : ∀ symbol, ∀ bar ∈ barsOf symbol, ∃ b, bar.isActive = .ok b) :
    ∃ records, (maskOutcomes barsOf symbols cutoffDates dates minPeriods resolution).mapM id = .ok records := by
  refine exists_mapM_ok fun outcome houtcome => ?_
  obtain ⟨cutoff, -, houtcome⟩ := List.mem_flatMap.mp houtcome
  obtain ⟨symbol, -, rfl⟩ := List.mem_map.mp houtcome
  exact evaluate_ok (h symbol)

theorem queryOutcomes_ok (h : table.Comparable) : ∃ records,
    (queryOutcomes query table symbols cutoffDates adjust listingDates minPeriods resolution).mapM id = .ok records := by
  unfold queryOutcomes
  cases cutoffDates.max? with
  | none => exact ⟨[], rfl⟩
  | some maxCutoff =>
    refine maskOutcomes_ok fun symbol bar hbar => ?_
    obtain ⟨row, hrow, rfl⟩ := List.mem_map.mp (List.mem_of_mem_filter hbar)
    exact isActive_ok (h row (List.mem_of_mem_filter ((query.perm _).mem_iff.mp hrow)))

theorem latestOutcomes_ok (h : table.Comparable) : ∃ records,
    (latestOutcomes table symbols cutoffDates adjust listingDates minPeriods resolution).mapM id = .ok records := by
  refine maskOutcomes_ok fun symbol bar hbar => ?_
  obtain ⟨row, hrow, rfl⟩ := List.mem_map.mp hbar
  exact isActive_ok (h row (List.mem_of_mem_filter (List.mem_of_mem_filter hrow)))

/-- For every order of the rows each outcome is that of the latest vintages exactly when the earlier ones decide nothing; then so
are the records and the mask, and only then where no number is a NaN. -/
theorem universe_mask_latest_iff (table : PriceTable) (symbols : List String) (cutoffDates : List Date) (adjust : String)
    (listingDates : Option (Dict String Date)) (minPeriods : ℤ) (resolution : String) :
    ((∀ query, queryOutcomes query table symbols cutoffDates adjust listingDates minPeriods resolution =
      latestOutcomes table symbols cutoffDates adjust listingDates minPeriods resolution) ↔
      ∀ cutoff ∈ cutoffDates, ∀ symbol ∈ symbols, VintagesAgree table adjust symbol cutoff
        ((listingDates.getD Dict.empty).get? symbol) minPeriods resolution) ∧
    ((∀ cutoff ∈ cutoffDates, ∀ symbol ∈ symbols, VintagesAgree table adjust symbol cutoff
        ((listingDates.getD Dict.empty).get? symbol) minPeriods resolution) →
      ∀ query mask, computeAndPersistUniverseMaskFromDb query table mask symbols cutoffDates adjust listingDates
          minPeriods resolution =
        persistOutcomes mask (latestOutcomes table symbols cutoffDates adjust listingDates minPeriods resolution)) ∧
    (table.Comparable →
      (∀ query mask, computeAndPersistUniverseMaskFromDb query table mask symbols cutoffDates adjust listingDates
          minPeriods resolution =
        persistOutcomes mask (latestOutcomes table symbols cutoffDates adjust listingDates minPeriods resolution)) →
      ∀ cutoff ∈ cutoffDates, ∀ symbol ∈ symbols, VintagesAgree table adjust symbol cutoff
        ((listingDates.getD Dict.empty).get? symbol) minPeriods resolution) := by
  refine ⟨queryOutcomes_iff, fun h query mask => ?_, fun hcomparable h => queryOutcomes_iff.mp fun query => ?_⟩
  · rw [computeAndPersist_eq, queryOutcomes_iff.mpr h query]
  · have hsame := h query Dict.empty
    rw [computeAndPersist_eq] at hsame
    exact eq_of_persistOutcomes (queryOutcomes_ok query hcomparable) (latestOutcomes_ok hcomparable) hsame

def juneVintage (volume : ℚ) (recordedAt : Instant) : PriceRow :=
  { «open» := some (.finite 10)
    high := some (.finite 10)
    low := some (.finite 10)
    close := some (.finite 10)
    volume := some (.finite volume)
    symbol := "AAPL"
    tradingDate := ordinal 2026 6 30
    source := "twelvedata"
    adjust := splitAdjusted
    transactionTime := ordinal 2026 6 30 * microsPerDay
    recordedAt := ordinal 2026 7 1 * microsPerDay + recordedAt }

def restatedTable : PriceTable where
  rows := (List.range 12).map fun n => juneVintage 5 n
  recorded := by decide +kernel

def correctedTable : PriceTable where
  rows := [juneVintage 0 0, juneVintage 5 1]
  recorded := by decide +kernel

/-- Twelve vintages of one bar count as twelve periods, and a corrected volume need not be read. -/
theorem restatements_decide :
    ¬ (∀ (query : QueryOrder) (table : PriceTable) (mask : MaskTable) (symbols : List String) (cutoffDates : List Date)
      (adjust : String) (listingDates : Option (Dict String Date)) (minPeriods : ℤ) (resolution : String),
      computeAndPersistUniverseMaskFromDb query table mask symbols cutoffDates adjust listingDates minPeriods resolution =
        persistOutcomes mask (latestOutcomes table symbols cutoffDates adjust listingDates minPeriods resolution)) ∧
    (computeAndPersistUniverseMaskFromDb (rowFirst (juneVintage 5 0)) restatedTable Dict.empty ["AAPL"]
        [ordinal 2026 6 30] splitAdjusted none 12 "1M").map Prod.fst =
      .ok [⟨"AAPL", ordinal 2026 6 30, true, .ok, "1M"⟩] ∧
    latestOutcomes restatedTable ["AAPL"] [ordinal 2026 6 30] splitAdjusted none 12 "1M" =
      [.ok ⟨"AAPL", ordinal 2026 6 30, false, .insufficientHistory, "1M"⟩] ∧
    (computeAndPersistUniverseMaskFromDb (rowFirst (juneVintage 0 0)) correctedTable Dict.empty ["AAPL"]
        [ordinal 2026 6 30] splitAdjusted none 1 "1M").map Prod.fst =
      .ok [⟨"AAPL", ordinal 2026 6 30, false, .suspended, "1M"⟩] ∧
    latestOutcomes correctedTable ["AAPL"] [ordinal 2026 6 30] splitAdjusted none 1 "1M" =
      [.ok ⟨"AAPL", ordinal 2026 6 30, true, .ok, "1M"⟩] := by
  have heligible : (computeAndPersistUniverseMaskFromDb (rowFirst (juneVintage 5 0)) restatedTable Dict.empty ["AAPL"]
      [ordinal 2026 6 30] splitAdjusted none 12 "1M").map Prod.fst =
        .ok [⟨"AAPL", ordinal 2026 6 30, true, .ok, "1M"⟩] := by rfl
  have hshort : latestOutcomes restatedTable ["AAPL"] [ordinal 2026 6 30] splitAdjusted none 12 "1M" =
      [.ok ⟨"AAPL", ordinal 2026 6 30, false, .insufficientHistory, "1M"⟩] := by rfl
  refine ⟨fun h => ?_, heligible, hshort, ?_, ?_⟩
  · rw [h, hshort] at heligible
    cases heligible
  · rfl
  · rfl

end TrueAlpha.Datahub
