import TrueAlpha.Sources.Pacing
import TrueAlpha.Sources.Refusals

/-!
# One limit, shared by the environments

The capacity of a seat in an environment is its share of the limits of its account (`capacity_of_limit`).  So the gates of the
named environments together keep each limit, in every window or on every UTC day.
-/

namespace TrueAlpha.Sources

open Contracts

variable {source seat name : String} {capacity : SourceCapacity} {contract : VendorAccounts}
  {capacities : Dict String SourceCapacity} {row : VendorAccount} {limit : VendorLimit} {amount window : ℕ}
  {declared : CapacityDeclaration}

theorem build_eq_ok {windowSeconds : Option ℚ} {callsPerWindow dailyBudget : Option ℕ} {account : Option String}
    {pool : List String}
    (h : SourceCapacity.build source windowSeconds callsPerWindow dailyBudget account pool = .ok capacity) :
    capacity.source = source ∧ capacity.windowSeconds = windowSeconds ∧ capacity.callsPerWindow = callsPerWindow ∧
      capacity.dailyBudget = dailyBudget ∧ capacity.account = account ∧ capacity.pool = pool := by
  rw [SourceCapacity.build] at h
  split at h
  · cases h
    exact ⟨rfl, rfl, rfl, rfl, rfl, rfl⟩
  · cases h

theorem seatCapacity_eq_ok {entry : String × SourceCapacity} (h : seatCapacity contract seat = .ok entry) :
    entry.1 = seat ∧ ∃ name row declared, (name, row) ∈ contract.accounts.items ∧ seat ∈ row.seats ∧
      declarationOf name row = .ok declared ∧ SourceCapacity.declared seat row declared = .ok entry.2 := by
  obtain ⟨⟨row, declared⟩, hdeclaration, h⟩ := bind_eq_ok_iff.mp h
  obtain ⟨capacity, hcapacity, h⟩ := bind_eq_ok_iff.mp h
  cases h
  rw [declaration] at hdeclaration
  rcases haccount : contract.accountOfSeat seat with _ | ⟨name, row'⟩
  · rw [haccount] at hdeclaration
    cases hdeclaration
  · rw [haccount] at hdeclaration
    obtain ⟨declared', hof, heq⟩ := map_eq_ok_iff.mp hdeclaration
    cases heq
    have hseat := List.find?_some haccount
    exact ⟨rfl, name, row, declared, List.mem_of_find?_eq_some haccount, of_decide_eq_true hseat, hof, hcapacity⟩

theorem keys_of_seatCapacities {contract : VendorAccounts} {seats : List String} {entries : List (String × SourceCapacity)}
    (h : List.Forall₂ (fun seat entry => seatCapacity contract seat = .ok entry) seats entries) :
    entries.map Prod.fst = seats := by
  induction h with
  | nil => rfl
  | cons hentry _ ih => rw [List.map_cons, (seatCapacity_eq_ok hentry).1, ih]

theorem ledgerCapacities_get? (h : ledgerCapacities contract = .ok capacities) (hget : capacities.get? seat = some capacity) :
    ∃ name row declared, (name, row) ∈ contract.accounts.items ∧ seat ∈ row.seats ∧
      declarationOf name row = .ok declared ∧ SourceCapacity.declared seat row declared = .ok capacity := by
  obtain ⟨entries, hentries, h⟩ := bind_eq_ok_iff.mp h
  cases h
  have hkeys := keys_of_seatCapacities (mapM_eq_ok_iff.mp hentries)
  have hmem := (Dict.get?_ofList_eq_some_iff (by rw [hkeys]; exact contract.nodup_seats) seat capacity).mp hget
  obtain ⟨seat', -, hseat⟩ := exists_of_mem_mapM hentries hmem
  obtain ⟨heq, hrest⟩ := seatCapacity_eq_ok hseat
  cases heq
  exact hrest

theorem row_eq_of_seat {name' : String} {row' : VendorAccount} (hrow : (name, row) ∈ contract.accounts.items)
    (hrow' : (name', row') ∈ contract.accounts.items) (hseat : seat ∈ row.seats) (hseat' : seat ∈ row'.seats) :
    row = row' := by
  by_contra hne
  have hdisjoint := (List.nodup_flatMap.mp contract.nodup_seats).2
  have hmem : row ∈ contract.accounts.values := List.mem_map_of_mem hrow
  have hmem' : row' ∈ contract.accounts.values := List.mem_map_of_mem hrow'
  have : Std.Symm (Function.onFun List.Disjoint VendorAccount.seats) := ⟨fun _ _ h => h.symm⟩
  exact hdisjoint.forall hmem hmem' hne hseat hseat'

theorem mem_figures (hlimit : limit ∈ row.limits) (hunit : limit.unit = .request)
    (hamount : limit.amount = some amount) (hwindow : limit.windowSeconds = some window) :
    (amount, window) ∈ figures row := by
  refine List.mem_filterMap.mpr ⟨limit, List.mem_filter.mpr ⟨hlimit, by simpa using hunit⟩, ?_⟩
  rw [hamount, hwindow]
  rfl

theorem declarationOf_figure (h : declarationOf name row = .ok declared) (hfigure : (amount, window) ∈ figures row) :
    (window ≠ daySeconds → declared.windowSeconds = some window ∧ declared.callsPerWindow = some amount) ∧
      (window = daySeconds → declared.dailyBudget = some amount) := by
  rw [declarationOf, if_neg] at h
  · have hrates : window ≠ daySeconds → (amount, window) ∈ (figures row).filter fun figure => figure.2 ≠ daySeconds :=
      fun hne => List.mem_filter.mpr ⟨hfigure, by simpa using hne⟩
    have hdays : window = daySeconds → (amount, window) ∈ (figures row).filter fun figure => figure.2 = daySeconds :=
      fun heq => List.mem_filter.mpr ⟨hfigure, by simpa using heq⟩
    dsimp only at h
    split at h
    · cases h
      rename_i hr hd
      rw [hr] at hrates
      rw [hd] at hdays
      refine ⟨fun hne => ?_, fun heq => absurd (hdays heq) (List.not_mem_nil)⟩
      cases List.mem_singleton.mp (hrates hne)
      exact ⟨rfl, rfl⟩
    · cases h
      rename_i hr hd
      rw [hr] at hrates
      rw [hd] at hdays
      refine ⟨fun hne => ?_, fun heq => ?_⟩
      · cases List.mem_singleton.mp (hrates hne)
        exact ⟨rfl, rfl⟩
      · cases List.mem_singleton.mp (hdays heq)
        rfl
    · cases h
  · intro hnone
    have hnil := (of_decide_eq_true hnone).1
    rw [hnil] at hfigure
    cases hfigure

theorem limit_eq_of_window {limit' : VendorLimit} (hlimit : limit ∈ row.limits) (hlimit' : limit' ∈ row.limits)
    (hunit : limit.unit = .request) (hunit' : limit'.unit = .request) (hamount : limit.amount.isSome)
    (hamount' : limit'.amount.isSome) (hwindow : limit.windowSeconds = limit'.windowSeconds) : limit = limit' := by
  refine List.inj_on_of_nodup_map row.nodup_windows (List.mem_filter.mpr ⟨hlimit, ?_⟩)
    (List.mem_filter.mpr ⟨hlimit', ?_⟩) hwindow
  · exact decide_eq_true ⟨hunit, hamount⟩
  · exact decide_eq_true ⟨hunit', hamount'⟩

theorem shareInWindow_limit (hlimit : limit ∈ row.limits) (hunit : limit.unit = .request)
    (hamount : limit.amount = some amount) (hwindow : limit.windowSeconds = some window)
    (hdivided : limit.divided = true) (account environment : String) (percent : ℕ) :
    (AccountShare.mk account environment percent (row.limits.map (VendorAccounts.limitShare percent))).shareInWindow
      window = some (amount * percent / 100) := by
  have hsome : limit.amount.isSome := by rw [hamount]; rfl
  rw [AccountShare.shareInWindow, List.find?_map]
  rcases hfound : row.limits.find? ((fun share : LimitShare => decide (share.unit = .request ∧
      share.windowSeconds = some window ∧ share.share.isSome)) ∘ VendorAccounts.limitShare percent) with _ | found
  · have hnot := List.find?_eq_none.mp hfound limit hlimit
    simp [VendorAccounts.limitShare, hunit, hwindow, hsome] at hnot
  · have hpasses := List.find?_some hfound
    simp only [Function.comp_apply, VendorAccounts.limitShare, decide_eq_true_eq, Option.isSome_map] at hpasses
    obtain rfl := limit_eq_of_window hlimit (List.mem_of_find?_eq_some hfound) hunit hpasses.1 hsome hpasses.2.2
      (hwindow.trans hpasses.2.1.symm)
    simp [VendorAccounts.limitShare, hamount, hdivided]

theorem not_admitsACall (hlimit : limit ∈ row.limits) (hunit : limit.unit = .request)
    (hamount : limit.amount = some amount) (hdivided : limit.divided = true) (account environment : String)
    {percent : ℕ} (hshare : amount * percent / 100 < 1) :
    (AccountShare.mk account environment percent (row.limits.map (VendorAccounts.limitShare percent))).admitsACall
      = false := by
  rw [AccountShare.admitsACall, decide_eq_false_iff_not]
  intro h
  have hone := h (VendorAccounts.limitShare percent limit) (List.mem_map_of_mem hlimit) hunit (amount * percent / 100)
    (by simp [VendorAccounts.limitShare, hamount, hdivided])
  omega

def gateIn (contract : VendorAccounts) (capacities : Dict String SourceCapacity) (key : EnvironmentKey)
    (readsWindow : Bool) (maxWaitSeconds : ℚ) : Gate :=
  ⟨contract, capacities, key.name, readsWindow, maxWaitSeconds⟩

def percentFor (contract : VendorAccounts) (row : VendorAccount) (key : EnvironmentKey) : ℕ :=
  (row.percent.getD contract.defaultPercent).percent key

def poolOf (row : VendorAccount) : String := row.seats.head row.seats_ne_nil

def shareFor (contract : VendorAccounts) (name : String) (row : VendorAccount) (key : EnvironmentKey) : AccountShare :=
  ⟨name, key.name, percentFor contract row key, row.limits.map (VendorAccounts.limitShare (percentFor contract row key))⟩

theorem accountShare_name (hrow : (name, row) ∈ contract.accounts.items) (key : EnvironmentKey) :
    contract.accountShare name key.name = some (shareFor contract name row key) := by
  rw [VendorAccounts.accountShare, (Dict.get?_eq_some_iff _ _ _).mpr hrow, Option.map_some, normalizeEnvironment_name]
  dsimp only
  rw [percentIn_name]
  rfl

theorem declarationOf_account (h : declarationOf name row = .ok declared) : declared.account = name := by
  rw [declarationOf] at h
  split at h
  · cases h
    rfl
  · dsimp only at h
    split at h
    · cases h
      rfl
    · cases h
      rfl
    · cases h

structure CapacityFor (contract : VendorAccounts) (key : EnvironmentKey) (capacity : SourceCapacity) (name : String)
    (row : VendorAccount) (declared : CapacityDeclaration) : Prop where
  row_mem : (name, row) ∈ contract.accounts.items
  declaration : declarationOf name row = .ok declared
  pool : capacity.poolKey = poolOf row
  window : capacity.windowSeconds = declared.windowSeconds.map fun window : ℕ => (window : ℚ)
  admits : (shareFor contract name row key).admitsACall = true
  calls : capacity.callsPerWindow = declared.windowSeconds.bind (shareFor contract name row key).shareInWindow
  budget : capacity.dailyBudget = declared.dailyBudget.bind fun _ =>
    (shareFor contract name row key).shareInWindow daySeconds

theorem capacityOf_gateIn (hcapacities : ledgerCapacities contract = .ok capacities) {key : EnvironmentKey}
    {readsWindow : Bool} {maxWaitSeconds : ℚ}
    (h : (gateIn contract capacities key readsWindow maxWaitSeconds).capacityOf source = .ok capacity) :
    ∃ name row declared, CapacityFor contract key capacity name row declared := by
  rw [Gate.capacityOf] at h
  split at h
  · cases h
  · rename_i whole hget
    obtain ⟨name, row, declared, hrow, hseat, hdeclared, hbuild⟩ := ledgerCapacities_get? hcapacities hget
    obtain ⟨hsource, hwindow, hcalls, hbudget, haccount, hpool⟩ := build_eq_ok hbuild
    refine ⟨name, row, declared, ?_⟩
    split at h
    · cases h
    · cases h
    · rename_i capacity' hshare
      cases h
      change SourceCapacity.inEnvironment contract key.name whole = _ at hshare
      rw [SourceCapacity.inEnvironment, haccount, declarationOf_account hdeclared] at hshare
      dsimp only at hshare
      rw [accountShare_name hrow] at hshare
      dsimp only at hshare
      split at hshare
      · rename_i hadmits
        obtain ⟨_, hscaled, heq⟩ := map_eq_ok_iff.mp hshare
        cases heq
        obtain ⟨-, hwindow', hcalls', hbudget', -, hpool'⟩ := build_eq_ok hscaled
        refine ⟨hrow, hdeclared, ?_, hwindow'.trans hwindow, hadmits, ?_, ?_⟩
        · rw [SourceCapacity.poolKey, hpool', hpool, poolOf, List.headD_eq_head?_getD, List.head?_eq_some_head row.seats_ne_nil,
            Option.getD_some]
        · rw [hcalls', hwindow, Option.bind_map]
          congr 1
        · rw [hbudget', hbudget]
      · cases hshare

structure DividedLimit (contract : VendorAccounts) (row : VendorAccount) (amount window : ℕ) : Prop where
  row_mem : ∃ name, (name, row) ∈ contract.accounts.items
  limit : ∃ limit ∈ row.limits, limit.unit = .request ∧ limit.amount = some amount ∧
    limit.windowSeconds = some window ∧ limit.divided = true

def shareOf (contract : VendorAccounts) (row : VendorAccount) (amount : ℕ) (key : EnvironmentKey) : ℕ :=
  amount * percentFor contract row key / 100

theorem capacity_of_limit (hcapacities : ledgerCapacities contract = .ok capacities)
    (hlimit : DividedLimit contract row amount window) {key : EnvironmentKey} {readsWindow : Bool}
    {maxWaitSeconds : ℚ}
    (h : (gateIn contract capacities key readsWindow maxWaitSeconds).capacityOf source = .ok capacity)
    (hpool : capacity.poolKey = poolOf row) :
    1 ≤ shareOf contract row amount key ∧ (window ≠ daySeconds → capacity.windowSeconds = some (window : ℚ) ∧
        capacity.callsPerWindow = some (shareOf contract row amount key)) ∧
      (window = daySeconds → capacity.dailyBudget = some (shareOf contract row amount key)) := by
  obtain ⟨name, row', declared, hfor⟩ := capacityOf_gateIn hcapacities h
  obtain ⟨name', hrow⟩ := hlimit.row_mem
  obtain ⟨limit, hmem, hunit, hamount, hwindow, hdivided⟩ := hlimit.limit
  have hseats : poolOf row' ∈ row'.seats := List.head_mem row'.seats_ne_nil
  have hseats' : poolOf row' ∈ row.seats := by
    rw [← hfor.pool, hpool]
    exact List.head_mem row.seats_ne_nil
  obtain rfl := row_eq_of_seat hfor.row_mem hrow hseats hseats'
  obtain ⟨hrate, hday⟩ := declarationOf_figure hfor.declaration (mem_figures hmem hunit hamount hwindow)
  have hshare := shareInWindow_limit hmem hunit hamount hwindow hdivided name key.name (percentFor contract row' key)
  refine ⟨?_, fun hne => ?_, fun heq => ?_⟩
  · by_contra hzero
    have hrefused := not_admitsACall hmem hunit hamount hdivided name key.name (not_le.mp hzero)
    have hadmits := hfor.admits
    rw [shareFor, hrefused] at hadmits
    cases hadmits
  · obtain ⟨hseconds, -⟩ := hrate hne
    rw [hfor.window, hfor.calls, hseconds]
    exact ⟨rfl, hshare⟩
  · rw [hfor.budget, hday heq, Option.bind_some, ← heq]
    exact hshare

/-! ## The shared limit -/

def worldIn (clock : ℕ → ℚ) (now : ℕ → Instant) (position : ℕ → ℕ) (ledger : Ledger) : World :=
  ⟨fun n => clock (position n), fun n => now (position n), ledger⟩

def total (f : EnvironmentKey → ℕ) : ℕ := f .preview + f .staging + f .production

theorem total_le {f : EnvironmentKey → ℕ} (h : ∀ key, f key ≤ shareOf contract row amount key) : total f ≤ amount := by
  have hsum := sum_shares_le (row.percent.getD contract.defaultPercent) amount
  have hpreview := h .preview
  have hstaging := h .staging
  have hproduction := h .production
  simp only [shareOf, percentFor] at hpreview hstaging hproduction
  rw [total]
  omega

/-- Each gate keeps its environment's share in every window of a divided limit or on every UTC day; the gates together keep the
amount; an environment with a share below one call admits none. -/
theorem vendor_limit_kept {contract : VendorAccounts} {capacities : Dict String SourceCapacity}
    (hcapacities : ledgerCapacities contract = .ok capacities) {row : VendorAccount} {amount window : ℕ}
    (hlimit : DividedLimit contract row amount window) {clock : ℕ → ℚ} {now : ℕ → Instant} (hclock : Monotone clock)
    (hnow : Monotone now) {position : EnvironmentKey → ℕ → ℕ} (hposition : ∀ key, Monotone (position key))
    (ledger : EnvironmentKey → Ledger) (readsWindow : EnvironmentKey → Bool) (maxWaitSeconds : EnvironmentKey → ℚ)
    (requests : EnvironmentKey → List (String × ℕ)) {run : EnvironmentKey → GateRun}
    (hrun : ∀ key, runCalls (gateIn contract capacities key (readsWindow key) (maxWaitSeconds key))
      (worldIn clock now (position key) (ledger key)) (requests key) = .ok (run key)) :
    (window ≠ daySeconds → (∀ key, (∀ admission ∈ (run key).log, admission.pool = poolOf row → admission.tick.isSome) ∧
        Paced (window : ℚ) (shareOf contract row amount key) (ticksOf (run key).log (poolOf row)) ∧
        ∀ i (hi : i + shareOf contract row amount key < (ticksOf (run key).log (poolOf row)).length),
          (ticksOf (run key).log (poolOf row))[i] + window ≤
            (ticksOf (run key).log (poolOf row))[i + shareOf contract row amount key]) ∧
      ∀ start, total (fun key => (inWindow start (window : ℚ) (ticksOf (run key).log (poolOf row))).length) ≤ amount) ∧
    (window = daySeconds → (∀ key day, admissionsOn (run key).log (poolOf row) day ≤ shareOf contract row amount key) ∧
      ∀ day, total (fun key => admissionsOn (run key).log (poolOf row) day) ≤ amount) ∧
    ∀ key, shareOf contract row amount key < 1 → ∀ admission ∈ (run key).log, admission.pool ≠ poolOf row := by
  have hclocks : ∀ key, Monotone (worldIn clock now (position key) (ledger key)).clock := fun key _ _ hle =>
    hclock (hposition key hle)
  have hnows : ∀ key, Monotone (worldIn clock now (position key) (ledger key)).now := fun key _ _ hle =>
    hnow (hposition key hle)
  refine ⟨fun hne => ?_, fun heq => ?_, fun key hzero => ?_⟩
  · have hpaced := fun key => paced_calls (hclocks key)
      (fun source capacity hcapacity hpool => (capacity_of_limit hcapacities hlimit hcapacity hpool).2.1 hne) (hrun key)
    refine ⟨fun key => ?_, fun start => total_le fun key => (hpaced key).1 start⟩
    obtain ⟨hkeeps, hsorted, hticked⟩ := hpaced key
    exact ⟨hticked, hkeeps, fun i hi => hkeeps.spaced hsorted hi⟩
  · have hbudget : ∀ key, BudgetOf (gateIn contract capacities key (readsWindow key) (maxWaitSeconds key)) (poolOf row)
        (shareOf contract row amount key) := fun key source capacity hcapacity hpool =>
      ⟨_, (capacity_of_limit hcapacities hlimit hcapacity hpool).2.2 heq, le_rfl⟩
    have hday := fun key day => admitted_on_day_le (hclocks key) (hnows key) (hbudget key) (hrun key) day
    exact ⟨hday, fun day => total_le fun key => hday key day⟩
  · intro admission hmem hpool
    obtain ⟨source, capacity, hcapacity, hkey⟩ := capacity_of_admission (hclocks key) (hrun key) admission hmem
    have hone := (capacity_of_limit hcapacities hlimit hcapacity (hkey.trans hpool)).1
    omega

/-! ### Two calls around midnight -/

theorem minute_pos : ∀ n ∈ some 60, 0 < n := by simp

theorem one_call_pos : ∀ n ∈ some 1, 0 < n := by simp

theorem published_hasFigure : EvidenceKind.published.hasFigure = true := rfl

def dailyAccount : VendorAccount where
  holder := .apiKey
  seats := ["seat"]
  percent := some ⟨fun key => if key = .production then 100 else 0, by rintro (_ | _ | _) <;> decide, by decide⟩
  limits := [⟨"per_minute", .request, some 8, some 60, .published, by simp, minute_pos, published_hasFigure, fun _ => rfl⟩,
    ⟨"per_day", .request, some 1, some 86400, .published, one_call_pos, by simp, published_hasFigure, fun _ => rfl⟩]
  seats_ne_nil := sampleAccount.seats_ne_nil
  limits_ne_nil := by simp
  nodup_seats := sampleAccount.nodup_seats
  nodup_ids := by decide
  nodup_windows := by decide

theorem fifth_le (_ : EnvironmentKey) : 20 ≤ 100 := by decide

theorem fifths_le : 20 + 20 + 20 ≤ 100 := by decide

def dailyContract : VendorAccounts where
  defaultPercent := ⟨fun _ => 20, fifth_le, fifths_le⟩
  accounts := Dict.ofList [("vendor", dailyAccount)]
  accounts_ne_nil := by decide
  nodup_seats := by decide

def midnightClock (n : ℕ) : ℚ := if n < 5 then 0 else 2

def midnightNow (n : ℕ) : Instant := if n < 5 then microsPerDay - 1000000 else microsPerDay + 1000000

def silentLedger : Ledger := ⟨fun _ _ _ => some 0, fun _ _ _ => some (0, none)⟩

theorem monotone_midnightClock : Monotone midnightClock := by
  intro n m hle
  simp only [midnightClock]
  split_ifs
  · exact le_rfl
  · norm_num
  · omega
  · exact le_rfl

theorem monotone_midnightNow : Monotone midnightNow := by
  intro n m hle
  simp only [midnightNow]
  split_ifs
  · exact le_rfl
  · decide
  · omega
  · exact le_rfl

theorem dividedLimit_day : DividedLimit dailyContract dailyAccount 1 86400 where
  row_mem := ⟨"vendor", List.mem_singleton.mpr rfl⟩
  limit := ⟨_, List.mem_cons_of_mem _ (List.mem_singleton.mpr rfl), rfl, rfl, rfl, rfl⟩

theorem dividedLimit_minute : DividedLimit dailyContract dailyAccount 8 60 where
  row_mem := ⟨"vendor", List.mem_singleton.mpr rfl⟩
  limit := ⟨_, List.mem_cons_self, rfl, rfl, rfl, rfl⟩

def midnightRequests : EnvironmentKey → List (String × ℕ)
  | .production => [("seat", 1), ("seat", 1)]
  | _ => []

theorem midnight_runs : ∃ capacities, ledgerCapacities dailyContract = .ok capacities ∧ ∃ run : EnvironmentKey → GateRun,
      (∀ key, runCalls (gateIn dailyContract capacities key false 900)
        (worldIn midnightClock midnightNow id silentLedger) (midnightRequests key) = .ok (run key)) ∧
      ticksOf (run .production).log (poolOf dailyAccount) = [0, 2] := by
  have hcapacities : (ledgerCapacities dailyContract).toOption.any fun capacities =>
      (runCalls (gateIn dailyContract capacities .production false 900)
        (worldIn midnightClock midnightNow id silentLedger) (midnightRequests .production)).toOption.any fun run =>
          decide (ticksOf run.log (poolOf dailyAccount) = [0, 2]) := by
    decide +kernel
  obtain ⟨capacities, hok, hrun⟩ := exists_ok_of_any hcapacities
  obtain ⟨run, hproduction, hticks⟩ := exists_ok_of_any hrun
  refine ⟨capacities, hok, fun key => if key = .production then run else .start, ?_, ?_⟩
  · rintro (_ | _ | _)
    · rfl
    · rfl
    · exact hproduction
  · exact of_decide_eq_true hticks

theorem vendor_limit_kept_minute : ∃ capacities, ledgerCapacities dailyContract = .ok capacities ∧
    ∃ run : EnvironmentKey → GateRun, ticksOf (run .production).log (poolOf dailyAccount) = [0, 2] ∧
      ∀ start, total (fun key => (inWindow start (60 : ℚ) (ticksOf (run key).log (poolOf dailyAccount))).length) ≤ 8 := by
  obtain ⟨capacities, hcapacities, run, hrun, hticks⟩ := midnight_runs
  exact ⟨capacities, hcapacities, run, hticks,
    ((vendor_limit_kept hcapacities dividedLimit_minute monotone_midnightClock monotone_midnightNow
      (fun _ => monotone_id) (fun _ => silentLedger) (fun _ => false) (fun _ => 900) midnightRequests hrun).1
      (by decide)).2⟩

/-- One call before midnight and one after are admitted, though the day's share is one call. -/
theorem daily_limit_is_no_window : ¬ ∀ (contract : VendorAccounts) (capacities : Dict String SourceCapacity),
      ledgerCapacities contract = .ok capacities → ∀ (row : VendorAccount) (amount window : ℕ),
      DividedLimit contract row amount window → ∀ (clock : ℕ → ℚ) (now : ℕ → Instant), Monotone clock → Monotone now →
      ∀ position : EnvironmentKey → ℕ → ℕ, (∀ key, Monotone (position key)) →
      ∀ (ledger : EnvironmentKey → Ledger) (readsWindow : EnvironmentKey → Bool) (maxWaitSeconds : EnvironmentKey → ℚ)
        (requests : EnvironmentKey → List (String × ℕ)) (run : EnvironmentKey → GateRun),
      (∀ key, runCalls (gateIn contract capacities key (readsWindow key) (maxWaitSeconds key))
        (worldIn clock now (position key) (ledger key)) (requests key) = .ok (run key)) →
      ∀ key, Paced (window : ℚ) (shareOf contract row amount key) (ticksOf (run key).log (poolOf row)) := by
  intro h
  obtain ⟨capacities, hcapacities, run, hrun, hticks⟩ := midnight_runs
  have hpaced := h dailyContract capacities hcapacities dailyAccount 1 86400 dividedLimit_day midnightClock midnightNow
    monotone_midnightClock monotone_midnightNow (fun _ => id) (fun _ => monotone_id) (fun _ => silentLedger)
    (fun _ => false) (fun _ => 900) midnightRequests run hrun .production 0
  rw [hticks] at hpaced
  revert hpaced
  decide +kernel

end TrueAlpha.Sources
