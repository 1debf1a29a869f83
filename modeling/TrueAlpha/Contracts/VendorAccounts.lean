import TrueAlpha.Lib.Dict
import TrueAlpha.Lib.QueryText

/-!
# Vendor accounts

The vendor accounts of the environment contract; the checks of its validators are fields.  `accountShare` is
`EnvironmentContract.account_share`.
-/

namespace TrueAlpha.Contracts

inductive EnvironmentKey where
  | preview
  | staging
  | production
  deriving DecidableEq, Repr

def EnvironmentKey.name : EnvironmentKey → String
  | preview => "preview"
  | staging => "staging"
  | production => "production"

def environmentKeys : List EnvironmentKey := [.preview, .staging, .production]

/-- The white space that `str.strip` removes. -/
def isSpace (c : Char) : Bool := c.toNat ∈ [32, 133, 160, 5760, 8232, 8233, 8239, 8287, 12288] ∨ (9 ≤ c.toNat ∧ c.toNat ≤ 13) ∨
    (28 ≤ c.toNat ∧ c.toNat ≤ 31) ∨ (8192 ≤ c.toNat ∧ c.toNat ≤ 8202)

def strip (text : String) : String := String.ofList (((text.toList.dropWhile isSpace).reverse.dropWhile isSpace).reverse)

theorem strip_strip (text : String) : strip (strip text) = strip text := by
  rw [strip, strip, String.toList_ofList, strip_idempotent]

def normalizeEnvironment (environment : String) : String :=
  let name := (strip environment).toLower
  if name = "prod" then "production" else name

/-- A percent table that `_check_percents` accepts. -/
structure PercentTable where
  percent : EnvironmentKey → ℕ
  le_hundred : ∀ key, percent key ≤ 100
  sum_le_hundred : percent .preview + percent .staging + percent .production ≤ 100

inductive AccountHolder where
  | apiKey
  | hostIp
  | account
  deriving DecidableEq, Repr

inductive LimitUnit where
  | request
  | distinctStock
  deriving DecidableEq, Repr

inductive EvidenceKind where
  | published
  | measured
  | nonePublished
  | notKnown
  | selfImposed
  deriving DecidableEq, Repr

def EvidenceKind.hasFigure (kind : EvidenceKind) : Bool := kind ∈ [published, measured, selfImposed]

structure VendorLimit where
  id : String
  unit : LimitUnit
  amount : Option ℕ
  windowSeconds : Option ℕ
  evidence : EvidenceKind
  amount_pos : ∀ n ∈ amount, 0 < n
  window_pos : ∀ n ∈ windowSeconds, 0 < n
  amount_of_evidence : evidence.hasFigure = amount.isSome
  window_of_amount : amount.isSome → windowSeconds.isSome

def VendorLimit.divided (limit : VendorLimit) : Bool := limit.amount.isSome ∧ limit.evidence ≠ .selfImposed

def requestWindows (limits : List VendorLimit) : List (Option ℕ) :=
  (limits.filter fun limit => limit.unit = .request ∧ limit.amount.isSome).map VendorLimit.windowSeconds

structure VendorAccount where
  holder : AccountHolder
  seats : List String
  percent : Option PercentTable
  limits : List VendorLimit
  seats_ne_nil : seats ≠ []
  limits_ne_nil : limits ≠ []
  nodup_seats : seats.Nodup
  nodup_ids : (limits.map VendorLimit.id).Nodup
  nodup_windows : (requestWindows limits).Nodup

structure VendorAccounts where
  defaultPercent : PercentTable
  accounts : Dict String VendorAccount
  accounts_ne_nil : accounts.items ≠ []
  nodup_seats : (accounts.values.flatMap VendorAccount.seats).Nodup

structure LimitShare where
  limitId : String
  unit : LimitUnit
  windowSeconds : Option ℕ
  amount : Option ℕ
  share : Option ℕ
  divided : Bool
  deriving DecidableEq, Repr

structure AccountShare where
  account : String
  environment : String
  percent : ℕ
  limits : List LimitShare
  deriving DecidableEq, Repr

/-- The calls that the environment may make in a window. -/
def AccountShare.shareInWindow (share : AccountShare) (windowSeconds : ℕ) : Option ℕ := (share.limits.find? fun limit =>
    limit.unit = .request ∧ limit.windowSeconds = some windowSeconds ∧ limit.share.isSome).bind LimitShare.share

/-- No request limit has a share below one call. -/
def AccountShare.admitsACall (share : AccountShare) : Bool :=
  ∀ limit ∈ share.limits, limit.unit = .request → ∀ n ∈ limit.share, 1 ≤ n

namespace VendorAccounts

variable (contract : VendorAccounts)

/-- The account that a seat draws from. -/
def accountOfSeat (seat : String) : Option (String × VendorAccount) :=
  contract.accounts.items.find? fun item => seat ∈ item.2.seats

/-- The percent of a named environment. -/
def percentOf (row : VendorAccount) (environment : String) : Option ℕ :=
  (environmentKeys.find? fun key => key.name = environment).map (row.percent.getD contract.defaultPercent).percent

/-- An environment not in the table has the whole of an account that its host holds, and nothing of another. -/
def percentIn (row : VendorAccount) (environment : String) : ℕ :=
  (contract.percentOf row environment).getD (if row.holder = .hostIp then 100 else 0)

def limitShare (percent : ℕ) (limit : VendorLimit) : LimitShare where
  limitId := limit.id
  unit := limit.unit
  windowSeconds := limit.windowSeconds
  amount := limit.amount
  share := limit.amount.map fun amount => if limit.divided then amount * percent / 100 else amount
  divided := limit.divided

def accountShare (account environment : String) : Option AccountShare := (contract.accounts.get? account).map fun row =>
    let named := normalizeEnvironment environment
    let percent := contract.percentIn row named
    ⟨account, named, percent, row.limits.map (limitShare percent)⟩

end VendorAccounts

theorem normalizeEnvironment_name (key : EnvironmentKey) : normalizeEnvironment key.name = key.name := by
  cases key <;> decide +kernel

theorem percentIn_name (contract : VendorAccounts) (row : VendorAccount) (key : EnvironmentKey) :
    contract.percentIn row key.name = (row.percent.getD contract.defaultPercent).percent key := by
  cases key <;> rfl

theorem sum_shares_le (table : PercentTable) (amount : ℕ) :
    amount * table.percent .preview / 100 + amount * table.percent .staging / 100 +
      amount * table.percent .production / 100 ≤ amount := by
  have hsum : amount * (table.percent .preview + table.percent .staging + table.percent .production) ≤ amount * 100 :=
    Nat.mul_le_mul_left amount table.sum_le_hundred
  rw [Nat.mul_add, Nat.mul_add] at hsum
  omega

end TrueAlpha.Contracts
