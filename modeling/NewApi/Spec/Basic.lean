import Mathlib.Data.Int.Notation
import Mathlib.Data.List.DropRight

/-!
# Shared vocabulary of the billing code

The four funding pools of a user and the errors of the billing functions. The
Go code passes the pools around as the strings `"wallet"`, `"subscription"`,
`"requests"`, `"tokens"` (`service/billing.go`); an error keeps the values its
message prints.
-/

namespace NewApi

inductive BillingSource
  | wallet | subscription | requests | tokens
  deriving DecidableEq, Repr

inductive Err
  /-- the database driver reported an error -/
  | db
  /-- "quota 不能为负数！" -/
  | negativeQuota
  /-- "token quota is not enough, token remain quota: …, need quota: …" -/
  | tokenQuotaNotEnough (remain need : ℤ)
  /-- `ErrInsufficientWalletQuota`: "wallet quota insufficient" -/
  | insufficientWalletQuota
  /-- `ErrInsufficientRequests`: "requests balance insufficient" -/
  | insufficientRequests
  /-- `ErrInsufficientTokens`: "tokens balance insufficient" -/
  | insufficientTokens
  /-- "requestId is empty" -/
  | requestIdEmpty
  /-- "amount must be > 0" -/
  | amountNotPositive
  /-- "subscription pre-consume already refunded" -/
  | alreadyRefunded
  /-- "no active subscription" -/
  | noActiveSubscription
  /-- "subscription quota insufficient, need=…" -/
  | subscriptionQuotaInsufficient (need : ℤ)
  /-- "invalid userSubscriptionId" -/
  | invalidUserSubscriptionId
  | recordNotFound
  /-- "subscription used exceeds total, used=… total=…" -/
  | usedExceedsTotal (used total : ℤ)
  /-- the reset catch-up loop does not end, so the call does not return -/
  | hangs
  /-- "model … is restricted to the available redemption balance" -/
  | modelRestricted (model : String)
  /-- "subscription id is missing" -/
  | subscriptionIdMissing
  /-- "pre-consume quota cannot be negative: …" -/
  | preConsumeNegative (quota : ℤ)
  /-- "quota conversion (…) …: original=…, clamped=…" -/
  | quotaClamped (original : ℤ)
  /-- a pool is switched off, empty, or closed to the model -/
  | poolUnavailable (source : BillingSource)
  /-- "bütçe havuzlarınız tükendi (öncelik sırası: …)" -/
  | poolsExhausted (priority : List BillingSource)
  deriving DecidableEq, Repr

/-- The answer of the quota scripts in Redis (`cacheQuotaResult`). An error falls back to the database as a miss does.
-/
inductive CacheQuotaResult
  | insufficient | ok | miss
  deriving DecidableEq, Repr

/-! ## Saturation

`common/quota_math.go`: quota columns are 32-bit integers, so a conversion clamps. -/

inductive QuotaClampKind
  | overflow
  | underflow
  deriving DecidableEq, Repr

structure QuotaClamp where
  kind : QuotaClampKind
  (original clamped : ℤ)
  deriving DecidableEq, Repr

def maxQuota : ℤ := 2147483647

def minQuota : ℤ := -2147483648

def saturateQuota (value : ℤ) : ℤ × Option QuotaClamp :=
  if maxQuota ≤ value then (maxQuota, some ⟨.overflow, value, maxQuota⟩)
  else if value ≤ minQuota then (minQuota, some ⟨.underflow, value, minQuota⟩)
  else (value, none)

inductive ErrorCode
  | readRequestBodyFailed | badRequestBody | convertRequestFailed | countTokenFailed | accessDenied
  | invalidRequest | sensitiveWordsDetected | modelPriceError | insufficientUserQuota
  | preConsumeTokenQuotaFailed | genRelayInfoFailed | invalidApiType | badResponseStatusCode
  | getChannelFailed | updateDataError | queryDataError
  /-- the codes that start with `channel:` -/
  | channel (name : String)
  | other (name : String)
  deriving DecidableEq, Repr

/-- `unicode.IsSpace` -/
def isSpace (c : Char) : Bool :=
  let n := c.toNat
  if n < 128 then 9 ≤ n && n ≤ 13 || n == 32
  else n == 0x85 || n == 0xa0 || n == 0x1680 || 0x2000 ≤ n && n ≤ 0x200a || n == 0x2028 || n == 0x2029 || n == 0x202f ||
    n == 0x205f || n == 0x3000

/-- `strings.TrimSpace` -/
def trimSpace (s : String) : String :=
  String.ofList ((s.toList.dropWhile isSpace).rdropWhile isSpace)

theorem trimSpace_toList (s : String) :
    (trimSpace s).toList = (s.toList.dropWhile isSpace).rdropWhile isSpace :=
  String.toList_ofList

theorem trimSpace_length (s : String) : (trimSpace s).length ≤ s.length := by
  rw [← String.length_toList, ← String.length_toList, trimSpace_toList]
  have hback := ( List.rdropWhile_prefix isSpace (s.toList.dropWhile isSpace)).length_le
  have hfront := (List.dropWhile_suffix (l := s.toList) isSpace).length_le
  omega

theorem trimSpace_trimSpace (s : String) : trimSpace (trimSpace s) = trimSpace s := by
  have hfront : (trimSpace s).toList.dropWhile isSpace = (trimSpace s).toList := by
    rw [trimSpace_toList, List.dropWhile_eq_self_iff]
    intro hne
    rw [( List.rdropWhile_prefix isSpace _).getElem hne]
    exact List.dropWhile_eq_self_iff.1 (List.dropWhile_idempotent isSpace s.toList) _
  rw [← String.toList_inj, trimSpace_toList (trimSpace s), hfront, trimSpace_toList, List.rdropWhile_idempotent]

def isBlank (s : String) : Bool := s.toList.all isSpace

end NewApi
