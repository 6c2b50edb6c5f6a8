import NewApi.Spec.Wss
import NewApi.Spec.QuotaReserve

/-!
# Top-up orders

`model/topup.go`: the order of a top-up, the functions that the gateways call when it has been paid, the
completion by an administrator and the ones that close it otherwise. Each is one transaction on the locked
row of the order and the row of its user, so that calls take effect one after the other.

`QuotaPerUnit` and the money of an order are the decimals that `decimal.NewFromFloat` makes of them.
-/

namespace NewApi

inductive TopUpStatus
  | pending | success | failed | expired
  deriving DecidableEq, Repr

inductive PaymentProvider
  /-- `""`, the default of the column -/
  | unset | epay | stripe | creem | waffo | waffoPancake | balance | shopier | payTR | payPal | iyzico
  | shopify
  deriving DecidableEq, Repr

structure TopUp where
  userId : ℕ
  amount : ℤ
  money : ℚ
  paymentMethod : String
  paymentProvider : PaymentProvider
  completeTime : ℤ
  status : TopUpStatus
  deriving DecidableEq

inductive TopUpErr
  /-- "未提供支付单号", "未提供订单号" -/
  | tradeNoEmpty
  /-- `ErrTopUpNotFound`: "topup not found" -/
  | topUpNotFound
  /-- "充值订单不存在" -/
  | orderMissing
  /-- `ErrPaymentMethodMismatch`: "payment method mismatch" -/
  | paymentMethodMismatch
  /-- `ErrTopUpStatusInvalid`: "topup status invalid" -/
  | topUpStatusInvalid
  /-- "充值订单状态错误" -/
  | orderStatusWrong
  /-- "订单状态不是待支付，无法补单" -/
  | notPending
  /-- `ErrInvalidTopUpQuota`: "invalid top-up quota" -/
  | invalidTopUpQuota
  /-- `ErrTopUpQuotaLimitExceeded`: "top-up quota limit exceeded" -/
  | quotaLimitExceeded
  | recordNotFound
  /-- "充值失败，请稍后重试" -/
  | rechargeFailed
  deriving DecidableEq, Repr

structure PayUser where
  (quota affQuota requestsBalance tokensBalance : ℤ)
  (email stripeCustomer : String)
  deriving DecidableEq, Repr

/-- The orders by their trade number, which is unique, and the users. -/
structure PayDB where
  orders : String → Option TopUp
  users : ℕ → Option PayUser

/-- `none` where the value would be clamped. -/
def quotaFromDecimalStrict (d : ℚ) : Option ℤ :=
  match quotaFromDecimalChecked d with
  | (quota, none) => some quota
  | (_, some _) => none

def topUpQuotaMaxCurrent (creditedQuota : ℤ) : Except TopUpErr ℤ :=
  if creditedQuota ≤ 0 ∨ maxQuota ≤ creditedQuota then .error .invalidTopUpQuota
  else .ok (maxQuota - 1 - creditedQuota)

def creditTopUpQuota (userId : ℕ) (creditedQuota : ℤ) (updates : PayUser → PayUser) (db : PayDB) :
    Except TopUpErr PayDB :=
  match topUpQuotaMaxCurrent creditedQuota with
  | .error e => .error e
  | .ok maxCurrentQuota =>
    match db.users userId with
    | none => .error .recordNotFound
    | some user =>
      if user.quota ≤ maxCurrentQuota then
        let user' := { updates user with quota := user.quota + creditedQuota }
        .ok { db with users := Function.update db.users userId (some user') }
      else .error .quotaLimitExceeded

structure Completion where
  notFound : TopUpErr
  provider : Option PaymentProvider
  idempotent : Bool
  statusErr : TopUpErr
  /-- `none` where the conversion fails -/
  quota : TopUp → Option ℤ
  order : TopUp → TopUp
  user : PayUser → PayUser

/-- The transaction of a completion: the credited quota, `none` when the order had succeeded before. -/
def completeTopUp (c : Completion) (now : ℤ) (tradeNo : String) (db : PayDB) : Except TopUpErr (Option ℤ × PayDB) :=
  if tradeNo = "" then .error .tradeNoEmpty
  else match db.orders tradeNo with
    | none => .error c.notFound
    | some topUp =>
      if c.provider.any (· ≠ topUp.paymentProvider) then .error .paymentMethodMismatch
      else if topUp.status = .success ∧ c.idempotent = true then .ok (none, db)
      else if topUp.status ≠ .pending then .error c.statusErr
      else match c.quota topUp with
        | none => .error .invalidTopUpQuota
        | some quota =>
          if quota ≤ 0 then .error .invalidTopUpQuota
          else
            let topUp' := { c.order topUp with completeTime := now, status := .success }
            let saved := { db with orders := Function.update db.orders tradeNo (some topUp') }
            (creditTopUpQuota topUp.userId quota c.user saved).map (some quota, ·)

def amountQuota (quotaPerUnit : ℚ) (topUp : TopUp) : Option ℤ := quotaFromDecimalStrict (topUp.amount * quotaPerUnit)

def moneyQuota (quotaPerUnit : ℚ) (topUp : TopUp) : Option ℤ := quotaFromDecimalStrict (topUp.money * quotaPerUnit)

/-- The functions that log the error of the transaction and return one text for all of them. -/
def orRechargeFailed {α : Type} (r : Except TopUpErr α) : Except TopUpErr α :=
  r.mapError fun err => if err = .tradeNoEmpty then err else .rechargeFailed

section Completions

variable (quotaPerUnit : ℚ) (now : ℤ) (tradeNo : String) (db : PayDB)

def rechargeEpay (actualPaymentMethod : String) : Except TopUpErr (Option ℤ × PayDB) :=
  completeTopUp
    { notFound := .topUpNotFound
      provider := some .epay
      idempotent := true
      statusErr := .topUpStatusInvalid
      quota := amountQuota quotaPerUnit
      order := fun topUp =>
        if actualPaymentMethod ≠ "" ∧ topUp.paymentMethod ≠ actualPaymentMethod then
          { topUp with paymentMethod := actualPaymentMethod }
        else topUp
      user := id } now tradeNo db

/-- There is no guard on the provider: the one of the caller is written into the order. -/
def rechargeByProvider (provider : PaymentProvider) : Except TopUpErr (Option ℤ × PayDB) :=
  completeTopUp
    { notFound := .topUpNotFound
      provider := none
      idempotent := true
      statusErr := .topUpStatusInvalid
      quota := amountQuota quotaPerUnit
      order := fun topUp => if provider ≠ .unset then { topUp with paymentProvider := provider } else topUp
      user := id } now tradeNo db

def recharge (customerId : String) : Except TopUpErr (Option ℤ × PayDB) :=
  orRechargeFailed <| completeTopUp
    { notFound := .orderMissing
      provider := some .stripe
      idempotent := false
      statusErr := .orderStatusWrong
      quota := moneyQuota quotaPerUnit
      order := id
      user := fun user => { user with stripeCustomer := customerId } } now tradeNo db

/-- The amount of a Creem order is the quota itself. -/
def rechargeCreem (customerEmail : String) : Except TopUpErr (Option ℤ × PayDB) :=
  orRechargeFailed <| completeTopUp
    { notFound := .orderMissing
      provider := some .creem
      idempotent := false
      statusErr := .orderStatusWrong
      quota := fun topUp => quotaFromDecimalStrict topUp.amount
      order := id
      user := fun user => if customerEmail ≠ "" ∧ user.email = "" then { user with email := customerEmail } else user }
    now tradeNo db

def rechargeWaffo : Except TopUpErr (Option ℤ × PayDB) :=
  orRechargeFailed <| completeTopUp
    { notFound := .orderMissing
      provider := some .waffo
      idempotent := true
      statusErr := .orderStatusWrong
      quota := amountQuota quotaPerUnit
      order := id
      user := id } now tradeNo db

def rechargeWaffoPancake : Except TopUpErr (Option ℤ × PayDB) :=
  orRechargeFailed <| completeTopUp
    { notFound := .orderMissing
      provider := some .waffoPancake
      idempotent := true
      statusErr := .orderStatusWrong
      quota := amountQuota quotaPerUnit
      order := id
      user := id } now tradeNo db

/-- The money of a Stripe order counts, of every other order the amount. -/
def manualCompleteTopUp : Except TopUpErr (Option ℤ × PayDB) :=
  completeTopUp
    { notFound := .orderMissing
      provider := none
      idempotent := true
      statusErr := .notPending
      quota := fun topUp =>
        if topUp.paymentProvider = .stripe then moneyQuota quotaPerUnit topUp
        else amountQuota quotaPerUnit topUp
      order := id
      user := id } now tradeNo db

end Completions

def updatePendingTopUpStatus (tradeNo : String) (expectedPaymentProvider : PaymentProvider)
    (targetStatus : TopUpStatus) (db : PayDB) : Except TopUpErr PayDB :=
  if tradeNo = "" then .error .tradeNoEmpty
  else match db.orders tradeNo with
    | none => .error .topUpNotFound
    | some topUp =>
      if expectedPaymentProvider ≠ .unset ∧ topUp.paymentProvider ≠ expectedPaymentProvider then
        .error .paymentMethodMismatch
      else if topUp.status ≠ .pending then .error .topUpStatusInvalid
      else
        let topUp' := { topUp with status := targetStatus }
        .ok { db with orders := Function.update db.orders tradeNo (some topUp') }

inductive TopUpCall
  | epay (actualPaymentMethod : String)
  | byProvider (provider : PaymentProvider)
  | stripe (customerId : String)
  | creem (customerEmail : String)
  | waffo | waffoPancake | manual
  | updatePending (expectedPaymentProvider : PaymentProvider) (targetStatus : TopUpStatus)
  deriving DecidableEq, Repr

def TopUpCall.provider : TopUpCall → Option PaymentProvider
  | .epay _ => some .epay
  | .byProvider provider => some provider
  | .stripe _ => some .stripe
  | .creem _ => some .creem
  | .waffo => some .waffo
  | .waffoPancake => some .waffoPancake
  | .manual | .updatePending _ _ => none

def TopUpCall.run (quotaPerUnit : ℚ) (now : ℤ) (tradeNo : String) (db : PayDB) :
    TopUpCall → Except TopUpErr (Option ℤ × PayDB)
  | .epay actualPaymentMethod => rechargeEpay quotaPerUnit now tradeNo db actualPaymentMethod
  | .byProvider provider => rechargeByProvider quotaPerUnit now tradeNo db provider
  | .stripe customerId => recharge quotaPerUnit now tradeNo db customerId
  | .creem customerEmail => rechargeCreem now tradeNo db customerEmail
  | .waffo => rechargeWaffo quotaPerUnit now tradeNo db
  | .waffoPancake => rechargeWaffoPancake quotaPerUnit now tradeNo db
  | .manual => manualCompleteTopUp quotaPerUnit now tradeNo db
  | .updatePending provider status => (updatePendingTopUpStatus tradeNo provider status db).map (none, ·)

def TopUpCall.isOwn (provider : PaymentProvider) : TopUpCall → Bool
  | .epay _ => provider = .epay
  | .stripe _ => provider = .stripe
  | .creem _ => provider = .creem
  | .waffo => provider = .waffo
  | .waffoPancake => provider = .waffoPancake
  | .byProvider p => p = provider && [.shopier, .payTR, .payPal, .iyzico, .shopify].contains provider
  | .manual | .updatePending _ _ => false

def creditOf : Except TopUpErr (Option ℤ × PayDB) → Option ℤ
  | .ok (quota, _) => quota
  | .error _ => none

inductive PayEvent
  | call (tradeNo : String) (call : TopUpCall) (now : ℤ) (reply : Reply)
  | setQuota (userId : ℕ) (quota : ℤ)
  deriving DecidableEq, Repr

def PayDB.call (quotaPerUnit : ℚ) (db : PayDB) (tradeNo : String) (call : TopUpCall) (now : ℤ)
    (reply : Reply) : PayDB :=
  match call.run quotaPerUnit now tradeNo db with
  | .ok (_, db') => reply.effect db db'
  | .error _ => db

def PayDB.next (quotaPerUnit : ℚ) (db : PayDB) : PayEvent → PayDB
  | .call tradeNo call now reply => db.call quotaPerUnit tradeNo call now reply
  | .setQuota userId quota =>
    let user' := (db.users userId).map fun user => { user with quota }
    { db with users := Function.update db.users userId user' }

end NewApi
