import NewApi.Spec.SubscriptionDB
import NewApi.Spec.TopUp
import NewApi.Trace.Shared

/-!
# Selling subscriptions

`CompleteSubscriptionOrder`, `PurchaseSubscriptionWithBalance` and `AdminBindSubscription` of `model/subscription.go`.
Each is one transaction: it checks what is sold, locks the row of the user, counts the user's subscriptions of the
plan, writes and commits; a completion locks the row of its order before all that.

`SaleDB.sell` is such a transaction alone. In `saleProgram` any number of them run at the same time: a row lock is
held until the end, and what a transaction writes is seen by the others from its commit on.
-/

namespace NewApi

open Trace

structure SalePlan extends PlanRow where
  enabled : Bool
  /-- the decimal that `decimal.NewFromFloat` makes of the price -/
  priceAmount : ℚ
  allowBalancePay : Bool
  deriving DecidableEq

structure SaleWorld where
  cal : PlanCalendar
  plans : ℕ → Option SalePlan
  quotaPerUnit : ℚ

structure SubscriptionOrder where
  (userId planId : ℕ)
  money : ℚ
  paymentMethod : String
  paymentProvider : PaymentProvider
  status : TopUpStatus
  completeTime : ℤ
  providerPayload : String
  deriving DecidableEq

inductive OrderErr
  | db
  /-- "tradeNo is empty" -/
  | tradeNoEmpty
  | orderNotFound
  | paymentMethodMismatch
  | orderStatusInvalid
  /-- "invalid userId or planId" -/
  | invalidUserIdOrPlanId
  /-- "套餐未启用" -/
  | planDisabled
  /-- "套餐价格不能为负数" -/
  | priceNegative
  /-- "该套餐不允许使用余额兑换" -/
  | balancePayNotAllowed
  /-- "额度单位配置错误" -/
  | quotaUnitInvalid
  /-- the quota is not in the range of the column -/
  | quotaOutOfRange
  /-- "余额不足" -/
  | balanceInsufficient
  | recordNotFound
  /-- the unique index on `trade_no` -/
  | duplicateTradeNo
  | sub (e : SubErr)
  deriving DecidableEq

structure SaleDB where
  sub : SubDB
  /-- the column `quota` of the users -/
  quota : ℕ → Option ℤ
  /-- by trade number, which is unique -/
  orders : String → Option SubscriptionOrder
  topUps : String → Option TopUp
  packages : ℕ → List UserBalancePackage

def SaleWorld.planById (w : SaleWorld) (id : ℕ) : Except OrderErr SalePlan :=
  if id = 0 then .error (.sub .invalidPlanId)
  else match w.plans id with
    | none => .error .recordNotFound
    | some plan => .ok plan

def calcSubscriptionBalanceQuota (quotaPerUnit priceAmount : ℚ) : Except OrderErr ℤ :=
  if priceAmount ≤ 0 then .ok 0
  else if quotaPerUnit ≤ 0 then .error .quotaUnitInvalid
  else match quotaFromDecimalStrict ⌈priceAmount * quotaPerUnit⌉ with
    | none => .error .quotaOutOfRange
    | some quota => .ok quota

/-- A call. An expected provider `unset` is the empty text, which skips the check. -/
inductive SaleOp
  | complete (tradeNo providerPayload : String) (expectedPaymentProvider : PaymentProvider)
      (actualPaymentMethod : String)
  | purchase (userId planId : ℕ) (tradeNo : String)
  | bind (userId planId : ℕ)
  deriving DecidableEq

/-- What a call is about to sell: `charge` is taken from the wallet, `order` is the locked order of a
completion. -/
structure Sale where
  (userId planId : ℕ)
  plan : SalePlan
  charge : ℤ
  order : Option SubscriptionOrder
  deriving DecidableEq

/-- The checks on the locked order; `none` when it has succeeded before. -/
def SaleDB.openOrder (w : SaleWorld) (tradeNo : String) (expectedPaymentProvider : PaymentProvider) (db : SaleDB) :
    Except OrderErr (Option Sale) :=
  match db.orders tradeNo with
  | none => .error .orderNotFound
  | some order =>
    if expectedPaymentProvider ≠ .unset ∧ order.paymentProvider ≠ expectedPaymentProvider then
      .error .paymentMethodMismatch
    else if order.status = .success then .ok none
    else if order.status ≠ .pending then .error .orderStatusInvalid
    else match w.planById order.planId with
      | .error e => .error e
      | .ok plan => .ok (some ⟨order.userId, order.planId, plan, 0, some order⟩)

def SaleWorld.price (w : SaleWorld) (userId planId : ℕ) : Except OrderErr Sale :=
  if userId = 0 ∨ planId = 0 then .error .invalidUserIdOrPlanId
  else match w.planById planId with
    | .error e => .error e
    | .ok plan =>
      if plan.enabled = false then .error .planDisabled
      else if plan.priceAmount < 0 then .error .priceNegative
      else if plan.allowBalancePay = false then .error .balancePayNotAllowed
      else match calcSubscriptionBalanceQuota w.quotaPerUnit plan.priceAmount with
        | .error e => .error e
        | .ok requiredQuota => .ok ⟨userId, planId, plan, requiredQuota, none⟩

def SaleDB.start (w : SaleWorld) (db : SaleDB) : SaleOp → Except OrderErr (Option Sale)
  | .complete tradeNo _ expectedPaymentProvider _ =>
    if tradeNo = "" then .error .tradeNoEmpty else db.openOrder w tradeNo expectedPaymentProvider
  | .purchase userId planId _ => (w.price userId planId).map some
  | .bind userId planId =>
    if userId = 0 ∨ planId = 0 then .error .invalidUserIdOrPlanId
    else (w.planById planId).map fun plan => some ⟨userId, planId, plan, 0, none⟩

def SaleDB.checkUser (sale : Sale) (db : SaleDB) : Option OrderErr :=
  match db.quota sale.userId with
  | none => some .recordNotFound
  | some quota => if 0 < sale.charge ∧ quota < sale.charge then some .balanceInsufficient else none

def SubDB.purchases (db : SubDB) (userId planId : ℕ) : ℕ :=
  db.subs.entries.countP fun e => e.2.userId = userId && e.2.planId = planId

def SaleDB.checkLimit (sale : Sale) (db : SaleDB) : Option OrderErr :=
  if sale.planId = 0 then some (.sub .invalidPlan)
  else if sale.userId = 0 then some (.sub .invalidUserId)
  else if 0 < sale.plan.maxPurchasePerUser ∧
      sale.plan.maxPurchasePerUser ≤ db.sub.purchases sale.userId sale.planId then some (.sub .purchaseLimit)
  else none

def SubDB.addUserSubscription (cal : PlanCalendar) (now : ℤ) (userId planId : ℕ) (plan : PlanRow) (db : SubDB) :
    Except SubErr SubDB :=
  match calcPlanEndTime cal now plan with
  | .error e => .error e
  | .ok endUnix =>
    let sub := newUserSubscription cal.toCalendar now userId planId plan endUnix (db.groupOf userId)
    .ok { db.lift userId (trimSpace plan.upgradeGroup) with subs := db.subs.insert sub }

/-- `upsertSubscriptionTopUpTx`: the row of the order among the top-ups. -/
def upsertSubscriptionTopUp (now : ℤ) (order : SubscriptionOrder) : Option TopUp → Except OrderErr TopUp
  | none => .ok ⟨order.userId, 0, order.money, order.paymentMethod, .unset, now, .success⟩
  | some topUp =>
    if topUp.paymentMethod ≠ "" ∧ topUp.paymentMethod ≠ order.paymentMethod then .error .paymentMethodMismatch
    else .ok { topUp with
      money := order.money, paymentMethod := order.paymentMethod, completeTime := now, status := .success }

def SubscriptionOrder.completed (order : SubscriptionOrder) (now : ℤ)
    (providerPayload actualPaymentMethod : String) : SubscriptionOrder :=
  { order with
    status := .success
    completeTime := now
    providerPayload := if providerPayload ≠ "" then providerPayload else order.providerPayload
    paymentMethod := if actualPaymentMethod ≠ "" then actualPaymentMethod else order.paymentMethod }

/-- The order that a purchase with the balance writes; its payload names the charge. -/
def balanceOrder (now : ℤ) (sale : Sale) : SubscriptionOrder :=
  ⟨sale.userId, sale.planId, sale.plan.priceAmount, "balance", .balance, .success, now,
    "charged_quota=" ++ toString sale.charge⟩

def SaleDB.commit (w : SaleWorld) (now : ℤ) (op : SaleOp) (sale : Sale) (db : SaleDB) : Except OrderErr SaleDB :=
  match db.sub.addUserSubscription w.cal now sale.userId sale.planId sale.plan.toPlanRow with
  | .error e => .error (.sub e)
  | .ok sub =>
    match op, sale.order with
    | .complete tradeNo providerPayload _ actualPaymentMethod, some order =>
      (upsertSubscriptionTopUp now order (db.topUps tradeNo)).map fun topUp =>
        { db with
          sub
          topUps := Function.update db.topUps tradeNo (some topUp)
          orders := Function.update db.orders tradeNo
            (some (order.completed now providerPayload actualPaymentMethod)) }
    | .purchase _ _ tradeNo, _ =>
      if (db.orders tradeNo).isSome then .error .duplicateTradeNo
      else .ok { db with
        sub
        quota := Function.update db.quota sale.userId ((db.quota sale.userId).map (· - max sale.charge 0))
        orders := Function.update db.orders tradeNo (some (balanceOrder now sale)) }
    | _, _ => .ok { db with sub }

/-- A call with no other beside it: whether it has made a subscription, and the rows after it. -/
def SaleDB.sell (w : SaleWorld) (now : ℤ) (op : SaleOp) (db : SaleDB) : Except OrderErr (Bool × SaleDB) :=
  match db.start w op with
  | .error e => .error e
  | .ok none => .ok (false, db)
  | .ok (some sale) =>
    match db.checkUser sale with
    | some e => .error e
    | none =>
      match db.checkLimit sale with
      | some e => .error e
      | none => (db.commit w now op sale).map (true, ·)

def SaleDB.completeSubscriptionOrder (w : SaleWorld) (now : ℤ) (tradeNo providerPayload : String)
    (expectedPaymentProvider : PaymentProvider) (actualPaymentMethod : String) (db : SaleDB) :
    Except OrderErr (Bool × SaleDB) :=
  db.sell w now (.complete tradeNo providerPayload expectedPaymentProvider actualPaymentMethod)

def SaleDB.purchaseSubscriptionWithBalance (w : SaleWorld) (now : ℤ) (userId planId : ℕ) (tradeNo : String)
    (db : SaleDB) : Except OrderErr (Bool × SaleDB) :=
  db.sell w now (.purchase userId planId tradeNo)

def SaleDB.adminBindSubscription (w : SaleWorld) (now : ℤ) (userId planId : ℕ) (db : SaleDB) :
    Except OrderErr (Bool × SaleDB) :=
  db.sell w now (.bind userId planId)

structure SaleMem (ι : Type) where
  db : SaleDB
  orderLock : String → Option ι
  userLock : ℕ → Option ι

inductive SalePhase
  | idle
  /-- it waits for the lock of the user -/
  | planned (sale : Sale)
  | holding (sale : Sale)
  | counted (sale : Sale)
  /-- it has returned: whether it has made a subscription, or its error -/
  | done (result : Except OrderErr Bool)
  deriving DecidableEq

structure SaleEnv where
  now : ℤ
  dbErr : Bool
  deriving DecidableEq

section Program

variable {ι : Type} [DecidableEq ι]

def SaleMem.release (i : ι) (m : SaleMem ι) : SaleMem ι where
  db := m.db
  orderLock := fun tradeNo => if m.orderLock tradeNo = some i then none else m.orderLock tradeNo
  userLock := fun userId => if m.userLock userId = some i then none else m.userLock userId

def SaleMem.rollback (i : ι) (e : OrderErr) (m : SaleMem ι) : SalePhase × SaleMem ι := (.done (.error e), m.release i)

def SaleOp.lockedOrder : SaleOp → Option String
  | .complete tradeNo _ _ _ => some tradeNo
  | _ => none

def SaleMem.begin (w : SaleWorld) (op : SaleOp) (i : ι) (m : SaleMem ι) : SalePhase × SaleMem ι :=
  match m.db.start w op with
  | .error e => m.rollback i e
  | .ok none => (.done (.ok false), m.release i)
  | .ok (some sale) =>
    (.planned sale, { m with
      orderLock := match op.lockedOrder with
        | none => m.orderLock
        | some tradeNo => Function.update m.orderLock tradeNo (some i) })

def saleStmt (w : SaleWorld) (ops : ι → SaleOp) (i : ι) (e : SaleEnv) (p : SalePhase) (m : SaleMem ι) :
    Option (SalePhase × SaleMem ι) :=
  match p with
  | .idle =>
    if e.dbErr then some (m.rollback i .db)
    -- another call has locked the order
    else if ((ops i).lockedOrder.bind m.orderLock).isSome then none
    else some (m.begin w (ops i) i)
  | .planned sale =>
    if e.dbErr then some (m.rollback i .db)
    else if (m.userLock sale.userId).isSome then none
    else match m.db.checkUser sale with
      | some err => some (m.rollback i err)
      | none => some (.holding sale, { m with userLock := Function.update m.userLock sale.userId (some i) })
  | .holding sale =>
    if e.dbErr then some (m.rollback i .db)
    else match m.db.checkLimit sale with
      | some err => some (m.rollback i err)
      | none => some (.counted sale, m)
  | .counted sale =>
    if e.dbErr then some (m.rollback i .db)
    else match m.db.commit w e.now (ops i) sale with
      | .error err => some (m.rollback i err)
      | .ok db => some (.done (.ok true), { m with db }.release i)
  | .done _ => none

inductive OrderMove
  | place (tradeNo : String) (order : SubscriptionOrder)
  | expire (tradeNo : String) (expectedPaymentProvider : PaymentProvider) (now : ℤ)
  deriving DecidableEq

def SaleDB.expireSubscriptionOrder (now : ℤ) (tradeNo : String) (expectedPaymentProvider : PaymentProvider)
    (db : SaleDB) : Except OrderErr SaleDB :=
  if tradeNo = "" then .error .tradeNoEmpty
  else match db.orders tradeNo with
    | none => .error .orderNotFound
    | some order =>
      if expectedPaymentProvider ≠ .unset ∧ order.paymentProvider ≠ expectedPaymentProvider then
        .error .paymentMethodMismatch
      else if order.status ≠ .pending then .ok db
      else .ok { db with
        orders := Function.update db.orders tradeNo (some { order with status := .expired, completeTime := now }) }

/-- An order that a call has locked does not expire. -/
def OrderMove.apply (m : SaleMem ι) : OrderMove → SaleMem ι
  | .place tradeNo order =>
    if (m.db.orders tradeNo).isSome then m
    else { m with db := { m.db with
      orders := Function.update m.db.orders tradeNo (some { order with status := .pending }) } }
  | .expire tradeNo expectedPaymentProvider now =>
    if (m.orderLock tradeNo).isSome then m
    else match m.db.expireSubscriptionOrder now tradeNo expectedPaymentProvider with
      | .error _ => m
      | .ok db => { m with db := db }

def saleProgram (w : SaleWorld) (ops : ι → SaleOp) : Program ι SalePhase (SaleMem ι) SaleEnv OrderMove where
  stmt := saleStmt w ops
  env := fun v m => v.apply m

end Program

structure PurchaseCall where
  now : ℤ
  (userId planId : ℕ)
  tradeNo : String
  deriving DecidableEq

def SaleDB.purchase (w : SaleWorld) (db : SaleDB) (c : PurchaseCall) : SaleDB :=
  match db.purchaseSubscriptionWithBalance w c.now c.userId c.planId c.tradeNo with
  | .error _ => db
  | .ok (_, db') => db'

end NewApi
