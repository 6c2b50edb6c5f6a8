import NewApi.Spec.TopUp

/-!
# The credits of a wallet

Everything that adds to the `quota` column of a user: the completions of top-up orders, `Redeem`
(`model/redemption.go`), `TransferAffQuotaToQuota` and `IncreaseUserQuota` (`model/user.go`), which may be queued for
`batchUpdate`. MySQL and PostgreSQL refuse a value that does not fit into 32 bits, and SQLite does not.
-/

namespace NewApi

inductive RedemptionCodeStatus
  | enabled | disabled | used
  deriving DecidableEq, Repr

structure Redemption where
  status : RedemptionCodeStatus
  quota : ℤ
  /-- `Type`: 1 and 2 are requests and tokens, every other number is quota -/
  poolType : PoolType
  modelFilterMode : ModelFilterMode
  models : List String
  redeemedTime : ℤ
  usedUserId : ℕ
  expiredTime : ℤ
  deriving DecidableEq, Repr

inductive DatabaseType
  | sqlite | mySQL | postgreSQL
  deriving DecidableEq, Repr

/-- A column `type:int` takes the value. -/
def DatabaseType.intColumn (t : DatabaseType) (v : ℤ) : Bool :=
  decide (t = .sqlite) || (decide (minQuota ≤ v) && decide (v ≤ maxQuota))

inductive CreditErr
  /-- "未提供兑换码" -/
  | keyEmpty
  /-- "无效的 user id" -/
  | invalidUserId
  /-- `ErrRedeemFailed`: "redeem.failed" -/
  | redeemFailed
  /-- "转移额度最小为…！" -/
  | transferTooSmall
  /-- "邀请额度不足！" -/
  | affQuotaInsufficient
  /-- "quota 不能为负数！" -/
  | negativeQuota
  | recordNotFound
  /-- the column does not take the value -/
  | outOfRange
  deriving DecidableEq, Repr

structure CreditDB where
  pay : PayDB
  codes : String → Option Redemption
  packages : ℕ → List UserBalancePackage
  /-- what is queued for a user in `batchUpdateStores[BatchUpdateTypeUserQuota]` -/
  pending : ℕ → ℤ
  /-- what was taken from a user and has not been given back -/
  taken : ℕ → ℤ

structure CreditConfig where
  database : DatabaseType
  batchUpdateEnabled : Bool
  quotaPerUnit : ℚ

/-- `UPDATE users SET … WHERE id = ?`: `check` is the value of the column that may not fit. -/
def CreditDB.updateUser (cfg : CreditConfig) (userId : ℕ) (f : PayUser → PayUser) (check : PayUser → ℤ)
    (st : CreditDB) : Option CreditDB :=
  match st.pay.users userId with
  | none => some st
  | some user =>
    if cfg.database.intColumn (check (f user)) then
      some { st with pay := ⟨st.pay.orders, Function.update st.pay.users userId (some (f user))⟩ }
    else none

def CreditDB.addPool (cfg : CreditConfig) (userId : ℕ) (poolType : PoolType) (quota : ℤ) (st : CreditDB) :
    Option CreditDB :=
  match poolType with
  | .requests =>
    st.updateUser cfg userId (fun u => { u with requestsBalance := u.requestsBalance + quota })
      (·.requestsBalance)
  -- `tokens_balance` is a `bigint`
  | .tokens => st.updateUser cfg userId (fun u => { u with tokensBalance := u.tokensBalance + quota }) fun _ => 0
  | .quota => st.updateUser cfg userId (fun u => { u with quota := u.quota + quota }) (·.quota)

def redeem (cfg : CreditConfig) (now : ℤ) (key : String) (userId : ℕ) (st : CreditDB) :
    Except CreditErr (ℤ × CreditDB) :=
  if key = "" then .error .keyEmpty
  else if userId = 0 then .error .invalidUserId
  else match st.codes key with
    | none => .error .redeemFailed
    | some code =>
      if code.status ≠ .enabled then .error .redeemFailed
      else if code.expiredTime ≠ 0 ∧ code.expiredTime < now then .error .redeemFailed
      else
        let used := { code with status := .used, redeemedTime := now, usedUserId := userId }
        let package : UserBalancePackage :=
          ⟨code.poolType, code.quota, code.modelFilterMode, code.models, code.expiredTime⟩
        let st' : CreditDB := { st with
          codes := Function.update st.codes key (some used)
          packages :=
            -- a code without a filter makes no package
            if code.modelFilterMode = .none then st.packages
            else Function.update st.packages userId (st.packages userId ++ [package]) }
        match st'.addPool cfg userId code.poolType code.quota with
        | none => .error .redeemFailed
        | some st'' => .ok (code.quota, st'')

def transferAffQuotaToQuota (cfg : CreditConfig) (userId : ℕ) (quota : ℤ) (st : CreditDB) : Except CreditErr CreditDB :=
  if (quota : ℚ) < cfg.quotaPerUnit then .error .transferTooSmall
  else match st.pay.users userId with
    | none => .error .recordNotFound
    | some user =>
      if user.affQuota < quota then .error .affQuotaInsufficient
      else
        let f := fun u : PayUser => { u with affQuota := u.affQuota - quota, quota := u.quota + quota }
        match st.updateUser cfg userId f (·.quota) with
        | none => .error .outOfRange
        | some st' => .ok st'

/-- The row is changed at once, or the change is queued. -/
def CreditDB.addQuota (cfg : CreditConfig) (userId : ℕ) (delta : ℤ) (st : CreditDB) : Except CreditErr CreditDB :=
  if cfg.batchUpdateEnabled then
    .ok { st with pending := Function.update st.pending userId (st.pending userId + delta) }
  else match st.updateUser cfg userId (fun u => { u with quota := u.quota + delta }) (·.quota) with
    | none => .error .outOfRange
    | some st' => .ok st'

def CreditDB.increaseUserQuota (cfg : CreditConfig) (userId : ℕ) (quota : ℤ) (st : CreditDB) :
    Except CreditErr CreditDB :=
  if quota < 0 then .error .negativeQuota
  else ({ st with taken := Function.update st.taken userId (st.taken userId - quota) }).addQuota
    cfg userId quota

def CreditDB.decreaseUserQuota (cfg : CreditConfig) (userId : ℕ) (quota : ℤ) (st : CreditDB) :
    Except CreditErr CreditDB :=
  if quota < 0 then .error .negativeQuota
  else ({ st with taken := Function.update st.taken userId (st.taken userId + quota) }).addQuota
    cfg userId (-quota)

def CreditDB.writePending (cfg : CreditConfig) (userId : ℕ) (failed : Bool) (st : CreditDB) : CreditDB :=
  let st' := { st with pending := Function.update st.pending userId 0 }
  if failed then st'
  else (st'.updateUser cfg userId (fun u => { u with quota := u.quota + st.pending userId }) (·.quota)).getD st'

inductive CreditEvent
  | topUp (tradeNo : String) (call : TopUpCall) (now : ℤ) (reply : Reply)
  | redeem (key : String) (userId : ℕ) (now : ℤ) (reply : Reply)
  | transfer (userId : ℕ) (quota : ℤ) (reply : Reply)
  | take (userId : ℕ) (quota : ℤ) (reply : Reply)
  | refund (userId : ℕ) (quota : ℤ) (reply : Reply)
  | batchUpdate (userId : ℕ) (failed : Bool)
  deriving DecidableEq, Repr

/-- What is there after a call that returned `r`, by what came of its transaction. -/
def afterCall {α : Type} (reply : Reply) (st : CreditDB) (r : Except CreditErr α) (f : α → CreditDB) : CreditDB :=
  match r with
  | .ok a => reply.effect st (f a)
  | .error _ => st

def CreditDB.next (cfg : CreditConfig) (st : CreditDB) : CreditEvent → CreditDB
  | .topUp tradeNo call now reply =>
    { st with pay := st.pay.call cfg.quotaPerUnit tradeNo call now reply }
  | .redeem key userId now reply => afterCall reply st (NewApi.redeem cfg now key userId st) (·.2)
  | .transfer userId quota reply => afterCall reply st (transferAffQuotaToQuota cfg userId quota st) id
  | .take userId quota reply => afterCall reply st (st.decreaseUserQuota cfg userId quota) id
  | .refund userId quota reply => afterCall reply st (st.increaseUserQuota cfg userId quota) id
  | .batchUpdate userId failed => st.writePending cfg userId failed

end NewApi
