import NewApi.Spec.Subscription

/-!
# The rows a request is billed against

One user with one token: the wallet quota, the request and token balances, the quota of the API token, the
subscriptions and the redemption packages (`model/user.go`, `model/token.go`, `model/quota_reserve.go`,
`model/redemption.go`). With batch updates a change of the wallet or of the token quota is queued (`addNewRecord`,
`batchUpdate`), so these two are a column and a queued amount.

An operation takes whether the driver reports an error, and what the Redis script answers, as arguments.
-/

namespace NewApi

/-- `ModelFilterMode` of a redemption package; any other text is `none`. -/
inductive ModelFilterMode
  | none | whitelist | blacklist
  deriving DecidableEq, Repr

/-- `Type` of a redemption package: 0, 1 and 2 in the table. -/
inductive PoolType
  | quota | requests | tokens
  deriving DecidableEq, Repr

/-- A redemption package; `models` is the comma separated column, split and trimmed. -/
structure UserBalancePackage where
  poolType : PoolType
  remainingAmount : ℤ
  modelFilterMode : ModelFilterMode
  models : List String
  expiredAt : ℤ
  deriving DecidableEq, Repr

structure Config where
  batchUpdateEnabled : Bool
  trustQuota : ℤ
  /-- the `user_balance_packages` table exists -/
  hasPackageTable : Bool

structure Store where
  (quota pendingQuota requestsBalance tokensBalance remainQuota usedQuota pendingTokenQuota : ℤ)
  sub : SubStore
  packages : List UserBalancePackage

def Store.walletLevel (st : Store) : ℤ := st.quota + st.pendingQuota

def Store.tokenRemain (st : Store) : ℤ := st.remainQuota + st.pendingTokenQuota

def Store.tokenUsed (st : Store) : ℤ := st.usedQuota - st.pendingTokenQuota

def batchUpdate (st : Store) : Store :=
  { st with
    quota := st.quota + st.pendingQuota, pendingQuota := 0
    remainQuota := st.remainQuota + st.pendingTokenQuota
    usedQuota := st.usedQuota - st.pendingTokenQuota, pendingTokenQuota := 0 }

/-- `persistUserQuotaDelta`, `increaseUserQuota` and `decreaseUserQuota`. -/
def persistUserQuotaDelta (cfg : Config) (dbErr : Bool) (delta : ℤ) (st : Store) : Except Err Store :=
  if cfg.batchUpdateEnabled then .ok { st with pendingQuota := st.pendingQuota + delta }
  else if dbErr then .error .db
  else .ok { st with quota := st.quota + delta }

def increaseUserQuota (cfg : Config) (dbErr : Bool) (quota : ℤ) (st : Store) : Except Err Store :=
  if quota < 0 then .error .negativeQuota else persistUserQuotaDelta cfg dbErr quota st

def decreaseUserQuota (cfg : Config) (dbErr : Bool) (quota : ℤ) (st : Store) : Except Err Store :=
  if quota < 0 then .error .negativeQuota else persistUserQuotaDelta cfg dbErr (-quota) st

def reserveUserQuotaDB (dbErr : Bool) (quota : ℤ) (st : Store) : Except Err (Bool × Store) :=
  if dbErr then .error .db
  else if quota ≤ st.quota then .ok (true, { st with quota := st.quota - quota })
  else .ok (false, st)

/-- Without Redis the answer is a miss. -/
def tryReserveUserQuota (cfg : Config) (dbErr : Bool) (cache : CacheQuotaResult) (quota : ℤ)
    (st : Store) : Except Err (Bool × Store) :=
  if quota < 0 then .error .negativeQuota
  else if quota = 0 then .ok (true, st)
  else match cache with
    | .miss => reserveUserQuotaDB dbErr quota st
    | .insufficient => .ok (false, st)
    -- Redis has reserved the quota, the row only follows
    | .ok => (persistUserQuotaDelta cfg dbErr (-quota) st).map (true, ·)

def tryReserveUserRequests (dbErr : Bool) (count : ℤ) (st : Store) : Except Err (Bool × Store) :=
  if count ≤ 0 then .ok (true, st)
  else if dbErr then .error .db
  else if count ≤ st.requestsBalance then .ok (true, { st with requestsBalance := st.requestsBalance - count })
  else .ok (false, st)

def increaseUserRequests (dbErr : Bool) (count : ℤ) (st : Store) : Except Err Store :=
  if count ≤ 0 then .ok st
  else if dbErr then .error .db
  else .ok { st with requestsBalance := st.requestsBalance + count }

def tryReserveUserTokens (dbErr : Bool) (count : ℤ) (st : Store) : Except Err (Bool × Store) :=
  if count ≤ 0 then .ok (true, st)
  else if dbErr then .error .db
  else if count ≤ st.tokensBalance then .ok (true, { st with tokensBalance := st.tokensBalance - count })
  else .ok (false, st)

def increaseUserTokens (dbErr : Bool) (count : ℤ) (st : Store) : Except Err Store :=
  if count ≤ 0 then .ok st
  else if dbErr then .error .db
  else .ok { st with tokensBalance := st.tokensBalance + count }

def decreaseUserTokens (dbErr : Bool) (count : ℤ) (st : Store) : Except Err Store :=
  if count ≤ 0 then .ok st
  else if dbErr then .error .db
  else .ok { st with tokensBalance := st.tokensBalance - count }

/-- `persistTokenQuotaDelta`, `increaseTokenQuota` and `decreaseTokenQuota`. -/
def persistTokenQuotaDelta (cfg : Config) (dbErr : Bool) (delta : ℤ) (st : Store) : Except Err Store :=
  if cfg.batchUpdateEnabled then .ok { st with pendingTokenQuota := st.pendingTokenQuota + delta }
  else if dbErr then .error .db
  else .ok { st with remainQuota := st.remainQuota + delta, usedQuota := st.usedQuota - delta }

def increaseTokenQuota (cfg : Config) (dbErr : Bool) (quota : ℤ) (st : Store) : Except Err Store :=
  if quota < 0 then .error .negativeQuota else persistTokenQuotaDelta cfg dbErr quota st

def decreaseTokenQuota (cfg : Config) (dbErr : Bool) (quota : ℤ) (st : Store) : Except Err Store :=
  if quota < 0 then .error .negativeQuota else persistTokenQuotaDelta cfg dbErr (-quota) st

def reserveTokenQuotaDB (dbErr : Bool) (quota : ℤ) (st : Store) : Except Err (Bool × Store) :=
  if dbErr then .error .db
  else if quota ≤ st.remainQuota then
    .ok (true, { st with remainQuota := st.remainQuota - quota, usedQuota := st.usedQuota + quota })
  else .ok (false, st)

def tryReserveTokenQuota (cfg : Config) (dbErr : Bool) (cache : CacheQuotaResult) (unlimited : Bool)
    (quota : ℤ) (st : Store) : Except Err (Bool × Store) :=
  if quota < 0 then .error .negativeQuota
  else if quota = 0 then .ok (true, st)
  -- an unlimited token may go below zero
  else if unlimited then (decreaseTokenQuota cfg dbErr quota st).map (true, ·)
  else match cache with
    | .miss => reserveTokenQuotaDB dbErr quota st
    | .insufficient => .ok (false, st)
    | .ok => (persistTokenQuotaDelta cfg dbErr (-quota) st).map (true, ·)

def UserBalancePackage.allowsModel (pkg : UserBalancePackage) (modelName : String) : Bool :=
  match pkg.modelFilterMode with
  | .whitelist => pkg.models.contains modelName
  | .blacklist => !pkg.models.contains modelName
  | .none => true

def UserBalancePackage.live (now : ℤ) (pkg : UserBalancePackage) : Bool :=
  decide (0 < pkg.remainingAmount) && (decide (pkg.expiredAt = 0) || decide (now < pkg.expiredAt))

/-- The loop of `DeductUserBalancePackage` in the order of the ids. -/
def deductPackages (now : ℤ) (modelName : String) (poolType : PoolType) :
    ℤ → List UserBalancePackage → ℤ × List UserBalancePackage
  | _, [] => (0, [])
  | remaining, pkg :: rest =>
    if decide (pkg.poolType = poolType) && pkg.live now && pkg.allowsModel modelName then
      let toDeduct := min remaining pkg.remainingAmount
      let pkg' := { pkg with remainingAmount := pkg.remainingAmount - toDeduct }
      if remaining - toDeduct = 0 then (toDeduct, pkg' :: rest)
      else
        let r := deductPackages now modelName poolType (remaining - toDeduct) rest
        (toDeduct + r.1, pkg' :: r.2)
    else
      let r := deductPackages now modelName poolType remaining rest
      (r.1, pkg :: r.2)

@[simp] theorem deductPackages_nil {now modelName poolType n} :
    deductPackages now modelName poolType n [] = (0, []) := by
  rw [deductPackages]

/-- Its callers drop the error. -/
def deductUserBalancePackage (cfg : Config) (dbErr : Bool) (now : ℤ) (modelName : String)
    (poolType : PoolType) (amount : ℤ) (st : Store) : Store :=
  if amount ≤ 0 ∨ cfg.hasPackageTable = false ∨ dbErr = true then st
  else { st with packages := (deductPackages now modelName poolType amount st.packages).2 }

/-- The part of an aggregate balance that may be spent on a model, and whether a package restricts it. -/
def userBalancePackageAvailable (cfg : Config) (dbErr : Bool) (now : ℤ) (modelName : String)
    (poolType : PoolType) (aggregate : ℤ) (st : Store) : Except Err (ℤ × Bool) :=
  if aggregate ≤ 0 then .ok (0, false)
  else if cfg.hasPackageTable = false then .ok (aggregate, false)
  else if dbErr then .error .db
  else
    let restricting := st.packages.filter fun pkg =>
      pkg.live now && decide (pkg.poolType = poolType) && decide (pkg.modelFilterMode ≠ .none)
    let restrictedTotal := (restricting.map (·.remainingAmount)).sum
    let allowedRestricted := ((restricting.filter (·.allowsModel modelName)).map (·.remainingAmount)).sum
    -- what no restricted package holds may be spent on every model
    .ok (max (aggregate - restrictedTotal) 0 + allowedRestricted, !restricting.isEmpty)

def Store.balance (poolType : PoolType) (st : Store) : ℤ :=
  match poolType with
  | .quota => st.quota
  | .requests => st.requestsBalance
  | .tokens => st.tokensBalance

def Store.charge (poolType : PoolType) (amount : ℤ) (st : Store) : Store :=
  match poolType with
  | .quota => { st with quota := st.quota - amount }
  | .requests => { st with requestsBalance := st.requestsBalance - amount }
  | .tokens => { st with tokensBalance := st.tokensBalance - amount }

structure PackageSpend where
  now : ℤ
  modelName : String
  amount : ℤ
  deriving DecidableEq, Repr

def Store.spend (cfg : Config) (poolType : PoolType) (st : Store) (sp : PackageSpend) : Store :=
  deductUserBalancePackage cfg false sp.now sp.modelName poolType sp.amount (st.charge poolType sp.amount)

def Store.available (cfg : Config) (poolType : PoolType) (st : Store) (sp : PackageSpend) : ℤ :=
  match userBalancePackageAvailable cfg false sp.now sp.modelName poolType (st.balance poolType) st with
  | .ok (available, _) => available
  | .error _ => 0

def UserBalancePackage.unexpired (now : ℤ) (pkg : UserBalancePackage) : Bool :=
  decide (pkg.expiredAt = 0) || decide (now < pkg.expiredAt)

def remainingIn (poolType : PoolType) (p : UserBalancePackage → Bool) (pkgs : List UserBalancePackage) : ℤ :=
  (pkgs.map fun pkg => if pkg.poolType = poolType ∧ p pkg = true then max pkg.remainingAmount 0 else 0).sum

end NewApi
