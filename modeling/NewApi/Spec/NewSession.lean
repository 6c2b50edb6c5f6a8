import NewApi.Spec.BillingSession

/-!
# Choosing the pool of a request

`NewBillingSession` of `service/billing_session.go` and `PreConsumeBilling` of
`service/billing.go`: the pools are tried in the user's order until one of them takes the estimate.
-/

namespace NewApi

/-- The site-wide billing options: `IsBilling…Enabled` and `IsModelAllowedInPool`. -/
structure BillingSetting where
  enabled : BillingSource → Bool
  modelAllowed : BillingSource → String → Bool

/-- `NormalizeBillingPreference`. -/
inductive BillingPreference
  | subscriptionFirst | walletFirst | subscriptionOnly | walletOnly
  deriving DecidableEq, Repr

/-- The user's order of the pools; an entry that names no pool is `none`. -/
structure UserBillingSetting where
  billingPriority : List (Option BillingSource)
  billingPreference : BillingPreference
  deriving DecidableEq, Repr

def BillingPreference.priority : BillingPreference → List BillingSource
  | .subscriptionOnly => [.subscription]
  | .walletOnly => [.wallet]
  | .walletFirst => [.wallet, .subscription]
  | .subscriptionFirst => [.requests, .subscription, .tokens, .wallet]

def BillingSetting.poolOpen (bs : BillingSetting) (modelName : String) (src : BillingSource) : Bool :=
  bs.enabled src && bs.modelAllowed src modelName

def activePriority (bs : BillingSetting) (us : UserBillingSetting) (modelName : String) : List BillingSource :=
  let priority := if us.billingPriority.isEmpty then us.billingPreference.priority
    else us.billingPriority.filterMap id
  priority.filter (bs.poolOpen modelName)

def unavailable (src : BillingSource) : ApiErr := ⟨.insufficientUserQuota, 403, .poolUnavailable src⟩

def tryRequests (cfg : Config) (env : Env) (info : RelayInfo) (st : Store) : Except ApiErr BillingSession × Store :=
  if env.readErr = true ∨ st.requestsBalance ≤ 0 then (.error (unavailable .requests), st)
  else match userBalancePackageAvailable cfg env.packageErr env.now info.originModelName .requests
      st.requestsBalance st with
    | .error _ => (.error (unavailable .requests), st)
    | .ok (available, restricted) =>
      if available < 1 then (.error (unavailable .requests), st)
      else (BillingSession.new info (fundingOf info 1 .requests) available restricted).preConsume cfg env 1 st

def tryTokens (cfg : Config) (env : Env) (info : RelayInfo) (preConsumedQuota : ℤ) (st : Store) :
    Except ApiErr BillingSession × Store :=
  if env.readErr = true ∨ st.tokensBalance ≤ 0 then (.error (unavailable .tokens), st)
  else match userBalancePackageAvailable cfg env.packageErr env.now info.originModelName .tokens
      st.tokensBalance st with
    | .error _ => (.error (unavailable .tokens), st)
    | .ok (available, restricted) =>
      if available ≤ 0 then (.error (unavailable .tokens), st)
      else (BillingSession.new info (fundingOf info preConsumedQuota .tokens) available restricted).preConsume
        cfg env preConsumedQuota st

def subConsume (preConsumedQuota : ℤ) : ℤ := if preConsumedQuota ≤ 0 then 1 else preConsumedQuota

def trySubscription (cfg : Config) (env : Env) (info : RelayInfo) (preConsumedQuota : ℤ) (st : Store) :
    Except ApiErr BillingSession × Store :=
  if env.readErr = true ∨ st.sub.table.activeSubs env.subEnv.now = [] then (.error (unavailable .subscription), st)
  else (BillingSession.new info (fundingOf info (subConsume preConsumedQuota) .subscription) 0 false).preConsume
    cfg env (subConsume preConsumedQuota) st

def tryWallet (cfg : Config) (env : Env) (info : RelayInfo) (preConsumedQuota : ℤ) (st : Store) :
    Except ApiErr BillingSession × Store :=
  let userQuota := env.cachedUserQuota.getD st.quota
  if env.readErr then (.error ⟨.queryDataError, 500, .db⟩, st)
  else if userQuota ≤ 0 ∨ userQuota - preConsumedQuota < 0 then
    (.error ⟨.insufficientUserQuota, 403, .insufficientWalletQuota⟩, st)
  else match userBalancePackageAvailable cfg env.packageErr env.now info.originModelName .quota userQuota st with
    | .error e => (.error ⟨.queryDataError, 500, e⟩, st)
    | .ok (available, restricted) =>
      if available < preConsumedQuota then (.error (unavailable .wallet), st)
      else
        let info := { info with userQuota := userQuota }
        (BillingSession.new info (fundingOf info preConsumedQuota .wallet) available restricted).preConsume
          cfg env preConsumedQuota st

def tryPool (cfg : Config) (env : Env) (info : RelayInfo) (preConsumedQuota : ℤ) (src : BillingSource)
    (st : Store) : Except ApiErr BillingSession × Store :=
  match src with
  | .requests => tryRequests cfg env info st
  | .tokens => tryTokens cfg env info preConsumedQuota st
  | .subscription => trySubscription cfg env info preConsumedQuota st
  | .wallet => tryWallet cfg env info preConsumedQuota st

/-- The cascade over the pools; each try has an environment of its own. -/
def cascade (cfg : Config) (info : RelayInfo) (preConsumedQuota : ℤ) (active : List BillingSource) :
    List (BillingSource × Env) → Store → Except ApiErr BillingSession × Store
  | [], st => (.error ⟨.insufficientUserQuota, 403, .poolsExhausted active⟩, st)
  | (src, env) :: rest, st =>
    match tryPool cfg env info preConsumedQuota src st with
    | (.ok s, st') => (.ok s, st')
    -- whatever the error was, the next pool is tried
    | (.error _, st') => cascade cfg info preConsumedQuota active rest st'

def newBillingSession (cfg : Config) (bs : BillingSetting) (us : UserBillingSetting) (envs : ℕ → Env)
    (info : RelayInfo) (preConsumedQuota : ℤ) (st : Store) : Except ApiErr BillingSession × Store :=
  let active := activePriority bs us info.originModelName
  cascade cfg info preConsumedQuota active (active.zipIdx.map fun p => (p.1, envs p.2)) st

def preConsumeBilling (cfg : Config) (bs : BillingSetting) (us : UserBillingSetting) (envs : ℕ → Env)
    (quotaClamp : Option QuotaClamp) (info : RelayInfo) (preConsumedQuota : ℤ) (st : Store) :
    Except ApiErr BillingSession × Store :=
  match quotaClamp with
  | some clamp => (.error ⟨.modelPriceError, 400, .quotaClamped clamp.original⟩, st)
  | none =>
    if preConsumedQuota < 0 then (.error ⟨.modelPriceError, 400, .preConsumeNegative preConsumedQuota⟩, st)
    else newBillingSession cfg bs us envs info preConsumedQuota st

end NewApi
