import NewApi.Spec.Store

/-!
# Funding sources

`service/funding_source.go`: the four pools behind one interface, `PreConsume`,
`Settle` and `Refund`, and `reserveFunding` / `rollbackFundingReserve` of
`service/billing_session.go`, which raise a hold and take the raise back.

A source remembers in `consumed` what it took, and gives that back on a refund.
The subscription source instead remembers what its pre-consume reported.
-/

namespace NewApi

structure Env where
  subEnv : SubEnv
  /-- `common.GetTimestamp()` -/
  now : ℤ
  (userCache tokenCache : CacheQuotaResult)
  cachedUserQuota : Option ℤ
  fundingErr : Bool
  retryErr : Bool
  tokenErr : Bool
  rollbackErr : Bool
  readErr : Bool
  packageErr : Bool

structure Env.Succeeds (env : Env) : Prop where
  funding : env.fundingErr = false
  retry : env.retryErr = false
  token : env.tokenErr = false
  rollback : env.rollbackErr = false
  read : env.readErr = false
  package : env.packageErr = false

structure SubscriptionFunding where
  requestId : String
  amount : ℤ
  subscriptionId : ℕ
  (preConsumed amountTotal amountUsedAfter : ℤ)
  planId : ℕ
  planTitle : String
  deriving DecidableEq, Repr

inductive Funding
  | wallet (consumed : ℤ)
  | subscription (f : SubscriptionFunding)
  | requests (consumed : ℤ)
  | tokens (consumed : ℤ)
  deriving DecidableEq, Repr

def Funding.source : Funding → BillingSource
  | .wallet _ => .wallet
  | .subscription _ => .subscription
  | .requests _ => .requests
  | .tokens _ => .tokens

/-- The plan of a subscription and its title, or what the fields were before when the
lookup fails. -/
def planInfo (env : Env) (st : SubStore) (id : ℕ) : Option (ℕ × String) :=
  if env.readErr then none
  else match st.table.find id with
    | none => none
    | some sub => (env.subEnv.plans sub.planId).map fun plan => (sub.planId, plan.title)

/-- What `TokensFunding.PreConsume` asks for: 100 for an amount of zero or less. -/
def estimated (amount : ℤ) : ℤ := if amount ≤ 0 then 100 else amount

/-- `TokensFunding.PreConsume`. A balance below the estimate is taken whole. -/
def tokensPreConsume (env : Env) (amount : ℤ) (st : Store) : Except Err (ℤ × Store) :=
  match tryReserveUserTokens env.fundingErr (estimated amount) st with
  | .error e => .error e
  | .ok (true, st') => .ok (estimated amount, st')
  | .ok (false, _) =>
    if env.readErr = false ∧ 0 < st.tokensBalance then
      match tryReserveUserTokens env.retryErr st.tokensBalance st with
      | .ok (true, st') => .ok (st.tokensBalance, st')
      | _ => .error .insufficientTokens
    else .error .insufficientTokens

/-- `SubscriptionFunding.PreConsume`, which ignores its argument. -/
def subscriptionPreConsume (env : Env) (f : SubscriptionFunding) (st : Store) :
    Except Err (SubscriptionFunding × Store) :=
  match preConsumeUserSubscription env.subEnv env.fundingErr f.requestId f.amount st.sub with
  | .error e => .error e
  | .ok (res, sub) =>
    let f' := { f with
      subscriptionId := res.userSubscriptionId, preConsumed := res.preConsumed
      amountTotal := res.amountTotal, amountUsedAfter := res.amountUsedAfter }
    match planInfo env sub res.userSubscriptionId with
    -- without its plan the subscription is charged all the same
    | none => .ok (f', { st with sub := sub })
    | some (planId, title) => .ok ({ f' with planId := planId, planTitle := title }, { st with sub := sub })

def Funding.preConsume (cfg : Config) (env : Env) (amount : ℤ) (f : Funding) (st : Store) :
    Except Err (Funding × Store) :=
  match f with
  | .wallet consumed =>
    if amount ≤ 0 then .ok (.wallet consumed, st)
    else match tryReserveUserQuota cfg env.fundingErr env.userCache amount st with
      | .error e => .error e
      | .ok (false, _) => .error .insufficientWalletQuota
      | .ok (true, st') => .ok (.wallet amount, st')
  | .subscription s =>
    match subscriptionPreConsume env s st with
    | .error e => .error e
    | .ok (s', st') => .ok (.subscription s', st')
  | .requests _ =>
    match tryReserveUserRequests env.fundingErr 1 st with
    | .error e => .error e
    | .ok (false, _) => .error .insufficientRequests
    | .ok (true, st') => .ok (.requests 1, st')
  | .tokens _ =>
    match tokensPreConsume env amount st with
    | .error e => .error e
    | .ok (taken, st') => .ok (.tokens taken, st')

def Store.postConsume (dbErr : Bool) (id : ℕ) (delta : ℤ) (st : Store) : Except Err Store :=
  (postConsumeUserSubscriptionDelta dbErr id delta st.sub).map fun sub => { st with sub := sub }

def Funding.settle (cfg : Config) (env : Env) (delta : ℤ) (f : Funding) (st : Store) : Except Err Store :=
  if delta = 0 then .ok st
  else match f with
    | .wallet _ =>
      if 0 < delta then decreaseUserQuota cfg env.fundingErr delta st
      else increaseUserQuota cfg env.fundingErr (-delta) st
    | .subscription s => st.postConsume env.fundingErr s.subscriptionId delta
    -- a request costs one request, whatever its quota
    | .requests _ => .ok st
    | .tokens _ =>
      if 0 < delta then decreaseUserTokens env.fundingErr delta st
      else increaseUserTokens env.fundingErr (-delta) st

def attempt (st : Store) (r : Except Err Store) : Store × Option Err :=
  match r with
  | .ok st' => (st', none)
  | .error e => (st, some e)

/-- One attempt at `Refund`. Only the subscription source repeats it after an error (`refundWithRetry`). -/
def Funding.refund (cfg : Config) (fault : RefundFault) (f : Funding) (st : Store) : Store × Option Err :=
  match f with
  | .wallet consumed =>
    if consumed ≤ 0 then (st, none)
    else attempt st (increaseUserQuota cfg (fault != .none) consumed st)
  | .subscription s =>
    if s.preConsumed ≤ 0 then (st, none)
    else
      let r := refundSubscriptionPreConsume fault s.requestId st.sub
      ({ st with sub := r.1 }, r.2)
  | .requests consumed =>
    if consumed ≤ 0 then (st, none)
    else attempt st (increaseUserRequests (fault != .none) consumed st)
  | .tokens consumed =>
    if consumed ≤ 0 then (st, none)
    else attempt st (increaseUserTokens (fault != .none) consumed st)

def Funding.reserve (cfg : Config) (env : Env) (delta : ℤ) (f : Funding) (st : Store) : Except Err (Funding × Store) :=
  match f with
  | .wallet consumed => (decreaseUserQuota cfg env.fundingErr delta st).map (.wallet (consumed + delta), ·)
  | .subscription s => (st.postConsume env.fundingErr s.subscriptionId delta).map (.subscription s, ·)
  | .requests consumed => .ok (.requests consumed, st)
  | .tokens consumed => (decreaseUserTokens env.fundingErr delta st).map (.tokens (consumed + delta), ·)

/-- `rollbackFundingReserve`: an error is only logged, and `consumed` then keeps the raise. -/
def Funding.rollback (cfg : Config) (env : Env) (delta : ℤ) (f : Funding) (st : Store) : Funding × Store :=
  match f with
  | .wallet consumed =>
    match increaseUserQuota cfg env.rollbackErr delta st with
    | .ok st' => (.wallet (consumed - delta), st')
    | .error _ => (.wallet consumed, st)
  | .subscription s =>
    match st.postConsume env.rollbackErr s.subscriptionId (-delta) with
    | .ok st' => (.subscription s, st')
    | .error _ => (.subscription s, st)
  | .requests consumed => (.requests consumed, st)
  | .tokens consumed =>
    match increaseUserTokens env.rollbackErr delta st with
    | .ok st' => (.tokens (consumed - delta), st')
    | .error _ => (.tokens consumed, st)

end NewApi
