import NewApi.Spec.Funding

/-!
# The billing session of a request

`service/billing_session.go` and `service/billing.go`. A session takes an estimate from a pool and from the API token
(`preConsume`), may raise it (`reserve`), and ends with `settle` or `refund`. A refund is decided under the lock of
the session and carried out by a goroutine, a `RefundJob` that moves one database operation at a time.
-/

namespace NewApi

structure ApiErr where
  code : ErrorCode
  statusCode : ℕ
  err : Err
  deriving DecidableEq, Repr

/-- The fields of `RelayInfo` that billing reads and writes; `tokenQuota` is the
`token_quota` of the request context. -/
structure RelayInfo where
  (requestId originModelName : String)
  (isPlayground tokenUnlimited forcePreConsume : Bool)
  (tokenQuota userQuota finalPreConsumedQuota : ℤ)
  billingSource : Option BillingSource
  subscriptionId : ℕ
  (subscriptionPreConsumed subscriptionPostDelta subscriptionAmountTotal
    subscriptionAmountUsedAfterPreConsume : ℤ)
  subscriptionPlanId : ℕ
  subscriptionPlanTitle : String
  deriving DecidableEq, Repr

structure BillingSession where
  relayInfo : RelayInfo
  funding : Funding
  (preConsumedQuota modelBalanceAvailable : ℤ)
  hasModelBalanceLimit : Bool
  (tokenConsumed extraReserved : ℤ)
  (trusted fundingSettled settled refunded : Bool)
  deriving DecidableEq, Repr

def fundingOf (info : RelayInfo) (amount : ℤ) : BillingSource → Funding
  | .wallet => .wallet 0
  | .requests => .requests 0
  | .tokens => .tokens 0
  | .subscription => .subscription ⟨info.requestId, amount, 0, 0, 0, 0, 0, ""⟩

namespace BillingSession

def new (relayInfo : RelayInfo) (funding : Funding) (available : ℤ) (restricted : Bool) : BillingSession :=
  ⟨relayInfo, funding, 0, available, restricted, 0, 0, false, false, false, false⟩

def shouldTrust (cfg : Config) (env : Env) (s : BillingSession) (st : Store) : Bool :=
  if s.relayInfo.forcePreConsume then false
  else if cfg.trustQuota ≤ 0 then false
  else if !(s.relayInfo.tokenUnlimited || decide (cfg.trustQuota < s.relayInfo.tokenQuota)) then false
  else match s.funding with
    | .wallet _ => decide (cfg.trustQuota < s.relayInfo.userQuota)
    | .requests _ => !env.readErr && decide (10 < st.requestsBalance)
    | .tokens _ => !env.readErr && decide (cfg.trustQuota < st.tokensBalance)
    | .subscription _ => false

def syncRelayInfo (s : BillingSession) : BillingSession :=
  let info := { s.relayInfo with
    finalPreConsumedQuota := s.preConsumedQuota, billingSource := some s.funding.source }
  match s.funding with
  | .subscription f =>
    { s with relayInfo := { info with
        subscriptionId := f.subscriptionId
        subscriptionPreConsumed := f.preConsumed + s.extraReserved
        subscriptionPostDelta := 0
        subscriptionAmountTotal := f.amountTotal
        subscriptionAmountUsedAfterPreConsume := f.amountUsedAfter + s.extraReserved
        subscriptionPlanId := f.planId
        subscriptionPlanTitle := f.planTitle } }
  | _ => { s with relayInfo := { info with subscriptionId := 0, subscriptionPreConsumed := 0 } }

end BillingSession

def preConsumeTokenQuota (cfg : Config) (env : Env) (info : RelayInfo) (quota : ℤ) (st : Store) : Except Err Store :=
  if quota < 0 then .error .negativeQuota
  else if info.isPlayground then .ok st
  else match tryReserveTokenQuota cfg env.tokenErr env.tokenCache info.tokenUnlimited quota st with
    | .error e => .error e
    | .ok (true, st') => .ok st'
    | .ok (false, _) => .error (.tokenQuotaNotEnough (if env.readErr then 0 else st.remainQuota) quota)

def returnTokenQuota (cfg : Config) (dbErr isPlayground : Bool) (quota : ℤ) (st : Store) : Store :=
  if 0 < quota ∧ isPlayground = false then
    match increaseTokenQuota cfg dbErr quota st with
    | .ok st' => st'
    | .error _ => st
  else st

def fundingApiErr (e : Err) : ApiErr :=
  match e with
  | .insufficientWalletQuota | .insufficientRequests | .insufficientTokens | .noActiveSubscription
  | .subscriptionQuotaInsufficient _ => ⟨.insufficientUserQuota, 403, e⟩
  | _ => ⟨.updateDataError, 500, e⟩

namespace BillingSession

def effectiveQuota (cfg : Config) (env : Env) (quota : ℤ) (s : BillingSession) (st : Store) : ℤ :=
  if s.shouldTrust cfg env st then 0 else quota

def preConsumed (s : BillingSession) (funding : Funding) (quota tokenConsumed : ℤ) (trust : Bool) : BillingSession :=
  { s with
    funding := funding, tokenConsumed := tokenConsumed, trusted := trust || s.trusted
    preConsumedQuota := quota }

/-- The second step of `preConsume`: the pool. On an error the API token gets its quota back. -/
def preConsumeFunding (cfg : Config) (env : Env) (quota tokenConsumed : ℤ) (trust : Bool)
    (s : BillingSession) (st : Store) : Except ApiErr BillingSession × Store :=
  match s.funding.preConsume cfg env quota st with
  | .error e =>
    (.error (fundingApiErr e), returnTokenQuota cfg env.rollbackErr s.relayInfo.isPlayground tokenConsumed st)
  | .ok (funding, st') => (.ok (s.preConsumed funding quota tokenConsumed trust).syncRelayInfo, st')

def preConsume (cfg : Config) (env : Env) (quota : ℤ) (s : BillingSession) (st : Store) :
    Except ApiErr BillingSession × Store :=
  let trust := s.shouldTrust cfg env st
  let effective := s.effectiveQuota cfg env quota st
  if 0 < effective then
    match preConsumeTokenQuota cfg env s.relayInfo effective st with
    | .error e => (.error ⟨.preConsumeTokenQuotaFailed, 403, e⟩, st)
    | .ok st' => s.preConsumeFunding cfg env effective effective trust st'
  else s.preConsumeFunding cfg env effective s.tokenConsumed trust st

/-- The second step of `Settle`: the API token; an error is logged and returned at the end. -/
def adjustToken (cfg : Config) (env : Env) (delta : ℤ) (s : BillingSession) (st : Store) : Store × Option Err :=
  if delta ≠ 0 ∧ s.relayInfo.isPlayground = false then
    match (if 0 < delta then decreaseTokenQuota cfg env.tokenErr delta st
      else increaseTokenQuota cfg env.tokenErr (-delta) st) with
    | .ok st' => (st', none)
    | .error e => (st, some e)
  else (st, none)

def logDelta (delta : ℤ) (s : BillingSession) : RelayInfo :=
  match s.funding with
  | .subscription _ => { s.relayInfo with
      subscriptionPostDelta := s.relayInfo.subscriptionPostDelta + delta }
  | _ => s.relayInfo

def deductPackage (cfg : Config) (env : Env) (actualQuota : ℤ) (s : BillingSession) (st : Store) : Store :=
  let deduct (poolType : PoolType) (amount : ℤ) : Store :=
    deductUserBalancePackage cfg env.packageErr env.now s.relayInfo.originModelName poolType amount st
  match s.funding with
  | .wallet _ => deduct .quota actualQuota
  | .tokens _ => deduct .tokens actualQuota
  | .requests _ => deduct .requests 1
  | .subscription _ => st

def settleToken (cfg : Config) (env : Env) (actualQuota delta : ℤ) (s : BillingSession) (st : Store) :
    BillingSession × Store × Option Err :=
  let r := s.adjustToken cfg env delta st
  ({ s with settled := true, relayInfo := s.logDelta delta }, s.deductPackage cfg env actualQuota r.1, r.2)

/-- The balance that a settlement may not exceed applies to the wallet and the tokens pool. -/
def overLimit (actualQuota : ℤ) (s : BillingSession) : Bool :=
  s.hasModelBalanceLimit && (decide (s.funding.source = .wallet) || decide (s.funding.source = .tokens))
    && decide (s.modelBalanceAvailable < actualQuota)

def settle (cfg : Config) (env : Env) (actualQuota : ℤ) (s : BillingSession) (st : Store) :
    BillingSession × Store × Option Err :=
  if s.settled then (s, st, none)
  else
    let delta := actualQuota - s.preConsumedQuota
    -- refused before the pool is asked: what was pre-consumed stays charged
    if s.overLimit actualQuota then (s, st, some (.modelRestricted s.relayInfo.originModelName))
    else if delta ≠ 0 ∧ s.fundingSettled = false then
      match s.funding.settle cfg env delta st with
      | .error e => (s, st, some e)
      | .ok st' => settleToken cfg env actualQuota delta { s with fundingSettled := true } st'
    else settleToken cfg env actualQuota delta s st

def needsRefund (s : BillingSession) : Bool :=
  if s.settled || s.refunded || s.fundingSettled then false
  else if 0 < s.tokenConsumed then true
  else match s.funding with
    -- only a subscription is asked what it gave; the other pools follow the API token
    | .subscription f => decide (0 < f.preConsumed)
    | _ => false

def reserveToken (cfg : Config) (env : Env) (delta : ℤ) (s : BillingSession) (st : Store) : Except Err Store :=
  if delta ≤ 0 ∨ s.relayInfo.isPlayground = true then .ok st
  else preConsumeTokenQuota cfg env s.relayInfo delta st

def raised (s : BillingSession) (funding : Funding) (delta : ℤ) : BillingSession :=
  { s with
    funding := funding, preConsumedQuota := s.preConsumedQuota + delta
    tokenConsumed := s.tokenConsumed + delta, extraReserved := s.extraReserved + delta }

def reserve (cfg : Config) (env : Env) (targetQuota : ℤ) (s : BillingSession) (st : Store) :
    BillingSession × Store × Option Err :=
  if s.settled || s.refunded || s.trusted || decide (targetQuota ≤ s.preConsumedQuota) then (s, st, none)
  else if s.hasModelBalanceLimit && decide (s.modelBalanceAvailable < targetQuota) then
    (s, st, some (.modelRestricted s.relayInfo.originModelName))
  else
    let delta := targetQuota - s.preConsumedQuota
    match s.funding.reserve cfg env delta st with
    | .error e => (s, st, some e)
    | .ok (funding, st') =>
      match s.reserveToken cfg env delta st' with
      | .error e =>
        -- the pool has given its share and the API token has not
        let r := funding.rollback cfg env delta st'
        ({ s with funding := r.1 }, r.2, some e)
      | .ok st'' => ((s.raised funding delta).syncRelayInfo, st'', none)

end BillingSession

inductive RefundPhase
  | funding (attempt : ℕ)
  | extra | token | done
  deriving DecidableEq, Repr

structure RefundJob where
  isPlayground : Bool
  (tokenConsumed extraReserved : ℤ)
  subscriptionId : ℕ
  phase : RefundPhase
  deriving DecidableEq, Repr

def refundMaxAttempts : ℕ := 3

def BillingSession.refundJob (s : BillingSession) : RefundJob :=
  ⟨s.relayInfo.isPlayground, s.tokenConsumed, s.extraReserved, s.relayInfo.subscriptionId, .funding 0⟩

def BillingSession.refund (s : BillingSession) : BillingSession × Option RefundJob :=
  if s.settled || s.refunded || !s.needsRefund then (s, none)
  else ({ s with refunded := true }, some s.refundJob)

def RefundJob.giveExtra (fault : RefundFault) (funding : Funding) (job : RefundJob) (st : Store) : Store :=
  if 0 < job.extraReserved ∧ funding.source = .subscription ∧ 0 < job.subscriptionId then
    match st.postConsume (fault != .none) job.subscriptionId (-job.extraReserved) with
    | .ok st' => st'
    | .error _ => st
  else st

def RefundJob.again (funding : Funding) (attempt : ℕ) (err : Option Err) : Bool :=
  err.isSome && decide (funding.source = .subscription) && decide (attempt + 1 < refundMaxAttempts)

def RefundJob.step (cfg : Config) (fault : RefundFault) (funding : Funding) (job : RefundJob)
    (st : Store) : RefundJob × Store :=
  match job.phase with
  | .funding attempt =>
    let r := funding.refund cfg fault st
    ({ job with phase := if RefundJob.again funding attempt r.2 then .funding (attempt + 1) else .extra }, r.1)
  | .extra => ({ job with phase := .token }, job.giveExtra fault funding st)
  | .token => ({ job with phase := .done }, returnTokenQuota cfg (fault != .none) job.isPlayground job.tokenConsumed st)
  | .done => (job, st)

def RefundJob.run (cfg : Config) (funding : Funding) : ℕ → RefundJob → Store → RefundJob × Store
  | 0, job, st => (job, st)
  | n + 1, job, st =>
    let r := job.step cfg .none funding st
    RefundJob.run cfg funding n r.1 r.2

/-- `Refund`, and its goroutine run to its end without database errors: at most `refundMaxAttempts` attempts at the
pool. -/
def BillingSession.refundAll (cfg : Config) (s : BillingSession) (st : Store) : Store :=
  match s.refund with
  | (_, none) => st
  | (s', some job) => (job.run cfg s'.funding (refundMaxAttempts + 2) st).2

inductive Call
  | reserve (env : Env) (targetQuota : ℤ)
  | settle (env : Env) (actualQuota : ℤ)

/-- The calls before a session ends, with every operation succeeding: a `Reserve`, and a `Settle` that returns an
error. -/
inductive PendingStep (cfg : Config) : BillingSession × Store → Call → BillingSession × Store → Prop
  | reserve {s s' : BillingSession} {st st' : Store} {env : Env} {x : ℤ} {e : Option Err} :
      env.Succeeds → s.reserve cfg env x st = (s', st', e) →
      PendingStep cfg (s, st) (.reserve env x) (s', st')
  | settle {s s' : BillingSession} {st st' : Store} {env : Env} {a : ℤ} {e : Err} :
      env.Succeeds → s.settle cfg env a st = (s', st', some e) →
      PendingStep cfg (s, st) (.settle env a) (s', st')

end NewApi
