import NewApi.Spec.Channel

/-!
# The retry loop of `Relay`

`controller/relay.go` and `relay_fallback.go`: a request is tried on one channel after another, and when a model has
no channel left, on one fallback model after another. The loop goes on as long as there is a channel it has not used
for the model (`IgnoredChannelIds`), or a model it has not used.

One round is a function of the state and of what happens in the round; billing and body are left out but for the
errors they end a round with.
-/

namespace NewApi

structure NewAPIError where
  statusCode : ℕ
  code : ErrorCode
  message : String := ""
  deriving DecidableEq, Repr

def ErrorCode.isUserFacing : ErrorCode → Bool
  | .readRequestBodyFailed | .badRequestBody | .convertRequestFailed | .countTokenFailed
  | .accessDenied | .invalidRequest | .sensitiveWordsDetected | .modelPriceError
  | .insufficientUserQuota | .preConsumeTokenQuotaFailed | .genRelayInfoFailed | .invalidApiType => true
  | _ => false

def ErrorCode.isChannel : ErrorCode → Bool
  | .channel _ => true
  | _ => false

def containsText (text part : String) : Bool := text.toList.tails.any fun rest => part.toList.isPrefixOf rest

/-- The words by which a message of status 400 is taken for the upstream's. -/
def retryableWords : List String :=
  ["context", "token", "model", "not supported", "unsupported", "not found", "quota", "rate",
    "overloaded", "capacity", "does not exist", "invalid_parameter", "upstream"]

def isUpstreamRetryable400 (err : NewAPIError) : Bool :=
  decide (err.statusCode = 400) && !err.code.isUserFacing &&
    (retryableWords.any (containsText err.message.toLower) || decide (err.code = .badResponseStatusCode))

def isUserFacingNoRetryError (err : NewAPIError) : Bool :=
  !isUpstreamRetryable400 err && (decide (err.statusCode = 400) || err.code.isUserFacing)

inductive FallbackKind
  | image | speech | transcription | video | chat
  deriving DecidableEq, Repr

/-- `RelayFallbackSetting`, with its lists parsed, and the enabled models of the installation. -/
structure FallbackSetting where
  enableFallback : Bool
  fallbackModels : FallbackKind → List String
  enabledModels : List String

def unseen : List String → List String → List String
  | [], _ => []
  | m :: rest, seen => if m ∈ seen then unseen rest seen else m :: unseen rest (m :: seen)

theorem unseen_spec : ∀ (models seen : List String), (unseen models seen).Nodup ∧ ∀ m ∈ unseen models seen, m ∉ seen
  | [], seen => by simp [unseen]
  | m :: rest, seen => by
    unfold unseen
    split
    · exact unseen_spec rest seen
    · rename_i hm
      obtain ⟨hnodup, hnew⟩ := unseen_spec rest (m :: seen)
      refine ⟨List.nodup_cons.2 ⟨fun hmem => hnew m hmem List.mem_cons_self, hnodup⟩, ?_⟩
      intro x hx
      rcases List.mem_cons.1 hx with rfl | hx
      · exact hm
      · exact fun hseen => hnew x hx (List.mem_cons_of_mem _ hseen)

structure FallbackState where
  orig : String
  models : List String
  nodup : (orig :: models).Nodup
  idx : ℕ
  on : Bool

/-- The models configured for the request's kind, then all that are enabled. -/
def newFallbackState (setting : FallbackSetting) (kind : FallbackKind) (orig : String) : FallbackState where
  orig := orig
  models := if setting.enableFallback then
      unseen (setting.fallbackModels kind ++ setting.enabledModels.insertionSort (· ≤ ·)) [orig]
    else []
  nodup := by
    split
    · obtain ⟨hnodup, hnew⟩ := unseen_spec
        (setting.fallbackModels kind ++ setting.enabledModels.insertionSort (· ≤ ·)) [orig]
      exact List.nodup_cons.2 ⟨fun hmem => hnew orig hmem List.mem_cons_self, hnodup⟩
    · exact List.nodup_singleton orig
  idx := 0
  on := setting.enableFallback

def FallbackState.remaining (fb : FallbackState) : List String := fb.models.drop fb.idx

structure RelayConfig where
  table : ChannelTable
  serverless : ServerlessCache
  tokenGroup : String
  autoGroups : List String
  requestPath : String
  contextChannel : ℕ
  /-- `specific_channel_id` is set -/
  (specificChannel useFloor useNitro : Bool)
  retryTimes : ℤ
  chatCompletions : Bool

/-- What the loop changes. -/
structure RelayState where
  modelName : String
  retry : ℕ
  ignoredChannelIds : List ℕ
  channelMeta : Bool
  autoGroupIndex : ℕ
  fallback : FallbackState

structure RelayEnv where
  /-- the choices, one for each group that is asked -/
  select : ℕ → SelectEnv := fun _ => { rand := 0 }
  /-- the error of `SetupContextForSelectedChannel` -/
  setupErr : Option ErrorCode := none
  /-- `PrepareTieredBillingForSelectedGroup` fails -/
  billingErr : Bool := false
  /-- `GetBodyStorage` fails -/
  bodyErr : Bool := false
  /-- what the handler returns; `none` is success -/
  answer : Option NewAPIError
  /-- `ShouldSkipRetryAfterChannelAffinityFailure` -/
  affinitySkip : Bool := false
  written : Bool := false
  /-- `tryCrossModalityFallback` succeeds -/
  crossModality : Bool := false
  /-- `switchRelayModel` fails for a model -/
  switchErr : String → Bool := fun _ => false

/-- The search of `CacheGetRandomSatisfiedChannel` through the automatic groups, from the `i`-th on. -/
def searchGroups (cfg : RelayConfig) (env : RelayEnv) (model : String) (ignored : List ℕ) :
    List String → ℕ → Option ℕ × ℕ
  | [], i => (none, i)
  | group :: rest, i =>
    match (getRandomSatisfiedChannel cfg.table (env.select i) group model ignored cfg.requestPath).1 with
    | some id => (some id, i)
    | none => searchGroups cfg env model ignored rest (i + 1)

/-- A group that has no channel left resets the retry count. -/
def cacheGetRandomSatisfiedChannel (cfg : RelayConfig) (env : RelayEnv) (s : RelayState) : RelayState × Selection :=
  if cfg.tokenGroup = "auto" then
    if cfg.autoGroups = [] then (s, none, true)
    else
      let r := searchGroups cfg env s.modelName s.ignoredChannelIds (cfg.autoGroups.drop s.autoGroupIndex)
        s.autoGroupIndex
      ({ s with
        autoGroupIndex := r.2
        retry := if r.2 = s.autoGroupIndex then s.retry else 0 }, r.1, false)
  else
    match getRandomSatisfiedChannel cfg.table (env.select 0) cfg.tokenGroup s.modelName
        s.ignoredChannelIds cfg.requestPath with
    | (_, true) => (s, none, true)
    | (channel, false) => (s, channel, false)

def serverlessFirst (cfg : RelayConfig) (model : String) : Option ℕ :=
  if !cfg.useFloor && !cfg.useNitro && decide (cfg.serverless.priority model = 1) then
    cfg.serverless.activeChannel model
  else none

/-- The serverless channel that a model is tried on when its channels are used up. -/
def serverlessLast (cfg : RelayConfig) (model : String) : Option ℕ :=
  if cfg.serverless.priority model = 0 then cfg.serverless.activeChannel model else none

def tagged (cfg : RelayConfig) (s : RelayState) (channel : ℕ) : ℕ :=
  if (cfg.useFloor || cfg.useNitro) && decide (cfg.tokenGroup ≠ "auto") then
    match pickTaggedChannel cfg.table cfg.tokenGroup s.modelName s.ignoredChannelIds cfg.requestPath
        cfg.useFloor cfg.useNitro with
    | some best => best.id
    | none => channel
  else channel

def routeChannel (cfg : RelayConfig) (env : RelayEnv) (s : RelayState) : RelayState × Option ℕ :=
  match serverlessFirst cfg s.modelName with
  | some id => (s, some id)
  | none =>
    match cacheGetRandomSatisfiedChannel cfg env s with
    | (s', _, true) => (s', none)
    | (s', some id, false) => (s', some (tagged cfg s' id))
    | (s', none, false) => (s', (serverlessLast cfg s.modelName).map (tagged cfg s'))

/-- The first channel of a request is the distributor's. -/
def getChannel (cfg : RelayConfig) (env : RelayEnv) (s : RelayState) : RelayState × Except ErrorCode ℕ :=
  if !s.channelMeta then (s, .ok cfg.contextChannel)
  else match routeChannel cfg env s with
    | (s', none) => (s', .error .getChannelFailed)
    | (s', some id) =>
      match env.setupErr with
      | some code => ({ s' with ignoredChannelIds := s'.ignoredChannelIds ++ [id] }, .error code)
      | none => (s', .ok id)

/-- The candidates of `advanceFallbackModel` from the `idx`-th on; some names are passed over. -/
def findModel (switchErr : String → Bool) : List String → ℕ → Option (String × ℕ)
  | [], _ => none
  | cand :: rest, idx =>
    if cand = "" ∨ switchErr cand = true then findModel switchErr rest (idx + 1) else some (cand, idx + 1)

def advanceFallbackModel (env : RelayEnv) (s : RelayState) : Option RelayState :=
  if !s.fallback.on then none
  else (findModel env.switchErr s.fallback.remaining s.fallback.idx).map fun r =>
    { s with
      modelName := r.1, retry := 0, ignoredChannelIds := []
      fallback := { s.fallback with idx := r.2 } }

def shouldRetryOtherChannel (cfg : RelayConfig) (env : RelayEnv) (err : NewAPIError) : Bool :=
  !env.affinitySkip && !cfg.specificChannel && !env.written &&
    (if err.statusCode = 400 then isUpstreamRetryable400 err else !isUserFacingNoRetryError err)

/-- `shouldRetry`, which is asked only for requests with a specific channel: only channel errors are retried. -/
def shouldRetry (env : RelayEnv) (err : NewAPIError) : Bool := !env.affinitySkip && err.code.isChannel

def afterFailure (cfg : RelayConfig) (env : RelayEnv) (err : NewAPIError) (s : RelayState) : Option RelayState :=
  if isUserFacingNoRetryError err then none
  -- another channel of the same model; the one that failed is ignored from now on
  else if shouldRetryOtherChannel cfg env err then some { s with retry := 0 }
  else if !cfg.specificChannel then
    if decide (err.statusCode = 400) && cfg.chatCompletions && env.crossModality then none
    else advanceFallbackModel env s
  else if !shouldRetry env err then none
  -- a request with a specific channel is retried as often as the setting allows
  else if cfg.retryTimes ≤ s.retry then none
  else some { s with retry := s.retry + 1 }

/-- The round after a channel was found: every handler sets `ChannelMeta` first. -/
def tryChannel (cfg : RelayConfig) (env : RelayEnv) (channel : ℕ) (s : RelayState) :
    Option (String × ℕ) × Option RelayState :=
  let s := { s with ignoredChannelIds := s.ignoredChannelIds ++ [channel] }
  if env.billingErr then (none, advanceFallbackModel env s)
  else if env.bodyErr then (none, none)
  else (some (s.modelName, channel),
    env.answer.bind fun err => afterFailure cfg env err { s with channelMeta := true })

def relayRound (cfg : RelayConfig) (env : RelayEnv) (s : RelayState) : Option (String × ℕ) × Option RelayState :=
  match getChannel cfg env s with
  | (s', .ok channel) => tryChannel cfg env channel s'
  | (s', .error code) =>
    -- a channel that can not be set up is ignored, and the next one is asked for
    if !cfg.specificChannel && decide (code ≠ .getChannelFailed) then (none, some { s' with retry := 0 })
    else (none, advanceFallbackModel env s')

structure RoundEvent where
  attempt : Option (String × ℕ)
  entered : Option String

def enteredModel (s : RelayState) : Option RelayState → Option String
  | some s' => if s'.fallback.idx = s.fallback.idx then none else some s'.modelName
  | none => none

/-- At most `n` rounds; the state is `none` when the loop has ended. -/
def relayLoop (cfg : RelayConfig) : ℕ → (ℕ → RelayEnv) → RelayState → List RoundEvent × Option RelayState
  | 0, _, s => ([], some s)
  | n + 1, envs, s =>
    let r := relayRound cfg (envs 0) s
    let event : RoundEvent := ⟨r.1, enteredModel s r.2⟩
    match r.2 with
    | none => ([event], none)
    | some s' =>
      let rest := relayLoop cfg n (fun k => envs (k + 1)) s'
      (event :: rest.1, rest.2)

/-- The state in which `Relay` enters the loop. The index of the automatic group is where the
distributor has left it. -/
def RelayState.start (fallback : FallbackState) (autoGroupIndex : ℕ) : RelayState where
  modelName := fallback.orig
  retry := 0
  ignoredChannelIds := []
  channelMeta := false
  autoGroupIndex := autoGroupIndex
  fallback := fallback

end NewApi
