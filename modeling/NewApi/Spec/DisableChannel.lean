import NewApi.Spec.RelayLoop

/-!
# The reasons for disabling channels

`controller/relay.go`: when an attempt fails with an error that disables its channel, `Relay` starts a goroutine that
calls `DisableChannel` with the text of `newAPIError`, one variable for the whole request, which the goroutine reads
when it runs. The statements that concern the variable are a list, and a goroutine may run after any number of them
from its start on.
-/

namespace NewApi

/-- `ErrorWithStatusCode`; `message` is what `Error` returns. -/
def errorWithStatusCode : Option NewAPIError → String
  | none => ""
  | some err =>
    if err.statusCode = 0 then err.message
    else if err.message = "" then "status_code=" ++ toString err.statusCode
    else "status_code=" ++ toString err.statusCode ++ ", " ++ err.message

structure DisableConfig where
  /-- `ShouldDisableChannel`, for errors that may be retried -/
  shouldDisable : NewAPIError → Bool
  autoBan : ℕ → Bool
  /-- `NormalizeViolationFeeError`: the error that a violation is wrapped in, which is not retried -/
  violation : NewAPIError → Option NewAPIError
  /-- the errors of `getChannel`, of the tiered billing and of the body -/
  (channelErr billingErr bodyErr : NewAPIError)
  requestId : String

/-- `SetMessage` with `MessageWithRequestId` -/
def DisableConfig.withRequestId (d : DisableConfig) (err : NewAPIError) : NewAPIError :=
  { err with message := err.message ++ " (request id: " ++ d.requestId ++ ")" }

def DisableConfig.normalize (d : DisableConfig) (err : NewAPIError) : NewAPIError := (d.violation err).getD err

inductive RelayStmt
  /-- `newAPIError = ...` -/
  | assign (value : Option NewAPIError)
  /-- the goroutine of a channel is started, for the error that the attempt returned -/
  | disable (channel : ℕ) (own : NewAPIError)
  deriving DecidableEq, Repr

def newAPIError (value : Option NewAPIError) (stmts : List RelayStmt) : Option NewAPIError :=
  stmts.foldl (fun value stmt => match stmt with
    | .assign value' => value'
    | .disable _ _ => value) value

/-- What follows an attempt is decided with the normalized error. -/
def DisableConfig.normalized (d : DisableConfig) (env : RelayEnv) : RelayEnv :=
  { env with answer := env.answer.map d.normalize }

def crossModalityServes (cfg : RelayConfig) (env : RelayEnv) (err : NewAPIError) : Bool :=
  !isUserFacingNoRetryError err && !shouldRetryOtherChannel cfg env err && !cfg.specificChannel &&
    decide (err.statusCode = 400) && cfg.chatCompletions && env.crossModality

def attemptStmts (d : DisableConfig) (cfg : RelayConfig) (env : RelayEnv) (channel : ℕ) : List RelayStmt :=
  match env.answer with
  | none => [.assign none]
  | some err =>
    .assign (some err) :: .assign (some (d.normalize err)) ::
      ((if d.violation err = none ∧ d.shouldDisable err = true ∧ d.autoBan channel = true then
        [.disable channel err] else []) ++
      if crossModalityServes cfg env (d.normalize err) then [.assign none] else [])

def roundStmts (d : DisableConfig) (cfg : RelayConfig) (env : RelayEnv) (last : Option NewAPIError) (s : RelayState) :
    List RelayStmt :=
  match getChannel cfg env s with
  | (s', .error code) =>
    if !cfg.specificChannel && decide (code ≠ .getChannelFailed) || (advanceFallbackModel env s').isSome then []
    else .assign (some d.channelErr) :: (last.map fun err => .assign (some err)).toList
  | (s', .ok channel) =>
    if env.billingErr then if (advanceFallbackModel env s').isSome then [] else [.assign (some d.billingErr)]
    else if env.bodyErr then [.assign (some d.bodyErr)]
    else attemptStmts d cfg env channel

/-- The deferred functions of `Relay`. The last one changes the message of the error that the variable points to, which
a goroutine that reads the variable afterwards finds there. -/
def deferredStmts (d : DisableConfig) : Option NewAPIError → List RelayStmt
  | none => []
  | some err => [.assign (some (d.normalize err)), .assign (some (d.withRequestId (d.normalize err)))]

/-- The statements of at most `n` rounds, and what is deferred until after the last one. -/
def relayStmts (d : DisableConfig) (cfg : RelayConfig) :
    ℕ → (ℕ → RelayEnv) → Option NewAPIError → RelayState → List RelayStmt
  | 0, _, _, _ => []
  | n + 1, envs, last, s =>
    let stmts := roundStmts d cfg (envs 0) last s
    match relayRound cfg (d.normalized (envs 0)) s with
    | (_, none) => stmts ++ deferredStmts d (newAPIError none stmts)
    | (attempt, some s') =>
      let last := if attempt.isSome then (envs 0).answer.map d.normalize else last
      stmts ++ relayStmts d cfg n (fun k => envs (k + 1)) last s'

end NewApi
