import NewApi.Spec.RelayLoop

/-!
# Attempts and the response

An attempt may write to the client and settle the billing session before it returns, with or without an error. After a
400 the loop may also try the request as an image and as a speech request (`controller/relay_cross_modality.go`):
these write into a recorder, but settle the session of the request. Of all this the loop looks only at
`c.Writer.Written()`, which is also true when a realtime connection has been taken over.
-/

namespace NewApi

inductive UpstreamKind
  | relay | image | speech
  deriving DecidableEq, Repr

structure UpstreamAttempt where
  kind : UpstreamKind
  model : String
  channel : ℕ
  writes : Bool
  settles : Bool
  deriving DecidableEq, Repr

def UpstreamAttempt.delivers (a : UpstreamAttempt) : Bool := a.writes || a.settles

structure Probe where
  settles : Bool
  answered : Bool
  deriving DecidableEq, Repr

structure ServeEnv where
  relay : RelayEnv
  writes : Bool := false
  settles : Bool := false
  hasPrompt : Bool := false
  image : Probe := ⟨false, false⟩
  speech : Probe := ⟨false, false⟩

structure ServeState where
  relay : RelayState
  written : Bool

/-- First as an image, then as speech. -/
def tryCrossModalityFallback (env : ServeEnv) (written : Bool) : Bool :=
  !written && env.hasPrompt && (env.image.answered || env.speech.answered)

def crossModalityAttempts (env : ServeEnv) (written : Bool) (model : String) (channel : ℕ) : List UpstreamAttempt :=
  if written || !env.hasPrompt then []
  else ⟨.image, model, channel, false, env.image.settles⟩ ::
    if env.image.answered then [] else [⟨.speech, model, channel, false, env.speech.settles⟩]

/-- What the loop sees of a round: `taken` when the connection has been taken over. -/
def ServeEnv.seen (env : ServeEnv) (taken written : Bool) : RelayEnv :=
  { env.relay with
    written := taken || written
    crossModality := tryCrossModalityFallback env (taken || written) }

def reachesCrossModality (cfg : RelayConfig) (env : RelayEnv) (err : NewAPIError) : Bool :=
  !isUserFacingNoRetryError err && !shouldRetryOtherChannel cfg env err && !cfg.specificChannel &&
    decide (err.statusCode = 400) && cfg.chatCompletions

def crossAttempts (cfg : RelayConfig) (taken written : Bool) (env : ServeEnv) (model : String) (channel : ℕ) :
    List UpstreamAttempt :=
  match env.relay.answer with
  | none => []
  | some err =>
    if reachesCrossModality cfg (env.seen taken written) err then
      crossModalityAttempts env (taken || written) model channel
    else []

def serveRound (cfg : RelayConfig) (taken : Bool) (env : ServeEnv) (s : ServeState) :
    List UpstreamAttempt × Option ServeState :=
  let written := s.written || env.writes
  let r := relayRound cfg (env.seen taken written) s.relay
  match r.1 with
  | none => ([], r.2.map fun relay => ⟨relay, s.written⟩)
  | some (model, channel) =>
    (⟨.relay, model, channel, env.writes, env.settles⟩ :: crossAttempts cfg taken written env model channel,
      r.2.map fun relay => ⟨relay, written⟩)

def ServeState.start (fallback : FallbackState) (autoGroupIndex : ℕ) : ServeState :=
  ⟨.start fallback autoGroupIndex, false⟩

structure ServeEvent where
  env : ServeEnv
  attempts : List UpstreamAttempt

def ServeStep (cfg : RelayConfig) (taken : Bool) (o : Option ServeState) (e : ServeEvent)
    (o' : Option ServeState) : Prop :=
  ∃ s, o = some s ∧ serveRound cfg taken e.env s = (e.attempts, o')

end NewApi
