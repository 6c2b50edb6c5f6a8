import NewApi.Spec.Basic
import NewApi.Trace.Shared
import Mathlib.Data.List.Sort

/-!
# One-time authentication flows

`model/auth_flow.go`: a flow is a row under the hash of a secret token. It is consumed in a transaction together with
the action that it is for, and a signed assertion of an outside provider is recorded as used by a row of its own. Rows
are deleted a day after they have expired or were consumed. `controller/telegram.go` checks the assertions of Telegram
and claims them at a login, or in the action that binds an account.

Times are in nanoseconds. Every SQL statement is a step. A transaction holds the rows and the unique keys that it has
written until it ends, and others see them from its commit on.
-/

namespace NewApi

open Trace

def decimalDigits (cs : List Char) : Option ℕ :=
  if cs.isEmpty || !cs.all Char.isDigit then none
  else some (cs.foldl (fun n c => 10 * n + (c.toNat - '0'.toNat)) 0)

def parseInt64 (s : String) : Option ℤ := do
  let n : ℤ ← match s.toList with
    | '-' :: cs => (decimalDigits cs).map fun n => -(n : ℤ)
    | '+' :: cs => (decimalDigits cs).map fun n => (n : ℤ)
    | cs => (decimalDigits cs).map fun n => (n : ℤ)
  if -2 ^ 63 ≤ n ∧ n < 2 ^ 63 then some n else none

def hexDigit (c : Char) : Option ℕ :=
  if c.isDigit then some (c.toNat - '0'.toNat)
  else if 'a' ≤ c ∧ c ≤ 'f' then some (c.toNat - 'a'.toNat + 10)
  else if 'A' ≤ c ∧ c ≤ 'F' then some (c.toNat - 'A'.toNat + 10)
  else none

def hexBytes : List Char → Option (List UInt8)
  | [] => some []
  | [_] => none
  | c :: d :: cs => do
    let hi ← hexDigit c
    let lo ← hexDigit d
    let rest ← hexBytes cs
    return UInt8.ofNat (16 * hi + lo) :: rest

def hexDecodeString (s : String) : Option (List UInt8) := hexBytes s.toList

def hexEncodeToString (bytes : List UInt8) : String :=
  String.ofList (bytes.flatMap fun b => [Nat.digitChar (b.toNat / 16), Nat.digitChar (b.toNat % 16)])

abbrev UrlValues := List (String × List String)

def UrlValues.get (params : UrlValues) (key : String) : String := ((params.lookup key).bind List.head?).getD ""

def unixSecond : ℤ := 1000000000

def timeUnix (sec : ℤ) : ℤ := sec * unixSecond

def Time.unix (t : ℤ) : ℤ := t / unixSecond

def zeroTime : ℤ := timeUnix (-62135596800)

def authFlowDefaultCleanupRetention : ℤ := 24 * 3600 * unixSecond

def telegramAuthorizationMaxAge : ℤ := 5 * 60 * unixSecond

def telegramAuthorizationFutureSkew : ℤ := 2 * 60 * unixSecond

def authFlowPurposeTelegramBind : String := "telegram_bind"

def authFlowPurposeTelegramAssertion : String := "telegram_assertion"

structure AuthFlow where
  id : ℕ
  /-- unique -/
  (tokenHash purpose provider intent : String)
  userId : ℤ
  (sessionId payload : String)
  expiresAt : ℤ
  consumedAt : Option ℤ
  deriving DecidableEq

structure AuthFlowCreate where
  (purpose provider intent : String)
  userId : ℤ
  (sessionId payload : String)
  expiresAt : ℤ
  deriving DecidableEq

structure AuthFlowMatch where
  (purpose provider intent : String)
  userId : ℤ
  sessionId : String
  deriving DecidableEq

/-- The secrets, by what is computed with them, and whether `FOR UPDATE` locks rows. -/
structure FlowWorld where
  /-- `authFlowTokenHash` -/
  tokenHash : String → String
  /-- HMAC-SHA256 with the SHA256 of a token as key -/
  mac : String → String → List UInt8
  telegramBotToken : String
  rowLocks : Bool

def AuthFlowMatch.fits (w : FlowWorld) (token : String) (matching : AuthFlowMatch) (flow : AuthFlow) : Bool :=
  flow.tokenHash == w.tokenHash token && flow.purpose == matching.purpose &&
    (matching.provider == "" || flow.provider == matching.provider) &&
    (matching.intent == "" || flow.intent == matching.intent) &&
    (matching.userId == 0 || flow.userId == matching.userId) &&
    (matching.sessionId == "" || flow.sessionId == matching.sessionId)

def AuthFlow.consumable (id : ℕ) (now : ℤ) (flow : AuthFlow) : Bool :=
  flow.id == id && flow.consumedAt.isNone && decide (now < flow.expiresAt)

def AuthFlow.outdated (now : ℤ) (flow : AuthFlow) : Bool :=
  let cutoff := now - authFlowDefaultCleanupRetention
  decide (flow.expiresAt < cutoff) || flow.consumedAt.any fun consumedAt => decide (consumedAt < cutoff)

inductive TelegramErr
  | tokenEmpty | duplicateParameters | incomplete | dateInvalid | expired | signatureInvalid
  deriving DecidableEq

def TelegramErr.message : TelegramErr → String
  | .tokenEmpty => "telegram bot token is empty"
  | .duplicateParameters => "telegram authorization contains duplicate parameters"
  | .incomplete => "telegram authorization is incomplete"
  | .dateInvalid => "telegram authorization date is invalid"
  | .expired => "telegram authorization has expired"
  | .signatureInvalid => "telegram authorization signature is invalid"

/-- What Telegram signs: all parameters but the signature, one on a line, in order. -/
def telegramSignedText (params : UrlValues) : String :=
  let strs := (params.filter fun kv => kv.1 != "hash").map fun kv => kv.1 ++ "=" ++ kv.2.headD ""
  "\n".intercalate (strs.insertionSort (· ≤ ·))

def verifyTelegramAuthorization (w : FlowWorld) (params : UrlValues) (token : String) (now : ℤ) :
    Except TelegramErr String :=
  if token = "" then .error .tokenEmpty
  else if params.any fun kv => kv.2.length != 1 then .error .duplicateParameters
  else if params.get "id" = "" ∨ params.get "hash" = "" ∨ params.get "auth_date" = "" then .error .incomplete
  else match parseInt64 (params.get "auth_date") with
    | none => .error .dateInvalid
    | some authDate =>
      if authDate < Time.unix (now - telegramAuthorizationMaxAge) ∨
          Time.unix (now + telegramAuthorizationFutureSkew) < authDate then .error .expired
      else if hexDecodeString (params.get "hash") = some (w.mac token (telegramSignedText params)) then
        .ok (params.get "id")
      else .error .signatureInvalid

/-- The text under which an assertion is recorded, and until when it is good. -/
def telegramAuthorizationClaim (params : UrlValues) (now : ℤ) : Except TelegramErr (String × ℤ) :=
  match parseInt64 (params.get "auth_date") with
  | none => .error .dateInvalid
  | some authDate =>
    match hexDecodeString (params.get "hash") with
    | none => .error .signatureInvalid
    | some hashBytes =>
      let expiresAt := timeUnix authDate + telegramAuthorizationMaxAge
      if expiresAt ≤ now then .error .expired else .ok (hexEncodeToString hashBytes, expiresAt)

inductive FlowErr
  | invalid | expired | consumed
  | telegram (err : TelegramErr)
  /-- of the driver, or of a caller: the session, the account, the rest of an action -/
  | refused
  deriving DecidableEq

/-- What a transaction has written: the flow that it has consumed and the assertion that it has recorded. -/
structure FlowWork where
  consumes : Option (AuthFlowMatch × AuthFlow)
  claims : Option AuthFlow
  deriving DecidableEq

inductive FlowOut
  | created (flow : AuthFlow)
  | committed (work : FlowWork)
  | cleaned
  deriving DecidableEq

inductive FlowOp
  /-- `CreateAuthFlow`, which has drawn this token -/
  | create (input : AuthFlowCreate) (token : String)
  /-- `ConsumeAuthFlowWithAction` with an action that claims no assertion, or without one -/
  | consume (token : String) (matching : AuthFlowMatch)
  | bind (token : String) (params : UrlValues)
  | login (params : UrlValues)
  /-- `DeleteExpiredAuthFlows(time.Now())` -/
  | cleanup

inductive FlowPhase
  | idle
  | verified
  | pending (flow : AuthFlow)
  | claiming (assertion : String) (expiresAt : ℤ)
  /-- it is going to consume a flow, with an action that claims this assertion -/
  | consuming (matching : AuthFlowMatch) (claim : Option (String × ℤ))
  | read (matching : AuthFlowMatch) (flow : AuthFlow) (claim : Option (String × ℤ))
  /-- its transaction has set `consumed_at` -/
  | consumed (matching : AuthFlowMatch) (flow : AuthFlow) (claim : Option (String × ℤ))
  | acted (work : FlowWork)
  | cleaning (now : ℤ)
  | done (result : Except FlowErr FlowOut)
  deriving DecidableEq

/-- The committed rows, the rows and keys that a transaction holds, and the clock. -/
structure FlowMem (ι : Type) where
  flows : List AuthFlow
  nextId : ℕ
  rowLocks : ℕ → Option ι
  keyLocks : String → Option ι
  now : ℤ

structure FlowEnv where
  fails : Bool
  deriving DecidableEq

section Program

variable {ι : Type} [DecidableEq ι]

namespace FlowMem

def release (i : ι) (m : FlowMem ι) : FlowMem ι :=
  { m with
    rowLocks := fun id => if m.rowLocks id = some i then none else m.rowLocks id
    keyLocks := fun key => if m.keyLocks key = some i then none else m.keyLocks key }

def abort (i : ι) (err : FlowErr) (m : FlowMem ι) : FlowPhase × FlowMem ι := (.done (.error err), m.release i)

def rowHeldByOther (i : ι) (id : ℕ) (m : FlowMem ι) : Bool := (m.rowLocks id).isSome && m.rowLocks id != some i

def lockRow (i : ι) (id : ℕ) (m : FlowMem ι) : FlowMem ι :=
  { m with rowLocks := Function.update m.rowLocks id (some i) }

def setConsumed (id : ℕ) (now : ℤ) (m : FlowMem ι) : FlowMem ι :=
  { m with flows := m.flows.map fun row => if row.consumable id now then { row with consumedAt := some now } else row }

def commit (i : ι) (work : FlowWork) (m : FlowMem ι) : FlowMem ι :=
  let consumed := match work.consumes with
    | some (_, flow) => flow.consumedAt.elim m fun now => m.setConsumed flow.id now
    | none => m
  { consumed with flows := consumed.flows ++ work.claims.toList }.release i

end FlowMem

variable (w : FlowWorld) (i : ι) (e : FlowEnv) (m : FlowMem ι)

def createAuthFlowStmt (input : AuthFlowCreate) (token : String) : Option (FlowPhase × FlowMem ι) :=
  if isBlank input.purpose || input.expiresAt = zeroTime || !decide (m.now < input.expiresAt) then
    some (.done (.error .invalid), m)
  else if e.fails then some (.done (.error .refused), m)
  else
    let flow : AuthFlow := ⟨m.nextId, w.tokenHash token, input.purpose, input.provider, input.intent, input.userId,
      input.sessionId, input.payload, input.expiresAt, none⟩
    if (m.keyLocks flow.tokenHash).isSome then none
    else if m.flows.any fun row => row.tokenHash == flow.tokenHash then some (.done (.error .refused), m)
    else some (.done (.ok (.created flow)), { m with flows := m.flows ++ [flow], nextId := m.nextId + 1 })

/-- `ON CONFLICT DO NOTHING`, so a hash that is there counts no row. -/
def claimExternalAuthAssertionWithTx (consumes : Option (AuthFlowMatch × AuthFlow)) (purpose assertion : String)
    (expiresAt : ℤ) : Option (FlowPhase × FlowMem ι) :=
  let purpose := trimSpace purpose
  let assertion := trimSpace assertion
  if purpose = "" ∨ assertion = "" ∨ expiresAt ≤ m.now then some (m.abort i .invalid)
  else if e.fails then some (m.abort i .refused)
  else
    let flow : AuthFlow := ⟨m.nextId, w.tokenHash ("external:" ++ purpose ++ ":" ++ assertion), purpose, "", "", 0, "",
      "", expiresAt, some m.now⟩
    if (m.keyLocks flow.tokenHash).isSome then none
    else if m.flows.any fun row => row.tokenHash == flow.tokenHash then some (m.abort i .consumed)
    else some (.acted ⟨consumes, some flow⟩,
      { m with nextId := m.nextId + 1, keyLocks := Function.update m.keyLocks flow.tokenHash (some i) })

def getAuthFlow (token : String) (matching : AuthFlowMatch) : Except FlowErr AuthFlow :=
  if token = "" ∨ matching.purpose = "" then .error .invalid
  else if e.fails then .error .refused
  else match m.flows.find? (matching.fits w token) with
    | none => .error .invalid
    | some flow =>
      if flow.consumedAt.isSome then .error .consumed
      else if flow.expiresAt ≤ m.now then .error .expired
      else .ok flow

def consumeRead (token : String) (matching : AuthFlowMatch) (claim : Option (String × ℤ)) :
    Option (FlowPhase × FlowMem ι) :=
  if token = "" ∨ matching.purpose = "" then some (.done (.error .invalid), m)
  else if e.fails then some (m.abort i .refused)
  else match m.flows.find? (matching.fits w token) with
    | none => some (m.abort i .invalid)
    | some flow =>
      if w.rowLocks && m.rowHeldByOther i flow.id then none
      else if flow.consumedAt.isSome then some (m.abort i .consumed)
      else some (.read matching flow claim, if w.rowLocks then m.lockRow i flow.id else m)

def consumeUpdate (matching : AuthFlowMatch) (flow : AuthFlow) (claim : Option (String × ℤ)) :
    Option (FlowPhase × FlowMem ι) :=
  if flow.expiresAt ≤ m.now then some (m.abort i .expired)
  else if e.fails then some (m.abort i .refused)
  else if m.rowHeldByOther i flow.id then none
  else if m.flows.any (AuthFlow.consumable flow.id m.now) then
    some (.consumed matching { flow with consumedAt := some m.now } claim, m.lockRow i flow.id)
  else some (m.abort i .consumed)

def consumeAct (matching : AuthFlowMatch) (flow : AuthFlow) (claim : Option (String × ℤ)) :
    Option (FlowPhase × FlowMem ι) :=
  match claim with
  | none => if e.fails then some (m.abort i .refused) else some (.acted ⟨some (matching, flow), none⟩, m)
  | some (assertion, expiresAt) =>
    claimExternalAuthAssertionWithTx w i e m (some (matching, flow)) authFlowPurposeTelegramAssertion assertion
      expiresAt

def commitStmt (work : FlowWork) : Option (FlowPhase × FlowMem ι) :=
  if e.fails then some (m.abort i .refused) else some (.done (.ok (.committed work)), m.commit i work)

def verifyStmt (params : UrlValues) : Option (FlowPhase × FlowMem ι) :=
  match verifyTelegramAuthorization w params w.telegramBotToken m.now with
  | .error err => some (.done (.error (.telegram err)), m)
  | .ok _ => some (.verified, m)

def claimTelegramStmt (params : UrlValues) (next : String → ℤ → FlowPhase) : Option (FlowPhase × FlowMem ι) :=
  if e.fails then some (.done (.error .refused), m)
  else match telegramAuthorizationClaim params m.now with
    | .error err => some (.done (.error (.telegram err)), m)
    | .ok (assertion, expiresAt) => some (next assertion expiresAt, m)

def telegramLoginStmt (params : UrlValues) : FlowPhase → Option (FlowPhase × FlowMem ι)
  | .idle => verifyStmt w m params
  -- the user is looked up
  | .verified => claimTelegramStmt e m params .claiming
  | .claiming assertion expiresAt =>
    claimExternalAuthAssertionWithTx w i e m none authFlowPurposeTelegramAssertion assertion expiresAt
  | .acted work => commitStmt i e m work
  | _ => none

def telegramBindStmt (token : String) (params : UrlValues) : FlowPhase → Option (FlowPhase × FlowMem ι)
  | .idle => verifyStmt w m params
  | .verified =>
    match getAuthFlow w e m token ⟨authFlowPurposeTelegramBind, "", "", 0, ""⟩ with
    | .error err => some (.done (.error err), m)
    | .ok flow => some (.pending flow, m)
  -- the session of the flow is checked
  | .pending flow =>
    claimTelegramStmt e m params fun assertion expiresAt =>
      .consuming ⟨authFlowPurposeTelegramBind, "", "", flow.userId, flow.sessionId⟩ (some (assertion, expiresAt))
  | .consuming matching claim => consumeRead w i e m token matching claim
  | .read matching flow claim => consumeUpdate i e m matching flow claim
  | .consumed matching flow claim => consumeAct w i e m matching flow claim
  | .acted work => commitStmt i e m work
  | _ => none

def consumeAuthFlowWithActionStmt (token : String) (matching : AuthFlowMatch) :
    FlowPhase → Option (FlowPhase × FlowMem ι)
  | .idle => consumeRead w i e m token matching none
  | .read matching flow claim => consumeUpdate i e m matching flow claim
  | .consumed matching flow claim => consumeAct w i e m matching flow claim
  | .acted work => commitStmt i e m work
  | _ => none

def deleteExpiredAuthFlowsStmt : FlowPhase → Option (FlowPhase × FlowMem ι)
  | .idle => some (.cleaning m.now, m)
  | .cleaning now =>
    if e.fails then some (.done (.error .refused), m)
    else if m.flows.any fun row => row.outdated now && (m.rowLocks row.id).isSome then none
    else some (.done (.ok .cleaned), { m with flows := m.flows.filter fun row => !row.outdated now })
  | _ => none

def FlowOp.stmt (op : FlowOp) (p : FlowPhase) : Option (FlowPhase × FlowMem ι) :=
  match op with
  | .create input token =>
    match p with
    | .idle => createAuthFlowStmt w e m input token
    | _ => none
  | .consume token matching => consumeAuthFlowWithActionStmt w i e m token matching p
  | .bind token params => telegramBindStmt w i e m token params p
  | .login params => telegramLoginStmt w i e m params p
  | .cleanup => deleteExpiredAuthFlowsStmt e m p

def flowProgram (w : FlowWorld) (ops : ι → FlowOp) : Program ι FlowPhase (FlowMem ι) FlowEnv ℤ where
  stmt := fun i e p m => (ops i).stmt w i e m p
  env := fun now m => { m with now := now }

end Program

end NewApi
