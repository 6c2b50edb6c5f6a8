import NewApi.Spec.Basic
import NewApi.Trace.Shared
import Mathlib.Algebra.Order.Ring.Int

/-!
# Login sessions

`model/user_session.go`, for one session id: its row, and the hash of Redis that caches it. An active snapshot is
cached until a deadline that was taken before its row was read; a deny state is cached for a time that starts when it
is written, and no active snapshot replaces it while it is there.

`sessionProgram` runs any number of calls. Reading the clock, a statement or transaction of the database and a Lua
script are atomic. The clock counts milliseconds, the columns seconds.
-/

namespace NewApi

open Trace

inductive SessionStatus
  /-- `""`, only in a session that is to be created -/
  | unset | active | revoking | revoked
  deriving DecidableEq

/-- A row of `user_sessions`, without what is only shown to the user: login method, address, agent, time of
creation. -/
structure UserSession where
  (userID version userAuthVersion : ℤ)
  status : SessionStatus
  (refreshHash previousRefreshHash : String)
  (previousValidUntil lastActiveAt expiresAt revokedAt : ℤ)
  revokedReason : String
  deriving DecidableEq

def UserSession.afterFind (session : UserSession) : UserSession :=
  { session with previousRefreshHash := trimSpace session.previousRefreshHash }

structure SessionEntry where
  (userID version userAuthVersion : ℤ)
  status : SessionStatus
  (lastActiveAt expiresAt revokedAt : ℤ)
  revokedReason : String
  cacheSchema : ℤ
  deriving DecidableEq

def userSessionCacheSchema : ℤ := 1

def UserSession.cacheEntry (session : UserSession) : SessionEntry :=
  { session with cacheSchema := userSessionCacheSchema }

def SessionEntry.session (entry : SessionEntry) : UserSession :=
  { entry with refreshHash := "", previousRefreshHash := "", previousValidUntil := 0 }

def UserSession.Inactive (now : ℤ) (session : UserSession) : Prop :=
  session.status ≠ .active ∨ session.revokedAt ≠ 0 ∨ session.expiresAt ≤ now

instance (now : ℤ) : DecidablePred (UserSession.Inactive now) :=
  fun session => inferInstanceAs (Decidable (session.status ≠ .active ∨ _))

def UserSession.revoke (now : ℤ) (reason : String) (session : UserSession) : UserSession :=
  { session with status := .revoked, revokedAt := now, revokedReason := reason }

def UserSession.rotate (presentedHash nextHash : String) (now graceSeconds : ℤ) (session : UserSession) : UserSession :=
  { session with
    previousRefreshHash := presentedHash
    previousValidUntil := now + graceSeconds
    refreshHash := nextHash
    lastActiveAt := now }

def UserSession.advance (nextUserAuthVersion now : ℤ) (session : UserSession) : UserSession :=
  { session with
    version := session.version + 1
    userAuthVersion := nextUserAuthVersion
    lastActiveAt := now }

def UserSession.denyEntry (status : SessionStatus) (now : ℤ) (reason : String) (session : UserSession) : SessionEntry :=
  { session.cacheEntry with status, revokedAt := now, revokedReason := reason }

structure CachedSession where
  entry : SessionEntry
  expireAt : ℤ
  deriving DecidableEq

structure SessionMem where
  row : Option UserSession
  cached : Option CachedSession
  clock : ℤ
  deriving DecidableEq

def SessionMem.unix (m : SessionMem) : ℤ := m.clock / 1000

/-- What Redis answers: a key is gone as soon as its time has passed. -/
def SessionMem.live (m : SessionMem) : Option SessionEntry :=
  match m.cached with
  | none => none
  | some c => if m.clock ≤ c.expireAt then some c.entry else none

def userCacheTTLSeconds (redisKeyCacheSeconds : ℤ) : ℤ := if redisKeyCacheSeconds ≤ 0 then 60 else redisKeyCacheSeconds

/-- `userSessionCacheDeadline` is this long after the clock. -/
def userSessionCacheTTL (redisKeyCacheSeconds : ℤ) : ℤ := userCacheTTLSeconds redisKeyCacheSeconds * 1000

inductive SessionErr
  | store
  | recordNotFound
  /-- the row of the session id is there already -/
  | duplicateKey | invalid | inactive | refreshInvalid | refreshReuse
  | observationStale
  deriving DecidableEq

/-- The lifetime that `writeUserSessionCache` computes: of an active snapshot, or the milliseconds of a deny state. -/
def redisExpiration (ttl now : ℤ) (entry : SessionEntry) (cacheDeadline : Option ℤ) : Except SessionErr ℤ :=
  let sessionExpiresAt := entry.expiresAt * 1000
  let sessionTTL := sessionExpiresAt - now
  if entry.status = .active then
    match cacheDeadline with
    | none => .error .invalid
    | some cacheDeadline =>
      if cacheDeadline - now ≤ 0 then .error .observationStale
      else if sessionTTL ≤ 0 then .error .inactive
      else
        let cacheExpiresAt := if sessionExpiresAt < cacheDeadline then sessionExpiresAt else cacheDeadline
        if cacheExpiresAt - now < 1 then .error .observationStale else .ok cacheExpiresAt
  else
    let ttl := min sessionTTL ttl
    let ttl := if ttl ≤ 0 then 1000 else ttl
    .ok (if ttl ≤ 0 then 1 else ttl)

def SessionMem.writeEntry (entry : SessionEntry) (redisExpiration : ℤ) (m : SessionMem) : Option SessionMem :=
  let currentStatus := m.live.map (·.status)
  let currentVersion := (m.live.map (·.version)).getD 0
  if entry.status = .active ∧ (currentStatus = some .revoking ∨ currentStatus = some .revoked) then none
  else if entry.version < currentVersion then none
  else
    -- `PEXPIREAT` or `PEXPIRE`; a key that is to expire at once is deleted
    let expireAt := if entry.status = .active then redisExpiration else m.clock + redisExpiration
    some { m with
      cached := if expireAt ≤ m.clock then none
        else some ⟨{ entry with cacheSchema := userSessionCacheSchema }, expireAt⟩ }

/-- What `writeUserSessionCache` checks once an active snapshot is written. -/
def SessionEntry.completed (completedAt : ℤ) (cacheDeadline : Option ℤ) (entry : SessionEntry) : Option SessionErr :=
  if (cacheDeadline.getD 0) ≤ completedAt then some .observationStale
  else if entry.expiresAt * 1000 ≤ completedAt then some .inactive
  else none

structure RotateArgs where
  userID : ℤ
  (presentedHash nextHash : String)
  now : ℤ
  /-- in nanoseconds -/
  grace : ℤ
  deriving DecidableEq

def RotateArgs.graceSeconds (a : RotateArgs) : ℤ := a.grace.tdiv 1000000000

structure AdvanceArgs where
  (userID expectedSessionVersion expectedUserAuthVersion nextUserAuthVersion : ℤ)
  deriving DecidableEq

inductive SessionOp
  | create (session : UserSession)
  /-- `GetUserSessionCached` -/
  | get
  | rotate (args : RotateArgs)
  | advance (args : AdvanceArgs)
  | revoke (userID : ℤ) (reason : String)
  /-- `RevokeUserSessionByRefreshHash` -/
  | revokeByHash (presentedHash : String) (reason : String)
  /-- `revokeUserSessions`, for a user and with or without this session -/
  | revokeAll (userID : ℤ) (excluded : Bool) (reason : String)
  deriving DecidableEq

inductive SessionReply
  | created
  | session (session : UserSession)
  /-- the session with `ErrUserSessionRefreshRace` -/
  | raced (session : UserSession)
  | revoked (revoked : Bool)
  /-- `revokeUserSessions` has returned; the number of sessions is not followed -/
  | swept (err : Option SessionErr)
  | failed (err : SessionErr)
  deriving DecidableEq

inductive SessionWriter
  | create (session : UserSession)
  | get (session : UserSession)
  /-- `GetUserSessionCached` that found the row inactive -/
  | deny
  | rotated (session : UserSession)
  | advanced (session : UserSession)
  | reuseFence (now : ℤ) (session : UserSession)
  | reuseFinal
  | revokeFence (now : ℤ) (candidate : UserSession)
  | revokeFinal
  | hashFence (now : ℤ) (session : UserSession)
  | hashFinal
  | batchFence (now : ℤ)
  | batchFinal (now : ℤ)
  deriving DecidableEq

inductive SessionPhase
  | idle
  /-- `writeUserSessionCache` is called -/
  | publish (entry : SessionEntry) (deadline : Option ℤ) (k : SessionWriter)
  | script (entry : SessionEntry) (deadline : Option ℤ) (redisExpiration : ℤ) (k : SessionWriter)
  | written (entry : SessionEntry) (deadline : Option ℤ) (k : SessionWriter)
  /-- `confirmUserSessionActiveSnapshot` is called, and has read the clock -/
  | confirm (session : UserSession) (k : SessionWriter)
  | count (session : UserSession) (now : ℤ) (k : SessionWriter)
  -- `CreateUserSession`
  | checked (session : UserSession)
  | insert (session : UserSession) (deadline : ℤ)
  -- `GetUserSessionCached`
  | hit (entry : SessionEntry)
  | missed
  | read (deadline : ℤ)
  | found (session : UserSession) (deadline : ℤ)
  -- `RotateUserSessionRefresh`
  | round (n : ℕ) (now : ℤ)
  | rotateRead (n : ℕ) (now deadline : ℤ)
  | rotateUpdate (n : ℕ) (now deadline : ℤ) (session : UserSession)
  | reuseUpdate (now : ℤ) (session : UserSession)
  -- `AdvanceUserSessionAuthVersion`
  | advance (deadline : ℤ)
  | advanceCommit (deadline now : ℤ)
  -- the revocations
  | revokeRead (now : ℤ)
  | revokeCommit (now : ℤ) (candidate : UserSession)
  | hashRead (now : ℤ)
  | hashCommit (now : ℤ) (session : UserSession)
  | batch (now : ℤ)
  | batchCommit (now : ℤ)
  | done (reply : SessionReply)
  deriving DecidableEq

structure SessionEnv where
  /-- the statement fails, or, in `revokeUserSessions`, what it does for another session -/
  fails : Bool
  /-- the batch that `revokeUserSessions` reads holds other sessions only -/
  others : Bool
  deriving DecidableEq

def SessionWriter.resume (err : Option SessionErr) : SessionWriter → SessionPhase
  | .create session =>
    match err with
    | some .observationStale => .confirm session (.create session)
    | some .inactive => .done (.failed .inactive)
    -- any other error is logged
    | _ => .done .created
  | .get session =>
    match err with
    | some .observationStale => .confirm session (.get session)
    | some .inactive => .done (.failed .inactive)
    | _ => .done (.session session)
  | .deny => .done (.failed .inactive)
  | .rotated session =>
    match err with
    | some .observationStale => .confirm session (.rotated session)
    | some .inactive => .done (.failed .inactive)
    | _ => .done (.session session)
  | .advanced session =>
    match err with
    | none => .done (.session session)
    | some .observationStale => .confirm session (.advanced session)
    | some err => .done (.failed err)
  | .reuseFence now session =>
    match err with
    | none => .reuseUpdate now session
    | some err => .done (.failed err)
  | .reuseFinal => .done (.failed .refreshReuse)
  | .revokeFence now candidate =>
    match err with
    | none => .revokeCommit now candidate
    | some err => .done (.failed err)
  | .revokeFinal => .done (.revoked true)
  | .hashFence now session =>
    match err with
    | none => .hashCommit now session
    | some err => .done (.failed err)
  | .hashFinal => .done (.revoked true)
  | .batchFence now =>
    match err with
    | none => .batchCommit now
    | some err => .done (.swept (some err))
  | .batchFinal now => .batch now

def SessionWriter.confirmed : SessionWriter → SessionReply
  | .create _ => .created
  | .get session | .rotated session | .advanced session => .session session
  | _ => .failed .invalid

def UserSession.withDefaults (session : UserSession) : UserSession :=
  { session with
    version := if session.version ≤ 0 then 1 else session.version
    status := if session.status = .unset then .active else session.status }

def UserSession.toCreate (now : ℤ) (session : UserSession) : Except SessionErr UserSession :=
  if session.userID ≤ 0 ∨ session.userAuthVersion ≤ 0 ∨ session.refreshHash = "" ∨ session.expiresAt ≤ now then
    .error .invalid
  else
    let session := session.withDefaults
    if session.status ≠ .active ∨ session.revokedAt ≠ 0 then .error .invalid
    else .ok { session with lastActiveAt := if session.lastActiveAt = 0 then now else session.lastActiveAt }

def SessionEntry.check (now : ℤ) (entry : SessionEntry) : SessionPhase :=
  if entry.cacheSchema ≠ userSessionCacheSchema ∨ entry.userID ≤ 0 ∨ entry.version ≤ 0 ∨
      entry.userAuthVersion ≤ 0 then
    .missed
  else if entry.status ≠ .active ∨ entry.revokedAt ≠ 0 ∨ entry.expiresAt ≤ now then .done (.failed .inactive)
  else .done (.session entry.session)

def SessionOp.start (ttl : ℤ) (e : SessionEnv) (m : SessionMem) : SessionOp → SessionPhase
  | .create session =>
    match session.toCreate m.unix with
    | .error err => .done (.failed err)
    | .ok session => .checked session
  | .get =>
    if e.fails then .missed
    else match m.live with
      | none => .missed
      | some entry => .hit entry
  | .rotate a =>
    if a.userID ≤ 0 ∨ a.presentedHash = "" ∨ a.nextHash = "" ∨ a.presentedHash = a.nextHash then
      .done (.failed .invalid)
    else if a.graceSeconds < 0 then .done (.failed .invalid)
    else .round 1 (if a.now ≤ 0 then m.unix else a.now)
  | .advance a =>
    if a.userID ≤ 0 ∨ a.expectedSessionVersion ≤ 0 ∨ a.expectedUserAuthVersion ≤ 0 ∨
        a.nextUserAuthVersion ≤ a.expectedUserAuthVersion then .done (.failed .invalid)
    else .advance (m.clock + ttl)
  | .revoke userID _ => if userID ≤ 0 then .done (.failed .invalid) else .revokeRead m.unix
  | .revokeByHash presentedHash _ => if presentedHash = "" then .done (.failed .invalid) else .hashRead m.unix
  | .revokeAll userID _ _ => if userID ≤ 0 then .done (.swept (some .invalid)) else .batch m.unix

def SessionMem.find (userID : ℤ) (m : SessionMem) : Option UserSession :=
  (m.row.filter fun r => decide (r.userID = userID)).map UserSession.afterFind

def RotateArgs.answer (a : RotateArgs) (n : ℕ) (now deadline : ℤ) (session : UserSession) : SessionPhase :=
  if session.Inactive now then .done (.failed .inactive)
  else if session.refreshHash = a.presentedHash then .rotateUpdate n now deadline session
  else if session.previousRefreshHash = "" ∨ session.previousRefreshHash ≠ a.presentedHash then
    .done (.failed .refreshInvalid)
  else if now ≤ session.previousValidUntil then .done (.raced session)
  else .publish (session.denyEntry .revoking now "refresh_reuse") none (.reuseFence now session)

def UserSession.Accepts (presentedHash : String) (now : ℤ) (session : UserSession) : Prop :=
  session.refreshHash = presentedHash ∨ session.previousRefreshHash ≠ "" ∧ now ≤ session.previousValidUntil ∧
      session.previousRefreshHash = presentedHash

instance (presentedHash : String) (now : ℤ) : DecidablePred (UserSession.Accepts presentedHash now) :=
  fun session => inferInstanceAs (Decidable (session.refreshHash = presentedHash ∨ _))

def SessionMem.update (C : UserSession → Prop) [DecidablePred C] (f : UserSession → UserSession)
    (hit : UserSession → SessionPhase) (miss : SessionPhase) (m : SessionMem) : SessionPhase × SessionMem :=
  match m.row with
  | none => (miss, m)
  | some r => if C r then (hit r, { m with row := some (f r) }) else (miss, m)

def SessionOp.stmt (ttl : ℤ) (op : SessionOp) (e : SessionEnv) (p : SessionPhase) (m : SessionMem) :
    Option (SessionPhase × SessionMem) :=
  match p, op with
  | .idle, op => some (op.start ttl e m, m)
  | .publish entry deadline k, _ =>
    match redisExpiration ttl m.clock entry deadline with
    | .error err => some (k.resume (some err), m)
    | .ok expiration => some (.script entry deadline expiration k, m)
  | .script entry deadline expiration k, _ =>
    if e.fails then some (k.resume (some .store), m)
    else match m.writeEntry entry expiration with
      | none => some (k.resume (some .inactive), m)
      | some m' => some (if entry.status = .active then .written entry deadline k else k.resume none, m')
  | .written entry deadline k, _ => some (k.resume (entry.completed m.clock deadline), m)
  | .confirm session k, _ =>
    if session.userID ≤ 0 ∨ session.version ≤ 0 ∨ session.userAuthVersion ≤ 0 then some (.done (.failed .invalid), m)
    else some (.count session m.unix k, m)
  | .count session now k, _ =>
    if e.fails then some (.done (.failed .store), m)
    else match m.row with
      | none => some (.done (.failed .inactive), m)
      | some r =>
        if r.userID = session.userID ∧ ¬ r.Inactive now ∧ r.version = session.version ∧
            r.userAuthVersion = session.userAuthVersion then some (.done k.confirmed, m)
        else some (.done (.failed .inactive), m)
  -- `CreateUserSession`
  | .checked session, _ => some (.insert session (m.clock + ttl), m)
  | .insert session deadline, _ =>
    if e.fails then some (.done (.failed .store), m)
    else match m.row with
      | some _ => some (.done (.failed .duplicateKey), m)
      | none => some (.publish session.cacheEntry (some deadline) (.create session), { m with row := some session })
  -- `GetUserSessionCached`
  | .hit entry, _ => some (entry.check m.unix, m)
  | .missed, _ => some (.read (m.clock + ttl), m)
  | .read deadline, _ =>
    if e.fails then some (.done (.failed .store), m)
    else match m.row with
      | none => some (.done (.failed .recordNotFound), m)
      | some r => some (.found r.afterFind deadline, m)
  | .found session deadline, _ =>
    if session.Inactive m.unix then some (.publish { session.cacheEntry with status := .revoked } none .deny, m)
    else some (.publish session.cacheEntry (some deadline) (.get session), m)
  -- `RotateUserSessionRefresh`
  | .round n now, _ => some (.rotateRead n now (m.clock + ttl), m)
  | .rotateRead n now deadline, .rotate a =>
    if e.fails then some (.done (.failed .store), m)
    else match m.find a.userID with
      | none => some (.done (.failed .recordNotFound), m)
      | some session => some (a.answer n now deadline session, m)
  | .rotateUpdate n now deadline session, .rotate a =>
    if e.fails then some (.done (.failed .store), m)
    else
      let rotate := UserSession.rotate session.refreshHash a.nextHash now a.graceSeconds
      some (m.update (fun r => r.userID = a.userID ∧ ¬ r.Inactive now ∧ r.refreshHash = a.presentedHash) rotate
        (fun _ => .publish (rotate session).cacheEntry (some deadline) (.rotated (rotate session)))
        (if n < 3 then .round (n + 1) now else .done (.failed .refreshInvalid)))
  | .reuseUpdate now session, .rotate a =>
    if e.fails then some (.done (.failed .store), m)
    else some (m.update (fun r => r.userID = a.userID ∧ ¬ r.Inactive now) (UserSession.revoke now "refresh_reuse")
      (fun _ => .publish (session.revoke now "refresh_reuse").cacheEntry none .reuseFinal)
      (.done (.failed .inactive)))
  -- `AdvanceUserSessionAuthVersion`
  | .advance deadline, _ => some (.advanceCommit deadline m.unix, m)
  | .advanceCommit deadline now, .advance a =>
    if e.fails then some (.done (.failed .store), m)
    else match m.find a.userID with
      | none => some (.done (.failed .recordNotFound), m)
      | some session =>
        let advanced := session.advance a.nextUserAuthVersion now
        some (m.update
          (fun r => r.status = .active ∧ now < r.expiresAt ∧ r.version = a.expectedSessionVersion ∧
            r.userAuthVersion = a.expectedUserAuthVersion)
          (UserSession.advance a.nextUserAuthVersion now)
          (fun _ => .publish advanced.cacheEntry (some deadline) (.advanced advanced))
          (.done (.failed .inactive)))
  -- `RevokeUserSession`
  | .revokeRead now, .revoke userID reason =>
    if e.fails then some (.done (.failed .store), m)
    else match m.find userID with
      | none => some (.done (.revoked false), m)
      | some candidate =>
        if candidate.Inactive now then some (.done (.revoked false), m)
        else some (.publish (candidate.denyEntry .revoking now reason) none (.revokeFence now candidate), m)
  | .revokeCommit now candidate, .revoke userID reason =>
    if e.fails then some (.done (.failed .store), m)
    else match m.find userID with
      | none => some (.done (.failed .recordNotFound), m)
      | some _ =>
        -- the tombstone has the version of the candidate
        some (m.update (fun r => ¬ r.Inactive now) (UserSession.revoke now reason)
          (fun _ => .publish (candidate.revoke now reason).cacheEntry none .revokeFinal) (.done (.revoked false)))
  -- `RevokeUserSessionByRefreshHash`; without the row lock, as in SQLite
  | .hashRead now, .revokeByHash presentedHash reason =>
    if e.fails then some (.done (.failed .store), m)
    else match m.row with
      | none => some (.done (.revoked false), m)
      | some r =>
        let session := r.afterFind
        if session.Inactive now ∨ ¬ session.Accepts presentedHash now then some (.done (.revoked false), m)
        else some (.publish (session.denyEntry .revoking now reason) none (.hashFence now session), m)
  | .hashCommit now session, .revokeByHash _ reason =>
    if e.fails then some (.done (.failed .store), m)
    else some (m.update (fun r => r.status = .active) (UserSession.revoke now reason)
      (fun _ => .publish (session.revoke now reason).cacheEntry none .hashFinal) (.done (.revoked false)))
  -- `revokeUserSessions`, round after round
  | .batch now, .revokeAll userID excluded reason =>
    if e.fails then some (.done (.swept (some .store)), m)
    else if e.others then some (.batch now, m)
    else match m.find userID with
      | none => some (.done (.swept none), m)
      | some candidate =>
        if candidate.status = .active ∧ now < candidate.expiresAt ∧ excluded = false then
          some (.publish (candidate.denyEntry .revoking now reason) none (.batchFence now), m)
        else some (.done (.swept none), m)
  | .batchCommit now, .revokeAll _ _ reason =>
    if e.fails then some (.done (.swept (some .store)), m)
    else some (m.update (fun r => r.status = .active) (UserSession.revoke now reason)
      -- the tombstone has the version that was locked
      (fun r => .publish (r.afterFind.revoke now reason).cacheEntry none (.batchFinal now)) (.batch now))
  | _, _ => none

section Program

variable {ι : Type}

/-- The environment lets time pass. -/
def sessionProgram (redisKeyCacheSeconds : ℤ) (ops : ι → SessionOp) :
    Program ι SessionPhase SessionMem SessionEnv ℕ where
  stmt := fun i => (ops i).stmt (userSessionCacheTTL redisKeyCacheSeconds)
  env := fun δ m => { m with clock := m.clock + δ }

end Program

end NewApi
