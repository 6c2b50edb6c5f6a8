import NewApi.Trace.Shared
import Mathlib.Algebra.Order.Ring.Int

/-!
# The cached authorization of a user

`model/user_auth_cache.go` and the readers of `model/user_cache.go`, for one user. Redis has the hash of the user, a
pending fence that is set before `auth_version` is raised and expires, and the committed version, a floor that never
expires. A fill is refused when a fence, the floor or the hash is newer than its snapshot.

`authProgram` runs any number of calls. A Lua script and a database statement are atomic; a snapshot can be as old as
one likes when its fill arrives.
-/

namespace NewApi

open Trace

structure UserRow where
  (group email : String)
  (quota requestsBalance tokensBalance status role : ℤ)
  (username setting : String)
  authVersion : ℤ
  deriving DecidableEq

structure UserBase where
  id : ℕ
  (group email : String)
  (quota requestsBalance tokensBalance status role : ℤ)
  (username setting : String)
  authVersion : ℤ
  cacheSchema : ℕ
  deriving DecidableEq

def userCacheSchemaVersion : ℕ := 2

def UserRow.toBaseUser (userId : ℕ) (row : UserRow) : UserBase :=
  { row with
    id := userId, cacheSchema := userCacheSchemaVersion
    authVersion := if row.authVersion ≤ 0 then 1 else row.authVersion }

/-- The hash `user:<id>`; the balances of requests and tokens are not among its fields, and the quota is there only
after a fill with it. -/
structure CachedUser where
  id : ℕ
  (group email : String)
  (status role : ℤ)
  (username setting : String)
  authVersion : ℤ
  cacheSchema : ℕ
  quota : Option ℤ
  deriving DecidableEq

/-- `RedisHGetObj`: fields that are missing stay zero. -/
def CachedUser.toBaseUser (h : CachedUser) : UserBase where
  id := h.id
  group := h.group
  email := h.email
  quota := h.quota.getD 0
  requestsBalance := 0
  tokensBalance := 0
  status := h.status
  role := h.role
  username := h.username
  setting := h.setting
  authVersion := h.authVersion
  cacheSchema := h.cacheSchema

inductive HashField
  | group | email | username | setting
  deriving DecidableEq

def CachedUser.setField (field : HashField) (value : String) (h : CachedUser) : CachedUser :=
  match field with
  | .group => { h with group := value, cacheSchema := userCacheSchemaVersion }
  | .email => { h with email := value, cacheSchema := userCacheSchemaVersion }
  | .username => { h with username := value, cacheSchema := userCacheSchemaVersion }
  | .setting => { h with setting := value, cacheSchema := userCacheSchemaVersion }

/-- The three keys; a number is 0 when its key is missing. -/
structure AuthKeys where
  hash : Option CachedUser
  /-- `auth:user:fence:<id>` -/
  fence : ℤ
  /-- `auth:user:version:<id>` -/
  version : ℤ
  deriving DecidableEq

/-- What both scripts that write the hash do first: `none` when something is newer than the incoming version. -/
def AuthKeys.accept (incoming : ℤ) (r : AuthKeys) : Option AuthKeys :=
  let current := (r.hash.map (·.authVersion)).getD 0
  if incoming < r.fence ∨ incoming < r.version ∨ incoming < current then none
  else some { r with
    version := if r.version < incoming then incoming else r.version
    fence := if 0 < r.fence ∧ r.fence ≤ incoming then 0 else r.fence }

def AuthKeys.write (user : UserBase) (includeQuota : Bool) (r : AuthKeys) : Option AuthKeys :=
  (r.accept user.authVersion).map fun r =>
    if includeQuota = false ∧ r.hash = none then r
    else
      let quota := (r.hash.bind (·.quota)).or (if includeQuota then some user.quota else none)
      let hash : CachedUser :=
        ⟨user.id, user.group, user.email, user.status, user.role, user.username, user.setting, user.authVersion,
          userCacheSchemaVersion, quota⟩
      { r with hash := some hash }

def AuthKeys.updateField (field : HashField) (value : String) (incoming : ℤ) (r : AuthKeys) : Option AuthKeys :=
  (r.accept incoming).map fun r =>
    { r with hash := r.hash.map fun h => if h.authVersion = incoming then h.setField field value else h }

/-- `SetUserAuthVersionFence`; its lifetime is up to the environment. -/
def AuthKeys.setFence (incoming : ℤ) (r : AuthKeys) : AuthKeys :=
  { r with fence := if r.fence < incoming then incoming else r.fence }

def AuthKeys.publish (incoming : ℤ) (r : AuthKeys) : AuthKeys :=
  { r with
    version := if r.version < incoming then incoming else r.version
    fence := if 0 < r.fence ∧ r.fence ≤ incoming then 0 else r.fence }

def AuthKeys.floor (r : AuthKeys) : ℤ := max 0 (max r.fence r.version)

/-- The row of the user and the keys. A `deleted` row is seen only by the query that raises its version. -/
structure AuthMem where
  row : UserRow
  deleted : Bool
  redis : AuthKeys

inductive AuthErr
  | db
  | redis
  | recordNotFound
  | cacheMiss
  /-- "user cache schema is stale" -/
  | schemaStale
  /-- "invalid user auth version" -/
  | invalidVersion
  | pending
  | versionConflict
  deriving DecidableEq

inductive AuthOp
  /-- `populateUserCache` or `updateUserCache` of a snapshot -/
  | fill (includeQuota : Bool)
  /-- `updateUserCacheField` -/
  | refreshField (field : HashField) (value : String)
  | bump
  /-- `User.Delete`: the version is raised, the row deleted, the version published -/
  | delete | cacheGetUserBase | getUserCache
  deriving DecidableEq

inductive AuthPhase
  | idle
  | snapshot (row : UserRow)
  /-- the version was read, in the round `n` of three -/
  | versionRead (n : ℕ) (version : ℤ)
  | fenced (n : ℕ) (version : ℤ)
  | committed (next : ℤ)
  | hashRead (user : UserBase)
  | missed
  | rowRead (row : UserRow)
  | admitted (row : UserRow)
  | done (result : Except AuthErr (Option UserBase))
  deriving DecidableEq

structure AuthEnv where
  fails : Bool
  deriving DecidableEq

inductive AuthMove
  /-- the hash expires or is deleted -/
  | dropHash
  | dropFence
  | setQuota (quota : ℤ)
  | writeRow (row : UserRow)
  | fence (version : ℤ)
  deriving DecidableEq

/-- `cacheGetUserBase` after the hash was read: what the two readers do with an error differs. -/
def AuthMem.checkHash (userId : ℕ) (user : UserBase) (fails : Bool) (m : AuthMem) : Except AuthErr UserBase :=
  if user.id ≠ userId ∨ user.cacheSchema ≠ userCacheSchemaVersion ∨ user.authVersion ≤ 0 then .error .schemaStale
  else if fails then .error .redis
  else if user.authVersion < m.redis.floor then .error .pending
  else .ok user

/-- A reader of the cache fails: `cacheGetUserBase` returns the error, `GetUserCache` goes to the database. -/
def AuthOp.cacheFailed (op : AuthOp) (err : AuthErr) : AuthPhase :=
  if op = .getUserCache then .missed else .done (.error err)

def AuthMem.writeUserCache (user : UserBase) (includeQuota fails : Bool) (m : AuthMem) : Except AuthErr AuthMem :=
  if user.authVersion ≤ 0 then .error .invalidVersion
  else if fails then .error .redis
  else match m.redis.write user includeQuota with
    | none => .error .pending
    | some redis => .ok { m with redis }

def AuthMem.finish (m : AuthMem) : Except AuthErr AuthMem → AuthPhase × AuthMem
  | .error err => (.done (.error err), m)
  | .ok m' => (.done (.ok none), m')

section Program

variable {ι : Type}

def AuthMem.readRow (fails : Bool) (next : UserRow → AuthPhase) (m : AuthMem) : AuthPhase × AuthMem :=
  if fails then (.done (.error .db), m)
  else if m.deleted then (.done (.error .recordNotFound), m)
  else (next m.row, m)

def authStmt (userId : ℕ) (ops : ι → AuthOp) (i : ι) (e : AuthEnv) (p : AuthPhase) (m : AuthMem) :
    Option (AuthPhase × AuthMem) :=
  match p with
  | .idle =>
    match ops i with
    | .fill _ => some (m.readRow e.fails .snapshot)
    | .refreshField _ _ => some (m.readRow e.fails .snapshot)
    -- the row is read whether it is deleted or not
    | .bump | .delete => if e.fails then some (.done (.error .db), m) else some (.versionRead 1 m.row.authVersion, m)
    | .cacheGetUserBase | .getUserCache =>
      if e.fails then some ((ops i).cacheFailed .redis, m)
      else match m.redis.hash with
        | none => some ((ops i).cacheFailed .cacheMiss, m)
        | some h => some (.hashRead h.toBaseUser, m)
  | .snapshot row =>
    match ops i with
    | .refreshField field value =>
      if row.authVersion ≤ 0 then some (.done (.error .invalidVersion), m)
      else if e.fails then some (.done (.error .redis), m)
      else match m.redis.updateField field value row.authVersion with
        | none => some (.done (.error .pending), m)
        | some redis => some (.done (.ok none), { m with redis })
    | .fill includeQuota => some (m.finish (m.writeUserCache (row.toBaseUser userId) includeQuota e.fails))
    -- `PublishUserAuthCache` after a bump
    | _ => some (m.finish (m.writeUserCache (row.toBaseUser userId) false e.fails))
  | .versionRead n version =>
    if e.fails then some (.done (.error .redis), m)
    else some (.fenced n version, { m with redis := m.redis.setFence (max version 1 + 1) })
  | .fenced n version =>
    -- the transaction is rolled back
    if e.fails then some (.done (.error .db), m)
    else if m.row.authVersion = version then
      some (.committed (max version 1 + 1),
        { m with
          row := { m.row with authVersion := max version 1 + 1 }
          deleted := m.deleted || decide (ops i = .delete) })
    else if n < 3 then some (.versionRead (n + 1) m.row.authVersion, m)
    else some (.done (.error .versionConflict), m)
  | .committed next =>
    if ops i = .delete then
      if e.fails then some (.done (.error .redis), m)
      else some (.done (.ok none), { m with redis := m.redis.publish next })
    else some (m.readRow e.fails .snapshot)
  | .hashRead user =>
    match m.checkHash userId user e.fails with
    | .error err => some ((ops i).cacheFailed err, m)
    | .ok user => some (.done (.ok (some user)), m)
  | .missed => some (m.readRow e.fails .rowRead)
  | .rowRead row =>
    -- a floor that cannot be read is not checked
    if e.fails = false ∧ row.authVersion < m.redis.floor then some (.done (.error .pending), m)
    else some (.admitted row, m)
  | .admitted row =>
    match m.writeUserCache (row.toBaseUser userId) true e.fails with
    | .error .pending => some (.done (.error .pending), m)
    -- other errors are logged
    | .error _ => some (.done (.ok (some (row.toBaseUser userId))), m)
    | .ok m' => some (.done (.ok (some (row.toBaseUser userId))), m')
  | .done _ => none

def AuthMove.apply (m : AuthMem) : AuthMove → AuthMem
  | .dropHash => { m with redis := { m.redis with hash := none } }
  | .dropFence => { m with redis := { m.redis with fence := 0 } }
  | .setQuota quota =>
    { m with redis := { m.redis with hash := m.redis.hash.map fun h => { h with quota := some quota } } }
  | .writeRow row => { m with row := { row with authVersion := m.row.authVersion } }
  | .fence version => { m with redis := m.redis.setFence version }

def authProgram (userId : ℕ) (ops : ι → AuthOp) : Program ι AuthPhase AuthMem AuthEnv AuthMove where
  stmt := authStmt userId ops
  env := fun v m => v.apply m

end Program

end NewApi
