import NewApi.Spec.Redemption
import NewApi.Trace.Shared

/-!
# One code, many redemptions

`Redeem` (`model/redemption.go`) for one key, by any number of calls at the same time. A transaction reads the code,
with a row lock where the database has them, flips its status by a compare-and-swap, makes the package of a code with
a filter, credits the pool and commits. From the update on it holds the row, so another update waits, and others see
what it has written from its commit on.

`Redeem` alone is in `Spec/Redemption.lean`. A filter mode is the text of the column: every text but the empty one and
"none" makes a package.
-/

namespace NewApi

open Trace

structure RedemptionRow where
  id : ℕ
  name : String
  status : RedemptionCodeStatus
  quota : ℤ
  /-- 1: requests, 2: tokens, anything else: quota -/
  type : ℤ
  (modelFilterMode models : String)
  redeemedTime : ℤ
  usedUserId : ℕ
  /-- 0 when the code does not expire -/
  expiredTime : ℤ
  deriving DecidableEq

structure PackageRow where
  (userId redemptionId : ℕ)
  name : String
  (type initialAmount remainingAmount : ℤ)
  (modelFilterMode models : String)
  (expiredAt createdAt updatedAt : ℤ)
  deriving DecidableEq

structure PoolRow where
  (quota requestsBalance tokensBalance : ℤ)
  deriving DecidableEq

structure RedeemDB where
  /-- by key, which is unique -/
  codes : String → Option RedemptionRow
  users : ℕ → Option PoolRow
  packages : List PackageRow

def RedemptionRow.expiredAt (code : RedemptionRow) (now : ℤ) : Bool :=
  decide (code.expiredTime ≠ 0) && decide (code.expiredTime < now)

def RedemptionRow.filtered (code : RedemptionRow) : Bool := code.modelFilterMode != "" && code.modelFilterMode != "none"

def RedemptionRow.package (code : RedemptionRow) (now : ℤ) (userId : ℕ) : PackageRow where
  userId := userId
  redemptionId := code.id
  name := code.name
  type := code.type
  initialAmount := code.quota
  remainingAmount := code.quota
  modelFilterMode := code.modelFilterMode
  models := code.models
  expiredAt := code.expiredTime
  createdAt := now
  updatedAt := now

def PoolRow.credit (type quota : ℤ) (user : PoolRow) : PoolRow :=
  if type = 1 then { user with requestsBalance := user.requestsBalance + quota }
  else if type = 2 then { user with tokensBalance := user.tokensBalance + quota }
  else { user with quota := user.quota + quota }

/-- What the transaction of a user has written when it commits: `time` is the time of the update of the code,
`now` the time of the package. -/
def RedeemDB.redeemed (key : String) (code : RedemptionRow) (userId : ℕ) (time now : ℤ) (db : RedeemDB) :
    RedeemDB where
  codes := Function.update db.codes key
    (some { code with status := .used, redeemedTime := time, usedUserId := userId })
  users := Function.update db.users userId ((db.users userId).map (PoolRow.credit code.type code.quota))
  packages := if code.filtered then db.packages ++ [code.package now userId] else db.packages

structure RedeemMem (ι : Type) where
  db : RedeemDB
  lock : Option ι

inductive RedeemPhase
  | idle
  | read (code : RedemptionRow)
  | claimed (code : RedemptionRow) (time : ℤ)
  | packaged (code : RedemptionRow) (time now : ℤ)
  | done (result : Except CreditErr ℤ)
  deriving DecidableEq

structure RedeemEnv where
  now : ℤ
  dbErr : Bool
  deriving DecidableEq

/-- The calls `Redeem(key, userIds i)`; without `rowLocks`, `FOR UPDATE` locks nothing. -/
structure RedeemCalls (ι : Type) where
  key : String
  userIds : ι → ℕ
  rowLocks : Bool

section Program

variable {ι : Type} [DecidableEq ι]

def RedeemMem.release (i : ι) (m : RedeemMem ι) : RedeemMem ι :=
  { m with lock := if m.lock = some i then none else m.lock }

/-- Every error of the transaction becomes `ErrRedeemFailed`. -/
def RedeemMem.rollback (i : ι) (m : RedeemMem ι) : RedeemPhase × RedeemMem ι :=
  (.done (.error .redeemFailed), m.release i)

def RedeemMem.heldByOther (i : ι) (m : RedeemMem ι) : Bool := m.lock.isSome && m.lock != some i

def redeemStmt (c : RedeemCalls ι) (i : ι) (e : RedeemEnv) (p : RedeemPhase) (m : RedeemMem ι) :
    Option (RedeemPhase × RedeemMem ι) :=
  match p with
  | .idle =>
    if c.key = "" then some (.done (.error .keyEmpty), m)
    else if c.userIds i = 0 then some (.done (.error .invalidUserId), m)
    else if e.dbErr then some (m.rollback i)
    else if c.rowLocks && m.heldByOther i then none
    else match m.db.codes c.key with
      | none => some (m.rollback i)
      | some code =>
        if code.status ≠ .enabled then some (m.rollback i)
        else if code.expiredAt e.now then some (m.rollback i)
        else some (.read code, if c.rowLocks then { m with lock := some i } else m)
  | .read code =>
    if e.dbErr then some (m.rollback i)
    else if m.heldByOther i then none
    -- the update sees the row as it is now, not as it was read
    else if (m.db.codes c.key).map (·.status) = some .enabled then some (.claimed code e.now, { m with lock := some i })
    else some (m.rollback i)
  | .claimed code time => if e.dbErr then some (m.rollback i) else some (.packaged code time e.now, m)
  | .packaged code time now =>
    if e.dbErr then some (m.rollback i)
    else some (.done (.ok code.quota),
      { m with db := m.db.redeemed c.key code (c.userIds i) time now }.release i)
  | .done _ => none

def redeemProgram (c : RedeemCalls ι) : Program ι RedeemPhase (RedeemMem ι) RedeemEnv Empty where
  stmt := redeemStmt c
  env := fun v => nomatch v

end Program

end NewApi
