import NewApi.Trace.Shared
import Mathlib.Algebra.Order.Ring.Int

/-!
# Rewards for processed tokens

`ClaimUserReward`, `ApproveByogAdminClaim` and `RejectByogAdminClaim` (`controller/byog.go`) with
`GetUserAvailableTokens` (`model/byog.go`). That a claim exists lowers what the user has left of the tokens that their
nodes have processed. A rejected claim is not counted any more, and its tokens are credited to the wallet as well.

A claim is made without a transaction. `claimProgram` runs any number of them, statement by statement; the source
throws away the errors after the first statement, so one that fails reads zero or writes nothing.
-/

namespace NewApi

open Trace

structure RewardItem where
  title : String
  (requiredTokens stock : ℤ)
  isActive : Bool
  deriving DecidableEq

inductive ClaimStatus
  | pending | approved | rejected | shipped
  deriving DecidableEq

structure RewardClaim where
  (userId rewardItemId : ℕ)
  rewardTitle : String
  tokensBurned : ℤ
  status : ClaimStatus
  (createdAt updatedAt : ℤ)
  deriving DecidableEq

structure ByogNode where
  userId : ℕ
  totalTokensProcessed : ℤ
  deriving DecidableEq

structure RewardDB where
  items : ℕ → Option RewardItem
  /-- the claim with the id `n + 1` is the `n`-th -/
  claims : List RewardClaim
  nodes : List ByogNode
  /-- the column `quota` of the users -/
  quota : ℕ → Option ℤ

def RewardDB.processed (userId : ℕ) (db : RewardDB) : ℤ :=
  db.nodes.foldl (fun total n => if n.userId = userId then total + n.totalTokensProcessed else total) 0

def RewardDB.burned (userId : ℕ) (db : RewardDB) : ℤ :=
  db.claims.foldl
    (fun burned c => if c.userId = userId ∧ c.status ≠ .rejected then burned + c.tokensBurned else burned) 0

def RewardDB.getUserAvailableTokens (userId : ℕ) (db : RewardDB) : ℤ :=
  if userId = 0 then 0
  else
    let avail := db.processed userId - db.burned userId
    if avail < 0 then 0 else avail

def RewardDB.increaseUserQuota (userId : ℕ) (quota : ℤ) (db : RewardDB) : RewardDB :=
  -- "quota 不能为负数！"
  if quota < 0 then db
  else { db with quota := Function.update db.quota userId ((db.quota userId).map (· + quota)) }

inductive ClaimErr
  /-- "Reward unavailable or out of stock" -/
  | unavailable
  /-- "Yetersiz token bakiyesi. Gerekli: … token, Kullanılabilir: … token" -/
  | insufficientTokens (required available : ℤ)
  /-- "Claim not found" -/
  | claimNotFound
  deriving DecidableEq

def RewardDB.readReward (rewardId : ℕ) (db : RewardDB) : Except ClaimErr RewardItem :=
  match db.items rewardId with
  | none => .error .unavailable
  | some reward => if reward.isActive = false ∨ reward.stock ≤ 0 then .error .unavailable else .ok reward

def RewardDB.saveReward (rewardId : ℕ) (reward : RewardItem) (db : RewardDB) : RewardDB :=
  { db with items := Function.update db.items rewardId (some { reward with stock := reward.stock - 1 }) }

def RewardItem.claim (reward : RewardItem) (now : ℤ) (userId rewardId : ℕ) : RewardClaim :=
  ⟨userId, rewardId, reward.title, reward.requiredTokens, .pending, now, now⟩

def RewardDB.createClaim (claim : RewardClaim) (db : RewardDB) : RewardDB :=
  { db with claims := db.claims ++ [claim] }

/-- `ClaimUserReward` with no other call beside it, whose statements succeed. -/
def RewardDB.claimUserReward (now : ℤ) (userId rewardId : ℕ) (db : RewardDB) : Except ClaimErr RewardDB :=
  match db.readReward rewardId with
  | .error e => .error e
  | .ok reward =>
    let availableTokens := db.processed userId - db.burned userId
    if availableTokens < reward.requiredTokens then .error (.insufficientTokens reward.requiredTokens availableTokens)
    else .ok ((db.saveReward rewardId reward).createClaim (reward.claim now userId rewardId))

def RewardDB.setStatus (id : ℕ) (status : ClaimStatus) (now : ℤ) (claim : RewardClaim) (db : RewardDB) : RewardDB :=
  { db with claims := db.claims.set (id - 1) { claim with status, updatedAt := now } }

def RewardDB.claimById (id : ℕ) (db : RewardDB) : Option RewardClaim := if id = 0 then none else db.claims[id - 1]?

def RewardDB.approveByogAdminClaim (now : ℤ) (id : ℕ) (db : RewardDB) : Except ClaimErr RewardDB :=
  match db.claimById id with
  | none => .error .claimNotFound
  | some claim => .ok (db.setStatus id .approved now claim)

def RewardDB.rejectByogAdminClaim (now : ℤ) (id : ℕ) (db : RewardDB) : Except ClaimErr RewardDB :=
  match db.claimById id with
  | none => .error .claimNotFound
  | some claim => .ok ((db.setStatus id .rejected now claim).increaseUserQuota claim.userId claim.tokensBurned)

inductive RewardCall
  | claim (now : ℤ) (userId rewardId : ℕ)
  | approve (now : ℤ) (id : ℕ)
  | reject (now : ℤ) (id : ℕ)
  deriving DecidableEq

def RewardDB.call (db : RewardDB) : RewardCall → Except ClaimErr RewardDB
  | .claim now userId rewardId => db.claimUserReward now userId rewardId
  | .approve now id => db.approveByogAdminClaim now id
  | .reject now id => db.rejectByogAdminClaim now id

/-- The tables after a request; one that is refused has written nothing. -/
def RewardDB.next (db : RewardDB) (c : RewardCall) : RewardDB :=
  match db.call c with
  | .error _ => db
  | .ok db' => db'

inductive ClaimPhase
  | idle
  | read (reward : RewardItem)
  | summed (reward : RewardItem) (total : ℤ)
  | checked (reward : RewardItem)
  | saved (reward : RewardItem)
  | ticketed (reward : RewardItem)
  | messaged (reward : RewardItem)
  | done (result : Except ClaimErr Unit)
  deriving DecidableEq

structure ClaimEnv where
  now : ℤ
  dbErr : Bool
  deriving DecidableEq

structure ClaimCalls (ι : Type) where
  (userIds rewardIds : ι → ℕ)

section Program

variable {ι : Type}

def claimStmt (c : ClaimCalls ι) (i : ι) (e : ClaimEnv) (p : ClaimPhase) (db : RewardDB) :
    Option (ClaimPhase × RewardDB) :=
  match p with
  | .idle =>
    if e.dbErr then some (.done (.error .unavailable), db)
    else match db.readReward (c.rewardIds i) with
      | .error err => some (.done (.error err), db)
      | .ok reward => some (.read reward, db)
  | .read reward => some (.summed reward (if e.dbErr then 0 else db.processed (c.userIds i)), db)
  | .summed reward total =>
    let availableTokens := total - if e.dbErr then 0 else db.burned (c.userIds i)
    if availableTokens < reward.requiredTokens then
      some (.done (.error (.insufficientTokens reward.requiredTokens availableTokens)), db)
    else some (.checked reward, db)
  | .checked reward => some (.saved reward, if e.dbErr then db else db.saveReward (c.rewardIds i) reward)
  | .saved reward => some (.ticketed reward, db)
  | .ticketed reward => some (.messaged reward, db)
  | .messaged reward =>
    some (.done (.ok ()), if e.dbErr then db
      else db.createClaim (reward.claim e.now (c.userIds i) (c.rewardIds i)))
  | .done _ => none

def claimProgram (c : ClaimCalls ι) : Program ι ClaimPhase RewardDB ClaimEnv Empty where
  stmt := claimStmt c
  env := fun v => nomatch v

end Program

end NewApi
