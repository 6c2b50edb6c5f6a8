import NewApi.Spec.Basic
import Mathlib.Algebra.Ring.Int.Defs

/-!
# Reservations of the wallet, access by access

`model/quota_reserve.go` with Redis. The balance of a user is kept three times: in the hash of the user, in the row,
and what the row still lacks in the store of `batchUpdate` (`model/utils.go`). `TryReserveUserQuota` takes the amount
from the hash and lets the row follow; without a hash `GetUserCache` (`model/user_cache.go`,
`model/user_auth_cache.go`) makes one out of the row; when that fails too, the amount is taken from the row.

A script, a statement and a change of the store are one access each, and anything may happen between two accesses of a
call. What the version fences of the hash forbid is left to the environment.
-/

namespace NewApi

structure UserHash where
  /-- `Id` and `CacheSchema` are the expected ones -/
  current : Bool
  quota : Option ℤ
  deriving DecidableEq, Repr

structure Wallet where
  hash : Option UserHash
  /-- the amount for the user in `batchUpdateStores[BatchUpdateTypeUserQuota]` -/
  queue : ℤ
  /-- what `batchUpdate` has taken out of the store, while it runs -/
  flushing : Option ℤ
  /-- the `quota` of the row -/
  row : ℤ
  deriving DecidableEq, Repr

inductive Reply
  | ok
  | failed
  /-- it was carried out, but the caller gets an error -/
  | lost
  deriving DecidableEq, Repr

def Reply.answer {α : Type} (reply : Reply) (result : α) : Option α := if reply = .ok then some result else none

def Reply.effect {α : Type} (reply : Reply) (before after : α) : α := if reply = .failed then before else after

structure AccessEnv where
  reply : Reply := .ok
  /-- a version fence is above the version of the hash, or of the row -/
  fenced : Bool := false
  deriving DecidableEq, Repr

def userQuotaReserveScript (amount : ℤ) (hash : Option UserHash) : CacheQuotaResult × Option UserHash :=
  match hash with
  | some ⟨true, some quota⟩ =>
    if quota < amount then (.insufficient, hash) else (.ok, some ⟨true, some (quota - amount)⟩)
  | _ => (.miss, hash)

def userQuotaDeltaScript (delta : ℤ) (hash : Option UserHash) : CacheQuotaResult × Option UserHash :=
  match hash with
  | some ⟨true, some quota⟩ => (.ok, some ⟨true, some (quota + delta)⟩)
  | _ => (.miss, hash)

/-- The script of `writeUserCache` with the quota: a quota that is there stays. -/
def writeUserCacheScript (quota : ℤ) (hash : Option UserHash) : Option UserHash :=
  some ⟨true, some ((hash.bind UserHash.quota).getD quota)⟩

inductive HydrateStage
  /-- `cacheGetUserBase` -/
  | cached
  /-- `GetUserById` -/
  | load
  /-- `populateUserCache`, with the quota that was read -/
  | populate (quota : ℤ)
  | done (ok : Bool)
  deriving DecidableEq, Repr

def hydrateStep (env : AccessEnv) (w : Wallet) : HydrateStage → Wallet × HydrateStage
  | .cached =>
    let found := (w.hash.map UserHash.current).getD false
    (w, if env.reply = .ok && found && !env.fenced then .done true else .load)
  | .load => (w, if env.reply = .ok && !env.fenced then .populate w.row else .done false)
  | .populate quota =>
    -- an error is only logged, unless it says that the fence is above the row
    ({ w with hash := if env.fenced then w.hash else env.reply.effect w.hash (writeUserCacheScript quota w.hash) },
      .done !(env.reply = .ok && env.fenced))
  | .done ok => (w, .done ok)

inductive ReserveStage
  /-- `cacheTryReserveUserQuota` -/
  | first
  /-- inside `GetUserCache` -/
  | hydrate (stage : HydrateStage)
  /-- `cacheTryReserveUserQuota` once more -/
  | second
  /-- `reserveUserQuotaDB` -/
  | fallback
  /-- `persistUserQuotaDelta` -/
  | persist
  /-- `cacheApplyUserQuotaDelta` -/
  | compensate
  | done (result : Except Err Bool)

def tryReserveStart (amount : ℤ) : ReserveStage :=
  if amount < 0 then .done (.error .negativeQuota)
  else if amount = 0 then .done (.ok true)
  else .first

def afterReserve (miss : ReserveStage) : Option CacheQuotaResult → ReserveStage
  | none => .fallback
  | some .miss => miss
  | some .insufficient => .done (.ok false)
  | some .ok => .persist

def afterHydrate : HydrateStage → ReserveStage
  | .done true => .second
  | .done false => .fallback
  | stage => .hydrate stage

def cacheTryReserve (env : AccessEnv) (amount : ℤ) (w : Wallet) : Option CacheQuotaResult × Wallet :=
  let out := userQuotaReserveScript amount w.hash
  (env.reply.answer out.1, { w with hash := env.reply.effect w.hash out.2 })

def tryReserveStep (batchUpdateEnabled : Bool) (env : AccessEnv) (amount : ℤ) (w : Wallet) :
    ReserveStage → Wallet × ReserveStage
  | .first =>
    let out := cacheTryReserve env amount w
    (out.2, afterReserve (.hydrate .cached) out.1)
  | .hydrate stage =>
    let out := hydrateStep env w stage
    (out.1, afterHydrate out.2)
  | .second =>
    let out := cacheTryReserve env amount w
    (out.2, afterReserve .fallback out.1)
  | .fallback =>
    let taken := decide (amount ≤ w.row)
    ({ w with row := env.reply.effect w.row (if taken then w.row - amount else w.row) },
      .done (if env.reply = .ok then .ok taken else .error .db))
  | .persist =>
    if batchUpdateEnabled then ({ w with queue := w.queue - amount }, .done (.ok true))
    else ({ w with row := env.reply.effect w.row (w.row - amount) },
      if env.reply = .ok then .done (.ok true) else .compensate)
  | .compensate =>
    ({ w with hash := env.reply.effect w.hash (userQuotaDeltaScript amount w.hash).2 }, .done (.error .db))
  | .done result => (w, .done result)

structure ReserveCall where
  amount : ℤ
  stage : ReserveStage

structure WalletState where
  wallet : Wallet
  calls : List ReserveCall
  /-- calls of `GetUserCache` from elsewhere -/
  hydrations : List HydrateStage

def WalletState.start (hash : Option UserHash) (balance : ℤ) : WalletState := ⟨⟨hash, 0, none, balance⟩, [], []⟩

inductive WalletEvent
  /-- `TryReserveUserQuota` is called -/
  | reserve (amount : ℤ)
  | access (call : ℕ) (env : AccessEnv)
  /-- `GetUserCache` is called -/
  | getUserCache
  | hydrate (call : ℕ) (env : AccessEnv)
  | expire
  /-- `batchUpdate` takes what is in the store -/
  | swap
  /-- `batchUpdate` writes it to the row -/
  | flush (reply : Reply)
  deriving DecidableEq, Repr

/-- `batchUpdate` up to the statement; only one is running at a time. -/
def Wallet.swap (w : Wallet) : Wallet :=
  match w.flushing with
  | none => { w with queue := 0, flushing := some w.queue }
  | some _ => w

/-- The statement of `batchUpdate`. An error is only logged. -/
def Wallet.flush (w : Wallet) (reply : Reply) : Wallet :=
  match w.flushing with
  | none => w
  | some delta => { w with flushing := none, row := reply.effect w.row (w.row + delta) }

def WalletState.access (batchUpdateEnabled : Bool) (s : WalletState) (i : ℕ) (env : AccessEnv) : WalletState :=
  match s.calls[i]? with
  | none => s
  | some call =>
    let out := tryReserveStep batchUpdateEnabled env call.amount s.wallet call.stage
    { s with wallet := out.1, calls := s.calls.set i ⟨call.amount, out.2⟩ }

def WalletState.hydrate (s : WalletState) (i : ℕ) (env : AccessEnv) : WalletState :=
  match s.hydrations[i]? with
  | none => s
  | some stage =>
    let out := hydrateStep env s.wallet stage
    { s with wallet := out.1, hydrations := s.hydrations.set i out.2 }

def WalletState.next (batchUpdateEnabled : Bool) (s : WalletState) : WalletEvent → WalletState
  | .reserve amount => { s with calls := s.calls ++ [⟨amount, tryReserveStart amount⟩] }
  | .access i env => s.access batchUpdateEnabled i env
  | .getUserCache => { s with hydrations := s.hydrations ++ [.cached] }
  | .hydrate i env => s.hydrate i env
  | .expire => { s with wallet := { s.wallet with hash := none } }
  | .swap => { s with wallet := s.wallet.swap }
  | .flush reply => { s with wallet := s.wallet.flush reply }

def WalletStep (batchUpdateEnabled : Bool) (s : WalletState) (e : WalletEvent) (s' : WalletState) : Prop :=
  s' = s.next batchUpdateEnabled e

def ReserveCall.granted (call : ReserveCall) : ℤ :=
  match call.stage with
  | .done (.ok true) => call.amount
  | _ => 0

def WalletState.granted (s : WalletState) : ℤ := (s.calls.map ReserveCall.granted).sum

end NewApi
