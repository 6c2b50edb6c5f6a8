import Mathlib.Data.Int.Basic
import Mathlib.Logic.Function.Basic

/-!
# The rate limit on models

`middleware/model-rate-limit.go` limits how many requests of a user succeed within some minutes. Without Redis the
moments are kept in queues of the process (`common/rate-limit.go`), with Redis in lists that expire. Times are whole
seconds. Redis does not fail here, and a check is one step.
-/

namespace NewApi

structure RateConfig where
  duration : ℤ
  /-- How long a list of Redis or an idle queue is kept: of Redis `ModelRequestRateLimitDurationMinutes`, in memory the
  duration of the first `Init`, in seconds -/
  expiration : ℤ
  (totalMaxCount successMaxCount : ℕ)
  deriving DecidableEq

inductive RateDecision
  | admitted
  /-- status 429 -/
  | tooMany
  /-- status 500, the check itself has failed -/
  | checkFailed
  deriving DecidableEq

structure RateRequest where
  time : ℤ
  finish : ℤ
  status : ℤ
  /-- what the token bucket of the total limit says, `none` if it fails -/
  bucket : Option Bool
  deriving DecidableEq

/-- The queues by key, each from old to new. -/
structure MemoryLimiter where
  store : String → Option (List ℤ)

namespace MemoryLimiter

def empty : MemoryLimiter := ⟨fun _ => none⟩

def set (key : String) (queue : List ℤ) (l : MemoryLimiter) : MemoryLimiter :=
  ⟨Function.update l.store key (some queue)⟩

def request (key : String) (maxRequestNum : ℕ) (duration now : ℤ) (l : MemoryLimiter) : Bool × MemoryLimiter :=
  match l.store key with
  | none => (true, l.set key [now])
  | some queue =>
    if queue.length < maxRequestNum then (true, l.set key (queue ++ [now]))
    else match queue with
      | oldest :: rest => if duration ≤ now - oldest then (true, l.set key (rest ++ [now])) else (false, l)
      -- there are no empty queues
      | [] => (false, l)

def clearExpiredItems (expiration now : ℤ) (l : MemoryLimiter) : MemoryLimiter :=
  ⟨fun key => (l.store key).filter fun queue => queue.getLast?.any fun newest => decide (now - newest ≤ expiration)⟩

end MemoryLimiter

def totalKey (userId : String) : String := "MRRL" ++ userId

def successKey (userId : String) : String := "MRRLS" ++ userId

def checkKey (userId : String) : String := successKey userId ++ "_check"

def memorySuccessLimit (cfg : RateConfig) (userId : String) (r : RateRequest) (l : MemoryLimiter) :
    RateDecision × MemoryLimiter :=
  match l.request (checkKey userId) cfg.successMaxCount cfg.duration r.time with
  | (false, l) => (.tooMany, l)
  | (true, l) =>
    (.admitted,
      if r.status < 400 then (l.request (successKey userId) cfg.successMaxCount cfg.duration r.finish).2 else l)

def memoryRateLimitHandler (cfg : RateConfig) (userId : String) (r : RateRequest) (l : MemoryLimiter) :
    RateDecision × MemoryLimiter :=
  if 0 < cfg.totalMaxCount then
    match l.request (totalKey userId) cfg.totalMaxCount cfg.duration r.time with
    | (false, l) => (.tooMany, l)
    | (true, l) => memorySuccessLimit cfg userId r l
  else memorySuccessLimit cfg userId r l

structure RedisList where
  entries : List ℤ
  expireAt : ℤ
  deriving DecidableEq

structure RedisLimiter where
  lists : String → Option RedisList

namespace RedisLimiter

def empty : RedisLimiter := ⟨fun _ => none⟩

def entries (key : String) (now : ℤ) (rdb : RedisLimiter) : List ℤ :=
  (rdb.lists key).elim [] fun list => if list.expireAt < now then [] else list.entries

def set (key : String) (list : RedisList) (rdb : RedisLimiter) : RedisLimiter :=
  ⟨Function.update rdb.lists key (some list)⟩

end RedisLimiter

def checkRedisRateLimit (cfg : RateConfig) (key : String) (maxCount : ℕ) (now : ℤ) (rdb : RedisLimiter) :
    Option Bool × RedisLimiter :=
  if maxCount = 0 then (some true, rdb)
  else
    let entries := rdb.entries key now
    if entries.length < maxCount then (some true, rdb)
    else match entries.getLast? with
      | none => (none, rdb)
      | some oldTime =>
        if now - oldTime < cfg.duration then (some false, rdb.set key ⟨entries, now + cfg.expiration⟩)
        else (some true, rdb)

def recordRedisRequest (cfg : RateConfig) (key : String) (maxCount : ℕ) (now : ℤ) (rdb : RedisLimiter) : RedisLimiter :=
  if maxCount = 0 then rdb
  else rdb.set key ⟨(now :: rdb.entries key now).take maxCount, now + cfg.expiration⟩

def redisKey (userId : String) : String := "rateLimit:MRRLS:" ++ userId

def redisHandle (cfg : RateConfig) (userId : String) (r : RateRequest) (rdb : RedisLimiter) :
    RateDecision × RedisLimiter :=
  (.admitted, if r.status < 400 then recordRedisRequest cfg (redisKey userId) cfg.successMaxCount r.finish rdb else rdb)

def redisRateLimitHandler (cfg : RateConfig) (userId : String) (r : RateRequest) (rdb : RedisLimiter) :
    RateDecision × RedisLimiter :=
  match checkRedisRateLimit cfg (redisKey userId) cfg.successMaxCount r.time rdb with
  | (none, rdb) => (.checkFailed, rdb)
  | (some false, rdb) => (.tooMany, rdb)
  | (some true, rdb) =>
    if 0 < cfg.totalMaxCount then
      match r.bucket with
      | none => (.checkFailed, rdb)
      -- the request was aborted, so nothing handles it and its status is 429
      | some false => (.tooMany, rdb)
      | some true => redisHandle cfg userId r rdb
    else redisHandle cfg userId r rdb

inductive RateEvent
  | request (r : RateRequest)
  | clear (now : ℤ)
  deriving DecidableEq

def memoryRun (cfg : RateConfig) (userId : String) : MemoryLimiter → List RateEvent → List RateDecision
  | _, [] => []
  | l, .request r :: es =>
    (memoryRateLimitHandler cfg userId r l).1 :: memoryRun cfg userId (memoryRateLimitHandler cfg userId r l).2 es
  | l, .clear now :: es => memoryRun cfg userId (l.clearExpiredItems cfg.expiration now) es

def redisRun (cfg : RateConfig) (userId : String) : RedisLimiter → List RateEvent → List RateDecision
  | _, [] => []
  | rdb, .request r :: es =>
    (redisRateLimitHandler cfg userId r rdb).1 :: redisRun cfg userId (redisRateLimitHandler cfg userId r rdb).2 es
  | rdb, .clear _ :: es => redisRun cfg userId rdb es

inductive LimiterEvent
  | request (key : String) (maxRequestNum : ℕ) (duration now : ℤ)
  | clear (now : ℤ)
  deriving DecidableEq

def LimiterEvent.time : LimiterEvent → ℤ
  | request _ _ _ now | clear now => now

/-- When requests of the key are accepted. The expiration is the first `Init`'s, `none` if it starts no cleanup. -/
def MemoryLimiter.accepted (expiration : Option ℤ) (key : String) : MemoryLimiter → List LimiterEvent → List ℤ
  | _, [] => []
  | l, .request key' n d now :: es =>
    let (ok, l) := l.request key' n d now
    if key' = key ∧ ok = true then now :: l.accepted expiration key es else l.accepted expiration key es
  | l, .clear now :: es => (expiration.elim l (l.clearExpiredItems · now)).accepted expiration key es

end NewApi
