import NewApi.Spec.Basic
import Mathlib.Data.List.Nodup
import Mathlib.Data.List.Sort
import Mathlib.Data.Int.Basic
import Mathlib.Algebra.Order.Group.Unbundled.Int
import Mathlib.Tactic.Linarith

/-!
# Subscriptions of a user

`model/subscription.go`: the rows of `user_subscriptions`, the periodic quota
reset, the pre-consume with its idempotency record, the delta of a settlement
and the refund of a pre-consume. Times are Unix seconds.

The used amount is a natural number: every writer either sets it to zero, adds a
positive amount or clamps it at zero.
-/

namespace NewApi

inductive ResetPeriod
  | never | daily | weekly | monthly | custom
  deriving DecidableEq, Repr

structure SubscriptionPlan where
  title : String
  quotaResetPeriod : ResetPeriod
  quotaResetCustomSeconds : ℤ
  deriving DecidableEq, Repr

/-- The calendar of the server's time zone: the next midnight, Monday and first day of a month after a time. -/
structure Calendar where
  (nextDay nextMonday nextMonth : ℤ → ℤ)

/-- A time zone and the months of the year. Days are counted from 1970, where a Thursday is day 0. -/
structure Zone where
  /-- to UTC, in seconds -/
  offset : ℤ → ℤ
  /-- of the month that has the day -/
  firstOfMonth : ℤ → ℤ
  /-- the same day of the next month -/
  addMonth : ℤ → ℤ

namespace Zone

variable (z : Zone)

/-- What the clocks show, as if they showed UTC -/
def wall (t : ℤ) : ℤ := t + z.offset t

/-- `time.Date` takes the offset at what may be the time, and where that is not the offset of the result, the offset
there. A time that the clocks leave out is none of the two around it. -/
def date (wall : ℤ) : ℤ := wall - z.offset (wall - z.offset wall)

def midnight (t : ℤ) : ℤ := z.date (z.wall t / 86400 * 86400)

/-- `AddDate(0, 0, days)` -/
def addDays (t days : ℤ) : ℤ := z.date (z.wall t + 86400 * days)

/-- Monday is 1 and Sunday 7. -/
def weekday (t : ℤ) : ℤ := (z.wall t / 86400 + 3) % 7 + 1

def startOfMonth (t : ℤ) : ℤ := z.date (z.firstOfMonth (z.wall t / 86400) * 86400)

/-- `AddDate(0, 1, 0)` -/
def nextMonth (t : ℤ) : ℤ := z.date (z.addMonth (z.wall t / 86400) * 86400 + z.wall t % 86400)

/-- What `calcNextResetTime` makes of them -/
def calendar : Calendar where
  nextDay t := z.addDays (z.midnight t) 1
  nextMonday t := z.addDays (z.midnight t) (8 - z.weekday t)
  nextMonth t := z.nextMonth (z.startOfMonth t)

end Zone

structure UserSubscription where
  (id planId : ℕ)
  amountTotal : ℤ
  amountUsed : ℕ
  (startTime endTime : ℤ)
  /-- `Status = "active"` -/
  active : Bool
  (lastResetTime nextResetTime : ℤ)
  deriving DecidableEq, Repr

def UserSubscription.withUsed (sub : UserSubscription) (n : ℕ) : UserSubscription :=
  { sub with amountUsed := n }

@[ext]
structure SubTable where
  rows : List UserSubscription
  nodup : (rows.map (·.id)).Nodup
  pos : ∀ s ∈ rows, 0 < s.id

def SubTable.find (t : SubTable) (id : ℕ) : Option UserSubscription := t.rows.find? (fun r => decide (r.id = id))

private theorem save_ids (rows : List UserSubscription) (s : UserSubscription) :
    (rows.map fun r => if r.id = s.id then s else r).map (·.id) = rows.map (·.id) := by
  rw [List.map_map]
  apply List.map_congr_left
  intro r _
  simp only [Function.comp]
  split
  · exact Eq.symm ‹_›
  · rfl

/-- `tx.Save(&sub)`: the row with the primary key of `s` becomes `s`. -/
def SubTable.save (t : SubTable) (s : UserSubscription) : SubTable where
  rows := t.rows.map fun r => if r.id = s.id then s else r
  nodup := by rw [save_ids]; exact t.nodup
  pos := by
    intro r hr
    obtain ⟨r', hr', rfl⟩ := List.mem_map.1 hr
    have := t.pos r' hr'
    split
    · rw [← ‹r'.id = s.id›]; exact this
    · exact this

def SubTable.activeSubs (t : SubTable) (now : ℤ) : List UserSubscription :=
  (t.rows.filter fun s => s.active && decide (now < s.endTime)).insertionSort fun a b =>
    a.endTime < b.endTime ∨ (a.endTime = b.endTime ∧ a.id ≤ b.id)

structure SubscriptionPreConsumeRecord where
  userSubscriptionId : ℕ
  preConsumed : ℤ
  /-- `Status = "refunded"` rather than `"consumed"` -/
  refunded : Bool
  deriving DecidableEq, Repr

structure SubscriptionPreConsumeResult where
  userSubscriptionId : ℕ
  (preConsumed amountTotal : ℤ)
  (amountUsedBefore amountUsedAfter : ℕ)
  deriving DecidableEq, Repr

/-- `base.Add(time.Duration(secs) * time.Second)`: the product is in nanoseconds
and wraps at 64 bits. -/
def addSeconds (base secs : ℤ) : ℤ := base + Int.bmod (secs * 1000000000) (2 ^ 64) / 1000000000

def calcNextResetTime (cal : Calendar) (base : ℤ) (plan : SubscriptionPlan) (endUnix : ℤ) : ℤ :=
  let next : Option ℤ := match plan.quotaResetPeriod with
    | .never => none
    | .daily => some (cal.nextDay base)
    | .weekly => some (cal.nextMonday base)
    | .monthly => some (cal.nextMonth base)
    | .custom =>
      if plan.quotaResetCustomSeconds ≤ 0 then none
      else some (addSeconds base plan.quotaResetCustomSeconds)
  match next with
  | none => 0
  | some next => if 0 < endUnix ∧ endUnix < next then 0 else next

/-- The loop `for next > 0 && next <= now`, from `base` and its next reset time.
`none` when it is still running after `fuel` rounds. -/
def catchUp (cal : Calendar) (plan : SubscriptionPlan) (endTime now : ℤ) :
    ℕ → ℤ → ℤ → Bool → Option (ℤ × ℤ × Bool)
  | 0, _, _, _ => none
  | fuel + 1, base, next, advanced =>
    if 0 < next ∧ next ≤ now then catchUp cal plan endTime now fuel next (calcNextResetTime cal next plan endTime) true
    else some (base, next, advanced)

/-- `maybeResetUserSubscriptionWithPlanTx`. A loop that moves forward gains a second in each round, so the seconds to
catch up are enough rounds. -/
def maybeReset (cal : Calendar) (plan : SubscriptionPlan) (now : ℤ) (sub : UserSubscription) :
    Option UserSubscription :=
  if 0 < sub.nextResetTime ∧ now < sub.nextResetTime then some sub
  else if plan.quotaResetPeriod = .never then some sub
  else
    let base := if sub.lastResetTime ≤ 0 then sub.startTime else sub.lastResetTime
    let next := calcNextResetTime cal base plan sub.endTime
    match catchUp cal plan sub.endTime now ((now - base).toNat + 2) base next false with
    | none => none
    | some (base', next', advanced) =>
      -- at least one period has passed, so the used amount starts again
      if advanced then some { sub with amountUsed := 0, lastResetTime := base', nextResetTime := next' }
      else if sub.nextResetTime = 0 ∧ 0 < next' then some { sub with nextResetTime := next', lastResetTime := base' }
      else some sub

structure SubEnv where
  cal : Calendar
  plans : ℕ → Option SubscriptionPlan
  now : ℤ

structure SubStore where
  table : SubTable
  records : String → Option SubscriptionPreConsumeRecord

/-- The loop over the candidates. A candidate that is too small is passed over,
but its reset stays saved. -/
def preConsumeFrom (env : SubEnv) (amount : ℤ) :
    List UserSubscription → SubTable → Except Err (SubscriptionPreConsumeResult × SubTable)
  | [], _ => .error (.subscriptionQuotaInsufficient amount)
  | candidate :: rest, t =>
    match env.plans candidate.planId with
    | none => .error .recordNotFound
    | some plan =>
      match maybeReset env.cal plan env.now candidate with
      | none => .error .hangs
      | some sub =>
        if 0 < sub.amountTotal ∧ sub.amountTotal - sub.amountUsed < amount then
          preConsumeFrom env amount rest (t.save sub)
        else
          .ok (⟨sub.id, amount, sub.amountTotal, sub.amountUsed, sub.amountUsed + amount.toNat⟩,
            t.save (sub.withUsed (sub.amountUsed + amount.toNat)))

/-- `PreConsumeUserSubscription`, one transaction: an error, its own or the
driver's (`dbErr`), leaves every row as it was. -/
def preConsumeUserSubscription (env : SubEnv) (dbErr : Bool) (requestId : String) (amount : ℤ)
    (st : SubStore) : Except Err (SubscriptionPreConsumeResult × SubStore) :=
  if isBlank requestId then .error .requestIdEmpty
  else if amount ≤ 0 then .error .amountNotPositive
  else if dbErr then .error .db
  else match st.records requestId with
    -- the request id was charged before: its record answers, and nothing is taken again
    | some existing =>
      if existing.refunded then .error .alreadyRefunded
      else match st.table.find existing.userSubscriptionId with
        | none => .error .recordNotFound
        | some sub => .ok (⟨sub.id, existing.preConsumed, sub.amountTotal, sub.amountUsed, sub.amountUsed⟩, st)
    | none =>
      match st.table.activeSubs env.now with
      | [] => .error .noActiveSubscription
      | subs =>
        match preConsumeFrom env amount subs st.table with
        | .error e => .error e
        | .ok (res, t) =>
          .ok (res, ⟨t, Function.update st.records requestId
            (some ⟨res.userSubscriptionId, amount, false⟩)⟩)

def postConsumeUserSubscriptionDelta (dbErr : Bool) (id : ℕ) (delta : ℤ) (st : SubStore) : Except Err SubStore :=
  if id = 0 then .error .invalidUserSubscriptionId
  else if delta = 0 then .ok st
  else if dbErr then .error .db
  else match st.table.find id with
    | none => .error .recordNotFound
    | some sub =>
      -- a negative result is clamped to zero
      let newUsed := (sub.amountUsed + delta).toNat
      if 0 < sub.amountTotal ∧ sub.amountTotal < newUsed then .error (.usedExceedsTotal newUsed sub.amountTotal)
      else .ok { st with table := st.table.save (sub.withUsed newUsed) }

/-- How far a refund transaction gets. The delta commits in a transaction of its own inside it. -/
inductive RefundFault
  | none
  /-- a statement before the delta, or the delta itself, fails -/
  | failed
  /-- the delta is committed, and saving the record then fails -/
  | lost
  deriving DecidableEq, Repr

/-- With `RefundFault.lost` it reports an error although the amount has been given back. -/
def refundSubscriptionPreConsume (fault : RefundFault) (requestId : String) (st : SubStore) : SubStore × Option Err :=
  if isBlank requestId then (st, some .requestIdEmpty)
  else if fault = .failed then (st, some .db)
  else match st.records requestId with
    | none => (st, some .recordNotFound)
    | some record =>
      if record.refunded then (st, none)
      else
        let saved := some { record with refunded := true }
        if record.preConsumed ≤ 0 then
          if fault = .lost then (st, some .db)
          else ({ st with records := Function.update st.records requestId saved }, none)
        else match postConsumeUserSubscriptionDelta false record.userSubscriptionId
            (-record.preConsumed) st with
          | .error e => (st, some e)
          | .ok st' =>
            -- the outer transaction is rolled back, the delta inside it is not
            if fault = .lost then (st', some .db)
            else ({ st' with records := Function.update st'.records requestId saved }, none)

end NewApi
