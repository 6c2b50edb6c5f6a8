import NewApi.Spec.Subscription

/-!
# The subscription tables

`model/subscription.go` over the rows of all users: buying a plan, spending on it, the resets of its quota by
the calendar and by an administrator, its expiry, and the group that a user is lifted to while it lasts.
The amounts are the `int64` of the source. A function that returns an error has rolled its transaction back.

`SubDB.resets` is no table: it lists the committed resets of the used amounts, the newest first.
-/

namespace NewApi

inductive DurationUnit
  | year | month | day | hour | custom
  | invalid
  deriving DecidableEq, Repr

structure PlanRow extends SubscriptionPlan where
  durationUnit : DurationUnit
  (durationValue customSeconds maxPurchasePerUser : ℤ)
  (upgradeGroup downgradeGroup : String)
  totalAmount : Int64
  deriving DecidableEq, Repr

/-- The calendar with `AddDate(years, 0, 0)` and `AddDate(0, months, 0)`. -/
structure PlanCalendar extends Calendar where
  (addYears addMonths : ℤ → ℤ → ℤ)

structure SubWorld where
  cal : PlanCalendar
  plans : ℕ → Option PlanRow

inductive SubErr
  | db
  /-- "invalid userId", in a purchase "invalid user id" -/
  | invalidUserId
  /-- "requestId is empty" -/
  | requestIdEmpty
  /-- "amount must be > 0" -/
  | amountNotPositive
  /-- "subscription pre-consume already refunded" -/
  | alreadyRefunded
  /-- "no active subscription" -/
  | noActiveSubscription
  /-- "subscription quota insufficient, need=…" -/
  | quotaInsufficient (need : Int64)
  /-- "invalid userSubscriptionId" -/
  | invalidUserSubscriptionId
  | recordNotFound
  /-- "subscription used exceeds total, used=… total=…" -/
  | usedExceedsTotal (used total : Int64)
  /-- the catch-up loop does not end, so the call does not return -/
  | hangs
  /-- "invalid plan" -/
  | invalidPlan
  /-- "invalid plan id", in a reset "invalid planId" -/
  | invalidPlanId
  /-- "invalid userId or planId" -/
  | invalidUserIdOrPlanId
  /-- "已达到该套餐购买上限" -/
  | purchaseLimit
  /-- "duration_value must be > 0" -/
  | durationValueNotPositive
  /-- "custom_seconds must be > 0" -/
  | customSecondsNotPositive
  /-- "invalid duration_unit: …" -/
  | invalidDurationUnit
  /-- "该用户没有有效的此套餐订阅" -/
  | noSubscriptionOfPlan
  deriving DecidableEq, Repr

def SubWorld.planById (w : SubWorld) (id : ℕ) : Except SubErr PlanRow :=
  if id = 0 then .error .invalidPlanId
  else match w.plans id with
    | none => .error .recordNotFound
    | some plan => .ok plan

def calcPlanEndTime (cal : PlanCalendar) (start : ℤ) (plan : PlanRow) : Except SubErr ℤ :=
  if plan.durationValue ≤ 0 ∧ plan.durationUnit ≠ .custom then .error .durationValueNotPositive
  else match plan.durationUnit with
    | .year => .ok (cal.addYears start plan.durationValue)
    | .month => .ok (cal.addMonths start plan.durationValue)
    | .day => .ok (addSeconds start (plan.durationValue * 86400))
    | .hour => .ok (addSeconds start (plan.durationValue * 3600))
    | .custom =>
      if plan.customSeconds ≤ 0 then .error .customSecondsNotPositive
      else .ok (addSeconds start plan.customSeconds)
    | .invalid => .error .invalidDurationUnit

inductive SubStatus
  | active | expired | cancelled
  deriving DecidableEq, Repr

structure SubRow where
  (userId planId : ℕ)
  (amountTotal amountUsed : Int64)
  (startTime endTime : ℤ)
  status : SubStatus
  (lastResetTime nextResetTime : ℤ)
  (upgradeGroup prevUserGroup downgradeGroup : String)
  deriving DecidableEq, Repr

/-- The table by id; ids from `nextId` on have not been given out. -/
structure SubRows where
  row : ℕ → Option SubRow
  nextId : ℕ
  fresh : ∀ i, nextId ≤ i → row i = none

def SubRows.entries (t : SubRows) : List (ℕ × SubRow) := (List.range t.nextId).filterMap fun i => (t.row i).map (i, ·)

def SubRows.set (t : SubRows) (i : ℕ) (r : Option SubRow) : SubRows where
  row := if i < t.nextId then Function.update t.row i r else t.row
  nextId := t.nextId
  fresh := by
    intro j hj
    split
    · rw [Function.update_of_ne (by omega)]
      exact t.fresh j hj
    · exact t.fresh j hj

def SubRows.insert (t : SubRows) (r : SubRow) : SubRows where
  row := Function.update t.row t.nextId (some r)
  nextId := t.nextId + 1
  fresh := by
    intro j hj
    rw [Function.update_of_ne (by omega)]
    exact t.fresh j (by omega)

structure SubRecord where
  userSubscriptionId : ℕ
  preConsumed : Int64
  /-- `Status = "refunded"` rather than `"consumed"` -/
  refunded : Bool
  deriving DecidableEq, Repr

inductive ResetKind
  /-- `maybeResetUserSubscriptionWithPlanTx` -/
  | automatic
  /-- an administrator, with `advanceResetTime` -/
  | advanced
  /-- an administrator, without it -/
  | plain
  deriving DecidableEq, Repr

structure QuotaReset where
  id : ℕ
  time : ℤ
  kind : ResetKind
  deriving DecidableEq, Repr

structure SubDB where
  subs : SubRows
  records : String → Option SubRecord
  /-- the `group` of the users -/
  groups : ℕ → Option String
  resets : List QuotaReset

def SubDB.save (db : SubDB) (i : ℕ) (r : SubRow) : SubDB := { db with subs := db.subs.set i (some r) }

def SubDB.saveReset (db : SubDB) (i : ℕ) (r : SubRow) (now : ℤ) (kind : ResetKind) : SubDB :=
  { db with subs := db.subs.set i (some r), resets := ⟨i, now, kind⟩ :: db.resets }

def byEndTime (l : List (ℕ × SubRow)) : List (ℕ × SubRow) :=
  l.insertionSort fun a b => a.2.endTime < b.2.endTime ∨ (a.2.endTime = b.2.endTime ∧ a.1 ≤ b.1)

inductive ResetOutcome
  | unchanged
  | scheduled (last next : ℤ)
  | reset (last next : ℤ)
  | hangs
  deriving DecidableEq, Repr

def SubRow.resetBase (sub : SubRow) : ℤ := if sub.lastResetTime ≤ 0 then sub.startTime else sub.lastResetTime

def SubRow.resetOutcome (cal : Calendar) (plan : SubscriptionPlan) (now : ℤ) (sub : SubRow) : ResetOutcome :=
  if 0 < sub.nextResetTime ∧ now < sub.nextResetTime then .unchanged
  else if plan.quotaResetPeriod = .never then .unchanged
  else
    match catchUp cal plan sub.endTime now ((now - sub.resetBase).toNat + 2) sub.resetBase
        (calcNextResetTime cal sub.resetBase plan sub.endTime) false with
    | none => .hangs
    | some (base, next, true) => .reset base next
    | some (base, next, false) => if sub.nextResetTime = 0 ∧ 0 < next then .scheduled base next else .unchanged

def SubRow.restarted (sub : SubRow) (last next : ℤ) : SubRow :=
  { sub with amountUsed := 0, lastResetTime := last, nextResetTime := next }

def SubDB.maybeReset (w : SubWorld) (plan : PlanRow) (now : ℤ) (i : ℕ) (sub : SubRow) (db : SubDB) :
    Except SubErr (SubRow × SubDB) :=
  match sub.resetOutcome w.cal.toCalendar plan.toSubscriptionPlan now with
  | .unchanged => .ok (sub, db)
  | .scheduled last next =>
    let sub' := { sub with lastResetTime := last, nextResetTime := next }
    .ok (sub', db.save i sub')
  | .reset last next => .ok (sub.restarted last next, db.saveReset i (sub.restarted last next) now .automatic)
  | .hangs => .error .hangs

structure SubCharge where
  userSubscriptionId : ℕ
  (preConsumed amountTotal amountUsedBefore amountUsedAfter : Int64)
  deriving DecidableEq, Repr

def SubDB.candidates (now : ℤ) (userId : ℕ) (db : SubDB) : List (ℕ × SubRow) :=
  byEndTime (db.subs.entries.filter fun e => e.2.userId = userId && e.2.status = .active && decide (now < e.2.endTime))

/-- The loop over the candidates, each after its due reset, which stays saved when one is passed over. -/
def SubDB.chooseFrom (w : SubWorld) (now : ℤ) (amount : Int64) :
    List (ℕ × SubRow) → SubDB → Except SubErr (ℕ × SubRow × SubDB)
  | [], _ => .error (.quotaInsufficient amount)
  | (i, candidate) :: rest, db =>
    match w.planById candidate.planId with
    | .error e => .error e
    | .ok plan =>
      match db.maybeReset w plan now i candidate with
      | .error e => .error e
      | .ok (sub, db') =>
        if 0 < sub.amountTotal ∧ sub.amountTotal - sub.amountUsed < amount then db'.chooseFrom w now amount rest
        else .ok (i, sub, db')

def SubRow.charged (sub : SubRow) (amount : Int64) : SubRow := { sub with amountUsed := sub.amountUsed + amount }

def preConsumeRefused (requestId : String) (userId : ℕ) (amount : Int64) : Option SubErr :=
  if userId = 0 then some .invalidUserId
  else if isBlank requestId then some .requestIdEmpty
  else if amount ≤ 0 then some .amountNotPositive
  else none

def SubDB.preConsumeUserSubscription (w : SubWorld) (now : ℤ) (requestId : String) (userId : ℕ)
    (amount : Int64) (db : SubDB) : Except SubErr (SubCharge × SubDB) :=
  match preConsumeRefused requestId userId amount with
  | some e => .error e
  | none =>
    match db.records requestId with
    | some existing =>
      if existing.refunded then .error .alreadyRefunded
      else match db.subs.row existing.userSubscriptionId with
        | none => .error .recordNotFound
        | some sub => .ok (⟨existing.userSubscriptionId, existing.preConsumed, sub.amountTotal,
            sub.amountUsed, sub.amountUsed⟩, db)
    | none =>
      match db.candidates now userId with
      | [] => .error .noActiveSubscription
      | subs =>
        match db.chooseFrom w now amount subs with
        | .error e => .error e
        | .ok (i, sub, db') =>
          let record := ⟨i, amount, false⟩
          .ok (⟨i, amount, sub.amountTotal, sub.amountUsed, (sub.charged amount).amountUsed⟩,
            { db'.save i (sub.charged amount) with
              records := Function.update db'.records requestId (some record) })

/-- The statements of `PostConsumeUserSubscriptionDelta`, each of which can fail. -/
inductive DeltaStatement
  | begin | select | save | commit
  deriving DecidableEq, Repr

/-- `newUsed`: the sum wraps at 64 bits, and a negative one becomes zero. -/
def SubRow.usedAfter (sub : SubRow) (delta : Int64) : Int64 :=
  if sub.amountUsed + delta < 0 then 0 else sub.amountUsed + delta

def SubDB.postConsumeUserSubscriptionDelta (failing : Option DeltaStatement) (id : ℕ) (delta : Int64)
    (db : SubDB) : Except SubErr SubDB :=
  if id = 0 then .error .invalidUserSubscriptionId
  else if delta = 0 then .ok db
  else if failing = some .begin ∨ failing = some .select then .error .db
  else match db.subs.row id with
    | none => .error .recordNotFound
    | some sub =>
      if 0 < sub.amountTotal ∧ sub.amountTotal < sub.usedAfter delta then
        .error (.usedExceedsTotal (sub.usedAfter delta) sub.amountTotal)
      else if failing = some .save ∨ failing = some .commit then .error .db
      else .ok (db.save id { sub with amountUsed := sub.usedAfter delta })

/-- The statements of `RefundSubscriptionPreConsume`. The delta runs on `DB` and not on `tx`. -/
inductive RefundStatement
  | begin
  | select
  | delta (statement : DeltaStatement)
  | save
  | commit
  deriving DecidableEq, Repr

def RefundStatement.late : RefundStatement → Bool
  | .save | .commit => true
  | _ => false

def RefundStatement.inDelta : RefundStatement → Option DeltaStatement
  | .delta statement => some statement
  | _ => none

/-- `RefundSubscriptionPreConsume`, with the statement that fails, if one does: the database afterwards and
the error. -/
def SubDB.refundSubscriptionPreConsume (failing : Option RefundStatement) (requestId : String) (db : SubDB) :
    SubDB × Option SubErr :=
  if isBlank requestId then (db, some .requestIdEmpty)
  else if failing = some .begin ∨ failing = some .select then (db, some .db)
  else match db.records requestId with
    | none => (db, some .recordNotFound)
    | some record =>
      let marked := some { record with refunded := true }
      if record.refunded then (db, if failing = some .commit then some .db else none)
      else if record.preConsumed ≤ 0 then
        if failing.any RefundStatement.late then (db, some .db)
        else ({ db with records := Function.update db.records requestId marked }, none)
      else
        match db.postConsumeUserSubscriptionDelta (failing.bind RefundStatement.inDelta)
            record.userSubscriptionId (-record.preConsumed) with
        | .error e => (db, some e)
        | .ok db' =>
          -- the outer transaction is rolled back, the delta inside it is not
          if failing.any RefundStatement.late then (db', some .db)
          else ({ db' with records := Function.update db'.records requestId marked }, none)

/-- The attempts that are left to `refundWithRetry`, with what fails in each: it stops at the first success. -/
def SubDB.refundAttempts (requestId : String) (lastErr : Option SubErr) :
    List (Option RefundStatement) → SubDB → SubDB × Option SubErr
  | [], db => (db, lastErr)
  | failing :: rest, db =>
    match db.refundSubscriptionPreConsume failing requestId with
    | (db', none) => (db', none)
    | (db', some e) => db'.refundAttempts requestId (some e) rest

def SubDB.refundWithRetry (requestId : String) (first second third : Option RefundStatement) (db : SubDB) :
    SubDB × Option SubErr :=
  db.refundAttempts requestId none [first, second, third]

def effectiveLimit (limit : ℤ) : ℕ := if limit ≤ 0 then 200 else limit.toNat

/-- The rows of the query of `ResetDueSubscriptions`; equal times come in the order of the ids. -/
def SubDB.dueForReset (now : ℤ) (db : SubDB) : List (ℕ × SubRow) :=
  (db.subs.entries.filter fun e =>
    decide (0 < e.2.nextResetTime) && decide (e.2.nextResetTime ≤ now) && e.2.status = .active).insertionSort
      fun a b => a.2.nextResetTime ≤ b.2.nextResetTime

/-- The transaction of `ResetDueSubscriptions` on one row, which is read again under its lock. -/
def SubDB.resetLocked (w : SubWorld) (plan : PlanRow) (now : ℤ) (i : ℕ) (db : SubDB) : Except SubErr SubDB :=
  match db.subs.row i with
  | none => .ok db
  | some locked =>
    if 0 < locked.nextResetTime ∧ locked.nextResetTime ≤ now then (db.maybeReset w plan now i locked).map (·.2)
    else .ok db

/-- The loop of `ResetDueSubscriptions`. The transactions of the rows in `failing` fail. -/
def SubDB.resetDueFrom (w : SubWorld) (now : ℤ) (failing : List ℕ) :
    List (ℕ × SubRow) → SubDB → SubDB × Option SubErr
  | [], db => (db, none)
  | (i, sub) :: rest, db =>
    match w.planById sub.planId with
    | .error _ => db.resetDueFrom w now failing rest
    | .ok plan =>
      match db.resetLocked w plan now i with
      | .error e => (db, some e)
      | .ok db' => if i ∈ failing then (db, some .db) else db'.resetDueFrom w now failing rest

def SubDB.resetDueSubscriptions (w : SubWorld) (now limit : ℤ) (failing : List ℕ) (db : SubDB) :
    SubDB × Option SubErr :=
  db.resetDueFrom w now failing ((db.dueForReset now).take (effectiveLimit limit))

def SubRow.adminReset (cal : Calendar) (plan : SubscriptionPlan) (now : ℤ) (advanceResetTime : Bool)
    (sub : SubRow) : SubRow :=
  if advanceResetTime then
    let nextReset := calcNextResetTime cal now plan sub.endTime
    { sub with
      amountUsed := 0, nextResetTime := nextReset, lastResetTime := if 0 < nextReset then now else 0 }
  else { sub with amountUsed := 0 }

def SubDB.adminResetFrom (w : SubWorld) (plan : PlanRow) (now : ℤ) (advanceResetTime : Bool) :
    List (ℕ × SubRow) → SubDB → SubDB
  | [], db => db
  | (i, sub) :: rest, db =>
    (db.saveReset i (sub.adminReset w.cal.toCalendar plan.toSubscriptionPlan now advanceResetTime) now
      (if advanceResetTime then .advanced else .plain)).adminResetFrom w plan now advanceResetTime rest

structure SubscriptionResetResult where
  (planId matchedCount resetCount userCount : ℕ)
  advanceResetTime : Bool
  planTitle : String
  affectedUserIds : List ℕ
  deriving DecidableEq, Repr

def buildSubscriptionResetResult (planId : ℕ) (plan : PlanRow) (subs : List (ℕ × SubRow))
    (advanceResetTime : Bool) : SubscriptionResetResult :=
  let userIds := (subs.map (·.2.userId)).foldl (fun seen u => if seen.contains u then seen else seen ++ [u]) []
  ⟨planId, subs.length, subs.length, userIds.length, advanceResetTime, plan.title, userIds⟩

def SubDB.adminResetUserSubscriptionsByPlan (w : SubWorld) (now : ℤ) (userId planId : ℕ)
    (advanceResetTime : Bool) (db : SubDB) : Except SubErr (SubscriptionResetResult × SubDB) :=
  if userId = 0 ∨ planId = 0 then .error .invalidUserIdOrPlanId
  else match w.planById planId with
    | .error e => .error e
    | .ok plan =>
      match byEndTime (db.subs.entries.filter fun e => e.2.userId = userId && e.2.planId = planId &&
          e.2.status = .active && decide (now < e.2.endTime)) with
      | [] => .error .noSubscriptionOfPlan
      | subs => .ok (buildSubscriptionResetResult planId plan subs advanceResetTime,
          db.adminResetFrom w plan now advanceResetTime subs)

/-- `AdminResetPlanSubscriptions`, in the order of `user_id asc, end_time asc, id asc`. -/
def SubDB.adminResetPlanSubscriptions (w : SubWorld) (now : ℤ) (planId : ℕ) (advanceResetTime : Bool)
    (db : SubDB) : Except SubErr (SubscriptionResetResult × SubDB) :=
  match w.planById planId with
  | .error e => .error e
  | .ok plan =>
      let subs := (byEndTime (db.subs.entries.filter fun e => e.2.planId = planId && e.2.status = .active &&
        decide (now < e.2.endTime))).insertionSort fun a b => a.2.userId ≤ b.2.userId
      .ok (buildSubscriptionResetResult planId plan subs advanceResetTime,
        db.adminResetFrom w plan now advanceResetTime subs)

/-- `getUserGroupByIdTx`: a user that is not there has the group `""`. -/
def SubDB.groupOf (db : SubDB) (userId : ℕ) : String := (db.groups userId).getD ""

def SubDB.setGroup (db : SubDB) (userId : ℕ) (group : String) : SubDB :=
  { db with groups := Function.update db.groups userId ((db.groups userId).map fun _ => group) }

def newUserSubscription (cal : Calendar) (now : ℤ) (userId planId : ℕ) (plan : PlanRow) (endUnix : ℤ)
    (currentGroup : String) : SubRow :=
  let nextReset := calcNextResetTime cal now plan.toSubscriptionPlan endUnix
  let upgradeGroup := trimSpace plan.upgradeGroup
  { userId, planId
    amountTotal := plan.totalAmount
    amountUsed := 0
    startTime := now
    endTime := endUnix
    status := .active
    lastResetTime := if 0 < nextReset then now else 0
    nextResetTime := nextReset
    upgradeGroup
    -- only the purchase that lifts the user remembers the group before
    prevUserGroup := if upgradeGroup ≠ "" ∧ currentGroup ≠ upgradeGroup then currentGroup else ""
    downgradeGroup := trimSpace plan.downgradeGroup }

def SubDB.lift (db : SubDB) (userId : ℕ) (upgradeGroup : String) : SubDB :=
  if upgradeGroup ≠ "" ∧ db.groupOf userId ≠ upgradeGroup then db.setGroup userId upgradeGroup else db

def SubDB.createUserSubscriptionFromPlan (w : SubWorld) (now : ℤ) (userId planId : ℕ) (plan : PlanRow)
    (db : SubDB) : Except SubErr SubDB :=
  if planId = 0 then .error .invalidPlan
  else if userId = 0 then .error .invalidUserId
  else if 0 < plan.maxPurchasePerUser ∧ plan.maxPurchasePerUser ≤
      (db.subs.entries.countP fun e => e.2.userId = userId && e.2.planId = planId) then .error .purchaseLimit
  else match calcPlanEndTime w.cal now plan with
    | .error e => .error e
    | .ok endUnix =>
      let sub := newUserSubscription w.cal.toCalendar now userId planId plan endUnix (db.groupOf userId)
      .ok { db.lift userId (trimSpace plan.upgradeGroup) with subs := db.subs.insert sub }

def SubDB.hasUpgrade (db : SubDB) (now : ℤ) (userId : ℕ) (other : ℕ → Bool) : Bool :=
  db.subs.entries.any fun e => decide (e.2.userId = userId) && e.2.status = .active &&
    decide (now < e.2.endTime) && other e.1 && e.2.upgradeGroup != ""

/-- `downgradeUserGroupForSubscriptionTx`: the group to fall back to, `none` when the group stays. -/
def SubDB.downgradeTarget (db : SubDB) (now : ℤ) (i : ℕ) (sub : SubRow) : Option String :=
  let downgradeGroup := trimSpace sub.downgradeGroup
  let upgradeGroup := trimSpace sub.upgradeGroup
  let currentGroup := db.groupOf sub.userId
  if downgradeGroup = "" ∧ upgradeGroup = "" then none
  else if db.hasUpgrade now sub.userId (· ≠ i) then none
  else if downgradeGroup = "" ∧ currentGroup ≠ upgradeGroup then none
  else
    let target := if downgradeGroup = "" then trimSpace sub.prevUserGroup else downgradeGroup
    if target = "" ∨ target = currentGroup then none else some target

def SubDB.downgradeUserGroup (db : SubDB) (now : ℤ) (i : ℕ) (sub : SubRow) : SubDB :=
  (db.downgradeTarget now i sub).elim db (db.setGroup sub.userId)

def SubDB.adminInvalidateUserSubscription (now : ℤ) (i : ℕ) (db : SubDB) : Except SubErr SubDB :=
  if i = 0 then .error .invalidUserSubscriptionId
  else match db.subs.row i with
    | none => .error .recordNotFound
    | some sub =>
      let sub' := { sub with status := .cancelled, endTime := now }
      .ok ((db.save i sub').downgradeUserGroup now i sub')

def SubDB.adminDeleteUserSubscription (now : ℤ) (i : ℕ) (db : SubDB) : Except SubErr SubDB :=
  if i = 0 then .error .invalidUserSubscriptionId
  else match db.subs.row i with
    | none => .error .recordNotFound
    | some sub =>
      let db' := db.downgradeUserGroup now i sub
      .ok { db' with subs := db'.subs.set i none }

def SubRow.due (now : ℤ) (sub : SubRow) : Bool :=
  sub.status = .active && decide (0 < sub.endTime) && decide (sub.endTime ≤ now)

def SubRows.expire (t : SubRows) (now : ℤ) (userId : ℕ) : SubRows where
  row := fun i => (t.row i).map fun sub =>
    if sub.userId = userId ∧ sub.due now = true then { sub with status := .expired } else sub
  nextId := t.nextId
  fresh := by
    intro i hi
    rw [t.fresh i hi]
    rfl

/-- The expired row that ends last, of those that say where the group falls back to; the later id at equal
times. -/
def SubDB.lastExpired (db : SubDB) (userId : ℕ) : Option SubRow :=
  ((byEndTime (db.subs.entries.filter fun e => decide (e.2.userId = userId) && e.2.status = .expired &&
    (e.2.downgradeGroup != "" || e.2.upgradeGroup != ""))).getLast?).map (·.2)

def SubDB.expiryTarget (db : SubDB) (userId : ℕ) (lastExpired : SubRow) : Option String :=
  let downgradeGroup := trimSpace lastExpired.downgradeGroup
  let upgradeGroup := trimSpace lastExpired.upgradeGroup
  let prevGroup := trimSpace lastExpired.prevUserGroup
  let currentGroup := db.groupOf userId
  if downgradeGroup = "" ∧ (upgradeGroup = "" ∨ prevGroup = "" ∨ currentGroup ≠ upgradeGroup) then none
  else
    let target := if downgradeGroup = "" then prevGroup else downgradeGroup
    if target = "" ∨ target = currentGroup then none else some target

def SubDB.expireUser (now : ℤ) (db : SubDB) (userId : ℕ) : SubDB :=
  let db' := { db with subs := db.subs.expire now userId }
  if db'.hasUpgrade now userId fun _ => true then db'
  else match db'.lastExpired userId with
    | none => db'
    | some lastExpired => (db'.expiryTarget userId lastExpired).elim db' (db'.setGroup userId)

/-- The users of a Go map in the order in which the loop comes to them: those of `order` first. -/
def inMapOrder (order users : List ℕ) : List ℕ := (order.dedup.filter (· ∈ users)) ++ users.dedup.filter (· ∉ order)

/-- The loop of `ExpireDueSubscriptions`. The transactions of the users in `failing` fail. -/
def SubDB.expireUsers (now : ℤ) (failing : List ℕ) : List ℕ → SubDB → SubDB × Option SubErr
  | [], db => (db, none)
  | userId :: rest, db =>
    if userId ∈ failing then (db, some .db) else (db.expireUser now userId).expireUsers now failing rest

/-- The users that `ExpireDueSubscriptions` comes to: those of the first due rows. -/
def SubDB.usersToExpire (now limit : ℤ) (db : SubDB) : List ℕ :=
  (((byEndTime (db.subs.entries.filter fun e => e.2.due now)).take (effectiveLimit limit)).map
    (·.2.userId)).filter (0 < ·)

def SubDB.expireDueSubscriptions (now limit : ℤ) (order failing : List ℕ) (db : SubDB) : SubDB × Option SubErr :=
  db.expireUsers now failing (inMapOrder order (db.usersToExpire now limit))

inductive SubOp
  | create (userId planId : ℕ) (dbErr : Bool)
  | preConsume (requestId : String) (userId : ℕ) (amount : Int64) (dbErr : Bool)
  | postConsume (id : ℕ) (delta : Int64) (failing : Option DeltaStatement)
  | refund (requestId : String) (failing : Option RefundStatement)
  | refundWithRetry (requestId : String) (first second third : Option RefundStatement)
  | resetDue (limit : ℤ) (failing : List ℕ)
  | adminResetUser (userId planId : ℕ) (advanceResetTime dbErr : Bool)
  | adminResetPlan (planId : ℕ) (advanceResetTime dbErr : Bool)
  | expireDue (limit : ℤ) (order failing : List ℕ)
  | invalidate (id : ℕ) (dbErr : Bool)
  | delete (id : ℕ) (dbErr : Bool)
  deriving DecidableEq

/-- What one transaction leaves: an error, its own or the driver's, rolls it back. -/
def SubDB.after (db : SubDB) (dbErr : Bool) (r : Except SubErr SubDB) : SubDB × Option SubErr :=
  match r with
  | .error e => (db, some e)
  | .ok db' => if dbErr then (db, some .db) else (db', none)

def SubDB.call (w : SubWorld) (now : ℤ) (db : SubDB) : SubOp → SubDB × Option SubErr
  | .create userId planId dbErr => db.after dbErr
      ((w.planById planId).bind fun plan => db.createUserSubscriptionFromPlan w now userId planId plan)
  | .preConsume requestId userId amount dbErr => db.after dbErr
      ((db.preConsumeUserSubscription w now requestId userId amount).map (·.2))
  | .postConsume id delta failing => db.after false (db.postConsumeUserSubscriptionDelta failing id delta)
  | .refund requestId failing => db.refundSubscriptionPreConsume failing requestId
  | .refundWithRetry requestId first second third => db.refundWithRetry requestId first second third
  | .resetDue limit failing => db.resetDueSubscriptions w now limit failing
  | .adminResetUser userId planId advanceResetTime dbErr => db.after dbErr
      ((db.adminResetUserSubscriptionsByPlan w now userId planId advanceResetTime).map (·.2))
  | .adminResetPlan planId advanceResetTime dbErr => db.after dbErr
      ((db.adminResetPlanSubscriptions w now planId advanceResetTime).map (·.2))
  | .expireDue limit order failing => db.expireDueSubscriptions now limit order failing
  | .invalidate id dbErr => db.after dbErr (db.adminInvalidateUserSubscription now id)
  | .delete id dbErr => db.after dbErr (db.adminDeleteUserSubscription now id)

structure SubSystem where
  db : SubDB
  clock : ℤ

structure SubEvent where
  time : ℤ
  op : SubOp
  deriving DecidableEq

def SubSystem.next (w : SubWorld) (s : SubSystem) (ev : SubEvent) : SubSystem :=
  ⟨(s.db.call w ev.time ev.op).1, ev.time⟩

end NewApi
