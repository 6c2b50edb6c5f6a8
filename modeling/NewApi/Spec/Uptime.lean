import Mathlib.Data.Rat.Floor

/-!
# The daily uptime of a model

`web/src/features/pricing/lib/uptime.ts`. Times are in seconds and dates are numbers of days.
-/

namespace NewApi

/-- The days of a time zone: an offset that changes makes a day of 23 or 25 hours. -/
structure LocalCalendar where
  start : ℤ → ℤ
  length : ∀ d, start (d + 1) - start d = 82800 ∨ start (d + 1) - start d = 86400 ∨ start (d + 1) - start d = 90000
  localDateOf : ℤ → ℤ
  start_le : ∀ t, start (localDateOf t) ≤ t
  lt_start : ∀ t, t < start (localDateOf t + 1)

/-- A number that is not finite is `none`. -/
structure UptimeBucket where
  ts : Option ℤ
  (request_count failed_count : Option ℤ := none)
  success_rate : Option ℚ := none

def UptimeBucket.requests (b : UptimeBucket) : ℤ := max 0 (b.request_count.getD 0)

def failedRequests (b : UptimeBucket) : ℤ :=
  if b.requests = 0 then 0
  else match b.failed_count, b.success_rate with
    | some failed, _ => min b.requests (max 0 failed)
    | none, some rate => min b.requests (max 0 ⌊b.requests - min 100 (max 0 rate) / 100 * b.requests + 1 / 2⌋)
    | none, none => 0

/-- The counts of one day -/
structure DayCounts where
  (requests failed slots failingSlots : ℤ := 0)

structure UptimeDayPoint where
  date : ℤ
  uptime_pct : ℚ := 0
  (incidents outage_minutes requests : ℤ := 0)

/-- The bucket is counted on the local date of its time. -/
def addBucket (zone : LocalCalendar) (byDate : ℤ → Option DayCounts) (b : UptimeBucket) : ℤ → Option DayCounts :=
  match b.ts with
  | none => byDate
  | some ts =>
    let key := zone.localDateOf ts
    let current := (byDate key).getD {}
    let failed := failedRequests b
    Function.update byDate key (some ⟨current.requests + b.requests, current.failed + failed, current.slots + 1,
      current.failingSlots + if failed > 0 then 1 else 0⟩)

/-- A day without requests is a point of zeros. -/
def dayPoint (byDate : ℤ → Option DayCounts) (key : ℤ) : UptimeDayPoint :=
  match byDate key with
  | none => ⟨key, 0, 0, 0, 0⟩
  | some value =>
    if value.requests = 0 then ⟨key, 0, 0, 0, 0⟩
    else ⟨key, (value.requests - value.failed) / value.requests * 100, value.failingSlots,
      ⌊(value.failed / value.requests * 24 * 60 + 1 / 2 : ℚ)⌋, value.requests⟩

def buildDailyUptime (zone : LocalCalendar) (buckets : List UptimeBucket) (days now : ℤ) : List UptimeDayPoint :=
  let dayCount := if days > 0 then days.toNat else 30
  let today := zone.start (zone.localDateOf now)
  let byDate := buckets.foldl (addBucket zone) fun _ => none
  (List.range dayCount).reverse.map fun (index : ℕ) => dayPoint byDate (zone.localDateOf (today - index * 86400))

end NewApi
