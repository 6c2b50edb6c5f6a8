import Mathlib.Data.List.Nodup
import NewApi.Spec.Uptime

/-!
# The days of the uptime series

A series steps back from today's midnight by 24 hours, and shows the day in which each step ends
(`daily_uptime_days_iff`). Behind a day of 23 hours it misses that day's midnight and shows the day before
(`short_day_missing`); a day of 25 hours later in the series makes up for it.
-/

namespace NewApi

open List

section Calendar

variable (zone : LocalCalendar)

theorem LocalCalendar.start_lt_iff {a b : ℤ} : zone.start a < zone.start b ↔ a < b :=
  (strictMono_int_of_lt_succ fun d => by have := zone.length d; omega).lt_iff_lt

theorem LocalCalendar.localDateOf_eq_iff {d t : ℤ} :
    zone.localDateOf t = d ↔ zone.start d ≤ t ∧ t < zone.start (d + 1) := by
  constructor
  · rintro rfl
    exact ⟨zone.start_le t, zone.lt_start t⟩
  · rintro ⟨hle, hlt⟩
    have hlow := zone.start_lt_iff.1 (hle.trans_lt (zone.lt_start t))
    have hhigh := zone.start_lt_iff.1 ((zone.start_le t).trans_lt hlt)
    omega

end Calendar

/-- The requests of the buckets on a date -/
def requestsOn (zone : LocalCalendar) (buckets : List UptimeBucket) (date : ℤ) : ℤ :=
  ((buckets.filter fun b => b.ts.map zone.localDateOf = some date).map UptimeBucket.requests).sum

theorem foldl_addBucket (zone : LocalCalendar) (buckets : List UptimeBucket) (byDate : ℤ → Option DayCounts)
    (date : ℤ) : ((buckets.foldl (addBucket zone) byDate date).getD {}).requests =
      ((byDate date).getD {}).requests + requestsOn zone buckets date := by
  induction buckets generalizing byDate with
  | nil => simp [requestsOn]
  | cons b rest ih =>
    rw [foldl_cons, ih]
    cases hts : b.ts with
    | none => simp [addBucket, requestsOn, hts]
    | some ts =>
      by_cases hdate : zone.localDateOf ts = date
      · simp [addBucket, requestsOn, hts, hdate, add_assoc]
      · simp [addBucket, requestsOn, hts, hdate, Function.update_of_ne (Ne.symm hdate)]

theorem dayPoint_date (byDate : ℤ → Option DayCounts) (key : ℤ) : (dayPoint byDate key).date = key := by
  rw [dayPoint]
  split
  · rfl
  · split <;> rfl

theorem dayPoint_requests (byDate : ℤ → Option DayCounts) (key : ℤ) :
    (dayPoint byDate key).requests = ((byDate key).getD {}).requests := by
  rw [dayPoint]
  split <;> rename_i hvalue
  · simp [hvalue]
  · split <;> simp_all

theorem buildDailyUptime_dates (zone : LocalCalendar) (buckets : List UptimeBucket) {n : ℕ} (now : ℤ) (hn : 1 ≤ n) :
    (buildDailyUptime zone buckets n now).map UptimeDayPoint.date = (range n).reverse.map fun index : ℕ =>
      zone.localDateOf (zone.start (zone.localDateOf now) - index * 86400) := by
  rw [buildDailyUptime, if_pos (by omega), Int.toNat_natCast, map_map]
  exact map_congr_left fun index _ => dayPoint_date _ _

/-- **The series shows every day once**, with the requests of that day, exactly if each step back of 24 hours from
today's midnight ends in the day before that of the last step. -/
theorem daily_uptime_days_iff (zone : LocalCalendar) (buckets : List UptimeBucket) (n : ℕ) (now : ℤ) (hn : 1 ≤ n) :
    ((buildDailyUptime zone buckets n now).map UptimeDayPoint.date =
        (range n).reverse.map (fun index : ℕ => zone.localDateOf now - index) ∧
      ((buildDailyUptime zone buckets n now).map UptimeDayPoint.date).Nodup ∧
      ∀ p ∈ buildDailyUptime zone buckets n now, p.requests = requestsOn zone buckets p.date) ↔
    ∀ index : ℕ, index < n → zone.start (zone.localDateOf now - index) ≤
        zone.start (zone.localDateOf now) - index * 86400 ∧
      zone.start (zone.localDateOf now) - index * 86400 < zone.start (zone.localDateOf now - index + 1) := by
  have hdates : (buildDailyUptime zone buckets n now).map UptimeDayPoint.date =
        (range n).reverse.map (fun index : ℕ => zone.localDateOf now - index) ↔
      ∀ index : ℕ, index < n → zone.start (zone.localDateOf now - index) ≤
          zone.start (zone.localDateOf now) - index * 86400 ∧
        zone.start (zone.localDateOf now) - index * 86400 < zone.start (zone.localDateOf now - index + 1) := by
    rw [buildDailyUptime_dates zone buckets now hn, map_inj_left]
    simp only [mem_reverse, mem_range, zone.localDateOf_eq_iff]
  rw [← hdates]
  refine ⟨And.left, fun h => ⟨h, ?_, fun p hp => ?_⟩⟩
  · rw [h]
    exact (nodup_reverse.2 nodup_range).map fun i j hij => by omega
  · obtain ⟨index, -, rfl⟩ := mem_map.1 hp
    rw [dayPoint_requests, dayPoint_date, foldl_addBucket]
    simp

/-- Day 0 has 23 hours. -/
def springForward : LocalCalendar where
  start d := if d ≤ 0 then d * 86400 else d * 86400 - 3600
  length d := by split_ifs <;> omega
  localDateOf t := if t < 82800 then t / 86400 else (t + 3600) / 86400
  start_le t := by split_ifs <;> omega
  lt_start t := by split_ifs <;> omega

/-- Two days later the short day is not among the two days shown. -/
theorem daily_uptime_days_later :
    (buildDailyUptime springForward [⟨some 90000, some 5, none, none⟩] 2 200000).map UptimeDayPoint.date = [1, 2] :=
  ((daily_uptime_days_iff springForward _ 2 200000 (by decide)).2 (by decide +kernel)).1

/-- On the day after, the series of two days shows the day before yesterday, and yesterday's requests are nowhere. -/
theorem short_day_missing :
    (buildDailyUptime springForward [⟨some 3600, some 5, none, none⟩] 2 86400).map (fun p => (p.date, p.requests)) =
      [(-1, 0), (1, 0)] ∧ springForward.localDateOf 3600 = 0 := by
  decide +kernel

end NewApi
