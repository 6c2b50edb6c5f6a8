import NewApi.Spec.RateLimit
import NewApi.Trace.Window

/-!
# What the two rate limiters count

Both limiters are sliding windows over a log of moments (`windowRun`). The log in memory has every request that was
let through, when it came in (`memory_refines`); the one in Redis has the requests that succeeded, when they were done
(`redis_refines`). So they decide the same if every request succeeds at once (`rate_limits_agree`), and failed
requests use up the limit in memory only (`failed_requests_use_limit`). A limit of zero means no limit to Redis, and
one request to the memory.
-/

namespace NewApi

open Trace List Option Function Window MemoryLimiter

/-- A limiter that lets a request through while fewer than `k` moments of its log are in the window, and records
`counts`. -/
def windowRun (k : ℕ) (d : ℤ) (counts : RateRequest → Option ℤ) : List ℤ → List RateEvent → List RateDecision
  | _, [] => []
  | log, .request r :: es =>
    if k ≤ Window.recent d r.time log then .tooMany :: windowRun k d counts log es
    else .admitted :: windowRun k d counts ((counts r).toList ++ log) es
  | log, .clear _ :: es => windowRun k d counts log es

namespace RateEvent

def time : RateEvent → ℤ
  | .request r => r.time
  | .clear now => now

def finish : RateEvent → ℤ
  | .request r => r.finish
  | .clear now => now

end RateEvent

structure InTurn (events : List RateEvent) : Prop where
  each : ∀ ev ∈ events, ev.time ≤ ev.finish
  order : events.Pairwise fun a b => a.finish ≤ b.time

theorem InTurn.tail {ev : RateEvent} {es : List RateEvent} (h : InTurn (ev :: es)) : InTurn es :=
  ⟨fun a ha => h.each a (mem_cons_of_mem _ ha), (pairwise_cons.1 h.order).2⟩

structure LogFits (now : ℤ) (log : List ℤ) : Prop where
  sorted : log.Pairwise (· ≥ ·)
  past : ∀ e ∈ log, e ≤ now

namespace LogFits

variable {now t : ℤ} {log : List ℤ}

theorem later (h : LogFits now log) (hnow : now ≤ t) : LogFits t log := ⟨h.sorted, fun e he => (h.past e he).trans hnow⟩

theorem push (h : LogFits now log) (hnow : now ≤ t) : LogFits t (t :: log) := by
  refine ⟨pairwise_cons.2 ⟨fun e he => (h.past e he).trans hnow, h.sorted⟩, ?_⟩
  intro e he
  rcases mem_cons.1 he with rfl | he
  · exact le_rfl
  · exact (h.past e he).trans hnow

end LogFits

variable {cfg : RateConfig} {userId key key' : String} {k : ℕ} {d now t : ℤ} {log : List ℤ}

section Memory

variable {l : MemoryLimiter}

structure QueueKeeps (k : ℕ) (d now : ℤ) (key : String) (l : MemoryLimiter) (log : List ℤ) : Prop where
  keeps : Window.Keeps k d now ((l.store key).getD []).reverse log
  nonempty : ∀ queue, l.store key = some queue → queue ≠ []

theorem MemoryLimiter.set_self (queue : List ℤ) : (l.set key queue).store key = some queue := update_self ..

theorem QueueKeeps.of_set {queue : List ℤ} (h : Window.Keeps k d now queue.reverse log) (hne : queue ≠ []) :
    QueueKeeps k d now key (l.set key queue) log := by
  refine ⟨?_, ?_⟩
  · rw [set_self]
    exact h
  intro queue' hqueue
  rw [set_self] at hqueue
  rwa [← some.inj hqueue]

namespace QueueKeeps

variable (h : QueueKeeps k d now key l log)
include h

theorem of_store {l' : MemoryLimiter} (hsame : l'.store key = l.store key) (hnow : now ≤ t) :
    QueueKeeps k d t key l' log :=
  ⟨by rw [hsame]; exact h.keeps.later hnow, by rw [hsame]; exact h.nonempty⟩

theorem request (hk : 1 ≤ k) (hnow : now ≤ t) : (l.request key k d t).1 = !full k d t log ∧
      QueueKeeps k d t key (l.request key k d t).2 (if full k d t log then log else t :: log) := by
  have hfull := h.keeps.full_eq hk hnow
  have hlength := h.keeps.length_le
  have hpush := h.keeps.push hk hnow
  have hroom (hshort : ((l.store key).getD []).length < k) : full k d t log = false ∧
      QueueKeeps k d t key (l.set key ((l.store key).getD [] ++ [t])) (t :: log) := by
    rw [← length_reverse] at hshort
    refine ⟨hfull ▸ full_of_length_lt hshort, .of_set ?_ (by simp)⟩
    rwa [take_of_length_le (by rw [length_cons]; omega), ← reverse_concat] at hpush
  unfold MemoryLimiter.request
  cases hstore : l.store key with
  | none =>
    rw [hstore] at hroom
    obtain ⟨hempty, hset⟩ := hroom hk
    rw [hempty]
    exact ⟨rfl, hset⟩
  | some queue =>
    rw [hstore] at hroom hfull hlength hpush
    simp only [getD_some] at hroom hfull hlength hpush ⊢
    by_cases hshort : queue.length < k
    · obtain ⟨hempty, hset⟩ := hroom hshort
      rw [if_pos hshort, hempty]
      exact ⟨rfl, hset⟩
    rw [if_neg hshort]
    cases queue with
    | nil => exact absurd rfl (h.nonempty [] hstore)
    | cons oldest rest =>
      -- the queue has `k` moments, and the oldest of them decides
      have hk' : (oldest :: rest).reverse.length = k := hlength.antisymm (by simpa using hshort)
      have hoverdue : full k d t log = decide (t - oldest < d) := by
        rw [← hfull]
        exact full_of_length_eq hk' (by simp)
      simp only
      by_cases hwithin : t - oldest < d
      · rw [if_neg (by omega), hoverdue, decide_eq_true hwithin]
        exact ⟨rfl, h.of_store rfl hnow⟩
      rw [if_pos (by omega), hoverdue, decide_eq_false hwithin]
      refine ⟨rfl, .of_set ?_ (by simp)⟩
      rwa [reverse_cons, ← cons_append, take_left' (by simpa using hk'), ← reverse_concat] at hpush

theorem other (hne : key ≠ key') (n : ℕ) (d' t' : ℤ) (hnow : now ≤ t) :
    QueueKeeps k d t key (l.request key' n d' t').2 log := by
  refine h.of_store ?_ hnow
  unfold MemoryLimiter.request
  split
  · exact update_of_ne hne _ _
  split
  · exact update_of_ne hne _ _
  split
  · split
    · exact update_of_ne hne _ _
    · rfl
  · rfl

theorem clear {expiration : ℤ} (hlog : LogFits now log) (hexpiration : d ≤ expiration) (hnow : now ≤ t) :
    QueueKeeps k d t key (l.clearExpiredItems expiration t) log := by
  cases hafter : (l.clearExpiredItems expiration t).store key with
  | some queue =>
    obtain ⟨hstore, -⟩ := filter_eq_some_iff.1 hafter
    exact h.of_store (hafter.trans hstore.symm) hnow
  | none =>
    refine ⟨?_, by rw [hafter]; nofun⟩
    rw [hafter]
    refine h.keeps.clear hnow ?_
    cases hstore : l.store key with
    | none => nofun
    | some queue =>
      have hold : (queue.getLast?.any fun newest => decide (t - newest ≤ expiration)) = false := by
        simpa [clearExpiredItems, hstore] using hafter
      -- the newest moment of the queue is out of the window, and so are the older ones
      obtain ⟨rest, hrest⟩ := h.keeps.isPrefix
      rw [hstore, getD_some] at hrest
      have hsorted : queue.reverse.Pairwise (· ≥ ·) := by
        have htake := hlog.sorted.sublist (take_sublist k log)
        rw [← hrest] at htake
        exact (pairwise_append.1 htake).1
      rw [getD_some]
      rw [← head?_reverse] at hold
      cases hreverse : queue.reverse with
      | nil => nofun
      | cons newest =>
        rw [hreverse] at hold hsorted
        rw [head?_cons, any_some, decide_eq_false_iff_not] at hold
        intro e he
        rcases mem_cons.1 he with rfl | he
        · omega
        · have holder := (pairwise_cons.1 hsorted).1 e he
          omega

end QueueKeeps

def countFrom (d t : ℤ) (log : List ℤ) : ℕ := log.countP fun e => decide (t ≤ e ∧ e < t + d)

theorem countFrom_push (hbound : countFrom d t log ≤ k) (hrecent : Window.recent d now log < k) :
    countFrom d t (now :: log) ≤ k := by
  unfold countFrom at hbound ⊢
  rw [countP_cons]
  split_ifs with hin
  · simp only [decide_eq_true_eq] at hin
    -- what is in the seconds from `t` on is then in the window that ends now
    have hle : log.countP (fun e => decide (t ≤ e ∧ e < t + d)) ≤ Window.recent d now log := by
      refine countP_mono_left fun e _ he => ?_
      simp only [decide_eq_true_eq] at he ⊢
      omega
    omega
  · exact hbound

theorem accepted_countFrom {expiration : Option ℤ} {events : List LimiterEvent} (hk : 1 ≤ k)
    (hexpiration : ∀ e, expiration = some e → d ≤ e)
    (huse : ∀ n d' t', .request key n d' t' ∈ events → n = k ∧ d' = d)
    (htimes : events.Pairwise (·.time ≤ ·.time)) (hnow : ∀ ev ∈ events, now ≤ ev.time)
    (hkeeps : QueueKeeps k d now key l log) (hlog : LogFits now log) (hbound : ∀ t, countFrom d t log ≤ k) (t : ℤ) :
    countFrom d t (l.accepted expiration key events) + countFrom d t log ≤ k := by
  induction events generalizing now l log with
  | nil => simpa [MemoryLimiter.accepted, countFrom] using hbound t
  | cons ev es ih =>
    have hhere : now ≤ ev.time := hnow ev mem_cons_self
    obtain ⟨hlater, htail⟩ := pairwise_cons.1 htimes
    have huse' := fun n d' t' h => huse n d' t' (mem_cons_of_mem _ h)
    cases ev with
    | clear time =>
      refine ih huse' htail hlater ?_ (hlog.later hhere) hbound
      cases expiration with
      | none => exact hkeeps.of_store rfl hhere
      | some e => exact hkeeps.clear hlog (hexpiration e rfl) hhere
    | request key' n d' time =>
      change now ≤ time at hhere
      simp only [MemoryLimiter.accepted]
      by_cases hkey : key' = key
      · subst hkey
        obtain ⟨rfl, rfl⟩ := huse n d' time mem_cons_self
        obtain ⟨hdecides, hnext⟩ := hkeeps.request hk hhere
        have hcount := full_iff (d := d') (t := time) hk hlog.sorted
        cases hfull : full n d' time log with
        | true =>
          rw [hfull] at hdecides hnext
          simpa [hdecides] using ih huse' htail hlater hnext (hlog.later hhere) hbound
        | false =>
          rw [hfull] at hdecides hnext hcount
          have hrecent : Window.recent d' time log < n := by simpa using hcount
          have hpushed := ih huse' htail hlater hnext (hlog.push hhere) fun t => countFrom_push (hbound t) hrecent
          simp only [Bool.false_eq_true, if_false, countFrom, countP_cons] at hpushed
          simp only [hdecides, Bool.not_false, and_self, if_true, countFrom, countP_cons]
          omega
      · simp only [hkey, false_and, if_false]
        exact ih huse' htail hlater (hkeeps.other (Ne.symm hkey) n d' time hhere) (hlog.later hhere) hbound

/-- **The limiter keeps its window**, unless its queues are cleared earlier than that. -/
theorem limiter_window_kept (key : String) (k : ℕ) (d : ℤ) (expiration : Option ℤ) (events : List LimiterEvent)
    (hk : 1 ≤ k) (huse : ∀ n d' t', .request key n d' t' ∈ events → n = k ∧ d' = d)
    (htimes : events.Pairwise (·.time ≤ ·.time)) (hexpiration : ∀ e, expiration = some e → d ≤ e) (t : ℤ) :
    countFrom d t (MemoryLimiter.empty.accepted expiration key events) ≤ k := by
  cases events with
  | nil => exact Nat.zero_le _
  | cons ev es =>
    have hnow : ∀ ev' ∈ ev :: es, ev.time ≤ ev'.time := by
      intro ev' hev'
      rcases mem_cons.1 hev' with rfl | hev'
      · exact le_rfl
      · exact (pairwise_cons.1 htimes).1 ev' hev'
    have hqueue : QueueKeeps k d ev.time key .empty [] := ⟨.nil _ _ _, nofun⟩
    exact accepted_countFrom hk hexpiration huse htimes hnow hqueue ⟨.nil, nofun⟩ (fun _ => Nat.zero_le _) t

theorem limiter_window_kept_two : countFrom 60 0 (MemoryLimiter.empty.accepted (some 60) "a"
    [.request "a" 1 60 0, .clear 50, .request "a" 1 60 55]) ≤ 1 :=
  limiter_window_kept _ _ _ _ _ le_rfl (by simp; omega) (by decide) (by simp) 0

/-- Two requests in 100 seconds: the queue of the first is cleared after 10. -/
theorem cleared_queue_forgets : countFrom 100 0 (MemoryLimiter.empty.accepted (some 10) "a"
    [.request "a" 1 100 0, .clear 50, .request "a" 1 100 60]) = 2 := by
  decide

theorem checkKey_ne : checkKey userId ≠ successKey userId := by
  intro heq
  have hlength := congrArg String.length heq
  simp [checkKey, String.length_append] at hlength

theorem memoryRateLimitHandler_eq (htotal : cfg.totalMaxCount = 0) (r : RateRequest) :
    let next := (l.request (checkKey userId) cfg.successMaxCount cfg.duration r.time).2
    memoryRateLimitHandler cfg userId r l =
      if (l.request (checkKey userId) cfg.successMaxCount cfg.duration r.time).1 then
        (.admitted,
          if r.status < 400 then (next.request (successKey userId) cfg.successMaxCount cfg.duration r.finish).2
          else next)
      else (.tooMany, next) := by
  have hnot : ¬ 0 < cfg.totalMaxCount := by omega
  simp only [memoryRateLimitHandler, if_neg hnot, memorySuccessLimit]
  split <;> rename_i hrequest <;> rw [hrequest] <;> rfl

theorem memory_refines {events : List RateEvent} (hmax : 1 ≤ cfg.successMaxCount) (htotal : cfg.totalMaxCount = 0)
    (hexpiration : cfg.duration ≤ cfg.expiration)
    (hkeeps : QueueKeeps cfg.successMaxCount cfg.duration now (checkKey userId) l log) (hlog : LogFits now log)
    (hturn : InTurn events) (hnow : ∀ ev ∈ events, now ≤ ev.time) :
    memoryRun cfg userId l events = windowRun cfg.successMaxCount cfg.duration (fun r => some r.time) log events := by
  induction events generalizing now l log with
  | nil => rfl
  | cons ev es ih =>
    have hhere : now ≤ ev.time := hnow ev mem_cons_self
    have hlater : ∀ ev' ∈ es, ev.time ≤ ev'.time := by
      intro ev' hev'
      exact (hturn.each ev mem_cons_self).trans ((pairwise_cons.1 hturn.order).1 ev' hev')
    cases ev with
    | clear => exact ih (hkeeps.clear hlog hexpiration hhere) (hlog.later hhere) hturn.tail hlater
    | request r =>
      change now ≤ r.time at hhere
      obtain ⟨hdecides, hnext⟩ := hkeeps.request hmax hhere
      have hcount := full_iff (d := cfg.duration) (t := r.time) hmax hlog.sorted
      simp only [memoryRun, windowRun, memoryRateLimitHandler_eq htotal, hdecides, ← hcount]
      cases hfull : full cfg.successMaxCount cfg.duration r.time log with
      | true =>
        rw [hfull] at hnext
        simp only [Bool.not_true, Bool.false_eq_true, if_false, if_true]
        rw [ih hnext (hlog.later hhere) hturn.tail hlater]
        rfl
      | false =>
        rw [hfull] at hnext
        simp only [Bool.not_false, Bool.false_eq_true, if_false, if_true]
        have hrecorded := hlog.push hhere
        split
        · rw [ih (hnext.other checkKey_ne _ _ _ le_rfl) hrecorded hturn.tail hlater]
          rfl
        · rw [ih hnext hrecorded hturn.tail hlater]
          rfl

end Memory

section Redis

variable {rdb : RedisLimiter}

structure ListKeeps (cfg : RateConfig) (k : ℕ) (now : ℤ) (key : String) (rdb : RedisLimiter) (log : List ℤ) :
    Prop where
  keeps : Window.Keeps k cfg.duration now ((rdb.lists key).elim [] RedisList.entries) log
  expires : ∀ list, rdb.lists key = some list → ∀ e ∈ list.entries, e + cfg.expiration ≤ list.expireAt

section

variable (h : ListKeeps cfg k now key rdb log)
include h

section

variable (hexpiration : cfg.duration ≤ cfg.expiration)
include hexpiration

theorem ListKeeps.entries  (hnow : now ≤ t) : Window.Keeps k cfg.duration t (rdb.entries key t) log := by
  have hkeeps := h.keeps
  unfold RedisLimiter.entries
  cases hlist : rdb.lists key with
  | none =>
    rw [hlist] at hkeeps
    exact hkeeps.later hnow
  | some list =>
    rw [hlist] at hkeeps
    simp only [elim_some] at hkeeps ⊢
    split
    · apply hkeeps.clear hnow
      intro e he
      have hexpires := h.expires list hlist e he
      omega
    · exact hkeeps.later hnow

theorem ListKeeps.past  (hnow : now ≤ t) (hlog : LogFits now log) : ∀ e ∈ rdb.entries key t, e ≤ t := by
  intro e he
  have hmem := (h.entries hexpiration hnow).isPrefix.subset he
  exact (hlog.past e (mem_of_mem_take hmem)).trans hnow

end

end

theorem ListKeeps.of_set {entries : List ℤ} (h : Window.Keeps k cfg.duration now entries log)
    (hpast : ∀ e ∈ entries, e ≤ now) : ListKeeps cfg k now key (rdb.set key ⟨entries, now + cfg.expiration⟩) log := by
  have hself : (rdb.set key ⟨entries, now + cfg.expiration⟩).lists key = some ⟨entries, now + cfg.expiration⟩ :=
    update_self ..
  refine ⟨?_, ?_⟩
  · rw [hself]
    exact h
  intro list hlist e he
  rw [hself] at hlist
  cases hlist
  have hle := hpast e he
  simp only
  omega

section

variable (h : ListKeeps cfg k now key rdb log)
include h

theorem ListKeeps.check (hk : 1 ≤ k)
    (hexpiration : cfg.duration ≤ cfg.expiration) (hnow : now ≤ t) (hlog : LogFits now log) :
    (checkRedisRateLimit cfg key k t rdb).1 = some !full k cfg.duration t log ∧
      ListKeeps cfg k t key (checkRedisRateLimit cfg key k t rdb).2 log := by
  have hentries := h.entries hexpiration hnow
  have hfull := hentries.full_eq hk le_rfl
  have hlength := hentries.length_le
  have hsame : ListKeeps cfg k t key rdb log := ⟨h.keeps.later hnow, h.expires⟩
  unfold checkRedisRateLimit
  rw [if_neg (by omega)]
  simp only
  by_cases hshort : (rdb.entries key t).length < k
  · rw [if_pos hshort, ← hfull, full_of_length_lt hshort]
    exact ⟨rfl, hsame⟩
  rw [if_neg hshort]
  cases hlast : (rdb.entries key t).getLast? with
  | none =>
    rw [getLast?_eq_none_iff] at hlast
    rw [hlast, length_nil] at hshort
    omega
  | some oldTime =>
    have hoverdue : full k cfg.duration t log = decide (t - oldTime < cfg.duration) := by
      rw [← hfull]
      exact full_of_length_eq (by omega) hlast
    simp only
    split_ifs with hwithin
    · rw [hoverdue, decide_eq_true hwithin]
      exact ⟨rfl, .of_set hentries (h.past hexpiration hnow hlog)⟩
    · rw [hoverdue, decide_eq_false hwithin]
      exact ⟨rfl, hsame⟩

theorem ListKeeps.record (hk : 1 ≤ k)
    (hexpiration : cfg.duration ≤ cfg.expiration) (hnow : now ≤ t) (hlog : LogFits now log) :
    ListKeeps cfg k t key (recordRedisRequest cfg key k t rdb) (t :: log) := by
  unfold recordRedisRequest
  rw [if_neg (by omega)]
  refine .of_set ((h.entries hexpiration hnow).push hk le_rfl) ?_
  intro e he
  rcases mem_cons.1 (mem_of_mem_take he) with rfl | he
  · exact le_rfl
  · exact h.past hexpiration hnow hlog e he

end

theorem redisRateLimitHandler_eq {allowed : Bool} (htotal : cfg.totalMaxCount = 0) (r : RateRequest)
    (hcheck : (checkRedisRateLimit cfg (redisKey userId) cfg.successMaxCount r.time rdb).1 = some allowed) :
    let next := (checkRedisRateLimit cfg (redisKey userId) cfg.successMaxCount r.time rdb).2
    redisRateLimitHandler cfg userId r rdb = if allowed then redisHandle cfg userId r next else (.tooMany, next) := by
  have hnot : ¬ 0 < cfg.totalMaxCount := by omega
  simp only [redisRateLimitHandler, if_neg hnot]
  split <;> rename_i hresult <;> rw [hresult] at hcheck ⊢
  · exact nomatch hcheck
  · rw [← some.inj hcheck]
    rfl
  · rw [← some.inj hcheck]
    rfl

/-- **The limiter in Redis** counts the requests that succeed. -/
theorem redis_refines {events : List RateEvent} (hmax : 1 ≤ cfg.successMaxCount) (htotal : cfg.totalMaxCount = 0)
    (hexpiration : cfg.duration ≤ cfg.expiration)
    (hkeeps : ListKeeps cfg cfg.successMaxCount now (redisKey userId) rdb log) (hlog : LogFits now log)
    (hturn : InTurn events) (hnow : ∀ ev ∈ events, now ≤ ev.time) :
    redisRun cfg userId rdb events =
      windowRun cfg.successMaxCount cfg.duration (fun r => if r.status < 400 then some r.finish else none) log
        events := by
  induction events generalizing now rdb log with
  | nil => rfl
  | cons ev es ih =>
    have hhere : now ≤ ev.time := hnow ev mem_cons_self
    have hwhile : ev.time ≤ ev.finish := hturn.each ev mem_cons_self
    have hlater : ∀ ev' ∈ es, ev.finish ≤ ev'.time := (pairwise_cons.1 hturn.order).1
    cases ev with
    | clear => exact ih ⟨hkeeps.keeps.later hhere, hkeeps.expires⟩ (hlog.later hhere) hturn.tail hlater
    | request r =>
      change now ≤ r.time at hhere
      change r.time ≤ r.finish at hwhile
      obtain ⟨hdecides, hnext⟩ := hkeeps.check hmax hexpiration hhere hlog
      have hcount := full_iff (d := cfg.duration) (t := r.time) hmax hlog.sorted
      have hlog' := hlog.later hhere
      simp only [redisRun, windowRun, redisRateLimitHandler_eq htotal r hdecides, ← hcount]
      cases hfull : full cfg.successMaxCount cfg.duration r.time log with
      | true =>
        simp only [Bool.not_true, Bool.false_eq_true, if_false, if_true]
        rw [ih ⟨hnext.keeps.later hwhile, hnext.expires⟩ (hlog'.later hwhile) hturn.tail hlater]
      | false =>
        simp only [Bool.not_false, Bool.false_eq_true, if_false, if_true, redisHandle]
        split
        · rw [ih (hnext.record hmax hexpiration hwhile hlog') (hlog'.push hwhile) hturn.tail hlater]
          rfl
        · rw [ih ⟨hnext.keeps.later hwhile, hnext.expires⟩ (hlog'.later hwhile) hturn.tail hlater]
          rfl

end Redis

theorem windowRun_congr {counts counts' : RateRequest → Option ℤ} {events : List RateEvent}
    (h : ∀ r, .request r ∈ events → counts r = counts' r) (log : List ℤ) :
    windowRun k d counts log events = windowRun k d counts' log events := by
  induction events generalizing log with
  | nil => rfl
  | cons ev es ih =>
    have htail : ∀ r, .request r ∈ es → counts r = counts' r := fun r hr => h r (mem_cons_of_mem _ hr)
    cases ev with
    | clear => exact ih htail log
    | request r =>
      simp only [windowRun]
      rw [h r mem_cons_self, ih htail, ih htail]

/-- **The two limiters decide the same**, if the limit is at least one and requests succeed in the second in which
they came in. -/
theorem rate_limits_agree {events : List RateEvent} (hmax : 1 ≤ cfg.successMaxCount) (htotal : cfg.totalMaxCount = 0)
    (hexpiration : cfg.duration ≤ cfg.expiration) (hturn : InTurn events)
    (hsucceeds : ∀ r, .request r ∈ events → r.status < 400) (hatOnce : ∀ r, .request r ∈ events → r.finish = r.time) :
    memoryRun cfg userId .empty events = redisRun cfg userId .empty events := by
  cases events with
  | nil => rfl
  | cons ev es =>
    have hnow : ∀ ev' ∈ ev :: es, ev.time ≤ ev'.time := by
      intro ev' hev'
      rcases mem_cons.1 hev' with rfl | hev'
      · exact le_rfl
      · exact (hturn.each ev mem_cons_self).trans ((pairwise_cons.1 hturn.order).1 ev' hev')
    have hlog : LogFits ev.time [] := ⟨.nil, nofun⟩
    have hqueue : QueueKeeps cfg.successMaxCount cfg.duration ev.time (checkKey userId) .empty [] := ⟨.nil _ _ _, nofun⟩
    have hlist : ListKeeps cfg cfg.successMaxCount ev.time (redisKey userId) .empty [] := ⟨.nil _ _ _, nofun⟩
    have hcounts : ∀ r, .request r ∈ ev :: es → some r.time = if r.status < 400 then some r.finish else none := by
      intro r hr
      rw [if_pos (hsucceeds r hr), hatOnce r hr]
    calc memoryRun cfg userId .empty (ev :: es)
        = windowRun cfg.successMaxCount cfg.duration (fun r => some r.time) [] (ev :: es) :=
          memory_refines hmax htotal hexpiration hqueue hlog hturn hnow
      _ = windowRun cfg.successMaxCount cfg.duration (fun r => if r.status < 400 then some r.finish else none) []
            (ev :: es) := windowRun_congr hcounts []
      _ = redisRun cfg userId .empty (ev :: es) := (redis_refines hmax htotal hexpiration hlist hlog hturn hnow).symm

/-- **What each limiter counts**, while nothing is dropped before the window has passed: the one in memory every request
that it lets through, when it comes in, the one in Redis those that succeed, when they are done. -/
theorem limiters_count {events : List RateEvent} (hmax : 1 ≤ cfg.successMaxCount) (htotal : cfg.totalMaxCount = 0)
    (hexpiration : cfg.duration ≤ cfg.expiration) (hturn : InTurn events) (hnow : ∀ ev ∈ events, now ≤ ev.time) :
    memoryRun cfg userId .empty events =
        windowRun cfg.successMaxCount cfg.duration (fun r => some r.time) [] events ∧
      redisRun cfg userId .empty events =
        windowRun cfg.successMaxCount cfg.duration (fun r => if r.status < 400 then some r.finish else none) []
          events :=
  ⟨memory_refines hmax htotal hexpiration ⟨.nil _ _ _, nofun⟩ ⟨.nil, nofun⟩ hturn hnow,
    redis_refines hmax htotal hexpiration ⟨.nil _ _ _, nofun⟩ ⟨.nil, nofun⟩ hturn hnow⟩

def sampleRateRequest (time status : ℤ) : RateEvent := .request ⟨time, time, status, some true⟩

theorem limiters_count_failed :
    let events := [sampleRateRequest 0 500, sampleRateRequest 1 200]
    redisRun ⟨60, 60, 0, 1⟩ "1" .empty events =
      windowRun 1 60 (fun r => if r.status < 400 then some r.finish else none) [] events := by
  intro events
  have hnow : ∀ ev ∈ events, 0 ≤ ev.time := by decide
  exact (limiters_count (by decide) rfl (by decide) ⟨by decide, by decide⟩ hnow).2

theorem rate_limits_agree_two_a_minute :
    let events := [sampleRateRequest 0 200, sampleRateRequest 30 200, sampleRateRequest 59 200, .clear 60,
      sampleRateRequest 60 200, sampleRateRequest 61 200]
    memoryRun ⟨60, 60, 0, 2⟩ "1" .empty events = [.admitted, .admitted, .tooMany, .admitted, .tooMany] ∧
      memoryRun ⟨60, 60, 0, 2⟩ "1" .empty events = redisRun ⟨60, 60, 0, 2⟩ "1" .empty events := by
  refine ⟨by decide +kernel, ?_⟩
  apply rate_limits_agree (by decide) rfl (by decide) ⟨by decide, by decide⟩
  · intro r hr
    simp only [sampleRateRequest, mem_cons, RateEvent.request.injEq, reduceCtorEq, not_mem_nil, or_false,
      false_or] at hr
    rcases hr with rfl | rfl | rfl | rfl | rfl <;> decide
  intro r hr
  simp only [sampleRateRequest, mem_cons, RateEvent.request.injEq, reduceCtorEq, not_mem_nil, or_false, false_or] at hr
  rcases hr with rfl | rfl | rfl | rfl | rfl <;> rfl

/-- A failed request uses up the limit in memory, and a limit of zero is one of one request there. -/
theorem failed_requests_use_limit :
    let failed := [sampleRateRequest 0 500, sampleRateRequest 1 200]
    let unlimited := [sampleRateRequest 0 200, sampleRateRequest 1 200]
    memoryRun ⟨60, 60, 0, 1⟩ "1" .empty failed = [.admitted, .tooMany] ∧
      redisRun ⟨60, 60, 0, 1⟩ "1" .empty failed = [.admitted, .admitted] ∧
      memoryRun ⟨60, 60, 0, 0⟩ "1" .empty unlimited = [.admitted, .tooMany] ∧
      redisRun ⟨60, 60, 0, 0⟩ "1" .empty unlimited = [.admitted, .admitted] := by
  decide +kernel

end NewApi
