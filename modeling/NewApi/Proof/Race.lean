import NewApi.Proof.Refund

/-!
# Interleaved calls on one session

`Settle`, `Reserve` and `Refund` run one at a time under the lock of the session; the goroutine of a refund runs
outside it, one database operation at a time, and any operation may fail (`RaceStep`).

* `session_race`: as long as no refund attempt loses the update of its record, the pre-consumed amount goes back at
  most once, no refund is issued after `funding.Settle` has succeeded, which it does at most once; a failed `Reserve`
  changes nothing.
-/

namespace NewApi

open List

structure Race where
  sess : BillingSession
  st : Store
  jobs : List RefundJob

inductive RaceEvent
  /-- a `Settle`, and whether `funding.Settle` succeeded in it -/
  | settle (committed : Bool)
  | reserve (err : Option Err)
  /-- a `Refund`, and whether it started a goroutine -/
  | refund (issued : Bool)
  /-- an operation of a goroutine, how it failed, and what came back to the pool -/
  | job (phase : RefundPhase) (fault : RefundFault) (back : ℤ)
  deriving DecidableEq

inductive RaceStep (cfg : Config) : Race → RaceEvent → Race → Prop
  | settle {w : Race} {env : Env} {a : ℤ} {s' : BillingSession} {st' : Store} {e : Option Err} :
      w.sess.settle cfg env a w.st = (s', st', e) →
      RaceStep cfg w (.settle (!w.sess.fundingSettled && s'.fundingSettled)) ⟨s', st', w.jobs⟩
  | reserve {w : Race} {env : Env} {x : ℤ} {s' : BillingSession} {st' : Store} {e : Option Err} :
      w.sess.reserve cfg env x w.st = (s', st', e) → RaceStep cfg w (.reserve e) ⟨s', st', w.jobs⟩
  | refund {w : Race} {s' : BillingSession} {job : Option RefundJob} :
      w.sess.refund = (s', job) →
      RaceStep cfg w (.refund job.isSome) ⟨s', w.st, w.jobs ++ job.toList⟩
  | job {w : Race} {before after : List RefundJob} {job job' : RefundJob} {fault : RefundFault}
      {st' : Store} :
      w.jobs = before ++ job :: after →
      job.step cfg fault w.sess.funding w.st = (job', st') →
      RaceStep cfg w
        (.job job.phase fault (st'.level w.sess.funding.account - w.st.level w.sess.funding.account))
        ⟨w.sess, st', before ++ job' :: after⟩

def RaceEvent.givesBack : RaceEvent → Bool
  | .job (.funding _) _ back => decide (back ≠ 0)
  | _ => false

def RaceEvent.commits : RaceEvent → Bool
  | .settle committed => committed
  | _ => false

def RaceEvent.issues : RaceEvent → Bool
  | .refund issued => issued
  | _ => false

/-- No refund attempt loses the update of its record after its delta has been committed. -/
def NotLost (_ : Race) : RaceEvent → Prop
  | .job _ fault _ => fault ≠ .lost
  | _ => True

def SettlesAlone (w : Race) : RaceEvent → Prop
  | .settle _ => ∀ job ∈ w.jobs, job.phase = .done
  | _ => True

variable {cfg : Config} {env : Env} {st st' : Store} {s s' : BillingSession} {w w' : Race} {l : RaceEvent}
  {fault : RefundFault} {f : Funding}

theorem settle_flags {a : ℤ} {e : Option Err} (h : s.settle cfg env a st = (s', st', e)) :
    s'.refunded = s.refunded ∧ (s.fundingSettled = true → s'.fundingSettled = true) := by
  unfold BillingSession.settle at h
  split at h
  · cases h; exact ⟨rfl, id⟩
  dsimp only at h
  split_ifs at h
  · cases h; exact ⟨rfl, id⟩
  · split at h
    · cases h; exact ⟨rfl, id⟩
    · cases h; exact ⟨rfl, fun _ => rfl⟩
  · cases h; exact ⟨rfl, id⟩

theorem syncRelayInfo_flags (s : BillingSession) :
    s.syncRelayInfo.refunded = s.refunded ∧ s.syncRelayInfo.fundingSettled = s.fundingSettled := by
  obtain ⟨info, hsync, -⟩ := syncRelayInfo_eq s
  rw [hsync]
  exact ⟨rfl, rfl⟩

theorem reserve_flags {x : ℤ} {e : Option Err} (h : s.reserve cfg env x st = (s', st', e)) :
    s'.refunded = s.refunded ∧ s'.fundingSettled = s.fundingSettled := by
  obtain ⟨rfl, rfl⟩ | ⟨_, _, _, _, _, _, rfl, _⟩ | ⟨f, _, _, _, _, _, _, _, rfl⟩ := reserve_cases h
  · exact ⟨rfl, rfl⟩
  · exact ⟨rfl, rfl⟩
  · exact syncRelayInfo_flags _

theorem refund_cases {job : Option RefundJob} (h : s.refund = (s', job)) : (s' = s ∧ job = none) ∨
    (s.refunded = false ∧ s.fundingSettled = false ∧ s' = { s with refunded := true } ∧ job = some s.refundJob) := by
  unfold BillingSession.refund at h
  split_ifs at h with hgo
  · cases h; exact .inl ⟨rfl, rfl⟩
  cases h
  unfold BillingSession.needsRefund at hgo
  right
  -- with either flag set the guard would have held
  cases hr : s.refunded <;> cases hf : s.fundingSettled <;> simp [hr, hf] at hgo ⊢

theorem refundSubscriptionPreConsume_err {requestId : String} {sub : SubStore}
    {e : Err} (hf : fault ≠ .lost) (h : (refundSubscriptionPreConsume fault requestId sub).2 = some e) :
    (refundSubscriptionPreConsume fault requestId sub).1 = sub := by
  unfold refundSubscriptionPreConsume at h ⊢
  split_ifs
  · rfl
  · rfl
  split
  · rfl
  -- from here on the record is found, and only the two writes can go wrong
  rename_i hblank hfail _ record hrec
  rw [if_neg hblank, if_neg hfail, hrec] at h
  dsimp only at h
  split
  · rfl
  rename_i hopen
  rw [if_neg hopen] at h
  split_ifs with hpre
  · rw [if_pos hpre, if_neg hf] at h
    cases h
  rw [if_neg hpre] at h
  split
  · rfl
  rename_i st' hpost
  rw [hpost] at h
  dsimp only at h
  rw [if_neg hf] at h
  cases h

theorem attempt_err {r : Except Err Store} {e : Err} (h : (attempt st r).2 = some e) : (attempt st r).1 = st := by
  cases r with
  | ok => cases h
  | error => rfl

theorem fundingRefund_err {e : Err} (hf : fault ≠ .lost)
    (h : (f.refund cfg fault st).2 = some e) : (f.refund cfg fault st).1 = st := by
  unfold Funding.refund at h ⊢
  cases f with
  | subscription f =>
    dsimp only at h ⊢
    split_ifs with hc
    · rfl
    rw [if_neg hc] at h
    rw [refundSubscriptionPreConsume_err hf h]
  | _ =>
    dsimp only at h ⊢
    split_ifs with hc
    · rfl
    rw [if_neg hc] at h
    exact attempt_err h

theorem forall_mem_replace {α : Type} {P : α → Prop} {before after : List α} {x y : α}
    (h : ∀ z ∈ before ++ x :: after, P z) (hy : P y) : ∀ z ∈ before ++ y :: after, P z := by
  intro z hz
  rcases mem_append.1 hz with hb | ha
  · exact h z (mem_append_left _ hb)
  rcases mem_cons.1 ha with rfl | ha
  · exact hy
  · exact h z (mem_append_right _ (mem_cons_of_mem _ ha))

theorem step_past_funding {job job' : RefundJob}
    (h : job.step cfg fault f st = (job', st')) (hp : ∀ n, job.phase ≠ .funding n) :
    ∀ n, job'.phase ≠ .funding n := by
  unfold RefundJob.step at h
  split at h
  · exact absurd ‹_› (hp _)
  · cases h; intro n hn; cases hn
  · cases h; intro n hn; cases hn
  · cases h; exact hp

theorem step_back {job job' : RefundJob} {n : ℕ} {a : Account}
    (h : job.step cfg fault f st = (job', st')) (hphase : job.phase = .funding n)
    (hlost : fault ≠ .lost) (hback : st'.level a - st.level a ≠ 0) : job'.phase = .extra := by
  unfold RefundJob.step at h
  rw [hphase] at h
  cases h
  -- an error would have meant another attempt, but then nothing has moved
  cases herr : (f.refund cfg fault st).2 with
  | none => simp [RefundJob.again]
  | some =>
    rw [fundingRefund_err hlost herr, sub_self] at hback
    exact absurd rfl hback

def RaceInv (w : Race) : Prop := w.jobs.length ≤ 1 ∧ (w.sess.refunded = false → w.jobs = [])

theorem race_inv (hI : RaceInv w) (h : RaceStep cfg w l w') : RaceInv w' := by
  obtain ⟨hlen, hnone⟩ := hI
  cases h with
  | settle hset =>
    refine ⟨hlen, fun hr => hnone ?_⟩
    rw [← (settle_flags hset).1]; exact hr
  | reserve hres =>
    refine ⟨hlen, fun hr => hnone ?_⟩
    rw [← (reserve_flags hres).1]; exact hr
  | refund href =>
    obtain ⟨rfl, rfl⟩ | ⟨hr, -, rfl, rfl⟩ := refund_cases href
    · simpa using ⟨hlen, hnone⟩
    · rw [hnone hr]
      exact ⟨by simp, fun h => by cases h⟩
  | job hjobs =>
    rw [hjobs] at hlen
    refine ⟨by simpa using hlen, fun hr => ?_⟩
    rw [hnone hr] at hjobs
    simp at hjobs

def CanGiveBack (w : Race) : Prop := w.sess.refunded = false ∨ ∃ job ∈ w.jobs, ∃ n, job.phase = .funding n

theorem givesBack_disarms (hI : RaceInv w) (h : RaceStep cfg w l w') (hl : NotLost w l)
    (hback : l.givesBack = true) : CanGiveBack w ∧ ¬ CanGiveBack w' := by
  obtain ⟨hlen, hnone⟩ := hI
  cases h with
  | settle | reserve | refund => cases hback
  | @job before after job job' fault st' hjobs hstep =>
    cases hphase : job.phase with
    | funding n =>
      rw [hphase] at hback hl
      have hlast := step_back hstep hphase hl (by simpa [RaceEvent.givesBack] using hback)
      have hmem : job ∈ w.jobs := by rw [hjobs]; simp
      refine ⟨.inr ⟨job, hmem, n, hphase⟩, ?_⟩
      -- the goroutine is the only one, and it is past the pool
      rw [hjobs] at hlen
      have hbefore : before = [] ∧ after = [] := by
        rw [length_append, length_cons] at hlen
        exact ⟨length_eq_zero_iff.1 (by omega), length_eq_zero_iff.1 (by omega)⟩
      obtain ⟨rfl, rfl⟩ := hbefore
      rintro (hr | ⟨job'', hmem'', m, hm⟩)
      · rw [hnone hr] at hjobs
        simp at hjobs
      simp only [nil_append, mem_singleton] at hmem''
      subst hmem''
      rw [hlast] at hm
      cases hm
    | _ => rw [hphase] at hback; cases hback

section

variable (h : RaceStep cfg w l w')
include h

theorem canGiveBack_stays (hs : ¬ CanGiveBack w) : ¬ CanGiveBack w' := by
  simp only [CanGiveBack, not_or, not_exists, not_and, Bool.not_eq_false] at hs ⊢
  obtain ⟨hr, hjobs⟩ := hs
  cases h with
  | settle hset =>
    refine ⟨?_, hjobs⟩
    dsimp only
    rw [(settle_flags hset).1]; exact hr
  | reserve hres =>
    refine ⟨?_, hjobs⟩
    rw [(reserve_flags hres).1]; exact hr
  | refund href =>
    -- a second `Refund` starts no goroutine
    obtain ⟨rfl, rfl⟩ | ⟨hr', -⟩ := refund_cases href
    · simpa using ⟨hr, hjobs⟩
    · rw [hr] at hr'; cases hr'
  | job heq hstep =>
    rw [heq] at hjobs
    exact ⟨hr, forall_mem_replace hjobs (step_past_funding hstep (hjobs _ (by simp)))⟩

theorem fundingSettled_stays (hs : w.sess.fundingSettled = true) : w'.sess.fundingSettled = true := by
  cases h with
  | settle hset => exact (settle_flags hset).2 hs
  | reserve hres => exact (reserve_flags hres).2.trans hs
  | refund href => obtain ⟨rfl, -⟩ | ⟨-, -, rfl, -⟩ := refund_cases href <;> exact hs
  | job => exact hs

theorem commits_flags (hl : l.commits = true) : w.sess.fundingSettled = false ∧ w'.sess.fundingSettled = true := by
  cases h with
  | settle => simpa [RaceEvent.commits] using hl
  | _ => cases hl

theorem issues_flags (hl : l.issues = true) : w.sess.fundingSettled = false := by
  cases h with
  | refund href =>
    obtain ⟨-, rfl⟩ | ⟨-, hf, -, -⟩ := refund_cases href
    · cases hl
    · exact hf
  | _ => cases hl

end

def Closed (w : Race) : Prop := w.sess.fundingSettled = true ∧ ∀ job ∈ w.jobs, job.phase = .done

theorem closed_stays (h : RaceStep cfg w l w') (hc : Closed w) : Closed w' := by
  refine ⟨fundingSettled_stays h hc.1, ?_⟩
  obtain ⟨hf, hjobs⟩ := hc
  cases h with
  | settle => exact hjobs
  | reserve => exact hjobs
  | refund href =>
    obtain ⟨-, rfl⟩ | ⟨-, hf', -, -⟩ := refund_cases href
    · simpa using hjobs
    · rw [hf] at hf'; cases hf'
  | job heq hstep =>
    rw [heq] at hjobs
    refine forall_mem_replace hjobs ?_
    have hdone := hjobs _ (mem_append_right _ mem_cons_self)
    unfold RefundJob.step at hstep
    rw [hdone] at hstep
    cases hstep
    exact hdone

theorem not_givesBack_of_closed (h : RaceStep cfg w l w') (hl : l.givesBack = true) : ¬ Closed w := by
  rintro ⟨-, hjobs⟩
  cases h with
  | @job before after job job' fault st' heq hstep =>
    have hdone : job.phase = .done := hjobs job (by rw [heq]; simp)
    rw [hdone] at hl
    cases hl
  | _ => cases hl

/-- **Interleaved calls on one session**, from its pre-consume on. -/
theorem session_race {ls : List RaceEvent} (hjobs : w.jobs = [])
    (h : Trace.Run (Trace.within (RaceStep cfg) NotLost) w ls w') :
    -- the pre-consumed amount goes back at most once
    ls.countP RaceEvent.givesBack ≤ 1 ∧
    -- no refund is issued after `funding.Settle` has succeeded
    (∀ as l bs, ls = as ++ l :: bs → l.commits = true → ∀ m ∈ bs, m.issues = false) ∧
    -- `funding.Settle` succeeds at most once
    ls.countP RaceEvent.commits ≤ 1 ∧
    -- a `Reserve` that returns an error leaves everything as it was
    (∀ (s s' : BillingSession) (st st' : Store) (env : Env) (x : ℤ) (err : Err),
      env.rollbackErr = false → s.reserve cfg env x st = (s', st', some err) → s' = s ∧ st' = st) ∧
    -- and nothing goes back after `funding.Settle` has succeeded, if no goroutine was on its way then
    (Trace.Run (Trace.within (RaceStep cfg) SettlesAlone) w ls w' →
      ∀ as l bs, ls = as ++ l :: bs → l.commits = true → ∀ m ∈ bs, m.givesBack = false) := by
  have hI : RaceInv w := ⟨by rw [hjobs]; simp, fun _ => hjobs⟩
  refine ⟨?_, ?_, ?_, ?_, ?_⟩
  · exact Trace.Run.countP_le_one (I := RaceInv) (A := CanGiveBack) (fun _ _ _ hi hst => race_inv hi hst.1)
      (fun _ _ _ hi hst hb => givesBack_disarms hi hst.1 hst.2 hb)
      (fun _ _ _ _ hst hs => canGiveBack_stays hst.1 hs) h hI
  · intro as l bs hls hl
    exact Trace.Run.none_after (K := fun w : Race => w.sess.fundingSettled = true)
      (p := RaceEvent.commits) (q := RaceEvent.issues)
      (fun _ _ _ hst hc => (commits_flags hst hc).2)
      (fun _ _ _ hst hc => fundingSettled_stays hst hc)
      (fun _ _ _ hst hm => by rw [issues_flags hst hm]; decide) h.of_within hls hl
  · exact Trace.Run.countP_le_one (I := fun _ => True)
      (A := fun w : Race => w.sess.fundingSettled = false) (fun _ _ _ _ _ => trivial)
      (fun _ _ _ _ hst hc => ⟨(commits_flags hst hc).1, by rw [(commits_flags hst hc).2]; decide⟩)
      (fun _ _ _ _ hst hs => by rw [fundingSettled_stays hst (by simpa using hs)]; decide) h.of_within trivial
  · intro s s' st st' env x err hroll hres
    exact reserve_err hroll hres
  intro halone as l bs hls hl
  refine Trace.Run.none_after (K := Closed) ?_ (fun _ _ _ hst hc => closed_stays hst.1 hc)
    (fun _ _ _ hst hm => not_givesBack_of_closed hst.1 hm) halone hls hl
  -- a settlement that commits closes the race, for it was made alone
  intro w l w' hst hc
  refine ⟨(commits_flags hst.1 hc).2, ?_⟩
  obtain ⟨hstep, hcond⟩ := hst
  cases hstep with
  | settle => exact hcond
  | _ => cases hc

theorem session_race_wallet :
    ∃ s st w' ls, (newSession sampleInfo 5 .wallet 1000 false).preConsume sampleCfg calmEnv 5 sampleStore =
        (.ok s, st) ∧
      Trace.Run (Trace.within (RaceStep sampleCfg) NotLost) ⟨s, st, []⟩ ls w' ∧
      ls.countP RaceEvent.issues = 1 ∧ ls.countP RaceEvent.givesBack ≤ 1 := by
  obtain ⟨s, st, w', ls, hpre, hrun, hissued⟩ : ∃ s st w' ls,
      (newSession sampleInfo 5 .wallet 1000 false).preConsume sampleCfg calmEnv 5 sampleStore = (.ok s, st) ∧
      Trace.Run (Trace.within (RaceStep sampleCfg) NotLost) ⟨s, st, []⟩ ls w' ∧
      ls.countP RaceEvent.issues = 1 :=
    ⟨_, _, _, _, rfl, .cons ⟨.refund rfl, trivial⟩ (.cons
      ⟨@RaceStep.job sampleCfg _ [] [] _ _ .none _ rfl rfl, by simp [NotLost]⟩ (.nil _)), by decide⟩
  exact ⟨s, st, w', ls, hpre, hrun, hissued, (session_race rfl hrun).1⟩

def sampleSubStore : Store :=
  { sampleStore with sub := ⟨⟨[⟨1, 1, 1000, 50, 0, 100, true, 0, 0⟩], by decide, by decide⟩, fun _ => none⟩ }

def samplePlanEnv : Env :=
  { calmEnv with subEnv := ⟨⟨id, id, id⟩, fun _ => some ⟨"plan", .never, 0⟩, 0⟩ }

/-- A request pre-consumed 5, and its refund overtakes its settlement of 7: the second attempt gives 5 back once more.
-/
theorem refund_goes_back_twice :
    ∃ s st w' bs,
      (newSession sampleInfo 5 .subscription 0 false).preConsume sampleCfg samplePlanEnv 5 sampleSubStore =
        (.ok s, st) ∧
      Trace.Run (RaceStep sampleCfg) ⟨s, st, []⟩ (.refund true :: .settle true :: bs) w' ∧
      bs.countP RaceEvent.givesBack = 2 ∧ w'.st.sub.table.used 1 = 47 := by
  refine ⟨_, _, _, _, rfl, .cons (.refund rfl) (.cons (@RaceStep.settle sampleCfg _ samplePlanEnv 7 _ _ _ rfl) (.cons
    (@RaceStep.job sampleCfg _ [] [] _ _ .lost _ rfl rfl) (.cons
    (@RaceStep.job sampleCfg _ [] [] _ _ .none _ rfl rfl) (.nil _)))), ?_, ?_⟩
  · decide
  · decide

end NewApi
