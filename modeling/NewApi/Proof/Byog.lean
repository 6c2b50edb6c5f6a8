import NewApi.Spec.Byog
import Mathlib.Algebra.Order.BigOperators.Group.Finset
import Mathlib.Algebra.Order.BigOperators.Group.List

/-!
# What claims take and give back

* `wallet_kept_iff`: a rejected claim is counted no more, and on top of that its tokens go to the wallet, which the
  claim never touched. The wallet is the same after a sequence of requests exactly if none of them rejects a claim of
  the user that burned tokens.
* `rewards_not_oversold`: stock and tokens are checked on values that were read before, so the bounds hold for claims
  that stay apart.
-/

namespace NewApi

open Trace RewardDB Function List

variable {db db' : RewardDB} {userId rewardId : ℕ}

theorem foldl_if_add {α : Type} (p : α → Prop) [DecidablePred p] (f : α → ℤ) (l : List α) (a : ℤ) :
    l.foldl (fun total x => if p x then total + f x else total) a = a + ((l.filter (p ·)).map f).sum := by
  induction l generalizing a with
  | nil => simp
  | cons x l ih =>
    rw [foldl_cons, ih, filter_cons]
    by_cases hx : p x
    · simp only [hx, if_true, decide_true, map_cons, sum_cons]
      omega
    · simp [hx]

theorem RewardDB.burned_eq (userId : ℕ) (db : RewardDB) : db.burned userId =
    ((db.claims.filter fun c => c.userId = userId ∧ c.status ≠ .rejected).map (·.tokensBurned)).sum := by
  unfold burned
  rw [foldl_if_add, zero_add]

theorem RewardDB.burned_createClaim (reward : RewardItem) (now : ℤ) (claimant rewardId : ℕ) (db : RewardDB) :
    (db.createClaim (reward.claim now claimant rewardId)).burned userId =
      db.burned userId + if claimant = userId then reward.requiredTokens else 0 := by
  rw [burned_eq, burned_eq]
  simp only [createClaim, filter_append, map_append, sum_append]
  by_cases huser : claimant = userId <;> simp [RewardItem.claim, huser]

/-- What the call puts into the wallet of the user -/
def RewardDB.refundOf (userId : ℕ) (db : RewardDB) : RewardCall → ℤ
  | .reject _ id => ((db.claimById id).filter (·.userId = userId)).elim 0 fun claim => max claim.tokensBurned 0
  | _ => 0

theorem RewardDB.refundOf_nonneg (userId : ℕ) (db : RewardDB) (c : RewardCall) : 0 ≤ db.refundOf userId c := by
  cases c with
  | claim | approve => exact le_rfl
  | reject now id =>
    simp only [refundOf]
    cases (db.claimById id).filter (·.userId = userId) with
    | none => exact le_rfl
    | some => exact le_max_right _ _

theorem RewardDB.increaseUserQuota_quota (userId payee : ℕ) (quota : ℤ) (db : RewardDB) :
    (db.increaseUserQuota payee quota).quota userId =
      (db.quota userId).map (· + if payee = userId then max quota 0 else 0) := by
  unfold increaseUserQuota
  by_cases hneg : quota < 0
  · rw [if_pos hneg, max_eq_right hneg.le]
    simp
  rw [if_neg hneg, max_eq_left (not_lt.1 hneg)]
  by_cases huser : payee = userId
  · subst huser
    simp
  · simp [huser, update_of_ne (Ne.symm huser)]

theorem RewardDB.next_keeps (userId : ℕ) (db : RewardDB) (c : RewardCall) :
    (db.next c).nodes = db.nodes ∧ (db.next c).quota userId = (db.quota userId).map (· + db.refundOf userId c) := by
  cases c with
  | claim now claimant rewardId =>
    simp only [next, call, claimUserReward, refundOf]
    cases db.readReward rewardId with
    | error => simp
    | ok reward =>
      simp only
      by_cases hshort : db.processed claimant - db.burned claimant < reward.requiredTokens
      · simp [hshort]
      · simp [hshort, createClaim, saveReward]
  | approve now id =>
    simp only [next, call, approveByogAdminClaim, refundOf]
    cases db.claimById id with
    | none => simp
    | some => simp [setStatus]
  | reject now id =>
    simp only [next, call, rejectByogAdminClaim, refundOf]
    cases db.claimById id with
    | none => simp
    | some claim =>
      simp only
      constructor
      · unfold increaseUserQuota
        split
        · rfl
        · rfl
      rw [increaseUserQuota_quota]
      by_cases huser : claim.userId = userId
      · simp [huser, setStatus, Option.filter]
      · simp [huser, setStatus, Option.filter]

theorem refunds_add_up {q : ℤ} {ms : List (RewardDB × RewardCall × RewardDB)} (hq : db.quota userId = some q)
    (hrun : Run (moves fun db c db' => db' = db.next c) db ms db') :
    db'.nodes = db.nodes ∧ db'.quota userId = some (q + (ms.map fun mv => mv.1.refundOf userId mv.2.1).sum) := by
  induction hrun generalizing q with
  | nil => simp [hq]
  | @cons db db1 db2 mv ms hst _ ih =>
    obtain ⟨hs, hstep, -⟩ := hst
    obtain ⟨hnodes, hquota⟩ := next_keeps userId db mv.2.1
    rw [← show db1 = db.next mv.2.1 from hstep] at hnodes hquota
    rw [hq] at hquota
    obtain ⟨hnodes', hquota'⟩ := ih hquota
    refine ⟨hnodes'.trans hnodes, ?_⟩
    rw [hquota', map_cons, sum_cons, hs]
    simp only [Option.some.injEq]
    omega

/-- **A rejected claim gives back too much**, unless it burned nothing. -/
theorem wallet_kept_iff {q : ℤ} {ms : List (RewardDB × RewardCall × RewardDB)} (huser : userId ≠ 0)
    (hq : db.quota userId = some q) (hrun : Run (moves fun db c db' => db' = db.next c) db ms db') :
    (db'.quota userId = db.quota userId ↔ ∀ mv ∈ ms, mv.1.refundOf userId mv.2.1 = 0) ∧
    db'.getUserAvailableTokens userId = max (db.processed userId -
      ((db'.claims.filter fun c => c.userId = userId ∧ c.status ≠ .rejected).map (·.tokensBurned)).sum) 0 := by
  obtain ⟨hnodes, hquota⟩ := refunds_add_up hq hrun
  constructor
  · rw [hquota, hq, Option.some.injEq]
    have hnonneg : ∀ x ∈ ms.map fun mv => mv.1.refundOf userId mv.2.1, 0 ≤ x := by
      intro x hx
      obtain ⟨mv, -, rfl⟩ := mem_map.1 hx
      exact refundOf_nonneg ..
    constructor
    · intro hsame mv hmv
      have hsum : (ms.map fun mv => mv.1.refundOf userId mv.2.1).sum = 0 := by omega
      exact all_zero_of_le_zero_le_of_sum_eq_zero hnonneg hsum (mem_map_of_mem hmv)
    intro hnone
    have hsum : (ms.map fun mv => mv.1.refundOf userId mv.2.1).sum = 0 := by
      apply sum_eq_zero
      intro x hx
      obtain ⟨mv, hmv, rfl⟩ := mem_map.1 hx
      exact hnone mv hmv
    omega
  · have hprocessed : db'.processed userId = db.processed userId := by
      unfold processed
      rw [hnodes]
    unfold getUserAvailableTokens
    rw [if_neg huser, burned_eq, hprocessed]
    simp only
    split_ifs with hneg
    · exact (max_eq_right hneg.le).symm
    · exact (max_eq_left (not_lt.1 hneg)).symm

def sampleRewards (stock : ℤ) : RewardDB where
  items rewardId := if rewardId = 1 then some ⟨"cup", 10, stock, true⟩ else none
  claims := []
  nodes := [⟨1, 10⟩]
  quota userId := if userId = 1 then some 100 else none

theorem wallet_kept_iff_approved :
    let calls : List RewardCall := [.claim 5 1 1, .approve 6 1, .reject 7 2]
    let db' := calls.foldl RewardDB.next (sampleRewards 3)
    db'.quota 1 = (sampleRewards 3).quota 1 ∧ db'.getUserAvailableTokens 1 = 0 := by
  intro calls db'
  have h := wallet_kept_iff (by decide : 1 ≠ 0) rfl (Run.trail next (sampleRewards 3) calls)
  exact ⟨h.1.2 (by decide +kernel), h.2.trans (by decide +kernel)⟩

/-- A claim of ten tokens that is rejected twice: the tokens are free again, and the wallet has twenty more. -/
theorem rejected_claim_credited :
    let calls : List RewardCall := [.claim 5 1 1, .reject 6 1, .reject 7 1]
    let db' := calls.foldl RewardDB.next (sampleRewards 3)
    (sampleRewards 3).quota 1 = some 100 ∧ db'.quota 1 = some 120 ∧ db'.getUserAvailableTokens 1 = 10 := by
  decide +kernel

section Claims

variable {ι : Type} [DecidableEq ι] {c : ClaimCalls ι} {i j : ι} {e : ClaimEnv} {p p' : ClaimPhase}

/-- What a statement of a claim does when the driver does not fail -/
inductive ClaimStep (c : ClaimCalls ι) (i : ι) (e : ClaimEnv) (db : RewardDB) :
    ClaimPhase → ClaimPhase → RewardDB → Prop
  | refused {p err} : ClaimStep c i e db p (.done (.error err)) db
  | read {reward} (hread : db.readReward (c.rewardIds i) = .ok reward) :
      ClaimStep c i e db .idle (.read reward) db
  | summed {reward} :
      ClaimStep c i e db (.read reward) (.summed reward (db.processed (c.userIds i))) db
  | checked {reward total}
      (henough : reward.requiredTokens ≤ total - db.burned (c.userIds i)) :
      ClaimStep c i e db (.summed reward total) (.checked reward) db
  | saved {reward} :
      ClaimStep c i e db (.checked reward) (.saved reward) (db.saveReward (c.rewardIds i) reward)
  | ticketed {reward} : ClaimStep c i e db (.saved reward) (.ticketed reward) db
  | messaged {reward} : ClaimStep c i e db (.ticketed reward) (.messaged reward) db
  | created {reward} : ClaimStep c i e db (.messaged reward) (.done (.ok ()))
      (db.createClaim (reward.claim e.now (c.userIds i) (c.rewardIds i)))

omit [DecidableEq ι] in
theorem claimStmt_step (herr : e.dbErr = false) (h : claimStmt c i e p db = some (p', db')) :
    ClaimStep c i e db p p' db' := by
  unfold claimStmt at h
  simp only [herr, Bool.false_eq_true, if_false] at h
  split at h
  · split at h <;> cases h
    · exact .refused
    · exact .read ‹_›
  · cases h
    exact .summed
  · split at h <;> cases h
    · exact .refused
    · exact .checked (not_lt.1 ‹_›)
  · cases h
    exact .saved
  · cases h
    exact .ticketed
  · cases h
    exact .messaged
  · cases h
    exact .created
  · cases h

def ClaimPhase.holdsReward : ClaimPhase → Bool
  | .read _ | .summed _ _ | .checked _ => true
  | _ => false

def ClaimPhase.countsTokens : ClaimPhase → Bool
  | .checked _ | .saved _ | .ticketed _ | .messaged _ => true
  | _ => false

def ClaimPhase.underway : ClaimPhase → Bool
  | .saved _ | .ticketed _ | .messaged _ => true
  | _ => false

def ClaimPhase.saves : ClaimPhase → Bool
  | .checked _ => true
  | _ => false

def ClaimPhase.creates : ClaimPhase → Bool
  | .messaged _ => true
  | _ => false

/-- **Claims stay apart.** No reward is saved that another claim has read, a user makes one claim at a time, and the
driver does not fail. -/
def ClaimsApart (c : ClaimCalls ι) (s : Shared ι ClaimPhase RewardDB) : SharedEvent ι ClaimEnv Empty → Prop
  | .call i e => e.dbErr = false ∧
      ((s.phase i).saves = true → ∀ j, j ≠ i → c.rewardIds j = c.rewardIds i → (s.phase j).holdsReward = false) ∧
      ((s.phase i).creates = true → ∀ j, j ≠ i → c.userIds j = c.userIds i → (s.phase j).countsTokens = false)
  | .env _ => True

instance [Fintype ι] (s : Shared ι ClaimPhase RewardDB) (ev : SharedEvent ι ClaimEnv Empty) :
    Decidable (ClaimsApart c s ev) := by
  cases ev with
  | call => unfold ClaimsApart; infer_instance
  | env => exact .isTrue trivial

/-- The reward that was read is the stored one, and in stock. -/
def RewardCurrent (c : ClaimCalls ι) (i : ι) (db : RewardDB) (reward : RewardItem) : Prop :=
  db.items (c.rewardIds i) = some reward ∧ 0 < reward.stock

/-- The tokens of the user still cover the reward. -/
def TokensLeft (c : ClaimCalls ι) (i : ι) (db : RewardDB) (reward : RewardItem) : Prop :=
  reward.requiredTokens ≤ db.processed (c.userIds i) - db.burned (c.userIds i)

/-- What a claim has read and checked still holds. -/
def ClaimFits (c : ClaimCalls ι) (i : ι) (db : RewardDB) : ClaimPhase → Prop
  | .idle => True
  | .read reward => RewardCurrent c i db reward
  | .summed reward total => RewardCurrent c i db reward ∧ total = db.processed (c.userIds i)
  | .checked reward => RewardCurrent c i db reward ∧ TokensLeft c i db reward
  | .saved reward => TokensLeft c i db reward
  | .ticketed reward => TokensLeft c i db reward
  | .messaged reward => TokensLeft c i db reward
  | .done _ => True

omit [DecidableEq ι] in
theorem ClaimFits.mono (hnodes : db'.processed (c.userIds i) = db.processed (c.userIds i))
    (hitems : p.holdsReward = true → db'.items (c.rewardIds i) = db.items (c.rewardIds i))
    (hburned : p.countsTokens = true → db'.burned (c.userIds i) = db.burned (c.userIds i))
    (h : ClaimFits c i db p) : ClaimFits c i db' p := by
  cases p with
  | idle => trivial
  | read => exact ⟨(hitems rfl).trans h.1, h.2⟩
  | summed => exact ⟨⟨(hitems rfl).trans h.1.1, h.1.2⟩, h.2.trans hnodes.symm⟩
  | checked =>
    refine ⟨⟨(hitems rfl).trans h.1.1, h.1.2⟩, ?_⟩
    unfold TokensLeft
    rw [hnodes, hburned rfl]
    exact h.2
  | saved | ticketed | messaged =>
    unfold ClaimFits TokensLeft
    rw [hnodes, hburned rfl]
    exact h
  | done => trivial

omit [DecidableEq ι] in
theorem ClaimStep.own (h : ClaimStep c i e db p p' db') (hfit : ClaimFits c i db p) : ClaimFits c i db' p' := by
  cases h with
  | refused => trivial
  | read hread =>
    unfold readReward at hread
    split at hread
    · cases hread
    rename_i reward hreward
    split_ifs at hread with hstock
    push Not at hstock
    cases hread
    exact ⟨hreward, hstock.2⟩
  | summed => exact ⟨hfit, rfl⟩
  | checked henough =>
    obtain ⟨hcurrent, rfl⟩ := hfit
    exact ⟨hcurrent, henough⟩
  | saved => exact hfit.2
  | ticketed => exact hfit
  | messaged => exact hfit
  | created => trivial

omit [DecidableEq ι] in
theorem ClaimStep.others {q : ClaimPhase} (h : ClaimStep c i e db p p' db')
    (hsaves : p.saves = true → c.rewardIds j = c.rewardIds i → q.holdsReward = false)
    (hcreates : p.creates = true → c.userIds j = c.userIds i → q.countsTokens = false)
    (hq : ClaimFits c j db q) : ClaimFits c j db' q := by
  cases h with
  | refused | read | summed | checked | ticketed | messaged => exact hq
  | saved =>
    refine ClaimFits.mono ?_ ?_ ?_ hq
    · rfl
    · intro hholds
      have hother : c.rewardIds j ≠ c.rewardIds i := by
        intro hsame
        rw [hsaves rfl hsame] at hholds
        cases hholds
      exact update_of_ne hother _ _
    · exact fun _ => rfl
  | created =>
    refine ClaimFits.mono ?_ ?_ ?_ hq
    · rfl
    · exact fun _ => rfl
    intro hcounts
    have hother : c.userIds i ≠ c.userIds j := by
      intro hsame
      rw [hcreates rfl hsame.symm] at hcounts
      cases hcounts
    rw [burned_createClaim, if_neg hother, add_zero]

def RewardDB.stockOf (rewardId : ℕ) (db : RewardDB) : ℤ := (db.items rewardId).elim 0 (·.stock)

theorem RewardDB.stockOf_saveReward (rewardId id : ℕ) (reward : RewardItem) (db : RewardDB) :
    (db.saveReward id reward).stockOf rewardId = if rewardId = id then reward.stock - 1 else db.stockOf rewardId := by
  unfold stockOf saveReward
  split_ifs with hsame <;> simp [hsame]

def RewardDB.claimsOf (rewardId : ℕ) (db : RewardDB) : ℕ := db.claims.countP (·.rewardItemId = rewardId)

/-- One for a claim that left the stock and is not created yet -/
def ClaimCalls.taking (c : ClaimCalls ι) (rewardId : ℕ) (i : ι) (p : ClaimPhase) : ℤ :=
  if c.rewardIds i = rewardId ∧ p.underway = true then 1 else 0

omit [DecidableEq ι] in
theorem ClaimCalls.taking_nonneg (c : ClaimCalls ι) (rewardId : ℕ) (i : ι) (p : ClaimPhase) :
    0 ≤ c.taking rewardId i p := by
  unfold taking
  split
  · exact zero_le_one
  · exact le_rfl

namespace ClaimStep

variable (h : ClaimStep c i e db p p' db')
include h

omit [DecidableEq ι] in
/-- What leaves the stock is under way, and what is under way becomes a claim. -/
theorem balance (hfit : ClaimFits c i db p) (rewardId : ℕ) :
    db'.stockOf rewardId + db'.claimsOf rewardId + c.taking rewardId i p' ≤
      db.stockOf rewardId + db.claimsOf rewardId + c.taking rewardId i p := by
  cases h with
  | @refused p err =>
    have hnonneg := c.taking_nonneg rewardId i p
    have hdone : c.taking rewardId i (.done (.error err)) = 0 := if_neg fun hboth => nomatch hboth.2
    omega
  | read | summed | checked | ticketed | messaged => exact le_rfl
  | @saved reward =>
    obtain ⟨⟨hrow, -⟩, -⟩ := hfit
    have hclaims : (db.saveReward (c.rewardIds i) reward).claimsOf rewardId = db.claimsOf rewardId := rfl
    have hchecked : c.taking rewardId i (.checked reward) = 0 := if_neg fun hboth => nomatch hboth.2
    rw [stockOf_saveReward, hclaims, hchecked]
    split_ifs with hsame
    · have hbefore : db.stockOf rewardId = reward.stock := by simp [stockOf, hsame, hrow]
      have htaking : c.taking rewardId i (.saved reward) = 1 := if_pos ⟨hsame.symm, rfl⟩
      omega
    · have htaking : c.taking rewardId i (.saved reward) = 0 := if_neg fun hboth => hsame hboth.1.symm
      omega
  | @created reward =>
    have hclaims : (db.createClaim (reward.claim e.now (c.userIds i) (c.rewardIds i))).claimsOf rewardId =
        db.claimsOf rewardId + if c.rewardIds i = rewardId then 1 else 0 := by
      simp [claimsOf, createClaim, RewardItem.claim, countP_append, countP_singleton]
    have hstock : (db.createClaim (reward.claim e.now (c.userIds i) (c.rewardIds i))).stockOf rewardId =
      db.stockOf rewardId := rfl
    have hdone : c.taking rewardId i (.done (.ok ())) = 0 := if_neg fun hboth => nomatch hboth.2
    rw [hclaims, hstock, hdone]
    by_cases hsame : c.rewardIds i = rewardId
    · have htaking : c.taking rewardId i (.messaged reward) = 1 := if_pos ⟨hsame, rfl⟩
      rw [htaking, if_pos hsame]
      push_cast
      omega
    have htaking : c.taking rewardId i (.messaged reward) = 0 := if_neg fun hboth => hsame hboth.1
    rw [htaking, if_neg hsame]
    push_cast
    omega

omit [DecidableEq ι] in
theorem stock_nonneg (hfit : ClaimFits c i db p) (hstock : 0 ≤ db.stockOf rewardId) : 0 ≤ db'.stockOf rewardId := by
  cases h with
  | refused | read | summed | checked | ticketed | messaged | created => exact hstock
  | @saved reward =>
    obtain ⟨⟨hrow, hpos⟩, -⟩ := hfit
    rw [stockOf_saveReward]
    split_ifs
    · omega
    · exact hstock

omit [DecidableEq ι] in
theorem burned_le (hfit : ClaimFits c i db p)
    (hburned : db.burned userId ≤ db.processed userId) : db'.burned userId ≤ db'.processed userId := by
  cases h with
  | refused | read | summed | checked | saved | ticketed | messaged => exact hburned
  | @created reward =>
    rw [show (db.createClaim (reward.claim e.now (c.userIds i) (c.rewardIds i))).processed userId =
      db.processed userId from rfl, burned_createClaim]
    have hleft : reward.requiredTokens ≤ db.processed (c.userIds i) - db.burned (c.userIds i) := hfit
    split_ifs with hsame
    · rw [hsame] at hleft
      omega
    · omega

omit [DecidableEq ι] in
theorem processed_eq : db'.processed userId = db.processed userId := by cases h <;> rfl

end ClaimStep

/-- **A claim that nothing disturbs** is the handler as a whole. -/
theorem claim_alone {s : Shared ι ClaimPhase RewardDB} (h : s.At i .idle db) (now : ℤ) :
    ((replicate 7 (.call i ⟨now, false⟩)).foldl (claimProgram c).next s).At i
      (.done ((db.claimUserReward now (c.userIds i) (c.rewardIds i)).map fun _ => ()))
      ((db.claimUserReward now (c.userIds i) (c.rewardIds i)).toOption.getD db) := by
  have hstart : (claimProgram c).stmt i ⟨now, false⟩ .idle db = claimStmt c i ⟨now, false⟩ .idle db := rfl
  unfold claimUserReward
  cases hread : db.readReward (c.rewardIds i) with
  | error =>
    simp only [claimStmt, hread, Bool.false_eq_true, if_false] at hstart
    exact (h.next hstart).stays (claimProgram c) ⟨now, false⟩ rfl 6
  | ok reward =>
    simp only [claimStmt, hread, Bool.false_eq_true, if_false] at hstart
    have hsummed := (h.next hstart).next (π := claimProgram c) (e := ⟨now, false⟩) rfl
    have hcheck : (claimProgram c).stmt i ⟨now, false⟩ (.summed reward (db.processed (c.userIds i))) db =
      claimStmt c i ⟨now, false⟩ (.summed reward (db.processed (c.userIds i))) db := rfl
    by_cases hshort : db.processed (c.userIds i) - db.burned (c.userIds i) < reward.requiredTokens
    · simp only [claimStmt, hshort, Bool.false_eq_true, if_false, if_true] at hcheck
      simp only [hshort, if_true]
      exact (hsummed.next hcheck).stays (claimProgram c) ⟨now, false⟩ rfl 4
    simp only [claimStmt, hshort, Bool.false_eq_true, if_false] at hcheck
    simp only [hshort, if_false]
    have hsaved := (hsummed.next hcheck).next (π := claimProgram c) (e := ⟨now, false⟩) rfl
    have hticketed := hsaved.next (π := claimProgram c) (e := ⟨now, false⟩) rfl
    have hmessaged := hticketed.next (π := claimProgram c) (e := ⟨now, false⟩) rfl
    exact hmessaged.next (π := claimProgram c) (e := ⟨now, false⟩) rfl

section Runs

variable {s s' : Shared ι ClaimPhase RewardDB} {es : List (SharedEvent ι ClaimEnv Empty)}
  {ev : SharedEvent ι ClaimEnv Empty}

theorem claims_next_cases (hapart : ClaimsApart c s ev)
    (hst : (claimProgram c).step s ev s') : s' = s ∨ ∃ i e p' db', ClaimsApart c s (.call i e) ∧
      ClaimStep c i e s.mem (s.phase i) p' db' ∧ s' = ⟨db', update s.phase i p'⟩ := by
  obtain rfl := hst
  rcases (claimProgram c).next_cases s ev with heq | ⟨i, e, p', db', rfl, hst, heq⟩ | ⟨v, -, -⟩
  · exact .inl heq
  · exact .inr ⟨i, e, p', db', hapart, claimStmt_step hapart.1 hst, heq⟩
  · exact v.elim

theorem claims_fit (h : ∀ i, ClaimFits c i s.mem (s.phase i))
    (hst : within (claimProgram c).step (ClaimsApart c) s ev s') : ∀ i, ClaimFits c i s'.mem (s'.phase i) := by
  rcases claims_next_cases hst.2 hst.1 with rfl | ⟨i, e, p', db', ⟨-, hsaves, hcreates⟩, hstep, rfl⟩
  · exact h
  intro j
  by_cases hji : j = i
  · subst hji
    simpa only [update_self] using hstep.own (h j)
  · simpa only [update_of_ne hji] using hstep.others (fun hs => hsaves hs j hji) (fun hc => hcreates hc j hji) (h j)

/-- The stock, the claims and those under way -/
def rewardBalance [Fintype ι] (c : ClaimCalls ι) (rewardId : ℕ) (s : Shared ι ClaimPhase RewardDB) : ℤ :=
  s.mem.stockOf rewardId + s.mem.claimsOf rewardId + ∑ i, c.taking rewardId i (s.phase i)

theorem rewardBalance_le [Fintype ι] (rewardId : ℕ)
    (h : ∀ i, ClaimFits c i s.mem (s.phase i)) (hst : within (claimProgram c).step (ClaimsApart c) s ev s') :
    rewardBalance c rewardId s' ≤ rewardBalance c rewardId s := by
  rcases claims_next_cases hst.2 hst.1 with rfl | ⟨i, e, p', db', -, hstep, rfl⟩
  · exact le_rfl
  have hstep' := hstep.balance (h i) rewardId
  have hsum := Shared.sum_update (c.taking rewardId) s.phase i p'
  unfold rewardBalance
  simp only
  omega

/-- **Rewards are not oversold** by claims that stay apart. -/
theorem rewards_not_oversold [Fintype ι] (hidle : ∀ i, s.phase i = .idle)
    (hrun : Run (within (claimProgram c).step (ClaimsApart c)) s es s') :
    (∀ rewardId, 0 ≤ s.mem.stockOf rewardId →
      (s'.mem.claimsOf rewardId : ℤ) ≤ s.mem.claimsOf rewardId + s.mem.stockOf rewardId) ∧
    ∀ userId, s.mem.burned userId ≤ s.mem.processed userId → s'.mem.burned userId ≤ s.mem.processed userId := by
  have hfit : ∀ i, ClaimFits c i s.mem (s.phase i) := by
    intro i
    rw [hidle i]
    trivial
  constructor
  · intro rewardId hstock
    have hend := hrun.inv (I := fun t => (∀ i, ClaimFits c i t.mem (t.phase i)) ∧ 0 ≤ t.mem.stockOf rewardId ∧
      rewardBalance c rewardId t ≤ rewardBalance c rewardId s) ?_ ⟨hfit, hstock, le_rfl⟩
    · obtain ⟨-, hstock', hbalance⟩ := hend
      have hstart : ∑ i, c.taking rewardId i (s.phase i) = 0 := by
        apply Finset.sum_eq_zero
        intro i _
        rw [hidle i]
        exact if_neg fun hboth => nomatch hboth.2
      have hnonneg : 0 ≤ ∑ i, c.taking rewardId i (s'.phase i) :=
        Finset.sum_nonneg fun i _ => c.taking_nonneg rewardId i (s'.phase i)
      unfold rewardBalance at hbalance
      omega
    · rintro a ev b ⟨ha, hstock, hle⟩ hst
      refine ⟨claims_fit ha hst, ?_, (rewardBalance_le rewardId ha hst).trans hle⟩
      rcases claims_next_cases hst.2 hst.1 with rfl | ⟨i, e, p', db', -, hstep, rfl⟩
      · exact hstock
      · exact hstep.stock_nonneg (ha i) hstock
  · intro userId hburned
    have hend := hrun.inv (I := fun t => (∀ i, ClaimFits c i t.mem (t.phase i)) ∧
      t.mem.burned userId ≤ t.mem.processed userId ∧ t.mem.processed userId = s.mem.processed userId)
      ?_ ⟨hfit, hburned, rfl⟩
    · exact hend.2.1.trans hend.2.2.le
    rintro a ev b ⟨ha, hle, hprocessed⟩ hst
    refine ⟨claims_fit ha hst, ?_⟩
    rcases claims_next_cases hst.2 hst.1 with rfl | ⟨i, e, p', db', -, hstep, rfl⟩
    · exact ⟨hle, hprocessed⟩
    · exact ⟨hstep.burned_le (ha i) hle, hstep.processed_eq.trans hprocessed⟩

end Runs

def sampleClaims : ClaimCalls (Fin 2) := ⟨fun _ => 1, fun _ => 1⟩

theorem rewards_not_oversold_in_turn :
    let s : Shared (Fin 2) ClaimPhase RewardDB := ⟨sampleRewards 1, fun _ => .idle⟩
    let s' := ([0, 0, 0, 0, 0, 0, 0, 1].map (.call · ⟨5, false⟩)).foldl (claimProgram sampleClaims).next s
    s'.phase 0 = .done (.ok ()) ∧ s'.phase 1 = .done (.error .unavailable) ∧
      (s'.mem.claimsOf 1 : ℤ) ≤ 1 ∧ s'.mem.burned 1 ≤ 10 := by
  intro s s'
  have hrun : Run (within (claimProgram sampleClaims).step (ClaimsApart sampleClaims)) s _ s' :=
    Run.of_allowed (by decide +kernel)
  have h := rewards_not_oversold (fun _ => rfl) hrun
  exact ⟨by decide +kernel, by decide +kernel, h.1 1 (by decide +kernel), h.2 1 (by decide +kernel)⟩

/-- **Sold twice.** Both claims read the reward before either saves it: one cup and ten tokens make two claims. -/
theorem reward_oversold :
    let s : Shared (Fin 2) ClaimPhase RewardDB := ⟨sampleRewards 1, fun _ => .idle⟩
    let es := [0, 1, 0, 1, 0, 1, 0, 1, 0, 1, 0, 1, 0, 1].map (SharedEvent.call · (⟨5, false⟩ : ClaimEnv))
    let s' := es.foldl (claimProgram sampleClaims).next s
    s.mem.stockOf 1 = 1 ∧ s.mem.claimsOf 1 = 0 ∧ s.mem.processed 1 = 10 ∧
      s'.mem.claimsOf 1 = 2 ∧ s'.mem.burned 1 = 20 ∧ s'.mem.stockOf 1 = 0 := by
  decide +kernel

end Claims

end NewApi
