import NewApi.Spec.RedeemRace

/-!
# A code is credited once

The update of the status takes the row of the code and keeps it until the commit, so at most one call has the row, and
until that commit the rows are those of the start (`RedeemFits`). The first commit leaves the code used for good, and
every other call then fails (`redeemed_once`). A call that runs alone is `redeem` (`redeem_alone`).
-/

namespace NewApi

open Trace Function Option Program RedeemMem

variable {ι : Type} [DecidableEq ι] {c : RedeemCalls ι} {i j : ι} {e : RedeemEnv} {p p' : RedeemPhase}
variable {m m' : RedeemMem ι} {code : RedemptionRow} {db : RedeemDB}

def RedeemCalls.Refused (c : RedeemCalls ι) (i : ι) (e : RedeemEnv) (m : RedeemMem ι) : Prop :=
  c.key = "" ∨ c.userIds i = 0 ∨ e.dbErr = true ∨
    ∀ code, m.db.codes c.key = some code → code.status ≠ .enabled ∨ code.expiredAt e.now = true

inductive RedeemStep (c : RedeemCalls ι) (i : ι) (e : RedeemEnv) (m : RedeemMem ι) :
    RedeemPhase → RedeemPhase → RedeemMem ι → Prop
  | read {code : RedemptionRow} {m'} (hcode : m.db.codes c.key = some code)
      (henabled : code.status = .enabled) (hdb : m'.db = m.db)
      (hlock : m'.lock = m.lock ∨ m.heldByOther i = false) : RedeemStep c i e m .idle (.read code) m'
  | claimed {code : RedemptionRow} (hfree : m.heldByOther i = false)
      (henabled : (m.db.codes c.key).map (·.status) = some .enabled) :
      RedeemStep c i e m (.read code) (.claimed code e.now) { m with lock := some i }
  | packaged {code : RedemptionRow} {time} :
      RedeemStep c i e m (.claimed code time) (.packaged code time e.now) m
  | committed {code : RedemptionRow} {time now} :
      RedeemStep c i e m (.packaged code time now) (.done (.ok code.quota))
        ({ m with db := m.db.redeemed c.key code (c.userIds i) time now }.release i)
  | failed {p : RedeemPhase} {err m'} (hwhy : c.Refused i e m) (hdb : m'.db = m.db)
      (hlock : m'.lock = m.lock ∨ m.heldByOther i = false) : RedeemStep c i e m p (.done (.error err)) m'

theorem RedeemMem.heldByOther_self (h : m.lock = some i) : m.heldByOther i = false := by simp [heldByOther, h]

theorem RedeemMem.release_lock (i : ι) (m : RedeemMem ι) : (m.release i).lock = m.lock ∨ m.heldByOther i = false := by
  by_cases h : m.lock = some i
  · exact .inr (heldByOther_self h)
  · exact .inl (if_neg h)

theorem redeemStep_rollback (hwhy : c.Refused i e m) (h : some (m.rollback i) = some (p', m')) :
    RedeemStep c i e m p p' m' := by
  cases h
  exact .failed hwhy rfl (m.release_lock i)

theorem redeemStmt_step (h : redeemStmt c i e p m = some (p', m')) : RedeemStep c i e m p p' m' := by
  have hfails (herr : e.dbErr = true) : c.Refused i e m := .inr (.inr (.inl herr))
  cases p with
  | idle =>
    simp only [redeemStmt] at h
    split at h
    · rename_i hkey
      cases h
      exact .failed (.inl hkey) rfl (.inl rfl)
    split at h
    · rename_i huser
      cases h
      exact .failed (.inr (.inl huser)) rfl (.inl rfl)
    cases hcode : m.db.codes c.key with
    | none =>
      have hwhy : c.Refused i e m := .inr (.inr (.inr (by simp [hcode])))
      simp only [hcode] at h
      split_ifs at h <;> exact redeemStep_rollback hwhy h
    | some code =>
      simp only [hcode] at h
      split_ifs at h with herr hwait hstatus hexpired hlocks
      · exact redeemStep_rollback (hfails herr) h
      · exact redeemStep_rollback (.inr (.inr (.inr (by simp [hcode, hstatus])))) h
      · exact redeemStep_rollback (.inr (.inr (.inr (by simp [hcode, hexpired])))) h
      all_goals
        cases h
        refine .read hcode (not_not.1 hstatus) rfl ?_
        simp_all
  | read code =>
    simp only [redeemStmt] at h
    split_ifs at h with herr hheld henabled
    · exact redeemStep_rollback (hfails herr) h
    · cases h
      exact .claimed (Bool.not_eq_true _ ▸ hheld) henabled
    · refine redeemStep_rollback (.inr (.inr (.inr fun code' hcode' => .inl fun hstatus => henabled ?_))) h
      rw [hcode', map_some, hstatus]
  | claimed | packaged =>
    simp only [redeemStmt] at h
    split_ifs at h with herr
    · exact redeemStep_rollback (hfails herr) h
    · cases h
      constructor
  | done => cases h

def RedeemFits (code : RedemptionRow) (db : RedeemDB) (i : ι) (m : RedeemMem ι) : RedeemPhase → Prop
  | .read code' => code' = code
  | .claimed code' _ => code' = code ∧ m.lock = some i ∧ m.db = db
  | .packaged code' _ _ => code' = code ∧ m.lock = some i ∧ m.db = db
  | _ => True

theorem RedeemFits.other (hfree : m.heldByOther i = false) (hne : j ≠ i) (h : RedeemFits code db j m p)
    (m' : RedeemMem ι) : RedeemFits code db j m' p := by
  have hlock : m.lock ≠ some j := by
    intro hj
    simp [heldByOther, hj, hne] at hfree
  cases p with
  | idle => trivial
  | read => exact h
  | claimed | packaged => exact absurd h.2.1 hlock
  | done => trivial

omit [DecidableEq ι] in
theorem RedeemFits.mono (hlock : m'.lock = m.lock) (hdb : m'.db = m.db) (h : RedeemFits code db i m p) :
    RedeemFits code db i m' p := by
  cases p with
  | idle => trivial
  | read => exact h
  | claimed | packaged => exact ⟨h.1, hlock.trans h.2.1, hdb.trans h.2.2⟩
  | done => trivial

theorem RedeemStep.others (h : RedeemStep c i e m p p' m') (hfit : RedeemFits code db i m p) (hne : j ≠ i)
    {q : RedeemPhase} (hq : RedeemFits code db j m q) : RedeemFits code db j m' q := by
  cases h with
  | read hcode henabled hdb hlock | failed hwhy hdb hlock =>
    rcases hlock with hlock | hfree
    · exact hq.mono hlock hdb
    · exact hq.other hfree hne _
  | claimed hfree => exact hq.other hfree hne _
  | packaged => exact hq
  | committed => exact hq.other (heldByOther_self hfit.2.1) hne _

theorem RedeemStep.refused {err : CreditErr} (h : RedeemStep c i e m p (.done (.error err)) m') : c.Refused i e m := by
  cases h with
  | failed hwhy hdb hlock => exact hwhy

theorem RedeemStep.db_cases (h : RedeemStep c i e m p p' m') : (m'.db = m.db ∧ ∀ q, p' ≠ .done (.ok q)) ∨
    ∃ code time now, p = .packaged code time now ∧ p' = .done (.ok code.quota) ∧
      m'.db = m.db.redeemed c.key code (c.userIds i) time now := by
  cases h with
  | read hcode henabled hdb | failed hwhy hdb => exact .inl ⟨hdb, nofun⟩
  | claimed | packaged => exact .inl ⟨rfl, nofun⟩
  | @committed code time now => exact .inr ⟨code, time, now, rfl, rfl, rfl⟩

section Alone

def poolTypeOf (type : ℤ) : PoolType := if type = 1 then .requests else if type = 2 then .tokens else .quota

def PayUser.pools (user : PayUser) : PoolRow := ⟨user.quota, user.requestsBalance, user.tokensBalance⟩

-- how `Spec/Redemption.lean` reads the texts of the columns
variable (mode : String → ModelFilterMode) (models : String → List String)

def RedemptionRow.redemption (code : RedemptionRow) : Redemption :=
  ⟨code.status, code.quota, poolTypeOf code.type, mode code.modelFilterMode, models code.models, code.redeemedTime,
    code.usedUserId, code.expiredTime⟩

def PackageRow.balancePackage (pkg : PackageRow) : UserBalancePackage :=
  ⟨poolTypeOf pkg.type, pkg.remainingAmount, mode pkg.modelFilterMode, models pkg.models, pkg.expiredAt⟩

/-- The rows of the race are those of the wallets. -/
structure RedeemDB.Shows (db : RedeemDB) (st : CreditDB) : Prop where
  codes : ∀ key, st.codes key = (db.codes key).map (·.redemption mode models)
  users : db.users = fun id => (st.pay.users id).map PayUser.pools
  packages : ∀ id, st.packages id = (db.packages.filter (·.userId = id)).map (·.balancePackage mode models)

variable {mode models} {cfg : CreditConfig} {st : CreditDB} {key : String} {now : ℤ} {userId : ℕ}

theorem CreditDB.addPool_pools (hfits : ∀ v, cfg.database.intColumn v = true) (userId : ℕ) (type quota : ℤ)
    (st : CreditDB) :
    ∃ st', st.addPool cfg userId (poolTypeOf type) quota = some st' ∧ st'.codes = st.codes ∧
      st'.packages = st.packages ∧ (fun id => (st'.pay.users id).map PayUser.pools) =
        update (fun id => (st.pay.users id).map PayUser.pools) userId
          (((st.pay.users userId).map PayUser.pools).map (PoolRow.credit type quota)) := by
  unfold addPool poolTypeOf
  cases huser : st.pay.users userId with
  | none =>
    refine ⟨st, by split_ifs <;> simp [updateUser, huser], rfl, rfl, ?_⟩
    rw [eq_comm, update_eq_self_iff, huser]
    rfl
  | some user =>
    split_ifs with h1 h2 <;> simp only [updateUser, huser, hfits, if_true, some.injEq, exists_eq_left', true_and]
    all_goals
      funext id
      by_cases hid : id = userId <;> simp [PayUser.pools, PoolRow.credit, *]

theorem RedeemDB.Shows.redeemed (h : db.Shows mode models st) (hfits : ∀ v, cfg.database.intColumn v = true)
    (hkey : key ≠ "") (huser : userId ≠ 0) (hcode : db.codes key = some code) (henabled : code.status = .enabled)
    (hexpired : code.expiredAt now = false) (hmode : mode code.modelFilterMode = .none ↔ code.filtered = false) :
    ∃ st', redeem cfg now key userId st = .ok (code.quota, st') ∧
      (db.redeemed key code userId now now).Shows mode models st' := by
  have hvalid : ¬ (code.expiredTime ≠ 0 ∧ code.expiredTime < now) := by
    simpa [RedemptionRow.expiredAt] using hexpired
  obtain ⟨st', hpool, hcodes, hpackages, husers⟩ := CreditDB.addPool_pools hfits userId code.type code.quota
    { st with
      codes := update st.codes key (some
        ({ code with status := .used, redeemedTime := now, usedUserId := userId }.redemption mode models))
      packages := if mode code.modelFilterMode = .none then st.packages
        else update st.packages userId (st.packages userId ++ [(code.package now userId).balancePackage mode models]) }
  refine ⟨st', ?_, ⟨fun key' => ?_, ?_, fun id => ?_⟩⟩
  · unfold redeem
    rw [if_neg hkey, if_neg huser, h.codes, hcode]
    dsimp only [map_some, RedemptionRow.redemption, RedemptionRow.package, PackageRow.balancePackage] at hpool ⊢
    rw [if_neg (not_not.2 henabled), if_neg hvalid, hpool]
  · rw [hcodes]
    by_cases hkey' : key' = key
    · simp [RedeemDB.redeemed, hkey']
    · simp [RedeemDB.redeemed, hkey', h.codes]
  · rw [husers]
    simp only [RedeemDB.redeemed, h.users]
  · rw [hpackages]
    cases hfiltered : code.filtered with
    | false => simp [RedeemDB.redeemed, hfiltered, hmode.2 hfiltered, h.packages]
    | true =>
      have hnot : mode code.modelFilterMode ≠ .none := fun hnone => by simp [hmode.1 hnone] at hfiltered
      by_cases hid : id = userId
      · simp [RedeemDB.redeemed, hfiltered, hnot, h.packages, RedemptionRow.package, hid]
      · simp [RedeemDB.redeemed, hfiltered, hnot, h.packages, RedemptionRow.package, hid, Ne.symm hid]

/-- **A redemption that nothing disturbs** is `Redeem` as a whole, where the columns take the credit. -/
theorem redeem_alone {s : Shared ι RedeemPhase (RedeemMem ι)} (h : s.At i .idle m) (hlock : m.lock = none)
    (hshows : m.db.Shows mode models st) (hfits : ∀ v, cfg.database.intColumn v = true)
    (hmode : ∀ code : RedemptionRow, mode code.modelFilterMode = .none ↔ code.filtered = false) (now : ℤ) :
    let s' := (List.replicate 4 (.call i ⟨now, false⟩)).foldl (redeemProgram c).next s
    match redeem cfg now c.key (c.userIds i) st with
    | .error err => s'.At i (.done (.error err)) m
    | .ok (quota, st') => s'.phase i = .done (.ok quota) ∧ s'.mem.db.Shows mode models st' := by
  intro s'
  have hfree : m.heldByOther i = false := by simp [heldByOther, hlock]
  have hrollback : m.rollback i = (.done (.error .redeemFailed), m) := by
    rw [rollback, release, if_neg (by simp [hlock])]
  have hrefused (err : CreditErr) (hst : redeemStmt c i ⟨now, false⟩ .idle m = some (.done (.error err), m)) :
      s'.At i (.done (.error err)) m :=
    (h.next hst).stays (redeemProgram c) ⟨now, false⟩ rfl 3
  by_cases hkey : c.key = ""
  · simpa [redeem, hkey] using hrefused .keyEmpty (by simp [redeemStmt, hkey])
  by_cases huser : c.userIds i = 0
  · simpa [redeem, hkey, huser] using hrefused .invalidUserId (by simp [redeemStmt, hkey, huser])
  cases hcode : m.db.codes c.key with
  | none =>
    simpa [redeem, hkey, huser, hshows.codes, hcode] using
      hrefused .redeemFailed (by simp [redeemStmt, hkey, huser, hfree, hcode, hrollback])
  | some code =>
    by_cases hvalid : code.status = .enabled ∧ code.expiredAt now = false
    swap
    · have hredeem : redeem cfg now c.key (c.userIds i) st = .error .redeemFailed := by
        by_cases henabled : code.status = .enabled <;>
          simp_all [redeem, hshows.codes, RedemptionRow.redemption, RedemptionRow.expiredAt]
      rw [hredeem]
      refine hrefused .redeemFailed ?_
      by_cases henabled : code.status = .enabled <;> simp_all [redeemStmt]
    obtain ⟨henabled, hexpired⟩ := hvalid
    obtain ⟨st', hr, hshows'⟩ := hshows.redeemed hfits hkey huser hcode henabled hexpired (hmode code)
    rw [hr]
    have hread := h.next (π := redeemProgram c) (show redeemStmt c i ⟨now, false⟩ .idle m =
      some (.read code, if c.rowLocks then { m with lock := some i } else m) by
        simp [redeemStmt, hkey, huser, hfree, hcode, henabled, hexpired])
    have hclaimed := hread.next (π := redeemProgram c) (e := ⟨now, false⟩) (show redeemStmt c i ⟨now, false⟩
      (.read code) (if c.rowLocks then { m with lock := some i } else m) =
      some (.claimed code now, { m with lock := some i }) by
        cases c.rowLocks <;> simp [redeemStmt, heldByOther, hlock, hcode, henabled])
    obtain ⟨hphase, hmem⟩ := (hclaimed.next (π := redeemProgram c) (e := ⟨now, false⟩) rfl).next
      (π := redeemProgram c) (e := ⟨now, false⟩) rfl
    refine ⟨hphase, ?_⟩
    rw [show s'.mem = _ from hmem]
    exact hshows'

end Alone

section Runs

variable {s s' : Shared ι RedeemPhase (RedeemMem ι)} {ev : SharedEvent ι RedeemEnv Empty}
variable {ms : List (Shared ι RedeemPhase (RedeemMem ι) ×
  SharedEvent ι RedeemEnv Empty × Shared ι RedeemPhase (RedeemMem ι))}

/-- No call has succeeded and the rows are those of the start, or one has and its redemption is all that has happened.
-/
def RedeemOutcome (c : RedeemCalls ι) (code : RedemptionRow) (db : RedeemDB)
    (s : Shared ι RedeemPhase (RedeemMem ι)) : Prop :=
  (s.mem.db = db ∧ ∀ i q, s.phase i ≠ .done (.ok q)) ∨ ∃ i time now, s.phase i = .done (.ok code.quota) ∧
      s.mem.db = db.redeemed c.key code (c.userIds i) time now ∧ ∀ j q, s.phase j = .done (.ok q) → j = i

structure RedeemInv (c : RedeemCalls ι) (code : RedemptionRow) (db : RedeemDB)
    (s : Shared ι RedeemPhase (RedeemMem ι)) : Prop where
  outcome : RedeemOutcome c code db s
  fits : ∀ i, RedeemFits code db i s.mem (s.phase i)

structure EnabledCode (c : RedeemCalls ι) (code : RedemptionRow) (db : RedeemDB) : Prop where
  row : db.codes c.key = some code
  enabled : code.status = .enabled

omit [DecidableEq ι] in
theorem RedeemOutcome.unredeemed (h : RedeemOutcome c code db s)
    (henabled : (s.mem.db.codes c.key).map (·.status) = some .enabled) :
    s.mem.db = db ∧ ∀ i q, s.phase i ≠ .done (.ok q) := by
  rcases h with h | ⟨i, time, now, -, hdb, -⟩
  · exact h
  · rw [hdb] at henabled
    simp [RedeemDB.redeemed] at henabled

theorem RedeemInv.own (h : RedeemInv c code db s) (hcode : EnabledCode c code db)
    (hst : RedeemStep c i e s.mem (s.phase i) p' m') : RedeemFits code db i m' p' := by
  have hfit := h.fits i
  revert hst
  generalize hp : s.phase i = p
  rw [hp] at hfit
  intro hst
  cases hst with
  | read hcode' henabled =>
    have hstart := (h.outcome.unredeemed (by rw [hcode', map_some, henabled])).1
    rw [hstart, hcode.row] at hcode'
    exact (some.inj hcode').symm
  | claimed hfree henabled => exact ⟨hfit, rfl, (h.outcome.unredeemed henabled).1⟩
  | packaged => exact hfit
  | committed | failed => trivial

theorem ne_done_of_stmt {r : Except CreditErr ℤ} (hst : redeemStmt c i e p m = some (p', m')) : p ≠ .done r := by
  rintro rfl
  cases hst

section

variable (h : RedeemInv c code db s)
include h

section

variable (hcode : EnabledCode c code db)
include hcode

theorem RedeemOutcome.call  (hst : redeemStmt c i e (s.phase i) s.mem = some (p', m')) :
    RedeemOutcome c code db ⟨m', update s.phase i p'⟩ := by
  rcases (redeemStmt_step hst).db_cases with ⟨hdb, hnot⟩ | ⟨code', time, now, hp, rfl, hdb⟩
  · -- nothing is committed: the winner, if there is one, is another call
    have hphase : ∀ j q, update s.phase i p' j = .done (.ok q) → s.phase j = .done (.ok q) := by
      intro j q hj
      by_cases hji : j = i
      · subst hji
        rw [update_self] at hj
        exact absurd hj (hnot q)
      · rwa [update_of_ne hji] at hj
    rcases h.outcome with ⟨hstart, hnone⟩ | ⟨w, time, now, hw, hwon, honly⟩
    · exact .inl ⟨hdb.trans hstart, fun j q hj => hnone j q (hphase j q hj)⟩
    have hwi : w ≠ i := by
      rintro rfl
      exact ne_done_of_stmt hst hw
    refine .inr ⟨w, time, now, ?_, hdb.trans hwon, fun j q hj => honly j q (hphase j q hj)⟩
    rw [← hw]
    exact update_of_ne hwi _ _
  · have hfit := h.fits i
    rw [hp] at hfit
    obtain ⟨rfl, -, hstart⟩ := hfit
    have henabled : (s.mem.db.codes c.key).map (·.status) = some .enabled := by
      rw [hstart, hcode.row, map_some, hcode.enabled]
    have hnone := (h.outcome.unredeemed henabled).2
    refine .inr ⟨i, time, now, update_self .., hstart ▸ hdb, ?_⟩
    intro j q hj
    by_contra hji
    simp only [update_of_ne hji] at hj
    exact hnone j q hj

theorem RedeemInv.next  (ev : SharedEvent ι RedeemEnv Empty) : RedeemInv c code db ((redeemProgram c).next s ev) := by
  apply next_keeps h
  · rintro i e p' m' - hst
    refine ⟨RedeemOutcome.call h hcode hst, ?_⟩
    have hstep := redeemStmt_step hst
    intro j
    by_cases hji : j = i
    · subst hji
      simpa only [update_self] using h.own hcode hstep
    · simpa only [update_of_ne hji] using hstep.others (h.fits i) hji (h.fits j)
  · exact nofun

theorem RedeemInv.run  (hrun : Run (moves (redeemProgram c).step) s ms s') : RedeemInv c code db s' := by
  apply hrun.inv _ h
  intro a mv b ha hmv
  obtain ⟨ev, -, rfl⟩ := eq_of_moves hmv
  exact ha.next hcode ev

end

end

theorem loser_changes_nothing (hrun : Run (moves (redeemProgram c).step) s ms s')
    (hlost : ∀ q, s'.phase i ≠ .done (.ok q)) :
    ∀ mv ∈ ms, (∃ e, mv.2.1 = .call i e) → mv.2.2.mem.db = mv.1.mem.db := by
  rintro ⟨a, ev, b⟩ hmv ⟨e, hev⟩
  obtain rfl := hev
  have hb : b = (redeemProgram c).next a (.call i e) := next_of_mem hrun _ hmv
  rcases (redeemProgram c).next_cases a (.call i e) with heq | ⟨_, _, p', m', ⟨⟩, hst, heq⟩ | ⟨_, ⟨⟩, -⟩
  · simp [hb, heq]
  rw [heq] at hb
  rcases (redeemStmt_step hst).db_cases with ⟨hdb, -⟩ | ⟨code, time, now, -, rfl, -⟩
  · simp only [hb]
    exact hdb
  have hdone : b.phase i = .done (.ok code.quota) := by
    rw [hb]
    exact update_self ..
  exact absurd (phase_of_moves (fun _ _ => rfl) hrun hmv hdone) (hlost _)

structure Redeemable (c : RedeemCalls ι) (code : RedemptionRow)
    (ms : List (Shared ι RedeemPhase (RedeemMem ι) × SharedEvent ι RedeemEnv Empty ×
      Shared ι RedeemPhase (RedeemMem ι))) : Prop where
  key : c.key ≠ ""
  users : ∀ i, c.userIds i ≠ 0
  driver : ∀ mv ∈ ms, ∀ i e, mv.2.1 = .call i e → e.dbErr = false
  unexpired : ∀ mv ∈ ms, ∀ i e, mv.2.1 = .call i e → code.expiredAt e.now = false

theorem no_failure_before_redeemed (hred : Redeemable c code ms) (h : RedeemInv c code db s)
    (hcode : EnabledCode c code db) (hrun : Run (moves (redeemProgram c).step) s ms s')
    (h0 : s.mem.db = db → ∀ i err, s.phase i ≠ .done (.error err)) :
    s'.mem.db = db → ∀ i err, s'.phase i ≠ .done (.error err) := by
  induction hrun with
  | nil => exact h0
  | @cons s s1 s2 mv ms hst hrest ih =>
    obtain ⟨ev, rfl, rfl⟩ := eq_of_moves hst
    refine ih ⟨hred.key, hred.users, fun mv hmv => hred.driver mv (List.mem_cons_of_mem _ hmv),
      fun mv hmv => hred.unexpired mv (List.mem_cons_of_mem _ hmv)⟩ (h.next hcode ev) ?_
    rcases (redeemProgram c).next_cases s ev with heq | ⟨i, e, p', m', hev, hst, heq⟩ | ⟨v, -, -⟩
    · rw [heq]
      exact h0
    · rw [heq]
      intro hstart j err hj
      have hdriver := hred.driver _ List.mem_cons_self i e hev
      have hunexpired := hred.unexpired _ List.mem_cons_self i e hev
      -- the rows are those of the start, so they were before
      have hbefore : s.mem.db = db := by
        rcases (redeemStmt_step hst).db_cases with ⟨hdb, -⟩ | ⟨code', time, now, hp, -, -⟩
        · exact hdb.symm.trans hstart
        have hfit := h.fits i
        rw [hp] at hfit
        exact hfit.2.2
      by_cases hji : j = i
      · subst hji
        simp only [update_self] at hj
        subst hj
        rcases (redeemStmt_step hst).refused with hkey | huser | hfail | hstatus
        · exact hred.key hkey
        · exact hred.users j huser
        · rw [hdriver] at hfail
          cases hfail
        rw [hbefore] at hstatus
        rcases hstatus code hcode.row with hused | hexpired
        · exact hused hcode.enabled
        · rw [hunexpired] at hexpired
          cases hexpired
      · simp only [update_of_ne hji] at hj
        exact h0 hbefore j err hj
    · exact v.elim

theorem PoolRow.credit_pools (type quota : ℤ) (user : PoolRow) :
    (user.credit type quota).quota = user.quota + (if type = 1 ∨ type = 2 then 0 else quota) ∧
    (user.credit type quota).requestsBalance = user.requestsBalance + (if type = 1 then quota else 0) ∧
    (user.credit type quota).tokensBalance = user.tokensBalance + if type = 2 then quota else 0 := by
  unfold credit
  by_cases h1 : type = 1
  · simp [h1]
  by_cases h2 : type = 2
  · simp [h2]
  · simp [h1, h2]

structure CreditedTo (code : RedemptionRow) (userId : ℕ) (db db' : RedeemDB) : Prop where
  quota : (db'.users userId).map (·.quota) =
    (db.users userId).map (·.quota + if code.type = 1 ∨ code.type = 2 then 0 else code.quota)
  requests : (db'.users userId).map (·.requestsBalance) =
    (db.users userId).map (·.requestsBalance + if code.type = 1 then code.quota else 0)
  tokens : (db'.users userId).map (·.tokensBalance) =
    (db.users userId).map (·.tokensBalance + if code.type = 2 then code.quota else 0)
  others : ∀ u, u ≠ userId → db'.users u = db.users u
  noPackage : code.modelFilterMode = "" ∨ code.modelFilterMode = "none" → db'.packages = db.packages
  package : code.modelFilterMode ≠ "" → code.modelFilterMode ≠ "none" → ∃ pkg, db'.packages = db.packages ++ [pkg] ∧
    pkg.userId = userId ∧ pkg.type = code.type ∧ pkg.initialAmount = code.quota ∧
    pkg.remainingAmount = code.quota ∧ pkg.modelFilterMode = code.modelFilterMode ∧ pkg.models = code.models ∧
    pkg.expiredAt = code.expiredTime

theorem RedeemDB.redeemed_creditedTo (key : String) (userId : ℕ) (time now : ℤ) (code : RedemptionRow) (db : RedeemDB) :
    CreditedTo code userId db (db.redeemed key code userId time now) := by
  have huser : (db.redeemed key code userId time now).users userId =
      (db.users userId).map (PoolRow.credit code.type code.quota) := update_self ..
  have hfiltered : code.filtered = true ↔ code.modelFilterMode ≠ "" ∧ code.modelFilterMode ≠ "none" := by
    simp [RedemptionRow.filtered]
  refine ⟨?_, ?_, ?_, ?_, ?_, ?_⟩
  · rw [huser, map_map]
    exact congrArg (Option.map · _) (funext fun user => (user.credit_pools ..).1)
  · rw [huser, map_map]
    exact congrArg (Option.map · _) (funext fun user => (user.credit_pools ..).2.1)
  · rw [huser, map_map]
    exact congrArg (Option.map · _) (funext fun user => (user.credit_pools ..).2.2)
  · intro u hu
    exact update_of_ne hu _ _
  · intro hmode
    have hnot : ¬ code.filtered = true := by
      rw [hfiltered]
      tauto
    exact if_neg hnot
  · intro hne hnone
    exact ⟨code.package now userId, if_pos (hfiltered.2 ⟨hne, hnone⟩), rfl, rfl, rfl, rfl, rfl, rfl, rfl⟩

/-- **A code is credited exactly once.** -/
theorem redeemed_once (hrow : s.mem.db.codes c.key = some code) (henabled : code.status = .enabled)
    (hidle : ∀ i, s.phase i = .idle) (hrun : Run (moves (redeemProgram c).step) s ms s') :
    (∀ i q, s'.phase i = .done (.ok q) → q = code.quota ∧ CreditedTo code (c.userIds i) s.mem.db s'.mem.db ∧
      ∀ j q', s'.phase j = .done (.ok q') → j = i) ∧
    (∀ i, (∀ q, s'.phase i ≠ .done (.ok q)) → ∀ mv ∈ ms, (∃ e, mv.2.1 = .call i e) → mv.2.2.mem.db = mv.1.mem.db) ∧
    (Redeemable c code ms → Nonempty ι → (∀ i, ∃ r, s'.phase i = .done r) →
      ∃ i, s'.phase i = .done (.ok code.quota)) := by
  have hcode : EnabledCode c code s.mem.db := ⟨hrow, henabled⟩
  have hstart : RedeemInv c code s.mem.db s := by
    refine ⟨.inl ⟨rfl, ?_⟩, ?_⟩
    · intro i q hi
      rw [hidle i] at hi
      cases hi
    intro i
    rw [hidle i]
    trivial
  have hend := hstart.run hcode hrun
  refine ⟨?_, fun i hlost => loser_changes_nothing hrun hlost, ?_⟩
  · intro i q hi
    rcases hend.outcome with ⟨-, hnone⟩ | ⟨w, time, now, hw, hdb, honly⟩
    · exact absurd hi (hnone i q)
    obtain rfl := honly i q hi
    rw [hw] at hi
    cases hi
    rw [hdb]
    exact ⟨rfl, RedeemDB.redeemed_creditedTo .., honly⟩
  · rintro hred ⟨i⟩ hdone
    rcases hend.outcome with ⟨hdb, hnone⟩ | ⟨w, -, -, hw, -⟩
    · obtain ⟨r, hr⟩ := hdone i
      cases r with
      | ok q => exact absurd hr (hnone i q)
      | error err =>
        refine absurd hr (no_failure_before_redeemed hred hstart hcode hrun ?_ hdb i err)
        intro _ j err' hj
        rw [hidle j] at hj
        cases hj
    · exact ⟨w, hw⟩

end Runs

def sampleRedemption : RedemptionRow := ⟨3, "gift", .enabled, 50, 1, "whitelist", "a", 0, 0, 100⟩

def sampleRedeems : Shared (Fin 2) RedeemPhase (RedeemMem (Fin 2)) where
  mem := ⟨⟨fun key => if key = "k" then some sampleRedemption else none,
    fun u => if u = 1 ∨ u = 2 then some ⟨10, 20, 30⟩ else none, []⟩, none⟩
  phase _ := .idle

def sampleRedeemCalls : RedeemCalls (Fin 2) := ⟨"k", fun i => i.val + 1, false⟩

def sampleRedeemEvents (is : List (Fin 2)) : List (SharedEvent (Fin 2) RedeemEnv Empty) := is.map (.call · ⟨10, false⟩)

theorem redeemed_once_two_users :
    let next := (redeemProgram sampleRedeemCalls).next
    let s' := (sampleRedeemEvents [0, 1, 1, 0, 1, 1, 0]).foldl next sampleRedeems
    s'.phase 0 = .done (.error .redeemFailed) ∧ s'.phase 1 = .done (.ok 50) ∧
      CreditedTo sampleRedemption 2 sampleRedeems.mem.db s'.mem.db := by
  intro next s'
  have hrun : Run (moves (redeemProgram sampleRedeemCalls).step) sampleRedeems _ s' := Run.trail next sampleRedeems _
  have h := redeemed_once rfl rfl (fun _ => rfl) hrun
  have hwon : s'.phase 1 = .done (.ok 50) := by decide +kernel
  exact ⟨by decide +kernel, hwon, (h.1 1 50 hwon).2.1⟩

end NewApi
