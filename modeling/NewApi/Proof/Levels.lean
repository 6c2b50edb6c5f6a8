import NewApi.Proof.Subscription
import NewApi.Spec.BillingSession
import Mathlib.Algebra.Group.Pi.Lemmas
import Mathlib.Tactic.Abel

/-!
# Levels of the accounts

The balances a request can touch as one vector over the accounts: what is left in the wallet, of the requests, of the
tokens and of the API token, and, negatively, what the API token and each subscription have used. Every operation of
the store subtracts a vector (`Takes st st' v`), and the queue of the batch updates disappears (`level_batchUpdate`).
-/

namespace NewApi

open Store

inductive Account
  | wallet | requests | tokens | tokenRemain | tokenUsed
  | subscription (id : ℕ)
  deriving DecidableEq

def SubTable.used (t : SubTable) (id : ℕ) : ℤ :=
  match t.find id with
  | some sub => sub.amountUsed
  | none => 0

def SubTable.usedNow (env : SubEnv) (t : SubTable) (id : ℕ) : ℤ :=
  match t.find id with
  | some sub => (env.reset sub).amountUsed
  | none => 0

def Store.level (st : Store) : Account → ℤ
  | .wallet => st.walletLevel
  | .requests => st.requestsBalance
  | .tokens => st.tokensBalance
  | .tokenRemain => st.tokenRemain
  | .tokenUsed => -st.tokenUsed
  | .subscription id => -st.sub.table.used id

def Store.levelNow (env : SubEnv) (st : Store) : Account → ℤ
  | .subscription id => -st.sub.table.usedNow env id
  | a => st.level a

theorem level_batchUpdate (st : Store) : (batchUpdate st).level = st.level := by
  funext a
  cases a <;>
    simp [level, batchUpdate, walletLevel, tokenRemain, tokenUsed]

def tokenCharge (x : ℤ) : Account → ℤ := Pi.single .tokenRemain x + Pi.single .tokenUsed x

@[simp] theorem tokenCharge_zero : tokenCharge 0 = 0 := by simp [tokenCharge]

theorem tokenCharge_add (x y : ℤ) : tokenCharge (x + y) = tokenCharge x + tokenCharge y := by
  simp only [tokenCharge, Pi.single_add]; abel

theorem tokenCharge_neg (x : ℤ) : tokenCharge (-x) = -tokenCharge x := by simp only [tokenCharge, Pi.single_neg]; abel

structure Takes (st st' : Store) (v : Account → ℤ) : Prop where
  level : st'.level = st.level - v
  sub : st'.sub = st.sub

variable {cfg : Config} {env : Env} {dbErr : Bool} {st st' : Store} {x : ℤ} {cache : CacheQuotaResult}
  {sub : UserSubscription}

theorem Takes.refl (st : Store) : Takes st st 0 := ⟨(sub_zero _).symm, rfl⟩

theorem Takes.trans {st'' : Store} {v w : Account → ℤ} (h : Takes st st' v) (h' : Takes st' st'' w) :
    Takes st st'' (v + w) :=
  ⟨by rw [h'.level, h.level]; abel, h'.sub.trans h.sub⟩

theorem map_eq_ok {ε α β : Type} {r : Except ε α} {f : α → β} {b : β} (h : r.map f = .ok b) :
    ∃ a, r = .ok a ∧ f a = b := by
  cases r with
  | error => cases h
  | ok a => exact ⟨a, rfl, Except.ok.inj h⟩

theorem bind_eq_ok {ε α β : Type} {r : Except ε α} {f : α → Except ε β} {b : β} (h : r.bind f = .ok b) :
    ∃ a, r = .ok a ∧ f a = .ok b := by
  cases r with
  | error => cases h
  | ok a => exact ⟨a, rfl, h⟩

theorem takes_quota (st : Store) (x : ℤ) : Takes st { st with quota := st.quota + x } (Pi.single .wallet (-x)) := by
  refine ⟨funext fun a => ?_, rfl⟩
  cases a <;> simp [level, walletLevel, tokenRemain, tokenUsed, add_right_comm]

theorem takes_pendingQuota (st : Store) (x : ℤ) :
    Takes st { st with pendingQuota := st.pendingQuota + x } (Pi.single .wallet (-x)) := by
  refine ⟨funext fun a => ?_, rfl⟩
  cases a <;> simp [level, walletLevel, tokenRemain, tokenUsed, add_assoc]

theorem takes_requestsBalance (st : Store) (x : ℤ) :
    Takes st { st with requestsBalance := st.requestsBalance + x } (Pi.single .requests (-x)) := by
  refine ⟨funext fun a => ?_, rfl⟩
  cases a <;> simp [level, walletLevel, tokenRemain, tokenUsed]

theorem takes_tokensBalance (st : Store) (x : ℤ) :
    Takes st { st with tokensBalance := st.tokensBalance + x } (Pi.single .tokens (-x)) := by
  refine ⟨funext fun a => ?_, rfl⟩
  cases a <;> simp [level, walletLevel, tokenRemain, tokenUsed]

theorem takes_tokenQuota (st : Store) (x : ℤ) :
    Takes st { st with remainQuota := st.remainQuota + x, usedQuota := st.usedQuota - x } (tokenCharge (-x)) := by
  refine ⟨funext fun a => ?_, rfl⟩
  cases a <;> simp [level, walletLevel, tokenRemain, tokenUsed, tokenCharge] <;>
    omega

theorem takes_pendingTokenQuota (st : Store) (x : ℤ) :
    Takes st { st with pendingTokenQuota := st.pendingTokenQuota + x } (tokenCharge (-x)) := by
  refine ⟨funext fun a => ?_, rfl⟩
  cases a <;> simp [level, walletLevel, tokenRemain, tokenUsed, tokenCharge] <;>
    omega

theorem takes_packages (st : Store) (ps : List UserBalancePackage) : Takes st { st with packages := ps } 0 := by
  refine ⟨funext fun a => ?_, rfl⟩
  cases a <;> simp [level, walletLevel, tokenRemain, tokenUsed]

theorem persistUserQuotaDelta_takes (h : persistUserQuotaDelta cfg dbErr x st = .ok st') :
    Takes st st' (Pi.single .wallet (-x)) := by
  unfold persistUserQuotaDelta at h
  split_ifs at h
  · cases h; exact takes_pendingQuota st x
  · cases h; exact takes_quota st x

theorem increaseUserQuota_takes (h : increaseUserQuota cfg dbErr x st = .ok st') :
    Takes st st' (Pi.single .wallet (-x)) := by
  unfold increaseUserQuota at h
  split at h
  · cases h
  · exact persistUserQuotaDelta_takes h

theorem decreaseUserQuota_takes (h : decreaseUserQuota cfg dbErr x st = .ok st') :
    Takes st st' (Pi.single .wallet x) := by
  unfold decreaseUserQuota at h
  split at h
  · cases h
  · simpa using persistUserQuotaDelta_takes h

theorem tryReserveUserQuota_takes (h : tryReserveUserQuota cfg dbErr cache x st = .ok (true, st')) :
    Takes st st' (Pi.single .wallet x) := by
  unfold tryReserveUserQuota at h
  split_ifs at h
  · cases h
    rw [‹x = 0›, Pi.single_zero]
    exact Takes.refl st
  cases cache with
  | insufficient => cases h
  | ok =>
    obtain ⟨st1, h1, heq⟩ := map_eq_ok h
    cases heq
    simpa using persistUserQuotaDelta_takes h1
  | miss =>
    dsimp only [reserveUserQuotaDB] at h
    split at h
    · cases h
    split at h
    · cases h
      simpa [sub_eq_add_neg] using takes_quota st (-x)
    · cases h

theorem tryReserveUserRequests_takes (h : tryReserveUserRequests dbErr x st = .ok (true, st'))
    (hx : 0 ≤ x) : Takes st st' (Pi.single .requests x) := by
  unfold tryReserveUserRequests at h
  split at h
  · cases h
    rw [show x = 0 by omega, Pi.single_zero]
    exact Takes.refl st
  split at h
  · cases h
  split at h
  · cases h
    simpa [sub_eq_add_neg] using takes_requestsBalance st (-x)
  · cases h

theorem increaseUserRequests_takes (h : increaseUserRequests dbErr x st = .ok st') (hx : 0 ≤ x) :
    Takes st st' (Pi.single .requests (-x)) := by
  unfold increaseUserRequests at h
  split_ifs at h
  · cases h
    rw [show x = 0 by omega, neg_zero, Pi.single_zero]
    exact Takes.refl st
  · cases h; exact takes_requestsBalance st x

theorem increaseUserTokens_takes (h : increaseUserTokens dbErr x st = .ok st') (hx : 0 ≤ x) :
    Takes st st' (Pi.single .tokens (-x)) := by
  unfold increaseUserTokens at h
  split_ifs at h
  · cases h
    rw [show x = 0 by omega, neg_zero, Pi.single_zero]
    exact Takes.refl st
  · cases h; exact takes_tokensBalance st x

theorem decreaseUserTokens_takes (h : decreaseUserTokens dbErr x st = .ok st') (hx : 0 ≤ x) :
    Takes st st' (Pi.single .tokens x) := by
  unfold decreaseUserTokens at h
  split_ifs at h
  · cases h
    rw [show x = 0 by omega, Pi.single_zero]
    exact Takes.refl st
  · cases h
    simpa [sub_eq_add_neg] using takes_tokensBalance st (-x)

theorem tryReserveUserTokens_pos {r : Bool × Store} (hx : 0 < x) (h : tryReserveUserTokens dbErr x st = .ok r) :
    (x ≤ st.tokensBalance ∧ r.1 = true ∧ Takes st r.2 (Pi.single .tokens x)) ∨
      (st.tokensBalance < x ∧ r.1 = false) := by
  unfold tryReserveUserTokens at h
  rw [if_neg (by omega)] at h
  split_ifs at h
  · cases h
    exact .inl ⟨‹_›, rfl, by simpa [sub_eq_add_neg] using takes_tokensBalance st (-x)⟩
  · cases h
    exact .inr ⟨by omega, rfl⟩

theorem persistTokenQuotaDelta_takes (h : persistTokenQuotaDelta cfg dbErr x st = .ok st') :
    Takes st st' (tokenCharge (-x)) := by
  unfold persistTokenQuotaDelta at h
  split_ifs at h
  · cases h; exact takes_pendingTokenQuota st x
  · cases h; exact takes_tokenQuota st x

theorem increaseTokenQuota_takes (h : increaseTokenQuota cfg dbErr x st = .ok st') :
    Takes st st' (tokenCharge (-x)) := by
  unfold increaseTokenQuota at h
  split at h
  · cases h
  · exact persistTokenQuotaDelta_takes h

theorem decreaseTokenQuota_takes (h : decreaseTokenQuota cfg dbErr x st = .ok st') : Takes st st' (tokenCharge x) := by
  unfold decreaseTokenQuota at h
  split at h
  · cases h
  · simpa using persistTokenQuotaDelta_takes h

theorem tryReserveTokenQuota_takes {unlimited : Bool}
    (h : tryReserveTokenQuota cfg dbErr cache unlimited x st = .ok (true, st')) :
    Takes st st' (tokenCharge x) := by
  unfold tryReserveTokenQuota at h
  split_ifs at h
  · cases h
    rw [‹x = 0›, tokenCharge_zero]
    exact Takes.refl st
  · obtain ⟨st1, h1, heq⟩ := map_eq_ok h
    cases heq
    exact decreaseTokenQuota_takes h1
  cases cache with
  | insufficient => cases h
  | ok =>
    obtain ⟨st1, h1, heq⟩ := map_eq_ok h
    cases heq
    simpa using persistTokenQuotaDelta_takes h1
  | miss =>
    dsimp only [reserveTokenQuotaDB] at h
    split at h
    · cases h
    split at h
    · cases h
      simpa [sub_eq_add_neg] using takes_tokenQuota st (-x)
    · cases h

def RelayInfo.tokenPart (info : RelayInfo) (x : ℤ) : Account → ℤ := if info.isPlayground then 0 else tokenCharge x

theorem preConsumeTokenQuota_takes {info : RelayInfo}
    (h : preConsumeTokenQuota cfg env info x st = .ok st') : Takes st st' (info.tokenPart x) := by
  unfold preConsumeTokenQuota at h
  unfold RelayInfo.tokenPart
  split at h
  · cases h
  split at h
  · cases h
    rw [if_pos ‹_›]
    exact Takes.refl st
  rw [if_neg ‹_›]
  split at h
  · cases h
  · cases h
    exact tryReserveTokenQuota_takes ‹_›
  · cases h

theorem increaseUserQuota_ok (cfg : Config) (st : Store) (hx : 0 ≤ x) :
    ∃ st', increaseUserQuota cfg false x st = .ok st' := by
  unfold increaseUserQuota persistUserQuotaDelta
  rw [if_neg (by omega)]
  split <;> exact ⟨_, rfl⟩

theorem decreaseUserQuota_ok (cfg : Config) (st : Store) (hx : 0 ≤ x) :
    ∃ st', decreaseUserQuota cfg false x st = .ok st' := by
  unfold decreaseUserQuota persistUserQuotaDelta
  rw [if_neg (by omega)]
  split <;> exact ⟨_, rfl⟩

theorem increaseTokenQuota_ok (cfg : Config) (st : Store) (hx : 0 ≤ x) :
    ∃ st', increaseTokenQuota cfg false x st = .ok st' := by
  unfold increaseTokenQuota persistTokenQuotaDelta
  rw [if_neg (by omega)]
  split <;> exact ⟨_, rfl⟩

theorem increaseUserRequests_ok (st : Store) (x : ℤ) : ∃ st', increaseUserRequests false x st = .ok st' := by
  unfold increaseUserRequests
  split <;> exact ⟨_, rfl⟩

theorem increaseUserTokens_ok (st : Store) (x : ℤ) : ∃ st', increaseUserTokens false x st = .ok st' := by
  unfold increaseUserTokens
  split <;> exact ⟨_, rfl⟩

theorem deductUserBalancePackage_takes (cfg : Config) (dbErr : Bool) (now : ℤ) (model : String)
    (poolType : PoolType) (amount : ℤ) (st : Store) :
    Takes st (deductUserBalancePackage cfg dbErr now model poolType amount st) 0 := by
  unfold deductUserBalancePackage
  split
  · exact Takes.refl st
  · exact takes_packages st _

theorem SubTable.used_eq {t : SubTable} {id : ℕ} (h : t.find id = some sub) : t.used id = sub.amountUsed := by
  simp [used, h]

theorem SubTable.usedNow_eq {senv : SubEnv} {t : SubTable} {id : ℕ}
    (h : t.find id = some sub) : t.usedNow senv id = (senv.reset sub).amountUsed := by
  simp [usedNow, h]

theorem level_saveUsed {id : ℕ} {n : ℕ} (h : st.sub.table.find id = some sub)
    (hn : (n : ℤ) = sub.amountUsed + x) (recs : String → Option SubscriptionPreConsumeRecord) :
    ({ st with sub := ⟨st.sub.table.save (sub.withUsed n), recs⟩ } : Store).level =
      st.level - Pi.single (.subscription id) x := by
  have hid := SubTable.find_id h
  funext a
  cases a with
  | subscription j =>
    rcases eq_or_ne j id with rfl | hj
    · have hself : (st.sub.table.save (sub.withUsed n)).find j = some (sub.withUsed n) := SubTable.find_save_self h hid
      simp only [level, Pi.sub_apply, Pi.single_eq_same, SubTable.used_eq hself,
        SubTable.used_eq h, UserSubscription.withUsed_amountUsed, hn]
      omega
    have hother : (st.sub.table.save (sub.withUsed n)).find j = st.sub.table.find j :=
      SubTable.find_save_ne (by rw [UserSubscription.withUsed_id, hid]; exact hj)
    simp [level, SubTable.used, hother, hj]
  | _ => simp [level, walletLevel, tokenRemain, tokenUsed]

end NewApi
