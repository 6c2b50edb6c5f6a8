import NewApi.Proof.TopUp
import NewApi.Spec.Redemption

/-!
# The ceiling of the wallet

`creditTopUpQuota` adds to the `quota` column under a condition that keeps it below `MaxQuota`. `Redeem`,
`TransferAffQuotaToQuota` and the refunds add without one: on SQLite the balance stays in the domain as long as these
find room for what they add (`CreditEvent.fits`).
-/

namespace NewApi

open Trace CreditDB Except Function

variable {cfg : CreditConfig} {st st' : CreditDB} {userId userId' : ℕ} {f : PayUser → PayUser} {check : PayUser → ℤ}

def CreditDB.InDomain (userId : ℕ) (st : CreditDB) : Prop :=
  ∀ user, st.pay.users userId = some user → user.quota ≤ maxQuota

def CreditDB.hasRoom (userId : ℕ) (amount : ℤ) (st : CreditDB) : Prop :=
  ∀ user, st.pay.users userId = some user → user.quota + amount ≤ maxQuota

def CreditEvent.fits (cfg : CreditConfig) (st : CreditDB) : CreditEvent → Prop
  | .topUp _ _ _ _ | .take _ _ _ => True
  | .redeem key userId _ _ => ∀ code, st.codes key = some code → code.poolType = .quota → st.hasRoom userId code.quota
  | .transfer userId quota _ => st.hasRoom userId quota
  | .refund userId quota _ => cfg.batchUpdateEnabled = false → st.hasRoom userId quota
  | .batchUpdate userId _ => st.hasRoom userId (st.pending userId)

/-- The codes have at most `MaxQuota`, and no more is refunded than was taken. -/
def CreditEvent.proper (st : CreditDB) : CreditEvent → Prop
  | .redeem key _ _ _ => ∀ code, st.codes key = some code → code.quota ≤ maxQuota
  | .refund userId quota _ => quota ≤ st.taken userId
  | .topUp _ _ _ _ | .take _ _ _ | .transfer _ _ _ | .batchUpdate _ _ => True

local instance decidableForallSome {α : Type} (o : Option α) (p : α → Prop) [DecidablePred p] :
    Decidable (∀ a, o = some a → p a) :=
  match o with
  | none => isTrue fun _ h => nomatch h
  | some b => decidable_of_iff (p b) (by simp)

instance (userId : ℕ) (amount : ℤ) (st : CreditDB) : Decidable (st.hasRoom userId amount) := by
  unfold hasRoom
  infer_instance

instance (cfg : CreditConfig) (st : CreditDB) (e : CreditEvent) : Decidable (e.fits cfg st) := by
  cases e <;> unfold CreditEvent.fits <;> infer_instance

instance (st : CreditDB) (e : CreditEvent) : Decidable (e.proper st) := by
  cases e <;> unfold CreditEvent.proper <;> infer_instance

theorem updateUser_inDomain (hup : st.updateUser cfg userId' f check = some st') (h : st.InDomain userId)
    (hf : ∀ user, st.pay.users userId' = some user → user.quota ≤ maxQuota →
      cfg.database.intColumn (check (f user)) = true → (f user).quota ≤ maxQuota) :
    st'.InDomain userId := by
  unfold updateUser at hup
  split at hup
  · rw [← Option.some.inj hup]
    exact h
  next user huser =>
    split at hup
    next hfits =>
      rw [← Option.some.inj hup]
      intro u hu
      simp only at hu
      by_cases hid : userId = userId'
      · subst hid
        rw [update_self] at hu
        cases hu
        exact hf user huser (h user huser) hfits
      · rw [update_of_ne hid] at hu
        exact h u hu
    next => cases hup

theorem addToQuota_inDomain {amount : ℤ}
    (hup : st.updateUser cfg userId' f (·.quota) = some st') (h : st.InDomain userId)
    (hf : ∀ user, (f user).quota = user.quota + amount)
    (hroom : cfg.database ≠ .sqlite ∨ st.hasRoom userId' amount) : st'.InDomain userId := by
  refine updateUser_inDomain hup h fun user huser _ hcolumn => ?_
  rcases hroom with hdb | hroom
  · unfold DatabaseType.intColumn at hcolumn
    simp only [hdb, decide_false, Bool.false_or, Bool.and_eq_true, decide_eq_true_eq] at hcolumn
    exact hcolumn.2
  · rw [hf]
    exact hroom user huser

theorem lowerQuota_inDomain (hup : st.updateUser cfg userId' f check = some st') (h : st.InDomain userId)
    (hf : ∀ user, (f user).quota ≤ user.quota) : st'.InDomain userId :=
  updateUser_inDomain hup h fun user _ hle _ => (hf user).trans hle

theorem afterCall_inDomain {α : Type} {reply : Reply} {r : Except CreditErr α} {f : α → CreditDB}
    (h : st.InDomain userId) (hr : ∀ a, r = .ok a → (f a).InDomain userId) :
    (afterCall reply st r f).InDomain userId := by
  unfold afterCall
  split
  next a =>
    unfold Reply.effect
    split
    · exact h
    · exact hr a rfl
  next => exact h

theorem call_inDomain {tradeNo : String} {call : TopUpCall} {now : ℤ} {reply : Reply} (h : st.InDomain userId) :
    CreditDB.InDomain userId { st with pay := st.pay.call cfg.quotaPerUnit tradeNo call now reply } := by
  have hmove := PayDB.call_move cfg.quotaPerUnit st.pay tradeNo call now reply
  generalize st.pay.call cfg.quotaPerUnit tradeNo call now reply = pay at hmove ⊢
  intro u hu
  cases hmove with
  | same => exact h u hu
  | moved => exact h u hu
  | @credited _ _ topUp _ _ _ hcredit =>
    rw [hcredit.newUsers] at hu
    by_cases hid : userId = topUp.userId
    · subst hid
      rw [update_self] at hu
      cases hu
      rw [hcredit.newQuota]
      exact hcredit.ceiling.le
    · rw [update_of_ne hid] at hu
      exact h u hu

theorem redeem_inDomain {now : ℤ} {key : String} {r : ℤ × CreditDB} (h : st.InDomain userId)
    (hr : redeem cfg now key userId' st = .ok r) (hroom : cfg.database ≠ .sqlite ∨
      ∀ code, st.codes key = some code → code.poolType = .quota → st.hasRoom userId' code.quota) :
    r.2.InDomain userId := by
  unfold redeem at hr
  split_ifs at hr
  split at hr
  next => cases hr
  next code hcode =>
    split at hr
    · cases hr
    split at hr
    · cases hr
    simp only at hr
    split at hr
    next => cases hr
    next st1 hpool =>
      rw [← ok.inj hr]
      unfold addPool at hpool
      split at hpool
      · exact lowerQuota_inDomain hpool h fun _ => le_rfl
      · exact lowerQuota_inDomain hpool h fun _ => le_rfl
      next hquota =>
        refine addToQuota_inDomain hpool h (fun _ => rfl) ?_
        exact hroom.imp_right fun hfits => hfits code hcode hquota

theorem addQuota_inDomain {amount : ℤ} (hr : st.addQuota cfg userId' amount = .ok st')
    (h : st.InDomain userId) (hroom : cfg.database ≠ .sqlite ∨
      (cfg.batchUpdateEnabled = false → st.hasRoom userId' amount)) : st'.InDomain userId := by
  unfold addQuota at hr
  split at hr
  · rw [← ok.inj hr]
    exact h
  next hbatch =>
    split at hr
    next => cases hr
    next st1 hup =>
      rw [← ok.inj hr]
      exact addToQuota_inDomain hup h (fun _ => rfl) (hroom.imp_right fun hfits => hfits (by simpa using hbatch))

theorem CreditDB.InDomain.next {e : CreditEvent} (h : st.InDomain userId)
    (hfits : cfg.database ≠ .sqlite ∨ e.fits cfg st) : (st.next cfg e).InDomain userId := by
  cases e with
  | topUp => exact call_inDomain h
  | redeem => exact afterCall_inDomain h fun r hr => redeem_inDomain h hr hfits
  | transfer =>
    refine afterCall_inDomain h fun st' hr => ?_
    unfold transferAffQuotaToQuota at hr
    split at hr
    · cases hr
    split at hr
    next => cases hr
    next user huser =>
      split at hr
      · cases hr
      simp only at hr
      split at hr
      next => cases hr
      next st1 hup =>
        rw [← ok.inj hr]
        exact addToQuota_inDomain hup h (fun _ => rfl) hfits
  | take =>
    refine afterCall_inDomain h fun st' hr => ?_
    unfold decreaseUserQuota addQuota at hr
    split at hr
    · cases hr
    next hneg =>
      split at hr
      · rw [← ok.inj hr]
        exact h
      split at hr
      next => cases hr
      next st1 hup =>
        rw [← ok.inj hr]
        refine lowerQuota_inDomain hup h fun user => ?_
        simp only
        omega
  | refund =>
    refine afterCall_inDomain h fun st' hr => ?_
    unfold increaseUserQuota at hr
    split at hr
    · cases hr
    · exact addQuota_inDomain hr h hfits
  | batchUpdate userId' =>
    simp only [CreditDB.next, writePending]
    split
    · exact h
    cases hup : updateUser cfg userId' (fun u => { u with quota := u.quota + st.pending userId' })
        (·.quota) { st with pending := update st.pending userId' 0 } with
    | none => exact h
    | some st1 => exact addToQuota_inDomain hup h (fun _ => rfl) hfits

def CreditDB.moves (cfg : CreditConfig) (st : CreditDB) (e : CreditEvent) (st' : CreditDB) : Prop := st' = st.next cfg e

/-- **The wallet stays in the 32-bit domain** if redemptions, transfers and refunds find room, and on MySQL and
PostgreSQL always. -/
theorem quota_le_maxQuota (cfg : CreditConfig) (st st' : CreditDB) (userId : ℕ) (h0 : st.InDomain userId)
    (evs : List CreditEvent)
    (hrun : Run (within (CreditDB.moves cfg) fun st e =>
      e.proper st ∧ (cfg.database ≠ .sqlite ∨ e.fits cfg st)) st evs st') : st'.InDomain userId := by
  refine hrun.inv ?_ h0
  rintro st e _ h ⟨rfl, -, hfits⟩
  exact h.next hfits

def sampleCredit (quota : ℤ) : CreditDB where
  pay := ⟨fun _ => none, fun userId => if userId = 1 then some ⟨quota, 600000, 0, 0, "", ""⟩ else none⟩
  codes := fun key => if key = "K1" then some ⟨.enabled, 500, .quota, .none, [], 0, 0, 0⟩ else none
  packages := fun _ => []
  pending := fun _ => 0
  taken := fun _ => 0

def sqliteConfig : CreditConfig := ⟨.sqlite, false, 500000⟩

theorem quota_le_maxQuota_with_room :
    (let evs : List CreditEvent := [.take 1 200 .ok, .redeem "K1" 1 7 .ok, .transfer 1 500000 .ok, .refund 1 200 .ok]
     ((evs.foldl (CreditDB.next sqliteConfig) (sampleCredit 1000)).pay.users 1).map (·.quota) = some 501500 ∧
       (evs.foldl (CreditDB.next sqliteConfig) (sampleCredit 1000)).InDomain 1) := by
  refine ⟨by decide +kernel, ?_⟩
  refine quota_le_maxQuota sqliteConfig (sampleCredit 1000) _ 1 ?_ _ (Run.of_allowed (by decide +kernel))
  intro user huser
  cases huser
  decide

/-- At the ceiling the code is credited all the same, and the stored quota leaves the domain. -/
theorem redeem_exceeds_maxQuota :
    ¬ (∀ (cfg : CreditConfig) (st st' : CreditDB) (userId : ℕ) (evs : List CreditEvent), st.InDomain userId →
      Run (within (CreditDB.moves cfg) fun st e => e.proper st) st evs st' → st'.InDomain userId) := by
  intro h
  have hdomain : (sampleCredit maxQuota).InDomain 1 := by
    intro user huser
    cases huser
    exact le_rfl
  have hrun : Run (within (moves sqliteConfig) fun st e => e.proper st) (sampleCredit maxQuota)
      [.redeem "K1" 1 7 .ok] _ := Run.of_allowed (by decide +kernel)
  have hafter := h sqliteConfig _ _ 1 _ hdomain hrun ⟨maxQuota + 500, 600000, 0, 0, "", ""⟩ (by decide +kernel)
  exact absurd hafter (by decide)

end NewApi
