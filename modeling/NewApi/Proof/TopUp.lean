import NewApi.Trace.Run
import NewApi.Proof.Levels
import NewApi.Spec.TopUp

/-!
# Top-up orders are credited once

What a call can have done is said once (`TopUpMove`): nothing, a change of the status of a pending order, or one credit
of a pending order (`Credited`) that leaves it `success`. An order that is not pending never becomes pending again
(`credited_at_most_once`).

The guard on the provider is missing in `RechargeByProvider`, and `ManualCompleteTopUp` multiplies the amount of a
Creem order by `QuotaPerUnit` although `RechargeCreem` does not.
-/

namespace NewApi

open Trace Function PayDB TopUpCall

variable {quotaPerUnit : ℚ} {now : ℤ} {tradeNo : String} {db db' : PayDB}

/-- The pending order becomes `success`, and its user gets `q`. -/
structure Credited (db db' : PayDB) (tradeNo : String) (q : ℤ) (topUp topUp' : TopUp) (user user' : PayUser) :
    Prop where
  order : db.orders tradeNo = some topUp
  pending : topUp.status = .pending
  row : db.users topUp.userId = some user
  pos : 0 < q
  ceiling : user.quota + q < maxQuota
  newOrders : db'.orders = Function.update db.orders tradeNo (some topUp')
  done : topUp'.status = .success
  sameUser : topUp'.userId = topUp.userId
  newUsers : db'.users = Function.update db.users topUp.userId (some user')
  newQuota : user'.quota = user.quota + q

/-- **What a call can do**: nothing, a change of the status of a pending order, or one credit. -/
inductive TopUpMove (call : TopUpCall) (tradeNo : String) (db : PayDB) : PayDB → Prop
  | same : TopUpMove call tradeNo db db
  | moved {topUp status} (horder : db.orders tradeNo = some topUp) (hpending : topUp.status = .pending) :
      TopUpMove call tradeNo db ⟨update db.orders tradeNo (some { topUp with status }), db.users⟩
  | credited {db' q topUp topUp' user user'} (hcredit : Credited db db' tradeNo q topUp topUp' user user')
      (hcall : call = .manual ∨ (∃ p, call = .byProvider p) ∨ call.provider = some topUp.paymentProvider) :
      TopUpMove call tradeNo db db'

theorem creditTopUpQuota_ok {userId : ℕ} {q : ℤ} {updates : PayUser → PayUser}
    (h : creditTopUpQuota userId q updates db = .ok db') :
    ∃ user, db.users userId = some user ∧ 0 < q ∧ user.quota + q < maxQuota ∧
      db' = ⟨db.orders, update db.users userId (some { updates user with quota := user.quota + q })⟩ := by
  unfold creditTopUpQuota topUpQuotaMaxCurrent at h
  split at h
  next => cases h
  next maxCurrent hmax =>
    split at hmax
    · cases hmax
    next hrange =>
      have hmaxCurrent := Except.ok.inj hmax
      split at h
      next => cases h
      next user huser =>
        split at h
        next hle =>
          refine ⟨user, huser, by omega, by omega, ?_⟩
          exact (Except.ok.inj h).symm
        next => cases h

theorem completeTopUp_move {call : TopUpCall} {c : Completion} {r : Option ℤ}
    (hc : ∀ topUp, (c.order topUp).userId = topUp.userId)
    (hcall : ∀ topUp : TopUp, (∀ p, c.provider = some p → p = topUp.paymentProvider) →
      call = .manual ∨ (∃ p, call = .byProvider p) ∨ call.provider = some topUp.paymentProvider)
    (h : completeTopUp c now tradeNo db = .ok (r, db')) : TopUpMove call tradeNo db db' := by
  unfold completeTopUp at h
  split at h
  · cases h
  split at h
  next => cases h
  next topUp horder =>
    split at h
    · cases h
    next hprovider =>
      split_ifs at h
      · cases h
        exact .same
      next hpending =>
        split at h
        next => cases h
        next q hquota =>
          split at h
          · cases h
          next hpos =>
            obtain ⟨db1, hcredit, heq⟩ := map_eq_ok h
            cases heq
            obtain ⟨user, huser, hq, hceil, rfl⟩ := creditTopUpQuota_ok hcredit
            refine .credited ⟨horder, by simpa using hpending, huser, hq, hceil, rfl, rfl, hc topUp, rfl, rfl⟩
              (hcall topUp fun p hp => ?_)
            simpa [hp] using hprovider

theorem of_orRechargeFailed {α : Type} {x : Except TopUpErr α} {a : α} (h : orRechargeFailed x = .ok a) :
    x = .ok a := by
  cases x with
  | error => cases h
  | ok => exact h

theorem TopUpCall.run_move {call : TopUpCall} {r : Option ℤ} (h : call.run quotaPerUnit now tradeNo db = .ok (r, db')) :
    TopUpMove call tradeNo db db' := by
  cases call with
  | epay =>
    exact completeTopUp_move (fun topUp => by simp only; split <;> rfl)
      (fun _ hp => .inr (.inr (congrArg some (hp _ rfl)))) h
  | byProvider provider =>
    exact completeTopUp_move (fun topUp => by simp only; split <;> rfl) (fun _ _ => .inr (.inl ⟨provider, rfl⟩)) h
  | stripe _ | creem _ | waffo | waffoPancake =>
    exact completeTopUp_move (fun _ => rfl) (fun _ hp => .inr (.inr (congrArg some (hp _ rfl)))) (of_orRechargeFailed h)
  | manual => exact completeTopUp_move (fun _ => rfl) (fun _ _ => .inl rfl) h
  | updatePending provider status =>
    simp only [run, updatePendingTopUpStatus] at h
    split at h
    · cases h
    split at h
    next => cases h
    next topUp horder =>
      split_ifs at h
      · cases h
      · cases h
      next hpending =>
        cases h
        exact .moved horder (by simpa using hpending)

def PayDB.quotaFor (db : PayDB) (tradeNo : String) : ℤ :=
  (db.orders tradeNo).elim 0 fun topUp => (db.users topUp.userId).elim 0 (·.quota)

def PayEvent.isCallOn (tradeNo : String) : PayEvent → Bool
  | .call tradeNo' _ _ _ => tradeNo' = tradeNo
  | .setQuota _ _ => false

/-- The call on the order raised the balance of its user. -/
def paidFor (tradeNo : String) (m : PayDB × PayEvent × PayDB) : Bool :=
  m.2.1.isCallOn tradeNo && decide (m.1.quotaFor tradeNo < m.2.2.quotaFor tradeNo)

def PayDB.isPending (db : PayDB) (tradeNo : String) : Prop :=
  ∃ topUp, db.orders tradeNo = some topUp ∧ topUp.status = .pending

def PayEvent.provider : PayEvent → Option PaymentProvider
  | .call _ c _ _ => c.provider
  | .setQuota _ _ => none

def PayEvent.isManual : PayEvent → Bool
  | .call _ c _ _ => c = .manual
  | .setQuota _ _ => false

/-- A call of `RechargeByProvider` on the order names the provider that the order has. -/
def PayEvent.namesProvider (tradeNo : String) (db : PayDB) : PayEvent → Prop
  | .call tradeNo' (.byProvider provider) _ _ =>
    tradeNo' = tradeNo → ∀ topUp, db.orders tradeNo = some topUp → provider = topUp.paymentProvider
  | _ => True

def PayDB.moves (quotaPerUnit : ℚ) (db : PayDB) (e : PayEvent) (db' : PayDB) : Prop := db' = db.next quotaPerUnit e

theorem PayDB.call_move (quotaPerUnit : ℚ) (db : PayDB) (tradeNo : String) (call : TopUpCall) (now : ℤ)
    (reply : Reply) : TopUpMove call tradeNo db (db.call quotaPerUnit tradeNo call now reply) := by
  unfold PayDB.call
  split
  next r db' hrun =>
    unfold Reply.effect
    split
    · exact .same
    · exact run_move hrun
  next => exact .same

theorem quotaFor_status {topUp : TopUp} (h : db.orders tradeNo = some topUp) (status : TopUpStatus) :
    quotaFor ⟨update db.orders tradeNo (some { topUp with status }), db.users⟩ tradeNo = db.quotaFor tradeNo := by
  unfold quotaFor
  simp [h]

/-- **One credit**: the order was pending and no longer is, and was credited for its provider, but for the
administrator and `RechargeByProvider`. -/
theorem paidFor_move {m : PayDB × PayEvent × PayDB} (hm : moves (moves quotaPerUnit) db m db')
    (hpaid : paidFor tradeNo m = true) :
    ∃ topUp topUp', m.1.orders tradeNo = some topUp ∧ topUp.status = .pending ∧
      m.2.2.orders tradeNo = some topUp' ∧ topUp'.status = .success ∧
      (m.2.1.isManual = true ∨ (∃ now reply p, m.2.1 = .call tradeNo (.byProvider p) now reply) ∨
        m.2.1.provider = some topUp.paymentProvider) := by
  obtain ⟨before, e, after⟩ := m
  obtain ⟨rfl, hnext, rfl⟩ := hm
  simp only [paidFor, Bool.and_eq_true, decide_eq_true_eq] at hpaid
  obtain ⟨hon, hlt⟩ := hpaid
  cases e with
  | setQuota => cases hon
  | call tradeNo' call now reply =>
    obtain rfl : tradeNo' = tradeNo := by simpa [PayEvent.isCallOn] using hon
    have hmove := call_move quotaPerUnit before tradeNo' call now reply
    rw [← show after = before.call quotaPerUnit tradeNo' call now reply from hnext] at hmove
    cases hmove with
    | same => exact absurd hlt (lt_irrefl _)
    | moved horder =>
      rw [quotaFor_status horder] at hlt
      exact absurd hlt (lt_irrefl _)
    | @credited _ q topUp topUp' user user' hcredit hcall =>
      refine ⟨topUp, topUp', hcredit.order, hcredit.pending, ?_, hcredit.done, ?_⟩
      · rw [hcredit.newOrders, update_self]
      rcases hcall with rfl | ⟨p, rfl⟩ | hprovider
      · exact .inl rfl
      · exact .inr (.inl ⟨now, reply, p, rfl⟩)
      · exact .inr (.inr hprovider)

theorem TopUpMove.isPending {call : TopUpCall} {tradeNo' : String} (hmove : TopUpMove call tradeNo' db db')
    (h : db'.isPending tradeNo) : db.isPending tradeNo := by
  obtain ⟨topUp1, horder1, hpending1⟩ := h
  by_cases hT : tradeNo = tradeNo'
  · subst hT
    cases hmove with
    | same => exact ⟨topUp1, horder1, hpending1⟩
    | moved horder hpending => exact ⟨_, horder, hpending⟩
    | credited hcredit => exact ⟨_, hcredit.order, hcredit.pending⟩
  · -- a call on another order
    refine ⟨topUp1, ?_, hpending1⟩
    cases hmove with
    | same => exact horder1
    | moved => exact (update_of_ne hT _ _).symm.trans horder1
    | credited hcredit =>
      rw [hcredit.newOrders, update_of_ne hT] at horder1
      exact horder1

theorem isPending_of_next {e : PayEvent} (h : (db.next quotaPerUnit e).isPending tradeNo) : db.isPending tradeNo := by
  cases e with
  | setQuota => exact h
  | call tradeNo' call now reply => exact (call_move quotaPerUnit db tradeNo' call now reply).isPending h

/-- **An order is credited at most once, and only while it is pending**, by the administrator or a call for its
provider when every `RechargeByProvider` names the stored one. -/
theorem credited_at_most_once (quotaPerUnit : ℚ) (db db' : PayDB) (tradeNo : String)
    (ms : List (PayDB × PayEvent × PayDB)) (hrun : Run (moves (PayDB.moves quotaPerUnit)) db ms db') :
    ms.countP (paidFor tradeNo) ≤ 1 ∧
    (∀ m ∈ ms, paidFor tradeNo m = true → m.1.isPending tradeNo) ∧
    ((∀ m ∈ ms, m.2.1.namesProvider tradeNo m.1) → ∀ m ∈ ms, paidFor tradeNo m = true → m.2.1.isManual = true ∨
        ∃ topUp, m.1.orders tradeNo = some topUp ∧ m.2.1.provider = some topUp.paymentProvider) := by
  have hpaid : ∀ m ∈ ms, paidFor tradeNo m = true → ∃ topUp topUp', m.1.orders tradeNo = some topUp ∧
      topUp.status = .pending ∧ m.2.2.orders tradeNo = some topUp' ∧ topUp'.status = .success ∧
      (m.2.1.isManual = true ∨ (∃ now reply p, m.2.1 = .call tradeNo (.byProvider p) now reply) ∨
        m.2.1.provider = some topUp.paymentProvider) :=
    hrun.each (fun db m db' _ hm => ⟨trivial, fun h => paidFor_move hm h⟩) trivial
  refine ⟨?_, ?_, ?_⟩
  · refine hrun.countP_le_one (A := fun db => db.isPending tradeNo) (fun _ _ _ _ _ => trivial) ?_ ?_ trivial
    · intro db m db' _ hm hp
      obtain ⟨topUp, topUp', horder, hpending, horder', hdone, -⟩ := paidFor_move hm hp
      obtain ⟨hbefore, -, hafter⟩ := hm
      rw [hbefore] at horder
      rw [hafter] at horder'
      refine ⟨⟨topUp, horder, hpending⟩, ?_⟩
      rintro ⟨topUp1, horder1, hpending1⟩
      rw [horder'] at horder1
      cases horder1
      rw [hdone] at hpending1
      cases hpending1
    · rintro db m db' - ⟨-, hnext, -⟩ hnot hp
      rw [show db' = db.next quotaPerUnit m.2.1 from hnext] at hp
      exact hnot (isPending_of_next hp)
  · intro m hm hp
    obtain ⟨topUp, topUp', horder, hpending, -⟩ := hpaid m hm hp
    exact ⟨topUp, horder, hpending⟩
  · intro hnames m hm hp
    obtain ⟨topUp, topUp', horder, -, -, -, hcall⟩ := hpaid m hm hp
    rcases hcall with hmanual | ⟨now, reply, p, he⟩ | hprovider
    · exact .inl hmanual
    · have hname := hnames m hm
      rw [he] at hname
      have hp' : p = topUp.paymentProvider := hname rfl topUp horder
      refine .inr ⟨topUp, horder, ?_⟩
      rw [he, ← hp']
      rfl
    · exact .inr ⟨topUp, horder, hprovider⟩

def sampleOrder : TopUp := ⟨1, 10, 73 / 10, "paypal", .payPal, 0, .pending⟩

def samplePayDB : PayDB where
  orders := fun tradeNo => if tradeNo = "T1" then some sampleOrder else none
  users := fun userId => if userId = 1 then some ⟨100, 0, 0, 0, "", ""⟩ else none

theorem credited_at_most_once_paypal :
    (let evs : List PayEvent := [.call "T1" (.creem "a@b") 5 .ok, .call "T1" (.byProvider .payPal) 6 .lost,
        .call "T1" (.byProvider .payPal) 7 .ok, .call "T1" .manual 8 .ok]
     (evs.foldl (PayDB.next 500000) samplePayDB).quotaFor "T1" = 5000100 ∧
       (trail (PayDB.next 500000) samplePayDB evs).countP (paidFor "T1") ≤ 1) :=
  ⟨by decide +kernel, (credited_at_most_once 500000 samplePayDB _ "T1" _ (Run.trail _ _ _)).1⟩

/-- A callback of Shopier completes the order that was made with PayPal. -/
theorem credited_by_other_provider :
    ¬ (∀ (quotaPerUnit : ℚ) (db : PayDB) (tradeNo : String) (evs : List PayEvent),
      ∀ m ∈ trail (PayDB.next quotaPerUnit) db evs, paidFor tradeNo m = true → m.2.1.isManual = true ∨
          ∃ topUp, m.1.orders tradeNo = some topUp ∧ m.2.1.provider = some topUp.paymentProvider) := by
  intro h
  rcases h 500000 samplePayDB "T1" [.call "T1" (.byProvider .shopier) 5 .ok] _ List.mem_cons_self
    (by decide +kernel) with hmanual | ⟨topUp, horder, hprovider⟩
  · exact absurd hmanual (by decide)
  · obtain rfl := Option.some.inj horder
    exact absurd hprovider (by decide)

/-- The quota can be credited to the user: it is positive and leaves the balance below the ceiling. -/
def PayDB.creditable (db : PayDB) (userId : ℕ) (q : ℤ) : Bool :=
  decide (0 < q) && (db.users userId).any fun user => decide (user.quota + q < maxQuota ∧ q < maxQuota)

theorem quotaFromDecimalStrict_eq (d : ℚ) : quotaFromDecimalStrict d =
    if minQuota < roundHalfAway d ∧ roundHalfAway d < maxQuota then some (roundHalfAway d) else none := by
  unfold quotaFromDecimalStrict quotaFromDecimalChecked saturateQuota
  by_cases hmax : maxQuota ≤ roundHalfAway d
  · rw [if_pos hmax, if_neg (by omega)]
  by_cases hmin : roundHalfAway d ≤ minQuota
  · rw [if_neg hmax, if_pos hmin, if_neg (by omega)]
  · rw [if_neg hmax, if_neg hmin, if_pos (by omega)]

theorem filter_quotaFromDecimalStrict (db : PayDB) (userId : ℕ) (d : ℚ) :
    (quotaFromDecimalStrict d).filter (db.creditable userId) =
      if db.creditable userId (roundHalfAway d) then some (roundHalfAway d) else none := by
  rw [quotaFromDecimalStrict_eq]
  split
  · rfl
  next hrange =>
    have hnot : db.creditable userId (roundHalfAway d) = false := by
      unfold creditable minQuota at *
      cases hu : db.users userId with
      | none => simp
      | some =>
        simp only [Option.any_some, Bool.and_eq_false_iff, decide_eq_false_iff_not]
        omega
    rw [hnot]
    rfl

theorem roundHalfAway_intCast (n : ℤ) : roundHalfAway n = n := by
  unfold roundHalfAway
  split
  · rw [Int.floor_eq_iff]
    constructor <;> linarith
  have hfloor : ⌊-(n : ℚ) + 1 / 2⌋ = -n := by
    rw [Int.floor_eq_iff]
    push_cast
    constructor <;> linarith
  rw [hfloor, neg_neg]

theorem creditOf_creditTopUpQuota (userId : ℕ) (q : ℤ) (updates : PayUser → PayUser) (db : PayDB) :
    creditOf ((creditTopUpQuota userId q updates db).map (some q, ·)) =
      if db.creditable userId q then some q else none := by
  unfold creditTopUpQuota topUpQuotaMaxCurrent creditable
  by_cases hrange : q ≤ 0 ∨ maxQuota ≤ q
  · have hnot : ¬ (0 < q ∧ q < maxQuota) := by omega
    rw [if_pos hrange]
    cases hu : db.users userId with
    | none => simp [creditOf, Except.map]
    | some user =>
      have hno : ¬ (0 < q ∧ user.quota + q < maxQuota ∧ q < maxQuota) := fun h => hnot ⟨h.1, h.2.2⟩
      simp [creditOf, Except.map, hno]
  · rw [if_neg hrange]
    cases hu : db.users userId with
    | none => simp [creditOf, Except.map]
    | some user =>
      by_cases hle : user.quota ≤ maxQuota - 1 - q
      · have hyes : 0 < q ∧ user.quota + q < maxQuota ∧ q < maxQuota := by omega
        simp [creditOf, Except.map, hle, hyes]
      · have hno : ¬ (0 < q ∧ user.quota + q < maxQuota ∧ q < maxQuota) := by omega
        simp [creditOf, Except.map, hle, hno]

theorem creditOf_completeTopUp {c : Completion} {topUp : TopUp} (hT : tradeNo ≠ "")
    (horder : db.orders tradeNo = some topUp) (hpending : topUp.status = .pending)
    (hguard : c.provider.any (· ≠ topUp.paymentProvider) = false) :
    creditOf (completeTopUp c now tradeNo db) = (c.quota topUp).filter (db.creditable topUp.userId) := by
  unfold completeTopUp
  rw [if_neg hT, horder]
  simp only [hguard, Bool.false_eq_true, if_false, hpending, ne_eq, not_true]
  cases hq : c.quota topUp with
  | none => rfl
  | some q =>
    simp only [reduceCtorEq, false_and, if_false, Option.filter_some]
    by_cases hneg : q ≤ 0
    · rw [if_pos hneg]
      have hnot : db.creditable topUp.userId q = false := by
        unfold creditable
        simp only [Bool.and_eq_false_iff, decide_eq_false_iff_not]
        exact .inl (by omega)
      rw [hnot]
      rfl
    · rw [if_neg hneg]
      exact creditOf_creditTopUpQuota topUp.userId q c.user _

theorem creditOf_orRechargeFailed (x : Except TopUpErr (Option ℤ × PayDB)) :
    creditOf (orRechargeFailed x) = creditOf x := by
  cases x <;> rfl

theorem creditOf_of_empty (call : TopUpCall) : creditOf (call.run quotaPerUnit now "" db) = none := by
  cases call <;> rfl

def orderQuota (quotaPerUnit : ℚ) (topUp : TopUp) : Option ℤ :=
  if topUp.paymentProvider = .stripe then moneyQuota quotaPerUnit topUp else amountQuota quotaPerUnit topUp

section Own

variable {topUp : TopUp} {call : TopUpCall}

theorem creditOf_manual (hT : tradeNo ≠ "") (horder : db.orders tradeNo = some topUp)
    (hpending : topUp.status = .pending) : creditOf (run quotaPerUnit now tradeNo db .manual) =
      (orderQuota quotaPerUnit topUp).filter (db.creditable topUp.userId) :=
  creditOf_completeTopUp hT horder hpending rfl

theorem creditOf_creem {customerEmail : String} (hT : tradeNo ≠ "") (horder : db.orders tradeNo = some topUp)
    (hpending : topUp.status = .pending) (hp : topUp.paymentProvider = .creem) :
    creditOf (run quotaPerUnit now tradeNo db (.creem customerEmail)) =
      (quotaFromDecimalStrict topUp.amount).filter (db.creditable topUp.userId) := by
  refine (creditOf_orRechargeFailed _).trans (creditOf_completeTopUp hT horder hpending ?_)
  simp [hp]

theorem creditOf_own (hT : tradeNo ≠ "") (horder : db.orders tradeNo = some topUp)
    (hpending : topUp.status = .pending) (hown : call.isOwn topUp.paymentProvider = true)
    (hne : topUp.paymentProvider ≠ .creem) : creditOf (call.run quotaPerUnit now tradeNo db) =
      (orderQuota quotaPerUnit topUp).filter (db.creditable topUp.userId) := by
  unfold orderQuota
  cases call with
  | epay =>
    have hp : topUp.paymentProvider = .epay := of_decide_eq_true hown
    rw [if_neg (by rw [hp]; decide)]
    exact creditOf_completeTopUp hT horder hpending (by simp [hp])
  | byProvider =>
    have hns : topUp.paymentProvider ≠ .stripe := by
      intro hs
      rw [hs] at hown
      simp [isOwn] at hown
    rw [if_neg hns]
    exact creditOf_completeTopUp hT horder hpending rfl
  | stripe _ =>
    have hp : topUp.paymentProvider = .stripe := of_decide_eq_true hown
    rw [if_pos hp]
    exact (creditOf_orRechargeFailed _).trans (creditOf_completeTopUp hT horder hpending (by simp [hp]))
  | creem => exact absurd (of_decide_eq_true hown) hne
  | waffo | waffoPancake =>
    have hp := of_decide_eq_true hown
    rw [if_neg (by rw [hp]; decide)]
    exact (creditOf_orRechargeFailed _).trans (creditOf_completeTopUp hT horder hpending (by simp [hp]))
  | manual | updatePending => cases hown

theorem TopUpCall.isOwn_creem (hown : call.isOwn .creem = true) : ∃ email, call = .creem email := by
  cases call with
  | creem email => exact ⟨email, rfl⟩
  | byProvider => simp [isOwn] at hown
  | epay | stripe | waffo | waffoPancake | manual | updatePending => cases hown

end Own

/-- **The administrator credits what the gateway's own function credits, but for Creem**, whose amount is a quota
already and is multiplied by `QuotaPerUnit`. -/
theorem manual_credits_iff (quotaPerUnit : ℚ) (now now' : ℤ) (tradeNo : String) (db : PayDB) (topUp : TopUp)
    (call : TopUpCall) (horder : db.orders tradeNo = some topUp) (hpending : topUp.status = .pending)
    (hown : call.isOwn topUp.paymentProvider = true) :
    creditOf (TopUpCall.run quotaPerUnit now tradeNo db .manual) = creditOf (call.run quotaPerUnit now' tradeNo db) ↔
      tradeNo = "" ∨ topUp.paymentProvider ≠ .creem ∨ roundHalfAway (topUp.amount * quotaPerUnit) = topUp.amount ∨
        (db.creditable topUp.userId (roundHalfAway (topUp.amount * quotaPerUnit)) = false ∧
          db.creditable topUp.userId topUp.amount = false) := by
  by_cases hT : tradeNo = ""
  · subst hT
    simp [creditOf_of_empty]
  by_cases hp : topUp.paymentProvider = .creem
  · rw [hp] at hown
    obtain ⟨email, rfl⟩ := isOwn_creem hown
    have hns : ¬ topUp.paymentProvider = .stripe := by rw [hp]; decide
    rw [creditOf_manual hT horder hpending, creditOf_creem hT horder hpending hp, orderQuota, if_neg hns,
      amountQuota, filter_quotaFromDecimalStrict, filter_quotaFromDecimalStrict, roundHalfAway_intCast]
    simp only [hT, hp, ne_eq, not_true, false_or]
    cases hmanual : db.creditable topUp.userId (roundHalfAway (topUp.amount * quotaPerUnit)) <;>
      cases hgateway : db.creditable topUp.userId topUp.amount <;> simp
    · intro heq
      rw [heq, hgateway] at hmanual
      cases hmanual
    intro heq
    rw [heq, hgateway] at hmanual
    cases hmanual
  · rw [creditOf_manual hT horder hpending, creditOf_own hT horder hpending hown hp]
    exact iff_of_true rfl (.inr (.inl hp))

def sampleCreemDB : PayDB where
  orders := fun tradeNo => if tradeNo = "C1" then some ⟨1, 1000, 5, "creem", .creem, 0, .pending⟩ else none
  users := fun userId => if userId = 1 then some ⟨100, 0, 0, 0, "", ""⟩ else none

theorem manual_credits_iff_one :
    creditOf (TopUpCall.run 1 5 "C1" sampleCreemDB .manual) = some 1000 ∧
      creditOf (TopUpCall.run 1 5 "C1" sampleCreemDB .manual) =
        creditOf (TopUpCall.run 1 6 "C1" sampleCreemDB (.creem "a@b")) :=
  ⟨by decide +kernel, (manual_credits_iff 1 5 6 "C1" sampleCreemDB _ (.creem "a@b") rfl rfl rfl).2
    (.inr (.inr (.inl (by decide +kernel))))⟩

/-- With the default of 500000 to the unit the administrator credits 500000000, and Creem 1000. -/
theorem manual_credits_creem_order :
    ¬ (∀ (quotaPerUnit : ℚ) (now now' : ℤ) (tradeNo : String) (db : PayDB) (topUp : TopUp) (call : TopUpCall),
      db.orders tradeNo = some topUp → topUp.status = .pending → call.isOwn topUp.paymentProvider = true →
      creditOf (TopUpCall.run quotaPerUnit now tradeNo db .manual) =
        creditOf (call.run quotaPerUnit now' tradeNo db)) := by
  intro h
  have heq := h 500000 5 6 "C1" sampleCreemDB _ (.creem "a@b") rfl rfl rfl
  revert heq
  decide +kernel

end NewApi
