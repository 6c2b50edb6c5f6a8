import NewApi.Proof.SubscriptionBounds
import Mathlib.Data.List.Pairwise
import Mathlib.Data.List.Dedup

/-!
# The group that a subscription lifts its user to

A purchase remembers the group of the user only when it lifts the user, and the expiry asks only the subscription that
ended last. A user who buys again while lifted has a last subscription that remembers nothing.
-/

namespace NewApi

open Trace SubDB SubRow SubRows List Option Function SubSystem

variable {i j : ℕ} {sub sub' : SubRow} {w : SubWorld} {plan : PlanRow} {now : ℤ} {db db' : SubDB} {op : SubOp}
  {userId : ℕ} {g : String} {x : String} {t : SubRows}

theorem SubDB.hasUpgrade_iff {other : ℕ → Bool} : db.hasUpgrade now userId other = true ↔
    ∃ i sub, db.subs.row i = some sub ∧ sub.userId = userId ∧ sub.status = .active ∧ now < sub.endTime ∧
      other i = true ∧ sub.upgradeGroup ≠ "" := by
  simp only [hasUpgrade, List.any_eq_true, Bool.and_eq_true, decide_eq_true_eq, bne_iff_ne]
  constructor
  · rintro ⟨⟨i, sub⟩, hmem, ⟨⟨⟨huser, hactive⟩, hend⟩, hother⟩, hup⟩
    exact ⟨i, sub, SubRows.mem_entries.1 hmem, huser, hactive, hend, hother, hup⟩
  · rintro ⟨i, sub, hrow, huser, hactive, hend, hother, hup⟩
    exact ⟨(i, sub), SubRows.mem_entries.2 hrow, ⟨⟨⟨huser, hactive⟩, hend⟩, hother⟩, hup⟩

theorem SubDB.ended_of_hasUpgrade {other : ℕ → Bool} (h : db.hasUpgrade now userId other = false)
    (hrow : db.subs.row i = some sub) (huser : sub.userId = userId) (hactive : sub.status = .active)
    (hother : other i = true) (hup : sub.upgradeGroup ≠ "") : sub.endTime ≤ now := by
  by_contra hlt
  rw [hasUpgrade_iff.2 ⟨i, sub, hrow, huser, hactive, not_le.1 hlt, hother, hup⟩] at h
  cases h

def SubRow.Falls (sub : SubRow) : Prop := sub.downgradeGroup ≠ "" ∨ sub.upgradeGroup ≠ ""

theorem mem_expired {e : ℕ × SubRow} :
    e ∈ (byEndTime (db.subs.entries.filter fun e => decide (e.2.userId = userId) && e.2.status = .expired &&
      (e.2.downgradeGroup != "" || e.2.upgradeGroup != ""))) ↔
    db.subs.row e.1 = some e.2 ∧ e.2.userId = userId ∧ e.2.status = .expired ∧ e.2.Falls := by
  rw [(byEndTime_perm _).mem_iff, mem_filter]
  simp only [Bool.and_eq_true, Bool.or_eq_true, decide_eq_true_eq, bne_iff_ne, SubRow.Falls]
  rw [← mem_entries]
  tauto

theorem byEndTime_sorted (l : List (ℕ × SubRow)) : (byEndTime l).Pairwise fun a b => a.2.endTime ≤ b.2.endTime := by
  let before : ℕ × SubRow → ℕ × SubRow → Prop :=
    fun a b => a.2.endTime < b.2.endTime ∨ (a.2.endTime = b.2.endTime ∧ a.1 ≤ b.1)
  have htotal : Std.Total before := ⟨fun a b => by simp only [before]; omega⟩
  have htrans : IsTrans _ before := ⟨fun a b c hab hbc => by simp only [before] at *; omega⟩
  have hsorted : (byEndTime l).Pairwise before := pairwise_insertionSort before l
  refine hsorted.imp ?_
  intro a b hab
  omega

theorem SubDB.lastExpired_none (h : db.lastExpired userId = none) (hrow : db.subs.row i = some sub)
    (huser : sub.userId = userId) (hexp : sub.status = .expired) : ¬ sub.Falls := by
  intro hfalls
  have hmem := mem_expired.2 (⟨hrow, huser, hexp, hfalls⟩ : db.subs.row (i, sub).1 = some (i, sub).2 ∧ _)
  rw [lastExpired, map_eq_none_iff, getLast?_eq_none_iff] at h
  rw [h] at hmem
  cases hmem

theorem SubDB.lastExpired_some (h : db.lastExpired userId = some sub) :
    (∃ i, db.subs.row i = some sub) ∧ sub.userId = userId ∧ sub.status = .expired ∧ sub.Falls ∧
      ∀ j other, db.subs.row j = some other → other.userId = userId → other.status = .expired → other.Falls →
        other.endTime ≤ sub.endTime := by
  obtain ⟨e, hlast, rfl⟩ := map_eq_some_iff.1 h
  have hne := ne_nil_of_mem (mem_of_getLast? hlast)
  rw [← getLast_eq_iff_getLast?_eq_some hne] at hlast
  have hmem := mem_expired.1 (hlast ▸ getLast_mem hne)
  refine ⟨⟨e.1, hmem.1⟩, hmem.2.1, hmem.2.2.1, hmem.2.2.2, ?_⟩
  intro j other hrow huser hexp hfalls
  have hother := mem_expired.2 (⟨hrow, huser, hexp, hfalls⟩ : db.subs.row (j, other).1 = some (j, other).2 ∧ _)
  have hle := (byEndTime_sorted _).rel_getLast hother
  rwa [hlast] at hle

/-- A subscription of a plan that lifts the user from the group `g`, or lifts nobody. -/
structure SubRow.Returns (g : String) (sub : SubRow) : Prop where
  user : sub.userId ≠ 0
  downgrade : sub.downgradeGroup = ""
  trimmed : trimSpace sub.upgradeGroup = sub.upgradeGroup
  upgrade : sub.upgradeGroup ≠ g
  prev : sub.upgradeGroup ≠ "" → sub.prevUserGroup = g
  ends : 0 < sub.endTime

/-- The user is in the group `g`, and no subscription that has not ended lifts the user. -/
structure SubDB.Home (userId : ℕ) (g : String) (now : ℤ) (db : SubDB) : Prop where
  group : db.groups userId = some g
  ended : ∀ i sub, db.subs.row i = some sub → sub.userId = userId → sub.status = .active →
    sub.upgradeGroup ≠ "" → sub.endTime ≤ now

/-- The user is in the group of the subscription `i`, which ends last. -/
structure SubDB.Lifted (userId : ℕ) (now : ℤ) (db : SubDB) (i : ℕ) (sub : SubRow) : Prop where
  row : db.subs.row i = some sub
  user : sub.userId = userId
  active : sub.status = .active
  upgrade : sub.upgradeGroup ≠ ""
  group : db.groups userId = some sub.upgradeGroup
  last : ∀ j other, db.subs.row j = some other → other.userId = userId → other.upgradeGroup ≠ "" →
    other.status ≠ .cancelled → j ≠ i → other.endTime ≤ now ∧ other.endTime < sub.endTime

structure FallsBack (userId : ℕ) (g : String) (now : ℤ) (db : SubDB) : Prop where
  returns : ∀ i sub, db.subs.row i = some sub → sub.userId = userId → sub.Returns g
  expired : ∀ i sub, db.subs.row i = some sub → sub.userId = userId → sub.status = .expired → sub.endTime ≤ now
  group : db.Home userId g now ∨ ∃ i sub, db.Lifted userId now i sub

theorem FallsBack.mono {now' : ℤ} (h : FallsBack userId g now db) (hle : now ≤ now') : FallsBack userId g now' db := by
  refine ⟨h.returns, fun i sub hrow huser hexp => (h.expired i sub hrow huser hexp).trans hle, ?_⟩
  rcases h.group with hhome | ⟨i, sub, hlift⟩
  · exact .inl ⟨hhome.group, fun i sub hrow hu ha hup => (hhome.ended i sub hrow hu ha hup).trans hle⟩
  refine .inr ⟨i, sub, ⟨hlift.row, hlift.user, hlift.active, hlift.upgrade, hlift.group, ?_⟩⟩
  intro j other hrow hu hup hst hne
  obtain ⟨hover, hlt⟩ := hlift.last j other hrow hu hup hst hne
  exact ⟨hover.trans hle, hlt⟩

theorem FallsBack.member (h : FallsBack userId g now db) : ∃ x, db.groups userId = some x := by
  rcases h.group with hhome | ⟨i, sub, hlift⟩
  · exact ⟨g, hhome.group⟩
  · exact ⟨_, hlift.group⟩

structure SameFor (userId : ℕ) (db db' : SubDB) : Prop where
  fwd : ∀ i sub, db.subs.row i = some sub → sub.userId = userId →
    ∃ sub', db'.subs.row i = some sub' ∧ sub'.terms = sub.terms
  back : ∀ i sub', db'.subs.row i = some sub' → sub'.userId = userId →
    ∃ sub, db.subs.row i = some sub ∧ sub'.terms = sub.terms
  group : db'.groups userId = db.groups userId

theorem SubRow.eq_of_terms (h : sub'.terms = sub.terms) : sub' = { sub with
    amountTotal := sub'.amountTotal, amountUsed := sub'.amountUsed, lastResetTime := sub'.lastResetTime
    nextResetTime := sub'.nextResetTime } := by
  cases sub
  cases sub'
  simp only [terms, Prod.mk.injEq] at h
  simp [h]

theorem FallsBack.same (h : FallsBack userId g now db) (hsame : SameFor userId db db') :
    FallsBack userId g now db' := by
  refine ⟨?_, ?_, ?_⟩
  · intro i sub' hrow' huser
    obtain ⟨sub, hrow, hterms⟩ := hsame.back i sub' hrow' huser
    rw [eq_of_terms hterms] at huser ⊢
    have hret := h.returns i sub hrow huser
    exact ⟨hret.user, hret.downgrade, hret.trimmed, hret.upgrade, hret.prev, hret.ends⟩
  · intro i sub' hrow' huser
    obtain ⟨sub, hrow, hterms⟩ := hsame.back i sub' hrow' huser
    rw [eq_of_terms hterms] at huser ⊢
    exact h.expired i sub hrow huser
  rcases h.group with hhome | ⟨i, sub, hlift⟩
  · refine .inl ⟨hsame.group.trans hhome.group, ?_⟩
    intro i sub' hrow' huser
    obtain ⟨sub, hrow, hterms⟩ := hsame.back i sub' hrow' huser
    rw [eq_of_terms hterms] at huser ⊢
    exact hhome.ended i sub hrow huser
  obtain ⟨sub', hrow', hterms⟩ := hsame.fwd i sub hlift.row hlift.user
  rw [eq_of_terms hterms] at hrow'
  refine .inr ⟨i, _, hrow', hlift.user, hlift.active, hlift.upgrade, hsame.group.trans hlift.group, ?_⟩
  intro j other' hrowj huser
  obtain ⟨other, hrow, hterms⟩ := hsame.back j other' hrowj huser
  rw [eq_of_terms hterms] at huser ⊢
  exact hlift.last j other hrow huser

theorem QuotaMove.groups (h : QuotaMove w now op db db') : db'.groups = db.groups := by cases h <;> rfl

theorem QuotaMoves.same (h : QuotaMoves w now op db db') : SameFor userId db db' := by
  have hkeeps : (∀ i, (db'.subs.row i).map terms = (db.subs.row i).map terms) ∧ db'.groups = db.groups := by
    induction h with
    | refl => exact ⟨fun i => rfl, rfl⟩
    | tail _ hmove ih => exact ⟨fun i => (hmove.terms i).trans (ih.1 i), hmove.groups.trans ih.2⟩
  obtain ⟨hterms, hgroups⟩ := hkeeps
  refine ⟨?_, ?_, by rw [hgroups]⟩
  · intro i sub hrow _
    have hi := hterms i
    rw [hrow, map_some, map_eq_some_iff] at hi
    exact hi
  intro i sub' hrow' _
  have hi := hterms i
  rw [hrow', map_some, eq_comm, map_eq_some_iff] at hi
  obtain ⟨sub, hrow, heq⟩ := hi
  exact ⟨sub, hrow, heq.symm⟩

theorem SubDB.setGroup_groups_ne {v : ℕ} (h : userId ≠ v) (x : String) :
    (db.setGroup v x).groups userId = db.groups userId := update_of_ne h _ _

theorem SubDB.setGroup_groups_self {x y : String} (h : db.groups userId = some y) :
    (db.setGroup userId x).groups userId = some x := by
  simp [setGroup, h]

theorem SubDB.groupOf_eq (h : db.groups userId = some x) : db.groupOf userId = x := by simp [groupOf, h]

theorem SameFor.of_other {r : Option SubRow} (hrow : db.subs.row i = some sub) (hne : sub.userId ≠ userId)
    (hr : ∀ sub', r = some sub' → sub'.userId ≠ userId) (hsubs : db'.subs = db.subs.set i r)
    (hgroup : db'.groups userId = db.groups userId) : SameFor userId db db' := by
  refine ⟨?_, ?_, hgroup⟩
  · intro j r' hj huser
    have hji : j ≠ i := by
      rintro rfl
      rw [hrow, some.injEq] at hj
      exact hne (hj ▸ huser)
    exact ⟨r', by rw [hsubs, set_row_ne hji, hj], rfl⟩
  intro j r' hj huser
  rw [hsubs] at hj
  rcases set_row_cases hj with ⟨-, heq⟩ | hj
  · exact absurd huser (hr r' heq)
  · exact ⟨r', hj, rfl⟩

theorem SubDB.downgradeUserGroup_groups_ne (h : userId ≠ sub.userId) :
    (db.downgradeUserGroup now i sub).groups userId = db.groups userId := by
  unfold downgradeUserGroup
  cases db.downgradeTarget now i sub with
  | none => rfl
  | some x => exact setGroup_groups_ne h x

/-- The plan lifts its buyers, to another group than `g`, for some time, and says no group to fall back to. -/
def SubWorld.upgradesFrom (w : SubWorld) (now : ℤ) (g : String) (planId : ℕ) : Bool :=
  match w.planById planId with
  | .error _ => true
  | .ok plan =>
    decide (trimSpace plan.upgradeGroup ≠ g) && decide (trimSpace plan.downgradeGroup = "") &&
      match calcPlanEndTime w.cal now plan with
      | .error _ => true
      | .ok endUnix => decide (now < endUnix)

theorem SubWorld.upgradesFrom_ok {planId : ℕ} {endUnix : ℤ} (h : w.upgradesFrom now g planId = true)
    (hplan : w.planById planId = .ok plan) (hend : calcPlanEndTime w.cal now plan = .ok endUnix) :
    trimSpace plan.upgradeGroup ≠ g ∧ trimSpace plan.downgradeGroup = "" ∧ now < endUnix := by
  simp only [upgradesFrom, hplan, hend, Bool.and_eq_true, decide_eq_true_eq] at h
  exact ⟨h.1.1, h.1.2, h.2⟩

theorem FallsBack.purchase {planId : ℕ} (h : FallsBack userId g now db) (hnow : 0 < now)
    (hplan : w.planById planId = .ok plan) (hups : w.upgradesFrom now g planId = true)
    (hin : db.groupOf userId = g)
    (hc : db.createUserSubscriptionFromPlan w now userId planId plan = .ok db') : FallsBack userId g now db' := by
  obtain ⟨endUnix, hend, huser, rfl⟩ := create_ok hc
  obtain ⟨hup, hdown, hlt⟩ := SubWorld.upgradesFrom_ok hups hplan hend
  have hhome : db.Home userId g now := by
    rcases h.group with hhome | ⟨i, sub, hlift⟩
    · exact hhome
    have hother := (h.returns i sub hlift.row hlift.user).upgrade
    rw [groupOf_eq hlift.group] at hin
    exact absurd hin hother
  set new := newUserSubscription w.cal.toCalendar now userId planId plan endUnix (db.groupOf userId) with hnew
  have hret : new.Returns g := by
    refine ⟨huser, hdown, trimSpace_trimSpace _, hup, ?_, by simp only [hnew, newUserSubscription]; omega⟩
    intro hne
    have hne' : trimSpace plan.upgradeGroup ≠ "" := hne
    have hlifts : trimSpace plan.upgradeGroup ≠ "" ∧ g ≠ trimSpace plan.upgradeGroup := ⟨hne', hup.symm⟩
    simp [hnew, newUserSubscription, hin, if_pos hlifts]
  have hrows : ∀ i sub, (db.subs.insert new).row i = some sub → (i = db.subs.nextId ∧ sub = new) ∨
      db.subs.row i = some sub := fun i sub => insert_row_cases
  constructor
  · intro i sub hrow hu
    rcases hrows i sub hrow with ⟨-, rfl⟩ | hrow
    · exact hret
    · exact h.returns i sub hrow hu
  · intro i sub hrow hu hexp
    rcases hrows i sub hrow with ⟨-, rfl⟩ | hrow
    · cases hexp
    · exact h.expired i sub hrow hu hexp
  by_cases hne : trimSpace plan.upgradeGroup = ""
  · left
    refine ⟨?_, ?_⟩
    · have hlift : db.lift userId (trimSpace plan.upgradeGroup) = db := if_neg fun hcon => hcon.1 hne
      rw [hlift]
      exact hhome.group
    intro i sub hrow hu hact hups'
    rcases hrows i sub hrow with ⟨-, rfl⟩ | hrow
    · exact absurd hne hups'
    · exact hhome.ended i sub hrow hu hact hups'
  · right
    have hlift : db.lift userId (trimSpace plan.upgradeGroup) =
        db.setGroup userId (trimSpace plan.upgradeGroup) := if_pos ⟨hne, by rw [hin]; exact hup.symm⟩
    refine ⟨db.subs.nextId, new, ⟨update_self _ _ _, rfl, rfl, hne, ?_, ?_⟩⟩
    · rw [hlift]
      exact setGroup_groups_self hhome.group
    intro j other hrow hu hupo hst hj
    rcases hrows j other hrow with ⟨hjn, -⟩ | hrow
    · exact absurd hjn hj
    -- whatever lifted the user before has ended
    have hover : other.endTime ≤ now := by
      cases hs : other.status with
      | active => exact hhome.ended j other hrow hu hs hupo
      | expired => exact h.expired j other hrow hu hs
      | cancelled => exact absurd hs hst
    have hends : new.endTime = endUnix := rfl
    exact ⟨hover, by omega⟩

theorem SubRow.due_iff : sub.due now = true ↔ sub.status = .active ∧ 0 < sub.endTime ∧ sub.endTime ≤ now := by
  simp [due, and_assoc]

theorem SubRows.expire_row (h : (t.expire now userId).row i = some sub') :
    ∃ sub, t.row i = some sub ∧ ((sub.userId = userId ∧ sub.due now = true ∧ sub' = { sub with status := .expired }) ∨
        (¬ (sub.userId = userId ∧ sub.due now = true) ∧ sub' = sub)) := by
  obtain ⟨sub, hrow, heq⟩ := map_eq_some_iff.1 h
  refine ⟨sub, hrow, ?_⟩
  split_ifs at heq with hdue
  · exact .inl ⟨hdue.1, hdue.2, heq.symm⟩
  · exact .inr ⟨hdue, heq.symm⟩

theorem SubRows.expire_row_due (hrow : t.row i = some sub) (huser : sub.userId = userId)
    (hdue : sub.due now = true) : (t.expire now userId).row i = some { sub with status := .expired } := by
  simp [expire, hrow, huser, hdue, and_self]

theorem SubRows.expire_row_keep (hrow : t.row i = some sub)
    (hkeep : ¬ (sub.userId = userId ∧ sub.due now = true)) : (t.expire now userId).row i = some sub := by
  simp [expire, hrow, if_neg hkeep]

abbrev SubDB.expired (now : ℤ) (userId : ℕ) (db : SubDB) : SubDB := { db with subs := db.subs.expire now userId }

theorem trimSpace_empty : trimSpace "" = "" := rfl

theorem SubDB.expiryTarget_eq (hret : sub.Returns g) (hg : g ≠ "") (htrim : trimSpace g = g)
    (hup : sub.upgradeGroup ≠ "") (hx : db.groups userId = some x) :
    db.expiryTarget userId sub = if x = sub.upgradeGroup then some g else none := by
  simp only [expiryTarget, hret.downgrade, trimSpace_empty, hret.trimmed, hret.prev hup, htrim,
    groupOf_eq hx, true_and, hup, hg, false_or, if_true]
  by_cases hxup : x = sub.upgradeGroup
  · have hgx : g ≠ x := fun heq => hret.upgrade (hxup ▸ heq).symm
    simp only [hxup, ne_eq, not_true_eq_false, if_false, if_true]
    rw [if_neg (hxup ▸ hgx)]
  · simp [hxup]

namespace FallsBack

variable (h : FallsBack userId g now db)
include h

theorem expire_rows (hrow : (db.subs.expire now userId).row i = some sub') (huser : sub'.userId = userId) :
    sub'.Returns g ∧ (sub'.status = .expired → sub'.endTime ≤ now) ∧
      ∃ sub, db.subs.row i = some sub ∧ sub.userId = userId ∧ sub.endTime = sub'.endTime ∧
        sub.upgradeGroup = sub'.upgradeGroup ∧ (sub'.status ≠ .cancelled → sub.status ≠ .cancelled) ∧
        (sub'.status = .active → sub' = sub) := by
  obtain ⟨sub, hrow0, ⟨hu, hdue, rfl⟩ | ⟨hnot, rfl⟩⟩ := expire_row hrow
  · have hret := h.returns i sub hrow0 hu
    obtain ⟨hact, -, hle⟩ := due_iff.1 hdue
    refine ⟨⟨hret.user, hret.downgrade, hret.trimmed, hret.upgrade, hret.prev, hret.ends⟩, fun _ => hle,
      sub, hrow0, hu, rfl, rfl, fun _ => by rw [hact]; decide, fun hcon => by cases hcon⟩
  · exact ⟨h.returns i _ hrow0 huser, h.expired i _ hrow0 huser, _, hrow0, huser, rfl, rfl, id, fun _ => rfl⟩

theorem expire_live (hlive : (db.expired now userId).hasUpgrade now userId (fun _ => true) = true) :
    ∃ i sub, (db.expired now userId).Lifted userId now i sub := by
  obtain ⟨k, r, hrow, hu, hact, hend, -, hup⟩ := hasUpgrade_iff.1 hlive
  obtain ⟨-, -, r0, hrow0, -, -, -, -, hsame⟩ := h.expire_rows hrow hu
  obtain rfl := hsame hact
  rcases h.group with hhome | ⟨i, sub, hlift⟩
  · have hover := hhome.ended k r hrow0 hu hact hup
    omega
  by_cases hk : k = i
  · subst hk
    have hrsub : r = sub := some.inj (hrow0.symm.trans hlift.row)
    subst hrsub
    refine ⟨k, r, ⟨hrow, hu, hact, hup, hlift.group, ?_⟩⟩
    intro j other' hrowj huj hupj hstj hne
    obtain ⟨-, -, other, hro, huo, heo, hugo, hst, -⟩ := h.expire_rows hrowj huj
    rw [← heo]
    exact hlift.last j other hro huo (hugo ▸ hupj) (hst hstj) hne
  · have hover := (hlift.last k r hrow0 hu hup (by rw [hact]; decide) hk).1
    omega

theorem lastExpired_lifted {lastExpired : SubRow} (hlift : db.Lifted userId now i sub) (hends : sub.endTime ≤ now)
    (hlast : (db.expired now userId).lastExpired userId = some lastExpired) :
    lastExpired.Returns g ∧ lastExpired.upgradeGroup = sub.upgradeGroup := by
  obtain ⟨⟨k, hrow⟩, hu, hexp, hfalls, hmax⟩ := lastExpired_some hlast
  obtain ⟨hret, -, r0, hrow0, hu0, hend0, hug0, hst0, -⟩ := h.expire_rows hrow hu
  refine ⟨hret, ?_⟩
  have hup : lastExpired.upgradeGroup ≠ "" := hfalls.resolve_left fun hne => hne hret.downgrade
  have hsubret := h.returns i sub hlift.row hlift.user
  have hdue : sub.due now = true := due_iff.2 ⟨hlift.active, hsubret.ends, hends⟩
  have hself : (db.subs.expire now userId).row i = some { sub with status := .expired } :=
    expire_row_due hlift.row hlift.user hdue
  have hle : sub.endTime ≤ lastExpired.endTime :=
    hmax i { sub with status := .expired } hself hlift.user rfl (.inr hlift.upgrade)
  by_cases hk : k = i
  · subst hk
    rw [hself, some.injEq] at hrow
    rw [← hrow]
  · have hlt := (hlift.last k r0 hrow0 hu0 (hug0 ▸ hup) (hst0 (by rw [hexp]; decide)) hk).2
    omega

theorem expire_group (hg : g ≠ "") (htrim : trimSpace g = g)
    (hnone : (db.expired now userId).hasUpgrade now userId (fun _ => true) = false) :
    (db.expireUser now userId).groups userId = some g := by
  have hret : ∀ lastExpired, (db.expired now userId).lastExpired userId =
      some lastExpired → lastExpired.Returns g ∧ lastExpired.upgradeGroup ≠ "" := by
    intro lastExpired hlast
    obtain ⟨⟨k, hrow⟩, hu, -, hfalls, -⟩ := lastExpired_some hlast
    have hret := (h.expire_rows hrow hu).1
    exact ⟨hret, hfalls.resolve_left fun hne => hne hret.downgrade⟩
  unfold expireUser
  simp only [hnone, Bool.false_eq_true, if_false]
  rcases h.group with hhome | ⟨i, sub, hlift⟩
  · cases hlast : (db.expired now userId).lastExpired userId with
    | none => exact hhome.group
    | some lastExpired =>
      obtain ⟨hret, hup⟩ := hret lastExpired hlast
      have hgroup : (db.expired now userId).groups userId = some g := hhome.group
      simp only [expiryTarget_eq hret hg htrim hup hgroup, if_neg hret.upgrade.symm, elim_none]
      exact hhome.group
  · have hends : sub.endTime ≤ now := by
      by_contra hlt
      have hkeep : ¬ (sub.userId = userId ∧ sub.due now = true) := fun hd => hlt (due_iff.1 hd.2).2.2
      exact hlt (ended_of_hasUpgrade hnone (expire_row_keep hlift.row hkeep) hlift.user hlift.active rfl hlift.upgrade)
    cases hlast : (db.expired now userId).lastExpired userId with
    | none =>
      have hsubret := h.returns i sub hlift.row hlift.user
      have hdue : sub.due now = true := due_iff.2 ⟨hlift.active, hsubret.ends, hends⟩
      exact absurd (.inr hlift.upgrade) (lastExpired_none hlast
        (expire_row_due hlift.row hlift.user hdue) hlift.user rfl)
    | some lastExpired =>
      obtain ⟨hret, hsame⟩ := h.lastExpired_lifted hlift hends hlast
      have hgroup : (db.expired now userId).groups userId = some sub.upgradeGroup := hlift.group
      have hup : lastExpired.upgradeGroup ≠ "" := hsame ▸ hlift.upgrade
      simp only [expiryTarget_eq hret hg htrim hup hgroup, hsame, if_true, elim_some]
      exact setGroup_groups_self hgroup

/-- **The expiry of the user** keeps the group only while a subscription lasts that lifts the user. -/
theorem expireUser (hg : g ≠ "") (htrim : trimSpace g = g) : FallsBack userId g now (db.expireUser now userId) := by
  have hsubs : (db.expireUser now userId).subs = db.subs.expire now userId := db.expireUser_subs userId
  refine ⟨?_, ?_, ?_⟩
  · intro i sub' hrow huser
    rw [hsubs] at hrow
    exact (h.expire_rows hrow huser).1
  · intro i sub' hrow huser hexp
    rw [hsubs] at hrow
    exact (h.expire_rows hrow huser).2.1 hexp
  cases hlive : (db.expired now userId).hasUpgrade now userId (fun _ => true) with
  | true =>
    have hsame : db.expireUser now userId = db.expired now userId := by
      unfold SubDB.expireUser
      rw [if_pos hlive]
    rw [hsame]
    exact .inr (h.expire_live hlive)
  | false =>
    refine .inl ⟨h.expire_group hg htrim hlive, ?_⟩
    intro i sub hrow huser hact hup
    rw [hsubs] at hrow
    exact ended_of_hasUpgrade hlive hrow huser hact rfl hup

end FallsBack

theorem SameFor.expireUser {v : ℕ} (hne : v ≠ userId) : SameFor userId db (db.expireUser now v) := by
  have hsubs : (db.expireUser now v).subs = db.subs.expire now v := db.expireUser_subs v
  refine ⟨?_, ?_, ?_⟩
  · intro i sub hrow huser
    rw [hsubs]
    exact ⟨sub, expire_row_keep hrow fun hd => hne (hd.1.symm.trans huser), rfl⟩
  · intro i sub' hrow huser
    rw [hsubs] at hrow
    obtain ⟨sub, hrow0, ⟨hu, -, rfl⟩ | ⟨-, rfl⟩⟩ := expire_row hrow
    · exact absurd (hu.symm.trans huser) hne
    · exact ⟨_, hrow0, rfl⟩
  unfold SubDB.expireUser
  dsimp only
  split
  · rfl
  split
  · rfl
  rename_i lastExpired _
  cases (db.expired now v).expiryTarget v lastExpired with
  | none => rfl
  | some x => exact setGroup_groups_ne hne.symm x

theorem FallsBack.expireUsers {failing users : List ℕ} (h : FallsBack userId g now db) (hg : g ≠ "")
    (htrim : trimSpace g = g) : FallsBack userId g now (db.expireUsers now failing users).1 := by
  apply expireUsers_of h
  intro db v h
  by_cases hv : v = userId
  · subst hv
    exact h.expireUser hg htrim
  · exact h.same (.expireUser hv)

def SubDB.NothingDue (userId : ℕ) (now : ℤ) (db : SubDB) : Prop :=
  ∀ i sub, db.subs.row i = some sub → sub.userId = userId → sub.due now = false

theorem SubDB.NothingDue.expireUser {v : ℕ} (h : db.NothingDue userId now ∨ v = userId) :
    (db.expireUser now v).NothingDue userId now := by
  intro i sub' hrow huser
  rw [expireUser_subs] at hrow
  obtain ⟨sub, hrow0, ⟨-, -, rfl⟩ | ⟨hnot, rfl⟩⟩ := expire_row hrow
  · rfl
  rcases h with hdue | rfl
  · exact hdue i _ hrow0 huser
  · rw [← Bool.not_eq_true]
    exact fun hdue => hnot ⟨huser, hdue⟩

theorem SubDB.NothingDue.expireUsers {users : List ℕ} (h : db.NothingDue userId now ∨ userId ∈ users) :
    (db.expireUsers now [] users).1.NothingDue userId now := by
  induction users generalizing db with
  | nil => exact h.resolve_right not_mem_nil
  | cons v rest ih =>
    unfold expireUsers
    rw [if_neg not_mem_nil]
    apply ih
    rcases h with hdue | hmem
    · exact .inl (SubDB.NothingDue.expireUser (.inl hdue))
    rcases mem_cons.1 hmem with rfl | hmem
    · exact .inl (SubDB.NothingDue.expireUser (.inr rfl))
    · exact .inr hmem

theorem SubDB.downgradeTarget_eq (hret : sub.Returns g) (hg : g ≠ "") (htrim : trimSpace g = g)
    (hx : db.groups sub.userId = some x) :
    db.downgradeTarget now i sub = if sub.upgradeGroup ≠ "" ∧ x = sub.upgradeGroup ∧
      db.hasUpgrade now sub.userId (· ≠ i) = false then some g else none := by
  simp only [downgradeTarget, hret.downgrade, trimSpace_empty, hret.trimmed, groupOf_eq hx, true_and, if_true]
  by_cases hup : sub.upgradeGroup = ""
  · simp [hup]
  rw [if_neg hup]
  cases hlive : db.hasUpgrade now sub.userId (· ≠ i) with
  | true => simp
  | false =>
    by_cases hxup : x = sub.upgradeGroup
    · have hgx : g ≠ x := fun heq => hret.upgrade (hxup ▸ heq).symm
      simp only [hxup, ne_eq, not_true_eq_false, if_false, hup, not_false_eq_true, and_self, if_true,
        Bool.false_eq_true, hret.prev hup, htrim]
      rw [if_neg (by rintro (h | h); exacts [hg h, hgx (h.trans hxup.symm)])]
    · simp [hxup]

namespace FallsBack

variable (h : FallsBack userId g now db)
include h

/-- **A subscription is taken away**: `d` are the tables in which the group to fall back to is looked for. -/
theorem takeAway {d : SubDB} (hg : g ≠ "") (htrim : trimSpace g = g)
    (hrow : db.subs.row i = some sub) (hret' : sub'.Returns g)
    (hup' : sub'.upgradeGroup = sub.upgradeGroup) (huser' : sub'.userId = userId)
    (hd : ∀ j, j ≠ i → d.subs.row j = db.subs.row j) (hdgroup : d.groups userId = db.groups userId)
    (hrows : ∀ j, j ≠ i → db'.subs.row j = db.subs.row j)
    (hgone : ∀ r, db'.subs.row i = some r → r.Returns g ∧ r.status = .cancelled)
    (hgroup : db'.groups userId = (d.downgradeUserGroup now i sub').groups userId) :
    FallsBack userId g now db' := by
  obtain ⟨x, hx⟩ := h.member
  have hdx : d.groups sub'.userId = some x := by rw [huser', hdgroup, hx]
  have htarget : d.downgradeTarget now i sub' = _ := downgradeTarget_eq hret' hg htrim hdx
  rw [huser', hup'] at htarget
  refine ⟨?_, ?_, ?_⟩
  · intro j r hj hu
    by_cases hji : j = i
    · exact (hgone r (hji ▸ hj)).1
    · exact h.returns j r (by rw [← hrows j hji, hj]) hu
  · intro j r hj hu hexp
    by_cases hji : j = i
    · rw [(hgone r (hji ▸ hj)).2] at hexp
      cases hexp
    · exact h.expired j r (by rw [← hrows j hji, hj]) hu hexp
  by_cases hfalls : sub.upgradeGroup ≠ "" ∧ x = sub.upgradeGroup ∧ d.hasUpgrade now userId (· ≠ i) = false
  · -- nothing else lifts the user, who goes back
    rw [if_pos hfalls] at htarget
    left
    refine ⟨?_, ?_⟩
    · have hset : d.downgradeUserGroup now i sub' = d.setGroup sub'.userId g := by
        unfold downgradeUserGroup
        rw [htarget]
        rfl
      rw [hgroup, hset, huser']
      exact setGroup_groups_self (huser' ▸ hdx)
    intro j r hj hu hact hup
    by_cases hji : j = i
    · rw [(hgone r (hji ▸ hj)).2] at hact
      cases hact
    exact ended_of_hasUpgrade hfalls.2.2 (by rw [hd j hji, ← hrows j hji, hj]) hu hact (by simpa using hji) hup
  · rw [if_neg hfalls] at htarget
    have hkeep : db'.groups userId = some x := by
      rw [hgroup]
      unfold downgradeUserGroup
      rw [htarget]
      exact huser' ▸ hdx
    rcases h.group with hhome | ⟨k, r, hlift⟩
    · left
      refine ⟨by rw [hkeep, ← hx, hhome.group], ?_⟩
      intro j r hj hu hact hup
      by_cases hji : j = i
      · rw [(hgone r (hji ▸ hj)).2] at hact
        cases hact
      · exact hhome.ended j r (by rw [← hrows j hji, hj]) hu hact hup
    · have hki : k ≠ i := by
        rintro rfl
        have hsub : sub = r := some.inj (hrow.symm.trans hlift.row)
        subst hsub
        apply hfalls
        refine ⟨hlift.upgrade, some.inj (hx.symm.trans hlift.group), ?_⟩
        rw [← Bool.not_eq_true, hasUpgrade_iff]
        rintro ⟨j, other, hj, hu, hact, hend, hji, hup⟩
        have hji' : j ≠ k := by simpa using hji
        have hover := (hlift.last j other (by rw [← hd j hji', hj]) hu hup (by rw [hact]; decide) hji').1
        omega
      right
      refine ⟨k, r, ⟨by rw [hrows k hki, hlift.row], hlift.user, hlift.active, hlift.upgrade, ?_, ?_⟩⟩
      · rw [hkeep, ← hx, hlift.group]
      intro j other hj hu hup hst hjk
      by_cases hji : j = i
      · exact absurd (hgone other (hji ▸ hj)).2 hst
      · exact hlift.last j other (by rw [← hrows j hji, hj]) hu hup hst hjk

theorem invalidate (hg : g ≠ "") (htrim : trimSpace g = g)
    (hnow : 0 < now) (hok : db.adminInvalidateUserSubscription now i = .ok db') : FallsBack userId g now db' := by
  obtain ⟨sub, hrow, hdb⟩ := invalidate_ok hok
  rw [hdb]
  set sub' : SubRow := { sub with status := .cancelled, endTime := now } with hsub'
  have hrows : ∀ j, j ≠ i → (db.save i sub').subs.row j = db.subs.row j := fun j hj => set_row_ne hj _
  have hself : (db.save i sub').subs.row i = some sub' := set_row_self hrow _
  by_cases huser : sub.userId = userId
  · have hret := h.returns i sub hrow huser
    have hret' : sub'.Returns g := ⟨hret.user, hret.downgrade, hret.trimmed, hret.upgrade, hret.prev, hnow⟩
    refine h.takeAway hg htrim hrow hret' rfl huser hrows rfl ?_ ?_ rfl
    · intro j hj
      rw [downgradeUserGroup_subs]
      exact hrows j hj
    intro r hr
    rw [downgradeUserGroup_subs, hself, some.injEq] at hr
    rw [← hr]
    exact ⟨hret', rfl⟩
  · apply h.same
    refine .of_other hrow huser ?_ (downgradeUserGroup_subs _ _) ?_
    · rintro r hr
      rw [some.injEq] at hr
      rw [← hr]
      exact huser
    · exact downgradeUserGroup_groups_ne (Ne.symm huser)

theorem delete (hg : g ≠ "") (htrim : trimSpace g = g)
    (hok : db.adminDeleteUserSubscription now i = .ok db') : FallsBack userId g now db' := by
  obtain ⟨sub, hrow, hdb⟩ := delete_ok hok
  rw [hdb]
  by_cases huser : sub.userId = userId
  · have hret := h.returns i sub hrow huser
    refine h.takeAway hg htrim hrow hret rfl huser (fun j _ => rfl) rfl ?_ ?_ rfl
    · intro j hj
      exact set_row_ne hj _
    intro r hr
    rw [set_row_self hrow] at hr
    cases hr
  · apply h.same
    refine .of_other hrow huser ?_ rfl ?_
    · intro r hr
      cases hr
    · exact downgradeUserGroup_groups_ne (Ne.symm huser)

end FallsBack

def SubOp.upgradesFrom (w : SubWorld) (now : ℤ) (userId : ℕ) (g : String) : SubOp → Bool
  | .create buyer planId _ => decide (buyer ≠ userId) || w.upgradesFrom now g planId
  | _ => true

def SubOp.boughtIn (db : SubDB) (userId : ℕ) (g : String) : SubOp → Bool
  | .create buyer _ _ => decide (buyer ≠ userId) || decide (db.groupOf userId = g)
  | _ => true

/-- Calls at times that do not go back, in which the user buys plans that lift from `g`. -/
def SubSystem.LiftsFrom (w : SubWorld) (userId : ℕ) (g : String) (s : SubSystem) (ev : SubEvent) : Prop :=
  0 < ev.time ∧ s.clock ≤ ev.time ∧ ev.op.upgradesFrom w ev.time userId g = true

instance (s : SubSystem) (ev : SubEvent) : Decidable (s.LiftsFrom w userId g ev) :=
  inferInstanceAs (Decidable (_ ∧ _ ∧ _))

theorem SameFor.create {buyer planId : ℕ} (hne : userId ≠ buyer)
    (h : db.createUserSubscriptionFromPlan w now buyer planId plan = .ok db') : SameFor userId db db' := by
  obtain ⟨endUnix, -, -, rfl⟩ := create_ok h
  refine ⟨?_, ?_, ?_⟩
  · intro i sub hrow _
    have hni : i ≠ db.subs.nextId := (lt_of_row hrow).ne
    exact ⟨sub, (update_of_ne hni _ _).trans hrow, rfl⟩
  · intro i sub hrow huser
    rcases insert_row_cases hrow with ⟨-, rfl⟩ | hrow
    · exact absurd huser.symm hne
    · exact ⟨sub, hrow, rfl⟩
  unfold lift
  split
  · exact setGroup_groups_ne hne _
  · rfl

theorem FallsBack.call (h : FallsBack userId g now db) (hg : g ≠ "") (htrim : trimSpace g = g) (hnow : 0 < now)
    (hups : op.upgradesFrom w now userId g = true) (hin : op.boughtIn db userId g = true) :
    FallsBack userId g now (db.call w now op).1 := by
  by_cases hquota : op.onQuota = true
  · exact h.same (call_moves hquota).same
  cases op with
  | create buyer =>
    apply after_of h
    intro db' hok
    obtain ⟨plan, hplan, hcreate⟩ := bind_eq_ok hok
    by_cases hbuyer : buyer = userId
    · subst hbuyer
      simp only [SubOp.upgradesFrom, SubOp.boughtIn, ne_eq, not_true_eq_false, decide_false, Bool.false_or,
        decide_eq_true_eq] at hups hin
      exact h.purchase hnow hplan hups hin hcreate
    · exact h.same (.create (Ne.symm hbuyer) hcreate)
  | expireDue => exact h.expireUsers hg htrim
  | invalidate => exact after_of h fun db' hok => h.invalidate hg htrim hnow hok
  | delete => exact after_of h fun db' hok => h.delete hg htrim hok
  | _ => exact absurd rfl hquota

theorem mem_inMapOrder {order users : List ℕ} (h : userId ∈ users) : userId ∈ inMapOrder order users := by
  by_cases hord : userId ∈ order
  · exact mem_append_left _ (mem_filter.2 ⟨mem_dedup.2 hord, by simpa using h⟩)
  · exact mem_append_right _ (mem_filter.2 ⟨mem_dedup.2 h, by simpa using hord⟩)

theorem SubDB.mem_usersToExpire {limit : ℤ} (hrow : db.subs.row i = some sub) (hdue : sub.due now = true)
    (hpos : sub.userId ≠ 0)
    (hcover : (db.subs.entries.countP fun e => e.2.due now) ≤ effectiveLimit limit) :
    sub.userId ∈ db.usersToExpire now limit := by
  have hall : (byEndTime (db.subs.entries.filter fun e => e.2.due now)).take (effectiveLimit limit) =
      byEndTime (db.subs.entries.filter fun e => e.2.due now) := by
    apply take_of_length_le
    rw [(byEndTime_perm _).length_eq, ← countP_eq_length_filter]
    exact hcover
  unfold usersToExpire
  rw [hall, mem_filter]
  refine ⟨mem_map.2 ⟨(i, sub), ?_, rfl⟩, decide_eq_true (Nat.pos_of_ne_zero hpos)⟩
  exact (byEndTime_perm _).mem_iff.2 (mem_filter.2 ⟨mem_entries.2 hrow, hdue⟩)

/-- **An upgrade does not outlive its subscriptions.** -/
theorem group_returns {s s' : SubSystem} {evs : List SubEvent} {t limit : ℤ} {order : List ℕ} (hg : g ≠ "")
    (htrim : trimSpace g = g)
    (hrun : Run (within (fun s ev s' => s' = SubSystem.next w s ev)
      fun s ev => s.LiftsFrom w userId g ev ∧ ev.op.boughtIn s.db userId g = true) s evs s')
    (hgroup : s.db.groups userId = some g) (hrows : ∀ i sub, s.db.subs.row i = some sub → sub.userId ≠ userId)
    (ht : s'.clock ≤ t) (hcover : (s'.db.subs.entries.countP fun e => e.2.due t) ≤ effectiveLimit limit)
    (hover : (s'.db.call w t (.expireDue limit order [])).1.hasUpgrade t userId (fun _ => true) = false) :
    (s'.db.call w t (.expireDue limit order [])).1.groups userId = some g := by
  have hstart : FallsBack userId g s.clock s.db := by
    refine ⟨fun i sub hrow huser => absurd huser (hrows i sub hrow),
      fun i sub hrow huser => absurd huser (hrows i sub hrow), .inl ⟨hgroup, ?_⟩⟩
    exact fun i sub hrow huser => absurd huser (hrows i sub hrow)
  have hstep : ∀ s ev s', FallsBack userId g s.clock s.db → within (fun s ev s' => s' = next w s ev)
      (fun s ev => s.LiftsFrom w userId g ev ∧ ev.op.boughtIn s.db userId g = true) s ev s' →
      FallsBack userId g s'.clock s'.db := by
    rintro s ev _ hs ⟨rfl, ⟨hpos, hclock, hups⟩, hin⟩
    exact (hs.mono hclock).call hg htrim hpos hups hin
  have hend := (hrun.inv hstep hstart).mono ht
  have hafter : FallsBack userId g t (s'.db.call w t (.expireDue limit order [])).1 := hend.expireUsers hg htrim
  rcases hafter.group with hhome | ⟨i, sub, hlift⟩
  · exact hhome.group
  -- the subscription that lifts the user has ended, so the job would have marked it
  have hends : sub.endTime ≤ t :=
    ended_of_hasUpgrade hover hlift.row hlift.user hlift.active rfl hlift.upgrade
  have hnone : (s'.db.call w t (.expireDue limit order [])).1.NothingDue userId t := by
    apply SubDB.NothingDue.expireUsers
    by_cases hdue : s'.db.NothingDue userId t
    · exact .inl hdue
    right
    simp only [SubDB.NothingDue, not_forall, Bool.not_eq_false] at hdue
    obtain ⟨j, other, hrow, huser, hd⟩ := hdue
    have hmem := mem_usersToExpire hrow hd (hend.returns j other hrow huser).user hcover
    exact mem_inMapOrder (huser ▸ hmem)
  have hdue := hnone i sub hlift.row hlift.user
  rw [due_iff.2 ⟨hlift.active, (hafter.returns i sub hlift.row hlift.user).ends, hends⟩] at hdue
  cases hdue

def samplePurchases : List SubEvent :=
  [⟨1000, .create 7 1 false⟩, ⟨1150, .expireDue 0 [] []⟩, ⟨1200, .create 7 1 false⟩]

theorem group_returns_two_purchases :
    let s' := samplePurchases.foldl (SubSystem.next (sampleSubWorld 100 100)) emptySubSystem
    s'.db.groups 7 = some "vip" ∧
      (s'.db.call (sampleSubWorld 100 100) 1350 (.expireDue 0 [] [])).1.groups 7 = some "default" := by
  have hrun : Run (within (fun s ev s' => s' = next (sampleSubWorld 100 100) s ev)
      fun s ev => s.LiftsFrom (sampleSubWorld 100 100) 7 "default" ev ∧
        ev.op.boughtIn s.db 7 "default" = true) emptySubSystem samplePurchases
      (samplePurchases.foldl (next (sampleSubWorld 100 100)) emptySubSystem) :=
    Run.of_allowed (by decide +kernel)
  refine ⟨by decide +kernel, group_returns (by decide) (by decide +kernel) hrun rfl ?_ (by decide) ?_ ?_⟩
  · intro i sub hrow
    cases hrow
  · decide +kernel
  · decide +kernel

def sampleOverlap : List SubEvent := [⟨1000, .create 7 1 false⟩, ⟨1050, .create 7 1 false⟩]

/-- **An upgrade that outlives its subscriptions.** The second purchase finds the user in `vip` and remembers no
group, and it ends last. -/
theorem group_stays_lifted :
    ¬ ∀ (w : SubWorld) (userId : ℕ) (g : String) (s s' : SubSystem) (evs : List SubEvent) (t limit : ℤ)
      (order : List ℕ), g ≠ "" → trimSpace g = g →
      Run (within (fun s ev s' => s' = SubSystem.next w s ev) fun s ev => s.LiftsFrom w userId g ev) s evs s' →
      s.db.groups userId = some g → (∀ i sub, s.db.subs.row i = some sub → sub.userId ≠ userId) → s'.clock ≤ t →
      (s'.db.subs.entries.countP fun e => e.2.due t) ≤ effectiveLimit limit →
      (s'.db.call w t (.expireDue limit order [])).1.hasUpgrade t userId (fun _ => true) = false →
      (s'.db.call w t (.expireDue limit order [])).1.groups userId = some g := by
  intro h
  have hrun : Run (within (fun s ev s' => s' = next (sampleSubWorld 100 100) s ev)
      fun s ev => s.LiftsFrom (sampleSubWorld 100 100) 7 "default" ev) emptySubSystem sampleOverlap
      (sampleOverlap.foldl (next (sampleSubWorld 100 100)) emptySubSystem) :=
    Run.of_allowed (by decide +kernel)
  have hrows : ∀ i sub, emptySubSystem.db.subs.row i = some sub → sub.userId ≠ 7 := by
    intro i sub hrow
    cases hrow
  have hgroup := h _ 7 "default" _ _ _ 1200 0 [] (by decide) (by decide +kernel) hrun rfl hrows (by decide)
    (by decide +kernel) (by decide +kernel)
  revert hgroup
  decide +kernel

end NewApi
