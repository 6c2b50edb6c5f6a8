import NewApi.Proof.SubscriptionBounds

/-!
# One reset per period

The reset by the calendar looks at the boundary after its base, the last reset time or the start. Every reset so far
lies before that boundary, unless a reset of an administrator that advances in the last period throws the base back.
-/

namespace NewApi

open Trace SubWorld List Option SubRow SubSystem SubRows

variable {i j : ℕ} {sub sub' : SubRow} {w : SubWorld} {plan : PlanRow} {now : ℤ} {db db' : SubDB} {op : SubOp}
  {planId : ℕ}

/-- The boundary of the plan's period after `base`, zero when there is none up to `endUnix`. -/
def SubWorld.boundaryAfter (w : SubWorld) (planId : ℕ) (endUnix base : ℤ) : ℤ :=
  match w.planById planId with
  | .ok plan => calcNextResetTime w.cal.toCalendar base plan.toSubscriptionPlan endUnix
  | .error _ => 0

/-- `b` is the next boundary after `a`. -/
def SubWorld.PeriodStep (w : SubWorld) (planId : ℕ) (a b : ℤ) : Prop := b = w.boundaryAfter planId 0 a ∧ 0 < b

/-- A time from which the periods of the subscription are counted: its start, or a reset that advanced the reset
time. -/
def SubDB.Anchor (db : SubDB) (i : ℕ) (a : ℤ) : Prop :=
  (∃ sub, db.subs.row i = some sub ∧ sub.startTime = a) ∨ ⟨i, a, .advanced⟩ ∈ db.resets

def SubDB.Boundary (w : SubWorld) (db : SubDB) (i : ℕ) (b : ℤ) : Prop :=
  ∃ sub a, db.subs.row i = some sub ∧ db.Anchor i a ∧ Relation.TransGen (w.PeriodStep sub.planId) a b

/-- Where `later` is a reset by the calendar, a boundary lies between the two resets. -/
def Separated (w : SubWorld) (db : SubDB) (later earlier : QuotaReset) : Prop :=
  later.kind = .automatic → earlier.id = later.id → earlier.kind ≠ .plain →
    ∃ b, db.Boundary w later.id b ∧ earlier.time < b ∧ b ≤ later.time

theorem SubWorld.boundaryAfter_ok (hplan : w.planById planId = .ok plan) (endUnix base : ℤ) :
    w.boundaryAfter planId endUnix base = calcNextResetTime w.cal.toCalendar base plan.toSubscriptionPlan endUnix := by
  simp [boundaryAfter, hplan]

theorem calcNextResetTime_uncut {cal : Calendar} {base endUnix : ℤ} {p : SubscriptionPlan}
    (h : 0 < calcNextResetTime cal base p endUnix) :
    calcNextResetTime cal base p endUnix = calcNextResetTime cal base p 0 := by
  unfold calcNextResetTime at h ⊢
  dsimp only at h ⊢
  split at h
  · omega
  rename_i next hnext
  split_ifs at h with hcut
  · omega
  · rw [if_neg hcut, if_neg (by omega)]

theorem SubWorld.periodStep_of_pos {endUnix base : ℤ} (h : 0 < w.boundaryAfter planId endUnix base) :
    w.PeriodStep planId base (w.boundaryAfter planId endUnix base) := by
  refine ⟨?_, h⟩
  unfold boundaryAfter at h ⊢
  split at h
  · exact calcNextResetTime_uncut h
  · omega

theorem catchUp_walk {endUnix : ℤ} (hplan : w.planById planId = .ok plan) {fuel : ℕ}
    {base base' next' : ℤ} {advanced advanced' : Bool}
    (h : catchUp w.cal.toCalendar plan.toSubscriptionPlan endUnix now fuel base
      (w.boundaryAfter planId endUnix base) advanced = some (base', next', advanced')) :
    next' = w.boundaryAfter planId endUnix base' ∧ (next' ≤ 0 ∨ now < next') ∧
      ((base' = base ∧ advanced' = advanced) ∨ (advanced' = true ∧ 0 < w.boundaryAfter planId endUnix base ∧
          w.boundaryAfter planId endUnix base ≤ now ∧ 0 < base' ∧
          Relation.TransGen (w.PeriodStep planId) base base')) := by
  induction fuel generalizing base advanced with
  | zero => cases h
  | succ fuel ih =>
    unfold catchUp at h
    split_ifs at h with hdue
    · have hstep := periodStep_of_pos hdue.1
      rw [← boundaryAfter_ok hplan] at h
      obtain ⟨hlast, hahead, hwalk⟩ := ih h
      rcases hwalk with ⟨rfl, hadv⟩ | ⟨hadv, -, -, hpos, hwalk⟩
      · exact ⟨hlast, hahead, .inr ⟨hadv, hdue.1, hdue.2, hdue.1, .single hstep⟩⟩
      · exact ⟨hlast, hahead, .inr ⟨hadv, hdue.1, hdue.2, hpos, .head hstep hwalk⟩⟩
    · obtain ⟨rfl, rfl, rfl⟩ := h
      exact ⟨rfl, by omega, .inl ⟨rfl, rfl⟩⟩

theorem SubRow.resetOutcome_reset {last next : ℤ} (hplan : w.planById sub.planId = .ok plan)
    (h : sub.resetOutcome w.cal.toCalendar plan.toSubscriptionPlan now = .reset last next) :
    0 < w.boundaryAfter sub.planId sub.endTime sub.resetBase ∧
      w.boundaryAfter sub.planId sub.endTime sub.resetBase ≤ now ∧ 0 < last ∧
      Relation.TransGen (w.PeriodStep sub.planId) sub.resetBase last ∧
      (w.boundaryAfter sub.planId sub.endTime last ≤ 0 ∨ now < w.boundaryAfter sub.planId sub.endTime last) := by
  unfold resetOutcome at h
  split_ifs at h
  rw [← boundaryAfter_ok hplan] at h
  split at h
  · cases h
  · rename_i base next' hcatch
    cases h
    obtain ⟨hlast, hahead, hwalk⟩ := catchUp_walk hplan hcatch
    rw [← hlast]
    rcases hwalk with ⟨-, hfalse⟩ | ⟨-, hpos, hdue, hlast', hwalk⟩
    · cases hfalse
    · exact ⟨hpos, hdue, hlast', hwalk, hahead⟩
  · split at h <;> cases h

theorem SubRow.resetOutcome_scheduled {last next : ℤ} (hplan : w.planById sub.planId = .ok plan)
    (h : sub.resetOutcome w.cal.toCalendar plan.toSubscriptionPlan now = .scheduled last next) :
    last = sub.resetBase := by
  unfold resetOutcome at h
  split_ifs at h
  rw [← boundaryAfter_ok hplan] at h
  split at h
  · cases h
  · cases h
  rename_i base next' hcatch
  obtain ⟨-, -, hwalk⟩ := catchUp_walk hplan hcatch
  split at h
  · cases h
    rcases hwalk with ⟨hbase, -⟩ | ⟨hfalse, -⟩
    · exact hbase
    · cases hfalse
  · cases h

/-- Rows keep their plan and start, and no reset is forgotten. -/
structure Later (db db' : SubDB) : Prop where
  rows : ∀ i sub, db.subs.row i = some sub →
    ∃ sub', db'.subs.row i = some sub' ∧ sub'.planId = sub.planId ∧ sub'.startTime = sub.startTime
  resets : ∀ x ∈ db.resets, x ∈ db'.resets

section

variable (h : Later db db')
include h

theorem Later.anchor {a : ℤ} (ha : db.Anchor i a) : db'.Anchor i a := by
  rcases ha with ⟨sub, hrow, rfl⟩ | hmem
  · obtain ⟨sub', hrow', -, hstart⟩ := h.rows i sub hrow
    exact .inl ⟨sub', hrow', hstart⟩
  · exact .inr (h.resets _ hmem)

theorem Later.boundary {b : ℤ} (hb : db.Boundary w i b) : db'.Boundary w i b := by
  obtain ⟨sub, a, hrow, ha, hwalk⟩ := hb
  obtain ⟨sub', hrow', hplan, -⟩ := h.rows i sub hrow
  exact ⟨sub', a, hrow', h.anchor ha, hplan ▸ hwalk⟩

theorem Later.separated {x y : QuotaReset} (hs : Separated w db x y) : Separated w db' x y := by
  intro hx hid hy
  obtain ⟨b, hb, hlt, hle⟩ := hs hx hid hy
  exact ⟨b, h.boundary hb, hlt, hle⟩

end

/-- The periods of a subscription are counted from an anchor, and its resets lie before the boundary after its base. -/
structure RowOnSchedule (w : SubWorld) (db : SubDB) (i : ℕ) (sub : SubRow) : Prop where
  start : 0 < sub.startTime
  base : ∃ a, db.Anchor i a ∧ Relation.ReflTransGen (w.PeriodStep sub.planId) a sub.resetBase
  ahead : ∀ x ∈ db.resets, x.id = i → x.kind ≠ .plain → w.boundaryAfter sub.planId sub.endTime sub.resetBase ≤ 0 ∨
    x.time < w.boundaryAfter sub.planId sub.endTime sub.resetBase

theorem RowOnSchedule.later (h : RowOnSchedule w db i sub) (hlater : Later db db')
    (hresets : ∀ x ∈ db'.resets, x.id = i → x ∈ db.resets) : RowOnSchedule w db' i sub := by
  obtain ⟨a, ha, hwalk⟩ := h.base
  exact ⟨h.start, ⟨a, hlater.anchor ha, hwalk⟩, fun x hx hid => h.ahead x (hresets x hx hid) hid⟩

structure OnSchedule (w : SubWorld) (now : ℤ) (db : SubDB) : Prop where
  rows : ∀ i sub, db.subs.row i = some sub → RowOnSchedule w db i sub
  known : ∀ x ∈ db.resets, x.id < db.subs.nextId
  past : ∀ x ∈ db.resets, x.time ≤ now
  separated : db.resets.Pairwise (Separated w db)

theorem OnSchedule.mono {now' : ℤ} (h : OnSchedule w now db) (hle : now ≤ now') : OnSchedule w now' db :=
  { h with past := fun x hx => (h.past x hx).trans hle }

theorem OnSchedule.past_cons (h : OnSchedule w now db) {kind : ResetKind} :
    ∀ x ∈ (⟨i, now, kind⟩ : QuotaReset) :: db.resets, x.time ≤ now :=
  forall_mem_cons.2 ⟨le_rfl, h.past⟩

theorem separated_of_ne {kind : ResetKind} (hkind : kind ≠ .automatic) :
    ∀ x ∈ [(⟨i, now, kind⟩ : QuotaReset)], ∀ y ∈ db.resets, Separated w db x y := by
  intro x hx y _ hauto
  rw [mem_singleton] at hx
  subst hx
  exact absurd hauto hkind

theorem OnSchedule.write (h : OnSchedule w now db) (hrow : db.subs.row i = some sub)
    (hsubs : db'.subs = db.subs.set i (some sub')) (hterms : sub'.terms = sub.terms) (new : List QuotaReset)
    (hresets : db'.resets = new ++ db.resets) (hnew : new = [] ∨ ∃ kind, new = [⟨i, now, kind⟩])
    (hbase : ∃ a, (db.Anchor i a ∨ ⟨i, a, .advanced⟩ ∈ new) ∧
      Relation.ReflTransGen (w.PeriodStep sub.planId) a sub'.resetBase)
    (hahead : ∀ x ∈ db'.resets, x.id = i → x.kind ≠ .plain → w.boundaryAfter sub.planId sub.endTime sub'.resetBase ≤ 0 ∨
        x.time < w.boundaryAfter sub.planId sub.endTime sub'.resetBase)
    (hsep : ∀ x ∈ new, ∀ y ∈ db.resets, Separated w db x y) : OnSchedule w now db' := by
  simp only [terms, Prod.mk.injEq] at hterms
  obtain ⟨-, hplan, -, hstart, hend, -⟩ := hterms
  have hself : db'.subs.row i = some sub' := by rw [hsubs]; exact set_row_self hrow _
  have hother : ∀ j, j ≠ i → db'.subs.row j = db.subs.row j := by
    intro j hj
    rw [hsubs]
    exact set_row_ne hj _
  have hlater : Later db db' := by
    refine ⟨?_, fun x hx => by rw [hresets]; exact mem_append_right _ hx⟩
    intro j r hr
    by_cases hj : j = i
    · subst hj
      rw [hrow, some.injEq] at hr
      exact ⟨sub', hself, hr ▸ hplan, hr ▸ hstart⟩
    · exact ⟨r, by rw [hother j hj, hr], rfl, rfl⟩
  have hmem : ∀ x ∈ db'.resets, (x.id = i ∧ x.time = now) ∨ x ∈ db.resets := by
    intro x hx
    rw [hresets, mem_append] at hx
    rcases hx with hx | hx
    · rcases hnew with rfl | ⟨kind, rfl⟩
      · cases hx
      rw [mem_singleton] at hx
      subst hx
      exact .inl ⟨rfl, rfl⟩
    · exact .inr hx
  constructor
  · intro j r hr
    by_cases hj : j = i
    · subst hj
      rw [hself, some.injEq] at hr
      subst hr
      rw [← hplan] at hbase
      rw [← hplan, ← hend] at hahead
      refine ⟨hstart ▸ (h.rows _ _ hrow).start, ?_, hahead⟩
      obtain ⟨a, ha | hadv, hwalk⟩ := hbase
      · exact ⟨a, hlater.anchor ha, hwalk⟩
      · exact ⟨a, .inr (by rw [hresets]; exact mem_append_left _ hadv), hwalk⟩
    · refine (h.rows j r (by rw [← hother j hj, hr])).later hlater fun x hx hid => ?_
      exact (hmem x hx).resolve_left fun hnew => hj (hid.symm.trans hnew.1)
  · intro x hx
    have hnext : db'.subs.nextId = db.subs.nextId := by rw [hsubs]; rfl
    rw [hnext]
    rcases hmem x hx with ⟨hxi, -⟩ | hx
    · rw [hxi]
      exact lt_of_row hrow
    · exact h.known x hx
  · intro x hx
    rcases hmem x hx with ⟨-, htime⟩ | hx
    · exact htime.le
    · exact h.past x hx
  · rw [hresets, pairwise_append]
    refine ⟨?_, h.separated.imp hlater.separated, ?_⟩
    · rcases hnew with rfl | ⟨kind, rfl⟩
      · exact .nil
      · exact pairwise_singleton _ _
    · intro x hx y hy
      exact hlater.separated (hsep x hx y hy)

theorem OnSchedule.save (h : OnSchedule w now db) (hrow : db.subs.row i = some sub)
    (hterms : sub'.terms = sub.terms) (hbase : sub'.resetBase = sub.resetBase) :
    OnSchedule w now (db.save i sub') := by
  refine h.write hrow rfl hterms [] rfl (.inl rfl) ?_ ?_ ?_
  · obtain ⟨a, ha, hwalk⟩ := (h.rows i sub hrow).base
    exact ⟨a, .inl ha, hbase ▸ hwalk⟩
  · rw [hbase]
    exact (h.rows i sub hrow).ahead
  · intro x hx
    cases hx

/-- An advancing reset leaves a base whose next boundary is ahead. -/
def SubRow.AdvanceFits (w : SubWorld) (now : ℤ) (sub : SubRow) : Prop :=
  now < w.boundaryAfter sub.planId sub.endTime now ∨ (w.boundaryAfter sub.planId sub.endTime now ≤ 0 ∧
      (w.boundaryAfter sub.planId sub.endTime sub.startTime ≤ 0 ∨
        now < w.boundaryAfter sub.planId sub.endTime sub.startTime))

theorem OnSchedule.automatic {last next : ℤ} (h : OnSchedule w now db) (hrow : db.subs.row i = some sub)
    (hplan : w.planById sub.planId = .ok plan)
    (hout : sub.resetOutcome w.cal.toCalendar plan.toSubscriptionPlan now = .reset last next) :
    OnSchedule w now (db.saveReset i (sub.restarted last next) now .automatic) := by
  obtain ⟨hpos, hdue, hlast, hwalk, hahead⟩ := resetOutcome_reset hplan hout
  obtain ⟨-, ⟨a, ha, hbase⟩, hbefore⟩ := h.rows i sub hrow
  have hbase' : (sub.restarted last next).resetBase = last := if_neg (Int.not_le.2 hlast)
  refine h.write hrow rfl rfl [⟨i, now, .automatic⟩] rfl (.inr ⟨_, rfl⟩) ?_ ?_ ?_
  · refine ⟨a, .inl ha, ?_⟩
    rw [hbase']
    exact hbase.trans hwalk.to_reflTransGen
  · intro x hx _ _
    rw [hbase']
    have hpast := h.past_cons x hx
    omega
  · intro x hx y hy _ hid hkind
    rw [mem_singleton] at hx
    subst hx
    -- the boundary that the reset has reached
    have hstep := periodStep_of_pos hpos
    refine ⟨_, ⟨sub, a, hrow, ha, .tail' hbase hstep⟩, ?_, hdue⟩
    rcases hbefore y hy hid hkind with hnone | hlt
    · omega
    · exact hlt

theorem OnSchedule.plain (h : OnSchedule w now db) (hrow : db.subs.row i = some sub) :
    OnSchedule w now (db.saveReset i { sub with amountUsed := 0 } now .plain) := by
  have hbase : ({ sub with amountUsed := 0 } : SubRow).resetBase = sub.resetBase := rfl
  refine h.write hrow rfl rfl [⟨i, now, .plain⟩] rfl (.inr ⟨_, rfl⟩) ?_ ?_ ?_
  · obtain ⟨a, ha, hwalk⟩ := (h.rows i sub hrow).base
    exact ⟨a, .inl ha, hbase ▸ hwalk⟩
  · intro x hx hid hkind
    rcases mem_cons.1 hx with rfl | hx
    · exact absurd rfl hkind
    · rw [hbase]
      exact (h.rows i sub hrow).ahead x hx hid hkind
  · exact separated_of_ne (by decide)

theorem OnSchedule.advanced {next : ℤ} (h : OnSchedule w now db) (hrow : db.subs.row i = some sub)
    (hnow : 0 < now) (hnext : next = w.boundaryAfter sub.planId sub.endTime now) (hfits : sub.AdvanceFits w now) :
    OnSchedule w now (db.saveReset i
      { sub with amountUsed := 0, nextResetTime := next, lastResetTime := if 0 < next then now else 0 }
      now .advanced) := by
  -- the new base is the time of the reset, or the start again
  have hcases : (0 < next ∧ (if 0 < next then now else 0) = now) ∨ (next ≤ 0 ∧ (if 0 < next then now else 0) = 0) := by
    split <;> omega
  rw [SubRow.AdvanceFits, ← hnext] at hfits
  rcases hcases with ⟨hpos, hlast⟩ | ⟨hzero, hlast⟩
  · have hbase : ({ sub with amountUsed := 0, nextResetTime := next, lastResetTime := now } : SubRow).resetBase =
        now := if_neg (Int.not_le.2 hnow)
    rw [hlast]
    refine h.write hrow rfl rfl [⟨i, now, .advanced⟩] rfl (.inr ⟨_, rfl⟩) ?_ ?_ ?_
    · exact ⟨now, .inr mem_cons_self, by rw [hbase]⟩
    · intro x hx _ _
      rw [hbase, ← hnext]
      have hpast := h.past_cons x hx
      omega
    · exact separated_of_ne (by decide)
  · have hbase : ({ sub with amountUsed := 0, nextResetTime := next, lastResetTime := 0 } : SubRow).resetBase =
        sub.startTime := if_pos le_rfl
    rw [hlast]
    refine h.write hrow rfl rfl [⟨i, now, .advanced⟩] rfl (.inr ⟨_, rfl⟩) ?_ ?_ ?_
    · exact ⟨sub.startTime, .inl (.inl ⟨sub, hrow, rfl⟩), by rw [hbase]⟩
    · intro x hx _ _
      rw [hbase]
      have hpast := h.past_cons x hx
      omega
    · exact separated_of_ne (by decide)

def SubDB.AdvancesFit (w : SubWorld) (now : ℤ) (op : SubOp) (db : SubDB) : Prop :=
  ∀ i sub, db.subs.row i = some sub → op.resets true sub = true → sub.status = .active → now < sub.endTime →
    sub.AdvanceFits w now

theorem QuotaMove.advancesFit (h : QuotaMove w now op db db') (hfits : db.AdvancesFit w now op) :
    db'.AdvancesFit w now op := by
  intro i sub' hrow' hop hactive hend
  have hterms := h.terms i
  rw [hrow', map_some, eq_comm, map_eq_some_iff] at hterms
  obtain ⟨sub, hrow, hterms⟩ := hterms
  simp only [SubRow.terms, Prod.mk.injEq] at hterms
  obtain ⟨huser, hplan, hstatus, hstart, hend', -⟩ := hterms
  have hop' : op.resets true sub = true := by
    unfold SubOp.resets at hop ⊢
    rw [huser, hplan]
    exact hop
  have hold := hfits i sub hrow hop' (hstatus.trans hactive) (hend' ▸ hend)
  unfold SubRow.AdvanceFits at hold ⊢
  rwa [hplan, hstart, hend'] at hold

theorem QuotaMove.onSchedule (h : QuotaMove w now op db db') (hs : OnSchedule w now db) (hnow : 0 < now)
    (hfits : db.AdvancesFit w now op) : OnSchedule w now db' := by
  cases h with
  | automatic hrow hplan hout => exact hs.automatic hrow hplan hout
  | @scheduled i sub plan last next hrow hplan hout =>
    have hlast := resetOutcome_scheduled hplan hout
    refine hs.save hrow (by rfl) ?_
    rw [hlast]
    unfold resetBase
    by_cases hle : sub.lastResetTime ≤ 0
    · simp [if_pos hle]
    · simp [if_neg hle]
  | charged hrow | moved hrow => exact hs.save hrow (by rfl) (by rfl)
  | @admin i sub plan adv hrow hplan hop hactive hend =>
    cases adv with
    | false => exact hs.plain hrow
    | true => exact hs.advanced hrow hnow (boundaryAfter_ok hplan _ _).symm (hfits _ _ hrow hop hactive hend)
  | recorded => exact ⟨fun i sub hrow => { hs.rows i sub hrow with }, hs.known, hs.past, hs.separated⟩

theorem QuotaMoves.onSchedule (h : QuotaMoves w now op db db') (hs : OnSchedule w now db) (hnow : 0 < now)
    (hfits : db.AdvancesFit w now op) : OnSchedule w now db' := by
  have hboth : OnSchedule w now db' ∧ db'.AdvancesFit w now op := by
    induction h with
    | refl => exact ⟨hs, hfits⟩
    | tail _ hmove ih => exact ⟨hmove.onSchedule ih.1 hnow ih.2, hmove.advancesFit ih.2⟩
  exact hboth.1

theorem OnSchedule.create {userId planId : ℕ} (hs : OnSchedule w now db) (hnow : 0 < now)
    (h : db.createUserSubscriptionFromPlan w now userId planId plan = .ok db') : OnSchedule w now db' := by
  obtain ⟨endUnix, -, -, rfl⟩ := SubDB.create_ok h
  set new := newUserSubscription w.cal.toCalendar now userId planId plan endUnix (db.groupOf userId) with hnew
  have hresets : (db.lift userId (trimSpace plan.upgradeGroup)).resets = db.resets := by
    unfold SubDB.lift
    split <;> rfl
  have hbase : new.resetBase = now := by
    unfold resetBase
    by_cases hpos : 0 < calcNextResetTime w.cal.toCalendar now plan.toSubscriptionPlan endUnix
    · simp [hnew, newUserSubscription, if_pos hpos]
    · simp [hnew, newUserSubscription, if_neg hpos]
  have hlater : Later db { db.lift userId (trimSpace plan.upgradeGroup) with subs := db.subs.insert new } := by
    refine ⟨?_, fun x hx => by rw [hresets]; exact hx⟩
    intro i sub hrow
    refine ⟨sub, ?_, rfl, rfl⟩
    have hne : i ≠ db.subs.nextId := (lt_of_row hrow).ne
    exact (Function.update_of_ne hne _ _).trans hrow
  constructor
  · intro i sub hrow
    rcases insert_row_cases hrow with ⟨hi, rfl⟩ | hold
    · refine ⟨hnow, ⟨now, .inl ⟨_, hrow, rfl⟩, by rw [hbase]⟩, fun x hx hid => ?_⟩
      have := hs.known x (hresets ▸ hx)
      omega
    · exact (hs.rows i sub hold).later hlater fun x hx _ => hresets ▸ hx
  · intro x hx
    dsimp only at hx
    rw [hresets] at hx
    exact Nat.lt_succ_of_lt (hs.known x hx)
  · intro x hx
    rw [hresets] at hx
    exact hs.past x hx
  · have hsep := hs.separated.imp hlater.separated
    rwa [← hresets] at hsep

def SubOp.buys : SubOp → Bool
  | .create .. => true
  | _ => false

def SubSystem.InOrder (s : SubSystem) (ev : SubEvent) : Prop :=
  0 < ev.time ∧ s.clock ≤ ev.time ∧ (ev.op.onQuota = true ∨ ev.op.buys = true)

instance (s : SubSystem) (ev : SubEvent) : Decidable (s.InOrder ev) := inferInstanceAs (Decidable (_ ∧ _ ∧ _))

instance (w : SubWorld) (now : ℤ) (sub : SubRow) : Decidable (sub.AdvanceFits w now) :=
  inferInstanceAs (Decidable (_ ∨ _ ∧ (_ ∨ _)))

instance (w : SubWorld) (now : ℤ) (op : SubOp) (db : SubDB) : Decidable (db.AdvancesFit w now op) :=
  decidable_of_iff (∀ e ∈ db.subs.entries, op.resets true e.2 = true → e.2.status = .active →
      now < e.2.endTime → e.2.AdvanceFits w now)
    ⟨fun h i sub hrow => h (i, sub) (SubRows.mem_entries.2 hrow), fun h e he => h e.1 e.2 (SubRows.mem_entries.1 he)⟩

def SubSystem.Fresh (s : SubSystem) : Prop := (∀ i, s.db.subs.row i = none) ∧ s.db.resets = []

theorem OnSchedule.next {s : SubSystem} {ev : SubEvent} (hs : OnSchedule w s.clock s.db) (hev : s.InOrder ev)
    (hfits : s.db.AdvancesFit w ev.time ev.op) : OnSchedule w ev.time (s.next w ev).db := by
  obtain ⟨hpos, hclock, hop⟩ := hev
  have hnow := hs.mono hclock
  rcases hop with hquota | hbuys
  · exact (SubDB.call_moves hquota).onSchedule hnow hpos hfits
  obtain ⟨time, op⟩ := ev
  cases op with
  | create userId planId dbErr =>
    have hcall : (s.next w ⟨time, .create userId planId dbErr⟩).db = s.db ∨ (w.planById planId).bind (fun plan =>
          s.db.createUserSubscriptionFromPlan w time userId planId plan) =
          .ok (s.next w ⟨time, .create userId planId dbErr⟩).db :=
      (s.db.after_cases dbErr _).imp id And.left
    rcases hcall with hsame | hok
    · rw [hsame]
      exact hnow
    · obtain ⟨plan, -, hcreate⟩ := bind_eq_ok hok
      exact hnow.create hpos hcreate
  | _ => cases hbuys

/-- **One reset per period.** In the list of resets, the newest first, every reset by the calendar is separated from
the ones before it. -/
theorem resets_separated {s s' : SubSystem} {evs : List SubEvent}
    (hrun : Run (within (fun s ev s' => s' = SubSystem.next w s ev)
      fun s ev => s.InOrder ev ∧ s.db.AdvancesFit w ev.time ev.op) s evs s')
    (h0 : s.Fresh) : s'.db.resets.Pairwise (Separated w s'.db) := by
  have hstart : OnSchedule w s.clock s.db := by
    obtain ⟨hrows, hresets⟩ := h0
    constructor
    · intro i sub hrow
      rw [hrows i] at hrow
      cases hrow
    · simp [hresets]
    · simp [hresets]
    · simp [hresets]
  have hstep : ∀ s ev s', OnSchedule w s.clock s.db → within (fun s ev s' => s' = next w s ev)
      (fun s ev => s.InOrder ev ∧ s.db.AdvancesFit w ev.time ev.op) s ev s' →
      OnSchedule w s'.clock s'.db := by
    rintro s ev _ hs ⟨rfl, hev, hfits⟩
    exact hs.next hev hfits
  have hend := hrun.inv hstep hstart
  exact hend.separated

def sampleDays : List SubEvent :=
  [⟨1000, .create 7 1 false⟩, ⟨90000, .preConsume "a" 7 30 false⟩, ⟨91000, .adminResetUser 7 1 true false⟩,
    ⟨180000, .preConsume "b" 7 30 false⟩]

theorem resets_separated_three_days :
    let s' := sampleDays.foldl (SubSystem.next (sampleSubWorld 100 300000)) emptySubSystem
    s'.db.resets = [⟨1, 180000, .automatic⟩, ⟨1, 91000, .advanced⟩, ⟨1, 90000, .automatic⟩] ∧
      s'.db.resets.Pairwise (Separated (sampleSubWorld 100 300000) s'.db) := by
  have hrun : Run (within (fun s ev s' => s' = next (sampleSubWorld 100 300000) s ev)
      fun s ev => s.InOrder ev ∧ s.db.AdvancesFit (sampleSubWorld 100 300000) ev.time ev.op) emptySubSystem
      sampleDays (sampleDays.foldl (next (sampleSubWorld 100 300000)) emptySubSystem) :=
    Run.of_allowed (by decide +kernel)
  exact ⟨by decide +kernel, resets_separated hrun ⟨fun _ => rfl, rfl⟩⟩

def sampleLastDay : List SubEvent :=
  [⟨1000, .create 7 1 false⟩, ⟨90000, .preConsume "a" 7 30 false⟩, ⟨91000, .adminResetUser 7 1 true false⟩,
    ⟨92000, .preConsume "b" 7 30 false⟩]

theorem SubDB.Boundary.midnight {total : Int64} {seconds b : ℤ} {sub : SubRow}
    (hrow : db.subs.row i = some sub) (hplan : sub.planId = 1)
    (h : db.Boundary (sampleSubWorld total seconds) i b) : ∃ n : ℤ, b = n * 86400 := by
  obtain ⟨sub', a, hrow', -, hwalk⟩ := h
  rw [hrow, some.injEq] at hrow'
  subst hrow'
  obtain ⟨c, -, hstep⟩ := Relation.TransGen.tail'_iff.1 hwalk
  rw [hplan] at hstep
  exact ⟨c / 86400 + 1, hstep.1⟩

/-- **Two resets in one period.** An advancing reset on the last day clears the last reset time, and the charge after
it resets for the same midnight. -/
theorem reset_twice_in_a_period :
    ¬ ∀ (w : SubWorld) (s s' : SubSystem) (evs : List SubEvent),
      Run (within (fun s ev s' => s' = SubSystem.next w s ev) fun s ev => s.InOrder ev) s evs s' →
      s.Fresh → s'.db.resets.Pairwise (Separated w s'.db) := by
  intro h
  have hrun : Run (within (fun s ev s' => s' = next (sampleSubWorld 100 100000) s ev)
      fun s ev => s.InOrder ev) emptySubSystem sampleLastDay
      (sampleLastDay.foldl (next (sampleSubWorld 100 100000)) emptySubSystem) :=
    Run.of_allowed (by decide +kernel)
  have hsep := h _ _ _ _ hrun ⟨fun _ => rfl, rfl⟩
  have hresets : (sampleLastDay.foldl (next (sampleSubWorld 100 100000)) emptySubSystem).db.resets =
      [⟨1, 92000, .automatic⟩, ⟨1, 91000, .advanced⟩, ⟨1, 90000, .automatic⟩] := by
    decide +kernel
  have hplan : ((sampleLastDay.foldl (next (sampleSubWorld 100 100000)) emptySubSystem).db.subs.row 1).map
      (·.planId) = some 1 := by
    decide +kernel
  obtain ⟨sub, hrow, hid⟩ := map_eq_some_iff.1 hplan
  rw [hresets] at hsep
  have hfirst := rel_of_pairwise_cons hsep (mem_cons_of_mem _ (mem_singleton_self _))
  obtain ⟨b, hb, hlt, hle⟩ := hfirst rfl rfl (by decide)
  obtain ⟨n, rfl⟩ := hb.midnight hrow hid
  dsimp only at hlt hle
  omega

end NewApi
