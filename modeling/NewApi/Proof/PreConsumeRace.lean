import NewApi.Spec.PreConsumeRace
import NewApi.Proof.SubscriptionBounds

/-!
# One request id, charged once

The calls of a race lock the rows that they choose from, so what a call has read of them stays current until its
transaction ends; the unique index lets one of them insert the record.
-/

namespace NewApi

open Trace Function List Option CallPhase SubRows
open ChargeRace (next)

variable {n : ℕ} {cfg : ChargeConfig n} {s s' : ChargeRace n} {e : ChargeEvent n} {k k' : Fin n} {db : SubDB}
  {t mine : SubRows} {held : List ℕ} {i j : ℕ} {r r' : SubRow} {c c' : ChosenSub} {userId : ℕ}

namespace SubRows

theorem merge_row_of_mem (hi : i ∈ held) (hrow : t.row i = some r) : (t.merge mine held).row i = mine.row i := by
  have hlt := lt_of_row hrow
  simp [merge, hi, hlt, and_self]

theorem merge_row_of_notMem (hi : i ∉ held) : (t.merge mine held).row i = t.row i := by simp [merge, hi]

theorem merge_row_cases (h : (t.merge mine held).row i = some r) :
    (i ∈ held ∧ mine.row i = some r) ∨ (i ∉ held ∧ t.row i = some r) := by
  by_cases hi : i ∈ held
  · left
    simp only [merge, hi, true_and] at h
    split at h
    · exact ⟨hi, h⟩
    · rw [t.fresh i (by omega)] at h
      cases h
  · rw [merge_row_of_notMem hi] at h
    exact .inr ⟨hi, h⟩

def raised (t t' : SubRows) : Bool :=
  decide (∃ i < t.nextId, ∃ r ∈ t.row i, ∃ r' ∈ t'.row i, r.amountUsed < r'.amountUsed)

theorem raised_iff {t' : SubRows} : t.raised t' = true ↔
    ∃ i r r', t.row i = some r ∧ t'.row i = some r' ∧ r.amountUsed < r'.amountUsed := by
  simp only [raised, decide_eq_true_eq, mem_def]
  constructor
  · rintro ⟨i, -, r, hr, r', hr', hlt⟩
    exact ⟨i, r, r', hr, hr', hlt⟩
  · rintro ⟨i, r, r', hr, hr', hlt⟩
    exact ⟨i, lt_of_row hr, r, hr, r', hr', hlt⟩

end SubRows

structure ChosenSub.Current (c : ChosenSub) (t : SubRows) (userId : ℕ) : Prop where
  mem : c.id ∈ c.held
  sub : c.mine.row c.id = some c.sub
  rows : ∀ i ∈ c.held, ∃ r m, t.row i = some r ∧ r.userId = userId ∧ c.mine.row i = some m ∧ r.ResetTo m

theorem SubDB.choose_ok {w : SubWorld} {args : PreConsumeArgs} (h : db.choose w args = .ok c) :
    c.Current db.subs args.userId ∧ c.held = (db.candidates args.now args.userId).map (·.1) := by
  unfold choose at h
  split at h
  · cases h
  split at h
  · cases h
  rename_i i sub mine hchoose
  cases h
  obtain ⟨hmem, hrow, -, hwithin⟩ := chooseFrom_row (db.candidates_current args.userId) hchoose
  refine ⟨⟨hmem, hrow, ?_⟩, rfl⟩
  intro j hj
  obtain ⟨⟨j, r⟩, he, rfl⟩ := mem_map.1 hj
  have hr := (db.candidates_current args.userId).row _ he
  obtain ⟨m, hm, hreset⟩ := hwithin.rows j r hr
  have hquery := of_mem_filter ((byEndTime_perm _).mem_iff.1 he)
  simp only [Bool.and_eq_true, decide_eq_true_eq] at hquery
  exact ⟨r, m, hr, hquery.1.1, hm, hreset⟩

/-- The steps of a race, with what each of them needs. -/
inductive ChargeMove (cfg : ChargeConfig n) (s : ChargeRace n) : ChargeEvent n → ChargeRace n → Prop
  | waits (e : ChargeEvent n) : ChargeMove cfg s e s
  | fails (e : ChargeEvent n) (k : Fin n) (err : SubErr) : ChargeMove cfg s e (s.fails k err)
  | missing {k : Fin n} : s.records = [] → ChargeMove cfg s (.lookup k) (s.enter k .missing)
  | found {k : Fin n} {existing} : existing ∈ s.records →
      ChargeMove cfg s (.lookup k) (s.enter k (.found existing))
  | answered {k : Fin n} {existing charge} : s.call k = .found existing →
      charge.userSubscriptionId = existing.userSubscriptionId → charge.preConsumed = existing.preConsumed →
      ChargeMove cfg s (.read k) (s.enter k (.returned (.ok charge)))
  | locked {k : Fin n} {c} : s.call k = .missing → c.Current s.db.subs (cfg.call k).userId →
      (∀ k' c', k' ≠ k → (s.call k').candidate = some c' → ∀ i ∈ c.held, i ∉ c'.held) →
      ChargeMove cfg s (.lock k) (s.enter k (.chosen c))
  | inserted {k : Fin n} {c sees} : s.call k = .chosen c → s.records = [] →
      (∀ k', (s.call k').isInserted = false) →
      ChargeMove cfg s (.insert k sees) (s.enter k (.inserted c))
  | duplicate {k : Fin n} {c dup charge} : s.call k = .chosen c →
      dup ∈ s.records → charge.userSubscriptionId = c.id → charge.preConsumed = dup.preConsumed →
      ChargeMove cfg s (.insert k true) ((s.publish c.mine c.held).enter k (.returned (.ok charge)))
  | committed {k : Fin n} {c charge} : s.call k = .inserted c →
      charge.userSubscriptionId = c.id → charge.preConsumed = (cfg.call k).amount →
      ChargeMove cfg s (.commit k)
        { (s.publish (c.mine.set c.id (some (c.sub.charged (cfg.call k).amount))) c.held).enter k
            (.returned (.ok charge)) with
          records := ⟨c.id, (cfg.call k).amount, false⟩ :: s.records }

theorem ChargeRace.next_move (cfg : ChargeConfig n) (s : ChargeRace n) (e : ChargeEvent n) :
    ChargeMove cfg s e (s.next cfg e) := by
  cases e with
  | lookup k =>
    simp only [next, lookup]
    split
    · split
      · exact .fails _ _ _
      split
      · rename_i hnil
        exact .missing hnil
      rename_i existing rest hcons
      split
      · exact .fails _ _ _
      · exact .found (hcons ▸ mem_cons_self)
    · exact .waits _
  | read k =>
    simp only [next, read]
    split
    · rename_i existing hfound
      split
      · exact .fails _ _ _
      · exact .answered hfound rfl rfl
    · exact .waits _
  | lock k =>
    simp only [next, lock]
    split
    · rename_i hmissing
      split_ifs with hfree
      · exact .waits _
      split
      · exact .fails _ _ _
      rename_i c hchoose
      obtain ⟨hcur, hheld⟩ := SubDB.choose_ok hchoose
      refine .locked hmissing hcur ?_
      intro k' c' hk' hc' i hi hi'
      exact hfree ⟨k', hk', c', hc', i, hheld ▸ hi, hi'⟩
    · exact .waits _
  | insert k sees =>
    simp only [next, insert]
    split
    · rename_i c hchosen
      split
      · exact .waits _
      rename_i hnone
      split
      · rename_i hnil
        refine .inserted hchosen hnil ?_
        intro k'
        exact Bool.eq_false_iff.2 fun hk' => hnone ⟨k', hk'⟩
      rename_i dup rest hcons
      split_ifs with hsees
      · exact .fails _ _ _
      · exact .fails _ _ _
      · obtain rfl : sees = true := by simpa using hsees
        exact .duplicate hchosen (hcons ▸ mem_cons_self) rfl rfl
    · exact .waits _
  | commit k =>
    simp only [next, commit]
    split
    · rename_i c hinserted
      exact .committed hinserted rfl rfl
    · exact .waits _
  | fail =>
    simp only [next, fail]
    split
    · exact .waits _
    · exact .fails _ _ _

def ChargeConfig.Owned (cfg : ChargeConfig n) (t : SubRows) (i : ℕ) : Prop :=
  ∃ r ∈ t.row i, ∃ k, r.userId = (cfg.call k).userId

def CallPhase.isOpen : CallPhase → Bool
  | .missing | .chosen _ | .inserted _ => true
  | _ => false

namespace ChargeRace

/-- A call can be in the phase `p`: what it has found and chosen is current, and no other call has locked its rows. -/
structure Fits (cfg : ChargeConfig n) (s : ChargeRace n) (k : Fin n) (p : CallPhase) : Prop where
  found : ∀ existing, p = .found existing → existing ∈ s.records
  current : ∀ c, p.candidate = some c → c.Current s.db.subs (cfg.call k).userId
  disjoint : ∀ k' c c', k' ≠ k → p.candidate = some c → (s.call k').candidate = some c' → ∀ i ∈ c.held, i ∉ c'.held
  inserted : p.isInserted = true → s.records = [] ∧ ∀ k', k' ≠ k → (s.call k').isInserted = false
  owned : p.isOpen = true → ∀ record ∈ s.records, cfg.Owned s.db.subs record.userSubscriptionId

structure Ok (cfg : ChargeConfig n) (s : ChargeRace n) : Prop where
  unique : s.records.length ≤ 1
  fits : ∀ k, Fits cfg s k (s.call k)

@[simp] theorem enter_call_self (s : ChargeRace n) (k : Fin n) (p : CallPhase) : (s.enter k p).call k = p :=
  update_self ..

theorem enter_call_ne (h : k' ≠ k) (s : ChargeRace n) (p : CallPhase) : (s.enter k p).call k' = s.call k' :=
  update_of_ne h _ _

variable {p : CallPhase}

theorem Fits.of_free (hp : p.candidate = none) (hfound : ∀ existing, p = .found existing → existing ∈ s.records)
    (howned : p.isOpen = true → ∀ record ∈ s.records, cfg.Owned s.db.subs record.userSubscriptionId) :
    Fits cfg s k p where
  found := hfound
  current := by intro c h; rw [hp] at h; cases h
  disjoint := by intro k' c c' _ h; rw [hp] at h; cases h
  inserted := by
    intro h
    cases p with
    | inserted => cases hp
    | _ => cases h
  owned := howned

theorem Fits.returned (res : Except SubErr SubCharge) : Fits cfg s k (.returned res) :=
  .of_free rfl nofun nofun

theorem Fits.of_candidate (hp : p.candidate = some c) (hcur : c.Current s.db.subs (cfg.call k).userId)
    (hfree : ∀ k' c', k' ≠ k → (s.call k').candidate = some c' → ∀ i ∈ c.held, i ∉ c'.held)
    (hinserted : p.isInserted = true → s.records = [] ∧ ∀ k', k' ≠ k → (s.call k').isInserted = false)
    (howned : ∀ record ∈ s.records, cfg.Owned s.db.subs record.userSubscriptionId) : Fits cfg s k p where
  found := by rintro existing rfl; cases hp
  current := by
    intro c' hc'
    obtain rfl := some.inj (hp.symm.trans hc')
    exact hcur
  disjoint := by
    intro k' c1 c' hk' hc1
    obtain rfl := some.inj (hp.symm.trans hc1)
    exact hfree k' c' hk'
  inserted := hinserted
  owned := fun _ => howned

theorem Ok.enter (h : s.Ok cfg) (hp : Fits cfg s k p) : (s.enter k p).Ok cfg := by
  refine ⟨h.unique, fun k1 => ?_⟩
  by_cases hk : k1 = k
  · subst hk
    rw [enter_call_self]
    refine ⟨hp.found, hp.current, ?_, fun hi => ⟨(hp.inserted hi).1, fun k' hk' => ?_⟩, hp.owned⟩
    · intro k' c c' hk' hc hc'
      rw [enter_call_ne hk'] at hc'
      exact hp.disjoint k' c c' hk' hc hc'
    · rw [enter_call_ne hk']
      exact (hp.inserted hi).2 k' hk'
  · rw [enter_call_ne hk]
    obtain ⟨hfound, hcurrent, hdisjoint, hinserted, howned⟩ := h.fits k1
    refine ⟨hfound, hcurrent, ?_, fun hi => ⟨(hinserted hi).1, fun k' hk' => ?_⟩, howned⟩
    · intro k' c c' hk' hc hc' i hi hi'
      by_cases hkk : k' = k
      · subst hkk
        rw [enter_call_self] at hc'
        exact hp.disjoint k1 c' c hk hc' hc i hi' hi
      · rw [enter_call_ne hkk] at hc'
        exact hdisjoint k' c c' hk' hc hc' i hi hi'
    · by_cases hkk : k' = k
      · subst hkk
        rw [enter_call_self, Bool.eq_false_iff]
        intro hp'
        rw [(hp.inserted hp').2 k1 hk] at hi
        cases hi
      · rw [enter_call_ne hkk]
        exact (hinserted hi).2 k' hk'

theorem Ok.publish (h : s.Ok cfg) (hfree : ∀ k c, (s.call k).candidate = some c → ∀ i ∈ c.held, i ∉ held)
    (huser : ∀ i ∈ held, ∀ r, s.db.subs.row i = some r → ∃ m, mine.row i = some m ∧ m.userId = r.userId) :
    (s.publish mine held).Ok cfg := by
  refine ⟨h.unique, fun k => ?_⟩
  obtain ⟨hfound, hcurrent, hdisjoint, hinserted, howned⟩ := h.fits k
  refine ⟨hfound, ?_, hdisjoint, hinserted, ?_⟩
  · intro c hc
    obtain ⟨hmem, hsub, hrows⟩ := hcurrent c hc
    refine ⟨hmem, hsub, ?_⟩
    intro i hi
    obtain ⟨r, m, hr, hrest⟩ := hrows i hi
    exact ⟨r, m, (merge_row_of_notMem (hfree k c hc i hi)).trans hr, hrest⟩
  · intro hk record hrecord
    obtain ⟨r, hr, k', huser'⟩ := howned hk record hrecord
    by_cases hi : record.userSubscriptionId ∈ held
    · obtain ⟨m, hm, hmuser⟩ := huser _ hi r hr
      exact ⟨m, (merge_row_of_mem hi hr).trans hm, k', hmuser.trans huser'⟩
    · exact ⟨r, (merge_row_of_notMem hi).trans hr, k', huser'⟩

theorem Ok.record {record : SubRecord} (h : s.Ok cfg) (hnil : s.records = [])
    (hnone : ∀ k, (s.call k).isInserted = false) (howned : cfg.Owned s.db.subs record.userSubscriptionId) :
    ({ s with records := record :: s.records } : ChargeRace n).Ok cfg := by
  refine ⟨by simp [hnil], fun k => ?_⟩
  obtain ⟨hfound, hcurrent, hdisjoint, -, -⟩ := h.fits k
  refine ⟨fun existing hk => mem_cons_of_mem _ (hfound existing hk), hcurrent, hdisjoint, ?_, ?_⟩
  · intro hk
    rw [hnone k] at hk
    cases hk
  · intro _ record' hrecord'
    rw [hnil] at hrecord'
    obtain rfl := mem_singleton.1 hrecord'
    exact howned

theorem Ok.released {res : Except SubErr SubCharge} (h : s.Ok cfg) (hc : (s.call k).candidate = some c) :
    ∀ k' c', ((s.enter k (.returned res)).call k').candidate = some c' → ∀ i ∈ c'.held, i ∉ c.held := by
  intro k' c' hc' i hi hi'
  by_cases hk : k' = k
  · subst hk
    rw [enter_call_self] at hc'
    cases hc'
  · rw [enter_call_ne hk] at hc'
    exact (h.fits k).disjoint k' c c' hk hc hc' i hi' hi

end ChargeRace

theorem ChosenSub.Current.mine_user (h : c.Current t userId) :
    ∀ i ∈ c.held, ∀ r, t.row i = some r → ∃ m, c.mine.row i = some m ∧ m.userId = r.userId := by
  intro i hi r hr
  obtain ⟨r', m, hr', -, hm, hreset⟩ := h.rows i hi
  obtain rfl := some.inj (hr'.symm.trans hr)
  exact ⟨m, hm, hreset.userId⟩

theorem ChosenSub.Current.charged_user (h : c.Current t userId) (amount : Int64) : ∀ i ∈ c.held, ∀ r, t.row i = some r →
      ∃ m, (c.mine.set c.id (some (c.sub.charged amount))).row i = some m ∧ m.userId = r.userId := by
  intro i hi r hr
  obtain ⟨m, hm, huser⟩ := h.mine_user i hi r hr
  by_cases hid : i = c.id
  · subst hid
    obtain rfl := some.inj (h.sub.symm.trans hm)
    exact ⟨_, set_row_self h.sub _, huser⟩
  · exact ⟨m, (set_row_ne hid _).trans hm, huser⟩

namespace ChargeRace

theorem Ok.move (h : s.Ok cfg) (hmove : ChargeMove cfg s e s') : s'.Ok cfg := by
  cases hmove with
  | waits => exact h
  | fails | answered => exact h.enter (.returned _)
  | missing hnil =>
    have hnone : ∀ record ∈ s.records, cfg.Owned s.db.subs record.userSubscriptionId := by
      intro record hrecord
      rw [hnil] at hrecord
      cases hrecord
    exact h.enter (.of_free rfl nofun fun _ => hnone)
  | @found k existing hmem =>
    have hfound : ∀ existing', CallPhase.found existing = .found existing' → existing' ∈ s.records := by
      intro existing' hp
      cases hp
      exact hmem
    exact h.enter (.of_free rfl hfound nofun)
  | @locked k c hmissing hcur hfree =>
    have howned := (h.fits k).owned (by rw [hmissing]; rfl)
    exact h.enter (.of_candidate rfl hcur hfree nofun howned)
  | @inserted k c sees hchosen hnil hnone =>
    have hc : (s.call k).candidate = some c := by rw [hchosen]; rfl
    have howned := (h.fits k).owned (by rw [hchosen]; rfl)
    have hfree : ∀ k' c', k' ≠ k → (s.call k').candidate = some c' → ∀ i ∈ c.held, i ∉ c'.held :=
      fun k' c' hk' hc' => (h.fits k).disjoint k' c c' hk' hc hc'
    exact h.enter (.of_candidate rfl ((h.fits k).current c hc) hfree (fun _ => ⟨hnil, fun k' _ => hnone k'⟩) howned)
  | @duplicate k c dup charge hchosen hdup =>
    have hc : (s.call k).candidate = some c := by rw [hchosen]; rfl
    -- the call lets go of its rows, and then they are committed
    exact (h.enter (.returned (.ok charge))).publish (h.released hc) ((h.fits k).current c hc).mine_user
  | @committed k c charge hinserted =>
    have hc : (s.call k).candidate = some c := by rw [hinserted]; rfl
    have hcur := (h.fits k).current c hc
    obtain ⟨hnil, hlone⟩ := (h.fits k).inserted (by rw [hinserted]; rfl)
    have hpublished := (h.enter (.returned (.ok charge))).publish (h.released hc)
      (hcur.charged_user (cfg.call k).amount)
    refine hpublished.record hnil ?_ ?_
    · intro k'
      by_cases hk : k' = k
      · subst hk
        exact congrArg isInserted (enter_call_self s k' _)
      · exact (congrArg isInserted (enter_call_ne hk s _)).trans (hlone k' hk)
    obtain ⟨r, -, hr, huser, -⟩ := hcur.rows c.id hcur.mem
    obtain ⟨m, hm, hmuser⟩ := hcur.charged_user (cfg.call k).amount c.id hcur.mem r hr
    exact ⟨m, (merge_row_of_mem hcur.mem hr).trans hm, k, hmuser.trans huser⟩

end ChargeRace

inductive ChargeEffect (s s' : ChargeRace n) : Prop
  | silent : s'.db.subs = s.db.subs → s'.records = s.records → ChargeEffect s s'
  | resets : s.records ≠ [] → s'.records = s.records →
      (∀ i r', s'.db.subs.row i = some r' → ∃ r, s.db.subs.row i = some r ∧ r.ResetTo r') → ChargeEffect s s'
  | charges (id : ℕ) : s.records = [] → s'.records ≠ [] →
      (∀ i r', i ≠ id → s'.db.subs.row i = some r' → ∃ r, s.db.subs.row i = some r ∧ r.ResetTo r') →
      ChargeEffect s s'

theorem ChosenSub.Current.merge_row (h : c.Current t userId)
    (hrow : (t.merge c.mine c.held).row i = some r') : ∃ r, t.row i = some r ∧ r.ResetTo r' := by
  rcases merge_row_cases hrow with ⟨hi, hm⟩ | ⟨-, hr⟩
  · obtain ⟨r, m, hr, -, hm', hreset⟩ := h.rows i hi
    obtain rfl := some.inj (hm'.symm.trans hm)
    exact ⟨r, hr, hreset⟩
  · exact ⟨r', hr, .refl r'⟩

theorem ChosenSub.Current.merge_charged_row {o : Option SubRow} (h : c.Current t userId)
    (hi : i ≠ c.id) (hrow : (t.merge (c.mine.set c.id o) c.held).row i = some r') :
    ∃ r, t.row i = some r ∧ r.ResetTo r' := by
  apply h.merge_row
  by_cases hmem : i ∈ c.held
  · obtain ⟨r, -, hr, -⟩ := h.rows i hmem
    rw [merge_row_of_mem hmem hr, set_row_ne hi] at hrow
    rw [merge_row_of_mem hmem hr, hrow]
  · rw [merge_row_of_notMem hmem] at hrow ⊢
    exact hrow

namespace ChargeRace

theorem Ok.effect (h : s.Ok cfg) (hmove : ChargeMove cfg s e s') : ChargeEffect s s' := by
  cases hmove with
  | waits | fails | missing | found | answered | locked | inserted => exact .silent rfl rfl
  | @duplicate k c dup charge hchosen hdup =>
    have hcur := (h.fits k).current c (by rw [hchosen]; rfl)
    exact .resets (ne_nil_of_mem hdup) rfl fun i r' hr' => hcur.merge_row hr'
  | @committed k c charge hinserted =>
    have hcur := (h.fits k).current c (by rw [hinserted]; rfl)
    have hnil := ((h.fits k).inserted (by rw [hinserted]; rfl)).1
    exact .charges c.id hnil (cons_ne_nil _ _) fun i r' hi hr' => hcur.merge_charged_row hi hr'

/-- Before the charge no used amount is negative; the charge of an unlimited subscription can wrap. -/
structure UsedOk (s : ChargeRace n) : Prop where
  nonneg : s.records = [] → ∀ i r, s.db.subs.row i = some r → 0 ≤ r.amountUsed
  one : ∀ i j r r', s.db.subs.row i = some r → s.db.subs.row j = some r' → r.amountUsed < 0 →
    r'.amountUsed < 0 → i = j

def Armed (s : ChargeRace n) : Prop := s.records = [] ∨ ∃ i r, s.db.subs.row i = some r ∧ r.amountUsed < 0

end ChargeRace

theorem SubRow.ResetTo.neg {m : SubRow} (h : r.ResetTo m) (hneg : m.amountUsed < 0) : r.amountUsed < 0 := by
  rcases h.used with hu | hu
  · exact hu ▸ hneg
  · rw [hu] at hneg
    exact absurd hneg Int64.lt_irrefl

theorem SubRow.ResetTo.raised {m : SubRow} (h : r.ResetTo m) (hlt : r.amountUsed < m.amountUsed) :
    r.amountUsed < 0 ∧ m.amountUsed = 0 := by
  rcases h.used with hu | hu
  · rw [hu] at hlt
    exact absurd hlt Int64.lt_irrefl
  · exact ⟨hu ▸ hlt, hu⟩

namespace ChargeRace

theorem UsedOk.effect (h : s.UsedOk) (heffect : ChargeEffect s s') : s'.UsedOk := by
  cases heffect with
  | silent hsubs hrecords =>
    refine ⟨?_, ?_⟩
    · rw [hsubs, hrecords]
      exact h.nonneg
    · rw [hsubs]
      exact h.one
  | resets hne hrecords hrows =>
    refine ⟨fun hnil => absurd (hrecords ▸ hnil) hne, ?_⟩
    intro i j r r' hr hr' hneg hneg'
    obtain ⟨r0, hr0, hreset⟩ := hrows i r hr
    obtain ⟨r0', hr0', hreset'⟩ := hrows j r' hr'
    exact h.one i j r0 r0' hr0 hr0' (hreset.neg hneg) (hreset'.neg hneg')
  | charges id hnil hne hrows =>
    refine ⟨fun hnil' => absurd hnil' hne, ?_⟩
    -- no row but the charged one can be negative
    have hat : ∀ i r, s'.db.subs.row i = some r → r.amountUsed < 0 → i = id := by
      intro i r hr hneg
      by_contra hi
      obtain ⟨r0, hr0, hreset⟩ := hrows i r hi hr
      exact Int64.not_lt.2 (h.nonneg hnil i r0 hr0) (hreset.neg hneg)
    intro i j r r' hr hr' hneg hneg'
    exact (hat i r hr hneg).trans (hat j r' hr' hneg').symm

theorem UsedOk.raised (h : s.UsedOk) (heffect : ChargeEffect s s')
    (hraised : s.db.subs.raised s'.db.subs = true) : s.Armed ∧ ¬ s'.Armed := by
  obtain ⟨i, r, r', hr, hr', hlt⟩ := raised_iff.1 hraised
  cases heffect with
  | silent hsubs =>
    rw [hsubs, hr, some.injEq] at hr'
    subst hr'
    exact absurd hlt Int64.lt_irrefl
  | resets hne hrecords hrows =>
    obtain ⟨r0, hr0, hreset⟩ := hrows i r' hr'
    obtain rfl := some.inj (hr0.symm.trans hr)
    obtain ⟨hneg, hzero⟩ := hreset.raised hlt
    refine ⟨.inr ⟨i, r0, hr, hneg⟩, ?_⟩
    rintro (hnil | ⟨j, m, hm, hmneg⟩)
    · exact hne (hrecords ▸ hnil)
    -- the one negative row was this one, and it is zero now
    obtain ⟨m0, hm0, hmreset⟩ := hrows j m hm
    obtain rfl := h.one i j r0 m0 hr hm0 hneg (hmreset.neg hmneg)
    obtain rfl := some.inj (hm.symm.trans hr')
    rw [hzero] at hmneg
    exact Int64.lt_irrefl hmneg
  | charges id hnil hne hrows =>
    have hkept : ∀ j m, j ≠ id → s'.db.subs.row j = some m → ∃ m0, s.db.subs.row j = some m0 ∧
        m0.ResetTo m ∧ ¬ m0.amountUsed < 0 := by
      intro j m hj hm
      obtain ⟨m0, hm0, hreset⟩ := hrows j m hj hm
      exact ⟨m0, hm0, hreset, Int64.not_lt.2 (h.nonneg hnil j m0 hm0)⟩
    obtain rfl : i = id := by
      by_contra hi
      obtain ⟨r0, hr0, hreset, hnn⟩ := hkept i r' hi hr'
      obtain rfl := some.inj (hr0.symm.trans hr)
      exact hnn (hreset.raised hlt).1
    refine ⟨.inl hnil, ?_⟩
    rintro (hnil' | ⟨j, m, hm, hmneg⟩)
    · exact hne hnil'
    by_cases hj : j = i
    · subst hj
      obtain rfl := some.inj (hm.symm.trans hr')
      have hpos := Int64.lt_of_le_of_lt (h.nonneg hnil j r hr) hlt
      exact Int64.lt_irrefl (Int64.lt_trans hpos hmneg)
    · obtain ⟨m0, -, hreset, hnn⟩ := hkept j m hj hm
      exact hnn (hreset.neg hmneg)

theorem disarmed (heffect : ChargeEffect s s') (hs : ¬ s.Armed) : ¬ s'.Armed := by
  cases heffect with
  | silent hsubs hrecords =>
    unfold Armed
    rw [hsubs, hrecords]
    exact hs
  | resets hne hrecords hrows =>
    rintro (hnil | ⟨j, m, hm, hmneg⟩)
    · exact hne (hrecords ▸ hnil)
    · obtain ⟨m0, hm0, hreset⟩ := hrows j m hm
      exact hs (.inr ⟨j, m0, hm0, hreset.neg hmneg⟩)
  | charges id hnil => exact absurd (.inl hnil) hs

def Answered (s : ChargeRace n) : Prop :=
  ∀ k charge, s.call k = .returned (.ok charge) → ∃ record ∈ s.records,
    charge.userSubscriptionId = record.userSubscriptionId ∧ charge.preConsumed = record.preConsumed

theorem Answered.enter {p : CallPhase} (h : s.Answered)
    (hp : ∀ charge, p = .returned (.ok charge) → ∃ record ∈ s.records,
      charge.userSubscriptionId = record.userSubscriptionId ∧ charge.preConsumed = record.preConsumed) :
    (s.enter k p).Answered := by
  apply (forall_update_iff s.call fun _ q => ∀ charge, q = .returned (.ok charge) → ∃ record ∈ s.records,
    charge.userSubscriptionId = record.userSubscriptionId ∧ charge.preConsumed = record.preConsumed).2
  exact ⟨hp, fun k' _ => h k'⟩

end ChargeRace

instance (cfg : ChargeConfig n) (t : SubRows) (i : ℕ) : Decidable (cfg.Owned t i) := by
  unfold ChargeConfig.Owned
  infer_instance

/-- The users of the race have at most one subscription between them. -/
def ChargeConfig.OneSubscription (cfg : ChargeConfig n) (t : SubRows) : Prop :=
  ∀ i < t.nextId, ∀ j < t.nextId, cfg.Owned t i → cfg.Owned t j → i = j

instance (cfg : ChargeConfig n) (t : SubRows) : Decidable (cfg.OneSubscription t) := by
  unfold ChargeConfig.OneSubscription
  infer_instance

theorem ChargeConfig.OneSubscription.eq (h : cfg.OneSubscription t) (hi : cfg.Owned t i) (hj : cfg.Owned t j) :
    i = j := by
  obtain ⟨r, hr, -⟩ := id hi
  obtain ⟨r', hr', -⟩ := id hj
  exact h i (lt_of_row hr) j (lt_of_row hr') hi hj

def ChargeEvent.sees : ChargeEvent n → Bool
  | .insert _ sees => sees
  | _ => false

/-- A failed insert sees the record of another call only where there is no choice between subscriptions. -/
def ChargeConfig.SeesOne (cfg : ChargeConfig n) (s : ChargeRace n) (e : ChargeEvent n) : Prop :=
  e.sees = true → s.records ≠ [] → cfg.OneSubscription s.db.subs

instance (cfg : ChargeConfig n) (s : ChargeRace n) (e : ChargeEvent n) : Decidable (cfg.SeesOne s e) := by
  unfold ChargeConfig.SeesOne
  infer_instance

namespace ChargeRace

theorem Answered.move (h : s.Answered) (hok : s.Ok cfg) (hmove : ChargeMove cfg s e s') (hone : cfg.SeesOne s e) :
    s'.Answered := by
  cases hmove with
  | waits => exact h
  | fails | missing | found | locked | inserted => exact h.enter fun charge hp => by cases hp
  | @answered k existing charge hfound hid hpre =>
    apply h.enter
    intro charge' hp
    cases hp
    exact ⟨existing, (hok.fits k).found existing hfound, hid, hpre⟩
  | @duplicate k c dup charge hchosen hdup hid hpre =>
    have hcur := (hok.fits k).current c (by rw [hchosen]; rfl)
    obtain ⟨r, -, hr, huser, -⟩ := hcur.rows c.id hcur.mem
    have hdupOwned := (hok.fits k).owned (by rw [hchosen]; rfl) dup hdup
    -- the candidate and the subscription of the record are both the one that there is
    have hsame := (hone rfl (ne_nil_of_mem hdup)).eq ⟨r, hr, k, huser⟩ hdupOwned
    have hpublished : (s.publish c.mine c.held).Answered := h
    apply hpublished.enter
    intro charge' hp
    cases hp
    exact ⟨dup, hdup, hid.trans hsame, hpre⟩
  | @committed k c charge hinserted hid hpre =>
    intro k' charge' hk'
    by_cases hk : k' = k
    · subst hk
      obtain rfl : charge = charge' := by
        have hp := (enter_call_self s k' (.returned (.ok charge))).symm.trans hk'
        cases hp
        rfl
      exact ⟨_, mem_cons_self, hid, hpre⟩
    · obtain ⟨record, hmem, hrest⟩ := h k' charge' ((enter_call_ne hk s _).symm.trans hk')
      exact ⟨record, mem_cons_of_mem _ hmem, hrest⟩

structure Start (s : ChargeRace n) : Prop where
  idle : ∀ k, s.call k = .idle
  unique : s.records.length ≤ 1
  used : ∀ i r, s.db.subs.row i = some r → 0 ≤ r.amountUsed

theorem Start.ok (h : s.Start) : s.Ok cfg where
  unique := h.unique
  fits := by
    intro k
    rw [h.idle]
    exact .of_free rfl nofun nofun

theorem Start.usedOk (h : s.Start) : s.UsedOk where
  nonneg := fun _ => h.used
  one := by
    intro i j r r' hr hr' hneg
    exact absurd hneg (Int64.not_lt.2 (h.used i r hr))

theorem Start.answered (h : s.Start) : s.Answered := by
  intro k charge hk
  rw [h.idle] at hk
  cases hk

end ChargeRace

/-- **One charge for a request.** At most one step raises a used amount, and every success returns the record, unless
a failed insert sees another call's record while there is a choice of subscriptions. -/
theorem preConsume_idempotent {ms : List (ChargeRace n × ChargeEvent n × ChargeRace n)} (hstart : s.Start)
    (hrun : Run (moves fun s e s' => s' = s.next cfg e) s ms s') :
    ms.countP (fun m => m.1.db.subs.raised m.2.2.db.subs) ≤ 1 ∧ s'.records.length ≤ 1 ∧
      ((∀ m ∈ ms, cfg.SeesOne m.1 m.2.1) → ∀ k charge, s'.call k = .returned (.ok charge) →
        ∃ record ∈ s'.records, charge.userSubscriptionId = record.userSubscriptionId ∧
          charge.preConsumed = record.preConsumed) := by
  have hmove : ∀ (a b : ChargeRace n) m, moves (fun s e s' => s' = next cfg s e) a m b →
      m.1 = a ∧ ChargeMove cfg a m.2.1 b ∧ m.2.2 = b := by
    rintro a b m ⟨h1, h2, h3⟩
    exact ⟨h1, h2 ▸ a.next_move cfg m.2.1, h3⟩
  refine ⟨?_, ?_, ?_⟩
  · apply Run.countP_le_one (I := fun a => a.Ok cfg ∧ a.UsedOk) (A := ChargeRace.Armed) ?_ ?_ ?_ hrun
      ⟨hstart.ok, hstart.usedOk⟩
    · rintro a m b ⟨hok, hused⟩ hm
      obtain ⟨-, hmv, -⟩ := hmove a b m hm
      exact ⟨hok.move hmv, hused.effect (hok.effect hmv)⟩
    · rintro a m b ⟨hok, hused⟩ hm hraised
      obtain ⟨rfl, hmv, rfl⟩ := hmove a b m hm
      exact hused.raised (hok.effect hmv) hraised
    rintro a m b ⟨hok, -⟩ hm ha
    obtain ⟨-, hmv, -⟩ := hmove a b m hm
    exact ChargeRace.disarmed (hok.effect hmv) ha
  · have hend := hrun.inv (fun a m b hok hm => hok.move (hmove a b m hm).2.1) hstart.ok
    exact hend.unique
  · intro hsees
    have hend := (hrun.within_of hsees).inv (I := fun a => a.Ok cfg ∧ a.Answered) ?_ ⟨hstart.ok, hstart.answered⟩
    · exact hend.2
    rintro a m b ⟨hok, hans⟩ ⟨hm, hone⟩
    obtain ⟨rfl, hmv, -⟩ := hmove a b m hm
    exact ⟨hok.move hmv, hans.move hok hmv hone⟩

def CallPhase.success : CallPhase → Option SubCharge
  | .returned (.ok charge) => some charge
  | _ => none

theorem CallPhase.eq_of_success {p : CallPhase} {charge : SubCharge} (h : p.success = some charge) :
    p = .returned (.ok charge) := by
  unfold success at h
  split at h
  · cases h
    rfl
  · cases h

def sampleRaceSub (total : Int64) (endTime : ℤ) : SubRow :=
  ⟨7, 1, total, 0, 1000, endTime, .active, 1000, 86400, "", "", ""⟩

def sampleChargeRace (totals : List Int64) : ChargeRace 2 where
  db :=
    { subs :=
        { row := fun i => ((none :: totals.map some)[i]?.join).map (sampleRaceSub · (50000 + i))
          nextId := totals.length + 1
          fresh := by
            intro i hi
            rw [getElem?_eq_none (by simpa using hi), join_none, map_none] }
      records := fun _ => none
      groups := fun _ => none
      resets := [] }
  records := []
  call := fun _ => .idle

theorem sampleChargeRace_start (totals : List Int64) : (sampleChargeRace totals).Start where
  idle := fun _ => rfl
  unique := Nat.zero_le _
  used := by
    intro i r hr
    obtain ⟨total, -, rfl⟩ := map_eq_some_iff.1 hr
    exact Int64.le_refl _

def sampleCharges : ChargeConfig 2 := ⟨sampleSubWorld 100 100000, "req", fun _ => ⟨7, 60, 2000⟩⟩

def sampleChargeEvents : List (ChargeEvent 2) :=
  [.lookup 0, .lookup 1, .lock 0, .insert 0 true, .commit 0, .lock 1, .insert 1 true]

theorem preConsume_idempotent_one_subscription :
    let s' := sampleChargeEvents.foldl (ChargeRace.next sampleCharges) (sampleChargeRace [200])
    (s'.call 1).success = some ⟨1, 60, 200, 60, 60⟩ ∧ s'.records.length ≤ 1 ∧
      ∀ k charge, s'.call k = .returned (.ok charge) → ∃ record ∈ s'.records,
        charge.userSubscriptionId = record.userSubscriptionId ∧ charge.preConsumed = record.preConsumed := by
  have hrun := Run.trail (next sampleCharges) (sampleChargeRace [200]) sampleChargeEvents
  obtain ⟨-, hunique, hanswers⟩ := preConsume_idempotent (sampleChargeRace_start [200]) hrun
  exact ⟨by decide +kernel, hunique, hanswers (by decide +kernel)⟩

/-- The second call chooses the second subscription, its insert fails, and it returns its own choice with the amount
charged on the first one. -/
theorem preConsume_names_another :
    ¬ ∀ (n : ℕ) (cfg : ChargeConfig n) (s s' : ChargeRace n) (es : List (ChargeEvent n)), s.Start →
      Run (fun s e s' => s' = s.next cfg e) s es s' →
      ∀ k charge, s'.call k = .returned (.ok charge) → ∃ record ∈ s'.records,
        charge.userSubscriptionId = record.userSubscriptionId ∧ charge.preConsumed = record.preConsumed := by
  intro h
  have hrun := Run.of_foldl (next sampleCharges) (sampleChargeRace [100, 100]) sampleChargeEvents
  have hsuccess : ((sampleChargeEvents.foldl (next sampleCharges)
      (sampleChargeRace [100, 100])).call 1).success = some ⟨2, 60, 100, 0, 0⟩ := by decide +kernel
  have hrecord := h 2 _ _ _ _ (sampleChargeRace_start [100, 100]) hrun 1 _ (eq_of_success hsuccess)
  revert hrecord
  decide +kernel

end NewApi
