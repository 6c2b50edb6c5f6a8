import NewApi.Proof.SubscriptionBounds

/-!
# The refund of a pre-consumed amount

The refund of a request gives its amount back in a transaction of its own, before the record is marked.
-/

namespace NewApi

open Trace SubDB SubSystem Function Option RefundStatement SubOp

variable {i : ℕ} {sub : SubRow} {w : SubWorld} {plan : PlanRow} {now : ℤ} {db db' : SubDB} {requestId : String}
  {record : SubRecord} {op : SubOp} {amount : Int64}

def SubDB.usedOf (db : SubDB) (i : ℕ) : ℤ := ((db.subs.row i).map (·.amountUsed.toInt)).getD 0

def SubOp.refunds (requestId : String) : SubOp → Bool
  | .refund id _ | .refundWithRetry id _ _ _ => id = requestId
  | _ => false

def refundedIn (requestId : String) (i : ℕ) (m : SubSystem × SubEvent × SubSystem) : ℤ :=
  if m.2.1.op.refunds requestId then m.1.db.usedOf i - m.2.2.db.usedOf i else 0

theorem QuotaMoves.records_ne (h : QuotaMoves w now op db db') (hne : op.recordId ≠ some requestId) :
    db'.records requestId = db.records requestId := by
  induction h with
  | refl => rfl
  | tail _ hmove ih =>
    rw [← ih]
    cases hmove with
    | recorded hid =>
      apply update_of_ne
      rintro rfl
      exact hne hid
    | _ => rfl

theorem SubDB.preConsume_again {userId : ℕ} {charge : SubCharge} (hrec : db.records requestId = some record)
    (h : db.preConsumeUserSubscription w now requestId userId amount = .ok (charge, db')) : db' = db := by
  unfold preConsumeUserSubscription at h
  split at h
  · cases h
  simp only [hrec] at h
  split at h
  · cases h
  split at h
  · cases h
  · cases h
    rfl

theorem SubDB.expireUser_records (db : SubDB) (userId : ℕ) : (db.expireUser now userId).records = db.records := by
  obtain ⟨groups, heq⟩ := db.expireUser_eq now userId
  rw [heq]

theorem SubDB.call_records {op : SubOp} (hrec : db.records requestId = some record)
    (hop : op.refunds requestId = false) : (db.call w now op).1.records requestId = db.records requestId := by
  by_cases hquota : op.onQuota = true ∧ op.recordId ≠ some requestId
  · exact (call_moves hquota.1).records_ne hquota.2
  -- what is left are the calls that write no used amount, and the pre-consume of the request itself
  cases op with
  | preConsume id =>
    apply after_of (P := fun db' => db'.records requestId = db.records requestId) rfl
    intro db' hok
    obtain ⟨⟨charge, db1⟩, hpre, rfl⟩ := map_eq_ok hok
    have hid : id = requestId := by
      by_contra hne
      exact hquota ⟨rfl, fun heq => hne (some.inj heq)⟩
    subst hid
    rw [preConsume_again hrec hpre]
  | create =>
    apply after_of (P := fun db' => db'.records requestId = db.records requestId) rfl
    intro db' hok
    obtain ⟨plan, -, hcreate⟩ := bind_eq_ok hok
    obtain ⟨endUnix, -, -, rfl⟩ := create_ok hcreate
    unfold lift
    split <;> rfl
  | expireDue =>
    apply expireUsers_of (P := fun db' => db'.records requestId = db.records requestId) rfl
    intro db' userId h
    rw [expireUser_records, h]
  | invalidate =>
    apply after_of (P := fun db' => db'.records requestId = db.records requestId) rfl
    intro db' hok
    obtain ⟨sub, -, hdb⟩ := invalidate_ok hok
    rw [hdb, downgradeUserGroup_records]
    rfl
  | delete =>
    apply after_of (P := fun db' => db'.records requestId = db.records requestId) rfl
    intro db' hok
    obtain ⟨sub, -, hdb⟩ := delete_ok hok
    rw [hdb]
    rw [downgradeUserGroup_records]
  | refund id | refundWithRetry id =>
    have hne : id ≠ requestId := by simpa [refunds] using hop
    exact absurd ⟨rfl, fun heq => hne (some.inj heq)⟩ hquota
  | postConsume | resetDue | adminResetUser | adminResetPlan => exact absurd ⟨rfl, by simp [recordId]⟩ hquota

theorem SubRow.usedAfter_neg (ha : 0 < amount) (sub : SubRow) :
    sub.amountUsed.toInt - amount.toInt ≤ (sub.usedAfter (-amount)).toInt := by
  have hused := sub.amountUsed.le_toInt
  have hused' := sub.amountUsed.toInt_lt
  have hamount := amount.toInt_lt
  unfold usedAfter
  split_ifs with hneg
  · simp only [Int64.lt_iff_toInt_lt, Int64.toInt_add, Int64.toInt_neg, Int64.toInt_zero, Int.bmod] at *
    omega
  simp only [Int64.lt_iff_toInt_lt, Int64.toInt_add, Int64.toInt_neg, Int64.toInt_zero, Int.bmod] at *
  omega

theorem SubDB.usedOf_postConsume {failing : Option DeltaStatement} (ha : 0 < amount)
    (h : db.postConsumeUserSubscriptionDelta failing i (-amount) = .ok db') :
    db.usedOf i - db'.usedOf i ≤ amount.toInt := by
  have hpos : 0 < amount.toInt := by simpa [Int64.lt_iff_toInt_lt] using ha
  unfold postConsumeUserSubscriptionDelta at h
  split at h
  · cases h
  split at h
  · cases h
    omega
  split at h
  · cases h
  split at h
  · cases h
  rename_i sub hrow
  split_ifs at h
  cases h
  have hafter := sub.usedAfter_neg ha
  simp only [usedOf, save, hrow, SubRows.set_row_self hrow, map_some, getD_some]
  omega

/-- What a refund does to the tables: nothing, or it marks an open record and takes off at most its amount. -/
def RefundedOnce (requestId : String) (record : SubRecord) (db db' : SubDB) : Prop :=
  db' = db ∨ (record.refunded = false ∧ db'.records requestId = some { record with refunded := true } ∧
    db.usedOf record.userSubscriptionId - db'.usedOf record.userSubscriptionId ≤ record.preConsumed.toInt)

theorem SubDB.refund_once {failing : Option RefundStatement} (hrec : db.records requestId = some record)
    (h0 : 0 ≤ record.preConsumed) (hlate : failing.any late = false) :
    RefundedOnce requestId record db (db.refundSubscriptionPreConsume failing requestId).1 := by
  have hpos : 0 ≤ record.preConsumed.toInt := by simpa [Int64.le_iff_toInt_le] using h0
  unfold refundSubscriptionPreConsume
  split
  · exact .inl rfl
  split
  · exact .inl rfl
  simp only [hrec, hlate, Bool.false_eq_true, if_false]
  split
  · exact .inl rfl
  rename_i hopen
  have hopen' : record.refunded = false := by simpa using hopen
  split_ifs with hamount
  · refine .inr ⟨hopen', update_self _ _ _, ?_⟩
    simp only [usedOf]
    omega
  split
  · exact .inl rfl
  rename_i db1 hdelta
  have htaken := usedOf_postConsume (Int64.not_le.1 hamount) hdelta
  exact .inr ⟨hopen', update_self _ _ _, htaken⟩

theorem SubDB.refundAttempts_once {lastErr : Option SubErr} {attempts : List (Option RefundStatement)}
    (hrec : db.records requestId = some record) (h0 : 0 ≤ record.preConsumed)
    (hlate : ∀ failing ∈ attempts, failing.any late = false) :
    RefundedOnce requestId record db (db.refundAttempts requestId lastErr attempts).1 := by
  induction attempts generalizing lastErr with
  | nil => exact .inl rfl
  | cons failing rest ih =>
    have honce := refund_once hrec h0 (hlate failing List.mem_cons_self)
    unfold refundAttempts
    cases hr : db.refundSubscriptionPreConsume failing requestId with
    | mk db1 o =>
      cases o with
      | none =>
        rw [hr] at honce
        exact honce
      | some e =>
        have herr : (db.refundSubscriptionPreConsume failing requestId).2 = some e := by rw [hr]
        have hsame := refund_error (hlate failing List.mem_cons_self) herr
        rw [hr] at hsame
        subst hsame
        exact ih fun f hf => hlate f (List.mem_cons_of_mem _ hf)

theorem SubDB.call_refund_once {op : SubOp} (hrec : db.records requestId = some record)
    (h0 : 0 ≤ record.preConsumed) (hop : op.refunds requestId = true) (hall : op.allOrNothing = true) :
    RefundedOnce requestId record db (db.call w now op).1 := by
  cases op with
  | refund id failing =>
    have hid : id = requestId := by simpa [refunds] using hop
    subst hid
    have hlate : failing.any late = false := by simpa [allOrNothing] using hall
    exact refund_once hrec h0 hlate
  | refundWithRetry id =>
    have hid : id = requestId := by simpa [refunds] using hop
    subst hid
    apply refundAttempts_once hrec h0
    intro failing hmem
    have hnot := List.all_eq_true.1 hall failing hmem
    rwa [Bool.not_eq_true'] at hnot
  | _ => cases hop

def SubSystem.refundable (requestId : String) (s : SubSystem) : ℤ :=
  match s.db.records requestId with
  | some record => if record.refunded then 0 else record.preConsumed.toInt
  | none => 0

/-- **A refund happens at most once per request**, where marking its record does not fail. -/
theorem refunded_at_most_preConsumed {s s' : SubSystem} {ms : List (SubSystem × SubEvent × SubSystem)}
    (hrun : Run (moves (within (fun s ev s' => s' = SubSystem.next w s ev)
      fun _ ev => ev.op.refunds requestId = true → ev.op.allOrNothing = true)) s ms s')
    (hrec : s.db.records requestId = some record) (h0 : 0 ≤ record.preConsumed) :
    (ms.map (refundedIn requestId record.userSubscriptionId)).sum ≤ record.preConsumed.toInt := by
  have hpos : 0 ≤ record.preConsumed.toInt := by simpa [Int64.le_iff_toInt_le] using h0
  let I : SubSystem → Prop := fun s => ∃ b, s.db.records requestId = some { record with refunded := b }
  have hstep : ∀ s m s', I s → moves (within (fun s ev s' => s' = next w s ev)
      fun _ ev => ev.op.refunds requestId = true → ev.op.allOrNothing = true) s m s' →
      I s' ∧ s'.refundable requestId + refundedIn requestId record.userSubscriptionId m ≤ s.refundable requestId := by
    rintro s ⟨before, ev, after⟩ s' ⟨b, hb⟩ ⟨hbefore, ⟨hnext, hcond⟩, hafter⟩
    dsimp only at hbefore hnext hcond hafter
    subst hbefore hafter hnext
    cases hop : ev.op.refunds requestId with
    | false =>
      have hsame : (before.next w ev).db.records requestId = before.db.records requestId := call_records hb hop
      refine ⟨⟨b, by rw [hsame, hb]⟩, ?_⟩
      simp only [refundedIn, hop, refundable, hsame]
      simp
    | true =>
      have honce : RefundedOnce requestId { record with refunded := b } before.db (before.next w ev).db :=
        call_refund_once hb h0 hop (hcond hop)
      rcases honce with hsame | ⟨hopen, hmarked, htaken⟩
      · refine ⟨⟨b, by rw [hsame, hb]⟩, ?_⟩
        simp only [refundedIn, hop, refundable, hsame]
        simp
      refine ⟨⟨true, hmarked⟩, ?_⟩
      dsimp only at hopen htaken
      subst hopen
      simp only [refundedIn, hop, refundable, hmarked, hb, if_true, Bool.false_eq_true, if_false]
      omega
  have hsum := hrun.sum_map_le (fun s => s.refundable requestId)
    (refundedIn requestId record.userSubscriptionId) hstep ⟨record.refunded, hrec⟩
  have hend : ∀ s, I s → 0 ≤ s.refundable requestId := by
    rintro s ⟨b, hb⟩
    simp only [refundable, hb]
    split <;> omega
  have hstart : s.refundable requestId ≤ record.preConsumed.toInt := by
    simp only [refundable, hrec]
    split <;> omega
  have hI := hrun.inv (fun s m s' hi hm => (hstep s m s' hi hm).1) ⟨record.refunded, hrec⟩
  have hleft := hend s' hI
  omega

def sampleCharged : SubSystem :=
  [⟨1000, .create 7 1 false⟩, ⟨1010, .preConsume "r" 7 30 false⟩, ⟨1020, .postConsume 1 60 none⟩].foldl
    (SubSystem.next (sampleSubWorld 100 100000)) emptySubSystem

def sampleRetry : List SubEvent :=
  [⟨1030, .refundWithRetry "r" (some .begin) (some (.delta .commit)) none⟩, ⟨1040, .refund "r" none⟩]

theorem refunded_at_most_preConsumed_retry :
    sampleCharged.db.records "r" = some ⟨1, 30, false⟩ ∧
      ((trail (SubSystem.next (sampleSubWorld 100 100000)) sampleCharged sampleRetry).map
        (refundedIn "r" 1)).sum ≤ (30 : Int64).toInt := by
  have hrec : sampleCharged.db.records "r" = some ⟨1, 30, false⟩ := by decide +kernel
  have hrun : Run (moves (within (fun s ev s' => s' = next (sampleSubWorld 100 100000) s ev)
      fun _ ev => ev.op.refunds "r" = true → ev.op.allOrNothing = true)) sampleCharged
      (trail (next (sampleSubWorld 100 100000)) sampleCharged sampleRetry)
      (sampleRetry.foldl (next (sampleSubWorld 100 100000)) sampleCharged) :=
    Run.of_trail sampleRetry (by decide +kernel)
  have hle := refunded_at_most_preConsumed hrun hrec (by decide)
  exact ⟨hrec, hle⟩

/-- The first attempt gives 30 back and then fails to mark the record, so the second gives them back again. -/
theorem refunded_twice :
    ¬ ∀ (w : SubWorld) (s s' : SubSystem) (ms : List (SubSystem × SubEvent × SubSystem)) (requestId : String)
      (record : SubRecord), Run (moves fun s ev s' => s' = SubSystem.next w s ev) s ms s' →
      s.db.records requestId = some record → 0 ≤ record.preConsumed →
      (ms.map (refundedIn requestId record.userSubscriptionId)).sum ≤ record.preConsumed.toInt := by
  intro h
  have hrun := Run.trail (next (sampleSubWorld 100 100000)) sampleCharged
    [⟨1030, .refundWithRetry "r" (some .save) none none⟩]
  have htwice := h _ _ _ _ "r" ⟨1, 30, false⟩ hrun (by decide +kernel) (by decide)
  revert htwice
  decide +kernel

end NewApi
