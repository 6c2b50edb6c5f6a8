import NewApi.Spec.SubscriptionDB

/-!
# Concurrent calls of `PreConsumeUserSubscription` with one request id

The steps of the transactions interleave. The rows that the query of the candidates locks are held until the
transaction ends, and others see what it writes only after its commit. An insert waits for the transaction of another
insert of the same `request_id`, and fails once a record is there.

After a failed insert the call reads the record again. Whether it sees that of the other transaction depends on the
isolation of the database, so the event says it. Any statement or commit can fail.
-/

namespace NewApi

structure PreConsumeArgs where
  userId : ℕ
  amount : Int64
  now : ℤ
  deriving DecidableEq, Repr

structure ChargeConfig (n : ℕ) where
  world : SubWorld
  requestId : String
  call : Fin n → PreConsumeArgs

/-- What a call with a candidate holds: the rows that it has locked, the candidate, and the table after its own
resets. -/
structure ChosenSub where
  held : List ℕ
  id : ℕ
  sub : SubRow
  mine : SubRows

inductive CallPhase
  | idle
  | found (existing : SubRecord)
  | missing
  | chosen (c : ChosenSub)
  | inserted (c : ChosenSub)
  | returned (result : Except SubErr SubCharge)

/-- What has been committed, and how far each call is. `records` are the rows with the request id of the race. -/
structure ChargeRace (n : ℕ) where
  db : SubDB
  records : List SubRecord
  call : Fin n → CallPhase

inductive ChargeEvent (n : ℕ)
  | lookup (k : Fin n)
  | read (k : Fin n)
  | lock (k : Fin n)
  /-- the insert; `sees`: if it fails, the record that is there is seen by the next read -/
  | insert (k : Fin n) (sees : Bool)
  | commit (k : Fin n)
  | fail (k : Fin n)
  deriving DecidableEq, Repr

def SubRows.merge (t mine : SubRows) (held : List ℕ) : SubRows where
  row i := if i ∈ held ∧ i < t.nextId then mine.row i else t.row i
  nextId := t.nextId
  fresh := by
    intro i hi
    rw [if_neg (by omega)]
    exact t.fresh i hi

def SubDB.choose (w : SubWorld) (args : PreConsumeArgs) (db : SubDB) : Except SubErr ChosenSub :=
  match db.candidates args.now args.userId with
  | [] => .error .noActiveSubscription
  | subs =>
    match db.chooseFrom w args.now args.amount subs with
    | .error e => .error e
    | .ok (i, sub, mine) => .ok ⟨subs.map (·.1), i, sub, mine.subs⟩

def CallPhase.candidate : CallPhase → Option ChosenSub
  | .chosen c | .inserted c => some c
  | _ => none

def CallPhase.isInserted : CallPhase → Bool
  | .inserted _ => true
  | _ => false

def CallPhase.isReturned : CallPhase → Bool
  | .returned _ => true
  | _ => false

namespace ChargeRace

variable {n : ℕ} (cfg : ChargeConfig n)

def enter (s : ChargeRace n) (k : Fin n) (p : CallPhase) : ChargeRace n :=
  { s with call := Function.update s.call k p }

def fails (s : ChargeRace n) (k : Fin n) (e : SubErr) : ChargeRace n := s.enter k (.returned (.error e))

def publish (s : ChargeRace n) (mine : SubRows) (held : List ℕ) : ChargeRace n :=
  { s with db := { s.db with subs := s.db.subs.merge mine held } }

def lookup (k : Fin n) (s : ChargeRace n) : ChargeRace n :=
  match s.call k with
  | .idle =>
    match preConsumeRefused cfg.requestId (cfg.call k).userId (cfg.call k).amount with
    | some e => s.fails k e
    | none =>
      match s.records with
      | [] => s.enter k .missing
      | existing :: _ => if existing.refunded then s.fails k .alreadyRefunded else s.enter k (.found existing)
  | _ => s

def read (k : Fin n) (s : ChargeRace n) : ChargeRace n :=
  match s.call k with
  | .found existing =>
    match s.db.subs.row existing.userSubscriptionId with
    | none => s.fails k .recordNotFound
    | some sub => s.enter k (.returned (.ok ⟨existing.userSubscriptionId, existing.preConsumed, sub.amountTotal,
        sub.amountUsed, sub.amountUsed⟩))
  | _ => s

/-- The query waits while another call holds one of its rows. -/
def lock (k : Fin n) (s : ChargeRace n) : ChargeRace n :=
  match s.call k with
  | .missing =>
    let ids := (s.db.candidates (cfg.call k).now (cfg.call k).userId).map (·.1)
    if ∃ k', k' ≠ k ∧ ∃ c ∈ (s.call k').candidate, ∃ i ∈ ids, i ∈ c.held then s
    else match s.db.choose cfg.world (cfg.call k) with
      | .error e => s.fails k e
      | .ok c => s.enter k (.chosen c)
  | _ => s

def insert (k : Fin n) (sees : Bool) (s : ChargeRace n) : ChargeRace n :=
  match s.call k with
  | .chosen c =>
    if ∃ k', (s.call k').isInserted then s
    else match s.records with
      | [] => s.enter k (.inserted c)
      | dup :: _ =>
        if !sees then s.fails k .db
        else if dup.refunded then s.fails k .alreadyRefunded
        else
          -- the candidate's id, with the amount of the record; the resets are committed
          (s.publish c.mine c.held).enter k (.returned (.ok ⟨c.id, dup.preConsumed, c.sub.amountTotal,
            c.sub.amountUsed, c.sub.amountUsed⟩))
  | _ => s

def commit (k : Fin n) (s : ChargeRace n) : ChargeRace n :=
  match s.call k with
  | .inserted c =>
    let amount := (cfg.call k).amount
    let sub := c.sub.charged amount
    let s' := (s.publish (c.mine.set c.id (some sub)) c.held).enter k
      (.returned (.ok ⟨c.id, amount, c.sub.amountTotal, c.sub.amountUsed, sub.amountUsed⟩))
    { s' with records := ⟨c.id, amount, false⟩ :: s.records }
  | _ => s

def fail (k : Fin n) (s : ChargeRace n) : ChargeRace n := if (s.call k).isReturned then s else s.fails k .db

/-- A step that a call cannot take in its phase, or has to wait for, changes nothing. -/
def next (s : ChargeRace n) : ChargeEvent n → ChargeRace n
  | .lookup k => s.lookup cfg k
  | .read k => s.read k
  | .lock k => s.lock cfg k
  | .insert k sees => s.insert k sees
  | .commit k => s.commit cfg k
  | .fail k => s.fail k

end ChargeRace

end NewApi
