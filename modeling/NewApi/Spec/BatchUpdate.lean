import NewApi.Spec.Basic
import Mathlib.Data.List.AList
import Mathlib.Algebra.Ring.Int.Defs

/-!
# The batch store

`model/utils.go`: a change of a counter is added to a map in memory (`addNewRecord`), and `batchUpdate` writes the
maps to the rows from time to time. Every map has its own lock, so a run looks for data, takes the five maps one by
one, and then writes one row after the other, and anything may happen in between. Which key of a map comes next is
part of the event.
-/

namespace NewApi

inductive BatchUpdateType
  | userQuota | tokenQuota | usedQuota | channelUsedQuota | requestCount
  deriving DecidableEq, Repr

def batchUpdateTypes : List BatchUpdateType := [.userQuota, .tokenQuota, .usedQuota, .channelUsedQuota, .requestCount]

abbrev QuotaMap := AList fun _ : ℤ => ℤ

def QuotaMap.value (m : QuotaMap) (key : ℤ) : ℤ := (m.lookup key).getD 0

def QuotaMap.addNewRecord (m : QuotaMap) (id value : ℤ) : QuotaMap :=
  match m.lookup id with
  | none => m.insert id value
  | some old => m.insert id (old + value)

structure UserCounters where
  (quota usedQuota requestCount : ℤ)
  deriving DecidableEq, Repr

structure TokenCounters where
  (remainQuota usedQuota : ℤ)
  deriving DecidableEq, Repr

/-- The counters of the rows of `users`, `tokens` and `channels` that are not deleted. -/
structure CounterRows where
  users : ℤ → Option UserCounters
  tokens : ℤ → Option TokenCounters
  /-- `used_quota` -/
  channels : ℤ → Option ℤ

inductive CounterTable
  | users | tokens | channels
  deriving DecidableEq, Repr

def BatchUpdateType.table : BatchUpdateType → CounterTable
  | .userQuota | .usedQuota | .requestCount => .users
  | .tokenQuota => .tokens
  | .channelUsedQuota => .channels

def CounterRows.hasRow (db : CounterRows) (id : ℤ) : CounterTable → Bool
  | .users => (db.users id).isSome
  | .tokens => (db.tokens id).isSome
  | .channels => (db.channels id).isSome

def CounterRows.column (db : CounterRows) (ty : BatchUpdateType) (id : ℤ) : ℤ :=
  match ty with
  | .userQuota => (db.users id).elim 0 (·.quota)
  | .tokenQuota => (db.tokens id).elim 0 (·.remainQuota)
  | .usedQuota => (db.users id).elim 0 (·.usedQuota)
  | .channelUsedQuota => (db.channels id).elim 0 fun used => used
  | .requestCount => (db.users id).elim 0 (·.requestCount)

/-- `increaseTokenQuota`; an update that finds no row changes nothing and reports no error. -/
def CounterRows.increaseTokenQuota (failed : Bool) (id quota : ℤ) (db : CounterRows) : CounterRows :=
  if failed then db
  else
    let row := (db.tokens id).map fun t => ⟨t.remainQuota + quota, t.usedQuota - quota⟩
    { db with tokens := Function.update db.tokens id row }

def CounterRows.updateChannelUsedQuota (failed : Bool) (id quota : ℤ) (db : CounterRows) : CounterRows :=
  if failed then db
  else { db with channels := Function.update db.channels id ((db.channels id).map (· + quota)) }

/-- An error is only logged. -/
def CounterRows.updateUserQuotaUsedQuotaAndRequestCount (failed : Bool)
    (id quota usedQuota requestCount : ℤ) (db : CounterRows) : CounterRows :=
  if quota = 0 ∧ usedQuota = 0 ∧ requestCount = 0 then db
  else if failed then db
  else
    let row := (db.users id).map fun u => ⟨u.quota + quota, u.usedQuota + usedQuota, u.requestCount + requestCount⟩
    { db with users := Function.update db.users id row }

inductive BatchPhase
  /-- the loop over `hasData`, with the types it has not looked at -/
  | check (rest : List BatchUpdateType)
  | swap (rest : List BatchUpdateType)
  | write
  | done
  deriving DecidableEq

structure BatchRun where
  phase : BatchPhase
  /-- the entries of the local `stores` that have not been ranged over -/
  stores : BatchUpdateType → QuotaMap

def BatchRun.start : BatchRun := ⟨.check batchUpdateTypes, fun _ => ∅⟩

def BatchRun.table (r : BatchRun) : CounterTable :=
  if (r.stores .tokenQuota).entries ≠ [] then .tokens
  else if (r.stores .channelUsedQuota).entries ≠ [] then .channels
  else .users

def BatchRun.drop (r : BatchRun) (table : CounterTable) (key : ℤ) : BatchRun :=
  { r with stores := fun ty => if ty.table = table then (r.stores ty).erase key else r.stores ty }

/-- One round of the loops that write. The three maps of the users are merged into one update. -/
def BatchRun.writeRow (r : BatchRun) (key : ℤ) (failed : Bool) (db : CounterRows) : BatchRun × CounterRows :=
  match r.table with
  | .tokens =>
    match (r.stores .tokenQuota).lookup key with
    | none => (r, db)
    | some value => (r.drop .tokens key, db.increaseTokenQuota failed key value)
  | .channels =>
    match (r.stores .channelUsedQuota).lookup key with
    | none => (r, db)
    | some value => (r.drop .channels key, db.updateChannelUsedQuota failed key value)
  | .users =>
    (r.drop .users key, db.updateUserQuotaUsedQuotaAndRequestCount failed key
      ((r.stores .userQuota).value key) ((r.stores .usedQuota).value key)
      ((r.stores .requestCount).value key))

def BatchRun.finished (r : BatchRun) : Bool := batchUpdateTypes.all fun ty => (r.stores ty).entries.isEmpty

structure BatchSystem where
  /-- `batchUpdateStores` -/
  stores : BatchUpdateType → QuotaMap
  db : CounterRows
  /-- the runs of `batchUpdate` so far -/
  runs : List BatchRun

def BatchSystem.init (db : CounterRows) : BatchSystem := ⟨fun _ => ∅, db, []⟩

inductive BatchEvent
  | addNewRecord (ty : BatchUpdateType) (id value : ℤ)
  /-- `batchUpdate` is called -/
  | start
  | lock (run : ℕ)
  | write (run : ℕ) (key : ℤ) (failed : Bool)
  deriving DecidableEq, Repr

def BatchSystem.lockSection (s : BatchSystem) (i : ℕ) (r : BatchRun) : BatchSystem :=
  match r.phase with
  | .check [] => { s with runs := s.runs.set i { r with phase := .done } }
  | .check (ty :: rest) =>
    if (s.stores ty).entries.isEmpty then { s with runs := s.runs.set i { r with phase := .check rest } }
    else { s with runs := s.runs.set i { r with phase := .swap batchUpdateTypes } }
  | .swap [] => { s with runs := s.runs.set i { r with phase := .write } }
  | .swap (ty :: rest) =>
    { s with
      stores := Function.update s.stores ty ∅
      runs := s.runs.set i ⟨.swap rest, Function.update r.stores ty (s.stores ty)⟩ }
  | .write | .done => s

def BatchSystem.writeSection (s : BatchSystem) (i : ℕ) (r : BatchRun) (key : ℤ) (failed : Bool) : BatchSystem :=
  if r.phase = .write then
    { s with
      db := (r.writeRow key failed s.db).2
      runs := s.runs.set i (r.writeRow key failed s.db).1 }
  else s

def BatchSystem.next (s : BatchSystem) : BatchEvent → BatchSystem
  | .addNewRecord ty id value =>
    { s with stores := Function.update s.stores ty ((s.stores ty).addNewRecord id value) }
  | .start => { s with runs := s.runs ++ [BatchRun.start] }
  | .lock i => (s.runs[i]?).elim s (s.lockSection i)
  | .write i key failed => (s.runs[i]?).elim s fun r => s.writeSection i r key failed

def BatchSystem.moves (s : BatchSystem) (e : BatchEvent) (s' : BatchSystem) : Prop := s' = s.next e

def BatchSystem.pending (s : BatchSystem) (ty : BatchUpdateType) (id : ℤ) : ℤ := (s.stores ty).value id

def BatchSystem.held (s : BatchSystem) (ty : BatchUpdateType) (id : ℤ) : ℤ :=
  (s.runs.map fun r => (r.stores ty).value id).sum

def BatchEvent.passed (ty : BatchUpdateType) (id : ℤ) : BatchEvent → ℤ
  | .addNewRecord ty' id' value => if ty' = ty ∧ id' = id then value else 0
  | _ => 0

def passedTotal (ty : BatchUpdateType) (id : ℤ) (evs : List BatchEvent) : ℤ := (evs.map (BatchEvent.passed ty id)).sum

def BatchSystem.updates (ty : BatchUpdateType) (id : ℤ) (s : BatchSystem) : BatchEvent → Prop
  | .write i key failed => ¬ (failed = true ∧ key = id ∧ (s.runs[i]?).map BatchRun.table = some ty.table)
  | _ => True

instance (ty : BatchUpdateType) (id : ℤ) (s : BatchSystem) (e : BatchEvent) : Decidable (s.updates ty id e) := by
  cases e <;> unfold BatchSystem.updates <;> infer_instance

end NewApi
