import NewApi.Spec.ChannelCache

/-!
# Writing the tables while the cache is built

`Insert`, `Update`, `Delete` (`model/channel.go`) and `FixAbility` (`model/ability.go`) write the channels and their
abilities one statement after the other; only the batch functions and `UpdateAbilities` use a transaction.
`SyncChannelCache` calls `InitChannelCache` in a goroutine of its own, which reads first the one table and then the
other. Each statement or transaction is a step, and any number of operations and builds may be under way.
-/

namespace NewApi

def chunkFrom {α : Type*} (size : ℕ) : List α → List α → List (List α)
  | part, [] => if part.isEmpty then [] else [part]
  | part, x :: xs =>
    if part.length + 1 = size then (part ++ [x]) :: chunkFrom size [] xs else chunkFrom size (part ++ [x]) xs

def chunk {α : Type*} (size : ℕ) (xs : List α) : List (List α) := chunkFrom size [] xs

/-- A new row; `none` when its id is taken. -/
def ChannelDB.createRow (db : ChannelDB) (row : ChannelRow) : Option ChannelDB :=
  if h : row.id ∈ db.rows.map fun row => row.id then none
  else some
    { db with
      rows := row :: db.rows
      nodup := List.nodup_cons.2 ⟨h, db.nodup⟩ }

def ChannelDB.deleteRows (db : ChannelDB) (p : ChannelRow → Bool) : ChannelDB :=
  { db with
    rows := db.rows.filter fun row => !p row
    nodup := db.nodup.sublist (List.filter_sublist.map _) }

def Ability.sameKey (a b : Ability) : Bool :=
  decide (a.group = b.group) && decide (a.model = b.model) && decide (a.channelId = b.channelId)

/-- `Create` with `OnConflict{DoNothing: true}`. -/
def ChannelDB.addAbilities (db : ChannelDB) (abilities : List Ability) : ChannelDB :=
  { db with abilities := db.abilities ++ abilities.filter fun a => !db.abilities.any a.sameKey }

def ChannelDB.deleteAbilities (db : ChannelDB) (ids : List ℕ) : ChannelDB :=
  { db with abilities := db.abilities.filter fun a => !ids.contains a.channelId }

def ChannelDB.updateAbilities (db : ChannelDB) (row : ChannelRow) : ChannelDB :=
  (db.deleteAbilities [row.id]).addAbilities row.toAbilities

def ChannelDB.batchInsert (db : ChannelDB) (rows : List ChannelRow) : Option ChannelDB :=
  rows.foldlM (fun db row => (db.createRow row).map fun db => db.addAbilities row.toAbilities) db

inductive Statement
  | createRow (row : ChannelRow)
  /-- one chunk of `AddAbilities` -/
  | addAbilities (id : ℕ) (chunk : List Ability)
  /-- `Updates` of the row with an id -/
  | updateRow (id : ℕ) (f : ChannelRow → ChannelRow) (hf : ∀ row, (f row).id = row.id)
  /-- `First`, into the channel that the caller has given; its error is not looked at -/
  | reload (given : ChannelRow)
  | updateAbilities (row : ChannelRow)
  | deleteRow (id : ℕ)
  | deleteByStatus (statuses : List ℤ)
  | deleteAbilities (ids : List ℕ)
  | truncateAbilities
  /-- the channels that `FixAbility` goes through -/
  | findChannels
  | batchInsert (rows : List ChannelRow)
  | batchDelete (ids : List ℕ)

def Statement.isAdd : Statement → Bool
  | .addAbilities _ _ => true
  | _ => false

def Statement.isAddOf (id : ℕ) : Statement → Bool
  | .addAbilities i _ => decide (i = id)
  | _ => false

def addStatements (row : ChannelRow) : List Statement := (chunk 50 row.toAbilities).map (.addAbilities row.id)

def fixChunk (rows : List ChannelRow) : List Statement :=
  .deleteAbilities (rows.map fun row => row.id) :: rows.flatMap addStatements

def ChannelDB.exec (db : ChannelDB) (ok : Bool) : List Statement → ChannelDB × List Statement
  | [] => (db, [])
  | .createRow row :: rest => match if ok then db.createRow row else none with
    | some db' => (db', rest)
    | none => (db, [])
  | .addAbilities id abilities :: rest =>
    -- the rest of the channel is left out, `FixAbility` goes on with the next one
    if ok then (db.addAbilities abilities, rest) else (db, rest.dropWhile (Statement.isAddOf id))
  | .updateRow id f hf :: rest => if ok then (db.updateRow id f hf, rest) else (db, [])
  | .reload given :: rest => (db, .updateAbilities ((if ok then db.row given.id else none).getD given) :: rest)
  | .updateAbilities row :: rest => if ok then (db.updateAbilities row, rest) else (db, rest)
  | .deleteRow id :: rest => if ok then (db.deleteRows fun row => row.id = id, rest) else (db, [])
  | .deleteByStatus statuses :: rest =>
    if ok then (db.deleteRows fun row => statuses.contains row.status, rest) else (db, [])
  | .deleteAbilities ids :: rest => if ok then (db.deleteAbilities ids, rest) else (db, rest.dropWhile Statement.isAdd)
  | .truncateAbilities :: rest => if ok then ({ db with abilities := [] }, rest) else (db, [])
  | .findChannels :: rest => if ok then (db, (chunk 50 db.rows).flatMap fixChunk ++ rest) else (db, [])
  | .batchInsert rows :: rest => match if ok then db.batchInsert rows else none with
    | some db' => (db', rest)
    | none => (db, [])
  | .batchDelete ids :: rest =>
    if ok then ((db.deleteRows fun row => ids.contains row.id).deleteAbilities ids, rest) else (db, [])

inductive Operation
  | insert (row : ChannelRow)
  /-- the columns that are written, and the channel as the caller has it -/
  | update (given : ChannelRow) (f : ChannelRow → ChannelRow) (hf : ∀ row, (f row).id = row.id)
  | delete (id : ℕ)
  /-- `DeleteChannelByStatus` and `DeleteDisabledChannel` -/
  | deleteByStatus (statuses : List ℤ)
  | batchInsert (rows : List ChannelRow)
  | batchDelete (ids : List ℕ)
  | fixAbility

def Operation.deleteDisabledChannel : Operation :=
  .deleteByStatus [channelStatusAutoDisabled, channelStatusManuallyDisabled]

def Operation.isFix : Operation → Bool
  | .fixAbility => true
  | _ => false

def Operation.program : Operation → List Statement
  | .insert row => .createRow row :: addStatements row
  | .update given f hf => [.updateRow given.id f hf, .reload given]
  | .delete id => [.deleteRow id, .deleteAbilities [id]]
  | .deleteByStatus statuses => [.deleteByStatus statuses]
  | .batchInsert rows => [.batchInsert rows]
  | .batchDelete ids => [.batchDelete ids]
  | .fixAbility => [.truncateAbilities, .findChannels]

structure SyncState where
  db : ChannelDB
  running : ℕ → List Statement
  /-- who holds `fixLock` -/
  fixing : Option ℕ
  /-- the channels that a call of `InitChannelCache` has read, before it reads the abilities -/
  reading : ℕ → Option (List ChannelRow)
  cache : ChannelCache
  /-- an assignment to a missing inner map has ended the process -/
  panicked : Bool

/-- A statement or a query fails when it is not `ok`. -/
inductive SyncEvent
  | start (op : ℕ) (operation : Operation)
  | exec (op : ℕ) (ok : Bool)
  | readChannels (reader : ℕ) (ok : Bool)
  | readAbilities (reader : ℕ) (ok : Bool)

def SyncState.start (s : SyncState) (op : ℕ) (operation : Operation) : SyncState :=
  { s with
    running := Function.update s.running op operation.program
    fixing := if operation.isFix then some op else s.fixing }

def SyncState.exec (s : SyncState) (op : ℕ) (ok : Bool) : SyncState :=
  let next := s.db.exec ok (s.running op)
  { s with
    db := next.1
    running := Function.update s.running op next.2
    fixing := if next.2.isEmpty && decide (s.fixing = some op) then none else s.fixing }

/-- The error of the query is not looked at: there are no channels then. -/
def SyncState.readChannels (s : SyncState) (reader : ℕ) (ok : Bool) : SyncState :=
  { s with reading := Function.update s.reading reader (some (if ok then s.db.rows else [])) }

def SyncState.readAbilities (decode : String → Option (List String)) (s : SyncState) (reader : ℕ)
    (rows : List ChannelRow) (ok : Bool) : SyncState :=
  let s := { s with reading := Function.update s.reading reader none }
  match initChannelCache decode s.cache rows (if ok then s.db.abilities else []) with
  | some cache => { s with cache := cache }
  | none => { s with panicked := true }

inductive SyncStep (decode : String → Option (List String)) : SyncState → SyncEvent → SyncState → Prop
  | start {s : SyncState} {op : ℕ} {operation : Operation} (live : s.panicked = false)
      (free : s.running op = []) (lock : operation.isFix = true → s.fixing = none) :
      SyncStep decode s (.start op operation) (s.start op operation)
  | exec {s : SyncState} {op : ℕ} {ok : Bool} (live : s.panicked = false) (busy : s.running op ≠ []) :
      SyncStep decode s (.exec op ok) (s.exec op ok)
  | readChannels {s : SyncState} {reader : ℕ} {ok : Bool} (live : s.panicked = false)
      (free : s.reading reader = none) : SyncStep decode s (.readChannels reader ok) (s.readChannels reader ok)
  | readAbilities {s : SyncState} {reader : ℕ} {ok : Bool} {rows : List ChannelRow} (live : s.panicked = false)
      (busy : s.reading reader = some rows) :
      SyncStep decode s (.readAbilities reader ok) (s.readAbilities decode reader rows ok)

def SyncState.idle (db : ChannelDB) (cache : ChannelCache) : SyncState where
  db := db
  running := fun _ => []
  fixing := none
  reading := fun _ => none
  cache := cache
  panicked := false

end NewApi
