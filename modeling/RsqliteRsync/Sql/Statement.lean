import RsqliteRsync.Foundation.Transaction
import RsqliteRsync.Protocol.Messages

namespace RsqliteRsync.Sql

open Protocol Foundation.Transaction

/-- A double is given by its bits. -/
inductive SqlValue
  | null
  | integer (i : Int64)
  | float (bits : UInt64)
  | text (t : String)
  | blob (b : List UInt8)
  deriving DecidableEq

namespace Proto

inductive ValueInner
  | nullValue (b : Bool)
  | intValue (i : Int64)
  | floatValue (bits : UInt64)
  | textValue (t : String)
  | blobValue (b : List UInt8)
  deriving DecidableEq

structure Value where
  value : Option ValueInner
  deriving DecidableEq

structure NamedParameter where
  name : String
  value : Option Value

structure Parameters where
  positional : List Value
  named : List NamedParameter

structure Statement where
  sql : String
  parameters : Option Parameters

end Proto

open Proto

def sqlValueToProto : SqlValue → Value
  | .null => ⟨some (.nullValue true)⟩
  | .integer i => ⟨some (.intValue i)⟩
  | .float bits => ⟨some (.floatValue bits)⟩
  | .text t => ⟨some (.textValue t)⟩
  | .blob b => ⟨some (.blobValue b)⟩

def protoValueToSql (val : Value) : SqlValue :=
  match val.value with
  | none | some (.nullValue _) => .null
  | some (.intValue i) => .integer i
  | some (.floatValue bits) => .float bits
  | some (.textValue t) => .text t
  | some (.blobValue b) => .blob b

section Library

variable (σ : Type)

/-- How a statement on the data ends. A failed one leaves some data, as a rule those it found, or
it has rolled the transaction back. -/
inductive Ending
  | done (after : σ)
  | failed (error : SyncError) (left : Option σ)

/-- The run of a statement on the data: the rows it hands out, how it ends, and where it sets them
the count of changed rows, which it does at its end, and the last rowid. -/
structure Run where
  rows : List (List SqlValue)
  ending : Ending σ
  changes : Option ℕ
  lastInsertRowid : Option Int64

/-- A statement on the data may behave differently in a transaction (the flag). Otherwise it goes
by the data alone, not by what the connection has counted, its settings or its temporary objects. -/
inductive Action
  | control (c : Control)
  | data (run : Bool → σ → Run σ)

abbrev Bindings := List (ℕ × SqlValue)

/-- A statement that SQLite has compiled. The run of one that is not read-only is what its first
step and its finalization do: it can hand out a row and still fail. -/
structure PreparedStatement where
  isReadonly : Bool
  columns : List (String × Option String)
  parameterIndex : String → ℕ
  bind : ℕ → SqlValue → Except SyncError Unit
  action : Bindings → Action σ

structure Sqlite extends Surroundings σ SyncError where
  openDatabase : Bool → σ → Except SyncError Unit
  prepareV2 : Bool → σ → String → Except SyncError (PreparedStatement σ)

structure Connection where
  readOnly : Bool
  session : Session σ
  changes : ℕ
  lastInsertRowid : Int64

end Library

variable {σ : Type} (lib : Sqlite σ)

section Bind

variable (stmt : PreparedStatement σ)

def bindParameterIndex (name : String) : Option ℕ :=
  [name, s!":{name}", s!"@{name}", s!"${name}"].findSome? fun cand ↦
    if '\x00' ∈ cand.toList then none
    else if 0 < stmt.parameterIndex cand then some (stmt.parameterIndex cand) else none

def bindProtoValue (idx : ℕ) (val : Value) : Except SyncError (ℕ × SqlValue) :=
  (stmt.bind idx (protoValueToSql val)).map fun _ ↦ (idx, protoValueToSql val)

def bindNamed (param : NamedParameter) : Except SyncError Bindings :=
  match param.value with
  | none => .ok []
  | some val =>
    match bindParameterIndex stmt param.name with
    | some idx => (bindProtoValue stmt idx val).map ([·])
    | none => .error
        (.protocol s!"named parameter '{param.name}' not found in prepared statement")

def bindParameters : Option Parameters → Except SyncError Bindings
  | none => .ok []
  | some params => do
    let positional ← params.positional.zipIdx.mapM fun (val, idx) ↦
      bindProtoValue stmt (idx + 1) val
    let named ← params.named.mapM (bindNamed stmt)
    return positional ++ named.flatten

end Bind

namespace Connection

def on (session : Session σ) : Connection σ := ⟨false, session, 0, 0⟩

def opened (readOnly : Bool) (s : σ) : Connection σ := ⟨readOnly, ⟨s, none⟩, 0, 0⟩

def openConnection (readOnly : Bool) (s : σ) : Except SyncError (Connection σ) :=
  (lib.openDatabase readOnly s).map fun _ ↦ opened readOnly s

variable (conn : Connection σ)

def prepare (sql : String) : Except SyncError (PreparedStatement σ) :=
  if '\x00' ∈ sql.toList then
    let position := ((sql.toList.takeWhile (· ≠ '\x00')).map Char.utf8Size).sum
    .error (.protocol s!"nul byte found in provided data at position: {position}")
  else lib.prepareV2 conn.readOnly conn.session.view sql

def exec (c : Control) : Except SyncError Unit × Connection σ :=
  let (result, session) := c.perform lib.toSurroundings conn.session
  (result, { conn with session })

def perform : Action σ → (List (List SqlValue) × Except SyncError Unit) × Connection σ
  | .control c =>
    let (result, conn) := conn.exec lib c
    (([], result), conn)
  | .data run =>
    let r := run conn.session.current.isSome conn.session.view
    let changes := r.changes.getD conn.changes
    let lastInsertRowid := r.lastInsertRowid.getD conn.lastInsertRowid
    match r.ending with
    | .done after => ((r.rows, .ok ()),
        ⟨conn.readOnly, conn.session.put after, changes, lastInsertRowid⟩)
    | .failed e left => ((r.rows, .error e),
        ⟨conn.readOnly, conn.session.leave left, changes, lastInsertRowid⟩)

theorem settled_perform (action : Action σ) :
    conn.session.Settled (conn.perform lib action).2.session := by
  cases action with
  | control c => exact c.settled_perform conn.session lib.toSurroundings
  | data run =>
    unfold perform
    cases hending : (run conn.session.current.isSome conn.session.view).ending with
    | done after => simpa [hending] using conn.session.settled_put after
    | failed e left => simpa [hending] using conn.session.settled_leave left

end Connection

section Sample

/-- The statement `INSERT INTO t VALUES (x)`, with a clause that says what a conflict leaves. -/
def sampleInsert (readOnly : Bool) (x : Int64) (onConflict : List Int64 → Option (List Int64)) :
    PreparedStatement (List Int64) where
  isReadonly := false
  columns := []
  parameterIndex _ := 0
  bind _ _ := .error (.sqlite 25 "column index out of range")
  action _ := .data fun _ s ↦
    if readOnly then ⟨[], .failed (.sqlite 8 "attempt to write a readonly database") (some s), none,
      none⟩
    else if x ∈ s then ⟨[], .failed (.sqlite 19 "UNIQUE constraint failed: t.x") (onConflict s),
      some 0, none⟩
    else ⟨[], .done (s ++ [x]), some 1, some (Int64.ofNat (s.length + 1))⟩

def sampleSelect : PreparedStatement (List Int64) where
  isReadonly := true
  columns := [("x", some "INTEGER")]
  parameterIndex _ := 0
  bind _ _ := .error (.sqlite 25 "column index out of range")
  action _ := .data fun _ s ↦ ⟨s.map ([.integer ·]), .done s, none, none⟩

def sampleControl (c : Control) : PreparedStatement (List Int64) where
  isReadonly := true
  columns := []
  parameterIndex _ := 0
  bind _ _ := .error (.sqlite 25 "column index out of range")
  action _ := .control c

/-- A database with a table `t` of one unique column `x`, and a few statements on it. -/
def sampleSqlite : Sqlite (List Int64) where
  begins _ _ := .ok ()
  commits _ _ := .ok ()
  refuse
    | .nested => .sqlite 1 "cannot start a transaction within a transaction"
    | .inactive => .sqlite 1 "cannot commit - no transaction is active"
    | .noSuchSavepoint name => .sqlite 1 s!"no such savepoint: {name}"
  openDatabase _ _ := .ok ()
  prepareV2 readOnly _ sql :=
    if sql = "SELECT x FROM t" then .ok sampleSelect
    else if sql = "INSERT INTO t VALUES (1)" then .ok (sampleInsert readOnly 1 some)
    else if sql = "INSERT OR ROLLBACK INTO t VALUES (1)" then
      .ok (sampleInsert readOnly 1 fun _ ↦ none)
    else if sql = "COMMIT" then .ok (sampleControl .commit)
    else .error (.sqlite 1 s!"near \"{sql}\": syntax error")

/-- The statement `INSERT INTO c VALUES (x) RETURNING x`. Outside a transaction it commits when it
is finalized. -/
def sampleReturning (x : Int64) : PreparedStatement (List Int64) where
  isReadonly := false
  columns := [("x", none)]
  parameterIndex _ := 0
  bind _ _ := .error (.sqlite 25 "column index out of range")
  action _ := .data fun inTransaction s ↦
    ⟨[[.integer x]],
      if inTransaction then .done (s ++ [x])
      else .failed (.sqlite 19 "FOREIGN KEY constraint failed") (some s),
      some 1, some (Int64.ofNat (s.length + 1))⟩

/-- A table `c` of one column with a deferred foreign key to an empty table. -/
def deferredSqlite : Sqlite (List Int64) where
  begins _ _ := .ok ()
  commits durable data := if data = durable then .ok ()
    else .error (.sqlite 19 "FOREIGN KEY constraint failed")
  refuse := sampleSqlite.refuse
  openDatabase _ _ := .ok ()
  prepareV2 _ _ sql :=
    if sql = "INSERT INTO c VALUES (1) RETURNING x" then .ok (sampleReturning 1)
    else .error (.sqlite 1 s!"near \"{sql}\": syntax error")

end Sample

end RsqliteRsync.Sql
