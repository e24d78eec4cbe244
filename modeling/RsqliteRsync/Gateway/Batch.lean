import RsqliteRsync.Gateway.Query

namespace RsqliteRsync.Gateway

open Protocol Sql Sql.Proto Foundation.Transaction

inductive BatchTransactionMode
  | none
  | deferred
  | immediate
  | exclusive
  deriving DecidableEq

def BatchTransactionMode.locking : BatchTransactionMode → Locking
  | .immediate => .immediate
  | .exclusive => .exclusive
  | _ => .deferred

structure ExecuteResponse where
  rowsAffected : ℕ
  lastInsertRowid : Int64
  generation : ℕ

inductive StatementOutcome
  | executeResult (resp : ExecuteResponse)
  | queryResult (resp : QueryResponse)

structure StatementResult where
  result : Option StatementOutcome
  error : String

structure BatchResponse where
  results : List StatementResult
  generation : ℕ
  committed : Bool

namespace DatabaseEngine

variable {σ : Type} (lib : Sqlite σ)

/-- The answer after the first step of a statement. The changed rows are not counted yet if that
hands out a row. -/
def firstStep (generation : ℕ) (rows : List (List SqlValue)) (ending : Except SyncError Unit)
    (before after : Connection σ) : Except SyncError ExecuteResponse :=
  match rows, ending with
  | [], .error e => .error e
  | [], .ok () => .ok ⟨after.changes, after.lastInsertRowid, generation⟩
  | _ :: _, _ => .ok ⟨before.changes, after.lastInsertRowid, generation⟩

/-- The answer to a statement that was run. A read-only one is stepped to its end, another one only
once. -/
def answer (generation : ℕ) (prepared : PreparedStatement σ) (rows : List (List SqlValue))
    (ending : Except SyncError Unit) (before after : Connection σ) :
    Except SyncError StatementOutcome :=
  if prepared.isReadonly then
    match ending with
    | .error e => .error e
    | .ok () =>
      let columns := columnHeaders prepared
      .ok (.queryResult
        ⟨columns, rows.map (readRow columns.length), rows.length, generation, false⟩)
  else (firstStep generation rows ending before after).map .executeResult

def runStatement (generation : ℕ) (conn : Connection σ) (stmtProto : Statement) :
    Except SyncError StatementOutcome × Connection σ :=
  match conn.prepare lib stmtProto.sql with
  | .error e => (.error e, conn)
  | .ok prepared =>
    match bindParameters prepared stmtProto.parameters with
    | .error e => (.error e, conn)
    | .ok bindings =>
      let ((rows, ending), after) := conn.perform lib (prepared.action bindings)
      (answer generation prepared rows ending conn after, after)

def batchLoop (stopOnError : Bool) (generation : ℕ) :
    List Statement → Connection σ → List StatementResult × Bool × Connection σ
  | [], conn => ([], false, conn)
  | stmtProto :: more, conn =>
    match runStatement lib generation conn stmtProto with
    | (.error e, conn) =>
      if stopOnError then ([⟨none, e.display⟩], true, conn)
      else
        let (results, _, conn) := batchLoop stopOnError generation more conn
        (⟨none, e.display⟩ :: results, true, conn)
    | (.ok outcome, conn) =>
      let (results, hasError, conn) := batchLoop stopOnError generation more conn
      (⟨some outcome, ""⟩ :: results, hasError, conn)

def endBatch (useTx hasError stopOnError : Bool) (conn : Connection σ) : Bool × Connection σ :=
  if useTx then
    if hasError && stopOnError then (false, (conn.exec lib .rollback).2)
    else
      let (result, conn) := conn.exec lib .commit
      (result.isOk, conn)
  else (!hasError, conn)

/-- The answer and the data that the batch leaves. The connection is closed at the end. -/
def batch (s : σ) (statements : List Statement) (txMode : BatchTransactionMode)
    (stopOnError : Bool) (generation : ℕ) : Except SyncError BatchResponse × σ :=
  match Connection.openConnection lib false s with
  | .error e => (.error e, s)
  | .ok conn =>
    let useTx := txMode ≠ .none
    match if useTx then conn.exec lib (.begin txMode.locking) else (.ok (), conn) with
    | (.error e, conn) => (.error e, conn.session.close.durable)
    | (.ok (), conn) =>
      let (results, hasError, conn) := batchLoop lib stopOnError generation statements conn
      let (committed, conn) := endBatch lib useTx hasError stopOnError conn
      (.ok ⟨results, generation, committed⟩, conn.session.close.durable)

section Meaning

/-- What a statement comes to on a session: how it ends, what the steps that are made show of that,
and the session after it. -/
structure Performed (σ : Type) where
  ending : Except SyncError Unit
  noticed : Except SyncError Unit
  session : Session σ

def meaning (session : Session σ) (stmtProto : Statement) : Performed σ :=
  match (Connection.on session).prepare lib stmtProto.sql with
  | .error e => ⟨.error e, .error e, session⟩
  | .ok prepared =>
    match bindParameters prepared stmtProto.parameters with
    | .error e => ⟨.error e, .error e, session⟩
    | .ok bindings =>
      let ((rows, ending), conn) := (Connection.on session).perform lib (prepared.action bindings)
      -- a statement that is not read-only is not stepped again after its first row
      ⟨ending, if prepared.isReadonly || rows.isEmpty then ending else .ok (), conn.session⟩

variable {lib} {generation : ℕ} {conn : Connection σ} {stmtProto : Statement}

theorem answer_isOk (prepared : PreparedStatement σ) (rows : List (List SqlValue))
    (ending : Except SyncError Unit) (before after : Connection σ) :
    (answer generation prepared rows ending before after).isOk =
      (if prepared.isReadonly || rows.isEmpty then ending else .ok ()).isOk := by
  unfold answer firstStep
  cases prepared.isReadonly <;> cases rows <;> cases ending <;> rfl

variable (lib) in
theorem perform_session (action : Action σ) {conn conn' : Connection σ}
    (h : conn.session = conn'.session) :
    (conn.perform lib action).1 = (conn'.perform lib action).1 ∧
      (conn.perform lib action).2.session = (conn'.perform lib action).2.session := by
  cases action with
  | control c => simp [Connection.perform, Connection.exec, h]
  | data run =>
    cases hending : (run conn'.session.current.isSome conn'.session.view).ending <;>
      simp [Connection.perform, h, hending]

variable (lib) in
theorem perform_readOnly (action : Action σ) (conn : Connection σ) :
    (conn.perform lib action).2.readOnly = conn.readOnly := by
  cases action with
  | control c => rfl
  | data run =>
    cases hending : (run conn.session.current.isSome conn.session.view).ending <;>
      simp [Connection.perform, hending]

variable (lib generation stmtProto) in
/-- A statement of a batch does what it means, and counts as failed when that is noticed. -/
theorem runStatement_meaning (hrw : conn.readOnly = false) :
    (runStatement lib generation conn stmtProto).1.isOk =
        (meaning lib conn.session stmtProto).noticed.isOk ∧
      (runStatement lib generation conn stmtProto).2.readOnly = false ∧
      (runStatement lib generation conn stmtProto).2.session =
        (meaning lib conn.session stmtProto).session := by
  have hprepare : conn.prepare lib stmtProto.sql =
      (Connection.on conn.session).prepare lib stmtProto.sql := by
    rw [Connection.prepare, Connection.prepare, hrw]
    rfl
  rw [runStatement, meaning, hprepare]
  cases (Connection.on conn.session).prepare lib stmtProto.sql with
  | error e => exact ⟨rfl, hrw, rfl⟩
  | ok prepared =>
    dsimp only
    cases bindParameters prepared stmtProto.parameters with
    | error e => exact ⟨rfl, hrw, rfl⟩
    | ok bindings =>
      obtain ⟨hanswer, hsession⟩ := perform_session lib (prepared.action bindings)
        (show conn.session = (Connection.on conn.session).session from rfl)
      refine ⟨?_, (perform_readOnly lib _ conn).trans hrw, hsession⟩
      rw [answer_isOk]
      simp only [hanswer]

theorem isOk_of_noticed {session : Session σ}
    (h : (meaning lib session stmtProto).noticed.isOk = false) :
    (meaning lib session stmtProto).ending.isOk = false := by
  revert h
  unfold meaning
  split
  · exact id
  · split
    · exact id
    · dsimp only
      split_ifs
      · exact id
      · exact fun h ↦ Bool.noConfusion h

theorem settled_meaning (session : Session σ) :
    session.Settled (meaning lib session stmtProto).session := by
  unfold meaning
  split
  · exact fun _ ↦ rfl
  · split
    · exact fun _ ↦ rfl
    · exact (Connection.on session).settled_perform lib _

end Meaning

section Loop

variable {lib} {stopOnError : Bool} {generation : ℕ} {conn : Connection σ} {stmtProto : Statement}

theorem batchLoop_goes (more : List Statement) (hgo : (stopOnError &&
      !(runStatement lib generation conn stmtProto).1.isOk) = false) :
    let later := batchLoop lib stopOnError generation more
      (runStatement lib generation conn stmtProto).2
    ∃ result : StatementResult,
      (result.result = none ↔ (runStatement lib generation conn stmtProto).1.isOk = false) ∧
      batchLoop lib stopOnError generation (stmtProto :: more) conn =
        (result :: later.1, !(runStatement lib generation conn stmtProto).1.isOk || later.2.1,
          later.2.2) := by
  rw [batchLoop]
  rcases hrun : runStatement lib generation conn stmtProto with ⟨result, conn'⟩
  rw [hrun] at hgo
  cases result with
  | ok outcome => exact ⟨⟨some outcome, ""⟩, by simp [Except.isOk, Except.toBool], rfl⟩
  | error e =>
    obtain rfl : stopOnError = false := by simpa [Except.isOk, Except.toBool] using hgo
    exact ⟨⟨none, e.display⟩, by simp [Except.isOk, Except.toBool], rfl⟩

theorem batchLoop_stops (more : List Statement)
    (hfails : (runStatement lib generation conn stmtProto).1.isOk = false) :
    ∃ result : StatementResult, result.result = none ∧
      batchLoop lib true generation (stmtProto :: more) conn =
        ([result], true, (runStatement lib generation conn stmtProto).2) := by
  rw [batchLoop]
  rcases hrun : runStatement lib generation conn stmtProto with ⟨result, conn'⟩
  rw [hrun] at hfails
  cases result with
  | ok outcome => cases hfails
  | error e => exact ⟨⟨none, e.display⟩, rfl, rfl⟩

end Loop

section Equations

variable {lib} {s : σ} {statements : List Statement} {txMode : BatchTransactionMode}
  {stopOnError : Bool} {generation : ℕ}

def begun (txMode : BatchTransactionMode) (s : σ) : Session σ :=
  ⟨s, if txMode = .none then none else some ⟨s, [], true⟩⟩

def started (s : σ) (txMode : BatchTransactionMode) : Connection σ :=
  { Connection.opened false s with session := begun txMode s }

@[simp] theorem isSome_begun : (begun txMode s).current.isSome = decide (txMode ≠ .none) := by
  cases txMode <;> rfl

@[simp] theorem view_begun : (begun txMode s).view = s := by
  unfold begun
  split_ifs <;> rfl

theorem batch_eq (hopen : lib.openDatabase false s = .ok ())
    (hbegin : txMode ≠ .none → lib.begins txMode.locking s = .ok ()) :
    batch lib s statements txMode stopOnError generation =
      let out := batchLoop lib stopOnError generation statements (started s txMode)
      let ended := endBatch lib (txMode ≠ .none) out.2.1 stopOnError out.2.2
      (.ok ⟨out.1, generation, ended.1⟩, ended.2.session.close.durable) := by
  unfold batch Connection.openConnection
  rw [hopen]
  by_cases hmode : txMode = .none
  · simp [hmode, Except.map, started, begun, Connection.opened]
  · simp [hmode, Except.map, Connection.exec, Control.perform, Connection.opened, hbegin hmode,
      started, begun]

theorem endBatch_committed (conn : Connection σ) (hasError : Bool) :
    (endBatch lib true hasError stopOnError conn).1 = true ↔
      (hasError && stopOnError) = false ∧ ∃ tx, conn.session.current = some tx ∧
        lib.commits conn.session.durable tx.data = .ok () := by
  unfold endBatch
  cases hstop : hasError && stopOnError with
  | true => simp
  | false =>
    cases hcurrent : conn.session.current with
    | none => simp [Connection.exec, Control.perform, hcurrent, Except.isOk, Except.toBool]
    | some tx =>
      cases hcommits : lib.commits conn.session.durable tx.data <;>
        simp [Connection.exec, Control.perform, Control.commitOpen, hcurrent, hcommits,
          Except.isOk, Except.toBool]

/-- A committed batch leaves the data that its transaction saw, another one what was durable. -/
theorem endBatch_durable (conn : Connection σ) (hasError : Bool) :
    (endBatch lib true hasError stopOnError conn).2.session.close.durable =
      if (endBatch lib true hasError stopOnError conn).1 then conn.session.view
      else conn.session.durable := by
  unfold endBatch
  cases hstop : hasError && stopOnError with
  | true =>
    cases hcurrent : conn.session.current <;>
      simp [Connection.exec, Control.perform, hcurrent, Session.close]
  | false =>
    cases hcurrent : conn.session.current with
    | none =>
      simp [Connection.exec, Control.perform, hcurrent, Session.close, Except.isOk, Except.toBool]
    | some tx =>
      cases hcommits : lib.commits conn.session.durable tx.data <;>
        simp [Connection.exec, Control.perform, Control.commitOpen, hcurrent, hcommits,
          Session.close, Session.view, Except.isOk, Except.toBool]

end Equations

end DatabaseEngine

end RsqliteRsync.Gateway
