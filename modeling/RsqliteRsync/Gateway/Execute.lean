import RsqliteRsync.Gateway.Batch

namespace RsqliteRsync.Gateway.DatabaseEngine

open Protocol Sql Sql.Proto Foundation.Transaction

variable {σ : Type} (lib : Sqlite σ)

def execute (s : σ) (stmtProto : Statement) (generation : ℕ) :
    Except SyncError ExecuteResponse × σ :=
  match Connection.openConnection lib false s with
  | .error e => (.error e, s)
  | .ok conn =>
    match conn.prepare lib stmtProto.sql with
    | .error e => (.error e, s)
    | .ok prepared =>
      match bindParameters prepared stmtProto.parameters with
      | .error e => (.error e, s)
      | .ok bindings =>
        let ((rows, ending), after) := conn.perform lib (prepared.action bindings)
        (firstStep generation rows ending conn after, after.session.close.durable)

def executes (stopOnError : Bool) (generation : ℕ) :
    List Statement → σ → List (Except SyncError ExecuteResponse) × σ
  | [], s => ([], s)
  | stmtProto :: more, s =>
    match execute lib s stmtProto generation with
    | (.error e, s) =>
      if stopOnError then ([.error e], s)
      else
        let (results, s) := executes stopOnError generation more s
        (.error e :: results, s)
    | (.ok resp, s) =>
      let (results, s) := executes stopOnError generation more s
      (.ok resp :: results, s)

def Writes (stmtProto : Statement) : Prop :=
  ∀ s prepared, lib.prepareV2 false s stmtProto.sql = .ok prepared →
    prepared.isReadonly = false ∧ ∀ bindings, ∃ run, prepared.action bindings = .data run

/-- The counts that can be read after the first step of a statement, where it sets them, or its
error, and the data that it leaves outside a transaction. -/
def written (s : σ) (stmtProto : Statement) : Except SyncError (Option ℕ × Option Int64) × σ :=
  match (Connection.opened false s).prepare lib stmtProto.sql with
  | .error e => (.error e, s)
  | .ok prepared =>
    match bindParameters prepared stmtProto.parameters with
    | .error e => (.error e, s)
    | .ok bindings =>
      match prepared.action bindings with
      | .control _ => (.ok (none, none), s)
      | .data run =>
        let r := run false s
        match r.rows, r.ending with
        | [], .done after => (.ok (r.changes, r.lastInsertRowid), after)
        | [], .failed e left => (.error e, left.getD s)
        | _ :: _, .done after => (.ok (none, r.lastInsertRowid), after)
        | _ :: _, .failed _ left => (.ok (none, r.lastInsertRowid), left.getD s)

section Statement

variable {lib} {stmtProto : Statement} {generation : ℕ}

theorem Writes.prepared {s : σ} {prepared : PreparedStatement σ} (hwrites : Writes lib stmtProto)
    (hprepare : (Connection.opened false s).prepare lib stmtProto.sql = .ok prepared) :
    prepared.isReadonly = false ∧ ∀ bindings, ∃ run, prepared.action bindings = .data run := by
  unfold Connection.prepare at hprepare
  split_ifs at hprepare
  exact hwrites _ prepared hprepare

theorem execute_writes (hwrites : Writes lib stmtProto) {s : σ}
    (hopen : lib.openDatabase false s = .ok ()) :
    execute lib s stmtProto generation =
      ((written lib s stmtProto).1.map fun c ↦ ⟨c.1.getD 0, c.2.getD 0, generation⟩,
        (written lib s stmtProto).2) := by
  have hconn : Connection.openConnection lib false s = .ok (Connection.opened false s) := by
    rw [Connection.openConnection, hopen]
    rfl
  rw [execute, hconn]
  dsimp only
  rw [written]
  cases hprepare : (Connection.opened false s).prepare lib stmtProto.sql with
  | error e => rfl
  | ok prepared =>
    dsimp only
    cases bindParameters prepared stmtProto.parameters with
    | error e => rfl
    | ok bindings =>
      obtain ⟨-, hdata⟩ := hwrites.prepared hprepare
      obtain ⟨run, haction⟩ := hdata bindings
      dsimp only
      rw [haction]
      unfold Connection.perform
      dsimp only [Connection.opened, Session.view, Option.isSome]
      cases hending : (run false s).ending with
      | done after => cases hrows : (run false s).rows <;> rfl
      | failed e left => cases hrows : (run false s).rows <;> cases left <;> rfl

theorem runStatement_writes (hwrites : Writes lib stmtProto) {conn : Connection σ} {s : σ}
    (hrw : conn.readOnly = false) (hsession : conn.session = ⟨s, none⟩) :
    (runStatement lib generation conn stmtProto).1 = (written lib s stmtProto).1.map (fun c ↦
        .executeResult ⟨c.1.getD conn.changes, c.2.getD conn.lastInsertRowid, generation⟩) ∧
      (runStatement lib generation conn stmtProto).2.readOnly = false ∧
      (runStatement lib generation conn stmtProto).2.session =
        ⟨(written lib s stmtProto).2, none⟩ := by
  have hsame : conn.prepare lib stmtProto.sql =
      (Connection.opened false s).prepare lib stmtProto.sql := by
    rw [Connection.prepare, Connection.prepare, hrw, hsession]
    rfl
  rw [runStatement, written, hsame]
  cases hprepare : (Connection.opened false s).prepare lib stmtProto.sql with
  | error e => exact ⟨rfl, hrw, hsession⟩
  | ok prepared =>
    dsimp only
    cases bindParameters prepared stmtProto.parameters with
    | error e => exact ⟨rfl, hrw, hsession⟩
    | ok bindings =>
      obtain ⟨hreadonly, hdata⟩ := hwrites.prepared hprepare
      obtain ⟨run, haction⟩ := hdata bindings
      dsimp only
      rw [haction]
      unfold Connection.perform answer
      rw [hsession, hreadonly]
      dsimp only [Session.view, Option.isSome]
      cases hending : (run false s).ending with
      | done after => cases hrows : (run false s).rows <;> exact ⟨rfl, hrw, rfl⟩
      | failed e left =>
        cases hrows : (run false s).rows <;> cases left <;> exact ⟨rfl, hrw, rfl⟩

end Statement

/-- An entry of a batch beside the answer of a call of its own. Where that counts nothing, the entry
may repeat an earlier count. -/
inductive Matches (generation : ℕ) : Except SyncError ExecuteResponse → StatementResult → Prop
  | error (e : SyncError) : Matches generation (.error e) ⟨none, e.display⟩
  | ok {rowsAffected count : ℕ} {lastInsertRowid rowid : Int64} :
      rowsAffected = count ∨ rowsAffected = 0 → lastInsertRowid = rowid ∨ lastInsertRowid = 0 →
      Matches generation (.ok ⟨rowsAffected, lastInsertRowid, generation⟩)
        ⟨some (.executeResult ⟨count, rowid, generation⟩), ""⟩

theorem getD_eq_or {α : Type} (x : Option α) (a b : α) : x.getD a = x.getD b ∨ x.getD a = a := by
  cases x with
  | none => exact .inr rfl
  | some x => exact .inl rfl

variable {lib}

theorem batchLoop_executes (stopOnError : Bool) (generation : ℕ) {statements : List Statement}
    (hwrites : ∀ st ∈ statements, Writes lib st)
    (hopen : ∀ s, lib.openDatabase false s = .ok ()) (s : σ) {conn : Connection σ}
    (hrw : conn.readOnly = false) (hsession : conn.session = ⟨s, none⟩) :
    let out := batchLoop lib stopOnError generation statements conn
    let calls := executes lib stopOnError generation statements s
    List.Forall₂ (Matches generation) calls.1 out.1 ∧ out.2.1 = calls.1.any (!·.isOk) ∧
      out.2.2.session = ⟨calls.2, none⟩ := by
  induction statements generalizing s conn with
  | nil => exact ⟨.nil, rfl, hsession⟩
  | cons stmtProto more ih =>
    obtain ⟨hone, hmore⟩ := List.forall_mem_cons.mp hwrites
    obtain ⟨hanswer, hrw', hsession'⟩ : (runStatement lib generation conn stmtProto).1 = _ ∧ _ :=
      runStatement_writes hone hrw hsession
    have hlater := ih hmore (written lib s stmtProto).2 hrw' hsession'
    dsimp only
    rw [batchLoop, executes, execute_writes hone (hopen s)]
    rcases hrun : runStatement lib generation conn stmtProto with ⟨result, conn'⟩
    rw [hrun] at hanswer hlater hsession'
    dsimp only at hanswer hlater hsession'
    subst hanswer
    generalize written lib s stmtProto = out at hlater hsession'
    obtain ⟨outcome, s'⟩ := out
    cases outcome with
    | error e =>
      cases stopOnError with
      | true => exact ⟨.cons (.error e) .nil, rfl, hsession'⟩
      | false =>
        obtain ⟨hmatches, -, hlast⟩ := hlater
        exact ⟨.cons (.error e) hmatches, rfl, hlast⟩
    | ok counts =>
      obtain ⟨hmatches, herror, hlast⟩ := hlater
      exact ⟨.cons (.ok (getD_eq_or ..) (getD_eq_or ..)) hmatches, herror, hlast⟩

end RsqliteRsync.Gateway.DatabaseEngine
