import RsqliteRsync.Gateway.Batch

namespace RsqliteRsync.Gateway.DatabaseEngine

open Protocol Sql Sql.Proto Foundation.Transaction

variable {σ : Type} (lib : Sqlite σ)

section Statements

def EndsTransaction (session : Session σ) : Action σ → Prop
  | .control c => c = .commit ∧ lib.commits session.durable session.view = .ok () ∨ c = .rollback
  | .data run => ∃ e, (run session.current.isSome session.view).ending = .failed e none

def TakesOut (session : Session σ) (stmtProto : Statement) : Prop :=
  ∃ prepared bindings, (Connection.on session).prepare lib stmtProto.sql = .ok prepared ∧
    bindParameters prepared stmtProto.parameters = .ok bindings ∧
    EndsTransaction lib session (prepared.action bindings)

def after (session : Session σ) (stmtProto : Statement) : Session σ :=
  (meaning lib session stmtProto).session

def KeepInside (stopOnError : Bool) : Session σ → List Statement → Prop
  | _, [] => True
  | session, stmtProto :: more => ¬ TakesOut lib session stmtProto ∧
      ((stopOnError && !(meaning lib session stmtProto).noticed.isOk) = false →
        KeepInside stopOnError (after lib session stmtProto) more)

end Statements

section Loop

variable {lib} {stopOnError : Bool} {generation : ℕ} {statements : List Statement} {s : σ}
  {session : Session σ} {stmtProto : Statement}

theorem inside_perform {action : Action σ} (h : session.Inside)
    (hkeeps : ¬ EndsTransaction lib session action) :
    ((Connection.on session).perform lib action).2.session.Inside := by
  cases action with
  | control c =>
    obtain ⟨hcommit, hrollback⟩ := not_or.mp hkeeps
    exact h.perform (fun hc hok ↦ hcommit ⟨hc, hok⟩) hrollback
  | data run =>
    unfold Connection.perform
    dsimp only [Connection.on]
    cases hending : (run session.current.isSome session.view).ending with
    | done after => exact h.put after
    | failed e left =>
      cases left with
      | some data => exact h.put data
      | none => exact absurd ⟨e, hending⟩ hkeeps

theorem inside_after (h : session.Inside) (hkeeps : ¬ TakesOut lib session stmtProto) :
    (after lib session stmtProto).Inside := by
  unfold after meaning
  cases hprepare : (Connection.on session).prepare lib stmtProto.sql with
  | error e => exact h
  | ok prepared =>
    dsimp only
    cases hbind : bindParameters prepared stmtProto.parameters with
    | error e => exact h
    | ok bindings =>
      exact inside_perform h fun hends ↦ hkeeps ⟨prepared, bindings, hprepare, hbind, hends⟩

theorem durable_after (h : session.Inside) (hkeeps : ¬ TakesOut lib session stmtProto) :
    (after lib session stmtProto).durable = session.durable := by
  obtain ⟨tx, htx, -⟩ := inside_after h hkeeps
  exact settled_meaning session (htx ▸ Option.some_ne_none tx)

theorem runStatement_after {conn : Connection σ} (hrw : conn.readOnly = false) :
    (runStatement lib generation conn stmtProto).2.session = after lib conn.session stmtProto :=
  (runStatement_meaning lib generation stmtProto hrw).2.2

theorem batchLoop_inside {conn : Connection σ} (hrw : conn.readOnly = false)
    (hinside : conn.session.Inside)
    (hkeep : KeepInside lib stopOnError conn.session statements) :
    (batchLoop lib stopOnError generation statements conn).2.2.session.durable =
      conn.session.durable := by
  induction statements generalizing conn with
  | nil => rfl
  | cons stmtProto more ih =>
    obtain ⟨hok, hrw', -⟩ := runStatement_meaning lib generation stmtProto hrw
    have hsession : (runStatement lib generation conn stmtProto).2.session = _ :=
      runStatement_after hrw
    obtain ⟨hkeeps, hmore⟩ := hkeep
    have hdurable := durable_after hinside hkeeps
    rw [← hsession] at hdurable
    cases hstop : stopOnError && !(meaning lib conn.session stmtProto).noticed.isOk with
    | true =>
      obtain ⟨rfl, hbad⟩ : stopOnError = true ∧
          (meaning lib conn.session stmtProto).noticed.isOk = false := by simpa using hstop
      obtain ⟨result, -, hloop⟩ := batchLoop_stops more (hok.trans hbad)
      rw [hloop, hdurable]
    | false =>
      obtain ⟨result, -, hloop⟩ := batchLoop_goes more (hok ▸ hstop)
      rw [hloop]
      refine (ih hrw' (hsession ▸ inside_after hinside hkeeps) ?_).trans hdurable
      exact hsession ▸ hmore hstop

theorem batchLoop_session {conn : Connection σ} (hrw : conn.readOnly = false) :
    (batchLoop lib false generation statements conn).2.2.session =
      statements.foldl (after lib) conn.session := by
  induction statements generalizing conn with
  | nil => rfl
  | cons stmtProto more ih =>
    obtain ⟨-, hrw', -⟩ := runStatement_meaning lib generation stmtProto hrw
    obtain ⟨result, -, hloop⟩ := batchLoop_goes more (Bool.false_and _)
    rw [hloop, List.foldl_cons]
    dsimp only
    rw [ih hrw', runStatement_after hrw]

theorem inside_begun {txMode : BatchTransactionMode} (hmode : txMode ≠ .none) :
    (begun txMode s).Inside := ⟨⟨s, [], true⟩, if_neg hmode, rfl⟩

end Loop

/-- Where the statements change the data and the last one commits them, the batch is not committed
and leaves the changed data. -/
theorem changed_of_commit {s : σ} {statements : List Statement} {last : Statement}
    {txMode : BatchTransactionMode} {generation : ℕ} (hmode : txMode ≠ .none)
    (hopen : lib.openDatabase false s = .ok ()) (hbegin : lib.begins txMode.locking s = .ok ())
    (hlast : after lib (statements.foldl (after lib) (begun txMode s)) last =
      ⟨(statements.foldl (after lib) (begun txMode s)).view, none⟩)
    (hchanged : (statements.foldl (after lib) (begun txMode s)).view ≠ s) :
    ∃ resp final, batch lib s (statements ++ [last]) txMode false generation = (.ok resp, final) ∧
      resp.committed = false ∧ final ≠ s := by
  have hsession : (batchLoop lib false generation (statements ++ [last])
      (started s txMode)).2.2.session = _ :=
    (batchLoop_session rfl).trans ((List.foldl_append ..).trans hlast)
  generalize hloop : batchLoop lib false generation (statements ++ [last]) (started s txMode) = out
    at hsession
  obtain ⟨results, hasError, conn⟩ := out
  dsimp only at hsession
  have hfalse : (endBatch lib true hasError false conn).1 = false := by
    rw [← Bool.not_eq_true, endBatch_committed, hsession]
    simp
  rw [batch_eq hopen fun _ ↦ hbegin, hloop]
  simp only [hmode, ne_eq, not_false_eq_true, decide_true]
  refine ⟨_, _, rfl, hfalse, ?_⟩
  rwa [endBatch_durable, hfalse, if_neg Bool.false_ne_true, hsession]

theorem sampleInsert_keepInside {session : Session (List Int64)} :
    ¬ TakesOut sampleSqlite session ⟨"INSERT INTO t VALUES (1)", none⟩ := by
  rintro ⟨prepared, bindings, hprepare, -, hends⟩
  obtain rfl : sampleInsert false 1 some = prepared := Except.ok.inj hprepare
  obtain ⟨e, hending⟩ := hends
  by_cases h : (1 : Int64) ∈ session.view <;> simp [h] at hending

end RsqliteRsync.Gateway.DatabaseEngine
