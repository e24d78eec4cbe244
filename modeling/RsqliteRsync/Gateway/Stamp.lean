import RsqliteRsync.Gateway.Handlers

namespace RsqliteRsync.Gateway

open Protocol Sql Sql.Proto

section Stamp

def StatementOutcome.stamp (generation : ℕ) : StatementOutcome → StatementOutcome
  | .executeResult resp => .executeResult { resp with generation := generation }
  | .queryResult resp => .queryResult { resp with generation := generation }

def StatementResult.stamp (generation : ℕ) (result : StatementResult) : StatementResult :=
  { result with result := result.result.map (.stamp generation) }

def BatchResponse.stamp (generation : ℕ) (resp : BatchResponse) : BatchResponse where
  results := resp.results.map (.stamp generation)
  generation := generation
  committed := resp.committed

/-- The same answer given in another generation. -/
def SqlGatewayServer.Reply.stamp (generation : ℕ) : Reply → Reply
  | .execute resp => .execute { resp with generation := generation }
  | .query resp => .query { resp with generation := generation }
  | .batch resp => .batch (resp.stamp generation)
  | .dropDatabase resp => .dropDatabase { resp with generation := generation }

end Stamp

namespace DatabaseEngine

variable {σ : Type} (lib : Sqlite σ) (g h : ℕ)

theorem firstStep_stamp (rows : List (List SqlValue)) (ending : Except SyncError Unit)
    (before after : Connection σ) : firstStep g rows ending before after =
      (firstStep h rows ending before after).map fun resp ↦ { resp with generation := g } := by
  cases rows with
  | nil => cases ending <;> rfl
  | cons row rows => rfl

theorem execute_stamp (s : σ) (stmtProto : Statement) :
    execute lib s stmtProto g =
      ((execute lib s stmtProto h).1.map fun resp ↦ { resp with generation := g },
        (execute lib s stmtProto h).2) := by
  unfold execute
  cases Connection.openConnection lib false s with
  | error e => rfl
  | ok conn =>
    dsimp only
    cases conn.prepare lib stmtProto.sql with
    | error e => rfl
    | ok prepared =>
      dsimp only
      cases bindParameters prepared stmtProto.parameters with
      | error e => rfl
      | ok bindings => exact congrArg (·, _) (firstStep_stamp g h _ _ _ _)

theorem query_stamp (s : σ) (stmtProto : Statement) (maxRows : ℕ) (isReplicaRead : Bool) :
    query lib s stmtProto maxRows g isReplicaRead =
      (query lib s stmtProto maxRows h isReplicaRead).map fun resp ↦
        { resp with generation := g } := by
  unfold query
  cases startQuery lib s stmtProto with
  | error e => rfl
  | ok start =>
    simp only [bind, Except.bind]
    cases queryLoop start.1 maxRows start.2.2 start.2.1 [] 0 with
    | error e => rfl
    | ok read => rfl

theorem answer_stamp (prepared : PreparedStatement σ) (rows : List (List SqlValue))
    (ending : Except SyncError Unit) (before after : Connection σ) :
    answer g prepared rows ending before after =
      (answer h prepared rows ending before after).map (.stamp g) := by
  unfold answer
  split_ifs
  · cases ending <;> rfl
  · rw [firstStep_stamp g h]
    cases firstStep h rows ending before after <;> rfl

theorem runStatement_stamp (conn : Connection σ) (stmtProto : Statement) :
    runStatement lib g conn stmtProto =
      ((runStatement lib h conn stmtProto).1.map (.stamp g),
        (runStatement lib h conn stmtProto).2) := by
  unfold runStatement
  cases conn.prepare lib stmtProto.sql with
  | error e => rfl
  | ok prepared =>
    dsimp only
    cases bindParameters prepared stmtProto.parameters with
    | error e => rfl
    | ok bindings => exact congrArg (·, _) (answer_stamp g h _ _ _ _ _)

theorem batchLoop_stamp (stopOnError : Bool) (statements : List Statement) (conn : Connection σ) :
    batchLoop lib stopOnError g statements conn =
      ((batchLoop lib stopOnError h statements conn).1.map (.stamp g),
        (batchLoop lib stopOnError h statements conn).2) := by
  induction statements generalizing conn with
  | nil => rfl
  | cons stmtProto more ih =>
    unfold batchLoop
    rw [runStatement_stamp lib g h]
    rcases runStatement lib h conn stmtProto with ⟨result, conn'⟩
    cases result with
    | error e =>
      simp only [Except.map]
      split_ifs
      · rfl
      · rw [ih conn']
        rfl
    | ok outcome =>
      simp only [Except.map]
      rw [ih conn']
      rfl

theorem batch_stamp (s : σ) (statements : List Statement) (txMode : BatchTransactionMode)
    (stopOnError : Bool) :
    batch lib s statements txMode stopOnError g =
      ((batch lib s statements txMode stopOnError h).1.map (.stamp g),
        (batch lib s statements txMode stopOnError h).2) := by
  unfold batch
  cases Connection.openConnection lib false s with
  | error e => rfl
  | ok conn =>
    dsimp only
    rcases (if txMode ≠ .none then conn.exec lib (.begin txMode.locking) else (.ok (), conn))
      with ⟨_ | _, conn'⟩
    · rfl
    · dsimp only
      rw [batchLoop_stamp lib g h]
      rfl

end DatabaseEngine

end RsqliteRsync.Gateway
