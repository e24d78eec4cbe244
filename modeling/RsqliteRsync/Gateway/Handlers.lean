import RsqliteRsync.Foundation.Fallible
import RsqliteRsync.Gateway.Access
import RsqliteRsync.Gateway.Drop
import RsqliteRsync.Gateway.Execute
import RsqliteRsync.Gateway.Listing

namespace RsqliteRsync.Gateway

open Ha Protocol Sql Sql.Proto Foundation

def BatchTransactionMode.ofRequest (transactionMode : ℤ) : BatchTransactionMode :=
  if transactionMode = 0 then .none
  else if transactionMode = 2 then .immediate
  else if transactionMode = 3 then .exclusive
  else .deferred

structure ExecuteRequest where
  database : String
  statement : Option Statement

structure QueryRequest where
  database : String
  statement : Option Statement
  consistency : ℤ
  maxRows : ℕ
  chunkSize : ℕ

structure BatchRequest where
  database : String
  statements : List Statement
  transactionMode : ℤ
  stopOnError : Bool

structure DropDatabaseRequest where
  database : String

structure DropDatabaseResponse where
  existed : Bool
  generation : ℕ

structure LeaseStatus where
  isHeld : Bool
  holderNodeId : String
  generation : ℕ
  renewedAtSecs : ℕ
  ttlSecs : ℕ
  isExpired : Bool

structure ClusterStatusResponse where
  nodeId : String
  role : ℤ
  localGeneration : ℕ
  lease : Option LeaseStatus
  currentLeaderId : String
  currentLeaderEndpoint : String
  databases : List DatabaseInfo
  uptimeSecs : ℕ
  version : String

def Status.internal (message : String) : Status := ⟨.internal, message, []⟩

def Status.invalidArgument (message : String) : Status := ⟨.invalidArgument, message, []⟩

/-- The error of the engine as the client gets it. -/
def orInternal {α : Type} (result : Except SyncError α) : Except Status α :=
  result.mapError fun e ↦ .internal e.display

namespace SqlGatewayServer

variable {σ : Type} (lib : Sqlite σ) (state : HaSharedState) (nowSecs : ℕ)

/-- The handlers get the data of the database that the request names, and return what they leave of
it. -/
def execute (s : σ) (req : ExecuteRequest) : Except Status ExecuteResponse × σ :=
  match checkWriteAccess state nowSecs with
  | .error status => (.error status, s)
  | .ok generation =>
    match req.statement with
    | none => (.error (.invalidArgument "missing statement in execute request"), s)
    | some stmt =>
      let (resp, s) := DatabaseEngine.execute lib s stmt generation
      (orInternal resp, s)

def query (s : σ) (req : QueryRequest) : Except Status QueryResponse := do
  let (generation, isReplica) ← checkReadAccess state (.ofRequest req.consistency) nowSecs
  match req.statement with
  | none => .error (.invalidArgument "missing statement in query request")
  | some stmt => orInternal (DatabaseEngine.query lib s stmt req.maxRows generation isReplica)

def streamQuery (s : σ) (req : QueryRequest) : Except Status (List QueryChunk) := do
  let _ ← checkReadAccess state (.ofRequest req.consistency) nowSecs
  match req.statement with
  | none => .error (.invalidArgument "missing statement in stream query request")
  | some stmt =>
    let chunkSize := if 0 < req.chunkSize then req.chunkSize else 100
    orInternal (DatabaseEngine.streamQueryChunks lib s stmt req.maxRows chunkSize)

def batch (s : σ) (req : BatchRequest) : Except Status BatchResponse × σ :=
  match checkWriteAccess state nowSecs with
  | .error status => (.error status, s)
  | .ok generation =>
    let (resp, s) := DatabaseEngine.batch lib s req.statements (.ofRequest req.transactionMode)
      req.stopOnError generation
    (orInternal resp, s)

def dropDatabase (dataDir : List Char) (deny : Denials) (engine : DatabaseEngine) (t : FileTree)
    (req : DropDatabaseRequest) : Except Status DropDatabaseResponse × DatabaseEngine × FileTree :=
  match checkWriteAccess state nowSecs with
  | .error status => (.error status, engine, t)
  | .ok generation =>
    let (existed, engine, t) := engine.dropDatabase dataDir deny t req.database
    ((orInternal existed).map (⟨·, generation⟩), engine, t)

/-- `databases` is what the listing of the data directory returns. -/
def getClusterStatus (databases : Except SyncError (List DatabaseInfo)) (uptimeSecs : ℕ)
    (version : String) : ClusterStatusResponse where
  nodeId := state.nodeId
  role := if state.isWriter nowSecs then 1 else 2
  localGeneration := state.generation
  lease := state.leaseRecord.map fun l ↦
    ⟨true, l.holderNodeId, l.generation, l.renewedAtSecs, l.ttlSecs, l.isExpired nowSecs⟩
  currentLeaderId := state.activeLeaderId.getD ""
  currentLeaderEndpoint := state.activeLeaderEndpoint.getD ""
  databases := databases.toOption.getD []
  uptimeSecs := uptimeSecs
  version := version

/-- What the handlers can answer a request with. -/
inductive Reply
  | execute (resp : ExecuteResponse)
  | query (resp : QueryResponse)
  | batch (resp : BatchResponse)
  | dropDatabase (resp : DropDatabaseResponse)

/-- The generation of an answer that is not a read of a replica. -/
def Reply.generation : Reply → Option ℕ
  | .execute resp => some resp.generation
  | .query resp => if resp.isReplicaRead then none else some resp.generation
  | .batch resp => some resp.generation
  | .dropDatabase resp => some resp.generation

/-- The gateway of a node in this state can give this answer. -/
inductive Serves (state : HaSharedState) (nowSecs : ℕ) : Reply → Prop
  | execute {σ : Type} {lib : Sqlite σ} {s : σ} {req : ExecuteRequest} {resp : ExecuteResponse} :
      (SqlGatewayServer.execute lib state nowSecs s req).1 = .ok resp →
      Serves state nowSecs (.execute resp)
  | query {σ : Type} {lib : Sqlite σ} {s : σ} {req : QueryRequest} {resp : QueryResponse} :
      SqlGatewayServer.query lib state nowSecs s req = .ok resp → Serves state nowSecs (.query resp)
  | batch {σ : Type} {lib : Sqlite σ} {s : σ} {req : BatchRequest} {resp : BatchResponse} :
      (SqlGatewayServer.batch lib state nowSecs s req).1 = .ok resp →
      Serves state nowSecs (.batch resp)
  | dropDatabase {dataDir : List Char} {deny : Denials} {engine : DatabaseEngine} {t : FileTree}
      {req : DropDatabaseRequest} {resp : DropDatabaseResponse} :
      (SqlGatewayServer.dropDatabase state nowSecs dataDir deny engine t req).1 = .ok resp →
      Serves state nowSecs (.dropDatabase resp)

theorem orInternal_ok {α : Type} {result : Except SyncError α} {a : α}
    (h : orInternal result = .ok a) : result = .ok a := by
  cases result with
  | error e => cases h
  | ok b => exact congrArg _ (Except.ok.inj h)

variable {lib} {state nowSecs} {s : σ} {generation : ℕ}

/-- Asked the same, the two read handlers give the same error or the same rows. -/
theorem streamQuery_agrees {req : QueryRequest} {stmt : Statement} {isReplica : Bool}
    (hcheck : checkReadAccess state (.ofRequest req.consistency) nowSecs =
      .ok (generation, isReplica))
    (hstmt : req.statement = some stmt) :
    ∃ resp chunks,
      DatabaseEngine.Agree (if 0 < req.chunkSize then req.chunkSize else 100) resp chunks ∧
      query lib state nowSecs s req = orInternal resp ∧
      streamQuery lib state nowSecs s req = orInternal chunks := by
  have hsize : 0 < if 0 < req.chunkSize then req.chunkSize else 100 := by
    split_ifs with hpos
    · exact hpos
    · decide
  refine ⟨DatabaseEngine.query lib s stmt req.maxRows generation isReplica,
    DatabaseEngine.streamQueryChunks lib s stmt req.maxRows
      (if 0 < req.chunkSize then req.chunkSize else 100), ?_, ?_, ?_⟩
  · unfold DatabaseEngine.query DatabaseEngine.streamQueryChunks
    cases DatabaseEngine.startQuery lib s stmt with
    | error e => exact .failed e
    | ok started => exact DatabaseEngine.agree_of_started started hsize
  · simp only [query, hcheck, hstmt, Bind.bind, Except.bind]
  · simp only [streamQuery, hcheck, hstmt, Bind.bind, Except.bind]

theorem firstStep_generation {rows : List (List SqlValue)} {ending : Except SyncError Unit}
    {before after : Connection σ} {resp : ExecuteResponse}
    (h : DatabaseEngine.firstStep generation rows ending before after = .ok resp) :
    resp.generation = generation := by
  unfold DatabaseEngine.firstStep at h
  split at h
  · cases h
  · exact congrArg _ (Except.ok.inj h.symm)
  · exact congrArg _ (Except.ok.inj h.symm)

theorem engine_execute_generation {stmt : Statement} {resp : ExecuteResponse}
    (h : (DatabaseEngine.execute lib s stmt generation).1 = .ok resp) :
    resp.generation = generation := by
  unfold DatabaseEngine.execute at h
  split at h
  · cases h
  · split at h
    · cases h
    · split at h
      · cases h
      · exact firstStep_generation h

theorem engine_batch_generation {statements : List Statement} {txMode : BatchTransactionMode}
    {stopOnError : Bool} {resp : BatchResponse}
    (h : (DatabaseEngine.batch lib s statements txMode stopOnError generation).1 = .ok resp) :
    resp.generation = generation := by
  unfold DatabaseEngine.batch at h
  split at h
  · cases h
  · dsimp only at h
    split at h
    · cases h
    · exact congrArg _ (Except.ok.inj h.symm)

theorem engine_query_generation {stmt : Statement} {maxRows : ℕ} {isReplica : Bool}
    {resp : QueryResponse}
    (h : DatabaseEngine.query lib s stmt maxRows generation isReplica = .ok resp) :
    resp.generation = generation ∧ resp.isReplicaRead = isReplica := by
  unfold DatabaseEngine.query at h
  obtain ⟨start, -, h⟩ := bind_ok h
  obtain ⟨read, -, h⟩ := bind_ok h
  cases h
  exact ⟨rfl, rfl⟩

theorem Serves.authoritative {reply : Reply} (h : Serves state nowSecs reply)
    (hgeneration : reply.generation = some generation) :
    Authoritative state nowSecs generation := by
  cases h with
  | @execute σ lib s req resp h =>
    cases hgeneration
    unfold SqlGatewayServer.execute at h
    split at h
    · cases h
    · rename_i hcheck
      split at h
      · cases h
      · rw [engine_execute_generation (orInternal_ok h)]
        exact .write hcheck
  | @query σ lib s req resp h =>
    unfold SqlGatewayServer.query at h
    obtain ⟨⟨checked, isReplica⟩, hcheck, h⟩ := bind_ok h
    dsimp only at h
    split at h
    · cases h
    · obtain ⟨hresp, hreplica⟩ := engine_query_generation (orInternal_ok h)
      rw [Reply.generation] at hgeneration
      split_ifs at hgeneration with hread
      cases hgeneration
      rw [hreplica, Bool.not_eq_true] at hread
      rw [hresp]
      exact .read (hread ▸ hcheck)
  | @batch σ lib s req resp h =>
    cases hgeneration
    unfold SqlGatewayServer.batch at h
    split at h
    · cases h
    · rename_i hcheck
      rw [engine_batch_generation (orInternal_ok h)]
      exact .write hcheck
  | @dropDatabase dataDir deny engine t req resp h =>
    cases hgeneration
    unfold SqlGatewayServer.dropDatabase at h
    split at h
    · cases h
    · rename_i hcheck
      rcases hdrop : engine.dropDatabase dataDir deny t req.database with ⟨existed, engine', t'⟩
      rw [hdrop] at h
      obtain ⟨b, -, rfl⟩ := map_ok h
      exact .write hcheck

end SqlGatewayServer

end RsqliteRsync.Gateway
