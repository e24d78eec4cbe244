import RsqliteRsync.Client.Client
import RsqliteRsync.Gateway.Stamp

namespace RsqliteRsync.Client

open Ha Protocol Gateway Gateway.SqlGatewayServer Sql Sql.Proto

section Errors

def codeDebug : Code → String
  | .ok => "Ok"
  | .cancelled => "Cancelled"
  | .unknown => "Unknown"
  | .invalidArgument => "InvalidArgument"
  | .deadlineExceeded => "DeadlineExceeded"
  | .notFound => "NotFound"
  | .alreadyExists => "AlreadyExists"
  | .permissionDenied => "PermissionDenied"
  | .resourceExhausted => "ResourceExhausted"
  | .failedPrecondition => "FailedPrecondition"
  | .aborted => "Aborted"
  | .outOfRange => "OutOfRange"
  | .unimplemented => "Unimplemented"
  | .internal => "Internal"
  | .unavailable => "Unavailable"
  | .dataLoss => "DataLoss"
  | .unauthenticated => "Unauthenticated"

/-- `source` is what the transport says of an endpoint that fails. -/
def ClientError.display (source : String → String) : ClientError → String
  | .invalidEndpoint endpoint => s!"invalid endpoint '{endpoint}': {source endpoint}"
  | .connect endpoint => s!"failed to connect to '{endpoint}': {source endpoint}"
  | .discovery message => s!"leader discovery failed: {message}"
  | .rpc status => s!"gRPC call failed (code: {codeDebug status.code}): {status.message}"
  | .retriesExhausted attempts error =>
    s!"gave up after {attempts} attempt(s): {error.display source}"

def ClientError.toSyncError (source : String → String) (error : ClientError) : SyncError :=
  match error with
  | .connect _ | .retriesExhausted _ (.connect _) => .network (error.display source)
  | other => .protocol (other.display source)

end Errors

inductive Operation
  | execute (sql : String) (parameters : Option Parameters)
  | query (sql : String) (parameters : Option Parameters) (maxRows : ℕ)
      (consistency : ConsistencyLevel)
  | batch (statements : List Statement) (txMode : BatchTransactionMode) (stopOnError : Bool)

def consistencyAsI32 : ConsistencyLevel → ℤ
  | .strong => 0
  | .eventual => 1

def txModeAsI32 : BatchTransactionMode → ℤ
  | .none => 0
  | .deferred => 1
  | .immediate => 2
  | .exclusive => 3

namespace Operation

variable {σ : Type} (lib : Sqlite σ)

def inProcess (s : σ) : Operation → Except SyncError Reply × σ
  | .execute sql parameters =>
    let (resp, s) := DatabaseEngine.execute lib s ⟨sql, parameters⟩ 1
    (resp.map .execute, s)
  | .query sql parameters maxRows _ =>
    ((DatabaseEngine.query lib s ⟨sql, parameters⟩ maxRows 1 false).map .query, s)
  | .batch statements txMode stopOnError =>
    let (resp, s) := DatabaseEngine.batch lib s statements txMode stopOnError 1
    (resp.map .batch, s)

def handled (database : String) (state : HaSharedState) (nowSecs : ℕ) (s : σ) :
    Operation → Except Status Reply × σ
  | .execute sql parameters =>
    let (resp, s) := SqlGatewayServer.execute lib state nowSecs s
      ⟨database, some ⟨sql, parameters⟩⟩
    (resp.map .execute, s)
  | .query sql parameters maxRows consistency =>
    ((SqlGatewayServer.query lib state nowSecs s
      ⟨database, some ⟨sql, parameters⟩, consistencyAsI32 consistency, maxRows, 0⟩).map .query, s)
  | .batch statements txMode stopOnError =>
    let (resp, s) := SqlGatewayServer.batch lib state nowSecs s
      ⟨database, statements, txModeAsI32 txMode, stopOnError⟩
    (resp.map .batch, s)

def isIdempotent : Operation → Bool
  | .query _ _ _ _ => true
  | .execute _ _ | .batch _ _ _ => false

variable {lib} {database : String} {state : HaSharedState} {nowSecs : ℕ}

theorem handled_of_isWriter (h : state.isWriter nowSecs = true) (s : σ) (op : Operation) :
    op.handled lib database state nowSecs s =
      (orInternal ((op.inProcess lib s).1.map (.stamp state.generation)),
        (op.inProcess lib s).2) := by
  have hwrite : checkWriteAccess state nowSecs = .ok state.generation := by
    simp [checkWriteAccess, h]
  have hread (consistency : ConsistencyLevel) :
      checkReadAccess state consistency nowSecs = .ok (state.generation, false) := by
    cases consistency <;> simp [checkReadAccess, h]
  cases op with
  | execute sql parameters =>
    simp only [handled, inProcess, SqlGatewayServer.execute, hwrite,
      DatabaseEngine.execute_stamp lib state.generation 1]
    cases (DatabaseEngine.execute lib s ⟨sql, parameters⟩ 1).1 <;> rfl
  | query sql parameters maxRows consistency =>
    simp only [handled, inProcess, SqlGatewayServer.query, hread, bind, Except.bind,
      DatabaseEngine.query_stamp lib state.generation 1]
    cases DatabaseEngine.query lib s ⟨sql, parameters⟩ maxRows 1 false <;> rfl
  | batch statements txMode stopOnError =>
    have hmode : BatchTransactionMode.ofRequest (txModeAsI32 txMode) = txMode := by
      cases txMode <;> rfl
    simp only [handled, inProcess, SqlGatewayServer.batch, hwrite, hmode,
      DatabaseEngine.batch_stamp lib state.generation 1]
    cases (DatabaseEngine.batch lib s statements txMode stopOnError 1).1 <;> rfl

end Operation

/-- What a call meets: the state of the gateway and its clock, and what else there is for the client
to talk to. -/
structure Moment where
  state : HaSharedState
  nowSecs : ℕ
  around : Surroundings Reply

section Backends

variable {σ : Type} (lib : Sqlite σ)

def localRun (s : σ) : List Operation → List (Except SyncError Reply) × σ
  | [] => ([], s)
  | op :: more =>
    let (result, s) := op.inProcess lib s
    let (results, s) := localRun s more
    (result :: results, s)

variable (fromShared : String → Bool) (config : ClientConfig) (source : String → String)
  (leader database : String)

/-- Each request that reaches the gateway is carried out, in order: its token is accepted, and it is
answered in time and within the size that the client decodes. -/
def answering (moment : Moment) (op : Operation) (s : σ) (attempt : ℕ) : Surroundings Reply :=
  let apply (s : σ) : σ := (op.handled lib database moment.state moment.nowSecs s).2
  { moment.around with
    rpc := Function.update moment.around.rpc leader
      (op.handled lib database moment.state moment.nowSecs (apply^[attempt - 1] s)).1 }

def remoteCall (moment : Moment) (client : SqlGatewayClient) (s : σ) (op : Operation) :
    Except SyncError Reply × SqlGatewayClient × σ :=
  let apply (s : σ) : σ := (op.handled lib database moment.state moment.nowSecs s).2
  let call := client.retryLoop fromShared config op.isIdempotent
    (answering lib leader database moment op s) 0 config.initialBackoffMs
  (call.result.mapError (ClientError.toSyncError source), call.client,
    apply^[(call.rpcs.filter (·.endpoint = leader)).length] s)

def remoteRun (client : SqlGatewayClient) (s : σ) :
    List (Operation × Moment) → List (Except SyncError Reply) × σ
  | [] => ([], s)
  | (op, moment) :: more =>
    let (result, client, s) :=
      remoteCall lib fromShared config source leader database moment client s op
    let (results, s) := remoteRun client s more
    (result :: results, s)

/-- The gateway is the writer, and discovery leads to it. -/
structure Moment.Serves (moment : Moment) : Prop where
  writer : moment.state.isWriter moment.nowSecs = true
  discovered : discoverLeader fromShared config.discovery moment.around = .ok leader
  connects : moment.around.reachable leader = true

def asRemote (generation : ℕ) : Except SyncError Reply → Except SyncError Reply
  | .ok reply => .ok (reply.stamp generation)
  | .error e => .error (.protocol s!"gRPC call failed (code: Internal): {e.display}")

variable {lib fromShared config source leader database} {moment : Moment}

def Attached (leader : String) (client : SqlGatewayClient) : Prop :=
  client = .new ∨ client = ⟨some leader, some leader⟩

theorem getOrConnect_of_attached {client : SqlGatewayClient} (now : Surroundings Reply)
    (h : Attached leader client) (hleader : fromShared leader = true)
    (hfound : discoverLeader fromShared config.discovery now = .ok leader)
    (hconnects : now.reachable leader = true) :
    client.getOrConnect fromShared config now = (.ok leader, ⟨some leader, some leader⟩) := by
  rcases h with rfl | rfl
  · simp [SqlGatewayClient.getOrConnect, SqlGatewayClient.new, hfound, hleader, hconnects]
  · rfl

theorem not_shouldRetry_internal (idempotent : Bool) (message : String) :
    shouldRetry idempotent (.internal message) = false := by
  simp [shouldRetry, isNotLeaderStatus, Status.internal]

theorem retryLoop_once {client client' : SqlGatewayClient} {idempotent : Bool}
    {script : ℕ → Surroundings Reply} {result : Except SyncError Reply}
    (hconnect : client.getOrConnect fromShared config (script 1) = (.ok leader, client'))
    (hanswer : (script 1).rpc leader = orInternal result) (backoffMs : ℕ) :
    client.retryLoop fromShared config idempotent script 0 backoffMs =
      ⟨(orInternal result).mapError .rpc, client', 1, [⟨1, leader, orInternal result⟩], []⟩ := by
  unfold SqlGatewayClient.retryLoop
  simp only [Nat.zero_add, hconnect, hanswer]
  cases result with
  | ok reply => rfl
  | error e =>
    simp only [orInternal, Except.mapError, not_shouldRetry_internal]
    rfl

theorem mapError_orInternal (generation : ℕ) (result : Except SyncError Reply) :
    ((orInternal (result.map (.stamp generation))).mapError .rpc).mapError
      (ClientError.toSyncError source) = asRemote generation result := by
  cases result <;> rfl

theorem remoteCall_eq (hleader : fromShared leader = true)
    (hserves : moment.Serves fromShared config leader) {client : SqlGatewayClient}
    (hclient : Attached leader client) (s : σ) (op : Operation) :
    remoteCall lib fromShared config source leader database moment client s op =
      (asRemote moment.state.generation (op.inProcess lib s).1, ⟨some leader, some leader⟩,
        (op.inProcess lib s).2) := by
  have hhandled : op.handled lib database moment.state moment.nowSecs s = _ :=
    op.handled_of_isWriter hserves.writer s
  have hconnect := getOrConnect_of_attached (answering lib leader database moment op s 1) hclient
    hleader hserves.discovered hserves.connects
  have hanswer : (answering lib leader database moment op s 1).rpc leader = _ :=
    (Function.update_self ..).trans (congrArg Prod.fst hhandled)
  simp only [remoteCall, retryLoop_once hconnect hanswer, List.filter_cons, decide_true, if_true,
    List.filter_nil, List.length_singleton, Function.iterate_one, hhandled, mapError_orInternal]

section Sample

def writerState (generation : ℕ) : HaSharedState :=
  ⟨"a", .writer, generation, none, none, some ⟨"a", generation, 100, 10⟩, false⟩

def writerMoment (generation : ℕ) : Moment :=
  ⟨writerState generation, 105, fun _ ↦ false, .error "none", fun _ ↦ true,
    fun _ ↦ .error ⟨.unavailable, "", []⟩⟩

theorem serves_writerMoment (generation : ℕ) :
    (writerMoment generation).Serves (fun _ ↦ true) {} "http://127.0.0.1:50051" where
  writer := by
    have htime : 105 ≤ Foundation.MachineInt.saturate 64 (100 + 10) := by decide
    exact HaSharedState.isWriter_iff.mpr ⟨rfl, _, rfl, htime, rfl, rfl⟩
  discovered := by
    have hnormal : normalizeEndpoint "http://127.0.0.1:50051" = "http://127.0.0.1:50051" := by
      decide
    exact congrArg Except.ok hnormal
  connects := rfl

def sampleSession : List (Operation × Moment) :=
  [(.execute "INSERT INTO t VALUES (1)" none, writerMoment 7),
    (.execute "INSERT INTO t VALUES (1)" none, writerMoment 7),
    (.query "SELECT x FROM t" none 0 .strong, writerMoment 8)]

end Sample

end Backends

end RsqliteRsync.Client
