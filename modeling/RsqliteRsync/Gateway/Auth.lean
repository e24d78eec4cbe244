import RsqliteRsync.Gateway.Handlers
import RsqliteRsync.Gateway.Paths

namespace RsqliteRsync.Gateway

open Ha Protocol Foundation

def constantTimeEq (a b : List UInt8) : Bool :=
  if a.length ≠ b.length then false
  else (a.zip b).foldl (fun acc pair ↦ acc ||| (pair.1 ^^^ pair.2)) 0 == 0

def Status.unauthenticated (message : String) : Status := ⟨.unauthenticated, message, []⟩

/-- The one header that is read. -/
structure Metadata where
  authorization : Option MetadataValue

namespace Metadata

def stripBearer (value : String) : Option String :=
  (value.toList.dropPrefix? "Bearer ".toList).map String.ofList

def bearer (metadata : Metadata) : Option String := do
  let header ← metadata.authorization
  let value ← header.toStr
  stripBearer value

end Metadata

structure AuthConfig where
  token : Option String

namespace AuthConfig

def required (token : String) : AuthConfig := ⟨some token⟩

def disabled : AuthConfig := ⟨none⟩

def check (auth : AuthConfig) (metadata : Metadata) : Except Status Unit :=
  match auth.token with
  | none => .ok ()
  | some expected =>
    match metadata.authorization with
    | none => .error (.unauthenticated "missing authorization header")
    | some header =>
      match header.toStr with
      | none => .error (.unauthenticated "authorization header is not valid UTF-8")
      | some value =>
        match Metadata.stripBearer value with
        | none => .error (.unauthenticated "authorization header must use the Bearer scheme")
        | some provided =>
          if constantTimeEq (asBytes provided) (asBytes expected) then .ok ()
          else .error (.unauthenticated "invalid bearer token")

def checkRequestOrToken (auth : AuthConfig) (metadata : Metadata) (payloadToken : Option String) :
    Except Status Unit :=
  match auth.token with
  | none => .ok ()
  | some expected =>
    if metadata.bearer.any fun provided ↦ constantTimeEq (asBytes provided) (asBytes expected) then
      .ok ()
    else if payloadToken.any fun token ↦
        token ≠ "" && constantTimeEq (asBytes token) (asBytes expected) then
      .ok ()
    else .error (.unauthenticated "missing or invalid authorization credentials")

/-- How the command line configures it. -/
def ofArgs (token : Option String) (insecureNoAuth : Bool) : Except SyncError AuthConfig :=
  match token, insecureNoAuth with
  | some _, true => .error (.protocol
      "--ha-grpc-auth-token and --ha-grpc-insecure-no-auth are mutually exclusive")
  | some token, false =>
    if trim token = "" then .error (.protocol "--ha-grpc-auth-token must not be empty")
    else .ok (required token)
  | none, true => .ok disabled
  | none, false => .error (.protocol ("--ha-grpc-auth-token (or --ha-grpc-insecure-no-auth to " ++
      "explicitly run without authentication) is required when --ha-grpc-bind is set"))

end AuthConfig

inductive ClientRole
  | replica
  | origin
  deriving DecidableEq

def ClientRole.ofRequest (clientRole : ℤ) : Option ClientRole :=
  if clientRole = 1 then some .replica else if clientRole = 2 then some .origin else none

structure SyncInit where
  database : String
  clientRole : ℤ
  authToken : String

/-- How a replication stream begins. -/
inductive FirstMessage
  | failed (error : String)
  | closed
  | init (init : SyncInit)
  | other

def FirstMessage.isInit : FirstMessage → Bool
  | .init _ => true
  | _ => false

structure SyncSession where
  path : List Char
  database : String
  role : ClientRole

/-- Up to where a session starts. -/
def ReplicationServer.sync (auth : AuthConfig) (dataDir : List Char) (deny : Denials)
    (haState : Option HaSharedState) (nowSecs : ℕ) (t : FileTree) (metadata : Metadata) :
    FirstMessage → Except Status SyncSession × FileTree
  | .failed error =>
    (.error (.internal s!"failed to receive initial sync message: {error}"), t)
  | .closed => (.error (.invalidArgument "client closed stream before sending SyncInit"), t)
  | .other => (.error (.invalidArgument "first message on replication stream must be SyncInit"), t)
  | .init init =>
    match auth.checkRequestOrToken metadata (some init.authToken) with
    | .error status => (.error status, t)
    | .ok () =>
      match DatabaseEngine.resolveDbPath dataDir deny t init.database with
      | (.error e, t) => (.error (.invalidArgument
          s!"invalid database name '{init.database}': {e.display}"), t)
      | (.ok path, t) =>
        match ClientRole.ofRequest init.clientRole with
        | none => (.error (.invalidArgument
            "client_role must be CLIENT_ROLE_REPLICA or CLIENT_ROLE_ORIGIN"), t)
        | some role =>
          if role = .origin ∧ haState.any (·.isWriter nowSecs) then (.error activeWriterStatus, t)
          else (.ok ⟨path, init.database, role⟩, t)

section Equality

theorem foldl_differences (pairs : List (UInt8 × UInt8)) (acc : UInt8) :
    pairs.foldl (fun acc pair ↦ acc ||| (pair.1 ^^^ pair.2)) acc = 0 ↔
      acc = 0 ∧ ∀ pair ∈ pairs, pair.1 = pair.2 := by
  induction pairs generalizing acc with
  | nil => simp
  | cons pair pairs ih =>
    rw [List.foldl_cons, ih, UInt8.or_eq_zero_iff, UInt8.xor_eq_zero_iff, List.forall_mem_cons,
      and_assoc]

theorem constantTimeEq_iff {a b : List UInt8} : constantTimeEq a b = true ↔ a = b := by
  have hzip : a = b ↔ a.length = b.length ∧ ∀ pair ∈ a.zip b, pair.1 = pair.2 := by
    rw [← List.forall₂_eq_eq_eq, List.forall₂_iff_zip, Prod.forall]
  unfold constantTimeEq
  split_ifs with hlength
  · exact iff_of_false not_false fun h ↦ hlength (congrArg List.length h)
  · rw [beq_iff_eq, foldl_differences, hzip]
    exact and_congr_left fun _ ↦ iff_of_true rfl (not_not.mp hlength)

theorem asBytes_inj {s t : String} : asBytes s = asBytes t ↔ s = t := by
  refine ⟨fun h ↦ String.toByteArray_inj.mp ?_, congrArg asBytes⟩
  exact ByteArray.ext (Array.toList_inj.mp h)

end Equality

namespace Metadata

def CarriesBearer (metadata : Metadata) (token : String) : Prop :=
  metadata.authorization = some (.ascii ("Bearer " ++ token))

instance (metadata : Metadata) (token : String) : Decidable (metadata.CarriesBearer token) :=
  inferInstanceAs (Decidable (_ = _))

theorem stripBearer_eq_some_iff {value token : String} :
    stripBearer value = some token ↔ value = "Bearer " ++ token := by
  rw [stripBearer, Option.map_eq_some_iff]
  constructor
  · rintro ⟨chars, hchars, rfl⟩
    obtain ⟨start, happend, hstart⟩ := List.dropPrefix?_eq_some_iff.mp hchars
    rw [← String.toList_inj, happend, eq_of_beq hstart, String.toList_append]
    exact congrArg _ String.toList_ofList.symm
  · rintro rfl
    have happend : ("Bearer " ++ token).toList = "Bearer ".toList ++ token.toList :=
      String.toList_append
    exact ⟨token.toList, List.dropPrefix?_eq_some_iff.mpr ⟨_, happend, beq_self_eq_true _⟩,
      String.ofList_toList⟩

theorem bearer_eq_some_iff {metadata : Metadata} {token : String} :
    metadata.bearer = some token ↔ metadata.CarriesBearer token := by
  obtain ⟨_ | ⟨text⟩ | ⟨bytes⟩⟩ := metadata
  · simp [bearer, CarriesBearer]
  · simp [bearer, CarriesBearer, MetadataValue.toStr, stripBearer_eq_some_iff]
  · simp [bearer, CarriesBearer, MetadataValue.toStr]

end Metadata

namespace AuthConfig

variable {token : String}

theorem check_disabled (metadata : Metadata) : disabled.check metadata = .ok () := rfl

theorem checkRequestOrToken_disabled (metadata : Metadata) (payloadToken : Option String) :
    disabled.checkRequestOrToken metadata payloadToken = .ok () := rfl

theorem check_of_carries {metadata : Metadata} (h : metadata.CarriesBearer token) :
    (required token).check metadata = .ok () := by
  have hstrip := Metadata.stripBearer_eq_some_iff.mpr (Eq.refl ("Bearer " ++ token))
  have heq := constantTimeEq_iff.mpr (Eq.refl (asBytes token))
  unfold Metadata.CarriesBearer at h
  simp [check, required, h, MetadataValue.toStr, hstrip, heq]

theorem check_of_not_carries {metadata : Metadata} (h : ¬ metadata.CarriesBearer token) :
    ∃ message, (required token).check metadata = .error (.unauthenticated message) := by
  rw [← Metadata.bearer_eq_some_iff] at h
  simp only [check, required]
  split
  · exact ⟨_, rfl⟩
  · rename_i header hheader
    split
    · exact ⟨_, rfl⟩
    · rename_i value hvalue
      split
      · exact ⟨_, rfl⟩
      · rename_i provided hprovided
        refine ⟨_, if_neg fun heq ↦ h ?_⟩
        have hbearer : metadata.bearer = some provided := by
          simp [Metadata.bearer, hheader, hvalue, hprovided]
        rw [hbearer, asBytes_inj.mp (constantTimeEq_iff.mp heq)]

theorem checkRequestOrToken_of_carries {metadata : Metadata} {payloadToken : String}
    (htoken : token ≠ "") (h : metadata.CarriesBearer token ∨ payloadToken = token) :
    (required token).checkRequestOrToken metadata (some payloadToken) = .ok () := by
  have heq := constantTimeEq_iff.mpr (Eq.refl (asBytes token))
  rcases h with h | rfl
  · simp [checkRequestOrToken, required, Metadata.bearer_eq_some_iff.mpr h, heq]
  · simp [checkRequestOrToken, required, htoken, heq]

theorem checkRequestOrToken_of_not_carries {metadata : Metadata} {payloadToken : String}
    (h : ¬ (metadata.CarriesBearer token ∨ payloadToken = token)) :
    ∃ message, (required token).checkRequestOrToken metadata (some payloadToken) =
      .error (.unauthenticated message) := by
  obtain ⟨hheader, hpayload⟩ := not_or.mp h
  rw [← Metadata.bearer_eq_some_iff] at hheader
  refine ⟨_, (if_neg fun hany ↦ hheader ?_).trans (if_neg fun hany ↦ hpayload ?_)⟩
  · cases hbearer : metadata.bearer with
    | none =>
      rw [hbearer] at hany
      cases hany
    | some provided =>
      rw [hbearer, Option.any_some] at hany
      rw [asBytes_inj.mp (constantTimeEq_iff.mp hany)]
  · rw [Option.any_some, Bool.and_eq_true] at hany
    exact asBytes_inj.mp (constantTimeEq_iff.mp hany.2)

theorem ofArgs_some {insecureNoAuth : Bool} {auth : AuthConfig}
    (h : ofArgs (some token) insecureNoAuth = .ok auth) : auth = required token ∧ token ≠ "" := by
  cases insecureNoAuth with
  | true => cases h
  | false =>
    simp only [ofArgs] at h
    split_ifs at h with htrim
    refine ⟨(Except.ok.inj h).symm, fun hempty ↦ htrim ?_⟩
    rw [hempty]
    decide

end AuthConfig

/-- What requests can see and change. -/
structure Host (ω : Type) where
  tree : FileTree
  shared : HaSharedState
  sessions : List SyncSession
  rest : ω

/-- What reaches the server: the requests of its two services. `other` is what else goes on, as the
loop of the node and the sessions at work. -/
inductive Incoming (ω ρ : Type)
  | sql (metadata : Metadata) (request : ρ)
  | sync (metadata : Metadata) (first : FirstMessage) (deny : Denials) (nowSecs : ℕ)
  | other (act : Host ω → Host ω)

inductive Outgoing (α : Type)
  | sql (result : Except Status α)
  | sync (result : Except Status SyncSession)
  | silent

namespace Incoming

variable {ω ρ α : Type}

def Authorised (token : String) : Incoming ω ρ → Prop
  | .sql metadata _ => metadata.CarriesBearer token
  | .sync metadata (.init init) _ _ => metadata.CarriesBearer token ∨ init.authToken = token
  | .sync metadata _ _ _ => metadata.CarriesBearer token
  | .other _ => True

instance (token : String) : (event : Incoming ω ρ) → Decidable (event.Authorised token)
  | .sql metadata _ | .sync metadata (.failed _) _ _ | .sync metadata .closed _ _
  | .sync metadata .other _ _ => inferInstanceAs (Decidable (metadata.CarriesBearer token))
  | .sync metadata (.init init) _ _ =>
    inferInstanceAs (Decidable (metadata.CarriesBearer token ∨ init.authToken = token))
  | .other _ => .isTrue trivial

/-- A stream that does not begin with a `SyncInit` is turned away before its caller is asked for the
token. -/
def isMalformed : Incoming ω ρ → Bool
  | .sync _ first _ _ => !first.isInit
  | .sql _ _ | .other _ => false

/-- How a request without the token is refused. -/
def RefusedWith (event : Incoming ω ρ) (code : Code) : Prop :=
  if event.isMalformed then code = .internal ∨ code = .invalidArgument
  else code = .unauthenticated

def refused (status : Status) : Incoming ω ρ → Outgoing α
  | .sql _ _ => .sql (.error status)
  | .sync _ _ _ _ => .sync (.error status)
  | .other _ => .silent

end Incoming

section Server

variable {ω ρ α : Type} (auth : AuthConfig) (dataDir : List Char)
  (handler : Host ω → ρ → Except Status α × Host ω)

/-- The handlers of the gateway run behind the interceptor, the replication service checks for
itself. -/
def respond (host : Host ω) : Incoming ω ρ → Outgoing α × Host ω
  | .sql metadata request =>
    match auth.check metadata with
    | .error status => (.sql (.error status), host)
    | .ok () =>
      let (result, host) := handler host request
      (.sql result, host)
  | .sync metadata first deny nowSecs =>
    match ReplicationServer.sync auth dataDir deny (some host.shared) nowSecs host.tree metadata
        first with
    | (.error status, t) => (.sync (.error status), { host with tree := t })
    | (.ok session, t) =>
      (.sync (.ok session), { host with tree := t, sessions := host.sessions ++ [session] })
  | .other act => (.silent, act host)

def respondAll (host : Host ω) : List (Incoming ω ρ) → List (Incoming ω ρ × Outgoing α) × Host ω
  | [] => ([], host)
  | event :: events =>
    let (answer, host) := respond auth dataDir handler host event
    let (log, host) := respondAll host events
    ((event, answer) :: log, host)

variable {dataDir handler} {token : String}

theorem respond_of_authorised (htoken : token ≠ "") {event : Incoming ω ρ}
    (h : event.Authorised token) (host : Host ω) :
    respond (.required token) dataDir handler host event =
      respond .disabled dataDir handler host event := by
  cases event with
  | sql metadata request =>
    simp only [respond, AuthConfig.check_of_carries h, AuthConfig.check_disabled]
  | sync metadata first deny nowSecs =>
    cases first with
    | init init =>
      simp only [respond, ReplicationServer.sync,
        AuthConfig.checkRequestOrToken_of_carries htoken h, AuthConfig.checkRequestOrToken_disabled]
    | failed | closed | other => rfl
  | other act => rfl

theorem respond_of_not_authorised {event : Incoming ω ρ} (h : ¬ event.Authorised token) :
    ∃ status, event.RefusedWith status.code ∧ ∀ host,
      respond (.required token) dataDir handler host event = (event.refused status, host) := by
  cases event with
  | sql metadata request =>
    obtain ⟨message, hcheck⟩ := AuthConfig.check_of_not_carries h
    refine ⟨.unauthenticated message, rfl, fun host ↦ ?_⟩
    simp only [respond, hcheck, Incoming.refused]
  | sync metadata first deny nowSecs =>
    cases first with
    | init init =>
      obtain ⟨message, hcheck⟩ := AuthConfig.checkRequestOrToken_of_not_carries h
      refine ⟨.unauthenticated message, rfl, fun host ↦ ?_⟩
      simp only [respond, ReplicationServer.sync, hcheck, Incoming.refused]
    | failed error => exact ⟨.internal _, .inl rfl, fun host ↦ rfl⟩
    | closed => exact ⟨.invalidArgument _, .inr rfl, fun host ↦ rfl⟩
    | other => exact ⟨.invalidArgument _, .inr rfl, fun host ↦ rfl⟩
  | other act => exact absurd trivial h

variable (dataDir handler) in
/-- Whatever the handlers do: a server with a token goes through the same states, and answers the
callers who have the token in the same way, as a server that asks for none and to which nobody else
has ever spoken. The others learn from its answers nothing but that they are refused: as
unauthenticated, unless their stream does not begin as it should. -/
theorem unauthorised_requests_invisible {auth : AuthConfig} {insecureNoAuth : Bool}
    (hauth : AuthConfig.ofArgs (some token) insecureNoAuth = .ok auth) (host : Host ω)
    (events : List (Incoming ω ρ)) :
    let run := respondAll auth dataDir handler host events
    let trusted := respondAll .disabled dataDir handler host (events.filter (·.Authorised token))
    run.2 = trusted.2 ∧ run.1.filter (·.1.Authorised token) = trusted.1 ∧
      ∀ event answer, (event, answer) ∈ run.1 → ¬ event.Authorised token →
        ∃ status, event.RefusedWith status.code ∧ answer = event.refused status ∧
          ∀ host, respond auth dataDir handler host event = (answer, host) := by
  obtain ⟨rfl, htoken⟩ := AuthConfig.ofArgs_some hauth
  dsimp only
  induction events generalizing host with
  | nil => simp [respondAll]
  | cons event events ih =>
    by_cases h : event.Authorised token
    · have hrespond : respond (.required token) dataDir handler host event = _ :=
        respond_of_authorised htoken h host
      obtain ⟨hhost, hlog, hrefused⟩ := ih (respond .disabled dataDir handler host event).2
      rw [List.filter_cons_of_pos (by simpa using h)]
      simp only [respondAll, hrespond]
      refine ⟨hhost, ?_, fun other answer hmem hother ↦ ?_⟩
      · rw [List.filter_cons_of_pos (by simpa using h), hlog]
      · rcases List.mem_cons.mp hmem with heq | hmem
        · exact absurd ((Prod.mk.inj heq).1 ▸ h) hother
        · exact hrefused other answer hmem hother
    · obtain ⟨status, hstatus, hrespond⟩ : ∃ status : Status, event.RefusedWith status.code ∧
          ∀ host, respond (.required token) dataDir handler host event = _ :=
        respond_of_not_authorised h
      obtain ⟨hhost, hlog, hrefused⟩ := ih host
      rw [List.filter_cons_of_neg (by simpa using h)]
      simp only [respondAll, hrespond]
      refine ⟨hhost, ?_, fun other answer hmem hother ↦ ?_⟩
      · rw [List.filter_cons_of_neg (by simpa using h), hlog]
      · rcases List.mem_cons.mp hmem with heq | hmem
        · obtain ⟨rfl, rfl⟩ := Prod.mk.inj heq
          exact ⟨status, hstatus, rfl, hrespond⟩
        · exact hrefused other answer hmem hother

/-- A gateway that only drops databases. -/
def dropOnly (host : Host DatabaseEngine) (req : DropDatabaseRequest) :
    Except Status DropDatabaseResponse × Host DatabaseEngine :=
  let (resp, engine, t) := SqlGatewayServer.dropDatabase host.shared 0 "data".toList
    DatabaseEngine.allowAll host.rest host.tree req
  (resp, { host with tree := t, rest := engine })

def idleHost : Host DatabaseEngine :=
  ⟨DatabaseEngine.dataTree, .new "node-1" false, [], .new⟩

def dropRequest (authorization : Option MetadataValue) :
    Incoming DatabaseEngine DropDatabaseRequest :=
  .sql ⟨authorization⟩ ⟨"app.db"⟩

def pushRequest (authToken : String) : Incoming DatabaseEngine DropDatabaseRequest :=
  .sync ⟨none⟩ (.init ⟨"tenants/app.db", 2, authToken⟩) DatabaseEngine.allowAll 0

theorem unauthorised_requests_invisible_drop :
    AuthConfig.ofArgs (some "secret") false = .ok (.required "secret") ∧
      (respondAll (.required "secret") "data".toList dropOnly idleHost
        [dropRequest none, pushRequest "guess", dropRequest (some (.ascii "Bearer secret")),
          pushRequest "secret"]).2 =
      (respondAll .disabled "data".toList dropOnly idleHost
        [dropRequest (some (.ascii "Bearer secret")), pushRequest "secret"]).2 := by
  have hauth : AuthConfig.ofArgs (some "secret") false = .ok (.required "secret") := rfl
  exact ⟨hauth, (unauthorised_requests_invisible "data".toList dropOnly hauth idleHost
    [dropRequest none, pushRequest "guess", dropRequest (some (.ascii "Bearer secret")),
      pushRequest "secret"]).1⟩

end Server

end RsqliteRsync.Gateway
