import RsqliteRsync.Gateway.Status

namespace RsqliteRsync.Client

open Foundation.MachineInt Gateway

inductive ClientError
  | invalidEndpoint (endpoint : String)
  | connect (endpoint : String)
  | discovery (message : String)
  | rpc (status : Status)
  | retriesExhausted (attempts : ℕ) (source : ClientError)

inductive DiscoveryMode
  | direct (endpoint : String)
  | candidates (endpoints : List String)
  | custom

structure ClientConfig where
  discovery : DiscoveryMode := .direct "http://127.0.0.1:50051"
  maxRetries : ℕ := 5
  initialBackoffMs : ℕ := 100
  maxBackoffMs : ℕ := 2000

/-- What the surroundings answer during one attempt: whether a probed candidate says that it is
the writer, what a custom resolver returns, whether an endpoint can be connected to, and what the
server there answers to the request. -/
structure Surroundings (α : Type*) where
  probe : String → Bool
  resolve : Except String String
  reachable : String → Bool
  rpc : String → Except Status α

def normalizeEndpoint (ep : String) : String :=
  let trimmed := trim ep
  if "http://".toList.isPrefixOf trimmed.toList || "https://".toList.isPrefixOf trimmed.toList then
    trimmed
  else "http://" ++ trimmed

section

variable {α : Type*} (fromShared : String → Bool) (config : ClientConfig)

def discoverLeader (mode : DiscoveryMode) (now : Surroundings α) : Except ClientError String :=
  match mode with
  | .direct ep => .ok (normalizeEndpoint ep)
  | .candidates candidates =>
    let endpoints := candidates.map normalizeEndpoint
    match endpoints.find? fun ep ↦ fromShared ep && now.probe ep with
    | some ep => .ok ep
    | none =>
      match endpoints.find? fromShared with
      | some ep => .ok ep
      | none => .error (.discovery "no syntactically valid candidates configured for discovery")
  | .custom =>
    match now.resolve with
    | .ok ep => .ok (normalizeEndpoint ep)
    | .error _ => .error (.discovery "custom resolver failed")

/-- The client's connection state. `tonicClient` is the endpoint that the open channel leads to. -/
structure SqlGatewayClient where
  currentEndpoint : Option String
  tonicClient : Option String

namespace SqlGatewayClient

def new : SqlGatewayClient := ⟨none, none⟩

def resetConnection (_ : SqlGatewayClient) : SqlGatewayClient := ⟨none, none⟩

def getOrConnect (client : SqlGatewayClient) (now : Surroundings α) :
    Except ClientError String × SqlGatewayClient :=
  match client.tonicClient with
  | some channel => (.ok channel, client)
  | none =>
    let found : Except ClientError String := match client.currentEndpoint with
      | some ep => .ok ep
      | none => discoverLeader fromShared config.discovery now
    match found with
    | .error e => (.error e, client)
    | .ok ep =>
      if !fromShared ep then (.error (.invalidEndpoint ep), client)
      else if !now.reachable ep then (.error (.connect ep), client)
      else (.ok ep, ⟨some ep, some ep⟩)

def processLeaderHeader (client : SqlGatewayClient) (status : Status) : SqlGatewayClient :=
  match ((status.metadata.lookup headerRsqliteLeaderEndpoint).bind MetadataValue.toStr).filter
      (!·.isEmpty) with
  | some ep => ⟨some (normalizeEndpoint ep), none⟩
  | none => client.resetConnection

end SqlGatewayClient

end

def nextBackoff (currentMs maxMs : ℕ) : ℕ := min (saturate 64 (currentMs * 2)) maxMs

structure Rpc (α : Type*) where
  attempt : ℕ
  endpoint : String
  answer : Except Status α

structure Call (α : Type*) where
  result : Except ClientError α
  client : SqlGatewayClient
  attempts : ℕ
  rpcs : List (Rpc α)
  sleeps : List ℕ

def Call.after {α : Type*} (rpcs : List (Rpc α)) (backoffMs : ℕ) (call : Call α) : Call α :=
  { call with rpcs := rpcs ++ call.rpcs, sleeps := backoffMs :: call.sleeps }

def shouldRetry (idempotent : Bool) (status : Status) : Bool :=
  isNotLeaderStatus status ||
    (idempotent && (status.code == .unavailable || status.code == .deadlineExceeded))

def ClientError.isInvalidEndpoint : ClientError → Bool
  | .invalidEndpoint _ => true
  | _ => false

/-- The retry loop after `attempts` attempts. `script` says what the surroundings answer in each
attempt. -/
def SqlGatewayClient.retryLoop {α : Type*} (fromShared : String → Bool) (config : ClientConfig)
    (idempotent : Bool) (script : ℕ → Surroundings α) (client : SqlGatewayClient)
    (attempts backoffMs : ℕ) : Call α :=
  match client.getOrConnect fromShared config (script (attempts + 1)) with
  | (.error e, client) =>
    if e.isInvalidEndpoint then ⟨.error e, client, attempts + 1, [], []⟩
    else if config.maxRetries ≤ attempts + 1 then
      ⟨.error (.retriesExhausted (attempts + 1) e), client, attempts + 1, [], []⟩
    else
      (retryLoop fromShared config idempotent script client.resetConnection (attempts + 1)
        (nextBackoff backoffMs config.maxBackoffMs)).after [] backoffMs
  | (.ok ep, client) =>
    match (script (attempts + 1)).rpc ep with
    | .ok res => ⟨.ok res, client, attempts + 1, [⟨attempts + 1, ep, .ok res⟩], []⟩
    | .error status =>
      if !shouldRetry idempotent status then
        ⟨.error (.rpc status), client, attempts + 1, [⟨attempts + 1, ep, .error status⟩], []⟩
      else if config.maxRetries ≤ attempts + 1 then
        ⟨.error (.retriesExhausted (attempts + 1) (.rpc status)), client, attempts + 1,
          [⟨attempts + 1, ep, .error status⟩], []⟩
      else
        (retryLoop fromShared config idempotent script (client.processLeaderHeader status)
          (attempts + 1) (nextBackoff backoffMs config.maxBackoffMs)).after
          [⟨attempts + 1, ep, .error status⟩] backoffMs
  termination_by config.maxRetries - attempts

end RsqliteRsync.Client
