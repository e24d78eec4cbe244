import RsqliteRsync.Ha.Executor

namespace RsqliteRsync.Ha

structure HaController where
  runtime : HaRuntime
  promotionConfig : PromotionConfig
  minSourceGeneration : ℕ
  stopOnError : Bool

inductive ControllerTickOutcome
  | executed (report : ActionExecutionReport)
  | leaseReadFailed (error : String) (fallbackReport : ActionExecutionReport)

def ControllerTickOutcome.report : ControllerTickOutcome → ActionExecutionReport
  | .executed report => report
  | .leaseReadFailed _ fallbackReport => fallbackReport

structure HaNode where
  controller : HaController
  world : HaWorld

inductive HaError
  | freshnessFile (message : String)
  | clock (message : String)
  | startupBlocked (decision : ReconcileDecision)
  | startupActionsFailed (failures : ℕ)
  | startupLeaseReadFailed (error : String)

namespace HaNode

def tick (node : HaNode) (nowSecs : ℕ) (lease : Option LeaseRecord) (ios : ℕ → ActionIo) :
    ActionExecutionReport × HaNode :=
  let (runtime, plan) := node.controller.runtime.planActions nowSecs lease
    node.controller.minSourceGeneration node.controller.promotionConfig
  let (report, world) := executeControllerPlan plan node.controller.stopOnError ios node.world
  (report, ⟨{ node.controller with runtime := runtime }, world⟩)

/-- If the lease read fails, the controller runs a fail-safe tick without a lease. -/
def tickWithReader (node : HaNode) (nowSecs : ℕ) (read : Except String (Option LeaseRecord))
    (ios : ℕ → ActionIo) : ControllerTickOutcome × HaNode :=
  match read with
  | .ok lease =>
    let (report, node) := node.tick nowSecs lease ios
    (.executed report, node)
  | .error error =>
    let (report, node) := node.tick nowSecs none ios
    (.leaseReadFailed error report, node)

def readFreshness (node : HaNode) :
    Option (Except String (Option FreshnessLedger)) → Except HaError HaNode
  | none => .ok node
  | some (.error error) => .error (.freshnessFile error)
  | some (.ok freshness) =>
    .ok { node with controller.runtime.freshness := freshness }

end HaNode

structure HaArgs where
  serviceName : String
  grpcPort : ℕ
  requireWriter : Bool

def HaArgs.leaderEndpoint (args : HaArgs) (holderNodeId : String) : String :=
  if args.serviceName.isEmpty then s!"http://{holderNodeId}:{args.grpcPort}"
  else s!"http://{holderNodeId}.{args.serviceName}:{args.grpcPort}"

/-- The end of a loop iteration: the gateway gets the lease that the iteration saw. -/
def HaNode.storeLease (args : HaArgs) (node : HaNode) (lease : Option LeaseRecord) : HaNode :=
  { node with
    world.shared.leaseRecord := lease
    world.shared.activeLeaderId := lease.map (·.holderNodeId)
    world.shared.activeLeaderEndpoint := lease.map fun l ↦ args.leaderEndpoint l.holderNodeId }

structure TickInput where
  freshness : Option (Except String (Option FreshnessLedger))
  now : Except String ℕ
  lease : Except String (Option LeaseRecord)
  ios : ℕ → ActionIo

def currentLease : ControllerTickOutcome → Option LeaseRecord
  | .executed report => leaseFromObservation report.plan.outcome.leaseObservation
  | .leaseReadFailed _ _ => none

namespace HaNode

variable (args : HaArgs)

def tickInput (node : HaNode) (input : TickInput) :
    Except HaError (ControllerTickOutcome × HaNode) := do
  let node ← node.readFreshness input.freshness
  let nowSecs ← input.now.mapError .clock
  pure (node.tickWithReader nowSecs input.lease input.ios)

/-- One iteration of the loop of `run_ha_mode`. An error ends the loop. -/
def iterate (node : HaNode) (input : TickInput) : Except HaError HaNode := do
  let (outcome, node) ← node.tickInput input
  pure (node.storeLease args (currentLease outcome))

/-- With the startup fence in `RequireWriter` mode, the loop starts only after a tick that made
the node writer without any failure. -/
def startup (node : HaNode) (input : TickInput) : Except HaError HaNode :=
  if args.requireWriter then do
    let (outcome, node) ← node.tickInput input
    match outcome with
    | .executed report =>
      match report.plan.outcome.decision with
      | .promoteToWriter _ | .keepWriter =>
        if report.isSuccess then pure node
        else throw (.startupActionsFailed report.failures.length)
      | decision => throw (.startupBlocked decision)
    | .leaseReadFailed error _ => throw (.startupLeaseReadFailed error)
  else pure node

def new (nodeId : String) (allowReplicaReads : Bool) (config : PromotionConfig)
    (minSourceGeneration : ℕ) (stopOnError : Bool) (roleState : String)
    (readinessFile : Option String) : HaNode :=
  ⟨⟨.new nodeId, config, minSourceGeneration, stopOnError⟩,
    ⟨roleState, false, readinessFile.map fun _ ↦ "not-ready\n", .new nodeId allowReplicaReads⟩⟩

end HaNode

end RsqliteRsync.Ha
