import RsqliteRsync.Ha.Policy

namespace RsqliteRsync.Ha

inductive NodeRole
  | writer
  | replica
  deriving DecidableEq, Repr

inductive DemotionReason
  | leaseMissing
  | fenceViolation (violation : WriteFenceViolation)
  deriving DecidableEq, Repr

inductive ReconcileDecision
  | keepReplica
  | promoteToWriter (generation : ℕ)
  | keepWriter
  | demoteToReplica (reason : DemotionReason)
  deriving DecidableEq, Repr

inductive LeaseObservation
  | missing
  | acquired (lease : LeaseRecord)
  | renewed (lease : LeaseRecord)
  | transferred (previous current : LeaseRecord)
  | replaced (lease : LeaseRecord)
  | unchanged (lease : LeaseRecord)
  deriving DecidableEq, Repr

structure ReconcileOutcome where
  decision : ReconcileDecision
  leaseObservation : LeaseObservation
  promotionViolation : Option PromotionViolation

inductive HaAction
  | ensureReplica
  | enableWriter (generation : ℕ)
  | disableWriter (reason : DemotionReason)
  | keepWriter
  | recordPromotionDenied (violation : PromotionViolation)
  deriving DecidableEq, Repr

structure ControllerPlan where
  outcome : ReconcileOutcome
  actions : List HaAction

structure HaRuntime where
  nodeId : String
  role : NodeRole
  localGeneration : ℕ
  lease : Option LeaseRecord
  freshness : Option FreshnessLedger

namespace HaRuntime

def new (nodeId : String) : HaRuntime := ⟨nodeId, .replica, 0, none, none⟩

def observeLeaseChange : Option LeaseRecord → Option LeaseRecord → LeaseObservation
  | _, none => .missing
  | none, some cur => .acquired cur
  | some prev, some cur =>
    if prev = cur then .unchanged cur
    else if prev.holderNodeId ≠ cur.holderNodeId then .transferred prev cur
    else if prev.generation = cur.generation then .renewed cur
    else .replaced cur

def reconcileWithOutcome (rt : HaRuntime) (nowSecs : ℕ) (lease : Option LeaseRecord)
    (minSourceGeneration : ℕ) (config : PromotionConfig) : HaRuntime × ReconcileOutcome :=
  let observation := observeLeaseChange rt.lease lease
  match rt.role, lease with
  | .writer, none =>
    ({ rt with lease := none, role := .replica },
      ⟨.demoteToReplica .leaseMissing, observation, none⟩)
  | .writer, some currentLease =>
    match enforceWriteFence nowSecs rt.nodeId rt.localGeneration currentLease with
    | .ok () => ({ rt with lease := lease }, ⟨.keepWriter, observation, none⟩)
    | .error violation =>
      ({ rt with lease := lease, role := .replica },
        ⟨.demoteToReplica (.fenceViolation violation), observation, none⟩)
  | .replica, none => ({ rt with lease := none }, ⟨.keepReplica, observation, none⟩)
  | .replica, some currentLease =>
    match validatePromotion nowSecs currentLease
        ⟨rt.nodeId, currentLease.generation, minSourceGeneration⟩ rt.freshness config with
    | .ok () =>
      ({ rt with
          lease := lease, role := .writer, localGeneration := currentLease.generation },
        ⟨.promoteToWriter currentLease.generation, observation, none⟩)
    | .error violation => ({ rt with lease := lease }, ⟨.keepReplica, observation, some violation⟩)

def actionsFor (outcome : ReconcileOutcome) : List HaAction :=
  match outcome.decision with
  | .keepReplica => .ensureReplica ::
      match outcome.promotionViolation with
      | some violation => [.recordPromotionDenied violation]
      | none => []
  | .promoteToWriter generation => [.enableWriter generation]
  | .keepWriter => [.keepWriter]
  | .demoteToReplica reason => [.disableWriter reason, .ensureReplica]

def planActions (rt : HaRuntime) (nowSecs : ℕ) (lease : Option LeaseRecord)
    (minSourceGeneration : ℕ) (config : PromotionConfig) : HaRuntime × ControllerPlan :=
  let (rt, outcome) := rt.reconcileWithOutcome nowSecs lease minSourceGeneration config
  (rt, ⟨outcome, actionsFor outcome⟩)

end HaRuntime

section Decide

variable (rt : HaRuntime) (now : ℕ) (lease : Option LeaseRecord) (minGen : ℕ)
  (config : PromotionConfig)

def HaRuntime.WriterAllowed : Prop :=
  ∃ current, lease = some current ∧
    match rt.role with
    | .writer => enforceWriteFence now rt.nodeId rt.localGeneration current = .ok ()
    | .replica => validatePromotion now current ⟨rt.nodeId, current.generation, minGen⟩
        rt.freshness config = .ok ()

/-- What one reconcile can do. -/
inductive HaRuntime.Reconciled : HaRuntime → ControllerPlan → Prop
  | keepWriter {current : LeaseRecord} {plan : ControllerPlan} : rt.role = .writer →
      lease = some current →
      enforceWriteFence now rt.nodeId rt.localGeneration current = .ok () →
      plan.actions = [.keepWriter] → Reconciled { rt with lease := lease } plan
  | promote {current : LeaseRecord} {plan : ControllerPlan} : rt.role = .replica →
      lease = some current →
      validatePromotion now current ⟨rt.nodeId, current.generation, minGen⟩ rt.freshness config =
        .ok () →
      plan.actions = [.enableWriter current.generation] →
      Reconciled
        { rt with lease := lease, role := .writer, localGeneration := current.generation } plan
  | demote {reason : DemotionReason} {plan : ControllerPlan} : rt.role = .writer →
      ¬ rt.WriterAllowed now lease minGen config →
      plan.actions = [.disableWriter reason, .ensureReplica] →
      Reconciled { rt with lease := lease, role := .replica } plan
  | wait {plan : ControllerPlan} : rt.role = .replica → lease = none →
      plan.actions = [.ensureReplica] → Reconciled { rt with lease := lease } plan
  | deny {violation : PromotionViolation} {plan : ControllerPlan} : rt.role = .replica →
      ¬ rt.WriterAllowed now lease minGen config →
      plan.actions = [.ensureReplica, .recordPromotionDenied violation] →
      Reconciled { rt with lease := lease } plan

theorem HaRuntime.planActions_cases :
    rt.Reconciled now lease minGen config (rt.planActions now lease minGen config).1
      (rt.planActions now lease minGen config).2 := by
  rcases rt with ⟨nodeId, role, gen, last, fresh⟩
  cases role with
  | writer =>
    cases lease with
    | none => exact .demote rfl (fun ⟨_, h, _⟩ ↦ nomatch h) rfl
    | some current =>
      cases h : enforceWriteFence now nodeId gen current with
      | ok u =>
        simp only [HaRuntime.planActions, HaRuntime.reconcileWithOutcome, h]
        exact .keepWriter rfl rfl h rfl
      | error violation =>
        simp only [HaRuntime.planActions, HaRuntime.reconcileWithOutcome, h]
        refine .demote rfl ?_ rfl
        rintro ⟨current', hc, hok⟩
        cases hc
        exact nomatch h.symm.trans hok
  | replica =>
    cases lease with
    | none => exact .wait rfl rfl rfl
    | some current =>
      cases h : validatePromotion now current ⟨nodeId, current.generation, minGen⟩ fresh config with
      | ok u =>
        simp only [HaRuntime.planActions, HaRuntime.reconcileWithOutcome, h]
        exact .promote rfl rfl h rfl
      | error violation =>
        simp only [HaRuntime.planActions, HaRuntime.reconcileWithOutcome, h]
        refine .deny rfl ?_ rfl
        rintro ⟨current', hc, hok⟩
        cases hc
        exact nomatch h.symm.trans hok

end Decide

def leaseFromObservation : LeaseObservation → Option LeaseRecord
  | .missing => none
  | .acquired lease | .renewed lease | .replaced lease | .unchanged lease => some lease
  | .transferred _ current => some current

theorem leaseFromObservation_observe (previous current : Option LeaseRecord) :
    leaseFromObservation (HaRuntime.observeLeaseChange previous current) = current := by
  cases current with
  | none => cases previous <;> rfl
  | some cur =>
    cases previous with
    | none => rfl
    | some prev =>
      simp only [HaRuntime.observeLeaseChange]
      split
      case isTrue => rfl
      case isFalse =>
        split
        case isTrue => rfl
        case isFalse => split <;> rfl

end RsqliteRsync.Ha
