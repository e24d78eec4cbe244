import RsqliteRsync.Foundation.MachineInt

namespace RsqliteRsync.Ha

open Foundation.MachineInt

def u64Max : ℕ := 18446744073709551615

structure LeaseRecord where
  holderNodeId : String
  generation : ℕ
  renewedAtSecs : ℕ
  ttlSecs : ℕ
  deriving DecidableEq, Repr

def LeaseRecord.expiry (lease : LeaseRecord) : ℕ :=
  saturate 64 (lease.renewedAtSecs + lease.ttlSecs)

def LeaseRecord.isExpired (lease : LeaseRecord) (nowSecs : ℕ) : Bool :=
  decide (lease.expiry < nowSecs)

structure FreshnessLedger where
  sourceNodeId : String
  sourceGeneration : ℕ
  syncedAtSecs : ℕ
  deriving DecidableEq, Repr

structure PromotionConfig where
  maxFreshnessAgeSecs : ℕ := 10
  maxFutureSkewSecs : ℕ := 2
  deriving DecidableEq, Repr

structure PromotionRequest where
  candidateNodeId : String
  targetGeneration : ℕ
  minSourceGeneration : ℕ

inductive WriteFenceViolation
  | leaseExpired
  | notLeaseHolder (holderNodeId : String)
  | generationMismatch (localGeneration lease : ℕ)
  deriving DecidableEq, Repr

inductive PromotionViolation
  | leaseExpired
  | notLeaseHolder (holderNodeId : String)
  | targetGenerationMismatch (target lease : ℕ)
  | missingFreshness
  | freshnessFromFuture (syncedAtSecs nowSecs maxFutureSkewSecs : ℕ)
  | staleFreshness (ageSecs maxFreshnessAgeSecs : ℕ)
  | lineageTooOld (observed minRequired : ℕ)
  deriving DecidableEq, Repr

def enforceWriteFence (nowSecs : ℕ) (localNodeId : String) (localGeneration : ℕ)
    (lease : LeaseRecord) : Except WriteFenceViolation Unit :=
  if lease.isExpired nowSecs then .error .leaseExpired
  else if lease.holderNodeId ≠ localNodeId then .error (.notLeaseHolder lease.holderNodeId)
  else if lease.generation ≠ localGeneration then
    .error (.generationMismatch localGeneration lease.generation)
  else .ok ()

def validatePromotion (nowSecs : ℕ) (lease : LeaseRecord) (request : PromotionRequest)
    (freshness : Option FreshnessLedger) (config : PromotionConfig) :
    Except PromotionViolation Unit :=
  if lease.isExpired nowSecs then .error .leaseExpired
  else if lease.holderNodeId ≠ request.candidateNodeId then
    .error (.notLeaseHolder lease.holderNodeId)
  else if lease.generation ≠ request.targetGeneration then
    .error (.targetGenerationMismatch request.targetGeneration lease.generation)
  else match freshness with
    | none => .error .missingFreshness
    | some freshness =>
      if saturate 64 (nowSecs + config.maxFutureSkewSecs) < freshness.syncedAtSecs then
        .error (.freshnessFromFuture freshness.syncedAtSecs nowSecs config.maxFutureSkewSecs)
      else if config.maxFreshnessAgeSecs < nowSecs - freshness.syncedAtSecs then
        .error (.staleFreshness (nowSecs - freshness.syncedAtSecs) config.maxFreshnessAgeSecs)
      else if freshness.sourceGeneration < request.minSourceGeneration then
        .error (.lineageTooOld freshness.sourceGeneration request.minSourceGeneration)
      else .ok ()

theorem enforceWriteFence_eq_ok (now : ℕ) (node : String) (gen : ℕ) (lease : LeaseRecord) :
    enforceWriteFence now node gen lease = .ok () ↔
      now ≤ lease.expiry ∧ lease.holderNodeId = node ∧ lease.generation = gen := by
  unfold enforceWriteFence LeaseRecord.isExpired
  split
  · simp_all
  · split
    · simp_all
    · split <;> simp_all

theorem validatePromotion_eq_ok (now : ℕ) (lease : LeaseRecord) (request : PromotionRequest)
    (freshness : Option FreshnessLedger) (config : PromotionConfig) :
    validatePromotion now lease request freshness config = .ok () ↔
      now ≤ lease.expiry ∧ lease.holderNodeId = request.candidateNodeId ∧
      lease.generation = request.targetGeneration ∧
      ∃ ledger, freshness = some ledger ∧
        ledger.syncedAtSecs ≤ saturate 64 (now + config.maxFutureSkewSecs) ∧
        now - ledger.syncedAtSecs ≤ config.maxFreshnessAgeSecs ∧
        request.minSourceGeneration ≤ ledger.sourceGeneration := by
  cases freshness with
  | none =>
    refine iff_of_false ?_ (by simp)
    unfold validatePromotion
    split_ifs <;> simp
  | some ledger =>
    simp only [validatePromotion, LeaseRecord.isExpired, decide_eq_true_eq, Option.some.injEq,
      exists_eq_left']
    split_ifs <;> grind

theorem validatePromotion_ok {now : ℕ} {lease : LeaseRecord} {request : PromotionRequest}
    {freshness : Option FreshnessLedger} {config : PromotionConfig}
    (h : validatePromotion now lease request freshness config = .ok ()) :
    now ≤ lease.expiry ∧ lease.holderNodeId = request.candidateNodeId := by
  obtain ⟨hlive, hholder, -⟩ := (validatePromotion_eq_ok ..).mp h
  exact ⟨hlive, hholder⟩

end RsqliteRsync.Ha
