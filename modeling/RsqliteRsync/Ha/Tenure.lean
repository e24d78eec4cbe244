import RsqliteRsync.Ha.Runtime

namespace RsqliteRsync.Ha

open Foundation.MachineInt

inductive RuntimeCall
  | reconcile (nowSecs : ℕ) (lease : Option LeaseRecord) (minSourceGeneration : ℕ)
      (config : PromotionConfig)
  | updateFreshness (freshness : FreshnessLedger)
  | clearFreshness

namespace HaRuntime

def updateFreshness (rt : HaRuntime) (freshness : FreshnessLedger) : HaRuntime :=
  { rt with freshness := some freshness }

def clearFreshness (rt : HaRuntime) : HaRuntime := { rt with freshness := none }

def apply (rt : HaRuntime) : RuntimeCall → HaRuntime
  | .reconcile nowSecs lease minSourceGeneration config =>
    (rt.reconcileWithOutcome nowSecs lease minSourceGeneration config).1
  | .updateFreshness freshness => rt.updateFreshness freshness
  | .clearFreshness => rt.clearFreshness

def after (nodeId : String) (calls : List RuntimeCall) : HaRuntime :=
  calls.foldl apply (.new nodeId)

end HaRuntime

/-- Clock values are 64-bit. -/
def RuntimeCall.Fits : RuntimeCall → Prop
  | .reconcile nowSecs _ _ _ => nowSecs ≤ u64Max
  | .updateFreshness freshness => freshness.syncedAtSecs ≤ u64Max
  | .clearFreshness => True

section Exact

variable (nodeId : String) (generation : ℕ)

def LeaseRecord.HeldBy (lease : LeaseRecord) (nowSecs : ℕ) : Prop :=
  lease.holderNodeId = nodeId ∧ nowSecs ≤ lease.renewedAtSecs + lease.ttlSecs

def FreshnessLedger.Admits (ledger : FreshnessLedger) (nowSecs minSourceGeneration : ℕ)
    (config : PromotionConfig) : Prop :=
  ledger.syncedAtSecs ≤ nowSecs + config.maxFutureSkewSecs ∧
    (nowSecs : ℤ) - ledger.syncedAtSecs ≤ config.maxFreshnessAgeSecs ∧
    minSourceGeneration ≤ ledger.sourceGeneration

def ledgerAfter (calls : List RuntimeCall) : Option FreshnessLedger :=
  calls.foldl (fun ledger call ↦ match call with
    | .reconcile .. => ledger
    | .updateFreshness freshness => some freshness
    | .clearFreshness => none) none

namespace RuntimeCall

/-- A reconcile that sees a valid lease of the node with this generation, and an admissible
ledger. -/
def Promotes (ledger : Option FreshnessLedger) : RuntimeCall → Prop
  | reconcile nowSecs lease minSourceGeneration config =>
    ∃ current freshness, lease = some current ∧ current.HeldBy nodeId nowSecs ∧
      current.generation = generation ∧ ledger = some freshness ∧
      freshness.Admits nowSecs minSourceGeneration config
  | _ => False

/-- No reconcile that would end the tenure of this generation. -/
def Keeps : RuntimeCall → Prop
  | reconcile nowSecs lease _ _ =>
    ∃ current, lease = some current ∧ current.HeldBy nodeId nowSecs ∧
      current.generation = generation
  | _ => True

end RuntimeCall

/-- The node was promoted by one of the calls, and every later call kept it writer. -/
def Tenure (calls : List RuntimeCall) : Prop :=
  ∃ earlier call later, calls = earlier ++ call :: later ∧
    (HaRuntime.after nodeId earlier).role = .replica ∧
    call.Promotes nodeId generation (ledgerAfter earlier) ∧
    ∀ call ∈ later, call.Keeps nodeId generation

end Exact

variable {nodeId : String} {generation now minGen : ℕ} {calls : List RuntimeCall}
  {call : RuntimeCall} {config : PromotionConfig} {rt : HaRuntime}

theorem lt_of_le_u64Max {a : ℕ} (h : a ≤ u64Max) : a < 2 ^ 64 := Nat.lt_succ_of_le h

theorem heldBy_iff {lease : LeaseRecord} (hnow : now ≤ u64Max) :
    lease.HeldBy nodeId now ↔ now ≤ lease.expiry ∧ lease.holderNodeId = nodeId := by
  rw [LeaseRecord.HeldBy, LeaseRecord.expiry, le_saturate_iff (lt_of_le_u64Max hnow), and_comm]

theorem enforceWriteFence_iff {lease : LeaseRecord} (hnow : now ≤ u64Max) :
    enforceWriteFence now nodeId generation lease = .ok () ↔
      lease.HeldBy nodeId now ∧ lease.generation = generation := by
  rw [enforceWriteFence_eq_ok, heldBy_iff hnow, and_assoc]

theorem validatePromotion_iff {lease : LeaseRecord} {ledger : Option FreshnessLedger}
    (hnow : now ≤ u64Max) (hledger : ∀ freshness ∈ ledger, freshness.syncedAtSecs ≤ u64Max) :
    validatePromotion now lease ⟨nodeId, lease.generation, minGen⟩ ledger config = .ok () ↔
      lease.HeldBy nodeId now ∧
        ∃ freshness, ledger = some freshness ∧ freshness.Admits now minGen config := by
  rw [validatePromotion_eq_ok, heldBy_iff hnow, and_assoc]
  refine and_congr_right fun _ ↦ and_congr_right fun _ ↦ (and_iff_right rfl).trans ?_
  refine exists_congr fun freshness ↦ and_congr_right fun hsome ↦ ?_
  rw [FreshnessLedger.Admits, le_saturate_iff (lt_of_le_u64Max (hledger freshness hsome))]
  refine and_congr_right fun _ ↦ and_congr_left fun _ ↦ ?_
  omega

theorem HaRuntime.Reconciled.of_writer {lease : Option LeaseRecord} {rt' : HaRuntime}
    {plan : ControllerPlan} (h : rt.Reconciled now lease minGen config rt' plan)
    (hnow : now ≤ u64Max) (hwriter : rt.role = .writer) :
    rt'.role = .writer ∧ rt'.localGeneration = generation ↔
      rt.localGeneration = generation ∧
        (RuntimeCall.reconcile now lease minGen config).Keeps rt.nodeId generation := by
  cases h with
  | @keepWriter current _ _ hlease hfence =>
    obtain ⟨hheld, hgen⟩ := (enforceWriteFence_iff hnow).mp hfence
    constructor
    · intro h
      exact ⟨h.2, current, hlease, hheld, hgen.trans h.2⟩
    · intro h
      exact ⟨hwriter, h.1⟩
  | demote _ hdenied =>
    refine iff_of_false (fun h ↦ by cases h.1) ?_
    rintro ⟨hgen, current, hlease, hheld, hgen'⟩
    refine hdenied ⟨current, hlease, ?_⟩
    rw [hwriter]
    exact (enforceWriteFence_iff hnow).mpr ⟨hheld, hgen'.trans hgen.symm⟩
  | promote hrole | wait hrole | deny hrole => cases hwriter.symm.trans hrole

theorem HaRuntime.Reconciled.of_replica {lease : Option LeaseRecord} {rt' : HaRuntime}
    {plan : ControllerPlan} (h : rt.Reconciled now lease minGen config rt' plan)
    (hnow : now ≤ u64Max)
    (hledger : ∀ freshness ∈ rt.freshness, freshness.syncedAtSecs ≤ u64Max)
    (hreplica : rt.role = .replica) :
    rt'.role = .writer ∧ rt'.localGeneration = generation ↔
      (RuntimeCall.reconcile now lease minGen config).Promotes rt.nodeId generation
        rt.freshness := by
  cases h with
  | @promote current _ _ hlease hvalid =>
    obtain ⟨hheld, freshness, hsome, hadmits⟩ := (validatePromotion_iff hnow hledger).mp hvalid
    constructor
    · intro h
      exact ⟨current, freshness, hlease, hheld, h.2, hsome, hadmits⟩
    · rintro ⟨current', freshness', hlease', -, hgen, -⟩
      cases hlease.symm.trans hlease'
      exact ⟨rfl, hgen⟩
  | wait _ hnone =>
    refine iff_of_false (fun h ↦ by cases hreplica.symm.trans h.1) ?_
    rintro ⟨current, -, hlease, -⟩
    cases hnone.symm.trans hlease
  | deny _ hdenied =>
    refine iff_of_false (fun h ↦ by cases hreplica.symm.trans h.1) ?_
    rintro ⟨current, freshness, hlease, hheld, -, hsome, hadmits⟩
    refine hdenied ⟨current, hlease, ?_⟩
    rw [hreplica]
    exact (validatePromotion_iff hnow hledger).mpr ⟨hheld, freshness, hsome, hadmits⟩
  | keepWriter hrole | demote hrole => cases hreplica.symm.trans hrole

/-- One call leaves the node a writer of `generation` exactly when it promotes the node, or when the
node was one and the call keeps it. -/
theorem HaRuntime.apply_writer_iff (hcall : call.Fits)
    (hledger : ∀ freshness ∈ rt.freshness, freshness.syncedAtSecs ≤ u64Max) :
    (rt.apply call).role = .writer ∧ (rt.apply call).localGeneration = generation ↔
      (rt.role = .replica ∧ call.Promotes rt.nodeId generation rt.freshness) ∨
      ((rt.role = .writer ∧ rt.localGeneration = generation) ∧
        call.Keeps rt.nodeId generation) := by
  cases call with
  | updateFreshness freshness =>
    simp [apply, HaRuntime.updateFreshness, RuntimeCall.Promotes, RuntimeCall.Keeps]
  | clearFreshness =>
    simp [apply, HaRuntime.clearFreshness, RuntimeCall.Promotes, RuntimeCall.Keeps]
  | reconcile now lease minGen config =>
    have hcases : rt.Reconciled now lease minGen config
        (rt.apply (.reconcile now lease minGen config))
        (rt.planActions now lease minGen config).2 := rt.planActions_cases now lease minGen config
    cases hrole : rt.role with
    | writer =>
      rw [hcases.of_writer hcall hrole]
      simp
    | replica =>
      rw [hcases.of_replica hcall hledger hrole]
      simp

theorem HaRuntime.reconcileWithOutcome_frame (rt : HaRuntime) (now : ℕ)
    (lease : Option LeaseRecord) (minGen : ℕ) (config : PromotionConfig) :
    (rt.reconcileWithOutcome now lease minGen config).1.nodeId = rt.nodeId ∧
      (rt.reconcileWithOutcome now lease minGen config).1.freshness = rt.freshness := by
  have hcases : rt.Reconciled now lease minGen config
      (rt.reconcileWithOutcome now lease minGen config).1
      (rt.planActions now lease minGen config).2 := rt.planActions_cases now lease minGen config
  generalize (rt.reconcileWithOutcome now lease minGen config).1 = rt' at hcases ⊢
  cases hcases <;> exact ⟨rfl, rfl⟩

@[simp] theorem after_append (earlier later : List RuntimeCall) :
    HaRuntime.after nodeId (earlier ++ later) =
      later.foldl HaRuntime.apply (HaRuntime.after nodeId earlier) :=
  List.foldl_append

theorem after_nodeId (calls : List RuntimeCall) :
    (HaRuntime.after nodeId calls).nodeId = nodeId := by
  induction calls using List.reverseRecOn with
  | nil => rfl
  | append_singleton calls call ih =>
    rw [after_append]
    cases call with
    | reconcile now lease minGen config =>
      exact (HaRuntime.reconcileWithOutcome_frame ..).1.trans ih
    | updateFreshness freshness => exact ih
    | clearFreshness => exact ih

theorem after_freshness (calls : List RuntimeCall) :
    (HaRuntime.after nodeId calls).freshness = ledgerAfter calls := by
  induction calls using List.reverseRecOn with
  | nil => rfl
  | append_singleton calls call ih =>
    rw [after_append, ledgerAfter, List.foldl_append, ← ledgerAfter]
    cases call with
    | reconcile now lease minGen config =>
      exact (HaRuntime.reconcileWithOutcome_frame ..).2.trans ih
    | updateFreshness freshness => rfl
    | clearFreshness => rfl

theorem ledgerAfter_fits (h : ∀ call ∈ calls, call.Fits) :
    ∀ freshness ∈ ledgerAfter calls, freshness.syncedAtSecs ≤ u64Max := by
  induction calls using List.reverseRecOn with
  | nil => exact fun _ hnone ↦ absurd hnone (by simp [ledgerAfter])
  | append_singleton calls call ih =>
    intro freshness hsome
    rw [ledgerAfter, List.foldl_append, ← ledgerAfter] at hsome
    cases call with
    | reconcile now lease minGen config =>
      exact ih (fun call hcall ↦ h call (List.mem_append_left _ hcall)) freshness hsome
    | updateFreshness ledger =>
      cases hsome
      exact h (.updateFreshness freshness) (by simp)
    | clearFreshness => cases hsome

theorem tenure_append_singleton :
    Tenure nodeId generation (calls ++ [call]) ↔
      ((HaRuntime.after nodeId calls).role = .replica ∧
        call.Promotes nodeId generation (ledgerAfter calls)) ∨
      (Tenure nodeId generation calls ∧ call.Keeps nodeId generation) := by
  constructor
  · rintro ⟨earlier, first, later, heq, hrole, hpromotes, hkeeps⟩
    rcases List.eq_nil_or_concat' later with rfl | ⟨later, last, rfl⟩
    · obtain ⟨rfl, hfirst⟩ := List.append_inj' heq rfl
      cases hfirst
      exact .inl ⟨hrole, hpromotes⟩
    · rw [← List.cons_append, ← List.append_assoc] at heq
      obtain ⟨rfl, hlast⟩ := List.append_inj' heq rfl
      cases hlast
      exact .inr ⟨⟨earlier, first, later, rfl, hrole, hpromotes,
        fun call hcall ↦ hkeeps call (List.mem_append_left _ hcall)⟩, hkeeps call (by simp)⟩
  · rintro (⟨hrole, hpromotes⟩ | ⟨⟨earlier, first, later, rfl, hrole, hpromotes, hkeeps⟩, hlast⟩)
    · exact ⟨calls, call, [], rfl, hrole, hpromotes, by simp⟩
    · refine ⟨earlier, first, later ++ [call], by simp, hrole, hpromotes, ?_⟩
      intro call' hcall'
      rcases List.mem_append.mp hcall' with hmem | hmem
      · exact hkeeps call' hmem
      · rwa [List.mem_singleton.mp hmem]

theorem writer_of_generation_iff (h : ∀ call ∈ calls, call.Fits) :
    (HaRuntime.after nodeId calls).role = .writer ∧
      (HaRuntime.after nodeId calls).localGeneration = generation ↔
      Tenure nodeId generation calls := by
  induction calls using List.reverseRecOn with
  | nil =>
    refine iff_of_false (fun h ↦ by cases h.1) ?_
    rintro ⟨earlier, call, later, heq, -⟩
    cases earlier <;> cases heq
  | append_singleton calls call ih =>
    have hcalls : ∀ call ∈ calls, call.Fits :=
      fun call hcall ↦ h call (List.mem_append_left _ hcall)
    have hledger : ∀ freshness ∈ (HaRuntime.after nodeId calls).freshness,
        freshness.syncedAtSecs ≤ u64Max := by
      rw [after_freshness]
      exact ledgerAfter_fits hcalls
    rw [after_append, tenure_append_singleton, ← ih hcalls]
    rw [List.foldl_cons, List.foldl_nil, HaRuntime.apply_writer_iff (h call (by simp)) hledger,
      after_nodeId, after_freshness]

/-- After any calls the node is writer exactly when a reconcile promoted it by a valid lease and an
admissible ledger, in exact arithmetic, and every later reconcile saw a valid lease of the same
generation. Then that is the local generation. -/
theorem writer_iff_tenure (h : ∀ call ∈ calls, call.Fits) :
    ((HaRuntime.after nodeId calls).role = .writer ↔ ∃ generation, Tenure nodeId generation calls) ∧
      ∀ generation, Tenure nodeId generation calls →
        (HaRuntime.after nodeId calls).localGeneration = generation := by
  refine ⟨⟨fun hrole ↦ ⟨_, (writer_of_generation_iff h).mp ⟨hrole, rfl⟩⟩, ?_⟩, ?_⟩
  · rintro ⟨generation, htenure⟩
    exact ((writer_of_generation_iff h).mpr htenure).1
  · intro generation htenure
    exact ((writer_of_generation_iff h).mpr htenure).2

def sampleCalls : List RuntimeCall :=
  [.updateFreshness ⟨"b", 3, 98⟩, .reconcile 100 (some ⟨"a", 4, 95, 10⟩) 3 {}, .clearFreshness,
    .reconcile 110 (some ⟨"a", 4, 105, 10⟩) 4 {}]

theorem writer_iff_tenure_sample :
    (HaRuntime.after "a" sampleCalls).role = .writer ∧
      ∃ generation, Tenure "a" generation sampleCalls := by
  have hfits : ∀ call ∈ sampleCalls, call.Fits := by simp [sampleCalls, RuntimeCall.Fits, u64Max]
  have hrole : (HaRuntime.after "a" sampleCalls).role = .writer := by decide
  exact ⟨hrole, (writer_iff_tenure hfits).1.mp hrole⟩

end RsqliteRsync.Ha
