import RsqliteRsync.Ha.Runtime

namespace RsqliteRsync.Ha

structure HaSharedState where
  nodeId : String
  role : NodeRole
  generation : ℕ
  activeLeaderId : Option String
  activeLeaderEndpoint : Option String
  leaseRecord : Option LeaseRecord
  allowReplicaReads : Bool

namespace HaSharedState

def new (nodeId : String) (allowReplicaReads : Bool) : HaSharedState :=
  ⟨nodeId, .replica, 0, none, none, none, allowReplicaReads⟩

def isWriter (st : HaSharedState) (nowSecs : ℕ) : Bool :=
  if st.role ≠ .writer then false
  else match st.leaseRecord with
    | some lease => (enforceWriteFence nowSecs st.nodeId st.generation lease).isOk
    | none => false

theorem isWriter_iff {st : HaSharedState} {now : ℕ} :
    st.isWriter now = true ↔ st.role = .writer ∧ ∃ lease, st.leaseRecord = some lease ∧
      now ≤ lease.expiry ∧ lease.holderNodeId = st.nodeId ∧ lease.generation = st.generation := by
  unfold isWriter
  split
  case isTrue h => simp [h]
  case isFalse h =>
    cases hlease : st.leaseRecord with
    | none => simp
    | some lease =>
      have hfence := enforceWriteFence_eq_ok now st.nodeId st.generation lease
      cases hres : enforceWriteFence now st.nodeId st.generation lease with
      | ok u => simp_all [Except.isOk, Except.toBool]
      | error e => simp_all [Except.isOk, Except.toBool]

theorem isWriter_of_le {st : HaSharedState} {t t' : ℕ} (hle : t ≤ t')
    (h : st.isWriter t' = true) : st.isWriter t = true := by
  obtain ⟨hrole, lease, hlease, ht, hfence⟩ := isWriter_iff.mp h
  exact isWriter_iff.mpr ⟨hrole, lease, hlease, hle.trans ht, hfence⟩

end HaSharedState

/-- The fate of `std::fs::write`: a failure before the file is opened leaves it alone, a later
one leaves a strict part of the new text. -/
inductive WriteResult
  | ok
  | notOpened (error : String)
  | cutShort (error : String) (kept : ℕ)

def WriteResult.content (text old : String) : WriteResult → String
  | .ok => text
  | .notOpened _ => old
  | .cutShort _ kept => String.ofList (text.toList.take (min kept (text.length - 1)))

def WriteResult.result : WriteResult → Except String Unit
  | .ok => .ok ()
  | .notOpened error | .cutShort error _ => .error error

structure ActionIo where
  roleState : WriteResult := .ok
  audit : Except String Unit := .ok ()
  readiness : WriteResult := .ok

/-- What the executor acts on. `readinessFile` is `none` when no readiness path is configured;
the audit log is written and never read. -/
structure HaWorld where
  roleState : String
  readinessState : Bool
  readinessFile : Option String
  shared : HaSharedState

abbrev Effect := HaWorld → Except String Unit × HaWorld

def Effect.andThen (first second : Effect) : Effect := fun w ↦
  match first w with
  | (.ok (), w') => second w'
  | (.error e, w') => (.error e, w')

namespace FileActionExecutor

def writeRoleState (io : ActionIo) (state : String) : Effect := fun w ↦
  (io.roleState.result, { w with roleState := io.roleState.content (state ++ "\n") w.roleState })

def appendAudit (io : ActionIo) : Effect := fun w ↦ (io.audit, w)

def ensureReplica (io : ActionIo) : Effect := (writeRoleState io "replica").andThen (appendAudit io)

def enableWriter (io : ActionIo) (generation : ℕ) : Effect :=
  (writeRoleState io s!"writer:{generation}").andThen (appendAudit io)

def disableWriter (io : ActionIo) : Effect := (writeRoleState io "replica").andThen (appendAudit io)

def keepWriter (io : ActionIo) : Effect := appendAudit io

def recordPromotionDenied (io : ActionIo) : Effect := appendAudit io

end FileActionExecutor

namespace ReadinessAwareExecutor

def writeReadiness (io : ActionIo) (ready : Bool) : Effect := fun w ↦
  let w := { w with readinessState := ready }
  match w.readinessFile with
  | none => (.ok (), w)
  | some old =>
    let text := if ready then "ready\n" else "not-ready\n"
    (io.readiness.result, { w with readinessFile := some (io.readiness.content text old) })

def publish (inner : Effect) (io : ActionIo) (ready : Bool)
    (update : HaSharedState → HaSharedState) : Effect :=
  (inner.andThen (writeReadiness io ready)).andThen fun w ↦
    (.ok (), { w with shared := update w.shared })

def ensureReplica (io : ActionIo) : Effect :=
  publish (FileActionExecutor.ensureReplica io) io false fun st ↦ { st with role := .replica }

def enableWriter (io : ActionIo) (generation : ℕ) : Effect :=
  publish (FileActionExecutor.enableWriter io generation) io true fun st ↦
    { st with role := .writer, generation := generation }

def disableWriter (io : ActionIo) : Effect :=
  publish (FileActionExecutor.disableWriter io) io false fun st ↦ { st with role := .replica }

def keepWriter (io : ActionIo) : Effect :=
  publish (FileActionExecutor.keepWriter io) io true fun st ↦ { st with role := .writer }

def recordPromotionDenied (io : ActionIo) : Effect :=
  publish (FileActionExecutor.recordPromotionDenied io) io false fun st ↦
    { st with role := .replica }

def run (io : ActionIo) : HaAction → Effect
  | .ensureReplica => ensureReplica io
  | .enableWriter generation => enableWriter io generation
  | .disableWriter _ => disableWriter io
  | .keepWriter => keepWriter io
  | .recordPromotionDenied _ => recordPromotionDenied io

section Spec

variable (io : ActionIo) (w : HaWorld)

theorem writeReadiness_frame (ready : Bool) :
    (writeReadiness io ready w).2.shared = w.shared ∧
      (writeReadiness io ready w).2.roleState = w.roleState ∧
      (writeReadiness io ready w).2.readinessState = ready := by
  unfold writeReadiness
  cases w.readinessFile with
  | none => exact ⟨rfl, rfl, rfl⟩
  | some old => exact ⟨rfl, rfl, rfl⟩

def roleAfter (old : String) : HaAction → String
  | .ensureReplica | .disableWriter _ => io.roleState.content "replica\n" old
  | .enableWriter generation => io.roleState.content (s!"writer:{generation}" ++ "\n") old
  | .keepWriter | .recordPromotionDenied _ => old

def published (st : HaSharedState) : HaAction → HaSharedState
  | .enableWriter generation => { st with role := .writer, generation := generation }
  | .keepWriter => { st with role := .writer }
  | .ensureReplica | .disableWriter _ | .recordPromotionDenied _ => { st with role := .replica }

def readyAfter : HaAction → Bool
  | .enableWriter _ | .keepWriter => true
  | .ensureReplica | .disableWriter _ | .recordPromotionDenied _ => false

theorem publish_cases {inner : Effect} (ready : Bool) (update : HaSharedState → HaSharedState)
    (hinner : (inner w).2.shared = w.shared) :
    (publish inner io ready update w).2.roleState = (inner w).2.roleState ∧
      ((publish inner io ready update w).1 = .ok () ∧ (inner w).1 = .ok () ∧
          (publish inner io ready update w).2.shared = update w.shared ∧
          (publish inner io ready update w).2.readinessState = ready ∨
        (∃ e, (publish inner io ready update w).1 = .error e) ∧
          (publish inner io ready update w).2.shared = w.shared) := by
  rcases hin : inner w with ⟨res, w₁⟩
  rw [hin] at hinner
  cases res with
  | error e =>
    have hrun : publish inner io ready update w = (.error e, w₁) := by
      simp [publish, Effect.andThen, hin]
    rw [hrun]
    exact ⟨rfl, .inr ⟨⟨e, rfl⟩, hinner⟩⟩
  | ok u =>
    obtain ⟨hshared, hrole, hready⟩ := writeReadiness_frame io w₁ ready
    rcases hread : writeReadiness io ready w₁ with ⟨res, w₂⟩
    rw [hread] at hshared hrole hready
    cases res with
    | error e =>
      have hrun : publish inner io ready update w = (.error e, w₂) := by
        simp [publish, Effect.andThen, hin, hread]
      rw [hrun]
      exact ⟨hrole, .inr ⟨⟨e, rfl⟩, hshared.trans hinner⟩⟩
    | ok u =>
      have hrun : publish inner io ready update w =
          (.ok (), { w₂ with shared := update w₂.shared }) := by
        simp [publish, Effect.andThen, hin, hread]
      rw [hrun]
      exact ⟨hrole, .inl ⟨rfl, rfl, by rw [hshared, hinner], hready⟩⟩

theorem writeThenAudit (state : String) :
    (((FileActionExecutor.writeRoleState io state).andThen
        (FileActionExecutor.appendAudit io)) w).2 =
      { w with roleState := io.roleState.content (state ++ "\n") w.roleState } ∧
    ((((FileActionExecutor.writeRoleState io state).andThen
        (FileActionExecutor.appendAudit io)) w).1 = .ok () → io.roleState = .ok) := by
  unfold Effect.andThen FileActionExecutor.writeRoleState FileActionExecutor.appendAudit
  cases io.roleState with
  | ok => exact ⟨rfl, fun _ ↦ rfl⟩
  | notOpened e => exact ⟨rfl, nofun⟩
  | cutShort e kept => exact ⟨rfl, nofun⟩

/-- What one action can do: it leaves its text in the role-state file, and it publishes all or
nothing to the gateway. -/
inductive Ran (a : HaAction) : Except String Unit × HaWorld → Prop
  | completed {w' : HaWorld} : w'.roleState = roleAfter {} w.roleState a →
      w'.shared = published w.shared a → w'.readinessState = readyAfter a → Ran a (.ok (), w')
  | failed {w' : HaWorld} {e : String} : w'.roleState = roleAfter io w.roleState a →
      w'.shared = w.shared → Ran a (.error e, w')

theorem ran_of_publish {a : HaAction} {inner : Effect}
    (hrole : (inner w).2 = { w with roleState := roleAfter io w.roleState a })
    (hok : (inner w).1 = .ok () → roleAfter io w.roleState a = roleAfter {} w.roleState a) :
    Ran io w a (publish inner io (readyAfter a) (fun st ↦ published st a) w) := by
  obtain ⟨hfile, h⟩ := publish_cases io w (readyAfter a) (fun st ↦ published st a)
    (show (inner w).2.shared = w.shared by rw [hrole])
  rw [hrole] at hfile
  rcases hrun : publish inner io (readyAfter a) (fun st ↦ published st a) w with ⟨res, w'⟩
  rw [hrun] at hfile h
  rcases h with ⟨hres, hin, hshared, hready⟩ | ⟨⟨e, hres⟩, hshared⟩
  · dsimp only at hres
    rw [hres]
    exact .completed (hfile.trans (hok hin)) hshared hready
  · dsimp only at hres
    rw [hres]
    exact .failed hfile hshared

theorem run_spec (a : HaAction) : Ran io w a (run io a w) := by
  have hok (state : String) (h : (((FileActionExecutor.writeRoleState io state).andThen
      (FileActionExecutor.appendAudit io)) w).1 = .ok ()) : io.roleState = .ok :=
    (writeThenAudit io w state).2 h
  cases a with
  | ensureReplica =>
    exact ran_of_publish io w (writeThenAudit io w "replica").1 fun h ↦ by
      simp only [roleAfter, hok _ h]
  | enableWriter generation =>
    exact ran_of_publish io w (writeThenAudit io w s!"writer:{generation}").1 fun h ↦ by
      simp only [roleAfter, hok _ h]
  | disableWriter reason =>
    exact ran_of_publish io w (writeThenAudit io w "replica").1 fun h ↦ by
      simp only [roleAfter, hok _ h]
  | keepWriter => exact ran_of_publish io w rfl fun _ ↦ rfl
  | recordPromotionDenied violation => exact ran_of_publish io w rfl fun _ ↦ rfl

end Spec

end ReadinessAwareExecutor

structure ActionExecutionFailure where
  action : HaAction
  error : String

def executeActions (stopOnError : Bool) (ios : ℕ → ActionIo) :
    ℕ → List HaAction → HaWorld → List ActionExecutionFailure × HaWorld
  | _, [], w => ([], w)
  | i, action :: rest, w =>
    match ReadinessAwareExecutor.run (ios i) action w with
    | (.ok (), w') => executeActions stopOnError ios (i + 1) rest w'
    | (.error error, w') =>
      if stopOnError then ([⟨action, error⟩], w')
      else
        let (failures, w'') := executeActions stopOnError ios (i + 1) rest w'
        (⟨action, error⟩ :: failures, w'')

structure ActionExecutionReport where
  plan : ControllerPlan
  failures : List ActionExecutionFailure

def ActionExecutionReport.isSuccess (report : ActionExecutionReport) : Bool :=
  report.failures.isEmpty

def executeControllerPlan (plan : ControllerPlan) (stopOnError : Bool) (ios : ℕ → ActionIo)
    (w : HaWorld) : ActionExecutionReport × HaWorld :=
  let (failures, w') := executeActions stopOnError ios 0 plan.actions w
  (⟨plan, failures⟩, w')

end RsqliteRsync.Ha
