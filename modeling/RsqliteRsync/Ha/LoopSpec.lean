import RsqliteRsync.Ha.Loop

namespace RsqliteRsync.Ha

def IoFails (io : ActionIo) (writesRole hasReadinessFile : Bool) : Prop :=
  writesRole ∧ io.roleState ≠ .ok ∨ io.audit ≠ .ok () ∨ hasReadinessFile ∧ io.readiness ≠ .ok

def HaAction.writesRole : HaAction → Bool
  | .ensureReplica | .enableWriter _ | .disableWriter _ => true
  | .keepWriter | .recordPromotionDenied _ => false

def HaAction.Demotes : HaAction → Prop
  | .ensureReplica | .disableWriter _ | .recordPromotionDenied _ => True
  | .enableWriter _ | .keepWriter => False

theorem WriteResult.result_eq_ok {r : WriteResult} : r.result = .ok () ↔ r = .ok := by
  cases r with
  | ok => simp [WriteResult.result]
  | notOpened e => simp [WriteResult.result]
  | cutShort e kept => simp [WriteResult.result]

namespace ReadinessAwareExecutor

variable (io : ActionIo) (a : HaAction) (w : HaWorld)

theorem andThen_eq_ok {first second : Effect} :
    ((first.andThen second) w).1 = .ok () ↔
      (first w).1 = .ok () ∧ (second (first w).2).1 = .ok () := by
  unfold Effect.andThen
  rcases first w with ⟨res, w'⟩
  cases res with
  | ok u => simp
  | error e => simp

theorem writeReadiness_eq_ok (ready : Bool) : (writeReadiness io ready w).1 = .ok () ↔
    (w.readinessFile.isSome → io.readiness = .ok) := by
  unfold writeReadiness
  cases w.readinessFile with
  | none => simp
  | some old => simp [WriteResult.result_eq_ok]

theorem publish_eq_ok {inner : Effect} (ready : Bool) (update : HaSharedState → HaSharedState)
    (hfile : (inner w).2.readinessFile = w.readinessFile) :
    (publish inner io ready update w).1 = .ok () ↔
      (inner w).1 = .ok () ∧ (w.readinessFile.isSome → io.readiness = .ok) := by
  rw [publish, andThen_eq_ok, andThen_eq_ok, writeReadiness_eq_ok, hfile]
  simp

theorem writeThenAudit_eq_ok (state : String) :
    (((FileActionExecutor.writeRoleState io state).andThen
        (FileActionExecutor.appendAudit io)) w).1 = .ok () ↔
      io.roleState = .ok ∧ io.audit = .ok () := by
  rw [andThen_eq_ok]
  exact and_congr WriteResult.result_eq_ok Iff.rfl

theorem run_eq_ok :
    (run io a w).1 = .ok () ↔ ¬ IoFails io a.writesRole w.readinessFile.isSome := by
  have hrole (state : String) (ready : Bool) (update : HaSharedState → HaSharedState) :
      (publish ((FileActionExecutor.writeRoleState io state).andThen
        (FileActionExecutor.appendAudit io)) io ready update w).1 = .ok () ↔
        ¬ IoFails io true w.readinessFile.isSome := by
    rw [publish_eq_ok _ _ _ _ (by rw [(writeThenAudit io w state).1]), writeThenAudit_eq_ok]
    simp [IoFails, and_assoc]
  have haudit (ready : Bool) (update : HaSharedState → HaSharedState) :
      (publish (FileActionExecutor.appendAudit io) io ready update w).1 = .ok () ↔
        ¬ IoFails io false w.readinessFile.isSome := by
    rw [publish_eq_ok _ _ _ _ rfl]
    simp [IoFails, FileActionExecutor.appendAudit]
  cases a with
  | ensureReplica => exact hrole _ _ _
  | enableWriter generation => exact hrole _ _ _
  | disableWriter reason => exact hrole _ _ _
  | keepWriter => exact haudit _ _
  | recordPromotionDenied violation => exact haudit _ _

theorem writeReadiness_isSome (ready : Bool) :
    (writeReadiness io ready w).2.readinessFile.isSome = w.readinessFile.isSome := by
  unfold writeReadiness
  cases w.readinessFile with
  | none => rfl
  | some old => rfl

theorem andThen_isSome {first second : Effect}
    (h₁ : ∀ w, (first w).2.readinessFile.isSome = w.readinessFile.isSome)
    (h₂ : ∀ w, (second w).2.readinessFile.isSome = w.readinessFile.isSome) (w : HaWorld) :
    ((first.andThen second) w).2.readinessFile.isSome = w.readinessFile.isSome := by
  have hfirst := h₁ w
  unfold Effect.andThen
  rcases hrun : first w with ⟨res, w'⟩
  rw [hrun] at hfirst
  cases res with
  | ok u => exact (h₂ w').trans hfirst
  | error e => exact hfirst

theorem run_isSome : (run io a w).2.readinessFile.isSome = w.readinessFile.isSome := by
  have hpublish {inner : Effect} (ready : Bool) (update : HaSharedState → HaSharedState)
      (hinner : ∀ w, (inner w).2.readinessFile.isSome = w.readinessFile.isSome) :
      (publish inner io ready update w).2.readinessFile.isSome = w.readinessFile.isSome :=
    andThen_isSome (andThen_isSome hinner fun w ↦ writeReadiness_isSome io w ready) (fun _ ↦ rfl) w
  have hwrite (state : String) (w : HaWorld) :
      (((FileActionExecutor.writeRoleState io state).andThen
        (FileActionExecutor.appendAudit io)) w).2.readinessFile.isSome =
        w.readinessFile.isSome := andThen_isSome (fun _ ↦ rfl) (fun _ ↦ rfl) w
  cases a with
  | ensureReplica => exact hpublish _ _ (hwrite _)
  | enableWriter generation => exact hpublish _ _ (hwrite _)
  | disableWriter reason => exact hpublish _ _ (hwrite _)
  | keepWriter => exact hpublish _ _ fun _ ↦ rfl
  | recordPromotionDenied violation => exact hpublish _ _ fun _ ↦ rfl

end ReadinessAwareExecutor

section Execute

open ReadinessAwareExecutor

variable (stop : Bool) (ios : ℕ → ActionIo)

section Cons

variable {i : ℕ} {a : HaAction} {w w' : HaWorld}

theorem executeActions_of_ok (h : run (ios i) a w = (.ok (), w')) (rest : List HaAction) :
    executeActions stop ios i (a :: rest) w = executeActions stop ios (i + 1) rest w' := by
  simp [executeActions, h]

theorem executeActions_of_error {e : String} (h : run (ios i) a w = (.error e, w'))
    (rest : List HaAction) :
    (executeActions stop ios i (a :: rest) w).1 ≠ [] ∧
      (executeActions stop ios i (a :: rest) w).2 =
        if stop then w' else (executeActions stop ios (i + 1) rest w').2 := by
  cases stop with
  | true => simp [executeActions, h]
  | false => simp [executeActions, h]

end Cons

theorem run_shared (io : ActionIo) (a : HaAction) (w : HaWorld) :
    ∃ role generation, (run io a w).2.shared =
      { w.shared with role := role, generation := generation } := by
  have hran := run_spec io w a
  generalize run io a w = ran at hran
  cases hran with
  | completed hrole hshared hready =>
    rw [hshared]
    cases a <;> exact ⟨_, _, rfl⟩
  | failed hrole hshared => exact ⟨w.shared.role, w.shared.generation, hshared⟩

theorem executeActions_shared (i : ℕ) (actions : List HaAction) (w : HaWorld) :
    ∃ role generation, (executeActions stop ios i actions w).2.shared =
      { w.shared with role := role, generation := generation } := by
  induction actions generalizing i w with
  | nil => exact ⟨w.shared.role, w.shared.generation, rfl⟩
  | cons a rest ih =>
    obtain ⟨role, gen, hfirst⟩ := run_shared (ios i) a w
    rcases hrun : run (ios i) a w with ⟨res, w'⟩
    rw [hrun] at hfirst
    obtain ⟨role', gen', hrest⟩ := ih (i + 1) w'
    rw [hfirst] at hrest
    cases res with
    | ok u =>
      rw [executeActions_of_ok stop ios hrun]
      exact ⟨role', gen', hrest⟩
    | error e =>
      rw [(executeActions_of_error stop ios hrun rest).2]
      cases stop with
      | true => exact ⟨role, gen, hfirst⟩
      | false => exact ⟨role', gen', hrest⟩

def AllFail (hasReadinessFile : Bool) : ℕ → List HaAction → Prop
  | _, [] => True
  | i, action :: rest => IoFails (ios i) action.writesRole hasReadinessFile ∧
      (stop = false → AllFail hasReadinessFile (i + 1) rest)

/-- Demotions never touch the published generation, and the published role stays writer only
when all of them fail. -/
theorem executeActions_demotes {i : ℕ} {actions : List HaAction} {w : HaWorld}
    (h : ∀ a ∈ actions, a.Demotes) :
    (executeActions stop ios i actions w).2.shared.nodeId = w.shared.nodeId ∧
    (executeActions stop ios i actions w).2.shared.generation = w.shared.generation ∧
    ((executeActions stop ios i actions w).2.shared.role = .writer ↔
      w.shared.role = .writer ∧ AllFail stop ios w.readinessFile.isSome i actions) := by
  induction actions generalizing i w with
  | nil => simp [executeActions, AllFail]
  | cons a rest ih =>
    have hok := run_eq_ok (ios i) a w
    have hfile := run_isSome (ios i) a w
    have hran := run_spec (ios i) w a
    have ih := fun w ↦ ih (i := i + 1) (w := w) fun b hb ↦ h b (List.mem_cons_of_mem a hb)
    have hdemotes := h a List.mem_cons_self
    rcases hrun : run (ios i) a w with ⟨res, w'⟩
    rw [hrun] at hok hfile hran
    cases hran with
    | completed hrole hshared hready =>
      obtain ⟨hid, hgen, hrole'⟩ := ih w'
      have hpub : w'.shared = { w.shared with role := .replica } := by
        cases a <;> first | exact hshared | exact hdemotes.elim
      rw [executeActions_of_ok stop ios hrun]
      refine ⟨by rw [hid, hpub], by rw [hgen, hpub], ?_⟩
      rw [hrole', hpub]
      simp only [AllFail, hok.mp rfl, false_and, and_false, reduceCtorEq]
    | @failed _ e hrole hshared =>
      have hfails : IoFails (ios i) a.writesRole w.readinessFile.isSome := by
        by_contra hne
        cases hok.mpr hne
      rw [(executeActions_of_error stop ios hrun rest).2]
      cases stop with
      | true =>
        rw [if_pos rfl, hshared]
        simp [AllFail, hfails]
      | false =>
        obtain ⟨hid, hgen, hrole'⟩ := ih w'
        rw [if_neg Bool.false_ne_true]
        refine ⟨by rw [hid, hshared], by rw [hgen, hshared], ?_⟩
        rw [hrole', hshared, hfile]
        simp [AllFail, hfails]

end Execute

def observed : Except String (Option LeaseRecord) → Option LeaseRecord
  | .ok lease => lease
  | .error _ => none

namespace HaNode

variable {args : HaArgs} {node node' : HaNode} {input : TickInput}

theorem planActions_observation (rt : HaRuntime) (now : ℕ) (lease : Option LeaseRecord)
    (minGen : ℕ) (config : PromotionConfig) :
    (rt.planActions now lease minGen config).2.outcome.leaseObservation =
      HaRuntime.observeLeaseChange rt.lease lease := by
  rcases rt with ⟨nodeId, role, gen, last, fresh⟩
  cases role with
  | writer =>
    cases lease with
    | none => rfl
    | some current =>
      simp only [HaRuntime.planActions, HaRuntime.reconcileWithOutcome]
      split <;> rfl
  | replica =>
    cases lease with
    | none => rfl
    | some current =>
      simp only [HaRuntime.planActions, HaRuntime.reconcileWithOutcome]
      split <;> rfl

theorem tickWithReader_spec (node : HaNode) (now : ℕ) (read : Except String (Option LeaseRecord))
    (ios : ℕ → ActionIo) :
    (node.tickWithReader now read ios).2 = (node.tick now (observed read) ios).2 ∧
      (node.tickWithReader now read ios).1.report = (node.tick now (observed read) ios).1 ∧
      currentLease (node.tickWithReader now read ios).1 = observed read := by
  cases read with
  | error e => exact ⟨rfl, rfl, rfl⟩
  | ok lease =>
    refine ⟨rfl, rfl, ?_⟩
    change leaseFromObservation (HaRuntime.planActions _ _ _ _ _).2.outcome.leaseObservation = _
    rw [planActions_observation, leaseFromObservation_observe]
    rfl

theorem tick_cases (node : HaNode) (now : ℕ) (lease : Option LeaseRecord) (ios : ℕ → ActionIo) :
    ∃ rt plan, node.controller.runtime.Reconciled now lease node.controller.minSourceGeneration
        node.controller.promotionConfig rt plan ∧
      node.tick now lease ios =
        (⟨plan, (executeActions node.controller.stopOnError ios 0 plan.actions node.world).1⟩,
          ⟨{ node.controller with runtime := rt },
            (executeActions node.controller.stopOnError ios 0 plan.actions node.world).2⟩) :=
  ⟨_, _, node.controller.runtime.planActions_cases now lease _ _, rfl⟩

theorem tick_frame (node : HaNode) (now : ℕ) (lease : Option LeaseRecord) (ios : ℕ → ActionIo) :
    (node.tick now lease ios).2.controller.runtime.nodeId = node.controller.runtime.nodeId ∧
      (node.tick now lease ios).2.world.shared.nodeId = node.world.shared.nodeId ∧
      (node.tick now lease ios).2.world.shared.leaseRecord = node.world.shared.leaseRecord := by
  obtain ⟨rt, plan, hcases, htick⟩ := node.tick_cases now lease ios
  obtain ⟨role, gen, hshared⟩ :=
    executeActions_shared node.controller.stopOnError ios 0 plan.actions node.world
  rw [htick]
  refine ⟨?_, by rw [hshared], by rw [hshared]⟩
  cases hcases <;> rfl

def refreshed (node : HaNode) :
    Option (Except String (Option FreshnessLedger)) → HaNode
  | some (.ok freshness) => { node with controller.runtime.freshness := freshness }
  | _ => node

section Refreshed

variable (node : HaNode) (read : Option (Except String (Option FreshnessLedger)))

@[simp] theorem refreshed_world : (node.refreshed read).world = node.world := by
  unfold refreshed; split <;> rfl

@[simp] theorem refreshed_stopOnError :
    (node.refreshed read).controller.stopOnError = node.controller.stopOnError := by
  unfold refreshed; split <;> rfl

@[simp] theorem refreshed_minSourceGeneration :
    (node.refreshed read).controller.minSourceGeneration = node.controller.minSourceGeneration := by
  unfold refreshed; split <;> rfl

@[simp] theorem refreshed_promotionConfig :
    (node.refreshed read).controller.promotionConfig = node.controller.promotionConfig := by
  unfold refreshed; split <;> rfl

@[simp] theorem refreshed_role :
    (node.refreshed read).controller.runtime.role = node.controller.runtime.role := by
  unfold refreshed; split <;> rfl

@[simp] theorem refreshed_nodeId :
    (node.refreshed read).controller.runtime.nodeId = node.controller.runtime.nodeId := by
  unfold refreshed; split <;> rfl

@[simp] theorem refreshed_localGeneration :
    (node.refreshed read).controller.runtime.localGeneration =
      node.controller.runtime.localGeneration := by
  unfold refreshed; split <;> rfl

end Refreshed

theorem readFreshness_of_tickInput {outcome : ControllerTickOutcome}
    (h : node.tickInput input = .ok (outcome, node')) :
    node.readFreshness input.freshness = .ok (node.refreshed input.freshness) := by
  rcases input with ⟨freshness, now, lease, ios⟩
  cases freshness with
  | none => rfl
  | some res =>
    cases res with
    | ok f => rfl
    | error e => cases h

theorem tickInput_ok {outcome : ControllerTickOutcome}
    (h : node.tickInput input = .ok (outcome, node')) :
    ∃ now, input.now = .ok now ∧
      node' = ((node.refreshed input.freshness).tick now (observed input.lease) input.ios).2 ∧
      outcome.report =
        ((node.refreshed input.freshness).tick now (observed input.lease) input.ios).1 ∧
      currentLease outcome = observed input.lease := by
  have hfresh := readFreshness_of_tickInput h
  rcases input with ⟨freshness, now, lease, ios⟩
  cases now with
  | error e =>
    rw [tickInput, hfresh] at h
    cases h
  | ok now =>
    rw [tickInput, hfresh] at h
    have hrun : (node.refreshed freshness).tickWithReader now lease ios = (outcome, node') :=
      Except.ok.inj h
    obtain ⟨h₁, h₂, h₃⟩ := tickWithReader_spec (node.refreshed freshness) now lease ios
    rw [hrun] at h₁ h₂ h₃
    exact ⟨now, rfl, h₁, h₂, h₃⟩

theorem tickInput_frame {outcome : ControllerTickOutcome}
    (h : node.tickInput input = .ok (outcome, node')) :
    node'.controller.runtime.nodeId = node.controller.runtime.nodeId ∧
      node'.world.shared.nodeId = node.world.shared.nodeId ∧
      node'.world.shared.leaseRecord = node.world.shared.leaseRecord := by
  obtain ⟨now, -, rfl, -, -⟩ := tickInput_ok h
  have hframe :=
    (node.refreshed input.freshness).tick_frame now (observed input.lease) input.ios
  rwa [refreshed_nodeId, refreshed_world] at hframe

theorem iterate_tickInput (h : node.iterate args input = .ok node') :
    ∃ outcome mid, node.tickInput input = .ok (outcome, mid) ∧
      node' = mid.storeLease args (currentLease outcome) := by
  rcases htick : node.tickInput input with e | ⟨outcome, mid⟩
  · rw [iterate, htick] at h
    cases h
  · rw [iterate, htick] at h
    exact ⟨outcome, mid, rfl, (Except.ok.inj h).symm⟩

theorem iterate_ok (h : node.iterate args input = .ok node') :
    ∃ now, input.now = .ok now ∧
      node' = ((node.refreshed input.freshness).tick now (observed input.lease)
        input.ios).2.storeLease args (observed input.lease) := by
  obtain ⟨outcome, mid, htick, rfl⟩ := iterate_tickInput h
  obtain ⟨now, hnow, hmid, -, hlease⟩ := tickInput_ok htick
  exact ⟨now, hnow, by rw [hlease, hmid]⟩

theorem startup_ok {first : TickInput} (h : startup args node first = .ok node') :
    node' = node ∨ ∃ outcome, node.tickInput first = .ok (outcome, node') ∧
      outcome.report.isSuccess = true := by
  unfold startup at h
  split at h
  case isFalse =>
    cases h
    exact .inl rfl
  case isTrue =>
    rcases htick : node.tickInput first with e | ⟨outcome, mid⟩
    · rw [htick] at h
      cases h
    · rw [htick] at h
      cases outcome with
      | leaseReadFailed e report => cases h
      | executed report =>
        have hsuccess (hrun : (if report.isSuccess then pure mid
            else throw (.startupActionsFailed report.failures.length) : Except HaError HaNode) =
            .ok node') : report.isSuccess = true ∧ mid = node' := by
          split at hrun
          case isTrue hok => exact ⟨hok, Except.ok.inj hrun⟩
          case isFalse => cases hrun
        obtain ⟨hok, rfl⟩ : report.isSuccess = true ∧ mid = node' := by
          cases hd : report.plan.outcome.decision with
          | promoteToWriter g => exact hsuccess (by simpa [bind, Except.bind, hd] using h)
          | keepWriter => exact hsuccess (by simpa [bind, Except.bind, hd] using h)
          | keepReplica => simp [bind, Except.bind, hd, throw, throwThe, MonadExceptOf.throw] at h
          | demoteToReplica r =>
            simp [bind, Except.bind, hd, throw, throwThe, MonadExceptOf.throw] at h
        exact .inr ⟨_, rfl, hok⟩

end HaNode

end RsqliteRsync.Ha
