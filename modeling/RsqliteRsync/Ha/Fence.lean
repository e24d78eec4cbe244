import RsqliteRsync.Ha.LoopSpec

namespace RsqliteRsync.Ha

def EveryStep (args : HaArgs) (Q : HaNode → TickInput → HaNode → Prop) :
    HaNode → List TickInput → Prop
  | _, [] => True
  | node, input :: rest =>
    match node.iterate args input with
    | .ok node' => Q node input node' ∧ EveryStep args Q node' rest
    | .error _ => True

theorem EveryStep.congr {args : HaArgs} {Q Q' : HaNode → TickInput → HaNode → Prop}
    (h : ∀ node input node', node.iterate args input = .ok node' →
      (Q node input node' ↔ Q' node input node')) (node : HaNode) (inputs : List TickInput) :
    EveryStep args Q node inputs ↔ EveryStep args Q' node inputs := by
  induction inputs generalizing node with
  | nil => exact Iff.rfl
  | cons input rest ih =>
    unfold EveryStep
    cases hrun : node.iterate args input with
    | error e => exact Iff.rfl
    | ok node' => exact and_congr (h node input node' hrun) (ih node')

theorem EveryStep.of_invariant {args : HaArgs} {Q R : HaNode → TickInput → HaNode → Prop}
    (Inv : HaNode → Prop)
    (hstep : ∀ node input node', node.iterate args input = .ok node' → Inv node →
      Q node input node' → Inv node' ∧ R node input node') {node : HaNode}
    {inputs : List TickInput} (hinv : Inv node) (h : EveryStep args Q node inputs) :
    EveryStep args R node inputs := by
  induction inputs generalizing node with
  | nil => trivial
  | cons input rest ih =>
    unfold EveryStep at h ⊢
    cases hrun : node.iterate args input with
    | error e => trivial
    | ok node' =>
      rw [hrun] at h
      obtain ⟨hinv', hR⟩ := hstep node input node' hrun hinv h.1
      exact ⟨hR, ih hinv' h.2⟩

def FenceAgrees (node : HaNode) : Prop :=
  ∀ t, node.world.shared.isWriter t = true → node.controller.runtime.role = .writer

/-- The gateway was writer and the lease that it will be given is the one it was writer for,
the controller steps down, and every demoting action it attempts fails. -/
structure FailsOpen (node : HaNode) (input : TickInput) : Prop where
  published : node.world.shared.role = .writer
  held : ∃ lease, observed input.lease = some lease ∧
    lease.holderNodeId = node.world.shared.nodeId ∧
    lease.generation = node.world.shared.generation
  denied : ∀ now, input.now = .ok now →
    ¬ (node.refreshed input.freshness).controller.runtime.WriterAllowed now
      (observed input.lease) node.controller.minSourceGeneration node.controller.promotionConfig
  failed : IoFails (input.ios 0) true node.world.readinessFile.isSome
  failed' : node.controller.stopOnError = false →
    IoFails (input.ios 1) (decide (node.controller.runtime.role = .writer))
      node.world.readinessFile.isSome

namespace HaNode

variable {args : HaArgs} {node node' : HaNode} {input : TickInput}

/-- After demotions, the gateway is out of step exactly when it was writer for the lease it is
given and all of them failed. -/
theorem fence_of_demotions {lease : Option LeaseRecord} {actions : List HaAction}
    {controller : HaController} {w : HaWorld} {ios : ℕ → ActionIo} {stop : Bool}
    (hrole : controller.runtime.role = .replica) (h : ∀ a ∈ actions, a.Demotes) :
    FenceAgrees (HaNode.storeLease args ⟨controller, (executeActions stop ios 0 actions w).2⟩ lease)
      ↔ ¬ (w.shared.role = .writer ∧ AllFail stop ios w.readinessFile.isSome 0 actions ∧
        ∃ L, lease = some L ∧ L.holderNodeId = w.shared.nodeId ∧
          L.generation = w.shared.generation) := by
  obtain ⟨hid, hgen, hwriter⟩ := executeActions_demotes stop ios (i := 0) (w := w) h
  constructor
  · rintro hfence ⟨hpub, hfail, L, hL, hholder, hgen'⟩
    have hw : (HaNode.storeLease args ⟨controller, (executeActions stop ios 0 actions w).2⟩
        lease).world.shared.isWriter 0 = true :=
      HaSharedState.isWriter_iff.mpr ⟨hwriter.mpr ⟨hpub, hfail⟩, L, hL, Nat.zero_le _,
        hholder.trans hid.symm, hgen'.trans hgen.symm⟩
    have := hfence 0 hw
    rw [storeLease, hrole] at this
    cases this
  · intro hopen t ht
    obtain ⟨hpub, L, hL, -, hholder, hgen'⟩ := HaSharedState.isWriter_iff.mp ht
    obtain ⟨hpub', hfail⟩ := hwriter.mp hpub
    exact absurd ⟨hpub', hfail, L, hL, hholder.trans hid, hgen'.trans hgen⟩ hopen

theorem failsOpen_iff {now : ℕ} {a₁ a₂ : HaAction} (hnow : input.now = .ok now)
    (hdenied : ¬ (node.refreshed input.freshness).controller.runtime.WriterAllowed now
      (observed input.lease) node.controller.minSourceGeneration node.controller.promotionConfig)
    (h₁ : a₁.writesRole = true)
    (h₂ : a₂.writesRole = decide (node.controller.runtime.role = .writer)) :
    (node.world.shared.role = .writer ∧
      AllFail node.controller.stopOnError input.ios node.world.readinessFile.isSome 0 [a₁, a₂] ∧
      ∃ L, observed input.lease = some L ∧ L.holderNodeId = node.world.shared.nodeId ∧
        L.generation = node.world.shared.generation) ↔ FailsOpen node input := by
  simp only [AllFail, h₁, h₂]
  constructor
  · rintro ⟨hpub, ⟨hfail, hfail'⟩, hheld⟩
    refine ⟨hpub, hheld, fun now' hnow' ↦ ?_, hfail, fun hs ↦ (hfail' hs).1⟩
    cases hnow.symm.trans hnow'
    exact hdenied
  · rintro ⟨hpub, hheld, -, hfail, hfail'⟩
    exact ⟨hpub, ⟨hfail, fun hs ↦ ⟨hfail' hs, fun _ ↦ trivial⟩⟩, hheld⟩

theorem iterate_fence (h : node.iterate args input = .ok node') :
    FenceAgrees node' ↔ ¬ FailsOpen node input := by
  obtain ⟨now, hnow, rfl⟩ := iterate_ok h
  obtain ⟨rt, plan, hcases, htick⟩ :=
    (node.refreshed input.freshness).tick_cases now (observed input.lease) input.ios
  have hrole := node.refreshed_role input.freshness
  simp only [refreshed_minSourceGeneration, refreshed_promotionConfig] at hcases
  rw [htick, refreshed_world, refreshed_stopOnError]
  cases hcases with
  | @keepWriter current _ hwriter hlease hfence hactions =>
    refine iff_of_true (fun _ _ ↦ hwriter) fun hopen ↦ hopen.denied now hnow ?_
    exact ⟨current, hlease, by rw [hwriter]; exact hfence⟩
  | @promote current _ hreplica hlease hvalid hactions =>
    refine iff_of_true (fun _ _ ↦ rfl) fun hopen ↦ hopen.denied now hnow ?_
    exact ⟨current, hlease, by rw [hreplica]; exact hvalid⟩
  | demote hwriter hdenied hactions =>
    rw [hactions]
    refine (fence_of_demotions ?_ ?_).trans (not_congr (failsOpen_iff hnow hdenied rfl ?_))
    · rfl
    · simp [HaAction.Demotes]
    · rw [← hrole, hwriter]
      rfl
  | wait hreplica hlease hactions =>
    rw [hactions]
    refine (fence_of_demotions ?_ ?_).trans (iff_of_true ?_ fun hopen ↦ ?_)
    · exact hreplica
    · simp [HaAction.Demotes]
    · rintro ⟨-, -, L, hL, -⟩
      cases hlease.symm.trans hL
    · obtain ⟨L, hL, -⟩ := hopen.held
      cases hlease.symm.trans hL
  | deny hreplica hdenied hactions =>
    rw [hactions]
    refine (fence_of_demotions ?_ ?_).trans (not_congr (failsOpen_iff hnow hdenied rfl ?_))
    · exact hreplica
    · simp [HaAction.Demotes]
    · rw [← hrole, hreplica]
      rfl

end HaNode

/-- From whatever node a run starts, the gateway's fence agrees with the controller after each
of its iterations exactly when none of them fails open. -/
theorem fence_agrees_iff (args : HaArgs) (node : HaNode) (inputs : List TickInput) :
    EveryStep args (fun _ _ node' ↦ FenceAgrees node') node inputs ↔
      EveryStep args (fun node input _ ↦ ¬ FailsOpen node input) node inputs :=
  EveryStep.congr (fun _ _ _ h ↦ HaNode.iterate_fence h) node inputs

section Sample

def sampleArgs : HaArgs := ⟨"", 0, false⟩

def sampleNode : HaNode := .new "a" false {} 0 true "" none

def sampleInput (now renewed : ℕ) (io : ActionIo) : TickInput :=
  ⟨some (.ok (some ⟨"b", 1, 100⟩)), .ok now, .ok (some ⟨"a", 1, renewed, 10⟩), fun _ ↦ io⟩

def diskFull : ActionIo := { roleState := .notOpened "disk full" }

end Sample

/-- The node is promoted. Its lease runs out and the demotion fails, and when the lease is
renewed its data is too old to be promoted again, but the gateway still accepts writes. -/
theorem fence_disagrees_after_failed_demotion :
    ¬ EveryStep sampleArgs (fun _ _ node' ↦ FenceAgrees node') sampleNode
      [sampleInput 100 100 {}, sampleInput 111 100 diskFull, sampleInput 112 112 diskFull] := by
  intro h
  have hfence := h.2.2.1
  have hwriter := hfence 112 rfl
  cases hwriter

end RsqliteRsync.Ha
