import RsqliteRsync.Foundation.Schedule
import RsqliteRsync.Ha.LoopSpec

namespace RsqliteRsync.Ha

open Foundation.Schedule ReadinessAwareExecutor

/-- Where a node is in its loop: between iterations, with the clock read, or with the lease read
and actions left to execute. -/
inductive Phase
  | idle
  | timed (nowSecs : ℕ)
  | acting (lease : Option LeaseRecord) (todo : List HaAction)

structure Member where
  node : HaNode
  phase : Phase

namespace Member

/-- An iteration cut into what happens at one moment, while the clock shows `clock` and the lease
store holds `register`. -/
inductive Step (args : HaArgs) (clock : ℕ) (register : Option LeaseRecord) :
    Member → Member → Prop
  | begin {node node' : HaNode} (freshness : Option (Except String (Option FreshnessLedger))) :
      node.readFreshness freshness = .ok node' →
      Step args clock register ⟨node, .idle⟩ ⟨node', .timed clock⟩
  | read {node : HaNode} {nowSecs : ℕ} {answer : Except String (Option LeaseRecord)} :
      (answer = .ok register ∨ ∃ e, answer = .error e) →
      Step args clock register ⟨node, .timed nowSecs⟩
        ⟨{ node with
            controller.runtime := (node.controller.runtime.planActions nowSecs (observed answer)
              node.controller.minSourceGeneration node.controller.promotionConfig).1 },
          .acting (observed answer) (node.controller.runtime.planActions nowSecs (observed answer)
              node.controller.minSourceGeneration node.controller.promotionConfig).2.actions⟩
  | act {node : HaNode} {lease : Option LeaseRecord} {a : HaAction} {rest : List HaAction}
      {world : HaWorld} (io : ActionIo) : run io a node.world = (.ok (), world) →
      Step args clock register ⟨node, .acting lease (a :: rest)⟩
        ⟨{ node with world := world }, .acting lease rest⟩
  | fail {node : HaNode} {lease : Option LeaseRecord} {a : HaAction} {rest : List HaAction}
      {world : HaWorld} {e : String} (io : ActionIo) : run io a node.world = (.error e, world) →
      Step args clock register ⟨node, .acting lease (a :: rest)⟩
        ⟨{ node with world := world },
          .acting lease (if node.controller.stopOnError then [] else rest)⟩
  | store {node : HaNode} {lease : Option LeaseRecord} :
      Step args clock register ⟨node, .acting lease []⟩ ⟨node.storeLease args lease, .idle⟩

def Starts (args : HaArgs) (nodeId : String) (m : Member) : Prop :=
  m.phase = .idle ∧
    ∃ allowReplicaReads config minSourceGeneration stopOnError roleState readinessFile first,
      HaNode.startup args (.new nodeId allowReplicaReads config minSourceGeneration stopOnError
        roleState readinessFile) first = .ok m.node

variable {args : HaArgs} {clock : ℕ} {register : Option LeaseRecord}

theorem Starts.frame {nodeId : String} {m : Member} (h : m.Starts args nodeId) :
    m.node.world.shared.nodeId = nodeId ∧ m.node.world.shared.leaseRecord = none := by
  obtain ⟨-, _, _, _, _, _, _, _, hnew⟩ := h
  obtain hnode | ⟨outcome, htick, -⟩ := HaNode.startup_ok hnew
  · rw [hnode]
    exact ⟨rfl, rfl⟩
  · exact (HaNode.tickInput_frame htick).2

theorem reaches_executeActions (controller : HaController) (lease : Option LeaseRecord)
    (ios : ℕ → ActionIo) (i : ℕ) (actions : List HaAction) (w : HaWorld) :
    Reaches (Step args clock register) ⟨⟨controller, w⟩, .acting lease actions⟩
      ⟨⟨controller, (executeActions controller.stopOnError ios i actions w).2⟩,
        .acting lease []⟩ := by
  induction actions generalizing i w with
  | nil => exact .refl _
  | cons a rest ih =>
    rcases hrun : run (ios i) a w with ⟨res, w'⟩
    cases res with
    | ok u =>
      rw [executeActions_of_ok _ ios hrun]
      exact .head (.act (ios i) hrun) (ih (i + 1) w')
    | error e =>
      refine .head (.fail (ios i) hrun) ?_
      rw [(executeActions_of_error _ ios hrun rest).2]
      split
      case isTrue => exact .refl _
      case isFalse => exact ih (i + 1) w'

/-- An iteration that nothing interrupts is a run of these steps. -/
theorem reaches_iterate {node node' : HaNode} {input : TickInput}
    (h : node.iterate args input = .ok node') (hclock : input.now = .ok clock)
    (hread : input.lease = .ok register ∨ ∃ e, input.lease = .error e) :
    Reaches (Step args clock register) ⟨node, .idle⟩ ⟨node', .idle⟩ := by
  obtain ⟨outcome, mid, htick, rfl⟩ := HaNode.iterate_tickInput h
  obtain ⟨now, hnow, rfl, -, hlease⟩ := HaNode.tickInput_ok htick
  cases hclock.symm.trans hnow
  rw [hlease]
  refine .head (.begin _ (HaNode.readFreshness_of_tickInput htick)) (.head (.read hread) ?_)
  exact (reaches_executeActions _ _ input.ios 0 _ _).tail .store

def Sees (m : Member) (lease : LeaseRecord) : Prop :=
  m.node.world.shared.leaseRecord = some lease ∨ ∃ todo, m.phase = .acting (some lease) todo

theorem readFreshness_world {node node' : HaNode}
    {freshness : Option (Except String (Option FreshnessLedger))}
    (h : node.readFreshness freshness = .ok node') : node'.world = node.world := by
  unfold HaNode.readFreshness at h
  split at h <;> cases h <;> rfl

theorem sees_of_run {node : HaNode} {lease : Option LeaseRecord} {a : HaAction}
    {todo todo' : List HaAction} {world : HaWorld} {res : Except String Unit} {io : ActionIo}
    (hrun : run io a node.world = (res, world)) :
    world.shared.nodeId = node.world.shared.nodeId ∧
      ∀ L, Sees ⟨{ node with world := world }, .acting lease todo'⟩ L →
        Sees ⟨node, .acting lease todo⟩ L := by
  obtain ⟨role, gen, hshared⟩ := run_shared io a node.world
  rw [hrun] at hshared
  dsimp only at hshared
  refine ⟨by rw [hshared], fun L hsees ↦ ?_⟩
  rcases hsees with hcached | ⟨_, htodo⟩
  · rw [hshared] at hcached
    exact .inl hcached
  · exact .inr ⟨todo, congrArg (Phase.acting · todo) (Phase.acting.inj htodo).1⟩

theorem Step.frame {m m' : Member} (h : Step args clock register m m') :
    m'.node.world.shared.nodeId = m.node.world.shared.nodeId ∧
      ∀ lease, m'.Sees lease → m.Sees lease ∨ register = some lease := by
  cases h with
  | begin freshness hfresh =>
    have hworld := readFreshness_world hfresh
    refine ⟨by rw [hworld], fun lease hsees ↦ .inl (.inl ?_)⟩
    rcases hsees with hcached | ⟨todo, htodo⟩
    · exact hworld ▸ hcached
    · cases htodo
  | read hread =>
    refine ⟨rfl, fun lease hsees ↦ ?_⟩
    rcases hsees with hcached | ⟨todo, htodo⟩
    · exact .inl (.inl hcached)
    · rcases hread with rfl | ⟨e, rfl⟩
      · exact .inr (Phase.acting.inj htodo).1
      · cases (Phase.acting.inj htodo).1
  | act io hrun =>
    obtain ⟨hid, hsees⟩ := sees_of_run hrun
    exact ⟨hid, fun lease h ↦ .inl (hsees lease h)⟩
  | fail io hrun =>
    obtain ⟨hid, hsees⟩ := sees_of_run hrun
    exact ⟨hid, fun lease h ↦ .inl (hsees lease h)⟩
  | store =>
    refine ⟨rfl, fun lease hsees ↦ .inl (.inr ?_)⟩
    rcases hsees with hcached | ⟨todo, htodo⟩
    · exact ⟨[], congrArg (Phase.acting · []) hcached⟩
    · cases htodo

end Member

end RsqliteRsync.Ha
