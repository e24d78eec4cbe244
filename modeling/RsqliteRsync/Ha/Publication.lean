import RsqliteRsync.Ha.Fence

namespace RsqliteRsync.Ha

open ReadinessAwareExecutor

def writerState (generation : ℕ) : String := s!"writer:{generation}" ++ "\n"

def Backed (node : HaNode) : Prop :=
  node.controller.runtime.role = .writer →
    node.world.shared.generation = node.controller.runtime.localGeneration ∧
      node.world.roleState = writerState node.controller.runtime.localGeneration

/-- Every published view of the role says what the controller's role is. -/
structure Published (node : HaNode) : Prop where
  role : node.world.shared.role = node.controller.runtime.role
  ready : node.world.readinessState = true ↔ node.controller.runtime.role = .writer
  backed : Backed node
  accepts : node.controller.runtime.role = .writer →
    ∃ lease, node.world.shared.leaseRecord = some lease ∧
      ∀ t ≤ lease.expiry, node.world.shared.isWriter t = true

def HaNode.succeeds (node : HaNode) (input : TickInput) : Bool :=
  match node.tickInput input with
  | .ok (outcome, _) => outcome.report.isSuccess
  | .error _ => false

def Promotes (node : HaNode) (input : TickInput) (lease : LeaseRecord) : Prop :=
  node.controller.runtime.role = .replica ∧ observed input.lease = some lease ∧
    ∃ now, input.now = .ok now ∧
      validatePromotion now lease
        ⟨node.controller.runtime.nodeId, lease.generation, node.controller.minSourceGeneration⟩
        (node.refreshed input.freshness).controller.runtime.freshness
        node.controller.promotionConfig = .ok ()

/-- `enable_writer` brings the role-state file and the published generation up to date, or need
not. -/
def Leaves (io : ActionIo) (w : HaWorld) (generation : ℕ) : Prop :=
  (io.roleState = .ok ∨
      (∃ e, io.roleState = .notOpened e) ∧ w.roleState = writerState generation) ∧
    (¬ IoFails io true w.readinessFile.isSome ∨ w.shared.generation = generation)

def Lands (node : HaNode) (input : TickInput) : Prop :=
  ∀ lease, Promotes node input lease → Leaves (input.ios 0) node.world lease.generation

section Execute

variable {stop : Bool} {ios : ℕ → ActionIo} {i : ℕ} {w : HaWorld}

variable (stop ios i w) in
theorem executeActions_singleton (a : HaAction) :
    (executeActions stop ios i [a] w).2 = (run (ios i) a w).2 ∧
      ((executeActions stop ios i [a] w).1 = [] → (run (ios i) a w).1 = .ok ()) := by
  rcases hrun : run (ios i) a w with ⟨res, w'⟩
  cases res with
  | ok u =>
    rw [executeActions_of_ok stop ios hrun]
    exact ⟨rfl, fun _ ↦ rfl⟩
  | error e =>
    obtain ⟨hne, hworld⟩ := executeActions_of_error stop ios hrun []
    refine ⟨hworld.trans ?_, fun hnil ↦ absurd hnil hne⟩
    split <;> rfl

theorem executeActions_steps_down {actions : List HaAction} (h : ∀ a ∈ actions, a.Demotes)
    (hok : (executeActions stop ios i actions w).1 = [])
    (hw : actions = [] → w.shared.role = .replica ∧ w.readinessState = false) :
    (executeActions stop ios i actions w).2.shared.role = .replica ∧
      (executeActions stop ios i actions w).2.readinessState = false := by
  induction actions generalizing i w with
  | nil => exact hw rfl
  | cons a rest ih =>
    have hran := run_spec (ios i) w a
    rcases hrun : run (ios i) a w with ⟨res, w'⟩
    rw [hrun] at hran
    cases hran with
    | completed hrole hshared hready =>
      rw [executeActions_of_ok stop ios hrun] at hok ⊢
      refine ih (fun b hb ↦ h b (List.mem_cons_of_mem a hb)) hok fun _ ↦ ?_
      rw [hshared, hready]
      have hdemotes := h a List.mem_cons_self
      cases a <;> first | exact ⟨rfl, rfl⟩ | exact hdemotes.elim
    | failed hrole hshared =>
      exact absurd hok (executeActions_of_error stop ios hrun rest).1

theorem content_eq_self {text old : String} {r : WriteResult} (htext : text ≠ "") :
    r.content text old = text ↔ r = .ok ∨ (∃ e, r = .notOpened e) ∧ old = text := by
  cases r with
  | ok => simp [WriteResult.content]
  | notOpened e => simp [WriteResult.content]
  | cutShort e kept =>
    have hlen : text.length ≠ 0 := by simpa using htext
    have hne : String.ofList (text.toList.take (min kept (text.length - 1))) ≠ text := by
      intro heq
      have := congrArg String.length heq
      simp at this
      omega
    simpa [WriteResult.content] using hne

theorem enableWriter_backs (g : ℕ) :
    ((executeActions stop ios i [.enableWriter g] w).2.shared.generation = g ∧
        (executeActions stop ios i [.enableWriter g] w).2.roleState = writerState g) ↔
      Leaves (ios i) w g := by
  have hran := run_spec (ios i) w (.enableWriter g)
  have hok := run_eq_ok (ios i) (.enableWriter g) w
  rw [(executeActions_singleton stop ios i w _).1]
  rcases hrun : run (ios i) (.enableWriter g) w with ⟨res, w'⟩
  rw [hrun] at hran hok
  cases hran with
  | completed hrole hshared hready =>
    have hio : ¬ IoFails (ios i) true w.readinessFile.isSome := hok.mp rfl
    have hwrite : (ios i).roleState = .ok := by
      by_contra hne
      exact hio (.inl ⟨rfl, hne⟩)
    exact iff_of_true ⟨by rw [hshared]; rfl, hrole⟩ ⟨.inl hwrite, .inl hio⟩
  | failed hrole hshared =>
    have hio : IoFails (ios i) true w.readinessFile.isSome := by
      by_contra hne
      cases hok.mpr hne
    have htext : writerState g ≠ "" := by
      intro h
      have := congrArg String.length h
      simp [writerState] at this
    rw [Leaves, ← content_eq_self htext, hshared, hrole]
    simp only [hio, not_true_eq_false, false_or]
    exact and_comm

theorem keepWriter_keeps :
    (executeActions stop ios i [.keepWriter] w).2.shared.generation = w.shared.generation ∧
      (executeActions stop ios i [.keepWriter] w).2.roleState = w.roleState := by
  have hran := run_spec (ios i) w .keepWriter
  rw [(executeActions_singleton stop ios i w _).1]
  rcases hrun : run (ios i) .keepWriter w with ⟨res, w'⟩
  rw [hrun] at hran
  cases hran with
  | completed hrole hshared hready => exact ⟨by rw [hshared]; rfl, hrole⟩
  | failed hrole hshared => exact ⟨by rw [hshared], hrole⟩

theorem action_completes {a : HaAction} (hok : (executeActions stop ios i [a] w).1 = []) :
    (executeActions stop ios i [a] w).2.shared = published w.shared a ∧
      (executeActions stop ios i [a] w).2.readinessState = readyAfter a ∧
      (executeActions stop ios i [a] w).2.roleState = roleAfter {} w.roleState a := by
  have hran := run_spec (ios i) w a
  obtain ⟨hworld, hres⟩ := executeActions_singleton stop ios i w a
  rw [hworld]
  have hrun := hres hok
  generalize run (ios i) a w = ran at hran hrun
  cases hran with
  | completed hrole hshared hready => exact ⟨hshared, hready, hrole⟩
  | failed hrole hshared => cases hrun

end Execute

namespace HaNode

variable {args : HaArgs} {node node' node'' : HaNode} {input : TickInput} {now : ℕ}
  {lease : Option LeaseRecord} {ios : ℕ → ActionIo}

theorem tick_promote {L : LeaseRecord} (hreplica : node.controller.runtime.role = .replica)
    (hlease : lease = some L)
    (hvalid : validatePromotion now L
      ⟨node.controller.runtime.nodeId, L.generation, node.controller.minSourceGeneration⟩
      node.controller.runtime.freshness node.controller.promotionConfig = .ok ()) :
    (node.tick now lease ios).2.controller.runtime.role = .writer ∧
      (Backed (node.tick now lease ios).2 ↔ Leaves (ios 0) node.world L.generation) := by
  obtain ⟨rt, plan, hcases, htick⟩ := node.tick_cases now lease ios
  have hallowed : node.controller.runtime.WriterAllowed now lease
      node.controller.minSourceGeneration node.controller.promotionConfig :=
    ⟨L, hlease, by rw [hreplica]; exact hvalid⟩
  rw [htick]
  cases hcases with
  | keepWriter hwriter => cases hreplica.symm.trans hwriter
  | demote hwriter => cases hreplica.symm.trans hwriter
  | wait _ hnone => cases hnone.symm.trans hlease
  | deny _ hdenied => exact absurd hallowed hdenied
  | promote _ hsome _ hactions =>
    cases hsome.symm.trans hlease
    refine ⟨rfl, ?_⟩
    rw [← enableWriter_backs, hactions]
    exact ⟨fun h ↦ h rfl, fun h _ ↦ h⟩

theorem tick_keep (hwriter : node.controller.runtime.role = .writer)
    (hwriter' : (node.tick now lease ios).2.controller.runtime.role = .writer) :
    Backed (node.tick now lease ios).2 ↔ Backed node := by
  obtain ⟨rt, plan, hcases, htick⟩ := node.tick_cases now lease ios
  rw [htick] at hwriter' ⊢
  cases hcases with
  | promote hreplica => cases hreplica.symm.trans hwriter
  | wait hreplica => cases hreplica.symm.trans hwriter
  | deny hreplica => cases hreplica.symm.trans hwriter
  | demote => cases hwriter'
  | keepWriter _ _ _ hactions =>
    unfold Backed
    rw [hactions, keepWriter_keeps.1, keepWriter_keeps.2]

theorem published_writer {L : LeaseRecord} (hrole : node.controller.runtime.role = .writer)
    (hshared : node.world.shared.role = .writer) (hready : node.world.readinessState = true)
    (hb : Backed node) (hlease : lease = some L)
    (hholder : L.holderNodeId = node.world.shared.nodeId)
    (hgen : L.generation = node.controller.runtime.localGeneration) :
    Published (node.storeLease args lease) where
  role := hshared.trans hrole.symm
  ready := iff_of_true hready hrole
  backed := hb
  accepts _ := ⟨L, hlease, fun _ ht ↦ HaSharedState.isWriter_iff.mpr
    ⟨hshared, L, hlease, ht, hholder, hgen.trans (hb hrole).1.symm⟩⟩

theorem published_replica (hrole : node.controller.runtime.role = .replica)
    (h : node.world.shared.role = .replica ∧ node.world.readinessState = false) :
    Published (node.storeLease args lease) := by
  have hne : ¬ node.controller.runtime.role = .writer := by simp [hrole]
  exact ⟨h.1.trans hrole.symm, iff_of_false (by simp [storeLease, h.2]) hne,
    fun hw ↦ absurd hw hne, fun hw ↦ absurd hw hne⟩

/-- A tick without failures publishes what the controller decided, if a writer was backed. -/
theorem tick_published (hb : Backed node)
    (hid : node.world.shared.nodeId = node.controller.runtime.nodeId)
    (hok : (node.tick now lease ios).1.failures = []) :
    Published ((node.tick now lease ios).2.storeLease args lease) := by
  obtain ⟨rt, plan, hcases, htick⟩ := node.tick_cases now lease ios
  obtain ⟨-, hid', -⟩ := node.tick_frame now lease ios
  rw [htick] at hok hid' ⊢
  replace hid := hid'.trans hid
  cases hcases with
  | keepWriter hwriter hlease hfence hactions =>
    rw [hactions] at hok hid ⊢
    obtain ⟨hshared, hready, -⟩ := action_completes hok
    obtain ⟨-, hholder, hgen⟩ := (enforceWriteFence_eq_ok _ _ _ _).mp hfence
    refine published_writer hwriter (by rw [hshared]; rfl) hready ?_ hlease
      (hholder.trans hid.symm) hgen
    intro _
    rw [keepWriter_keeps.1, keepWriter_keeps.2]
    exact hb hwriter
  | promote hreplica hlease hvalid hactions =>
    rw [hactions] at hok hid ⊢
    obtain ⟨hshared, hready, hrole⟩ := action_completes hok
    exact published_writer rfl (by rw [hshared]; rfl) hready
      (fun _ ↦ ⟨by rw [hshared]; rfl, hrole⟩) hlease
      ((validatePromotion_ok hvalid).2.trans hid.symm) rfl
  | demote hwriter hdenied hactions =>
    rw [hactions] at hok ⊢
    exact published_replica rfl
      (executeActions_steps_down (by simp [HaAction.Demotes]) hok
        fun h ↦ absurd h (List.cons_ne_nil _ _))
  | wait hreplica hlease hactions =>
    rw [hactions] at hok ⊢
    exact published_replica hreplica
      (executeActions_steps_down (by simp [HaAction.Demotes]) hok
        fun h ↦ absurd h (List.cons_ne_nil _ _))
  | deny hreplica hdenied hactions =>
    rw [hactions] at hok ⊢
    exact published_replica hreplica
      (executeActions_steps_down (by simp [HaAction.Demotes]) hok
        fun h ↦ absurd h (List.cons_ne_nil _ _))

theorem promotes_of_tick (hreplica : node.controller.runtime.role = .replica)
    (hwriter : (node.tick now lease ios).2.controller.runtime.role = .writer) :
    ∃ L, lease = some L ∧ validatePromotion now L
      ⟨node.controller.runtime.nodeId, L.generation, node.controller.minSourceGeneration⟩
      node.controller.runtime.freshness node.controller.promotionConfig = .ok () := by
  obtain ⟨rt, plan, hcases, htick⟩ := node.tick_cases now lease ios
  rw [htick] at hwriter
  cases hcases with
  | keepWriter hwriter' => cases hreplica.symm.trans hwriter'
  | demote => cases hwriter
  | wait hreplica' => cases hreplica'.symm.trans hwriter
  | deny hreplica' => cases hreplica'.symm.trans hwriter
  | promote _ hlease hvalid => exact ⟨_, hlease, hvalid⟩

theorem backed_refreshed {read : Option (Except String (Option FreshnessLedger))} :
    Backed (node.refreshed read) ↔ Backed node := by
  unfold Backed
  simp only [refreshed_role, refreshed_world, refreshed_localGeneration]

theorem iterate_promote {L : LeaseRecord} (h : node.iterate args input = .ok node')
    (hp : Promotes node input L) :
    node'.controller.runtime.role = .writer ∧
      (Backed node' ↔ Leaves (input.ios 0) node.world L.generation) := by
  obtain ⟨now, hnow, rfl⟩ := iterate_ok h
  obtain ⟨hreplica, hlease, now', hnow', hvalid⟩ := hp
  cases hnow.symm.trans hnow'
  rw [← node.refreshed_world input.freshness]
  exact tick_promote (by simpa using hreplica) hlease (by simpa using hvalid)

theorem iterate_keep (h : node.iterate args input = .ok node')
    (hwriter : node.controller.runtime.role = .writer)
    (hwriter' : node'.controller.runtime.role = .writer) : Backed node' ↔ Backed node := by
  obtain ⟨now, -, rfl⟩ := iterate_ok h
  exact (tick_keep (by simpa using hwriter) hwriter').trans backed_refreshed

theorem iterate_backed (h : node.iterate args input = .ok node') (hb : Backed node)
    (hlands : Lands node input) : Backed node' := by
  intro hwriter'
  cases hrole : node.controller.runtime.role with
  | writer => exact (iterate_keep h hrole hwriter').mpr hb hwriter'
  | replica =>
    obtain ⟨now, hnow, heq⟩ := iterate_ok h
    have hreplica : (node.refreshed input.freshness).controller.runtime.role = .replica := by
      simpa using hrole
    have htick : ((node.refreshed input.freshness).tick now (observed input.lease)
        input.ios).2.controller.runtime.role = .writer := by
      rw [heq] at hwriter'
      exact hwriter'
    obtain ⟨L, hlease, hvalid⟩ := promotes_of_tick hreplica htick
    have hp : Promotes node input L := ⟨hrole, hlease, now, hnow, by simpa using hvalid⟩
    exact (iterate_promote h hp).2.mpr (hlands L hp) hwriter'

variable (args) in
theorem tickInput_published {outcome : ControllerTickOutcome}
    (h : node.tickInput input = .ok (outcome, node')) (hb : Backed node)
    (hid : node.world.shared.nodeId = node.controller.runtime.nodeId)
    (hok : outcome.report.isSuccess = true) :
    Published (node'.storeLease args (currentLease outcome)) := by
  obtain ⟨now, -, hnode, hreport, hlease⟩ := tickInput_ok h
  rw [hnode, hlease]
  refine tick_published (backed_refreshed.mpr hb) (by simpa using hid) ?_
  rw [← hreport]
  exact List.isEmpty_iff.mp hok

theorem iterate_published (h : node.iterate args input = .ok node') (hb : Backed node)
    (hid : node.world.shared.nodeId = node.controller.runtime.nodeId) :
    (node.succeeds input = true → Published node') ∧
      node'.world.shared.nodeId = node'.controller.runtime.nodeId := by
  obtain ⟨outcome, mid, htick, rfl⟩ := iterate_tickInput h
  obtain ⟨hnode, hshared, -⟩ := tickInput_frame htick
  refine ⟨fun hok ↦ tickInput_published args htick hb hid ?_, ?_⟩
  · rwa [succeeds, htick] at hok
  · exact hshared.trans (hid.trans hnode.symm)

theorem startup_backed {first : TickInput} (h : startup args node first = .ok node')
    (hreplica : node.controller.runtime.role = .replica)
    (hid : node.world.shared.nodeId = node.controller.runtime.nodeId) :
    Backed node' ∧ node'.world.shared.nodeId = node'.controller.runtime.nodeId := by
  have hb : Backed node := fun hwriter ↦ nomatch hreplica.symm.trans hwriter
  obtain rfl | ⟨outcome, htick, hok⟩ := startup_ok h
  · exact ⟨hb, hid⟩
  · obtain ⟨hnode, hshared, -⟩ := tickInput_frame htick
    exact ⟨(tickInput_published args htick hb hid hok).backed, by rw [hnode, hshared, hid]⟩

end HaNode

/-- From the start of the loop on, a tick without failures publishes the controller's role
everywhere, provided that the promotions before it landed. A promotion that does not land is
not made good by the iterations that keep the node writer. -/
theorem publication_resyncs (args : HaArgs) (nodeId : String) (allowReplicaReads : Bool)
    (config : PromotionConfig) (minSourceGeneration : ℕ) (stopOnError : Bool)
    (roleState : String) (readinessFile : Option String) (first : TickInput) (node : HaNode)
    (hstart : HaNode.startup args (.new nodeId allowReplicaReads config minSourceGeneration
      stopOnError roleState readinessFile) first = .ok node) :
    (∀ inputs, EveryStep args (fun node input _ ↦ Lands node input) node inputs →
      EveryStep args (fun node input node' ↦ node.succeeds input = true → Published node')
        node inputs) ∧
    ∀ unlanded input unbacked keep node', ¬ Lands unlanded input →
      unlanded.iterate args input = .ok unbacked → unbacked.iterate args keep = .ok node' →
      node'.controller.runtime.role = .writer → ¬ Published node' := by
  constructor
  · intro inputs hlands
    refine EveryStep.of_invariant
      (fun node ↦ Backed node ∧ node.world.shared.nodeId = node.controller.runtime.nodeId)
      ?_ (HaNode.startup_backed hstart rfl rfl) hlands
    rintro node input node' hrun ⟨hb, hid⟩ hlands
    obtain ⟨hpublished, hid'⟩ := HaNode.iterate_published hrun hb hid
    exact ⟨⟨HaNode.iterate_backed hrun hb hlands, hid'⟩, hpublished⟩
  · intro unlanded input unbacked keep node' hlands hrun hkeep hwriter hpublished
    obtain ⟨lease, hp, hnot⟩ : ∃ lease, Promotes unlanded input lease ∧
        ¬ Leaves (input.ios 0) unlanded.world lease.generation := by
      simpa [Lands] using hlands
    obtain ⟨hpromoted, hiff⟩ := HaNode.iterate_promote hrun hp
    have hb := (HaNode.iterate_keep hkeep hpromoted hwriter).mp hpublished.backed
    exact hnot (hiff.mp hb)

theorem publication_resyncs_sample :
    EveryStep sampleArgs (fun node input node' ↦ node.succeeds input = true → Published node')
        sampleNode [sampleInput 100 100 {}, sampleInput 102 102 {}] ∧
      ∃ unbacked node', sampleNode.iterate sampleArgs (sampleInput 100 100 diskFull) =
          .ok unbacked ∧
        unbacked.iterate sampleArgs (sampleInput 102 102 {}) = .ok node' ∧
        ¬ Published node' := by
  obtain ⟨hlanded, hunlanded⟩ := publication_resyncs sampleArgs "a" false {} 0 true "" none
    (sampleInput 0 0 {}) sampleNode rfl
  refine ⟨hlanded _ ⟨?_, ?_, trivial⟩, _, _, rfl, rfl, hunlanded sampleNode
    (sampleInput 100 100 diskFull) _ (sampleInput 102 102 {}) _ ?_ rfl rfl rfl⟩
  · intro lease _
    exact ⟨.inl rfl, .inl (by simp [IoFails, sampleInput])⟩
  · intro lease _
    exact ⟨.inl rfl, .inl (by simp [IoFails, sampleInput])⟩
  · intro hlands
    rcases (hlands ⟨"a", 1, 100, 10⟩ ⟨rfl, rfl, 100, rfl, rfl⟩).1 with hok | ⟨-, hfile⟩
    · cases hok
    · exact absurd hfile (by decide)

/-- The disk is full when the node is promoted. The next iteration goes well, but the gateway's
generation is still the old one, and it refuses writes. -/
theorem publication_stale_after_failed_promotion :
    ¬ EveryStep sampleArgs
      (fun node input node' ↦ node.succeeds input = true → Published node')
      sampleNode [sampleInput 100 100 diskFull, sampleInput 102 102 {}] := by
  intro h
  have hpublished := h.2.1 rfl
  have hgen := (hpublished.backed rfl).1
  cases hgen

end RsqliteRsync.Ha
