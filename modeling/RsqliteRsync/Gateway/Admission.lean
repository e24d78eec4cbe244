import RsqliteRsync.Gateway.Server
import RsqliteRsync.Ha.Fence

namespace RsqliteRsync.Gateway

open Ha Foundation.Schedule

def Stage.Past : Stage → Prop
  | .admitted | .waiting _ | .inside _ | .removed _ => True
  | .received | .timed _ | .refused _ | .answered => False

def Stage.Late : Stage → Prop
  | .inside _ | .removed _ | .answered => True
  | .received | .timed _ | .refused _ | .admitted | .waiting _ => False

theorem SqlGatewayServer.enter_past {state : HaSharedState} {now : ℕ} :
    (enter state now).Past ↔ state.isWriter now = true := by
  unfold enter checkWriteAccess
  cases state.isWriter now with
  | true => simp [Stage.Past]
  | false => simp [Stage.Past]

theorem ReplicationServer.enter_past {state : HaSharedState} {now : ℕ} :
    (enter state now).Past ↔ state.isWriter now = false := by
  unfold enter
  cases state.isWriter now with
  | true => simp [Stage.Past]
  | false => simp [Stage.Past]

theorem SqlGatewayServer.enter_ne_timed {state : HaSharedState} {now now' : ℕ} :
    enter state now ≠ .timed now' := by
  unfold enter
  split <;> nofun

theorem ReplicationServer.enter_ne_timed {state : HaSharedState} {now now' : ℕ} :
    enter state now ≠ .timed now' := by
  unfold enter
  split <;> nofun

namespace Node

variable {ι : Type*} [DecidableEq ι] {args : HaArgs} {request : ι → Request}
  {start g g' : Node ι} {label : Label ι} {i : ι}

theorem Step.clock_le (h : Step args request label g g') : g.clock ≤ g'.clock := by
  cases h with
  | clock hle => exact hle
  | _ => exact le_rfl

theorem Step.stage_cases (h : Step args request label g g') :
    g'.stage = g.stage ∨ ∃ i stage, g'.stage = Function.update g.stage i stage ∧
      (label = .check i ∧ (request i).kind ≠ .push ∧
          stage = SqlGatewayServer.enter g.shared g.clock ∨
        (request i).kind = .push ∧ stage = .timed g.clock ∨
        (∃ now, label = .check i ∧ g.stage i = .timed now ∧
          stage = ReplicationServer.enter g.shared now) ∨
        (g.stage i).Past ∧ ∀ now, stage ≠ .timed now) := by
  cases h with
  | clock => exact .inl rfl
  | ha => exact .inl rfl
  | modify => exact .inl rfl
  | check hkind => exact .inr ⟨_, _, rfl, .inl ⟨rfl, hkind, rfl⟩⟩
  | readClock hkind => exact .inr ⟨_, _, rfl, .inr (.inl ⟨hkind, rfl⟩)⟩
  | checkPush hstage => exact .inr ⟨_, _, rfl, .inr (.inr (.inl ⟨_, rfl, hstage, rfl⟩))⟩
  | reject _ hstage =>
    exact .inr ⟨_, _, rfl, .inr (.inr (.inr ⟨by rw [hstage]; trivial, nofun⟩))⟩
  | lookUp hstage =>
    exact .inr ⟨_, _, rfl, .inr (.inr (.inr ⟨by rw [hstage]; trivial, nofun⟩))⟩
  | acquire hstage =>
    exact .inr ⟨_, _, rfl, .inr (.inr (.inr ⟨by rw [hstage]; trivial, nofun⟩))⟩
  | remove _ hstage =>
    exact .inr ⟨_, _, rfl, .inr (.inr (.inr ⟨by rw [hstage]; trivial, nofun⟩))⟩
  | release hstage =>
    refine .inr ⟨_, _, rfl, .inr (.inr (.inr ⟨?_, nofun⟩))⟩
    rcases hstage with hstage | hstage <;> rw [hstage] <;> trivial

/-- On the way from `start` to `g`, the operation was checked at a moment when the fence was open
for its kind. -/
def Checked (args : HaArgs) (request : ι → Request) (start g : Node ι) (i : ι) : Prop :=
  ∃ g₀ g₁, Reaches (Moves args request) start g₀ ∧ Step args request (.check i) g₀ g₁ ∧
    Reaches (Moves args request) g₁ g ∧ (g₀.IsWriter ↔ (request i).kind ≠ .push)

structure Fenced (args : HaArgs) (request : ι → Request) (start g : Node ι) : Prop where
  timed : ∀ i now, g.stage i = .timed now → (request i).kind = .push ∧ now ≤ g.clock
  past : ∀ i, (g.stage i).Past → Checked args request start g i

theorem Checked.tail (h : Checked args request start g i) (hstep : Moves args request g g') :
    Checked args request start g' i := by
  obtain ⟨g₀, g₁, hstart, hcheck, hrun, hfence⟩ := h
  exact ⟨g₀, g₁, hstart, hcheck, hrun.tail hstep, hfence⟩

theorem Fenced.step (hinv : Fenced args request start g)
    (hrun : Reaches (Moves args request) start g) (hmoves : Moves args request g g') :
    Fenced args request start g' := by
  obtain ⟨label, h⟩ := hmoves
  have hclock := h.clock_le
  have hkept (j : ι) (now : ℕ) (hj : g.stage j = .timed now) :
      (request j).kind = .push ∧ now ≤ g'.clock :=
    ⟨(hinv.timed j now hj).1, (hinv.timed j now hj).2.trans hclock⟩
  have hpast (j : ι) (hj : (g.stage j).Past) : Checked args request start g' j :=
    (hinv.past j hj).tail ⟨label, h⟩
  rcases h.stage_cases with hstage | ⟨i, stage, hstage, hcases⟩
  · exact ⟨fun j now hj ↦ hkept j now (hstage ▸ hj), fun j hj ↦ hpast j (hstage ▸ hj)⟩
  · constructor
    · intro j now hj
      rw [hstage, Function.update_apply] at hj
      split at hj
      case isFalse hne => exact hkept j now hj
      case isTrue heq =>
        subst heq hj
        rcases hcases with ⟨-, -, heq⟩ | ⟨hkind, heq⟩ | ⟨now', -, -, heq⟩ | ⟨-, hne⟩
        · exact absurd heq.symm SqlGatewayServer.enter_ne_timed
        · cases heq
          exact ⟨hkind, hclock⟩
        · exact absurd heq.symm ReplicationServer.enter_ne_timed
        · exact absurd rfl (hne now)
    · intro j hj
      rw [hstage, Function.update_apply] at hj
      split at hj
      case isFalse hne => exact hpast j hj
      case isTrue heq =>
        subst heq
        rcases hcases with ⟨rfl, hkind, rfl⟩ | ⟨-, rfl⟩ | ⟨now, rfl, htimed, rfl⟩ | ⟨hbefore, -⟩
        · have hwriter : g.IsWriter := SqlGatewayServer.enter_past.mp hj
          exact ⟨g, g', hrun, h, .refl g', iff_of_true hwriter hkind⟩
        · exact hj.elim
        · -- the clock that the session read may be old, but then the fence was already closed
          obtain ⟨hkind, hle⟩ := hinv.timed j now htimed
          have hclosed : ¬ g.IsWriter := fun hwriter ↦
            Bool.false_ne_true ((ReplicationServer.enter_past.mp hj).symm.trans
              (HaSharedState.isWriter_of_le hle hwriter))
          exact ⟨g, g', hrun, h, .refl g', iff_of_false hclosed fun hne ↦ hne hkind⟩
        · exact hpast j hbefore

theorem fenced (hstart : ∀ i, start.stage i = .received)
    (hrun : Reaches (Moves args request) start g) : Fenced args request start g := by
  refine hrun.invariant ⟨fun i now hi ↦ ?_, fun i hi ↦ ?_⟩
    fun x y hx hinv hmoves ↦ hinv.step hx hmoves
  · cases (hstart i).symm.trans hi
  · rw [hstart i] at hi
    exact hi.elim

theorem advance_late {j : ι} {stage : Stage} (hstage : (g.stage i).Late → stage.Late)
    (hj : (g.stage j).Late) : ((g.advance i stage).stage j).Late := by
  rcases eq_or_ne j i with rfl | hne
  · rw [advance_stage_self]
    exact hstage hj
  · rwa [advance_stage_of_ne g hne]

theorem Step.late {j : ι} (h : Step args request label g g') (hj : (g.stage j).Late) :
    (g'.stage j).Late := by
  cases h with
  | clock => exact hj
  | ha => exact hj
  | modify => exact hj
  | check _ hstage => exact advance_late (by rw [hstage]; exact False.elim) hj
  | readClock _ hstage => exact advance_late (by rw [hstage]; exact False.elim) hj
  | checkPush hstage => exact advance_late (by rw [hstage]; exact False.elim) hj
  | reject => exact advance_late (fun _ ↦ trivial) hj
  | lookUp hstage => exact advance_late (by rw [hstage]; exact False.elim) hj
  | acquire => exact advance_late (fun _ ↦ trivial) hj
  | remove => exact advance_late (fun _ ↦ trivial) hj
  | release => exact advance_late (fun _ ↦ trivial) hj

theorem late_of_mem_log (hstart : start.log = []) (hrun : Reaches (Moves args request) start g) :
    ∀ j ∈ g.log, (g.stage j).Late := by
  refine hrun.invariant (I := fun g ↦ ∀ j ∈ g.log, (g.stage j).Late) (by simp [hstart]) ?_
  rintro x y - hx ⟨label, hstep⟩ j hj
  have hlog : j ∈ x.log ∨ (x.stage j).Late := by
    cases hstep with
    | modify hinside =>
      rcases List.mem_append.mp hj with hold | hnew
      · exact .inl hold
      · rw [List.mem_singleton.mp hnew, hinside]
        exact .inr trivial
    | _ => exact .inl hj
  exact hstep.late (hlog.elim (hx j) id)

/-- A request that is told `NOT_LEADER` has modified nothing. -/
theorem refused_unmodified {status : Status} (hstart : start.log = [])
    (hrun : Reaches (Moves args request) start g) (h : g.stage i = .refused status) :
    i ∉ g.log := by
  intro hi
  have hlate := late_of_mem_log hstart hrun i hi
  rw [h] at hlate
  exact hlate

theorem reaches_ha {R : Node ι → Node ι → Prop} {register : Option LeaseRecord} {m : Member}
    (hR : ∀ x y, Step args request .internal x y → R x y)
    (h : Reaches (Member.Step args g.clock register) g.member m) :
    Reaches R g { g with member := m } :=
  h.invariant (I := fun x ↦ Reaches R g { g with member := x }) (.refl g)
    fun _ _ _ hx hstep ↦ hx.tail (hR _ _ (.ha hstep))

end Node

/-- Modifications for gateway requests are made only while the node is writer, and those of push
sessions only while it is not. -/
def NeverSlips {ι : Type*} [DecidableEq ι] (args : HaArgs) (request : ι → Request)
    (start : Node ι) : Prop :=
  ∀ g, Reaches (Node.Moves args request) start g →
    ∀ i g', Node.Step args request (.modify i) g g' → (g.IsWriter ↔ (request i).kind ≠ .push)

/-- Whatever is modified for an operation is modified after its own check, made at a moment when
the node was writer for an `execute`, a `batch` or a `drop_database`, and was not for a push. -/
theorem modified_after_check {ι : Type*} [DecidableEq ι] (args : HaArgs) (request : ι → Request)
    (nodeId : String) (start g g' : Node ι) (hstart : start.Starts args nodeId)
    (hrun : Reaches (Node.Moves args request) start g) (i : ι)
    (hmodify : Node.Step args request (.modify i) g g') :
    Node.Checked args request start g i := by
  cases hmodify with
  | modify hinside => exact (Node.fenced hstart.stage hrun).past i (by rw [hinside]; trivial)

section Sample

def samplePromoted : HaNode :=
  match sampleNode.iterate sampleArgs (sampleInput 100 100 {}) with
  | .ok node => node
  | .error _ => sampleNode

def sampleGateway (ι : Type*) : Node ι :=
  ⟨100, ⟨sampleNode, .idle⟩, .new, fun _ ↦ none, fun _ ↦ .received, []⟩

theorem sampleGateway_starts (ι : Type*) : (sampleGateway ι).Starts sampleArgs "a" :=
  ⟨⟨rfl, _, _, _, _, _, _, sampleInput 0 0 {}, rfl⟩, rfl, fun _ ↦ rfl, fun _ ↦ rfl, rfl⟩

section Promotion

variable {ι : Type*} [DecidableEq ι] {request : ι → Request} {R : Node ι → Node ι → Prop}

theorem reaches_promoted (hR : ∀ x y, Node.Step sampleArgs request .internal x y → R x y)
    {g : Node ι} (hclock : g.clock = 100) (hmember : g.member = ⟨sampleNode, .idle⟩) :
    Reaches R g { g with member := ⟨samplePromoted, .idle⟩ } := by
  cases g
  cases hclock
  cases hmember
  exact Node.reaches_ha hR (@Member.reaches_iterate sampleArgs 100 _ sampleNode _
    (sampleInput 100 100 {}) rfl rfl (.inl rfl))

theorem sampleGateway_promoted
    (hR : ∀ x y, Node.Step sampleArgs request .internal x y → R x y) :
    Reaches R (sampleGateway ι) { sampleGateway ι with member := ⟨samplePromoted, .idle⟩ } :=
  reaches_promoted hR rfl rfl

end Promotion

def sampleExecute (_ : Unit) : Request := ⟨.execute, "app.db"⟩

theorem sample_overtaken : ∃ g lock,
    Reaches (Node.Moves sampleArgs sampleExecute) (sampleGateway Unit) g ∧
      g.stage () = .inside lock ∧ ¬ g.IsWriter := by
  have hrun := sampleGateway_promoted (R := Node.Moves sampleArgs sampleExecute)
    fun _ _ hstep ↦ ⟨_, hstep⟩
  have hchecked := hrun.tail ⟨_, .check (i := ()) nofun rfl⟩
  have hwaiting := hchecked.tail ⟨_, .lookUp (i := ()) rfl⟩
  have hinside := hwaiting.tail ⟨_, .acquire (i := ()) rfl rfl⟩
  have hlate := hinside.tail ⟨_, .clock (t := 111) (by decide)⟩
  exact ⟨_, 0, hlate, rfl, nofun⟩

def samplePush (_ : Unit) : Request := ⟨.push, "app.db"⟩

theorem sample_promoted_meanwhile : ∃ g lock,
    Reaches (Node.Moves sampleArgs samplePush) (sampleGateway Unit) g ∧
      g.stage () = .inside lock ∧ g.IsWriter := by
  have hstart : Reaches (Node.Moves sampleArgs samplePush) (sampleGateway Unit) _ := .refl _
  have htimed := hstart.tail ⟨_, .readClock (i := ()) rfl rfl⟩
  have hchecked := htimed.tail ⟨_, .checkPush (i := ()) rfl⟩
  have hwaiting := hchecked.tail ⟨_, .lookUp (i := ()) rfl⟩
  have hinside := hwaiting.tail ⟨_, .acquire (i := ()) rfl rfl⟩
  have hpromoted := hinside.trans (reaches_promoted (fun _ _ hstep ↦ ⟨_, hstep⟩) rfl rfl)
  exact ⟨_, 0, hpromoted, rfl, rfl⟩

end Sample

theorem modified_after_check_sample : ∃ g g',
    Reaches (Node.Moves sampleArgs sampleExecute) (sampleGateway Unit) g ∧
      Node.Step sampleArgs sampleExecute (.modify ()) g g' ∧
      Node.Checked sampleArgs sampleExecute (sampleGateway Unit) g () := by
  obtain ⟨g, lock, hrun, hinside, -⟩ := sample_overtaken
  exact ⟨g, _, hrun, .modify hinside, modified_after_check sampleArgs sampleExecute "a" _ g _
    (sampleGateway_starts Unit) hrun () (.modify hinside)⟩

/-- An `execute` is overtaken by the end of the lease, and a push session by the promotion of the
node. -/
theorem write_slips_past_fence :
    ¬ NeverSlips sampleArgs sampleExecute (sampleGateway Unit) ∧
      ¬ NeverSlips sampleArgs samplePush (sampleGateway Unit) := by
  constructor
  · intro h
    obtain ⟨g, lock, hrun, hinside, hlate⟩ := sample_overtaken
    exact hlate ((h g hrun () _ (.modify hinside)).mpr nofun)
  · intro h
    obtain ⟨g, lock, hrun, hinside, hwriter⟩ := sample_promoted_meanwhile
    exact (h g hrun () _ (.modify hinside)).mp hwriter rfl

end RsqliteRsync.Gateway
