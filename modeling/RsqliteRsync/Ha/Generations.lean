import RsqliteRsync.Ha.Cluster

namespace RsqliteRsync.Ha

open Foundation.Schedule Foundation.LeaseRegister

/-- The later lease has no smaller generation, and a greater one if the holder has changed. -/
def LeaseRecord.Precedes (lease later : LeaseRecord) : Prop :=
  lease.generation ≤ later.generation ∧
    (lease.holderNodeId ≠ later.holderNodeId → lease.generation < later.generation)

namespace LeaseRecord.Precedes

theorem refl (lease : LeaseRecord) : lease.Precedes lease := ⟨le_rfl, fun h ↦ absurd rfl h⟩

theorem trans {lease later last : LeaseRecord} (h : lease.Precedes later)
    (h' : later.Precedes last) : lease.Precedes last := by
  refine ⟨h.1.trans h'.1, fun hne ↦ ?_⟩
  by_cases hsame : lease.holderNodeId = later.holderNodeId
  · exact h.1.trans_lt (h'.2 (hsame ▸ hne))
  · exact (h.2 hsame).trans_le h'.1

end LeaseRecord.Precedes

def Member.InOrder (m : Member) : Prop :=
  ∀ lease later todo, m.node.world.shared.leaseRecord = some lease →
    m.phase = .acting (some later) todo → lease.Precedes later

theorem leaseRecord_of_run {io : ActionIo} {a : HaAction} {w w' : HaWorld}
    {res : Except String Unit} (h : ReadinessAwareExecutor.run io a w = (res, w')) :
    w'.shared.leaseRecord = w.shared.leaseRecord := by
  obtain ⟨role, gen, hshared⟩ := run_shared io a w
  rw [h] at hshared
  rw [hshared]

theorem Member.Step.inOrder {args : HaArgs} {clock : ℕ} {register : Option LeaseRecord}
    {m m' : Member} (h : Member.Step args clock register m m') (hm : m.InOrder)
    (hnew : ∀ lease later, m.Sees lease → register = some later → lease.Precedes later) :
    m'.InOrder := by
  intro lease later todo hcached hphase
  cases h with
  | begin freshness hfresh => cases hphase
  | read hread =>
    rcases hread with rfl | ⟨e, rfl⟩
    · exact hnew lease later (.inl hcached) (Phase.acting.inj hphase).1
    · cases (Phase.acting.inj hphase).1
  | @act node lease' a rest world io hrun =>
    exact hm lease later (a :: rest) ((leaseRecord_of_run hrun).symm.trans hcached)
      (congrArg (Phase.acting · (a :: rest)) (Phase.acting.inj hphase).1)
  | @fail node lease' a rest world e io hrun =>
    exact hm lease later (a :: rest) ((leaseRecord_of_run hrun).symm.trans hcached)
      (congrArg (Phase.acting · (a :: rest)) (Phase.acting.inj hphase).1)
  | store => cases hphase

theorem Cluster.reaches_clock {ι : Type*} [DecidableEq ι] {args : ι → HaArgs} {c c₁ : Cluster ι}
    (h : Reaches (Cluster.Step args) c c₁) : c.clock ≤ c₁.clock := by
  refine h.invariant (I := fun x ↦ c.clock ≤ x.clock) le_rfl fun x y _ hx hstep ↦ ?_
  cases hstep with
  | clock hle => exact hx.trans hle
  | register | member => exact hx

structure Fenced (ι : Type*) where
  cluster : Cluster ι
  last : Option LeaseRecord

namespace Fenced

variable {ι : Type*} [DecidableEq ι] {args : ι → HaArgs} {ids : ι → String} {f f₁ f₂ : Fenced ι}

/-- The steps of a cluster whose lease store never hands out an old generation again, and a new one
with every change of the holder. -/
inductive Step (args : ι → HaArgs) : Fenced ι → Fenced ι → Prop
  | register {f : Fenced ι} {r : Option LeaseRecord} :
      Moves f.cluster.clock (f.cluster.register.map LeaseRecord.grant) (r.map LeaseRecord.grant) →
      (∀ last lease, f.last = some last → r = some lease → last.Precedes lease) →
      Step args f ⟨{ f.cluster with register := r }, r <|> f.last⟩
  | node {f : Fenced ι} {c : Cluster ι} : Cluster.Step args f.cluster c →
      c.register = f.cluster.register → Step args f ⟨c, f.last⟩

structure Starts (args : ι → HaArgs) (ids : ι → String) (f : Fenced ι) : Prop where
  cluster : f.cluster.Starts args ids
  last : f.last = f.cluster.register

/-- Every lease that a node sees precedes the last one, and the nodes read them in order. -/
structure Inv (f : Fenced ι) : Prop where
  register : ∀ lease, f.cluster.register = some lease → f.last = some lease
  seen : ∀ i lease, (f.cluster.members i).Sees lease →
    ∃ last, f.last = some last ∧ lease.Precedes last
  inOrder : ∀ i, (f.cluster.members i).InOrder

omit [DecidableEq ι] in
theorem Starts.inv (h : f.Starts args ids) : f.Inv := by
  have hunseen (i : ι) (lease : LeaseRecord) : ¬ (f.cluster.members i).Sees lease := by
    rintro (hcached | ⟨todo, htodo⟩)
    · cases (h.cluster i).frame.2.symm.trans hcached
    · cases (h.cluster i).1.symm.trans htodo
  refine ⟨fun lease hregister ↦ h.last.trans hregister, fun i lease hsees ↦ absurd hsees
    (hunseen i lease), fun i lease later todo hcached _ ↦ absurd (.inl hcached) (hunseen i lease)⟩

theorem Step.cluster (h : Step args f f₁) : Cluster.Step args f.cluster f₁.cluster := by
  cases h with
  | register hmoves _ => exact .register hmoves
  | node hstep _ => exact hstep

theorem reaches_cluster (h : Reaches (Step args) f f₁) :
    Reaches (Cluster.Step args) f.cluster f₁.cluster :=
  h.invariant (I := fun x ↦ Reaches (Cluster.Step args) f.cluster x.cluster) (.refl _)
    fun _ _ _ hx hstep ↦ hx.tail hstep.cluster

theorem Step.last {lease last : LeaseRecord} (h : Step args f f₁) (hlast : f.last = some last)
    (hpre : lease.Precedes last) : ∃ last', f₁.last = some last' ∧ lease.Precedes last' := by
  cases h with
  | @register r hmoves hissued =>
    cases r with
    | none => exact ⟨last, hlast, hpre⟩
    | some new => exact ⟨new, rfl, hpre.trans (hissued last new hlast rfl)⟩
  | node hstep hkept => exact ⟨last, hlast, hpre⟩

theorem Step.sees (h : Step args f f₁) (hinv : f.Inv) {i : ι} {lease : LeaseRecord}
    (hsees : (f₁.cluster.members i).Sees lease) :
    (f.cluster.members i).Sees lease ∨ f.last = some lease := by
  cases h with
  | register => exact .inl hsees
  | node hstep hkept =>
    cases hstep with
    | clock | register => exact .inl hsees
    | @member j m hmember =>
      dsimp only at hsees
      rcases eq_or_ne i j with rfl | hne
      · rw [Function.update_self] at hsees
        exact (hmember.frame.2 lease hsees).imp_right (hinv.register lease)
      · rw [Function.update_of_ne hne] at hsees
        exact .inl hsees

theorem Step.inv (h : Step args f f₁) (hinv : f.Inv) : f₁.Inv := by
  have hseen (i : ι) (lease : LeaseRecord) (hsees : (f₁.cluster.members i).Sees lease) :
      ∃ last, f₁.last = some last ∧ lease.Precedes last := by
    rcases h.sees hinv hsees with hold | hlast
    · obtain ⟨last, hlast, hpre⟩ := hinv.seen i lease hold
      exact h.last hlast hpre
    · exact h.last hlast (.refl lease)
  refine ⟨?_, hseen, ?_⟩
  · cases h with
    | register hmoves hissued =>
      intro lease hregister
      dsimp only at hregister ⊢
      rw [hregister]
      rfl
    | node hstep hkept => exact fun lease hregister ↦ hinv.register lease (hkept ▸ hregister)
  · cases h with
    | register => exact hinv.inOrder
    | node hstep hkept =>
      cases hstep with
      | clock | register => exact hinv.inOrder
      | @member j m hmember =>
        intro i
        dsimp only
        rcases eq_or_ne i j with rfl | hne
        · rw [Function.update_self]
          refine hmember.inOrder (hinv.inOrder i) fun lease later hsees hregister ↦ ?_
          obtain ⟨last, hlast, hpre⟩ := hinv.seen i lease hsees
          cases hlast.symm.trans (hinv.register later hregister)
          exact hpre
        · rw [Function.update_of_ne hne]
          exact hinv.inOrder i

theorem reaches_fenced (h : Reaches (Step args) f f₁) (hinv : f.Inv) : f₁.Inv :=
  h.invariant hinv fun _ _ _ hx hstep ↦ hstep.inv hx

/-- After a node has seen a lease, what any node sees that it did not see then comes later. -/
theorem reaches_sees {lease : LeaseRecord} {i : ι} (h : Reaches (Step args) f f₁) (hinv : f.Inv)
    (hi : (f.cluster.members i).Sees lease) {j : ι} {later : LeaseRecord}
    (hj : (f₁.cluster.members j).Sees later) :
    (f.cluster.members j).Sees later ∨ lease.Precedes later := by
  have hall := h.invariant (I := fun x ↦ x.Inv ∧
    (∃ last, x.last = some last ∧ lease.Precedes last) ∧ ∀ later, (x.cluster.members j).Sees later →
      (f.cluster.members j).Sees later ∨ lease.Precedes later)
    ⟨hinv, hinv.seen i lease hi, fun later hj ↦ .inl hj⟩ fun x y _ ⟨hx, ⟨last, hlast, hpre⟩, hsee⟩
      hstep ↦ by
    refine ⟨hstep.inv hx, hstep.last hlast hpre, fun later hlater ↦ ?_⟩
    rcases hstep.sees hx hlater with hold | hnew
    · exact hsee later hold
    · cases hlast.symm.trans hnew
      exact .inr hpre
  exact hall.2.2 later hj

theorem reaches_node {i : ι} {m : Member}
    (h : Reaches (Member.Step (args i) f.cluster.clock f.cluster.register)
      (f.cluster.members i) m) :
    Reaches (Step args) f
      ⟨{ f.cluster with members := Function.update f.cluster.members i m }, f.last⟩ := by
  refine h.invariant (I := fun x ↦ Reaches (Step args) f
    ⟨{ f.cluster with members := Function.update f.cluster.members i x }, f.last⟩) ?_
    fun x y _ hx hstep ↦ ?_
  · rw [Function.update_eq_self]
    exact .refl f
  · have hmember : Cluster.Step args
        { f.cluster with members := Function.update f.cluster.members i x }
        { f.cluster with members := Function.update (Function.update f.cluster.members i x) i y } :=
      .member (by simpa using hstep)
    rw [Function.update_idem] at hmember
    exact hx.tail (.node hmember rfl)

end Fenced

end RsqliteRsync.Ha
