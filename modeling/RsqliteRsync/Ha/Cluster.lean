import RsqliteRsync.Foundation.LeaseRegister
import RsqliteRsync.Ha.Fence
import RsqliteRsync.Ha.Member

namespace RsqliteRsync.Ha

open Foundation.Schedule Foundation.LeaseRegister

def LeaseRecord.grant (lease : LeaseRecord) : Grant String ℕ := ⟨lease.holderNodeId, lease.expiry⟩

/-- Nodes that share a lease register and a clock. -/
structure Cluster (ι : Type*) where
  clock : ℕ
  register : Option LeaseRecord
  members : ι → Member

namespace Cluster

variable {ι : Type*} {args : ι → HaArgs} {ids : ι → String} {c c₁ : Cluster ι}

def Starts (args : ι → HaArgs) (ids : ι → String) (c : Cluster ι) : Prop :=
  ∀ i, (c.members i).Starts (args i) (ids i)

def Vouches (c : Cluster ι) (lease : LeaseRecord) : Prop :=
  Vouched c.clock (c.register.map LeaseRecord.grant) lease.grant

/-- The nodes are who they are, and the register vouches for every lease they see. -/
structure Inv (ids : ι → String) (c : Cluster ι) : Prop where
  identity : ∀ i, (c.members i).node.world.shared.nodeId = ids i
  vouched : ∀ i lease, (c.members i).Sees lease → c.Vouches lease

theorem Starts.inv (h : c.Starts args ids) : Inv ids c := by
  refine ⟨fun i ↦ (h i).frame.1, fun i lease hsees ↦ ?_⟩
  rcases hsees with hcached | ⟨todo, htodo⟩
  · cases (h i).frame.2.symm.trans hcached
  · cases (h i).1.symm.trans htodo

theorem Inv.of_isWriter (hinv : Inv ids c) {i : ι} {t : ℕ}
    (h : (c.members i).node.world.shared.isWriter t = true) :
    ∃ lease, c.Vouches lease ∧ lease.holderNodeId = ids i ∧ t ≤ lease.expiry := by
  obtain ⟨-, lease, hlease, ht, hholder, -⟩ := HaSharedState.isWriter_iff.mp h
  exact ⟨lease, hinv.vouched i lease (.inl hlease), hholder.trans (hinv.identity i), ht⟩

variable [DecidableEq ι]

inductive Step (args : ι → HaArgs) : Cluster ι → Cluster ι → Prop
  | clock {c : Cluster ι} {t : ℕ} : c.clock ≤ t → Step args c { c with clock := t }
  | register {c : Cluster ι} {r : Option LeaseRecord} :
      Moves c.clock (c.register.map LeaseRecord.grant) (r.map LeaseRecord.grant) →
      Step args c { c with register := r }
  | member {c : Cluster ι} {i : ι} {m : Member} :
      Member.Step (args i) c.clock c.register (c.members i) m →
      Step args c { c with members := Function.update c.members i m }

theorem Step.vouches {lease : LeaseRecord} (h : Step args c c₁) (hv : c.Vouches lease) :
    c₁.Vouches lease := by
  cases h with
  | clock hle => exact Vouched.later hv hle
  | register hmoves => exact Vouched.moves hv hmoves
  | member => exact hv

theorem Step.inv (h : Step args c c₁) (hinv : Inv ids c) : Inv ids c₁ := by
  have hvouches := fun i lease hsees ↦ h.vouches (hinv.vouched i lease hsees)
  cases h with
  | clock hle => exact ⟨hinv.identity, hvouches⟩
  | register hmoves => exact ⟨hinv.identity, hvouches⟩
  | @member i m hstep =>
    obtain ⟨hid, hsees⟩ := hstep.frame
    refine ⟨fun j ↦ ?_, fun j lease hsees' ↦ ?_⟩
    · rcases eq_or_ne j i with rfl | hne
      · simpa using hid.trans (hinv.identity j)
      · simpa [hne] using hinv.identity j
    · dsimp only at hsees'
      rcases eq_or_ne j i with rfl | hne
      · rw [Function.update_self] at hsees'
        rcases hsees lease hsees' with hold | hnew
        · exact hvouches j lease hold
        · change Vouched c.clock (c.register.map LeaseRecord.grant) lease.grant
          rw [hnew]
          exact Vouched.self c.clock lease.grant
      · rw [Function.update_of_ne hne] at hsees'
        exact hvouches j lease hsees'

theorem reaches_inv (h : Reaches (Step args) c c₁) (hinv : Inv ids c) : Inv ids c₁ :=
  h.invariant hinv fun _ _ _ hx hstep ↦ hstep.inv hx

theorem reaches_vouches {lease : LeaseRecord} (h : Reaches (Step args) c c₁)
    (hv : c.Vouches lease) : c₁.Vouches lease :=
  h.invariant hv fun _ _ _ hx hstep ↦ hstep.vouches hx

theorem reaches_member {i : ι} {m : Member}
    (h : Reaches (Member.Step (args i) c.clock c.register) (c.members i) m) :
    Reaches (Step args) c { c with members := Function.update c.members i m } := by
  refine h.invariant (I := fun x ↦ Reaches (Step args) c
    { c with members := Function.update c.members i x }) ?_ fun x y _ hx hstep ↦ ?_
  · rw [Function.update_eq_self]
    exact .refl c
  · have hmember : Step args { c with members := Function.update c.members i x }
        { c with members := Function.update (Function.update c.members i x) i y } :=
      .member (by simpa using hstep)
    rw [Function.update_idem] at hmember
    exact hx.tail hmember

end Cluster

/-- Gateways of different nodes do not both accept writes for a time `t`, one at some moment of
the run and the other at the same or a later moment that is not past `t`. -/
theorem single_writer {ι : Type*} [DecidableEq ι] (args : ι → HaArgs) (ids : ι → String)
    (hids : Function.Injective ids) (c c₁ c₂ : Cluster ι) (hstart : c.Starts args ids)
    (h₁ : Reaches (Cluster.Step args) c c₁) (h₂ : Reaches (Cluster.Step args) c₁ c₂) (t : ℕ)
    (ht : c₂.clock ≤ t) (i j : ι) (hne : i ≠ j) :
    ¬ ((c₁.members i).node.world.shared.isWriter t = true ∧
      (c₂.members j).node.world.shared.isWriter t = true) := by
  rintro ⟨hi, hj⟩
  have hinv₁ := Cluster.reaches_inv h₁ hstart.inv
  have hinv₂ := Cluster.reaches_inv h₂ hinv₁
  obtain ⟨L, hL, hholder, hexp⟩ := hinv₁.of_isWriter hi
  obtain ⟨L', hL', hholder', hexp'⟩ := hinv₂.of_isWriter hj
  have hsame : L.holderNodeId = L'.holderNodeId :=
    Vouched.holder_eq (Cluster.reaches_vouches h₂ hL) hL' (ht.trans hexp) (ht.trans hexp')
  exact hne (hids (hholder.symm.trans (hsame.trans hholder')))

def sampleId (i : Bool) : String := if i then "a" else "b"

def sampleCluster : Cluster Bool :=
  ⟨100, some ⟨"a", 1, 100, 10⟩, fun i ↦ ⟨.new (sampleId i) false {} 0 true "" none, .idle⟩⟩

theorem single_writer_sample :
    ∃ c, Reaches (Cluster.Step fun _ ↦ sampleArgs) sampleCluster c ∧
      (c.members true).node.world.shared.isWriter 110 = true ∧
      ¬ (c.members false).node.world.shared.isWriter 110 = true := by
  have hiterate := @Member.reaches_iterate sampleArgs 100 (some ⟨"a", 1, 100, 10⟩) sampleNode _
    (sampleInput 100 100 {}) rfl rfl (.inl rfl)
  have hrun := @Cluster.reaches_member Bool (fun _ ↦ sampleArgs) sampleCluster _ true _ hiterate
  refine ⟨_, hrun, rfl, fun hother ↦ ?_⟩
  exact single_writer (fun _ ↦ sampleArgs) sampleId (by decide) sampleCluster _ _
    (fun i ↦ ⟨rfl, _, _, _, _, _, _, sampleInput 0 0 {}, rfl⟩) hrun (.refl _) 110 (by decide)
    true false (by decide) ⟨rfl, hother⟩

end RsqliteRsync.Ha
