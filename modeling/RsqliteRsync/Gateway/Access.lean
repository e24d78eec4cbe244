import RsqliteRsync.Gateway.Status
import RsqliteRsync.Ha.Generations

namespace RsqliteRsync.Gateway

open Ha Foundation.Schedule Foundation.LeaseRegister

inductive ConsistencyLevel
  | strong
  | eventual
  deriving DecidableEq

def ConsistencyLevel.ofRequest (consistency : ℤ) : ConsistencyLevel :=
  if consistency = 1 then .eventual else .strong

namespace SqlGatewayServer

def checkReadAccess (state : HaSharedState) (consistency : ConsistencyLevel) (nowSecs : ℕ) :
    Except Status (ℕ × Bool) :=
  match consistency with
  | .strong =>
    if !state.isWriter nowSecs then .error (notLeaderStatus state)
    else .ok (state.generation, false)
  | .eventual =>
    if state.isWriter nowSecs then .ok (state.generation, false)
    else if state.allowReplicaReads then .ok (state.generation, true)
    else .error (notLeaderStatus state)

/-- The gateway lets a write, or a read that is not one of a replica, pass with this generation.
Both checks read the clock while they hold the lock of the state. -/
inductive Authoritative (state : HaSharedState) (nowSecs : ℕ) : ℕ → Prop
  | write {generation : ℕ} : checkWriteAccess state nowSecs = .ok generation →
      Authoritative state nowSecs generation
  | read {consistency : ConsistencyLevel} {generation : ℕ} :
      checkReadAccess state consistency nowSecs = .ok (generation, false) →
      Authoritative state nowSecs generation

theorem Authoritative.isWriter {state : HaSharedState} {nowSecs generation : ℕ}
    (h : Authoritative state nowSecs generation) :
    state.isWriter nowSecs = true ∧ generation = state.generation := by
  cases h with
  | write h =>
    rw [checkWriteAccess] at h
    split_ifs at h with hwriter
    cases h
    exact ⟨by simpa using hwriter, rfl⟩
  | @read consistency _ h =>
    cases consistency with
    | strong =>
      rw [checkReadAccess] at h
      split_ifs at h with hwriter
      cases h
      exact ⟨by simpa using hwriter, rfl⟩
    | eventual =>
      rw [checkReadAccess] at h
      split_ifs at h with hwriter hallowed
      · cases h
        exact ⟨hwriter, rfl⟩
      · cases h

theorem Authoritative.lease {state : HaSharedState} {nowSecs generation : ℕ}
    (h : Authoritative state nowSecs generation) :
    ∃ lease, state.leaseRecord = some lease ∧ nowSecs ≤ lease.expiry ∧
      lease.holderNodeId = state.nodeId ∧ lease.generation = generation := by
  obtain ⟨hwriter, rfl⟩ := h.isWriter
  obtain ⟨-, lease, hlease, hvalid⟩ := HaSharedState.isWriter_iff.mp hwriter
  exact ⟨lease, hlease, hvalid⟩

end SqlGatewayServer

open SqlGatewayServer

section Order

variable {ι : Type*} [DecidableEq ι] {args : ι → HaArgs} {ids : ι → String} {f f₁ f₂ : Fenced ι}
  {i j : ι} {g₁ g₂ : ℕ}

/-- The leases of two answers are in order: the later one was seen when the first answer was given,
and then both are of one node, or it was issued after that. -/
theorem generations_in_order (hids : Function.Injective ids) (hstart : f.Starts args ids)
    (h₁ : Reaches (Fenced.Step args) f f₁) (h₂ : Reaches (Fenced.Step args) f₁ f₂)
    (hi : Authoritative (f₁.cluster.members i).node.world.shared f₁.cluster.clock g₁)
    (hj : Authoritative (f₂.cluster.members j).node.world.shared f₂.cluster.clock g₂) :
    g₁ ≤ g₂ ∧ (i ≠ j → g₁ < g₂) := by
  have hfenced := Fenced.reaches_fenced h₁ hstart.inv
  have hinv₁ := Cluster.reaches_inv (Fenced.reaches_cluster h₁) hstart.cluster.inv
  have hinv₂ := Cluster.reaches_inv (Fenced.reaches_cluster h₂) hinv₁
  obtain ⟨L, hL, hexp, hholder, rfl⟩ := hi.lease
  obtain ⟨L', hL', hexp', hholder', rfl⟩ := hj.lease
  rw [hinv₁.identity i] at hholder
  rw [hinv₂.identity j] at hholder'
  have hpre : L.Precedes L' := by
    rcases Fenced.reaches_sees h₂ hfenced (.inl hL) (.inl hL') with hearlier | hpre
    · have hclock := Cluster.reaches_clock (Fenced.reaches_cluster h₂)
      have hsame : L.holderNodeId = L'.holderNodeId :=
        Vouched.holder_eq (hinv₁.vouched i L (.inl hL)) (hinv₁.vouched j L' hearlier) hexp
          (hclock.trans hexp')
      obtain rfl : i = j := hids (hholder.symm.trans (hsame.trans hholder'))
      rcases hearlier with hcached | ⟨todo, hphase⟩
      · cases hL.symm.trans hcached
        exact .refl L
      · exact hfenced.inOrder i L L' todo hL hphase
    · exact hpre
  refine ⟨hpre.1, fun hne ↦ hpre.2 fun hsame ↦ hne (hids ?_)⟩
  rw [← hholder, hsame, hholder']

end Order

end RsqliteRsync.Gateway
