import RsqliteRsync.Foundation.Schedule

namespace RsqliteRsync.Foundation

open Schedule

/-- How an item is worked on: where the work begins, one piece of it, when it is done, and when it
has broken down. -/
structure Job (ι τ : Type*) where
  start : ι → τ
  advance : ι → τ → Option τ
  finished : τ → Bool
  broken : τ → Bool

structure WorkPool (ι τ : Type*) where
  pending : List ι
  inFlight : List (ι × τ)
  received : List (ι × τ)
  started : List ι

namespace WorkPool

variable {ι τ : Type*} (job : Job ι τ) (limit : ℕ)

def startNext (pool : WorkPool ι τ) : WorkPool ι τ :=
  match pool.pending with
  | [] => pool
  | i :: more =>
    { pool with
      pending := more
      inFlight := pool.inFlight ++ [(i, job.start i)]
      started := pool.started ++ [i] }

def fill (inFlight : List (ι × τ)) (started : List ι) : List ι → WorkPool ι τ
  | [] => ⟨[], inFlight, [], started⟩
  | i :: more =>
    if inFlight.length < limit then fill (inFlight ++ [(i, job.start i)]) (started ++ [i]) more
    else ⟨i :: more, inFlight, [], started⟩

def Intact (pool : WorkPool ι τ) : Prop := ∀ e ∈ pool.inFlight, job.broken e.2 = false

instance (pool : WorkPool ι τ) : Decidable (Intact job pool) :=
  inferInstanceAs (Decidable (∀ e ∈ pool.inFlight, job.broken e.2 = false))

/-- The work goes on anywhere, and what is done is received in any order. Work that breaks down
takes the pool with it. -/
inductive Step : WorkPool ι τ → WorkPool ι τ → Prop
  | work {pool : WorkPool ι τ} {before after : List (ι × τ)} {i : ι} {t t' : τ} :
      Intact job pool → pool.inFlight = before ++ (i, t) :: after → job.advance i t = some t' →
      Step pool { pool with inFlight := before ++ (i, t') :: after }
  | receive {pool : WorkPool ι τ} {before after : List (ι × τ)} {i : ι} {t : τ} :
      Intact job pool → pool.inFlight = before ++ (i, t) :: after → job.finished t = true →
      Step pool (startNext job
        { pool with inFlight := before ++ after, received := pool.received ++ [(i, t)] })

/-- Every item is in one place, and no place is free while items wait. -/
structure Sound (items : List ι) (pool : WorkPool ι τ) : Prop where
  order : pool.started ++ pool.pending = items
  shared : ((pool.inFlight ++ pool.received).map Prod.fst).Perm pool.started
  bound : pool.inFlight.length ≤ limit
  busy : pool.pending ≠ [] → pool.inFlight.length = limit

variable {job limit} {items : List ι} {pool pool' : WorkPool ι τ}

theorem sound_fill {inFlight : List (ι × τ)} {started : List ι}
    (hshared : (inFlight.map Prod.fst).Perm started) (hbound : inFlight.length ≤ limit)
    (items : List ι) : Sound limit (started ++ items) (fill job limit inFlight started items) := by
  induction items generalizing inFlight started with
  | nil => exact ⟨rfl, by simpa [fill] using hshared, hbound, fun h ↦ absurd rfl h⟩
  | cons i more ih =>
    unfold fill
    split_ifs with hroom
    · have hmore : Sound limit (started ++ [i] ++ more)
          (fill job limit (inFlight ++ [(i, job.start i)]) (started ++ [i]) more) :=
        ih (by simpa using hshared.append_right [i]) (by simpa using hroom)
      rwa [List.append_assoc, List.singleton_append] at hmore
    · exact ⟨rfl, by simpa using hshared, hbound, fun _ ↦ hbound.antisymm (Nat.not_lt.mp hroom)⟩

theorem sound_startNext (horder : pool.started ++ pool.pending = items)
    (hshared : ((pool.inFlight ++ pool.received).map Prod.fst).Perm pool.started)
    (hbound : pool.inFlight.length < limit)
    (hbusy : pool.pending ≠ [] → pool.inFlight.length + 1 = limit) :
    Sound limit items (startNext job pool) := by
  unfold startNext
  split
  · next hpending => exact ⟨horder, hshared, hbound.le, fun h ↦ absurd hpending h⟩
  · next i more hpending =>
    have hfull : pool.inFlight.length + 1 = limit := hbusy (by simp [hpending])
    refine ⟨?_, ?_, ?_, fun _ ↦ ?_⟩
    · rw [← horder, hpending]
      simp
    · have hmoved : ((pool.inFlight ++ [(i, job.start i)] ++ pool.received).map Prod.fst).Perm
          ((pool.inFlight ++ pool.received).map Prod.fst ++ [i]) := by
        simp only [List.map_append, List.map_cons, List.map_nil, List.append_assoc]
        exact .append_left _ List.perm_append_comm
      exact hmoved.trans (hshared.append_right _)
    · simp [hfull]
    · simp [hfull]

theorem Sound.step (h : Sound limit items pool) (hstep : Step job pool pool') :
    Sound limit items pool' := by
  cases hstep with
  | work _ hflight hadvance =>
    have hshared := h.shared
    have hbound := h.bound
    have hbusy := h.busy
    rw [hflight] at hshared hbound hbusy
    exact ⟨h.order, by simpa using hshared, by simpa using hbound, by simpa using hbusy⟩
  | @receive before after i t _ hflight hfinished =>
    have hbound := h.bound
    have hbusy := h.busy
    rw [hflight, List.length_append, List.length_cons] at hbound hbusy
    apply sound_startNext
    · exact h.order
    · have hmoved : ((before ++ after ++ (pool.received ++ [(i, t)])).map Prod.fst).Perm
          ((before ++ (i, t) :: after ++ pool.received).map Prod.fst) := by
        apply List.Perm.map
        have hlast := List.perm_append_singleton (i, t) (before ++ after ++ pool.received)
        rw [List.append_assoc] at hlast
        refine hlast.trans ?_
        rw [List.append_assoc, List.append_assoc]
        exact List.perm_middle.symm
      rw [← hflight] at hmoved
      exact hmoved.trans h.shared
    · rw [List.length_append]
      omega
    · intro hpending
      have hfull := hbusy hpending
      rw [List.length_append]
      omega

theorem sound_of_reaches (h : Reaches (Step job) (fill job limit [] [] items) pool) :
    Sound limit items pool := by
  have hfill : Sound limit ([] ++ items) (fill job limit [] [] items) := by
    apply sound_fill
    · exact .refl _
    · exact Nat.zero_le _
  exact h.invariant hfill fun _ _ _ hsound hstep ↦ hsound.step hstep

theorem Sound.done (h : Sound limit items pool) (hlimit : 0 < limit) (hdone : pool.inFlight = []) :
    pool.started = items ∧ (pool.received.map Prod.fst).Perm items := by
  have hpending : pool.pending = [] := by
    by_contra hne
    have hfull := h.busy hne
    rw [hdone, List.length_nil] at hfull
    omega
  have horder := h.order
  have hshared := h.shared
  rw [hpending, List.append_nil] at horder
  rw [hdone, List.nil_append, horder] at hshared
  exact ⟨horder, hshared⟩

section Tasks

variable {J : ι → τ → Prop}

structure Tasks (job : Job ι τ) (J : ι → τ → Prop) (pool : WorkPool ι τ) : Prop where
  holds : ∀ e ∈ pool.inFlight ++ pool.received, J e.1 e.2
  finished : ∀ e ∈ pool.received, job.finished e.2 = true

theorem tasks_startNext (h : Tasks job J pool) (hstart : ∀ i, J i (job.start i)) :
    Tasks job J (startNext job pool) := by
  unfold startNext
  split
  · exact h
  · refine ⟨?_, h.finished⟩
    have hholds := h.holds
    simp only [List.forall_mem_append] at hholds ⊢
    exact ⟨⟨hholds.1, by simpa using hstart _⟩, hholds.2⟩

theorem tasks_fill {inFlight : List (ι × τ)} (hstart : ∀ i, J i (job.start i))
    (hholds : ∀ e ∈ inFlight, J e.1 e.2) (started items : List ι) :
    Tasks job J (fill job limit inFlight started items) := by
  induction items generalizing inFlight started with
  | nil => exact ⟨by simpa [fill] using hholds, List.forall_mem_nil _⟩
  | cons i more ih =>
    unfold fill
    split_ifs
    · apply ih
      rw [List.forall_mem_append]
      exact ⟨hholds, by simpa using hstart i⟩
    · exact ⟨by simpa using hholds, List.forall_mem_nil _⟩

theorem Tasks.step (h : Tasks job J pool) (hstart : ∀ i, J i (job.start i))
    (hadvance : ∀ i t t', J i t → job.advance i t = some t' → J i t')
    (hstep : Step job pool pool') : Tasks job J pool' := by
  have hholds := h.holds
  cases hstep with
  | work _ hflight hwork =>
    rw [hflight] at hholds
    refine ⟨?_, h.finished⟩
    simp only [List.forall_mem_append, List.forall_mem_cons] at hholds ⊢
    obtain ⟨⟨hbefore, hi, hafter⟩, hreceived⟩ := hholds
    exact ⟨⟨hbefore, hadvance _ _ _ hi hwork, hafter⟩, hreceived⟩
  | receive _ hflight hfinished =>
    rw [hflight] at hholds
    apply tasks_startNext _ hstart
    have hdone := h.finished
    simp only [List.forall_mem_append, List.forall_mem_cons] at hholds
    obtain ⟨⟨hbefore, hi, hafter⟩, hreceived⟩ := hholds
    constructor
    · simp only [List.forall_mem_append, List.forall_mem_cons]
      exact ⟨⟨hbefore, hafter⟩, hreceived, hi, List.forall_mem_nil _⟩
    · simp only [List.forall_mem_append, List.forall_mem_cons]
      exact ⟨hdone, hfinished, List.forall_mem_nil _⟩

theorem tasks_of_reaches (hstart : ∀ i, J i (job.start i))
    (hadvance : ∀ i t t', J i t → job.advance i t = some t' → J i t')
    (h : Reaches (Step job) (fill job limit [] [] items) pool) : Tasks job J pool :=
  h.invariant (I := Tasks job J) (tasks_fill hstart (List.forall_mem_nil _) [] items)
    fun _ _ _ htasks hstep ↦ htasks.step hstart hadvance hstep

end Tasks

section Termination

variable {cost : ι → τ → ℕ}

def work (job : Job ι τ) (cost : ι → τ → ℕ) (pool : WorkPool ι τ) : ℕ :=
  (pool.pending.map fun i ↦ cost i (job.start i) + 1).sum +
    (pool.inFlight.map fun e ↦ cost e.1 e.2 + 1).sum

theorem work_startNext (pool : WorkPool ι τ) :
    work job cost (startNext job pool) = work job cost pool := by
  unfold startNext
  split
  · rfl
  · next hpending =>
    simp only [work, hpending, List.map_cons, List.sum_cons, List.map_append, List.map_nil,
      List.sum_append, List.sum_nil]
    omega

theorem Step.work_lt (hcost : ∀ i t t', job.advance i t = some t' → cost i t' < cost i t)
    (hstep : Step job pool pool') : WorkPool.work job cost pool' < WorkPool.work job cost pool := by
  cases hstep with
  | work _ hflight hadvance =>
    have hless := hcost _ _ _ hadvance
    simp only [WorkPool.work, hflight, List.map_append, List.map_cons, List.sum_append,
      List.sum_cons]
    omega
  | receive _ hflight hfinished =>
    rw [work_startNext]
    simp only [WorkPool.work, hflight, List.map_append, List.map_cons, List.sum_append,
      List.sum_cons]
    omega

/-- A pool stands still only with work in flight that has broken down or that neither goes on nor
is done. -/
theorem stuck_inFlight (h : Stuck (Step job) pool) :
    (∃ e ∈ pool.inFlight, job.broken e.2 = true) ∨
      ∀ e ∈ pool.inFlight, job.broken e.2 = false ∧ job.advance e.1 e.2 = none ∧
        job.finished e.2 = false := by
  by_cases hintact : Intact job pool
  · refine .inr fun e he ↦ ?_
    obtain ⟨before, after, hflight⟩ := List.append_of_mem he
    refine ⟨hintact e he, ?_, ?_⟩
    · cases hadvance : job.advance e.1 e.2 with
      | none => rfl
      | some t => exact absurd (.work hintact hflight hadvance) (h _)
    · cases hfinished : job.finished e.2 with
      | false => rfl
      | true => exact absurd (.receive hintact hflight hfinished) (h _)
  · simp only [Intact, not_forall, Bool.not_eq_false, exists_prop] at hintact
    exact .inl hintact

end Termination

end WorkPool

end RsqliteRsync.Foundation
