import RsqliteRsync.Gateway.Admission

namespace RsqliteRsync.Gateway

open Ha Foundation.Schedule

def Stage.Uses (lock : ℕ) (stage : Stage) : Prop := stage = .waiting lock ∨ stage = .inside lock

def Stage.lock : Stage → Option ℕ
  | .waiting lock | .inside lock | .removed lock => some lock
  | .received | .timed _ | .refused _ | .admitted | .answered => none

theorem SqlGatewayServer.enter_lock (state : HaSharedState) (now : ℕ) :
    (enter state now).lock = none := by
  unfold enter
  split <;> rfl

theorem ReplicationServer.enter_lock (state : HaSharedState) (now : ℕ) :
    (enter state now).lock = none := by
  unfold enter
  split <;> rfl

theorem DatabaseEngine.getDbLock_spec (engine : DatabaseEngine) (dbName : String) :
    (engine.getDbLock dbName).2.dbMutexes (trim dbName) = some (engine.getDbLock dbName).1 ∧
      ∀ name lock, engine.dbMutexes name = some lock →
        (engine.getDbLock dbName).2.dbMutexes name = some lock := by
  unfold getDbLock
  cases hentry : engine.dbMutexes (trim dbName) with
  | some lock => exact ⟨hentry, fun _ _ h ↦ h⟩
  | none =>
    refine ⟨by simp, fun name lock hname ↦ ?_⟩
    have hne : name ≠ trim dbName := by
      rintro rfl
      cases hentry.symm.trans hname
    simpa [hne] using hname

theorem DatabaseEngine.removeDbLock_of_ne (engine : DatabaseEngine) {name dbName : String}
    (hne : name ≠ trim dbName) :
    (engine.removeDbLock dbName).dbMutexes name = engine.dbMutexes name := by
  simp [removeDbLock, hne]

namespace Node

variable {ι : Type*} {args : HaArgs} {request : ι → Request} {start g g' : Node ι} {i : ι}

/-- At most one operation on each database is inside its critical section. -/
def Exclusive (request : ι → Request) (g : Node ι) : Prop :=
  ∀ i j lock lock', (request i).name = (request j).name → g.stage i = .inside lock →
    g.stage j = .inside lock' → i = j

/-- Nobody else has in hand a mutex for the name that the operation removes. -/
def Unwatched (request : ι → Request) (g : Node ι) (i : ι) : Prop :=
  ∀ j lock, j ≠ i → (request j).name = (request i).name → ¬ (g.stage j).Uses lock

/-- A mutex has the owner that holds it, and whoever uses a mutex has the one in the table. -/
structure Locked (request : ι → Request) (g : Node ι) : Prop where
  owner : ∀ i lock, g.stage i = .inside lock ∨ g.stage i = .removed lock → g.owner lock = some i
  table : ∀ i lock, (g.stage i).Uses lock → g.engine.dbMutexes (request i).name = some lock

theorem Locked.exclusive (h : Locked request g) : Exclusive request g := by
  intro i j lock lock' hname hi hj
  have hlock := h.table i lock (.inr hi)
  rw [hname, h.table j lock' (.inr hj)] at hlock
  cases hlock
  have howner := h.owner i lock (.inl hi)
  rw [h.owner j lock (.inl hj)] at howner
  exact (Option.some.inj howner).symm

theorem Starts.locked {nodeId : String} (h : start.Starts args nodeId) : Locked request start := by
  constructor
  · intro i lock hi
    rw [h.stage i] at hi
    rcases hi with hi | hi <;> cases hi
  · intro i lock hi
    rw [h.stage i] at hi
    rcases hi with hi | hi <;> cases hi

variable [DecidableEq ι]

def MovesCarefully (args : HaArgs) (request : ι → Request) (g g' : Node ι) : Prop :=
  ∃ label, Step args request label g g' ∧ ∀ i, label = .remove i → Unwatched request g i

theorem Locked.advance (h : Locked request g) {stage : Stage} (hlock : stage.lock = none) :
    Locked request (g.advance i stage) := by
  constructor
  · intro j lock hj
    rcases eq_or_ne j i with rfl | hne
    · rw [advance_stage_self] at hj
      rcases hj with rfl | rfl <;> cases hlock
    · exact h.owner j lock (by simpa [hne] using hj)
  · intro j lock hj
    rcases eq_or_ne j i with rfl | hne
    · rw [advance_stage_self] at hj
      rcases hj with rfl | rfl <;> cases hlock
    · exact h.table j lock (by simpa [hne] using hj)

theorem Locked.lookUp (h : Locked request g) :
    Locked request { g.advance i (.waiting (g.engine.getDbLock (request i).database).1) with
      engine := (g.engine.getDbLock (request i).database).2 } := by
  obtain ⟨hnew, hold⟩ := g.engine.getDbLock_spec (request i).database
  constructor
  · intro j lock hj
    rcases eq_or_ne j i with rfl | hne
    · simp at hj
    · exact h.owner j lock (by simpa [hne] using hj)
  · intro j lock hj
    rcases eq_or_ne j i with rfl | hne
    · rcases hj with hj | hj
      · simp only [advance_stage_self, Stage.waiting.injEq] at hj
        exact hj ▸ hnew
      · simp at hj
    · exact hold _ _ (h.table j lock (by simpa [hne] using hj))

theorem Locked.acquire {lock : ℕ} (h : Locked request g) (hstage : g.stage i = .waiting lock)
    (hfree : g.owner lock = none) :
    Locked request { g.advance i (.inside lock) with
      owner := Function.update g.owner lock (some i) } := by
  constructor
  · intro j lock' hj
    rcases eq_or_ne j i with rfl | hne
    · have heq : lock = lock' := by simpa using hj
      exact heq ▸ Function.update_self ..
    · have howner := h.owner j lock' (by simpa [hne] using hj)
      have hlock : lock' ≠ lock := by
        rintro rfl
        cases hfree.symm.trans howner
      exact (Function.update_of_ne hlock ..).trans howner
  · intro j lock' hj
    rcases eq_or_ne j i with rfl | hne
    · have heq : lock = lock' := by simpa [Stage.Uses] using hj
      exact heq ▸ h.table j lock (.inl hstage)
    · exact h.table j lock' (by simpa [hne] using hj)

theorem Locked.remove {lock : ℕ} (h : Locked request g) (hstage : g.stage i = .inside lock)
    (hcareful : Unwatched request g i) :
    Locked request { g.advance i (.removed lock) with
      engine := g.engine.removeDbLock (request i).database } := by
  constructor
  · intro j lock' hj
    rcases eq_or_ne j i with rfl | hne
    · have heq : lock = lock' := by simpa using hj
      exact heq ▸ h.owner j lock (.inl hstage)
    · exact h.owner j lock' (by simpa [hne] using hj)
  · intro j lock' hj
    rcases eq_or_ne j i with rfl | hne
    · simp [Stage.Uses] at hj
    · have huses : (g.stage j).Uses lock' := by simpa [hne] using hj
      have hname : (request j).name ≠ trim (request i).database :=
        fun heq ↦ hcareful j lock' hne heq huses
      rw [g.engine.removeDbLock_of_ne hname]
      exact h.table j lock' huses

theorem Locked.release {lock : ℕ} (h : Locked request g)
    (hstage : g.stage i = .inside lock ∨ g.stage i = .removed lock) :
    Locked request { g.advance i .answered with owner := Function.update g.owner lock none } := by
  have hmine := h.owner i lock hstage
  constructor
  · intro j lock' hj
    rcases eq_or_ne j i with rfl | hne
    · simp at hj
    · have howner := h.owner j lock' (by simpa [hne] using hj)
      have hlock : lock' ≠ lock := by
        rintro rfl
        exact hne (Option.some.inj (howner.symm.trans hmine))
      exact (Function.update_of_ne hlock ..).trans howner
  · intro j lock' hj
    rcases eq_or_ne j i with rfl | hne
    · simp [Stage.Uses] at hj
    · exact h.table j lock' (by simpa [hne] using hj)

theorem Locked.step (h : Locked request g) (hmoves : MovesCarefully args request g g') :
    Locked request g' := by
  obtain ⟨label, hstep, hcareful⟩ := hmoves
  cases hstep with
  | clock => exact ⟨h.owner, h.table⟩
  | ha => exact ⟨h.owner, h.table⟩
  | modify => exact ⟨h.owner, h.table⟩
  | check => exact h.advance (SqlGatewayServer.enter_lock ..)
  | readClock => exact h.advance rfl
  | checkPush => exact h.advance (ReplicationServer.enter_lock ..)
  | reject => exact h.advance rfl
  | lookUp => exact h.lookUp
  | acquire hstage hfree => exact h.acquire hstage hfree
  | remove _ hstage => exact h.remove hstage (hcareful _ rfl)
  | release hstage => exact h.release hstage

end Node

/-- As long as no operation removes a mutex that another one has in hand, at most one operation on
each database is inside its critical section. -/
theorem exclusive_of_careful {ι : Type*} [DecidableEq ι] (args : HaArgs) (request : ι → Request)
    (nodeId : String) (start g : Node ι) (hstart : start.Starts args nodeId)
    (hrun : Reaches (Node.MovesCarefully args request) start g) : g.Exclusive request :=
  (hrun.invariant (I := Node.Locked request) hstart.locked
    fun _ _ _ hx hmoves ↦ hx.step hmoves).exclusive

section Sample

def sampleDrop {n : ℕ} (i : Fin (n + 1)) : Request :=
  ⟨if i = 0 then .dropDatabase else .execute, "app.db"⟩

end Sample

theorem exclusive_of_careful_sample : ∃ g,
    Reaches (Node.MovesCarefully sampleArgs (sampleDrop (n := 1))) (sampleGateway (Fin 2)) g ∧
      g.stage 1 = .inside 1 ∧ g.Exclusive sampleDrop := by
  have hrun := sampleGateway_promoted
    (R := Node.MovesCarefully sampleArgs (sampleDrop (n := 1))) fun _ _ hstep ↦ ⟨_, hstep, nofun⟩
  have hdrop := ((hrun.tail ⟨_, .check (i := 0) nofun rfl, nofun⟩).tail
    ⟨_, .lookUp (i := 0) rfl, nofun⟩).tail ⟨_, .acquire (i := 0) rfl rfl, nofun⟩
  have hremoved := hdrop.tail ⟨_, .remove (i := 0) rfl rfl, fun i hi j lock hne _ huses ↦ by
    cases hi
    obtain rfl := Fin.eq_one_of_ne_zero j hne
    rcases huses with h | h <;> cases h⟩
  have hdropped := hremoved.tail ⟨_, .release (i := 0) (.inr rfl), nofun⟩
  have hexecute := ((hdropped.tail ⟨_, .check (i := 1) nofun rfl, nofun⟩).tail
    ⟨_, .lookUp (i := 1) rfl, nofun⟩).tail ⟨_, .acquire (i := 1) rfl rfl, nofun⟩
  exact ⟨_, hexecute, rfl,
    exclusive_of_careful sampleArgs sampleDrop "a" _ _ (sampleGateway_starts _) hexecute⟩

/-- One operation waits for the mutex that the drop takes out of the table, and a third one makes
a new mutex. -/
theorem not_exclusive_after_drop : ¬ ∀ g,
    Reaches (Node.Moves sampleArgs (sampleDrop (n := 2))) (sampleGateway (Fin 3)) g →
      g.Exclusive sampleDrop := by
  intro h
  have hrun := sampleGateway_promoted (R := Node.Moves sampleArgs (sampleDrop (n := 2)))
    fun _ _ hstep ↦ ⟨_, hstep⟩
  have hdrop := ((hrun.tail ⟨_, .check (i := 0) nofun rfl⟩).tail ⟨_, .lookUp (i := 0) rfl⟩).tail
    ⟨_, .acquire (i := 0) rfl rfl⟩
  have hwaiting := (hdrop.tail ⟨_, .check (i := 1) nofun rfl⟩).tail ⟨_, .lookUp (i := 1) rfl⟩
  have hdropped := (hwaiting.tail ⟨_, .remove (i := 0) rfl rfl⟩).tail
    ⟨_, .release (i := 0) (.inr rfl)⟩
  have hfirst := hdropped.tail ⟨_, .acquire (i := 1) rfl rfl⟩
  have hsecond := ((hfirst.tail ⟨_, .check (i := 2) nofun rfl⟩).tail
    ⟨_, .lookUp (i := 2) rfl⟩).tail ⟨_, .acquire (i := 2) rfl rfl⟩
  exact absurd (h _ hsecond 1 2 0 1 rfl rfl rfl) (by decide)

end RsqliteRsync.Gateway
