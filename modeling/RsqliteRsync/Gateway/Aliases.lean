import RsqliteRsync.Gateway.Exclusion
import RsqliteRsync.Gateway.Paths

namespace RsqliteRsync.Gateway

open Ha Foundation Foundation.UnixPath Foundation.Schedule

namespace DatabaseEngine

variable {engine later : DatabaseEngine} {n m : String}

inductive Turn : DatabaseEngine → DatabaseEngine → Prop
  | lookUp {engine : DatabaseEngine} (dbName : String) : Turn engine (engine.getDbLock dbName).2
  | drop {engine : DatabaseEngine} (dbName : String) : Turn engine (engine.removeDbLock dbName)

def LooksUp (engine later : DatabaseEngine) : Prop :=
  ∃ dbName, later = (engine.getDbLock dbName).2

/-- Whoever looks up the second name after the first one, with no drop in between, gets the same
mutex. -/
def SameLock (engine : DatabaseEngine) (n m : String) : Prop :=
  ∀ later, Reaches LooksUp (engine.getDbLock n).2 later →
    (later.getDbLock m).1 = (engine.getDbLock n).1

/-- A mutex was made for one key only. -/
structure Distinct (engine : DatabaseEngine) : Prop where
  made : ∀ name lock, engine.dbMutexes name = some lock → lock < engine.fresh
  key : ∀ name name' lock, engine.dbMutexes name = some lock →
    engine.dbMutexes name' = some lock → name = name'

theorem Distinct.new : Distinct .new := by
  constructor
  · intro name lock h
    cases h
  · intro name name' lock h
    cases h

theorem Distinct.getDbLock (h : Distinct engine) (dbName : String) :
    Distinct (engine.getDbLock dbName).2 := by
  unfold DatabaseEngine.getDbLock
  generalize trim dbName = key
  split
  · exact h
  · have hcases (name : String) (lock : ℕ)
        (hname : Function.update engine.dbMutexes key (some engine.fresh) name = some lock) :
        name = key ∧ lock = engine.fresh ∨
          lock < engine.fresh ∧ engine.dbMutexes name = some lock := by
      rcases eq_or_ne name key with rfl | hne
      · rw [Function.update_self] at hname
        exact .inl ⟨rfl, (Option.some.inj hname).symm⟩
      · rw [Function.update_of_ne hne] at hname
        exact .inr ⟨h.made _ _ hname, hname⟩
    constructor
    · intro name lock hname
      rcases hcases name lock hname with ⟨-, rfl⟩ | ⟨hlt, -⟩
      · exact Nat.lt_succ_self _
      · exact Nat.lt_succ_of_lt hlt
    · intro name name' lock hname hname'
      rcases hcases name lock hname with ⟨rfl, rfl⟩ | ⟨hlt, hold⟩ <;>
        rcases hcases name' _ hname' with ⟨rfl, hfresh⟩ | ⟨hlt', hold'⟩
      · rfl
      · exact absurd hlt' (Nat.lt_irrefl _)
      · exact absurd (hfresh ▸ hlt) (Nat.lt_irrefl _)
      · exact h.key _ _ _ hold hold'

theorem Distinct.removeDbLock (h : Distinct engine) (dbName : String) :
    Distinct (engine.removeDbLock dbName) := by
  have hold (name : String) (lock : ℕ)
      (hname : (engine.removeDbLock dbName).dbMutexes name = some lock) :
      engine.dbMutexes name = some lock := by
    rcases eq_or_ne name (trim dbName) with rfl | hne
    · simp [DatabaseEngine.removeDbLock] at hname
    · rwa [engine.removeDbLock_of_ne hne] at hname
  constructor
  · intro name lock hname
    simp only [DatabaseEngine.removeDbLock]
    exact h.made name lock (hold name lock hname)
  · intro name name' lock hname hname'
    exact h.key name name' lock (hold name lock hname) (hold name' lock hname')

theorem distinct_of_reaches (h : Reaches Turn .new engine) : Distinct engine := by
  apply h.invariant (I := Distinct) .new
  intro engine later _ hdistinct hturn
  cases hturn with
  | lookUp dbName => exact hdistinct.getDbLock dbName
  | drop dbName => exact hdistinct.removeDbLock dbName

theorem dbMutexes_of_looksUp {name : String} {lock : ℕ} (h : Reaches LooksUp engine later)
    (hname : engine.dbMutexes name = some lock) : later.dbMutexes name = some lock := by
  apply h.invariant (I := fun e ↦ e.dbMutexes name = some lock) hname
  intro engine later _ hentry hlook
  obtain ⟨dbName, rfl⟩ := hlook
  exact (engine.getDbLock_spec dbName).2 name lock hentry

theorem Distinct.sameLock_iff (h : Distinct engine) : SameLock engine n m ↔ trim n = trim m := by
  obtain ⟨hfirst, -⟩ := engine.getDbLock_spec n
  constructor
  · intro hsame
    have hlock := hsame _ (.refl _)
    obtain ⟨hsecond, hkept⟩ := (engine.getDbLock n).2.getDbLock_spec m
    rw [hlock] at hsecond
    exact ((h.getDbLock n).getDbLock m).key _ _ _ (hkept _ _ hfirst) hsecond
  · intro htrim later hlater
    obtain ⟨hsecond, hkept⟩ := later.getDbLock_spec m
    have hentry := hkept _ _ (dbMutexes_of_looksUp hlater hfirst)
    rw [htrim, hsecond] at hentry
    exact Option.some.inj hentry

end DatabaseEngine

namespace Node

variable {ι : Type*} [DecidableEq ι] {args : HaArgs} {request : ι → Request} {n m : String}

def MovesWithoutDrop (args : HaArgs) (request : ι → Request) (g g' : Node ι) : Prop :=
  ∃ label, Step args request label g g' ∧ ∀ i, label ≠ .remove i

theorem MovesWithoutDrop.internal {g g' : Node ι} (h : Step args request .internal g g') :
    MovesWithoutDrop args request g g' := by
  refine ⟨_, h, fun i hi ↦ ?_⟩
  cases hi

theorem MovesWithoutDrop.check {g g' : Node ι} {i : ι} (h : Step args request (.check i) g g') :
    MovesWithoutDrop args request g g' := by
  refine ⟨_, h, fun j hj ↦ ?_⟩
  cases hj

/-- Of the operations under the two names at most one is inside its critical section. -/
def Serialised (args : HaArgs) (request : ι → Request) (n m : String) : Prop :=
  ∀ nodeId start g, start.Starts args nodeId → Reaches (MovesWithoutDrop args request) start g →
    ∀ i j lock lock', (request i).database = n → (request j).database = m →
      g.stage i = .inside lock → g.stage j = .inside lock' → i = j

theorem serialised_of_trim_eq (h : trim n = trim m) : Serialised args request n m := by
  intro nodeId start g hstart hrun i j lock lock' hi hj hinside hinside'
  have hlocked : Locked request g := by
    apply hrun.invariant (I := Locked request) hstart.locked
    intro g g' _ hlocked hmoves
    obtain ⟨label, hstep, hlabel⟩ := hmoves
    exact hlocked.step ⟨label, hstep, fun k hk ↦ absurd hk (hlabel k)⟩
  apply hlocked.exclusive i j lock lock' _ hinside hinside'
  rw [Request.name, Request.name, hi, hj, h]

end Node

namespace DatabaseEngine

/-- Two names that stand for one file have one mutex exactly if they are spelled alike whenever
their components agree. -/
theorem sameFile_sameLock_iff {ι : Type*} [DecidableEq ι] (dataDir : List Char) (n m : String)
    (path path' : List Char) (engine : DatabaseEngine) (args : HaArgs) (request : ι → Request)
    (hn : Resolves dataDir n path) (hm : Resolves dataDir m path')
    (hengine : Reaches Turn .new engine) :
    (components path = components path' →
        SameLock engine n m ∧ Node.Serialised args request n m) ↔
      (components (trim n).toList = components (trim m).toList → trim n = trim m) := by
  obtain ⟨hplain, hpath⟩ := hn.plain
  obtain ⟨hplain', hpath'⟩ := hm.plain
  rw [hpath, hpath', components_dbPath dataDir hplain, components_dbPath dataDir hplain',
    List.append_cancel_left_eq]
  apply imp_congr_right
  intro _
  rw [(distinct_of_reaches hengine).sameLock_iff]
  exact ⟨And.left, fun h ↦ ⟨h, Node.serialised_of_trim_eq h⟩⟩

section Sample

def sampleAlias (i : Fin 2) : Request := ⟨.execute, if i = 0 then "a//b.db" else "a/b.db"⟩

end Sample

theorem sameFile_sameLock_blanks : SameLock .new "a/b.db" " a/b.db\n" ∧
    Node.Serialised sampleArgs sampleAlias "a/b.db" " a/b.db\n" := by
  have hfirst : Resolves "data".toList "a/b.db" "data/a/b.db".toList := ⟨allowAll, dataTree, rfl⟩
  have hsecond : Resolves "data".toList " a/b.db\n" "data/a/b.db".toList :=
    ⟨allowAll, dataTree, rfl⟩
  apply (sameFile_sameLock_iff _ _ _ _ _ .new sampleArgs sampleAlias hfirst hsecond (.refl _)).mpr
  · intro _
    rfl
  · rfl

/-- A separator written twice, which the path does not keep and the key does. -/
theorem sameFile_not_sameLock : ∃ path path', Resolves "data".toList "a//b.db" path ∧
    Resolves "data".toList "a/b.db" path' ∧ components path = components path' ∧
    ¬ SameLock .new "a//b.db" "a/b.db" ∧
    ¬ Node.Serialised sampleArgs sampleAlias "a//b.db" "a/b.db" := by
  refine ⟨"data/a//b.db".toList, "data/a/b.db".toList, ⟨allowAll, dataTree, rfl⟩,
    ⟨allowAll, dataTree, rfl⟩, by decide, ?_, ?_⟩
  · rw [Distinct.new.sameLock_iff]
    decide
  · intro h
    have hrun := sampleGateway_promoted (R := Node.MovesWithoutDrop sampleArgs sampleAlias)
      fun _ _ ↦ .internal
    have hfirst := ((hrun.tail (.check (.check (i := 0) Kind.noConfusion rfl))).tail
      (.internal (.lookUp (i := 0) rfl))).tail (.internal (.acquire (i := 0) rfl rfl))
    have hsecond := ((hfirst.tail (.check (.check (i := 1) Kind.noConfusion rfl))).tail
      (.internal (.lookUp (i := 1) rfl))).tail (.internal (.acquire (i := 1) rfl rfl))
    have hexclusive := h "a" _ _ (sampleGateway_starts _) hsecond 0 1 0 1
    have hinside := hexclusive rfl rfl rfl
    exact absurd (hinside rfl) (by decide)

end DatabaseEngine

end RsqliteRsync.Gateway
