import RsqliteRsync.Gateway.Status
import RsqliteRsync.Ha.Member

namespace RsqliteRsync.Gateway

open Ha Foundation.Schedule

inductive Kind
  | execute
  | batch
  | dropDatabase
  | push
  deriving DecidableEq, Repr

structure Request where
  kind : Kind
  database : String

def Request.name (r : Request) : String := trim r.database

/-- Where an operation is: not yet checked, past the fence, waiting for the mutex that it looked
up, inside its critical section, out of it with the mutex still held, or finished. -/
inductive Stage
  | received
  | timed (nowSecs : ℕ)
  | refused (status : Status)
  | admitted
  | waiting (lock : ℕ)
  | inside (lock : ℕ)
  | removed (lock : ℕ)
  | answered
  deriving DecidableEq

/-- The mutexes by database name. `fresh` numbers the next mutex to be made. -/
structure DatabaseEngine where
  dbMutexes : String → Option ℕ
  fresh : ℕ

namespace DatabaseEngine

def new : DatabaseEngine := ⟨fun _ ↦ none, 0⟩

def getDbLock (engine : DatabaseEngine) (dbName : String) : ℕ × DatabaseEngine :=
  match engine.dbMutexes (trim dbName) with
  | some lock => (lock, engine)
  | none => (engine.fresh,
      ⟨Function.update engine.dbMutexes (trim dbName) (some engine.fresh), engine.fresh + 1⟩)

def removeDbLock (engine : DatabaseEngine) (dbName : String) : DatabaseEngine :=
  { engine with dbMutexes := Function.update engine.dbMutexes (trim dbName) none }

end DatabaseEngine

def SqlGatewayServer.enter (state : HaSharedState) (nowSecs : ℕ) : Stage :=
  match checkWriteAccess state nowSecs with
  | .ok _ => .admitted
  | .error status => .refused status

def ReplicationServer.enter (state : HaSharedState) (nowSecs : ℕ) : Stage :=
  if state.isWriter nowSecs then .refused activeWriterStatus else .admitted

/-- One node: its clock, its HA loop, its mutexes and who holds them, its operations, and the
database modifications made so far. -/
structure Node (ι : Type*) where
  clock : ℕ
  member : Member
  engine : DatabaseEngine
  owner : ℕ → Option ι
  stage : ι → Stage
  log : List ι

namespace Node

variable {ι : Type*}

def shared (g : Node ι) : HaSharedState := g.member.node.world.shared

def IsWriter (g : Node ι) : Prop := g.shared.isWriter g.clock = true

structure Starts (args : HaArgs) (nodeId : String) (g : Node ι) : Prop where
  member : g.member.Starts args nodeId
  engine : g.engine = .new
  owner : ∀ lock, g.owner lock = none
  stage : ∀ i, g.stage i = .received
  log : g.log = []

inductive Label (ι : Type*)
  | internal
  | check (i : ι)
  | modify (i : ι)
  | remove (i : ι)

variable [DecidableEq ι]

def advance (g : Node ι) (i : ι) (stage : Stage) : Node ι :=
  { g with stage := Function.update g.stage i stage }

@[simp] theorem advance_stage_self (g : Node ι) (i : ι) (stage : Stage) :
    (g.advance i stage).stage i = stage := Function.update_self ..

@[simp] theorem advance_stage_of_ne (g : Node ι) {i j : ι} (hne : j ≠ i) (stage : Stage) :
    (g.advance i stage).stage j = g.stage j := Function.update_of_ne hne ..

inductive Step (args : HaArgs) (request : ι → Request) : Label ι → Node ι → Node ι → Prop
  | clock {g : Node ι} {t : ℕ} : g.clock ≤ t →
      Step args request .internal g { g with clock := t }
  | ha {g : Node ι} {register : Option LeaseRecord} {m : Member} :
      Member.Step args g.clock register g.member m →
      Step args request .internal g { g with member := m }
  | check {g : Node ι} {i : ι} : (request i).kind ≠ .push → g.stage i = .received →
      Step args request (.check i) g (g.advance i (SqlGatewayServer.enter g.shared g.clock))
  -- a push session reads the clock before it takes the state's lock
  | readClock {g : Node ι} {i : ι} : (request i).kind = .push → g.stage i = .received →
      Step args request .internal g (g.advance i (.timed g.clock))
  | checkPush {g : Node ι} {i : ι} {nowSecs : ℕ} : g.stage i = .timed nowSecs →
      Step args request (.check i) g (g.advance i (ReplicationServer.enter g.shared nowSecs))
  -- a request without a statement
  | reject {g : Node ι} {i : ι} : (request i).kind = .execute → g.stage i = .admitted →
      Step args request .internal g (g.advance i .answered)
  | lookUp {g : Node ι} {i : ι} : g.stage i = .admitted →
      Step args request .internal g
        { g.advance i (.waiting (g.engine.getDbLock (request i).database).1) with
          engine := (g.engine.getDbLock (request i).database).2 }
  | acquire {g : Node ι} {i : ι} {lock : ℕ} : g.stage i = .waiting lock →
      g.owner lock = none →
      Step args request .internal g
        { g.advance i (.inside lock) with owner := Function.update g.owner lock (some i) }
  | modify {g : Node ι} {i : ι} {lock : ℕ} : g.stage i = .inside lock →
      Step args request (.modify i) g { g with log := g.log ++ [i] }
  | remove {g : Node ι} {i : ι} {lock : ℕ} : (request i).kind = .dropDatabase →
      g.stage i = .inside lock →
      Step args request (.remove i) g
        { g.advance i (.removed lock) with engine := g.engine.removeDbLock (request i).database }
  -- also the way out of an operation that fails
  | release {g : Node ι} {i : ι} {lock : ℕ} :
      (g.stage i = .inside lock ∨ g.stage i = .removed lock) →
      Step args request .internal g
        { g.advance i .answered with owner := Function.update g.owner lock none }

def Moves (args : HaArgs) (request : ι → Request) (g g' : Node ι) : Prop :=
  ∃ label, Step args request label g g'

end Node

end RsqliteRsync.Gateway
