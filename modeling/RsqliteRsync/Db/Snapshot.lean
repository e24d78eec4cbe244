import RsqliteRsync.Db.Connection
import RsqliteRsync.Foundation.Interference

namespace RsqliteRsync.Db

open Protocol Foundation.Process Foundation.Schedule Foundation.Interference

inductive Pragma
  | pageSize
  | pageCount

def Pragma.name : Pragma → String
  | .pageSize => "page_size"
  | .pageCount => "page_count"

def Pragma.value (img : Image) : Pragma → ℕ
  | .pageSize => img.pageSize
  | .pageCount => img.pageCount

/-- How a step of a statement ends: with a row, or with another result code. -/
inductive Stepped
  | row (value : ℕ)
  | code (rc : ℤ)

def SQLITE_BUSY : ℤ := 5
def SQLITE_LOCKED : ℤ := 6
def SQLITE_NOMEM : ℤ := 7
def SQLITE_DONE : ℤ := 101

inductive SqliteCall
  | openV2
  | busyTimeout
  | prepare (pragma : Pragma)
  | step (pragma : Pragma)
  | sleep (millis : ℕ)
  | openFile
  | beginDeferred
  | serialize

def SqliteCall.Reply : SqliteCall → Type
  | .openV2 | .busyTimeout | .prepare _ | .openFile | .beginDeferred => Except SyncError Unit
  | .step _ => Stepped
  | .sleep _ => Unit
  | .serialize => Option (List UInt8)

abbrev SqliteHandler := Handler SqliteCall.Reply

def MAX_RETRIES : ℕ := 12

/-- One attempt, and what to do without a row. -/
def queryOnce (pragma : Pragma) (otherwise : ℤ → SqliteHandler ℕ) : SqliteHandler ℕ := do
  .call (.prepare pragma) orFail
  .call (.step pragma) fun
    | .row value => pure value
    | .code rc => otherwise rc

def queryFailed (pragma : Pragma) (rc : ℤ) : SqliteHandler ℕ :=
  throwErr (.sqlite rc (if rc = SQLITE_DONE then s!"PRAGMA {pragma.name} returned no rows"
    else s!"PRAGMA {pragma.name} failed"))

/-- With so many retries left. -/
def queryPragmaU32 (pragma : Pragma) : ℕ → SqliteHandler ℕ
  | 0 => queryOnce pragma (queryFailed pragma)
  | left + 1 => queryOnce pragma fun rc ↦
      if rc = SQLITE_BUSY ∨ rc = SQLITE_LOCKED ∨ rc = SQLITE_DONE then
        .call (.sleep (min (MAX_RETRIES - left) 10)) fun _ ↦ queryPragmaU32 pragma left
      else queryFailed pragma rc

def Connection.openReadonly : SqliteHandler Connection := do
  .call .openV2 orFail
  .call .busyTimeout orFail
  let pageSize ← queryPragmaU32 .pageSize MAX_RETRIES
  .call .openFile orFail
  pure ⟨pageSize, false⟩

/-- What a snapshot has in hand. -/
structure Capture where
  bytes : List UInt8
  pageSize : ℕ
  pageCount : ℕ

def Image.capture (img : Image) : Capture := ⟨img.bytes, img.pageSize, img.pageCount⟩

def serializeMain : SqliteHandler (List UInt8) :=
  .call .serialize fun
    | some bytes => pure bytes
    | none => throwErr (.sqlite SQLITE_NOMEM "sqlite3_serialize returned NULL")

def captureBytes (pageCount : ℕ) : SqliteHandler (List UInt8) :=
  if pageCount = 0 then pure [] else serializeMain

def Capture.begin (conn : Connection) : SqliteHandler Capture := do
  .call .beginDeferred orFail
  let pageCount ← queryPragmaU32 .pageCount MAX_RETRIES
  let bytes ← captureBytes pageCount
  pure ⟨bytes, conn.pageSize, pageCount⟩

def openSnapshot : SqliteHandler Capture := do
  let conn ← Connection.openReadonly
  Capture.begin conn

/-- What `sqlite3_serialize` may return of a database: it fills a page that it cannot read with
zeros and reports no error. -/
structure Image.SerializesTo (img copy : Image) : Prop where
  pageSize : copy.pageSize = img.pageSize
  pageCount : copy.pageCount = img.pageCount
  pages : ∀ p, 0 < p → p ≤ img.pageCount →
    copy.page p = img.page p ∨ copy.page p = List.replicate img.pageSize 0

theorem Image.SerializesTo.refl (img : Image) : img.SerializesTo img :=
  ⟨rfl, rfl, fun _ _ _ ↦ .inl rfl⟩

/-- A database that others write to, as one connection sees it: what was committed before and what
is committed now, and what its own read transaction reads, once it reads. -/
structure LiveDb where
  earlier : List Image
  committed : Image
  inTransaction : Bool
  reading : Option Image

namespace LiveDb

/-- Every state that the database has been in. -/
def states (db : LiveDb) : List Image := db.earlier ++ [db.committed]

def view (db : LiveDb) : Image := db.reading.getD db.committed

/-- The first read of a transaction fixes what all of it reads. -/
def pin (db : LiveDb) : LiveDb :=
  if db.inTransaction then { db with reading := some db.view } else db

def commit (db : LiveDb) (image : Image) : LiveDb :=
  { db with earlier := db.states, committed := image }

/-- Another connection commits. It does not change the page size. -/
def Commits (db db' : LiveDb) : Prop :=
  ∃ image, image.pageSize = db.committed.pageSize ∧ db' = db.commit image

inductive Answers : LiveDb → (e : SqliteCall) → e.Reply → LiveDb → Prop
  | openV2 (db : LiveDb) (a : Except SyncError Unit) : Answers db .openV2 a db
  | busyTimeout (db : LiveDb) (a : Except SyncError Unit) : Answers db .busyTimeout a db
  | prepare (db : LiveDb) (pragma : Pragma) (a : Except SyncError Unit) :
      Answers db (.prepare pragma) a db
  | row (db : LiveDb) (pragma : Pragma) :
      Answers db (.step pragma) (.row (pragma.value db.view)) db.pin
  | noRow (db : LiveDb) (pragma : Pragma) (rc : ℤ) : Answers db (.step pragma) (.code rc) db
  | noRowRead (db : LiveDb) (pragma : Pragma) (rc : ℤ) :
      Answers db (.step pragma) (.code rc) db.pin
  | sleep (db : LiveDb) (millis : ℕ) : Answers db (.sleep millis) () db
  | openFile (db : LiveDb) (a : Except SyncError Unit) : Answers db .openFile a db
  | begun (db : LiveDb) : Answers db .beginDeferred (.ok ()) { db with inTransaction := true }
  | notBegun (db : LiveDb) (e : SyncError) : Answers db .beginDeferred (.error e) db
  | serialized {db : LiveDb} {copy : Image} (hcopy : db.view.SerializesTo copy) :
      Answers db .serialize (some copy.bytes) db.pin
  | noMemory (db : LiveDb) : Answers db .serialize none db

abbrev LiveStep {R : Type} : SqliteHandler R × LiveDb → SqliteHandler R × LiveDb → Prop :=
  Step Answers Commits

abbrev Ensures {R : Type} (Q : R → LiveDb → Prop) (p : SqliteHandler R) (db : LiveDb) : Prop :=
  Secures Answers Commits Q p db

/-- The states that there were stay, also when others commit. -/
theorem Commits.states {db db' : LiveDb} (h : Commits db db') {img : Image}
    (himg : img ∈ db.states) : img ∈ db'.states := by
  obtain ⟨image, -, rfl⟩ := h
  exact List.mem_append_left _ himg

/-- Where a connection stands with respect to the states of a database of one page size. -/
structure Sound (size : ℕ) (db : LiveDb) : Prop where
  sized : ∀ img ∈ db.states, img.pageSize = size
  read : ∀ img, db.reading = some img → img ∈ db.states

variable {size : ℕ} {db db' : LiveDb}

theorem Sound.view (h : Sound size db) : db.view ∈ db.states := by
  unfold LiveDb.view
  cases hreading : db.reading with
  | none => exact List.mem_append_right _ (List.mem_singleton_self _)
  | some img => exact h.read img hreading

theorem pin_states (db : LiveDb) : db.pin.states = db.states := by
  unfold pin
  split <;> rfl

theorem Sound.pin (h : Sound size db) : Sound size db.pin := by
  refine ⟨db.pin_states ▸ h.sized, fun img himg ↦ ?_⟩
  rw [pin_states]
  unfold LiveDb.pin at himg
  split at himg
  · exact Option.some.inj himg ▸ h.view
  · exact h.read img himg

theorem Sound.commits (h : Sound size db) (hcommits : Commits db db') : Sound size db' := by
  obtain ⟨image, hsize, rfl⟩ := id hcommits
  refine ⟨fun img himg ↦ ?_, fun img himg ↦ hcommits.states (h.read img himg)⟩
  rcases List.mem_append.mp himg with himg | himg
  · exact h.sized img himg
  · rw [List.mem_singleton.mp himg]
    exact hsize.trans (h.sized _ (List.mem_append_right _ (List.mem_singleton_self _)))

theorem stable_sound (size : ℕ) : Stable Commits (Sound size) :=
  fun _ _ h hcommits ↦ h.commits hcommits

/-- A connection that is in a transaction. -/
structure Begun (size : ℕ) (db : LiveDb) : Prop extends Sound size db where
  begun : db.inTransaction = true

theorem stable_begun (size : ℕ) : Stable Commits (Begun size) := by
  intro db db' h hcommits
  refine ⟨h.commits hcommits, ?_⟩
  obtain ⟨image, -, rfl⟩ := hcommits
  exact h.begun

theorem Begun.pin (h : Begun size db) : Begun size db.pin := by
  refine ⟨h.toSound.pin, ?_⟩
  rw [LiveDb.pin, if_pos h.begun]
  exact h.begun

/-- A connection whose transaction reads this state. -/
structure Reads (size : ℕ) (img : Image) (db : LiveDb) : Prop extends Begun size db where
  reads : db.reading = some img

theorem stable_reads (size : ℕ) (img : Image) : Stable Commits (Reads size img) := by
  intro db db' h hcommits
  refine ⟨stable_begun size db db' h.toBegun hcommits, ?_⟩
  obtain ⟨image, -, rfl⟩ := hcommits
  exact h.reads

theorem Begun.reads (h : Begun size db) : Reads size db.view db.pin := by
  refine ⟨h.pin, ?_⟩
  rw [LiveDb.pin, if_pos h.begun]

theorem Reads.view_eq {img : Image} (h : Reads size img db) : db.view = img := by
  rw [LiveDb.view, h.reads]
  rfl

end LiveDb

open LiveDb

section Spec

variable {R : Type} {size : ℕ} {db : LiveDb} {P : LiveDb → Prop}

theorem ensures_orFail {Q : R → LiveDb → Prop} {f : Unit → SqliteHandler R}
    (a : Except SyncError Unit) (h : Ensures Q (f ()) db) : Ensures Q (orFail a >>= f) db := by
  cases a with
  | error e => trivial
  | ok u => exact h

variable {Q : ℕ → LiveDb → Prop} {pragma : Pragma} (hP : Stable Commits P)
  (hpin : ∀ db, P db → P db.pin)
  (hrow : ∀ db, P db → Ensures Q (.ret (pragma.value db.view)) db.pin)

include hP hpin hrow

theorem ensures_queryOnce {otherwise : ℤ → SqliteHandler ℕ} (hdb : P db)
    (h : ∀ rc db, P db → Ensures Q (otherwise rc) db) :
    Ensures Q (queryOnce pragma otherwise) db := by
  refine secures_call hP hdb fun db a db' hdb ha ↦ ensures_orFail a ?_
  cases ha
  refine secures_call hP hdb fun db a db' hdb ha ↦ ?_
  cases ha with
  | row => exact hrow db hdb
  | noRow _ rc => exact h rc db hdb
  | noRowRead _ rc => exact h rc db.pin (hpin db hdb)

/-- The value is that of the state which a transaction reads from then on. -/
theorem ensures_queryPragmaU32 (hdb : P db) (left : ℕ) :
    Ensures Q (queryPragmaU32 pragma left) db := by
  induction left generalizing db with
  | zero => exact ensures_queryOnce hP hpin hrow hdb fun rc db hdb ↦ trivial
  | succ left ih =>
    refine ensures_queryOnce hP hpin hrow hdb fun rc db hdb ↦ ?_
    split_ifs
    · refine secures_call hP hdb fun db a db' hdb ha ↦ ?_
      cases ha
      exact ih hdb
    · trivial

end Spec

section Snapshot

variable {size : ℕ} {db : LiveDb}

theorem ensures_openReadonly (h : Sound size db) :
    Ensures (fun conn db ↦ conn.pageSize = size ∧ Sound size db) Connection.openReadonly db := by
  have hP := stable_sound size
  refine secures_call hP h fun db a db' h ha ↦ ensures_orFail a ?_
  cases ha
  refine secures_call hP h fun db a db' h ha ↦ ensures_orFail a ?_
  cases ha
  refine Secures.bind (ensures_queryPragmaU32 hP (fun _ h ↦ h.pin) (fun db h ↦ ?_) h MAX_RETRIES)
  refine secures_ret hP h.pin fun db' h' ↦ ?_
  refine secures_call hP h' fun db'' a _ h'' ha ↦ ensures_orFail a ?_
  cases ha
  exact secures_ret hP h'' fun _ hend ↦ ⟨h.sized _ h.view, hend⟩

theorem ensures_serializeMain {img : Image} (h : Reads size img db) :
    Ensures (fun bytes db ↦ (∃ copy, img.SerializesTo copy ∧ bytes = copy.bytes) ∧
      Reads size img db) serializeMain db := by
  have hP := stable_reads size img
  refine secures_call hP h fun db a db' h ha ↦ ?_
  cases ha with
  | noMemory => trivial
  | serialized hcopy =>
    have hreads := h.toBegun.reads
    rw [h.view_eq] at hreads hcopy
    exact secures_ret hP hreads fun _ hend ↦ ⟨⟨_, hcopy, rfl⟩, hend⟩

theorem ensures_captureBytes {img : Image} (h : Reads size img db) :
    Ensures (fun bytes db ↦ (∃ copy, img.SerializesTo copy ∧ bytes = copy.bytes) ∧
      Reads size img db) (captureBytes img.pageCount) db := by
  unfold captureBytes
  split_ifs with hempty
  · refine secures_ret (stable_reads size img) h fun _ hend ↦ ⟨⟨img, .refl img, ?_⟩, hend⟩
    exact (img.bytes_of_empty hempty).symm
  · exact ensures_serializeMain h

theorem ensures_begin {conn : Connection} (h : Sound size db) (hsize : conn.pageSize = size) :
    Ensures (fun c db ↦ ∃ img ∈ db.states, ∃ copy, img.SerializesTo copy ∧ c = copy.capture)
      (Capture.begin conn) db := by
  refine secures_call (stable_sound size) h fun db a db' h ha ↦ ?_
  cases ha with
  | notBegun => trivial
  | begun =>
    have hbegun : Begun size { db with inTransaction := true } := ⟨⟨h.sized, h.read⟩, rfl⟩
    refine ensures_orFail (.ok ()) (Secures.bind (ensures_queryPragmaU32 (stable_begun size)
      (fun _ h ↦ h.pin) (fun db h ↦ ?_) hbegun MAX_RETRIES))
    have hreads := h.reads
    generalize db.view = img at hreads ⊢
    refine secures_ret (stable_reads size img) hreads fun db hreads ↦ Secures.bind ?_
    refine (ensures_captureBytes hreads).imp fun bytes db ⟨⟨copy, hcopy, heq⟩, hreads⟩ ↦ ?_
    refine secures_ret (stable_reads size img) hreads fun db hend ↦ ⟨img, ?_, copy, hcopy, ?_⟩
    · exact hend.read img hend.reads
    · rw [Image.capture, heq, hsize, hcopy.pageSize, hcopy.pageCount,
        hend.sized img (hend.read img hend.reads)]
      rfl

/-- Whatever others commit in the meantime, a snapshot is one of the states that the database has
been in since the call, as far as its pages can be read. -/
theorem openSnapshot_of_run {db' : LiveDb} {c : Capture} (h : Sound size db)
    (hrun : Reaches LiveStep (openSnapshot, db) (.ret c, db')) :
    ∃ img ∈ db'.states, ∃ copy, img.SerializesTo copy ∧ c = copy.capture := by
  refine Secures.sound (Q := fun c db ↦ ∃ img ∈ db.states, ∃ copy,
    img.SerializesTo copy ∧ c = copy.capture) ?_ hrun
  exact Secures.bind ((ensures_openReadonly h).imp fun _ _ ⟨hsize, h⟩ ↦ ensures_begin h hsize)

end Snapshot

end RsqliteRsync.Db
