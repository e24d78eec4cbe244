import RsqliteRsync.Db.Connection

namespace RsqliteRsync.Db

open Protocol Foundation.PagedFile

structure Frame where
  pageNo : ℕ
  data : List UInt8

/-- A database in WAL mode: the main file, the committed frames that no checkpoint has copied
into it, oldest first, and the size in pages that the last commit frame records. -/
structure WalState where
  main : List UInt8
  frames : List Frame
  dbSize : ℕ

namespace WalState

def latest (w : WalState) (pageNo : ℕ) : Option (List UInt8) :=
  (w.frames.reverse.find? (·.pageNo = pageNo)).map (·.data)

def read (size : ℕ) (w : WalState) (pageNo : ℕ) : List UInt8 :=
  (w.latest pageNo).getD (pageAt size w.main (pageNo - 1))

def pageCount (size : ℕ) (w : WalState) : ℕ :=
  if w.frames.isEmpty then w.main.length / size else w.dbSize

def content (size : ℕ) (w : WalState) : List UInt8 :=
  (List.range (w.pageCount size)).flatMap fun i ↦ w.read size (i + 1)

/-- Queries go through SQLite and see the frames; a page is written to the main file. -/
def handle (size : ℕ) : (e : ConnOp) → WalState → e.Reply × WalState
  | .pageCount, w => (.ok (w.pageCount size), w)
  | .serialize, w => (.ok (w.content size), w)
  | .writeAt offset data, w => (.ok (), { w with main := overwrite 0 w.main offset data })

end WalState

/-- A WAL database that SQLite can have written: whole pages in the main file and in the
frames, and every page of the database in one of them. -/
structure WalReplica where
  state : WalState
  pageSize : ℕ
  pageSize_pos : 0 < pageSize
  pageSize_lt : pageSize < u32Bound
  pageCount_lt : state.pageCount pageSize < u32Bound
  main_whole : pageSize ∣ state.main.length
  frame_whole : ∀ frame ∈ state.frames, frame.data.length = pageSize
  covered : ∀ p, 0 < p → p ≤ state.pageCount pageSize →
    (state.latest p).isSome ∨ p * pageSize ≤ state.main.length

namespace WalReplica

variable (w : WalReplica) {p : ℕ}

theorem length_latest {data : List UInt8} (h : w.state.latest p = some data) :
    data.length = w.pageSize := by
  obtain ⟨frame, hframe, rfl⟩ := Option.map_eq_some_iff.mp h
  exact w.frame_whole frame (List.mem_reverse.mp (List.mem_of_find?_eq_some hframe))

theorem length_read (hp : 0 < p) (hn : p ≤ w.state.pageCount w.pageSize) :
    (w.state.read w.pageSize p).length = w.pageSize := by
  unfold WalState.read
  cases h : w.state.latest p with
  | some data => exact w.length_latest h
  | none =>
    apply length_pageAt
    have hmain := (w.covered p hp hn).resolve_left (by simp [h])
    rwa [Nat.sub_add_cancel hp]

def view : Image where
  bytes := w.state.content w.pageSize
  pageSize := w.pageSize
  pageCount := w.state.pageCount w.pageSize
  pageSize_pos := w.pageSize_pos
  pageSize_lt := w.pageSize_lt
  pageCount_lt := w.pageCount_lt
  length_eq := length_flatMap_pages fun i hi ↦ w.length_read (by omega) hi

theorem page_view (hp : 0 < p) (hn : p ≤ w.view.pageCount) :
    w.view.page p = w.state.read w.pageSize p := by
  have h : pageAt w.pageSize (w.state.content w.pageSize) (p - 1) =
      w.state.read w.pageSize (p - 1 + 1) :=
    pageAt_flatMap_pages (fun i hi ↦ w.length_read (by omega) hi)
      (by change p ≤ w.state.pageCount w.pageSize at hn; omega)
  rwa [Nat.sub_add_cancel hp] at h

end WalReplica

end RsqliteRsync.Db
