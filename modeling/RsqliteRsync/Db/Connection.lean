import RsqliteRsync.Foundation.PagedFile
import RsqliteRsync.Protocol.Messages

namespace RsqliteRsync.Db

open Protocol Foundation.PagedFile Foundation.Process

/-- A database as `PRAGMA page_size`, `PRAGMA page_count` and `sqlite3_serialize` describe it:
whole pages, as many as SQLite counts. -/
structure Image where
  bytes : List UInt8
  pageSize : ℕ
  pageCount : ℕ
  pageSize_pos : 0 < pageSize
  pageSize_lt : pageSize < u32Bound
  pageCount_lt : pageCount < u32Bound
  length_eq : bytes.length = pageCount * pageSize

def Image.page (img : Image) (pageNo : ℕ) : List UInt8 :=
  pageAt img.pageSize img.bytes (pageNo - 1)

abbrev Snapshot := Image

def SQLITE_MAX_ALLOCATION_SIZE : ℕ := 2147483391

/-- What `sqlite3_serialize` can return: it allocates the whole database and gives NULL otherwise,
so that there is no larger snapshot. -/
def Image.Serializable (img : Image) : Prop := img.bytes.length ≤ SQLITE_MAX_ALLOCATION_SIZE

namespace Image

variable (img : Image) {p : ℕ}

theorem pageCount_le_length : img.pageCount ≤ img.bytes.length := by
  rw [img.length_eq]
  exact Nat.le_mul_of_pos_right _ img.pageSize_pos

theorem bytes_of_empty (h : img.pageCount = 0) : img.bytes = [] :=
  List.length_eq_zero_iff.mp (by rw [img.length_eq, h, Nat.zero_mul])

theorem end_le_length (hp : p < img.pageCount) :
    (p + 1) * img.pageSize ≤ img.bytes.length := by
  rw [img.length_eq]
  exact Nat.mul_le_mul_right _ hp

theorem length_page (hp : 0 < p) (hn : p ≤ img.pageCount) :
    (img.page p).length = img.pageSize :=
  length_pageAt (img.end_le_length (by omega))

theorem slice_page (hp : 0 < p) (hn : p ≤ img.pageCount) :
    slice img.bytes ((p - 1) * img.pageSize) ((p - 1) * img.pageSize + img.pageSize) =
      pure (img.page p) := by
  have h := img.end_le_length (p := p - 1) (by omega)
  rw [Nat.succ_mul] at h
  rw [slice_of_le (by omega) h, Nat.add_sub_cancel_left]
  rfl

theorem slice_panics (hn : img.pageCount < p) :
    slice img.bytes ((p - 1) * img.pageSize) ((p - 1) * img.pageSize + img.pageSize) = panic := by
  apply slice_of_length_lt
  have h := Nat.mul_le_mul_right img.pageSize (show img.pageCount + 1 ≤ p - 1 + 1 by omega)
  rw [Nat.succ_mul, Nat.succ_mul] at h
  have hpos := img.pageSize_pos
  rw [img.length_eq]
  omega

end Image

inductive ConnOp
  | pageCount
  | serialize
  | writeAt (offset : ℕ) (data : List UInt8)

def ConnOp.Reply : ConnOp → Type
  | .pageCount => Except SyncError ℕ
  | .serialize => Except SyncError (List UInt8)
  | .writeAt _ _ => Except SyncError Unit

structure Connection where
  pageSize : ℕ
  writable : Bool

namespace Connection

variable (conn : Connection)

def pageCount : Handler ConnOp.Reply ℕ := .call .pageCount orFail

def serialize : Handler ConnOp.Reply (List UInt8) := .call .serialize orFail

def writePage (pageNo : ℕ) (data : List UInt8) : Handler ConnOp.Reply Unit :=
  if pageNo = 0 then
    throwErr (.protocol "page numbers are 1-indexed; page 0 is invalid")
  else if data.length ≠ conn.pageSize then
    throwErr (.protocol (s!"page {pageNo} has {data.length} bytes, expected " ++
      toString conn.pageSize))
  else if conn.writable then
    .call (.writeAt ((pageNo - 1) * conn.pageSize) data) orFail
  else
    throwErr (.protocol "connection is read-only; cannot write pages")

theorem writePage_eq {pageNo : ℕ} {data : List UInt8} (hp : 0 < pageNo)
    (hd : data.length = conn.pageSize) (hw : conn.writable = true) :
    conn.writePage pageNo data =
      .call (.writeAt ((pageNo - 1) * conn.pageSize) data) orFail := by
  rw [writePage, if_neg (by omega), if_neg (not_not.mpr hd), if_pos hw]

end Connection

structure Disk where
  file : List UInt8
  writes : List (ℕ × List UInt8)

namespace Disk

variable (pageSize : ℕ)

/-- What the connection's calls do to the file when none of them fails. -/
def handle : (e : ConnOp) → Disk → e.Reply × Disk
  | .pageCount, d => (.ok (d.file.length / pageSize), d)
  | .serialize, d => (.ok d.file, d)
  | .writeAt offset data, d =>
    (.ok (), ⟨overwrite 0 d.file offset data, d.writes ++ [(offset, data)]⟩)

end Disk

def Image.disk (img : Image) : Disk := ⟨img.bytes, []⟩

end RsqliteRsync.Db
