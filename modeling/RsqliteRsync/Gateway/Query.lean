import RsqliteRsync.Sql.Statement
import Mathlib.Data.List.Infix
import Mathlib.Tactic

namespace RsqliteRsync.Gateway

open Protocol Sql Sql.Proto

inductive ColumnType
  | unspecified
  | integer
  | float
  | text
  | blob
  | null
  deriving DecidableEq

structure ColumnHeader where
  name : String
  columnType : ColumnType
  declaredType : String
  deriving DecidableEq

structure Row where
  values : List Value
  deriving DecidableEq

structure QueryResponse where
  columns : List ColumnHeader
  rows : List Row
  totalRows : ℕ
  generation : ℕ
  isReplicaRead : Bool

structure QueryChunk where
  columns : List ColumnHeader
  rows : List Row
  isLast : Bool
  totalRows : ℕ

def mapDecltypeToProto (decltype : String) : ColumnType :=
  let upper := decltype.toList.map Char.toUpper
  if "INT".toList <:+: upper then .integer
  else if "CHAR".toList <:+: upper ∨ "TEXT".toList <:+: upper ∨ "CLOB".toList <:+: upper then .text
  else if "BLOB".toList <:+: upper then .blob
  else if "REAL".toList <:+: upper ∨ "FLOA".toList <:+: upper ∨ "DOUB".toList <:+: upper then .float
  else .unspecified

namespace DatabaseEngine

variable {σ : Type} (lib : Sqlite σ)

def columnHeaders (stmt : PreparedStatement σ) : List ColumnHeader :=
  stmt.columns.map fun (name, decltype) ↦
    ⟨name, mapDecltypeToProto (decltype.getD ""), decltype.getD ""⟩

def readRow (colCount : ℕ) (row : List SqlValue) : Row :=
  ⟨(List.range colCount).map fun idx ↦ sqlValueToProto (row.getD idx .null)⟩

/-- The statement of a read request, ready to be stepped: its headers, the rows to come and how
these end. -/
def startQuery (s : σ) (stmtProto : Statement) :
    Except SyncError (List ColumnHeader × List (List SqlValue) × Except SyncError Unit) := do
  let conn ← Connection.openConnection lib true s
  let prepared ← conn.prepare lib stmtProto.sql
  let bindings ← bindParameters prepared stmtProto.parameters
  let (rows, ending) := (conn.perform lib (prepared.action bindings)).1
  return (columnHeaders prepared, rows, ending)

section Loops

variable (columns : List ColumnHeader) (maxRows chunkSize : ℕ) (ending : Except SyncError Unit)

def queryLoop : List (List SqlValue) → List Row → ℕ → Except SyncError (List Row × ℕ)
  | [], rows, totalRows => ending.map fun _ ↦ (rows, totalRows)
  | row :: more, rows, totalRows =>
    let totalRows := totalRows + 1
    let rows := rows ++ [readRow columns.length row]
    if 0 < maxRows ∧ maxRows ≤ totalRows then .ok (rows, totalRows)
    else queryLoop more rows totalRows

structure Stream where
  chunks : List QueryChunk
  currentChunkRows : List Row
  totalRows : ℕ
  isFirstChunk : Bool

def Stream.push (st : Stream) (row : Row) : Stream :=
  let totalRows := st.totalRows + 1
  let currentChunkRows := st.currentChunkRows ++ [row]
  if chunkSize ≤ currentChunkRows.length then
    let chunkCols := if st.isFirstChunk then columns else []
    ⟨st.chunks ++ [⟨chunkCols, currentChunkRows, false, totalRows⟩], [], totalRows, false⟩
  else ⟨st.chunks, currentChunkRows, totalRows, st.isFirstChunk⟩

def streamLoop : List (List SqlValue) → Stream → Except SyncError Stream
  | [], st => ending.map fun _ ↦ st
  | row :: more, st =>
    let st := st.push columns chunkSize (readRow columns.length row)
    if 0 < maxRows ∧ maxRows ≤ st.totalRows then .ok st else streamLoop more st

def Stream.finish (st : Stream) : List QueryChunk :=
  let chunkCols := if st.isFirstChunk then columns else []
  st.chunks ++ [⟨chunkCols, st.currentChunkRows, true, st.totalRows⟩]

end Loops

def query (s : σ) (stmtProto : Statement) (maxRows generation : ℕ) (isReplicaRead : Bool) :
    Except SyncError QueryResponse := do
  let (columns, more, ending) ← startQuery lib s stmtProto
  let (rows, totalRows) ← queryLoop columns maxRows ending more [] 0
  return ⟨columns, rows, totalRows, generation, isReplicaRead⟩

def streamQueryChunks (s : σ) (stmtProto : Statement) (maxRows chunkSize : ℕ) :
    Except SyncError (List QueryChunk) := do
  let (columns, more, ending) ← startQuery lib s stmtProto
  let st ← streamLoop columns maxRows chunkSize ending more ⟨[], [], 0, true⟩
  return st.finish columns

section Refinement

variable {columns : List ColumnHeader} {chunkSize maxRows : ℕ} {ending : Except SyncError Unit}
  {st : Stream} {rows : List Row}

/-- What a chunk says of itself after the chunks before it. -/
def Labelled (columns : List ColumnHeader) (before : List QueryChunk) (chunk : QueryChunk) : Prop :=
  chunk.columns = (if before = [] then columns else []) ∧
    chunk.totalRows = ((before ++ [chunk]).flatMap (·.rows)).length

def Full (chunkSize : ℕ) (chunk : QueryChunk) : Prop :=
  chunk.isLast = false ∧ chunk.rows.length = chunkSize

/-- The chunks deliver the rows of the response. -/
structure Refines (chunkSize : ℕ) (resp : QueryResponse) (chunks : List QueryChunk) : Prop where
  rows : chunks.flatMap (·.rows) = resp.rows
  labelled : ∀ before chunk, before ++ [chunk] <+: chunks → Labelled resp.columns before chunk
  last : ∃ before final, chunks = before ++ [final] ∧ (∀ chunk ∈ before, Full chunkSize chunk) ∧
    final.isLast = true ∧ final.rows.length < chunkSize ∧ final.totalRows = resp.totalRows

inductive Agree (chunkSize : ℕ) :
    Except SyncError QueryResponse → Except SyncError (List QueryChunk) → Prop
  | failed (e : SyncError) : Agree chunkSize (.error e) (.error e)
  | answered {resp : QueryResponse} {chunks : List QueryChunk} :
      Refines chunkSize resp chunks → Agree chunkSize (.ok resp) (.ok chunks)

/-- The stream holds the rows read so far. -/
structure Stream.Holds (columns : List ColumnHeader) (chunkSize : ℕ) (st : Stream)
    (rows : List Row) : Prop where
  delivered : st.chunks.flatMap (·.rows) ++ st.currentChunkRows = rows
  total : st.totalRows = rows.length
  short : st.currentChunkRows.length < chunkSize
  full : ∀ chunk ∈ st.chunks, Full chunkSize chunk
  first : st.isFirstChunk = true ↔ st.chunks = []
  labelled : ∀ before chunk, before ++ [chunk] <+: st.chunks → Labelled columns before chunk

variable (columns) in
theorem Stream.holds_start (hsize : 0 < chunkSize) :
    Stream.Holds columns chunkSize ⟨[], [], 0, true⟩ [] := by
  refine ⟨rfl, rfl, hsize, fun chunk h ↦ ?_, by simp, fun before chunk h ↦ ?_⟩
  · cases h
  · simp at h

/-- The chunk cut from the pending rows continues the labels. -/
theorem Stream.Holds.labelled_concat (h : st.Holds columns chunkSize rows) {isLast : Bool}
    {current : List Row} {totalRows : ℕ}
    (htotal : totalRows = (st.chunks.flatMap (·.rows) ++ current).length) :
    ∀ before chunk,
      before ++ [chunk] <+: st.chunks ++
        [⟨if st.isFirstChunk then columns else [], current, isLast, totalRows⟩] →
      Labelled columns before chunk := by
  intro before chunk hprefix
  rcases List.prefix_concat_iff.mp hprefix with heq | hprefix
  · obtain ⟨rfl, hchunk⟩ := List.append_inj' heq rfl
    obtain rfl := List.singleton_inj.mp hchunk
    refine ⟨if_congr h.first rfl rfl, ?_⟩
    simpa using htotal
  · exact h.labelled before chunk hprefix

theorem Stream.Holds.push (h : st.Holds columns chunkSize rows) (row : Row) :
    (st.push columns chunkSize row).Holds columns chunkSize (rows ++ [row]) := by
  have hrows : st.chunks.flatMap (·.rows) ++ (st.currentChunkRows ++ [row]) = rows ++ [row] := by
    rw [← List.append_assoc, h.delivered]
  have htotal : st.totalRows + 1 = (rows ++ [row]).length := by simp [h.total]
  have hshort := h.short
  unfold Stream.push
  by_cases hcut : chunkSize ≤ (st.currentChunkRows ++ [row]).length
  · have hlen : (st.currentChunkRows ++ [row]).length = chunkSize := by
      simp only [List.length_append, List.length_singleton] at hcut ⊢
      omega
    rw [if_pos hcut]
    refine ⟨by simpa using hrows, htotal, by simp; omega, fun chunk hmem ↦ ?_, by simp, ?_⟩
    · rcases List.mem_append.mp hmem with hmem | hmem
      · exact h.full chunk hmem
      · obtain rfl := List.mem_singleton.mp hmem
        exact ⟨rfl, hlen⟩
    · exact h.labelled_concat (hrows ▸ htotal)
  · rw [if_neg hcut]
    exact ⟨hrows, htotal, not_le.mp hcut, h.full, h.first, h.labelled⟩

variable (maxRows ending) in
theorem loops_agree (more : List (List SqlValue)) (h : st.Holds columns chunkSize rows) :
    (∃ e, queryLoop columns maxRows ending more rows st.totalRows = .error e ∧
      streamLoop columns maxRows chunkSize ending more st = .error e) ∨
    ∃ rows' st', queryLoop columns maxRows ending more rows st.totalRows =
        .ok (rows', st'.totalRows) ∧
      streamLoop columns maxRows chunkSize ending more st = .ok st' ∧
      st'.Holds columns chunkSize rows' := by
  induction more generalizing st rows with
  | nil =>
    cases ending with
    | error e => exact .inl ⟨e, rfl, rfl⟩
    | ok u => exact .inr ⟨rows, st, rfl, rfl, h⟩
  | cons row more ih =>
    have hpush := h.push (readRow columns.length row)
    have htotal : (st.push columns chunkSize (readRow columns.length row)).totalRows =
        st.totalRows + 1 := by
      rw [hpush.total, h.total, List.length_append, List.length_singleton]
    rw [queryLoop, streamLoop, htotal]
    by_cases hstop : 0 < maxRows ∧ maxRows ≤ st.totalRows + 1
    · rw [if_pos hstop, if_pos hstop, ← htotal]
      exact .inr ⟨_, _, rfl, rfl, hpush⟩
    · rw [if_neg hstop, if_neg hstop, ← htotal]
      exact ih hpush

theorem Stream.Holds.refines (h : st.Holds columns chunkSize rows) (generation : ℕ)
    (isReplicaRead : Bool) :
    Refines chunkSize ⟨columns, rows, st.totalRows, generation, isReplicaRead⟩
      (st.finish columns) where
  rows := by simpa [Stream.finish] using h.delivered
  labelled := h.labelled_concat (h.total.trans (congrArg List.length h.delivered.symm))
  last := ⟨st.chunks, _, rfl, h.full, rfl, h.short, rfl⟩

theorem agree_of_started
    (started : List ColumnHeader × List (List SqlValue) × Except SyncError Unit)
    (hsize : 0 < chunkSize) {generation : ℕ} {isReplicaRead : Bool} :
    Agree chunkSize
      (do
        let (rows, totalRows) ← queryLoop started.1 maxRows started.2.2 started.2.1 [] 0
        return ⟨started.1, rows, totalRows, generation, isReplicaRead⟩)
      (do
        let st ← streamLoop started.1 maxRows chunkSize started.2.2 started.2.1 ⟨[], [], 0, true⟩
        return st.finish started.1) := by
  have hholds := Stream.holds_start started.1 hsize
  rcases loops_agree maxRows started.2.2 started.2.1 hholds with
    ⟨e, hquery, hstream⟩ | ⟨rows, st, hquery, hstream, hholds⟩
  · simp only [bind, Except.bind, hquery, hstream]
    exact .failed e
  · simp only [bind, Except.bind, hquery, hstream]
    exact .answered (hholds.refines generation isReplicaRead)

end Refinement

/-- Streaming delivers in chunks what the unary query delivers at once, or fails like it. -/
theorem stream_refines_query (s : σ) (stmtProto : Statement) (maxRows chunkSize generation : ℕ)
    (isReplicaRead : Bool) (hsize : 0 < chunkSize) :
    Agree chunkSize (query lib s stmtProto maxRows generation isReplicaRead)
      (streamQueryChunks lib s stmtProto maxRows chunkSize) := by
  unfold query streamQueryChunks
  cases startQuery lib s stmtProto with
  | error e => exact .failed e
  | ok started => exact agree_of_started started hsize

theorem stream_refines_query_three_rows :
    (streamQueryChunks sampleSqlite [5, 6, 7] ⟨"SELECT x FROM t", none⟩ 0 2).map
        (·.map (·.rows.length)) = .ok [2, 1] ∧
      Agree 2 (query sampleSqlite [5, 6, 7] ⟨"SELECT x FROM t", none⟩ 0 1 false)
        (streamQueryChunks sampleSqlite [5, 6, 7] ⟨"SELECT x FROM t", none⟩ 0 2) :=
  ⟨rfl, stream_refines_query sampleSqlite [5, 6, 7] _ 0 2 1 false Nat.two_pos⟩

end DatabaseEngine

end RsqliteRsync.Gateway
