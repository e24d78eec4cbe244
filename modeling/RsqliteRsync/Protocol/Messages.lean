import RsqliteRsync.Foundation.Process

namespace RsqliteRsync.Protocol

inductive SyncError
  | sqlite (code : ℤ) (msg : String)
  | io (msg : String)
  | protocol (msg : String)
  | remoteLaunch (msg : String)
  | network (msg : String)
  | pageSizeMismatch (origin replica : ℕ)
  | busy (msg : String)
  | codec (msg : String)
  deriving DecidableEq, Repr

def SyncError.display : SyncError → String
  | .sqlite code msg => s!"SQLite error (code {code}): {msg}"
  | .io msg => s!"I/O error: {msg}"
  | .protocol msg => s!"Protocol error: {msg}"
  | .remoteLaunch msg => s!"Failed to launch remote endpoint: {msg}"
  | .network msg => s!"Network error: {msg}"
  | .pageSizeMismatch origin replica => s!"Page-size mismatch: origin={origin}, replica={replica}"
  | .busy msg => s!"Database busy / locked: {msg}"
  | .codec msg => s!"Codec error: {msg}"

/-- How a computation ends without a result: it returns an error value, or it panics (an
index out of range, or integer overflow, which the checked build turns into a panic). -/
inductive Stop
  | err (e : SyncError)
  | panic
  deriving DecidableEq, Repr

abbrev Res (α : Type) := Except Stop α

def panic {α : Type} : Res α := .error .panic

section Checked

def u32Bound : ℕ := 4294967296

def asU32 (n : ℕ) : ℕ := n % u32Bound

def addU32 (a b : ℕ) : Res ℕ := if a + b < u32Bound then pure (a + b) else panic

def mulU32 (a b : ℕ) : Res ℕ := if a * b < u32Bound then pure (a * b) else panic

def subUsize (a b : ℕ) : Res ℕ := if b ≤ a then pure (a - b) else panic

def slice {α : Type} (xs : List α) (lo hi : ℕ) : Res (List α) :=
  if lo ≤ hi ∧ hi ≤ xs.length then pure ((xs.drop lo).take (hi - lo)) else panic

def index {α : Type} (xs : List α) (i : ℕ) : Res α :=
  match xs[i]? with
  | some x => pure x
  | none => panic

theorem asU32_of_lt {n : ℕ} (h : n < u32Bound) : asU32 n = n := Nat.mod_eq_of_lt h

theorem addU32_of_lt {a b : ℕ} (h : a + b < u32Bound) : addU32 a b = pure (a + b) := if_pos h

theorem mulU32_of_lt {a b : ℕ} (h : a * b < u32Bound) : mulU32 a b = pure (a * b) := if_pos h

theorem subUsize_of_le {a b : ℕ} (h : b ≤ a) : subUsize a b = pure (a - b) := if_pos h

theorem slice_of_le {α : Type} {xs : List α} {lo hi : ℕ} (h : lo ≤ hi) (h' : hi ≤ xs.length) :
    slice xs lo hi = pure ((xs.drop lo).take (hi - lo)) := if_pos ⟨h, h'⟩

theorem slice_of_length_lt {α : Type} {xs : List α} {lo hi : ℕ} (h : xs.length < hi) :
    slice xs lo hi = panic := if_neg fun h' ↦ absurd h'.2 (by omega)

theorem index_of_lt {α : Type} {xs : List α} {i : ℕ} (h : i < xs.length) :
    index xs i = pure xs[i] := by
  simp [index, List.getElem?_eq_getElem h]

end Checked

abbrev PageHash := Vector UInt8 32

structure PageData where
  pageNo : ℕ
  data : List UInt8
  deriving DecidableEq

def PROTOCOL_VERSION : ℕ := 2

inductive Message
  | hello (version pageSize pageCount : ℕ)
  | helloAck (version pageSize pageCount : ℕ)
  | groupHashes (firstGroup : ℕ) (hashes : List PageHash)
  | groupsNeedFine (groupIndices : List ℕ)
  | pageHashes (pageNos : List ℕ) (hashes : List PageHash)
  | sendPages (pages : List PageData)
  | pagesAck (pageNos : List ℕ)
  | done
  | error (message : String)
  deriving DecidableEq

section Debug

def debugList {α : Type} (f : α → String) (xs : List α) : String :=
  "[" ++ ", ".intercalate (xs.map f) ++ "]"

def debugNats (ns : List ℕ) : String := debugList toString ns

def debugBytes (bs : List UInt8) : String := debugList toString bs

def debugHashes (hs : List PageHash) : String := debugList (fun h ↦ debugBytes h.toList) hs

def debugFields (name : String) (fields : List (String × String)) : String :=
  name ++ " \x7b " ++ ", ".intercalate (fields.map fun f ↦ f.1 ++ ": " ++ f.2) ++ " \x7d"

def PageData.debug (p : PageData) : String :=
  debugFields "PageData" [("page_no", toString p.pageNo), ("data", debugBytes p.data)]

/-- The derived `Debug` text, which the handlers put into their error messages. They never
format an `Error` message: each match has an arm of its own for it. -/
def Message.debug : Message → String
  | .hello version pageSize pageCount => debugFields "Hello" [("version", toString version),
      ("page_size", toString pageSize), ("page_count", toString pageCount)]
  | .helloAck version pageSize pageCount => debugFields "HelloAck" [("version", toString version),
      ("page_size", toString pageSize), ("page_count", toString pageCount)]
  | .groupHashes firstGroup hashes => debugFields "GroupHashes"
      [("first_group", toString firstGroup), ("hashes", debugHashes hashes)]
  | .groupsNeedFine groupIndices =>
      debugFields "GroupsNeedFine" [("group_indices", debugNats groupIndices)]
  | .pageHashes pageNos hashes => debugFields "PageHashes"
      [("page_nos", debugNats pageNos), ("hashes", debugHashes hashes)]
  | .sendPages pages => debugFields "SendPages" [("pages", debugList PageData.debug pages)]
  | .pagesAck pageNos => debugFields "PagesAck" [("page_nos", debugNats pageNos)]
  | .done => "Done"
  | .error message => debugFields "Error" [("message", message.quote)]

end Debug

open Foundation.Process

/-- A protocol handler: it converses in protocol messages and may stop with an error or a
panic. `A` gives the replies of the calls it makes on its database. -/
abbrev Handler {E : Type} (A : E → Type) := Proc Message SyncError A Stop

section Handler

variable {E : Type} {A : E → Type} {α : Type}

def orFail : Except SyncError α → Handler A α
  | .ok a => pure a
  | .error e => .fail (.err e)

def lift : Res α → Handler A α
  | .ok a => pure a
  | .error s => .fail s

def send (m : Message) : Handler A Unit := .send m orFail

def recv : Handler A Message := .recv orFail

def throwErr (e : SyncError) : Handler A α := .fail (.err e)

/-- Tell the peer about the violation, whether or not that succeeds, and fail locally. -/
def protocolViolation (message : String) : Handler A α :=
  .send (.error message) fun _ ↦ throwErr (.protocol message)

@[simp] theorem lift_pure (a : α) : (lift (pure a : Res α) : Handler A α) = .ret a := rfl

@[simp] theorem lift_panic : (lift (panic : Res α) : Handler A α) = .fail .panic := rfl

@[simp] theorem orFail_ok (a : α) : (orFail (.ok a) : Handler A α) = .ret a := rfl

end Handler

end RsqliteRsync.Protocol
