import RsqliteRsync.Foundation.Splitting
import RsqliteRsync.Ha.Executor

namespace RsqliteRsync.Gateway

open Ha

inductive Code
  | ok
  | cancelled
  | unknown
  | invalidArgument
  | deadlineExceeded
  | notFound
  | alreadyExists
  | permissionDenied
  | resourceExhausted
  | failedPrecondition
  | aborted
  | outOfRange
  | unimplemented
  | internal
  | unavailable
  | dataLoss
  | unauthenticated
  deriving DecidableEq, Repr

def asBytes (text : String) : List UInt8 := text.toByteArray.data.toList

inductive MetadataValue
  | ascii (text : String)
  | binary (bytes : List UInt8)
  deriving DecidableEq, Repr

namespace MetadataValue

def isVisible (c : Char) : Bool := (32 ≤ c.toNat && c.toNat < 127) || c == '\t'

-- All bytes of a character outside of ASCII are above 127.
def isValid (c : Char) : Bool := (32 ≤ c.toNat && c.toNat != 127) || c == '\t'

def parse (text : String) : Option MetadataValue :=
  if text.toList.all isVisible then some (.ascii text)
  else if text.toList.all isValid then some (.binary (asBytes text))
  else none

def toStr : MetadataValue → Option String
  | ascii text => some text
  | binary _ => none

end MetadataValue

structure Status where
  code : Code
  message : String
  metadata : List (String × MetadataValue)
  deriving DecidableEq, Repr

def headerRsqliteCode : String := "x-rsqlite-code"
def headerRsqliteLeaderId : String := "x-rsqlite-leader-id"
def headerRsqliteGeneration : String := "x-rsqlite-generation"
def headerRsqliteLeaderEndpoint : String := "x-rsqlite-leader-endpoint"
def codeNotLeader : String := "NOT_LEADER"

def isNotLeaderStatus (status : Status) : Bool :=
  status.code == .failedPrecondition &&
    match status.metadata.lookup headerRsqliteCode with
    | some value => value == .ascii codeNotLeader
    | none => false

namespace SqlGatewayServer

def header (key : String) (text : Option String) : List (String × MetadataValue) :=
  ((text.bind MetadataValue.parse).map fun value ↦ (key, value)).toList

def notLeaderStatus (state : HaSharedState) : Status where
  code := .failedPrecondition
  message := "node is not the active writer"
  metadata := header headerRsqliteCode (some codeNotLeader) ++
    header headerRsqliteLeaderId state.activeLeaderId ++
    header headerRsqliteGeneration (some (toString state.generation)) ++
    header headerRsqliteLeaderEndpoint state.activeLeaderEndpoint

def checkWriteAccess (state : HaSharedState) (nowSecs : ℕ) : Except Status ℕ :=
  if !state.isWriter nowSecs then .error (notLeaderStatus state) else .ok state.generation

theorem isNotLeaderStatus_notLeaderStatus (state : HaSharedState) :
    isNotLeaderStatus (notLeaderStatus state) = true := by
  have hcode : header headerRsqliteCode (some codeNotLeader) =
      [(headerRsqliteCode, .ascii codeNotLeader)] := by decide
  simp [isNotLeaderStatus, notLeaderStatus, hcode]

end SqlGatewayServer

namespace ReplicationServer

def activeWriterStatus : Status :=
  ⟨.failedPrecondition, "cannot push replication to an active writer node", []⟩

end ReplicationServer

section Trim

/-- The characters with the Unicode property `White_Space`. -/
def isWhitespace (c : Char) : Bool :=
  let n := c.toNat
  (9 ≤ n && n ≤ 13) || n == 0x20 || n == 0x85 || n == 0xA0 || n == 0x1680 ||
    (0x2000 ≤ n && n ≤ 0x200A) || n == 0x2028 || n == 0x2029 || n == 0x202F || n == 0x205F ||
    n == 0x3000

def trim (text : String) : String :=
  String.ofList ((text.toList.dropWhile isWhitespace).reverse.dropWhile isWhitespace).reverse

example : trim "  test.db  \n" = "test.db" := by decide

theorem toList_trim (text : String) :
    (trim text).toList = Foundation.Splitting.strip isWhitespace text.toList :=
  String.toList_ofList

end Trim

end RsqliteRsync.Gateway
