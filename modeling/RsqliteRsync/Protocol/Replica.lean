import RsqliteRsync.Protocol.Hash
import RsqliteRsync.Db.Connection

namespace RsqliteRsync.Protocol.Replica

open Foundation.Chunks Foundation.Process Db

abbrev ReplicaHandler := Handler ConnOp.Reply

variable (lib : Crates)

def allPageHashes (tuning : SyncTuning) (algorithm : HashAlgorithm) (replicaBytes : List UInt8)
    (replicaPageSize replicaPageCount : ℕ) : Res (List PageHash) :=
  let hashAt (pageIdx : ℕ) : Res PageHash := do
    let offset := pageIdx * replicaPageSize
    let page ← slice replicaBytes offset (offset + replicaPageSize)
    pure (hashPageFor lib page algorithm)
  computeWithParallelism lib tuning replicaPageCount
    (fun _ ↦ lib.parMap hashAt (List.range replicaPageCount))
    (fun _ ↦ (List.range replicaPageCount).mapM hashAt)

def groupHashAt (algorithm : HashAlgorithm) (pageHashes : List PageHash)
    (replicaPageCount g : ℕ) : Res PageHash := do
  let firstPage ← firstPageOf (asU32 g)
  let lastPage ← lastPageOf (asU32 g) replicaPageCount
  let startIdx ← subUsize firstPage 1
  let hashes ← slice pageHashes startIdx lastPage
  pure (hashGroupFor lib hashes algorithm)

def coarseChunk (tuning : SyncTuning) (algorithm : HashAlgorithm) (pageHashes : List PageHash)
    (replicaPageCount chunkStart chunkEnd : ℕ) : Res (List PageHash) := do
  let pagesInChunk ← mulU32 (asU32 (chunkEnd - chunkStart)) GROUP_SIZE
  let groups := List.range' chunkStart (chunkEnd - chunkStart)
  computeWithParallelism lib tuning pagesInChunk
    (fun _ ↦ lib.parMap (groupHashAt lib algorithm pageHashes replicaPageCount) groups)
    (fun _ ↦ groups.mapM (groupHashAt lib algorithm pageHashes replicaPageCount))

def numGroups (replicaPageCount : ℕ) : ℕ := max (groupCount replicaPageCount) 1

def groupHashes (tuning : SyncTuning) (algorithm : HashAlgorithm) (pageHashes : List PageHash)
    (replicaPageCount : ℕ) : Res (List PageHash) :=
  inChunks (numGroups replicaPageCount) (max tuning.hashChunkGroups 1)
    (coarseChunk lib tuning algorithm pageHashes replicaPageCount)

/-- The numbers and hashes of the pages of a group that the replica has. A group entirely
beyond the end of the replica has none, which tells the origin to send all its pages. -/
def groupPages (pageHashes : List PageHash) (replicaPageCount groupIdx : ℕ) :
    Res (List ℕ × List PageHash) := do
  let firstPage ← firstPageOf groupIdx
  let lastPage ← lastPageOf groupIdx replicaPageCount
  if firstPage ≤ replicaPageCount then
    let pageNos := List.range' firstPage (lastPage + 1 - firstPage)
    let hashes ← pageNos.mapM fun p ↦ do
      let idx ← subUsize p 1
      index pageHashes idx
    pure (pageNos, hashes)
  else pure ([], [])

section Handler

variable (conn : Connection)

def expectHelloAck : Message → ReplicaHandler ℕ
  | .helloAck version _ _ => pure version
  | .error message => throwErr (.protocol message)
  | other => protocolViolation ("expected HelloAck, got " ++ other.debug)

def expectGroupsNeedFine : Message → ReplicaHandler (List ℕ)
  | .groupsNeedFine groupIndices => pure groupIndices
  | .error message => throwErr (.protocol message)
  | other => protocolViolation ("expected GroupsNeedFine, got " ++ other.debug)

def expectDone (violation : String) : Message → ReplicaHandler Unit
  | .done => pure ()
  | _ => protocolViolation violation

def handshake (replicaPageCount : ℕ) : ReplicaHandler HashAlgorithm := do
  send (.hello PROTOCOL_VERSION conn.pageSize replicaPageCount)
  let ack ← recv
  let negotiatedVersion ← expectHelloAck ack
  if negotiatedVersion = 0 ∨ PROTOCOL_VERSION < negotiatedVersion then
    throwErr (.protocol s!"invalid negotiated protocol version {negotiatedVersion}")
  else
    match HashAlgorithm.fromProtocolVersion negotiatedVersion with
    | none =>
      throwErr (.protocol s!"unsupported negotiated protocol version {negotiatedVersion}")
    | some algorithm => pure algorithm

def applyPages : List PageData → ReplicaHandler Unit
  | [] => pure ()
  | page :: rest => do
    conn.writePage page.pageNo page.data
    applyPages rest

/-- What follows the page hashes of a group, with `pending` groups still to come. A `Done` in
answer to the page hashes of the last group counts as the final one. -/
def onAnswer (pending : ℕ) (next : ReplicaHandler Unit) : Message → ReplicaHandler Unit
  | .sendPages pages => do
    applyPages conn pages
    send (.pagesAck (pages.map (·.pageNo)))
    next
  | .done =>
    if 0 < pending then
      protocolViolation s!"origin sent Done mid-fine-pass with {pending} group(s) still pending"
    else pure ()
  | .error message => throwErr (.protocol message)
  | other => protocolViolation ("expected SendPages or Done, got " ++ other.debug)

def finePass (pageHashes : List PageHash) (replicaPageCount : ℕ) : List ℕ → ReplicaHandler Unit
  | [] => do
    let last ← recv
    expectDone "expected Done after fine pass" last
  | groupIdx :: rest => do
    let (pageNos, hashes) ← lift (groupPages pageHashes replicaPageCount groupIdx)
    send (.pageHashes pageNos hashes)
    let msg ← recv
    onAnswer conn rest.length (finePass pageHashes replicaPageCount rest) msg

def currentBytes (replicaPageCount : ℕ) : ReplicaHandler (List UInt8) :=
  if replicaPageCount = 0 then pure [] else Connection.serialize

def runWithTuning (tuning : SyncTuning) : ReplicaHandler Unit := do
  let replicaPageCount ← Connection.pageCount
  let algorithm ← handshake conn replicaPageCount
  let replicaBytes ← currentBytes replicaPageCount
  let pageHashes ← lift
    (allPageHashes lib tuning algorithm replicaBytes conn.pageSize replicaPageCount)
  let hashes ← lift (groupHashes lib tuning algorithm pageHashes replicaPageCount)
  send (.groupHashes 0 hashes)
  let msg ← recv
  let groups ← expectGroupsNeedFine msg
  if groups = [] then
    let last ← recv
    expectDone "expected Done after empty GroupsNeedFine" last
  else finePass conn pageHashes replicaPageCount groups

end Handler

end RsqliteRsync.Protocol.Replica
