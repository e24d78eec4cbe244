import RsqliteRsync.Protocol.Hash
import RsqliteRsync.Db.Connection

namespace RsqliteRsync.Protocol.Origin

open Foundation.Chunks Foundation.Process Db

abbrev OriginHandler := Handler (Empty.elim : Empty → Type)

section Validation

def checkPageNos (groupIdx firstPage groupLastPage : ℕ) :
    Finset ℕ → Option ℕ → List ℕ → Except SyncError Unit
  | _, _, [] => pure ()
  | seen, prev, pageNo :: rest =>
    if pageNo = 0 then
      throw (.protocol "PageHashes includes invalid page number 0")
    else if pageNo < firstPage ∨ groupLastPage < pageNo then
      throw (.protocol (s!"PageHashes page {pageNo} is outside group {groupIdx} range " ++
        s!"[{firstPage}, {groupLastPage}]"))
    else if pageNo ∈ seen then
      throw (.protocol s!"PageHashes contains duplicate page number {pageNo}")
    else
      match prev with
      | some prevPage =>
        if pageNo ≤ prevPage then
          throw (.protocol ("PageHashes page numbers must be strictly increasing " ++
            s!"(got {prevPage} then {pageNo})"))
        else checkPageNos groupIdx firstPage groupLastPage (insert pageNo seen) (some pageNo) rest
      | none =>
        checkPageNos groupIdx firstPage groupLastPage (insert pageNo seen) (some pageNo) rest

def checkContiguous (groupIdx firstPage : ℕ) : ℕ → List ℕ → Res Unit
  | _, [] => pure ()
  | idx, pageNo :: rest => do
    let expectedPage ← addU32 firstPage (asU32 idx)
    if pageNo ≠ expectedPage then
      throw (.err (.protocol ("PageHashes page numbers must be a contiguous prefix for group " ++
        s!"{groupIdx} (expected page {expectedPage}, got {pageNo})")))
    else checkContiguous groupIdx firstPage (idx + 1) rest

def validatePageHashesForGroup (pageNos : List ℕ) (pageHashes : List PageHash)
    (groupIdx : ℕ) : Res Unit := do
  if pageNos.length ≠ pageHashes.length then
    throw (.err (.protocol (s!"PageHashes has mismatched lengths: page_nos={pageNos.length}, " ++
      s!"hashes={pageHashes.length}")))
  else
    let firstPage ← firstPageOf groupIdx
    let groupLastPage ← groupEnd groupIdx
    match checkPageNos groupIdx firstPage groupLastPage ∅ none pageNos with
    | .error e => throw (.err e)
    | .ok () => checkContiguous groupIdx firstPage 0 pageNos

/-- The text of a hash set. Its order is unspecified; the model lists it in ascending order. -/
def debugSet (s : Finset ℕ) : String :=
  "\x7b" ++ ", ".intercalate ((s.sort (· ≤ ·)).map toString) ++ "\x7d"

def validatePagesAck (expectedPageNos ackPageNos : List ℕ) : Except SyncError Unit :=
  let expected := expectedPageNos.toFinset
  let actual := ackPageNos.toFinset
  if ackPageNos.length ≠ actual.card then
    throw (.protocol "PagesAck contains duplicate page numbers")
  else if expected ≠ actual then
    throw (.protocol ("PagesAck does not match sent pages: expected " ++ debugSet expected ++
      ", got " ++ debugSet actual))
  else pure ()

end Validation

variable (lib : Crates)

def originGroupHashForPages (snapBytes : List UInt8) (snapPageSize firstPage lastPage : ℕ)
    (algorithm : HashAlgorithm) : Res PageHash := do
  let pageHashes ← (List.range' firstPage (lastPage + 1 - firstPage)).mapM fun p ↦ do
    let idx ← subUsize p 1
    let offset := idx * snapPageSize
    let page ← slice snapBytes offset (offset + snapPageSize)
    pure (hashPageFor lib page algorithm)
  pure (hashGroupFor lib pageHashes algorithm)

def changedPageFor (pageNo : ℕ) (replicaHash : PageHash) (snapBytes : List UInt8)
    (snapPageSize : ℕ) (algorithm : HashAlgorithm) : Res (Option PageData) := do
  let idx ← subUsize pageNo 1
  let offset := idx * snapPageSize
  let data ← slice snapBytes offset (offset + snapPageSize)
  let originHash := hashPageFor lib data algorithm
  if originHash ≠ replicaHash then pure (some ⟨pageNo, data⟩) else pure none

def compareGroup (snap : Snapshot) (algorithm : HashAlgorithm) (firstGroup i : ℕ)
    (replicaGroupHash : PageHash) : Res (Option ℕ) := do
  let groupIdx ← addU32 firstGroup (asU32 i)
  let firstPage ← firstPageOf groupIdx
  let lastPage ← lastPageOf groupIdx snap.pageCount
  if snap.pageCount < firstPage then
    -- The replica may have sent hashes for pages that no longer exist.
    pure (some groupIdx)
  else
    let originGroupHash ←
      originGroupHashForPages lib snap.bytes snap.pageSize firstPage lastPage algorithm
    if originGroupHash ≠ replicaGroupHash then pure (some groupIdx) else pure none

def coarseChunk (snap : Snapshot) (tuning : SyncTuning) (algorithm : HashAlgorithm)
    (firstGroup : ℕ) (replicaGroupHashes : List PageHash) (chunkStart chunkEnd : ℕ) :
    Res (List ℕ) := do
  let replicaHashesChunk ← slice replicaGroupHashes chunkStart chunkEnd
  let pagesInChunk ← mulU32 (asU32 (chunkEnd - chunkStart)) GROUP_SIZE
  computeWithParallelism lib tuning pagesInChunk
    (fun _ ↦ lib.parFilterMap
      (fun x ↦ compareGroup lib snap algorithm firstGroup (chunkStart + x.2) x.1)
      replicaHashesChunk.zipIdx)
    (fun _ ↦ replicaHashesChunk.zipIdx.filterMapM fun x ↦
      compareGroup lib snap algorithm firstGroup (chunkStart + x.2) x.1)

/-- The groups that need the fine pass: those whose hashes differ, then those that exist only
on the origin. -/
def needFine (snap : Snapshot) (tuning : SyncTuning) (algorithm : HashAlgorithm)
    (firstGroup : ℕ) (replicaGroupHashes : List PageHash) : Res (List ℕ) := do
  let groupsPerChunk := max tuning.hashChunkGroups 1
  let differing ← inChunks replicaGroupHashes.length groupsPerChunk
    (coarseChunk lib snap tuning algorithm firstGroup replicaGroupHashes)
  let maxReplicaGroup ← addU32 firstGroup (asU32 replicaGroupHashes.length)
  let maxOriginGroup := groupCount snap.pageCount
  pure (differing ++ List.range' maxReplicaGroup (maxOriginGroup - maxReplicaGroup))

def comparePage (snap : Snapshot) (algorithm : HashAlgorithm) (pageNos : List ℕ)
    (pageHashes : List PageHash) (i : ℕ) : Res (Option PageData) := do
  let pageNo ← index pageNos i
  let replicaHash ← index pageHashes i
  changedPageFor lib pageNo replicaHash snap.bytes snap.pageSize algorithm

def nextMissingPage (firstPage : ℕ) (pageNos : List ℕ) : Res ℕ :=
  match pageNos.max? with
  | some pageNo => addU32 pageNo 1
  | none => pure firstPage

/-- The pages of one group to send: those whose hashes differ, then those the replica does
not have. -/
def changedPages (snap : Snapshot) (tuning : SyncTuning) (algorithm : HashAlgorithm)
    (firstPage lastPage : ℕ) (pageNos : List ℕ) (pageHashes : List PageHash) :
    Res (List PageData) := do
  let changed ← computeWithParallelism lib tuning (asU32 pageNos.length)
    (fun _ ↦ lib.parFilterMap (comparePage lib snap algorithm pageNos pageHashes)
      (List.range pageNos.length))
    (fun _ ↦ (List.range pageNos.length).filterMapM
      (comparePage lib snap algorithm pageNos pageHashes))
  let next ← nextMissingPage firstPage pageNos
  let missing ← (List.range' next (lastPage + 1 - next)).mapM fun p ↦ do
    let idx ← subUsize p 1
    let offset := idx * snap.pageSize
    let data ← slice snap.bytes offset (offset + snap.pageSize)
    pure (⟨p, data⟩ : PageData)
  pure (changed ++ missing)

section Handler

def expectHello : Message → OriginHandler (ℕ × ℕ)
  | .hello version pageSize _ => pure (version, pageSize)
  | .error message => throwErr (.protocol message)
  | other => protocolViolation ("expected Hello, got " ++ other.debug)

def expectGroupHashes : Message → OriginHandler (ℕ × List PageHash)
  | .groupHashes firstGroup hashes => pure (firstGroup, hashes)
  | .error message => throwErr (.protocol message)
  | other => protocolViolation ("expected GroupHashes, got " ++ other.debug)

def expectPageHashes : Message → OriginHandler (List ℕ × List PageHash)
  | .pageHashes pageNos hashes => pure (pageNos, hashes)
  | .done =>
    protocolViolation "received Done before all requested fine-pass groups were processed"
  | .error message => throwErr (.protocol message)
  | other => protocolViolation ("expected PageHashes, got " ++ other.debug)

def orViolation : Res Unit → OriginHandler Unit
  | .ok () => pure ()
  | .error (.err (.protocol message)) => protocolViolation message
  | .error stop => .fail stop

def expectPagesAck (expectedAckPageNos : List ℕ) : Message → OriginHandler Unit
  | .pagesAck pageNos =>
    match validatePagesAck expectedAckPageNos pageNos with
    | .ok () => pure ()
    | .error (.protocol message) => protocolViolation message
    | .error e => throwErr e
  | .error message => throwErr (.protocol message)
  | other => protocolViolation ("expected PagesAck, got " ++ other.debug)

def handshake (snap : Snapshot) : OriginHandler HashAlgorithm := do
  let hello ← recv
  let (replicaVersion, replicaPageSize) ← expectHello hello
  if replicaVersion = 0 then
    protocolViolation "replica offered unsupported protocol version 0"
  else
    let negotiatedVersion := min replicaVersion PROTOCOL_VERSION
    match HashAlgorithm.fromProtocolVersion negotiatedVersion with
    | none =>
      throwErr (.protocol s!"unsupported negotiated protocol version {negotiatedVersion}")
    | some algorithm =>
      if snap.pageSize ≠ replicaPageSize ∧ replicaPageSize ≠ 0 then
        send (.error (s!"page size mismatch: origin={snap.pageSize}, " ++
          s!"replica={replicaPageSize}"))
        throwErr (.pageSizeMismatch snap.pageSize replicaPageSize)
      else
        send (.helloAck negotiatedVersion snap.pageSize snap.pageCount)
        pure algorithm

def coarsePass (snap : Snapshot) (tuning : SyncTuning) (algorithm : HashAlgorithm) :
    OriginHandler (List ℕ) := do
  let msg ← recv
  let (firstGroup, replicaGroupHashes) ← expectGroupHashes msg
  if firstGroup ≠ 0 then
    protocolViolation (s!"unsupported GroupHashes.first_group={firstGroup}; this protocol " ++
      "version requires first_group=0")
  else
    let groups ← lift (needFine lib snap tuning algorithm firstGroup replicaGroupHashes)
    send (.groupsNeedFine groups)
    pure groups

def sendChanged (pages : List PageData) : OriginHandler Unit := do
  send (.sendPages pages)
  let ack ← recv
  expectPagesAck (pages.map (·.pageNo)) ack

def fineRound (snap : Snapshot) (tuning : SyncTuning) (algorithm : HashAlgorithm)
    (groupIdx : ℕ) : OriginHandler Unit := do
  let msg ← recv
  let (replicaPageNos, replicaPageHashes) ← expectPageHashes msg
  let firstPage ← lift (firstPageOf groupIdx)
  let lastPage ← lift (lastPageOf groupIdx snap.pageCount)
  orViolation (validatePageHashesForGroup replicaPageNos replicaPageHashes groupIdx)
  let pages ← lift (changedPages lib snap tuning algorithm firstPage lastPage replicaPageNos
    replicaPageHashes)
  sendChanged pages

def finePass (snap : Snapshot) (tuning : SyncTuning) (algorithm : HashAlgorithm) :
    List ℕ → OriginHandler Unit
  | [] => pure ()
  | groupIdx :: rest => do
    fineRound lib snap tuning algorithm groupIdx
    finePass snap tuning algorithm rest

def runWithTuning (snap : Snapshot) (tuning : SyncTuning) : OriginHandler Unit := do
  let algorithm ← handshake snap
  let groups ← coarsePass lib snap tuning algorithm
  finePass lib snap tuning algorithm groups
  send .done

end Handler

end RsqliteRsync.Protocol.Origin
