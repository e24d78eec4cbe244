import RsqliteRsync.Cli.RetryDelay
import RsqliteRsync.Db.Connection
import RsqliteRsync.Endpoint
import RsqliteRsync.Foundation.Fallible
import RsqliteRsync.Protocol.Hash

namespace RsqliteRsync.Cli

open Protocol Foundation Foundation.Schedule Foundation.UnixPath Gateway

/-- An entry of a manifest, with what the runner does not read. -/
structure BatchEntryWire extends BatchSyncSpec where
  dryRun : Option Bool
  grpcAuthToken : Option String

section Manifest

inductive ManifestFormat
  | auto
  | json
  | yaml
  | toml

/-- The file system and the parsers of the formats, with the texts of their errors. -/
structure ManifestReader where
  readToString : List Char → Except String String
  fromJson : String → Except String (List BatchEntryWire)
  fromYaml : String → Except String (List BatchEntryWire)
  fromToml : String → Except String (List BatchEntryWire)

def extension (path : List Char) : Option (List Char) :=
  match (components path).getLast? with
  | some (.normal name) =>
    match Endpoint.rsplitOnce '.' name with
    | some (before, after) => if before = [] then none else some after
    | none => none
  | _ => none

def parseAs (format : String) (parse : String → Except String (List BatchEntryWire))
    (path : List Char) (text : String) : Except String (List BatchEntryWire) :=
  (parse text).mapError fun error ↦
    s!"failed parsing batch manifest {String.ofList path} as {format}: {error}"

namespace ManifestReader

variable (reader : ManifestReader) (path : List Char) (text : String)

def parseJson : Except String (List BatchEntryWire) := parseAs "json" reader.fromJson path text

def parseYaml : Except String (List BatchEntryWire) := parseAs "yaml" reader.fromYaml path text

def parseToml : Except String (List BatchEntryWire) := parseAs "toml" reader.fromToml path text

def parseAny : Except SyncError (List BatchEntryWire) :=
  match reader.parseJson path text with
  | .ok syncs => .ok syncs
  | .error jsonError =>
    match reader.parseYaml path text with
    | .ok syncs => .ok syncs
    | .error yamlError =>
      match reader.parseToml path text with
      | .ok syncs => .ok syncs
      | .error tomlError => .error (.protocol
          (s!"failed parsing batch manifest {String.ofList path} with auto format detection; " ++
            s!"json error: {jsonError}; yaml error: {yamlError}; toml error: {tomlError}"))

def parse : ManifestFormat → Except SyncError (List BatchEntryWire)
  | .json => (reader.parseJson path text).mapError .protocol
  | .yaml => (reader.parseYaml path text).mapError .protocol
  | .toml => (reader.parseToml path text).mapError .protocol
  | .auto =>
    let extension := (extension path).map (·.map Char.toLower)
    if extension = some "json".toList then (reader.parseJson path text).mapError .protocol
    else if extension = some "yaml".toList ∨ extension = some "yml".toList then
      (reader.parseYaml path text).mapError .protocol
    else if extension = some "toml".toList then (reader.parseToml path text).mapError .protocol
    else reader.parseAny path text

end ManifestReader

def BatchEntryWire.check (path : List Char) (entry : BatchEntryWire) (idx : ℕ) :
    Except SyncError Unit :=
  let refuse (problem : String) : Except SyncError Unit :=
    .error (.protocol s!"batch manifest {String.ofList path} entry {idx} {problem}")
  if trim entry.origin = "" then refuse "has empty origin"
  else if trim entry.replica = "" then refuse "has empty replica"
  else if entry.timeoutSecs = some 0 then refuse "timeout_secs must be greater than 0"
  else if entry.retryJitterPct.any (100 < ·) then
    refuse "retry_jitter_pct must be between 0 and 100"
  else
    match entry.retryBackoffMs, entry.retryBackoffMaxMs with
    | some base, some max =>
      if 0 < max ∧ max < base then refuse "retry_backoff_max_ms must be >= retry_backoff_ms"
      else .ok ()
    | _, _ => .ok ()

def loadManifest (reader : ManifestReader) (path : List Char) (format : ManifestFormat) :
    Except SyncError (List BatchEntryWire) := do
  let text ← (reader.readToString path).mapError fun error ↦
    .protocol s!"failed reading batch manifest {String.ofList path}: {error}"
  let syncs ← reader.parse path text format
  if syncs = [] then
    .error (.protocol s!"batch manifest {String.ofList path} has no sync entries")
  else
    syncs.zipIdx.forM fun item ↦ item.1.check path item.2
    pure syncs

end Manifest

section Arguments

inductive SshAuthMode
  | nonInteractive
  | interactive

structure SshConnectOptions where
  authMode : SshAuthMode
  connectTimeoutSecs : ℕ

structure BatchOptions extends BatchRuntimeOptions where
  defaultDryRun : Bool
  exe : String
  sshOpts : List String
  sshOptions : SshConnectOptions
  tuning : SyncTuning
  grpcAuthToken : Option String

/-- What batch mode reads of the command line. -/
structure Args where
  origin : Option String
  replica : Option String
  dryRun : Bool
  exe : String
  sshOpts : List String
  sshAuth : SshAuthMode
  sshConnectTimeout : ℕ
  grpcAuthToken : Option String
  batchManifest : Option (List Char)
  batchFormat : ManifestFormat
  batchJobs : ℕ
  batchRetries : ℕ
  batchTimeoutSecs : ℕ
  batchRetryBackoffMs : UInt64
  batchRetryBackoffMaxMs : UInt64
  batchRetryJitterPct : UInt8
  server : Bool
  serverOrigin : Bool
  serverReplica : Bool
  ha : Bool

namespace Args

def manifestPath (args : Args) : Except SyncError (List Char) :=
  if args.ha then .error (.protocol "--batch-manifest cannot be used with --ha")
  else if args.server || args.serverOrigin || args.serverReplica then
    .error (.protocol "--batch-manifest cannot be used with --server flags")
  else if args.origin.isSome || args.replica.isSome then
    .error (.protocol "batch mode does not accept ORIGIN/REPLICA positional arguments")
  else if args.batchJobs = 0 then .error (.protocol "--batch-jobs must be greater than 0")
  else if 100 < args.batchRetryJitterPct then
    .error (.protocol "--batch-retry-jitter-pct must be between 0 and 100")
  else if 0 < args.batchRetryBackoffMaxMs ∧ 0 < args.batchRetryBackoffMs ∧
      args.batchRetryBackoffMaxMs < args.batchRetryBackoffMs then
    .error (.protocol "--batch-retry-backoff-max-ms must be >= --batch-retry-backoff-ms")
  else
    match args.batchManifest with
    | none => .error (.protocol "--batch-manifest is required in batch mode")
    | some path => .ok path

def runtimeOptions (args : Args) (tuning : SyncTuning) : BatchOptions where
  jobs := args.batchJobs
  defaultDryRun := args.dryRun
  defaultRetries := args.batchRetries
  defaultTimeout :=
    if 0 < args.batchTimeoutSecs then some (args.batchTimeoutSecs * nanosPerSec) else none
  retryBackoffBase :=
    if 0 < args.batchRetryBackoffMs then some (.fromMillis args.batchRetryBackoffMs) else none
  retryBackoffMax :=
    if 0 < args.batchRetryBackoffMaxMs then some (.fromMillis args.batchRetryBackoffMaxMs)
    else none
  retryJitterPct := args.batchRetryJitterPct
  exe := args.exe
  sshOpts := args.sshOpts
  sshOptions := ⟨args.sshAuth, max args.sshConnectTimeout 1⟩
  tuning := tuning
  grpcAuthToken := args.grpcAuthToken

end Args

end Arguments

section Attempts

/-- The library's entry points, with their arguments. -/
inductive SyncCall
  | syncLocal (origin replica : List Char) (tuning : SyncTuning)
  | pushSync (origin userHost path : List Char) (exe : String) (sshOpts : List String)
      (sshOptions : SshConnectOptions) (tuning : SyncTuning)
  | pullSync (userHost path replica : List Char) (exe : String) (sshOpts : List String)
      (sshOptions : SshConnectOptions) (tuning : SyncTuning)
  | grpcPushSync (origin url database : List Char) (authToken : Option String)
      (tuning : SyncTuning)
  | grpcPullSync (replica url database : List Char) (authToken : Option String)
      (tuning : SyncTuning)

/-- What an attempt meets. A call has no outcome if it does not end, or not in time. -/
structure Moment where
  openReadonly : List Char → Except SyncError Db.Connection
  isThere : List Char → Bool
  sync : SyncCall → Option (Res Unit)

def dryRunLocal (now : Moment) (origin replica : List Char) : Except SyncError Unit := do
  let o ← now.openReadonly origin
  if now.isThere replica then
    let r ← now.openReadonly replica
    if o.pageSize ≠ r.pageSize then .error (.pageSizeMismatch o.pageSize r.pageSize)
    else pure ()
  else pure ()

def runOneInner (options : BatchOptions) (now : Moment) (spec : BatchEntryWire) (dryRun : Bool) :
    Option (Res Unit) :=
  let authToken := spec.grpcAuthToken.or options.grpcAuthToken
  match Endpoint.parse spec.origin.toList, Endpoint.parse spec.replica.toList with
  | .local o, .local r =>
    if !dryRun then now.sync (.syncLocal o r options.tuning)
    else some ((dryRunLocal now o r).mapError .err)
  | .local o, .remote userHost path =>
    if dryRun then some (.ok ())
    else now.sync (.pushSync o userHost path options.exe options.sshOpts options.sshOptions
      options.tuning)
  | .remote userHost path, .local r =>
    if dryRun then some (.ok ())
    else now.sync (.pullSync userHost path r options.exe options.sshOpts options.sshOptions
      options.tuning)
  | .local o, .grpc url database =>
    if dryRun then some (.ok ())
    else now.sync (.grpcPushSync o url database authToken options.tuning)
  | .grpc url database, .local r =>
    if dryRun then some (.ok ())
    else now.sync (.grpcPullSync r url database authToken options.tuning)
  | .remote _ _, .remote _ _ | .remote _ _, .grpc _ _ | .grpc _ _, .remote _ _ =>
    some (.error (.err (.protocol "at least one of ORIGIN or REPLICA must be local")))
  | .grpc _ _, .grpc _ _ => some (.error (.err (.protocol "gRPC to gRPC sync not supported")))

end Attempts

section Mode

/-- What each attempt of each entry meets. -/
abbrev Moments := ℕ → ℕ → Moment

def BatchEntryWire.isDryRun (entry : BatchEntryWire) (options : BatchOptions) : Bool :=
  entry.dryRun.getD options.defaultDryRun

def outcomes (options : BatchOptions) (moments : Moments) (entries : List BatchEntryWire) : World :=
  fun index attempt ↦ entries[index]?.bind fun entry ↦
    runOneInner options (moments index attempt) entry (entry.isDryRun options)

def prepare (reader : ManifestReader) (tuning : SyncTuning) (args : Args) :
    Except SyncError (BatchOptions × List BatchEntryWire) := do
  let path ← args.manifestPath
  let entries ← loadManifest reader path args.batchFormat
  pure (args.runtimeOptions tuning, entries)

def conclude (report : BatchRunReport) : Except SyncError Unit :=
  if 0 < report.failed then
    .error (.protocol s!"batch sync completed with {report.failed} failed entries")
  else .ok ()

end Mode

section Validity

/-- What the numbers of an entry have to satisfy, and that it names two databases. -/
structure BatchEntryWire.Valid (entry : BatchEntryWire) : Prop where
  origin : trim entry.origin ≠ ""
  replica : trim entry.replica ≠ ""
  timeout : entry.timeoutSecs ≠ some 0
  jitter : ∀ pct, entry.retryJitterPct = some pct → pct ≤ 100
  backoff : ∀ base max, entry.retryBackoffMs = some base → entry.retryBackoffMaxMs = some max →
    max = 0 ∨ base ≤ max

theorem BatchEntryWire.valid_of_check {path : List Char} {entry : BatchEntryWire} {idx : ℕ}
    (h : entry.check path idx = .ok ()) : entry.Valid := by
  unfold check at h
  dsimp only at h
  split_ifs at h with horigin hreplica htimeout hjitter
  refine ⟨horigin, hreplica, htimeout, ?_, ?_⟩
  · intro pct hpct
    rw [hpct, Option.any_some, decide_eq_true_iff] at hjitter
    exact UInt8.not_lt.mp hjitter
  · intro base max hbase hmax
    simp only [hbase, hmax] at h
    split_ifs at h with hless
    by_cases hzero : max = 0
    · exact .inl hzero
    · refine .inr (UInt64.not_lt.mp fun hlt ↦ hless ⟨?_, hlt⟩)
      exact UInt64.pos_iff_ne_zero.mpr hzero

theorem valid_of_loadManifest {reader : ManifestReader} {path : List Char}
    {format : ManifestFormat} {entries : List BatchEntryWire}
    (h : loadManifest reader path format = .ok entries) :
    entries ≠ [] ∧ ∀ entry ∈ entries, entry.Valid := by
  obtain ⟨text, -, h⟩ := bind_ok h
  obtain ⟨syncs, -, h⟩ := bind_ok h
  split_ifs at h with hempty
  obtain ⟨_, hchecks, h⟩ := bind_ok h
  obtain rfl := Except.ok.inj h
  refine ⟨hempty, fun entry hentry ↦ ?_⟩
  obtain ⟨idx, hidx⟩ := List.mem_iff_getElem?.mp hentry
  exact BatchEntryWire.valid_of_check (forM_ok hchecks (entry, idx)
    (List.mem_zipIdx_iff_getElem?.mpr hidx))

end Validity

section Verdict

variable {options : BatchOptions} {now : Moment} {entry : BatchEntryWire}

/-- The call that takes the database of the one to the other, if one of them is local. -/
def SyncCall.between (options : BatchOptions) (authToken : Option String) :
    Endpoint → Endpoint → Option SyncCall
  | .local o, .local r => some (.syncLocal o r options.tuning)
  | .local o, .remote userHost path => some (.pushSync o userHost path options.exe options.sshOpts
      options.sshOptions options.tuning)
  | .remote userHost path, .local r => some (.pullSync userHost path r options.exe options.sshOpts
      options.sshOptions options.tuning)
  | .local o, .grpc url database => some (.grpcPushSync o url database authToken options.tuning)
  | .grpc url database, .local r => some (.grpcPullSync r url database authToken options.tuning)
  | _, _ => none

def Moment.Compatible (now : Moment) (origin replica : List Char) : Prop :=
  ∃ o, now.openReadonly origin = .ok o ∧ (now.isThere replica = true →
    ∃ r, now.openReadonly replica = .ok r ∧ o.pageSize = r.pageSize)

/-- The database is taken over or, in a dry run, two local ones would fit. -/
def Achieves (options : BatchOptions) (now : Moment) (entry : BatchEntryWire) : Prop :=
  ∃ call, SyncCall.between options (entry.grpcAuthToken.or options.grpcAuthToken)
      (Endpoint.parse entry.origin.toList) (Endpoint.parse entry.replica.toList) = some call ∧
    if entry.dryRun.getD options.defaultDryRun then
      ∀ o r tuning, call = .syncLocal o r tuning → now.Compatible o r
    else now.sync call = some (.ok ())

theorem dryRunLocal_ok_iff {origin replica : List Char} :
    dryRunLocal now origin replica = .ok () ↔ now.Compatible origin replica := by
  unfold dryRunLocal Moment.Compatible
  cases horigin : now.openReadonly origin with
  | error e => simp [bind, Except.bind]
  | ok o =>
    cases hthere : now.isThere replica with
    | false => simp [bind, Except.bind, pure, Except.pure]
    | true =>
      cases hreplica : now.openReadonly replica with
      | error e => simp [bind, Except.bind]
      | ok r => by_cases hsize : o.pageSize = r.pageSize <;>
          simp [bind, Except.bind, pure, Except.pure, hsize]

theorem runOneInner_ok_iff :
    runOneInner options now entry (entry.isDryRun options) = some (.ok ()) ↔
      Achieves options now entry := by
  unfold runOneInner Achieves BatchEntryWire.isDryRun
  cases Endpoint.parse entry.origin.toList <;> cases Endpoint.parse entry.replica.toList <;>
    cases entry.dryRun.getD options.defaultDryRun <;>
      simp [SyncCall.between, mapError_ok_iff, dryRunLocal_ok_iff]

end Verdict

section Runs

variable {options : BatchRuntimeOptions} {world : World} {specs : List BatchSyncSpec}
  {runner : Runner}

theorem succeeds_iff {spec : BatchSyncSpec} {index attempt : ℕ} :
    Succeeds options world (spec, index) attempt ↔ world index attempt = some (.ok ()) := by
  unfold Succeeds
  cases world index attempt with
  | some outcome => exact Iff.rfl
  | none => simp [BatchSyncSpec.attempt]

theorem settles_complete (hpanics : NoPanic options world specs)
    (hends : NoHang options world specs) :
    Settles (BatchStep options world) (startBatch options world specs) fun runner ↦
      runner.inFlight = [] ∧ Complete options world specs (report runner) := by
  apply settles_of_bounded fun _ _ ↦ run_length_le
  intro runner hreach hstuck
  have hdone : runner.inFlight = [] := by
    refine List.eq_nil_iff_forall_not_mem.mpr fun e he ↦ ?_
    exact hends.not_hangs hreach ⟨e, he, hpanics.hangs_of_stuck hreach hstuck e he⟩
  exact ⟨hdone, (done_of_reaches hreach hdone).2.2⟩

/-- The results stand in order, so that they can be counted by index. -/
theorem Complete.failed_eq {report : BatchRunReport} (h : Complete options world specs report)
    {p : ℕ → Bool} (hp : ∀ result ∈ report.results, p result.index = result.isSuccess) :
    report.failed = ((List.range specs.length).filter (!p ·)).length := by
  have hlength : report.results.length = report.total := by
    rw [h.total, ← List.length_range (n := specs.length), ← h.indices, List.length_map]
  have hcount : ((List.range specs.length).filter (!p ·)).length =
      (report.results.filter (!·.isSuccess)).length := by
    rw [← h.indices, ← List.countP_eq_length_filter, ← List.countP_eq_length_filter,
      List.countP_map]
    exact List.countP_congr fun result hresult ↦ by simp [hp result hresult]
  have hsplit := List.length_eq_length_filter_add (l := report.results) BatchItemResult.isSuccess
  have hcounted := h.counted
  have hsucceeded := h.succeeded
  omega

end Runs

section Outcome

variable {reader : ManifestReader} {tuning : SyncTuning} {args : Args} {options : BatchOptions}
  {entries : List BatchEntryWire} {moments : Moments}

/-- Some attempt, as far as the retries go, achieves what the entry is for. -/
def Achieved (options : BatchOptions) (moments : Moments) (index : ℕ) (entry : BatchEntryWire) :
    Prop :=
  ∃ attempt, 0 < attempt ∧
    attempt ≤ min (entry.retries.getD options.defaultRetries + 1) (2 ^ 32 - 1) ∧
    Achieves options (moments index attempt) entry

open Classical in
noncomputable def failing (options : BatchOptions) (moments : Moments)
    (entries : List BatchEntryWire) : List ℕ :=
  (List.range entries.length).filter fun index ↦
    ¬ ∃ entry, entries[index]? = some entry ∧ Achieved options moments index entry

abbrev specsOf (entries : List BatchEntryWire) : List BatchSyncSpec :=
  entries.map BatchEntryWire.toBatchSyncSpec

theorem outcomes_ok_iff {index attempt : ℕ} {entry : BatchEntryWire}
    (h : entries[index]? = some entry) :
    outcomes options moments entries index attempt = some (.ok ()) ↔
      Achieves options (moments index attempt) entry := by
  rw [outcomes, h, Option.bind_some, runOneInner_ok_iff]

theorem Complete.failed_eq_failing {report : BatchRunReport}
    (h : Complete options.toBatchRuntimeOptions (outcomes options moments entries)
      (specsOf entries) report) :
    report.failed = (failing options moments entries).length := by
  classical
  have hfailed := h.failed_eq (p := fun index ↦
    ∃ entry, entries[index]? = some entry ∧ Achieved options moments index entry) ?_
  · rw [hfailed, failing, List.length_map]
    simp only [decide_not]
  · intro result hresult
    obtain ⟨spec, hspec, -, hsuccess⟩ := h.results result hresult
    rw [List.getElem?_map, Option.map_eq_some_iff] at hspec
    obtain ⟨entry, hentry, rfl⟩ := hspec
    rw [Bool.eq_iff_iff, decide_eq_true_iff, hsuccess]
    simp only [hentry, Option.some_inj, exists_eq_left', Achieved, succeeds_iff,
      outcomes_ok_iff hentry]

theorem conclude_ok_iff {report : BatchRunReport} :
    conclude report = .ok () ↔ report.failed = 0 := by
  unfold conclude
  split_ifs with hpos
  · exact iff_of_false nofun hpos.ne'
  · exact iff_of_true rfl (Nat.eq_zero_of_not_pos hpos)

section Sample

def localEntry : BatchEntryWire :=
  { name := none, origin := "a.db", replica := "b.db", retries := some 1, timeoutSecs := none,
    retryBackoffMs := none, retryBackoffMaxMs := none, retryJitterPct := none, dryRun := none,
    grpcAuthToken := none }

/-- The file holds the one entry, in whatever format. -/
def localReader : ManifestReader :=
  ⟨fun _ ↦ .ok "", fun _ ↦ .ok [localEntry], fun _ ↦ .ok [localEntry], fun _ ↦ .ok [localEntry]⟩

def localArgs : Args :=
  { origin := none, replica := none, dryRun := false, exe := "rsqlite-rsync", sshOpts := [],
    sshAuth := .nonInteractive, sshConnectTimeout := 10, grpcAuthToken := none,
    batchManifest := some "batch.json".toList, batchFormat := .auto, batchJobs := 1,
    batchRetries := 0, batchTimeoutSecs := 0, batchRetryBackoffMs := 0, batchRetryBackoffMaxMs := 0,
    batchRetryJitterPct := 0, server := false, serverOrigin := false, serverReplica := false,
    ha := false }

def localOptions : BatchOptions := localArgs.runtimeOptions {}

/-- The first attempt finds the replica locked. -/
def lockedOnce : Moments := fun _ attempt ↦
  ⟨fun _ ↦ .error (.io "closed"), fun _ ↦ true,
    fun _ ↦ some (if attempt = 1 then .error (.err (.busy "locked")) else .ok ())⟩

theorem outcomes_lockedOnce (attempt : ℕ) :
    outcomes localOptions lockedOnce [localEntry] 0 attempt =
      some (if attempt = 1 then .error (.err (.busy "locked")) else .ok ()) := by
  have ha : Endpoint.parse "a.db".toList = .local "a.db".toList := by decide
  have hb : Endpoint.parse "b.db".toList = .local "b.db".toList := by decide
  simp only [outcomes, List.getElem?_cons_zero, Option.bind_some, runOneInner, localEntry, ha, hb]
  rfl

theorem noPanic_lockedOnce : NoPanic localOptions.toBatchRuntimeOptions
    (outcomes localOptions lockedOnce [localEntry]) (specsOf [localEntry]) := by
  intro item hitem attempt _ hpanics
  obtain rfl := List.mem_singleton.mp hitem
  rw [Panics, outcomes_lockedOnce, BatchSyncSpec.attempt] at hpanics
  split_ifs at hpanics <;> cases hpanics

theorem noHang_lockedOnce : NoHang localOptions.toBatchRuntimeOptions
    (outcomes localOptions lockedOnce [localEntry]) (specsOf [localEntry]) := by
  intro item hitem _ attempt
  obtain rfl := List.mem_singleton.mp hitem
  rw [outcomes_lockedOnce]
  exact Option.some_ne_none _

theorem failing_lockedOnce : failing localOptions lockedOnce [localEntry] = [] := by
  refine List.filter_eq_nil_iff.mpr fun index hindex ↦ ?_
  obtain rfl : index = 0 := by simpa using hindex
  have hsecond : Achieves localOptions (lockedOnce 0 2) localEntry := by
    have hentry : [localEntry][0]? = some localEntry := rfl
    exact (outcomes_ok_iff hentry).mp (outcomes_lockedOnce 2)
  simpa using ⟨2, by decide, by decide, hsecond⟩

end Sample

end Outcome

end RsqliteRsync.Cli
