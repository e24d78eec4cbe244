import RsqliteRsync.Foundation.WorkPool
import RsqliteRsync.Protocol.FailedWrite

namespace RsqliteRsync.Cli

open Protocol Foundation Foundation.Schedule

def nanosPerSec : ℕ := 1000000000

structure Duration where
  secs : UInt64
  nanos : Fin 1000000000

/-- The timeout is in nanoseconds. -/
structure BatchRuntimeOptions where
  jobs : ℕ
  defaultRetries : ℕ
  defaultTimeout : Option ℕ
  retryBackoffBase : Option Duration
  retryBackoffMax : Option Duration
  retryJitterPct : UInt8

structure BatchSyncSpec where
  name : Option String
  origin : String
  replica : String
  retries : Option ℕ
  timeoutSecs : Option ℕ
  retryBackoffMs : Option UInt64
  retryBackoffMaxMs : Option UInt64
  retryJitterPct : Option UInt8

structure BatchItemResult where
  index : ℕ
  id : String
  error : Option String

structure BatchRunReport where
  total : ℕ
  succeeded : ℕ
  failed : ℕ
  results : List BatchItemResult

def BatchItemResult.isSuccess (result : BatchItemResult) : Bool := result.error.isNone

namespace BatchSyncSpec

def identifier (spec : BatchSyncSpec) : String :=
  match spec.name with
  | some name => name
  | none => s!"{spec.origin} -> {spec.replica}"

def timeout (spec : BatchSyncSpec) (options : BatchRuntimeOptions) : Option ℕ :=
  (spec.timeoutSecs.map (· * nanosPerSec)).or options.defaultTimeout

def attemptCount (spec : BatchSyncSpec) (options : BatchRuntimeOptions) : ℕ :=
  min (spec.retries.getD options.defaultRetries + 1) (u32Bound - 1)

/-- How an attempt ends. The last argument is how the sync itself ends, if it does so in time; a
sync that does not end and has no timeout keeps the attempt from ending. -/
def attempt (spec : BatchSyncSpec) (options : BatchRuntimeOptions) :
    Option (Res Unit) → Option (Res Unit)
  | some outcome => some outcome
  | none => (spec.timeout options).map fun limit ↦
      .error (.err (.protocol s!"sync attempt timed out after {limit / nanosPerSec}s"))

end BatchSyncSpec

def finalError (attemptCount : ℕ) : Option SyncError → String
  | some err => s!"after {attemptCount} attempt(s): {err.display}"
  | none => s!"after {attemptCount} attempt(s): unknown batch error"

inductive Progress
  | attempting (attempt : ℕ)
  | returned (result : BatchItemResult)
  | panicked

structure Entry where
  progress : Progress
  made : List ℕ

def Entry.result (entry : Entry) : Option BatchItemResult :=
  match entry.progress with
  | .returned result => some result
  | .attempting _ | .panicked => none

def Entry.isPanicked (entry : Entry) : Bool :=
  match entry.progress with
  | .panicked => true
  | .attempting _ | .returned _ => false

/-- How the sync of a spec ends at each attempt. -/
abbrev World := ℕ → ℕ → Option (Res Unit)

section Runner

variable (options : BatchRuntimeOptions) (world : World)

def afterAttempt (spec : BatchSyncSpec) (index attempt : ℕ) : Res Unit → Progress
  | .ok () => .returned ⟨index, spec.identifier, none⟩
  | .error .panic => .panicked
  | .error (.err error) =>
    if attempt < spec.attemptCount options then .attempting (attempt + 1)
    else .returned ⟨index, spec.identifier,
      some (finalError (spec.attemptCount options) (some error))⟩

-- The entries are polled by the runner itself, so that a panic of one unwinds it.
def runOne : Job (BatchSyncSpec × ℕ) Entry where
  start _ := ⟨.attempting 1, []⟩
  advance item entry :=
    match entry.progress with
    | .returned _ | .panicked => none
    | .attempting attempt => (item.1.attempt options (world item.2 attempt)).map fun outcome ↦
        ⟨afterAttempt options item.1 item.2 attempt outcome, entry.made ++ [attempt]⟩
  finished entry := entry.result.isSome
  broken := Entry.isPanicked

abbrev Runner := WorkPool (BatchSyncSpec × ℕ) Entry

def startBatch (specs : List BatchSyncSpec) : Runner :=
  WorkPool.fill (runOne options world) (max options.jobs 1) [] [] specs.zipIdx

abbrev BatchStep : Runner → Runner → Prop := WorkPool.Step (runOne options world)

def report (runner : Runner) : BatchRunReport :=
  let results := (runner.received.filterMap fun e ↦ e.2.result).mergeSort
    fun a b ↦ decide (a.index ≤ b.index)
  let succeeded := (results.filter BatchItemResult.isSuccess).length
  ⟨results.length, succeeded, results.length - succeeded, results⟩

end Runner

section Entries

variable {options : BatchRuntimeOptions} {world : World} {item : BatchSyncSpec × ℕ} {entry : Entry}

def Succeeds (options : BatchRuntimeOptions) (world : World) (item : BatchSyncSpec × ℕ)
    (attempt : ℕ) : Prop :=
  item.1.attempt options (world item.2 attempt) = some (.ok ())

def Fails (options : BatchRuntimeOptions) (world : World) (item : BatchSyncSpec × ℕ)
    (attempt : ℕ) : Prop :=
  ∃ error, item.1.attempt options (world item.2 attempt) = some (.error (.err error))

def Panics (options : BatchRuntimeOptions) (world : World) (item : BatchSyncSpec × ℕ)
    (attempt : ℕ) : Prop :=
  item.1.attempt options (world item.2 attempt) = some (.error .panic)

/-- The attempt is among those to be made, and all before it fail. -/
structure Due (options : BatchRuntimeOptions) (world : World) (item : BatchSyncSpec × ℕ)
    (attempt : ℕ) : Prop where
  pos : 0 < attempt
  le : attempt ≤ item.1.attemptCount options
  earlier : ∀ earlier, 0 < earlier → earlier < attempt → Fails options world item earlier

theorem Fails.not_succeeds {attempt : ℕ} (h : Fails options world item attempt) :
    ¬ Succeeds options world item attempt := by
  intro hsucceeds
  obtain ⟨error, h⟩ := h
  cases h.symm.trans hsucceeds

theorem Fails.not_panics {attempt : ℕ} (h : Fails options world item attempt) :
    ¬ Panics options world item attempt := by
  intro hpanics
  obtain ⟨error, h⟩ := h
  cases h.symm.trans hpanics

theorem Succeeds.not_panics {attempt : ℕ} (h : Succeeds options world item attempt) :
    ¬ Panics options world item attempt := by
  intro hpanics
  cases Eq.trans (Eq.symm h) hpanics

theorem Due.next {attempt : ℕ} (h : Due options world item attempt)
    (hfails : Fails options world item attempt) :
    ∀ earlier, 0 < earlier → earlier ≤ attempt → Fails options world item earlier := by
  intro earlier hpos hle
  rcases hle.lt_or_eq with hlt | rfl
  · exact h.earlier earlier hpos hlt
  · exact hfails

/-- The attempts made are those up to the first that does not fail, as far as the count goes. -/
inductive Consistent (options : BatchRuntimeOptions) (world : World) (item : BatchSyncSpec × ℕ) :
    Entry → Prop
  | attempting {last : ℕ} : Due options world item (last + 1) →
      Consistent options world item ⟨.attempting (last + 1), List.range' 1 last⟩
  | succeeded {last : ℕ} : Due options world item (last + 1) →
      Succeeds options world item (last + 1) →
      Consistent options world item
        ⟨.returned ⟨item.2, item.1.identifier, none⟩, List.range' 1 (last + 1)⟩
  | panicked {last : ℕ} : Due options world item (last + 1) →
      Panics options world item (last + 1) →
      Consistent options world item ⟨.panicked, List.range' 1 (last + 1)⟩
  | failed {text : String} :
      (∀ attempt, 0 < attempt → attempt ≤ item.1.attemptCount options →
        Fails options world item attempt) →
      Consistent options world item
        ⟨.returned ⟨item.2, item.1.identifier, some text⟩,
          List.range' 1 (item.1.attemptCount options)⟩

theorem attemptCount_pos (spec : BatchSyncSpec) (options : BatchRuntimeOptions) :
    0 < spec.attemptCount options :=
  lt_min (Nat.succ_pos _) (by decide)

theorem due_one (item : BatchSyncSpec × ℕ) : Due options world item 1 :=
  ⟨Nat.one_pos, attemptCount_pos .., fun _ hpos hlt ↦ absurd hpos (by omega)⟩

theorem consistent_start (item : BatchSyncSpec × ℕ) :
    Consistent options world item ((runOne options world).start item) := .attempting (due_one item)

theorem Consistent.advance {entry' : Entry} (h : Consistent options world item entry)
    (hadvance : (runOne options world).advance item entry = some entry') :
    Consistent options world item entry' := by
  cases h with
  | succeeded => cases hadvance
  | panicked => cases hadvance
  | failed => cases hadvance
  | @attempting last hdue =>
    obtain ⟨outcome, houtcome, rfl⟩ := Option.map_eq_some_iff.mp hadvance
    have hmade : List.range' 1 last ++ [last + 1] = List.range' 1 (last + 1) := by
      rw [List.range'_1_concat, Nat.add_comm 1 last]
    rw [hmade]
    cases outcome with
    | ok => exact .succeeded hdue houtcome
    | error stop =>
      cases stop with
      | panic => exact .panicked hdue houtcome
      | err error =>
        have hall := hdue.next ⟨error, houtcome⟩
        unfold afterAttempt
        split_ifs with hmore
        · exact .attempting ⟨Nat.succ_pos _, hmore, fun earlier hpos hlt ↦
            hall earlier hpos (Nat.le_of_lt_succ hlt)⟩
        · obtain hcount : last + 1 = item.1.attemptCount options := hdue.le.antisymm (by omega)
          rw [hcount] at hall ⊢
          exact .failed hall

theorem Consistent.result {result : BatchItemResult} (h : Consistent options world item entry)
    (hresult : entry.result = some result) :
    result.index = item.2 ∧ result.id = item.1.identifier ∧
      (result.isSuccess = true ↔ ∃ attempt, 0 < attempt ∧
        attempt ≤ item.1.attemptCount options ∧ Succeeds options world item attempt) := by
  cases h with
  | attempting => cases hresult
  | panicked => cases hresult
  | @succeeded last hdue hsucceeds =>
    cases hresult
    exact ⟨rfl, rfl, iff_of_true rfl ⟨last + 1, hdue.pos, hdue.le, hsucceeds⟩⟩
  | failed hfails =>
    cases hresult
    refine ⟨rfl, rfl, iff_of_false Bool.false_ne_true ?_⟩
    intro ⟨attempt, hpos, hle, hsucceeds⟩
    exact (hfails attempt hpos hle).not_succeeds hsucceeds

theorem Consistent.le_of_succeeds (h : Consistent options world item entry) {a b : ℕ}
    (ha : a ∈ entry.made) (hb : b ∈ entry.made) (hsucceeds : Succeeds options world item a) :
    b ≤ a := by
  cases h with
  | @attempting last hdue =>
    rw [List.mem_range'_1] at ha
    exact absurd hsucceeds (hdue.earlier a ha.1 (by omega)).not_succeeds
  | failed hfails =>
    rw [List.mem_range'_1] at ha
    exact absurd hsucceeds (hfails a ha.1 (by omega)).not_succeeds
  | @succeeded last hdue _ | @panicked last hdue _ =>
    rw [List.mem_range'_1] at ha hb
    have hlast : ¬ a < last + 1 := fun hlt ↦
      (hdue.earlier a ha.1 hlt).not_succeeds hsucceeds
    omega

theorem Consistent.not_panics (h : Consistent options world item entry)
    (hreturned : entry.result.isSome = true) {attempt : ℕ}
    (hdue : Due options world item attempt) : ¬ Panics options world item attempt := by
  cases h with
  | attempting => cases hreturned
  | panicked => cases hreturned
  | failed hfails => exact (hfails attempt hdue.pos hdue.le).not_panics
  | @succeeded last hlast hsucceeds =>
    rcases Nat.lt_trichotomy attempt (last + 1) with hlt | rfl | hgt
    · exact (hlast.earlier attempt hdue.pos hlt).not_panics
    · exact hsucceeds.not_panics
    · exact absurd hsucceeds (hdue.earlier _ hlast.pos hgt).not_succeeds

theorem Consistent.panics (h : Consistent options world item entry)
    (hpanicked : entry.isPanicked = true) :
    ∃ attempt, Due options world item attempt ∧ Panics options world item attempt := by
  cases h with
  | attempting => cases hpanicked
  | succeeded => cases hpanicked
  | failed => cases hpanicked
  | panicked hdue hpanics => exact ⟨_, hdue, hpanics⟩

end Entries

section Run

variable {options : BatchRuntimeOptions} {world : World} {specs : List BatchSyncSpec}
  {runner : Runner}

def cost (options : BatchRuntimeOptions) (item : BatchSyncSpec × ℕ) (entry : Entry) : ℕ :=
  match entry.progress with
  | .attempting attempt => item.1.attemptCount options - attempt + 1
  | .returned _ | .panicked => 0

theorem cost_advance {item : BatchSyncSpec × ℕ} {entry entry' : Entry}
    (h : (runOne options world).advance item entry = some entry') :
    cost options item entry' < cost options item entry := by
  obtain ⟨progress, made⟩ := entry
  cases progress with
  | returned => cases h
  | panicked => cases h
  | attempting attempt =>
    obtain ⟨outcome, -, rfl⟩ := Option.map_eq_some_iff.mp h
    unfold afterAttempt
    split
    · exact Nat.succ_pos _
    · exact Nat.succ_pos _
    · split_ifs with hmore
      · simp only [cost]
        omega
      · exact Nat.succ_pos _

theorem run_length_le {n : ℕ} {start : Runner} (h : Run (BatchStep options world) n start runner) :
    n ≤ WorkPool.work (runOne options world) (cost options) start := by
  have hlength := h.length_le fun _ _ ↦ WorkPool.Step.work_lt fun _ _ _ ↦ cost_advance
  exact (Nat.le_add_right _ _).trans hlength

def Hangs (options : BatchRuntimeOptions) (world : World) (e : (BatchSyncSpec × ℕ) × Entry) :
    Prop :=
  ∃ attempt, e.2.progress = .attempting attempt ∧ world e.1.2 attempt = none ∧
    e.1.1.timeout options = none

theorem panicked_or_hangs_of_stuck (h : Stuck (BatchStep options world) runner) :
    (∃ e ∈ runner.inFlight, e.2.isPanicked = true) ∨
      ∀ e ∈ runner.inFlight, Hangs options world e := by
  refine (WorkPool.stuck_inFlight h).imp_right fun hstill ⟨item, entry⟩ he ↦ ?_
  obtain ⟨hintact, hadvance, hfinished⟩ := hstill _ he
  obtain ⟨progress, made⟩ := entry
  cases progress with
  | returned => cases hfinished
  | panicked => cases hintact
  | attempting attempt =>
    refine ⟨attempt, rfl, ?_⟩
    have hnone := Option.map_eq_none_iff.mp hadvance
    cases hworld : world item.2 attempt with
    | some outcome =>
      rw [hworld] at hnone
      cases hnone
    | none =>
      rw [hworld] at hnone
      exact ⟨rfl, Option.map_eq_none_iff.mp hnone⟩

/-- One result for each spec, in order, which is a success if one of the attempts is. -/
structure Complete (options : BatchRuntimeOptions) (world : World) (specs : List BatchSyncSpec)
    (report : BatchRunReport) : Prop where
  total : report.total = specs.length
  counted : report.succeeded + report.failed = report.total
  succeeded : report.succeeded = (report.results.filter BatchItemResult.isSuccess).length
  indices : report.results.map BatchItemResult.index = List.range specs.length
  results : ∀ result ∈ report.results, ∃ spec, specs[result.index]? = some spec ∧
    result.id = spec.identifier ∧
    (result.isSuccess = true ↔ ∃ attempt, 0 < attempt ∧
      attempt ≤ min (spec.retries.getD options.defaultRetries + 1) (2 ^ 32 - 1) ∧
      Succeeds options world (spec, result.index) attempt)

theorem map_index_filterMap {received : List ((BatchSyncSpec × ℕ) × Entry)}
    (h : ∀ e ∈ received, ∃ result, e.2.result = some result ∧ result.index = e.1.2) :
    (received.filterMap fun e ↦ e.2.result).map BatchItemResult.index =
      (received.map Prod.fst).map Prod.snd := by
  induction received with
  | nil => rfl
  | cons e received ih =>
    obtain ⟨⟨result, hresult, hindex⟩, hmore⟩ := List.forall_mem_cons.mp h
    simp only [List.filterMap_cons, hresult, List.map_cons, hindex, ih hmore]

theorem report_sorted (runner : Runner) :
    ((report runner).results.map BatchItemResult.index).Pairwise (· ≤ ·) := by
  rw [List.pairwise_map]
  apply (List.pairwise_mergeSort _ _ _).imp of_decide_eq_true
  · intro a b c hab hbc
    exact decide_eq_true ((of_decide_eq_true hab).trans (of_decide_eq_true hbc))
  · intro a b
    rw [Bool.or_eq_true, decide_eq_true_iff, decide_eq_true_iff]
    exact Nat.le_total a.index b.index

theorem report_indices
    (hreturned : ∀ e ∈ runner.received, ∃ result, e.2.result = some result ∧ result.index = e.1.2)
    (hitems : (runner.received.map Prod.fst).Perm specs.zipIdx) :
    (report runner).results.map BatchItemResult.index = List.range specs.length := by
  have hresults : ((report runner).results.map BatchItemResult.index).Perm
      ((runner.received.map Prod.fst).map Prod.snd) := by
    rw [← map_index_filterMap hreturned]
    exact (List.mergeSort_perm _ _).map _
  have hnumbers := hitems.map Prod.snd
  rw [List.zipIdx_map_snd, ← List.range_eq_range'] at hnumbers
  apply (hresults.trans hnumbers).eq_of_pairwise
  · intro a b _ _
    exact Nat.le_antisymm
  · exact report_sorted runner
  · exact List.pairwise_le_range

theorem complete_report
    (htasks : WorkPool.Tasks (runOne options world) (Consistent options world) runner)
    (hitems : (runner.received.map Prod.fst).Perm specs.zipIdx) :
    Complete options world specs (report runner) := by
  have hconsistent (e : (BatchSyncSpec × ℕ) × Entry) (he : e ∈ runner.received) :
      Consistent options world e.1 e.2 := htasks.holds e (List.mem_append_right _ he)
  have hindices : (report runner).results.map BatchItemResult.index = List.range specs.length := by
    apply report_indices _ hitems
    intro e he
    obtain ⟨result, hresult⟩ := Option.isSome_iff_exists.mp (htasks.finished e he)
    exact ⟨result, hresult, ((hconsistent e he).result hresult).1⟩
  have hlength : (report runner).results.length = specs.length := by
    rw [← List.length_range (n := specs.length), ← hindices, List.length_map]
  refine ⟨hlength, Nat.add_sub_of_le (List.length_filter_le ..), rfl, hindices, ?_⟩
  intro result hmem
  have hresult := (List.mergeSort_perm _ _).mem_iff.mp hmem
  obtain ⟨e, he, hresult⟩ := List.mem_filterMap.mp hresult
  obtain ⟨hindex, hid, hsuccess⟩ := (hconsistent e he).result hresult
  have hitem := hitems.mem_iff.mp (List.mem_map_of_mem he)
  rw [List.mem_zipIdx_iff_getElem?, ← hindex] at hitem
  refine ⟨e.1.1, hitem, hid, ?_⟩
  rw [hindex]
  exact hsuccess

theorem tasks_of_reaches
    (hreach : Reaches (BatchStep options world) (startBatch options world specs) runner) :
    WorkPool.Tasks (runOne options world) (Consistent options world) runner :=
  WorkPool.tasks_of_reaches (J := Consistent options world) consistent_start
    (fun _ _ _ h hadvance ↦ h.advance hadvance) hreach

theorem mem_zipIdx_of_inFlight
    (hreach : Reaches (BatchStep options world) (startBatch options world specs) runner) :
    ∀ e ∈ runner.inFlight, e.1 ∈ specs.zipIdx := by
  intro e he
  have hsound := WorkPool.sound_of_reaches hreach
  have hstarted : e.1 ∈ runner.started :=
    hsound.shared.mem_iff.mp (List.mem_map_of_mem (List.mem_append_left _ he))
  exact hsound.order ▸ List.mem_append_left _ hstarted

theorem done_of_reaches
    (hreach : Reaches (BatchStep options world) (startBatch options world specs) runner)
    (hdone : runner.inFlight = []) :
    runner.started = specs.zipIdx ∧ (runner.received.map Prod.fst).Perm specs.zipIdx ∧
      Complete options world specs (report runner) := by
  have hlimit : 0 < max options.jobs 1 := Nat.one_pos.trans_le (Nat.le_max_right ..)
  obtain ⟨hstarted, hitems⟩ := (WorkPool.sound_of_reaches hreach).done hlimit hdone
  exact ⟨hstarted, hitems, complete_report (tasks_of_reaches hreach) hitems⟩

end Run

section Specification

variable (options : BatchRuntimeOptions) (world : World) (specs : List BatchSyncSpec)

/-- Whatever the order in which entries go on and are received: no run is endless, the specs are
started one after the other, each once, with at most as many in flight as asked for (or one), and
no attempt is made after one that succeeds. The runner stands still only if an entry hangs or when
it returns, and then it has run all specs and its report is complete. -/
structure RunsAll : Prop where
  ends : ∃ bound, ∀ n runner,
    Run (BatchStep options world) n (startBatch options world specs) runner → n ≤ bound
  order : ∀ runner, Reaches (BatchStep options world) (startBatch options world specs) runner →
    runner.started <+: specs.zipIdx ∧ runner.inFlight.length ≤ max options.jobs 1
  attempts : ∀ runner, Reaches (BatchStep options world) (startBatch options world specs) runner →
    ∀ e ∈ runner.inFlight ++ runner.received, ∀ a ∈ e.2.made, ∀ b ∈ e.2.made,
      Succeeds options world e.1 a → b ≤ a
  returns : ∀ runner, Reaches (BatchStep options world) (startBatch options world specs) runner →
    Stuck (BatchStep options world) runner →
      runner.inFlight = [] ∨ ∃ e ∈ runner.inFlight, Hangs options world e
  complete : ∀ runner, Reaches (BatchStep options world) (startBatch options world specs) runner →
    runner.inFlight = [] →
      runner.started = specs.zipIdx ∧ Complete options world specs (report runner)

/-- No attempt that is made panics. -/
def NoPanic : Prop :=
  ∀ item ∈ specs.zipIdx, ∀ attempt, Due options world item attempt →
    ¬ Panics options world item attempt

/-- Every sync ends or has a timeout. -/
def NoHang : Prop :=
  ∀ item ∈ specs.zipIdx, item.1.timeout options = none → ∀ attempt, world item.2 attempt ≠ none

variable {options world specs} {runner : Runner}

theorem NoPanic.hangs_of_stuck (h : NoPanic options world specs)
    (hreach : Reaches (BatchStep options world) (startBatch options world specs) runner)
    (hstuck : Stuck (BatchStep options world) runner) :
    ∀ e ∈ runner.inFlight, Hangs options world e := by
  refine (panicked_or_hangs_of_stuck hstuck).resolve_left ?_
  rintro ⟨e, he, hpanicked⟩
  have hconsistent := (tasks_of_reaches hreach).holds e (List.mem_append_left _ he)
  obtain ⟨attempt, hdue, hpanics⟩ := hconsistent.panics hpanicked
  exact h e.1 (mem_zipIdx_of_inFlight hreach e he) attempt hdue hpanics

theorem NoHang.not_hangs (h : NoHang options world specs)
    (hreach : Reaches (BatchStep options world) (startBatch options world specs) runner) :
    ¬ ∃ e ∈ runner.inFlight, Hangs options world e := by
  rintro ⟨e, he, attempt, -, hworld, htimeout⟩
  exact h e.1 (mem_zipIdx_of_inFlight hreach e he) htimeout attempt hworld

theorem runsAll_of_noPanic (h : NoPanic options world specs) : RunsAll options world specs where
  ends := ⟨_, fun _ _ hrun ↦ run_length_le hrun⟩
  order runner hreach := by
    have hsound := WorkPool.sound_of_reaches hreach
    exact ⟨⟨_, hsound.order⟩, hsound.bound⟩
  attempts runner hreach e he a ha b hb hsucceeds :=
    ((tasks_of_reaches hreach).holds e he).le_of_succeeds ha hb hsucceeds
  returns runner hreach hstuck := by
    have hhangs := h.hangs_of_stuck hreach hstuck
    cases hflight : runner.inFlight with
    | nil => exact .inl rfl
    | cons e more => exact .inr ⟨e, List.mem_cons_self, hhangs e (hflight ▸ List.mem_cons_self)⟩
  complete runner hreach hdone :=
    ⟨(done_of_reaches hreach hdone).1, (done_of_reaches hreach hdone).2.2⟩

/-- A run that goes on as far as it can receives every entry, and none of them has panicked. -/
theorem RunsAll.noPanic (h : RunsAll options world specs) (hends : NoHang options world specs) :
    NoPanic options world specs := by
  intro item hitem attempt hdue
  obtain ⟨bound, hbound⟩ := h.ends
  obtain ⟨n, hsettles⟩ := settles_of_bounded hbound fun runner hreach hstuck ↦
    (h.returns runner hreach hstuck).resolve_right (hends.not_hangs hreach)
  obtain ⟨-, runner, hreach, -, hdone⟩ := hsettles 0 _ (.zero _)
  obtain ⟨-, hitems, -⟩ := done_of_reaches hreach hdone
  obtain ⟨e, he, rfl⟩ := List.mem_map.mp (hitems.mem_iff.mpr hitem)
  have htasks := tasks_of_reaches hreach
  exact (htasks.holds e (List.mem_append_right _ he)).not_panics (htasks.finished e he) hdue

end Specification

section Sample

def sampleOptions : BatchRuntimeOptions := ⟨0, 1, none, none, none, 0⟩

def sampleSpecs : List BatchSyncSpec :=
  [⟨some "first", "a.db", "b.db", none, none, none, none, none⟩,
    ⟨none, "c.db", "d.db", some 0, some 5, none, none, none⟩]

/-- The first sync fails once, and the second one does not end in time. -/
def sampleWorld : World
  | 0, 1 => some (.error (.err (.network "refused")))
  | 0, _ => some (.ok ())
  | _, _ => none

theorem noPanic_sampleWorld (specs : List BatchSyncSpec) :
    NoPanic sampleOptions sampleWorld specs := by
  intro ⟨spec, index⟩ _ attempt _ hpanics
  unfold Panics sampleWorld at hpanics
  split at hpanics
  · cases hpanics
  · cases hpanics
  · obtain ⟨_, _, hlimit⟩ := Option.map_eq_some_iff.mp hpanics
    cases hlimit

end Sample

end RsqliteRsync.Cli
