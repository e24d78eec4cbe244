import RsqliteRsync.Cli.BatchRunner
import RsqliteRsync.Foundation.MachineInt

namespace RsqliteRsync.Cli

open Foundation.MachineInt

namespace Duration

def asMillis (d : Duration) : ℕ := d.secs.toNat * 1000 + d.nanos / 1000000

def fromMillis (millis : UInt64) : Duration :=
  ⟨millis / 1000, ⟨(millis % 1000).toNat * 1000000, by
    have h : millis.toNat % 1000 < 1000 := Nat.mod_lt _ (by decide)
    rw [UInt64.toNat_mod]
    exact Nat.mul_lt_mul_of_pos_right h (by decide)⟩⟩

theorem asMillis_fromMillis (millis : UInt64) : (fromMillis millis).asMillis = millis.toNat := by
  have hsecs : (millis / 1000).toNat = millis.toNat / 1000 := UInt64.toNat_div ..
  have hnanos : (millis % 1000).toNat = millis.toNat % 1000 := UInt64.toNat_mod ..
  simp only [asMillis, fromMillis, hsecs, hnanos]
  omega

theorem asMillis_lt (d : Duration) : d.asMillis < 2 ^ 74 := by
  have hsecs := d.secs.toNat_lt
  have hnanos := d.nanos.isLt
  unfold asMillis
  omega

end Duration

section Core

def capDelay (max : Option Duration) (delayMs : ℕ) : ℕ :=
  match max with
  | some max => min delayMs max.asMillis
  | none => delayMs

def jitterDelay (jitterPct : UInt8) (entropyNanos : Fin (2 ^ 128)) (delayMs : ℕ) : Traced ℕ :=
  if 0 < jitterPct then do
    let product ← saturatingMul 128 delayMs jitterPct.toNat
    let jitterSpan := product / 100
    if 0 < jitterSpan then do
      let doubled ← saturatingMul 128 jitterSpan 2
      let range ← saturatingAdd 128 doubled 1
      if 0 < range then do
        let drawn ← toSigned 128 (entropyNanos % range)
        let span ← toSigned 128 jitterSpan
        let offset ← subSigned 128 drawn span
        let delay ← toSigned 128 delayMs
        let sum ← addSigned 128 delay offset
        toUnsigned 128 (max sum 0)
      else pure delayMs
    else pure delayMs
  else pure delayMs

def delayWithExponent (base : Duration) (max : Option Duration) (jitterPct : UInt8)
    (entropyNanos : Fin (2 ^ 128)) (exponent : ℕ) : Traced (Option Duration) := do
  let factor := 1 <<< exponent
  let product ← saturatingMul 128 base.asMillis factor
  let delayMs := capDelay max product
  if delayMs = 0 then pure none
  else do
    let delayMs ← jitterDelay jitterPct entropyNanos delayMs
    pure (some (.fromMillis (.ofNat (min delayMs (2 ^ 64 - 1)))))

def retryDelayForAttemptCore (base : Duration) (max : Option Duration) (jitterPct : UInt8)
    (attempt : UInt32) (entropyNanos : Fin (2 ^ 128)) : Traced (Option Duration) := do
  let earlier ← saturatingSub attempt.toNat 1
  delayWithExponent base max jitterPct entropyNanos (min earlier 31)

end Core

section Exact

variable {jitterPct : UInt8} {entropyNanos : Fin (2 ^ 128)} {delayMs : ℕ}

/-- The delay in milliseconds before it is spread. -/
def backoffMs (base : Duration) (max : Option Duration) (attempt : UInt32) : ℕ :=
  capDelay max (base.asMillis * 2 ^ min (attempt.toNat - 1) 31)

def jitterSpan (jitterPct : UInt8) (delayMs : ℕ) : ℕ := delayMs * jitterPct.toNat / 100

/-- The delay moved by what the entropy draws from the span on both sides of it. -/
def jittered (jitterPct : UInt8) (entropyNanos : Fin (2 ^ 128)) (delayMs : ℕ) : ℕ :=
  delayMs - jitterSpan jitterPct delayMs + entropyNanos % (2 * jitterSpan jitterPct delayMs + 1)

theorem jitterSpan_le (hj : jitterPct ≤ 100) : jitterSpan jitterPct delayMs ≤ delayMs := by
  have hpct : jitterPct.toNat ≤ 100 := hj
  apply Nat.div_le_of_le_mul
  rw [Nat.mul_comm 100]
  exact Nat.mul_le_mul_left _ hpct

theorem jittered_of_span (h : jitterSpan jitterPct delayMs = 0) :
    jittered jitterPct entropyNanos delayMs = delayMs := by
  rw [jittered, h, Nat.mod_one]
  rfl

theorem computes_jitterDelay (hj : jitterPct ≤ 100) (hdelay : delayMs < 2 ^ 105) :
    Computes Op.Exact (jitterDelay jitterPct entropyNanos delayMs)
      (jittered jitterPct entropyNanos delayMs) := by
  have hpct : jitterPct.toNat ≤ 100 := hj
  have hspan : jitterSpan jitterPct delayMs ≤ delayMs := jitterSpan_le hj
  have hproduct : delayMs * jitterPct.toNat < 2 ^ 128 :=
    (Nat.mul_le_mul_left _ hpct).trans_lt (by omega)
  have hdrawn : (entropyNanos : ℕ) % (jitterSpan jitterPct delayMs * 2 + 1) <
      jitterSpan jitterPct delayMs * 2 + 1 := Nat.mod_lt _ (Nat.succ_pos _)
  unfold jitterDelay
  split_ifs with hpos
  · apply (computes_saturatingMul hproduct).bind
    dsimp only
    rw [← jitterSpan]
    split_ifs with hspanned
    · apply (computes_saturatingMul (by omega)).bind
      apply (computes_saturatingAdd (by omega)).bind
      rw [if_pos (Nat.succ_pos _)]
      apply (computes_toSigned (by omega)).bind
      apply (computes_toSigned (by omega)).bind
      apply (computes_checkedSigned (by omega) (by omega)).bind
      apply (computes_toSigned (by omega)).bind
      apply (computes_checkedSigned (by omega) (by omega)).bind
      have hsum : max ((delayMs : ℤ) + (((entropyNanos : ℕ) %
          (jitterSpan jitterPct delayMs * 2 + 1) : ℕ) - (jitterSpan jitterPct delayMs : ℤ))) 0 =
          (jittered jitterPct entropyNanos delayMs : ℕ) := by
        rw [jittered, Nat.mul_comm 2]
        omega
      rw [hsum]
      apply computes_toUnsigned
      rw [jittered, Nat.mul_comm 2]
      omega
    · rw [jittered_of_span (by omega)]
      exact .pure _ _
  · have hzero : jitterPct.toNat = 0 := Nat.eq_zero_of_not_pos hpos
    rw [jittered_of_span (by rw [jitterSpan, hzero, Nat.mul_zero, Nat.zero_div])]
    exact .pure _ _

theorem capDelay_le (max : Option Duration) (delayMs : ℕ) : capDelay max delayMs ≤ delayMs := by
  cases max with
  | none => exact le_rfl
  | some max => exact min_le_left _ _

theorem asMillis_mul_lt (base : Duration) (attempt : UInt32) :
    base.asMillis * 2 ^ min (attempt.toNat - 1) 31 < 2 ^ 105 := by
  have hfactor : 2 ^ min (attempt.toNat - 1) 31 ≤ 2 ^ 31 :=
    Nat.pow_le_pow_right (by decide) (min_le_right _ _)
  calc base.asMillis * 2 ^ min (attempt.toNat - 1) 31
      ≤ base.asMillis * 2 ^ 31 := Nat.mul_le_mul_left _ hfactor
    _ < 2 ^ 74 * 2 ^ 31 := Nat.mul_lt_mul_of_pos_right base.asMillis_lt (by decide)
    _ = 2 ^ 105 := by decide

theorem backoffMs_lt (base : Duration) (max : Option Duration) (attempt : UInt32) :
    backoffMs base max attempt < 2 ^ 105 :=
  (capDelay_le max _).trans_lt (asMillis_mul_lt base attempt)

/-- The operations are exact, other than the subtraction at attempt 0, for which the exponent is
0. -/
def ExactAt (attempt : UInt32) (op : Op) : Prop :=
  op.Exact ∨ attempt = 0 ∧ op = .saturatingSub 0 1

theorem computes_delayWithExponent (base : Duration) (max : Option Duration) (attempt : UInt32)
    (entropyNanos : Fin (2 ^ 128)) (hj : jitterPct ≤ 100) :
    Computes Op.Exact
      (delayWithExponent base max jitterPct entropyNanos (min (attempt.toNat - 1) 31))
      (if backoffMs base max attempt = 0 then none
      else some (.fromMillis (.ofNat
        (min (jittered jitterPct entropyNanos (backoffMs base max attempt)) (2 ^ 64 - 1))))) := by
  have hproduct : base.asMillis * 1 <<< min (attempt.toNat - 1) 31 < 2 ^ 128 := by
    rw [Nat.one_shiftLeft]
    exact (asMillis_mul_lt base attempt).trans (by decide)
  unfold delayWithExponent
  apply (computes_saturatingMul hproduct).bind
  dsimp only
  rw [Nat.one_shiftLeft, ← backoffMs]
  split_ifs with hzero
  · exact .pure _ _
  · apply (computes_jitterDelay hj (backoffMs_lt ..)).bind
    exact .pure _ _

theorem retryDelayForAttemptCore_run (base : Duration) (max : Option Duration)
    (attempt : UInt32) (entropyNanos : Fin (2 ^ 128)) :
    (retryDelayForAttemptCore base max jitterPct attempt entropyNanos).run [] =
      (delayWithExponent base max jitterPct entropyNanos (min (attempt.toNat - 1) 31)).run
        [.saturatingSub attempt.toNat 1] := rfl

theorem computes_core (base : Duration) (max : Option Duration) (attempt : UInt32)
    (entropyNanos : Fin (2 ^ 128)) (hj : jitterPct ≤ 100) :
    Computes (ExactAt attempt)
      (retryDelayForAttemptCore base max jitterPct attempt entropyNanos)
      (if backoffMs base max attempt = 0 then none
      else some (.fromMillis (.ofNat
        (min (jittered jitterPct entropyNanos (backoffMs base max attempt)) (2 ^ 64 - 1))))) := by
  have hsub : ExactAt attempt (.saturatingSub attempt.toNat 1) := by
    rcases eq_or_ne attempt 0 with rfl | hne
    · exact .inr ⟨rfl, rfl⟩
    · have hpos : attempt.toNat ≠ 0 := fun h ↦ hne (UInt32.toNat_inj.mp h)
      exact .inl (Nat.one_le_iff_ne_zero.mpr hpos)
  apply (Computes.perform hsub _).bind
  apply (computes_delayWithExponent base max attempt entropyNanos hj).mono
  intro op hop
  exact .inl hop

theorem jittered_bounds (entropyNanos : Fin (2 ^ 128)) (delayMs : ℕ) (hj : jitterPct ≤ 100) :
    delayMs - jitterSpan jitterPct delayMs ≤ jittered jitterPct entropyNanos delayMs ∧
      jittered jitterPct entropyNanos delayMs ≤ delayMs + jitterSpan jitterPct delayMs := by
  have hspan : jitterSpan jitterPct delayMs ≤ delayMs := jitterSpan_le hj
  have hdrawn : (entropyNanos : ℕ) % (2 * jitterSpan jitterPct delayMs + 1) <
      2 * jitterSpan jitterPct delayMs + 1 := Nat.mod_lt _ (Nat.succ_pos _)
  unfold jittered
  omega

theorem exists_jittered {w : ℕ} (hj : jitterPct ≤ 100) (hdelay : delayMs < 2 ^ 105)
    (hlow : delayMs - jitterSpan jitterPct delayMs ≤ w)
    (hhigh : w ≤ delayMs + jitterSpan jitterPct delayMs) :
    ∃ entropyNanos, jittered jitterPct entropyNanos delayMs = w := by
  have hspan : jitterSpan jitterPct delayMs ≤ delayMs := jitterSpan_le hj
  refine ⟨⟨w - (delayMs - jitterSpan jitterPct delayMs), by omega⟩, ?_⟩
  unfold jittered
  rw [Nat.mod_eq_of_lt (by simp only; omega)]
  simp only
  omega

end Exact

/-- Every operation of the computation is exact, other than the subtraction of 1 from attempt 0;
there is no delay exactly if the capped one is zero, and else it is spread over its jitter span,
of which every value is drawn. -/
theorem retryDelayForAttemptCore_exact (base : Duration) (max : Option Duration)
    (jitterPct : UInt8) (attempt : UInt32) (hj : jitterPct ≤ 100) :
    ∃ v : Fin (2 ^ 128) → ℕ,
      (∀ entropyNanos, ∃ result log,
        (retryDelayForAttemptCore base max jitterPct attempt entropyNanos).run [] =
            some (result, log) ∧
          (∀ op ∈ log, op.Exact ∨ attempt = 0 ∧ op = .saturatingSub 0 1) ∧
          (result = none ↔ backoffMs base max attempt = 0) ∧
          (backoffMs base max attempt ≠ 0 →
            result = some (.fromMillis (.ofNat (min (v entropyNanos) (2 ^ 64 - 1))))) ∧
          backoffMs base max attempt - backoffMs base max attempt * jitterPct.toNat / 100 ≤
            v entropyNanos ∧
          v entropyNanos ≤
            backoffMs base max attempt + backoffMs base max attempt * jitterPct.toNat / 100) ∧
      ∀ w, backoffMs base max attempt - backoffMs base max attempt * jitterPct.toNat / 100 ≤ w →
        w ≤ backoffMs base max attempt + backoffMs base max attempt * jitterPct.toNat / 100 →
        ∃ entropyNanos, v entropyNanos = w := by
  refine ⟨fun entropyNanos ↦ jittered jitterPct entropyNanos (backoffMs base max attempt), ?_, ?_⟩
  · intro entropyNanos
    obtain ⟨log, hrun, hlog⟩ := computes_core base max attempt entropyNanos hj []
    rw [List.nil_append] at hrun
    refine ⟨_, log, hrun, hlog, ?_, fun hne ↦ if_neg hne, jittered_bounds _ _ hj⟩
    by_cases hzero : backoffMs base max attempt = 0
    · rw [if_pos hzero]
      exact iff_of_true rfl hzero
    · rw [if_neg hzero]
      exact iff_of_false (Option.some_ne_none _) hzero
  · intro w hlow hhigh
    exact exists_jittered hj (backoffMs_lt ..) hlow hhigh

theorem retryDelay_fifteen_percent : ∃ v : Fin (2 ^ 128) → ℕ,
    (∀ entropyNanos, 85 ≤ v entropyNanos ∧ v entropyNanos ≤ 115 ∧ ∃ log,
      (retryDelayForAttemptCore (.fromMillis 100) none 15 1 entropyNanos).run [] =
        some (some (.fromMillis (.ofNat (min (v entropyNanos) (2 ^ 64 - 1)))), log)) ∧
      ∃ entropyNanos, v entropyNanos = 115 := by
  have hdelay : backoffMs (.fromMillis 100) none 1 = 100 := rfl
  obtain ⟨v, hcomputed, hreached⟩ :=
    retryDelayForAttemptCore_exact (.fromMillis 100) none 15 1 (by decide)
  rw [hdelay] at hcomputed hreached
  refine ⟨v, ?_, hreached 115 (by decide) (by decide)⟩
  intro entropyNanos
  obtain ⟨result, log, hrun, -, -, hresult, hlow, hhigh⟩ := hcomputed entropyNanos
  rw [hresult (by decide)] at hrun
  exact ⟨hlow, hhigh, log, hrun⟩

/-- Attempt 0 has no attempt before it. -/
theorem retryDelay_saturates_at_zero : ∃ result log,
    (retryDelayForAttemptCore (.fromMillis 100) none 0 0 0).run [] = some (result, log) ∧
      ∃ op ∈ log, ¬ op.Exact := by
  have hpct : (0 : UInt8) ≤ 100 := UInt8.zero_le
  obtain ⟨ops, hrun, -⟩ :=
    computes_delayWithExponent (.fromMillis 100) none 0 0 hpct
      [.saturatingSub (0 : UInt32).toNat 1]
  rw [← retryDelayForAttemptCore_run] at hrun
  refine ⟨_, _, hrun, _, List.mem_cons_self, ?_⟩
  exact Nat.not_succ_le_zero 0

section Backoff

namespace BatchSyncSpec

variable (spec : BatchSyncSpec) (options : BatchRuntimeOptions)

def backoffBase : Option Duration :=
  ((spec.retryBackoffMs.or (options.retryBackoffBase.map fun d ↦ .ofNat d.asMillis)).filter
    (0 < ·)).map .fromMillis

def backoffMaxMs : Option UInt64 :=
  spec.retryBackoffMaxMs.or (options.retryBackoffMax.map fun d ↦ .ofNat d.asMillis)

def backoffMax : Option Duration := ((spec.backoffMaxMs options).filter (0 < ·)).map .fromMillis

def backoffJitterPct : UInt8 := spec.retryJitterPct.getD options.retryJitterPct

def effectiveOptions : BatchRuntimeOptions :=
  { options with
    retryBackoffBase := spec.backoffBase options
    retryBackoffMax := spec.backoffMax options
    retryJitterPct := spec.backoffJitterPct options }

end BatchSyncSpec

/-- The last argument is the time since 1970. -/
def retryDelayForAttempt (options : BatchRuntimeOptions) (attempt : UInt32)
    (nowNanos : Fin (2 ^ 128)) : Traced (Option Duration) :=
  match options.retryBackoffBase with
  | none => pure none
  | some base => retryDelayForAttemptCore base options.retryBackoffMax options.retryJitterPct
      attempt nowNanos

/-- After this attempt has failed the next one waits for that long. -/
def Sleeps (spec : BatchSyncSpec) (options : BatchRuntimeOptions) (attempt : UInt32)
    (delay : Duration) : Prop :=
  ∃ nowNanos log, (retryDelayForAttempt (spec.effectiveOptions options) attempt nowNanos).run [] =
    some (some delay, log)

variable {spec : BatchSyncSpec} {options : BatchRuntimeOptions} {attempt : UInt32}

theorem sleeps_iff {base delay : Duration} (hbase : spec.backoffBase options = some base)
    (hj : spec.backoffJitterPct options ≤ 100) :
    Sleeps spec options attempt delay ↔
      backoffMs base (spec.backoffMax options) attempt ≠ 0 ∧ ∃ nowNanos,
        delay = .fromMillis (.ofNat (min (jittered (spec.backoffJitterPct options) nowNanos
          (backoffMs base (spec.backoffMax options) attempt)) (2 ^ 64 - 1))) := by
  have hdelay (nowNanos : Fin (2 ^ 128)) :
      retryDelayForAttempt (spec.effectiveOptions options) attempt nowNanos =
        retryDelayForAttemptCore base (spec.backoffMax options) (spec.backoffJitterPct options)
          attempt nowNanos := by
    simp only [retryDelayForAttempt, BatchSyncSpec.effectiveOptions, hbase]
  simp only [Sleeps, hdelay]
  constructor
  · intro ⟨nowNanos, log, hrun⟩
    have hvalue := (computes_core base (spec.backoffMax options) attempt nowNanos hj).unique hrun
    split_ifs at hvalue with hzero
    exact ⟨hzero, nowNanos, Option.some.inj hvalue⟩
  · intro ⟨hzero, nowNanos, hvalue⟩
    obtain ⟨log, hrun, -⟩ := computes_core base (spec.backoffMax options) attempt nowNanos hj []
    rw [if_neg hzero, ← hvalue] at hrun
    exact ⟨nowNanos, _, hrun⟩

theorem asMillis_clamped (n : ℕ) :
    (Duration.fromMillis (.ofNat (min n (2 ^ 64 - 1)))).asMillis = min n (2 ^ 64 - 1) := by
  rw [Duration.asMillis_fromMillis, UInt64.toNat_ofNat_of_lt']
  rw [UInt64.size]
  omega

end Backoff

/-- No delay is longer than the maximum exactly if the capped delay with its jitter span on top
is not, or if the maximum is the largest there is. -/
theorem sleeps_le_max_iff (spec : BatchSyncSpec) (options : BatchRuntimeOptions)
    (attempt : UInt32) (maxMs : UInt64) (hmax : spec.backoffMaxMs options = some maxMs)
    (hpos : 0 < maxMs) (hj : spec.backoffJitterPct options ≤ 100) :
    (∀ delay, Sleeps spec options attempt delay → delay.asMillis ≤ maxMs.toNat) ↔
      maxMs.toNat = 2 ^ 64 - 1 ∨ ∀ base, spec.backoffBase options = some base →
        backoffMs base (some (.fromMillis maxMs)) attempt +
          jitterSpan (spec.backoffJitterPct options)
            (backoffMs base (some (.fromMillis maxMs)) attempt) ≤ maxMs.toNat := by
  have hcap : spec.backoffMax options = some (.fromMillis maxMs) := by
    simp [BatchSyncSpec.backoffMax, hmax, hpos]
  cases hbase : spec.backoffBase options with
  | none =>
    refine iff_of_true ?_ (.inr fun base h ↦ by cases h)
    intro delay ⟨nowNanos, log, hrun⟩
    simp only [retryDelayForAttempt, BatchSyncSpec.effectiveOptions, hbase] at hrun
    cases hrun
  | some base =>
    simp only [sleeps_iff hbase hj, hcap, Option.some.injEq, forall_eq']
    constructor
    · intro h
      by_cases hzero : backoffMs base (some (.fromMillis maxMs)) attempt = 0
      · right
        rw [hzero, jitterSpan, Nat.zero_mul]
        exact Nat.zero_le _
      · obtain ⟨nowNanos, hdrawn⟩ :=
          exists_jittered hj (backoffMs_lt base (some (.fromMillis maxMs)) attempt)
            ((Nat.sub_le _ _).trans (Nat.le_add_right _ _)) le_rfl
        have hle := h _ ⟨hzero, nowNanos, rfl⟩
        have hlt := maxMs.toNat_lt
        rw [asMillis_clamped, hdrawn] at hle
        omega
    · intro h delay ⟨_, nowNanos, hdelay⟩
      have hhigh :=
        (jittered_bounds nowNanos (backoffMs base (some (.fromMillis maxMs)) attempt) hj).2
      rw [hdelay, asMillis_clamped]
      omega

section Sample

def sampleSpec (jitterPct : UInt8) : BatchSyncSpec :=
  ⟨none, "a.db", "b.db", some 3, none, some 100, some 250, some jitterPct⟩

end Sample

theorem sleeps_le_max_no_jitter : (∃ delay, Sleeps (sampleSpec 0) sampleOptions 3 delay) ∧
    ∀ delay, Sleeps (sampleSpec 0) sampleOptions 3 delay → delay.asMillis ≤ 250 := by
  have hbase : (sampleSpec 0).backoffBase sampleOptions = some (.fromMillis 100) := rfl
  constructor
  · exact ⟨_, (sleeps_iff hbase (by decide)).mpr ⟨by decide, 0, rfl⟩⟩
  · apply (sleeps_le_max_iff _ sampleOptions 3 250 rfl (by decide) (by decide)).mpr
    right
    intro base h
    rw [hbase] at h
    cases h
    decide

/-- Fifteen percent of jitter on a delay that has reached its maximum. -/
theorem sleeps_beyond_max :
    ∃ delay, Sleeps (sampleSpec 15) sampleOptions 3 delay ∧ 250 < delay.asMillis := by
  have hbase : (sampleSpec 15).backoffBase sampleOptions = some (.fromMillis 100) := rfl
  refine ⟨_, (sleeps_iff hbase (by decide)).mpr ⟨by decide, 74, rfl⟩, ?_⟩
  rw [asMillis_clamped]
  decide

end RsqliteRsync.Cli
