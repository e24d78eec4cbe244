import RsqliteRsync.Foundation.Conduct
import RsqliteRsync.Protocol.Progress

namespace RsqliteRsync.Db

open Protocol Foundation.PagedFile

/-- Which writes fail, by the number of those before: with what error and after how many bytes. -/
abbrev Faults := ℕ → Option (SyncError × ℕ)

namespace Disk

def torn (d : Disk) (offset : ℕ) (data : List UInt8) : Disk :=
  ⟨if data = [] then d.file else overwrite 0 d.file offset data, d.writes⟩

def faulty (faults : Faults) (pageSize : ℕ) : (e : ConnOp) → Disk → e.Reply × Disk
  | .pageCount, d => handle pageSize .pageCount d
  | .serialize, d => handle pageSize .serialize d
  | .writeAt offset data, d =>
    match faults d.writes.length with
    | none => handle pageSize (.writeAt offset data) d
    | some (e, part) => (.error e, d.torn offset (data.take part))

end Disk

end RsqliteRsync.Db

namespace RsqliteRsync.Protocol

open Foundation.Process Foundation.Schedule Foundation.Conduct Foundation.HalfDuplex Db

namespace Replica

section Conduct

variable {α : Type} {conn : Connection}

/-- Where a write leads: to its error, or to something that the replica has to say. -/
def AfterWrite : (e : ConnOp) → e.Reply → ReplicaHandler α → Prop
  | .writeAt _ _, .error e, q => q = .fail (.err e)
  | .writeAt _ _, .ok _, q => MustSend q
  | _, _, _ => True

theorem AfterWrite.bind {β : Type} {f : α → ReplicaHandler β} (e : ConnOp) (a : e.Reply)
    (q : ReplicaHandler α) (h : AfterWrite e a q) : AfterWrite e a (q >>= f) := by
  cases e with
  | pageCount | serialize => trivial
  | writeAt offset data =>
    cases a with
    | error x =>
      rw [show q = .fail (.err x) from h]
      rfl
    | ok u => exact MustSend.bind h

abbrev Careful (p : ReplicaHandler α) : Prop := Calls AfterWrite p

theorem careful_bind {β : Type} {p : ReplicaHandler α} {f : α → ReplicaHandler β} (h : Careful p)
    (hf : ∀ a, Careful (f a)) : Careful (p >>= f) := h.bind AfterWrite.bind hf

theorem careful_orFail (x : Except SyncError α) : Careful (orFail x) := by
  cases x <;> trivial

theorem careful_lift (x : Res α) : Careful (lift x) := by
  cases x <;> trivial

theorem careful_send (m : Message) : Careful (send m) := careful_orFail

theorem careful_recv : Careful recv := careful_orFail

theorem careful_violation (message : String) :
    Careful (protocolViolation message : ReplicaHandler α) := fun _ ↦ trivial

variable (conn)

theorem careful_pageCount : Careful Connection.pageCount := fun a ↦ ⟨trivial, careful_orFail a⟩

theorem careful_currentBytes (n : ℕ) : Careful (currentBytes n) := by
  unfold currentBytes
  split
  · trivial
  · exact fun a ↦ ⟨trivial, careful_orFail a⟩

theorem mustSend_applyPages {f : Unit → ReplicaHandler α} (hf : MustSend (f ()))
    (pages : List PageData) : MustSend (applyPages conn pages >>= f) := by
  induction pages with
  | nil => exact hf
  | cons page pages ih =>
    rw [applyPages, Connection.writePage]
    split_ifs
    · trivial
    · trivial
    · intro a
      cases a with
      | error e => trivial
      | ok u => exact ih
    · trivial

theorem careful_applyPages {f : Unit → ReplicaHandler α} (hf : MustSend (f ()))
    (hcalls : Careful (f ())) (pages : List PageData) : Careful (applyPages conn pages >>= f) := by
  induction pages with
  | nil => exact hcalls
  | cons page pages ih =>
    rw [applyPages, Connection.writePage]
    split_ifs
    · trivial
    · trivial
    · intro a
      cases a with
      | error e => exact ⟨rfl, trivial⟩
      | ok u => exact ⟨mustSend_applyPages conn hf pages, ih⟩
    · trivial

theorem careful_onAnswer (pending : ℕ) {next : ReplicaHandler Unit} (h : Careful next)
    (m : Message) : Careful (onAnswer conn pending next m) := by
  cases m with
  | sendPages pages =>
    refine careful_applyPages conn ?_ (careful_bind (careful_send _) fun _ ↦ h) pages
    trivial
  | done =>
    rw [onAnswer]
    split
    · exact careful_violation _
    · trivial
  | error message => trivial
  | _ => exact careful_violation _

theorem careful_expectDone (violation : String) (m : Message) :
    Careful (expectDone violation m) := by
  cases m with
  | done => trivial
  | _ => exact careful_violation _

theorem careful_finePass (hashes : List PageHash) (n : ℕ) (gs : List ℕ) :
    Careful (finePass conn hashes n gs) := by
  induction gs with
  | nil => exact careful_bind careful_recv (careful_expectDone _)
  | cons g gs ih =>
    refine careful_bind (careful_lift _) fun x ↦ careful_bind (careful_send _) fun _ ↦ ?_
    exact careful_bind careful_recv (careful_onAnswer conn _ ih)

theorem careful_handshake (n : ℕ) : Careful (handshake conn n) := by
  refine careful_bind (careful_send _) fun _ ↦ careful_bind careful_recv fun ack ↦ ?_
  refine careful_bind ?_ fun version ↦ ?_
  · cases ack with
    | helloAck version size count => trivial
    | error message => trivial
    | _ => exact careful_violation _
  · split
    · trivial
    · split <;> trivial

theorem careful_runWithTuning (lib : Crates) (tuning : SyncTuning) :
    Careful (runWithTuning lib conn tuning) := by
  refine careful_bind careful_pageCount fun n ↦ careful_bind (careful_handshake conn n) fun _ ↦ ?_
  refine careful_bind (careful_currentBytes n) fun bytes ↦ careful_bind (careful_lift _) fun hs ↦ ?_
  refine careful_bind (careful_lift _) fun gs ↦ careful_bind (careful_send _) fun _ ↦ ?_
  refine careful_bind careful_recv fun msg ↦ careful_bind ?_ fun groups ↦ ?_
  · cases msg with
    | groupsNeedFine groups => trivial
    | error message => trivial
    | _ => exact careful_violation _
  · split
    · exact careful_bind careful_recv (careful_expectDone _)
    · exact careful_finePass conn hs n groups

end Conduct

end Replica

namespace Session

open Foundation.PagedFile

variable {lib : Crates} {o r : Image} {conn : Connection} {tO tR : SyncTuning} {faults : Faults}
  {size : ℕ} {x x' y z : State Disk}

section Simulation

def Spared (faults : Faults) (d : Disk) : Prop := ∀ k < d.writes.length, faults k = none

/-- The replica of `x` has failed in the write that the replica of `y` is about to make. -/
structure Failed (faults : Faults) (y x : State Disk) : Prop where
  left : x.left = y.left
  right : ∃ offset data k e part, y.right.proc = .call (.writeAt offset data) k ∧
    faults y.right.store.writes.length = some (e, part) ∧
    x.right = ⟨.fail (.err e), y.right.store.torn offset (data.take part), y.right.sent,
      y.right.taken⟩

theorem faulty_step (hcareful : Replica.Careful x.right.proc)
    (hspared : Spared faults x.right.store) (h : Moves (Disk.faulty faults size) x x') :
    (Moves (Disk.handle size) x x' ∧ Spared faults x'.right.store) ∨ Failed faults x x' := by
  cases h with
  | left hadv => exact .inl ⟨.left hadv, hspared⟩
  | @right l p q hadv =>
    rcases p with ⟨proc, d, sent, taken⟩
    cases proc with
    | ret u | fail f => simp [Party.advance] at hadv
    | send m k =>
      simp only [Party.advance, Option.some.injEq] at hadv
      exact .inl ⟨.right (by simp [Party.advance, hadv]), hadv ▸ hspared⟩
    | recv k =>
      simp only [Party.advance, Option.map_eq_some_iff] at hadv
      obtain ⟨m, hm, rfl⟩ := hadv
      exact .inl ⟨.right (by simp [Party.advance, hm]), hspared⟩
    | call e k =>
      simp only [Party.advance, Option.some.injEq] at hadv
      subst hadv
      cases e with
      | pageCount => exact .inl ⟨.right rfl, hspared⟩
      | serialize => exact .inl ⟨.right rfl, hspared⟩
      | writeAt offset data =>
        cases hfault : faults d.writes.length with
        | none =>
          have hwrite : Disk.faulty faults size (.writeAt offset data) d =
              Disk.handle size (.writeAt offset data) d := by
            simp only [Disk.faulty, hfault]
          rw [hwrite]
          refine .inl ⟨.right rfl, fun n hn ↦ ?_⟩
          rw [Disk.handle, List.length_append, List.length_singleton,
            Nat.lt_succ_iff_lt_or_eq] at hn
          rcases hn with hn | rfl
          · exact hspared n hn
          · exact hfault
        | some fault =>
          obtain ⟨e, part⟩ := fault
          have hwrite : Disk.faulty faults size (.writeAt offset data) d =
              (.error e, d.torn offset (data.take part)) := by
            simp only [Disk.faulty, hfault]
          rw [hwrite]
          refine .inr ⟨rfl, offset, data, k, e, part, rfl, hfault, ?_⟩
          rw [show k (.error e) = .fail (.err e) from (hcareful (.error e)).1]

theorem Failed.step (hfailed : Failed faults y x) (h : Moves (Disk.faulty faults size) x x') :
    ∃ y', Moves (Disk.handle size) y y' ∧ y'.right.store = y.right.store ∧ Failed faults y' x' := by
  obtain ⟨hleft, offset, data, k, e, part, hproc, hfault, hright⟩ := hfailed
  rcases y with ⟨l, p⟩
  cases h with
  | @left _ l' q hadv =>
    dsimp only at *
    rw [hleft, hright] at hadv
    exact ⟨⟨l', p⟩, .left hadv, rfl, rfl, offset, data, k, e, part, hproc, hfault, hright⟩
  | right hadv =>
    dsimp only at *
    rw [hright] at hadv
    cases hadv

theorem stuck_of_faulty (h : Stuck (Moves (Disk.faulty faults size)) x) :
    Stuck (Moves (Disk.handle size)) x := by
  intro x' hx'
  cases hx' with
  | left hadv => exact h _ (.left hadv)
  | right hadv =>
    obtain ⟨q', hq'⟩ := Party.advance_other hadv (Disk.faulty faults size)
    exact h _ (.right hq')

/-- How many steps a session on the faulty disk can still take: it is where the sound one is, or its
replica has failed there. -/
def FaultRank (faults : Faults) (size : ℕ) (a z x : State Disk) (n : ℕ) : Prop :=
  ∃ y k, Reaches (Moves (Disk.handle size)) a y ∧ Run (Moves (Disk.handle size)) k y z ∧
    Spared faults y.right.store ∧ (x = y ∧ n = k + 1 ∨ Failed faults y x ∧ n = k)

theorem FaultRank.step {a : State Disk} {n : ℕ} (hstuck : Stuck (Moves (Disk.handle size)) z)
    (hcareful : Replica.Careful a.right.proc) (h : FaultRank faults size a z x n)
    (hstep : Moves (Disk.faulty faults size) x x') :
    ∃ n' < n, FaultRank faults size a z x' n' := by
  obtain ⟨y, k, hy, hk, hspared, ⟨rfl, rfl⟩ | ⟨hfailed, rfl⟩⟩ := h
  · rcases faulty_step (reaches_right_calls hy hcareful) hspared hstep with
      ⟨hmove, hspared'⟩ | hfailed
    · obtain ⟨k', rfl, hk'⟩ := (diamond _ _).shorten hstuck hk hmove
      exact ⟨k' + 1, by omega, x', k', hy.tail hmove, hk', hspared', .inl ⟨rfl, rfl⟩⟩
    · exact ⟨k, by omega, x, k, hy, hk, hspared, .inr ⟨hfailed, rfl⟩⟩
  · obtain ⟨y', hmove, hstore, hfailed'⟩ := hfailed.step hstep
    obtain ⟨k', rfl, hk'⟩ := (diamond _ _).shorten hstuck hk hmove
    exact ⟨k', by omega, y', k', hy.tail hmove, hk', hstore ▸ hspared, .inr ⟨hfailed', rfl⟩⟩

variable {a : State Disk} {k : ℕ}

theorem faultRank_start (hk : Run (Moves (Disk.handle size)) k a z)
    (ha : a.right.store.writes = []) : FaultRank faults size a z a (k + 1) := by
  refine ⟨a, k, .refl a, hk, fun n hn ↦ ?_, .inl ⟨rfl, rfl⟩⟩
  rw [ha] at hn
  exact absurd hn (Nat.not_lt_zero n)

theorem faulty_run_le {m : ℕ} (hstuck : Stuck (Moves (Disk.handle size)) z)
    (hcareful : Replica.Careful a.right.proc) (hk : Run (Moves (Disk.handle size)) k a z)
    (ha : a.right.store.writes = []) (hx : Run (Moves (Disk.faulty faults size)) m a x) :
    m ≤ k + 1 :=
  hx.length_le_rank (fun _ _ _ h hstep ↦ h.step hstuck hcareful hstep) (faultRank_start hk ha)

/-- A session on the faulty disk is a sound one up to the write that fails. -/
theorem faulty_reaches (hstuck : Stuck (Moves (Disk.handle size)) z)
    (hcareful : Replica.Careful a.right.proc) (hz : Reaches (Moves (Disk.handle size)) a z)
    (ha : a.right.store.writes = []) (hx : Reaches (Moves (Disk.faulty faults size)) a x) :
    ∃ y, Reaches (Moves (Disk.handle size)) a y ∧ Reaches (Moves (Disk.handle size)) y z ∧
      Spared faults y.right.store ∧ (x = y ∨ Failed faults y x) := by
  obtain ⟨k, hk⟩ := hz
  obtain ⟨n, y, j, hy, hj, hspared, hwhere⟩ := hx.invariant
    (I := fun x ↦ ∃ n, FaultRank faults size a z x n) ⟨_, faultRank_start hk ha⟩
    fun c d _ hc hstep ↦ by
      obtain ⟨f, hf⟩ := hc
      obtain ⟨f', -, hf'⟩ := hf.step hstuck hcareful hstep
      exact ⟨f', hf'⟩
  exact ⟨y, hy, ⟨j, hj⟩, hspared, hwhere.imp And.left And.left⟩

end Simulation

section Outcome

def spliced (o r : Image) (n : ℕ) : List UInt8 := o.bytes.take n ++ r.bytes.drop n

theorem placed_concat {n : ℕ} {writes : List (ℕ × List UInt8)} {offset : ℕ} {data : List UInt8}
    (h : writes ++ [(offset, data)] = placed size (differingPages o r n)) :
    ∃ m < n, writes = placed size (differingPages o r m) ∧ offset = m * size ∧
      data = o.page (m + 1) := by
  induction n with
  | zero => simp [differingPages, placed, asWrites] at h
  | succ n ih =>
    rw [differingPages_succ] at h
    split at h
    case isTrue hd =>
      rw [placed, asWrites, List.map_append, List.map_append, ← asWrites, ← placed] at h
      obtain ⟨hw, hlast⟩ := List.append_inj' h rfl
      cases hlast
      exact ⟨n, Nat.lt_succ_self n, hw, rfl, rfl⟩
    case isFalse hd =>
      rw [List.append_nil] at h
      obtain ⟨m, hm, hrest⟩ := ih h
      exact ⟨m, hm.trans (Nat.lt_succ_self n), hrest⟩

theorem torn_mixture {n : ℕ} (hn : n < o.pageCount) {d : Disk} (hd : d.file = mixture o r n)
    (part : ℕ) :
    ∃ m ≤ o.bytes.length,
      (d.torn (n * o.pageSize) ((o.page (n + 1)).take part)).file = spliced o r m := by
  have hpage : (o.page (n + 1)).take part =
      (o.bytes.drop (n * o.pageSize)).take (min part o.pageSize) := List.take_take
  have hlen : ((o.page (n + 1)).take part).length = min part o.pageSize := by
    rw [List.length_take, o.length_page (Nat.succ_pos n) hn]
  have hover := overwrite_append 0 (o.bytes.take (n * o.pageSize))
    (r.bytes.drop (n * o.pageSize)) ((o.page (n + 1)).take part)
  rw [length_take_pages hn.le, hlen, hpage, ← List.take_add, List.drop_drop] at hover
  refine ⟨n * o.pageSize + min part o.pageSize, ?_, ?_⟩
  · have hmul := Nat.mul_le_mul_right o.pageSize (Nat.succ_le_of_lt hn)
    rw [Nat.succ_mul] at hmul
    rw [o.length_eq]
    omega
  · rw [Disk.torn]
    split
    case isTrue hnil =>
      rw [hnil, List.length_nil] at hlen
      rw [hd, ← hlen, Nat.add_zero]
      rfl
    case isFalse hne =>
      rw [hd, hpage]
      exact hover

/-- What `sync_local` returns if it ends in this state: once both handlers have ended, the first
error of the two or the result of the commit. Until then the timer may end it at any moment. A panic
is not held back. -/
def syncLocal (commit : Except SyncError Unit) (z : State Disk) : Res Unit :=
  match z.left.proc, z.right.proc with
  | .fail .panic, _ | _, .fail .panic => panic
  | .fail e, .ret _ | .fail e, .fail _ => .error e
  | .ret _, .fail e => .error e
  | .ret _, .ret _ => commit.mapError .err
  | _, _ => .error (.err (.protocol "local sync timed out"))

theorem syncLocal_of_panic {commit : Except SyncError Unit}
    (h : z.left.proc = .fail .panic ∨ z.right.proc = .fail .panic) :
    syncLocal commit z = panic := by
  rcases h with h | h
  · rw [syncLocal, h]
  · rw [syncLocal, h]
    split <;> simp_all

theorem syncLocal_times_out {commit : Except SyncError Unit}
    (hruns : ¬ (Ended z.left.proc ∧ Ended z.right.proc)) (hleft : z.left.proc ≠ .fail .panic)
    (hright : z.right.proc ≠ .fail .panic) :
    syncLocal commit z = .error (.err (.protocol "local sync timed out")) := by
  unfold syncLocal
  split
  all_goals first | rfl | simp_all [Ended]

theorem not_failed_of_reaches {step : (e : ConnOp) → Disk → e.Reply × Disk}
    (h : Reaches (Moves step) y z) (hleft : z.left.proc = .ret ()) (hright : z.right.proc = .ret ())
    (stop : Stop) : y.left.proc ≠ .fail stop ∧ y.right.proc ≠ .fail stop := by
  constructor
  · intro hfail
    have hsame := left_stays h (hfail ▸ trivial)
    rw [hsame, hfail] at hleft
    cases hleft
  · intro hfail
    have hsame := right_stays h (hfail ▸ trivial)
    rw [hsame, hfail] at hright
    cases hright

theorem mustSend_of_write {offset : ℕ} {data : List UInt8}
    {k : Except SyncError Unit → Replica.ReplicaHandler Unit}
    (h : Replica.Careful (.call (.writeAt offset data) k)) :
    MustSend (.call (.writeAt offset data) k : Replica.ReplicaHandler Unit) := by
  intro a
  have ha := (h a).1
  cases a with
  | error e =>
    rw [show k (.error e) = .fail (.err e) from ha]
    trivial
  | ok u => exact ha

theorem Failed.file (hcf : CollisionFree lib .blake3V2 o r) (hf : Fits conn o r)
    (hle : r.pageCount ≤ o.pageCount) (hn : o.pageCount + 64 ≤ u32Bound)
    (hy : Reaches (Moves (Disk.handle conn.pageSize)) (start lib o conn tO tR r.disk) y)
    (h : Failed faults y x) :
    (∃ k < (differingPages o r o.pageCount).length, faults k ≠ none) ∧
      ∃ n ≤ o.bytes.length, x.right.store.file = spliced o r n := by
  obtain ⟨-, offset, data, k, e, part, hproc, hfault, hright⟩ := h
  rcases y with ⟨l, ⟨proc, d, sent, taken⟩⟩
  dsimp only at *
  subst hproc
  -- the write that fails is the next one of the sound session
  have hwrites : d.writes ++ [(offset, data)] <+:
      placed o.pageSize (differingPages o r o.pageCount) :=
    writes_of_reaches hcf hf hle hn (hy.tail (.right rfl))
  have hreplays : Replays r.bytes d := reaches_right_store (fun e d ↦ replays_handle e d) hy rfl
  obtain ⟨m, hm, hplaced⟩ := prefix_placed hwrites
  obtain ⟨m', hm', hw, rfl, rfl⟩ := placed_concat hplaced
  refine ⟨⟨d.writes.length, ?_, by simp [hfault]⟩, ?_⟩
  · have hlen := hwrites.length_le
    simp only [placed, asWrites, List.length_append, List.length_singleton, List.length_map] at hlen
    exact hlen
  · rw [hright]
    exact torn_mixture (hm'.trans_le hm) (hreplays.file_eq (hf.replica.symm.trans hf.origin)
      (hm'.le.trans hm) hw) part

section Moments

variable (commit : Except SyncError Unit) (hcf : CollisionFree lib .blake3V2 o r)
  (hf : Fits conn o r) (hle : r.pageCount ≤ o.pageCount) (hn : o.pageCount + 64 ≤ u32Bound)

include hcf hf hle hn

theorem spliced_of_reaches
    (hy : Reaches (Moves (Disk.handle conn.pageSize)) (start lib o conn tO tR r.disk) y) :
    ∃ n ≤ o.bytes.length, y.right.store.file = spliced o r n := by
  obtain ⟨n, hcount, hfile⟩ := mixture_of_reaches hcf hf hle hn hy
  exact ⟨n * o.pageSize, o.length_eq ▸ Nat.mul_le_mul_right _ hcount, hfile⟩

theorem sound_ends
    (hy : Reaches (Moves (Disk.handle conn.pageSize)) (start lib o conn tO tR r.disk) y)
    (hspared : Spared faults y.right.store) (hended : Ended y.left.proc ∧ Ended y.right.proc) :
    syncLocal commit y = commit.mapError .err ∧ y.right.store.file = o.bytes ∧
      ∀ k < (differingPages o r o.pageCount).length, faults k = none := by
  obtain ⟨back, hend⟩ := session_ends lib tO tR (hf.replica ▸ disk_serves r) hf hle hn
  have hlast := hend.reaches_of_reaches hy
  obtain ⟨l, p⟩ := y
  obtain ⟨rfl, rfl⟩ : _ = l ∧ _ = p := ⟨left_stays hlast hended.1, right_stays hlast hended.2⟩
  refine ⟨rfl, ?_, fun k hk ↦ ?_⟩
  · rw [meet, hf.origin, applyWrites_disk]
    exact file_written hcf hle (hf.replica.symm.trans hf.origin)
  · have hsent : allSentPages lib o r = differingPages o r o.pageCount := allSentPages_eq hcf hle
    rw [meet, applyWrites_disk, hsent] at hspared
    refine hspared k ?_
    simpa only [Image.disk, List.nil_append, asWrites, List.length_map] using hk

omit hcf in
theorem sound_runs
    (hy : Reaches (Moves (Disk.handle conn.pageSize)) (start lib o conn tO tR r.disk) y)
    (hruns : ¬ (Ended y.left.proc ∧ Ended y.right.proc)) :
    syncLocal commit y = .error (.err (.protocol "local sync timed out")) := by
  obtain ⟨back, hend⟩ := session_ends lib tO tR (hf.replica ▸ disk_serves r) hf hle hn
  obtain ⟨hleft, hright⟩ := not_failed_of_reaches (hend.reaches_of_reaches hy) rfl rfl .panic
  exact syncLocal_times_out hruns hleft hright

omit hcf in
theorem failed_runs
    (hy : Reaches (Moves (Disk.handle conn.pageSize)) (start lib o conn tO tR r.disk) y)
    (hfailed : Failed faults y x) :
    syncLocal commit x = .error (.err (.protocol "local sync timed out")) := by
  obtain ⟨back, hend⟩ := session_ends lib tO tR (hf.replica ▸ disk_serves r) hf hle hn
  obtain ⟨hleft, offset, data, k, e, part, hproc, -, hright⟩ := hfailed
  have hwrite := reaches_right_calls hy (Replica.careful_runWithTuning conn lib tR)
  rw [hproc] at hwrite
  have hruns : ¬ Ended x.left.proc := by
    rw [hleft]
    exact left_runs (.protocol "connection closed unexpectedly") hy (hend.reaches_of_reaches hy)
      rfl rfl (hproc ▸ mustSend_of_write hwrite)
  apply syncLocal_times_out
  · exact fun hended ↦ hruns hended.1
  · intro hpanic
    rw [hpanic] at hruns
    exact hruns trivial
  · rw [hright]
    intro hpanic
    cases hpanic

/-- Wherever `sync_local` ends on a disk whose writes may fail, it returns the result of the commit
after a complete copy, or the timer has ended it and the file is the origin up to some byte and the
old replica after it. Left to itself it ends with the copy if no write fails, and otherwise waits
for the timer: the error of the write is not reported. -/
theorem sync_local_outcome :
    (∀ z, Reaches (Moves (Disk.faulty faults conn.pageSize)) (start lib o conn tO tR r.disk) z →
      (syncLocal commit z = commit.mapError .err ∧ z.right.store.file = o.bytes ∧
        ∀ k < (differingPages o r o.pageCount).length, faults k = none) ∨
      (syncLocal commit z = .error (.err (.protocol "local sync timed out")) ∧
        ∃ n ≤ o.bytes.length, z.right.store.file = spliced o r n)) ∧
    Settles (Moves (Disk.faulty faults conn.pageSize)) (start lib o conn tO tR r.disk) fun z ↦
      ((∀ k < (differingPages o r o.pageCount).length, faults k = none) →
        syncLocal commit z = commit.mapError .err ∧ z.right.store.file = o.bytes) ∧
      ((∃ k < (differingPages o r o.pageCount).length, faults k ≠ none) →
        syncLocal commit z = .error (.err (.protocol "local sync timed out")) ∧
          ∃ n ≤ o.bytes.length, z.right.store.file = spliced o r n) := by
  have hcareful := Replica.careful_runWithTuning conn lib tR
  obtain ⟨back, hend⟩ := session_ends lib tO tR (hf.replica ▸ disk_serves r) hf hle hn
  constructor
  · intro x hx
    obtain ⟨y, hy, -, hspared, rfl | hfailed⟩ :=
      faulty_reaches hend.1 hcareful hend.reaches rfl hx
    · by_cases hended : Ended x.left.proc ∧ Ended x.right.proc
      · exact .inl (sound_ends commit hcf hf hle hn hy hspared hended)
      · exact .inr ⟨sound_runs commit hf hle hn hy hended, spliced_of_reaches hcf hf hle hn hy⟩
    · exact .inr ⟨failed_runs commit hf hle hn hy hfailed, (hfailed.file hcf hf hle hn hy).2⟩
  · obtain ⟨k₀, hk₀⟩ := hend.reaches
    refine settles_of_bounded (fun m b hb ↦ faulty_run_le hend.1 hcareful hk₀ rfl hb)
      fun x hx hstuck ↦ ?_
    obtain ⟨y, hy, -, hspared, rfl | hfailed⟩ :=
      faulty_reaches hend.1 hcareful hend.reaches rfl hx
    · obtain rfl := hend.eq_of_stuck hy (stuck_of_faulty hstuck)
      obtain ⟨hcommit, hfile, hall⟩ :=
        sound_ends commit hcf hf hle hn hy hspared ⟨trivial, trivial⟩
      exact ⟨fun _ ↦ ⟨hcommit, hfile⟩, fun ⟨k, hk, hsome⟩ ↦ absurd (hall k hk) hsome⟩
    · obtain ⟨⟨k, hk, hsome⟩, hfile⟩ := hfailed.file hcf hf hle hn hy
      exact ⟨fun hnone ↦ absurd (hnone k hk) hsome,
        fun _ ↦ ⟨failed_runs commit hf hle hn hy hfailed, hfile⟩⟩

end Moments

theorem sync_local_outcome_two_pages :
    Settles (Moves (Disk.faulty (fun _ ↦ some (.io "no space left", 100)) 512))
      (start tabulated twoPages ⟨512, true⟩ {} {} oneBlank.disk) fun z ↦
        syncLocal (.ok ()) z = .error (.err (.protocol "local sync timed out")) := by
  have hf : Fits ⟨512, true⟩ twoPages oneBlank := ⟨rfl, rfl, rfl⟩
  refine (sync_local_outcome (.ok ()) (twoPages_tabulated.collisionFree oneBlank_tabulated) hf
    (by decide) (by decide)).2.imp fun z hz ↦ (hz.2 ⟨0, ?_, by simp⟩).1
  rw [show differingPages twoPages oneBlank twoPages.pageCount =
    differingPages twoPages oneBlank 1 ++ [⟨2, twoPages.page 2⟩] from
      (differingPages_succ _ _ 1).trans (by rw [if_pos (.inl (by decide))])]
  simp

end Outcome

end Session

end RsqliteRsync.Protocol
