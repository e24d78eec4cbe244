import RsqliteRsync.Foundation.Breakdown
import RsqliteRsync.Protocol.FailedWrite

namespace RsqliteRsync.Db

open Protocol

def ConnOp.Refused : (e : ConnOp) → e.Reply → Prop
  | .pageCount, .error _ | .serialize, .error _ | .writeAt _ _, .error _ => True
  | _, _ => False

/-- How a call fails. A write may have been made in part. -/
inductive Disk.Breaks : (e : ConnOp) → Disk → e.Reply → Disk → Prop
  | pageCount {d : Disk} {e : SyncError} : Breaks .pageCount d (.error e) d
  | serialize {d : Disk} {e : SyncError} : Breaks .serialize d (.error e) d
  | writeAt {d : Disk} {offset : ℕ} {data : List UInt8} {e : SyncError} {part : ℕ} :
      Breaks (.writeAt offset data) d (.error e) (d.torn offset (data.take part))

theorem Disk.Breaks.refused {e : ConnOp} {d d' : Disk} {a : e.Reply} (h : Disk.Breaks e d a d') :
    e.Refused a := by
  cases h <;> trivial

theorem Disk.Breaks.store {e : ConnOp} {d d' : Disk} {a : e.Reply} (h : Disk.Breaks e d a d') :
    d' = d ∨ ∃ offset data, e = .writeAt offset data := by
  cases h with
  | pageCount | serialize => exact .inl rfl
  | @writeAt _ offset data => exact .inr ⟨offset, data, rfl⟩

end RsqliteRsync.Db

namespace RsqliteRsync.Protocol

open Foundation.Process Foundation.Schedule Foundation.Conduct Foundation.HalfDuplex
  Foundation.Breakdown Db

def Message.isError : Message → Prop
  | .error _ => True
  | _ => False

section Strict

variable {E : Type} {A : E → Type} {bad : (e : E) → A e → Prop} {α β : Type}

theorem strict_orFail (x : Except SyncError α) :
    Strict Message.isError bad (orFail x : Handler A α) := by
  cases x <;> trivial

theorem strict_lift (x : Res α) : Strict Message.isError bad (lift x : Handler A α) := by
  cases x <;> trivial

theorem strict_send (m : Message) : Strict Message.isError bad (send m : Handler A Unit) :=
  ⟨fun _ ↦ trivial, trivial⟩

theorem strict_recv {f : Message → Handler A β} (hf : ∀ m, Strict Message.isError bad (f m))
    (herror : ∀ message, Doomed Message.isError (f (.error message))) :
    Strict Message.isError bad (recv >>= f) := by
  refine ⟨fun _ ↦ trivial, fun m ↦ ⟨hf m, fun hm ↦ ?_⟩⟩
  cases m with
  | error message => exact herror message
  | _ => exact hm.elim

theorem doomed_violation (message : String) :
    Doomed Message.isError (protocolViolation message : Handler A α) := ⟨trivial, fun _ ↦ trivial⟩

theorem strict_violation (message : String) :
    Strict Message.isError bad (protocolViolation message : Handler A α) :=
  ⟨fun _ ↦ trivial, trivial⟩

end Strict

namespace Origin

variable (lib : Crates) (snap : Snapshot) (tuning : SyncTuning)

abbrev Heeds {α : Type} (p : OriginHandler α) : Prop :=
  Strict Message.isError (fun e : Empty ↦ e.elim) p

theorem heeds_handshake : Heeds (handshake snap) := by
  refine strict_recv (fun m ↦ ?_) fun message ↦ trivial
  refine Strict.bind ?_ fun offer ↦ ?_
  · cases m with
    | hello version size count => trivial
    | error message => trivial
    | _ => exact strict_violation _
  · obtain ⟨version, size⟩ := offer
    dsimp only
    split
    · exact strict_violation _
    · split
      · trivial
      · split
        · exact (strict_send _).bind fun _ ↦ trivial
        · exact (strict_send _).bind fun _ ↦ trivial

theorem heeds_coarsePass (algorithm : HashAlgorithm) :
    Heeds (coarsePass lib snap tuning algorithm) := by
  refine strict_recv (fun m ↦ ?_) fun message ↦ trivial
  refine Strict.bind ?_ fun groups ↦ ?_
  · cases m with
    | groupHashes first hashes => trivial
    | error message => trivial
    | _ => exact strict_violation _
  · obtain ⟨first, hashes⟩ := groups
    dsimp only
    split
    · exact strict_violation _
    · exact (strict_lift _).bind fun _ ↦ (strict_send _).bind fun _ ↦ trivial

theorem heeds_orViolation (x : Res Unit) : Heeds (orViolation x) := by
  cases x with
  | ok u => trivial
  | error stop =>
    cases stop with
    | panic => trivial
    | err e => cases e <;> first | exact strict_violation _ | trivial

theorem heeds_sendChanged (pages : List PageData) : Heeds (sendChanged pages) := by
  refine (strict_send _).bind fun _ ↦ strict_recv (fun m ↦ ?_) fun message ↦ trivial
  cases m with
  | pagesAck pageNos =>
    rw [expectPagesAck]
    split
    · trivial
    · exact strict_violation _
    · trivial
  | error message => trivial
  | _ => exact strict_violation _

theorem heeds_fineRound (algorithm : HashAlgorithm) (groupIdx : ℕ) :
    Heeds (fineRound lib snap tuning algorithm groupIdx) := by
  refine strict_recv (fun m ↦ ?_) fun message ↦ trivial
  refine Strict.bind ?_ fun hashes ↦ ?_
  · cases m with
    | pageHashes pageNos hashes => trivial
    | error message => trivial
    | _ => exact strict_violation _
  · refine (strict_lift _).bind fun _ ↦ (strict_lift _).bind fun _ ↦ ?_
    refine (heeds_orViolation _).bind fun _ ↦ (strict_lift _).bind fun _ ↦ ?_
    exact heeds_sendChanged _

theorem heeds_finePass (algorithm : HashAlgorithm) (groups : List ℕ) :
    Heeds (finePass lib snap tuning algorithm groups) := by
  induction groups with
  | nil => trivial
  | cons g groups ih => exact (heeds_fineRound lib snap tuning algorithm g).bind fun _ ↦ ih

theorem heeds_runWithTuning : Heeds (runWithTuning lib snap tuning) :=
  (heeds_handshake snap).bind fun algorithm ↦
    (heeds_coarsePass lib snap tuning algorithm).bind fun groups ↦
      (heeds_finePass lib snap tuning algorithm groups).bind fun _ ↦ strict_send _

end Origin

namespace Replica

variable (lib : Crates) (conn : Connection)

abbrev Heeds {α : Type} (p : ReplicaHandler α) : Prop :=
  Strict Message.isError ConnOp.Refused p

theorem heeds_pageCount : Heeds Connection.pageCount := by
  intro a
  refine ⟨strict_orFail a, fun ha ↦ ?_⟩
  cases a with
  | ok n => exact ha.elim
  | error e => trivial

theorem heeds_currentBytes (n : ℕ) : Heeds (currentBytes n) := by
  unfold currentBytes
  split
  · trivial
  · intro a
    refine ⟨strict_orFail a, fun ha ↦ ?_⟩
    cases a with
    | ok bytes => exact ha.elim
    | error e => trivial

theorem heeds_applyPages (pages : List PageData) : Heeds (applyPages conn pages) := by
  induction pages with
  | nil => trivial
  | cons page pages ih =>
    refine Strict.bind ?_ fun _ ↦ ih
    rw [Connection.writePage]
    split_ifs
    · trivial
    · trivial
    · intro a
      refine ⟨strict_orFail a, fun ha ↦ ?_⟩
      cases a with
      | ok u => exact ha.elim
      | error e => trivial
    · trivial

theorem heeds_expectDone (violation : String) :
    Heeds (recv >>= expectDone violation) := by
  refine strict_recv (fun m ↦ ?_) fun message ↦ doomed_violation _
  cases m with
  | done => trivial
  | _ => exact strict_violation _

theorem heeds_onAnswer (pending : ℕ) {next : ReplicaHandler Unit} (h : Heeds next) (m : Message) :
    Heeds (onAnswer conn pending next m) := by
  cases m with
  | sendPages pages =>
    exact (heeds_applyPages conn pages).bind fun _ ↦ (strict_send _).bind fun _ ↦ h
  | done =>
    rw [onAnswer]
    split
    · exact strict_violation _
    · trivial
  | error message => trivial
  | _ => exact strict_violation _

theorem heeds_finePass (hashes : List PageHash) (n : ℕ) (gs : List ℕ) :
    Heeds (finePass conn hashes n gs) := by
  induction gs with
  | nil => exact heeds_expectDone _
  | cons g gs ih =>
    refine (strict_lift _).bind fun x ↦ (strict_send _).bind fun _ ↦ ?_
    exact strict_recv (heeds_onAnswer conn _ ih) fun message ↦ trivial

theorem heeds_handshake (n : ℕ) : Heeds (handshake conn n) := by
  refine (strict_send _).bind fun _ ↦ strict_recv (fun ack ↦ ?_) fun message ↦ trivial
  refine Strict.bind ?_ fun version ↦ ?_
  · cases ack with
    | helloAck version size count => trivial
    | error message => trivial
    | _ => exact strict_violation _
  · split
    · trivial
    · split <;> trivial

theorem heeds_runWithTuning (tuning : SyncTuning) : Heeds (runWithTuning lib conn tuning) := by
  refine heeds_pageCount.bind fun n ↦ (heeds_handshake conn n).bind fun _ ↦ ?_
  refine (heeds_currentBytes n).bind fun bytes ↦ (strict_lift _).bind fun hs ↦ ?_
  refine (strict_lift _).bind fun gs ↦ (strict_send _).bind fun _ ↦ ?_
  refine strict_recv (fun m ↦ ?_) fun message ↦ trivial
  refine Strict.bind ?_ fun groups ↦ ?_
  · cases m with
    | groupsNeedFine groups => trivial
    | error message => trivial
    | _ => exact strict_violation _
  · split
    · exact heeds_expectDone _
    · exact heeds_finePass conn hs n groups

end Replica

namespace Session

variable {lib : Crates} {o r : Image} {conn : Connection} {tO tR : SyncTuning} {x y : State Disk}

/-- What a push returns when its handler has ended. -/
def pushSync (close commit : Except SyncError Unit) (x : State Disk) : Option (Res Unit) :=
  match x.left.proc with
  | .ret _ => some do
    close.mapError .err
    commit.mapError .err
  | .fail e => some (.error e)
  | _ => none

def pullSync (close : Except SyncError Unit) (x : State Disk) : Option (Res Unit) :=
  match x.right.proc with
  | .ret _ => some (close.mapError .err)
  | .fail e => some (.error e)
  | _ => none

/-- Some way of synchronising returns success here. -/
inductive Succeeds (x : State Disk) : Prop
  | syncLocal {commit : Except SyncError Unit} : syncLocal commit x = .ok () → Succeeds x
  | pushSync {close commit : Except SyncError Unit} : pushSync close commit x = some (.ok ()) →
      Succeeds x
  | pullSync {close : Except SyncError Unit} : pullSync close x = some (.ok ()) → Succeeds x

theorem Succeeds.returned (h : Succeeds x) :
    (∃ u, x.left.proc = .ret u) ∨ ∃ u, x.right.proc = .ret u := by
  cases h with
  | syncLocal h =>
    unfold Session.syncLocal at h
    split at h
    all_goals first | exact .inl ⟨_, ‹_›⟩ | cases h
  | pushSync h =>
    unfold Session.pushSync at h
    split at h
    case h_1 u hproc => exact .inl ⟨u, hproc⟩
    all_goals cases h
  | pullSync h =>
    unfold Session.pullSync at h
    split at h
    case h_1 u hproc => exact .inr ⟨u, hproc⟩
    all_goals cases h

/-- The steps of a session in which the transport breaks, calls fail, and handlers are stopped. -/
abbrev Breaking (size : ℕ) : State Disk → State Disk → Prop :=
  Unreliable Message.isError originHandle (Disk.handle size) (fun e ↦ e.elim) Disk.Breaks

/-- When the origin has ended, the replica has no write to make: it would have to acknowledge it. -/
theorem no_write_left {offset : ℕ} {data : List UInt8}
    {k : Except SyncError Unit → Replica.ReplicaHandler Unit} (hf : Fits conn o r)
    (hle : r.pageCount ≤ o.pageCount) (hn : o.pageCount + 64 ≤ u32Bound)
    (hy : Reaches (Moves (Disk.handle conn.pageSize)) (start lib o conn tO tR r.disk) y)
    (hended : Ended y.left.proc) : y.right.proc ≠ .call (.writeAt offset data) k := by
  intro hproc
  obtain ⟨back, hend⟩ := session_ends lib tO tR (hf.replica ▸ disk_serves r) hf hle hn
  have hwrite := reaches_right_calls hy (Replica.careful_runWithTuning conn lib tR)
  rw [hproc] at hwrite
  exact left_runs (.protocol "connection closed unexpectedly") hy (hend.reaches_of_reaches hy)
    rfl rfl (hproc ▸ mustSend_of_write hwrite) hended

/-- In a sound session the file is complete as soon as one of the handlers has ended. -/
theorem file_of_ended (hcf : CollisionFree lib .blake3V2 o r) (hf : Fits conn o r)
    (hle : r.pageCount ≤ o.pageCount) (hn : o.pageCount + 64 ≤ u32Bound)
    (hy : Reaches (Moves (Disk.handle conn.pageSize)) (start lib o conn tO tR r.disk) y)
    (hended : Ended y.left.proc ∨ Ended y.right.proc) : y.right.store.file = o.bytes := by
  obtain ⟨back, hend⟩ := session_ends lib tO tR (hf.replica ▸ disk_serves r) hf hle hn
  have hz := hend.reaches_of_reaches hy
  have hfile : (applyWrites (Disk.handle conn.pageSize) conn.pageSize r.disk
      (allSentPages lib o r)).file = o.bytes := by
    rw [hf.origin, applyWrites_disk]
    exact file_written hcf hle (hf.replica.symm.trans hf.origin)
  rcases hended with hleft | hright
  · have hkept := hz.invariant (I := fun c ↦ c.right.store = y.right.store) rfl
      fun c d hc hstore hstep ↦ by
        cases hstep with
        | left => exact hstore
        | @right l p q hadv =>
          have hl : l = y.left := left_stays hc hleft
          rcases p with ⟨proc, d, sent, taken⟩
          cases proc with
          | ret u | fail f => simp [Party.advance] at hadv
          | send m k =>
            simp only [Party.advance, Option.some.injEq] at hadv
            exact hadv ▸ hstore
          | recv k =>
            simp only [Party.advance, Option.map_eq_some_iff] at hadv
            obtain ⟨m, -, rfl⟩ := hadv
            exact hstore
          | call e k =>
            simp only [Party.advance, Option.some.injEq] at hadv
            cases e with
            | pageCount | serialize => exact hadv ▸ hstore
            | writeAt offset data =>
              exact absurd rfl (no_write_left hf hle hn (hy.trans hc) (hl ▸ hleft))
    rw [← hkept]
    exact hfile
  · rw [← right_stays hz hright]
    exact hfile

/-- Whatever goes wrong, no way of synchronising returns success unless the file of the replica is
the snapshot. -/
theorem file_of_success (hcf : CollisionFree lib .blake3V2 o r) (hf : Fits conn o r)
    (hle : r.pageCount ≤ o.pageCount) (hn : o.pageCount + 64 ≤ u32Bound)
    (h : Reaches (Breaking conn.pageSize) (start lib o conn tO tR r.disk) x) (hok : Succeeds x) :
    x.right.store.file = o.bytes := by
  obtain ⟨y, hy, hleft, hright⟩ := shadowed h (Origin.heeds_runWithTuning lib o tO)
    (Replica.heeds_runWithTuning lib conn tR) (fun e ↦ e.elim) fun _ _ _ _ ↦ Disk.Breaks.refused
  rcases hok.returned with ⟨u, hu⟩ | ⟨u, hu⟩
  · have hended : Ended y.left.proc := by
      rw [← hleft.eq_of_ret hu, hu]
      trivial
    rw [← file_of_ended hcf hf hle hn hy (.inl hended)]
    rcases hright.store with hsame | ⟨e, k, a, hproc, hbreaks⟩
    · rw [hsame]
    · rcases hbreaks.store with hsame | ⟨offset, data, rfl⟩
      · rw [hsame]
      · exact absurd hproc (no_write_left hf hle hn hy hended)
  · have hsame := hright.eq_of_ret hu
    rw [hsame] at hu ⊢
    refine file_of_ended hcf hf hle hn hy (.inr ?_)
    rw [hu]
    trivial

end Session

end RsqliteRsync.Protocol
