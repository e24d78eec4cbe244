import RsqliteRsync.Foundation.HalfDuplex
import RsqliteRsync.Protocol.OriginOutcome
import RsqliteRsync.Protocol.ReplicaOutcome

namespace RsqliteRsync.Protocol

open Foundation.Process Foundation.Script Foundation.HalfDuplex Foundation.Schedule Db

section Shape

/-- The origin's side of a session with so many rounds, a send as `true`. -/
def turns (n : ℕ) : List Bool :=
  [false, true, false, true] ++ (List.replicate n [false, true, false]).flatten ++ [true]

theorem count_turns (n : ℕ) (b : Bool) :
    (turns n).count b = if b then n + 3 else 2 * n + 2 := by
  have hrounds : ((List.replicate n [false, true, false]).flatten).count b =
      if b then n else 2 * n := by
    rw [List.count_flatten, List.map_replicate, List.sum_replicate]
    cases b <;> simp [Nat.mul_comm]
  rw [turns, List.count_append, List.count_append, hrounds]
  cases b <;> simp <;> omega

end Shape

namespace Origin

variable {lib : Crates} {snap : Snapshot} {tuning : SyncTuning} {σ : Type}
  {handle : (e : Empty) → σ → Empty.elim e × σ} {s : σ} {l : HandlerLine}

theorem shape_rounds (algorithm : HashAlgorithm) {gs : List ℕ} {replies : List Reply}
    (h : replies.length = gs.length) :
    shape (List.zipWith (Reply.events lib algorithm snap) gs replies).flatten =
      (List.replicate gs.length [false, true, false]).flatten := by
  induction gs generalizing replies with
  | nil => rfl
  | cons g gs ih =>
    cases replies with
    | nil => cases h
    | cons reply replies =>
      rw [List.zipWith_cons_cons, List.flatten_cons, shape_append, ih (Nat.succ.inj h)]
      rfl

theorem shape_of_ok (hn : snap.pageCount + 64 ≤ u32Bound) (hshort : ShortGroupHashes l)
    (hok : (play handle (runWithTuning lib snap tuning) s l).outcome = .ok ()) :
    ∃ n, shape (play handle (runWithTuning lib snap tuning) s l).trace = turns n := by
  rcases run_cases hn hshort s with ⟨error, herr⟩ | ⟨d, rest, h⟩ | hexcess
  · cases hok.symm.trans herr
  · refine ⟨(d.groups lib snap).length, ?_⟩
    rw [(run_heard hn h).2, Dialogue.events, shape_append, shape_append,
      shape_rounds _ h.valid.replies.length_eq.symm]
    rfl
  · cases hok.symm.trans (run_excess hn hexcess)

end Origin

namespace Replica

variable {lib : Crates} {algorithm : HashAlgorithm} {tuning : SyncTuning} {σ : Type}
  {handle : (e : ConnOp) → σ → e.Reply × σ} {conn : Connection} {r : Image} {s : σ}
  {l : HandlerLine} {gs : List ℕ} {batches : List (List PageData)}

theorem shape_greeting (version size count : ℕ) :
    shape (greetingEvents conn r version size count) = [true, false] := by
  unfold greetingEvents
  split <;> rfl

theorem shape_served (h : batches.length = gs.length) :
    shape (servedEvents lib algorithm conn r gs batches) =
      (List.replicate gs.length [true, false, true]).flatten := by
  induction gs generalizing batches with
  | nil => rfl
  | cons g gs ih =>
    cases batches with
    | nil => cases h
    | cons pages batches =>
      have hwrites : shape (pages.map (writeEvent conn)) = [] :=
        List.filterMap_eq_nil_iff.mpr fun e he ↦ by
          obtain ⟨page, -, rfl⟩ := List.mem_map.mp he
          rfl
      have hround : shape (roundEvents lib algorithm conn r g pages) = [true, false, true] := by
        rw [roundEvents, shape_append]
        exact congrArg (true :: false :: · ++ [true]) hwrites
      rw [servedEvents, shape_append, hround, ih (Nat.succ.inj h)]
      rfl

/-- What a replica that reports success has done: its part of a whole session, or all of it but the
last write and its acknowledgement. -/
theorem shape_of_ok (hp : Presents handle conn r s)
    (hok : (play handle (runWithTuning lib conn tuning) s l).outcome = .ok ()) :
    ∃ n, shape (play handle (runWithTuning lib conn tuning) s l).trace = (turns n).map not ∨
      (shape (play handle (runWithTuning lib conn tuning) s l).trace).count true = 2 * n + 3 := by
  rcases run_outcome lib tuning hp l with
    (⟨error, herr⟩ | ⟨-, hcompleted⟩) | hhash | hearly | hgroup
  · cases hok.symm.trans herr
  · obtain ⟨algorithm, version, size, count, gs, batches, -, hlength, htrace⟩ := hcompleted
    refine ⟨gs.length, .inl ?_⟩
    rw [htrace, shape_append, shape_append, shape_append, shape_greeting, shape_served hlength,
      turns, List.map_append, List.map_append, List.map_flatten, List.map_replicate]
    rfl
  · cases hok.symm.trans (hash_overflow_panics hp.pageSize hhash)
  · obtain ⟨hn, algorithm, version, size, count, gs, msgs, hasked,
      served, g, batches, s', l', rest, rfl, hserved, hg, hsend, hdone⟩ := hearly
    refine ⟨served.length, .inr ?_⟩
    rw [run_asked hp.pageSize hn hasked, closing_of_ne_nil (by simp),
      finePass_early_done hserved hg hsend hdone, End.trace_prepend, shape_append, shape_append,
      shape_append, shape_greeting, shape_served hserved.length_eq]
    simp only [List.count_append, List.count_flatten, List.map_replicate, List.sum_replicate,
      smul_eq_mul]
    change 1 + 1 + (served.length * 2 + 1) = _
    omega
  · cases hok.symm.trans (group_overflow_panics hp.pageSize hgroup)

end Replica

namespace Session

variable {lib : Crates} {σ : Type} {handle : (e : ConnOp) → σ → e.Reply × σ} {o r : Image}
  {conn : Connection} {tO tR : SyncTuning} {s : σ} {z : State σ}

def replies (lib : Crates) (o r : Image) : List Message :=
  [.hello 2 r.pageSize r.pageCount, .groupHashes 0
    ((List.range (Replica.numGroups r.pageCount)).map (groupHash lib .blake3V2 r))] ++
    (fineGroups lib o r).flatMap (roundReplies lib o r)

variable (lib tO tR) in
theorem session_ends_saying (hs : Serves handle s r) (hf : Fits conn o r)
    (hle : r.pageCount ≤ o.pageCount) (hn : o.pageCount + 64 ≤ u32Bound) :
    EndsIn (Moves handle) (start lib o conn tO tR s)
      (meet (.ret ()) (.ret ()) () (applyWrites handle r.pageSize s (allSentPages lib o r))
        (transcript lib o r) (replies lib o r)) := by
  have hcoarse : r.pageCount + 64 ≤ u32Bound := by omega
  have hrun := ((handshake_run lib tO tR hs hf).trans (coarse_run hcoarse _)).trans
    (fine_run _ hf hs.writeAt (fineGroups_bounds hle hn))
  rw [hf.replica] at hrun
  exact endsIn_meet hrun trivial trivial

variable (lib o) in
theorem short_replies (closed : SyncError) (hn : r.pageCount + 64 ≤ u32Bound) :
    ShortGroupHashes (straight closed (replies lib o r)) := by
  intro first hashes h
  cases h
  rw [List.length_map, List.length_range]
  simp only [Replica.numGroups, groupCount, GROUP_SIZE, u32Bound] at *
  omega

/-- In a session that both report as a success, the one sends where the other receives. -/
theorem complementary (closed : SyncError) (hn : o.pageCount + 64 ≤ u32Bound)
    (hp : Replica.Presents handle conn r s) {t : σ} {out back : List Message}
    (hshort : ShortGroupHashes (straight closed back))
    (h : Reaches (Moves handle) (start lib o conn tO tR s)
      (meet (.ret ()) (.ret ()) () t out back)) :
    ∃ n, shape (play originHandle (Origin.runWithTuning lib o tO) ()
        (straight closed back)).trace = turns n ∧
      shape (play handle (Replica.runWithTuning lib conn tR) s (straight closed out)).trace =
        (turns n).map not := by
  obtain ⟨hcutl, hcutr⟩ := cuts closed h out back List.prefix_rfl List.prefix_rfl
  obtain ⟨hokl, hsentl, htakenl⟩ := hcutl.ended rfl
  obtain ⟨hokr, hsentr, htakenr⟩ := hcutr.ended rfl
  obtain ⟨n, hturns⟩ := Origin.shape_of_ok hn hshort hokl
  rw [hturns, count_turns] at hsentl htakenl
  -- the number of rounds follows from the number of messages, and so does that none is missing
  obtain ⟨m, hturns' | hearly⟩ := Replica.shape_of_ok hp hokr
  · have hmap : ((turns m).map not).count false = (turns m).count true :=
      List.count_map_of_injective _ not (fun a b h ↦ Bool.not_inj h) true
    rw [hturns', hmap, count_turns] at htakenr
    have hcount : m = n := Nat.add_right_cancel (htakenr.trans hsentl.symm)
    exact ⟨n, hturns, hcount ▸ hturns'⟩
  · have hodd : 2 * m + 3 = 2 * n + 2 := (hearly.symm.trans hsentr).trans htakenl.symm
    omega

end Session

end RsqliteRsync.Protocol
