import RsqliteRsync.Protocol.OriginScript
import RsqliteRsync.Protocol.ReplicaSpec
import RsqliteRsync.Protocol.Convergence

namespace RsqliteRsync.Protocol

open Foundation.Process Foundation.Script Db

variable {lib : Crates} {algorithm : HashAlgorithm} {σ τ : Type} {l : HandlerLine}

namespace Origin

variable {snap : Snapshot} {handle : (e : Empty) → σ → Empty.elim e × σ} {s : σ}

theorem changedPages_tuning (t t' : SyncTuning) (firstPage lastPage : ℕ) (pageNos : List ℕ)
    (hashes : List PageHash) :
    changedPages lib snap t algorithm firstPage lastPage pageNos hashes =
      changedPages lib snap t' algorithm firstPage lastPage pageNos hashes := by
  unfold changedPages
  rw [computeWithParallelism_eq _ _ _ (lib.parFilterMap_eq _ _),
    computeWithParallelism_eq _ _ _ (lib.parFilterMap_eq _ _)]

theorem finePass_tuning (t t' : SyncTuning) (gs : List ℕ) :
    finePass lib snap t algorithm gs = finePass lib snap t' algorithm gs := by
  have hround : ∀ g, fineRound lib snap t algorithm g = fineRound lib snap t' algorithm g := by
    intro g
    simp only [fineRound, changedPages_tuning t t']
  induction gs with
  | nil => rfl
  | cons g gs ih => rw [finePass, finePass, hround, ih]

theorem coarsePass_tuning (t t' : SyncTuning)
    (hshort : ∀ first hashes, l.incoming.head? = some (.groupHashes first hashes) →
      hashes.length < 2 ^ 26) :
    play handle (coarsePass lib snap t algorithm) s l =
      play handle (coarsePass lib snap t' algorithm) s l := by
  refine play_bind_congr fun m hm ↦ ?_
  have hhead := head?_of_recv hm
  cases m
  case groupHashes first hashes =>
    have hlen := hshort first hashes hhead
    simp only [expectGroupHashes, Proc.pure_eq, Proc.ret_bind]
    by_cases hfirst : first = 0
    · rw [hfirst, needFine_flagged t hlen, needFine_flagged t' hlen]
    · rw [if_pos hfirst, if_pos hfirst]
  all_goals rfl

theorem run_tuning (t t' : SyncTuning) (hshort : ShortGroupHashes l) :
    play handle (runWithTuning lib snap t) s l = play handle (runWithTuning lib snap t') s l := by
  refine play_bind_congr fun algorithm hgreeted ↦ ?_
  rcases handshake_cases s l with ⟨error, herr⟩ | ⟨version, size, count, msgs, h⟩
  · cases hgreeted.symm.trans herr
  simp only [finePass_tuning t t']
  rw [play_handshake h, play_bind, play_bind,
    coarsePass_tuning t t' (hshort.after_first h.incoming)]

end Origin

namespace Replica

variable {conn : Connection} {handle : (e : ConnOp) → σ → e.Reply × σ} {s : σ}

theorem allPageHashes_tuning (t t' : SyncTuning) (bytes : List UInt8) (size n : ℕ) :
    allPageHashes lib t algorithm bytes size n = allPageHashes lib t' algorithm bytes size n := by
  unfold allPageHashes
  rw [computeWithParallelism_eq _ _ _ (lib.parMap_eq _ _),
    computeWithParallelism_eq _ _ _ (lib.parMap_eq _ _)]

theorem groupHashes_tuning (t t' : SyncTuning) (pageHashes : List PageHash) {n : ℕ}
    (hn : n + 64 ≤ u32Bound) :
    groupHashes lib t algorithm pageHashes n = groupHashes lib t' algorithm pageHashes n := by
  rw [groupHashes_eq_mapM t _ hn, groupHashes_eq_mapM t' _ hn]

theorem run_tuning (t t' : SyncTuning)
    (hn : ∀ n, (handle .pageCount s).1 = .ok n → n + 64 ≤ u32Bound) :
    play handle (runWithTuning lib conn t) s l = play handle (runWithTuning lib conn t') s l := by
  refine play_bind_congr fun n hcount ↦ ?_
  have hn' : n + 64 ≤ u32Bound := hn n (eq_ok_of_orFail hcount)
  simp only [allPageHashes_tuning t t', groupHashes_tuning t t' _ hn']

end Replica

/-- Two tunings give the same runs: the same messages, page writes and calls in the same order, the
same result and the same database. -/
theorem tuning_irrelevant (t t' : SyncTuning) {snap : Snapshot}
    {originHandle : (e : Empty) → σ → Empty.elim e × σ} {s : σ} {conn : Connection}
    {replicaHandle : (e : ConnOp) → τ → e.Reply × τ} {s' : τ} {l' : HandlerLine}
    (hshort : ShortGroupHashes l)
    (hn : ∀ n, (replicaHandle .pageCount s').1 = .ok n → n + 64 ≤ u32Bound) :
    play originHandle (Origin.runWithTuning lib snap t) s l =
      play originHandle (Origin.runWithTuning lib snap t') s l ∧
    play replicaHandle (Replica.runWithTuning lib conn t) s' l' =
      play replicaHandle (Replica.runWithTuning lib conn t') s' l' :=
  ⟨Origin.run_tuning t t' hshort, Replica.run_tuning t t' hn⟩

theorem tuning_irrelevant_two_pages :
    play Session.originHandle (Origin.runWithTuning Session.tabulated Session.twoPages {}) ()
        (lineOf [.hello 2 512 1, .groupHashes 0 [.replicate 32 0]]) =
      play Session.originHandle (Origin.runWithTuning Session.tabulated Session.twoPages
        ⟨some 8, 0, 0⟩) () (lineOf [.hello 2 512 1, .groupHashes 0 [.replicate 32 0]]) ∧
    play (Disk.handle 512) (Replica.runWithTuning Session.tabulated ⟨512, true⟩ {})
        Session.oneBlank.disk (lineOf [.helloAck 2 512 1, .groupsNeedFine [0]]) =
      play (Disk.handle 512) (Replica.runWithTuning Session.tabulated ⟨512, true⟩ ⟨some 8, 0, 0⟩)
        Session.oneBlank.disk (lineOf [.helloAck 2 512 1, .groupsNeedFine [0]]) :=
  tuning_irrelevant {} ⟨some 8, 0, 0⟩ (fun first hashes h ↦ by cases h; decide) fun n hcount ↦ by
    have hone := congrArg Prod.fst (Session.disk_serves Session.oneBlank).pageCount
    cases hone.symm.trans hcount
    decide

end RsqliteRsync.Protocol
