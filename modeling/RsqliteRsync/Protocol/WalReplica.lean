import RsqliteRsync.Db.Wal
import RsqliteRsync.Protocol.Convergence

namespace RsqliteRsync.Protocol.Session

open Foundation.PagedFile Foundation.Process Foundation.Schedule Db

variable {lib : Crates} {o : Snapshot} {w : WalReplica} {conn : Connection} {tO tR : SyncTuning}

theorem wal_serves (w : WalReplica) : Serves (WalState.handle w.pageSize) w.state w.view where
  pageCount := rfl
  serialize _ := rfl
  writeAt _ _ _ := rfl

theorem applyWrites_wal (size : ℕ) (s : WalState) (pages : List PageData) :
    applyWrites (WalState.handle size) size s pages =
      { s with main := writePages 0 size s.main (asWrites pages) } := by
  induction pages generalizing s with
  | nil => rfl
  | cons page pages ih => exact ih _

def ReadsAs (o : Snapshot) (s : WalState) : Prop :=
  s.pageCount o.pageSize = o.pageCount ∧
    ∀ p, 0 < p → p ≤ o.pageCount → s.read o.pageSize p = o.page p

def FramesAgree (o : Snapshot) (s : WalState) : Prop :=
  s.frames = [] ∨ s.dbSize = o.pageCount ∧
    ∀ p data, 0 < p → p ≤ o.pageCount → s.latest p = some data → data = o.page p

/-- The replica after all pages of a session have been written to the main file. -/
def afterSession (lib : Crates) (o : Snapshot) (w : WalReplica) : WalState :=
  { w.state with
    main := writePages 0 o.pageSize w.state.main (asWrites (allSentPages lib o w.view)) }

section After

variable (hcf : CollisionFree lib .blake3V2 o w.view) (hsize : w.pageSize = o.pageSize)
  (hle : w.view.pageCount ≤ o.pageCount)
include hcf hsize hle

theorem read_afterSession {p : ℕ} (hp : 0 < p) (hn : p ≤ o.pageCount) :
    (afterSession lib o w).read o.pageSize p = (w.state.latest p).getD (o.page p) := by
  change (w.state.latest p).getD _ = _
  cases hlatest : w.state.latest p with
  | some data => rfl
  | none =>
    change pageAt o.pageSize (afterSession lib o w).main (p - 1) = o.page p
    by_cases hd : Differs o w.view p
    · exact (page_written hcf hle hp w.state.main hn hd).1
    · have hr : p ≤ w.view.pageCount := not_lt.mp fun h ↦ hd (.inl h)
      have hmain : p * w.pageSize ≤ w.state.main.length :=
        (w.covered p hp hr).resolve_left (by simp [hlatest])
      have hpage : w.view.page p = o.page p := not_not.mp fun h ↦ hd (.inr h)
      have hread : w.state.read w.pageSize p = pageAt w.pageSize w.state.main (p - 1) := by
        simp [WalState.read, hlatest]
      rw [← hpage, w.page_view hp hr, hread]
      rw [hsize] at hmain ⊢
      exact page_kept hcf hle hp w.state.main hd hmain

theorem pageCount_afterSession (hframes : w.state.frames = []) :
    (afterSession lib o w).pageCount o.pageSize = o.pageCount := by
  have hcount : w.view.pageCount = w.state.main.length / w.pageSize := by
    simp [WalReplica.view, WalState.pageCount, hframes]
  have hmain : w.state.main.length = w.view.pageCount * o.pageSize := by
    rw [hcount, ← hsize, Nat.div_mul_cancel w.main_whole]
  have hlen := length_written hcf hle w.state.main hmain.ge
    (hmain.le.trans (Nat.mul_le_mul_right _ hle))
  simp [WalState.pageCount, afterSession, hframes, hlen, Nat.mul_div_cancel _ o.pageSize_pos]

theorem readsAs_iff : ReadsAs o (afterSession lib o w) ↔ FramesAgree o w.state := by
  have hread := fun p hp hn ↦ read_afterSession (p := p) hcf hsize hle hp hn
  by_cases hframes : w.state.frames = []
  · refine iff_of_true ⟨pageCount_afterSession hcf hsize hle hframes, fun p hp hn ↦ ?_⟩
      (.inl hframes)
    rw [hread p hp hn]
    simp [WalState.latest, hframes]
  · have hcount : (afterSession lib o w).pageCount o.pageSize = w.state.dbSize := by
      simp [WalState.pageCount, afterSession, hframes]
    constructor
    · rintro ⟨hsame, hpages⟩
      refine .inr ⟨hcount.symm.trans hsame, fun p data hp hn hdata ↦ ?_⟩
      have h := hpages p hp hn
      rwa [hread p hp hn, hdata] at h
    · rintro (hnil | ⟨hsame, hpages⟩)
      · exact absurd hnil hframes
      · refine ⟨hcount.trans hsame, fun p hp hn ↦ ?_⟩
        rw [hread p hp hn]
        cases hlatest : w.state.latest p with
        | none => rfl
        | some data => exact hpages p data hp hn hlatest

end After

def WalSyncEnds (lib : Crates) (conn : Connection) (tO tR : SyncTuning) (o : Snapshot)
    (w : WalReplica) (z : State WalState) : Prop :=
  EndsIn (Moves (WalState.handle conn.pageSize)) (start lib o conn tO tR w.state) z

variable (lib tO tR) in
theorem wal_session_ends (hf : Fits conn o w.view) (hle : w.view.pageCount ≤ o.pageCount)
    (hn : o.pageCount + 64 ≤ u32Bound) :
    ∃ z, WalSyncEnds lib conn tO tR o w z ∧ (z.left.proc = .ret () ∧ z.right.proc = .ret ()) ∧
      z.right.store = afterSession lib o w := by
  have hconn : conn.pageSize = w.pageSize := hf.replica
  have hsize : w.pageSize = o.pageSize := hconn.symm.trans hf.origin
  unfold WalSyncEnds
  rw [hconn]
  obtain ⟨back, hend⟩ := session_ends lib tO tR (wal_serves w) hf hle hn
  refine ⟨_, hend, ⟨rfl, rfl⟩, ?_⟩
  rw [meet, hconn, applyWrites_wal, hsize]
  rfl

section Sample

def shadowed (b : UInt8) : WalReplica where
  state := ⟨zeroPage, [⟨1, List.replicate 512 b⟩], 1⟩
  pageSize := 512
  pageSize_pos := oneBlank.pageSize_pos
  pageSize_lt := oneBlank.pageSize_lt
  pageCount_lt := oneBlank.pageCount_lt
  main_whole := by rw [zeroPage, List.length_replicate]
  frame_whole frame hframe := by
    cases List.mem_singleton.mp hframe
    exact List.length_replicate
  covered p hp hn := by
    obtain rfl : p = 1 := le_antisymm hn hp
    exact .inl rfl

theorem shadowed_tabulated {b : UInt8} (hb : b = 0 ∨ b = 1) : Tabulated (shadowed b).view where
  pages p hp hn := by
    obtain rfl : p = 1 := le_antisymm hn hp
    rcases hb with rfl | rfl <;> decide +kernel
  groups g hg := by
    have hcount : (shadowed b).view.pageCount = 1 := rfl
    rw [hcount] at hg
    obtain rfl : g = 0 := Nat.lt_one_iff.mp hg
    rcases hb with rfl | rfl <;> decide +kernel

end Sample

/-- After a session onto a WAL database that both handlers complete, SQLite reads the origin's
database exactly when the frames left in the WAL agree with it. -/
theorem wal_sync_iff (hcf : CollisionFree lib .blake3V2 o w.view) (hf : Fits conn o w.view)
    (hle : w.view.pageCount ≤ o.pageCount) :
    (∃ z, WalSyncEnds lib conn tO tR o w z ∧
      (z.left.proc = .ret () ∧ z.right.proc = .ret () → ReadsAs o z.right.store)) ↔
      u32Bound < o.pageCount + 64 ∨ FramesAgree o w.state := by
  have hsize : w.pageSize = o.pageSize := hf.replica.symm.trans hf.origin
  by_cases hn : u32Bound < o.pageCount + 64
  · refine iff_of_true ?_ (.inl hn)
    unfold WalSyncEnds
    rw [show conn.pageSize = w.pageSize from hf.replica]
    obtain ⟨z, hend, hpanic, -⟩ := overflow_ends lib tO tR (wal_serves w) hf hle hn
    refine ⟨z, hend, fun h ↦ ?_⟩
    rw [hpanic] at h
    cases h.2
  · obtain ⟨z, hend, hok, hstore⟩ := wal_session_ends lib tO tR hf hle (not_lt.mp hn)
    rw [← readsAs_iff hcf hsize hle, ← hstore]
    constructor
    · rintro ⟨z', hend', hz'⟩
      rw [EndsIn.unique hend' hend] at hz'
      exact .inr (hz' hok)
    · rintro (h | h)
      · exact absurd h hn
      · exact ⟨z, hend, fun _ ↦ h⟩

theorem wal_sync_shadowed_alike :
    ∃ z, WalSyncEnds tabulated ⟨512, true⟩ {} {} onesImage (shadowed 1) z ∧
      (z.left.proc = .ret () ∧ z.right.proc = .ret () → ReadsAs onesImage z.right.store) := by
  refine (wal_sync_iff (onesImage_tabulated.collisionFree (shadowed_tabulated (.inr rfl)))
    ⟨rfl, rfl, rfl⟩ le_rfl).mpr (.inr (.inr ⟨rfl, fun p data hp hn hdata ↦ ?_⟩))
  obtain rfl : p = 1 := le_antisymm hn hp
  cases hdata
  decide +kernel

/-- The blank page in the WAL hides the page that the session wrote to the main file. -/
theorem wal_sync_shadowed_differently :
    ∃ z, WalSyncEnds tabulated ⟨512, true⟩ {} {} onesImage (shadowed 0) z ∧
      (z.left.proc = .ret () ∧ z.right.proc = .ret ()) ∧ ¬ ReadsAs onesImage z.right.store := by
  have hcf := onesImage_tabulated.collisionFree (shadowed_tabulated (.inl rfl))
  have hf : Fits ⟨512, true⟩ onesImage (shadowed 0).view := ⟨rfl, rfl, rfl⟩
  obtain ⟨z, hend, hok, hstore⟩ := wal_session_ends tabulated {} {} hf le_rfl (by decide)
  refine ⟨z, hend, hok, fun h ↦ ?_⟩
  rw [hstore, readsAs_iff hcf rfl le_rfl] at h
  rcases h with hnil | ⟨-, hpages⟩
  · cases hnil
  · exact absurd (hpages 1 _ one_pos le_rfl rfl) (by decide +kernel)

end RsqliteRsync.Protocol.Session
