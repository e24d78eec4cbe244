import RsqliteRsync.Protocol.Convergence

namespace RsqliteRsync.Protocol.Session

open Foundation.Process Foundation.Schedule Db

variable {lib : Crates} {o : Image} {conn : Connection} {tO tR : SyncTuning}

def emptyImage (o : Image) : Image where
  bytes := []
  pageSize := o.pageSize
  pageCount := 0
  pageSize_pos := o.pageSize_pos
  pageSize_lt := o.pageSize_lt
  pageCount_lt := Nat.zero_lt_of_lt o.pageCount_lt
  length_eq := (Nat.zero_mul _).symm

/-- The joint run onto an empty file, for which the connection reports any page size. -/
def EmptySyncEnds (lib : Crates) (conn : Connection) (tO tR : SyncTuning) (o : Snapshot)
    (z : State Disk) : Prop :=
  EndsIn (Moves (Disk.handle conn.pageSize)) (start lib o conn tO tR ⟨[], []⟩) z

theorem empty_serves (size : ℕ) : Serves (Disk.handle size) ⟨[], []⟩ (emptyImage o) where
  pageCount := by
    rw [Disk.handle, List.length_nil, Nat.zero_div]
    rfl
  serialize h := absurd h (lt_irrefl 0)
  writeAt _ _ _ := rfl

variable (lib tO tR) in
theorem mismatch_ends (hzero : conn.pageSize ≠ 0) (hne : conn.pageSize ≠ o.pageSize) :
    ∃ z, EmptySyncEnds lib conn tO tR o z ∧
      z.left.proc = .fail (.err (.pageSizeMismatch o.pageSize conn.pageSize)) := by
  have hsize : o.pageSize ≠ conn.pageSize ∧ conn.pageSize ≠ 0 := ⟨hne.symm, hzero⟩
  have hrun : Reaches (Moves (Disk.handle conn.pageSize)) (start lib o conn tO tR ⟨[], []⟩)
      (meet (.fail (.err (.pageSizeMismatch o.pageSize conn.pageSize)))
        (.fail (.err (.protocol (s!"page size mismatch: origin={o.pageSize}, " ++
          s!"replica={conn.pageSize}")))) () ⟨[], []⟩
        [.error (s!"page size mismatch: origin={o.pageSize}, " ++ s!"replica={conn.pageSize}")]
        [.hello 2 conn.pageSize 0]) := by
    unfold start Replica.runWithTuning
    refine (right_calls (empty_serves (o := o) conn.pageSize).pageCount _ _).trans ?_
    simp only [orFail_ok, Replica.handshake, Origin.runWithTuning, Origin.handshake, send, recv,
      Proc.send_bind, Proc.recv_bind, bind_assoc]
    refine (right_sends _ _).trans ?_
    simp only [orFail_ok, Proc.ret_bind, Origin.expectHello, Proc.pure_eq, PROTOCOL_VERSION,
      min_self, HashAlgorithm.fromProtocolVersion, OfNat.ofNat_ne_zero, if_false, if_pos hsize,
      Proc.send_bind]
    exact left_sends _ _
  exact ⟨_, endsIn_meet hrun trivial trivial, rfl⟩

theorem applyPages_refused {pages : List PageData} (hne : pages ≠ [])
    (hp : ∀ page ∈ pages, 0 < page.pageNo ∧ page.data.length ≠ conn.pageSize) :
    ∃ error, Replica.applyPages conn pages = .fail (.err error) := by
  obtain ⟨page, rest, rfl⟩ := List.exists_cons_of_ne_nil hne
  obtain ⟨hno, hlen⟩ := hp page List.mem_cons_self
  rw [Replica.applyPages, Connection.writePage, if_neg hno.ne', if_pos hlen]
  exact ⟨_, rfl⟩

theorem first_group (hcf : CollisionFree lib .blake3V2 o (emptyImage o)) (ho : 0 < o.pageCount) :
    ∃ rest, fineGroups lib o (emptyImage o) = 0 :: rest := by
  have hmem : 0 ∈ fineGroups lib o (emptyImage o) :=
    (mem_fineGroups_iff hcf (Nat.zero_le _) ho).mpr
      ⟨1, mem_groupPageNos.mpr ⟨by omega, by omega, ho⟩, .inl Nat.zero_lt_one⟩
  have hsorted := fineGroups_sorted lib o (emptyImage o)
  cases hgroups : fineGroups lib o (emptyImage o) with
  | nil =>
    rw [hgroups] at hmem
    cases hmem
  | cons g rest =>
    rw [hgroups] at hmem hsorted
    rcases List.mem_cons.mp hmem with rfl | hrest
    · exact ⟨rest, rfl⟩
    · exact absurd ((List.pairwise_cons.mp hsorted).1 0 hrest) (Nat.not_lt_zero g)

variable (tO tR) in
theorem zero_size_ends (hcf : CollisionFree lib .blake3V2 o (emptyImage o)) (ho : 0 < o.pageCount)
    (hzero : conn.pageSize = 0) :
    ∃ z error, EmptySyncEnds lib conn tO tR o z ∧ z.right.proc = .fail (.err error) := by
  have hhash : Replica.allPageHashes lib tR .blake3V2 (emptyImage o).bytes conn.pageSize
      (emptyImage o).pageCount = pure (Replica.pageHashList lib .blake3V2 (emptyImage o)) := by
    rw [Replica.allPageHashes, computeWithParallelism_eq _ _ _ (lib.parMap_eq _ _)]
    rfl
  have hsmall : (emptyImage o).pageCount + 64 ≤ u32Bound := show 0 + 64 ≤ u32Bound by decide
  obtain ⟨rest, hgroups⟩ := first_group hcf ho
  have hpages : Origin.sentPages lib .blake3V2 o (emptyImage o) 0 ≠ [] := by
    have hfirst : 1 ∈ (groupPageNos 0 o.pageCount).filter
        (HashDiffers lib .blake3V2 o (emptyImage o)) :=
      List.mem_filter.mpr ⟨mem_groupPageNos.mpr ⟨by omega, by omega, ho⟩,
        decide_eq_true (.inl Nat.zero_lt_one)⟩
    exact List.ne_nil_of_mem (List.mem_map_of_mem hfirst)
  have hvalid : ∀ page ∈ Origin.sentPages lib .blake3V2 o (emptyImage o) 0,
      0 < page.pageNo ∧ page.data.length ≠ conn.pageSize := by
    intro page hpage
    have hown : (⟨o.pageSize, true⟩ : Connection).pageSize = o.pageSize := rfl
    obtain ⟨hno, hlen⟩ := sentPages_valid hown page hpage
    exact ⟨hno, by rw [hlen, hzero]; exact o.pageSize_pos.ne'⟩
  obtain ⟨error, hrefused⟩ := applyPages_refused hpages hvalid
  have hcoarse := (handshake_accepted (o := o) lib tO tR (empty_serves conn.pageSize) (.inl hzero)
    hhash).trans (coarse_run hsmall _)
  rw [hgroups, afterCoarse, if_neg (List.cons_ne_nil 0 rest), Origin.finePass, bind_assoc]
    at hcoarse
  have hround := hcoarse.trans (round_opens (by decide) _ _)
  rw [Origin.changedPages_eq tO (by decide) (by simp [groupPageNos, emptyImage]), lift_pure,
    Proc.ret_bind] at hround
  simp only [Origin.sendChanged, recv, send, Proc.recv_bind, Proc.send_bind, bind_assoc] at hround
  have hsent := hround.trans (left_sends _ _)
  simp only [orFail_ok, Proc.ret_bind, Replica.onAnswer, hrefused, Proc.fail_bind] at hsent
  exact ⟨_, error, endsIn_meet hsent trivial trivial, rfl⟩

theorem empty_replica_refused (hcf : CollisionFree lib .blake3V2 o (emptyImage o))
    (ho : 0 < o.pageCount) (hne : conn.pageSize ≠ o.pageSize) :
    ¬ ∃ z, EmptySyncEnds lib conn tO tR o z ∧ Synced o z := by
  by_cases hzero : conn.pageSize = 0
  · obtain ⟨z, error, hend, hfail⟩ := zero_size_ends tO tR hcf ho hzero
    exact not_synced_of_fail hend (.inr hfail)
  · obtain ⟨z, hend, hfail⟩ := mismatch_ends lib tO tR hzero hne
    exact not_synced_of_fail hend (.inl hfail)

/-- An empty replica takes over the snapshot exactly when its connection reports the page size of
the origin and the origin ends at least 64 pages below `2 ^ 32`. -/
theorem empty_replica_syncs_iff (hcf : CollisionFree lib .blake3V2 o (emptyImage o))
    (hw : conn.writable = true) (ho : 0 < o.pageCount) :
    (∃ z, EmptySyncEnds lib conn tO tR o z ∧ Synced o z) ↔
      conn.pageSize = o.pageSize ∧ o.pageCount + 64 ≤ u32Bound := by
  by_cases hsize : conn.pageSize = o.pageSize
  · have hf : Fits conn o (emptyImage o) := ⟨hw, hsize, hsize⟩
    have hle : (emptyImage o).pageCount ≤ o.pageCount := Nat.zero_le _
    unfold EmptySyncEnds
    rw [hsize]
    constructor
    · intro hsynced
      refine ⟨rfl, not_lt.mp fun hn ↦ ?_⟩
      obtain ⟨z, hend, hfail, -⟩ := overflow_ends lib tO tR (empty_serves o.pageSize) hf hle hn
      exact not_synced_of_fail hend (.inr hfail) hsynced
    · exact fun h ↦ session_syncs tO tR hcf hf hle h.2
  · exact iff_of_false (empty_replica_refused hcf ho hsize) fun h ↦ hsize h.1

theorem empty_replica_one_blank :
    ∃ z, EmptySyncEnds tabulated ⟨512, true⟩ {} {} oneBlank z ∧ Synced oneBlank z := by
  have hcf : CollisionFree tabulated .blake3V2 oneBlank (emptyImage oneBlank) :=
    oneBlank_tabulated.collisionFree (blankImage_tabulated (n := 0) (by decide) (by decide))
  exact (empty_replica_syncs_iff hcf rfl (by decide)).mpr ⟨rfl, by decide⟩

theorem empty_replica_other_page_size :
    ¬ ∃ z, EmptySyncEnds tabulated ⟨4096, true⟩ {} {} oneBlank z ∧ Synced oneBlank z := by
  have hends : ∃ z, EmptySyncEnds tabulated ⟨4096, true⟩ {} {} oneBlank z ∧
      z.left.proc = .fail (.err (.pageSizeMismatch 512 4096)) :=
    mismatch_ends tabulated {} {} (by decide) (by decide)
  obtain ⟨z, hend, hfail⟩ := hends
  exact not_synced_of_fail hend (.inl hfail)

end RsqliteRsync.Protocol.Session
