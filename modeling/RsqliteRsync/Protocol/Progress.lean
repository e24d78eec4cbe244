import RsqliteRsync.Protocol.Convergence

namespace RsqliteRsync.Protocol.Session

open Foundation.PagedFile Foundation.Process Foundation.Schedule Db

variable {lib : Crates} {o r : Image} {conn : Connection} {tO tR : SyncTuning}

section Mixture

/-- The first pages of the origin, followed by what the replica had after as many pages. -/
def mixture (o r : Image) (n : ℕ) : List UInt8 :=
  o.bytes.take (n * o.pageSize) ++ r.bytes.drop (n * o.pageSize)

variable (o) in
theorem take_succ_pages (n : ℕ) :
    o.bytes.take ((n + 1) * o.pageSize) = o.bytes.take (n * o.pageSize) ++ o.page (n + 1) := by
  rw [Nat.succ_mul, List.take_add]
  rfl

theorem length_take_pages {n : ℕ} (hn : n ≤ o.pageCount) :
    (o.bytes.take (n * o.pageSize)).length = n * o.pageSize := by
  rw [List.length_take, o.length_eq, min_eq_left (Nat.mul_le_mul_right _ hn)]

theorem mixture_of_written {n : ℕ} (hn : n < o.pageCount) :
    overwrite 0 (mixture o r n) (n * o.pageSize) (o.page (n + 1)) = mixture o r (n + 1) := by
  have hover := overwrite_append 0 (o.bytes.take (n * o.pageSize))
    (r.bytes.drop (n * o.pageSize)) (o.page (n + 1))
  rw [length_take_pages hn.le, o.length_page (Nat.succ_pos n) hn, List.drop_drop] at hover
  rw [mixture, hover, mixture, take_succ_pages, Nat.succ_mul]

theorem mixture_of_kept (hsize : r.pageSize = o.pageSize) {n : ℕ}
    (hd : ¬ Differs o r (n + 1)) : mixture o r n = mixture o r (n + 1) := by
  have hpage : r.page (n + 1) = o.page (n + 1) := not_not.mp fun h ↦ hd (.inr h)
  have hback : r.bytes.drop (n * o.pageSize) =
      o.page (n + 1) ++ r.bytes.drop ((n + 1) * o.pageSize) := by
    rw [← hpage, Nat.succ_mul, ← List.drop_drop, ← hsize]
    exact (List.take_append_drop r.pageSize _).symm
  rw [mixture, hback, mixture, take_succ_pages, List.append_assoc]

def differingPages (o r : Image) (n : ℕ) : List PageData :=
  ((List.range' 1 n).filter (Differs o r)).map fun p ↦ ⟨p, o.page p⟩

variable (o r) in
theorem differingPages_succ (n : ℕ) :
    differingPages o r (n + 1) = differingPages o r n ++
      if Differs o r (n + 1) then [⟨n + 1, o.page (n + 1)⟩] else [] := by
  rw [differingPages, List.range'_1_concat, List.filter_append, List.map_append, Nat.add_comm 1]
  by_cases hd : Differs o r (n + 1)
  · simp [differingPages, hd]
  · simp [differingPages, hd]

theorem writePages_differing (hsize : r.pageSize = o.pageSize) {n : ℕ} (hn : n ≤ o.pageCount) :
    writePages 0 o.pageSize r.bytes (asWrites (differingPages o r n)) = mixture o r n := by
  induction n with
  | zero => simp [differingPages, asWrites, writePages, mixture]
  | succ n ih =>
    rw [differingPages_succ, asWrites, List.map_append, ← asWrites, writePages_append,
      ih (Nat.le_of_succ_le hn)]
    split
    case isTrue hd => exact mixture_of_written hn
    case isFalse hd => exact mixture_of_kept hsize hd

theorem eq_range'_of_prefix {front : List ℕ} {a n : ℕ} (h : front <+: List.range' a n) :
    front = List.range' a front.length := by
  refine List.ext_getElem List.length_range'.symm fun i hi _ ↦ ?_
  rw [h.getElem hi, List.getElem_range', List.getElem_range']

/-- A list of pages that begins the differing ones stops at some page number. -/
theorem prefix_differing {n : ℕ} {pages : List PageData} (h : pages <+: differingPages o r n) :
    ∃ m ≤ n, pages = differingPages o r m := by
  obtain ⟨nos, hnos, rfl⟩ := List.prefix_map_iff.mp h
  obtain ⟨front, hfront, rfl⟩ := List.prefix_filter_iff.mp hnos
  have hlen := hfront.length_le
  rw [List.length_range'] at hlen
  exact ⟨front.length, hlen, by rw [differingPages, ← eq_range'_of_prefix hfront]⟩

end Mixture

section Replay

/-- The file is the one at the start with the writes so far made to it. -/
def Replays (file : List UInt8) (d : Disk) : Prop :=
  d.file = d.writes.foldl (fun f w ↦ overwrite 0 f w.1 w.2) file

theorem replays_handle {size : ℕ} {file : List UInt8} (e : ConnOp) (d : Disk)
    (h : Replays file d) : Replays file (Disk.handle size e d).2 := by
  cases e with
  | pageCount => exact h
  | serialize => exact h
  | writeAt off data => simp [Replays, Disk.handle, List.foldl_append, ← h.symm]

theorem writes_prefix {size : ℕ} {d : Disk} (e : ConnOp) (d' : Disk) (h : d.writes <+: d'.writes) :
    d.writes <+: (Disk.handle size e d').2.writes := by
  cases e with
  | pageCount => exact h
  | serialize => exact h
  | writeAt off data => exact h.trans (List.prefix_append _ _)

def placed (size : ℕ) (pages : List PageData) : List (ℕ × List UInt8) :=
  (asWrites pages).map fun w ↦ (w.1 * size, w.2)

theorem prefix_placed {size : ℕ} {n : ℕ} {writes : List (ℕ × List UInt8)}
    (h : writes <+: placed size (differingPages o r n)) :
    ∃ m ≤ n, writes = placed size (differingPages o r m) := by
  obtain ⟨ws, hws, rfl⟩ := List.prefix_map_iff.mp h
  obtain ⟨pages, hpages, rfl⟩ := List.prefix_map_iff.mp hws
  obtain ⟨m, hm, rfl⟩ := prefix_differing hpages
  exact ⟨m, hm, rfl⟩

theorem Replays.file_eq (hsize : r.pageSize = o.pageSize) {n : ℕ} (hn : n ≤ o.pageCount)
    {d : Disk} (h : Replays r.bytes d) (hw : d.writes = placed o.pageSize (differingPages o r n)) :
    d.file = mixture o r n := by
  rw [h, hw, placed, List.foldl_map]
  exact writePages_differing hsize hn

/-- The writes of a session, however far it has come, begin those of the differing pages. -/
theorem writes_of_reaches (hcf : CollisionFree lib .blake3V2 o r) (hf : Fits conn o r)
    (hle : r.pageCount ≤ o.pageCount) (hn : o.pageCount + 64 ≤ u32Bound) {z : State Disk}
    (h : Reaches (Moves (Disk.handle conn.pageSize)) (start lib o conn tO tR r.disk) z) :
    z.right.store.writes <+: placed o.pageSize (differingPages o r o.pageCount) := by
  obtain ⟨back, -, total, hcont⟩ :=
    session_ends lib tO tR (hf.replica ▸ disk_serves r) hf hle hn
  -- every state of the run can be continued to its end, and the writes are only added to
  obtain ⟨m, hm⟩ := h
  obtain ⟨k, -, hk⟩ := hcont m z hm
  have hlast := reaches_right_store (fun e d ↦ writes_prefix e d) ⟨k, hk⟩
    (List.prefix_refl z.right.store.writes)
  rwa [meet, applyWrites_disk, allSentPages_eq hcf hle, hf.origin] at hlast

theorem mixture_of_reaches (hcf : CollisionFree lib .blake3V2 o r) (hf : Fits conn o r)
    (hle : r.pageCount ≤ o.pageCount) (hn : o.pageCount + 64 ≤ u32Bound) {z : State Disk}
    (h : Reaches (Moves (Disk.handle conn.pageSize)) (start lib o conn tO tR r.disk) z) :
    ∃ n ≤ o.pageCount, z.right.store.file = mixture o r n := by
  obtain ⟨n, hle', hw⟩ := prefix_placed (writes_of_reaches hcf hf hle hn h)
  have hreplays : Replays r.bytes z.right.store :=
    reaches_right_store (fun e d ↦ replays_handle e d) h rfl
  exact ⟨n, hle', hreplays.file_eq (hf.replica.symm.trans hf.origin) hle' hw⟩

end Replay

/-- At any moment of a session, however it is scheduled, the replica's file is the origin up to some
page and the old replica from there on, and that page only moves forward. -/
theorem sync_in_page_order (hcf : CollisionFree lib .blake3V2 o r) (hf : Fits conn o r)
    (hle : r.pageCount ≤ o.pageCount) (hn : o.pageCount + 64 ≤ u32Bound) {z z' : State Disk}
    (h : Reaches (Moves (Disk.handle conn.pageSize)) (start lib o conn tO tR r.disk) z)
    (h' : Reaches (Moves (Disk.handle conn.pageSize)) z z') :
    ∃ n n', n ≤ n' ∧ n' ≤ o.pageCount ∧ z.right.store.file = mixture o r n ∧
      z'.right.store.file = mixture o r n' := by
  have hsize : r.pageSize = o.pageSize := hf.replica.symm.trans hf.origin
  have hearly : z.right.store.writes <+: z'.right.store.writes :=
    reaches_right_store (fun e d ↦ writes_prefix e d) h' (List.prefix_refl z.right.store.writes)
  have hreplays : Replays r.bytes z.right.store :=
    reaches_right_store (fun e d ↦ replays_handle e d) h rfl
  obtain ⟨n', hn', hw'⟩ := prefix_placed (writes_of_reaches hcf hf hle hn (h.trans h'))
  obtain ⟨n, hnn, hw⟩ := prefix_placed (hw' ▸ hearly)
  exact ⟨n, n', hnn, hn', hreplays.file_eq hsize (hnn.trans hn') hw,
    (reaches_right_store (fun e d ↦ replays_handle e d) h' hreplays).file_eq hsize hn' hw'⟩

theorem sync_in_page_order_two_pages :
    ∃ z, Reaches (Moves (Disk.handle 512))
        (start tabulated twoPages ⟨512, true⟩ {} {} oneBlank.disk) z ∧ Synced twoPages z ∧
      ∃ n n', n ≤ n' ∧ n' ≤ 2 ∧ oneBlank.bytes = mixture twoPages oneBlank n ∧
        z.right.store.file = mixture twoPages oneBlank n' := by
  have hcf := twoPages_tabulated.collisionFree oneBlank_tabulated
  have hf : Fits ⟨512, true⟩ twoPages oneBlank := ⟨rfl, rfl, rfl⟩
  obtain ⟨z, hend, hsynced⟩ := session_syncs {} {} hcf hf (by decide) (by decide)
  exact ⟨z, hend.reaches, hsynced, sync_in_page_order hcf hf (by decide) (by decide)
    (.refl _) hend.reaches⟩

end RsqliteRsync.Protocol.Session
