import RsqliteRsync.Protocol.Panics
import RsqliteRsync.Protocol.SentPages

namespace RsqliteRsync.Protocol.Session

open Foundation.PagedFile Foundation.Process Foundation.Schedule Db

variable {lib : Crates} {o r : Image} {conn : Connection} {tO tR : SyncTuning}

section Written

def asWrites (pages : List PageData) : List (ℕ × List UInt8) :=
  pages.map fun page ↦ (page.pageNo - 1, page.data)

theorem applyWrites_disk (size : ℕ) (d : Disk) (pages : List PageData) :
    applyWrites (Disk.handle size) size d pages =
      ⟨writePages 0 size d.file (asWrites pages),
        d.writes ++ (asWrites pages).map fun w ↦ (w.1 * size, w.2)⟩ := by
  induction pages generalizing d with
  | nil => simp [applyWrites, asWrites, writePages]
  | cons page pages ih =>
    rw [applyWrites, List.foldl_cons, ← applyWrites, ih]
    simp [Disk.handle, asWrites, writePages]

variable (hcf : CollisionFree lib .blake3V2 o r) (hle : r.pageCount ≤ o.pageCount)
include hcf hle

theorem asWrites_spec {w : ℕ × List UInt8} (hw : w ∈ asWrites (allSentPages lib o r)) :
    w.1 < o.pageCount ∧ w.2.length = o.pageSize := by
  obtain ⟨page, hpage, rfl⟩ := List.mem_map.mp hw
  obtain ⟨⟨hpos, hn, -⟩, hdata⟩ := (mem_allSentPages hcf hle).mp hpage
  refine ⟨(by omega : page.pageNo - 1 < o.pageCount), ?_⟩
  rw [hdata, o.length_page hpos hn]

theorem asWrites_nodup : ((asWrites (allSentPages lib o r)).map Prod.fst).Nodup := by
  have hmap : (asWrites (allSentPages lib o r)).map Prod.fst =
      ((allSentPages lib o r).map (·.pageNo)).map (· - 1) := by
    simp [asWrites]
  rw [hmap]
  refine List.Nodup.map_on ?_ ((allSentPages_sorted hcf hle).imp ne_of_lt)
  intro p hp q hq hpq
  obtain ⟨page, hpage, rfl⟩ := List.mem_map.mp hp
  obtain ⟨page', hpage', rfl⟩ := List.mem_map.mp hq
  have h := ((mem_allSentPages hcf hle).mp hpage).1.1
  have h' := ((mem_allSentPages hcf hle).mp hpage').1.1
  omega

variable {p : ℕ} (hp : 0 < p) (file : List UInt8)
include hp

theorem page_written (hn : p ≤ o.pageCount) (hd : Differs o r p) :
    pageAt o.pageSize (writePages 0 o.pageSize file (asWrites (allSentPages lib o r))) (p - 1) =
        o.page p ∧
      p * o.pageSize ≤
        (writePages 0 o.pageSize file (asWrites (allSentPages lib o r))).length := by
  have hmem : (p - 1, o.page p) ∈ asWrites (allSentPages lib o r) :=
    List.mem_map.mpr ⟨⟨p, o.page p⟩, (mem_allSentPages hcf hle).mpr ⟨⟨hp, hn, hd⟩, rfl⟩, rfl⟩
  obtain ⟨i, rfl⟩ := Nat.exists_eq_add_of_lt hp
  exact pageAt_writePages_of_mem (fun w hw ↦ (asWrites_spec hcf hle hw).2)
    (asWrites_nodup hcf hle) hmem

theorem page_kept (hd : ¬ Differs o r p) (hfile : p * o.pageSize ≤ file.length) :
    pageAt o.pageSize (writePages 0 o.pageSize file (asWrites (allSentPages lib o r))) (p - 1) =
      pageAt o.pageSize file (p - 1) := by
  refine pageAt_writePages_of_notMem (fun w hw ↦ (asWrites_spec hcf hle hw).2) ?_
    (by rwa [Nat.sub_add_cancel hp])
  intro hmem
  obtain ⟨w, hw, hfst⟩ := List.mem_map.mp hmem
  obtain ⟨page, hpage, rfl⟩ := List.mem_map.mp hw
  obtain ⟨⟨hpos, -, hdiff⟩, -⟩ := (mem_allSentPages hcf hle).mp hpage
  have heq : page.pageNo = p := by
    dsimp only at hfst
    omega
  exact hd (heq ▸ hdiff)

omit hp in
theorem length_written (hfile : r.pageCount * o.pageSize ≤ file.length)
    (hfile' : file.length ≤ o.pageCount * o.pageSize) :
    (writePages 0 o.pageSize file (asWrites (allSentPages lib o r))).length =
      o.pageCount * o.pageSize := by
  refine le_antisymm (writePages_length_le hfile' fun w hw ↦ asWrites_spec hcf hle hw) ?_
  rcases hle.eq_or_lt with heq | hlt
  · rw [heq] at hfile
    exact hfile.trans length_le_writePages
  · exact (page_written hcf hle (by omega) file le_rfl (.inl hlt)).2

omit hp in
theorem file_written (hsize : r.pageSize = o.pageSize) :
    writePages 0 o.pageSize r.bytes (asWrites (allSentPages lib o r)) = o.bytes := by
  have hlen : r.bytes.length = r.pageCount * o.pageSize := by rw [r.length_eq, hsize]
  have hmul : r.pageCount * o.pageSize ≤ o.pageCount * o.pageSize := Nat.mul_le_mul_right _ hle
  refine file_ext o.pageSize_pos (length_written hcf hle _ hlen.ge (hlen.le.trans hmul))
    o.length_eq fun i hi ↦ ?_
  by_cases hd : Differs o r (i + 1)
  · exact (page_written hcf hle (Nat.succ_pos i) r.bytes hi hd).1
  · have hkept := page_kept hcf hle (Nat.succ_pos i) r.bytes hd (by
      have hr : i + 1 ≤ r.pageCount := not_lt.mp fun h ↦ hd (.inl h)
      rw [hlen]
      exact Nat.mul_le_mul_right _ hr)
    have hpage : r.page (i + 1) = o.page (i + 1) := not_not.mp fun h ↦ hd (.inr h)
    rw [Image.page, Image.page, hsize] at hpage
    exact hkept.trans hpage

end Written

theorem disk_serves (r : Image) : Serves (Disk.handle r.pageSize) r.disk r where
  pageCount := by
    rw [Disk.handle, Image.disk, r.length_eq, Nat.mul_div_cancel _ r.pageSize_pos]
  serialize _ := rfl
  writeAt _ _ _ := rfl

section Sample

def zeroPage : List UInt8 := List.replicate 512 0

def onePage : List UInt8 := List.replicate 512 1

def zeroPageHash : PageHash := #v[191, 166, 18, 21, 82, 0, 63, 230, 143, 108, 7, 39, 165, 179, 157,
  56, 10, 137, 19, 151, 176, 84, 148, 144, 31, 134, 68, 96, 57, 197, 108, 36]

def onePageHash : PageHash := #v[236, 158, 65, 178, 98, 170, 175, 234, 29, 126, 186, 120, 39, 56,
  147, 88, 69, 32, 202, 157, 116, 17, 22, 36, 150, 37, 255, 11, 230, 168, 175, 62]

/-- The BLAKE3 digests of two pages and of the groups made of them. -/
def blake3Table (data : List UInt8) : PageHash :=
  if data = zeroPage then zeroPageHash
  else if data = onePage then onePageHash
  else if data = zeroPageHash.toList then #v[103, 225, 94, 184, 249, 255, 19, 114, 82, 80, 183,
    240, 236, 234, 33, 46, 224, 116, 189, 43, 141, 104, 250, 167, 28, 212, 158, 183, 178, 102, 44,
    57]
  else if data = onePageHash.toList then #v[113, 66, 160, 89, 221, 46, 146, 124, 104, 92, 127, 48,
    217, 82, 73, 199, 74, 81, 31, 30, 251, 203, 254, 11, 54, 154, 246, 235, 91, 42, 205, 128]
  else if data = zeroPageHash.toList ++ onePageHash.toList then #v[43, 243, 94, 153, 222, 132, 240,
    189, 181, 241, 254, 86, 182, 251, 14, 105, 10, 137, 148, 206, 160, 120, 203, 85, 53, 125, 53,
    80, 18, 78, 227, 78]
  else if data = (List.replicate 64 zeroPageHash.toList).flatten then #v[101, 17, 111, 6, 153, 169,
    182, 157, 19, 164, 158, 179, 130, 162, 149, 105, 164, 155, 15, 107, 121, 68, 50, 220, 158, 84,
    53, 83, 230, 123, 186, 191]
  else #v[175, 19, 73, 185, 245, 249, 161, 166, 160, 64, 77, 234, 54, 220, 201, 73, 155, 203, 37,
    201, 173, 193, 18, 183, 204, 154, 147, 202, 228, 31, 50, 98]

def tabulated : Crates where
  digest _ := blake3Table
  parMap f l := l.mapM f
  parMap_eq _ _ := rfl
  parFilterMap f l := l.filterMapM f
  parFilterMap_eq _ _ := rfl
  buildPool _ := true
  install f := f ()
  install_eq _ := rfl

theorem tabulated_digest (a : HashAlgorithm) (data : List UInt8) :
    tabulated.digest a data = blake3Table data := rfl

def knownPages : List (List UInt8) := [zeroPage, onePage]

def knownGroups : List (List PageHash) :=
  [[], [zeroPageHash], [onePageHash], [zeroPageHash, onePageHash], List.replicate 64 zeroPageHash]

structure Tabulated (img : Image) : Prop where
  pages : ∀ p, 0 < p → p ≤ img.pageCount → img.page p ∈ knownPages
  groups : ∀ g < max (groupCount img.pageCount) 1,
    groupInput tabulated .blake3V2 img g ∈ knownGroups

theorem Tabulated.collisionFree {o r : Image} (ho : Tabulated o) (hr : Tabulated r) :
    CollisionFree tabulated .blake3V2 o r where
  pages := by
    have hnodup : (knownPages.map fun data ↦ hashPageFor tabulated data .blake3V2).Nodup := by
      decide +kernel
    have hknown : ∀ data, (∃ p, (0 < p ∧ p ≤ o.pageCount ∧ data = o.page p) ∨
        (0 < p ∧ p ≤ r.pageCount ∧ data = r.page p)) → data ∈ knownPages := by
      rintro data ⟨p, ⟨hp, hn, rfl⟩ | ⟨hp, hn, rfl⟩⟩
      · exact ho.pages p hp hn
      · exact hr.pages p hp hn
    intro x hx y hy hxy
    exact List.inj_on_of_nodup_map hnodup (hknown x hx) (hknown y hy) hxy
  groups := by
    have hnodup : (knownGroups.map fun hashes ↦ hashGroupFor tabulated hashes .blake3V2).Nodup := by
      decide +kernel
    have hknown : ∀ hashes, (∃ g, (g < groupCount o.pageCount ∧
        hashes = groupInput tabulated .blake3V2 o g) ∨ (g < max (groupCount r.pageCount) 1 ∧
        hashes = groupInput tabulated .blake3V2 r g)) → hashes ∈ knownGroups := by
      rintro hashes ⟨g, ⟨hg, rfl⟩ | ⟨hg, rfl⟩⟩
      · exact ho.groups g (lt_max_of_lt_left hg)
      · exact hr.groups g hg
    intro x hx y hy hxy
    exact List.inj_on_of_nodup_map hnodup (hknown x hx) (hknown y hy) hxy

def blankImage (n : ℕ) (hn : n < u32Bound) : Image where
  bytes := List.replicate (n * 512) 0
  pageSize := 512
  pageCount := n
  pageSize_pos := by decide
  pageSize_lt := by decide
  pageCount_lt := hn
  length_eq := List.length_replicate

theorem page_blankImage {n p : ℕ} (hn : n < u32Bound) (hp : 0 < p) (hpn : p ≤ n) :
    (blankImage n hn).page p = zeroPage := by
  simp only [Image.page, pageAt, blankImage, zeroPage, List.drop_replicate, List.take_replicate]
  congr 1
  omega

theorem blankImage_tabulated {n : ℕ} (hn : n < u32Bound) (h : n % 64 ≤ 1) :
    Tabulated (blankImage n hn) where
  pages p hp hpn := by
    rw [page_blankImage hn hp hpn]
    exact List.mem_cons_self
  groups g hg := by
    have hhash : blake3Table zeroPage = zeroPageHash := by rw [blake3Table, if_pos rfl]
    have hconst : groupInput tabulated .blake3V2 (blankImage n hn) g =
        List.replicate (groupPageNos g n).length zeroPageHash := by
      rw [List.eq_replicate_iff]
      refine ⟨List.length_map _, fun x hx ↦ ?_⟩
      obtain ⟨p, hp, rfl⟩ := List.mem_map.mp hx
      rw [pageHash, page_blankImage hn (pos_of_mem_groupPageNos hp) (le_of_mem_groupPageNos hp),
        hashPageFor, tabulated_digest, hhash]
    have hlen : (groupPageNos g n).length = min ((g + 1) * 64) n - g * 64 := by
      simp [groupPageNos]
    rw [hconst, hlen]
    obtain h₀ | h₁ | h₆₄ : min ((g + 1) * 64) n - g * 64 = 0 ∨ min ((g + 1) * 64) n - g * 64 = 1 ∨
        min ((g + 1) * 64) n - g * 64 = 64 := by omega
    · rw [h₀]
      decide
    · rw [h₁]
      decide
    · rw [h₆₄]
      decide

def oneBlank : Image := blankImage 1 (by decide)

theorem oneBlank_tabulated : Tabulated oneBlank := blankImage_tabulated _ (by decide)

def twoPages : Image where
  bytes := zeroPage ++ onePage
  pageSize := 512
  pageCount := 2
  pageSize_pos := by decide
  pageSize_lt := by decide
  pageCount_lt := by decide
  length_eq := by
    rw [zeroPage, onePage, List.length_append, List.length_replicate, List.length_replicate]

theorem twoPages_tabulated : Tabulated twoPages where
  pages p hp hn := by
    obtain rfl | rfl : p = 1 ∨ p = 2 := by
      change p ≤ 2 at hn
      omega
    · decide +kernel
    · decide +kernel
  groups g hg := by
    obtain rfl : g = 0 := Nat.lt_one_iff.mp hg
    decide +kernel

def onesImage : Image where
  bytes := onePage
  pageSize := 512
  pageCount := 1
  pageSize_pos := oneBlank.pageSize_pos
  pageSize_lt := oneBlank.pageSize_lt
  pageCount_lt := oneBlank.pageCount_lt
  length_eq := by rw [onePage, List.length_replicate]

theorem onesImage_tabulated : Tabulated onesImage where
  pages p hp hn := by
    obtain rfl : p = 1 := le_antisymm hn hp
    decide +kernel
  groups g hg := by
    obtain rfl : g = 0 := Nat.lt_one_iff.mp hg
    decide +kernel

end Sample

def SyncEnds (lib : Crates) (conn : Connection) (tO tR : SyncTuning) (o r : Image)
    (z : State Disk) : Prop :=
  EndsIn (Moves (Disk.handle conn.pageSize)) (start lib o conn tO tR r.disk) z

def Synced (o : Snapshot) (z : State Disk) : Prop :=
  z.left.proc = .ret () ∧ z.right.proc = .ret () ∧ z.right.store.file = o.bytes

variable (tO tR) in
theorem session_syncs (hcf : CollisionFree lib .blake3V2 o r) (hf : Fits conn o r)
    (hle : r.pageCount ≤ o.pageCount) (hn : o.pageCount + 64 ≤ u32Bound) :
    ∃ z, EndsIn (Moves (Disk.handle r.pageSize)) (start lib o conn tO tR r.disk) z ∧
      Synced o z := by
  have hsize : r.pageSize = o.pageSize := hf.replica.symm.trans hf.origin
  obtain ⟨back, hend⟩ := session_ends lib tO tR (disk_serves r) hf hle hn
  refine ⟨_, hend, rfl, rfl, ?_⟩
  rw [meet, hf.replica, applyWrites_disk, hsize]
  exact file_written hcf hle hsize

/-- Sync convergence: onto a replica with at most as many pages, whatever its content, every
schedule of a session ends with the snapshot in the replica's file. -/
theorem sync_converges (hcf : CollisionFree lib .blake3V2 o r) (hf : Fits conn o r)
    (hle : r.pageCount ≤ o.pageCount) (hn : o.pageCount + 64 ≤ u32Bound) :
    ∃ z, SyncEnds lib conn tO tR o r z ∧ Synced o z := by
  unfold SyncEnds
  rw [hf.replica]
  exact session_syncs tO tR hcf hf hle hn

theorem sync_converges_two_pages :
    ∃ z, SyncEnds tabulated ⟨512, true⟩ {} {} twoPages oneBlank z ∧ Synced twoPages z :=
  sync_converges (twoPages_tabulated.collisionFree oneBlank_tabulated) ⟨rfl, rfl, rfl⟩
    (by decide) (by decide)

theorem not_synced_of_fail {step : State Disk → State Disk → Prop} {a z : State Disk} {stop : Stop}
    (hend : EndsIn step a z) (hfail : z.left.proc = .fail stop ∨ z.right.proc = .fail stop) :
    ¬ ∃ z, EndsIn step a z ∧ Synced o z := by
  rintro ⟨z', hend', hl, hr, -⟩
  rw [EndsIn.unique hend' hend] at hl hr
  rcases hfail with h | h
  · cases hl.symm.trans h
  · cases hr.symm.trans h

theorem not_synced_of_panic {z : State Disk} (hend : SyncEnds lib conn tO tR o r z)
    (hpanic : z.left.proc = .fail .panic ∨ z.right.proc = .fail .panic) :
    ¬ ∃ z, SyncEnds lib conn tO tR o r z ∧ Synced o z :=
  not_synced_of_fail hend hpanic

theorem larger_replica_panics (hcf : CollisionFree lib .blake3V2 o r) (hf : Fits conn o r)
    (hlt : o.pageCount < r.pageCount) :
    ∃ z, SyncEnds lib conn tO tR o r z ∧
      (z.left.proc = .fail .panic ∨ z.right.proc = .fail .panic) := by
  unfold SyncEnds
  rw [hf.replica]
  exact shrink_ends tO tR hcf (disk_serves r) hf hlt

/-- Onto a replica with more pages than the origin, every schedule of a session ends with a
panic of one of the handlers, so none synchronises the replica. -/
theorem larger_replica_never_syncs (hcf : CollisionFree lib .blake3V2 o r) (hf : Fits conn o r)
    (hlt : o.pageCount < r.pageCount) :
    (∃ z, SyncEnds lib conn tO tR o r z ∧
      (z.left.proc = .fail .panic ∨ z.right.proc = .fail .panic)) ∧
    ¬ ∃ z, SyncEnds lib conn tO tR o r z ∧ Synced o z := by
  obtain ⟨z, hend, hpanic⟩ := larger_replica_panics hcf hf hlt
  exact ⟨⟨z, hend, hpanic⟩, not_synced_of_panic hend hpanic⟩

theorem larger_replica_two_pages_panics :
    ∃ z, SyncEnds tabulated ⟨512, true⟩ {} {} oneBlank twoPages z ∧
      (z.left.proc = .fail .panic ∨ z.right.proc = .fail .panic) :=
  (larger_replica_never_syncs (oneBlank_tabulated.collisionFree twoPages_tabulated)
    ⟨rfl, rfl, rfl⟩ (by decide)).1

/-- The second page of the replica is one too many for an origin of one page. -/
theorem larger_replica_two_pages :
    ¬ ∃ z, SyncEnds tabulated ⟨512, true⟩ {} {} oneBlank twoPages z ∧ Synced oneBlank z := by
  have hf : Fits ⟨512, true⟩ oneBlank twoPages := ⟨rfl, rfl, rfl⟩
  obtain ⟨z, hend, hpanic⟩ :=
    larger_replica_panics (oneBlank_tabulated.collisionFree twoPages_tabulated) hf (by decide)
  exact not_synced_of_panic hend hpanic

end RsqliteRsync.Protocol.Session
