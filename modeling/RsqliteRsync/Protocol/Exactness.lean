import RsqliteRsync.Protocol.Convergence

namespace RsqliteRsync.Protocol.Session

open Foundation.Process Foundation.Schedule Db

variable {lib : Crates} {o r : Image} {conn : Connection} {tO tR : SyncTuning}

/-- The origin asked for exactly the groups with a differing page and sent exactly the
differing pages; to an equal replica it sent nothing, and nothing was written. -/
structure SentExactly (o r : Image) (z : State Disk) : Prop where
  groups : ∃ gs, groupsAsked z.left.sent = [gs] ∧ gs.Pairwise (· < ·) ∧
    (∀ g, g ∈ gs ↔ ∃ p ∈ groupPageNos g o.pageCount, Differs o r p) ∧
    (r.bytes = o.bytes → gs = [])
  sorted : ((pagesOf z.left.sent).map (·.pageNo)).Pairwise (· < ·)
  pages : ∀ p, p ∈ (pagesOf z.left.sent).map (·.pageNo) ↔
    0 < p ∧ p ≤ o.pageCount ∧ Differs o r p
  data : ∀ page ∈ pagesOf z.left.sent, page.data = o.page page.pageNo
  idle : r.bytes = o.bytes → z.right.store.writes = []

theorem groupsAsked_transcript :
    groupsAsked (transcript lib o r) = [fineGroups lib o r] := by
  simp [groupsAsked, transcript]

theorem pagesOf_transcript : pagesOf (transcript lib o r) = allSentPages lib o r := by
  rw [transcript, pagesOf_append, pagesOf_append, pagesOf_map]
  simp [pagesOf, allSentPages]

theorem not_differs_of_eq {p : ℕ} (hsize : r.pageSize = o.pageSize) (h : r.bytes = o.bytes)
    (hp : p ≤ o.pageCount) : ¬ Differs o r p := by
  have hlen : r.pageCount * o.pageSize = o.pageCount * o.pageSize := by
    rw [← o.length_eq, ← h, r.length_eq, hsize]
  have hcount := Nat.eq_of_mul_eq_mul_right o.pageSize_pos hlen
  rintro (hlt | hne)
  · omega
  · exact hne (by rw [Image.page, Image.page, h, hsize])

theorem sent_exactly_of_le (hcf : CollisionFree lib .blake3V2 o r) (hf : Fits conn o r)
    (ho : 0 < o.pageCount) (hle : r.pageCount ≤ o.pageCount)
    (hn : o.pageCount + 64 ≤ u32Bound) :
    ∃ z, SyncEnds lib conn tO tR o r z ∧ SentExactly o r z := by
  have hsize : r.pageSize = o.pageSize := hf.replica.symm.trans hf.origin
  unfold SyncEnds
  rw [hf.replica]
  obtain ⟨back, hend⟩ := session_ends lib tO tR (disk_serves r) hf hle hn
  refine ⟨_, hend, ⟨fineGroups lib o r, groupsAsked_transcript, fineGroups_sorted lib o r,
    fun g ↦ mem_fineGroups_iff hcf hle ho, fun h ↦ ?_⟩, ?_, fun p ↦ ?_, fun page hpage ↦ ?_,
    fun h ↦ ?_⟩
  · refine List.eq_nil_iff_forall_not_mem.mpr fun g hg ↦ ?_
    obtain ⟨p, hp, hd⟩ := (mem_fineGroups_iff hcf hle ho).mp hg
    exact not_differs_of_eq hsize h (le_of_mem_groupPageNos hp) hd
  · rw [meet, pagesOf_transcript]
    exact allSentPages_sorted hcf hle
  · rw [meet, pagesOf_transcript, List.mem_map]
    constructor
    · rintro ⟨page, hpage, rfl⟩
      exact ((mem_allSentPages hcf hle).mp hpage).1
    · intro hp
      exact ⟨⟨p, o.page p⟩, (mem_allSentPages hcf hle).mpr ⟨hp, rfl⟩, rfl⟩
  · rw [meet, pagesOf_transcript] at hpage
    exact ((mem_allSentPages hcf hle).mp hpage).2
  · have hnil : allSentPages lib o r = [] := by
      refine List.eq_nil_iff_forall_not_mem.mpr fun page hpage ↦ ?_
      obtain ⟨⟨-, hp, hd⟩, -⟩ := (mem_allSentPages hcf hle).mp hpage
      exact not_differs_of_eq hsize h hp hd
    rw [meet, hnil]
    rfl

theorem not_sent_exactly (hf : Fits conn o r) (ho : 0 < o.pageCount)
    (hle : r.pageCount ≤ o.pageCount) (hn : u32Bound < o.pageCount + 64) :
    ¬ ∃ z, SyncEnds lib conn tO tR o r z ∧ SentExactly o r z := by
  unfold SyncEnds
  rw [hf.replica]
  rintro ⟨z, hend, hsent⟩
  by_cases hr : u32Bound < r.pageCount + 64
  · obtain ⟨z', hend', -, hack⟩ := hashing_overflows lib tO tR (disk_serves r) hf hr
    obtain ⟨gs, hgs, -⟩ := hsent.groups
    rw [hend.unique hend', hack] at hgs
    cases hgs
  · obtain ⟨z', hend', -, hshort⟩ := overflow_ends lib tO tR (disk_serves r) hf hle hn
    have hlast := (hsent.pages o.pageCount).mpr ⟨ho, le_rfl, .inl (by omega)⟩
    obtain ⟨page, hpage, hno⟩ := List.mem_map.mp hlast
    rw [hend.unique hend'] at hpage
    exact absurd hno (hshort page hpage).ne

/-- Only and exactly the differing pages travel, precisely when the origin ends at least 64 pages
below `2 ^ 32`. -/
theorem sent_exactly_iff (hcf : CollisionFree lib .blake3V2 o r) (hf : Fits conn o r)
    (ho : 0 < o.pageCount) (hle : r.pageCount ≤ o.pageCount) :
    (∃ z, SyncEnds lib conn tO tR o r z ∧ SentExactly o r z) ↔
      o.pageCount + 64 ≤ u32Bound :=
  ⟨fun h ↦ not_lt.mp fun hn ↦ not_sent_exactly hf ho hle hn h, sent_exactly_of_le hcf hf ho hle⟩

theorem sent_exactly (hcf : CollisionFree lib .blake3V2 o r) (hf : Fits conn o r)
    (ho : 0 < o.pageCount) (hle : r.pageCount ≤ o.pageCount) (hserial : o.Serializable) :
    ∃ z, SyncEnds lib conn tO tR o r z ∧ SentExactly o r z := by
  have hcount : o.pageCount ≤ SQLITE_MAX_ALLOCATION_SIZE := o.pageCount_le_length.trans hserial
  have hroom : SQLITE_MAX_ALLOCATION_SIZE + 64 ≤ u32Bound := by decide
  exact (sent_exactly_iff hcf hf ho hle).mpr (by omega)

theorem sent_exactly_two_pages :
    ∃ z, SyncEnds tabulated ⟨512, true⟩ {} {} twoPages oneBlank z ∧
      SentExactly twoPages oneBlank z :=
  sent_exactly (twoPages_tabulated.collisionFree oneBlank_tabulated) ⟨rfl, rfl, rfl⟩
    (by decide) (by decide) (twoPages.length_eq.trans_le (by decide))

end RsqliteRsync.Protocol.Session
