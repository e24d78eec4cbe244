import RsqliteRsync.Protocol.Replica
import RsqliteRsync.Protocol.Difference

namespace RsqliteRsync.Protocol.Replica

open Foundation.Chunks Db

variable {lib : Crates} {algorithm : HashAlgorithm} {r : Image} {g : ℕ}

def pageHashList (lib : Crates) (algorithm : HashAlgorithm) (r : Image) : List PageHash :=
  (List.range' 1 r.pageCount).map (pageHash lib algorithm r)

theorem length_pageHashList : (pageHashList lib algorithm r).length = r.pageCount := by
  simp [pageHashList]

theorem allPageHashes_eq (tuning : SyncTuning) :
    allPageHashes lib tuning algorithm r.bytes r.pageSize r.pageCount =
      pure (pageHashList lib algorithm r) := by
  rw [allPageHashes, computeWithParallelism_eq _ _ _ (lib.parMap_eq _ _),
    mapM_eq_pure _ (fun i ↦ pageHash lib algorithm r (1 + i)) _ ?_, pageHashList,
    List.range'_eq_map_range, List.map_map]
  · rfl
  · intro i hi
    have hi' := List.mem_range.mp hi
    have hs := r.slice_page (p := 1 + i) (by omega) (by omega)
    rw [Nat.add_sub_cancel_left] at hs
    simp only [hs, pure_bind]
    rfl

theorem slice_pageHashList (h : g * 64 ≤ r.pageCount) :
    slice (pageHashList lib algorithm r) (g * 64) (min ((g + 1) * 64) r.pageCount) =
      pure (groupInput lib algorithm r g) := by
  rw [slice_of_le (by omega) (by rw [length_pageHashList]; omega), pageHashList, groupInput,
    groupPageNos, ← List.map_drop, ← List.map_take, List.drop_range',
    List.take_range'_of_length_ge (by omega)]
  congr 3
  omega

theorem groupHashAt_eq (hg : (g + 1) * 64 < u32Bound) (h : g * 64 ≤ r.pageCount) :
    groupHashAt lib algorithm (pageHashList lib algorithm r) r.pageCount g =
      pure (groupHash lib algorithm r g) := by
  have hg' : asU32 g = g := asU32_of_lt (by omega)
  simp only [groupHashAt, hg', firstPageOf_eq hg, lastPageOf_eq _ hg, pure_bind,
    subUsize_of_le (show 1 ≤ g * 64 + 1 by omega), Nat.add_sub_cancel, slice_pageHashList h]
  rfl

theorem groupHashAt_panics (hg : u32Bound ≤ (g + 1) * 64) (hg' : g < u32Bound)
    (hashes : List PageHash) (n : ℕ) : groupHashAt lib algorithm hashes n g = panic := by
  rw [groupHashAt, asU32_of_lt hg', lastPageOf_panics n hg]
  rcases firstPageOf_cases g with h | ⟨p, h⟩ <;> rw [h] <;> rfl

theorem group_bounds {n : ℕ} (hg : g < numGroups n) (hn : n + 64 ≤ u32Bound) :
    g * 64 ≤ n ∧ (g + 1) * 64 < u32Bound := by
  unfold u32Bound at *
  rcases lt_max_iff.mp hg with hg | hg
  · have := lt_groupCount_iff.mp hg
    omega
  · omega

theorem coarseChunk_eq (tuning : SyncTuning) (pageHashes : List PageHash) (n : ℕ) {start stop : ℕ}
    (h : (stop - start) * 64 < u32Bound) :
    coarseChunk lib tuning algorithm pageHashes n start stop =
      (List.range' start (stop - start)).mapM (groupHashAt lib algorithm pageHashes n) := by
  have hmul : mulU32 (asU32 (stop - start)) GROUP_SIZE = pure ((stop - start) * 64) := by
    rw [asU32_of_lt (by omega)]
    exact mulU32_of_lt h
  simp only [coarseChunk, hmul, pure_bind]
  exact computeWithParallelism_eq _ _ _ (lib.parMap_eq _ _)

/-- Up to the last page count whose groups all end below `2 ^ 32`, the coarse pass does not depend
on the chunk size nor on how a chunk is computed. -/
theorem groupHashes_eq_mapM (tuning : SyncTuning) (pageHashes : List PageHash) {n : ℕ}
    (hn : n + 64 ≤ u32Bound) :
    groupHashes lib tuning algorithm pageHashes n =
      (List.range (numGroups n)).mapM (groupHashAt lib algorithm pageHashes n) := by
  have hchunk : ∀ start stop, start ≤ stop → stop ≤ numGroups n →
      coarseChunk lib tuning algorithm pageHashes n start stop =
        (List.range' start (stop - start)).mapM (groupHashAt lib algorithm pageHashes n) := by
    intro start stop h₁ h₂
    refine coarseChunk_eq tuning pageHashes n ?_
    rcases Nat.eq_zero_or_pos stop with h₀ | h₀
    · simp [h₀, u32Bound]
    · have := (group_bounds (show stop - 1 < numGroups n by omega) hn).2
      omega
  rw [groupHashes, inChunks_eq (by omega) (splits_range_mapM _ _) hchunk, Nat.sub_zero,
    ← List.range_eq_range']

theorem groupHashes_eq (tuning : SyncTuning) (hn : r.pageCount + 64 ≤ u32Bound) :
    groupHashes lib tuning algorithm (pageHashList lib algorithm r) r.pageCount =
      pure ((List.range (numGroups r.pageCount)).map (groupHash lib algorithm r)) := by
  rw [groupHashes_eq_mapM tuning _ hn]
  refine mapM_eq_pure _ _ _ fun g hg ↦ ?_
  obtain ⟨h₁, h₂⟩ := group_bounds (List.mem_range.mp hg) hn
  exact groupHashAt_eq h₂ h₁

theorem last_groups_panic (hn : u32Bound < r.pageCount + 64) {start stop : ℕ}
    (hstart : start ≤ 67108863) (hstop : stop = 67108864) :
    (List.range' start (stop - start)).mapM
      (groupHashAt lib algorithm (pageHashList lib algorithm r) r.pageCount) = panic := by
  refine mapM_error (fun g hg ↦ ?_) ⟨67108863, ?_, ?_⟩
  · rw [List.mem_range'_1] at hg
    unfold u32Bound at *
    rcases Nat.lt_or_ge g 67108863 with h | h
    · exact .inr ⟨_, groupHashAt_eq (by unfold u32Bound; omega) (by omega)⟩
    · exact .inl (groupHashAt_panics (by unfold u32Bound; omega) (by unfold u32Bound; omega) _ _)
  · rw [List.mem_range'_1]
    omega
  · exact groupHashAt_panics (by decide) (by decide) _ _

/-- Within 64 pages of `2 ^ 32`, the end of the last group is no `u32` any more. -/
theorem groupHashes_panics (tuning : SyncTuning) (hn : u32Bound < r.pageCount + 64) :
    groupHashes lib tuning algorithm (pageHashList lib algorithm r) r.pageCount = panic := by
  have hlt := r.pageCount_lt
  have hnum : numGroups r.pageCount = 67108864 := by
    simp only [numGroups, groupCount, GROUP_SIZE, u32Bound] at *
    omega
  have hchunk : ∀ start stop, start ≤ stop → stop ≤ numGroups r.pageCount →
      coarseChunk lib tuning algorithm (pageHashList lib algorithm r) r.pageCount start stop =
        (List.range' start (stop - start)).mapM
          (groupHashAt lib algorithm (pageHashList lib algorithm r) r.pageCount) := by
    intro start stop h₁ h₂
    rw [hnum] at h₂
    by_cases hmul : (stop - start) * 64 < u32Bound
    · exact coarseChunk_eq tuning _ _ hmul
    · have hcast : asU32 (stop - start) = stop - start := asU32_of_lt (by unfold u32Bound; omega)
      have hpanic : mulU32 (stop - start) GROUP_SIZE = panic := if_neg hmul
      unfold u32Bound at hmul
      rw [coarseChunk, hcast, hpanic, last_groups_panic hn (by omega) (by omega)]
      rfl
  rw [groupHashes, inChunks_eq (by omega) (splits_range_mapM _ _) hchunk]
  exact last_groups_panic hn (by omega) hnum

theorem groupPages_eq (hg : (g + 1) * 64 < u32Bound) :
    groupPages (pageHashList lib algorithm r) r.pageCount g =
      pure (groupPageNos g r.pageCount, groupInput lib algorithm r g) := by
  simp only [groupPages, firstPageOf_eq hg, lastPageOf_eq _ hg, pure_bind]
  by_cases h : g * 64 + 1 ≤ r.pageCount
  · rw [if_pos h, show min ((g + 1) * 64) r.pageCount + 1 - (g * 64 + 1) =
      min ((g + 1) * 64) r.pageCount - g * 64 by omega, ← groupPageNos,
      mapM_eq_pure _ (pageHash lib algorithm r) _ ?_]
    · rfl
    · intro p hp
      have hpos := pos_of_mem_groupPageNos hp
      have hle := le_of_mem_groupPageNos hp
      have hlt : p - 1 < (pageHashList lib algorithm r).length := by
        rw [length_pageHashList]
        omega
      rw [subUsize_of_le hpos, pure_bind, index_of_lt hlt]
      simp only [pageHashList, List.getElem_map, List.getElem_range']
      congr 2
      omega
  · rw [if_neg h, groupInput, groupPageNos_eq_nil (by omega)]
    rfl

theorem groupPages_panics (hg : u32Bound ≤ (g + 1) * 64) (hashes : List PageHash) (n : ℕ) :
    groupPages hashes n g = panic := by
  rw [groupPages, lastPageOf_panics n hg]
  rcases firstPageOf_cases g with h | ⟨p, h⟩ <;> rw [h] <;> rfl

end RsqliteRsync.Protocol.Replica
