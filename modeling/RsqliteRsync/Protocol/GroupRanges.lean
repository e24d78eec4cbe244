import RsqliteRsync.Protocol.Origin
import RsqliteRsync.Protocol.Replica

namespace RsqliteRsync.Protocol

open Foundation.Chunks

/-- The first and the last page of a group, as both handlers compute them. -/
def groupRange (pageCount groupIdx : ℕ) : Res (ℕ × ℕ) := do
  let firstPage ← firstPageOf groupIdx
  let lastPage ← lastPageOf groupIdx pageCount
  pure (firstPage, lastPage)

/-- The ranges of all groups cut the pages into parts, and the two handlers work on these parts. -/
structure GroupRanges (pageCount : ℕ) (ranges : List (ℕ × ℕ)) : Prop where
  computed : (List.range (groupCount pageCount)).mapM (groupRange pageCount) = pure ranges
  nonempty : ∀ r ∈ ranges, r.1 ≤ r.2
  ascending : ranges.Pairwise fun r r' ↦ r.2 < r'.1
  cover : ∀ p, (∃ r ∈ ranges, r.1 ≤ p ∧ p ≤ r.2) ↔ 1 ≤ p ∧ p ≤ pageCount
  origin : ∀ lib (snap : Db.Snapshot) algorithm replicaGroupHash, snap.pageCount = pageCount →
    ∀ g r, ranges[g]? = some r →
      Origin.compareGroup lib snap algorithm 0 g replicaGroupHash = do
        let originGroupHash ←
          Origin.originGroupHashForPages lib snap.bytes snap.pageSize r.1 r.2 algorithm
        if originGroupHash ≠ replicaGroupHash then pure (some g) else pure none
  count : ranges.length = Replica.numGroups pageCount
  replica : ∀ lib algorithm (pageHashes : List PageHash), pageHashes.length = pageCount →
    ∀ g r, ranges[g]? = some r →
      r.1 - 1 ≤ r.2 ∧ r.2 ≤ pageHashes.length ∧
      Replica.groupHashAt lib algorithm pageHashes pageCount g =
        pure (hashGroupFor lib ((pageHashes.drop (r.1 - 1)).take (r.2 - (r.1 - 1))) algorithm)

section Ranges

variable {n g : ℕ} {r : ℕ × ℕ}

theorem groupRange_eq (h : (g + 1) * 64 < u32Bound) :
    groupRange n g = pure (g * 64 + 1, min ((g + 1) * 64) n) := by
  rw [groupRange, firstPageOf_eq h, pure_bind, lastPageOf_eq n h, pure_bind]

theorem groupRange_panics (h : u32Bound ≤ (g + 1) * 64) : groupRange n g = panic := by
  rw [groupRange, lastPageOf_panics n h]
  rcases firstPageOf_cases g with hfirst | ⟨p, hfirst⟩
  · rw [hfirst]
    rfl
  · rw [hfirst]
    rfl

def rangeList (n : ℕ) : List (ℕ × ℕ) :=
  (List.range (groupCount n)).map fun g ↦ (g * 64 + 1, min ((g + 1) * 64) n)

theorem mem_rangeList :
    r ∈ rangeList n ↔ ∃ g, g * 64 < n ∧ r = (g * 64 + 1, min ((g + 1) * 64) n) := by
  simp only [rangeList, List.mem_map, List.mem_range, lt_groupCount_iff, eq_comm]

theorem getElem?_rangeList (h : (rangeList n)[g]? = some r) :
    g * 64 < n ∧ r = (g * 64 + 1, min ((g + 1) * 64) n) := by
  obtain ⟨hlt, hr⟩ := List.getElem?_eq_some_iff.mp h
  rw [← lt_groupCount_iff]
  simp only [rangeList, List.length_map, List.length_range, List.getElem_map,
    List.getElem_range] at hlt hr
  exact ⟨hlt, hr.symm⟩

theorem compareGroup_rangeList (lib : Crates) (snap : Db.Snapshot) (algorithm : HashAlgorithm)
    (replicaGroupHash : PageHash) (hg : g * 64 < snap.pageCount)
    (hbound : (g + 1) * 64 < u32Bound) :
    Origin.compareGroup lib snap algorithm 0 g replicaGroupHash =
      (Origin.originGroupHashForPages lib snap.bytes snap.pageSize (g * 64 + 1)
        (min ((g + 1) * 64) snap.pageCount) algorithm >>= fun originGroupHash ↦
          if originGroupHash ≠ replicaGroupHash then pure (some g) else pure none) := by
  have hidx : addU32 0 (asU32 g) = pure g := by
    rw [asU32_of_lt (by omega), addU32_of_lt (by omega), Nat.zero_add]
  rw [Origin.compareGroup, hidx, pure_bind, firstPageOf_eq hbound, pure_bind,
    lastPageOf_eq _ hbound, pure_bind, if_neg (by omega)]

theorem groupHashAt_rangeList (lib : Crates) (algorithm : HashAlgorithm)
    {pageHashes : List PageHash} (hg : g * 64 < pageHashes.length)
    (hbound : (g + 1) * 64 < u32Bound) :
    Replica.groupHashAt lib algorithm pageHashes pageHashes.length g =
      pure (hashGroupFor lib ((pageHashes.drop (g * 64)).take
        (min ((g + 1) * 64) pageHashes.length - g * 64)) algorithm) := by
  have hstart : subUsize (g * 64 + 1) 1 = pure (g * 64) := subUsize_of_le (by omega)
  rw [Replica.groupHashAt, asU32_of_lt (by omega), firstPageOf_eq hbound, pure_bind,
    lastPageOf_eq _ hbound, pure_bind, hstart, pure_bind, slice_of_le (by omega) (by omega),
    pure_bind]

theorem rangeList_ascending : (rangeList n).Pairwise fun r r' ↦ r.2 < r'.1 := by
  rw [rangeList, List.pairwise_map]
  apply List.pairwise_lt_range.imp
  intro g g' hlt
  simp only
  omega

theorem rangeList_cover (p : ℕ) :
    (∃ r ∈ rangeList n, r.1 ≤ p ∧ p ≤ r.2) ↔ 1 ≤ p ∧ p ≤ n := by
  constructor
  · intro ⟨r, hr, hfirst, hlast⟩
    obtain ⟨g, hg, rfl⟩ := mem_rangeList.mp hr
    simp only at hfirst hlast
    omega
  · intro hp
    refine ⟨_, mem_rangeList.mpr ⟨(p - 1) / 64, by omega, rfl⟩, ?_⟩
    simp only
    omega

theorem length_rangeList (hpos : 1 ≤ n) : (rangeList n).length = Replica.numGroups n := by
  have hcount : 0 < groupCount n := lt_groupCount_iff.mpr (by omega)
  rw [rangeList, List.length_map, List.length_range, Replica.numGroups, max_eq_left hcount]

theorem groupRanges_rangeList (hpos : 1 ≤ n) (hn : n ≤ 2 ^ 32 - 64) :
    GroupRanges n (rangeList n) := by
  have hbound {g : ℕ} (hg : g * 64 < n) : (g + 1) * 64 < u32Bound := by
    rw [u32Bound]
    omega
  refine ⟨?computed, ?nonempty, rangeList_ascending, rangeList_cover, ?origin,
    length_rangeList hpos, ?replica⟩
  case computed =>
    apply mapM_eq_pure
    intro g hg
    rw [List.mem_range, lt_groupCount_iff] at hg
    exact groupRange_eq (hbound hg)
  case nonempty =>
    intro r hr
    obtain ⟨g, hg, rfl⟩ := mem_rangeList.mp hr
    simp only
    omega
  case origin =>
    intro lib snap algorithm replicaGroupHash hcount g r hr
    obtain ⟨hg, rfl⟩ := getElem?_rangeList hr
    rw [← hcount] at hg ⊢
    exact compareGroup_rangeList lib snap algorithm replicaGroupHash hg (hbound (hcount ▸ hg))
  case replica =>
    intro lib algorithm pageHashes hlength g r hr
    obtain ⟨hg, rfl⟩ := getElem?_rangeList hr
    have hgroup := groupHashAt_rangeList lib algorithm (hlength.symm ▸ hg) (hbound hg)
    rw [hlength] at hgroup ⊢
    refine ⟨?_, min_le_right _ _, hgroup⟩
    simp only
    omega

/-- The group with index `2 ^ 26 - 1` ends at page `2 ^ 32`. -/
theorem not_groupRanges (hn : 2 ^ 32 - 64 < n) (ranges : List (ℕ × ℕ)) :
    ¬ GroupRanges n ranges := by
  intro h
  have hlast : 67108863 ∈ List.range (groupCount n) := by
    rw [List.mem_range, lt_groupCount_iff]
    omega
  obtain ⟨before, after, hsplit⟩ := List.append_of_mem hlast
  have hcomputed := h.computed
  rw [hsplit, List.mapM_append, List.mapM_cons, groupRange_panics (by decide)] at hcomputed
  cases hbefore : before.mapM (groupRange n) with
  | error e =>
    rw [hbefore] at hcomputed
    cases hcomputed
  | ok done =>
    rw [hbefore] at hcomputed
    cases hcomputed

end Ranges

/-- The handlers cut the pages into the ranges of the groups exactly if the end of the last group,
before it is cut off at the page count, is less than `2 ^ 32`. -/
theorem groupRanges_iff (pageCount : ℕ) (hpos : 1 ≤ pageCount) :
    (∃ ranges, GroupRanges pageCount ranges) ↔ pageCount ≤ 2 ^ 32 - 64 := by
  constructor
  · intro ⟨ranges, h⟩
    by_contra hn
    exact not_groupRanges (Nat.not_le.mp hn) ranges h
  · intro hn
    exact ⟨_, groupRanges_rangeList hpos hn⟩

theorem groupRanges_three_groups : ∃ ranges, GroupRanges 130 ranges :=
  (groupRanges_iff 130 (by decide)).mpr (by decide)

/-- The smallest page count with a group that ends beyond `2 ^ 32 - 1`. -/
theorem not_groupRanges_near_u32_max : ¬ ∃ ranges, GroupRanges 4294967233 ranges := by
  intro ⟨ranges, h⟩
  exact not_groupRanges (by decide) ranges h

end RsqliteRsync.Protocol
