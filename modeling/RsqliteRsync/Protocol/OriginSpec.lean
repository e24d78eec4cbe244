import RsqliteRsync.Protocol.Origin
import RsqliteRsync.Protocol.Difference

namespace RsqliteRsync.Protocol.Origin

open Foundation.Chunks Db

variable {lib : Crates} {algorithm : HashAlgorithm} {snap : Snapshot} {g n : ℕ}

theorem range_group (g n : ℕ) :
    List.range' (g * 64 + 1) (min ((g + 1) * 64) n + 1 - (g * 64 + 1)) = groupPageNos g n := by
  rw [groupPageNos]
  congr 1
  omega

theorem pageHash_at (hp : 0 < n) (hn : n ≤ snap.pageCount) :
    (do let idx ← subUsize n 1
        let offset := idx * snap.pageSize
        let page ← slice snap.bytes offset (offset + snap.pageSize)
        pure (hashPageFor lib page algorithm) : Res PageHash) =
      pure (pageHash lib algorithm snap n) := by
  simp only [subUsize_of_le hp, pure_bind, snap.slice_page hp hn]
  rfl

theorem originGroupHashForPages_eq (g : ℕ) :
    originGroupHashForPages lib snap.bytes snap.pageSize (g * 64 + 1)
      (min ((g + 1) * 64) snap.pageCount) algorithm = pure (groupHash lib algorithm snap g) := by
  unfold originGroupHashForPages
  rw [range_group, mapM_eq_pure _ (pageHash lib algorithm snap) _ fun p hp ↦
    pageHash_at (pos_of_mem_groupPageNos hp) (le_of_mem_groupPageNos hp)]
  rfl

def flagged (lib : Crates) (snap : Snapshot) (algorithm : HashAlgorithm) (g : ℕ)
    (replicaGroupHash : PageHash) : Option ℕ :=
  if snap.pageCount ≤ g * 64 ∨ groupHash lib algorithm snap g ≠ replicaGroupHash then some g
  else none

theorem compareGroup_eq (hg : (g + 1) * 64 < u32Bound) (h : PageHash) :
    compareGroup lib snap algorithm 0 g h = pure (flagged lib snap algorithm g h) := by
  have hg' : asU32 g = g := asU32_of_lt (by omega)
  have h₀ : addU32 0 (asU32 g) = pure g := by
    rw [hg', addU32_of_lt (by omega), Nat.zero_add]
  simp only [compareGroup, h₀, firstPageOf_eq hg, lastPageOf_eq _ hg, pure_bind,
    originGroupHashForPages_eq, flagged]
  by_cases hc : snap.pageCount < g * 64 + 1
  · rw [if_pos hc, if_pos (.inl (by omega))]
  · rw [if_neg hc]
    have hc' : ¬ snap.pageCount ≤ g * 64 := by omega
    simp only [hc', false_or]
    split <;> rfl

theorem coarseChunk_eq (tuning : SyncTuning) {hashes : List PageHash}
    (hlen : (hashes.length + 1) * 64 ≤ u32Bound) {start stop : ℕ} (h : start ≤ stop)
    (h' : stop ≤ hashes.length) :
    coarseChunk lib snap tuning algorithm 0 hashes start stop =
      (((hashes.drop start).take (stop - start)).zipIdx start).filterMapM
        fun x ↦ compareGroup lib snap algorithm 0 x.2 x.1 := by
  have hcast : asU32 (stop - start) = stop - start := asU32_of_lt (by omega)
  have hmul : mulU32 (asU32 (stop - start)) GROUP_SIZE = pure ((stop - start) * 64) := by
    rw [hcast]
    exact mulU32_of_lt (by simp only [GROUP_SIZE]; omega)
  simp only [coarseChunk, slice_of_le h h', hmul, pure_bind]
  rw [computeWithParallelism_eq _ _ _ (lib.parFilterMap_eq _ _)]
  rw [List.zipIdx_eq_map_add (i := start), filterMapM_map]

/-- Within its bound on the number of groups, the coarse pass does not depend on the chunk
size nor on how a chunk is computed. -/
theorem needFine_eq (tuning : SyncTuning) {hashes : List PageHash}
    (hlen : (hashes.length + 1) * 64 ≤ u32Bound) :
    needFine lib snap tuning algorithm 0 hashes =
      pure (hashes.zipIdx.filterMap (fun x ↦ flagged lib snap algorithm x.2 x.1) ++
        List.range' hashes.length (groupCount snap.pageCount - hashes.length)) := by
  have hwhole := inChunks_eq (c := max tuning.hashChunkGroups 1) (by omega)
    (splits_filterMapM hashes fun x ↦ compareGroup lib snap algorithm 0 x.2 x.1)
    fun _ _ h h' ↦ coarseChunk_eq tuning hlen h h'
  have hpure : (hashes.zipIdx).filterMapM (fun x ↦ compareGroup lib snap algorithm 0 x.2 x.1) =
      pure (hashes.zipIdx.filterMap fun x ↦ flagged lib snap algorithm x.2 x.1) := by
    refine filterMapM_pure _ _ _ fun x hx ↦ compareGroup_eq ?_ x.1
    have hx' := List.snd_lt_of_mem_zipIdx hx
    omega
  have hlen' : addU32 0 (asU32 hashes.length) = pure hashes.length := by
    rw [asU32_of_lt (by omega), addU32_of_lt (by omega), Nat.zero_add]
  rw [Nat.sub_zero, List.drop_zero, List.take_length, hpure] at hwhole
  simp only [needFine, hwhole, hlen', pure_bind]

section Validation

variable {firstPage groupLastPage : ℕ}

theorem checkPageNos_range (k a : ℕ) (seen : Finset ℕ) (prev : Option ℕ) (ha : 0 < a)
    (hf : firstPage ≤ a) (hl : a + k ≤ groupLastPage + 1) (hs : ∀ x ∈ seen, x < a)
    (hp : ∀ q, prev = some q → q < a) :
    checkPageNos g firstPage groupLastPage seen prev (List.range' a k) = pure () := by
  induction k generalizing a seen prev with
  | zero => rfl
  | succ k ih =>
    have hseen : a ∉ seen := fun h ↦ lt_irrefl a (hs a h)
    have hnext := ih (a + 1) (insert a seen) (some a) (by omega) (by omega) (by omega)
      (fun x hx ↦ by
        rcases Finset.mem_insert.mp hx with rfl | hx
        · omega
        · have := hs x hx; omega)
      (fun q hq ↦ by cases hq; omega)
    have hrange : ¬ (a < firstPage ∨ groupLastPage < a) := by omega
    rw [List.range'_succ]
    cases prev with
    | none =>
      simp only [checkPageNos, ha.ne', hrange, hseen, if_false]
      exact hnext
    | some q =>
      have hq : ¬ a ≤ q := not_le.mpr (hp q rfl)
      simp only [checkPageNos, ha.ne', hrange, hseen, hq, if_false]
      exact hnext

theorem checkContiguous_range (k idx : ℕ) (hb : firstPage + idx + k ≤ u32Bound) :
    checkContiguous g firstPage idx (List.range' (firstPage + idx) k) = pure () := by
  induction k generalizing idx with
  | zero => rfl
  | succ k ih =>
    have hadd : addU32 firstPage (asU32 idx) = pure (firstPage + idx) := by
      rw [asU32_of_lt (by omega), addU32_of_lt (by omega)]
    rw [List.range'_succ, checkContiguous, hadd]
    simp only [pure_bind, ne_eq, not_true_eq_false, if_false]
    exact ih (idx + 1) (by omega)

theorem validatePageHashesForGroup_range (hg : (g + 1) * 64 < u32Bound) {hashes : List PageHash}
    (hk : hashes.length ≤ 64) :
    validatePageHashesForGroup (List.range' (g * 64 + 1) hashes.length) hashes g = pure () := by
  have hcheck : checkPageNos g (g * 64 + 1) ((g + 1) * 64) ∅ none
      (List.range' (g * 64 + 1) hashes.length) = pure () :=
    checkPageNos_range _ _ _ _ (by omega) le_rfl (by omega) (by simp) (by simp)
  have hcont : checkContiguous g (g * 64 + 1) 0 (List.range' (g * 64 + 1) hashes.length) =
      pure () := checkContiguous_range _ 0 (by omega)
  rw [validatePageHashesForGroup, if_neg (not_not.mpr (by simp)), firstPageOf_eq hg,
    groupEnd_eq hg]
  simp only [pure_bind, hcheck]
  exact hcont

theorem validatePageHashesForGroup_eq (hg : (g + 1) * 64 < u32Bound) {hashes : List PageHash}
    (hlen : hashes.length = (groupPageNos g n).length) :
    validatePageHashesForGroup (groupPageNos g n) hashes g = pure () := by
  have hnos : groupPageNos g n = List.range' (g * 64 + 1) hashes.length := by
    rw [hlen, groupPageNos, List.length_range']
  rw [groupPageNos, List.length_range'] at hlen
  rw [hnos]
  exact validatePageHashesForGroup_range hg (by omega)

theorem checkPageNos_error {seen : Finset ℕ} {prev : Option ℕ} {pageNos : List ℕ} {e : SyncError}
    (h : checkPageNos g firstPage groupLastPage seen prev pageNos = .error e) :
    ∃ message, e = .protocol message := by
  fun_induction checkPageNos g firstPage groupLastPage seen prev pageNos with
  | case1 => cases h
  | case2 => cases h; exact ⟨_, rfl⟩
  | case3 => cases h; exact ⟨_, rfl⟩
  | case4 => cases h; exact ⟨_, rfl⟩
  | case5 => cases h; exact ⟨_, rfl⟩
  | case6 _ _ _ _ _ _ _ _ ih => exact ih h
  | case7 _ _ _ _ _ _ ih => exact ih h

/-- The checked numbers increase, so there are no more of them than pages in the group. -/
theorem checkPageNos_length {seen : Finset ℕ} {prev : Option ℕ} {pageNos : List ℕ} {a : ℕ}
    (h : checkPageNos g firstPage groupLastPage seen prev pageNos = .ok ())
    (ha : ∀ p, firstPage ≤ p → (∀ q, prev = some q → q < p) → a ≤ p) :
    pageNos.length ≤ groupLastPage + 1 - a := by
  fun_induction checkPageNos g firstPage groupLastPage seen prev pageNos generalizing a with
  | case1 => exact Nat.zero_le _
  | case2 => cases h
  | case3 => cases h
  | case4 => cases h
  | case5 => cases h
  | case6 seen pageNo rest _ hrange _ q hq ih =>
    have hrest := ih (a := pageNo + 1) h fun p _ hp ↦ hp pageNo rfl
    have hle := ha pageNo (by omega) fun q' hq' ↦ by cases hq'; omega
    rw [List.length_cons]
    omega
  | case7 seen pageNo rest _ hrange _ ih =>
    have hrest := ih (a := pageNo + 1) h fun p _ hp ↦ hp pageNo rfl
    have hle := ha pageNo (by omega) (by simp)
    rw [List.length_cons]
    omega

theorem checkContiguous_cases {pageNos : List ℕ} {idx : ℕ}
    (hb : firstPage + idx + pageNos.length ≤ u32Bound) :
    (∃ message, checkContiguous g firstPage idx pageNos = .error (.err (.protocol message))) ∨
      pageNos = List.range' (firstPage + idx) pageNos.length := by
  induction pageNos generalizing idx with
  | nil => exact .inr rfl
  | cons pageNo rest ih =>
    rw [List.length_cons] at hb
    have hadd : addU32 firstPage (asU32 idx) = pure (firstPage + idx) := by
      rw [asU32_of_lt (by omega), addU32_of_lt (by omega)]
    rw [checkContiguous, hadd, pure_bind]
    by_cases hpage : pageNo = firstPage + idx
    · rw [if_neg (not_not.mpr hpage)]
      have hrest := @ih (idx + 1) (by omega)
      refine hrest.imp_right fun hrest ↦ ?_
      rw [List.length_cons, List.range'_succ, hpage]
      exact congrArg _ hrest
    · rw [if_pos hpage]
      exact .inl ⟨_, rfl⟩

theorem validatePageHashesForGroup_cases (hg : (g + 1) * 64 < u32Bound) (pageNos : List ℕ)
    (hashes : List PageHash) :
    (∃ message, validatePageHashesForGroup pageNos hashes g = .error (.err (.protocol message))) ∨
      (hashes.length ≤ 64 ∧ pageNos = List.range' (g * 64 + 1) hashes.length) := by
  rw [validatePageHashesForGroup]
  split_ifs with hlen
  · exact .inl ⟨_, rfl⟩
  · rw [firstPageOf_eq hg, groupEnd_eq hg, pure_bind, pure_bind]
    cases hcheck : checkPageNos g (g * 64 + 1) ((g + 1) * 64) ∅ none pageNos with
    | error e =>
      obtain ⟨message, rfl⟩ := checkPageNos_error hcheck
      exact .inl ⟨message, rfl⟩
    | ok u =>
      have hshort : pageNos.length ≤ (g + 1) * 64 + 1 - (g * 64 + 1) :=
        checkPageNos_length hcheck fun p hp _ ↦ hp
      refine (checkContiguous_cases (by omega)).imp_right fun hnos ↦ ?_
      rw [not_not] at hlen
      rw [← hlen]
      exact ⟨by omega, hnos⟩

theorem validatePagesAck_cases {expected : List ℕ} (h : expected.Nodup) (ack : List ℕ) :
    (∃ message, validatePagesAck expected ack = .error (.protocol message)) ∨
      ack.Perm expected := by
  unfold validatePagesAck
  dsimp only
  split_ifs with hdup hne
  · exact .inl ⟨_, rfl⟩
  · exact .inl ⟨_, rfl⟩
  · rw [not_not] at hdup hne
    have hack : ack.Nodup :=
      Multiset.coe_nodup.mp (Multiset.toFinset_card_eq_card_iff_nodup.mp hdup.symm)
    refine .inr ((List.perm_ext_iff_of_nodup hack h).mpr fun p ↦ ?_)
    rw [← List.mem_toFinset, ← hne, List.mem_toFinset]

theorem validatePagesAck_perm {expected ack : List ℕ} (h : expected.Nodup)
    (hperm : ack.Perm expected) : validatePagesAck expected ack = pure () := by
  have hack : ack.Nodup := hperm.nodup_iff.mpr h
  have hset : expected.toFinset = ack.toFinset := List.toFinset_eq_of_perm _ _ hperm.symm
  simp [validatePagesAck, List.toFinset_card_of_nodup hack, hset]

end Validation

section ChangedPages

variable {r : Image}

def sentPages (lib : Crates) (algorithm : HashAlgorithm) (o r : Image) (g : ℕ) : List PageData :=
  ((groupPageNos g o.pageCount).filter (HashDiffers lib algorithm o r)).map
    fun p ↦ ⟨p, o.page p⟩

theorem changedPageFor_eq {p : ℕ} (hp : 0 < p) (hn : p ≤ snap.pageCount) (h : PageHash) :
    changedPageFor lib p h snap.bytes snap.pageSize algorithm =
      pure (if pageHash lib algorithm snap p ≠ h then some ⟨p, snap.page p⟩ else none) := by
  simp only [changedPageFor, subUsize_of_le hp, pure_bind, snap.slice_page hp hn]
  split <;> simp_all [pageHash]

theorem changedPageFor_panics {p : ℕ} (hn : snap.pageCount < p) (h : PageHash) :
    changedPageFor lib p h snap.bytes snap.pageSize algorithm = panic := by
  simp only [changedPageFor, subUsize_of_le (show 1 ≤ p by omega), pure_bind,
    snap.slice_panics hn]
  rfl

theorem zipIdx_eq_map_range {α : Type} (d : α) (xs : List α) (a : ℕ) :
    xs.zipIdx a = (List.range xs.length).map fun i ↦ (xs[i]?.getD d, a + i) := by
  apply List.ext_getElem (by simp)
  intro i h₁ h₂
  have hi : i < xs.length := by simpa using h₁
  simp [hi]

/-- Comparing by position is comparing each hash with the page it is sent for. -/
theorem filterMapM_comparePage (a : ℕ) (hashes : List PageHash) :
    (List.range (List.range' a hashes.length).length).filterMapM
      (comparePage lib snap algorithm (List.range' a hashes.length) hashes) =
    (hashes.zipIdx a).filterMapM fun x ↦
      changedPageFor lib x.2 x.1 snap.bytes snap.pageSize algorithm := by
  rw [zipIdx_eq_map_range (Vector.replicate 32 0), filterMapM_map, List.length_range']
  apply filterMapM_congr
  intro i hi
  have hi' := List.mem_range.mp hi
  rw [comparePage, index_of_lt (by simpa using hi'), index_of_lt hi',
    List.getElem?_eq_getElem hi']
  simp

theorem missing_pages {pageNos : List ℕ} (h : ∀ p ∈ pageNos, 0 < p ∧ p ≤ snap.pageCount) :
    (pageNos.mapM fun p ↦ (do
      let idx ← subUsize p 1
      let offset := idx * snap.pageSize
      let data ← slice snap.bytes offset (offset + snap.pageSize)
      pure (⟨p, data⟩ : PageData) : Res PageData)) =
      pure (pageNos.map fun p ↦ ⟨p, snap.page p⟩) := by
  refine mapM_eq_pure _ _ _ fun p hp ↦ ?_
  simp only [subUsize_of_le (h p hp).1, pure_bind, snap.slice_page (h p hp).1 (h p hp).2]

theorem nextMissingPage_range (hg : (g + 1) * 64 < u32Bound) {k : ℕ} (hk : k ≤ 64) :
    nextMissingPage (g * 64 + 1) (List.range' (g * 64 + 1) k) = pure (g * 64 + k + 1) := by
  rw [nextMissingPage]
  cases k with
  | zero => rfl
  | succ k =>
    have hmax : (List.range' (g * 64 + 1) (k + 1)).max? = some (g * 64 + (k + 1)) := by
      rw [List.max?_eq_some_iff]
      constructor
      · rw [List.mem_range'_1]
        omega
      · intro p hp
        rw [List.mem_range'_1] at hp
        omega
    rw [hmax]
    exact addU32_of_lt (by unfold u32Bound at *; omega)

section Round

variable {hashes : List PageHash}

/-- What a round sends in answer to the hashes of the first pages of a group. -/
def roundPages (lib : Crates) (algorithm : HashAlgorithm) (snap : Snapshot) (g : ℕ)
    (hashes : List PageHash) : List PageData :=
  ((hashes.zipIdx (g * 64 + 1)).filterMap fun x ↦
    if pageHash lib algorithm snap x.2 ≠ x.1 then some ⟨x.2, snap.page x.2⟩ else none) ++
  (List.range' (g * 64 + hashes.length + 1)
    (min ((g + 1) * 64) snap.pageCount - (g * 64 + hashes.length))).map fun p ↦ ⟨p, snap.page p⟩

theorem changedPages_range (tuning : SyncTuning) (hg : (g + 1) * 64 < u32Bound)
    (hk : hashes.length ≤ 64) (h : hashes = [] ∨ g * 64 + hashes.length ≤ snap.pageCount) :
    changedPages lib snap tuning algorithm (g * 64 + 1) (min ((g + 1) * 64) snap.pageCount)
      (List.range' (g * 64 + 1) hashes.length) hashes =
      pure (roundPages lib algorithm snap g hashes) := by
  have hcompare : ∀ x ∈ hashes.zipIdx (g * 64 + 1),
      changedPageFor lib x.2 x.1 snap.bytes snap.pageSize algorithm =
        pure (if pageHash lib algorithm snap x.2 ≠ x.1 then some ⟨x.2, snap.page x.2⟩
          else none) := by
    rintro ⟨hash, p⟩ hx
    have hle : g * 64 + 1 ≤ p := List.le_snd_of_mem_zipIdx hx
    have hlt : p < g * 64 + 1 + hashes.length := List.snd_lt_add_of_mem_zipIdx hx
    refine changedPageFor_eq (by omega) ?_ hash
    rcases h with rfl | h
    · cases hx
    · omega
  rw [changedPages, computeWithParallelism_eq _ _ _ (lib.parFilterMap_eq _ _),
    filterMapM_comparePage, filterMapM_pure _ _ _ hcompare, pure_bind,
    nextMissingPage_range hg hk, pure_bind, missing_pages, pure_bind, roundPages]
  · congr 4
    omega
  · intro p hp
    rw [List.mem_range'_1] at hp
    omega

/-- A page that the origin does not have makes the comparison slice past the snapshot. -/
theorem changedPages_beyond (tuning : SyncTuning) (firstPage lastPage : ℕ) (hne : hashes ≠ [])
    (h : snap.pageCount < g * 64 + hashes.length) :
    changedPages lib snap tuning algorithm firstPage lastPage
      (List.range' (g * 64 + 1) hashes.length) hashes = panic := by
  have hpanic : ((hashes.zipIdx (g * 64 + 1)).filterMapM fun x ↦
      changedPageFor lib x.2 x.1 snap.bytes snap.pageSize algorithm) = panic := by
    refine filterMapM_error ?_ ⟨(hashes.getLast hne, g * 64 + hashes.length), ?_, ?_⟩
    · rintro ⟨hash, p⟩ hx
      have hle : g * 64 + 1 ≤ p := List.le_snd_of_mem_zipIdx hx
      rcases Nat.lt_or_ge snap.pageCount p with hlt | hge
      · exact .inl (changedPageFor_panics hlt hash)
      · exact .inr ⟨_, changedPageFor_eq (by omega) hge hash⟩
    · have hpos := List.length_pos_of_ne_nil hne
      rw [List.mem_zipIdx_iff_le_and_getElem?_sub, List.getLast_eq_getElem]
      refine ⟨by omega, ?_⟩
      rw [show g * 64 + hashes.length - (g * 64 + 1) = hashes.length - 1 by omega]
      simp
    · exact changedPageFor_panics h _
  rw [changedPages, computeWithParallelism_eq _ _ _ (lib.parFilterMap_eq _ _),
    filterMapM_comparePage, hpanic]
  rfl

end Round

section Database

variable (lib algorithm) in
theorem groupPageNos_eq_range (r : Image) (g : ℕ) :
    groupPageNos g r.pageCount =
      List.range' (g * 64 + 1) (groupInput lib algorithm r g).length := by
  rw [groupInput, List.length_map, groupPageNos, List.length_range']

variable (lib algorithm) in
theorem groupInput_bounds (h : ∀ p ∈ groupPageNos g r.pageCount, p ≤ n) :
    (groupInput lib algorithm r g).length ≤ 64 ∧ (groupInput lib algorithm r g = [] ∨
      g * 64 + (groupInput lib algorithm r g).length ≤ n) := by
  have hlen := length_groupInput lib algorithm g r
  refine ⟨by omega, ?_⟩
  rcases List.eq_nil_or_concat' (groupInput lib algorithm r g) with hnil | ⟨init, last, hcons⟩
  · exact .inl hnil
  · have hpos : 0 < (groupInput lib algorithm r g).length := by simp [hcons]
    exact .inr (h _ (mem_groupPageNos.mpr (by omega)))

theorem zipIdx_map_range' {α : Type} (f : ℕ → α) (a k : ℕ) :
    ((List.range' a k).map f).zipIdx a = (List.range' a k).map fun p ↦ (f p, p) := by
  induction k generalizing a with
  | zero => rfl
  | succ k ih => simp only [List.range'_succ, List.map_cons, List.zipIdx_cons, ih]

theorem roundPages_groupInput (h : ∀ p ∈ groupPageNos g r.pageCount, p ≤ snap.pageCount) :
    roundPages lib algorithm snap g (groupInput lib algorithm r g) =
      sentPages lib algorithm snap r g := by
  obtain ⟨hk, hinside⟩ := groupInput_bounds lib algorithm h
  have hlen := length_groupInput lib algorithm g r
  have hzip : (groupInput lib algorithm r g).zipIdx (g * 64 + 1) =
      (groupPageNos g r.pageCount).map fun p ↦ (pageHash lib algorithm r p, p) :=
    zipIdx_map_range' _ _ _
  have hsame : (groupPageNos g r.pageCount).filterMap (fun p ↦
      if pageHash lib algorithm snap p ≠ pageHash lib algorithm r p then
        some (⟨p, snap.page p⟩ : PageData) else none) =
      ((groupPageNos g r.pageCount).filter (HashDiffers lib algorithm snap r)).map
        fun p ↦ ⟨p, snap.page p⟩ := by
    rw [← List.filterMap_eq_map, List.filterMap_filter]
    apply List.filterMap_congr
    intro p hp
    have hle := le_of_mem_groupPageNos hp
    simp only [HashDiffers, not_lt.mpr hle, false_or]
    split <;> simp_all
  set k := (groupInput lib algorithm r g).length with hkdef
  have hzero : k = 0 ∨ g * 64 + k ≤ snap.pageCount :=
    hinside.imp_left fun hnil ↦ by simp [hkdef, hnil]
  have hsplit : groupPageNos g snap.pageCount = groupPageNos g r.pageCount ++
      List.range' (g * 64 + k + 1) (min ((g + 1) * 64) snap.pageCount - (g * 64 + k)) := by
    rw [groupPageNos_eq_range lib algorithm r, ← hkdef, groupPageNos,
      show g * 64 + k + 1 = g * 64 + 1 + 1 * k by omega, List.range'_append]
    congr 1
    omega
  have hmissing : ∀ p ∈ List.range' (g * 64 + k + 1)
      (min ((g + 1) * 64) snap.pageCount - (g * 64 + k)), HashDiffers lib algorithm snap r p := by
    intro p hp
    rw [List.mem_range'_1] at hp
    exact .inl (by omega)
  rw [roundPages, hzip, List.filterMap_map, sentPages, hsplit, List.filter_append,
    List.filter_eq_self.mpr fun p hp ↦ decide_eq_true (hmissing p hp), List.map_append, ← hsame]
  rfl

/-- Against a replica whose pages of the group all exist on the origin, a round sends exactly
the pages whose hashes differ and those the replica misses. -/
theorem changedPages_eq (tuning : SyncTuning) (hg : (g + 1) * 64 < u32Bound)
    (h : ∀ p ∈ groupPageNos g r.pageCount, p ≤ snap.pageCount) :
    changedPages lib snap tuning algorithm (g * 64 + 1) (min ((g + 1) * 64) snap.pageCount)
      (groupPageNos g r.pageCount) (groupInput lib algorithm r g) =
      pure (sentPages lib algorithm snap r g) := by
  obtain ⟨hk, hinside⟩ := groupInput_bounds lib algorithm h
  rw [groupPageNos_eq_range lib algorithm r,
    changedPages_range tuning hg hk hinside, roundPages_groupInput h]

theorem changedPages_panics (tuning : SyncTuning) (firstPage lastPage : ℕ)
    (h : ∃ p ∈ groupPageNos g r.pageCount, snap.pageCount < p) :
    changedPages lib snap tuning algorithm firstPage lastPage (groupPageNos g r.pageCount)
      (groupInput lib algorithm r g) = panic := by
  have hlen := length_groupInput lib algorithm g r
  obtain ⟨p, hp, hlt⟩ := h
  rw [mem_groupPageNos] at hp
  rw [groupPageNos_eq_range lib algorithm r]
  exact changedPages_beyond tuning _ _ (List.ne_nil_of_length_pos (by omega)) (by omega)

end Database

end ChangedPages

end RsqliteRsync.Protocol.Origin
