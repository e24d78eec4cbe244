import RsqliteRsync.Protocol.Session

namespace RsqliteRsync.Protocol.Session

open Db

variable {lib : Crates} {o r : Image} {g p : ℕ}

theorem needsFine_iff (hcf : CollisionFree lib .blake3V2 o r) (hle : r.pageCount ≤ o.pageCount)
    (hg : g < groupCount o.pageCount) :
    NeedsFine lib o r g ↔ ∃ p ∈ groupPageNos g o.pageCount, Differs o r p := by
  have hlt := lt_groupCount_iff.mp hg
  by_cases hnum : Replica.numGroups r.pageCount ≤ g
  · refine iff_of_true (.inl hnum) ⟨g * 64 + 1, mem_groupPageNos.mpr (by omega), .inl ?_⟩
    have hr : ¬ g * 64 < r.pageCount := fun h ↦
      absurd (lt_groupCount_iff.mpr h) (by unfold Replica.numGroups at hnum; omega)
    omega
  · have hhash : NeedsFine lib o r g ↔
        groupHash lib .blake3V2 o g ≠ groupHash lib .blake3V2 r g := by
      simp only [NeedsFine, hnum, not_le.mpr hlt, false_or]
    have hdiff : (∀ p ∈ groupPageNos g o.pageCount, ¬ HashDiffers lib .blake3V2 o r p) ↔
        ∀ p ∈ groupPageNos g o.pageCount, ¬ Differs o r p := by
      refine forall₂_congr fun p hp ↦ not_congr ?_
      exact hcf.hashDiffers_iff (pos_of_mem_groupPageNos hp) (le_of_mem_groupPageNos hp)
    rw [hhash, ne_eq, hcf.groupHash_eq_iff hg (not_le.mp hnum), groupInput_eq_iff hle, hdiff]
    push Not
    rfl

theorem mem_fineGroups_iff (hcf : CollisionFree lib .blake3V2 o r)
    (hle : r.pageCount ≤ o.pageCount) (ho : 0 < o.pageCount) :
    g ∈ fineGroups lib o r ↔ ∃ p ∈ groupPageNos g o.pageCount, Differs o r p := by
  rw [mem_fineGroups]
  constructor
  · rintro ⟨hg, hneeds⟩
    have hlt : g < groupCount o.pageCount := by
      simp only [Replica.numGroups, groupCount, GROUP_SIZE] at *
      omega
    exact (needsFine_iff hcf hle hlt).mp hneeds
  · rintro ⟨p, hp, hd⟩
    have hlt := lt_groupCount_of_mem hp
    exact ⟨.inr hlt, (needsFine_iff hcf hle hlt).mpr ⟨p, hp, hd⟩⟩

theorem sentPages_eq (hcf : CollisionFree lib .blake3V2 o r) (g : ℕ) :
    Origin.sentPages lib .blake3V2 o r g =
      ((groupPageNos g o.pageCount).filter (Differs o r)).map fun p ↦ ⟨p, o.page p⟩ := by
  rw [Origin.sentPages]
  congr 1
  apply List.filter_congr
  intro p hp
  simp only [hcf.hashDiffers_iff (pos_of_mem_groupPageNos hp) (le_of_mem_groupPageNos hp)]

theorem sentPages_eq_nil (hcf : CollisionFree lib .blake3V2 o r)
    (hle : r.pageCount ≤ o.pageCount) (hg : ¬ NeedsFine lib o r g) :
    Origin.sentPages lib .blake3V2 o r g = [] := by
  rw [sentPages_eq hcf, List.map_eq_nil_iff, List.filter_eq_nil_iff]
  intro p hp
  rw [needsFine_iff hcf hle (lt_groupCount_of_mem hp)] at hg
  exact fun hd ↦ hg ⟨p, hp, of_decide_eq_true hd⟩

theorem flatMap_filter {α : Type} (f : ℕ → List α) (P : ℕ → Prop) [DecidablePred P]
    (gs : List ℕ) (h : ∀ g, ¬ P g → f g = []) : (gs.filter P).flatMap f = gs.flatMap f := by
  induction gs with
  | nil => rfl
  | cons g gs ih =>
    rw [List.filter_cons]
    split
    case isTrue hg => rw [List.flatMap_cons, List.flatMap_cons, ih]
    case isFalse hg =>
      rw [List.flatMap_cons, h g fun hp ↦ hg (decide_eq_true hp), List.nil_append, ih]

/-- A session sends exactly the pages that the replica lacks or has differently, in ascending
order. -/
theorem allSentPages_eq (hcf : CollisionFree lib .blake3V2 o r)
    (hle : r.pageCount ≤ o.pageCount) :
    allSentPages lib o r =
      ((List.range' 1 o.pageCount).filter (Differs o r)).map fun p ↦ ⟨p, o.page p⟩ := by
  set k := max (Replica.numGroups r.pageCount) (groupCount o.pageCount) with hkdef
  have hall : List.range' 1 o.pageCount =
      (List.range k).flatMap (groupPageNos · o.pageCount) := by
    rw [flatMap_groupPageNos]
    have hk : groupCount o.pageCount ≤ k := le_max_right _ _
    have h : ¬ k * 64 < o.pageCount := fun h ↦ absurd (lt_groupCount_iff.mpr h) (not_lt.mpr hk)
    congr 1
    omega
  rw [allSentPages, fineGroups, ← hkdef,
    flatMap_filter _ _ _ fun g hg ↦ sentPages_eq_nil hcf hle hg, hall, List.filter_flatMap,
    List.map_flatMap]
  simp only [sentPages_eq hcf]

theorem mem_allSentPages (hcf : CollisionFree lib .blake3V2 o r)
    (hle : r.pageCount ≤ o.pageCount) {page : PageData} :
    page ∈ allSentPages lib o r ↔
      (0 < page.pageNo ∧ page.pageNo ≤ o.pageCount ∧ Differs o r page.pageNo) ∧
        page.data = o.page page.pageNo := by
  rw [allSentPages_eq hcf hle, List.mem_map]
  constructor
  · rintro ⟨p, hp, rfl⟩
    obtain ⟨hp, hd⟩ := List.mem_filter.mp hp
    rw [List.mem_range'_1] at hp
    exact ⟨⟨hp.1, (by omega : p ≤ o.pageCount), of_decide_eq_true hd⟩, rfl⟩
  · rintro ⟨⟨hpos, hn, hd⟩, hdata⟩
    refine ⟨page.pageNo, List.mem_filter.mpr ⟨?_, decide_eq_true hd⟩, ?_⟩
    · rw [List.mem_range'_1]
      omega
    · rw [← hdata]

theorem allSentPages_sorted (hcf : CollisionFree lib .blake3V2 o r)
    (hle : r.pageCount ≤ o.pageCount) :
    ((allSentPages lib o r).map (·.pageNo)).Pairwise (· < ·) := by
  rw [allSentPages_eq hcf hle, map_pageNo_pages]
  exact List.Pairwise.filter _ List.pairwise_lt_range'

end RsqliteRsync.Protocol.Session
