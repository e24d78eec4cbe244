import RsqliteRsync.Protocol.Hash
import RsqliteRsync.Db.Connection

namespace RsqliteRsync.Protocol

open Db

def groupPageNos (g n : ℕ) : List ℕ := List.range' (g * 64 + 1) (min ((g + 1) * 64) n - g * 64)

section GroupPageNos

variable {g p n m k : ℕ}

theorem mem_groupPageNos : p ∈ groupPageNos g n ↔ g * 64 < p ∧ p ≤ (g + 1) * 64 ∧ p ≤ n := by
  simp only [groupPageNos, List.mem_range'_1]
  omega

theorem pos_of_mem_groupPageNos (h : p ∈ groupPageNos g n) : 0 < p := by
  rw [mem_groupPageNos] at h
  omega

theorem le_of_mem_groupPageNos (h : p ∈ groupPageNos g n) : p ≤ n := (mem_groupPageNos.mp h).2.2

theorem lt_groupCount_of_mem (h : p ∈ groupPageNos g n) : g < groupCount n := by
  rw [mem_groupPageNos] at h
  rw [lt_groupCount_iff]
  omega

theorem flatMap_groupPageNos (k n : ℕ) :
    (List.range k).flatMap (groupPageNos · n) = List.range' 1 (min (k * 64) n) := by
  induction k with
  | zero => simp
  | succ k ih =>
    rw [List.range_succ, List.flatMap_append, ih, List.flatMap_singleton, groupPageNos]
    rcases Nat.le_total (k * 64) n with h | h
    · rw [min_eq_left h, Nat.add_comm (k * 64) 1,
        show 1 + k * 64 = 1 + 1 * (k * 64) by omega, List.range'_append]
      congr 1
      omega
    · rw [show min ((k + 1) * 64) n - k * 64 = 0 by omega, List.range'_zero, List.append_nil,
        min_eq_right h, min_eq_right (by omega)]

theorem groupPageNos_append (h : m ≤ n) :
    groupPageNos g n = groupPageNos g m ++
      List.range' (max (g * 64) (min ((g + 1) * 64) m) + 1)
        (min ((g + 1) * 64) n - max (g * 64) (min ((g + 1) * 64) m)) := by
  unfold groupPageNos
  rw [show max (g * 64) (min ((g + 1) * 64) m) + 1 =
      g * 64 + 1 + 1 * (min ((g + 1) * 64) m - g * 64) by omega, List.range'_append]
  congr 1
  omega

theorem groupPageNos_eq_nil (h : m ≤ g * 64) : groupPageNos g m = [] := by
  rw [groupPageNos, show min ((g + 1) * 64) m - g * 64 = 0 by omega, List.range'_zero]

end GroupPageNos

section Difference

variable (lib : Crates) (algorithm : HashAlgorithm)

def pageHash (img : Image) (p : ℕ) : PageHash := hashPageFor lib (img.page p) algorithm

def groupInput (img : Image) (g : ℕ) : List PageHash :=
  (groupPageNos g img.pageCount).map (pageHash lib algorithm img)

def groupHash (img : Image) (g : ℕ) : PageHash :=
  hashGroupFor lib (groupInput lib algorithm img g) algorithm

/-- The page hashes and the group hashes that a session computes have no collisions. -/
structure CollisionFree (o r : Image) : Prop where
  pages : Set.InjOn (fun data ↦ hashPageFor lib data algorithm)
    {data | ∃ p, (0 < p ∧ p ≤ o.pageCount ∧ data = o.page p) ∨
      (0 < p ∧ p ≤ r.pageCount ∧ data = r.page p)}
  groups : Set.InjOn (fun hashes ↦ hashGroupFor lib hashes algorithm)
    {hashes | ∃ g, (g < groupCount o.pageCount ∧ hashes = groupInput lib algorithm o g) ∨
      (g < max (groupCount r.pageCount) 1 ∧ hashes = groupInput lib algorithm r g)}

/-- The replica has no page `p`, or a different one. -/
def Differs (o r : Image) (p : ℕ) : Prop := r.pageCount < p ∨ r.page p ≠ o.page p

def HashDiffers (o r : Image) (p : ℕ) : Prop :=
  r.pageCount < p ∨ pageHash lib algorithm o p ≠ pageHash lib algorithm r p

instance (o r : Image) (p : ℕ) : Decidable (Differs o r p) := inferInstanceAs (Decidable (_ ∨ _))

instance (o r : Image) (p : ℕ) : Decidable (HashDiffers lib algorithm o r p) :=
  inferInstanceAs (Decidable (_ ∨ _))

variable {lib algorithm} {o r : Image} {g p : ℕ}

theorem CollisionFree.hashDiffers_iff (h : CollisionFree lib algorithm o r) (hp : 0 < p)
    (hn : p ≤ o.pageCount) : HashDiffers lib algorithm o r p ↔ Differs o r p := by
  unfold HashDiffers Differs
  by_cases hr : r.pageCount < p
  · simp only [hr, true_or]
  · simp only [hr, false_or, ne_eq, not_iff_not]
    constructor
    · intro he
      exact (h.pages ⟨p, .inl ⟨hp, hn, rfl⟩⟩ ⟨p, .inr ⟨hp, by omega, rfl⟩⟩ he).symm
    · intro he
      simp only [pageHash, he]

theorem CollisionFree.groupHash_eq_iff (h : CollisionFree lib algorithm o r)
    (ho : g < groupCount o.pageCount) (hr : g < max (groupCount r.pageCount) 1) :
    groupHash lib algorithm o g = groupHash lib algorithm r g ↔
      groupInput lib algorithm o g = groupInput lib algorithm r g :=
  ⟨fun he ↦ h.groups ⟨g, .inl ⟨ho, rfl⟩⟩ ⟨g, .inr ⟨hr, rfl⟩⟩ he,
    fun he ↦ by rw [groupHash, he, groupHash]⟩

variable (lib algorithm g) in
theorem length_groupInput (img : Image) :
    (groupInput lib algorithm img g).length = min ((g + 1) * 64) img.pageCount - g * 64 := by
  simp [groupInput, groupPageNos]

/-- The coarse comparison sees exactly the groups with a differing page. -/
theorem groupInput_eq_iff (hr : r.pageCount ≤ o.pageCount) :
    groupInput lib algorithm o g = groupInput lib algorithm r g ↔
      ∀ p ∈ groupPageNos g o.pageCount, ¬ HashDiffers lib algorithm o r p := by
  constructor
  · intro he p hp hd
    have hlen := congrArg List.length he
    rw [length_groupInput, length_groupInput] at hlen
    have hp' := mem_groupPageNos.mp hp
    have hnos : groupPageNos g o.pageCount = groupPageNos g r.pageCount := by
      rw [groupPageNos, hlen, groupPageNos]
    rw [groupInput, groupInput, hnos] at he
    rcases hd with hd | hd
    · rw [hnos, mem_groupPageNos] at hp
      omega
    · exact hd (List.map_inj_left.mp he p (hnos ▸ hp))
  · intro hall
    have hnos : groupPageNos g o.pageCount = groupPageNos g r.pageCount := by
      rw [groupPageNos_append hr]
      have hnil : min ((g + 1) * 64) o.pageCount -
          max (g * 64) (min ((g + 1) * 64) r.pageCount) = 0 := by
        by_contra hne
        have hmem : max (g * 64) (min ((g + 1) * 64) r.pageCount) + 1 ∈
            groupPageNos g o.pageCount := by
          rw [mem_groupPageNos]
          omega
        refine hall _ hmem (.inl ?_)
        have hle := (mem_groupPageNos.mp hmem).2.1
        omega
      rw [hnil, List.range'_zero, List.append_nil]
    rw [groupInput, groupInput, ← hnos]
    apply List.map_congr_left
    intro p hp
    by_contra hne
    exact hall p hp (.inr hne)

end Difference

end RsqliteRsync.Protocol
