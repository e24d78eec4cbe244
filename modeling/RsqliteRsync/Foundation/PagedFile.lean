import Mathlib.Data.List.Basic
import Mathlib.Tactic

namespace RsqliteRsync.Foundation.PagedFile

variable {β : Type} {fill : β} {size : ℕ} {file data : List β} {i j off : ℕ}

def overwrite (fill : β) (file : List β) (off : ℕ) (data : List β) : List β :=
  (file ++ List.replicate (off - file.length) fill).take off ++ data ++
    file.drop (off + data.length)

def pageAt (size : ℕ) (file : List β) (i : ℕ) : List β := (file.drop (i * size)).take size

theorem length_overwrite (fill : β) (file : List β) (off : ℕ) (data : List β) :
    (overwrite fill file off data).length = max file.length (off + data.length) := by
  simp only [overwrite, List.length_append, List.length_take, List.length_replicate,
    List.length_drop]
  omega

theorem overwrite_append (fill : β) (front back data : List β) :
    overwrite fill (front ++ back) front.length data = front ++ data ++ back.drop data.length := by
  rw [overwrite, List.length_append, Nat.sub_add_eq, Nat.sub_self, Nat.zero_sub,
    List.replicate_zero, List.append_nil, List.take_left, List.drop_append,
    List.drop_of_length_le (Nat.le_add_right _ _), List.nil_append, Nat.add_sub_cancel_left]

theorem getElem?_overwrite_of_lt (h : off ≤ i) (h' : i < off + data.length) :
    (overwrite fill file off data)[i]? = data[i - off]? := by
  have hlen : ((file ++ List.replicate (off - file.length) fill).take off).length = off := by
    simp only [List.length_take, List.length_append, List.length_replicate]
    omega
  rw [overwrite, List.append_assoc, List.getElem?_append_right (by omega), hlen,
    List.getElem?_append_left (by omega)]

theorem getElem?_overwrite_of_ge (h : i < file.length) (h' : i < off ∨ off + data.length ≤ i) :
    (overwrite fill file off data)[i]? = file[i]? := by
  have hlen : ((file ++ List.replicate (off - file.length) fill).take off).length = off := by
    simp only [List.length_take, List.length_append, List.length_replicate]
    omega
  rcases h' with h' | h'
  · rw [overwrite, List.append_assoc, List.getElem?_append_left (by omega),
      List.getElem?_take_of_lt h', List.getElem?_append_left h]
  · rw [overwrite, List.getElem?_append_right (by simp only [List.length_append]; omega),
      List.getElem?_drop]
    congr 1
    simp only [List.length_append]
    omega

theorem getElem?_pageAt (hj : j < size) : (pageAt size file i)[j]? = file[i * size + j]? := by
  rw [pageAt, List.getElem?_take_of_lt hj, List.getElem?_drop]

theorem length_pageAt (h : (i + 1) * size ≤ file.length) : (pageAt size file i).length = size := by
  rw [Nat.succ_mul] at h
  rw [pageAt, List.length_take, List.length_drop]
  omega

theorem pageAt_ext {page page' : List β} (h : page.length = size) (h' : page'.length = size)
    (hj : ∀ j < size, page[j]? = page'[j]?) : page = page' := by
  apply List.ext_getElem?
  intro j
  by_cases hlt : j < size
  · exact hj j hlt
  · rw [List.getElem?_eq_none (by omega), List.getElem?_eq_none (by omega)]

theorem pageAt_overwrite_self (hd : data.length = size) :
    pageAt size (overwrite fill file (i * size) data) i = data := by
  have hlen := length_overwrite fill file (i * size) data
  refine pageAt_ext (length_pageAt ?_) hd fun j hj ↦ ?_
  · rw [hlen, Nat.succ_mul, hd]; omega
  · rw [getElem?_pageAt hj, getElem?_overwrite_of_lt (by omega) (by omega)]
    congr 1
    omega

theorem pageAt_overwrite_of_ne (h : j ≠ i) (hd : data.length = size)
    (hj : (j + 1) * size ≤ file.length) :
    pageAt size (overwrite fill file (i * size) data) j = pageAt size file j := by
  have hlen := length_overwrite fill file (i * size) data
  refine pageAt_ext (length_pageAt ?_) (length_pageAt hj) fun k hk ↦ ?_
  · rw [hlen]; omega
  · rw [getElem?_pageAt hk, getElem?_pageAt hk]
    rw [Nat.succ_mul] at hj
    apply getElem?_overwrite_of_ge (by omega)
    rcases Nat.lt_or_gt_of_ne h with hlt | hlt
    · have h₁ := Nat.mul_le_mul_right size hlt
      rw [Nat.succ_mul] at h₁
      omega
    · have h₁ := Nat.mul_le_mul_right size hlt
      rw [Nat.succ_mul] at h₁
      omega

theorem file_ext {n : ℕ} {file file' : List β} (hs : 0 < size) (h : file.length = n * size)
    (h' : file'.length = n * size) (hp : ∀ i < n, pageAt size file i = pageAt size file' i) :
    file = file' := by
  apply List.ext_getElem?
  intro k
  by_cases hk : k < n * size
  · have hdiv : k / size < n := (Nat.div_lt_iff_lt_mul hs).mpr hk
    have hmod : k % size < size := Nat.mod_lt k hs
    have hk' : k / size * size + k % size = k := Nat.div_add_mod' k size
    rw [← hk', ← getElem?_pageAt hmod, ← getElem?_pageAt hmod, hp _ hdiv]
  · rw [List.getElem?_eq_none (by omega), List.getElem?_eq_none (by omega)]

theorem length_flatMap_pages {n : ℕ} {f : ℕ → List β} (h : ∀ i < n, (f i).length = size) :
    ((List.range n).flatMap f).length = n * size := by
  induction n with
  | zero => simp
  | succ n ih =>
    rw [List.range_succ, List.flatMap_append, List.length_append, ih fun i hi ↦ h i (by omega),
      List.flatMap_singleton, h n (by omega), Nat.succ_mul]

theorem pageAt_flatMap_pages {n : ℕ} {f : ℕ → List β} (h : ∀ i < n, (f i).length = size)
    (hi : i < n) : pageAt size ((List.range n).flatMap f) i = f i := by
  induction n with
  | zero => omega
  | succ n ih =>
    have hlen := length_flatMap_pages (n := n) fun j hj ↦ h j (by omega)
    rw [List.range_succ, List.flatMap_append, List.flatMap_singleton, pageAt]
    rcases Nat.lt_succ_iff_lt_or_eq.mp hi with hlt | rfl
    · have hle := Nat.mul_le_mul_right size (Nat.succ_le_of_lt hlt)
      rw [Nat.succ_mul] at hle
      have hi' := ih (fun j hj ↦ h j (by omega)) hlt
      rw [pageAt] at hi'
      rw [List.drop_append_of_le_length (by omega),
        List.take_append_of_le_length (by rw [List.length_drop]; omega), hi']
    · rw [List.drop_append, hlen, Nat.sub_self, List.drop_of_length_le hlen.le, List.nil_append,
        List.drop_zero, ← h i (by omega), List.take_length]

def writePages (fill : β) (size : ℕ) (file : List β) (ws : List (ℕ × List β)) : List β :=
  ws.foldl (fun f w ↦ overwrite fill f (w.1 * size) w.2) file

section WritePages

variable {ws : List (ℕ × List β)}

theorem writePages_append (fill : β) (size : ℕ) (file : List β) (ws more : List (ℕ × List β)) :
    writePages fill size file (ws ++ more) =
      writePages fill size (writePages fill size file ws) more := List.foldl_append

theorem length_le_writePages : file.length ≤ (writePages fill size file ws).length := by
  induction ws generalizing file with
  | nil => exact le_rfl
  | cons w ws ih =>
    have h := length_overwrite fill file (w.1 * size) w.2
    exact le_trans (by rw [h]; exact Nat.le_max_left _ _) ih

theorem writePages_length_le {n : ℕ} (hf : file.length ≤ n * size)
    (hw : ∀ w ∈ ws, w.1 < n ∧ w.2.length = size) :
    (writePages fill size file ws).length ≤ n * size := by
  induction ws generalizing file with
  | nil => exact hf
  | cons w ws ih =>
    obtain ⟨hw₁, hw₂⟩ := hw w List.mem_cons_self
    have h₁ := Nat.mul_le_mul_right size hw₁
    rw [Nat.succ_mul] at h₁
    refine ih ?_ fun v hv ↦ hw v (List.mem_cons_of_mem w hv)
    rw [length_overwrite, hw₂]
    omega

theorem pageAt_writePages_of_notMem (hw : ∀ w ∈ ws, w.2.length = size)
    (hi : i ∉ ws.map Prod.fst) (hf : (i + 1) * size ≤ file.length) :
    pageAt size (writePages fill size file ws) i = pageAt size file i := by
  induction ws generalizing file with
  | nil => rfl
  | cons w ws ih =>
    simp only [List.map_cons, List.mem_cons, not_or] at hi
    have hw₁ := hw w List.mem_cons_self
    have h := length_overwrite fill file (w.1 * size) w.2
    rw [writePages, List.foldl_cons, ← writePages,
      ih (fun v hv ↦ hw v (List.mem_cons_of_mem w hv)) hi.2 (by omega),
      pageAt_overwrite_of_ne hi.1 hw₁ hf]

theorem pageAt_writePages_of_mem (hw : ∀ w ∈ ws, w.2.length = size)
    (hn : (ws.map Prod.fst).Nodup) (hi : (i, data) ∈ ws) :
    pageAt size (writePages fill size file ws) i = data ∧
      (i + 1) * size ≤ (writePages fill size file ws).length := by
  induction ws generalizing file with
  | nil => cases hi
  | cons w ws ih =>
    rw [List.map_cons, List.nodup_cons] at hn
    have hws := fun v hv ↦ hw v (List.mem_cons_of_mem w hv)
    rcases List.mem_cons.mp hi with rfl | hi
    · have hd : data.length = size := hw (i, data) List.mem_cons_self
      have h := length_overwrite fill file (i * size) data
      have hlen : (i + 1) * size ≤ (overwrite fill file (i * size) data).length := by
        rw [h, hd, Nat.succ_mul]
        exact Nat.le_max_right _ _
      refine ⟨?_, hlen.trans length_le_writePages⟩
      rw [writePages, List.foldl_cons, ← writePages,
        pageAt_writePages_of_notMem hws hn.1 hlen, pageAt_overwrite_self hd]
    · exact ih hws hn.2 hi

end WritePages

end RsqliteRsync.Foundation.PagedFile
