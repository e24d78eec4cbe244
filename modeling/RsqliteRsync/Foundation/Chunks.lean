import Mathlib.Data.List.Basic
import Mathlib.Tactic

namespace RsqliteRsync.Foundation.Chunks

variable {α β ε : Type}

def stepBy (n c : ℕ) : List ℕ := (List.range ((n + c - 1) / c)).map (· * c)

def inChunks (n c : ℕ) (body : ℕ → ℕ → Except ε (List β)) : Except ε (List β) :=
  (stepBy n c).foldlM (fun acc start ↦ do
    let chunk ← body start (min (start + c) n)
    pure (acc ++ chunk)) []

/-- A computation over a range of indices that splits at every point inside the range. -/
structure Splits (n : ℕ) (whole : ℕ → ℕ → Except ε (List β)) : Prop where
  empty : ∀ i, whole i i = pure []
  split : ∀ i j k, i ≤ j → j ≤ k → k ≤ n →
    whole i k = (do let a ← whole i j; let b ← whole j k; pure (a ++ b))

theorem foldlM_chunks {n c : ℕ} {whole : ℕ → ℕ → Except ε (List β)} (h : Splits n whole)
    (m : ℕ) (hm : ∀ i < m, i * c ≤ n) :
    ((List.range m).map (· * c)).foldlM (fun acc start ↦ do
      let chunk ← whole start (min (start + c) n)
      pure (acc ++ chunk)) [] = whole 0 (min (m * c) n) := by
  induction m with
  | zero => simpa using (h.empty 0).symm
  | succ m ih =>
    have hmc : m * c ≤ n := hm m (Nat.lt_succ_self m)
    have hmin : min (m * c) n = m * c := min_eq_left hmc
    rw [List.range_succ, List.map_append, List.foldlM_append, ih (fun i hi ↦ hm i (by omega)),
      hmin, Nat.succ_mul, h.split 0 (m * c) _ (Nat.zero_le _) (by omega) (min_le_right _ _)]
    simp

/-- The chunk size has no influence on the result. -/
theorem inChunks_eq {n c : ℕ} (hc : 0 < c) {whole body : ℕ → ℕ → Except ε (List β)}
    (h : Splits n whole)
    (hb : ∀ start stop, start ≤ stop → stop ≤ n → body start stop = whole start stop) :
    inChunks n c body = whole 0 n := by
  have hlt : ∀ i < (n + c - 1) / c, i * c ≤ n := by
    intro i hi
    have h₁ : (i + 1) * c ≤ n + c - 1 :=
      (Nat.mul_le_mul_right c hi).trans (Nat.div_mul_le_self _ _)
    rw [Nat.succ_mul] at h₁
    omega
  have hge : min ((n + c - 1) / c * c) n = n := by
    have h₁ := Nat.div_add_mod (n + c - 1) c
    have h₂ := Nat.mod_lt (n + c - 1) hc
    rw [Nat.mul_comm] at h₁
    omega
  have hfold := foldlM_chunks h ((n + c - 1) / c) hlt
  rw [hge] at hfold
  rw [← hfold, inChunks, stepBy]
  have hcongr : ∀ (l : List ℕ) (acc : List β), (∀ s ∈ l, s ≤ n) →
      l.foldlM (fun acc start ↦ do
        let chunk ← body start (min (start + c) n)
        pure (acc ++ chunk)) acc =
      l.foldlM (fun acc start ↦ do
        let chunk ← whole start (min (start + c) n)
        pure (acc ++ chunk)) acc := by
    intro l
    induction l with
    | nil => intro acc _; rfl
    | cons s l ih =>
      intro acc hs
      have hsn := hs s List.mem_cons_self
      have hl := fun x hx ↦ hs x (List.mem_cons_of_mem s hx)
      simp only [List.foldlM_cons, hb s (min (s + c) n) (by omega) (min_le_right _ _), ih _ hl]
  apply hcongr
  intro s hs
  obtain ⟨i, hi, rfl⟩ := List.mem_map.mp hs
  exact hlt i (List.mem_range.mp hi)

theorem filterMapM_append (f : α → Except ε (Option β)) (l l' : List α) :
    (l ++ l').filterMapM f =
      (do let a ← l.filterMapM f; let b ← l'.filterMapM f; pure (a ++ b)) := by
  induction l with
  | nil => simp
  | cons x l ih =>
    simp only [List.cons_append, List.filterMapM_cons, ih, bind_assoc]
    congr 1
    funext o
    cases o <;> simp

theorem filterMapM_map {γ : Type} (g : γ → α) (f : α → Except ε (Option β)) (l : List γ) :
    (l.map g).filterMapM f = l.filterMapM fun x ↦ f (g x) := by
  induction l with
  | nil => rfl
  | cons x l ih => simp only [List.map_cons, List.filterMapM_cons, ih]

theorem filterMapM_congr {f g : α → Except ε (Option β)} {l : List α}
    (h : ∀ x ∈ l, f x = g x) : l.filterMapM f = l.filterMapM g := by
  induction l with
  | nil => rfl
  | cons x l ih =>
    rw [List.filterMapM_cons, List.filterMapM_cons, h x List.mem_cons_self,
      ih fun y hy ↦ h y (List.mem_cons_of_mem x hy)]

theorem filterMapM_pure (f : α → Except ε (Option β)) (g : α → Option β) (l : List α)
    (h : ∀ x ∈ l, f x = pure (g x)) : l.filterMapM f = pure (l.filterMap g) := by
  induction l with
  | nil => rfl
  | cons x l ih =>
    rw [List.filterMapM_cons, h x List.mem_cons_self,
      ih fun y hy ↦ h y (List.mem_cons_of_mem x hy)]
    cases hg : g x <;> simp [hg]

theorem filterMapM_error {e : ε} {f : α → Except ε (Option β)} {l : List α}
    (h : ∀ x ∈ l, f x = .error e ∨ ∃ y, f x = pure y) (hx : ∃ x ∈ l, f x = .error e) :
    l.filterMapM f = .error e := by
  induction l with
  | nil => obtain ⟨x, hx, -⟩ := hx; cases hx
  | cons x l ih =>
    rw [List.filterMapM_cons]
    rcases h x List.mem_cons_self with he | ⟨y, hy⟩
    · rw [he]; rfl
    · have htail : ∃ z ∈ l, f z = .error e := by
        obtain ⟨z, hz, hze⟩ := hx
        rcases List.mem_cons.mp hz with rfl | hz
        · rw [hy] at hze; cases hze
        · exact ⟨z, hz, hze⟩
      rw [hy, pure_bind, ih (fun z hz ↦ h z (List.mem_cons_of_mem x hz)) htail]
      cases y <;> rfl

theorem mapM_eq_pure (f : α → Except ε β) (g : α → β) (l : List α)
    (h : ∀ x ∈ l, f x = pure (g x)) : l.mapM f = pure (l.map g) := by
  induction l with
  | nil => rfl
  | cons x l ih =>
    rw [List.mapM_cons, h x List.mem_cons_self,
      ih fun y hy ↦ h y (List.mem_cons_of_mem x hy)]
    rfl

theorem mapM_error {e : ε} {f : α → Except ε β} {l : List α}
    (h : ∀ x ∈ l, f x = .error e ∨ ∃ y, f x = pure y) (hx : ∃ x ∈ l, f x = .error e) :
    l.mapM f = .error e := by
  induction l with
  | nil => obtain ⟨x, hx, -⟩ := hx; cases hx
  | cons x l ih =>
    rw [List.mapM_cons]
    rcases h x List.mem_cons_self with he | ⟨y, hy⟩
    · rw [he]; rfl
    · have htail : ∃ z ∈ l, f z = .error e := by
        obtain ⟨z, hz, hze⟩ := hx
        rcases List.mem_cons.mp hz with rfl | hz
        · rw [hy] at hze; cases hze
        · exact ⟨z, hz, hze⟩
      rw [hy, pure_bind, ih (fun z hz ↦ h z (List.mem_cons_of_mem x hz)) htail]
      rfl

theorem splits_range_mapM (n : ℕ) (f : ℕ → Except ε β) :
    Splits n (fun i k ↦ (List.range' i (k - i)).mapM f) where
  empty i := by simp
  split i j k hij hjk _ := by
    have hr : List.range' i (k - i) = List.range' i (j - i) ++ List.range' j (k - j) := by
      rw [show k - i = (j - i) + (k - j) by omega, ← List.range'_append,
        show i + 1 * (j - i) = j by omega]
    rw [hr, List.mapM_append]

theorem splits_filterMapM (l : List α) (f : α × ℕ → Except ε (Option β)) :
    Splits l.length (fun i k ↦ (((l.drop i).take (k - i)).zipIdx i).filterMapM f) where
  empty i := by simp
  split i j k hij hjk hk := by
    have hl : (l.drop i).take (k - i) =
        (l.drop i).take (j - i) ++ (l.drop j).take (k - j) := by
      rw [show k - i = (j - i) + (k - j) by omega, List.take_add, List.drop_drop,
        show i + (j - i) = j by omega]
    have hlen : i + ((l.drop i).take (j - i)).length = j := by
      rw [List.length_take, List.length_drop]
      omega
    rw [hl, List.zipIdx_append, hlen, filterMapM_append]

end RsqliteRsync.Foundation.Chunks
