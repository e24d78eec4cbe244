import Mathlib.Data.List.Basic

namespace RsqliteRsync.Foundation.Packing

variable {α : Type} {k : ℕ}

/-- The entries of all blocks, one after the other. -/
def pack (blocks : List (Vector α k)) : List α := blocks.flatMap (·.toList)

def blocks (k : ℕ) : (n : ℕ) → (xs : List α) → n * k ≤ xs.length → List (Vector α k)
  | 0, _, _ => []
  | n + 1, xs, h =>
    have h' : n * k + k ≤ xs.length := Nat.succ_mul n k ▸ h
    ⟨(xs.take k).toArray, by simp; omega⟩ :: blocks k n (xs.drop k) (by simp; omega)

def asChunks (k : ℕ) (xs : List α) : List (Vector α k) × List α :=
  (blocks k (xs.length / k) xs (Nat.div_mul_le_self _ _), xs.drop (xs.length / k * k))

theorem length_pack (bs : List (Vector α k)) : (pack bs).length = bs.length * k := by
  induction bs with
  | nil => simp [pack]
  | cons b bs ih =>
    rw [pack, List.flatMap_cons, List.length_append, ← pack, ih, Vector.length_toList,
      List.length_cons, Nat.succ_mul, Nat.add_comm]

theorem pack_blocks (n : ℕ) (xs : List α) (h : n * k ≤ xs.length) :
    pack (blocks k n xs h) = xs.take (n * k) := by
  induction n generalizing xs with
  | zero => simp [pack, blocks]
  | succ n ih =>
    rw [blocks, pack, List.flatMap_cons, ← pack, ih, Nat.succ_mul, Nat.add_comm, List.take_add]
    rfl

theorem blocks_pack (bs : List (Vector α k)) {n : ℕ} (hn : n = bs.length)
    (h : n * k ≤ (pack bs).length) : blocks k n (pack bs) h = bs := by
  subst hn
  induction bs with
  | nil => rfl
  | cons b bs ih =>
    have htake : (pack (b :: bs)).take k = b.toList := by
      rw [pack, List.flatMap_cons, List.take_left' b.length_toList]
    have hdrop : (pack (b :: bs)).drop k = pack bs := by
      rw [pack, List.flatMap_cons, List.drop_left' b.length_toList, pack]
    simp only [List.length_cons, blocks, htake, hdrop, ih]
    rfl

theorem asChunks_pack (hk : 0 < k) (bs : List (Vector α k)) : asChunks k (pack bs) = (bs, []) := by
  have hlen : (pack bs).length / k = bs.length := by
    rw [length_pack, Nat.mul_div_cancel _ hk]
  rw [asChunks, blocks_pack bs hlen, hlen, ← length_pack, List.drop_length]

theorem pack_asChunks {xs : List α} (h : xs.length % k = 0) : pack (asChunks k xs).1 = xs := by
  rw [asChunks, pack_blocks, Nat.div_mul_cancel (Nat.dvd_of_mod_eq_zero h), List.take_length]

end RsqliteRsync.Foundation.Packing
