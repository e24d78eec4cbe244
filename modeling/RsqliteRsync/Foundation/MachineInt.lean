import Mathlib.Algebra.Order.Ring.Int
import Mathlib.Tactic

namespace RsqliteRsync.Foundation.MachineInt

/-- The operations on integers of a width that can give another number than the one they are
named after, without being stopped. -/
inductive Op
  | saturatingSub (a b : ℕ)
  | saturatingMul (bits a b : ℕ)
  | saturatingAdd (bits a b : ℕ)
  | toSigned (bits n : ℕ)
  | toUnsigned (bits : ℕ) (i : ℤ)

/-- The operation neither saturates nor wraps. -/
def Op.Exact : Op → Prop
  | .saturatingSub a b => b ≤ a
  | .saturatingMul bits a b => a * b < 2 ^ bits
  | .saturatingAdd bits a b => a + b < 2 ^ bits
  | .toSigned bits n => n < 2 ^ (bits - 1)
  | .toUnsigned bits i => 0 ≤ i ∧ i < 2 ^ bits

/-- A computation with a record of its operations, which checked arithmetic may stop. -/
abbrev Traced (α : Type) := StateT (List Op) Option α

def perform {α : Type} (op : Op) (a : α) : Traced α := do
  modify (· ++ [op])
  return a

/-- The nearest number of the width. -/
def saturate (bits n : ℕ) : ℕ := min n (2 ^ bits - 1)

def saturatingSub (a b : ℕ) : Traced ℕ := perform (.saturatingSub a b) (a - b)

def saturatingMul (bits a b : ℕ) : Traced ℕ :=
  perform (.saturatingMul bits a b) (saturate bits (a * b))

def saturatingAdd (bits a b : ℕ) : Traced ℕ :=
  perform (.saturatingAdd bits a b) (saturate bits (a + b))

def toSigned (bits n : ℕ) : Traced ℤ :=
  perform (.toSigned bits n) (if n < 2 ^ (bits - 1) then n else n - 2 ^ bits)

def toUnsigned (bits : ℕ) (i : ℤ) : Traced ℕ :=
  perform (.toUnsigned bits i) (i % 2 ^ bits).toNat

def checkedSigned (bits : ℕ) (i : ℤ) : Traced ℤ :=
  if -2 ^ (bits - 1) ≤ i ∧ i < 2 ^ (bits - 1) then pure i else failure

def addSigned (bits : ℕ) (a b : ℤ) : Traced ℤ := checkedSigned bits (a + b)

def subSigned (bits : ℕ) (a b : ℤ) : Traced ℤ := checkedSigned bits (a - b)

section Computes

variable {α β : Type} {P : Op → Prop} {m : Traced α} {f : α → Traced β} {a : α} {b : β}

/-- The computation ends with this value, and all its operations are as asked. -/
def Computes (P : Op → Prop) (m : Traced α) (a : α) : Prop :=
  ∀ log, ∃ ops, m.run log = some (a, log ++ ops) ∧ ∀ op ∈ ops, P op

theorem Computes.pure (P : Op → Prop) (a : α) : Computes P (Pure.pure a) a := by
  intro log
  exact ⟨[], by simp, List.forall_mem_nil _⟩

theorem Computes.bind (h : Computes P m a) (h' : Computes P (f a) b) : Computes P (m >>= f) b := by
  intro log
  obtain ⟨ops, hrun, hops⟩ := h log
  obtain ⟨ops', hrun', hops'⟩ := h' (log ++ ops)
  refine ⟨ops ++ ops', ?_, ?_⟩
  · rw [StateT.run_bind, hrun, ← List.append_assoc]
    exact hrun'
  · rw [List.forall_mem_append]
    exact ⟨hops, hops'⟩

theorem Computes.unique {a' : α} (h : Computes P m a) {log log' : List Op}
    (hrun : m.run log = some (a', log')) : a' = a := by
  obtain ⟨ops, hrun', -⟩ := h log
  rw [hrun] at hrun'
  exact (Prod.mk.inj (Option.some.inj hrun')).1

theorem Computes.mono {Q : Op → Prop} (h : Computes P m a) (hPQ : ∀ op, P op → Q op) :
    Computes Q m a := by
  intro log
  obtain ⟨ops, hrun, hops⟩ := h log
  exact ⟨ops, hrun, fun op hop ↦ hPQ op (hops op hop)⟩

theorem Computes.perform {op : Op} (h : P op) (a : α) : Computes P (perform op a) a := by
  intro log
  refine ⟨[op], rfl, ?_⟩
  rw [List.forall_mem_singleton]
  exact h

end Computes

section Exact

variable {bits a b n : ℕ} {i j : ℤ}

theorem saturate_of_lt (h : n < 2 ^ bits) : saturate bits n = n :=
  min_eq_left (Nat.le_sub_one_of_lt h)

theorem le_saturate_iff (h : a < 2 ^ bits) : a ≤ saturate bits n ↔ a ≤ n :=
  le_min_iff.trans (and_iff_left (Nat.le_sub_one_of_lt h))

theorem computes_saturatingMul (h : a * b < 2 ^ bits) :
    Computes Op.Exact (saturatingMul bits a b) (a * b) := by
  rw [saturatingMul, saturate_of_lt h]
  exact .perform h _

theorem computes_saturatingAdd (h : a + b < 2 ^ bits) :
    Computes Op.Exact (saturatingAdd bits a b) (a + b) := by
  rw [saturatingAdd, saturate_of_lt h]
  exact .perform h _

theorem computes_toSigned (h : n < 2 ^ (bits - 1)) :
    Computes Op.Exact (toSigned bits n) n := by
  rw [toSigned, if_pos h]
  exact .perform h _

theorem computes_toUnsigned (h : n < 2 ^ bits) : Computes Op.Exact (toUnsigned bits n) n := by
  have hexact : ((n : ℤ) % 2 ^ bits).toNat = n := by
    rw [Int.emod_eq_of_lt (Int.natCast_nonneg n) (by exact_mod_cast h), Int.toNat_natCast]
  rw [toUnsigned, hexact]
  exact .perform ⟨Int.natCast_nonneg n, by exact_mod_cast h⟩ _

theorem computes_checkedSigned (h : -2 ^ (bits - 1) ≤ i) (h' : i < 2 ^ (bits - 1)) :
    Computes Op.Exact (checkedSigned bits i) i := by
  rw [checkedSigned, if_pos ⟨h, h'⟩]
  exact .pure _ _

end Exact

end RsqliteRsync.Foundation.MachineInt
