import Mathlib.Data.List.Basic
import Mathlib.Data.Nat.Basic
import Mathlib.Tactic.IntervalCases

namespace RsqliteRsync.Foundation.Digits

section Numbers

/-- The value of a digit of either case. -/
def toDigit (radix : ℕ) (c : Char) : Option ℕ :=
  let value :=
    if '0' ≤ c ∧ c ≤ '9' then c.toNat - '0'.toNat
    else if 'a' ≤ c ∧ c ≤ 'z' then c.toNat - 'a'.toNat + 10
    else if 'A' ≤ c ∧ c ≤ 'Z' then c.toNat - 'A'.toNat + 10
    else radix
  if value < radix then some value else none

def pushDigit (radix bound value : ℕ) (c : Char) : Option ℕ := do
  let digit ← toDigit radix c
  if radix * value + digit ≤ bound then some (radix * value + digit) else none

/-- A number of at least one digit that does not exceed the bound. -/
def parseDigits (radix bound : ℕ) (digits : List Char) : Option ℕ :=
  if digits = [] then none else digits.foldlM (pushDigit radix bound) 0

def parseUnsigned (radix max : ℕ) : List Char → Option ℕ
  | '+' :: digits => parseDigits radix max digits
  | digits => parseDigits radix max digits

/-- The least number is one further from zero than the greatest. -/
def parseSigned (radix max : ℕ) : List Char → Option ℤ
  | '+' :: digits => (parseDigits radix max digits).map fun n : ℕ ↦ (n : ℤ)
  | '-' :: digits => (parseDigits radix (max + 1) digits).map fun n : ℕ ↦ -(n : ℤ)
  | digits => (parseDigits radix max digits).map fun n : ℕ ↦ (n : ℤ)

end Numbers

section Decimal

variable {digits : List Char} {value bound n : ℕ} {c : Char}

theorem toDigit_ten (c : Char) :
    toDigit 10 c = if c.isDigit = true then some (c.toNat - '0'.toNat) else none := by
  have hdigit : c.isDigit = true ↔ '0' ≤ c ∧ c ≤ '9' := by simp [Char.isDigit, Char.le_def]
  by_cases h : '0' ≤ c ∧ c ≤ '9'
  · have hle : c.toNat ≤ '9'.toNat := UInt32.le_iff_toNat_le.mp (Char.le_def.mp h.2)
    have hlt : c.toNat - '0'.toNat < 10 := Nat.lt_succ_of_le (Nat.sub_le_sub_right hle _)
    simp only [toDigit, if_pos h, if_pos hlt, if_pos (hdigit.mpr h)]
  · rw [if_neg (mt hdigit.mp h)]
    simp only [toDigit, if_neg h]
    split_ifs <;> first | rfl | omega

theorem le_ofDigitChars (digits : List Char) (value : ℕ) :
    value ≤ Nat.ofDigitChars 10 digits value := by
  induction digits generalizing value with
  | nil => exact le_rfl
  | cons c digits ih =>
    apply le_trans _ (ih (10 * value + (c.toNat - '0'.toNat)))
    omega

theorem foldlM_pushDigit (hdigits : ∀ c ∈ digits, c.isDigit = true)
    (hmax : Nat.ofDigitChars 10 digits value ≤ bound) :
    digits.foldlM (pushDigit 10 bound) value = some (Nat.ofDigitChars 10 digits value) := by
  induction digits generalizing value with
  | nil => rfl
  | cons c digits ih =>
    rw [List.forall_mem_cons] at hdigits
    have hstep : pushDigit 10 bound value c = some (10 * value + (c.toNat - '0'.toNat)) := by
      rw [pushDigit, toDigit_ten, if_pos hdigits.1]
      exact if_pos ((le_ofDigitChars digits _).trans hmax)
    rw [List.foldlM_cons, hstep]
    exact ih hdigits.2 hmax

theorem isDigit_of_mem_toDigits (h : c ∈ Nat.toDigits 10 n) : c.isDigit = true :=
  Nat.isDigit_of_mem_toDigits (by decide) (by decide) h

theorem parseDigits_toDigits (h : n ≤ bound) :
    parseDigits 10 bound (Nat.toDigits 10 n) = some n := by
  have hvalue : Nat.ofDigitChars 10 (Nat.toDigits 10 n) 0 = n :=
    Nat.ofDigitChars_ten_toDigits
  rw [parseDigits, if_neg Nat.toDigits_ne_nil,
    foldlM_pushDigit (fun _ ↦ isDigit_of_mem_toDigits) (hvalue.symm ▸ h), hvalue]

theorem toDigits_ne_cons (hc : c.isDigit = false) : Nat.toDigits 10 n ≠ c :: digits := by
  intro heq
  have hdigit : c.isDigit = true := isDigit_of_mem_toDigits (heq ▸ List.mem_cons_self)
  cases hc.symm.trans hdigit

theorem parseUnsigned_toDigits (h : n ≤ bound) :
    parseUnsigned 10 bound (Nat.toDigits 10 n) = some n := by
  unfold parseUnsigned
  split
  next heq => exact absurd heq (toDigits_ne_cons (by decide))
  next => exact parseDigits_toDigits h

theorem parseSigned_toDigits (h : n ≤ bound) :
    parseSigned 10 bound (Nat.toDigits 10 n) = some (n : ℤ) := by
  unfold parseSigned
  split
  next heq => exact absurd heq (toDigits_ne_cons (by decide))
  next heq => exact absurd heq (toDigits_ne_cons (by decide))
  next => rw [parseDigits_toDigits h, Option.map_some]

theorem parseSigned_neg_toDigits (h : n ≤ bound + 1) :
    parseSigned 10 bound ('-' :: Nat.toDigits 10 n) = some (-(n : ℤ)) := by
  change (parseDigits 10 (bound + 1) (Nat.toDigits 10 n)).map _ = _
  rw [parseDigits_toDigits h, Option.map_some]

end Decimal

section Hex

variable {a b c : Char} {x y : ℕ}

theorem toDigit_lt {radix : ℕ} (h : toDigit radix c = some x) : x < radix := by
  simp only [toDigit, Option.ite_none_right_eq_some, Option.some.injEq] at h
  exact h.2 ▸ h.1

/-- The digits that the standard library prints are read back. -/
theorem toDigit_digitChar (h : x < 16) : toDigit 16 (Nat.digitChar x) = some x := by
  interval_cases x <;> decide

theorem parseUnsigned_pair (ha : toDigit 16 a = some x) (hb : toDigit 16 b = some y) :
    parseUnsigned 16 255 [a, b] = some (16 * x + y) := by
  have hplus : a ≠ '+' := by
    rintro rfl
    simp [show toDigit 16 '+' = none by decide] at ha
  have hx := toDigit_lt ha
  have hy := toDigit_lt hb
  have hfirst : pushDigit 16 255 0 a = some x := by
    rw [pushDigit, ha]
    exact (if_pos (by omega)).trans (by simp)
  have hsecond : pushDigit 16 255 x b = some (16 * x + y) := by
    rw [pushDigit, hb]
    exact if_pos (by omega)
  unfold parseUnsigned
  split
  next heq => exact absurd (List.cons.inj heq).1 hplus
  next =>
    rw [parseDigits, if_neg (List.cons_ne_nil a [b]), List.foldlM_cons, hfirst]
    change List.foldlM (pushDigit 16 255) x [b] = _
    rw [List.foldlM_cons, hsecond]
    rfl

end Hex

end RsqliteRsync.Foundation.Digits
