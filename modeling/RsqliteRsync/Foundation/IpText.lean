import RsqliteRsync.Foundation.Digits

namespace RsqliteRsync.Foundation.IpText

open Digits

def expect (target : Char) : List Char → Option (List Char)
  | [] => none
  | c :: rest => if c = target then some rest else none

/-- Reads a number of at most so many digits and gives the rest of the text. -/
def readNumber (radix maxDigits : ℕ) (allowZeroPrefix : Bool) (max : ℕ) (s : List Char) :
    Option (List Char) :=
  let digits := s.takeWhile fun c ↦ (toDigit radix c).isSome
  if maxDigits < digits.length then none
  else if allowZeroPrefix = false ∧ s.head? = some '0' ∧ 1 < digits.length then none
  else do
    let _ ← parseDigits radix max digits
    some (s.dropWhile fun c ↦ (toDigit radix c).isSome)

def readOctet : List Char → Option (List Char) := readNumber 10 3 false 255

def readIpv4Addr (s : List Char) : Option (List Char) := do
  let s ← readOctet s
  let s ← expect '.' s
  let s ← readOctet s
  let s ← expect '.' s
  let s ← readOctet s
  let s ← expect '.' s
  readOctet s

def readSeparator (first : Bool) (s : List Char) : Option (List Char) :=
  if first then some s else expect ':' s

/-- Reads groups into so many slots. The result is their number, whether the last two come from an
address of the old kind, and the rest of the text. -/
def readGroups (first : Bool) : ℕ → List Char → ℕ × Bool × List Char
  | 0, s => (0, false, s)
  | slots + 1, s =>
    match if slots = 0 then none else (readSeparator first s).bind readIpv4Addr with
    | some rest => (2, true, rest)
    | none =>
      match (readSeparator first s).bind (readNumber 16 4 true 65535) with
      | none => (0, false, s)
      | some rest =>
        let (n, ipv4, rest) := readGroups false slots rest
        (n + 1, ipv4, rest)

def readIpv6Addr (s : List Char) : Option (List Char) :=
  let (headSize, headIpv4, rest) := readGroups true 8 s
  if headSize = 8 then some rest
  else if headIpv4 then none
  else do
    let rest ← expect ':' rest
    let rest ← expect ':' rest
    let (_, _, rest) := readGroups true (7 - headSize) rest
    some rest

/-- Whether all of the text is an address. -/
def isIpAddr (s : List Char) : Bool :=
  match readIpv4Addr s with
  | some rest => rest.isEmpty
  | none => readIpv6Addr s == some []

section Shape

variable {kind : Char → Prop} {s middle rest : List Char} {c : Char}

def Reads (kind : Char → Prop) (s rest : List Char) : Prop :=
  ∃ taken, s = taken ++ rest ∧ ∀ c ∈ taken, kind c

theorem Reads.refl (s : List Char) : Reads kind s s := ⟨[], rfl, by simp⟩

theorem Reads.trans (h : Reads kind s middle) (h' : Reads kind middle rest) :
    Reads kind s rest := by
  obtain ⟨taken, rfl, htaken⟩ := h
  obtain ⟨taken', rfl, htaken'⟩ := h'
  exact ⟨taken ++ taken', by simp, List.forall_mem_append.mpr ⟨htaken, htaken'⟩⟩

theorem Reads.mem (h : Reads kind s rest) (hc : c ∈ rest) : c ∈ s := by
  obtain ⟨taken, rfl, -⟩ := h
  exact List.mem_append_right taken hc

def GroupChar (c : Char) : Prop := (toDigit 16 c).isSome ∨ c = ':'

def QuadChar (c : Char) : Prop := (toDigit 10 c).isSome ∨ c = '.'

theorem eq_cons_of_expect (h : expect c s = some rest) : s = c :: rest := by
  cases s with
  | nil => simp [expect] at h
  | cons d s =>
    simp only [expect, Option.ite_none_right_eq_some, Option.some.injEq] at h
    rw [h.1, h.2]

theorem reads_expect (h : expect c s = some rest) (hc : kind c) : Reads kind s rest :=
  ⟨[c], eq_cons_of_expect h, by simpa using hc⟩

theorem reads_number {radix maxDigits max : ℕ} {zero : Bool}
    (h : readNumber radix maxDigits zero max s = some rest)
    (hkind : ∀ c, (toDigit radix c).isSome → kind c) : Reads kind s rest := by
  refine ⟨s.takeWhile fun c ↦ (toDigit radix c).isSome, ?_, ?_⟩
  · simp only [readNumber, Option.ite_none_left_eq_some, Option.bind_eq_bind,
      Option.bind_eq_some_iff, Option.some.injEq] at h
    obtain ⟨-, -, -, -, rfl⟩ := h
    rw [List.takeWhile_append_dropWhile]
  · intro c hc
    exact hkind c (List.all_eq_true.mp List.all_takeWhile c hc)

theorem reads_octet (h : readOctet s = some rest) : Reads QuadChar s rest :=
  reads_number h fun _ ↦ .inl

theorem reads_ipv4Addr (h : readIpv4Addr s = some rest) : Reads QuadChar s rest ∧ '.' ∈ s := by
  simp only [readIpv4Addr, Option.bind_eq_bind, Option.bind_eq_some_iff] at h
  obtain ⟨s₁, h₁, s₂, h₂, s₃, h₃, s₄, h₄, s₅, h₅, s₆, h₆, h₇⟩ := h
  have hdot {s rest : List Char} (h : expect '.' s = some rest) : Reads QuadChar s rest :=
    reads_expect h (.inr rfl)
  constructor
  · exact (reads_octet h₁).trans <| (hdot h₂).trans <| (reads_octet h₃).trans <|
      (hdot h₄).trans <| (reads_octet h₅).trans <| (hdot h₆).trans (reads_octet h₇)
  · exact (reads_octet h₁).mem (by simp [eq_cons_of_expect h₂])

theorem reads_separator {first : Bool} (h : readSeparator first s = some rest) :
    Reads GroupChar s rest := by
  cases first with
  | true =>
    obtain rfl : s = rest := by simpa [readSeparator] using h
    exact .refl s
  | false => exact reads_expect h (.inr rfl)

/-- What reading into a slot can do. -/
theorem readGroups_cases (first : Bool) (slots : ℕ) (s : List Char) :
    (∃ middle rest, readSeparator first s = some middle ∧ readIpv4Addr middle = some rest ∧
      readGroups first (slots + 1) s = (2, true, rest)) ∨
    (∃ middle rest, readSeparator first s = some middle ∧
      readNumber 16 4 true 65535 middle = some rest ∧
      readGroups first (slots + 1) s = ((readGroups false slots rest).1 + 1,
        (readGroups false slots rest).2)) ∨
    readGroups first (slots + 1) s = (0, false, s) := by
  rw [readGroups]
  split
  next rest hrest =>
    split at hrest
    · cases hrest
    · obtain ⟨middle, hmiddle, hread⟩ := Option.bind_eq_some_iff.mp hrest
      exact .inl ⟨middle, rest, hmiddle, hread, rfl⟩
  next =>
    split
    next => exact .inr (.inr rfl)
    next rest hrest =>
      obtain ⟨middle, hmiddle, hread⟩ := Option.bind_eq_some_iff.mp hrest
      exact .inr (.inl ⟨middle, rest, hmiddle, hread, rfl⟩)

theorem reads_groups (first : Bool) (slots : ℕ) (s : List Char) :
    ∃ middle, Reads GroupChar s middle ∧ Reads QuadChar middle (readGroups first slots s).2.2 ∧
      ((readGroups first slots s).2.1 = false → middle = (readGroups first slots s).2.2) := by
  induction slots generalizing first s with
  | zero => exact ⟨s, .refl s, .refl s, fun _ ↦ rfl⟩
  | succ slots ih =>
    obtain ⟨middle, rest, hsep, hread, heq⟩ | ⟨middle, rest, hsep, hread, heq⟩ | heq :=
      readGroups_cases first slots s
    · rw [heq]
      exact ⟨middle, reads_separator hsep, (reads_ipv4Addr hread).1,
        fun h ↦ absurd h.symm Bool.false_ne_true⟩
    · obtain ⟨last, hgroups, hquad, hnone⟩ := ih false rest
      rw [heq]
      exact ⟨last, (reads_separator hsep).trans ((reads_number hread fun _ ↦ .inl).trans hgroups),
        hquad, hnone⟩
    · rw [heq]
      exact ⟨s, .refl s, .refl s, fun _ ↦ rfl⟩

theorem colon_mem_of_readGroups {slots : ℕ} (h : (readGroups false slots s).1 ≠ 0) : ':' ∈ s := by
  cases slots with
  | zero => exact absurd rfl h
  | succ slots =>
    have hcolon {middle : List Char} (hsep : readSeparator false s = some middle) : ':' ∈ s := by
      simp [eq_cons_of_expect hsep]
    obtain ⟨_, _, hsep, -⟩ | ⟨_, _, hsep, -⟩ | heq := readGroups_cases false slots s
    · exact hcolon hsep
    · exact hcolon hsep
    · rw [heq] at h
      exact absurd rfl h

theorem separated_of_readGroups {slots : ℕ} (h : 2 ≤ (readGroups true slots s).1) :
    '.' ∈ s ∨ ':' ∈ s := by
  cases slots with
  | zero => simp [readGroups] at h
  | succ slots =>
    obtain ⟨_, _, hsep, hread, -⟩ | ⟨_, _, hsep, hread, heq⟩ | heq := readGroups_cases true slots s
    · exact .inl ((reads_separator hsep).mem (reads_ipv4Addr hread).2)
    · rw [heq] at h
      have hmore := Nat.ne_zero_of_lt (Nat.le_of_succ_le_succ h)
      have hcolon : ':' ∈ _ := colon_mem_of_readGroups hmore
      have hgroup : Reads GroupChar _ _ := reads_number hread fun _ ↦ .inl
      exact .inr ((reads_separator hsep).mem (hgroup.mem hcolon))
    · rw [heq] at h
      simp at h

theorem reads_ipv6Addr (h : readIpv6Addr s = some rest) :
    ∃ middle, Reads GroupChar s middle ∧ Reads QuadChar middle rest ∧ ('.' ∈ s ∨ ':' ∈ s) := by
  obtain ⟨head, hhead, hquad, hnone⟩ := reads_groups true 8 s
  simp only [readIpv6Addr] at h
  split_ifs at h with hsize hipv4
  · rw [← Option.some.inj h]
    exact ⟨head, hhead, hquad, separated_of_readGroups (by rw [hsize]; decide)⟩
  · rw [← hnone (by simpa using hipv4)] at h
    simp only [Option.bind_eq_bind, Option.bind_eq_some_iff, Option.some.injEq] at h
    obtain ⟨first, hfirst, second, hsecond, rfl⟩ := h
    obtain ⟨tail, htail, hquad, -⟩ := reads_groups true (7 - (readGroups true 8 s).1) second
    refine ⟨tail, hhead.trans ((reads_expect hfirst (.inr rfl)).trans
      ((reads_expect hsecond (.inr rfl)).trans htail)), hquad, .inr (hhead.mem ?_)⟩
    simp [eq_cons_of_expect hfirst]

/-- Groups and colons, then at most one dotted quad. -/
theorem isIpAddr_shape (h : isIpAddr s = true) :
    ∃ groups quad, s = groups ++ quad ∧ (∀ c ∈ groups, GroupChar c) ∧ (∀ c ∈ quad, QuadChar c) ∧
      ('.' ∈ s ∨ ':' ∈ s) := by
  simp only [isIpAddr] at h
  split at h
  next rest hread =>
    obtain rfl : rest = [] := List.isEmpty_iff.mp h
    obtain ⟨⟨quad, rfl, hquad⟩, hdot⟩ := reads_ipv4Addr hread
    exact ⟨[], quad, by simp, by simp, hquad, .inl hdot⟩
  next =>
    obtain ⟨_, ⟨groups, rfl, hgroups⟩, ⟨quad, rfl, hquad⟩, hsep⟩ := reads_ipv6Addr (beq_iff_eq.mp h)
    exact ⟨groups, quad, by simp, hgroups, hquad, hsep⟩

theorem groupChar_before_colon {before after : List Char}
    (h : isIpAddr (before ++ ':' :: after) = true) (hc : c ∈ before) : GroupChar c := by
  obtain ⟨groups, quad, heq, hgroups, hquad, -⟩ := isIpAddr_shape h
  obtain ⟨more, rfl, -⟩ | ⟨more, -, rfl⟩ := List.append_eq_append_iff.mp heq
  · exact hgroups c (List.mem_append_left more hc)
  · obtain hcolon | hcolon := hquad ':' (by simp)
    · exact absurd hcolon (by decide)
    · exact absurd hcolon (by decide)

end Shape

example : isIpAddr "::ffff:1.2.3.4".toList = true := by decide

example : isIpAddr "fe80::1:".toList = false := by decide

end RsqliteRsync.Foundation.IpText
