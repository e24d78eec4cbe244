import RsqliteRsync.Cli.SplitSql
import RsqliteRsync.Foundation.Digits
import RsqliteRsync.Ha.KvText

namespace RsqliteRsync.Cli

open Sql Sql.Proto Protocol Foundation.Digits Foundation.Splitting Gateway Ha.KvText

/-- How doubles are written and read, by their bits. -/
structure FloatText where
  display : UInt64 → List Char
  read : List Char → UInt64
  display_plain : ∀ bits, ∀ c ∈ display bits, c.isAlphanum = true ∨ c = '-' ∨ c = '.'

section Formatter

def hexEncode (data : List UInt8) : List Char :=
  data.flatMap fun b ↦ [Nat.digitChar (b.toNat / 16), Nat.digitChar (b.toNat % 16)]

def literal (inside : List Char) : List Char := 'x' :: singleQuote :: inside ++ [singleQuote]

def formatSqlValue (floats : FloatText) : SqlValue → List Char
  | .null => "NULL".toList
  | .integer i => (toString i.toInt).toList
  | .float bits => floats.display bits
  | .text t => t.toList
  | .blob b => literal (hexEncode b)

end Formatter

section Parser

def parseI64 (s : List Char) : Option Int64 := (parseSigned 10 (2 ^ 63 - 1) s).map Int64.ofInt

def unsigned : List Char → List Char
  | '+' :: s => s
  | '-' :: s => s
  | s => s

def isExponent : List Char → Bool
  | [] => true
  | c :: s => c.toLower = 'e' ∧ unsigned s ≠ [] ∧ (unsigned s).all Char.isDigit

def isNumberText (s : List Char) : Bool :=
  let whole := s.takeWhile Char.isDigit
  match s.dropWhile Char.isDigit with
  | '.' :: rest =>
    (whole ≠ [] ∨ rest.takeWhile Char.isDigit ≠ []) ∧ isExponent (rest.dropWhile Char.isDigit)
  | rest => whole ≠ [] ∧ isExponent rest

def isFloatText (s : List Char) : Bool :=
  (unsigned s).map Char.toLower ∈ ["inf".toList, "infinity".toList, "nan".toList] ∨
    isNumberText (unsigned s)

def blobLiteral (s : List Char) : Option (List Char) := do
  let h ← s.dropPrefix? ['x', singleQuote]
  h.dropSuffix? [singleQuote]

def isAsciiHexdigit (c : Char) : Bool :=
  ('0' ≤ c ∧ c ≤ '9') ∨ ('A' ≤ c ∧ c ≤ 'F') ∨ ('a' ≤ c ∧ c ≤ 'f')

/-- The text is the one the errors quote. -/
def hexBytes (s : List Char) : List Char → Except SyncError (List UInt8)
  | a :: b :: rest =>
    match parseUnsigned 16 255 [a, b] with
    | none => .error (.protocol
        s!"invalid hex blob literal '{String.ofList s}': non-hex digit in '{String.ofList [a, b]}'")
    | some byte => (hexBytes s rest).map fun bytes ↦ UInt8.ofNat byte :: bytes
  | _ => .ok []

def parseBlob (s hex : List Char) : Except SyncError Value :=
  if hex.all isAsciiHexdigit = false then .error (.protocol
    s!"invalid hex blob literal '{String.ofList s}': contains non-hex characters")
  else if hex.length % 2 ≠ 0 then .error (.protocol
    s!"invalid hex blob literal '{String.ofList s}': odd number of hex digits")
  else (hexBytes s hex).map fun bytes ↦ ⟨some (.blobValue bytes)⟩

def parseStringToValue (floats : FloatText) (s : List Char) : Except SyncError Value :=
  if s.map Char.toLower = "null".toList then .ok ⟨some (.nullValue true)⟩
  else
    match parseI64 s with
    | some i => .ok ⟨some (.intValue i)⟩
    | none =>
      if isFloatText s then .ok ⟨some (.floatValue (floats.read s))⟩
      else
        match blobLiteral s with
        | some hex => parseBlob s hex
        | none => .ok ⟨some (.textValue (String.ofList s))⟩

def pushParameter (floats : FloatText) (params : Parameters) (p : List Char) :
    Except SyncError Parameters :=
  match splitOnce '=' p with
  | some (k, v) => do
    let value ← parseStringToValue floats (strip isWhitespace v)
    return { params with
      named := params.named ++ [⟨String.ofList (strip isWhitespace k), some value⟩] }
  | none => do
    let value ← parseStringToValue floats (strip isWhitespace p)
    return { params with positional := params.positional ++ [value] }

def parseCliParameters (floats : FloatText) (rawParams : List (List Char)) :
    Except SyncError (Option Parameters) := do
  if rawParams = [] then return none
  let params ← rawParams.foldlM (pushParameter floats) ⟨[], []⟩
  return some params

end Parser

section Hex

variable {s inside : List Char} {bytes : List UInt8} {c : Char}

/-- The digits, of either case, are the halves of the bytes. -/
def HexDenotes (digits : List Char) (bytes : List UInt8) : Prop :=
  digits.map (toDigit 16) = bytes.flatMap fun b ↦ [some (b.toNat / 16), some (b.toNat % 16)]

theorem hexDenotes_nil : HexDenotes [] [] := rfl

theorem hexDenotes_cons_iff {digits : List Char} {b : UInt8} :
    HexDenotes digits (b :: bytes) ↔ ∃ high low rest, digits = high :: low :: rest ∧
      toDigit 16 high = some (b.toNat / 16) ∧ toDigit 16 low = some (b.toNat % 16) ∧
        HexDenotes rest bytes := by
  unfold HexDenotes
  constructor
  · intro h
    obtain ⟨high, more, rfl, hhigh, hmore⟩ := List.map_eq_cons_iff.mp h
    obtain ⟨low, rest, rfl, hlow, hrest⟩ := List.map_eq_cons_iff.mp hmore
    exact ⟨high, low, rest, rfl, hhigh, hlow, hrest⟩
  · rintro ⟨high, low, rest, rfl, hhigh, hlow, hrest⟩
    simp [hhigh, hlow, hrest]

theorem hexDenotes_hexEncode (bytes : List UInt8) : HexDenotes (hexEncode bytes) bytes := by
  induction bytes with
  | nil => exact hexDenotes_nil
  | cons b bytes ih =>
    have hb := b.toNat_lt
    exact hexDenotes_cons_iff.mpr ⟨_, _, hexEncode bytes, rfl, toDigit_digitChar (by omega),
      toDigit_digitChar (by omega), ih⟩

theorem isAsciiHexdigit_iff : isAsciiHexdigit c = true ↔ ∃ x, toDigit 16 c = some x := by
  have hnums : '0'.toNat = 48 ∧ '9'.toNat = 57 ∧ 'A'.toNat = 65 ∧ 'F'.toNat = 70 ∧
      'Z'.toNat = 90 ∧ 'a'.toNat = 97 ∧ 'f'.toNat = 102 ∧ 'z'.toNat = 122 := by decide
  rw [← Option.isSome_iff_exists]
  simp only [isAsciiHexdigit, toDigit, Char.le_def, UInt32.le_iff_toNat_le, Char.toNat_val, hnums,
    decide_eq_true_eq]
  split_ifs <;> simp <;> omega

theorem hexDenotes_of_hex (hhex : ∀ c ∈ inside, isAsciiHexdigit c = true)
    (heven : inside.length % 2 = 0) : ∃ bytes, HexDenotes inside bytes := by
  induction inside using List.twoStepInduction with
  | nil => exact ⟨[], hexDenotes_nil⟩
  | singleton c => simp at heven
  | cons_cons a b rest ih _ =>
    rw [List.forall_mem_cons, List.forall_mem_cons] at hhex
    obtain ⟨x, hx⟩ := isAsciiHexdigit_iff.mp hhex.1
    obtain ⟨y, hy⟩ := isAsciiHexdigit_iff.mp hhex.2.1
    rw [List.length_cons, List.length_cons] at heven
    obtain ⟨bytes, hbytes⟩ := ih hhex.2.2 (by omega)
    have hx16 := toDigit_lt hx
    have hy16 := toDigit_lt hy
    have hbyte : (UInt8.ofNat (16 * x + y)).toNat = 16 * x + y :=
      UInt8.toNat_ofNat_of_lt (by change _ < 256; omega)
    refine ⟨UInt8.ofNat (16 * x + y) :: bytes, hexDenotes_cons_iff.mpr ⟨a, b, rest, rfl, ?_, ?_,
      hbytes⟩⟩
    · rw [hx, hbyte]
      congr 1
      omega
    · rw [hy, hbyte]
      congr 1
      omega

theorem hex_of_hexDenotes (h : HexDenotes inside bytes) :
    (∀ c ∈ inside, isAsciiHexdigit c = true) ∧ inside.length % 2 = 0 := by
  induction bytes generalizing inside with
  | nil =>
    obtain rfl : inside = [] := List.map_eq_nil_iff.mp h
    simp
  | cons b bytes ih =>
    obtain ⟨high, low, rest, rfl, hhigh, hlow, hrest⟩ := hexDenotes_cons_iff.mp h
    obtain ⟨hhex, heven⟩ := ih hrest
    refine ⟨?_, by rw [List.length_cons, List.length_cons]; omega⟩
    rw [List.forall_mem_cons, List.forall_mem_cons]
    exact ⟨isAsciiHexdigit_iff.mpr ⟨_, hhigh⟩, isAsciiHexdigit_iff.mpr ⟨_, hlow⟩, hhex⟩

theorem hexBytes_of_denotes (s : List Char) (h : HexDenotes inside bytes) :
    hexBytes s inside = .ok bytes := by
  induction bytes generalizing inside with
  | nil =>
    obtain rfl : inside = [] := List.map_eq_nil_iff.mp h
    rfl
  | cons b bytes ih =>
    obtain ⟨high, low, rest, rfl, hhigh, hlow, hrest⟩ := hexDenotes_cons_iff.mp h
    rw [hexBytes, parseUnsigned_pair hhigh hlow, Nat.div_add_mod]
    simp [ih hrest, Except.map]

theorem parseBlob_of_denotes (s : List Char) (h : HexDenotes inside bytes) :
    parseBlob s inside = .ok ⟨some (.blobValue bytes)⟩ := by
  obtain ⟨hhex, heven⟩ := hex_of_hexDenotes h
  rw [parseBlob, if_neg, if_neg, hexBytes_of_denotes s h]
  · rfl
  · exact not_not.mpr heven
  · rw [Bool.not_eq_false, List.all_eq_true]
    exact hhex

theorem denotes_of_parseBlob {v : Value} (h : parseBlob s inside = .ok v) :
    ∃ bytes, HexDenotes inside bytes := by
  unfold parseBlob at h
  split_ifs at h with hhex heven
  rw [Bool.not_eq_false, List.all_eq_true] at hhex
  exact hexDenotes_of_hex hhex (not_not.mp heven)

end Hex

section RoundTrip

variable (floats : FloatText)

theorem blobLiteral_literal (inside : List Char) : blobLiteral (literal inside) = some inside := by
  have hopen : (literal inside).dropPrefix? ['x', singleQuote] = some (inside ++ [singleQuote]) :=
    List.dropPrefix?_eq_some_iff.mpr ⟨['x', singleQuote], rfl, beq_self_eq_true _⟩
  have hclose : (inside ++ [singleQuote]).dropSuffix? [singleQuote] = some inside :=
    List.dropSuffix?_eq_some_iff.mpr ⟨[singleQuote], rfl, beq_self_eq_true _⟩
  rw [blobLiteral, hopen]
  exact hclose

/-- No earlier branch takes a literal. -/
theorem parseStringToValue_literal (inside : List Char) :
    parseStringToValue floats (literal inside) = parseBlob (literal inside) inside := by
  have hnull : (literal inside).map Char.toLower ≠ "null".toList := by
    intro h
    exact absurd (List.cons.inj h).1 (by decide)
  have hint : parseI64 (literal inside) = none := rfl
  have hfloat : isFloatText (literal inside) = false := by
    simp [isFloatText, literal, unsigned, isNumberText]
  rw [parseStringToValue, if_neg hnull, hint]
  simp only [hfloat, blobLiteral_literal, Bool.false_eq_true, if_false]

theorem toList_toString_int (i : ℤ) : (toString i).toList =
    if i < 0 then '-' :: Nat.toDigits 10 i.natAbs else Nat.toDigits 10 i.natAbs := by
  cases i with
  | ofNat n => exact Nat.toList_repr.trans (if_neg (Int.not_lt.mpr (Int.natCast_nonneg n))).symm
  | negSucc n =>
    rw [if_pos (Int.negSucc_lt_zero n)]
    change ("-" ++ n.succ.repr).toList = _
    rw [String.toList_append, Nat.toList_repr]
    rfl

theorem parseI64_toString (i : Int64) : parseI64 (toString i.toInt).toList = some i := by
  have hsigned : parseSigned 10 (2 ^ 63 - 1) (toString i.toInt).toList = some i.toInt := by
    have hlt := i.toInt_lt
    have hle := i.le_toInt
    rw [toList_toString_int]
    split_ifs with hneg
    · rw [parseSigned_neg_toDigits (by omega)]
      congr 1
      omega
    · rw [parseSigned_toDigits (by omega)]
      congr 1
      omega
  rw [parseI64, hsigned, Option.map_some, Int64.ofInt_toInt]

theorem mem_toString_int {i : ℤ} {c : Char} (h : c ∈ (toString i).toList) :
    c = '-' ∨ c.isDigit = true := by
  rw [toList_toString_int] at h
  split_ifs at h
  · obtain rfl | hc := List.mem_cons.mp h
    · exact .inl rfl
    · exact .inr (isDigit_of_mem_toDigits hc)
  · exact .inr (isDigit_of_mem_toDigits h)

theorem lt_letters_of_isDigit {c : Char} (h : c.isDigit = true) : c < 'A' := by
  simp only [Char.isDigit, Bool.and_eq_true, decide_eq_true_eq] at h
  exact Char.lt_def.mpr (UInt32.lt_of_le_of_lt h.2 (by decide : (57 : UInt32) < 65))

theorem toString_ne_null (i : ℤ) : (toString i).toList.map Char.toLower ≠ "null".toList := by
  intro h
  obtain ⟨c, hc, hlower⟩ : ∃ c ∈ (toString i).toList, c.toLower = 'n' := by
    rw [← List.mem_map, h]
    decide
  obtain rfl | hdigit := mem_toString_int hc
  · exact absurd hlower (by decide)
  · have hlt := lt_letters_of_isDigit hdigit
    have hupper : ¬ (c.val ≥ 'A'.val ∧ c.val ≤ 'Z'.val) := fun hupper ↦
      UInt32.not_lt.mpr hupper.1 (Char.lt_def.mp hlt)
    have hkept : c.toLower = c := dif_neg hupper
    rw [← hkept, hlower] at hlt
    exact absurd hlt (by decide)

theorem parse_format_integer (i : Int64) :
    parseStringToValue floats (formatSqlValue floats (.integer i)) = .ok ⟨some (.intValue i)⟩ := by
  rw [formatSqlValue, parseStringToValue, if_neg (toString_ne_null i.toInt), parseI64_toString]

theorem parse_format_blob (b : List UInt8) :
    parseStringToValue floats (formatSqlValue floats (.blob b)) = .ok ⟨some (.blobValue b)⟩ := by
  rw [formatSqlValue, parseStringToValue_literal,
    parseBlob_of_denotes _ (hexDenotes_hexEncode b)]

/-- Not a double, and not a text, which may look like another value. -/
inductive Printable : SqlValue → Prop
  | null : Printable .null
  | integer (i : Int64) : Printable (.integer i)
  | blob (b : List UInt8) : Printable (.blob b)

theorem parse_format {v : SqlValue} (h : Printable v) :
    parseStringToValue floats (formatSqlValue floats v) = .ok (sqlValueToProto v) := by
  cases h with
  | null => rfl
  | integer i => exact parse_format_integer floats i
  | blob b => exact parse_format_blob floats b

def Bare (text : List Char) : Prop := ∀ c ∈ text, isWhitespace c = false ∧ c ≠ '='

theorem bare_hexEncode (b : List UInt8) : Bare (hexEncode b) := by
  have hdigit (n : ℕ) (h : n < 16) :
      isWhitespace (Nat.digitChar n) = false ∧ Nat.digitChar n ≠ '=' := by
    interval_cases n <;> decide
  intro c hc
  obtain ⟨byte, -, hbyte⟩ := List.mem_flatMap.mp hc
  have hlt := byte.toNat_lt
  simp only [List.mem_cons, List.not_mem_nil, or_false] at hbyte
  obtain rfl | rfl := hbyte
  · exact hdigit _ (by omega)
  · exact hdigit _ (by omega)

theorem bare_format {v : SqlValue} (h : Printable v) : Bare (formatSqlValue floats v) := by
  cases h with
  | null =>
    have hnull : "NULL".toList.all (fun c ↦ !isWhitespace c && c != '=') = true := rfl
    intro c hc
    simpa using List.all_eq_true.mp hnull c hc
  | integer i =>
    intro c hc
    obtain rfl | hdigit := mem_toString_int hc
    · decide
    · refine ⟨isWhitespace_of_isDigit hdigit, ?_⟩
      rintro rfl
      exact absurd hdigit (by decide)
  | blob b =>
    intro c hc
    simp only [formatSqlValue, literal, List.cons_append, List.mem_cons, List.mem_append,
      List.not_mem_nil, or_false] at hc
    obtain rfl | rfl | hc | rfl := hc
    · decide
    · decide
    · exact bare_hexEncode b c hc
    · decide

theorem splitOnce_of_bare {text : List Char} (h : Bare text) : splitOnce '=' text = none := by
  induction text with
  | nil => rfl
  | cons c text ih =>
    obtain ⟨hc, htext⟩ := List.forall_mem_cons.mp h
    rw [splitOnce, if_neg hc.2, ih htext]
    rfl

theorem pushParameter_format (params : Parameters) {v : SqlValue} (h : Printable v) :
    pushParameter floats params (formatSqlValue floats v) =
      .ok { params with positional := params.positional ++ [sqlValueToProto v] } := by
  have hbare := bare_format floats h
  rw [pushParameter, splitOnce_of_bare hbare]
  simp only [strip_of_forall fun c hc ↦ (hbare c hc).1, parse_format floats h]
  rfl

theorem foldlM_pushParameter_format (params : Parameters) {values : List SqlValue}
    (h : ∀ v ∈ values, Printable v) :
    (values.map (formatSqlValue floats)).foldlM (pushParameter floats) params =
      .ok { params with positional := params.positional ++ values.map sqlValueToProto } := by
  induction values generalizing params with
  | nil => simp [pure, Except.pure]
  | cons v values ih =>
    rw [List.forall_mem_cons] at h
    rw [List.map_cons, List.foldlM_cons, pushParameter_format floats params h.1]
    exact (ih _ h.2).trans (by simp)

/-- A printed row of such values is a list of positional parameters. -/
theorem parseCliParameters_format {values : List SqlValue} (hne : values ≠ [])
    (h : ∀ v ∈ values, Printable v) :
    parseCliParameters floats (values.map (formatSqlValue floats)) =
      .ok (some ⟨values.map sqlValueToProto, []⟩) := by
  have hmap : values.map (formatSqlValue floats) ≠ [] := by simpa using hne
  rw [parseCliParameters, if_neg hmap, foldlM_pushParameter_format floats _ h]
  rfl

/-- What is printed can be given back as a parameter, and a blob literal is read exactly if it has
an even number of hexadecimal digits. -/
theorem parseStringToValue_format :
    (∀ v : SqlValue, (v = .null ∨ (∃ i, v = .integer i) ∨ ∃ b, v = .blob b) →
      parseStringToValue floats (formatSqlValue floats v) = .ok (sqlValueToProto v)) ∧
    ∀ inside : List Char,
      ((∃ v, parseStringToValue floats (literal inside) = .ok v) ↔
        (∀ c ∈ inside, isAsciiHexdigit c = true) ∧ inside.length % 2 = 0) ∧
      ∀ v, parseStringToValue floats (literal inside) = .ok v →
        ∃ bytes, v = ⟨some (.blobValue bytes)⟩ ∧ HexDenotes inside bytes := by
  constructor
  · rintro v (rfl | ⟨i, rfl⟩ | ⟨b, rfl⟩)
    · exact parse_format floats .null
    · exact parse_format floats (.integer i)
    · exact parse_format floats (.blob b)
  · intro inside
    rw [parseStringToValue_literal]
    refine ⟨⟨?_, ?_⟩, ?_⟩
    · rintro ⟨v, hv⟩
      obtain ⟨bytes, hbytes⟩ := denotes_of_parseBlob hv
      exact hex_of_hexDenotes hbytes
    · rintro ⟨hhex, heven⟩
      obtain ⟨bytes, hbytes⟩ := hexDenotes_of_hex hhex heven
      exact ⟨_, parseBlob_of_denotes _ hbytes⟩
    · intro v hv
      obtain ⟨bytes, hbytes⟩ := denotes_of_parseBlob hv
      rw [parseBlob_of_denotes _ hbytes, Except.ok.injEq] at hv
      exact ⟨bytes, hv.symm, hbytes⟩

/-- Doubles do not occur where this is used. -/
def zeroFloats : FloatText where
  display _ := ['0']
  read _ := 0
  display_plain _ c hc := by
    obtain rfl := List.mem_singleton.mp hc
    exact .inl rfl

theorem parseStringToValue_format_blob :
    parseStringToValue zeroFloats (formatSqlValue zeroFloats (.blob [10, 255])) =
      .ok ⟨some (.blobValue [10, 255])⟩ ∧
    ∃ v, parseStringToValue zeroFloats (literal ['0', 'a', 'F', 'f']) = .ok v :=
  ⟨(parseStringToValue_format zeroFloats).1 (.blob [10, 255]) (.inr (.inr ⟨[10, 255], rfl⟩)),
    ((parseStringToValue_format zeroFloats).2 ['0', 'a', 'F', 'f']).1.mpr
      ⟨List.all_eq_true.mp rfl, rfl⟩⟩

end RoundTrip

end RsqliteRsync.Cli
