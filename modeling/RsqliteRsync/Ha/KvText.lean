import RsqliteRsync.Foundation.Digits
import RsqliteRsync.Foundation.FileTree
import RsqliteRsync.Gateway.Status

namespace RsqliteRsync.Ha.KvText

open Foundation Foundation.Splitting Gateway

abbrev KvMap := String → Option String

section Lines

def chomp (line : List Char) : List Char :=
  if line.getLast? = some '\r' then line.dropLast else line

def linesOf : List (List Char) → List (List Char)
  | [] => []
  | [last] => if last.isEmpty then [] else [last]
  | line :: more => chomp line :: linesOf more

def lines (text : List Char) : List (List Char) := linesOf (text.splitOn '\n')

def splitOnce (sep : Char) : List Char → Option (List Char × List Char)
  | [] => none
  | c :: rest =>
    if c = sep then some ([], rest)
    else (splitOnce sep rest).map fun parts ↦ (c :: parts.1, parts.2)

end Lines

/-- A line that is not blank, without the blanks around it. -/
def parseKvLine (subject : String) (allowedKeys : List String) (map : KvMap) (line : List Char) :
    Except String KvMap :=
  match splitOnce '=' line with
  | none => .error s!"invalid {subject} line (expected key=value): {String.ofList line}"
  | some (key, value) =>
    let key := String.ofList (strip isWhitespace key)
    if key ∈ allowedKeys then
      .ok (Function.update map key (some (String.ofList (strip isWhitespace value))))
    else .error s!"unknown {subject} key: {key}"

def parseKvLines (subject input : String) (allowedKeys : List String) : Except String KvMap :=
  (lines input.toList).foldlM (fun map rawLine ↦
    if (strip isWhitespace rawLine).isEmpty then .ok map
    else parseKvLine subject allowedKeys map (strip isWhitespace rawLine)) fun _ ↦ none

def parseU64 (raw : String) : Option ℕ := Digits.parseUnsigned 10 u64Max raw.toList

def requireU64 (map : KvMap) (key : String) : Except String ℕ :=
  match map key with
  | none => .error s!"missing {key}"
  | some raw =>
    match parseU64 raw with
    | none => .error s!"invalid {key}: {raw}"
    | some value => .ok value

def requireNonEmpty (map : KvMap) (key : String) : Except String String :=
  match map key with
  | none => .error s!"missing {key}"
  | some raw => if raw = "" then .error s!"{key} must not be empty" else .ok raw

/-- The argument is what reading the file gives. -/
def readOptionalKvText (file : Except IoError String) : Except IoError (Option String) :=
  match file with
  | .ok text =>
    if trim text = "" ∨ (trim text).toList.map Char.toLower = "none".toList then .ok none
    else .ok (some (trim text))
  | .error .notFound => .ok none
  | .error e => .error e

section Numbers

theorem isDigit_of_mem {n : ℕ} {c : Char} (h : c ∈ (toString n).toList) : c.isDigit = true := by
  rw [Nat.toString_eq_repr, Nat.toList_repr] at h
  exact Digits.isDigit_of_mem_toDigits h

theorem isWhitespace_of_isDigit {c : Char} (h : c.isDigit = true) : isWhitespace c = false := by
  simp [Char.isDigit, isWhitespace, UInt32.le_iff_toNat_le] at h ⊢
  omega

theorem strip_toString (n : ℕ) :
    strip isWhitespace (toString n).toList = (toString n).toList := by
  apply strip_of_forall
  intro c hc
  exact isWhitespace_of_isDigit (isDigit_of_mem hc)

theorem toString_ne_nil (n : ℕ) : (toString n).toList ≠ [] := by
  rw [Nat.toString_eq_repr, Nat.toList_repr]
  exact Nat.toDigits_ne_nil

theorem parseU64_toString {n : ℕ} (h : n ≤ u64Max) : parseU64 (toString n) = some n := by
  rw [parseU64, Nat.toString_eq_repr, Nat.toList_repr]
  exact Digits.parseUnsigned_toDigits h

theorem requireU64_of_toString {map : KvMap} {key : String} {n : ℕ}
    (hkey : map key = some (toString n)) (h : n ≤ u64Max) : requireU64 map key = .ok n := by
  unfold requireU64
  rw [hkey]
  simp only [parseU64_toString h]

end Numbers

section Content

variable {subject : String} {allowedKeys : List String} {map : KvMap}

theorem kept_chomp (line : List Char) :
    kept isWhitespace (chomp line) = kept isWhitespace line := by
  unfold chomp
  split_ifs with hreturn
  · have hline := List.dropLast_append_getLast? _ hreturn
    have hstrip : strip isWhitespace line = strip isWhitespace line.dropLast := by
      rw [← hline, strip_concat_of_blank _ rfl, List.dropLast_concat]
    rw [kept, kept, hstrip]
  · rfl

theorem chomp_of_strip {line : List Char} (h : strip isWhitespace line = line) :
    chomp line = line := by
  rw [chomp, if_neg]
  intro hreturn
  have hline := List.dropLast_append_getLast? _ hreturn
  have hlast := (while_of_strip h).2
  rw [← hline, List.rdropWhile_concat_pos _ _ _ rfl] at hlast
  have hlength := congrArg List.length hlast
  have hshort := (List.rdropWhile_prefix isWhitespace line.dropLast).length_le
  rw [List.length_append, List.length_singleton] at hlength
  omega

theorem flatMap_kept_linesOf (pieces : List (List Char)) :
    (linesOf pieces).flatMap (kept isWhitespace) = pieces.flatMap (kept isWhitespace) := by
  fun_induction linesOf pieces with
  | case1 => rfl
  | case2 last hempty =>
    rw [List.isEmpty_iff.mp hempty]
    rfl
  | case3 => rfl
  | case4 line more _ ih => rw [List.flatMap_cons, List.flatMap_cons, kept_chomp, ih]

/-- What is read are the lines that are not blank, without the blanks around them. -/
theorem parseKvLines_eq (subject input : String) (allowedKeys : List String) :
    parseKvLines subject input allowedKeys =
      ((input.toList.splitOn '\n').flatMap (kept isWhitespace)).foldlM
        (parseKvLine subject allowedKeys) fun _ ↦ none := by
  unfold parseKvLines
  rw [← flatMap_kept_linesOf, ← lines]
  generalize (fun _ ↦ none : KvMap) = map
  induction lines input.toList generalizing map with
  | nil => rfl
  | cons line more ih =>
    rw [List.foldlM_cons, List.flatMap_cons, List.foldlM_append]
    unfold kept
    split_ifs
    · exact ih map
    · rw [List.foldlM_cons]
      cases parseKvLine subject allowedKeys map (strip isWhitespace line) with
      | error e => rfl
      | ok map => exact ih map

theorem flatMap_kept_splitOn {rows : List (List Char)} (h : ∀ row ∈ rows, '\n' ∉ row) :
    ((['\n'].intercalate rows).splitOn '\n').flatMap (kept isWhitespace) =
      rows.flatMap (kept isWhitespace) := by
  cases rows with
  | nil => rfl
  | cons row rows => rw [List.splitOn_intercalate _ h (List.cons_ne_nil _ _)]

theorem intercalate_concat_nil {rows : List (List Char)} (h : rows ≠ []) :
    ['\n'].intercalate (rows ++ [[]]) = ['\n'].intercalate rows ++ ['\n'] := by
  induction rows with
  | nil => contradiction
  | cons row rows ih =>
    cases rows with
    | nil => simp [List.intercalate]
    | cons next rows =>
      rw [List.cons_append, List.intercalate_cons_of_ne_nil (by simp),
        List.intercalate_cons_cons, ih (List.cons_ne_nil _ _)]
      simp only [List.append_assoc]

/-- Lines as they are written, with no blanks around them. -/
def Tidy (rows : List (List Char)) : Prop :=
  ∀ row ∈ rows, row ≠ [] ∧ strip isWhitespace row = row

theorem Tidy.flatMap_kept {rows : List (List Char)} (h : Tidy rows) :
    rows.flatMap (kept isWhitespace) = rows := by
  induction rows with
  | nil => rfl
  | cons row rows ih =>
    obtain ⟨⟨hne, hstrip⟩, hrows⟩ := List.forall_mem_cons.mp h
    rw [List.flatMap_cons, ih hrows, kept_of_not_blank (not_blank_of_strip hstrip hne), hstrip]
    rfl

theorem Tidy.strip_intercalate {rows : List (List Char)} (h : Tidy rows) (hrows : rows ≠ []) :
    strip isWhitespace (['\n'].intercalate rows) = ['\n'].intercalate rows ∧
      ['\n'].intercalate rows ≠ [] := by
  induction rows with
  | nil => contradiction
  | cons row rows ih =>
    obtain ⟨⟨hne, hstrip⟩, hmore⟩ := List.forall_mem_cons.mp h
    cases rows with
    | nil =>
      rw [List.intercalate_singleton]
      exact ⟨hstrip, hne⟩
    | cons next rows =>
      obtain ⟨ihstrip, ihne⟩ := ih hmore (List.cons_ne_nil _ _)
      rw [List.intercalate_cons_cons, List.append_assoc]
      refine ⟨strip_between hstrip ihstrip hne ihne _, ?_⟩
      intro hnil
      exact hne (List.append_eq_nil_iff.mp hnil).1

theorem Tidy.linesOf_concat_nil {rows : List (List Char)} (h : Tidy rows) :
    linesOf (rows ++ [[]]) = rows := by
  induction rows with
  | nil => rfl
  | cons row rows ih =>
    obtain ⟨⟨-, hstrip⟩, hmore⟩ := List.forall_mem_cons.mp h
    have hcons : linesOf (row :: rows ++ [[]]) = chomp row :: linesOf (rows ++ [[]]) := by
      cases rows <;> rfl
    rw [hcons, chomp_of_strip hstrip, ih hmore]

end Content

section Entries

variable {subject : String} {allowedKeys : List String} {map : KvMap}
  {entry : String × String} {entries : List (String × String)}

def render (entry : String × String) : List Char := entry.1.toList ++ '=' :: entry.2.toList

structure Writable (allowedKeys : List String) (entry : String × String) : Prop where
  allowed : entry.1 ∈ allowedKeys
  separator : '=' ∉ entry.1.toList
  key : strip isWhitespace entry.1.toList = entry.1.toList
  value : strip isWhitespace entry.2.toList = entry.2.toList

theorem Writable.strip_render (h : Writable allowedKeys entry) (hkey : entry.1 ≠ "")
    (hvalue : entry.2 ≠ "") : strip isWhitespace (render entry) = render entry :=
  strip_between h.key h.value (String.toList_eq_nil_iff.not.mpr hkey)
    (String.toList_eq_nil_iff.not.mpr hvalue) ['=']

theorem splitOnce_append {sep : Char} {before : List Char} (h : sep ∉ before) (after : List Char) :
    splitOnce sep (before ++ sep :: after) = some (before, after) := by
  induction before with
  | nil => simp [splitOnce]
  | cons c before ih =>
    obtain ⟨hne, hbefore⟩ := not_or.mp (List.mem_cons.not.mp h)
    simp [splitOnce, Ne.symm hne, ih hbefore]

theorem Writable.parseKvLine (h : Writable allowedKeys entry) :
    parseKvLine subject allowedKeys map (render entry) =
      .ok (Function.update map entry.1 (some entry.2)) := by
  simp [KvText.parseKvLine, render, splitOnce_append h.separator, h.key, h.value, h.allowed]

theorem Writable.render_inj {entry' : String × String} (h : Writable allowedKeys entry)
    (h' : Writable allowedKeys entry') (heq : render entry = render entry') : entry = entry' := by
  have hparts := splitOnce_append h.separator entry.2.toList
  rw [← render, heq, render, splitOnce_append h'.separator, Option.some.injEq, Prod.mk.injEq,
    String.toList_inj, String.toList_inj] at hparts
  exact Prod.ext hparts.1.symm hparts.2.symm

/-- Every line gives its key its value, in whatever order they come. -/
theorem foldlM_parseKvLine (subject : String) (hwritable : ∀ e ∈ entries, Writable allowedKeys e)
    (hkeys : ∀ e ∈ entries, ∀ e' ∈ entries, e.1 = e'.1 → e = e') {written : List (List Char)}
    (hwritten : ∀ line ∈ written, line ∈ entries.map render) (map : KvMap) :
    ∃ read, written.foldlM (parseKvLine subject allowedKeys) map = .ok read ∧
      ∀ e ∈ entries, render e ∈ written ∨ map e.1 = some e.2 → read e.1 = some e.2 := by
  induction written generalizing map with
  | nil => exact ⟨map, rfl, fun e _ h ↦ h.resolve_left List.not_mem_nil⟩
  | cons line written ih =>
    rw [List.forall_mem_cons] at hwritten
    obtain ⟨first, hfirst, rfl⟩ := List.mem_map.mp hwritten.1
    obtain ⟨read, hread, hvalues⟩ := ih hwritten.2 (Function.update map first.1 (some first.2))
    refine ⟨read, ?_, ?_⟩
    · rw [List.foldlM_cons, (hwritable first hfirst).parseKvLine]
      exact hread
    · intro e he hor
      apply hvalues e he
      by_cases hkey : e.1 = first.1
      · rw [hkeys e he first hfirst hkey]
        exact .inr (Function.update_self ..)
      · rw [Function.update_of_ne hkey]
        apply hor.imp_left
        intro hmem
        apply (List.mem_cons.mp hmem).resolve_left
        intro heq
        exact hkey (congrArg Prod.fst ((hwritable e he).render_inj (hwritable first hfirst) heq))

/-- Lines in any order, with blank lines and blanks around them, are read back. -/
theorem parseKvLines_of_perm (subject : String) (hwritable : ∀ e ∈ entries, Writable allowedKeys e)
    (hkeys : ∀ e ∈ entries, ∀ e' ∈ entries, e.1 = e'.1 → e = e') {rows : List (List Char)}
    (hrows : ∀ row ∈ rows, '\n' ∉ row)
    (hperm : (rows.flatMap (kept isWhitespace)).Perm (entries.map render)) :
    ∃ read, parseKvLines subject (String.ofList (['\n'].intercalate rows)) allowedKeys = .ok read ∧
      ∀ e ∈ entries, read e.1 = some e.2 := by
  obtain ⟨read, hread, hvalues⟩ := foldlM_parseKvLine subject hwritable hkeys
    (fun _ ↦ hperm.mem_iff.mp) fun _ ↦ none
  refine ⟨read, ?_, ?_⟩
  · rw [parseKvLines_eq, String.toList_ofList, flatMap_kept_splitOn hrows, hread]
  · intro e he
    exact hvalues e he (.inl (hperm.mem_iff.mpr (List.mem_map_of_mem he)))

end Entries

end RsqliteRsync.Ha.KvText
