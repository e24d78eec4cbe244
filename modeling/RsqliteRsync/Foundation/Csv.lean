import Mathlib.Data.List.Basic

namespace RsqliteRsync.Foundation.Csv

def quoteMark : Char := '\x22'

def plain (c : Char) : Bool := c ≠ ',' ∧ c ≠ quoteMark ∧ c ≠ '\r' ∧ c ≠ '\n'

def Plain (value : List Char) : Prop := ∀ c ∈ value, plain c = true

instance : DecidablePred Plain := fun _ ↦ decidable_of_iff _ List.all_eq_true

def escape (value : List Char) : List Char :=
  value.flatMap fun c ↦ if c = quoteMark then [quoteMark, quoteMark] else [c]

def quote (value : List Char) : List Char := quoteMark :: escape value ++ [quoteMark]

section Grammar

inductive Field : List Char → List Char → Prop
  | bare {value : List Char} : Plain value → Field value value
  | quoted (value : List Char) : Field value (quote value)

inductive Line : List (List Char) → List Char → Prop
  | last {value text : List Char} : Field value text → Line [value] text
  | cons {value text : List Char} {values : List (List Char)} {more : List Char} :
      Field value text → Line values more → Line (value :: values) (text ++ ',' :: more)

inductive LineEnd : List Char → Prop
  | lf : LineEnd ['\n']
  | crlf : LineEnd ['\r', '\n']

/-- The last record may lack its end. -/
inductive Document : List (List (List Char)) → List Char → Prop
  | nil : Document [] []
  | last {record : List (List Char)} {text : List Char} :
      Line record text → text ≠ [] → Document [record] text
  | cons {record : List (List Char)} {text ending more : List Char}
      {records : List (List (List Char))} :
      Line record text → LineEnd ending → Document records more →
      Document (record :: records) (text ++ (ending ++ more))

end Grammar

section Reader

/-- What follows an opening quote, up to the closing one. -/
def readQuoted : List Char → Option (List Char × List Char)
  | [] => none
  | [c] => if c = quoteMark then some ([], []) else none
  | c :: d :: rest =>
    if c = quoteMark then
      if d = quoteMark then (readQuoted rest).map fun (value, rest) ↦ (quoteMark :: value, rest)
      else some ([], d :: rest)
    else (readQuoted (d :: rest)).map fun (value, rest) ↦ (c :: value, rest)

def readField (s : List Char) : Option (List Char × List Char) :=
  if s.head? = some quoteMark then readQuoted (s.drop 1)
  else some (s.takeWhile plain, s.dropWhile plain)

def readRecord : ℕ → List Char → Option (List (List Char) × List Char)
  | 0, _ => none
  | fuel + 1, s => do
    let (value, rest) ← readField s
    match rest with
    | ',' :: rest => (readRecord fuel rest).map fun (values, rest) ↦ (value :: values, rest)
    | rest => some ([value], rest)

def afterRecord (readMore : List Char → Option (List (List (List Char))))
    (record : List (List Char)) : List Char → Option (List (List (List Char)))
  | [] => some [record]
  | '\n' :: rest => (readMore rest).map fun records ↦ record :: records
  | '\r' :: '\n' :: rest => (readMore rest).map fun records ↦ record :: records
  | _ => none

def readRecords : ℕ → List Char → Option (List (List (List Char)))
  | _, [] => some []
  | 0, _ :: _ => none
  | fuel + 1, c :: s => do
    let (record, rest) ← readRecord (s.length + 2) (c :: s)
    afterRecord (readRecords fuel) record rest

def parse (s : List Char) : Option (List (List (List Char))) := readRecords s.length s

end Reader

section Correctness

variable {s value text rest : List Char} {values record : List (List Char)}
  {records : List (List (List Char))}

/-- The end of a line or of the text, or a comma. -/
def Stops (rest : List Char) : Prop := ∀ c ∈ rest.head?, c = ',' ∨ c = '\r' ∨ c = '\n'

theorem eq_of_readQuoted (h : readQuoted s = some (value, rest)) :
    s = escape value ++ quoteMark :: rest := by
  fun_induction readQuoted s generalizing value with
  | case1 => cases h
  | case2 => cases h; rfl
  | case3 => cases h
  | case4 tail ih =>
    obtain ⟨⟨value', _⟩, hread, heq⟩ := Option.map_eq_some_iff.mp h
    cases heq
    simp [escape, ih hread]
  | case5 d tail hd => cases h; rfl
  | case6 c d tail hc ih =>
    obtain ⟨⟨value', _⟩, hread, heq⟩ := Option.map_eq_some_iff.mp h
    cases heq
    simp [escape, ih hread, hc]

theorem readQuoted_escape (value : List Char) (hrest : rest.head? ≠ some quoteMark) :
    readQuoted (escape value ++ quoteMark :: rest) = some (value, rest) := by
  induction value with
  | nil =>
    cases rest with
    | nil => rfl
    | cons c rest =>
      have hc : c ≠ quoteMark := by simpa using hrest
      simp [escape, readQuoted, hc]
  | cons c value ih =>
    by_cases hc : c = quoteMark
    · have heq : escape (c :: value) = quoteMark :: quoteMark :: escape value := by
        simp [escape, hc]
      rw [heq, List.cons_append, List.cons_append, readQuoted, if_pos rfl, if_pos rfl, ih, hc]
      rfl
    · have heq : escape (c :: value) = c :: escape value := by simp [escape, hc]
      obtain ⟨d, more, hmore⟩ := List.exists_cons_of_ne_nil
        (List.append_ne_nil_of_right_ne_nil (escape value) (List.cons_ne_nil quoteMark rest))
      rw [heq, List.cons_append, hmore, readQuoted, if_neg hc, ← hmore, ih]
      rfl

theorem Stops.head_ne_quote (h : Stops rest) : rest.head? ≠ some quoteMark := by
  intro hquote
  obtain h | h | h := h quoteMark hquote <;> exact absurd h (by decide)

theorem Plain.head_ne_quote (h : Plain value) (hrest : Stops rest) :
    (value ++ rest).head? ≠ some quoteMark := by
  cases value with
  | nil => exact hrest.head_ne_quote
  | cons c value =>
    intro hquote
    have hc := h c List.mem_cons_self
    rw [Option.some.inj hquote] at hc
    exact absurd hc (by decide)

theorem Stops.dropWhile (h : Stops rest) :
    rest.takeWhile plain = [] ∧ rest.dropWhile plain = rest := by
  cases rest with
  | nil => exact ⟨rfl, rfl⟩
  | cons c rest =>
    have hc : plain c = false := by
      obtain rfl | rfl | rfl := h c rfl <;> decide
    simp [hc]

theorem field_of_readField (h : readField s = some (value, rest)) :
    ∃ text, Field value text ∧ s = text ++ rest := by
  unfold readField at h
  split_ifs at h with hquote
  · cases s with
    | nil => cases hquote
    | cons c s =>
      obtain rfl : c = quoteMark := Option.some.inj hquote
      refine ⟨quote value, .quoted value, ?_⟩
      simpa [quote] using eq_of_readQuoted h
  · cases h
    refine ⟨s.takeWhile plain, .bare ?_, List.takeWhile_append_dropWhile.symm⟩
    intro c hc
    exact List.all_eq_true.mp List.all_takeWhile c hc

theorem readField_of_field (h : Field value text) (hrest : Stops rest) :
    readField (text ++ rest) = some (value, rest) := by
  cases h with
  | bare hplain =>
    rw [readField, if_neg (hplain.head_ne_quote hrest), List.takeWhile_append_of_pos hplain,
      List.dropWhile_append_of_pos hplain, hrest.dropWhile.1, hrest.dropWhile.2, List.append_nil]
  | quoted =>
    have heq : quote value ++ rest = quoteMark :: (escape value ++ quoteMark :: rest) := by
      simp [quote]
    rw [readField, heq, if_pos List.head?_cons]
    exact readQuoted_escape value hrest.head_ne_quote

theorem line_of_readRecord {fuel : ℕ} (h : readRecord fuel s = some (values, rest)) :
    ∃ text, Line values text ∧ s = text ++ rest := by
  induction fuel generalizing s values with
  | zero => cases h
  | succ fuel ih =>
    simp only [readRecord, Option.bind_eq_bind, Option.bind_eq_some_iff] at h
    obtain ⟨⟨value, after⟩, hread, h⟩ := h
    obtain ⟨text, hfield, rfl⟩ := field_of_readField hread
    dsimp only at h
    split at h
    next more =>
      obtain ⟨⟨values', _⟩, hmore, heq⟩ := Option.map_eq_some_iff.mp h
      cases heq
      obtain ⟨text', hline, rfl⟩ := ih hmore
      exact ⟨text ++ ',' :: text', .cons hfield hline, by simp⟩
    next =>
      cases h
      exact ⟨text, .last hfield, rfl⟩

/-- The end of a line or of the text. -/
def Ends (rest : List Char) : Prop := ∀ c ∈ rest.head?, c = '\r' ∨ c = '\n'

theorem Ends.stops (h : Ends rest) : Stops rest := fun c hc ↦ .inr (h c hc)

theorem readRecord_of_line {fuel : ℕ} (h : Line values text) (hrest : Ends rest)
    (hfuel : text.length < fuel) : readRecord fuel (text ++ rest) = some (values, rest) := by
  induction h generalizing fuel with
  | last hfield =>
    obtain ⟨fuel, rfl⟩ := Nat.exists_eq_succ_of_ne_zero (Nat.ne_zero_of_lt hfuel)
    rw [readRecord, readField_of_field hfield hrest.stops]
    dsimp only [Option.bind_eq_bind, Option.bind_some]
    split
    next => obtain h | h := hrest ',' rfl <;> exact absurd h (by decide)
    next => rfl
  | @cons value text values more hfield hline ih =>
    obtain ⟨fuel, rfl⟩ := Nat.exists_eq_succ_of_ne_zero (Nat.ne_zero_of_lt hfuel)
    have hstops : Stops (',' :: (more ++ rest)) := fun c hc ↦ .inl (Option.some.inj hc).symm
    rw [List.append_assoc, List.cons_append, readRecord, readField_of_field hfield hstops]
    have hmore : more.length < fuel := by
      simp only [List.length_append, List.length_cons] at hfuel
      omega
    change (readRecord fuel (more ++ rest)).map _ = _
    rw [ih hmore]
    rfl

theorem document_of_readRecords {fuel : ℕ} (h : readRecords fuel s = some records) :
    Document records s := by
  induction fuel generalizing s records with
  | zero =>
    cases s with
    | nil => cases h; exact .nil
    | cons c s => cases h
  | succ fuel ih =>
    cases s with
    | nil => cases h; exact .nil
    | cons c s =>
      simp only [readRecords, Option.bind_eq_bind, Option.bind_eq_some_iff] at h
      obtain ⟨⟨record, after⟩, hrecord, h⟩ := h
      obtain ⟨text, hline, heq⟩ := line_of_readRecord hrecord
      rw [heq]
      dsimp only at h
      unfold afterRecord at h
      split at h
      next =>
        cases h
        rw [List.append_nil] at heq ⊢
        exact .last hline (heq ▸ List.cons_ne_nil c s)
      next more =>
        obtain ⟨records', hmore, rfl⟩ := Option.map_eq_some_iff.mp h
        exact .cons hline .lf (ih hmore)
      next more =>
        obtain ⟨records', hmore, rfl⟩ := Option.map_eq_some_iff.mp h
        exact .cons hline .crlf (ih hmore)
      next => cases h

theorem LineEnd.ends {ending : List Char} (h : LineEnd ending) (more : List Char) :
    Ends (ending ++ more) := by
  intro c hc
  cases h with
  | lf => exact .inr (Option.some.inj hc).symm
  | crlf => exact .inl (Option.some.inj hc).symm

theorem ends_nil : Ends [] := by
  intro c hc
  cases hc

theorem fuel_pos {fuel : ℕ} (hne : s ≠ []) (hfuel : s.length ≤ fuel) : ∃ less, fuel = less + 1 := by
  have hlength := List.length_pos_of_ne_nil hne
  exact Nat.exists_eq_add_one_of_ne_zero (by omega)

theorem readRecords_line {fuel : ℕ} (hline : Line record text) (hrest : Ends rest)
    (hne : text ++ rest ≠ []) (hfuel : (text ++ rest).length ≤ fuel + 1) :
    rest.length ≤ fuel + 1 ∧
      readRecords (fuel + 1) (text ++ rest) = afterRecord (readRecords fuel) record rest := by
  have hread : readRecord ((text ++ rest).length + 1) (text ++ rest) = some (record, rest) := by
    apply readRecord_of_line hline hrest
    rw [List.length_append]
    omega
  rw [List.length_append] at hfuel
  refine ⟨by omega, ?_⟩
  obtain ⟨c, s, heq⟩ := List.exists_cons_of_ne_nil hne
  rw [heq, List.length_cons] at hread
  rw [heq, readRecords, hread]
  rfl

theorem readRecords_of_document {fuel : ℕ} (h : Document records text)
    (hfuel : text.length ≤ fuel) : readRecords fuel text = some records := by
  induction h generalizing fuel with
  | nil => cases fuel <;> rfl
  | @last record text hline hne =>
    rw [← List.append_nil text] at hne hfuel ⊢
    obtain ⟨fuel, rfl⟩ := fuel_pos hne hfuel
    exact (readRecords_line hline ends_nil hne hfuel).2
  | @cons record text ending more records hline hending hmore ih =>
    have hne : text ++ (ending ++ more) ≠ [] := by
      cases hending <;> simp
    obtain ⟨fuel, rfl⟩ := fuel_pos hne hfuel
    obtain ⟨hmore, heq⟩ := readRecords_line hline (hending.ends more) hne hfuel
    rw [heq]
    rw [List.length_append] at hmore
    cases hending with
    | lf =>
      rw [List.length_singleton] at hmore
      exact congrArg (Option.map _) (ih (by omega))
    | crlf =>
      rw [List.length_cons] at hmore
      exact congrArg (Option.map _) (ih (by omega))

/-- The reader reads the documents of the grammar and nothing else. -/
theorem parse_eq_some_iff : parse s = some records ↔ Document records s :=
  ⟨document_of_readRecords, fun h ↦ readRecords_of_document h (Nat.le_refl _)⟩

end Correctness

section Writer

structure Cell where
  value : List Char
  quoted : Bool

def Cell.text (cell : Cell) : List Char := if cell.quoted then quote cell.value else cell.value

def Cell.Safe (cell : Cell) : Prop := cell.quoted = true ∨ Plain cell.value

def lineText (row : List Cell) : List Char := [','].intercalate (row.map Cell.text)

def tableText (rows : List (List Cell)) : List Char := rows.flatMap fun row ↦ lineText row ++ ['\n']

def tableValues (rows : List (List Cell)) : List (List (List Char)) :=
  rows.map fun row ↦ row.map Cell.value

variable {cell : Cell} {row : List Cell} {rows : List (List Cell)}
  {value text rest more : List Char} {c : Char}

theorem lineText_cons_cons (first second : Cell) (row : List Cell) :
    lineText (first :: second :: row) = first.text ++ ',' :: lineText (second :: row) := by
  simp [lineText, List.intercalate_cons_cons]

theorem lineText_singleton (cell : Cell) : lineText [cell] = cell.text := by
  simp [lineText, List.intercalate_singleton]

theorem tableText_cons (row : List Cell) (rows : List (List Cell)) :
    tableText (row :: rows) = lineText row ++ '\n' :: tableText rows := by
  simp [tableText]

theorem Cell.Safe.field (h : cell.Safe) : Field cell.value cell.text := by
  unfold Cell.text
  split_ifs with hquoted
  · exact .quoted cell.value
  · exact .bare (h.resolve_left hquoted)

theorem line_of_safe (hne : row ≠ []) (h : ∀ cell ∈ row, cell.Safe) :
    Line (row.map Cell.value) (lineText row) := by
  induction row with
  | nil => exact absurd rfl hne
  | cons first row ih =>
    rw [List.forall_mem_cons] at h
    cases row with
    | nil =>
      rw [lineText_singleton]
      exact .last h.1.field
    | cons second row =>
      rw [lineText_cons_cons]
      exact .cons h.1.field (ih (List.cons_ne_nil second row) h.2)

theorem document_of_safe (hrows : ∀ row ∈ rows, row ≠ [])
    (h : ∀ row ∈ rows, ∀ cell ∈ row, cell.Safe) : Document (tableValues rows) (tableText rows) := by
  induction rows with
  | nil => exact .nil
  | cons row rows ih =>
    rw [List.forall_mem_cons] at hrows h
    rw [tableText_cons]
    exact .cons (line_of_safe hrows.1 h.1) .lf (ih hrows.2 h.2)

/-- Escaping doubles the quotes that the value starts with. -/
theorem quotes_append_ne (k : ℕ) (hc : c ≠ quoteMark) :
    List.replicate (k + 1) quoteMark ++ (escape value ++ rest) ≠ value ++ c :: more := by
  induction value generalizing k with
  | nil =>
    intro h
    exact hc (List.cons.inj h).1.symm
  | cons d value ih =>
    intro h
    rw [List.replicate_succ, List.cons_append, List.cons_append, List.cons.injEq] at h
    obtain ⟨rfl, h⟩ := h
    have heq : escape (quoteMark :: value) = quoteMark :: quoteMark :: escape value := by
      simp [escape]
    apply ih (k + 1)
    rw [← h, heq, List.replicate_succ', List.replicate_succ']
    simp

/-- A reading of a written cell as its value takes the cell as it is written. -/
theorem Field.safe (h : Field cell.value text) (hrest : Stops rest) (hc : c ≠ quoteMark)
    (heq : text ++ rest = cell.text ++ c :: more) : text = cell.text ∧ cell.Safe := by
  unfold Cell.text at heq ⊢
  split_ifs at heq ⊢ with hquoted
  · refine ⟨?_, .inl hquoted⟩
    cases h with
    | bare hplain =>
      apply absurd _ (hplain.head_ne_quote hrest)
      rw [heq]
      rfl
    | quoted => rfl
  · cases h with
    | bare hplain => exact ⟨rfl, .inr hplain⟩
    | quoted =>
      have hquotes : List.replicate (0 + 1) quoteMark ++
          (escape cell.value ++ quoteMark :: rest) = cell.value ++ c :: more := by
        rw [← heq]
        simp [quote]
      exact absurd hquotes (quotes_append_ne 0 hc)

theorem Line.safe (h : Line (row.map Cell.value) text) (hrest : Ends rest)
    (heq : text ++ rest = lineText row ++ '\n' :: more) :
    text = lineText row ∧ ∀ cell ∈ row, cell.Safe := by
  induction row generalizing text with
  | nil => cases h
  | cons first row ih =>
    cases row with
    | nil =>
      rw [lineText_singleton] at heq ⊢
      cases h with
      | last hfield =>
        obtain ⟨htext, hsafe⟩ := hfield.safe hrest.stops (by decide) heq
        exact ⟨htext, by simpa using hsafe⟩
      | cons _ hline => cases hline
    | cons second row =>
      rw [lineText_cons_cons] at heq ⊢
      cases h with
      | @cons _ text _ more' hfield hline =>
        rw [List.append_assoc, List.append_assoc] at heq
        have hstops : Stops (',' :: more' ++ rest) := fun c hc ↦ .inl (Option.some.inj hc).symm
        obtain ⟨rfl, hsafe⟩ := hfield.safe hstops (by decide) heq
        have hmore := (List.cons.inj (List.append_cancel_left heq)).2
        obtain ⟨rfl, hrow⟩ := ih hline hmore
        exact ⟨rfl, List.forall_mem_cons.mpr ⟨hsafe, hrow⟩⟩

theorem Document.safe (h : Document (tableValues rows) (tableText rows)) :
    ∀ row ∈ rows, ∀ cell ∈ row, cell.Safe := by
  induction rows with
  | nil => simp
  | cons row rows ih =>
    rw [List.forall_mem_cons]
    generalize htext : tableText (row :: rows) = text at h
    generalize hvalues : tableValues (row :: rows) = records at h
    rw [tableText_cons] at htext
    cases h with
    | nil => cases hvalues
    | last hline =>
      obtain ⟨rfl, hrows⟩ := List.cons.inj hvalues
      rw [← List.append_nil text] at htext
      rw [List.map_eq_nil_iff.mp hrows]
      exact ⟨(hline.safe ends_nil htext.symm).2, by simp⟩
    | @cons _ text ending more _ hline hending hmore =>
      obtain ⟨rfl, rfl⟩ := List.cons.inj hvalues
      obtain ⟨rfl, hrow⟩ := hline.safe (hending.ends more) htext.symm
      have hrest := List.append_cancel_left htext
      refine ⟨hrow, ih ?_⟩
      cases hending with
      | lf => exact (List.cons.inj hrest).2 ▸ hmore
      | crlf => exact absurd (List.cons.inj hrest).1 (by decide)

/-- A written table is read back exactly if every cell is quoted or need not be. -/
theorem parse_tableText_iff (hrows : ∀ row ∈ rows, row ≠ []) :
    parse (tableText rows) = some (tableValues rows) ↔ ∀ row ∈ rows, ∀ cell ∈ row, cell.Safe := by
  rw [parse_eq_some_iff]
  exact ⟨Document.safe, document_of_safe hrows⟩

end Writer

end RsqliteRsync.Foundation.Csv
