import RsqliteRsync.Cli.Values
import RsqliteRsync.Foundation.Csv
import RsqliteRsync.Gateway.Query

namespace RsqliteRsync.Cli

open Sql Sql.Proto Gateway Foundation

section Printer

def needsQuotes (delimiter : Char) (s : List Char) : Bool :=
  delimiter = ',' ∧ (',' ∈ s ∨ Csv.quoteMark ∈ s ∨ '\n' ∈ s)

def printCell (floats : FloatText) (delimiter : Char) (v : Value) : List Char :=
  match protoValueToSql v with
  | .null => []
  | sqlValue =>
    let s := formatSqlValue floats sqlValue
    if needsQuotes delimiter s then Csv.quote s else s

/-- The text that goes to the standard output. -/
def printDelimited (floats : FloatText) (resp : QueryResponse) (delimiter : Char) : List Char :=
  let headers := resp.columns.map fun c ↦ c.name.toList
  [delimiter].intercalate headers ++ '\n' ::
    resp.rows.flatMap fun row ↦
      [delimiter].intercalate (row.values.map (printCell floats delimiter)) ++ ['\n']

end Printer

section Csv

variable (floats : FloatText)

/-- A value as a reader should find it. -/
def fieldText (v : Value) : List Char :=
  match protoValueToSql v with
  | .null => []
  | sqlValue => formatSqlValue floats sqlValue

def headerRecord (resp : QueryResponse) : List (List Char) := resp.columns.map fun c ↦ c.name.toList

def rowRecord (row : Row) : List (List Char) := row.values.map (fieldText floats)

/-- A reader finds the column names and the values. -/
def ReadBack (resp : QueryResponse) : Prop :=
  Csv.parse (printDelimited floats resp ',') =
    some (headerRecord resp :: resp.rows.map (rowRecord floats))

instance : DecidablePred (ReadBack floats) := fun _ ↦ inferInstanceAs (Decidable (_ = _))

def headerCells (resp : QueryResponse) : List Csv.Cell :=
  resp.columns.map fun c ↦ ⟨c.name.toList, false⟩

def valueCell (v : Value) : Csv.Cell := ⟨fieldText floats v, needsQuotes ',' (fieldText floats v)⟩

def tableCells (resp : QueryResponse) : List (List Csv.Cell) :=
  headerCells resp :: resp.rows.map fun row ↦ row.values.map (valueCell floats)

theorem printCell_eq (v : Value) : printCell floats ',' v = (valueCell floats v).text := by
  unfold printCell valueCell fieldText
  cases protoValueToSql v <;> rfl

theorem printDelimited_eq (resp : QueryResponse) :
    printDelimited floats resp ',' = Csv.tableText (tableCells floats resp) := by
  have hheader : (headerCells resp).map Csv.Cell.text = headerRecord resp := by
    simp [headerCells, headerRecord, Csv.Cell.text]
  have hrow (row : Row) : (row.values.map (valueCell floats)).map Csv.Cell.text =
      row.values.map (printCell floats ',') := by
    rw [List.map_map]
    apply List.map_congr_left
    intro v _
    exact (printCell_eq floats v).symm
  rw [tableCells, Csv.tableText_cons, Csv.lineText, hheader, Csv.tableText, List.flatMap_map]
  simp only [Csv.lineText, hrow]
  rfl

theorem tableValues_tableCells (resp : QueryResponse) :
    Csv.tableValues (tableCells floats resp) =
      headerRecord resp :: resp.rows.map (rowRecord floats) := by
  simp [Csv.tableValues, tableCells, headerCells, headerRecord, rowRecord, valueCell,
    Function.comp_def]

/-- A text with a carriage return and nothing for which it is quoted. -/
def bareReturn (v : Value) : Bool :=
  match protoValueToSql v with
  | .text t => '\r' ∈ t.toList ∧ needsQuotes ',' t.toList = false
  | _ => false

theorem return_not_mem_of_bare {text : List Char} (h : Bare text) : '\r' ∉ text := by
  intro hmem
  exact absurd (h _ hmem).1 (by decide)

theorem return_not_mem_display (bits : UInt64) : '\r' ∉ floats.display bits := by
  intro hmem
  exact absurd (floats.display_plain bits _ hmem) (by decide)

theorem plain_iff {s : List Char} (h : needsQuotes ',' s = false) : Csv.Plain s ↔ '\r' ∉ s := by
  simp only [needsQuotes, true_and, decide_eq_false_iff_not, not_or] at h
  obtain ⟨hcomma, hquote, hnewline⟩ := h
  constructor
  · intro hplain hmem
    exact absurd (hplain _ hmem) (by decide)
  · intro hreturn c hc
    have hne {d : Char} (hd : d ∉ s) : c ≠ d := fun heq ↦ hd (heq ▸ hc)
    simp only [Csv.plain, decide_eq_true_eq]
    exact ⟨hne hcomma, hne hquote, hne hreturn, hne hnewline⟩

theorem cell_safe_iff (s : List Char) : Csv.Cell.Safe ⟨s, needsQuotes ',' s⟩ ↔
    ¬ ('\r' ∈ s ∧ needsQuotes ',' s = false) := by
  unfold Csv.Cell.Safe
  cases hquotes : needsQuotes ',' s with
  | true => simp
  | false => simp [plain_iff hquotes]

theorem valueCell_safe_iff (v : Value) : (valueCell floats v).Safe ↔ bareReturn v = false := by
  have hsafe {s : List Char} (hreturn : '\r' ∉ s) : Csv.Cell.Safe ⟨s, needsQuotes ',' s⟩ :=
    (cell_safe_iff s).mpr fun h ↦ hreturn h.1
  unfold valueCell fieldText bareReturn
  cases protoValueToSql v with
  | null => exact iff_of_true (hsafe List.not_mem_nil) rfl
  | integer i =>
    exact iff_of_true (hsafe (return_not_mem_of_bare (bare_format floats (.integer i)))) rfl
  | float bits => exact iff_of_true (hsafe (return_not_mem_display floats bits)) rfl
  | text t => exact (cell_safe_iff t.toList).trans decide_eq_false_iff_not.symm
  | blob b => exact iff_of_true (hsafe (return_not_mem_of_bare (bare_format floats (.blob b)))) rfl

theorem headerCells_safe_iff (resp : QueryResponse) : (∀ cell ∈ headerCells resp, cell.Safe) ↔
    ∀ column ∈ resp.columns, Csv.Plain column.name.toList := by
  simp [headerCells, Csv.Cell.Safe]

theorem tableCells_ne_nil {resp : QueryResponse} (hcolumns : 2 ≤ resp.columns.length)
    (hrows : ∀ row ∈ resp.rows, row.values.length = resp.columns.length) :
    ∀ cells ∈ tableCells floats resp, cells ≠ [] := by
  have hne {n : ℕ} {cells : List Csv.Cell} (hlength : cells.length = n) (hn : 2 ≤ n) :
      cells ≠ [] := by
    rintro rfl
    simp at hlength
    omega
  rw [tableCells, List.forall_mem_cons, List.forall_mem_map]
  refine ⟨hne (List.length_map _) hcolumns, ?_⟩
  intro row hrow
  exact hne ((List.length_map _).trans (hrows row hrow)) hcolumns

/-- What is printed is read back exactly if no column name has a character that needs quotes, and
no text has a carriage return without being quoted for something else. -/
theorem readBack_iff (resp : QueryResponse) (hcolumns : 2 ≤ resp.columns.length)
    (hrows : ∀ row ∈ resp.rows, row.values.length = resp.columns.length) :
    ReadBack floats resp ↔ (∀ column ∈ resp.columns, Csv.Plain column.name.toList) ∧
      ∀ row ∈ resp.rows, ∀ v ∈ row.values, bareReturn v = false := by
  rw [ReadBack, printDelimited_eq, ← tableValues_tableCells,
    Csv.parse_tableText_iff (tableCells_ne_nil floats hcolumns hrows), tableCells,
    List.forall_mem_cons, headerCells_safe_iff]
  simp only [List.forall_mem_map, valueCell_safe_iff]

def sampleResponse (names : List String) (rows : List (List (Option String))) : QueryResponse where
  columns := names.map fun name ↦ ⟨name, .text, "TEXT"⟩
  rows := rows.map fun row ↦ ⟨row.map fun cell ↦ ⟨cell.map .textValue⟩⟩
  totalRows := rows.length
  generation := 1
  isReplicaRead := false

theorem readBack_quoted_cell : ReadBack zeroFloats
    (sampleResponse ["id", "note"] [[some "1", some "a,\r\n\x22b\x22"], [none, some "c"]]) :=
  (readBack_iff zeroFloats _ (by decide) (by decide)).mpr ⟨by decide, by decide⟩

def commaInHeader : QueryResponse := sampleResponse ["a,b", "c"] [[some "1", some "2"]]

def returnInLastCell : QueryResponse := sampleResponse ["a", "b"] [[some "1", some "2\r"]]

/-- A comma in a column name gives the header a field too many, and a carriage return at the end
of a row is taken for a part of the end of the line. -/
theorem not_readBack_header_comma :
    (2 ≤ commaInHeader.columns.length ∧
      (∀ row ∈ commaInHeader.rows, row.values.length = commaInHeader.columns.length) ∧
      ¬ ReadBack zeroFloats commaInHeader) ∧
    2 ≤ returnInLastCell.columns.length ∧
      (∀ row ∈ returnInLastCell.rows, row.values.length = returnInLastCell.columns.length) ∧
      ¬ ReadBack zeroFloats returnInLastCell := by
  decide

end Csv

end RsqliteRsync.Cli
