import RsqliteRsync.Gateway.Status
import RsqliteRsync.Sql.Statement

namespace RsqliteRsync.Cli

open Sql.Proto Gateway Foundation.Splitting

def singleQuote : Char := '\x27'

def doubleQuote : Char := '\x22'

def backtick : Char := '\x60'

structure Splitter where
  stmts : List Statement
  current : List Char
  inSingleQuote : Bool
  inDoubleQuote : Bool

namespace Splitter

def flush (s : Splitter) : List Statement :=
  if trim (String.ofList s.current) = "" then s.stmts
  else s.stmts ++ [⟨trim (String.ofList s.current), none⟩]

def push (s : Splitter) (ch : Char) : Splitter :=
  if ch = singleQuote ∧ s.inDoubleQuote = false then
    { s with inSingleQuote := !s.inSingleQuote, current := s.current ++ [ch] }
  else if ch = doubleQuote ∧ s.inSingleQuote = false then
    { s with inDoubleQuote := !s.inDoubleQuote, current := s.current ++ [ch] }
  else if ch = ';' ∧ s.inSingleQuote = false ∧ s.inDoubleQuote = false then
    { s with stmts := s.flush, current := [] }
  else { s with current := s.current ++ [ch] }

end Splitter

def splitSqlStatements (sql : String) : List Statement :=
  (sql.toList.foldl Splitter.push ⟨[], [], false, false⟩).flush

section Quotes

/-- The two flags of the splitter. -/
def quotes : Scanner Char (Bool × Bool) where
  start := (false, false)
  next flags ch :=
    if ch = singleQuote ∧ flags.2 = false then (!flags.1, flags.2)
    else if ch = doubleQuote ∧ flags.1 = false then (flags.1, !flags.2)
    else flags
  outside flags := !flags.1 && !flags.2

theorem ne_of_isWhitespace {marks : List Char} {ch : Char}
    (hmarks : marks.any isWhitespace = false) (hblank : isWhitespace ch = true) :
    ∀ mark ∈ marks, ch ≠ mark := by
  intro mark hmark heq
  apply List.any_eq_false.mp hmarks mark hmark
  rwa [← heq]

theorem semicolon_ne : ';' ≠ singleQuote ∧ ';' ≠ doubleQuote := by decide

theorem quotes_resets : quotes.Resets ';' isWhitespace where
  start := rfl
  cut := by decide
  idle ch hblank := by
    have hmarks : [singleQuote, doubleQuote].any isWhitespace = false := rfl
    have hne := ne_of_isWhitespace hmarks hblank
    simp only [List.forall_mem_cons] at hne
    simp [quotes, hne]

def statement (piece : List Char) : Statement := ⟨String.ofList piece, none⟩

theorem statement_injective : Function.Injective statement := by
  intro piece piece' h
  exact String.ofList_injective (congrArg Statement.sql h)

theorem trim_ofList (text : List Char) :
    trim (String.ofList text) = String.ofList (strip isWhitespace text) := by
  rw [← String.toList_inj, toList_trim, String.toList_ofList, String.toList_ofList]

theorem Splitter.flush_eq (s : Splitter) :
    s.flush = s.stmts ++ (kept isWhitespace s.current).map statement := by
  have hempty : String.ofList (strip isWhitespace s.current) = "" ↔
      (strip isWhitespace s.current).isEmpty = true := by
    rw [List.isEmpty_iff, ← String.ofList_nil, String.ofList_inj]
  unfold flush kept
  rw [trim_ofList]
  split_ifs with h h' h'
  · exact (List.append_nil _).symm
  · exact absurd (hempty.mp h) h'
  · exact absurd (hempty.mpr h') h
  · rfl

namespace Splitter

variable (s : Splitter) (ch : Char)

def flags : Bool × Bool := (s.inSingleQuote, s.inDoubleQuote)

theorem flags_push : (s.push ch).flags = quotes.next s.flags ch := by
  have hsemicolon := semicolon_ne
  simp only [push, flags, quotes]
  split_ifs <;> simp_all

theorem push_cut (h : quotes.outside s.flags = true) :
    s.push ';' = { s with stmts := s.flush, current := [] } := by
  have hflags : s.inSingleQuote = false ∧ s.inDoubleQuote = false := by
    simpa [quotes, flags] using h
  simp [push, semicolon_ne, hflags]

theorem push_uncut (h : ch = ';' → quotes.outside s.flags = false) :
    (s.push ch).stmts = s.stmts ∧ (s.push ch).current = s.current ++ [ch] := by
  have hnot : ¬ (ch = ';' ∧ s.inSingleQuote = false ∧ s.inDoubleQuote = false) := by
    intro ⟨hch, hsingle, hdouble⟩
    have hinside := h hch
    simp [quotes, flags, hsingle, hdouble] at hinside
  unfold push
  rw [if_neg hnot]
  split_ifs <;> exact ⟨rfl, rfl⟩

/-- The splitter is the scanner of its two flags. -/
theorem flush_foldl_push (text : List Char) : (text.foldl push s).flush = s.stmts ++
    (quotes.pieces ';' isWhitespace s.flags s.current text).map statement := by
  induction text generalizing s with
  | nil => simp [flush_eq, Scanner.pieces, Scanner.split]
  | cons ch text ih =>
    rw [List.foldl_cons, ih, flags_push]
    by_cases hcut : ch = ';' ∧ quotes.outside s.flags = true
    · obtain ⟨rfl, hout⟩ := hcut
      rw [Scanner.pieces_cut hout, push_cut s hout, flush_eq, List.map_append, List.append_assoc]
    · have huncut : ch = ';' → quotes.outside s.flags = false := by simpa using hcut
      obtain ⟨hstmts, hcurrent⟩ := push_uncut s ch huncut
      rw [Scanner.pieces_uncut huncut, hstmts, hcurrent]

end Splitter

theorem splitSqlStatements_eq (sql : String) : splitSqlStatements sql =
    (quotes.pieces ';' isWhitespace quotes.start [] sql.toList).map statement :=
  Splitter.flush_foldl_push ⟨[], [], false, false⟩ sql.toList

section Pairs

/-- The quotes of the text pair up, and every semicolon stands between two of a pair. -/
inductive Paired : List Char → Prop
  | nil : Paired []
  | plain {ch : Char} {text : List Char} (hplain : ch ∉ [singleQuote, doubleQuote, ';'])
      (htext : Paired text) : Paired (ch :: text)
  | quoted {mark : Char} {inside text : List Char} (hmark : mark ∈ [singleQuote, doubleQuote])
      (hinside : mark ∉ inside) (htext : Paired text) : Paired (mark :: (inside ++ mark :: text))

/-- Never outside, so that no semicolon cuts. -/
def uncut : Scanner Char Unit := ⟨(), fun _ _ ↦ (), fun _ ↦ false⟩

theorem quotes_outside_iff {flags : Bool × Bool} :
    quotes.outside flags = true ↔ flags = quotes.start := by
  obtain ⟨single, double⟩ := flags
  cases single <;> cases double <;> decide

theorem quotes_next_of_not_mem {ch : Char} (h : ch ∉ [singleQuote, doubleQuote])
    (flags : Bool × Bool) : quotes.next flags ch = flags := by
  simp only [List.mem_cons, List.not_mem_nil, or_false, not_or] at h
  simp [quotes, h]

section Mark

variable {mark : Char} {inside text : List Char} (hmark : mark ∈ [singleQuote, doubleQuote])
include hmark

theorem mark_ne : mark ≠ ';' := by
  rintro rfl
  revert hmark
  decide

theorem quotes_outside_mark : quotes.outside (quotes.next quotes.start mark) = false := by
  simp only [List.mem_cons, List.not_mem_nil, or_false] at hmark
  rcases hmark with rfl | rfl <;> decide

theorem quotes_close : quotes.next (quotes.next quotes.start mark) mark = quotes.start := by
  simp only [List.mem_cons, List.not_mem_nil, or_false] at hmark
  rcases hmark with rfl | rfl <;> decide

theorem quotes_next_inside {ch : Char} (hne : mark ≠ ch) :
    quotes.next (quotes.next quotes.start mark) ch = quotes.next quotes.start mark := by
  have hdiffer : doubleQuote ≠ singleQuote := by decide
  simp only [List.mem_cons, List.not_mem_nil, or_false] at hmark
  rcases hmark with rfl | rfl <;> simp [quotes, hne.symm, hdiffer]

theorem quotes_run_inside (hinside : mark ∉ inside) :
    quotes.run (quotes.next quotes.start mark) inside = quotes.next quotes.start mark := by
  induction inside with
  | nil => rfl
  | cons ch inside ih =>
    obtain ⟨hne, hinside⟩ := not_or.mp (mt List.mem_cons.mpr hinside)
    rw [Scanner.run_cons, quotes_next_inside hmark hne, ih hinside]

theorem agree_inside (hinside : mark ∉ inside) :
    Scanner.Agree quotes uncut ';' (quotes.next quotes.start mark) () inside := by
  induction inside with
  | nil => exact Scanner.agree_nil
  | cons ch inside ih =>
    obtain ⟨hne, hinside⟩ := not_or.mp (mt List.mem_cons.mpr hinside)
    apply Scanner.agree_cons.mpr
    rw [quotes_next_inside hmark hne]
    exact ⟨fun _ ↦ quotes_outside_mark hmark, ih hinside⟩

theorem quotes_run_quoted (hinside : mark ∉ inside) :
    quotes.run quotes.start (mark :: (inside ++ mark :: text)) = quotes.run quotes.start text := by
  rw [Scanner.run_cons, Scanner.run_append, quotes_run_inside hmark hinside, Scanner.run_cons,
    quotes_close hmark]

theorem agree_quoted (hinside : mark ∉ inside) :
    Scanner.Agree quotes uncut ';' quotes.start () (mark :: (inside ++ mark :: text)) ↔
      Scanner.Agree quotes uncut ';' quotes.start () text := by
  rw [Scanner.agree_cons, and_iff_right fun h ↦ absurd h (mark_ne hmark), Scanner.agree_append,
    quotes_run_inside hmark hinside, and_iff_right (agree_inside hmark hinside),
    Scanner.agree_cons, and_iff_right fun h ↦ absurd h (mark_ne hmark), quotes_close hmark]

end Mark

theorem Paired.agree {text : List Char} (h : Paired text) :
    quotes.run quotes.start text = quotes.start ∧
      Scanner.Agree quotes uncut ';' quotes.start () text := by
  induction h with
  | nil => exact ⟨rfl, Scanner.agree_nil⟩
  | plain hplain _ ih =>
    simp only [List.mem_cons, List.not_mem_nil, or_false, not_or] at hplain
    have hnext := quotes_next_of_not_mem (by simpa using ⟨hplain.1, hplain.2.1⟩) quotes.start
    rw [Scanner.run_cons, Scanner.agree_cons, hnext]
    exact ⟨ih.1, fun h ↦ absurd h hplain.2.2, ih.2⟩
  | quoted hmark hinside _ ih =>
    rw [quotes_run_quoted hmark hinside, agree_quoted hmark hinside]
    exact ih

theorem paired_of_agree {text : List Char} (hrun : quotes.run quotes.start text = quotes.start)
    (hagree : Scanner.Agree quotes uncut ';' quotes.start () text) : Paired text := by
  induction hlength : text.length using Nat.strong_induction_on generalizing text with
  | _ n ih =>
    subst hlength
    cases text with
    | nil => exact .nil
    | cons ch text =>
      by_cases hmark : ch ∈ [singleQuote, doubleQuote]
      · have hclosed : ch ∈ text := by
          by_contra hopen
          rw [Scanner.run_cons, quotes_run_inside hmark hopen, ← quotes_outside_iff] at hrun
          exact Bool.false_ne_true ((quotes_outside_mark hmark).symm.trans hrun)
        obtain ⟨inside, rest, rfl, hinside⟩ := List.eq_append_cons_of_mem hclosed
        rw [quotes_run_quoted hmark hinside] at hrun
        rw [agree_quoted hmark hinside] at hagree
        have hshorter : rest.length < (ch :: (inside ++ ch :: rest)).length := by
          simp only [List.length_cons, List.length_append]
          omega
        exact .quoted hmark hinside (ih _ hshorter hrun hagree rfl)
      · rw [Scanner.agree_cons, quotes_next_of_not_mem hmark] at hagree
        rw [Scanner.run_cons, quotes_next_of_not_mem hmark] at hrun
        have hne : ch ≠ ';' := fun h ↦ Bool.false_ne_true (hagree.1 h).symm
        refine .plain ?_ (ih _ (Nat.lt_succ_self _) hrun hagree.2 rfl)
        simpa [hne] using hmark

end Pairs

end Quotes

section Tokens

/-- Where a script is, as SQL reads it: between tokens that can hide a semicolon, after a character
that may begin a comment, or inside of such a token. -/
inductive TokenState
  | plain
  | dash
  | slash
  | single
  | double
  | backtick
  | bracket
  | line
  | block
  | star
  deriving DecidableEq

namespace TokenState

def opening (ch : Char) : TokenState :=
  if ch = singleQuote then .single
  else if ch = doubleQuote then .double
  else if ch = Cli.backtick then .backtick
  else if ch = '[' then .bracket
  else if ch = '-' then .dash
  else if ch = '/' then .slash
  else .plain

-- A doubled quote ends the token and begins the next one, which hides the same semicolons.
def next : TokenState → Char → TokenState
  | .plain, ch => opening ch
  | .dash, ch => if ch = '-' then .line else opening ch
  | .slash, ch => if ch = '*' then .block else opening ch
  | .single, ch => if ch = singleQuote then .plain else .single
  | .double, ch => if ch = doubleQuote then .plain else .double
  | .backtick, ch => if ch = Cli.backtick then .plain else .backtick
  | .bracket, ch => if ch = ']' then .plain else .bracket
  | .line, ch => if ch = '\n' then .plain else .line
  | .block, ch => if ch = '*' then .star else .block
  | .star, ch => if ch = '/' then .plain else if ch = '*' then .star else .block

def outside : TokenState → Bool
  | .plain | .dash | .slash => true
  | _ => false

/-- Inside of a backtick or bracket identifier or of a comment. -/
def hides : TokenState → Bool
  | .backtick | .bracket | .line | .block | .star => true
  | _ => false

end TokenState

def tokens : Scanner Char TokenState := ⟨.plain, TokenState.next, TokenState.outside⟩

def tokenStatements (sql : String) : List Statement :=
  (tokens.pieces ';' isWhitespace tokens.start [] sql.toList).map statement

theorem tokens_resets : tokens.Resets ';' isWhitespace where
  start := rfl
  cut := by
    intro s hout
    cases s <;> first | rfl | cases hout
  idle ch hblank := by
    have hmarks : [singleQuote, doubleQuote, backtick, '[', '-', '/'].any isWhitespace = false :=
      rfl
    have hne := ne_of_isWhitespace hmarks hblank
    simp only [List.forall_mem_cons] at hne
    simp [tokens, TokenState.next, TokenState.opening, hne]

/-- What stands in the backtick identifiers, bracket identifiers and comments, each up to the
character that closes it. -/
def hiddenFrom (s : TokenState) (current : List Char) : List Char → List (List Char)
  | [] => if s.hides then [current] else []
  | ch :: text =>
    if s.hides then
      if (s.next ch).hides then hiddenFrom (s.next ch) (current ++ [ch]) text
      else current :: hiddenFrom (s.next ch) [] text
    else hiddenFrom (s.next ch) [] text

def hiddenTexts (sql : String) : List (List Char) := hiddenFrom .plain [] sql.toList

theorem hiddenFrom_eq_cons {s : TokenState} (hs : s.hides = true) (current text : List Char) :
    ∃ more later, hiddenFrom s current text = (current ++ more) :: later := by
  induction text generalizing s current with
  | nil => exact ⟨[], [], by rw [hiddenFrom, if_pos hs, List.append_nil]⟩
  | cons ch text ih =>
    rw [hiddenFrom, if_pos hs]
    split_ifs with hnext
    · obtain ⟨more, later, h⟩ := ih hnext (current ++ [ch])
      exact ⟨ch :: more, later, by rw [h, List.append_assoc, List.singleton_append]⟩
    · exact ⟨[], _, by rw [List.append_nil]⟩

namespace TokenState

/-- The splitter's flags at a state, where each hidden token before has left them as it found
them. `current` is what the token has so far. -/
def flags (current : List Char) : TokenState → Bool × Bool
  | .plain | .dash | .slash => (false, false)
  | .single => (true, false)
  | .double => (false, true)
  | .backtick | .bracket | .line | .block | .star => quotes.run quotes.start current

theorem flags_of_hides {s : TokenState} (h : s.hides = true) (current : List Char) :
    s.flags current = quotes.run quotes.start current := by
  cases s <;> first | rfl | cases h

theorem flags_opening (ch : Char) : quotes.next (false, false) ch = (opening ch).flags [] := by
  simp only [opening]
  split_ifs <;> simp_all [flags, quotes, Scanner.run]

/-- Outside of comments, backticks and brackets the flags follow the tokens. -/
theorem flags_next {s : TokenState} (h : s.hides = false) (current : List Char) (ch : Char) :
    quotes.next (s.flags current) ch = (s.next ch).flags [] := by
  cases s with
  | plain => exact flags_opening ch
  | dash | slash =>
    simp only [TokenState.next]
    split_ifs with hch
    · rw [hch]
      rfl
    · exact flags_opening ch
  | single =>
    simp only [TokenState.next]
    split_ifs with hch <;> simp [flags, quotes, hch]
  | double =>
    have hne : doubleQuote ≠ singleQuote := by decide
    simp only [TokenState.next]
    split_ifs with hch <;> simp [flags, quotes, hch, hne]
  | _ => cases h

theorem flags_outside {s : TokenState} (h : s.hides = false) (current : List Char) :
    quotes.outside (s.flags current) = s.outside := by
  cases s <;> first | rfl | cases h

theorem outside_of_hides {s : TokenState} (h : s.hides = true) : s.outside = false := by
  cases s <;> first | rfl | cases h

/-- What closes a comment, a backtick or a bracket is no quote. -/
theorem next_closing {s : TokenState} {ch : Char} (h : s.hides = true)
    (hnext : (s.next ch).hides = false) :
    ch ∉ [singleQuote, doubleQuote] ∧ ch ≠ ';' ∧ s.next ch = .plain := by
  have hclosing : ch ∈ [Cli.backtick, ']', '\n', '/'] ∧ s.next ch = .plain := by
    cases s with
    | plain | dash | slash | single | double => cases h
    | _ =>
      simp only [TokenState.next] at hnext ⊢
      split_ifs at hnext ⊢ <;> simp_all [hides]
  obtain ⟨hch, hplain⟩ := hclosing
  simp only [List.mem_cons, List.not_mem_nil, or_false] at hch
  refine ⟨?_, ?_, hplain⟩ <;> rcases hch with rfl | rfl | rfl | rfl <;> decide

end TokenState

theorem agree_of_paired (s : TokenState) (current text : List Char)
    (h : ∀ hidden ∈ hiddenFrom s current text, Paired hidden) :
    Scanner.Agree quotes tokens ';' (s.flags current) s text := by
  induction text generalizing s current with
  | nil => exact Scanner.agree_nil
  | cons ch text ih =>
    apply Scanner.agree_cons.mpr
    cases hs : s.hides with
    | false =>
      rw [hiddenFrom, if_neg (by simp [hs])] at h
      rw [TokenState.flags_next hs]
      exact ⟨fun _ ↦ TokenState.flags_outside hs current, ih _ [] h⟩
    | true =>
      rw [TokenState.flags_of_hides hs]
      cases hnext : (s.next ch).hides with
      | true =>
        rw [hiddenFrom, if_pos hs, if_pos hnext] at h
        constructor
        · rintro rfl
          obtain ⟨more, later, htoken⟩ := hiddenFrom_eq_cons hnext (current ++ [';']) text
          have hpaired := (h _ (htoken ▸ List.mem_cons_self)).agree.2
          rw [List.append_assoc, Scanner.agree_append, List.singleton_append,
            Scanner.agree_cons] at hpaired
          exact (hpaired.2.1 rfl).trans (TokenState.outside_of_hides hs).symm
        · have hlater := ih _ _ h
          rw [TokenState.flags_of_hides hnext, Scanner.run_append] at hlater
          exact hlater
      | false =>
        rw [hiddenFrom, if_pos hs, if_neg (by simp [hnext])] at h
        obtain ⟨hpaired, hlater⟩ := List.forall_mem_cons.mp h
        obtain ⟨hquote, hne, hplain⟩ := TokenState.next_closing hs hnext
        have hrest := ih _ _ hlater
        rw [show (s.next ch).flags [] = quotes.start from hplain ▸ rfl] at hrest
        rw [hpaired.agree.1, quotes_next_of_not_mem hquote]
        exact ⟨fun hch ↦ absurd hch hne, hrest⟩

/-- The statements are those of the SQL tokens exactly if each semicolon that counting quotes finds
outside is outside of every token, and the other way round. -/
theorem splitSqlStatements_eq_iff (sql : String) : splitSqlStatements sql = tokenStatements sql ↔
    Scanner.Agree quotes tokens ';' quotes.start tokens.start sql.toList := by
  rw [splitSqlStatements_eq, tokenStatements, statement_injective.list_map.eq_iff,
    Scanner.pieces_eq_iff quotes_resets tokens_resets rfl fun _ ↦ ⟨rfl, rfl⟩]

/-- The statements are those of the SQL tokens where in every comment, backtick and bracket the
quotes pair up and enclose the semicolons. -/
theorem splitSqlStatements_of_paired (sql : String) (h : ∀ text ∈ hiddenTexts sql, Paired text) :
    splitSqlStatements sql = tokenStatements sql :=
  (splitSqlStatements_eq_iff sql).mpr (agree_of_paired .plain [] sql.toList h)

theorem splitSqlStatements_of_paired_comment :
    splitSqlStatements "SELECT 1; -- 'a;b'\nSELECT [c]" =
        tokenStatements "SELECT 1; -- 'a;b'\nSELECT [c]" ∧
      (tokenStatements "SELECT 1; -- 'a;b'\nSELECT [c]").map Statement.sql =
        ["SELECT 1", "-- 'a;b'\nSELECT [c]"] := by
  refine ⟨splitSqlStatements_of_paired _ ?_, by decide⟩
  have htexts : hiddenTexts "SELECT 1; -- 'a;b'\nSELECT [c]" = [" 'a;b'".toList, ['c']] := by
    decide
  rw [htexts]
  simp only [List.forall_mem_cons]
  refine ⟨.plain (by decide) ?_, .plain (by decide) .nil, by simp⟩
  exact @Paired.quoted singleQuote "a;b".toList [] (by decide) (by decide) .nil

section Bracket

theorem agree_bracket {inside : List Char} (h : ']' ∉ inside) (flags : Bool × Bool) :
    tokens.run .bracket inside = .bracket ∧
      (Scanner.Agree quotes tokens ';' flags .bracket inside ↔
        Scanner.Agree quotes uncut ';' flags () inside) := by
  induction inside generalizing flags with
  | nil => exact ⟨rfl, iff_of_true Scanner.agree_nil Scanner.agree_nil⟩
  | cons ch inside ih =>
    obtain ⟨hne, hinside⟩ := not_or.mp (mt List.mem_cons.mpr h)
    have hnext : tokens.next .bracket ch = .bracket := if_neg (Ne.symm hne)
    obtain ⟨hrun, hagree⟩ := ih hinside (quotes.next flags ch)
    rw [Scanner.run_cons, hnext, Scanner.agree_cons, Scanner.agree_cons, hnext, hagree]
    exact ⟨hrun, Iff.rfl⟩

/-- One bracket identifier before a cut: nothing else makes up for quotes that do not pair up. -/
theorem splitSqlStatements_bracket_iff (inside : List Char) (h : ']' ∉ inside) :
    splitSqlStatements (String.ofList ('[' :: (inside ++ [']', ';', '1']))) =
        tokenStatements (String.ofList ('[' :: (inside ++ [']', ';', '1']))) ↔ Paired inside := by
  have hopened : quotes.next quotes.start '[' = quotes.start ∧
    tokens.next tokens.start '[' = .bracket := by decide
  have hend (flags : Bool × Bool) :
      Scanner.Agree quotes tokens ';' flags .bracket [']', ';', '1'] ↔ flags = quotes.start := by
    rw [Scanner.agree_cons, Scanner.agree_cons, Scanner.agree_cons, ← quotes_outside_iff,
      quotes_next_of_not_mem (by decide)]
    simp [Scanner.agree_nil, tokens, TokenState.next, TokenState.outside]
  obtain ⟨hinside, hagree⟩ := agree_bracket h quotes.start
  rw [splitSqlStatements_eq_iff, String.toList_ofList, Scanner.agree_cons, hopened.1, hopened.2,
    and_iff_right fun hch ↦ absurd hch (by decide), Scanner.agree_append, hinside, hend, hagree]
  exact ⟨fun ⟨hall, hrun⟩ ↦ paired_of_agree hrun hall, fun hpaired ↦ hpaired.agree.symm⟩

end Bracket

/-- A semicolon in brackets cuts, and one after an apostrophe in a comment does not. -/
theorem splitSqlStatements_ne :
    splitSqlStatements "SELECT [a;b]" ≠ tokenStatements "SELECT [a;b]" ∧
      splitSqlStatements "-- it's\nSELECT 1; SELECT 2" ≠
        tokenStatements "-- it's\nSELECT 1; SELECT 2" := by
  constructor
  · intro h
    exact absurd (congrArg List.length h) (by decide)
  · intro h
    exact absurd (congrArg List.length h) (by decide)

end Tokens

end RsqliteRsync.Cli
