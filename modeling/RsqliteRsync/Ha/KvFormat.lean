import RsqliteRsync.Ha.KvText

namespace RsqliteRsync.Ha.KvText

open Foundation.Splitting Gateway

def contentLines (input : String) : List (List Char) :=
  (lines input.toList).flatMap (kept isWhitespace)

def keyOf (line : List Char) : String :=
  String.ofList (strip isWhitespace (line.takeWhile (· ≠ '=')))

def valueOf (line : List Char) : String :=
  String.ofList (strip isWhitespace (line.dropWhile (· ≠ '=')).tail)

/-- What the comment on the parser asks of a line. -/
def Documented (allowedKeys : List String) (line : List Char) : Prop :=
  line.count '=' = 1 ∧ keyOf line ∈ allowedKeys

def Accepted (allowedKeys : List String) (line : List Char) : Prop :=
  '=' ∈ line ∧ keyOf line ∈ allowedKeys

/-- The parser accepts what is documented, and of each key it keeps the last value. -/
structure AsDocumented (subject input : String) (allowedKeys : List String) : Prop where
  accepts : (∃ map, parseKvLines subject input allowedKeys = .ok map) ↔
    ∀ line ∈ contentLines input, Documented allowedKeys line
  last : ∀ map, parseKvLines subject input allowedKeys = .ok map → ∀ key,
    map key = ((contentLines input).filter fun line ↦ keyOf line = key).getLast?.map valueOf

section Lines

variable {subject : String} {allowedKeys : List String} {line : List Char} {map read : KvMap}

theorem splitOnce_eq (sep : Char) (line : List Char) : splitOnce sep line =
    if sep ∈ line then some (line.takeWhile (· ≠ sep), (line.dropWhile (· ≠ sep)).tail)
    else none := by
  induction line with
  | nil => rfl
  | cons c rest ih =>
    unfold splitOnce
    rw [ih]
    by_cases hc : c = sep
    · simp [hc]
    · by_cases hsep : sep ∈ rest
      · simp [hc, hsep]
      · simp [hc, hsep, Ne.symm hc]

def insertLine (map : KvMap) (line : List Char) : KvMap :=
  Function.update map (keyOf line) (some (valueOf line))

theorem parseKvLine_of_mem (hsep : '=' ∈ line) : parseKvLine subject allowedKeys map line =
    if keyOf line ∈ allowedKeys then .ok (insertLine map line)
    else .error s!"unknown {subject} key: {keyOf line}" := by
  rw [parseKvLine, splitOnce_eq, if_pos hsep]
  rfl

theorem parseKvLine_eq_ok : parseKvLine subject allowedKeys map line = .ok read ↔
    Accepted allowedKeys line ∧ insertLine map line = read := by
  unfold Accepted
  by_cases hsep : '=' ∈ line
  · rw [parseKvLine_of_mem hsep]
    by_cases hkey : keyOf line ∈ allowedKeys
    · simp [hsep, hkey]
    · simp [hkey]
  · rw [parseKvLine, splitOnce_eq, if_neg hsep]
    simp [hsep]

theorem foldlM_parseKvLine_eq_ok {content : List (List Char)} :
    content.foldlM (parseKvLine subject allowedKeys) map = .ok read ↔
      (∀ line ∈ content, Accepted allowedKeys line) ∧ content.foldl insertLine map = read := by
  induction content generalizing map with
  | nil => simp [pure, Except.pure]
  | cons line content ih =>
    rw [List.foldlM_cons, List.forall_mem_cons, List.foldl_cons, and_assoc, ← ih]
    constructor
    · intro h
      cases hline : parseKvLine subject allowedKeys map line with
      | error e =>
        rw [hline] at h
        cases h
      | ok first =>
        rw [hline] at h
        obtain ⟨haccepted, hfirst⟩ := parseKvLine_eq_ok.mp hline
        rw [hfirst]
        exact ⟨haccepted, h⟩
    · intro ⟨haccepted, h⟩
      rw [parseKvLine_eq_ok.mpr ⟨haccepted, rfl⟩]
      exact h

theorem foldl_insertLine (content : List (List Char)) (map : KvMap) (key : String) :
    content.foldl insertLine map key =
      ((content.filter fun line ↦ keyOf line = key).getLast?.map valueOf).or (map key) := by
  induction content using List.reverseRecOn with
  | nil => rfl
  | append_singleton content line ih =>
    rw [List.foldl_append, List.foldl_cons, List.foldl_nil, List.filter_append, insertLine]
    by_cases hkey : keyOf line = key
    · simp [hkey]
    · rw [Function.update_of_ne (Ne.symm hkey), ih]
      simp [hkey]

theorem parseKvLines_eq_ok {input : String} : parseKvLines subject input allowedKeys = .ok read ↔
    (∀ line ∈ contentLines input, Accepted allowedKeys line) ∧
      (contentLines input).foldl insertLine (fun _ ↦ none) = read := by
  rw [parseKvLines_eq, ← flatMap_kept_linesOf, ← lines, ← contentLines, foldlM_parseKvLine_eq_ok]

theorem Documented.accepted (h : Documented allowedKeys line) : Accepted allowedKeys line := by
  refine ⟨?_, h.2⟩
  rw [← List.count_pos_iff, h.1]
  exact Nat.one_pos

theorem Accepted.documented_iff (h : Accepted allowedKeys line) :
    Documented allowedKeys line ↔ ¬ 2 ≤ line.count '=' := by
  have hpos := List.count_pos_iff.mpr h.1
  constructor
  · intro ⟨hone, _⟩
    omega
  · intro hfew
    exact ⟨by omega, h.2⟩

end Lines

/-- The parser does what its comment says exactly if no line has a second `=`, or one of the lines
has no `=` or a key that is not allowed. -/
theorem parseKvLines_documented_iff (subject input : String) (allowedKeys : List String) :
    AsDocumented subject input allowedKeys ↔
      (∀ line ∈ contentLines input, ¬ 2 ≤ line.count '=') ∨
        ∃ line ∈ contentLines input, '=' ∉ line ∨ keyOf line ∉ allowedKeys := by
  have hlast (map : KvMap) (h : parseKvLines subject input allowedKeys = .ok map) (key : String) :
      map key = ((contentLines input).filter fun line ↦ keyOf line = key).getLast?.map valueOf := by
    rw [← (parseKvLines_eq_ok.mp h).2, foldl_insertLine, Option.or_none]
  have hok : (∃ map, parseKvLines subject input allowedKeys = .ok map) ↔
      ∀ line ∈ contentLines input, Accepted allowedKeys line := by
    constructor
    · intro ⟨map, h⟩
      exact (parseKvLines_eq_ok.mp h).1
    · intro h
      exact ⟨_, parseKvLines_eq_ok.mpr ⟨h, rfl⟩⟩
  by_cases hall : ∀ line ∈ contentLines input, Accepted allowedKeys line
  · have hnone : ¬ ∃ line ∈ contentLines input, '=' ∉ line ∨ keyOf line ∉ allowedKeys := by
      intro ⟨line, hline, hbad⟩
      exact hbad.elim (absurd (hall line hline).1) (absurd (hall line hline).2)
    rw [or_iff_left hnone]
    constructor
    · intro h line hline
      exact (hall line hline).documented_iff.mp (h.accepts.mp (hok.mpr hall) line hline)
    · intro hfew
      refine ⟨iff_of_true (hok.mpr hall) ?_, hlast⟩
      intro line hline
      exact (hall line hline).documented_iff.mpr (hfew line hline)
  · have hsome : ∃ line ∈ contentLines input, '=' ∉ line ∨ keyOf line ∉ allowedKeys := by
      simpa only [Accepted, not_forall, not_and_or, exists_prop] using hall
    refine iff_of_true ⟨iff_of_false (hok.not.mpr hall) ?_, hlast⟩ (.inr hsome)
    intro hdocumented
    exact hall fun line hline ↦ (hdocumented line hline).accepted

theorem parseKvLines_second_equals :
    ¬ AsDocumented "lease" "holder_node_id=node=a" ["holder_node_id"] := by
  intro h
  have hread : ∃ map, parseKvLines "lease" "holder_node_id=node=a" ["holder_node_id"] = .ok map :=
    ⟨_, rfl⟩
  have hdocumented := h.accepts.mp hread "holder_node_id=node=a".toList (by decide)
  exact absurd hdocumented.1 (by decide)

end RsqliteRsync.Ha.KvText
