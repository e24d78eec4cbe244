import RsqliteRsync.Ha.KvText

namespace RsqliteRsync.Ha

open Foundation Foundation.Splitting Gateway KvText

def serializeLeaseRecord (lease : LeaseRecord) : String :=
  s!"holder_node_id={lease.holderNodeId}\ngeneration={lease.generation}\n" ++
    s!"renewed_at_secs={lease.renewedAtSecs}\nttl_secs={lease.ttlSecs}\n"

def leaseKeys : List String := ["holder_node_id", "generation", "renewed_at_secs", "ttl_secs"]

def parseLeaseRecord (input : String) : Except String LeaseRecord := do
  let map ← parseKvLines "lease" input leaseKeys
  let holderNodeId ← requireNonEmpty map "holder_node_id"
  let generation ← requireU64 map "generation"
  let renewedAtSecs ← requireU64 map "renewed_at_secs"
  let ttlSecs ← requireU64 map "ttl_secs"
  return ⟨holderNodeId, generation, renewedAtSecs, ttlSecs⟩

/-- The argument is what reading the file gives. -/
def FileLeaseReader.readLease (file : Except IoError String) :
    Except String (Option LeaseRecord) :=
  match readOptionalKvText file with
  | .error e => .error s!"failed reading lease file: {e.text}"
  | .ok (some text) => (parseLeaseRecord text).map some
  | .ok none => .ok none

namespace LeaseRecord

variable {lease : LeaseRecord}

/-- The holder is one word or several of a line, and the numbers are those of the source's type. -/
structure Storable (lease : LeaseRecord) : Prop where
  nonempty : lease.holderNodeId ≠ ""
  trimmed : trim lease.holderNodeId = lease.holderNodeId
  line : '\n' ∉ lease.holderNodeId.toList
  generation : lease.generation ≤ u64Max
  renewedAtSecs : lease.renewedAtSecs ≤ u64Max
  ttlSecs : lease.ttlSecs ≤ u64Max

def entries (lease : LeaseRecord) : List (String × String) :=
  [("holder_node_id", lease.holderNodeId), ("generation", toString lease.generation),
    ("renewed_at_secs", toString lease.renewedAtSecs), ("ttl_secs", toString lease.ttlSecs)]

theorem Storable.writable (h : lease.Storable) : ∀ e ∈ lease.entries, Writable leaseKeys e := by
  have hkey : ∀ key ∈ leaseKeys, '=' ∉ key.toList ∧ strip isWhitespace key.toList = key.toList := by
    decide
  have hholder : strip isWhitespace lease.holderNodeId.toList = lease.holderNodeId.toList := by
    rw [← toList_trim, h.trimmed]
  have hallowed : ∀ e ∈ lease.entries, e.1 ∈ leaseKeys := by simp [entries, leaseKeys]
  have hvalue : ∀ e ∈ lease.entries, strip isWhitespace e.2.toList = e.2.toList := by
    simp only [entries, List.forall_mem_cons]
    exact ⟨hholder, strip_toString _, strip_toString _, strip_toString _,
      List.forall_mem_nil _⟩
  intro e he
  obtain ⟨hseparator, hstripped⟩ := hkey e.1 (hallowed e he)
  exact ⟨hallowed e he, hseparator, hstripped, hvalue e he⟩

theorem entries_keys : ∀ e ∈ lease.entries, ∀ e' ∈ lease.entries, e.1 = e'.1 → e = e' := by
  simp [entries]

theorem Storable.parse_of_perm (h : lease.Storable) {rows : List (List Char)}
    (hrows : ∀ row ∈ rows, '\n' ∉ row)
    (hperm : (rows.flatMap (kept isWhitespace)).Perm (lease.entries.map render)) :
    parseLeaseRecord (String.ofList (['\n'].intercalate rows)) = .ok lease := by
  obtain ⟨read, hread, hvalues⟩ := parseKvLines_of_perm "lease" h.writable
    entries_keys hrows hperm
  simp only [entries, List.forall_mem_cons] at hvalues
  obtain ⟨hholder, hgeneration, hrenewed, httl, -⟩ := hvalues
  have hnonempty : requireNonEmpty read "holder_node_id" = .ok lease.holderNodeId := by
    simp only [requireNonEmpty, hholder, if_neg h.nonempty]
  unfold parseLeaseRecord
  rw [hread]
  simp only [bind, Except.bind, hnonempty, requireU64_of_toString hgeneration h.generation,
    requireU64_of_toString hrenewed h.renewedAtSecs, requireU64_of_toString httl h.ttlSecs]
  rfl

theorem toList_serializeLeaseRecord (lease : LeaseRecord) :
    (serializeLeaseRecord lease).toList =
      ['\n'].intercalate (lease.entries.map render) ++ ['\n'] := by
  have hholder : (toString "holder_node_id=").toList = "holder_node_id".toList ++ ['='] := rfl
  have hgeneration : (toString "\ngeneration=").toList = '\n' :: "generation".toList ++ ['='] := rfl
  have hrenewed : (toString "renewed_at_secs=").toList = "renewed_at_secs".toList ++ ['='] := rfl
  have httl : (toString "\nttl_secs=").toList = '\n' :: "ttl_secs".toList ++ ['='] := rfl
  have hend : (toString "\n").toList = ['\n'] := rfl
  have hid : toString lease.holderNodeId = lease.holderNodeId := rfl
  unfold serializeLeaseRecord entries render
  simp only [String.toList_append, hholder, hgeneration, hrenewed, httl, hend, hid, List.map_cons,
    List.map_nil, List.intercalate_cons_cons, List.intercalate_singleton, List.append_assoc,
    List.cons_append, List.nil_append]

theorem map_render_ne_nil (lease : LeaseRecord) : lease.entries.map render ≠ [] :=
  List.cons_ne_nil _ _

theorem Storable.tidy (h : lease.Storable) : Tidy (lease.entries.map render) := by
  have hnumber (n : ℕ) : toString n ≠ "" := fun hempty ↦
    toString_ne_nil n (String.toList_eq_nil_iff.mpr hempty)
  have hne : ∀ e ∈ lease.entries, e.1 ≠ "" ∧ e.2 ≠ "" := by
    simp only [entries, List.forall_mem_cons]
    exact ⟨⟨by decide, h.nonempty⟩, ⟨by decide, hnumber _⟩, ⟨by decide, hnumber _⟩,
      ⟨by decide, hnumber _⟩, List.forall_mem_nil _⟩
  unfold Tidy
  rw [List.forall_mem_map]
  intro e he
  refine ⟨?_, (h.writable e he).strip_render (hne e he).1 (hne e he).2⟩
  simp [render]

theorem Storable.line_feed (h : lease.Storable) : ∀ row ∈ lease.entries.map render, '\n' ∉ row := by
  have hnumber (n : ℕ) : '\n' ∉ (toString n).toList := by
    intro hmem
    cases isDigit_of_mem hmem
  have hkey : ∀ key ∈ leaseKeys, '\n' ∉ key.toList := by decide
  have hentry : ∀ e ∈ lease.entries, '\n' ∉ e.2.toList := by
    simp only [entries, List.forall_mem_cons]
    exact ⟨h.line, hnumber _, hnumber _, hnumber _, List.forall_mem_nil _⟩
  rw [List.forall_mem_map]
  intro e he hmem
  rcases List.mem_append.mp hmem with hmem | hmem
  · exact hkey e.1 (h.writable e he).allowed hmem
  · rcases List.mem_cons.mp hmem with hmem | hmem
    · cases hmem
    · exact hentry e he hmem

theorem Storable.trim_serialize (h : lease.Storable) : trim (serializeLeaseRecord lease) =
    String.ofList (['\n'].intercalate (lease.entries.map render)) := by
  rw [← String.toList_inj, toList_trim, toList_serializeLeaseRecord, strip_concat_of_blank _ rfl,
    (h.tidy.strip_intercalate lease.map_render_ne_nil).1, String.toList_ofList]

theorem serialize_eq (lease : LeaseRecord) : serializeLeaseRecord lease =
    String.ofList (['\n'].intercalate (lease.entries.map render ++ [[]])) := by
  rw [← String.toList_inj, toList_serializeLeaseRecord, String.toList_ofList,
    intercalate_concat_nil lease.map_render_ne_nil]

theorem Storable.line_feed_concat (h : lease.Storable) :
    ∀ row ∈ lease.entries.map render ++ [[]], '\n' ∉ row := by
  rw [List.forall_mem_append]
  exact ⟨h.line_feed, by simp⟩

theorem Storable.lines_serialize (h : lease.Storable) :
    lines (serializeLeaseRecord lease).toList = lease.entries.map render := by
  rw [serialize_eq, String.toList_ofList, lines,
    List.splitOn_intercalate _ h.line_feed_concat (by simp), h.tidy.linesOf_concat_nil]

theorem Storable.read_serialize (h : lease.Storable) :
    readOptionalKvText (.ok (serializeLeaseRecord lease)) =
      .ok (some (trim (serializeLeaseRecord lease))) := by
  obtain ⟨rest, hrest⟩ : ∃ rest, (trim (serializeLeaseRecord lease)).toList = 'h' :: rest := by
    have hkey : "holder_node_id".toList = 'h' :: "older_node_id".toList := rfl
    rw [h.trim_serialize, String.toList_ofList, entries, List.map_cons, List.map_cons,
      List.intercalate_cons_cons, render, hkey]
    exact ⟨_, rfl⟩
  have hsome : ¬ (trim (serializeLeaseRecord lease) = "" ∨
      (trim (serializeLeaseRecord lease)).toList.map Char.toLower = "none".toList) := by
    rw [← String.toList_eq_nil_iff, hrest]
    rintro (hnil | hnone)
    · cases hnil
    · exact absurd (List.cons.inj hnone).1 (by decide)
  simp only [readOptionalKvText, if_neg hsome]

end LeaseRecord

/-- A lease that is written is read back, from its text and from a file with it, and so it is from
its lines in any order with blank lines and blanks around them. -/
theorem lease_file_round_trip (lease : LeaseRecord) (h : lease.Storable) :
    parseLeaseRecord (serializeLeaseRecord lease) = .ok lease ∧
      FileLeaseReader.readLease (.ok (serializeLeaseRecord lease)) = .ok (some lease) ∧
      ∀ rows : List (List Char), (∀ row ∈ rows, '\n' ∉ row) →
        (rows.flatMap (kept isWhitespace)).Perm (lines (serializeLeaseRecord lease).toList) →
        parseLeaseRecord (String.ofList (['\n'].intercalate rows)) = .ok lease := by
  refine ⟨?_, ?_, ?_⟩
  · rw [LeaseRecord.serialize_eq]
    apply h.parse_of_perm h.line_feed_concat
    rw [List.flatMap_append, h.tidy.flatMap_kept]
    exact .of_eq (List.append_nil _)
  · have hparse := h.parse_of_perm h.line_feed (.of_eq h.tidy.flatMap_kept)
    unfold FileLeaseReader.readLease
    rw [h.read_serialize, h.trim_serialize]
    simp only [hparse, Except.map]
  · intro rows hrows hperm
    rw [h.lines_serialize] at hperm
    exact h.parse_of_perm hrows hperm

section Sample

def sampleStored : LeaseRecord := ⟨"node = a", 7, 100, 18446744073709551615⟩

def sampleRows : List (List Char) :=
  ["", "  ttl_secs=18446744073709551615 ", "\trenewed_at_secs=100", "generation=7\r",
    " holder_node_id=node = a"].map String.toList

end Sample

theorem lease_file_round_trip_backwards :
    sampleStored.Storable ∧
      FileLeaseReader.readLease (.ok (serializeLeaseRecord sampleStored)) =
        .ok (some sampleStored) ∧
      parseLeaseRecord (String.ofList (['\n'].intercalate sampleRows)) = .ok sampleStored := by
  have hstorable : sampleStored.Storable := by constructor <;> decide
  obtain ⟨-, hread, hrows⟩ := lease_file_round_trip sampleStored hstorable
  refine ⟨hstorable, hread, hrows sampleRows (by decide) ?_⟩
  have hbackwards : sampleRows.flatMap (kept isWhitespace) =
      (sampleStored.entries.map render).reverse := by decide
  rw [hbackwards, hstorable.lines_serialize]
  exact List.reverse_perm _

end RsqliteRsync.Ha
