import Mathlib.Data.String.Basic
import RsqliteRsync.Db.Snapshot
import RsqliteRsync.Foundation.Directory
import RsqliteRsync.Gateway.Drop

namespace RsqliteRsync.Gateway

open Protocol Foundation Foundation.UnixPath Foundation.Directory

structure DatabaseInfo where
  name : String
  pageSize : ℕ
  pageCount : ℕ
  fileSizeBytes : ℕ
  journalMode : String
  deriving DecidableEq

namespace DatabaseEngine

/-- The path below the data directory, as text. -/
def relName (rel : List (List Char)) : String := String.ofList (['/'].intercalate rel)

def fileName (rel : List (List Char)) : List Char := rel.getLast?.getD []

/-- The same path with a suffix. -/
def suffixed (rel : List (List Char)) (suffix : String) : List (List Char) :=
  rel.dropLast ++ [fileName rel ++ suffix.toList]

def isSidecar (rel : List (List Char)) : Bool :=
  suffixes.any fun suffix ↦ suffix.toList.isSuffixOf (fileName rel)

/-- Where the files of a database are. -/
def places (place : List Component) (rel : List (List Char)) : List (List Component) :=
  under place rel :: suffixes.map fun suffix ↦ under place (suffixed rel suffix)

def contents (t : FileTree) (place : List Component) (rel : List (List Char)) :
    List (Option (List UInt8)) :=
  (places place rel).map t.file

/-- How SQLite opens a database and counts its pages, by where it is and what is in its files. -/
abbrev Probe := List (List Char) → List (Option (List UInt8)) → Except SyncError (ℕ × ℕ)

section

variable (place : List Component) (unreadable : List Component → Option String) (probe : Probe)
  {t : FileTree} (d : Directory t)

def readDir (dir : List Component) : Except IoError (List (List Char)) :=
  match unreadable dir with
  | some text => .error (.other text)
  | none =>
    if t.isDir dir then .ok (d.names dir)
    else .error (if t.entry dir = none then .notFound else .notADirectory)

variable (t) in
/-- The entry for a regular file, if it is listed. -/
def describe (rel : List (List Char)) : Except SyncError (Option DatabaseInfo) :=
  if isSidecar rel then .ok none
  else
    match probe rel (contents t place rel) with
    | .ok (pageSize, pageCount) =>
      let fileSizeBytes := ((t.file (under place rel)).getD []).length
      .ok (some ⟨relName rel, pageSize, pageCount, fileSizeBytes, "wal"⟩)
    | .error (.sqlite code _) =>
      if code = Db.SQLITE_BUSY ∨ code = Db.SQLITE_LOCKED then
        .error (.busy s!"database '{relName rel}' is temporarily locked (SQLITE code {code})")
      else .ok none
    | .error _ => .ok none

def collectDatabases :
    ℕ → List (List Char) → List DatabaseInfo → Except SyncError (List DatabaseInfo)
  | 0, _, list => .ok list
  | fuel + 1, rel, list =>
    match readDir unreadable d (under place rel) with
    | .error e => .error (.io e.text)
    | .ok names => names.foldlM (fun list name ↦
        let path := rel ++ [name]
        if t.isDir (under place path) then collectDatabases fuel path list
        else if (t.file (under place path)).isSome then
          (describe place probe t path).map fun info ↦ list ++ info.toList
        else .ok list) list

end

/-- The directory tree is not deeper than `d` says, which bounds the recursion. -/
def listDatabases (dataDir : List Char) (unreadable : List Component → Option String)
    (probe : Probe) {t : FileTree} (d : Directory t) : Except SyncError (List DatabaseInfo) :=
  if !t.pathExists dataDir then .ok []
  else (collectDatabases (components dataDir) unreadable probe d (d.depth + 1) [] []).map
    (List.mergeSort · fun a b ↦ a.name ≤ b.name)

section Collect

variable {place : List Component} {unreadable : List Component → Option String} {probe : Probe}
  {t : FileTree} {d : Directory t} {rel : List (List Char)}

theorem foldlM_ok_iff {α β ε : Type} {f : List β → α → Except ε (List β)} {good : α → Prop}
    {out : α → List β} {xs : List α}
    (h : ∀ x ∈ xs, ∀ acc r, f acc x = .ok r ↔ good x ∧ r = acc ++ out x) (acc r : List β) :
    xs.foldlM f acc = .ok r ↔ (∀ x ∈ xs, good x) ∧ r = acc ++ xs.flatMap out := by
  induction xs generalizing acc with
  | nil =>
    rw [List.foldlM_nil, List.flatMap_nil, List.append_nil]
    exact ⟨fun h ↦ ⟨fun x hx ↦ absurd hx List.not_mem_nil, (Except.ok.inj h).symm⟩,
      fun h ↦ congrArg _ h.2.symm⟩
  | cons x xs ih =>
    have hx := h x List.mem_cons_self
    have hxs := ih fun y hy ↦ h y (List.mem_cons_of_mem x hy)
    rw [List.foldlM_cons, List.forall_mem_cons, List.flatMap_cons, ← List.append_assoc]
    cases hfirst : f acc x with
    | error e =>
      refine iff_of_false (fun hok ↦ by cases hok) fun hall ↦ ?_
      cases hfirst.symm.trans ((hx acc _).mpr ⟨hall.1.1, rfl⟩)
    | ok next =>
      obtain ⟨hgood, rfl⟩ := (hx acc next).mp hfirst
      exact (hxs _).trans (and_congr_left fun _ ↦ (and_iff_right hgood).symm)

variable (place unreadable probe t) in
/-- Every directory below can be read, and no database is locked. -/
structure Accessible (rel : List (List Char)) : Prop where
  readable : ∀ sub, t.isDir (under place (rel ++ sub)) = true →
    unreadable (under place (rel ++ sub)) = none
  unlocked : ∀ sub, sub ≠ [] → t.file (under place (rel ++ sub)) ≠ none →
    (describe place probe t (rel ++ sub)).isOk = true

variable (place probe t) in
def listed (rel : List (List Char)) : Option DatabaseInfo :=
  (describe place probe t rel).toOption.join

theorem accessible_iff (hdir : t.isDir (under place rel) = true) :
    Accessible place unreadable probe t rel ↔ unreadable (under place rel) = none ∧
      ∀ name ∈ d.names (under place rel),
        (t.isDir (under place (rel ++ [name])) = true →
          Accessible place unreadable probe t (rel ++ [name])) ∧
        (t.file (under place (rel ++ [name])) ≠ none →
          (describe place probe t (rel ++ [name])).isOk = true) := by
  constructor
  · intro h
    have hroot := h.readable []
    rw [List.append_nil] at hroot
    refine ⟨hroot hdir, fun name _ ↦ ⟨fun _ ↦ ⟨fun sub hsub ↦ ?_, fun sub _ hsub ↦ ?_⟩, ?_⟩⟩
    · rw [List.append_assoc] at hsub ⊢
      exact h.readable _ hsub
    · rw [List.append_assoc] at hsub ⊢
      exact h.unlocked _ (List.cons_ne_nil _ _) hsub
    · exact h.unlocked [name] (List.cons_ne_nil _ _)
  · intro ⟨hroot, hnames⟩
    have hname {name : List Char} {more : List (List Char)}
        (h : t.entry (under place (rel ++ name :: more)) ≠ none) :
        name ∈ d.names (under place rel) := by
      rw [under_append, under_cons] at h
      exact (d.mem_names _ _).mpr (t.entry_of_prefix h (List.prefix_append _ _))
    have hparent {name next : List Char} {more : List (List Char)}
        (h : t.entry (under place (rel ++ name :: next :: more)) ≠ none) :
        t.isDir (under place (rel ++ [name])) = true := by
      rw [show rel ++ name :: next :: more = (rel ++ [name]) ++ next :: more by simp,
        under_append] at h
      exact isDir_of_below h
    refine ⟨fun sub hsub ↦ ?_, fun sub hne hsub ↦ ?_⟩
    · cases sub with
      | nil => rwa [List.append_nil]
      | cons name more =>
        have hthere : t.entry (under place (rel ++ name :: more)) ≠ none := by
          rw [FileTree.isDir, beq_iff_eq] at hsub
          exact hsub ▸ Option.some_ne_none _
        have hbelow : t.isDir (under place (rel ++ [name])) = true := by
          cases more with
          | nil => exact hsub
          | cons next more => exact hparent hthere
        have hmore := ((hnames name (hname hthere)).1 hbelow).readable more
        rw [List.append_assoc] at hmore
        exact hmore hsub
    · obtain ⟨name, more, rfl⟩ := List.exists_cons_of_ne_nil hne
      have hthere := FileTree.entry_of_file hsub
      cases more with
      | nil => exact (hnames name (hname hthere)).2 hsub
      | cons next more =>
        have hmore := ((hnames name (hname hthere)).1 (hparent hthere)).unlocked (next :: more)
          (List.cons_ne_nil _ _)
        rw [List.append_assoc] at hmore
        exact hmore hsub

theorem describe_map_ok_iff (acc r : List DatabaseInfo) :
    (describe place probe t rel).map (fun info ↦ acc ++ info.toList) = .ok r ↔
      (describe place probe t rel).isOk = true ∧ r = acc ++ (listed place probe t rel).toList := by
  unfold listed
  cases describe place probe t rel with
  | error e => exact iff_of_false (fun h ↦ by cases h) fun h ↦ by cases h.1
  | ok info =>
    have hinfo : (Except.ok info : Except SyncError _).toOption.join = info := by
      cases info <;> rfl
    rw [hinfo]
    exact ⟨fun h ↦ ⟨rfl, (Except.ok.inj h).symm⟩, fun h ↦ congrArg _ h.2.symm⟩

theorem collectDatabases_ok_iff {fuel : ℕ} (hdir : t.isDir (under place rel) = true)
    (hfuel : ∀ sub, t.entry (under (under place rel) sub) ≠ none → sub.length < fuel)
    (list r : List DatabaseInfo) :
    collectDatabases place unreadable probe d fuel rel list = .ok r ↔
      Accessible place unreadable probe t rel ∧
        r = list ++ (d.files fuel (under place rel)).filterMap
          fun sub ↦ listed place probe t (rel ++ sub) := by
  induction fuel generalizing rel list r with
  | zero =>
    have hthere : t.entry (under (under place rel) []) ≠ none := by
      rw [under_nil]
      rw [FileTree.isDir, beq_iff_eq] at hdir
      exact hdir ▸ Option.some_ne_none _
    exact absurd (hfuel [] hthere) (Nat.lt_irrefl 0)
  | succ fuel ih =>
    rw [accessible_iff (d := d) hdir, collectDatabases, readDir]
    cases hunreadable : unreadable (under place rel) with
    | some text => simp
    | none =>
      rw [hdir, Directory.files, List.filterMap_flatMap, and_iff_right rfl]
      refine foldlM_ok_iff (fun name _ acc r ↦ ?_) list r
      rw [← under_append]
      dsimp only
      split_ifs with hbelow hfile
      · have hnone : ¬ t.file (under place (rel ++ [name])) ≠ none := fun hsome ↦ by
          rw [not_isDir_of_file hsome] at hbelow
          cases hbelow
        have hless (sub : List (List Char))
            (h : t.entry (under (under place (rel ++ [name])) sub) ≠ none) : sub.length < fuel := by
          rw [under_append, ← under_cons] at h
          exact Nat.lt_of_succ_lt_succ (hfuel _ h)
        rw [ih hbelow hless, List.filterMap_map]
        simp [hbelow, hnone]
      · have hone : [[name]].filterMap (fun sub ↦ listed place probe t (rel ++ sub)) =
            (listed place probe t (rel ++ [name])).toList := by
          cases h : listed place probe t (rel ++ [name]) <;> simp [h]
        rw [describe_map_ok_iff, hone]
        simp [hbelow, Option.isSome_iff_ne_none.mp hfile]
      · rw [Option.not_isSome_iff_eq_none] at hfile
        rw [List.filterMap_nil, List.append_nil]
        exact ⟨fun h ↦ ⟨⟨fun hd ↦ absurd hd hbelow, fun hf ↦ absurd hfile hf⟩,
          (Except.ok.inj h).symm⟩, fun h ↦ congrArg _ h.2.symm⟩

end Collect

section Names

/-- The names lead to a file below the data directory. -/
structure IsRelative (rel : List (List Char)) : Prop where
  ne_nil : rel ≠ []
  isFileName : ∀ name ∈ rel, IsFileName name

variable {rel rel' : List (List Char)} {dataDir : List Char}

theorem IsRelative.segments (h : IsRelative rel) :
    UnixPath.segments (['/'].intercalate rel) = rel :=
  List.splitOn_intercalate '/' (fun name hname ↦ (h.isFileName name hname).1) h.ne_nil

theorem IsRelative.components (h : IsRelative rel) :
    UnixPath.components (['/'].intercalate rel) = rel.map .normal := by
  have hsegments := h.segments
  obtain ⟨hne, hnames⟩ := h
  obtain ⟨first, more, rfl⟩ := List.exists_cons_of_ne_nil hne
  have hnormal (name : List Char) (h : IsFileName name) : ofSegment name = some (.normal name) :=
    ofSegment_of_ne h.2.1 h.2.2.1 h.2.2.2
  rw [List.forall_mem_cons] at hnames
  have hmore : more.filterMap ofSegment = more.map .normal := by
    rw [List.filterMap_congr fun name hname ↦ hnormal name (hnames.2 name hname),
      List.filterMap_eq_map']
  have hfirst : leading first more.isEmpty = [.normal first] := by
    rw [leading, if_neg hnames.1.2.1, if_neg hnames.1.2.2.1, hnormal first hnames.1]
    rfl
  simp only [UnixPath.components, hsegments, hfirst, hmore]
  rfl

theorem IsRelative.eq_of_relName (h : IsRelative rel) (h' : IsRelative rel')
    (heq : relName rel = relName rel') : rel = rel' := by
  rw [← h.segments, ← h'.segments]
  exact congrArg UnixPath.segments (String.ofList_injective heq)

theorem IsRelative.concat (h : IsRelative rel) : rel.dropLast ++ [fileName rel] = rel := by
  rw [fileName, List.getLast?_eq_some_getLast h.ne_nil, Option.getD_some]
  exact List.dropLast_concat_getLast h.ne_nil

theorem IsRelative.plain (h : IsRelative rel) : Plain (['/'].intercalate rel) := by
  constructor
  · intro hnil
    have hcomponents := h.components
    rw [hnil] at hcomponents
    exact h.ne_nil (List.map_eq_nil_iff.mp hcomponents.symm)
  · rw [h.components, List.forall_mem_map]
    exact fun name _ ↦ rfl

theorem suffix_segments_join (base : List Char) {path : List Char} (h : isAbsolute path = false) :
    segments path <:+ segments (join base path) := by
  unfold join
  rw [h, if_neg Bool.false_ne_true]
  split_ifs with hbase
  · rcases hbase with rfl | hslash
    · exact List.suffix_rfl
    · rw [← List.dropLast_append_getLast? _ hslash, List.append_assoc, List.singleton_append,
        segments_append]
      exact List.suffix_append _ _
  · rw [segments_append]
    exact List.suffix_append _ _

theorem IsRelative.namesDirectory_join (h : IsRelative rel) (base : List Char) :
    namesDirectory (join base (['/'].intercalate rel)) = false := by
  obtain ⟨before, hbefore⟩ := suffix_segments_join base h.plain.not_isAbsolute
  obtain ⟨-, hempty, hdot, -⟩ := h.isFileName _ (List.getLast_mem h.ne_nil)
  rw [h.segments] at hbefore
  rw [namesDirectory, ← hbefore, List.getLast?_append_of_ne_nil _ h.ne_nil,
    List.getLast?_eq_some_getLast h.ne_nil]
  split <;> simp_all

theorem IsRelative.dbPath (h : IsRelative rel) (htrim : trim (relName rel) = relName rel)
    (dataDir : List Char) :
    DatabaseEngine.dbPath dataDir (relName rel) = join dataDir (['/'].intercalate rel) ∧
      UnixPath.components (DatabaseEngine.dbPath dataDir (relName rel)) =
        under (UnixPath.components dataDir) rel := by
  have hpath : DatabaseEngine.dbPath dataDir (relName rel) =
      join dataDir (['/'].intercalate rel) := by
    rw [DatabaseEngine.dbPath, htrim, relName, String.toList_ofList]
  refine ⟨hpath, ?_⟩
  rw [hpath, components_join h.plain, h.components, under]

theorem IsRelative.resolveDbPath (h : IsRelative rel) (htrim : trim (relName rel) = relName rel)
    (deny : Denials) {t : FileTree}
    (hfile : t.file (under (UnixPath.components dataDir) rel) ≠ none) :
    DatabaseEngine.resolveDbPath dataDir deny t (relName rel) =
      (.ok (DatabaseEngine.dbPath dataDir (relName rel)), t) := by
  have hplain : Plain (trim (relName rel)).toList := by
    rw [htrim, relName, String.toList_ofList]
    exact h.plain
  have hthere := FileTree.entry_of_file hfile
  rw [← h.concat, under_append] at hthere
  have hparent : t.entry (under (UnixPath.components dataDir) rel).dropLast = some .directory := by
    rw [← h.concat, under_append, under, List.map_singleton, List.dropLast_concat]
    exact t.below _ _ hthere
  rw [resolveDbPath_of_plain dataDir deny t hplain, (h.dbPath htrim dataDir).2,
    FileTree.createDirAll_of_dir deny hparent]
  rfl

/-- Where a drop looks for the files of the database with this name. -/
theorem IsRelative.sidecars (h : IsRelative rel) (htrim : trim (relName rel) = relName rel)
    (hresolves : Resolves dataDir (relName rel) (DatabaseEngine.dbPath dataDir (relName rel))) :
    (DatabaseEngine.sidecars (DatabaseEngine.dbPath dataDir (relName rel))).map
      UnixPath.components = places (UnixPath.components dataDir) rel := by
  obtain ⟨hpath, hplace⟩ := h.dbPath htrim dataDir
  obtain ⟨stem, last, hspelled⟩ := hresolves.spelled
  have hcut := hspelled.file (hpath ▸ h.namesDirectory_join dataDir)
  rw [hplace, ← h.concat, under_append] at hcut
  obtain ⟨hstem, hlast⟩ := List.append_inj' hcut rfl
  obtain rfl : fileName rel = last := by simpa using hlast
  rw [DatabaseEngine.sidecars, List.map_cons, List.map_map, hplace]
  refine congrArg (_ :: ·) (List.map_congr_left fun suffix hsuffix ↦ ?_)
  rw [Function.comp_apply, hspelled.sidecar suffix hsuffix, ← hstem, suffixed, under_append]
  rfl

end Names

section Drop

variable {t t' t'' : FileTree} {deny : Denials} {paths : List (List Char)}

theorem removeAll_loses (deny : Denials) (paths : List (List Char)) (t : FileTree) :
    Loses t (removeAll deny paths t).2 := by
  induction paths generalizing t with
  | nil => exact fun place ↦ .inl rfl
  | cons path more ih =>
    rw [removeAll]
    rcases FileTree.unlink_cases deny t path with
      ⟨bytes, hfile, hremovable, hunlink⟩ | ⟨-, hunlink⟩ | ⟨e, -, -, hkind, hunlink⟩
    · have hfirst : Loses t (t.remove (components path) bytes hfile) := by
        intro place
        rcases eq_or_ne place (components path) with rfl | hne
        · exact .inr ⟨hremovable.2.1, Function.update_self ..⟩
        · exact .inl (Function.update_of_ne hne ..)
      rw [hunlink]
      exact hfirst.trans (ih _)
    · rw [hunlink]
      exact ih t
    · rw [hunlink]
      cases e with
      | notFound => contradiction
      | _ => exact fun place ↦ .inl rfl

theorem removeAll_gone (h : removeAll deny paths t = (.ok (), t')) {path : List Char}
    (hpath : path ∈ paths) : t'.file (components path) = none := by
  induction paths generalizing t with
  | nil => cases hpath
  | cons first more ih =>
    have hstays {left : FileTree} (hleft : removeAll deny more left = (.ok (), t'))
        (hgone : left.file (components first) = none) : t'.file (components first) = none := by
      by_contra hthere
      have hloses := removeAll_loses deny more left
      rw [hleft] at hloses
      exact hthere ((hloses.file_eq hthere).trans hgone)
    rw [removeAll] at h
    rcases FileTree.unlink_cases deny t first with
      ⟨bytes, hfile, -, hunlink⟩ | ⟨hmissing, hunlink⟩ | ⟨e, -, -, hkind, hunlink⟩
    · rw [hunlink] at h
      rcases List.mem_cons.mp hpath with rfl | hmore
      · exact hstays h (FileTree.file_remove_self hfile)
      · exact ih h hmore
    · rw [hunlink] at h
      rcases List.mem_cons.mp hpath with rfl | hmore
      · exact hstays h (by rw [FileTree.file, hmissing.2.1])
      · exact ih h hmore
    · rw [hunlink] at h
      cases e with
      | notFound => contradiction
      | _ => cases h

variable {place p : List Component} {rel rel' : List (List Char)}

theorem isSidecar_suffixed {suffix : String} (h : suffix ∈ suffixes) :
    isSidecar (suffixed rel suffix) = true := by
  rw [isSidecar, List.any_eq_true]
  refine ⟨suffix, h, ?_⟩
  rw [List.isSuffixOf_iff_suffix, suffixed, fileName, List.getLast?_concat]
  exact List.suffix_append _ _

/-- No file belongs to two databases. -/
theorem places_apart (h : IsRelative rel) (h' : IsRelative rel') (hmain : isSidecar rel = false)
    (hmain' : isSidecar rel' = false) (hp : p ∈ places place rel) (hp' : p ∈ places place rel') :
    rel = rel' := by
  have hnot {rel rel' : List (List Char)} {suffix : String} (hsuffix : suffix ∈ suffixes)
      (hmain : isSidecar rel = false) (heq : under place rel = under place (suffixed rel' suffix)) :
      False := by
    rw [under_inj.mp heq, isSidecar_suffixed hsuffix] at hmain
    cases hmain
  rcases List.mem_cons.mp hp with rfl | hp <;> rcases List.mem_cons.mp hp' with heq | hp'
  · exact under_inj.mp heq
  · obtain ⟨suffix, hsuffix, heq⟩ := List.mem_map.mp hp'
    exact (hnot hsuffix hmain heq.symm).elim
  · obtain ⟨suffix, hsuffix, rfl⟩ := List.mem_map.mp hp
    exact (hnot hsuffix hmain' heq.symm).elim
  · obtain ⟨suffix, hsuffix, rfl⟩ := List.mem_map.mp hp
    obtain ⟨suffix', hsuffix', heq⟩ := List.mem_map.mp hp'
    obtain ⟨hdir, hlast⟩ := List.append_inj' (under_inj.mp heq) rfl
    obtain ⟨-, hfile⟩ := suffix_eq_of_append hsuffix' hsuffix (List.singleton_inj.mp hlast)
    rw [← h.concat, ← h'.concat, hdir, hfile]

/-- One database is gone with all its files, and the others are as they were. -/
structure Dropped (place : List Component) (rel : List (List Char)) (t t' : FileTree) : Prop where
  loses : Loses t t'
  gone : t'.file (under place rel) = none
  spared : ∀ rel', IsRelative rel' → rel' ≠ rel → isSidecar rel' = false →
    contents t' place rel' = contents t place rel'

theorem dropped_of_ok {dataDir : List Char} {engine engine' : DatabaseEngine} {existed : Bool}
    (h : IsRelative rel) (hmain : isSidecar rel = false) (htrim : trim (relName rel) = relName rel)
    (hfile : t.file (under (components dataDir) rel) ≠ none)
    (hdrop : dropDatabase dataDir deny engine t (relName rel) = (.ok existed, engine', t')) :
    existed = true ∧ Dropped (components dataDir) rel t t' := by
  obtain ⟨hpath, hplace⟩ := h.dbPath htrim dataDir
  have hresolve := h.resolveDbPath htrim deny hfile
  have hresolves : Resolves dataDir (relName rel) (dbPath dataDir (relName rel)) :=
    ⟨deny, t, by rw [hresolve]⟩
  have hkept (p : List Component) (hp : p ∉ places (components dataDir) rel) :
      (dropDatabase dataDir deny engine t (relName rel)).2.2.file p = t.file p := by
    refine (dropDatabase_file_iff hresolves p).mpr fun hremoves ↦ hp ?_
    obtain ⟨stem, last, hspelled⟩ := hresolves.spelled
    obtain ⟨-, hp, -⟩ := hspelled.of_removes hremoves
    exact h.sidecars htrim hresolves ▸ mem_sidecars.mpr hp
  have hloses := removeAll_loses deny (sidecars (dbPath dataDir (relName rel))) t
  rw [hdrop] at hkept
  simp only [dropDatabase, hresolve] at hdrop
  rcases hremove : removeAll deny (sidecars (dbPath dataDir (relName rel))) t with ⟨answer, left⟩
  rw [hremove] at hdrop hloses
  cases answer with
  | error e => simp at hdrop
  | ok =>
    simp only [Prod.mk.injEq, Except.ok.injEq] at hdrop
    obtain ⟨rfl, -, rfl⟩ := hdrop
    refine ⟨?_, hloses, ?_, fun rel' h' hne hmain' ↦ ?_⟩
    · rw [FileTree.pathExists, hplace, hpath, h.namesDirectory_join,
        Option.isSome_iff_ne_none.mpr hfile, Bool.not_false, Bool.and_true, Bool.or_true]
    · rw [← hplace]
      exact removeAll_gone hremove List.mem_cons_self
    · refine List.map_congr_left fun p hp ↦ hkept p fun hmine ↦ hne ?_
      exact places_apart h' h hmain' hmain hp hmine

end Drop

section Listing

variable {dataDir : List Char} {place : List Component}
  {unreadable : List Component → Option String} {probe : Probe} {t t' : FileTree}
  {d : Directory t} {d' : Directory t'} {rel rel' : List (List Char)} {list : List DatabaseInfo}
  {info : DatabaseInfo}

theorem isRelative_of_file (d : Directory t) (h : rel ≠ [] ∧ t.file (under place rel) ≠ none) :
    IsRelative rel :=
  ⟨h.1, d.isFileName_of_entry (FileTree.entry_of_file h.2)⟩

variable (place probe t) in
/-- A file that SQLite opens as a database and that does not belong to another one. -/
structure IsDatabase (rel : List (List Char)) (info : DatabaseInfo) : Prop where
  isFile : rel ≠ [] ∧ t.file (under place rel) ≠ none
  main : isSidecar rel = false
  opens : probe rel (contents t place rel) = .ok (info.pageSize, info.pageCount)
  name : info.name = relName rel
  size : info.fileSizeBytes = ((t.file (under place rel)).getD []).length
  journal : info.journalMode = "wal"

theorem listed_eq_some_iff (hfile : rel ≠ [] ∧ t.file (under place rel) ≠ none) :
    listed place probe t rel = some info ↔ IsDatabase place probe t rel info := by
  unfold listed describe
  split_ifs with hsidecar
  · exact iff_of_false nofun fun h ↦ Bool.false_ne_true (h.main.symm.trans hsidecar)
  cases hprobe : probe rel (contents t place rel) with
  | ok pages =>
    constructor
    · intro h
      cases h
      exact ⟨hfile, Bool.eq_false_iff.mpr hsidecar, hprobe, rfl, rfl, rfl⟩
    · intro ⟨_, _, hopens, hname, hsize, hjournal⟩
      obtain rfl := Except.ok.inj (hprobe.symm.trans hopens)
      cases info
      simp_all
      rfl
  | error e =>
    refine iff_of_false ?_ fun h ↦ by cases hprobe.symm.trans h.opens
    split
    · next h => cases h
    · split_ifs <;> nofun
    · nofun

variable (place probe d) in
def found : List DatabaseInfo := (d.files (d.depth + 1) place).filterMap (listed place probe t)

theorem mem_found : info ∈ found place probe d ↔ ∃ rel, IsDatabase place probe t rel info := by
  rw [found, List.mem_filterMap]
  constructor
  · rintro ⟨rel, hrel, hinfo⟩
    exact ⟨rel, (listed_eq_some_iff (mem_files_depth.mp hrel)).mp hinfo⟩
  · rintro ⟨rel, h⟩
    exact ⟨rel, mem_files_depth.mpr h.isFile, (listed_eq_some_iff h.isFile).mpr h⟩

variable (place probe d) in
theorem found_distinct : (found place probe d).Pairwise fun a b ↦ a.name ≠ b.name := by
  rw [found, List.pairwise_filterMap]
  refine (nodup_files _ _).imp_of_mem fun hrel hrel' hne info hinfo info' hinfo' heq ↦ ?_
  rw [mem_files_depth] at hrel hrel'
  rw [((listed_eq_some_iff hrel).mp hinfo).name, ((listed_eq_some_iff hrel').mp hinfo').name] at heq
  exact hne ((isRelative_of_file d hrel).eq_of_relName (isRelative_of_file d hrel') heq)

theorem listDatabases_ok_iff (hdir : t.isDir (components dataDir) = true) :
    listDatabases dataDir unreadable probe d = .ok list ↔
      Accessible (components dataDir) unreadable probe t [] ∧
        list = (found (components dataDir) probe d).mergeSort fun a b ↦ a.name ≤ b.name := by
  have hexists : t.pathExists dataDir = true := by rw [FileTree.pathExists, hdir, Bool.true_or]
  have hcollect (r : List DatabaseInfo) :
      collectDatabases (components dataDir) unreadable probe d (d.depth + 1) [] [] = .ok r ↔
        Accessible (components dataDir) unreadable probe t [] ∧
          r = found (components dataDir) probe d := by
    rw [← under_nil (components dataDir)] at hdir
    rw [collectDatabases_ok_iff hdir fun sub hsub ↦ Nat.lt_succ_of_le (d.bounded _ sub hsub),
      under_nil]
    rfl
  rw [listDatabases, hexists, Bool.not_true, if_neg Bool.false_ne_true]
  cases h : collectDatabases (components dataDir) unreadable probe d (d.depth + 1) [] [] with
  | error e =>
    refine iff_of_false (fun hok ↦ by cases hok) fun ⟨hall, _⟩ ↦ ?_
    cases h.symm.trans ((hcollect _).mpr ⟨hall, rfl⟩)
  | ok r =>
    obtain ⟨hall, rfl⟩ := (hcollect r).mp h
    rw [and_iff_right hall]
    exact ⟨fun hok ↦ (Except.ok.inj hok).symm, fun heq ↦ congrArg _ heq.symm⟩

theorem isDir_of_listDatabases (h : listDatabases dataDir unreadable probe d = .ok list)
    (hinfo : info ∈ list) : t.isDir (components dataDir) = true := by
  by_contra hdir
  have hread : ∃ e, readDir unreadable d (components dataDir) = .error e := by
    unfold readDir
    split
    · exact ⟨_, rfl⟩
    · rw [if_neg hdir]
      exact ⟨_, rfl⟩
  obtain ⟨e, hread⟩ := hread
  unfold listDatabases at h
  split_ifs at h with hexists
  · cases h
    cases hinfo
  · rw [collectDatabases, under_nil, hread] at h
    cases h

theorem sorted_of_distinct {found : List DatabaseInfo}
    (h : found.Pairwise fun a b ↦ a.name ≠ b.name) :
    (found.mergeSort fun a b ↦ a.name ≤ b.name).Pairwise fun a b ↦ a.name < b.name := by
  have hsorted : (found.mergeSort fun a b ↦ a.name ≤ b.name).Pairwise
      fun a b ↦ decide (a.name ≤ b.name) = true := by
    refine List.pairwise_mergeSort (fun a b c hab hbc ↦ ?_) (fun a b ↦ ?_) found
    · rw [decide_eq_true_iff] at hab hbc ⊢
      exact le_trans hab hbc
    · rw [Bool.or_eq_true, decide_eq_true_iff, decide_eq_true_iff]
      exact le_total a.name b.name
  have hdistinct := (List.mergeSort_perm found fun a b ↦ a.name ≤ b.name).symm.pairwise h
    fun hab ↦ hab.symm
  exact hsorted.imp₂ (fun _ _ hle hne ↦ lt_of_le_of_ne (of_decide_eq_true hle) hne) hdistinct

namespace Dropped

variable (h : Dropped place rel t t')

include h

theorem describe_eq (hrel' : IsRelative rel') (hne : rel' ≠ rel) :
    describe place probe t' rel' = describe place probe t rel' := by
  unfold describe
  split_ifs with hsidecar
  · rfl
  · have hcontents := h.spared rel' hrel' hne (Bool.eq_false_iff.mpr hsidecar)
    have hfile : t'.file (under place rel') = t.file (under place rel') :=
      (List.cons.inj hcontents).1
    rw [hcontents, hfile]

theorem isRelative (d : Directory t) (hfile : t'.file (under place rel') ≠ none) (hne : rel' ≠ []) :
    IsRelative rel' ∧ rel' ≠ rel ∧ t.file (under place rel') ≠ none := by
  have hthere := h.loses.file_eq hfile ▸ hfile
  refine ⟨isRelative_of_file d ⟨hne, hthere⟩, ?_, hthere⟩
  rintro rfl
  exact hfile h.gone

theorem accessible (d : Directory t) (hall : Accessible place unreadable probe t []) :
    Accessible place unreadable probe t' [] := by
  constructor
  · intro sub hsub
    rw [h.loses.isDir_eq] at hsub
    exact hall.readable sub hsub
  · intro sub hne hsub
    obtain ⟨hrel', hother, hthere⟩ := h.isRelative d hsub hne
    exact h.describe_eq hrel' hother ▸ hall.unlocked sub hne hthere

theorem isDatabase_iff (hrel' : IsRelative rel') (hne : rel' ≠ rel)
    (hmain : isSidecar rel' = false) :
    IsDatabase place probe t' rel' info ↔ IsDatabase place probe t rel' info := by
  have hcontents := h.spared rel' hrel' hne hmain
  have hfile : t'.file (under place rel') = t.file (under place rel') :=
    (List.cons.inj hcontents).1
  constructor
  · intro ⟨hisFile, hmain, hopens, hname, hsize, hjournal⟩
    rw [hfile] at hisFile hsize
    exact ⟨hisFile, hmain, hcontents ▸ hopens, hname, hsize, hjournal⟩
  · intro ⟨hisFile, hmain, hopens, hname, hsize, hjournal⟩
    rw [← hfile] at hisFile hsize
    exact ⟨hisFile, hmain, hcontents ▸ hopens, hname, hsize, hjournal⟩

theorem mem_found_iff (hrel : IsRelative rel) :
    info ∈ found place probe d' ↔ info ∈ found place probe d ∧ info.name ≠ relName rel := by
  simp only [mem_found]
  constructor
  · rintro ⟨rel', hinfo⟩
    obtain ⟨hrel', hother, -⟩ := h.isRelative d hinfo.isFile.2 hinfo.isFile.1
    refine ⟨⟨rel', (h.isDatabase_iff hrel' hother hinfo.main).mp hinfo⟩, fun heq ↦ hother ?_⟩
    exact hrel'.eq_of_relName hrel (hinfo.name.symm.trans heq)
  · rintro ⟨⟨rel', hinfo⟩, hname⟩
    have hother : rel' ≠ rel := fun heq ↦ hname (heq ▸ hinfo.name)
    have hrel' := isRelative_of_file d hinfo.isFile
    exact ⟨rel', (h.isDatabase_iff hrel' hother hinfo.main).mpr hinfo⟩

end Dropped

section Sample

def twoTree : FileTree :=
  otherTree.create [.normal "data".toList, .normal "app.db".toList] (.file [1]) rfl rfl

def twoPlaces : List (List Component) :=
  [[], [.rootDir], [.normal "data".toList], [.normal "data".toList, .normal "other.db".toList],
    [.normal "data".toList, .normal "app.db".toList]]

theorem twoTree_entry {place : List Component} (h : twoTree.entry place ≠ none) :
    place ∈ twoPlaces := by
  simp only [twoTree, otherTree, dataTree, bareTree, FileTree.create, Function.update_apply] at h
  simp only [twoPlaces, List.mem_cons]
  split_ifs at h <;> tauto

theorem twoTree_names {place : List Component} {name : List Char}
    (h : twoTree.entry (under place [name]) ≠ none) :
    place = [] ∧ name = "data".toList ∨ place = [.normal "data".toList] ∧
      name ∈ ["app.db".toList, "other.db".toList] := by
  have hmem := twoTree_entry h
  rw [under, List.map_singleton] at hmem
  have hsplit (more : List Component) {c : Component}
      (heq : place ++ [.normal name] = more ++ [c]) : place = more ∧ .normal name = c := by
    obtain ⟨hplace, hname⟩ := List.append_inj' heq rfl
    exact ⟨hplace, List.singleton_inj.mp hname⟩
  simp only [twoPlaces, List.mem_cons, List.not_mem_nil, or_false] at hmem ⊢
  rcases hmem with heq | heq | heq | heq | heq
  · simp at heq
  · cases (hsplit [] heq).2
  · obtain ⟨hplace, hname⟩ := hsplit [] heq
    exact .inl ⟨hplace, Component.normal.inj hname⟩
  · obtain ⟨hplace, hname⟩ := hsplit [_] heq
    exact .inr ⟨hplace, .inr (Component.normal.inj hname)⟩
  · obtain ⟨hplace, hname⟩ := hsplit [_] heq
    exact .inr ⟨hplace, .inl (Component.normal.inj hname)⟩

def twoNames (place : List Component) : List (List Char) :=
  if place = [] then ["data".toList]
  else if place = [.normal "data".toList] then ["app.db".toList, "other.db".toList]
  else []

theorem mem_twoNames (place : List Component) (name : List Char) :
    name ∈ twoNames place ↔ twoTree.entry (under place [name]) ≠ none := by
  constructor
  · intro h
    unfold twoNames at h
    split_ifs at h with hplace hplace
    · rw [hplace, List.mem_singleton.mp h]
      decide
    · rw [hplace]
      revert name
      decide
    · cases h
  · intro h
    rcases twoTree_names h with ⟨rfl, rfl⟩ | ⟨rfl, hname⟩
    · decide
    · exact hname

theorem nodup_twoNames (place : List Component) : (twoNames place).Nodup := by
  unfold twoNames
  split_ifs <;> decide

theorem isFileName_twoNames (place : List Component) :
    ∀ name ∈ twoNames place, IsFileName name := by
  unfold twoNames IsFileName
  split_ifs
  · decide
  · decide
  · exact fun name hname ↦ absurd hname List.not_mem_nil

theorem twoTree_depth (place : List Component) (rel : List (List Char))
    (h : twoTree.entry (under place rel) ≠ none) : rel.length ≤ 2 := by
  have hlengths : ∀ p ∈ twoPlaces, p.length ≤ 2 := by decide
  have hlength := hlengths _ (twoTree_entry h)
  rw [under, List.length_append, List.length_map] at hlength
  omega

def twoDirectory : Directory twoTree :=
  ⟨twoNames, nodup_twoNames, mem_twoNames, isFileName_twoNames, 2, twoTree_depth⟩

def sampleProbe : Probe := fun _ files ↦
  if files.head? = some none then .error (.sqlite 14 "unable to open database file")
  else .ok (4096, 1)

end Sample

end Listing

end DatabaseEngine

end RsqliteRsync.Gateway
