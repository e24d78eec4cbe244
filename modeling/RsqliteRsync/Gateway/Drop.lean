import RsqliteRsync.Gateway.Paths
import RsqliteRsync.Gateway.Server

namespace RsqliteRsync.Gateway.DatabaseEngine

open Protocol Foundation Foundation.UnixPath Foundation.FileTree

def suffixes : List String := ["-wal", "-shm", "-journal"]

def sidecars (path : List Char) : List (List Char) :=
  path :: suffixes.map fun suffix ↦ path ++ suffix.toList

def removeAll (deny : Denials) : List (List Char) → FileTree → Except SyncError Unit × FileTree
  | [], t => (.ok (), t)
  | path :: more, t =>
    match t.unlink deny path with
    | .ok left => removeAll deny more left
    | .error .notFound => removeAll deny more t
    | .error e => (.error (.io e.text), t)

def dropDatabase (dataDir : List Char) (deny : Denials) (engine : DatabaseEngine) (t : FileTree)
    (dbName : String) : Except SyncError Bool × DatabaseEngine × FileTree :=
  let locked := (engine.getDbLock dbName).2
  match resolveDbPath dataDir deny t dbName with
  | (.error e, made) => (.error e, locked, made)
  | (.ok path, made) =>
    match removeAll deny (sidecars path) made with
    | (.error e, left) => (.error e, locked, left)
    | (.ok (), left) => (.ok (made.pathExists path), locked.removeDbLock dbName, left)

section Removal

variable {deny : Denials} {t t' : FileTree} {paths : List (List Char)} {place : List Component}

/-- Removing the paths in order gets as far as this place, where a regular file can be removed. -/
def Removes (deny : Denials) (t : FileTree) : List (List Char) → List Component → Prop
  | [], _ => False
  | path :: more, place =>
    Removable deny t path ∧ components path = place ∨
      (Removable deny t path ∨ Missing deny t path) ∧ Removes deny t more place

theorem Removes.exists_path (h : Removes deny t paths place) :
    ∃ path ∈ paths, components path = place ∧ Removable deny t path := by
  induction paths with
  | nil => exact h.elim
  | cons path more ih =>
    rcases h with ⟨hpath, hplace⟩ | ⟨-, h⟩
    · exact ⟨path, List.mem_cons_self, hplace, hpath⟩
    · obtain ⟨other, hmem, hother⟩ := ih h
      exact ⟨other, List.mem_cons_of_mem _ hmem, hother⟩

theorem Removes.mono (h : Removes deny t paths place)
    (hremovable : ∀ path ∈ paths, Removable deny t path → Removable deny t' path)
    (hmissing : ∀ path ∈ paths, Missing deny t path → Missing deny t' path) :
    Removes deny t' paths place := by
  induction paths with
  | nil => exact h
  | cons path more ih =>
    rw [List.forall_mem_cons] at hremovable hmissing
    rcases h with ⟨hpath, hplace⟩ | ⟨hpath, h⟩
    · exact .inl ⟨hremovable.1 hpath, hplace⟩
    · exact .inr ⟨hpath.imp hremovable.1 hmissing.1, ih h hremovable.2 hmissing.2⟩

/-- No path that can be removed leads to a later one. -/
def Apart (deny : Denials) (t : FileTree) (paths : List (List Char)) : Prop :=
  paths.Pairwise fun path later ↦ Removable deny t path → ¬ components path <+: components later

theorem removes_after_remove {path : List Char} {more : List (List Char)} {bytes : List UInt8}
    (hfile : t.entry (components path) = some (.file bytes))
    (hapart : ∀ later ∈ more, ¬ components path <+: components later) :
    Removes deny (t.remove (components path) bytes hfile) more place ↔
      Removes deny t more place := by
  have hsame (later : List Char) (hlater : later ∈ more) :=
    remove_apart deny hfile (hapart later hlater)
  constructor
  · intro h
    exact h.mono (fun later hl ↦ (hsame later hl).1.mp) fun later hl ↦ (hsame later hl).2.mp
  · intro h
    exact h.mono (fun later hl ↦ (hsame later hl).1.mpr) fun later hl ↦ (hsame later hl).2.mpr

theorem Apart.after_remove {path : List Char} {more : List (List Char)} {bytes : List UInt8}
    (hmore : Apart deny t more) (hfile : t.entry (components path) = some (.file bytes))
    (hapart : ∀ later ∈ more, ¬ components path <+: components later) :
    Apart deny (t.remove (components path) bytes hfile) more := by
  apply hmore.imp_of_mem
  intro first second hfirst _ h hremovable
  exact h ((remove_apart deny hfile (hapart first hfirst)).1.mp hremovable)

theorem removes_cons_of_removable {path : List Char} {more : List (List Char)}
    (h : Removable deny t path) :
    Removes deny t (path :: more) place ↔ components path = place ∨ Removes deny t more place := by
  simp [Removes, h]

theorem removes_cons_of_missing {path : List Char} {more : List (List Char)}
    (h : Missing deny t path) :
    Removes deny t (path :: more) place ↔ Removes deny t more place := by
  simp [Removes, h, h.not_removable]

theorem removeAll_file_iff (hapart : Apart deny t paths) (place : List Component) :
    (removeAll deny paths t).2.file place = t.file place ↔ ¬ Removes deny t paths place := by
  induction paths generalizing t with
  | nil => exact iff_of_true rfl id
  | cons path more ih =>
    obtain ⟨hpath, hmore⟩ := List.pairwise_cons.mp hapart
    rcases unlink_cases deny t path with
      ⟨bytes, hfile, hremovable, hunlink⟩ | ⟨hmissing, hunlink⟩ | ⟨e, hkept, hthere, hkind, hunlink⟩
    · have hlater (later : List Char) (h : later ∈ more) := hpath later h hremovable
      have hstep := ih (Apart.after_remove hmore hfile hlater)
      rw [removes_after_remove hfile hlater] at hstep
      rw [removeAll, hunlink, removes_cons_of_removable hremovable, not_or]
      rcases eq_or_ne place (components path) with rfl | hne
      · have hnot : ¬ Removes deny t more (components path) := by
          intro h
          obtain ⟨later, hmem, heq, -⟩ := h.exists_path
          exact hlater later hmem (heq ▸ List.prefix_rfl)
        have hgone := hstep.mpr hnot
        rw [file_remove_self] at hgone
        refine iff_of_false ?_ fun h ↦ h.1 rfl
        intro hsame
        exact hremovable.2.1 (hsame ▸ hgone)
      · rw [file_remove_of_ne hfile hne] at hstep
        rw [hstep]
        exact ⟨fun h ↦ ⟨hne.symm, h⟩, And.right⟩
    · rw [removeAll, hunlink, removes_cons_of_missing hmissing]
      exact ih hmore
    · have hstop : removeAll deny (path :: more) t = (.error (.io e.text), t) := by
        rw [removeAll, hunlink]
        cases e with
        | notFound => contradiction
        | _ => rfl
      rw [hstop]
      exact iff_of_true rfl (by simp [Removes, hkept, hthere])

end Removal

section Spelling

variable {dataDir : List Char} {dbName : String} {path stem last : List Char} {deny : Denials}
  {t : FileTree} {place : List Component}

/-- A path is cut before its last segment. -/
structure Spelled (path stem last : List Char) : Prop where
  form : namesDirectory path = true ↔ last = [] ∨ last = ['.']
  file : namesDirectory path = false → components path = components stem ++ [.normal last]
  directory : namesDirectory path = true → components path = components stem
  sidecar : ∀ suffix ∈ suffixes,
    components (path ++ suffix.toList) = components stem ++ [.normal (last ++ suffix.toList)]

theorem Resolves.spelled (h : Resolves dataDir dbName path) :
    ∃ stem last, Spelled path stem last := by
  obtain ⟨hplain, hpath⟩ := h.plain
  obtain ⟨name, hname⟩ := getLast?_components_join dataDir hplain
  rw [← dbPath, ← hpath] at hname
  obtain ⟨stem, last, hstem, hlast, rfl⟩ := exists_stem path
  have hform : namesDirectory (stem ++ last) = true ↔ last = [] ∨ last = ['.'] := by
    rw [namesDirectory, getLast?_segments hstem hlast]
    split <;> simp_all
  refine ⟨stem, last, hform, ?_, ?_, ?_⟩
  · intro hfile
    rw [← Bool.not_eq_true, hform, not_or] at hfile
    rw [components_last hstem hlast hfile.1 hfile.2] at hname ⊢
    cases hsegment : ofSegment last with
    | none =>
      unfold ofSegment at hsegment
      split at hsegment <;> simp_all
    | some c =>
      rw [hsegment, Option.toList_some, List.getLast?_concat] at hname
      rw [Option.some.inj hname] at hsegment
      rw [Option.some.inj hname, (ofSegment_normal hsegment).1]
      rfl
  · intro hdirectory
    apply components_directory hstem _ hlast hdirectory
    rintro rfl
    rcases hform.mp hdirectory with rfl | rfl <;> cases hname
  · intro suffix hsuffix
    have hchars : '/' ∉ suffix.toList ∧ '-' ∈ suffix.toList := by
      revert suffix
      decide
    exact components_suffix hstem hlast hchars.1 hchars.2

theorem mem_sidecars : place ∈ (sidecars path).map components ↔
    place = components path ∨ ∃ suffix ∈ suffixes, place = components (path ++ suffix.toList) := by
  simp [sidecars, suffixes]

theorem Spelled.apart (h : Spelled path stem last) : Apart deny t (sidecars path) := by
  have hsame {c c' : Component} (hbegins : components stem ++ [c] <+: components stem ++ [c']) :
      c = c' :=
    List.singleton_inj.mp (List.append_cancel_left (hbegins.eq_of_length (by simp)))
  unfold Apart sidecars
  rw [List.pairwise_cons, List.forall_mem_map, List.pairwise_map]
  constructor
  · intro suffix hsuffix hremovable hbegins
    rw [h.file hremovable.2.2, h.sidecar suffix hsuffix] at hbegins
    have hempty : suffix = "" := by simpa using hsame hbegins
    rw [hempty] at hsuffix
    exact absurd hsuffix (by decide)
  · have hne : suffixes.Pairwise (· ≠ ·) := by decide
    apply hne.imp_of_mem
    intro suffix suffix' hsuffix hsuffix' hne _ hbegins
    rw [h.sidecar suffix hsuffix, h.sidecar suffix' hsuffix'] at hbegins
    have heq : suffix.toList = suffix'.toList := by simpa using hsame hbegins
    exact hne (String.toList_inj.mp heq)

theorem Spelled.not_removes (h : Spelled path stem last) (hdirectory : namesDirectory path = true) :
    ¬ Removes deny t (sidecars path) place := by
  intro hremoves
  rcases hremoves with ⟨hself, -⟩ | ⟨hself, hmore⟩
  · simp [Removable, hdirectory] at hself
  · obtain ⟨other, hother, -, hremovable⟩ := hmore.exists_path
    obtain ⟨suffix, hsuffix, rfl⟩ := List.mem_map.mp hother
    have hparent := entry_of_file hremovable.2.1
    rw [h.sidecar suffix hsuffix] at hparent
    have hthere := t.below _ _ hparent
    rcases hself with hself | hself
    · simp [Removable, hdirectory] at hself
    · rw [Missing, h.directory hdirectory, hthere] at hself
      cases hself.2.1

theorem Spelled.of_removes (h : Spelled path stem last)
    (hremoves : Removes deny t (sidecars path) place) :
    namesDirectory path = false ∧
      (place = components path ∨
        ∃ suffix ∈ suffixes, place = components (path ++ suffix.toList)) ∧
      t.file place ≠ none ∧ t.entry (components path).dropLast = some .directory := by
  have hnames : namesDirectory path = false := by
    cases hnames : namesDirectory path with
    | false => rfl
    | true => exact absurd hremoves (h.not_removes hnames)
  obtain ⟨other, hother, rfl, hremovable⟩ := hremoves.exists_path
  have hentry := entry_of_file hremovable.2.1
  refine ⟨hnames, mem_sidecars.mp (List.mem_map_of_mem hother), hremovable.2.1, ?_⟩
  rw [h.file hnames, List.dropLast_concat]
  rcases List.mem_cons.mp hother with rfl | hother
  · rw [h.file hnames] at hentry
    exact t.below _ _ hentry
  · obtain ⟨suffix, hsuffix, rfl⟩ := List.mem_map.mp hother
    rw [h.sidecar suffix hsuffix] at hentry
    exact t.below _ _ hentry

end Spelling

section Frame

variable {dataDir : List Char} {n m : String} {path path' : List Char} {deny : Denials}
  {engine : DatabaseEngine} {t : FileTree}

theorem dropDatabase_tree (hn : Resolves dataDir n path) {made : FileTree}
    (hmade : t.createDirAll deny (components path).dropLast = (.ok (), made)) :
    (dropDatabase dataDir deny engine t n).2.2 = (removeAll deny (sidecars path) made).2 := by
  obtain ⟨hplain, hpath⟩ := hn.plain
  rw [hpath] at hmade ⊢
  unfold dropDatabase
  rw [resolveDbPath_of_plain _ _ _ hplain, hmade]
  rcases hleft : removeAll deny (sidecars (dbPath dataDir n)) made with ⟨answer, left⟩
  cases answer <;> simp only [inDirectories, hleft]

theorem dropDatabase_tree_of_error (hn : Resolves dataDir n path) {made : FileTree} {e : IoError}
    (hmade : t.createDirAll deny (components path).dropLast = (.error e, made)) :
    (dropDatabase dataDir deny engine t n).2.2 = made := by
  obtain ⟨hplain, hpath⟩ := hn.plain
  rw [hpath] at hmade
  unfold dropDatabase
  rw [resolveDbPath_of_plain _ _ _ hplain, hmade]
  rfl

/-- The files that change are those that the drop removes. -/
theorem dropDatabase_file_iff (hn : Resolves dataDir n path) (place : List Component) :
    (dropDatabase dataDir deny engine t n).2.2.file place = t.file place ↔
      ¬ Removes deny t (sidecars path) place := by
  obtain ⟨stem, last, hspelled⟩ := hn.spelled
  by_cases hremoves : Removes deny t (sidecars path) place
  · obtain ⟨-, -, -, hparent⟩ := hspelled.of_removes hremoves
    rw [dropDatabase_tree hn (createDirAll_of_dir deny hparent)]
    exact removeAll_file_iff hspelled.apart place
  · refine iff_of_true ?_ hremoves
    have hcreates := createDirAll_creates deny t (components path).dropLast
    rcases hmade : t.createDirAll deny (components path).dropLast with ⟨answer, made⟩
    rw [hmade] at hcreates
    rw [← hcreates.file_eq place]
    cases answer with
    | error e => rw [dropDatabase_tree_of_error hn hmade]
    | ok =>
      rw [dropDatabase_tree hn hmade]
      apply (removeAll_file_iff hspelled.apart place).mpr
      intro h
      exact hremoves (h.mono (fun _ _ ↦ hcreates.removable) fun _ _ ↦ hcreates.missing)

def Spared (path : List Char) (t t' : FileTree) : Prop :=
  ∀ place ∈ (sidecars path).map components, t'.file place = t.file place

theorem suffix_eq_of_append {suffix suffix' : String} (hsuffix : suffix ∈ suffixes)
    (hsuffix' : suffix' ∈ suffixes) {name name' : List Char}
    (h : name ++ suffix.toList = name' ++ suffix'.toList) : suffix = suffix' ∧ name = name' := by
  have hends : ∀ s ∈ suffixes, ∀ s' ∈ suffixes, s.toList <:+ s'.toList → s = s' := by decide
  have hsuffix_eq : suffix = suffix' := by
    rcases List.suffix_or_suffix_of_suffix (h ▸ List.suffix_append name suffix.toList)
      (List.suffix_append name' suffix'.toList) with hend | hend
    · exact hends suffix hsuffix suffix' hsuffix' hend
    · exact (hends suffix' hsuffix' suffix hsuffix hend).symm
  rw [hsuffix_eq] at h
  exact ⟨hsuffix_eq, List.append_cancel_right h⟩

theorem Spelled.components_eq {stem last stem' last' : List Char} (h : Spelled path stem last)
    (h' : Spelled path' stem' last') (hnames : namesDirectory path = false)
    {suffix suffix' : String} (hsuffix : suffix ∈ suffixes) (hsuffix' : suffix' ∈ suffixes)
    (heq : components (path ++ suffix.toList) = components (path' ++ suffix'.toList)) :
    components path = components path' := by
  rw [h.sidecar suffix hsuffix, h'.sidecar suffix' hsuffix'] at heq
  obtain ⟨hstem, hlast⟩ := List.append_inj' heq rfl
  obtain ⟨-, rfl⟩ := suffix_eq_of_append hsuffix hsuffix' (by simpa using hlast)
  have hnames' : namesDirectory path' = false := by
    rw [← Bool.not_eq_true, h'.form, ← h.form, hnames]
    exact Bool.false_ne_true
  rw [h.file hnames, h'.file hnames', hstem]

/-- Dropping one database spares another one exactly if neither's path is the other's with a
suffix put after it, or the drop does not get to remove the one file that they then share. -/
theorem dropDatabase_spares_iff (dataDir : List Char) (n m : String) (path path' : List Char)
    (deny : Denials) (engine : DatabaseEngine) (t : FileTree) (hn : Resolves dataDir n path)
    (hm : Resolves dataDir m path') (hne : components path ≠ components path') :
    Spared path' t (dropDatabase dataDir deny engine t n).2.2 ↔
      ∀ suffix ∈ suffixes,
        (components path' = components (path ++ suffix.toList) →
          ¬ Removes deny t (sidecars path) (components path')) ∧
        (components path = components (path' ++ suffix.toList) →
          ¬ Removes deny t (sidecars path) (components path)) := by
  obtain ⟨stem, last, hspelled⟩ := hn.spelled
  obtain ⟨stem', last', hspelled'⟩ := hm.spelled
  simp only [Spared, dropDatabase_file_iff hn]
  constructor
  · intro hspared suffix hsuffix
    constructor
    · intro _
      exact hspared _ (mem_sidecars.mpr (.inl rfl))
    · intro heq
      exact hspared _ (mem_sidecars.mpr (.inr ⟨suffix, hsuffix, heq⟩))
  · intro hclash place hplace hremoves
    obtain ⟨hnames, hmine, -⟩ := hspelled.of_removes hremoves
    rcases mem_sidecars.mp hplace with rfl | ⟨suffix', hsuffix', rfl⟩
    · rcases hmine with heq | ⟨suffix, hsuffix, heq⟩
      · exact hne heq.symm
      · exact (hclash suffix hsuffix).1 heq hremoves
    · rcases hmine with heq | ⟨suffix, hsuffix, heq⟩
      · rw [heq] at hremoves
        exact (hclash suffix' hsuffix').2 heq.symm hremoves
      · exact hne (hspelled.components_eq hspelled' hnames hsuffix hsuffix' heq.symm)

section Sample

def otherTree : FileTree :=
  dataTree.create [.normal "data".toList, .normal "other.db".toList] (.file [0]) rfl rfl

def walTree : FileTree :=
  dataTree.create [.normal "data".toList, .normal "app.db-wal".toList] (.file [0]) rfl rfl

end Sample

theorem dropDatabase_spares_other :
    otherTree.file (components "data/other.db".toList) = some [0] ∧
      Spared "data/other.db".toList otherTree
        (dropDatabase "data".toList allowAll .new otherTree "app.db").2.2 := by
  have happ : Resolves "data".toList "app.db" "data/app.db".toList := ⟨allowAll, dataTree, rfl⟩
  have hother : Resolves "data".toList "other.db" "data/other.db".toList :=
    ⟨allowAll, dataTree, rfl⟩
  have hapart : ∀ suffix ∈ suffixes,
      components "data/other.db".toList ≠ components ("data/app.db".toList ++ suffix.toList) ∧
      components "data/app.db".toList ≠ components ("data/other.db".toList ++ suffix.toList) := by
    decide
  refine ⟨by decide, ?_⟩
  apply (dropDatabase_spares_iff _ _ _ _ _ _ _ _ happ hother (by decide)).mpr
  intro suffix hsuffix
  obtain ⟨hmine, hother⟩ := hapart suffix hsuffix
  exact ⟨fun h ↦ absurd h hmine, fun h ↦ absurd h hother⟩

theorem dropDatabase_takes_wal :
    Resolves "data".toList "app.db" "data/app.db".toList ∧
      Resolves "data".toList "app.db-wal" "data/app.db-wal".toList ∧
      components "data/app.db".toList ≠ components "data/app.db-wal".toList ∧
      ¬ Spared "data/app.db-wal".toList walTree
        (dropDatabase "data".toList allowAll .new walTree "app.db").2.2 := by
  refine ⟨⟨allowAll, dataTree, rfl⟩, ⟨allowAll, dataTree, rfl⟩, by decide, ?_⟩
  intro hspared
  have hfile := hspared (components "data/app.db-wal".toList) (mem_sidecars.mpr (.inl rfl))
  have hbefore : walTree.file (components "data/app.db-wal".toList) = some [0] := by decide
  have hafter : (dropDatabase "data".toList allowAll .new walTree "app.db").2.2.file
      (components "data/app.db-wal".toList) = none := by decide
  rw [hbefore, hafter] at hfile
  cases hfile

end Frame

end RsqliteRsync.Gateway.DatabaseEngine
