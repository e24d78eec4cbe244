import Mathlib.Data.List.Infix
import Mathlib.Logic.Function.Basic
import RsqliteRsync.Foundation.UnixPath

namespace RsqliteRsync.Foundation

open UnixPath

inductive Entry
  | file (bytes : List UInt8)
  | directory
  deriving DecidableEq

inductive IoError
  | notFound
  | alreadyExists
  | notADirectory
  | isADirectory
  | other (text : String)
  deriving DecidableEq

def IoError.text : IoError → String
  | .notFound => "No such file or directory (os error 2)"
  | .alreadyExists => "File exists (os error 17)"
  | .notADirectory => "Not a directory (os error 20)"
  | .isADirectory => "Is a directory (os error 21)"
  | .other text => text

/-- What every path leads to, from the working directory or from the root. -/
structure FileTree where
  entry : List Component → Option Entry
  here : entry [] = some .directory
  root : entry [.rootDir] = some .directory
  below : ∀ place c, entry (place ++ [c]) ≠ none → entry place = some .directory

inductive Call
  | mkdir
  | unlink
  deriving DecidableEq

/-- The calls that the system refuses for reasons of its own, such as rights or space. -/
abbrev Denials := Call → List Component → Option String

namespace FileTree

def file (t : FileTree) (place : List Component) : Option (List UInt8) :=
  match t.entry place with
  | some (.file bytes) => some bytes
  | _ => none

def blocked (t : FileTree) (place : List Component) : Bool :=
  place.dropLast.inits.any fun above ↦ (t.file above).isSome

def create (t : FileTree) (place : List Component) (made : Entry) (hfree : t.entry place = none)
    (hparent : t.entry place.dropLast = some .directory) : FileTree where
  entry := Function.update t.entry place (some made)
  here := by
    rw [Function.update_of_ne, t.here]
    rintro rfl
    cases hfree.symm.trans t.here
  root := by
    rw [Function.update_of_ne, t.root]
    rintro rfl
    cases hfree.symm.trans t.root
  below above c hc := by
    rcases eq_or_ne (above ++ [c]) place with rfl | hother
    · rw [List.dropLast_concat] at hparent
      rwa [Function.update_of_ne (by simp)]
    · rw [Function.update_of_ne hother] at hc
      have habove := t.below above c hc
      rw [Function.update_of_ne, habove]
      rintro rfl
      cases hfree.symm.trans habove

def remove (t : FileTree) (place : List Component) (bytes : List UInt8)
    (hfile : t.entry place = some (.file bytes)) : FileTree where
  entry := Function.update t.entry place none
  here := by
    rw [Function.update_of_ne, t.here]
    rintro rfl
    cases hfile.symm.trans t.here
  root := by
    rw [Function.update_of_ne, t.root]
    rintro rfl
    cases hfile.symm.trans t.root
  below above c hc := by
    have hold : t.entry (above ++ [c]) ≠ none := by
      intro hnone
      apply hc
      rcases eq_or_ne (above ++ [c]) place with rfl | hother
      · exact Function.update_self ..
      · rwa [Function.update_of_ne hother]
    have habove := t.below above c hold
    rw [Function.update_of_ne, habove]
    rintro rfl
    cases hfile.symm.trans habove

def mkdir (deny : Denials) (t : FileTree) (place : List Component) : Except IoError FileTree :=
  match deny .mkdir place with
  | some text => .error (.other text)
  | none =>
    match hfree : t.entry place with
    | some _ => .error .alreadyExists
    | none =>
      if hparent : t.entry place.dropLast = some .directory then
        .ok (t.create place .directory hfree hparent)
      else .error (if t.blocked place then .notADirectory else .notFound)

def isDir (t : FileTree) (place : List Component) : Bool := t.entry place == some .directory

def settle (t : FileTree) (place : List Component) (e : IoError) : Except IoError Unit :=
  if t.isDir place then .ok () else .error e

/-- The components are given from the last one to the first. -/
def makeDirs (deny : Denials) : List Component → FileTree → Except IoError Unit × FileTree
  | [], t => (.ok (), t)
  | c :: above, t =>
    match t.mkdir deny (c :: above).reverse with
    | .ok made => (.ok (), made)
    | .error .notFound =>
      if c = .rootDir then (.error (.other "failed to create whole tree"), t)
      else
        match makeDirs deny above t with
        | (.error e, made) => (.error e, made)
        | (.ok (), made) =>
          match made.mkdir deny (c :: above).reverse with
          | .ok last => (.ok (), last)
          | .error e => (made.settle (c :: above).reverse e, made)
    | .error e => (t.settle (c :: above).reverse e, t)

def createDirAll (deny : Denials) (t : FileTree) (place : List Component) :
    Except IoError Unit × FileTree :=
  makeDirs deny place.reverse t

def unlink (deny : Denials) (t : FileTree) (path : List Char) : Except IoError FileTree :=
  match deny .unlink (components path) with
  | some text => .error (.other text)
  | none =>
    match hentry : t.entry (components path) with
    | none => .error (if t.blocked (components path) then .notADirectory else .notFound)
    | some .directory => .error .isADirectory
    | some (.file bytes) =>
      if namesDirectory path then .error .notADirectory
      else .ok (t.remove (components path) bytes hentry)

/-- A regular file is not there for a path that can only mean a directory. -/
def pathExists (t : FileTree) (path : List Char) : Bool :=
  t.isDir (components path) || ((t.file (components path)).isSome && !namesDirectory path)

section Creation

variable {deny : Denials} {t t' t'' : FileTree} {place base : List Component}
  {P Q : List Component → Prop}

/-- The second tree is the first one with new directories. -/
def Creates (P : List Component → Prop) (t t' : FileTree) : Prop :=
  ∀ place, t'.entry place = t.entry place ∨
    t.entry place = none ∧ t'.entry place = some .directory ∧ P place

theorem Creates.refl (P : List Component → Prop) (t : FileTree) : Creates P t t :=
  fun _ ↦ .inl rfl

theorem Creates.trans (h : Creates P t t') (h' : Creates P t' t'') : Creates P t t'' := by
  intro place
  rcases h' place with heq | ⟨hfree, hmade, hP⟩
  · rw [heq]
    exact h place
  · rcases h place with heq | ⟨_, hmade', _⟩
    · exact .inr ⟨heq ▸ hfree, hmade, hP⟩
    · cases hfree.symm.trans hmade'

theorem Creates.mono (h : Creates P t t')
    (hPQ : ∀ place, t.entry place = none → P place → Q place) :
    Creates Q t t' := by
  intro place
  apply (h place).imp_right
  intro ⟨hfree, hmade, hP⟩
  exact ⟨hfree, hmade, hPQ place hfree hP⟩

theorem Creates.file_eq (h : Creates P t t') (place : List Component) :
    t'.file place = t.file place := by
  unfold file
  rcases h place with heq | ⟨hfree, hmade, _⟩
  · rw [heq]
  · rw [hfree, hmade]

theorem mkdir_creates {made : FileTree} (h : t.mkdir deny place = .ok made) (hP : P place) :
    Creates P t made := by
  unfold mkdir at h
  split at h
  · cases h
  split at h
  · cases h
  next hfree =>
  split_ifs at h with hparent
  cases h
  intro other
  rcases eq_or_ne other place with rfl | hne
  · exact .inr ⟨hfree, Function.update_self .., hP⟩
  · exact .inl (Function.update_of_ne hne ..)

theorem mkdir_of_entry (deny : Denials) (h : t.entry place ≠ none) :
    ∃ e, e ≠ .notFound ∧ t.mkdir deny place = .error e := by
  unfold mkdir
  split
  · exact ⟨_, IoError.noConfusion, rfl⟩
  split
  · exact ⟨_, IoError.noConfusion, rfl⟩
  · contradiction

/-- New directories are made on the way to the place, and nowhere else. -/
theorem makeDirs_creates (deny : Denials) (reversed : List Component) (t : FileTree) :
    Creates (· <+: reversed.reverse) t (makeDirs deny reversed t).2 := by
  induction reversed generalizing t with
  | nil => exact .refl _ t
  | cons c above ih =>
    have habove : above.reverse <+: (c :: above).reverse := by simp
    have hmade := (ih t).mono fun _ _ h ↦ h.trans habove
    unfold makeDirs
    split
    · next hok => exact mkdir_creates hok (List.prefix_rfl)
    · split_ifs
      · exact .refl _ t
      split
      · next heq => rwa [heq] at hmade
      · next heq =>
        rw [heq] at hmade
        split
        · next hok => exact hmade.trans (mkdir_creates hok List.prefix_rfl)
        · exact hmade
    · exact .refl _ t

theorem createDirAll_creates (deny : Denials) (t : FileTree) (place : List Component) :
    Creates (· <+: place) t (t.createDirAll deny place).2 := by
  have h := makeDirs_creates deny place.reverse t
  rwa [List.reverse_reverse] at h

theorem entry_of_prefix {above : List Component} (h : t.entry place ≠ none)
    (habove : above <+: place) : t.entry above ≠ none := by
  obtain ⟨rest, rfl⟩ := habove
  induction rest using List.reverseRecOn with
  | nil => rwa [List.append_nil] at h
  | append_singleton rest c ih =>
    apply ih
    rw [← List.append_assoc] at h
    rw [t.below _ c h]
    exact Option.some_ne_none _

theorem createDirAll_below (deny : Denials) {rest : List Component} (hbase : t.entry base ≠ none) :
    Creates (fun place ↦ base <+: place ∧ place ≠ base) t
      (t.createDirAll deny (base ++ rest)).2 := by
  apply (createDirAll_creates deny t (base ++ rest)).mono
  intro place hfree hplace
  have hnot : ¬ place <+: base := fun h ↦ entry_of_prefix hbase h hfree
  have hbelow := List.prefix_or_prefix_of_prefix hplace (List.prefix_append base rest)
  refine ⟨hbelow.resolve_left hnot, ?_⟩
  rintro rfl
  exact hnot List.prefix_rfl

theorem createDirAll_of_dir (deny : Denials) (h : t.entry place = some .directory) :
    t.createDirAll deny place = (.ok (), t) := by
  unfold createDirAll
  cases hreversed : place.reverse with
  | nil => rfl
  | cons c above =>
    have hplace : (c :: above).reverse = place := by rw [← hreversed, List.reverse_reverse]
    have hentry : t.entry place ≠ none := h ▸ Option.some_ne_none _
    obtain ⟨e, hkind, he⟩ := mkdir_of_entry deny hentry
    have hsettle : t.settle place e = .ok () := by simp [settle, isDir, h]
    unfold makeDirs
    rw [hplace, he]
    cases e with
    | notFound => contradiction
    | _ => exact congrArg (·, t) hsettle

end Creation

section Removal

variable {deny : Denials} {t : FileTree} {path : List Char} {place : List Component}

def Removable (deny : Denials) (t : FileTree) (path : List Char) : Prop :=
  deny .unlink (components path) = none ∧ t.file (components path) ≠ none ∧
    namesDirectory path = false

def Missing (deny : Denials) (t : FileTree) (path : List Char) : Prop :=
  deny .unlink (components path) = none ∧ t.entry (components path) = none ∧
    t.blocked (components path) = false

theorem unlink_cases (deny : Denials) (t : FileTree) (path : List Char) :
    (∃ bytes hfile, Removable deny t path ∧
        t.unlink deny path = .ok (t.remove (components path) bytes hfile)) ∨
      (Missing deny t path ∧ t.unlink deny path = .error .notFound) ∨
      ∃ e, ¬ Removable deny t path ∧ ¬ Missing deny t path ∧ e ≠ .notFound ∧
        t.unlink deny path = .error e := by
  unfold unlink
  split
  · next text hdeny =>
    exact .inr (.inr ⟨.other text, by simp [Removable, hdeny], by simp [Missing, hdeny],
      IoError.noConfusion, rfl⟩)
  next hdeny =>
  split
  · next hentry =>
    cases hblocked : t.blocked (components path) with
    | false => exact .inr (.inl ⟨⟨hdeny, hentry, hblocked⟩, rfl⟩)
    | true =>
      exact .inr (.inr ⟨.notADirectory, by simp [Removable, file, hentry],
        by simp [Missing, hblocked], IoError.noConfusion, rfl⟩)
  · next hentry =>
    exact .inr (.inr ⟨.isADirectory, by simp [Removable, file, hentry],
      by simp [Missing, hentry], IoError.noConfusion, rfl⟩)
  · next bytes hentry =>
    cases hnames : namesDirectory path with
    | false => exact .inl ⟨bytes, hentry, ⟨hdeny, by simp [file, hentry], hnames⟩, rfl⟩
    | true =>
      exact .inr (.inr ⟨.notADirectory, by simp [Removable, hnames], by simp [Missing, hentry],
        IoError.noConfusion, rfl⟩)

theorem file_remove_self {bytes : List UInt8} (hfile : t.entry place = some (.file bytes)) :
    (t.remove place bytes hfile).file place = none := by
  simp [file, remove]

theorem file_remove_of_ne {bytes : List UInt8} {other : List Component}
    (hfile : t.entry place = some (.file bytes)) (hne : other ≠ place) :
    (t.remove place bytes hfile).file other = t.file other := by
  simp [file, remove, hne]

theorem entry_of_file (h : t.file place ≠ none) : t.entry place ≠ none := by
  intro hentry
  simp [file, hentry] at h

theorem Missing.not_removable (h : Missing deny t path) : ¬ Removable deny t path := by
  intro hremovable
  exact entry_of_file hremovable.2.1 h.2.1

theorem remove_apart (deny : Denials) {bytes : List UInt8}
    (hfile : t.entry place = some (.file bytes)) (hapart : ¬ place <+: components path) :
    (Removable deny (t.remove place bytes hfile) path ↔ Removable deny t path) ∧
      (Missing deny (t.remove place bytes hfile) path ↔ Missing deny t path) := by
  have hne (above : List Component) (habove : above <+: components path) : above ≠ place := by
    rintro rfl
    exact hapart habove
  have hself := hne _ List.prefix_rfl
  have hentry : (t.remove place bytes hfile).entry (components path) =
      t.entry (components path) := Function.update_of_ne hself ..
  have hblocked : (t.remove place bytes hfile).blocked (components path) =
      t.blocked (components path) := by
    unfold blocked
    rw [Bool.eq_iff_iff, List.any_eq_true, List.any_eq_true]
    apply exists_congr
    intro above
    apply and_congr_right
    intro habove
    have hbegins := ((List.mem_inits _ _).mp habove).trans (List.dropLast_prefix _)
    rw [file_remove_of_ne hfile (hne above hbegins)]
  constructor
  · rw [Removable, Removable, file_remove_of_ne hfile hself]
  · rw [Missing, Missing, hentry, hblocked]

theorem Creates.removable {P : List Component → Prop} {t' : FileTree} (h : Creates P t t') :
    Removable deny t' path → Removable deny t path := by
  intro ⟨hdeny, hfile, hnames⟩
  rw [h.file_eq] at hfile
  exact ⟨hdeny, hfile, hnames⟩

theorem Creates.missing {P : List Component → Prop} {t' : FileTree} (h : Creates P t t') :
    Missing deny t' path → Missing deny t path := by
  intro ⟨hdeny, hentry, hblocked⟩
  refine ⟨hdeny, ?_, ?_⟩
  · rcases h (components path) with heq | ⟨hfree, -⟩
    · rwa [heq] at hentry
    · exact hfree
  · simpa only [blocked, h.file_eq] using hblocked

end Removal

end FileTree

end RsqliteRsync.Foundation
