import RsqliteRsync.Foundation.FileTree
import Mathlib.Data.List.Nodup
import Mathlib.Data.List.Flatten

namespace RsqliteRsync.Foundation

open UnixPath

def IsFileName (name : List Char) : Prop :=
  '/' ∉ name ∧ name ≠ [] ∧ name ≠ ['.'] ∧ name ≠ ['.', '.']

/-- Where names lead to from a place. -/
def under (place : List Component) (rel : List (List Char)) : List Component :=
  place ++ rel.map .normal

theorem under_nil (place : List Component) : under place [] = place := List.append_nil place

theorem under_cons (place : List Component) (name : List Char) (rel : List (List Char)) :
    under place (name :: rel) = under (under place [name]) rel := by
  simp [under]

theorem under_append (place : List Component) (rel more : List (List Char)) :
    under place (rel ++ more) = under (under place rel) more := by
  simp [under]

theorem under_inj {place : List Component} {rel rel' : List (List Char)} :
    under place rel = under place rel' ↔ rel = rel' := by
  unfold under
  rw [List.append_cancel_left_eq]
  exact List.map_inj_right fun _ _ h ↦ Component.normal.inj h

/-- What the system lists for the directories of a tree, every name once. No names lead deeper than
`depth`. -/
structure Directory (t : FileTree) where
  names : List Component → List (List Char)
  nodup : ∀ place, (names place).Nodup
  mem_names : ∀ place name, name ∈ names place ↔ t.entry (under place [name]) ≠ none
  isFileName : ∀ place, ∀ name ∈ names place, IsFileName name
  depth : ℕ
  bounded : ∀ place rel, t.entry (under place rel) ≠ none → rel.length ≤ depth

namespace Directory

variable {t : FileTree} (d : Directory t)

/-- The regular files below a place, as the names that lead to them. -/
def files : ℕ → List Component → List (List (List Char))
  | 0, _ => []
  | fuel + 1, place => (d.names place).flatMap fun name ↦
      if t.isDir (under place [name]) then (files fuel (under place [name])).map (name :: ·)
      else if (t.file (under place [name])).isSome then [[name]] else []

variable {d} {place : List Component} {rel : List (List Char)} {fuel : ℕ}

theorem not_isDir_of_file (h : t.file place ≠ none) : t.isDir place = false := by
  cases hentry : t.entry place with
  | none => exact absurd hentry (FileTree.entry_of_file h)
  | some entry =>
    cases entry with
    | file bytes => simp [FileTree.isDir, hentry]
    | directory => simp [FileTree.file, hentry] at h

theorem isDir_of_below {name : List Char} (h : t.entry (under place (name :: rel)) ≠ none) :
    t.isDir place = true := by
  rw [under_cons] at h
  have habove := t.entry_of_prefix h (List.prefix_append _ _)
  rw [FileTree.isDir, t.below place (.normal name) habove]
  rfl

/-- Nothing is below a regular file. -/
theorem eq_nil_of_file (hfile : t.file place ≠ none) (h : t.entry (under place rel) ≠ none) :
    rel = [] := by
  cases rel with
  | nil => rfl
  | cons name rel => cases (not_isDir_of_file hfile).symm.trans (isDir_of_below h)

theorem isFileName_of_entry (d : Directory t) (h : t.entry (under place rel) ≠ none) :
    ∀ name ∈ rel, IsFileName name := by
  induction rel generalizing place with
  | nil => exact fun name hname ↦ absurd hname List.not_mem_nil
  | cons name rel ih =>
    rw [under_cons] at h
    have hthere := t.entry_of_prefix h (List.prefix_append _ _)
    exact List.forall_mem_cons.mpr
      ⟨d.isFileName place name ((d.mem_names place name).mpr hthere), ih h⟩

theorem mem_files (h : ∀ rel, t.entry (under place rel) ≠ none → rel.length < fuel) :
    rel ∈ d.files fuel place ↔ rel ≠ [] ∧ t.file (under place rel) ≠ none := by
  induction fuel generalizing place rel with
  | zero =>
    refine iff_of_false List.not_mem_nil fun hrel ↦ ?_
    exact absurd (h rel (FileTree.entry_of_file hrel.2)) (Nat.not_lt_zero _)
  | succ fuel ih =>
    have hbelow (name : List Char) (more : List (List Char))
        (hmore : t.entry (under (under place [name]) more) ≠ none) : more.length < fuel := by
      rw [← under_cons] at hmore
      exact Nat.lt_of_succ_lt_succ (h _ hmore)
    rw [files, List.mem_flatMap]
    constructor
    · rintro ⟨name, -, hrel⟩
      split_ifs at hrel with hdir hfile
      · obtain ⟨more, hmore, rfl⟩ := List.mem_map.mp hrel
        rw [ih (hbelow name)] at hmore
        exact ⟨List.cons_ne_nil _ _, under_cons place name more ▸ hmore.2⟩
      · rw [List.mem_singleton.mp hrel]
        exact ⟨List.cons_ne_nil _ _, Option.isSome_iff_ne_none.mp hfile⟩
      · cases hrel
    · rintro ⟨hne, hfile⟩
      obtain ⟨name, more, rfl⟩ := List.exists_cons_of_ne_nil hne
      rw [under_cons] at hfile
      have hthere : t.entry (under place [name]) ≠ none :=
        t.entry_of_prefix (FileTree.entry_of_file hfile) (List.prefix_append _ _)
      refine ⟨name, (d.mem_names place name).mpr hthere, ?_⟩
      split_ifs with hdir hregular
      · refine List.mem_map.mpr ⟨more, (ih (hbelow name)).mpr ⟨?_, hfile⟩, rfl⟩
        rintro rfl
        rw [under_nil] at hfile
        rw [not_isDir_of_file hfile] at hdir
        cases hdir
      · rw [eq_nil_of_file (Option.isSome_iff_ne_none.mp hregular) (FileTree.entry_of_file hfile)]
        exact List.mem_singleton_self _
      · refine absurd ?_ hthere
        cases hentry : t.entry (under place [name]) with
        | none => rfl
        | some entry =>
          cases entry <;> simp [FileTree.isDir, FileTree.file, hentry] at hdir hregular

theorem nodup_files (fuel : ℕ) (place : List Component) : (d.files fuel place).Nodup := by
  induction fuel generalizing place with
  | zero => exact List.nodup_nil
  | succ fuel ih =>
    have hhead (name : List Char) (rel : List (List Char))
        (hrel : rel ∈ if t.isDir (under place [name]) then
            (d.files fuel (under place [name])).map (name :: ·)
          else if (t.file (under place [name])).isSome then [[name]] else []) :
        rel.head? = some name := by
      split_ifs at hrel
      · obtain ⟨more, -, rfl⟩ := List.mem_map.mp hrel
        rfl
      · rw [List.mem_singleton.mp hrel]
        rfl
      · cases hrel
    rw [files, List.nodup_flatMap]
    refine ⟨fun name _ ↦ ?_, (d.nodup place).imp fun hne ↦ ?_⟩
    · split_ifs
      · exact (ih _).map List.cons_injective
      · exact List.nodup_singleton _
      · exact List.nodup_nil
    · intro rel hrel hrel'
      exact hne (Option.some.inj ((hhead _ rel hrel).symm.trans (hhead _ rel hrel')))

theorem mem_files_depth :
    rel ∈ d.files (d.depth + 1) place ↔ rel ≠ [] ∧ t.file (under place rel) ≠ none :=
  mem_files fun rel hrel ↦ Nat.lt_succ_of_le (d.bounded place rel hrel)

/-- The second tree is the first one without some regular files. -/
def Loses (t t' : FileTree) : Prop :=
  ∀ place, t'.entry place = t.entry place ∨ t.file place ≠ none ∧ t'.entry place = none

variable {t' t'' : FileTree}

theorem Loses.trans (h : Loses t t') (h' : Loses t' t'') : Loses t t'' := by
  intro place
  rcases h place with heq | ⟨hfile, hgone⟩
  · have hsame : t'.file place = t.file place := by rw [FileTree.file, FileTree.file, heq]
    rw [← heq, ← hsame]
    exact h' place
  · exact .inr ⟨hfile, (h' place).elim (fun heq ↦ heq.trans hgone) And.right⟩

theorem Loses.isDir_eq (h : Loses t t') (place : List Component) :
    t'.isDir place = t.isDir place := by
  rcases h place with heq | ⟨hfile, hgone⟩
  · rw [FileTree.isDir, FileTree.isDir, heq]
  · rw [not_isDir_of_file hfile, FileTree.isDir, hgone]
    rfl

theorem Loses.entry_eq (h : Loses t t') (hthere : t'.entry place ≠ none) :
    t'.entry place = t.entry place :=
  (h place).resolve_right fun hgone ↦ hthere hgone.2

theorem Loses.file_eq (h : Loses t t') (hthere : t'.file place ≠ none) :
    t'.file place = t.file place := by
  rw [FileTree.file, FileTree.file, h.entry_eq (FileTree.entry_of_file hthere)]

/-- What the system lists once some files are gone. -/
def without (d : Directory t) (h : Loses t t') : Directory t' where
  names place := (d.names place).filter fun name ↦ (t'.entry (under place [name])).isSome
  nodup place := (d.nodup place).filter _
  mem_names place name := by
    rw [List.mem_filter, d.mem_names, Option.isSome_iff_ne_none]
    exact ⟨And.right, fun hthere ↦ ⟨h.entry_eq hthere ▸ hthere, hthere⟩⟩
  isFileName place name hname := d.isFileName place name (List.mem_of_mem_filter hname)
  depth := d.depth
  bounded place rel hthere := d.bounded place rel (h.entry_eq hthere ▸ hthere)

end Directory

end RsqliteRsync.Foundation
