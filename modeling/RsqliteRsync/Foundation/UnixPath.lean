import Mathlib.Data.List.Basic

namespace RsqliteRsync.Foundation.UnixPath

inductive Component
  | rootDir
  | curDir
  | parentDir
  | normal (name : List Char)
  deriving DecidableEq

def Component.isNormal : Component → Bool
  | .normal _ => true
  | _ => false

/-- A segment that is not the first one. -/
def ofSegment : List Char → Option Component
  | [] => none
  | ['.'] => none
  | ['.', '.'] => some .parentDir
  | name => some (.normal name)

def segments (path : List Char) : List (List Char) := path.splitOn '/'

def leading (first : List Char) (alone : Bool) : List Component :=
  if first = [] then if alone then [] else [.rootDir]
  else if first = ['.'] then [.curDir]
  else (ofSegment first).toList

/-- The components of a path. Empty segments and those that are `.` are dropped, except for a
leading one. -/
def components (path : List Char) : List Component :=
  match segments path with
  | [] => []
  | first :: more => leading first more.isEmpty ++ more.filterMap ofSegment

def isAbsolute (path : List Char) : Bool := path.head? == some '/'

/-- A path is put after another one, unless it is absolute. -/
def join (base path : List Char) : List Char :=
  if isAbsolute path then path
  else if base = [] ∨ base.getLast? = some '/' then base ++ path
  else base ++ '/' :: path

/-- The last segment is empty or `.`, so that only a directory can be meant. -/
def namesDirectory (path : List Char) : Bool :=
  match (segments path).getLast? with
  | some [] | some ['.'] => true
  | _ => false

/-- The components without the last one. -/
def parent (place : List Component) : Option (List Component) :=
  match place.getLast? with
  | none | some .rootDir => none
  | some _ => some place.dropLast

section Segments

theorem segments_append (before after : List Char) :
    segments (before ++ '/' :: after) = segments before ++ segments after :=
  List.splitOn_append_cons_self before after

theorem segments_eq_singleton {last : List Char} (h : '/' ∉ last) : segments last = [last] :=
  List.splitOn_eq_singleton h

theorem segments_ne_nil (path : List Char) : segments path ≠ [] := List.splitOn_ne_nil '/' path

theorem eq_nil_of_segments {path : List Char} (h : segments path = [[]]) : path = [] := by
  have hpath : ['/'].intercalate (segments path) = path := List.intercalate_splitOn '/'
  rw [← hpath, h]
  rfl

/-- Empty, or up to a separator. -/
def IsStem (stem : List Char) : Prop := stem = [] ∨ ∃ before, stem = before ++ ['/']

/-- The last segment is what comes after the last separator. -/
theorem exists_stem (path : List Char) :
    ∃ stem last, IsStem stem ∧ '/' ∉ last ∧ path = stem ++ last := by
  induction path with
  | nil => exact ⟨[], [], .inl rfl, by simp, rfl⟩
  | cons c path ih =>
    obtain ⟨stem, last, hstem, hlast, rfl⟩ := ih
    rcases hstem with rfl | ⟨before, rfl⟩
    · by_cases hc : c = '/'
      · exact ⟨[c], last, .inr ⟨[], by rw [hc]; rfl⟩, hlast, rfl⟩
      · exact ⟨[], c :: last, .inl rfl, by simp [hlast, Ne.symm hc], rfl⟩
    · exact ⟨c :: (before ++ ['/']), last, .inr ⟨c :: before, rfl⟩, hlast, rfl⟩

theorem getLast?_segments {stem last : List Char} (hstem : IsStem stem) (hlast : '/' ∉ last) :
    (segments (stem ++ last)).getLast? = some last := by
  rcases hstem with rfl | ⟨before, rfl⟩
  · rw [List.nil_append, segments_eq_singleton hlast]
    rfl
  · rw [List.append_assoc, List.singleton_append, segments_append, segments_eq_singleton hlast,
      List.getLast?_concat]

theorem ofSegment_normal {name found : List Char} (h : ofSegment name = some (.normal found)) :
    found = name ∧ name ≠ [] ∧ name ≠ ['.'] ∧ name ≠ ['.', '.'] := by
  unfold ofSegment at h
  split at h <;> simp_all

theorem ofSegment_of_ne {name : List Char} (h₀ : name ≠ []) (h₁ : name ≠ ['.'])
    (h₂ : name ≠ ['.', '.']) : ofSegment name = some (.normal name) := by
  unfold ofSegment
  split <;> simp_all

end Segments

section Join

variable {base path : List Char}

theorem isEmpty_append_segments (more : List (List Char)) (path : List Char) :
    (more ++ segments path).isEmpty = false := by
  simp [segments_ne_nil]

theorem components_concat_slash {first : List Char} {more : List (List Char)}
    (h : segments path = first :: more) :
    components (path ++ ['/']) = leading first false ++ more.filterMap ofSegment := by
  have hslash : segments (path ++ ['/']) = segments path ++ segments [] := segments_append path []
  have hnone : (segments []).filterMap ofSegment = [] := rfl
  unfold components
  rw [hslash, h]
  simp only [List.cons_append, isEmpty_append_segments, List.filterMap_append, hnone,
    List.append_nil]

theorem components_append (before after : List Char) :
    components (before ++ '/' :: after) =
      components (before ++ ['/']) ++ (segments after).filterMap ofSegment := by
  obtain ⟨first, more, hbefore⟩ := List.exists_cons_of_ne_nil (segments_ne_nil before)
  rw [components_concat_slash hbefore, components, segments_append, hbefore]
  simp only [List.cons_append, isEmpty_append_segments, List.filterMap_append, List.append_assoc]

theorem components_slash (h : base ≠ []) : components (base ++ ['/']) = components base := by
  obtain ⟨first, more, hbase⟩ := List.exists_cons_of_ne_nil (segments_ne_nil base)
  have halone : leading first more.isEmpty = leading first false := by
    cases more with
    | cons second more => rfl
    | nil =>
      have hfirst : first ≠ [] := by
        intro hnil
        rw [hnil] at hbase
        exact h (eq_nil_of_segments hbase)
      simp [leading, hfirst]
  rw [components_concat_slash hbase, components, hbase]
  simp only [halone]

/-- A path whose components are all normal ones. -/
def Plain (path : List Char) : Prop :=
  path ≠ [] ∧ ∀ c ∈ components path, c.isNormal = true

theorem Plain.first_ne (h : Plain path) {first : List Char} {more : List (List Char)}
    (hpath : segments path = first :: more) : first ≠ [] ∧ first ≠ ['.'] := by
  obtain ⟨hne, hnormal⟩ := h
  rw [components, hpath] at hnormal
  constructor
  · intro hfirst
    cases more with
    | nil =>
      rw [hfirst] at hpath
      exact hne (eq_nil_of_segments hpath)
    | cons second more =>
      have hroot := hnormal .rootDir (by simp [leading, hfirst])
      cases hroot
  · intro hfirst
    have hcur := hnormal .curDir (by simp [leading, hfirst])
    cases hcur

theorem Plain.not_isAbsolute (h : Plain path) : isAbsolute path = false := by
  cases path with
  | nil => rfl
  | cons c path =>
    rw [isAbsolute, List.head?_cons, Option.some_beq_some, beq_eq_false_iff_ne]
    intro hslash
    rw [hslash] at h
    have hroot : segments ('/' :: path) = segments [] ++ segments path := segments_append [] path
    exact (h.first_ne hroot).1 rfl

theorem Plain.components_eq (h : Plain path) :
    components path = (segments path).filterMap ofSegment ∧ components path ≠ [] := by
  obtain ⟨first, more, hpath⟩ := List.exists_cons_of_ne_nil (segments_ne_nil path)
  obtain ⟨hempty, hdot⟩ := h.first_ne hpath
  have hcomponents : components path = (ofSegment first).toList ++ more.filterMap ofSegment := by
    rw [components, hpath]
    simp [leading, hempty, hdot]
  constructor
  · rw [hcomponents, hpath]
    cases h : ofSegment first <;> simp [h]
  · rw [hcomponents]
    by_cases hparent : first = ['.', '.']
    · rw [hparent]
      exact List.cons_ne_nil _ _
    · rw [ofSegment_of_ne hempty hdot hparent]
      exact List.cons_ne_nil _ _

theorem components_join (h : Plain path) :
    components (join base path) = components base ++ components path := by
  obtain ⟨hsegments, -⟩ := h.components_eq
  unfold join
  rw [if_neg (by simp [h.not_isAbsolute]), hsegments]
  split_ifs with hbase
  · rcases hbase with rfl | hslash
    · exact hsegments
    · obtain ⟨before, rfl⟩ : ∃ before, base = before ++ ['/'] :=
        ⟨base.dropLast, (List.dropLast_append_getLast? _ hslash).symm⟩
      rw [List.append_assoc, List.singleton_append, components_append]
  · rw [components_append, components_slash fun h ↦ hbase (.inl h)]

theorem Plain.exists_name (h : Plain path) {c : Component} (hc : c ∈ components path) :
    ∃ name, c = .normal name ∧ name ≠ ['.'] ∧ name ≠ ['.', '.'] := by
  have hnormal := h.2 c hc
  rw [h.components_eq.1, List.mem_filterMap] at hc
  obtain ⟨segment, -, hsegment⟩ := hc
  cases c with
  | normal name =>
    obtain ⟨rfl, -, hdot, hparent⟩ := ofSegment_normal hsegment
    exact ⟨name, rfl, hdot, hparent⟩
  | _ => cases hnormal

theorem getLast?_components_join (base : List Char) (h : Plain path) :
    ∃ name, (components (join base path)).getLast? = some (.normal name) := by
  obtain ⟨-, hne⟩ := h.components_eq
  obtain ⟨name, hname, -⟩ := h.exists_name (List.getLast_mem hne)
  refine ⟨name, ?_⟩
  rw [components_join h, List.getLast?_append_of_ne_nil _ hne, List.getLast?_eq_some_getLast hne,
    hname]

theorem parent_join (h : Plain path) :
    parent (components (join base path)) = some (components (join base path)).dropLast := by
  obtain ⟨name, hlast⟩ := getLast?_components_join base h
  rw [parent, hlast]

theorem components_last {stem last : List Char} (hstem : IsStem stem) (hlast : '/' ∉ last)
    (hempty : last ≠ []) (hdot : last ≠ ['.']) :
    components (stem ++ last) = components stem ++ (ofSegment last).toList := by
  rcases hstem with rfl | ⟨before, rfl⟩
  · rw [List.nil_append, components, segments_eq_singleton hlast]
    simp [leading, hempty, hdot, components, segments]
  · rw [List.append_assoc, List.singleton_append, components_append, segments_eq_singleton hlast]
    cases hsegment : ofSegment last <;> simp [hsegment]

/-- What is put at the end of a path goes to its last segment, which then is a name. -/
theorem components_suffix {stem last suffix : List Char} (hstem : IsStem stem)
    (hlast : '/' ∉ last) (hslash : '/' ∉ suffix) (hdash : '-' ∈ suffix) :
    components (stem ++ last ++ suffix) = components stem ++ [.normal (last ++ suffix)] := by
  have hnot (dots : List Char) (hdots : '-' ∉ dots) : last ++ suffix ≠ dots := by
    intro heq
    apply hdots
    rw [← heq]
    exact List.mem_append_right _ hdash
  have hempty := hnot [] (by decide)
  have hdot := hnot ['.'] (by decide)
  rw [List.append_assoc, components_last hstem (by simp [hlast, hslash]) hempty hdot,
    ofSegment_of_ne hempty hdot (hnot _ (by decide))]
  rfl

theorem components_directory {stem last : List Char} (hstem : IsStem stem) (hne : stem ≠ [])
    (hlast : '/' ∉ last) (hdirectory : namesDirectory (stem ++ last) = true) :
    components (stem ++ last) = components stem := by
  obtain ⟨before, rfl⟩ := hstem.resolve_left hne
  have hnone : ofSegment last = none := by
    rw [namesDirectory, getLast?_segments hstem hlast] at hdirectory
    split at hdirectory <;> simp_all [ofSegment]
  rw [List.append_assoc, List.singleton_append, components_append, segments_eq_singleton hlast,
    List.filterMap_cons_none hnone, List.filterMap_nil, List.append_nil]

end Join

end RsqliteRsync.Foundation.UnixPath
