import RsqliteRsync.Foundation.FileTree
import RsqliteRsync.Gateway.Status
import RsqliteRsync.Protocol.Messages

namespace RsqliteRsync.Gateway

open Protocol Foundation Foundation.UnixPath

namespace DatabaseEngine

/-- The path, once the directories for it are there. -/
def inDirectories (path : List Char) :
    Except IoError Unit × FileTree → Except SyncError (List Char) × FileTree
  | (.ok (), t) => (.ok path, t)
  | (.error e, t) => (.error (.io e.text), t)

@[simp] theorem inDirectories_tree (path : List Char) (made : Except IoError Unit × FileTree) :
    (inDirectories path made).2 = made.2 := by
  unfold inDirectories
  split <;> rfl

def resolveDbPath (dataDir : List Char) (deny : Denials) (t : FileTree) (dbName : String) :
    Except SyncError (List Char) × FileTree :=
  let trimmed := (trim dbName).toList
  if trimmed = [] then (.error (.protocol "database name cannot be empty"), t)
  else if (components trimmed).all Component.isNormal then
    match parent (components (join dataDir trimmed)) with
    | some place => inDirectories (join dataDir trimmed) (t.createDirAll deny place)
    | none => (.ok (join dataDir trimmed), t)
  else
    (.error (.protocol s!"invalid database name '{trim dbName}': path traversal not permitted"), t)

variable {dataDir : List Char} {deny : Denials} {t : FileTree} {dbName : String}

def dbPath (dataDir : List Char) (dbName : String) : List Char := join dataDir (trim dbName).toList

variable (dataDir) in
theorem components_dbPath (h : Plain (trim dbName).toList) :
    components (dbPath dataDir dbName) = components dataDir ++ components (trim dbName).toList :=
  components_join h

variable (dataDir deny t) in
theorem resolveDbPath_of_plain (h : Plain (trim dbName).toList) :
    resolveDbPath dataDir deny t dbName = inDirectories (dbPath dataDir dbName)
      (t.createDirAll deny (components (dbPath dataDir dbName)).dropLast) := by
  have hall : (components (trim dbName).toList).all Component.isNormal = true :=
    List.all_eq_true.mpr h.2
  unfold resolveDbPath
  rw [if_neg h.1, if_pos hall, parent_join h]
  rfl

variable (dataDir deny t) in
theorem resolveDbPath_of_not_plain (h : ¬ Plain (trim dbName).toList) :
    ∃ text, resolveDbPath dataDir deny t dbName = (.error (.protocol text), t) := by
  simp only [resolveDbPath]
  split_ifs with hempty hall
  · exact ⟨_, rfl⟩
  · exact absurd ⟨hempty, List.all_eq_true.mp hall⟩ h
  · exact ⟨_, rfl⟩

/-- The name is accepted, and the path is what it stands for. -/
def Resolves (dataDir : List Char) (dbName : String) (path : List Char) : Prop :=
  ∃ deny t, (resolveDbPath dataDir deny t dbName).1 = .ok path

theorem Resolves.plain {path : List Char} (h : Resolves dataDir dbName path) :
    Plain (trim dbName).toList ∧ path = dbPath dataDir dbName := by
  obtain ⟨deny, t, h⟩ := h
  by_cases hplain : Plain (trim dbName).toList
  · refine ⟨hplain, ?_⟩
    rw [resolveDbPath_of_plain dataDir deny t hplain] at h
    unfold inDirectories at h
    split at h
    · exact (Except.ok.inj h).symm
    · cases h
  · obtain ⟨text, hrefused⟩ := resolveDbPath_of_not_plain dataDir deny t hplain
    rw [hrefused] at h
    cases h

/-- Every name is refused with nothing touched, or stands for a path below the data directory:
the answer is that path if the directories for it can be made, and no directory is made
elsewhere. -/
theorem resolveDbPath_contained (dataDir : List Char) (deny : Denials) (t : FileTree)
    (dbName : String) :
    (∃ text, resolveDbPath dataDir deny t dbName = (.error (.protocol text), t)) ∨
      ∃ path below, components path = components dataDir ++ below ∧ below ≠ [] ∧
        (∀ c ∈ below, ∃ name, c = .normal name ∧ name ≠ ['.'] ∧ name ≠ ['.', '.']) ∧
        resolveDbPath dataDir deny t dbName =
          inDirectories path (t.createDirAll deny (components path).dropLast) ∧
        (t.entry (components dataDir) = some .directory →
          t.Creates (fun place ↦ components dataDir <+: place ∧ place ≠ components dataDir)
            (resolveDbPath dataDir deny t dbName).2) := by
  by_cases hplain : Plain (trim dbName).toList
  · right
    obtain ⟨-, hne⟩ := hplain.components_eq
    have hpath := components_dbPath dataDir hplain
    have hresolve := resolveDbPath_of_plain dataDir deny t hplain
    refine ⟨_, _, hpath, hne, fun c hc ↦ hplain.exists_name hc, hresolve, fun hdir ↦ ?_⟩
    rw [hresolve, inDirectories_tree, hpath, List.dropLast_append_of_ne_nil hne]
    apply FileTree.createDirAll_below
    rw [hdir]
    exact Option.some_ne_none _
  · exact .inl (resolveDbPath_of_not_plain dataDir deny t hplain)

section Sample

/-- Nothing but where paths start. -/
def bareTree : FileTree where
  entry place := if place = [] ∨ place = [.rootDir] then some .directory else none
  here := rfl
  root := rfl
  below place c h := by
    cases place with
    | nil => rfl
    | cons d place => simp at h

def dataTree : FileTree := bareTree.create [.normal "data".toList] .directory rfl rfl

def allowAll : Denials := fun _ _ ↦ none

end Sample

theorem resolveDbPath_contained_nested :
    dataTree.entry (components "data".toList) = some .directory ∧
      (resolveDbPath "data".toList allowAll dataTree " tenants/./app.db").1 =
        .ok "data/tenants/./app.db".toList ∧
      dataTree.Creates (fun place ↦ components "data".toList <+: place ∧
          place ≠ components "data".toList)
        (resolveDbPath "data".toList allowAll dataTree " tenants/./app.db").2 := by
  have hdir : dataTree.entry (components "data".toList) = some .directory := by decide
  have hpath : (resolveDbPath "data".toList allowAll dataTree " tenants/./app.db").1 =
      .ok "data/tenants/./app.db".toList := by rfl
  rcases resolveDbPath_contained "data".toList allowAll dataTree " tenants/./app.db" with
    ⟨text, h⟩ | ⟨_, _, _, _, _, _, h⟩
  · rw [h] at hpath
    cases hpath
  · exact ⟨hdir, hpath, h hdir⟩

end DatabaseEngine

end RsqliteRsync.Gateway
