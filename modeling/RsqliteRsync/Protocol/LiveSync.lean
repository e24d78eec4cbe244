import RsqliteRsync.Db.Snapshot
import RsqliteRsync.Protocol.Acknowledged

namespace RsqliteRsync.Protocol

open Foundation.Process Foundation.Schedule Db Session

/-- The origin takes its snapshot, or both sides run with it. Meanwhile others write to the
database. -/
inductive LiveSync
  | opening (p : SqliteHandler Capture) (db : LiveDb)
  | syncing (x : State Disk) (db : LiveDb)

namespace LiveSync

variable {lib : Crates} {conn : Connection} {tO tR : SyncTuning} {r : Image}

variable (lib conn tO tR r) in
inductive Step : LiveSync → LiveSync → Prop
  | opening {p p' : SqliteHandler Capture} {db db' : LiveDb} :
      LiveDb.LiveStep (p, db) (p', db') → Step (.opening p db) (.opening p' db')
  | opened (o : Snapshot) (db : LiveDb) :
      Step (.opening (.ret o.capture) db) (.syncing (start lib o conn tO tR r.disk) db)
  | session {x y : State Disk} {db : LiveDb} :
      Breaking conn.pageSize x y → Step (.syncing x db) (.syncing y db)
  | commit {x : State Disk} {db db' : LiveDb} :
      LiveDb.Commits db db' → Step (.syncing x db) (.syncing x db')

def call (img : Image) : LiveSync := .opening openSnapshot ⟨[], img, false, none⟩

variable (lib conn tO tR r) in
/-- A session runs with what could be read of one of the states that the origin has been in since
the call. -/
def Follows (first : Image) : LiveSync → Prop
  | .opening p db => Reaches LiveDb.LiveStep (openSnapshot, ⟨[], first, false, none⟩) (p, db)
  | .syncing x db => ∃ img ∈ db.states, ∃ o, img.SerializesTo o ∧
      Reaches (Breaking conn.pageSize) (start lib o conn tO tR r.disk) x

theorem sound_first (first : Image) :
    LiveDb.Sound first.pageSize ⟨[], first, false, none⟩ := by
  refine ⟨fun img himg ↦ ?_, fun img himg ↦ by cases himg⟩
  rw [List.mem_singleton.mp himg]

theorem capture_injective {img img' : Image} (h : img.capture = img'.capture) : img = img' := by
  cases img
  cases img'
  cases h
  rfl

theorem Follows.step {first : Image} {s s' : LiveSync} (h : Follows lib conn tO tR r first s)
    (hstep : Step lib conn tO tR r s s') : Follows lib conn tO tR r first s' := by
  cases hstep with
  | opening hlive => exact Reaches.tail h hlive
  | opened o db =>
    obtain ⟨img, himg, copy, hcopy, hcapture⟩ := openSnapshot_of_run (sound_first first) h
    obtain rfl := capture_injective hcapture
    exact ⟨img, himg, o, hcopy, .refl _⟩
  | session hbreaks =>
    obtain ⟨img, himg, o, hcopy, hrun⟩ := h
    exact ⟨img, himg, o, hcopy, hrun.tail hbreaks⟩
  | commit hcommits =>
    obtain ⟨img, himg, o, hcopy, hrun⟩ := h
    exact ⟨img, hcommits.states himg, o, hcopy, hrun⟩

section Sample

theorem opening_ones :
    Reaches (Step tabulated ⟨512, true⟩ {} {} oneBlank) (call oneBlank)
      (.opening (.ret onesImage.capture) ⟨[oneBlank], onesImage, true, some onesImage⟩) := by
  refine .head (.opening (.call (.openV2 _ (.ok ())))) ?_
  refine .head (.opening (.call (.busyTimeout _ (.ok ())))) ?_
  refine .head (.opening (.call (.prepare _ .pageSize (.ok ())))) ?_
  refine .head (.opening (.call (.row _ .pageSize))) ?_
  refine .head (.opening (.call (.openFile _ (.ok ())))) ?_
  refine .head (.opening (.other ⟨onesImage, rfl, rfl⟩)) ?_
  refine .head (.opening (.call (.begun _))) ?_
  refine .head (.opening (.call (.prepare _ .pageCount (.ok ())))) ?_
  refine .head (.opening (.call (.row _ .pageCount))) ?_
  refine .head (.opening (.call (.serialized (.refl _)))) ?_
  exact .refl _

theorem tabulated_of_serializesTo {img o : Image} (hcount : img.pageCount = 1)
    (hsize : img.pageSize = 512) (hpage : img.page 1 ∈ knownPages) (h : img.SerializesTo o) :
    Tabulated o := by
  have hone : o.pageCount = 1 := h.pageCount.trans hcount
  have hknown : o.page 1 ∈ knownPages := by
    rcases h.pages 1 Nat.one_pos hcount.ge with hsame | hzero
    · exact hsame ▸ hpage
    · rw [hzero, hsize]
      exact List.mem_cons_self
  refine ⟨fun p hp hle ↦ ?_, fun g hg ↦ ?_⟩
  · obtain rfl : p = 1 := le_antisymm (hone ▸ hle) hp
    exact hknown
  · rw [hone] at hg
    obtain rfl : g = 0 := Nat.lt_one_iff.mp hg
    have hinput : groupInput tabulated .blake3V2 o 0 = [blake3Table (o.page 1)] := by
      rw [groupInput, hone]
      rfl
    rw [hinput]
    revert hknown
    generalize o.page 1 = page
    simp only [knownPages, List.mem_cons, List.not_mem_nil, or_false]
    rintro (rfl | rfl) <;> decide +kernel

end Sample

end LiveSync

end RsqliteRsync.Protocol
