import RsqliteRsync.Foundation.Wire
import RsqliteRsync.Protocol.Turns
import RsqliteRsync.Transport.Grpc

namespace RsqliteRsync.Transport

open Protocol Protocol.Session Foundation.Process Foundation.Schedule Foundation.Wire
open Foundation.Stream Db

variable {lib : Crates} {o r : Image} {conn : Connection} {tO tR : SyncTuning}

section Wired

abbrev WiredState (B : Type) :=
  Link Message B SyncError (Empty.elim : Empty → Type) ConnOp.Reply Stop Unit Unit Unit Disk

def wired (B : Type) (lib : Crates) (o : Snapshot) (conn : Connection) (tO tR : SyncTuning)
    (d : Disk) : WiredState B :=
  opened (Origin.runWithTuning lib o tO) (Replica.runWithTuning lib conn tR) () d

abbrev WireMoves {B : Type} (codec : Codec Message B SyncError) (size toOrigin toReplica : ℕ) :
    WiredState B → WiredState B → Prop :=
  Foundation.Wire.Step codec originHandle (Disk.handle size) toOrigin toReplica

def Delivered {B : Type} (o : Snapshot) (y : WiredState B) : Prop :=
  y.left.doing = .run (.ret ()) ∧ y.right.doing = .run (.ret ()) ∧
    y.right.store.file = o.bytes

variable {B : Type} {codec : Codec Message B SyncError} {frame : Message → List B}
  {toOrigin toReplica : ℕ}

variable (tO tR) in
theorem wired_settles (hidle : codec.take [] = (.ok none, []))
    (hsound : ∀ m ∈ transcript lib o r ++ replies lib o r, Sound codec frame m)
    (hcapo : 0 < toOrigin) (hcapr : 0 < toReplica) (hcf : CollisionFree lib .blake3V2 o r)
    (hf : Fits conn o r) (hle : r.pageCount ≤ o.pageCount) (hn : o.pageCount + 64 ≤ u32Bound) :
    Settles (WireMoves codec r.pageSize toOrigin toReplica) (wired B lib o conn tO tR r.disk)
      (Delivered o) := by
  have hsize : r.pageSize = o.pageSize := hf.replica.symm.trans hf.origin
  have hend := session_ends_saying lib tO tR (disk_serves r) hf hle hn
  have hpresents : Replica.Presents (Disk.handle r.pageSize) conn r r.disk :=
    ⟨hf.replica, .inl (disk_serves r).pageCount, .inl rfl⟩
  let closed : SyncError := .protocol "connection closed unexpectedly"
  obtain ⟨n, hshapel, hshaper⟩ := complementary closed hn hpresents
    (short_replies lib o closed (by omega)) hend.reaches
  have hsettles := settles hidle hend (fun m hm ↦ hsound m (List.mem_append_left _ hm))
    (fun m hm ↦ hsound m (List.mem_append_right _ hm)) closed hcapo hcapr hshapel hshaper
  refine hsettles.imp ?_
  rintro y ⟨hl, -, hr, hstore⟩
  refine ⟨hl, hr, ?_⟩
  rw [hstore, meet, applyWrites_disk, hsize]
  exact file_written hcf hle hsize

end Wired

section Framed

/-- Length-prefixed frames on a byte stream, as the local, SSH and stdio transports use them. -/
def framed (codec : Bincode) : Codec Message UInt8 SyncError where
  encode := encode codec
  take := tryTakeFramedMessage codec
  readSize := 8192
  readSize_pos := by decide

def frameOf (codec : Bincode) (msg : Message) : List UInt8 :=
  match encode codec msg with
  | .ok frame => frame
  | .error _ => []

variable {codec : Bincode} {toOrigin toReplica : ℕ}

theorem framed_sound {msg : Message} (hfits : codec.Fits msg)
    (hinverse : ∀ payload, codec.encodeToVec msg = .ok payload →
      ∃ n, codec.decodeFromSlice payload = .ok (msg, n)) :
    Sound (framed codec) (frameOf codec) msg := by
  obtain ⟨payload, hpayload, hsize⟩ := hfits
  have hencode : encode codec msg = .ok (frameOf codec msg) := by
    rw [frameOf, encode, hpayload]
  refine ⟨hencode, encode_frames hencode (fun payload' h ↦ ?_) hinverse⟩
  cases hpayload.symm.trans h
  exact hsize

/-- However small the buffers of the two byte streams are and however their reads and writes are
cut, a session over them does not block: every run of it is finite and leads to success on both
sides with the snapshot in the replica's file. -/
theorem framed_sync_settles
    (hinverse : ∀ msg ∈ transcript lib o r ++ replies lib o r, ∀ payload,
      codec.encodeToVec msg = .ok payload → ∃ n, codec.decodeFromSlice payload = .ok (msg, n))
    (hfits : ∀ msg ∈ transcript lib o r ++ replies lib o r, codec.Fits msg)
    (hcapo : 0 < toOrigin) (hcapr : 0 < toReplica) (hcf : CollisionFree lib .blake3V2 o r)
    (hf : Fits conn o r) (hle : r.pageCount ≤ o.pageCount) (hn : o.pageCount + 64 ≤ u32Bound) :
    Settles (WireMoves (framed codec) r.pageSize toOrigin toReplica)
      (wired UInt8 lib o conn tO tR r.disk) (Delivered o) :=
  wired_settles tO tR rfl (fun msg hmsg ↦ framed_sound (hfits msg hmsg) (hinverse msg hmsg)) hcapo
    hcapr hcf hf hle hn

def numbered (msgs : List Message) : Bincode where
  encodeToVec msg := if msg ∈ msgs then .ok [.ofNat (msgs.idxOf msg)] else .error "unknown"
  decodeFromSlice bytes := match bytes.head?.bind fun b ↦ msgs[b.toNat]? with
    | some msg => .ok (msg, 1)
    | none => .error "unknown"

theorem numbered_fits {msgs : List Message} {msg : Message} (h : msg ∈ msgs) :
    (numbered msgs).Fits msg :=
  ⟨[.ofNat (msgs.idxOf msg)], if_pos h, by rw [List.length_singleton]; decide⟩

theorem numbered_inverts {msgs : List Message} (hlen : msgs.length ≤ 256) (msg : Message)
    (payload : List UInt8) (h : (numbered msgs).encodeToVec msg = .ok payload) :
    ∃ n, (numbered msgs).decodeFromSlice payload = .ok (msg, n) := by
  simp only [numbered] at h
  split_ifs at h with hmem
  cases h
  have hlt := List.idxOf_lt_length_iff.mpr hmem
  have hnat : (UInt8.ofNat (msgs.idxOf msg)).toNat = msgs.idxOf msg := by
    rw [UInt8.toNat_ofNat', Nat.mod_eq_of_lt (hlt.trans_le hlen)]
  refine ⟨1, ?_⟩
  simp only [numbered, List.head?_cons, Option.bind_some, hnat, List.getElem?_eq_getElem hlt,
    List.getElem_idxOf]

def sampleSession : List Message :=
  transcript tabulated twoPages oneBlank ++ replies tabulated twoPages oneBlank

theorem sampleSession_length : sampleSession.length ≤ 256 := by
  have hgroups : (fineGroups tabulated twoPages oneBlank).length ≤ 1 := List.length_filter_le _ _
  simp only [sampleSession, transcript, replies, List.length_append, List.length_map,
    List.length_flatMap, roundReplies, List.length_cons, List.length_nil, List.map_const',
    List.sum_replicate, smul_eq_mul]
  omega

theorem framed_sync_settles_two_pages :
    Settles (WireMoves (framed (numbered sampleSession)) 512 1 1)
      (wired UInt8 tabulated twoPages ⟨512, true⟩ {} {} oneBlank.disk) (Delivered twoPages) :=
  framed_sync_settles (fun msg _ ↦ numbered_inverts sampleSession_length msg)
    (fun _ ↦ numbered_fits) (by decide) (by decide)
    (twoPages_tabulated.collisionFree oneBlank_tabulated) ⟨rfl, rfl, rfl⟩ (by decide) (by decide)

end Framed

section Streamed

/-- A gRPC stream, by the status with which it ends where it should bring a message that it does
not let pass. -/
structure GrpcStream where
  status : SyncMessage → Option String

def streamed (stream : GrpcStream) : Codec Message SyncMessage SyncError where
  encode msg := .ok [.ofMessage msg]
  take
    | [] => (.ok none, [])
    | item :: rest =>
      match stream.status item with
      | some status => (.error (.network s!"gRPC streaming error: {status}"), rest)
      | none => (item.tryIntoMessage.map some, rest)
  readSize := 1
  readSize_pos := by decide

variable {stream : GrpcStream} {toOrigin toReplica : ℕ}

theorem streamed_sound {msg : Message} (hpass : stream.status (.ofMessage msg) = none)
    (h : ∀ pageNos hashes, msg = .pageHashes pageNos hashes → pageNos.length = hashes.length) :
    Sound (streamed stream) (fun msg ↦ [.ofMessage msg]) msg := by
  refine ⟨rfl, fun more ↦ ?_, fun buf hpart hne ↦ ?_⟩
  · have hback : (SyncMessage.ofMessage msg).tryIntoMessage = .ok msg := messageOf_payloadOf h
    simp only [streamed, List.singleton_append, hpass, hback]
    rfl
  · have hlen : buf.length < 1 :=
      lt_of_le_of_ne hpart.length_le fun heq ↦ hne (hpart.eq_of_length heq)
    obtain rfl := List.length_eq_zero_iff.mp (Nat.lt_one_iff.mp hlen)
    rfl

variable (lib o r) in
theorem hashes_match_pages : ∀ msg ∈ transcript lib o r ++ replies lib o r, ∀ pageNos hashes,
    msg = .pageHashes pageNos hashes → pageNos.length = hashes.length := by
  intro msg hmsg pageNos hashes heq
  subst heq
  have hround : ∃ g ∈ fineGroups lib o r, pageNos = groupPageNos g r.pageCount ∧
      hashes = groupInput lib .blake3V2 r g := by
    simpa [transcript, replies, roundReplies] using hmsg
  obtain ⟨g, -, rfl, rfl⟩ := hround
  rw [groupInput, List.length_map]

/-- The same over a gRPC stream that lets the messages of the session pass. -/
theorem streamed_sync_settles
    (hpass : ∀ msg ∈ transcript lib o r ++ replies lib o r, stream.status (.ofMessage msg) = none)
    (hcapo : 0 < toOrigin) (hcapr : 0 < toReplica) (hcf : CollisionFree lib .blake3V2 o r)
    (hf : Fits conn o r) (hle : r.pageCount ≤ o.pageCount) (hn : o.pageCount + 64 ≤ u32Bound) :
    Settles (WireMoves (streamed stream) r.pageSize toOrigin toReplica)
      (wired SyncMessage lib o conn tO tR r.disk) (Delivered o) :=
  wired_settles tO tR rfl
    (fun msg hmsg ↦ streamed_sound (hpass msg hmsg) (hashes_match_pages lib o r msg hmsg)) hcapo
    hcapr hcf hf hle hn

theorem streamed_sync_settles_two_pages :
    Settles (WireMoves (streamed ⟨fun _ ↦ none⟩) 512 64 64)
      (wired SyncMessage tabulated twoPages ⟨512, true⟩ {} {} oneBlank.disk)
      (Delivered twoPages) :=
  streamed_sync_settles (fun _ _ ↦ rfl) (by decide) (by decide)
    (twoPages_tabulated.collisionFree oneBlank_tabulated) ⟨rfl, rfl, rfl⟩ (by decide) (by decide)

end Streamed

end RsqliteRsync.Transport
