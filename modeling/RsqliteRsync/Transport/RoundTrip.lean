import RsqliteRsync.Transport.Framing

namespace RsqliteRsync.Transport

open Protocol

def PeerDecodes (codec : Bincode) (msg : Message) : Prop :=
  ∀ frame, encode codec msg = .ok frame → ∀ rest,
    decode codec (frame ++ rest) = .ok (msg, frame.length) ∧
      tryTakeFramedMessage codec (frame ++ rest) = (.ok (some msg), rest)

variable {codec : Bincode} {msg : Message} {payload : List UInt8}

theorem peerDecodes_of_fits
    (hinverse : ∀ payload, codec.encodeToVec msg = .ok payload →
      ∃ n, codec.decodeFromSlice payload = .ok (msg, n))
    (hsize : ∀ payload, codec.encodeToVec msg = .ok payload →
      payload.length ≤ MAX_MESSAGE_SIZE) : PeerDecodes codec msg := by
  intro frame hencode rest
  rw [encode] at hencode
  cases hpayload : codec.encodeToVec msg with
  | error e => simp [hpayload] at hencode
  | ok payload =>
    have hsmall := hsize payload hpayload
    obtain ⟨n, hdecode⟩ := hinverse payload hpayload
    simp only [hpayload, asU32_length hsmall, Except.ok.injEq] at hencode
    subst hencode
    rw [decode_whole_frame hsmall hdecode, take_whole_frame hsmall hdecode, List.length_append,
      length_toLeBytes]
    exact ⟨rfl, rfl⟩

theorem decode_announced {n k : ℕ} {rest : List UInt8} (hn : n < u32Bound)
    (h : decode codec (toLeBytes n ++ payload ++ rest) = .ok (msg, k)) :
    n ≤ MAX_MESSAGE_SIZE ∧ k = 4 + n := by
  simp only [decode, take_prefixed, fromLeBytes_toLeBytes hn] at h
  split_ifs at h with hfour hmax hlong
  split at h
  · cases h
  · cases h
    exact ⟨not_lt.mp hmax, rfl⟩

theorem fits_of_peerDecodes (h : PeerDecodes codec msg)
    (hpayload : codec.encodeToVec msg = .ok payload) : payload.length ≤ MAX_MESSAGE_SIZE := by
  have hencode : encode codec msg = .ok (toLeBytes (asU32 payload.length) ++ payload) := by
    rw [encode, hpayload]
  have hlt : asU32 payload.length < u32Bound := Nat.mod_lt _ (by decide)
  have hdecode := (h _ hencode []).1
  obtain ⟨hmax, hcount⟩ := decode_announced hlt hdecode
  rw [List.length_append, length_toLeBytes] at hcount
  omega

/-- What is encoded can be decoded by the peer precisely when the payload is no longer than the
largest frame. -/
theorem peerDecodes_iff (hinverse : ∀ payload, codec.encodeToVec msg = .ok payload →
      ∃ n, codec.decodeFromSlice payload = .ok (msg, n)) :
    PeerDecodes codec msg ↔
      ∀ payload, codec.encodeToVec msg = .ok payload → payload.length ≤ MAX_MESSAGE_SIZE :=
  ⟨fun h _ hpayload ↦ fits_of_peerDecodes h hpayload, peerDecodes_of_fits hinverse⟩

theorem peerDecodes_done : PeerDecodes sampleCodec .done := by
  refine (peerDecodes_iff fun payload hpayload ↦ ?_).mpr fun payload hpayload ↦ ?_
  · cases hpayload
    exact ⟨1, rfl⟩
  · cases hpayload
    decide

section Huge

def soleCodec (msg : Message) (payload : List UInt8) : Bincode where
  encodeToVec m := if m = msg then .ok payload else .error "unknown"
  decodeFromSlice bytes := if bytes = payload then .ok (msg, payload.length) else .error "unknown"

theorem soleCodec_inverts (msg : Message) (payload : List UInt8) :
    (soleCodec msg payload).encodeToVec msg = .ok payload ∧
      (soleCodec msg payload).decodeFromSlice payload = .ok (msg, payload.length) :=
  ⟨if_pos rfl, if_pos rfl⟩

/-- A page as large as the largest frame, and its bytes: the variant, one page, its number, the
length of its data and the data. -/
def hugePage : Message := .sendPages [⟨1, .replicate MAX_MESSAGE_SIZE 0⟩]

def hugePayload : List UInt8 := [5, 1, 1, 252, 0, 0, 0, 16] ++ .replicate MAX_MESSAGE_SIZE 0

end Huge

theorem hugePage_not_decoded :
    (soleCodec hugePage hugePayload).encodeToVec hugePage = .ok hugePayload ∧
      (soleCodec hugePage hugePayload).decodeFromSlice hugePayload =
        .ok (hugePage, hugePayload.length) ∧
      ¬ PeerDecodes (soleCodec hugePage hugePayload) hugePage := by
  obtain ⟨hencode, hdecode⟩ := soleCodec_inverts hugePage hugePayload
  refine ⟨hencode, hdecode, fun h ↦ ?_⟩
  have hfits := fits_of_peerDecodes h hencode
  rw [hugePayload, List.length_append, List.length_replicate] at hfits
  exact absurd hfits (Nat.not_le_of_lt (Nat.lt_add_of_pos_left (Nat.succ_pos 7)))

end RsqliteRsync.Transport
