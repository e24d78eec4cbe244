import RsqliteRsync.Foundation.Stream
import RsqliteRsync.Protocol.Messages

namespace RsqliteRsync.Transport

open Protocol Foundation.Stream

def MAX_MESSAGE_SIZE : ℕ := 256 * 1024 * 1024

/-- The crate `bincode` in its standard configuration. An error is given by its text, and a decoded
message comes with the number of bytes read. -/
structure Bincode where
  encodeToVec : Message → Except String (List UInt8)
  decodeFromSlice : List UInt8 → Except String (Message × ℕ)

/-- The encoded message is no longer than the largest frame. -/
def Bincode.Fits (codec : Bincode) (msg : Message) : Prop :=
  ∃ payload, codec.encodeToVec msg = .ok payload ∧ payload.length ≤ MAX_MESSAGE_SIZE

/-- A listed hash takes 32 bytes. -/
def Bincode.WritesHashes (codec : Bincode) : Prop :=
  ∀ first hashes payload, codec.encodeToVec (.groupHashes first hashes) = .ok payload →
    32 * hashes.length ≤ payload.length

section LeBytes

def toLeBytes (n : ℕ) : List UInt8 :=
  [.ofNat n, .ofNat (n / 2 ^ 8), .ofNat (n / 2 ^ 16), .ofNat (n / 2 ^ 24)]

def fromLeBytes (bytes : List UInt8) : ℕ := bytes.foldr (fun b n ↦ b.toNat + 2 ^ 8 * n) 0

theorem length_toLeBytes (n : ℕ) : (toLeBytes n).length = 4 := rfl

theorem fromLeBytes_toLeBytes {n : ℕ} (h : n < u32Bound) : fromLeBytes (toLeBytes n) = n := by
  unfold u32Bound at h
  simp only [fromLeBytes, toLeBytes, List.foldr_cons, List.foldr_nil, UInt8.toNat_ofNat']
  omega

end LeBytes

section Codec

variable (codec : Bincode)

def encode (msg : Message) : Except SyncError (List UInt8) :=
  match codec.encodeToVec msg with
  | .error e => .error (.codec e)
  | .ok payload => .ok (toLeBytes (asU32 payload.length) ++ payload)

def decode (buf : List UInt8) : Except SyncError (Message × ℕ) :=
  if buf.length < 4 then .error (.codec "buffer too short for length prefix")
  else
    let len := fromLeBytes (buf.take 4)
    if MAX_MESSAGE_SIZE < len then
      .error (.codec s!"message frame exceeds max size: {len} > {MAX_MESSAGE_SIZE}")
    else if buf.length < 4 + len then
      .error (.codec s!"buffer has {buf.length - 4} bytes but expected {len} payload bytes")
    else
      match codec.decodeFromSlice ((buf.drop 4).take len) with
      | .error e => .error (.codec e)
      | .ok (msg, _) => .ok (msg, 4 + len)

def tryTakeFramedMessage : Take Message UInt8 SyncError := fun buf ↦
  if buf.length < 4 then (.ok none, buf)
  else
    let payloadLen := fromLeBytes (buf.take 4)
    if MAX_MESSAGE_SIZE < payloadLen then
      (.error (.codec s!"message frame exceeds max size: {payloadLen} > {MAX_MESSAGE_SIZE}"), buf)
    else if buf.length < 4 + payloadLen then (.ok none, buf)
    else
      match decode codec buf with
      | .error e => (.error e, buf)
      | .ok (msg, consumed) => (.ok (some msg), buf.drop consumed)

end Codec

/-- The transports over a byte stream. -/
inductive Channel
  | localTransport
  | sshTransport
  | stdioTransport

/-- The error of a receive at the end of the stream. -/
def Channel.ended : Channel → SyncError
  | .localTransport => .protocol "connection closed unexpectedly"
  | .sshTransport => .protocol "SSH connection closed unexpectedly"
  | .stdioTransport => .protocol "connection closed unexpectedly"

def recv (codec : Bincode) (channel : Channel) (r : Receiver UInt8 SyncError) :
    Except SyncError Message × Receiver UInt8 SyncError :=
  pull (tryTakeFramedMessage codec) channel.ended r.reads r.buf

section Frames

variable {codec : Bincode} {msg : Message} {payload : List UInt8}

theorem asU32_length (hsize : payload.length ≤ MAX_MESSAGE_SIZE) :
    asU32 payload.length = payload.length := by
  refine asU32_of_lt ?_
  simp only [MAX_MESSAGE_SIZE, u32Bound] at *
  omega

theorem fromLeBytes_length (hsize : payload.length ≤ MAX_MESSAGE_SIZE) :
    fromLeBytes (toLeBytes payload.length) = payload.length := by
  refine fromLeBytes_toLeBytes ?_
  simp only [MAX_MESSAGE_SIZE, u32Bound] at *
  omega

theorem take_prefixed (n : ℕ) (payload more : List UInt8) :
    (toLeBytes n ++ payload ++ more).take 4 = toLeBytes n := by
  rw [List.append_assoc, ← length_toLeBytes n, List.take_left]

theorem length_prefixed (n : ℕ) (payload more : List UInt8) :
    (toLeBytes n ++ payload ++ more).length = 4 + payload.length + more.length := by
  rw [List.length_append, List.length_append, length_toLeBytes]

theorem decode_whole_frame (hsize : payload.length ≤ MAX_MESSAGE_SIZE) {n : ℕ}
    (hdecode : codec.decodeFromSlice payload = .ok (msg, n)) (more : List UInt8) :
    decode codec (toLeBytes payload.length ++ payload ++ more) =
      .ok (msg, 4 + payload.length) := by
  have hlen := length_prefixed payload.length payload more
  have hpayload : ((toLeBytes payload.length ++ payload ++ more).drop 4).take payload.length =
      payload := by
    rw [List.append_assoc, ← length_toLeBytes payload.length, List.drop_left, List.take_left]
  have hlong : ¬ (toLeBytes payload.length ++ payload ++ more).length < 4 + payload.length := by
    omega
  have hfour : ¬ (toLeBytes payload.length ++ payload ++ more).length < 4 := by omega
  simp only [decode, take_prefixed, fromLeBytes_length hsize, hpayload, hdecode,
    not_lt.mpr hsize, hlong, hfour, if_false]

theorem take_whole_frame (hsize : payload.length ≤ MAX_MESSAGE_SIZE) {n : ℕ}
    (hdecode : codec.decodeFromSlice payload = .ok (msg, n)) (more : List UInt8) :
    tryTakeFramedMessage codec (toLeBytes payload.length ++ payload ++ more) =
      (.ok (some msg), more) := by
  have hlen := length_prefixed payload.length payload more
  have hrest : (toLeBytes payload.length ++ payload ++ more).drop (4 + payload.length) = more := by
    rw [← length_toLeBytes payload.length, ← List.length_append, List.drop_left]
  have hlong : ¬ (toLeBytes payload.length ++ payload ++ more).length < 4 + payload.length := by
    omega
  have hfour : ¬ (toLeBytes payload.length ++ payload ++ more).length < 4 := by omega
  simp only [tryTakeFramedMessage, take_prefixed, fromLeBytes_length hsize,
    decode_whole_frame hsize hdecode, hrest, not_lt.mpr hsize, hlong, hfour, if_false]

theorem take_part_of_frame (hsize : payload.length ≤ MAX_MESSAGE_SIZE) {buf : List UInt8}
    (hpart : buf <+: toLeBytes payload.length ++ payload)
    (hne : buf ≠ toLeBytes payload.length ++ payload) :
    tryTakeFramedMessage codec buf = (.ok none, buf) := by
  have hlen := length_toLeBytes payload.length
  have hshort : buf.length < 4 + payload.length := by
    rw [← hlen, ← List.length_append]
    exact lt_of_le_of_ne hpart.length_le fun heq ↦ hne (hpart.eq_of_length heq)
  by_cases hfour : buf.length < 4
  · rw [tryTakeFramedMessage, if_pos hfour]
  · have htake : buf.take 4 = toLeBytes payload.length := by
      rw [(List.prefix_iff_eq_take.mp hpart), List.take_take, min_eq_left (not_lt.mp hfour), ← hlen,
        List.take_left]
    simp only [tryTakeFramedMessage, htake, fromLeBytes_length hsize, not_lt.mpr hsize, hfour,
      hshort, if_false, if_true]

theorem encode_frames {frame : List UInt8} (hencode : encode codec msg = .ok frame)
    (hsize : ∀ payload, codec.encodeToVec msg = .ok payload → payload.length ≤ MAX_MESSAGE_SIZE)
    (hinverse : ∀ payload, codec.encodeToVec msg = .ok payload →
      ∃ n, codec.decodeFromSlice payload = .ok (msg, n)) :
    Frames (tryTakeFramedMessage codec) msg frame := by
  rw [encode] at hencode
  cases hpayload : codec.encodeToVec msg with
  | error e => simp [hpayload] at hencode
  | ok payload =>
    have hsmall := hsize payload hpayload
    obtain ⟨n, hdecode⟩ := hinverse payload hpayload
    simp only [hpayload, asU32_length hsmall, Except.ok.injEq] at hencode
    subst hencode
    exact ⟨take_whole_frame hsmall hdecode, fun buf ↦ take_part_of_frame hsmall⟩

theorem encoded_of_mapM {msgs : List Message} {frames : List (List UInt8)}
    (h : msgs.mapM (encode codec) = .ok frames) :
    List.Forall₂ (fun msg frame ↦ encode codec msg = .ok frame) msgs frames := by
  induction msgs generalizing frames with
  | nil =>
    cases h
    exact .nil
  | cons msg msgs ih =>
    rw [List.mapM_cons] at h
    cases hframe : encode codec msg with
    | error e =>
      rw [hframe] at h
      cases h
    | ok frame =>
      cases hframes : msgs.mapM (encode codec) with
      | error e =>
        rw [hframe, hframes] at h
        cases h
      | ok more =>
        rw [hframe, hframes] at h
        cases h
        exact .cons hframe (ih hframes)

/-- However the frames of the messages are cut into non-empty chunks, receiving once for each
message gives the messages in order, without an error, and leaves an empty buffer. -/
theorem recv_fragmented (channel : Channel) {msgs : List Message}
    {frames chunks : List (List UInt8)}
    (hsize : ∀ msg ∈ msgs, ∀ payload, codec.encodeToVec msg = .ok payload →
      payload.length ≤ MAX_MESSAGE_SIZE)
    (hinverse : ∀ msg ∈ msgs, ∀ payload, codec.encodeToVec msg = .ok payload →
      ∃ n, codec.decodeFromSlice payload = .ok (msg, n))
    (hframes : msgs.mapM (encode codec) = .ok frames)
    (hchunks : chunks.flatten = frames.flatten) (hne : ∀ chunk ∈ chunks, chunk ≠ []) :
    inOrder (recv codec channel) msgs.length ⟨[], chunks.map .ok⟩ = (msgs.map .ok, ⟨[], []⟩) := by
  have hencoded : List.Forall₂ (Frames (tryTakeFramedMessage codec)) msgs frames := by
    refine ((List.forall₂_and_left _ _).mpr ⟨fun msg hmsg ↦ hmsg, encoded_of_mapM hframes⟩).imp ?_
    rintro msg frame ⟨hmsg, hencode⟩
    exact encode_frames hencode (hsize msg hmsg) (hinverse msg hmsg)
  exact inOrder_frames hencoded ⟨chunks, rfl, hne, hchunks⟩

/-- The bytes of a few messages. -/
def sampleBytes : List (Message × List UInt8) :=
  [(.hello 2 512 2, [0, 2, 251, 0, 2, 2]), (.groupHashes 0 [], [2, 0, 0]),
    (.pageHashes [1, 2] (.replicate 2 (.replicate 32 0)), [4, 2, 1, 2, 2] ++ .replicate 64 0),
    (.done, [7])]

def sampleCodec : Bincode where
  encodeToVec msg := ((sampleBytes.find? (·.1 = msg)).map (·.2)).elim (.error "unknown") .ok
  decodeFromSlice bytes :=
    ((sampleBytes.find? (·.2 = bytes)).map fun x ↦ (x.1, x.2.length)).elim (.error "unknown") .ok

theorem sampleCodec_writesHashes : sampleCodec.WritesHashes := by
  intro first hashes payload h
  by_cases hsample : (Message.groupHashes 0 [] = .groupHashes first hashes)
  · cases hsample
    exact Nat.zero_le _
  · simp [sampleCodec, sampleBytes, hsample] at h

theorem recv_fragmented_sample :
    inOrder (recv sampleCodec .stdioTransport) 2
      ⟨[], [[6], [0, 0, 0, 0, 2, 251], [0, 2, 2, 1, 0], [0, 0, 7]].map .ok⟩ =
        ([.hello 2 512 2, .done].map .ok, ⟨[], []⟩) := by
  have hpayload : ∀ msg ∈ [Message.hello 2 512 2, .done], ∀ payload,
      sampleCodec.encodeToVec msg = .ok payload → payload.length ≤ MAX_MESSAGE_SIZE ∧
        ∃ n, sampleCodec.decodeFromSlice payload = .ok (msg, n) := by
    intro msg hmsg payload hpayload
    rcases List.mem_pair.mp hmsg with rfl | rfl
    · cases hpayload
      exact ⟨by decide, 6, rfl⟩
    · cases hpayload
      exact ⟨by decide, 1, rfl⟩
  exact recv_fragmented .stdioTransport (fun msg hmsg payload h ↦ (hpayload msg hmsg payload h).1)
    (fun msg hmsg payload h ↦ (hpayload msg hmsg payload h).2) rfl rfl (by decide)

end Frames

end RsqliteRsync.Transport
