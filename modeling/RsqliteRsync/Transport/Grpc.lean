import RsqliteRsync.Foundation.Packing
import RsqliteRsync.Protocol.Messages

namespace RsqliteRsync.Transport

open Protocol Foundation.Packing

structure SyncPageData where
  pageNo : ℕ
  data : List UInt8

/-- The payloads of the sync stream. Hashes travel as one run of bytes. -/
inductive Payload
  | init (database : String) (clientRole : ℤ) (authToken : String)
  | hello (version pageSize pageCount : ℕ)
  | helloAck (version pageSize pageCount : ℕ)
  | groupHashes (firstGroup : ℕ) (hashes : List UInt8)
  | groupsNeedFine (groupIndices : List ℕ)
  | pageHashes (pageNos : List ℕ) (hashes : List UInt8)
  | sendPages (pages : List SyncPageData)
  | pagesAck (pageNos : List ℕ)
  | done
  | error (message : String)

structure SyncMessage where
  payload : Option Payload

def payloadOf : Message → Payload
  | .hello version pageSize pageCount => .hello version pageSize pageCount
  | .helloAck version pageSize pageCount => .helloAck version pageSize pageCount
  | .groupHashes firstGroup hashes => .groupHashes firstGroup (pack hashes)
  | .groupsNeedFine groupIndices => .groupsNeedFine groupIndices
  | .pageHashes pageNos hashes => .pageHashes pageNos (pack hashes)
  | .sendPages pages => .sendPages (pages.map fun p ↦ ⟨p.pageNo, p.data⟩)
  | .pagesAck pageNos => .pagesAck pageNos
  | .done => .done
  | .error message => .error message

def SyncMessage.ofMessage (msg : Message) : SyncMessage := ⟨some (payloadOf msg)⟩

def messageOf : Payload → Except SyncError Message
  | .init _ _ _ =>
    .error (.protocol "unexpected SyncInit message during active sync stream")
  | .hello version pageSize pageCount => .ok (.hello version pageSize pageCount)
  | .helloAck version pageSize pageCount => .ok (.helloAck version pageSize pageCount)
  | .groupHashes firstGroup hashes =>
    if hashes.length % 32 ≠ 0 then
      .error (.codec s!"invalid group hashes length: {hashes.length} is not a multiple of 32")
    else .ok (.groupHashes firstGroup (asChunks 32 hashes).1)
  | .groupsNeedFine groupIndices => .ok (.groupsNeedFine groupIndices)
  | .pageHashes pageNos hashes =>
    if hashes.length % 32 ≠ 0 then
      .error (.codec s!"invalid page hashes length: {hashes.length} is not a multiple of 32")
    else
      let count := hashes.length / 32
      if count ≠ pageNos.length then
        .error (.codec s!"page count mismatch: {count} hashes for {pageNos.length} page numbers")
      else .ok (.pageHashes pageNos (asChunks 32 hashes).1)
  | .sendPages pages => .ok (.sendPages (pages.map fun p ↦ ⟨p.pageNo, p.data⟩))
  | .pagesAck pageNos => .ok (.pagesAck pageNos)
  | .done => .ok .done
  | .error message => .ok (.error message)

def SyncMessage.tryIntoMessage (msg : SyncMessage) : Except SyncError Message :=
  match msg.payload with
  | none => .error (.protocol "received SyncMessage with empty payload")
  | some payload => messageOf payload

theorem length_pack_mod (hashes : List PageHash) : (pack hashes).length % 32 = 0 := by
  rw [length_pack, Nat.mul_mod_left]

theorem messageOf_pageHashes (pageNos : List ℕ) (hashes : List PageHash) :
    messageOf (payloadOf (.pageHashes pageNos hashes)) =
      if hashes.length ≠ pageNos.length then .error (.codec
        s!"page count mismatch: {hashes.length} hashes for {pageNos.length} page numbers")
      else .ok (.pageHashes pageNos hashes) := by
  have hcount : (pack hashes).length / 32 = hashes.length := by
    rw [length_pack, Nat.mul_div_cancel _ (by decide)]
  simp only [payloadOf, messageOf, length_pack_mod, hcount, asChunks_pack (by decide : 0 < 32),
    ne_eq, not_true_eq_false, if_false]

theorem messageOf_payloadOf {msg : Message}
    (h : ∀ pageNos hashes, msg = .pageHashes pageNos hashes → pageNos.length = hashes.length) :
    messageOf (payloadOf msg) = .ok msg := by
  cases msg
  case groupHashes firstGroup hashes =>
    simp only [payloadOf, messageOf, length_pack_mod, asChunks_pack (by decide : 0 < 32), ne_eq,
      not_true_eq_false, if_false]
  case pageHashes pageNos hashes =>
    rw [messageOf_pageHashes, if_neg (not_not.mpr (h pageNos hashes rfl).symm)]
  case sendPages pages =>
    rw [payloadOf, messageOf, List.map_map]
    exact congrArg (Except.ok ∘ Message.sendPages) (List.map_id pages)
  all_goals rfl

/-- What is accepted is the only payload of its message. By cases on the payload. -/
theorem payloadOf_eq {payload : Payload} {msg : Message} (h : messageOf payload = .ok msg) :
    payloadOf msg = payload := by
  cases payload
  case init => cases h
  case groupHashes firstGroup hashes =>
    rw [messageOf] at h
    split_ifs at h with hlen
    cases h
    rw [payloadOf, pack_asChunks (not_not.mp hlen)]
  case pageHashes pageNos hashes =>
    simp only [messageOf] at h
    split_ifs at h with hlen hcount
    cases h
    rw [payloadOf, pack_asChunks (not_not.mp hlen)]
  case sendPages pages =>
    cases h
    rw [payloadOf, List.map_map]
    exact congrArg Payload.sendPages (List.map_id pages)
  all_goals
    cases h
    rfl

/-- The conversions are a partial bijection: there and back gives the message unless its hashes do
not match its page numbers, and back and there gives what was accepted. -/
theorem conversion_partial_bijection :
    (∀ msg, (∀ pageNos hashes, msg = .pageHashes pageNos hashes →
        pageNos.length = hashes.length) →
      (SyncMessage.ofMessage msg).tryIntoMessage = .ok msg) ∧
    (∀ pageNos hashes, pageNos.length ≠ hashes.length →
      (SyncMessage.ofMessage (.pageHashes pageNos hashes)).tryIntoMessage = .error (.codec
        s!"page count mismatch: {hashes.length} hashes for {pageNos.length} page numbers")) ∧
    (∀ wire msg, SyncMessage.tryIntoMessage wire = .ok msg → SyncMessage.ofMessage msg = wire) ∧
    ∀ wire wire' msg, SyncMessage.tryIntoMessage wire = .ok msg →
      SyncMessage.tryIntoMessage wire' = .ok msg → wire = wire' := by
  have hback : ∀ wire msg, SyncMessage.tryIntoMessage wire = .ok msg →
      SyncMessage.ofMessage msg = wire := by
    rintro ⟨_ | payload⟩ msg h
    · cases h
    · rw [SyncMessage.ofMessage, payloadOf_eq h]
  refine ⟨fun msg ↦ messageOf_payloadOf, fun pageNos hashes hne ↦ ?_, hback, ?_⟩
  · exact (messageOf_pageHashes pageNos hashes).trans (if_pos hne.symm)
  · intro wire wire' msg h h'
    exact (hback wire msg h).symm.trans (hback wire' msg h')

end RsqliteRsync.Transport
