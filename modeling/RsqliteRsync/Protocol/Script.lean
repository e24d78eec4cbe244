import RsqliteRsync.Foundation.Script
import RsqliteRsync.Protocol.Messages

namespace RsqliteRsync.Protocol

open Foundation.Process Foundation.Script

abbrev HandlerLine := Line Message SyncError

/-- The group hashes that arrive second, if they do, are fewer than `2 ^ 26`. -/
def ShortGroupHashes (l : HandlerLine) : Prop :=
  ∀ first hashes, l.incoming[1]? = some (.groupHashes first hashes) → hashes.length < 2 ^ 26

theorem ShortGroupHashes.after_first {l : HandlerLine} (h : ShortGroupHashes l) {m : Message}
    {msgs : List Message} (hm : l.incoming = m :: msgs) (first : ℕ) (hashes : List PageHash)
    (hfirst : msgs.head? = some (.groupHashes first hashes)) : hashes.length < 2 ^ 26 := by
  refine h first hashes ?_
  rw [hm, List.getElem?_cons_succ, ← List.head?_eq_getElem?, hfirst]

/-- These messages arrive, the peer then hangs up, and every send succeeds. -/
def lineOf (msgs : List Message) : HandlerLine :=
  ⟨msgs, .protocol "connection closed unexpectedly", fun _ ↦ .ok ()⟩

abbrev HandlerEnd {E : Type} (A : E → Type) := End Message SyncError A Stop

variable {E σ α β : Type} {A : E → Type} {handle : (e : E) → σ → A e × σ} {s : σ}
  {l : HandlerLine}

def Errs (e : HandlerEnd A α σ) : Prop := ∃ error, e.outcome = .error (.err error)

@[simp] theorem errs_prepend (events : List (Event Message A)) (e : HandlerEnd A α σ) :
    Errs (e.prepend events) ↔ Errs e := Iff.rfl

theorem Errs.andThen {e : HandlerEnd A α σ} (h : Errs e)
    (f : α → σ → HandlerLine → HandlerEnd A β σ) : Errs (e.andThen f) := by
  obtain ⟨error, herror⟩ := h
  exact ⟨error, by simp [End.andThen, herror]⟩

theorem errs_bind {p : Handler A α} (h : Errs (play handle p s l)) (f : α → Handler A β) :
    Errs (play handle (p >>= f) s l) := by
  rw [play_bind]
  exact h.andThen _

theorem play_throwErr_errs (error : SyncError) :
    Errs (play handle (throwErr error : Handler A α) s l) := ⟨error, rfl⟩

theorem play_violation_errs (message : String) :
    Errs (play handle (protocolViolation message : Handler A α) s l) :=
  ⟨.protocol message, rfl⟩

theorem play_send_ok (m : Message) (f : Unit → Handler A α) (h : l.fate 0 = .ok ()) :
    play handle (send m >>= f) s l = (play handle (f ()) s l.afterSend).prepend [.sent m] := by
  simp [send, h]

theorem play_send_error {e : SyncError} (m : Message) (f : Unit → Handler A α)
    (h : l.fate 0 = .error e) :
    play handle (send m >>= f) s l = ⟨.error (.err e), s, l.afterSend, [.sent m]⟩ := by
  simp [send, h, orFail, End.prepend]

theorem play_recv_msg {m : Message} {msgs : List Message} (f : Message → Handler A α)
    (h : l.incoming = m :: msgs) :
    play handle (recv >>= f) s l =
      (play handle (f m) s (l.withIncoming msgs)).prepend [.received m] := by
  rw [recv, Proc.recv_bind, play_recv_cons s h, orFail_ok, Proc.ret_bind]

theorem head?_of_recv {m : Message}
    (h : (play handle (recv : Handler A Message) s l).outcome = .ok m) :
    l.incoming.head? = some m := by
  cases hin : l.incoming with
  | nil =>
    rw [recv, play_recv_nil s hin] at h
    cases h
  | cons m' msgs =>
    rw [recv, play_recv_cons s hin] at h
    cases h
    rfl

theorem eq_ok_of_orFail {x : Except SyncError α} {a : α}
    (h : (play handle (orFail x : Handler A α) s l).outcome = .ok a) : x = .ok a := by
  cases x with
  | error e => cases h
  | ok b =>
    cases h
    rfl

theorem errs_or_send {P : Prop} (m : Message) (f : Unit → Handler A α)
    (h : l.fate 0 = .ok () → Errs (play handle (f ()) s l.afterSend) ∨ P) :
    Errs (play handle (send m >>= f) s l) ∨ P := by
  cases hfate : l.fate 0 with
  | ok u =>
    rw [play_send_ok m f hfate]
    exact h hfate
  | error e =>
    rw [play_send_error m f hfate]
    exact .inl ⟨e, rfl⟩

theorem errs_or_recv {P : Prop} (f : Message → Handler A α)
    (h : ∀ m msgs, l.incoming = m :: msgs → Errs (play handle (f m) s (l.withIncoming msgs)) ∨ P) :
    Errs (play handle (recv >>= f) s l) ∨ P := by
  cases hin : l.incoming with
  | nil =>
    rw [recv, Proc.recv_bind, play_recv_nil s hin]
    exact .inl ⟨l.closed, rfl⟩
  | cons m msgs =>
    rw [play_recv_msg f hin]
    exact h m msgs hin

section Only

variable {P : Message → Prop}

theorem only_orFail (x : Except SyncError α) : Only P (orFail x : Handler A α) := by
  cases x <;> trivial

theorem only_lift (x : Res α) : Only P (lift x : Handler A α) := by
  cases x <;> trivial

theorem only_send {m : Message} (h : P m) : Only P (send m : Handler A Unit) := ⟨h, only_orFail⟩

theorem only_recv : Only P (recv : Handler A Message) := only_orFail

theorem only_violation {message : String} (h : P (.error message)) :
    Only P (protocolViolation message : Handler A α) := ⟨h, fun _ ↦ trivial⟩

end Only

section Trace

def sentMessages (trace : List (Event Message A)) : List Message :=
  trace.filterMap fun
    | .sent m => some m
    | _ => none

theorem sentMessages_append (trace more : List (Event Message A)) :
    sentMessages (trace ++ more) = sentMessages trace ++ sentMessages more :=
  List.filterMap_append

def receivedMessages (trace : List (Event Message A)) : List Message :=
  trace.filterMap fun
    | .received m => some m
    | _ => none

theorem receivedMessages_append (trace more : List (Event Message A)) :
    receivedMessages (trace ++ more) = receivedMessages trace ++ receivedMessages more :=
  List.filterMap_append

end Trace

end RsqliteRsync.Protocol
