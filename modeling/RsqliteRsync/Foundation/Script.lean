import RsqliteRsync.Foundation.Process

namespace RsqliteRsync.Foundation.Script

open Process

variable {M T E F R S σ : Type} {A : E → Type}

/-- What one party meets: the messages that still arrive, the error of a receive after the last
one, and how the transport answers the sends to come. -/
structure Line (M T : Type) where
  incoming : List M
  closed : T
  fate : ℕ → Except T Unit

namespace Line

def afterSend (l : Line M T) : Line M T := { l with fate := fun n ↦ l.fate (n + 1) }

def afterSends (l : Line M T) (n : ℕ) : Line M T := { l with fate := fun m ↦ l.fate (m + n) }

def withIncoming (l : Line M T) (msgs : List M) : Line M T := { l with incoming := msgs }

def Open (l : Line M T) : Prop := ∀ n, l.fate n = .ok ()

@[simp] theorem fate_afterSends (l : Line M T) (m n : ℕ) :
    (l.afterSends n).fate m = l.fate (m + n) := rfl

@[simp] theorem incoming_withIncoming (l : Line M T) (msgs : List M) :
    (l.withIncoming msgs).incoming = msgs := rfl

@[simp] theorem fate_withIncoming (l : Line M T) (msgs : List M) :
    (l.withIncoming msgs).fate = l.fate := rfl

end Line

inductive Event (M : Type) {E : Type} (A : E → Type)
  | sent (m : M)
  | received (m : M)
  | called (e : E) (reply : A e)

structure End (M T : Type) {E : Type} (A : E → Type) (F R σ : Type) where
  outcome : Except F R
  store : σ
  line : Line M T
  trace : List (Event M A)

namespace End

def prepend (events : List (Event M A)) (e : End M T A F R σ) : End M T A F R σ :=
  { e with trace := events ++ e.trace }

def andThen (e : End M T A F R σ) (f : R → σ → Line M T → End M T A F S σ) :
    End M T A F S σ :=
  match e.outcome with
  | .ok r => (f r e.store e.line).prepend e.trace
  | .error x => ⟨.error x, e.store, e.line, e.trace⟩

@[simp] theorem outcome_prepend (events : List (Event M A)) (e : End M T A F R σ) :
    (e.prepend events).outcome = e.outcome := rfl

@[simp] theorem trace_prepend (events : List (Event M A)) (e : End M T A F R σ) :
    (e.prepend events).trace = events ++ e.trace := rfl

@[simp] theorem prepend_prepend (events more : List (Event M A)) (e : End M T A F R σ) :
    (e.prepend more).prepend events = e.prepend (events ++ more) := by
  simp [prepend]

@[simp] theorem prepend_andThen (events : List (Event M A)) (e : End M T A F R σ)
    (f : R → σ → Line M T → End M T A F S σ) :
    (e.prepend events).andThen f = (e.andThen f).prepend events := by
  unfold andThen
  cases h : e.outcome with
  | ok r => simp [prepend, h]
  | error x => simp [prepend, h]

end End

section Play

variable (handle : (e : E) → σ → A e × σ)

/-- The run of a party against a line. -/
def play : Proc M T A F R → σ → Line M T → End M T A F R σ
  | .ret r, s, l => ⟨.ok r, s, l, []⟩
  | .fail x, s, l => ⟨.error x, s, l, []⟩
  | .send m k, s, l => (play (k (l.fate 0)) s l.afterSend).prepend [.sent m]
  | .recv k, s, l =>
    match l.incoming with
    | [] => play (k (.error l.closed)) s l
    | m :: msgs => (play (k (.ok m)) s (l.withIncoming msgs)).prepend [.received m]
  | .call e k, s, l => (play (k (handle e s).1) (handle e s).2 l).prepend [.called e (handle e s).1]

variable {handle} (s : σ) {l : Line M T}

@[simp] theorem play_ret (r : R) :
    play handle (.ret r : Proc M T A F R) s l = ⟨.ok r, s, l, []⟩ := rfl

@[simp] theorem play_fail (x : F) :
    play handle (.fail x : Proc M T A F R) s l = ⟨.error x, s, l, []⟩ := rfl

@[simp] theorem play_send (m : M) (k : Except T Unit → Proc M T A F R) :
    play handle (.send m k) s l = (play handle (k (l.fate 0)) s l.afterSend).prepend [.sent m] :=
  rfl

theorem play_recv_nil (h : l.incoming = []) (k : Except T M → Proc M T A F R) :
    play handle (.recv k) s l = play handle (k (.error l.closed)) s l := by
  rw [play, h]

theorem play_recv_cons {m : M} {msgs : List M} (h : l.incoming = m :: msgs)
    (k : Except T M → Proc M T A F R) :
    play handle (.recv k) s l =
      (play handle (k (.ok m)) s (l.withIncoming msgs)).prepend [.received m] := by
  rw [play, h]

theorem play_call {e : E} {a : A e} {s' : σ} (h : handle e s = (a, s'))
    (k : A e → Proc M T A F R) :
    play handle (.call e k) s l = (play handle (k a) s' l).prepend [.called e a] := by
  rw [play, h]

/-- By induction on the first process. -/
theorem play_bind (p : Proc M T A F R) (f : R → Proc M T A F S) (s : σ) (l : Line M T) :
    play handle (p >>= f) s l =
      (play handle p s l).andThen fun r s' l' ↦ play handle (f r) s' l' := by
  induction p generalizing s l with
  | ret r => rfl
  | fail x => rfl
  | send m k ih => rw [Proc.send_bind, play_send, play_send, ih, End.prepend_andThen]
  | recv k ih =>
    rw [Proc.recv_bind]
    cases h : l.incoming with
    | nil => rw [play_recv_nil s h, play_recv_nil s h, ih]
    | cons m msgs => rw [play_recv_cons s h, play_recv_cons s h, ih, End.prepend_andThen]
  | call e k ih => rw [Proc.call_bind, play, play, ih, End.prepend_andThen]

theorem play_bind_ok {p : Proc M T A F R} {s s' : σ} {l' : Line M T} {r : R}
    {events : List (Event M A)} (h : play handle p s l = ⟨.ok r, s', l', events⟩)
    (f : R → Proc M T A F S) :
    play handle (p >>= f) s l = (play handle (f r) s' l').prepend events := by
  rw [play_bind, h]
  rfl

/-- Continuations that agree on what the first process ends in give the same run. -/
theorem play_bind_congr {p : Proc M T A F R} {f g : R → Proc M T A F S} {s : σ}
    (h : ∀ r, (play handle p s l).outcome = .ok r → play handle (f r) (play handle p s l).store
      (play handle p s l).line = play handle (g r) (play handle p s l).store
        (play handle p s l).line) :
    play handle (p >>= f) s l = play handle (p >>= g) s l := by
  rw [play_bind, play_bind, End.andThen, End.andThen]
  split
  · next r hr => rw [h r hr]
  · rfl

end Play

section Only

/-- Whatever it is answered, the party sends only messages with this property. -/
def Only (P : M → Prop) : Proc M T A F R → Prop
  | .ret _ | .fail _ => True
  | .send m k => P m ∧ ∀ x, Only P (k x)
  | .recv k => ∀ x, Only P (k x)
  | .call _ k => ∀ x, Only P (k x)

variable {P : M → Prop} {p : Proc M T A F R}

theorem Only.bind {f : R → Proc M T A F S} (h : Only P p) (hf : ∀ r, Only P (f r)) :
    Only P (p >>= f) := by
  induction p with
  | ret r => exact hf r
  | fail x => trivial
  | send m k ih => exact ⟨h.1, fun x ↦ ih x (h.2 x)⟩
  | recv k ih => exact fun x ↦ ih x (h x)
  | call e k ih => exact fun x ↦ ih x (h x)

theorem Only.sent {handle : (e : E) → σ → A e × σ} {s : σ} {l : Line M T} {m : M}
    (h : Only P p) (hm : .sent m ∈ (play handle p s l).trace) : P m := by
  induction p generalizing s l with
  | ret r => cases hm
  | fail x => cases hm
  | send m' k ih =>
    rw [play_send] at hm
    rcases List.mem_cons.mp hm with hhead | htail
    · cases hhead
      exact h.1
    · exact ih _ (h.2 _) htail
  | recv k ih =>
    cases hin : l.incoming with
    | nil =>
      rw [play_recv_nil s hin] at hm
      exact ih _ (h _) hm
    | cons m' msgs =>
      rw [play_recv_cons s hin] at hm
      exact ih _ (h _) ((List.mem_cons.mp hm).resolve_left (fun hne ↦ by cases hne))
  | call e k ih =>
    exact ih _ (h _) ((List.mem_cons.mp hm).resolve_left (fun hne ↦ by cases hne))

end Only

end RsqliteRsync.Foundation.Script
