import RsqliteRsync.Foundation.Schedule
import Mathlib.Data.List.Basic

namespace RsqliteRsync.Foundation.Process

open Schedule

/-- One party of a conversation, up to its next interaction: it ends with a result or a
failure, sends a message, waits for one, or calls on its surroundings. The transport answers
a send or a receive with an error of type `T` when it breaks. -/
inductive Proc (M T : Type) {E : Type} (A : E → Type) (F R : Type) : Type
  | ret (r : R) : Proc M T A F R
  | fail (f : F) : Proc M T A F R
  | send (m : M) (k : Except T Unit → Proc M T A F R) : Proc M T A F R
  | recv (k : Except T M → Proc M T A F R) : Proc M T A F R
  | call (e : E) (k : A e → Proc M T A F R) : Proc M T A F R

variable {M T E E' F R S σ τ : Type} {A : E → Type} {A' : E' → Type}

namespace Proc

def bind : Proc M T A F R → (R → Proc M T A F S) → Proc M T A F S
  | .ret r, f => f r
  | .fail x, _ => .fail x
  | .send m k, f => .send m (fun x ↦ (k x).bind f)
  | .recv k, f => .recv (fun x ↦ (k x).bind f)
  | .call e k, f => .call e (fun x ↦ (k x).bind f)

instance : Monad (Proc M T A F) where
  pure := .ret
  bind := bind

variable (f : R → Proc M T A F S)

@[simp] theorem pure_eq (r : R) : (pure r : Proc M T A F R) = .ret r := rfl

@[simp] theorem ret_bind (r : R) : (Proc.ret r >>= f) = f r := rfl

@[simp] theorem fail_bind (x : F) : (Proc.fail x >>= f) = .fail x := rfl

@[simp] theorem send_bind (m : M) (k : Except T Unit → Proc M T A F R) :
    (Proc.send m k >>= f) = .send m (fun x ↦ k x >>= f) := rfl

@[simp] theorem recv_bind (k : Except T M → Proc M T A F R) :
    (Proc.recv k >>= f) = .recv (fun x ↦ k x >>= f) := rfl

@[simp] theorem call_bind (e : E) (k : A e → Proc M T A F R) :
    (Proc.call e k >>= f) = .call e (fun x ↦ k x >>= f) := rfl

theorem bind_ret (p : Proc M T A F R) : (p >>= Proc.ret) = p := by
  induction p with
  | ret r | fail x => rfl
  | send m k ih => simp only [send_bind, ih]
  | recv k ih => simp only [recv_bind, ih]
  | call e k ih => simp only [call_bind, ih]

theorem bind_assoc {Q : Type} (p : Proc M T A F R) (g : S → Proc M T A F Q) :
    (p >>= f >>= g) = (p >>= fun r ↦ f r >>= g) := by
  induction p with
  | ret r | fail x => rfl
  | send m k ih => simp only [send_bind, ih]
  | recv k ih => simp only [recv_bind, ih]
  | call e k ih => simp only [call_bind, ih]

instance : LawfulMonad (Proc M T A F) :=
  LawfulMonad.mk' _ bind_ret (fun _ _ ↦ rfl) (fun p f g ↦ bind_assoc f p g)

def Idle : Proc M T A F R → Prop
  | .ret _ | .fail _ | .recv _ => True
  | .send _ _ | .call _ _ => False

end Proc

/-- A party in the middle of a run: what it still does, the state its calls act on, every
message it has sent and how many messages of the other party it has taken. -/
structure Party (M T : Type) {E : Type} (A : E → Type) (F R σ : Type) where
  proc : Proc M T A F R
  store : σ
  sent : List M
  taken : ℕ

/-- The next move of a party, when it has one. The messages of the other party arrive in the
order they were sent. -/
def Party.advance (handle : (e : E) → σ → A e × σ) (incoming : List M)
    (p : Party M T A F R σ) : Option (Party M T A F R σ) :=
  match p.proc with
  | .ret _ | .fail _ => none
  | .send m k => some { p with proc := k (.ok ()), sent := p.sent ++ [m] }
  | .recv k => incoming[p.taken]?.map fun m ↦
      { p with proc := k (.ok m), taken := p.taken + 1 }
  | .call e k => some { p with proc := k (handle e p.store).1, store := (handle e p.store).2 }

theorem Party.advance_append {handle : (e : E) → σ → A e × σ} {incoming : List M}
    {p q : Party M T A F R σ} (h : p.advance handle incoming = some q) (more : List M) :
    p.advance handle (incoming ++ more) = some q := by
  rcases p with ⟨proc, s, sent, taken⟩
  cases proc with
  | ret r | fail x | send m k | call e k => exact h
  | recv k =>
    simp only [Party.advance, Option.map_eq_some_iff] at h ⊢
    obtain ⟨m, hm, rfl⟩ := h
    obtain ⟨hlt, -⟩ := List.getElem?_eq_some_iff.mp hm
    exact ⟨m, by rw [List.getElem?_append_left hlt, hm], rfl⟩

theorem Party.advance_sent {handle : (e : E) → σ → A e × σ} {incoming : List M}
    {p q : Party M T A F R σ} (h : p.advance handle incoming = some q) :
    ∃ more, q.sent = p.sent ++ more := by
  rcases p with ⟨proc, s, sent, taken⟩
  cases proc with
  | ret r | fail x => simp [Party.advance] at h
  | send m k =>
    simp only [Party.advance, Option.some.injEq] at h
    exact ⟨[m], by rw [← h]⟩
  | recv k =>
    simp only [Party.advance, Option.map_eq_some_iff] at h
    obtain ⟨m, -, rfl⟩ := h
    exact ⟨[], (List.append_nil _).symm⟩
  | call e k =>
    simp only [Party.advance, Option.some.injEq] at h
    exact ⟨[], by rw [← h, List.append_nil]⟩

theorem Party.advance_store {handle : (e : E) → σ → A e × σ} {incoming : List M}
    {p q : Party M T A F R σ} (h : p.advance handle incoming = some q) :
    q.store = p.store ∨ ∃ e, q.store = (handle e p.store).2 := by
  rcases p with ⟨proc, s, sent, taken⟩
  cases proc with
  | ret r | fail x => simp [Party.advance] at h
  | send m k =>
    simp only [Party.advance, Option.some.injEq] at h
    exact .inl (by rw [← h])
  | recv k =>
    simp only [Party.advance, Option.map_eq_some_iff] at h
    obtain ⟨m, -, rfl⟩ := h
    exact .inl rfl
  | call e k =>
    simp only [Party.advance, Option.some.injEq] at h
    exact .inr ⟨e, by rw [← h]⟩

/-- Whether a party can move does not depend on how its calls are answered. -/
theorem Party.advance_other {handle : (e : E) → σ → A e × σ} {incoming : List M}
    {p q : Party M T A F R σ} (h : p.advance handle incoming = some q)
    (handle' : (e : E) → σ → A e × σ) : ∃ q', p.advance handle' incoming = some q' := by
  rcases p with ⟨proc, s, sent, taken⟩
  cases proc with
  | ret r | fail x => simp [Party.advance] at h
  | send m k => exact ⟨_, rfl⟩
  | recv k => exact ⟨q, h⟩
  | call e k => exact ⟨_, rfl⟩

structure Duplex (M T : Type) {E E' : Type} (A : E → Type) (A' : E' → Type)
    (F R S σ τ : Type) where
  left : Party M T A F R σ
  right : Party M T A' F S τ

section Run

variable (hl : (e : E) → σ → A e × σ) (hr : (e : E') → τ → A' e × τ)

inductive Step : Duplex M T A A' F R S σ τ → Duplex M T A A' F R S σ τ → Prop
  | left {l l' : Party M T A F R σ} {r : Party M T A' F S τ} :
      l.advance hl r.sent = some l' → Step ⟨l, r⟩ ⟨l', r⟩
  | right {l : Party M T A F R σ} {r r' : Party M T A' F S τ} :
      r.advance hr l.sent = some r' → Step ⟨l, r⟩ ⟨l, r'⟩

variable {hl hr} in
/-- A property of the right party's state that its calls keep holds in every run. -/
theorem reaches_right_store {I : τ → Prop} (hcall : ∀ e t, I t → I (hr e t).2)
    {a b : Duplex M T A A' F R S σ τ} (h : Reaches (Step hl hr) a b) (ha : I a.right.store) :
    I b.right.store := by
  refine h.invariant (I := fun c ↦ I c.right.store) ha fun x y _ hx hstep ↦ ?_
  cases hstep with
  | left => exact hx
  | right hadv =>
    rcases Party.advance_store hadv with hkept | ⟨e, hchanged⟩
    · rw [hkept]
      exact hx
    · rw [hchanged]
      exact hcall e _ hx

/-- The parties do not disturb each other: a move of one only adds to what the other may
receive, so moves of different parties commute. -/
theorem diamond : Diamond (Step (R := R) (S := S) (M := M) (T := T) (F := F) hl hr) := by
  intro a b c hb hc
  cases hb with
  | @left l l₁ r h₁ =>
    cases hc with
    | left h₂ =>
      rw [h₁, Option.some.injEq] at h₂
      exact .inl (by rw [h₂])
    | @right _ _ r₂ h₂ =>
      obtain ⟨more, hm⟩ := Party.advance_sent h₁
      obtain ⟨more', hm'⟩ := Party.advance_sent h₂
      refine .inr ⟨⟨l₁, r₂⟩, .right ?_, .left ?_⟩
      · rw [hm]; exact Party.advance_append h₂ more
      · rw [hm']; exact Party.advance_append h₁ more'
  | @right l r r₁ h₁ =>
    cases hc with
    | @left _ l₂ _ h₂ =>
      obtain ⟨more, hm⟩ := Party.advance_sent h₁
      obtain ⟨more', hm'⟩ := Party.advance_sent h₂
      refine .inr ⟨⟨l₂, r₁⟩, .left ?_, .right ?_⟩
      · rw [hm]; exact Party.advance_append h₂ more
      · rw [hm']; exact Party.advance_append h₁ more'
    | right h₂ =>
      rw [h₁, Option.some.injEq] at h₂
      exact .inl (by rw [h₂])

def meet (p : Proc M T A F R) (q : Proc M T A' F S) (s : σ) (t : τ) (out back : List M) :
    Duplex M T A A' F R S σ τ :=
  ⟨⟨p, s, out, back.length⟩, ⟨q, t, back, out.length⟩⟩

variable {hl hr} {s : σ} {t : τ} {out back : List M} {m : M}

theorem left_sends (k : Except T Unit → Proc M T A F R) (k' : Except T M → Proc M T A' F S) :
    Reaches (Step hl hr) (meet (.send m k) (.recv k') s t out back)
      (meet (k (.ok ())) (k' (.ok m)) s t (out ++ [m]) back) := by
  have h : Step hl hr (meet (.send m k) (.recv k') s t out back)
      ⟨⟨k (.ok ()), s, out ++ [m], back.length⟩, ⟨.recv k', t, back, out.length⟩⟩ := .left rfl
  refine .head h (.head (.right ?_) (.refl _))
  simp [Party.advance]

theorem right_sends (k : Except T M → Proc M T A F R) (k' : Except T Unit → Proc M T A' F S) :
    Reaches (Step hl hr) (meet (.recv k) (.send m k') s t out back)
      (meet (k (.ok m)) (k' (.ok ())) s t out (back ++ [m])) := by
  have h : Step hl hr (meet (.recv k) (.send m k') s t out back)
      ⟨⟨.recv k, s, out, back.length⟩, ⟨k' (.ok ()), t, back ++ [m], out.length⟩⟩ := .right rfl
  refine .head h (.head (.left ?_) (.refl _))
  simp [Party.advance]

theorem right_calls {e : E'} {a : A' e} {t' : τ} (h : hr e t = (a, t')) (p : Proc M T A F R)
    (k : A' e → Proc M T A' F S) :
    Reaches (Step hl hr) (meet p (.call e k) s t out back) (meet p (k a) s t' out back) := by
  refine .head (.right ?_) (.refl _)
  simp [Party.advance, h]

theorem stuck_meet {p : Proc M T A F R} {q : Proc M T A' F S} (hp : p.Idle) (hq : q.Idle) :
    Stuck (Step hl hr) (meet p q s t out back) := by
  intro d hd
  cases hd with
  | left h => cases p <;> simp_all [Party.advance, Proc.Idle]
  | right h => cases q <;> simp_all [Party.advance, Proc.Idle]

/-- A schedule that leads to a state in which both parties wait or have finished decides the
outcome of every schedule. -/
theorem endsIn_meet {c : Duplex M T A A' F R S σ τ} {p : Proc M T A F R}
    {q : Proc M T A' F S} (h : Reaches (Step hl hr) c (meet p q s t out back))
    (hp : p.Idle) (hq : q.Idle) : EndsIn (Step hl hr) c (meet p q s t out back) :=
  (diamond hl hr).endsIn (stuck_meet hp hq) h

end Run

end RsqliteRsync.Foundation.Process
