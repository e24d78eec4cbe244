import RsqliteRsync.Foundation.Process

namespace RsqliteRsync.Foundation.Interference

open Process Schedule

variable {M T E F R S σ : Type} {A : E → Type} {answers : σ → (e : E) → A e → σ → Prop}
  {rely : σ → σ → Prop} {s s' : σ}

variable (answers rely) in
/-- A process makes its calls, and between them others change the state. -/
inductive Step : Proc M T A F R × σ → Proc M T A F R × σ → Prop
  | call {e : E} {k : A e → Proc M T A F R} {s s' : σ} {a : A e} :
      answers s e a s' → Step (.call e k, s) (k a, s')
  | other {p : Proc M T A F R} {s s' : σ} : rely s s' → Step (p, s) (p, s')

variable (answers rely) in
/-- Whatever others do, the process returns only what is right by then. -/
def Secures (Q : R → σ → Prop) : Proc M T A F R → σ → Prop
  | .ret r, s => ∀ s', Reaches rely s s' → Q r s'
  | .call e k, s => ∀ s', Reaches rely s s' → ∀ a s'', answers s' e a s'' → Secures Q (k a) s''
  | .fail _, _ | .send _ _, _ | .recv _, _ => True

variable {Q : R → σ → Prop}

theorem Secures.step {x y : Proc M T A F R × σ} (h : Secures answers rely Q x.1 x.2)
    (hstep : Step answers rely x y) : Secures answers rely Q y.1 y.2 := by
  cases hstep with
  | call ha => exact h _ (.refl _) _ _ ha
  | @other p s s' hrely =>
    cases p with
    | ret r => exact fun s'' hs ↦ h s'' (.head hrely hs)
    | call e k => exact fun s'' hs ↦ h s'' (.head hrely hs)
    | fail f | send m k | recv k => trivial

theorem Secures.sound {p : Proc M T A F R} {r : R} (h : Secures answers rely Q p s)
    (hrun : Reaches (Step answers rely) (p, s) (.ret r, s')) : Q r s' := by
  have hend := hrun.invariant (I := fun x ↦ Secures answers rely Q x.1 x.2) h
    fun _ _ _ hx hstep ↦ hx.step hstep
  exact hend s' (.refl s')

theorem Secures.imp {Q' : R → σ → Prop} {p : Proc M T A F R} (h : Secures answers rely Q p s)
    (hQ : ∀ r s, Q r s → Q' r s) : Secures answers rely Q' p s := by
  induction p generalizing s with
  | ret r => exact fun s' hs ↦ hQ r s' (h s' hs)
  | call e k ih => exact fun s' hs a s'' ha ↦ ih a (h s' hs a s'' ha)
  | fail f | send m k | recv k => trivial

theorem Secures.bind {Q : S → σ → Prop} {p : Proc M T A F R} {f : R → Proc M T A F S}
    (h : Secures answers rely (fun r s ↦ Secures answers rely Q (f r) s) p s) :
    Secures answers rely Q (p >>= f) s := by
  induction p generalizing s with
  | ret r => exact h s (.refl s)
  | call e k ih => exact fun s' hs a s'' ha ↦ ih a (h s' hs a s'' ha)
  | fail f | send m k | recv k => trivial

section Stable

variable (rely) in
def Stable (P : σ → Prop) : Prop := ∀ s s', P s → rely s s' → P s'

variable {P : σ → Prop}

theorem Stable.reaches (hP : Stable rely P) (hs : P s) (h : Reaches rely s s') : P s' :=
  h.invariant hs fun _ _ _ hx hstep ↦ hP _ _ hx hstep

theorem secures_ret {r : R} (hP : Stable rely P) (hs : P s) (hQ : ∀ s, P s → Q r s) :
    Secures (M := M) (T := T) (F := F) answers rely Q (.ret r) s :=
  fun s' h ↦ hQ s' (hP.reaches hs h)

theorem secures_call {e : E} {k : A e → Proc M T A F R} (hP : Stable rely P) (hs : P s)
    (h : ∀ s a s', P s → answers s e a s' → Secures answers rely Q (k a) s') :
    Secures answers rely Q (.call e k) s :=
  fun s' hs' a s'' ha ↦ h s' a s'' (hP.reaches hs hs') ha

end Stable

end RsqliteRsync.Foundation.Interference
