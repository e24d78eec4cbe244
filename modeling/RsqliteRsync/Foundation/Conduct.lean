import RsqliteRsync.Foundation.HalfDuplex

namespace RsqliteRsync.Foundation.Conduct

open Process Schedule Script HalfDuplex

variable {M T E E' F R S σ τ : Type} {A : E → Type} {A' : E' → Type}

/-- Whatever it is answered, the process goes on from each of its calls as `P` allows. -/
def Calls (P : (e : E) → A e → Proc M T A F R → Prop) : Proc M T A F R → Prop
  | .ret _ | .fail _ => True
  | .send _ k => ∀ x, Calls P (k x)
  | .recv k => ∀ x, Calls P (k x)
  | .call e k => ∀ a, P e a (k a) ∧ Calls P (k a)

/-- Whatever it is answered, the process fails or sends something. -/
def MustSend : Proc M T A F R → Prop
  | .ret _ => False
  | .fail _ | .send _ _ => True
  | .recv k => ∀ x, MustSend (k x)
  | .call _ k => ∀ a, MustSend (k a)

section Bind

variable {P : (e : E) → A e → Proc M T A F R → Prop} {Q : (e : E) → A e → Proc M T A F S → Prop}
  {p : Proc M T A F R} {f : R → Proc M T A F S}

theorem Calls.bind (h : Calls P p) (hPQ : ∀ e a q, P e a q → Q e a (q >>= f))
    (hf : ∀ r, Calls Q (f r)) : Calls Q (p >>= f) := by
  induction p with
  | ret r => exact hf r
  | fail x => trivial
  | send m k ih => exact fun x ↦ ih x (h x)
  | recv k ih => exact fun x ↦ ih x (h x)
  | call e k ih => exact fun a ↦ ⟨hPQ e a _ (h a).1, ih a (h a).2⟩

theorem MustSend.bind (h : MustSend p) : MustSend (p >>= f) := by
  induction p with
  | ret r => exact h.elim
  | fail x | send m k => trivial
  | recv k ih => exact fun x ↦ ih x (h x)
  | call e k ih => exact fun a ↦ ih a (h a)

end Bind

theorem MustSend.shape {p : Proc M T A F R} {handle : (e : E) → σ → A e × σ} {s : σ} {l : Line M T}
    {r : R} (h : MustSend p) (hok : (play handle p s l).outcome = .ok r) :
    0 < (shape (play handle p s l).trace).count true := by
  induction p generalizing s l with
  | ret r => exact h.elim
  | fail x => cases hok
  | send m k => exact List.count_pos_iff.mpr List.mem_cons_self
  | recv k ih =>
    cases hin : l.incoming with
    | nil =>
      rw [play_recv_nil s hin] at hok ⊢
      exact ih _ (h _) hok
    | cons m msgs =>
      rw [play_recv_cons s hin] at hok ⊢
      rw [End.trace_prepend, shape_append, List.count_append]
      exact (ih _ (h _) hok).trans_le (Nat.le_add_left _ _)
  | call e k ih => exact ih _ (h _) hok

section Run

theorem Calls.advance {P : (e : E) → A e → Proc M T A F R → Prop}
    {handle : (e : E) → σ → A e × σ} {incoming : List M} {p q : Party M T A F R σ}
    (h : Calls P p.proc) (hadv : p.advance handle incoming = some q) : Calls P q.proc := by
  rcases p with ⟨proc, s, sent, taken⟩
  cases proc with
  | ret r | fail x => simp [Party.advance] at hadv
  | send m k =>
    simp only [Party.advance, Option.some.injEq] at hadv
    subst hadv
    exact h _
  | recv k =>
    simp only [Party.advance, Option.map_eq_some_iff] at hadv
    obtain ⟨m, -, rfl⟩ := hadv
    exact h _
  | call e k =>
    simp only [Party.advance, Option.some.injEq] at hadv
    subst hadv
    exact (h _).2

variable {hl : (e : E) → σ → A e × σ} {hr : (e : E') → τ → A' e × τ}
  {a x y z : Duplex M T A A' F R S σ τ}

theorem reaches_right_calls {P : (e : E') → A' e → Proc M T A' F S → Prop}
    (h : Reaches (Step hl hr) a x) (ha : Calls P a.right.proc) : Calls P x.right.proc := by
  refine h.invariant (I := fun c ↦ Calls P c.right.proc) ha fun c d _ hc hstep ↦ ?_
  cases hstep with
  | left => exact hc
  | right hadv => exact hc.advance hadv

theorem advance_ended {handle : (e : E) → σ → A e × σ} {incoming : List M} {p : Party M T A F R σ}
    (hended : Ended p.proc) : p.advance handle incoming = none := by
  rcases p with ⟨proc, s, sent, taken⟩
  cases proc with
  | ret r | fail f => rfl
  | send m k | recv k | call e k => exact hended.elim

theorem left_stays (h : Reaches (Step hl hr) x y) (hended : Ended x.left.proc) :
    y.left = x.left := by
  refine h.invariant (I := fun c ↦ c.left = x.left) rfl fun c d _ hc hstep ↦ ?_
  cases hstep with
  | @left l l' r hadv =>
    rw [show l = x.left from hc, advance_ended hended] at hadv
    cases hadv
  | right => exact hc

theorem right_stays (h : Reaches (Step hl hr) x y) (hended : Ended x.right.proc) :
    y.right = x.right := by
  refine h.invariant (I := fun c ↦ c.right = x.right) rfl fun c d _ hc hstep ↦ ?_
  cases hstep with
  | left => exact hc
  | @right l r r' hadv =>
    rw [show r = x.right from hc, advance_ended hended] at hadv
    cases hadv

variable {p : Proc M T A F R} {q : Proc M T A' F S} {s : σ} {t : τ} {u : S}

/-- A party that still has to send something keeps the other from ending, if the other ends only
with everything it sends. -/
theorem left_runs (closed : T) (h : Reaches (Step hl hr) (meet p q s t [] []) x)
    (hz : Reaches (Step hl hr) x z) (hright : z.right.proc = .ret u)
    (htaken : z.left.taken = z.right.sent.length) (hmust : MustSend x.right.proc) :
    ¬ Ended x.left.proc := by
  intro hended
  have hsame := left_stays hz hended
  obtain ⟨htakenl, -⟩ := taken_le h le_rfl le_rfl
  obtain ⟨hout, hback⟩ := sent_prefix hz
  obtain ⟨-, hcutz⟩ := cuts closed (h.trans hz) z.left.sent z.right.sent List.prefix_rfl
    List.prefix_rfl
  obtain ⟨hok, hsent, -⟩ := hcutz.ended hright
  obtain ⟨-, past, hplay, hpast, -⟩ := cuts closed h z.left.sent z.right.sent hout hback
  rw [hplay, End.outcome_prepend] at hok
  rw [hplay, End.trace_prepend, shape_append, List.count_append, hpast] at hsent
  have hmore := hmust.shape hok
  rw [hsame] at htaken
  omega

end Run

end RsqliteRsync.Foundation.Conduct
