import RsqliteRsync.Foundation.Process

namespace RsqliteRsync.Foundation.Breakdown

open Process Schedule

variable {M T E E' F R S σ τ : Type} {A : E → Type} {A' : E' → Type} {alarm : M → Prop}

section Process

variable (alarm)

/-- The process has no result any more: it only sends alarms and waits, until it fails. -/
def Doomed : Proc M T A F R → Prop
  | .ret _ | .call _ _ => False
  | .fail _ => True
  | .send m k => alarm m ∧ ∀ x, Doomed (k x)
  | .recv k => ∀ x, Doomed (k x)

/-- Whatever goes wrong dooms the process: a failure of the transport, an alarm of the other party,
a bad answer to a call. -/
def Strict (bad : (e : E) → A e → Prop) : Proc M T A F R → Prop
  | .ret _ | .fail _ => True
  | .send _ k => (∀ t, Doomed alarm (k (.error t))) ∧ Strict bad (k (.ok ()))
  | .recv k => (∀ t, Doomed alarm (k (.error t))) ∧
      ∀ m, Strict bad (k (.ok m)) ∧ (alarm m → Doomed alarm (k (.ok m)))
  | .call e k => ∀ a, Strict bad (k a) ∧ (bad e a → Doomed alarm (k a))

variable {alarm} {bad : (e : E) → A e → Prop} {p : Proc M T A F R} {f : R → Proc M T A F S}

theorem Doomed.bind (h : Doomed alarm p) : Doomed alarm (p >>= f) := by
  induction p with
  | ret r | call e k => exact h.elim
  | fail x => trivial
  | send m k ih => exact ⟨h.1, fun x ↦ ih x (h.2 x)⟩
  | recv k ih => exact fun x ↦ ih x (h x)

theorem Strict.bind (h : Strict alarm bad p) (hf : ∀ r, Strict alarm bad (f r)) :
    Strict alarm bad (p >>= f) := by
  induction p with
  | ret r => exact hf r
  | fail x => trivial
  | send m k ih => exact ⟨fun t ↦ (h.1 t).bind, ih _ h.2⟩
  | recv k ih =>
    exact ⟨fun t ↦ (h.1 t).bind, fun m ↦ ⟨ih _ (h.2 m).1, fun hm ↦ ((h.2 m).2 hm).bind⟩⟩
  | call e k ih => exact fun a ↦ ⟨ih a (h a).1, fun ha ↦ ((h a).2 ha).bind⟩

end Process

section Party

variable (alarm) (faulty : (e : E) → σ → A e → σ → Prop)

/-- What can go wrong with a party: an operation of the transport fails, and what was to be sent may
be underway, a call fails, the process is stopped. Who has failed may still raise an alarm. -/
inductive Slips : Party M T A F R σ → Party M T A F R σ → Prop
  | send {m : M} {k : Except T Unit → Proc M T A F R} {s : σ} {sent : List M} {taken : ℕ} {t : T} :
      Slips ⟨.send m k, s, sent, taken⟩ ⟨k (.error t), s, sent, taken⟩
  | late {m : M} {k : Except T Unit → Proc M T A F R} {s : σ} {sent : List M} {taken : ℕ} {t : T} :
      Slips ⟨.send m k, s, sent, taken⟩ ⟨k (.error t), s, sent ++ [m], taken⟩
  | recv {k : Except T M → Proc M T A F R} {s : σ} {sent : List M} {taken : ℕ} {t : T} :
      Slips ⟨.recv k, s, sent, taken⟩ ⟨k (.error t), s, sent, taken⟩
  | call {e : E} {a : A e} {k : A e → Proc M T A F R} {s s' : σ} {sent : List M} {taken : ℕ} :
      faulty e s a s' → Slips ⟨.call e k, s, sent, taken⟩ ⟨k a, s', sent, taken⟩
  | stop {p : Party M T A F R σ} {f : F} : (∀ r, p.proc ≠ .ret r) →
      Slips p { p with proc := .fail f }
  | report {f : F} {m : M} {s : σ} {sent : List M} {taken : ℕ} : alarm m →
      Slips ⟨.fail f, s, sent, taken⟩ ⟨.fail f, s, sent ++ [m], taken⟩

variable {alarm}

def Raised (alarm : M → Prop) (sent sent' : List M) : Prop :=
  ∃ more, sent' = sent ++ more ∧ ∀ m ∈ more, alarm m

theorem Raised.refl (sent : List M) : Raised alarm sent sent :=
  ⟨[], (List.append_nil _).symm, fun _ hm ↦ absurd hm List.not_mem_nil⟩

theorem Raised.concat {sent sent' : List M} {m : M} (h : Raised alarm sent sent') (hm : alarm m) :
    Raised alarm sent (sent' ++ [m]) := by
  obtain ⟨more, rfl, hmore⟩ := h
  refine ⟨more ++ [m], List.append_assoc .., fun m' hm' ↦ ?_⟩
  rcases List.mem_append.mp hm' with hold | hnew
  · exact hmore m' hold
  · rwa [List.mem_singleton.mp hnew]

variable (alarm)

/-- `p` is where `q` is, or it is doomed there: it has only raised alarms since, and its state is
that of `q` unless the call failed that `q` is about to make. -/
inductive Tracks : Party M T A F R σ → Party M T A F R σ → Prop
  | same (p : Party M T A F R σ) : Tracks p p
  | doomed {p q : Party M T A F R σ} : Doomed alarm p.proc → Raised alarm q.sent p.sent →
      (p.store = q.store ∨ ∃ e k a, q.proc = .call e k ∧ faulty e q.store a p.store) → Tracks p q

variable {alarm faulty} {bad : (e : E) → A e → Prop} {handle : (e : E) → σ → A e × σ}
  {p p' q : Party M T A F R σ} {known incoming : List M}

theorem Strict.advance (h : Strict alarm bad p.proc) (hadv : p.advance handle known = some p') :
    Strict alarm bad p'.proc := by
  rcases p with ⟨proc, s, sent, taken⟩
  cases proc with
  | ret r | fail x => simp [Party.advance] at hadv
  | send m k =>
    simp only [Party.advance, Option.some.injEq] at hadv
    subst hadv
    exact h.2
  | recv k =>
    simp only [Party.advance, Option.map_eq_some_iff] at hadv
    obtain ⟨m, -, rfl⟩ := hadv
    exact (h.2 m).1
  | call e k =>
    simp only [Party.advance, Option.some.injEq] at hadv
    subst hadv
    exact (h _).1

theorem Tracks.sent (h : Tracks alarm faulty p q) : Raised alarm q.sent p.sent := by
  cases h with
  | same => exact .refl _
  | doomed _ hsent _ => exact hsent

theorem Tracks.store (h : Tracks alarm faulty p q) :
    p.store = q.store ∨ ∃ e k a, q.proc = .call e k ∧ faulty e q.store a p.store := by
  cases h with
  | same => exact .inl rfl
  | doomed _ _ hstore => exact hstore

theorem Tracks.eq_of_ret {r : R} (h : Tracks alarm faulty p q) (hret : p.proc = .ret r) :
    p = q := by
  cases h with
  | same => rfl
  | doomed hdoomed =>
    rw [hret] at hdoomed
    exact hdoomed.elim

theorem Tracks.advance (h : Tracks alarm faulty p q) (hstrict : Strict alarm bad q.proc)
    (hincoming : Raised alarm known incoming) (hadv : p.advance handle incoming = some p') :
    Tracks alarm faulty p' q ∨
      ∃ q', q.advance handle known = some q' ∧ Tracks alarm faulty p' q' := by
  rcases p with ⟨proc, s, sent, taken⟩
  cases h with
  | same =>
    cases proc with
    | ret r | fail x => simp [Party.advance] at hadv
    | send m k | call e k => exact .inr ⟨p', hadv, .same p'⟩
    | recv k =>
      simp only [Party.advance, Option.map_eq_some_iff] at hadv
      obtain ⟨m, hm, rfl⟩ := hadv
      obtain ⟨more, rfl, hmore⟩ := hincoming
      rcases lt_or_ge taken known.length with hlt | hge
      · rw [List.getElem?_append_left hlt] at hm
        refine .inr ⟨_, ?_, .same _⟩
        simp only [Party.advance, hm, Option.map_some]
      · rw [List.getElem?_append_right hge] at hm
        have halarm := hmore m (List.mem_of_getElem? hm)
        exact .inl (.doomed ((hstrict.2 m).2 halarm) (.refl _) (.inl rfl))
  | doomed hdoomed hsent hstore =>
    cases proc with
    | ret r | call e k => exact hdoomed.elim
    | fail x => simp [Party.advance] at hadv
    | send m k =>
      simp only [Party.advance, Option.some.injEq] at hadv
      subst hadv
      exact .inl (.doomed (hdoomed.2 _) (hsent.concat hdoomed.1) hstore)
    | recv k =>
      simp only [Party.advance, Option.map_eq_some_iff] at hadv
      obtain ⟨m, -, rfl⟩ := hadv
      exact .inl (.doomed (hdoomed _) hsent hstore)

theorem Tracks.slips (h : Tracks alarm faulty p q) (hstrict : Strict alarm bad q.proc)
    (hbad : ∀ e s a s', faulty e s a s' → bad e a) (hslips : Slips alarm faulty p p') :
    Tracks alarm faulty p' q ∨
      ∃ q', q.advance handle known = some q' ∧ Tracks alarm faulty p' q' := by
  cases h with
  | same =>
    cases hslips with
    | send => exact .inl (.doomed (hstrict.1 _) (.refl _) (.inl rfl))
    | late => exact .inr ⟨_, rfl, .doomed (hstrict.1 _) (.refl _) (.inl rfl)⟩
    | recv => exact .inl (.doomed (hstrict.1 _) (.refl _) (.inl rfl))
    | call hfaulty =>
      exact .inl (.doomed ((hstrict _).2 (hbad _ _ _ _ hfaulty)) (.refl _)
        (.inr ⟨_, _, _, rfl, hfaulty⟩))
    | stop => exact .inl (.doomed trivial (.refl _) (.inl rfl))
    | report hm => exact .inl (.doomed trivial ((Raised.refl _).concat hm) (.inl rfl))
  | doomed hdoomed hsent hstore =>
    cases hslips with
    | send => exact .inl (.doomed (hdoomed.2 _) hsent hstore)
    | late => exact .inl (.doomed (hdoomed.2 _) (hsent.concat hdoomed.1) hstore)
    | recv => exact .inl (.doomed (hdoomed _) hsent hstore)
    | call => exact hdoomed.elim
    | stop => exact .inl (.doomed trivial hsent hstore)
    | report hm => exact .inl (.doomed trivial (hsent.concat hm) hstore)

end Party

section Run

variable (alarm) (hl : (e : E) → σ → A e × σ) (hr : (e : E') → τ → A' e × τ)
  (fl : (e : E) → σ → A e → σ → Prop) (fr : (e : E') → τ → A' e → τ → Prop)

inductive Unreliable : Duplex M T A A' F R S σ τ → Duplex M T A A' F R S σ τ → Prop
  | step {x y : Duplex M T A A' F R S σ τ} : Step hl hr x y → Unreliable x y
  | left {l l' : Party M T A F R σ} {r : Party M T A' F S τ} : Slips alarm fl l l' →
      Unreliable ⟨l, r⟩ ⟨l', r⟩
  | right {l : Party M T A F R σ} {r r' : Party M T A' F S τ} : Slips alarm fr r r' →
      Unreliable ⟨l, r⟩ ⟨l, r'⟩

variable {alarm hl hr fl fr} {badl : (e : E) → A e → Prop} {badr : (e : E') → A' e → Prop}
  {a x x' : Duplex M T A A' F R S σ τ}

def Shadowed (alarm : M → Prop) (hl : (e : E) → σ → A e × σ) (hr : (e : E') → τ → A' e × τ)
    (fl : (e : E) → σ → A e → σ → Prop) (fr : (e : E') → τ → A' e → τ → Prop)
    (a x : Duplex M T A A' F R S σ τ) : Prop :=
  ∃ y, Reaches (Step hl hr) a y ∧ Tracks alarm fl x.left y.left ∧ Tracks alarm fr x.right y.right

theorem strict_of_reaches (h : Reaches (Step hl hr) a x) (hl' : Strict alarm badl a.left.proc)
    (hr' : Strict alarm badr a.right.proc) :
    Strict alarm badl x.left.proc ∧ Strict alarm badr x.right.proc := by
  refine h.invariant (I := fun c ↦ Strict alarm badl c.left.proc ∧ Strict alarm badr c.right.proc)
    ⟨hl', hr'⟩ fun c d _ hc hstep ↦ ?_
  cases hstep with
  | left hadv => exact ⟨hc.1.advance hadv, hc.2⟩
  | right hadv => exact ⟨hc.1, hc.2.advance hadv⟩

theorem Shadowed.step (h : Shadowed alarm hl hr fl fr a x) (hl' : Strict alarm badl a.left.proc)
    (hr' : Strict alarm badr a.right.proc) (hbadl : ∀ e s b s', fl e s b s' → badl e b)
    (hbadr : ∀ e t b t', fr e t b t' → badr e b) (hstep : Unreliable alarm hl hr fl fr x x') :
    Shadowed alarm hl hr fl fr a x' := by
  obtain ⟨⟨l, r⟩, hy, hleft, hright⟩ := h
  obtain ⟨hsl, hsr⟩ := strict_of_reaches hy hl' hr'
  -- a move of one party, with what the sound session does in the meantime
  have hl_moves {p : Party M T A F R σ} (hp : Tracks alarm fl p l ∨
      ∃ l', l.advance hl r.sent = some l' ∧ Tracks alarm fl p l') :
      Shadowed alarm hl hr fl fr a ⟨p, x.right⟩ := by
    rcases hp with hp | ⟨l', hadv, hp⟩
    · exact ⟨_, hy, hp, hright⟩
    · exact ⟨⟨l', r⟩, hy.tail (.left hadv), hp, hright⟩
  have hr_moves {p : Party M T A' F S τ} (hp : Tracks alarm fr p r ∨
      ∃ r', r.advance hr l.sent = some r' ∧ Tracks alarm fr p r') :
      Shadowed alarm hl hr fl fr a ⟨x.left, p⟩ := by
    rcases hp with hp | ⟨r', hadv, hp⟩
    · exact ⟨_, hy, hleft, hp⟩
    · exact ⟨⟨l, r'⟩, hy.tail (.right hadv), hleft, hp⟩
  cases hstep with
  | step hstep =>
    cases hstep with
    | left hadv => exact hl_moves (hleft.advance hsl hright.sent hadv)
    | right hadv => exact hr_moves (hright.advance hsr hleft.sent hadv)
  | left hslips => exact hl_moves (hleft.slips hsl hbadl hslips)
  | right hslips => exact hr_moves (hright.slips hsr hbadr hslips)

/-- Whatever goes wrong, a party that is not doomed is where it can be in a sound session. -/
theorem shadowed (h : Reaches (Unreliable alarm hl hr fl fr) a x)
    (hl' : Strict alarm badl a.left.proc) (hr' : Strict alarm badr a.right.proc)
    (hbadl : ∀ e s b s', fl e s b s' → badl e b) (hbadr : ∀ e t b t', fr e t b t' → badr e b) :
    Shadowed alarm hl hr fl fr a x :=
  h.invariant ⟨a, .refl a, .same _, .same _⟩ fun _ _ _ hc hstep ↦
    hc.step hl' hr' hbadl hbadr hstep

end Run

end RsqliteRsync.Foundation.Breakdown
