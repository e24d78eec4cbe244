import RsqliteRsync.Foundation.HalfDuplex
import RsqliteRsync.Foundation.Stream

namespace RsqliteRsync.Foundation.Wire

open Process Schedule HalfDuplex Script Foundation.Stream

variable {M B T E E' F R S σ τ : Type} {A : E → Type} {A' : E' → Type}

structure Codec (M B T : Type) where
  encode : M → Except T (List B)
  take : Take M B T
  readSize : ℕ
  readSize_pos : 0 < readSize

inductive Doing (M B T : Type) {E : Type} (A : E → Type) (F R : Type)
  | run (p : Proc M T A F R)
  | write (rest : List B) (k : Except T Unit → Proc M T A F R)

structure Side (M B T : Type) {E : Type} (A : E → Type) (F R σ : Type) where
  doing : Doing M B T A F R
  store : σ
  buf : List B

/-- One move of a side, between the stream that it reads and the stream that it writes, of which the
latter holds at most `cap` units at a time. Reads and writes may be cut short anywhere. -/
inductive Side.Move (codec : Codec M B T) (handle : (e : E) → σ → A e × σ) (cap : ℕ) :
    Side M B T A F R σ → List B → List B → Side M B T A F R σ → List B → List B → Prop
  | call {e : E} {k : A e → Proc M T A F R} {s : σ} {buf inp out : List B} :
      Move codec handle cap ⟨.run (.call e k), s, buf⟩ inp out
        ⟨.run (k (handle e s).1), (handle e s).2, buf⟩ inp out
  | begin {m : M} {k : Except T Unit → Proc M T A F R} {s : σ} {frame buf inp out : List B} :
      codec.encode m = .ok frame →
      Move codec handle cap ⟨.run (.send m k), s, buf⟩ inp out ⟨.write frame k, s, buf⟩ inp out
  | refuse {m : M} {k : Except T Unit → Proc M T A F R} {s : σ} {e : T} {buf inp out : List B} :
      codec.encode m = .error e →
      Move codec handle cap ⟨.run (.send m k), s, buf⟩ inp out ⟨.run (k (.error e)), s, buf⟩ inp out
  | write {k : Except T Unit → Proc M T A F R} {s : σ} {chunk rest buf inp out : List B} :
      chunk ≠ [] → out.length + chunk.length ≤ cap →
      Move codec handle cap ⟨.write (chunk ++ rest) k, s, buf⟩ inp out
        ⟨.write rest k, s, buf⟩ inp (out ++ chunk)
  | sent {k : Except T Unit → Proc M T A F R} {s : σ} {buf inp out : List B} :
      Move codec handle cap ⟨.write [] k, s, buf⟩ inp out ⟨.run (k (.ok ())), s, buf⟩ inp out
  | deliver {m : M} {k : Except T M → Proc M T A F R} {s : σ} {buf buf' inp out : List B} :
      codec.take buf = (.ok (some m), buf') →
      Move codec handle cap ⟨.run (.recv k), s, buf⟩ inp out ⟨.run (k (.ok m)), s, buf'⟩ inp out
  | garbled {e : T} {k : Except T M → Proc M T A F R} {s : σ} {buf buf' inp out : List B} :
      codec.take buf = (.error e, buf') →
      Move codec handle cap ⟨.run (.recv k), s, buf⟩ inp out ⟨.run (k (.error e)), s, buf'⟩ inp out
  | read {k : Except T M → Proc M T A F R} {s : σ} {chunk rest buf buf' out : List B} :
      codec.take buf = (.ok none, buf') → chunk ≠ [] → chunk.length ≤ codec.readSize →
      Move codec handle cap ⟨.run (.recv k), s, buf⟩ (chunk ++ rest) out
        ⟨.run (.recv k), s, buf' ++ chunk⟩ rest out

def Doing.after : Doing M B T A F R → Proc M T A F R
  | .run p => p
  | .write _ k => k (.ok ())

def Side.party (side : Side M B T A F R σ) (sent : List M) (taken : ℕ) : Party M T A F R σ :=
  ⟨side.doing.after, side.store, sent, taken⟩

@[simp] theorem Side.party_sent (side : Side M B T A F R σ) (sent : List M) (taken : ℕ) :
    (side.party sent taken).sent = sent := rfl

@[simp] def Doing.unwritten : Doing M B T A F R → List B
  | .run _ => []
  | .write rest _ => rest

@[simp] def Doing.pending : Doing M B T A F R → ℕ
  | .run _ => 0
  | .write rest _ => 2 * rest.length + 1

def units (frame : M → List B) (msgs : List M) : ℕ := (msgs.flatMap frame).length

structure Sound (codec : Codec M B T) (frame : M → List B) (m : M) : Prop where
  encode : codec.encode m = .ok (frame m)
  frames : Frames codec.take m (frame m)

section Take

variable {codec : Codec M B T} {frame : M → List B} {msgs : List M} {buf more : List B}

theorem take_cases (hidle : codec.take [] = (.ok none, []))
    (hsound : ∀ m ∈ msgs, Sound codec frame m) (h : msgs.flatMap frame = buf ++ more) :
    codec.take buf = (.ok none, buf) ∧ (more = [] → msgs = []) ∨
      ∃ m rest tail, msgs = m :: rest ∧ buf = frame m ++ tail ∧
        codec.take buf = (.ok (some m), tail) := by
  cases msgs with
  | nil =>
    obtain ⟨rfl, -⟩ := List.append_eq_nil_iff.mp h.symm
    exact .inl ⟨hidle, fun _ ↦ rfl⟩
  | cons m msgs =>
    have hm := (hsound m List.mem_cons_self).frames
    rw [List.flatMap_cons] at h
    by_cases hwhole : frame m <+: buf
    · obtain ⟨tail, rfl⟩ := hwhole
      exact .inr ⟨m, msgs, tail, rfl, rfl, hm.whole tail⟩
    · have hpart : buf <+: frame m := by
        have hbuf : buf <+: frame m ++ msgs.flatMap frame := h ▸ List.prefix_append _ _
        exact (List.prefix_or_prefix_of_prefix hbuf (List.prefix_append _ _)).resolve_right hwhole
      refine .inl ⟨hm.part buf hpart fun heq ↦ hwhole (heq ▸ List.prefix_rfl), ?_⟩
      rintro rfl
      rw [List.append_nil] at h
      exact absurd (h ▸ List.prefix_append _ _) hwhole

end Take

section Move

variable {codec : Codec M B T} {frame : M → List B} {handle : (e : E) → σ → A e × σ} {cap : ℕ}
  {side side' : Side M B T A F R σ} {sent incoming : List M} {got : ℕ}
  {inp out inp' out' unsent ahead : List B} {count : ℕ}

/-- The frames of the messages that the party has not taken are in its buffer, on the stream and
with the other side, and those of its own that the other has not taken are under way likewise. -/
structure Carried (frame : M → List B) (side : Side M B T A F R σ) (sent : List M) (got : ℕ)
    (incoming : List M) (count : ℕ) (inp out unsent ahead : List B) : Prop where
  toward : (incoming.drop got).flatMap frame = side.buf ++ (inp ++ unsent)
  away : (sent.drop count).flatMap frame = ahead ++ (out ++ side.doing.unwritten)

inductive Simulated (frame : M → List B) (handle : (e : E) → σ → A e × σ) (incoming : List M)
    (p p' : Party M T A F R σ) (before after : ℕ) : Prop
  | silent : p' = p → after < before → Simulated frame handle incoming p p' before after
  | advance : p.advance handle incoming = some p' →
      after + 2 * units frame p.sent ≤ before + 1 + 2 * units frame p'.sent →
      Simulated frame handle incoming p p' before after

theorem Side.Move.simulated (hidle : codec.take [] = (.ok none, []))
    (hmove : side.Move codec handle cap inp out side' inp' out')
    (hcarried : Carried frame side sent got incoming count inp out unsent ahead)
    (hcount : count ≤ sent.length) (hin : ∀ m ∈ incoming, Sound codec frame m)
    (hout : ∀ p, (side.party sent got).advance handle incoming = some p →
      ∀ m ∈ p.sent, Sound codec frame m) :
    ∃ sent' got', Carried frame side' sent' got' incoming count inp' out' unsent ahead ∧
      Simulated frame handle incoming (side.party sent got) (side'.party sent' got')
        (side.doing.pending + inp.length + out.length)
        (side'.doing.pending + inp'.length + out'.length) := by
  obtain ⟨htoward, haway⟩ := hcarried
  have htake := take_cases hidle (fun m hm ↦ hin m (List.mem_of_mem_drop hm)) htoward
  cases hmove with
  | call =>
    refine ⟨sent, got, ⟨htoward, haway⟩, .advance rfl ?_⟩
    simp only [Doing.pending, Side.party_sent]
    omega
  | @begin m k s frame' buf _ _ hencode =>
    obtain ⟨hm, -⟩ := hout _ rfl m (by simp)
    cases hencode.symm.trans hm
    refine ⟨sent ++ [m], got, ⟨htoward, ?_⟩, .advance rfl ?_⟩
    · rw [List.drop_append_of_le_length hcount, List.flatMap_append, haway]
      simp
    · simp only [Doing.pending, Side.party_sent, units, List.flatMap_append,
        List.flatMap_singleton, List.length_append]
      omega
  | refuse hencode => cases hencode.symm.trans (hout _ rfl _ (by simp)).encode
  | @write k s chunk rest buf _ _ hne hroom =>
    have hlen := List.length_pos_of_ne_nil hne
    refine ⟨sent, got, ⟨htoward, by simpa using haway⟩, .silent rfl ?_⟩
    simp only [Doing.pending, List.length_append]
    omega
  | sent => exact ⟨sent, got, ⟨htoward, haway⟩, .silent rfl (by simp)⟩
  | @deliver m k s buf buf' _ _ h =>
    rcases htake with ⟨hnone, -⟩ | ⟨m', rest, tail, hmsgs, rfl, hsome⟩
    · cases hnone.symm.trans h
    · cases hsome.symm.trans h
      have hnext : incoming[got]? = some m := by
        have hhead := congrArg (·[0]?) hmsgs
        rwa [List.getElem?_drop, Nat.add_zero, List.getElem?_cons_zero] at hhead
      have hlater : incoming.drop (got + 1) = rest := by
        rw [← List.tail_drop, hmsgs, List.tail_cons]
      refine ⟨sent, got + 1, ⟨?_, haway⟩, .advance ?_ ?_⟩
      · rw [hlater]
        rw [hmsgs, List.flatMap_cons, List.append_assoc, List.append_cancel_left_eq] at htoward
        exact htoward
      · change incoming[got]?.map _ = _
        rw [hnext]
        rfl
      · simp only [Doing.pending, Side.party_sent]
        omega
  | garbled h =>
    rcases htake with ⟨hnone, -⟩ | ⟨m', rest, tail, -, -, hsome⟩
    · cases hnone.symm.trans h
    · cases hsome.symm.trans h
  | @read k s chunk rest buf buf' _ h hne _ =>
    rcases htake with ⟨hnone, -⟩ | ⟨m', rest, tail, -, -, hsome⟩
    · cases hnone.symm.trans h
      have hlen := List.length_pos_of_ne_nil hne
      refine ⟨sent, got, ⟨by simpa using htoward, haway⟩, .silent rfl ?_⟩
      simp only [Doing.pending, List.length_append]
      omega
    · cases hsome.symm.trans h

inductive Side.Blocked (codec : Codec M B T) (cap : ℕ) :
    Side M B T A F R σ → List B → List B → Prop
  | full {rest : List B} {k : Except T Unit → Proc M T A F R} {s : σ} {buf inp out : List B} :
      rest ≠ [] → cap ≤ out.length → Blocked codec cap ⟨.write rest k, s, buf⟩ inp out
  | waiting {k : Except T M → Proc M T A F R} {s : σ} {buf buf' out : List B} :
      codec.take buf = (.ok none, buf') → Blocked codec cap ⟨.run (.recv k), s, buf⟩ [] out
  | ended {p : Proc M T A F R} {s : σ} {buf inp out : List B} : Ended p →
      Blocked codec cap ⟨.run p, s, buf⟩ inp out

theorem Side.blocked (h : ∀ side' inp' out', ¬ side.Move codec handle cap inp out side' inp' out') :
    side.Blocked codec cap inp out := by
  rcases side with ⟨doing, s, buf⟩
  cases doing with
  | write rest k =>
    cases rest with
    | nil => exact absurd .sent (h _ _ _)
    | cons b rest =>
      refine .full (List.cons_ne_nil b rest) (not_lt.mp fun hlt ↦ ?_)
      exact h _ _ _ (@Side.Move.write _ _ _ _ _ _ _ _ codec handle cap k s [b] rest buf inp out
        (List.cons_ne_nil b []) hlt)
  | run p =>
    cases p with
    | ret r => exact .ended trivial
    | fail x => exact .ended trivial
    | call e k => exact absurd .call (h _ _ _)
    | send m k =>
      cases hencode : codec.encode m with
      | ok frame => exact absurd (.begin hencode) (h _ _ _)
      | error e => exact absurd (.refuse hencode) (h _ _ _)
    | recv k =>
      rcases htake : codec.take buf with ⟨e | (_ | m), buf'⟩
      · exact absurd (.garbled htake) (h _ _ _)
      · cases inp with
        | nil => exact .waiting htake
        | cons b rest =>
          have hread := @Side.Move.read _ _ _ _ _ _ _ _ codec handle cap k s [b] rest buf buf' out
            htake (List.cons_ne_nil b []) codec.readSize_pos
          exact absurd hread (h _ _ _)
      · exact absurd (.deliver htake) (h _ _ _)

/-- A side is not held up by a full stream if nothing comes toward it meanwhile and the other side
still runs. -/
theorem Side.Blocked.run {A' : E' → Type} {other : Side M B T A' F S τ} {cap' : ℕ} (hcap : 0 < cap)
    (h : side.Blocked codec cap inp out) (hother : other.Blocked codec cap' out inp)
    (hbusy : out ++ side.doing.unwritten ≠ [] →
      inp ++ other.doing.unwritten = [] ∧ ¬ Ended other.doing.after) :
    ∃ p, side.doing = .run p := by
  cases h with
  | waiting | ended => exact ⟨_, rfl⟩
  | full hrest hfull =>
    obtain ⟨hquiet, hruns⟩ := hbusy fun hnil ↦ hrest (List.append_eq_nil_iff.mp hnil).2
    cases hother with
    | full hrest' => exact absurd (List.append_eq_nil_iff.mp hquiet).2 hrest'
    | waiting => exact absurd hfull (not_le.mpr hcap)
    | ended hended => exact absurd hended hruns

theorem Side.Blocked.advance_eq_none (hidle : codec.take [] = (.ok none, []))
    (h : side.Blocked codec cap inp out) {p : Proc M T A F R} (hrun : side.doing = .run p)
    (hin : ∀ m ∈ incoming, Sound codec frame m)
    (hframes : (incoming.drop got).flatMap frame = side.buf ++ inp) :
    (side.party sent got).advance handle incoming = none := by
  cases h with
  | full => cases hrun
  | @ended q _ _ _ _ hended =>
    cases q with
    | ret r | fail x => rfl
    | send m k | recv k | call e k => exact hended.elim
  | waiting htake =>
    rcases take_cases hidle (fun m hm ↦ hin m (List.mem_of_mem_drop hm)) hframes with
      ⟨-, hnil⟩ | ⟨m, rest, tail, -, -, hsome⟩
    · have hlen := List.drop_eq_nil_iff.mp (hnil rfl)
      change incoming[got]?.map _ = none
      rw [List.getElem?_eq_none hlen, Option.map_none]
    · cases hsome.symm.trans htake

end Move

structure Link (M B T : Type) {E E' : Type} (A : E → Type) (A' : E' → Type) (F R S σ τ : Type) where
  left : Side M B T A F R σ
  right : Side M B T A' F S τ
  toLeft : List B
  toRight : List B

section Run

variable (codec : Codec M B T) (hl : (e : E) → σ → A e × σ) (hr : (e : E') → τ → A' e × τ)
  (capLeft capRight : ℕ)

inductive Step : Link M B T A A' F R S σ τ → Link M B T A A' F R S σ τ → Prop
  | left {l l' : Side M B T A F R σ} {r : Side M B T A' F S τ}
      {toLeft toRight toLeft' toRight' : List B} :
      l.Move codec hl capRight toLeft toRight l' toLeft' toRight' →
      Step ⟨l, r, toLeft, toRight⟩ ⟨l', r, toLeft', toRight'⟩
  | right {l : Side M B T A F R σ} {r r' : Side M B T A' F S τ}
      {toLeft toRight toLeft' toRight' : List B} :
      r.Move codec hr capLeft toRight toLeft r' toRight' toLeft' →
      Step ⟨l, r, toLeft, toRight⟩ ⟨l, r', toLeft', toRight'⟩

def opened (p : Proc M T A F R) (q : Proc M T A' F S) (s : σ) (t : τ) :
    Link M B T A A' F R S σ τ :=
  ⟨⟨.run p, s, []⟩, ⟨.run q, t, []⟩, [], []⟩

def Link.load (y : Link M B T A A' F R S σ τ) : ℕ :=
  y.left.doing.pending + y.right.doing.pending + y.toLeft.length + y.toRight.length

structure Carries (frame : M → List B) (y : Link M B T A A' F R S σ τ)
    (x : Duplex M T A A' F R S σ τ) : Prop where
  left : x.left = y.left.party x.left.sent x.left.taken
  right : x.right = y.right.party x.right.sent x.right.taken
  toRight : (x.left.sent.drop x.right.taken).flatMap frame =
    y.right.buf ++ (y.toRight ++ y.left.doing.unwritten)
  toLeft : (x.right.sent.drop x.left.taken).flatMap frame =
    y.left.buf ++ (y.toLeft ++ y.right.doing.unwritten)

variable {codec hl hr capLeft capRight} {frame : M → List B} {p : Proc M T A F R}
  {q : Proc M T A' F S} {s : σ} {t : τ} {x x' z : Duplex M T A A' F R S σ τ}
  {y y' : Link M B T A A' F R S σ τ}

theorem carries_opened :
    Carries frame (opened p q s t : Link M B T A A' F R S σ τ) (meet p q s t [] []) :=
  ⟨rfl, rfl, rfl, rfl⟩

theorem Step.simulated (hidle : codec.take [] = (.ok none, []))
    (hstep : Step codec hl hr capLeft capRight y y') (hc : Carries frame y x)
    (hlt : x.left.taken ≤ x.right.sent.length) (hrt : x.right.taken ≤ x.left.sent.length)
    (hleft : ∀ m ∈ x.left.sent, Sound codec frame m)
    (hright : ∀ m ∈ x.right.sent, Sound codec frame m)
    (hnext : ∀ d, Process.Step hl hr x d →
      (∀ m ∈ d.left.sent, Sound codec frame m) ∧ ∀ m ∈ d.right.sent, Sound codec frame m) :
    (Carries frame y' x ∧ y'.load < y.load) ∨
      ∃ x', Process.Step hl hr x x' ∧ Carries frame y' x' ∧
        y'.load + 2 * (units frame x.left.sent + units frame x.right.sent) ≤
          y.load + 1 + 2 * (units frame x'.left.sent + units frame x'.right.sent) := by
  obtain ⟨hl', hr', htoRight, htoLeft⟩ := hc
  rcases x with ⟨pl, pr⟩
  dsimp only at *
  cases hstep with
  | @left l l' r toLeft toRight toLeft' toRight' hmove =>
    have hout (d : Party M T A F R σ)
        (hd : (l.party pl.sent pl.taken).advance hl pr.sent = some d) :
        ∀ m ∈ d.sent, Sound codec frame m := (hnext ⟨d, pr⟩ (.left (hl' ▸ hd))).1
    obtain ⟨sent', got', ⟨htoward, haway⟩, hsim⟩ :=
      hmove.simulated hidle ⟨htoLeft, htoRight⟩ hrt hright hout
    cases hsim with
    | silent hsame hload =>
      obtain rfl : sent' = pl.sent := congrArg Party.sent hsame
      obtain rfl : got' = pl.taken := congrArg Party.taken hsame
      refine .inl ⟨⟨hl'.trans hsame.symm, hr', haway, htoward⟩, ?_⟩
      simp only [Link.load]
      omega
    | advance hadv hload =>
      refine .inr ⟨⟨l'.party sent' got', pr⟩, .left (hl' ▸ hadv), ⟨rfl, hr', haway, htoward⟩, ?_⟩
      simp only [Link.load, Side.party_sent] at hload ⊢
      omega
  | @right l r r' toLeft toRight toLeft' toRight' hmove =>
    have hout (d : Party M T A' F S τ)
        (hd : (r.party pr.sent pr.taken).advance hr pl.sent = some d) :
        ∀ m ∈ d.sent, Sound codec frame m := (hnext ⟨pl, d⟩ (.right (hr' ▸ hd))).2
    obtain ⟨sent', got', ⟨htoward, haway⟩, hsim⟩ :=
      hmove.simulated hidle ⟨htoRight, htoLeft⟩ hlt hleft hout
    cases hsim with
    | silent hsame hload =>
      obtain rfl : sent' = pr.sent := congrArg Party.sent hsame
      obtain rfl : got' = pr.taken := congrArg Party.taken hsame
      refine .inl ⟨⟨hl', hr'.trans hsame.symm, htoward, haway⟩, ?_⟩
      simp only [Link.load]
      omega
    | advance hadv hload =>
      refine .inr ⟨⟨pl, r'.party sent' got'⟩, .right (hr' ▸ hadv), ⟨hl', rfl, htoward, haway⟩, ?_⟩
      simp only [Link.load, Side.party_sent] at hload ⊢
      omega

theorem Carries.stuck (hidle : codec.take [] = (.ok none, [])) (hcapl : 0 < capLeft)
    (hcapr : 0 < capRight) (hc : Carries frame y x) (hone : OneWay x)
    (hstuck : Stuck (Step codec hl hr capLeft capRight) y)
    (hleft : ∀ m ∈ x.left.sent, Sound codec frame m)
    (hright : ∀ m ∈ x.right.sent, Sound codec frame m) :
    Stuck (Process.Step hl hr) x ∧ y.left.doing = .run x.left.proc ∧
      y.right.doing = .run x.right.proc := by
  obtain ⟨hl', hr', htoRight, htoLeft⟩ := hc
  have hbl := Side.blocked fun l' i o
    (hm : y.left.Move codec hl capRight y.toLeft y.toRight l' i o) ↦ hstuck _ (.left hm)
  have hbr := Side.blocked fun r' i o
    (hm : y.right.Move codec hr capLeft y.toRight y.toLeft r' i o) ↦ hstuck _ (.right hm)
  have hquietl (h : x.left.sent.length = x.right.taken) :
      y.toRight ++ y.left.doing.unwritten = [] := by
    rw [← h, List.drop_length, List.flatMap_nil] at htoRight
    exact (List.append_eq_nil_iff.mp htoRight.symm).2
  have hquietr (h : x.right.sent.length = x.left.taken) :
      y.toLeft ++ y.right.doing.unwritten = [] := by
    rw [← h, List.drop_length, List.flatMap_nil] at htoLeft
    exact (List.append_eq_nil_iff.mp htoLeft.symm).2
  have hprocl : x.left.proc = y.left.doing.after := congrArg Party.proc hl'
  have hprocr : x.right.proc = y.right.doing.after := congrArg Party.proc hr'
  obtain ⟨p, hp⟩ := hbl.run hcapr hbr fun hbusy ↦
    ⟨hquietr (hone.either.resolve_left fun h ↦ hbusy (hquietl h)),
      fun hended ↦ hbusy (hquietl (hone.rightEnded (hprocr ▸ hended)))⟩
  obtain ⟨q, hq⟩ := hbr.run hcapl hbl fun hbusy ↦
    ⟨hquietl (hone.either.resolve_right fun h ↦ hbusy (hquietr h)),
      fun hended ↦ hbusy (hquietr (hone.leftEnded (hprocl ▸ hended)))⟩
  rw [hp, Doing.unwritten, List.append_nil] at htoRight
  rw [hq, Doing.unwritten, List.append_nil] at htoLeft
  refine ⟨fun d hd ↦ ?_, ?_, ?_⟩
  · cases hd with
    | left hadv =>
      dsimp only at *
      rw [hl', hbl.advance_eq_none hidle hp hright htoLeft] at hadv
      cases hadv
    | right hadv =>
      dsimp only at *
      rw [hr', hbr.advance_eq_none hidle hq hleft htoRight] at hadv
      cases hadv
  · rw [hprocl, hp]
    rfl
  · rw [hprocr, hq]
    rfl

section Settles

variable (frame) in
theorem units_le (h : Reaches (Process.Step hl hr) x x') :
    units frame x.left.sent + units frame x.right.sent ≤
      units frame x'.left.sent + units frame x'.right.sent := by
  have hunits {msgs msgs' : List M} (h : msgs <+: msgs') :
      units frame msgs ≤ units frame msgs' := by
    obtain ⟨more, rfl⟩ := h
    simp [units]
  obtain ⟨hl', hr'⟩ := sent_prefix h
  exact Nat.add_le_add (hunits hl') (hunits hr')

/-- The wire has at most so many steps to go: two for each step of the conversation, and those that
bring the frames across. -/
def Rank (frame : M → List B) (hl : (e : E) → σ → A e × σ) (hr : (e : E') → τ → A' e × τ)
    (a z : Duplex M T A A' F R S σ τ) (y : Link M B T A A' F R S σ τ) (f : ℕ) : Prop :=
  ∃ x k, Reaches (Process.Step hl hr) a x ∧ Run (Process.Step hl hr) k x z ∧ Carries frame y x ∧
    f + 2 * (units frame x.left.sent + units frame x.right.sent) =
      2 * k + y.load + 2 * (units frame z.left.sent + units frame z.right.sent)

variable (hidle : codec.take [] = (.ok none, []))
  (hend : EndsIn (Process.Step hl hr) (meet p q s t [] []) z)
  (hleft : ∀ m ∈ z.left.sent, Sound codec frame m)
  (hright : ∀ m ∈ z.right.sent, Sound codec frame m)
include hend hleft hright

theorem sound_of_reaches (h : Reaches (Process.Step hl hr) (meet p q s t [] []) x) :
    (∀ m ∈ x.left.sent, Sound codec frame m) ∧ ∀ m ∈ x.right.sent, Sound codec frame m := by
  obtain ⟨-, n, hn⟩ := hend
  obtain ⟨m, hm⟩ := h
  obtain ⟨k, -, hk⟩ := hn m x hm
  obtain ⟨hl', hr'⟩ := sent_prefix ⟨k, hk⟩
  exact ⟨fun m hm ↦ hleft m (hl'.subset hm), fun m hm ↦ hright m (hr'.subset hm)⟩

include hidle

theorem Rank.step {f : ℕ} (h : Rank frame hl hr (meet p q s t [] []) z y f)
    (hstep : Step codec hl hr capLeft capRight y y') :
    ∃ f' < f, Rank frame hl hr (meet p q s t [] []) z y' f' := by
  obtain ⟨x, k, hx, hk, hc, hf⟩ := h
  obtain ⟨hsoundl, hsoundr⟩ := sound_of_reaches hend hleft hright hx
  obtain ⟨htakenl, htakenr⟩ := taken_le hx le_rfl le_rfl
  have hle := units_le frame ⟨k, hk⟩
  rcases hstep.simulated hidle hc htakenl htakenr hsoundl hsoundr
    fun d hd ↦ sound_of_reaches hend hleft hright (hx.tail hd) with
    ⟨hc', hload⟩ | ⟨x', hx', hc', hload⟩
  · exact ⟨f + y'.load - y.load, by omega, x, k, hx, hk, hc', by omega⟩
  · obtain ⟨k', rfl, hk'⟩ := (diamond hl hr).shorten hend.1 hk hx'
    have hle' := units_le frame ⟨k', hk'⟩
    exact ⟨2 * k' + y'.load + 2 * (units frame z.left.sent + units frame z.right.sent) -
      2 * (units frame x'.left.sent + units frame x'.right.sent), by omega, x', k', hx.tail hx',
      hk', hc', by omega⟩

/-- Over streams of any positive capacity, with reads and writes cut anywhere, a conversation in
which the parties take turns ends as it does when messages pass at once. -/
theorem settles (closed : T) {w : List Bool} (hcapl : 0 < capLeft) (hcapr : 0 < capRight)
    (hshapel : shape (play hl p s (straight closed z.right.sent)).trace = w)
    (hshaper : shape (play hr q t (straight closed z.left.sent)).trace = w.map not) :
    Settles (Step codec hl hr capLeft capRight) (opened p q s t) fun y ↦
      y.left.doing = .run z.left.proc ∧ y.left.store = z.left.store ∧
        y.right.doing = .run z.right.proc ∧ y.right.store = z.right.store := by
  have hreaches (x : Duplex M T A A' F R S σ τ)
      (hx : Reaches (Process.Step hl hr) (meet p q s t [] []) x) :
      ∃ k, Run (Process.Step hl hr) k x z := by
    obtain ⟨-, n, hn⟩ := hend
    obtain ⟨m, hm⟩ := hx
    obtain ⟨k, -, hk⟩ := hn m x hm
    exact ⟨k, hk⟩
  obtain ⟨k₀, hk₀⟩ := hreaches _ (.refl _)
  have hrank : Rank frame hl hr (meet p q s t [] []) z
      (opened p q s t : Link M B T A A' F R S σ τ)
      (2 * k₀ + 2 * (units frame z.left.sent + units frame z.right.sent)) :=
    ⟨_, k₀, .refl _, hk₀, carries_opened, rfl⟩
  refine settles_of_bounded (fun m b hb ↦ hb.length_le_rank
    (fun _ _ _ h hstep ↦ h.step hidle hend hleft hright hstep) hrank) fun b hb hstuck ↦ ?_
  obtain ⟨f, x, k, hx, hk, hc, -⟩ := hb.invariant
    (I := fun y ↦ ∃ f, Rank frame hl hr (meet p q s t [] []) z y f) ⟨_, hrank⟩
    fun c d _ ⟨f, hf⟩ hstep ↦ by
      obtain ⟨f', -, hf'⟩ := hf.step hidle hend hleft hright hstep
      exact ⟨f', hf'⟩
  obtain ⟨hsoundl, hsoundr⟩ := sound_of_reaches hend hleft hright hx
  obtain ⟨hxstuck, hrunl, hrunr⟩ := hc.stuck hidle hcapl hcapr
    (oneWay closed hx ⟨k, hk⟩ hshapel hshaper) hstuck hsoundl hsoundr
  obtain rfl := hend.eq_of_stuck hx hxstuck
  exact ⟨hrunl, (congrArg Party.store hc.left).symm, hrunr, (congrArg Party.store hc.right).symm⟩

end Settles

end Run

end RsqliteRsync.Foundation.Wire
