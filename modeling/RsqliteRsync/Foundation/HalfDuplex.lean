import RsqliteRsync.Foundation.Script

namespace RsqliteRsync.Foundation.HalfDuplex

open Process Schedule Script

variable {M T E E' F R S σ τ : Type} {A : E → Type} {A' : E' → Type}

section Shape

def direction : Event M A → Option Bool
  | .sent _ => some true
  | .received _ => some false
  | .called _ _ => none

def shape (trace : List (Event M A)) : List Bool := trace.filterMap direction

theorem shape_append (trace more : List (Event M A)) :
    shape (trace ++ more) = shape trace ++ shape more := List.filterMap_append

end Shape

def straight (closed : T) (msgs : List M) : Line M T := ⟨msgs, closed, fun _ ↦ .ok ()⟩

def Ended : Proc M T A F R → Prop
  | .ret _ | .fail _ => True
  | .send _ _ | .recv _ | .call _ _ => False

section Cut

variable {handle : (e : E) → σ → A e × σ} {p₀ : Proc M T A F R} {s₀ : σ} {closed : T}
  {msgs : List M} {p q : Party M T A F R σ}

/-- The party stands somewhere in its run against these messages: so much of the trace is behind it,
and what it does next gives the rest. -/
def Cut (handle : (e : E) → σ → A e × σ) (p₀ : Proc M T A F R) (s₀ : σ) (closed : T)
    (msgs : List M) (p : Party M T A F R σ) : Prop :=
  ∃ past, play handle p₀ s₀ (straight closed msgs) =
      (play handle p.proc p.store (straight closed (msgs.drop p.taken))).prepend past ∧
    (shape past).count true = p.sent.length ∧ (shape past).count false = p.taken

theorem Cut.advance {incoming : List M} (h : Cut handle p₀ s₀ closed msgs p)
    (hadv : p.advance handle incoming = some q) (hin : incoming <+: msgs) :
    Cut handle p₀ s₀ closed msgs q := by
  obtain ⟨past, hplay, hsent, htaken⟩ := h
  rcases p with ⟨proc, s, sent, taken⟩
  cases proc with
  | ret r | fail x => simp [Party.advance] at hadv
  | send m k =>
    simp only [Party.advance, Option.some.injEq] at hadv
    subst hadv
    refine ⟨past ++ [.sent m], ?_, ?_, ?_⟩
    · rw [hplay, play_send, End.prepend_prepend]
      rfl
    · rw [shape_append, List.count_append, hsent, List.length_append]
      rfl
    · rw [shape_append, List.count_append, htaken]
      rfl
  | recv k =>
    simp only [Party.advance, Option.map_eq_some_iff] at hadv
    obtain ⟨m, hm, rfl⟩ := hadv
    have hmsgs : msgs.drop taken = m :: msgs.drop (taken + 1) := by
      obtain ⟨hlt, heq⟩ := List.getElem?_eq_some_iff.mp hm
      rw [List.drop_eq_getElem_cons (hlt.trans_le hin.length_le), ← hin.getElem hlt, heq]
    refine ⟨past ++ [.received m], ?_, ?_, ?_⟩
    · rw [hplay, play_recv_cons s (l := straight closed (msgs.drop taken)) hmsgs,
        End.prepend_prepend]
      rfl
    · rw [shape_append, List.count_append, hsent]
      rfl
    · rw [shape_append, List.count_append, htaken]
      rfl
  | call e k =>
    simp only [Party.advance, Option.some.injEq] at hadv
    subst hadv
    refine ⟨past ++ [.called e (handle e s).1], ?_, ?_, ?_⟩
    · rw [hplay, play_call s (Prod.mk.eta (p := handle e s)).symm, End.prepend_prepend]
    · rw [shape_append, List.count_append, hsent]
      rfl
    · rw [shape_append, List.count_append, htaken]
      rfl

theorem Cut.position (h : Cut handle p₀ s₀ closed msgs p) {w : List Bool}
    (hw : shape (play handle p₀ s₀ (straight closed msgs)).trace = w) :
    ∃ i ≤ w.length, (w.take i).count true = p.sent.length ∧ (w.take i).count false = p.taken ∧
      (Ended p.proc → i = w.length) := by
  obtain ⟨past, hplay, hsent, htaken⟩ := h
  have hw' : w = shape past ++
      shape (play handle p.proc p.store (straight closed (msgs.drop p.taken))).trace := by
    rw [← hw, hplay, End.trace_prepend, shape_append]
  have htake : w.take (shape past).length = shape past := by rw [hw', List.take_left]
  refine ⟨(shape past).length, by simp [hw'], by rw [htake, hsent], by rw [htake, htaken], ?_⟩
  intro hended
  cases hproc : p.proc with
  | ret r => simp [hw', hproc, shape]
  | fail x => simp [hw', hproc, shape]
  | send m k | recv k | call e k =>
    rw [hproc] at hended
    exact hended.elim

theorem Cut.ended (h : Cut handle p₀ s₀ closed msgs p) {r : R} (hp : p.proc = .ret r) :
    (play handle p₀ s₀ (straight closed msgs)).outcome = .ok r ∧
      (shape (play handle p₀ s₀ (straight closed msgs)).trace).count true = p.sent.length ∧
      (shape (play handle p₀ s₀ (straight closed msgs)).trace).count false = p.taken := by
  obtain ⟨past, hplay, hsent, htaken⟩ := h
  rw [hplay, hp, play_ret, End.trace_prepend, List.append_nil]
  exact ⟨rfl, hsent, htaken⟩

end Cut

section Duplex

theorem advance_sent_le {handle : (e : E) → σ → A e × σ} {incoming : List M}
    {p q : Party M T A F R σ} (h : p.advance handle incoming = some q) :
    p.sent.length ≤ q.sent.length := by
  obtain ⟨more, hmore⟩ := Party.advance_sent h
  rw [hmore, List.length_append]
  exact Nat.le_add_right _ _

theorem advance_taken {handle : (e : E) → σ → A e × σ} {incoming : List M}
    {p q : Party M T A F R σ} (h : p.advance handle incoming = some q)
    (hle : p.taken ≤ incoming.length) : q.taken ≤ incoming.length := by
  rcases p with ⟨proc, s, sent, taken⟩
  cases proc with
  | ret r | fail x => simp [Party.advance] at h
  | send m k | call e k =>
    simp only [Party.advance, Option.some.injEq] at h
    rw [← h]
    exact hle
  | recv k =>
    simp only [Party.advance, Option.map_eq_some_iff] at h
    obtain ⟨m, hm, rfl⟩ := h
    exact (List.getElem?_eq_some_iff.mp hm).1

variable {hl : (e : E) → σ → A e × σ} {hr : (e : E') → τ → A' e × τ}
  {a x y z : Duplex M T A A' F R S σ τ}

theorem sent_prefix (h : Reaches (Step hl hr) x y) :
    x.left.sent <+: y.left.sent ∧ x.right.sent <+: y.right.sent := by
  refine h.invariant (I := fun c ↦ x.left.sent <+: c.left.sent ∧ x.right.sent <+: c.right.sent)
    ⟨List.prefix_rfl, List.prefix_rfl⟩ fun c d _ hc hstep ↦ ?_
  cases hstep with
  | left hadv =>
    obtain ⟨more, hmore⟩ := Party.advance_sent hadv
    exact ⟨hc.1.trans (hmore ▸ List.prefix_append _ more), hc.2⟩
  | right hadv =>
    obtain ⟨more, hmore⟩ := Party.advance_sent hadv
    exact ⟨hc.1, hc.2.trans (hmore ▸ List.prefix_append _ more)⟩

theorem taken_le (h : Reaches (Step hl hr) a x) (hleft : a.left.taken ≤ a.right.sent.length)
    (hright : a.right.taken ≤ a.left.sent.length) :
    x.left.taken ≤ x.right.sent.length ∧ x.right.taken ≤ x.left.sent.length := by
  refine h.invariant (I := fun c ↦ c.left.taken ≤ c.right.sent.length ∧
    c.right.taken ≤ c.left.sent.length) ⟨hleft, hright⟩ fun c d _ hc hstep ↦ ?_
  cases hstep with
  | left hadv => exact ⟨advance_taken hadv hc.1, hc.2.trans (advance_sent_le hadv)⟩
  | right hadv => exact ⟨hc.1.trans (advance_sent_le hadv), advance_taken hadv hc.2⟩

variable {p : Proc M T A F R} {q : Proc M T A' F S} {s : σ} {t : τ}

/-- Each party runs as it would alone against any messages that begin with those sent so far. -/
theorem cuts (closed : T) (h : Reaches (Step hl hr) (meet p q s t [] []) x) :
    ∀ out back, x.left.sent <+: out → x.right.sent <+: back →
      Cut hl p s closed back x.left ∧ Cut hr q t closed out x.right := by
  refine h.invariant (I := fun c ↦ ∀ out back, c.left.sent <+: out → c.right.sent <+: back →
    Cut hl p s closed back c.left ∧ Cut hr q t closed out c.right) ?_ fun c d _ hc hstep ↦ ?_
  · intro out back _ _
    exact ⟨⟨[], rfl, rfl, rfl⟩, ⟨[], rfl, rfl, rfl⟩⟩
  · intro out back hout hback
    obtain ⟨hl', hr'⟩ := sent_prefix (.head hstep (.refl d))
    obtain ⟨hleft, hright⟩ := hc out back (hl'.trans hout) (hr'.trans hback)
    cases hstep with
    | left hadv => exact ⟨hleft.advance hadv hback, hright⟩
    | right hadv => exact ⟨hleft, hright.advance hadv hout⟩

structure OneWay (x : Duplex M T A A' F R S σ τ) : Prop where
  either : x.left.sent.length = x.right.taken ∨ x.right.sent.length = x.left.taken
  leftEnded : Ended x.left.proc → x.right.sent.length = x.left.taken
  rightEnded : Ended x.right.proc → x.left.sent.length = x.right.taken

/-- If one party sends where the other receives, then they take turns under every schedule. -/
theorem oneWay (closed : T) {w : List Bool} (h : Reaches (Step hl hr) (meet p q s t [] []) x)
    (hz : Reaches (Step hl hr) x z)
    (hleft : shape (play hl p s (straight closed z.right.sent)).trace = w)
    (hright : shape (play hr q t (straight closed z.left.sent)).trace = w.map not) :
    OneWay x := by
  obtain ⟨hout, hback⟩ := sent_prefix hz
  obtain ⟨hcutl, hcutr⟩ := cuts closed h _ _ hout hback
  obtain ⟨htakenl, htakenr⟩ := taken_le h le_rfl le_rfl
  obtain ⟨i, hi, hisent, hitaken, hiend⟩ := hcutl.position hleft
  obtain ⟨j, hj, hjsent, hjtaken, hjend⟩ := hcutr.position hright
  have hnot (b : Bool) : ((w.map not).take j).count b = (w.take j).count (!b) := by
    rw [← List.map_take]
    simp only [List.count, List.countP_map]
    congr 1
    funext c
    cases b <;> cases c <;> rfl
  rw [hnot] at hjsent hjtaken
  rw [List.length_map] at hj hjend
  have hmono {m n : ℕ} (hmn : m ≤ n) (b : Bool) : (w.take m).count b ≤ (w.take n).count b :=
    (List.take_sublist_take_left hmn).count_le b
  -- the party that is behind has received everything that the other was sent before
  have hbehind (hij : i ≤ j) : x.left.sent.length = x.right.taken :=
    le_antisymm (by rw [← hisent, ← hjtaken]; exact hmono hij true) htakenr
  have hahead (hji : j ≤ i) : x.right.sent.length = x.left.taken :=
    le_antisymm (by rw [← hjsent, ← hitaken]; exact hmono hji false) htakenl
  refine ⟨(le_total i j).imp hbehind hahead, fun h ↦ hahead ?_, fun h ↦ hbehind ?_⟩
  · rw [hiend h]
    exact hj
  · rw [hjend h]
    exact hi

end Duplex

end RsqliteRsync.Foundation.HalfDuplex
