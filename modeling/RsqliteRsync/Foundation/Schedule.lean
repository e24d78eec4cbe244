import Mathlib.Logic.Relation
import Mathlib.Tactic

namespace RsqliteRsync.Foundation.Schedule

variable {α : Type*} {step : α → α → Prop} {a b c z : α} {n m : ℕ}

inductive Run (step : α → α → Prop) : ℕ → α → α → Prop
  | zero (a : α) : Run step 0 a a
  | cons {n : ℕ} {a b c : α} : step a b → Run step n b c → Run step (n + 1) a c

theorem Run.one (h : step a b) : Run step 1 a b := .cons h (.zero b)

theorem Run.trans (h : Run step n a b) (h' : Run step m b c) : Run step (n + m) a c := by
  induction h with
  | zero => simpa only [Nat.zero_add] using h'
  | cons hs _ ih => simpa only [Nat.add_right_comm] using Run.cons hs (ih h')

theorem Run.length_le {μ : α → ℕ} (h : Run step n a b) (hμ : ∀ x y, step x y → μ y < μ x) :
    n + μ b ≤ μ a := by
  induction h with
  | zero => exact (Nat.zero_add _).le
  | cons hs _ ih =>
    have hless := hμ _ _ hs
    omega

def Reaches (step : α → α → Prop) (a b : α) : Prop := ∃ n, Run step n a b

theorem Reaches.refl (a : α) : Reaches step a a := ⟨0, .zero a⟩

theorem Reaches.head (h : step a b) (h' : Reaches step b c) : Reaches step a c := by
  obtain ⟨n, hn⟩ := h'
  exact ⟨n + 1, .cons h hn⟩

theorem Reaches.trans (h : Reaches step a b) (h' : Reaches step b c) : Reaches step a c := by
  obtain ⟨n, hn⟩ := h
  obtain ⟨m, hm⟩ := h'
  exact ⟨n + m, hn.trans hm⟩

theorem Reaches.tail (h : Reaches step a b) (h' : step b c) : Reaches step a c :=
  h.trans ⟨1, .one h'⟩

theorem Reaches.invariant {I : α → Prop} (h : Reaches step a b) (h₀ : I a)
    (hs : ∀ x y, Reaches step a x → I x → step x y → I y) : I b := by
  obtain ⟨n, hn⟩ := h
  suffices hsuf : ∀ n x y, Run step n x y → Reaches step a x → I x → I y from
    hsuf n a b hn (.refl a) h₀
  intro n x y hr
  induction hr with
  | zero => exact fun _ hx ↦ hx
  | cons hxy _ ih => exact fun hx hIx ↦ ih (hx.tail hxy) (hs _ _ hx hIx hxy)

def Stuck (step : α → α → Prop) (a : α) : Prop := ∀ b, ¬ step a b

/-- Two different moves out of one state can be completed to the same state. -/
def Diamond (step : α → α → Prop) : Prop :=
  ∀ a b c, step a b → step a c → b = c ∨ ∃ d, step b d ∧ step c d

theorem Diamond.shorten (hd : Diamond step) (hz : Stuck step z) (hr : Run step n a z)
    (hs : step a b) : ∃ m, n = m + 1 ∧ Run step m b z := by
  induction hr generalizing b with
  | zero => exact absurd hs (hz b)
  | @cons n a a' z hs' hr ih =>
    rcases hd a a' b hs' hs with rfl | ⟨d, ha', hb⟩
    · exact ⟨n, rfl, hr⟩
    · obtain ⟨m, rfl, hm⟩ := ih hz ha'
      exact ⟨m + 1, rfl, .cons hb hm⟩

/-- Every run from `a`, however it is scheduled, is a part of a run of one fixed length
that ends in `z`. So no run is longer, and a run that cannot be continued ends in `z`. -/
def EndsIn (step : α → α → Prop) (a z : α) : Prop :=
  Stuck step z ∧ ∃ n, ∀ m b, Run step m a b → ∃ k, m + k = n ∧ Run step k b z

/-- One completed schedule settles all of them. -/
theorem Diamond.endsIn (hd : Diamond step) (hz : Stuck step z) (h : Reaches step a z) :
    EndsIn step a z := by
  obtain ⟨n, hn⟩ := h
  refine ⟨hz, n, fun m b hb ↦ ?_⟩
  induction hb generalizing n with
  | zero => exact ⟨n, Nat.zero_add n, hn⟩
  | cons hs _ ih =>
    obtain ⟨k, rfl, hk⟩ := hd.shorten hz hn hs
    obtain ⟨j, hj, hr⟩ := ih k hk
    exact ⟨j, by omega, hr⟩

theorem EndsIn.reaches (h : EndsIn step a z) : Reaches step a z := by
  obtain ⟨-, n, hn⟩ := h
  obtain ⟨k, -, hk⟩ := hn 0 a (.zero a)
  exact ⟨k, hk⟩

theorem EndsIn.reaches_of_reaches (h : EndsIn step a z) (hb : Reaches step a b) :
    Reaches step b z := by
  obtain ⟨-, n, hn⟩ := h
  obtain ⟨m, hm⟩ := hb
  obtain ⟨k, -, hk⟩ := hn m b hm
  exact ⟨k, hk⟩

theorem EndsIn.eq_of_stuck (h : EndsIn step a z) (hb : Reaches step a b) (hs : Stuck step b) :
    b = z := by
  obtain ⟨-, n, hn⟩ := h
  obtain ⟨m, hm⟩ := hb
  obtain ⟨k, -, hk⟩ := hn m b hm
  cases hk with
  | zero => rfl
  | cons hbc _ => exact absurd hbc (hs _)

theorem EndsIn.unique {z' : α} (h : EndsIn step a z) (h' : EndsIn step a z') : z = z' :=
  h'.eq_of_stuck h.reaches h.1

/-- A rank that every step lowers bounds the length of a run. -/
theorem Run.length_le_rank {rank : α → ℕ → Prop}
    (hstep : ∀ x y f, rank x f → step x y → ∃ f' < f, rank y f') {f : ℕ} (h : Run step n a b)
    (ha : rank a f) : n ≤ f := by
  induction h generalizing f with
  | zero => exact Nat.zero_le f
  | cons hs _ ih =>
    obtain ⟨f', hlt, hb⟩ := hstep _ _ f ha hs
    exact Nat.succ_le_of_lt ((ih hb).trans_lt hlt)

/-- No run from `a` is longer than some bound, and every run can be continued to a state that has
the property and allows no further step. -/
def Settles (step : α → α → Prop) (a : α) (P : α → Prop) : Prop :=
  ∃ n, ∀ m b, Run step m a b → m ≤ n ∧ ∃ z, Reaches step b z ∧ Stuck step z ∧ P z

theorem settles_of_bounded {P : α → Prop} (hbound : ∀ m b, Run step m a b → m ≤ n)
    (hstuck : ∀ b, Reaches step a b → Stuck step b → P b) : Settles step a P := by
  refine ⟨n, fun m b hb ↦ ⟨hbound m b hb, ?_⟩⟩
  induction hk : n - m generalizing m b with
  | zero =>
    have hb' : Stuck step b := fun c hc ↦ by
      have hle := hbound (m + 1) c (hb.trans (.one hc))
      have hm := hbound m b hb
      omega
    exact ⟨b, .refl b, hb', hstuck b ⟨m, hb⟩ hb'⟩
  | succ k ih =>
    by_cases hb' : Stuck step b
    · exact ⟨b, .refl b, hb', hstuck b ⟨m, hb⟩ hb'⟩
    · obtain ⟨c, hc⟩ := not_forall_not.mp hb'
      obtain ⟨z, hz, hzP⟩ := ih (m + 1) c (hb.trans (.one hc)) (by omega)
      exact ⟨z, .head hc hz, hzP⟩

theorem Settles.imp {P Q : α → Prop} (h : Settles step a P) (hPQ : ∀ b, P b → Q b) :
    Settles step a Q := by
  obtain ⟨n, hn⟩ := h
  refine ⟨n, fun m b hb ↦ ?_⟩
  obtain ⟨hle, z, hz, hstuck, hP⟩ := hn m b hb
  exact ⟨hle, z, hz, hstuck, hPQ z hP⟩

end RsqliteRsync.Foundation.Schedule
