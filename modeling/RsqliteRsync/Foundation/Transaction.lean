import Mathlib.Data.List.Infix

namespace RsqliteRsync.Foundation.Transaction

variable {σ ε : Type}

/-- An open transaction: the data it sees, its savepoints with the data of their moment, the
innermost first, and whether it was begun, or opened by its outermost savepoint. -/
structure Open (σ : Type) where
  data : σ
  savepoints : List (String × σ)
  begun : Bool

structure Session (σ : Type) where
  durable : σ
  current : Option (Open σ)

inductive Locking
  | deferred
  | immediate
  | exclusive
  deriving DecidableEq

inductive Control
  | begin (locking : Locking)
  | commit
  | rollback
  | savepoint (name : String)
  | release (name : String)
  | rollbackTo (name : String)
  deriving DecidableEq

inductive Refusal
  | nested
  | inactive
  | noSuchSavepoint (name : String)

/-- What is decided outside the session: whether the locks of a new transaction are to be had,
and whether the data can be committed over the durable ones. -/
structure Surroundings (σ ε : Type) where
  begins : Locking → σ → Except ε Unit
  commits : σ → σ → Except ε Unit
  refuse : Refusal → ε

namespace Session

def view (s : Session σ) : σ :=
  match s.current with
  | some tx => tx.data
  | none => s.durable

/-- Outside a transaction, a change is durable at once. -/
def put (s : Session σ) (data : σ) : Session σ :=
  match s.current with
  | some tx => { s with current := some { tx with data } }
  | none => { s with durable := data }

def close (s : Session σ) : Session σ := { s with current := none }

def leave (s : Session σ) : Option σ → Session σ
  | some data => s.put data
  | none => s.close

@[simp] theorem view_put (s : Session σ) (data : σ) : (s.put data).view = data := by
  cases hs : s.current <;> simp [put, view, hs]

@[simp] theorem put_view (s : Session σ) : s.put s.view = s := by
  obtain ⟨durable, current⟩ := s
  cases current <;> rfl

@[simp] theorem isSome_current_put (s : Session σ) (data : σ) :
    (s.put data).current.isSome = s.current.isSome := by
  cases hs : s.current <;> simp [put, hs]

@[simp] theorem put_put (s : Session σ) (data data' : σ) :
    (s.put data).put data' = s.put data' := by
  cases hs : s.current <;> simp [put, hs]

end Session

namespace Control

variable (env : Surroundings σ ε)

def commitOpen (s : Session σ) (tx : Open σ) : Except ε Unit × Session σ :=
  match env.commits s.durable tx.data with
  | .error e => (.error e, s)
  | .ok () => (.ok (), ⟨tx.data, none⟩)

def perform (s : Session σ) : Control → Except ε Unit × Session σ
  | .begin locking =>
    match s.current with
    | some _ => (.error (env.refuse .nested), s)
    | none =>
      match env.begins locking s.durable with
      | .error e => (.error e, s)
      | .ok () => (.ok (), { s with current := some ⟨s.durable, [], true⟩ })
  | .commit =>
    match s.current with
    | some tx => commitOpen env s tx
    | none => (.error (env.refuse .inactive), s)
  | .rollback =>
    match s.current with
    | some _ => (.ok (), s.close)
    | none => (.error (env.refuse .inactive), s)
  | .savepoint name =>
    match s.current with
    | some tx => (.ok (),
        { s with current := some { tx with savepoints := (name, tx.data) :: tx.savepoints } })
    | none => (.ok (), { s with current := some ⟨s.durable, [(name, s.durable)], false⟩ })
  | .release name =>
    match s.current with
    | none => (.error (env.refuse (.noSuchSavepoint name)), s)
    | some tx =>
      match tx.savepoints.dropWhile (·.1 ≠ name) with
      | [] => (.error (env.refuse (.noSuchSavepoint name)), s)
      | _ :: outer =>
        -- the outermost savepoint ends the transaction that it opened
        if outer.isEmpty && !tx.begun then commitOpen env s tx
        else (.ok (), { s with current := some { tx with savepoints := outer } })
  | .rollbackTo name =>
    match s.current with
    | none => (.error (env.refuse (.noSuchSavepoint name)), s)
    | some tx =>
      match tx.savepoints.dropWhile (·.1 ≠ name) with
      | [] => (.error (env.refuse (.noSuchSavepoint name)), s)
      | (found, data) :: outer => (.ok (),
          { s with current := some { tx with data, savepoints := (found, data) :: outer } })

end Control

/-- If a transaction is open after the step, the step has made nothing durable. -/
def Session.Settled (s s' : Session σ) : Prop := s'.current ≠ none → s'.durable = s.durable

section Settled

variable (s : Session σ)

theorem Session.settled_put (data : σ) : s.Settled (s.put data) := by
  intro h
  cases hs : s.current with
  | none => simp [put, hs] at h
  | some tx => simp [put, hs]

theorem Session.settled_leave (left : Option σ) : s.Settled (s.leave left) := by
  cases left with
  | some data => exact s.settled_put data
  | none => exact fun h ↦ absurd rfl h

variable (env : Surroundings σ ε)

theorem Control.settled_commitOpen (tx : Open σ) : s.Settled (commitOpen env s tx).2 := by
  intro h
  unfold commitOpen at *
  cases hcommits : env.commits s.durable tx.data with
  | error e => rfl
  | ok u => simp [hcommits] at h

theorem Control.settled_perform (c : Control) : s.Settled (c.perform env s).2 := by
  cases hs : s.current with
  | none =>
    cases c with
    | begin locking =>
      intro h
      cases hbegins : env.begins locking s.durable <;> simp [perform, hs, hbegins]
    | _ => intro h; simp [perform, hs]
  | some tx =>
    cases c with
    | commit => simpa [perform, hs] using settled_commitOpen s env tx
    | release name =>
      simp only [perform, hs]
      split
      · exact fun _ ↦ rfl
      · split_ifs
        · exact settled_commitOpen s env tx
        · exact fun _ ↦ rfl
    | rollbackTo name =>
      simp only [perform, hs]
      split <;> exact fun _ ↦ rfl
    | _ => intro h; simp [perform, hs, Session.close]

end Settled

section Inside

/-- The session is in a transaction that was begun, which its savepoints do not end. -/
def Session.Inside (s : Session σ) : Prop := ∃ tx, s.current = some tx ∧ tx.begun = true

variable {s : Session σ}

theorem Session.Inside.put (h : s.Inside) (data : σ) : (s.put data).Inside := by
  obtain ⟨tx, hs, hbegun⟩ := h
  exact ⟨{ tx with data }, by simp [Session.put, hs], hbegun⟩

theorem Session.Inside.perform {env : Surroundings σ ε} (h : s.Inside) {c : Control}
    (hcommit : c = .commit → env.commits s.durable s.view ≠ .ok ()) (hrollback : c ≠ .rollback) :
    (c.perform env s).2.Inside := by
  obtain ⟨tx, hs, hbegun⟩ := h
  cases c with
  | begin locking => exact ⟨tx, by simp [Control.perform, hs], hbegun⟩
  | commit =>
    have hview : s.view = tx.data := by simp [Session.view, hs]
    have hrefused := hcommit rfl
    rw [hview] at hrefused
    refine ⟨tx, ?_, hbegun⟩
    cases hcommits : env.commits s.durable tx.data with
    | ok u => exact absurd hcommits hrefused
    | error e => simp [Control.perform, Control.commitOpen, hs, hcommits]
  | rollback => exact absurd rfl hrollback
  | savepoint name =>
    exact ⟨{ tx with savepoints := (name, tx.data) :: tx.savepoints },
      by simp only [Control.perform, hs], hbegun⟩
  | release name =>
    simp only [Control.perform, hs, hbegun, Bool.not_true, Bool.and_false, Bool.false_eq_true,
      if_false]
    split
    · exact ⟨tx, hs, hbegun⟩
    · exact ⟨_, rfl, rfl⟩
  | rollbackTo name =>
    simp only [Control.perform, hs]
    split
    · exact ⟨tx, hs, hbegun⟩
    · exact ⟨_, rfl, hbegun⟩

end Inside

end RsqliteRsync.Foundation.Transaction
