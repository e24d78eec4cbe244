import RsqliteRsync.Gateway.Batch

namespace RsqliteRsync.Gateway.DatabaseEngine

open Protocol Sql Sql.Proto Foundation.Transaction

variable {σ : Type} (lib : Sqlite σ) (txMode : BatchTransactionMode)

section Meaning

/-- What a statement makes of the data, in a transaction or on its own as the mode has it. -/
def effect (s : σ) (stmtProto : Statement) : Except SyncError σ :=
  let out := meaning lib (begun txMode s) stmtProto
  out.ending.map fun _ ↦ out.session.view

/-- The statement fails, and the steps that are made do not show it. -/
def FailsUnnoticed (s : σ) (stmtProto : Statement) : Prop :=
  (meaning lib (begun txMode s) stmtProto).ending.isOk = false ∧
    (meaning lib (begun txMode s) stmtProto).noticed.isOk = true

/-- Not a transaction control statement, and if it fails, it leaves the data as they are. -/
def Plain (stmtProto : Statement) : Prop :=
  ∀ s prepared, lib.prepareV2 false s stmtProto.sql = .ok prepared → ∀ bindings,
    ∃ run, prepared.action bindings = .data run ∧
      ∀ inTransaction s e left, (run inTransaction s).ending = .failed e left → left = some s

def apply (s : σ) (stmtProto : Statement) : σ := (effect lib txMode s stmtProto).toOption.getD s

def applyAll (s : σ) (statements : List Statement) : σ := statements.foldl (apply lib txMode) s

def FailsAt (s : σ) (statements : List Statement) (i : ℕ) : Prop :=
  ∃ stmtProto, statements[i]? = some stmtProto ∧
    (effect lib txMode (applyAll lib txMode s (statements.take i)) stmtProto).isOk = false

def FailsUnnoticedAt (s : σ) (statements : List Statement) (i : ℕ) : Prop :=
  ∃ stmtProto, statements[i]? = some stmtProto ∧
    FailsUnnoticed lib txMode (applyAll lib txMode s (statements.take i)) stmtProto

def executed (stopOnError : Bool) (s : σ) : List Statement → ℕ
  | [] => 0
  | stmtProto :: more =>
    if stopOnError && !(effect lib txMode s stmtProto).isOk then 1
    else executed stopOnError (apply lib txMode s stmtProto) more + 1

end Meaning

/-- What the answer says and what data are left, by the statements' own meaning. -/
structure BatchSpec (s : σ) (statements : List Statement) (stopOnError : Bool)
    (resp : BatchResponse) (final : σ) : Prop where
  all_run : stopOnError = false ∨ (∀ i, ¬ FailsAt lib txMode s statements i) →
    resp.results.length = statements.length
  stopped : stopOnError = true → ∀ k, FailsAt lib txMode s statements k →
    (∀ i < k, ¬ FailsAt lib txMode s statements i) → resp.results.length = k + 1
  entries : ∀ i result, resp.results[i]? = some result →
    (result.result = none ↔ FailsAt lib txMode s statements i)
  autocommit : txMode = .none →
    final = applyAll lib txMode s (statements.take resp.results.length) ∧
      (resp.committed = true ↔ ∀ i, ¬ FailsAt lib txMode s statements i)
  rolled_back : txMode ≠ .none → stopOnError = true → (∃ i, FailsAt lib txMode s statements i) →
    resp.committed = false ∧ final = s
  commit : txMode ≠ .none → stopOnError = false ∨ (∀ i, ¬ FailsAt lib txMode s statements i) →
    (resp.committed = true ↔ lib.commits s (applyAll lib txMode s statements) = .ok ()) ∧
      final = if resp.committed then applyAll lib txMode s statements else s

section Step

variable {lib txMode} {stmtProto : Statement}

/-- In any session that sees the data, and has a transaction open just if the batch has one, a plain
statement does what it does at the start of a batch. -/
theorem meaning_plain (hplain : Plain lib stmtProto) {session : Session σ}
    (htx : session.current.isSome = decide (txMode ≠ .none)) :
    (meaning lib session stmtProto).ending =
        (meaning lib (begun txMode session.view) stmtProto).ending ∧
      (meaning lib session stmtProto).noticed =
        (meaning lib (begun txMode session.view) stmtProto).noticed ∧
      (meaning lib session stmtProto).session =
        session.put (apply lib txMode session.view stmtProto) := by
  have hsame : (Connection.on (begun txMode session.view)).prepare lib stmtProto.sql =
      (Connection.on session).prepare lib stmtProto.sql := by
    rw [Connection.prepare, Connection.prepare, Connection.on, view_begun]
    rfl
  simp only [meaning, effect, apply, hsame]
  cases hprepare : (Connection.on session).prepare lib stmtProto.sql with
  | error e => exact ⟨rfl, rfl, session.put_view.symm⟩
  | ok prepared =>
    have hv2 : lib.prepareV2 false session.view stmtProto.sql = .ok prepared := by
      unfold Connection.prepare at hprepare
      split_ifs at hprepare
      exact hprepare
    dsimp only
    cases bindParameters prepared stmtProto.parameters with
    | error e => exact ⟨rfl, rfl, session.put_view.symm⟩
    | ok bindings =>
      obtain ⟨run, haction, hleft⟩ := hplain _ prepared hv2 bindings
      simp only [haction, Connection.perform, Connection.on, view_begun, isSome_begun, htx]
      cases hending : (run (decide (txMode ≠ .none)) session.view).ending with
      | done after => exact ⟨rfl, rfl, by simp [Except.map, Except.toOption]⟩
      | failed e left =>
        obtain rfl := hleft _ _ e left hending
        exact ⟨rfl, rfl, rfl⟩

theorem failsAt_zero {s : σ} {more : List Statement} :
    FailsAt lib txMode s (stmtProto :: more) 0 ↔
      (effect lib txMode s stmtProto).isOk = false := by
  simp [FailsAt, applyAll]

theorem failsAt_succ {s : σ} {more : List Statement} {i : ℕ} :
    FailsAt lib txMode s (stmtProto :: more) (i + 1) ↔
      FailsAt lib txMode (apply lib txMode s stmtProto) more i := by
  simp [FailsAt, applyAll]

theorem failsUnnoticedAt_zero {s : σ} {more : List Statement} :
    FailsUnnoticedAt lib txMode s (stmtProto :: more) 0 ↔
      FailsUnnoticed lib txMode s stmtProto := by
  simp [FailsUnnoticedAt, applyAll]

theorem failsUnnoticedAt_succ {s : σ} {more : List Statement} {i : ℕ} :
    FailsUnnoticedAt lib txMode s (stmtProto :: more) (i + 1) ↔
      FailsUnnoticedAt lib txMode (apply lib txMode s stmtProto) more i := by
  simp [FailsUnnoticedAt, applyAll]

theorem isOk_effect {s : σ} : (effect lib txMode s stmtProto).isOk =
    (meaning lib (begun txMode s) stmtProto).ending.isOk := by
  dsimp only [effect]
  cases (meaning lib (begun txMode s) stmtProto).ending <;> rfl

end Step

section Loop

variable {lib txMode} {stopOnError : Bool} {generation : ℕ} {statements : List Statement}

theorem executed_of_all_run {s : σ}
    (h : stopOnError = false ∨ ∀ i, ¬ FailsAt lib txMode s statements i) :
    executed lib txMode stopOnError s statements = statements.length := by
  induction statements generalizing s with
  | nil => rfl
  | cons stmtProto more ih =>
    have hgo : (stopOnError && !(effect lib txMode s stmtProto).isOk) = false := by
      rcases h with h | h
      · simp [h]
      · have hok := h 0
        simp only [failsAt_zero, Bool.not_eq_false] at hok
        simp [hok]
    rw [executed, if_neg (by simp [hgo]), List.length_cons]
    congr 1
    exact ih (h.imp_right fun h i hi ↦ h (i + 1) (failsAt_succ.mpr hi))

theorem executed_of_stopped {s : σ} {k : ℕ} (hstop : stopOnError = true)
    (hfails : FailsAt lib txMode s statements k)
    (hfirst : ∀ i < k, ¬ FailsAt lib txMode s statements i) :
    executed lib txMode stopOnError s statements = k + 1 := by
  induction statements generalizing s k with
  | nil =>
    obtain ⟨stmtProto, hget, _⟩ := hfails
    simp at hget
  | cons stmtProto more ih =>
    cases k with
    | zero =>
      have hbad := failsAt_zero.mp hfails
      rw [executed, if_pos (by simp [hstop, hbad])]
    | succ k =>
      have hok := hfirst 0 (Nat.succ_pos k)
      simp only [failsAt_zero, Bool.not_eq_false] at hok
      rw [executed, if_neg (by simp [hok])]
      congr 1
      refine ih (failsAt_succ.mp hfails) fun i hi hbad ↦ ?_
      exact hfirst (i + 1) (Nat.succ_lt_succ hi) (failsAt_succ.mpr hbad)

structure LoopSpec (lib : Sqlite σ) (txMode : BatchTransactionMode) (stopOnError : Bool)
    (statements : List Statement) (conn : Connection σ)
    (out : List StatementResult × Bool × Connection σ) : Prop where
  length : out.1.length = executed lib txMode stopOnError conn.session.view statements
  entries : ∀ i result, out.1[i]? = some result →
    (result.result = none ↔ FailsAt lib txMode conn.session.view statements i)
  has_error : out.2.1 = true ↔ ∃ i, FailsAt lib txMode conn.session.view statements i
  session : out.2.2.session =
    conn.session.put (applyAll lib txMode conn.session.view (statements.take out.1.length))

theorem view_of_put {session session' : Session σ} {data : σ} (h : session' = session.put data) :
    session'.view = data := by
  rw [h, Session.view_put]

theorem exists_failsAt_cons {s : σ} {stmtProto : Statement} {more : List Statement} :
    (∃ i, FailsAt lib txMode s (stmtProto :: more) i) ↔
      (effect lib txMode s stmtProto).isOk = false ∨
        ∃ i, FailsAt lib txMode (apply lib txMode s stmtProto) more i := by
  constructor
  · intro h
    obtain ⟨i, hi⟩ := h
    cases i with
    | zero => exact .inl (failsAt_zero.mp hi)
    | succ i => exact .inr ⟨i, failsAt_succ.mp hi⟩
  · intro h
    rcases h with h | h
    · exact ⟨0, failsAt_zero.mpr h⟩
    · obtain ⟨i, hi⟩ := h
      exact ⟨i + 1, failsAt_succ.mpr hi⟩

theorem LoopSpec.cons {stmtProto : Statement} {more : List Statement} {conn conn' : Connection σ}
    {out : List StatementResult × Bool × Connection σ} {result : StatementResult} {hasError : Bool}
    (h : LoopSpec lib txMode stopOnError more conn' out)
    (hsession : conn'.session = conn.session.put (apply lib txMode conn.session.view stmtProto))
    (hgo : (stopOnError && !(effect lib txMode conn.session.view stmtProto).isOk) = false)
    (hresult : result.result = none ↔ (effect lib txMode conn.session.view stmtProto).isOk = false)
    (herror : hasError = true ↔
      (effect lib txMode conn.session.view stmtProto).isOk = false ∨ out.2.1 = true) :
    LoopSpec lib txMode stopOnError (stmtProto :: more) conn
      (result :: out.1, hasError, out.2.2) := by
  have hview := view_of_put hsession
  constructor
  · rw [executed, if_neg (by simp [hgo]), List.length_cons, h.length, hview]
  · intro i r hget
    cases i with
    | zero =>
      simp only [List.getElem?_cons_zero, Option.some.injEq] at hget
      rw [failsAt_zero, ← hget, hresult]
    | succ i =>
      rw [List.getElem?_cons_succ] at hget
      rw [failsAt_succ, ← hview]
      exact h.entries i r hget
  · rw [exists_failsAt_cons, herror, h.has_error, hview]
  · rw [h.session, hsession, Session.put_put, Session.view_put, List.length_cons]
    rfl

theorem LoopSpec.nil (conn : Connection σ) :
    LoopSpec lib txMode stopOnError [] conn ([], false, conn) := by
  constructor
  · rfl
  · intro i result h
    cases h
  · constructor
    · intro h
      cases h
    · intro h
      obtain ⟨i, stmtProto, hget, _⟩ := h
      cases hget
  · exact conn.session.put_view.symm

theorem LoopSpec.stopped {stmtProto : Statement} {more : List Statement}
    {conn conn' : Connection σ} {result : StatementResult}
    (hsession : conn'.session = conn.session.put (apply lib txMode conn.session.view stmtProto))
    (hbad : (effect lib txMode conn.session.view stmtProto).isOk = false)
    (hresult : result.result = none) :
    LoopSpec lib txMode true (stmtProto :: more) conn ([result], true, conn') := by
  constructor
  · rw [executed, if_pos (by simp [hbad])]
    rfl
  · intro i r hget
    cases i with
    | zero =>
      rw [List.getElem?_cons_zero, Option.some.injEq] at hget
      rw [failsAt_zero, ← hget]
      exact iff_of_true hresult hbad
    | succ i => cases hget
  · exact iff_of_true rfl ⟨0, failsAt_zero.mpr hbad⟩
  · exact hsession

theorem runStatement_plain (generation : ℕ) {conn : Connection σ} {stmtProto : Statement}
    (hplain : Plain lib stmtProto) (hrw : conn.readOnly = false)
    (htx : conn.session.current.isSome = decide (txMode ≠ .none)) :
    let out := runStatement lib generation conn stmtProto
    out.2.readOnly = false ∧
      out.2.session = conn.session.put (apply lib txMode conn.session.view stmtProto) ∧
      (FailsUnnoticed lib txMode conn.session.view stmtProto → out.1.isOk = true) ∧
      (¬ FailsUnnoticed lib txMode conn.session.view stmtProto →
        out.1.isOk = (effect lib txMode conn.session.view stmtProto).isOk) := by
  obtain ⟨hok, hrw', hsession⟩ := runStatement_meaning lib generation stmtProto hrw
  obtain ⟨-, hnoticed, hafter⟩ := meaning_plain hplain htx
  rw [hafter] at hsession
  rw [hnoticed] at hok
  refine ⟨hrw', hsession, fun h ↦ hok.trans h.2, fun h ↦ ?_⟩
  rw [hok, isOk_effect]
  cases hcase : (meaning lib (begun txMode conn.session.view) stmtProto).noticed.isOk with
  | false => exact (isOk_of_noticed hcase).symm
  | true => exact (Bool.eq_true_of_not_eq_false fun hfails ↦ h ⟨hfails, hcase⟩).symm

theorem lt_executed_cons {s : σ} {stmtProto : Statement} {more : List Statement} {i : ℕ} :
    i + 1 < executed lib txMode stopOnError s (stmtProto :: more) ↔
      (stopOnError && !(effect lib txMode s stmtProto).isOk) = false ∧
        i < executed lib txMode stopOnError (apply lib txMode s stmtProto) more := by
  rw [executed]
  split_ifs with hstop
  · simp [hstop]
  · simp only [Nat.add_lt_add_iff_right, Bool.eq_false_iff.mpr hstop, true_and]

theorem executed_cons_pos {s : σ} {stmtProto : Statement} {more : List Statement} :
    0 < executed lib txMode stopOnError s (stmtProto :: more) := by
  rw [executed]
  split_ifs <;> exact Nat.succ_pos _

theorem batchLoop_plain {conn : Connection σ} (hplain : ∀ st ∈ statements, Plain lib st)
    (hrw : conn.readOnly = false) (htx : conn.session.current.isSome = decide (txMode ≠ .none))
    (hnoticed : ∀ i < executed lib txMode stopOnError conn.session.view statements,
      ¬ FailsUnnoticedAt lib txMode conn.session.view statements i) :
    LoopSpec lib txMode stopOnError statements conn
      (batchLoop lib stopOnError generation statements conn) := by
  induction statements generalizing conn with
  | nil => exact .nil conn
  | cons stmtProto more ih =>
    obtain ⟨hone, hmore⟩ := List.forall_mem_cons.mp hplain
    obtain ⟨hrw', hsession, -, hok⟩ := runStatement_plain generation hone hrw htx
    have hfirst := hok fun h ↦ hnoticed 0 executed_cons_pos (failsUnnoticedAt_zero.mpr h)
    cases hstop : stopOnError && !(effect lib txMode conn.session.view stmtProto).isOk with
    | true =>
      obtain ⟨rfl, hbad⟩ : stopOnError = true ∧
          (effect lib txMode conn.session.view stmtProto).isOk = false := by simpa using hstop
      obtain ⟨result, hresult, hloop⟩ := batchLoop_stops more (hfirst.trans hbad)
      rw [hloop]
      exact .stopped hsession hbad hresult
    | false =>
      obtain ⟨result, hresult, hloop⟩ := batchLoop_goes more (hfirst ▸ hstop)
      rw [hloop]
      rw [hfirst] at hresult ⊢
      have hview := view_of_put hsession
      refine (ih hmore hrw' (by rw [hsession, Session.isSome_current_put, htx]) ?_).cons hsession
        hstop hresult (by simp)
      rw [hview]
      exact fun i hi h ↦ hnoticed (i + 1) (lt_executed_cons.mpr ⟨hstop, hi⟩)
        (failsUnnoticedAt_succ.mpr h)

variable (generation) in
theorem batchLoop_unnoticed {conn : Connection σ} (hplain : ∀ st ∈ statements, Plain lib st)
    (hrw : conn.readOnly = false) (htx : conn.session.current.isSome = decide (txMode ≠ .none))
    {i : ℕ} (hi : i < executed lib txMode stopOnError conn.session.view statements)
    (h : FailsUnnoticedAt lib txMode conn.session.view statements i) :
    ∃ result, (batchLoop lib stopOnError generation statements conn).1[i]? = some result ∧
      result.result ≠ none := by
  induction statements generalizing conn i with
  | nil => cases hi
  | cons stmtProto more ih =>
    obtain ⟨hone, hmore⟩ := List.forall_mem_cons.mp hplain
    obtain ⟨hrw', hsession, hlate, hok⟩ := runStatement_plain generation hone hrw htx
    cases i with
    | zero =>
      have htrue := hlate (failsUnnoticedAt_zero.mp h)
      have hgoes :
          (stopOnError && !(runStatement lib generation conn stmtProto).1.isOk) = false := by
        rw [htrue, Bool.not_true, Bool.and_false]
      obtain ⟨result, hresult, hloop⟩ := batchLoop_goes more hgoes
      rw [hloop]
      exact ⟨result, rfl, fun hnone ↦ by rw [hresult.mp hnone] at htrue; cases htrue⟩
    | succ i =>
      obtain ⟨hgo, hi'⟩ := lt_executed_cons.mp hi
      have hgoes :
          (stopOnError && !(runStatement lib generation conn stmtProto).1.isOk) = false := by
        by_cases hcase : FailsUnnoticed lib txMode conn.session.view stmtProto
        · rw [hlate hcase, Bool.not_true, Bool.and_false]
        · rwa [hok hcase]
      obtain ⟨result, -, hloop⟩ := batchLoop_goes more hgoes
      have hview := view_of_put hsession
      rw [hloop, List.getElem?_cons_succ]
      refine ih hmore hrw' (by rw [hsession, Session.isSome_current_put, htx]) ?_ ?_
      · rwa [hview]
      · rw [hview]
        exact failsUnnoticedAt_succ.mp h

theorem LoopSpec.batchSpec {s : σ} {out : List StatementResult × Bool × Connection σ}
    (h : LoopSpec lib txMode stopOnError statements (started s txMode) out) :
    BatchSpec lib txMode s statements stopOnError
      ⟨out.1, generation, (endBatch lib (txMode ≠ .none) out.2.1 stopOnError out.2.2).1⟩
      (endBatch lib (txMode ≠ .none) out.2.1 stopOnError out.2.2).2.session.close.durable := by
  have hview : (started s txMode).session.view = s := view_begun
  obtain ⟨results, hasError, conn⟩ := out
  obtain ⟨hlength, hentries, herror, hsession⟩ := h
  simp only [hview] at hlength hentries herror hsession
  have hall := fun h ↦ hlength.trans (executed_of_all_run h)
  refine ⟨hall, fun hstop k hk hfirst ↦ ?_, hentries, fun hmode ↦ ?_, fun hmode hstop hfails ↦ ?_,
    fun hmode hgo ↦ ?_⟩
  · exact hlength.trans (executed_of_stopped hstop hk hfirst)
  · subst hmode
    refine ⟨?_, ?_⟩
    · simpa [endBatch, started, begun, Session.put, Session.close] using
        congrArg Session.durable hsession
    · simp [endBatch, ← not_exists, ← herror]
  · have hdurable : conn.session.durable = s := by
      simp [hsession, started, begun, hmode, Session.put]
    have hfalse : (endBatch lib true hasError stopOnError conn).1 = false := by
      rw [← Bool.not_eq_true, endBatch_committed]
      simp [hstop, herror.mpr hfails]
    simp only [hmode, ne_eq, not_false_eq_true, decide_true]
    exact ⟨hfalse, by rw [endBatch_durable, hfalse, if_neg Bool.false_ne_true, hdurable]⟩
  · have hnot : (hasError && stopOnError) = false := by
      rcases hgo with hgo | hgo
      · simp [hgo]
      · have hclean : hasError ≠ true := fun h ↦ not_exists.mpr hgo (herror.mp h)
        simp [hclean]
    have hin : conn.session = ⟨s, some ⟨applyAll lib txMode s statements, [], true⟩⟩ := by
      simpa [started, begun, hmode, Session.put, hall hgo] using hsession
    simp only [hmode, ne_eq, not_false_eq_true, decide_true]
    constructor
    · rw [endBatch_committed, hin]
      simp [hnot]
    · rw [endBatch_durable, hin]
      rfl

end Loop

/-- A batch of plain statements, once it has begun, answers and leaves the data as the statements
mean it, precisely when none of those it runs fails unnoticed. -/
theorem batch_spec_iff (s : σ) (statements : List Statement) (txMode : BatchTransactionMode)
    (stopOnError : Bool) (generation : ℕ) (hplain : ∀ st ∈ statements, Plain lib st)
    (hopen : lib.openDatabase false s = .ok ())
    (hbegin : txMode ≠ .none → lib.begins txMode.locking s = .ok ()) :
    (∃ resp final, batch lib s statements txMode stopOnError generation = (.ok resp, final) ∧
        BatchSpec lib txMode s statements stopOnError resp final) ↔
      ∀ i < executed lib txMode stopOnError s statements,
        ¬ FailsUnnoticedAt lib txMode s statements i := by
  have hview : (started s txMode).session.view = s := view_begun
  have htx : (started s txMode).session.current.isSome = decide (txMode ≠ .none) := isSome_begun
  rw [batch_eq hopen hbegin]
  constructor
  · rintro ⟨resp, final, hbatch, hspec⟩ i hi h
    obtain ⟨hresp, -⟩ := Prod.mk.inj hbatch
    obtain rfl := Except.ok.inj hresp
    rw [← hview] at hi h
    obtain ⟨result, hget, hsome⟩ := batchLoop_unnoticed generation hplain rfl htx hi h
    rw [hview] at h
    obtain ⟨stmtProto, hstmt, hfails, -⟩ := h
    exact hsome ((hspec.entries i result hget).mpr ⟨stmtProto, hstmt, isOk_effect.trans hfails⟩)
  · intro hnoticed
    exact ⟨_, _, rfl, (batchLoop_plain hplain rfl htx (hview.symm ▸ hnoticed)).batchSpec⟩

theorem sampleInsert_plain : Plain sampleSqlite ⟨"INSERT INTO t VALUES (1)", none⟩ := by
  intro s prepared hprepare bindings
  obtain rfl : sampleInsert false 1 some = prepared := Except.ok.inj hprepare
  refine ⟨_, rfl, fun _ s e left hfailed ↦ ?_⟩
  by_cases h : (1 : Int64) ∈ s
  · simp only [h, if_true, Bool.false_eq_true, if_false] at hfailed
    cases hfailed
    rfl
  · simp [h] at hfailed

theorem sampleInsert_noticed (txMode : BatchTransactionMode) (s : List Int64) :
    ¬ FailsUnnoticed sampleSqlite txMode s ⟨"INSERT INTO t VALUES (1)", none⟩ := by
  have hprepare : (Connection.on (begun txMode s)).prepare sampleSqlite "INSERT INTO t VALUES (1)" =
      .ok (sampleInsert false 1 some) := rfl
  unfold FailsUnnoticed meaning
  rw [hprepare]
  by_cases h : (1 : Int64) ∈ s <;>
    simp [bindParameters, sampleInsert, Connection.perform, Connection.on, h, Except.isOk,
      Except.toBool]

theorem batch_spec_two_inserts : ∃ resp final,
    batch sampleSqlite [] (.replicate 2 ⟨"INSERT INTO t VALUES (1)", none⟩) .deferred false 7 =
      (.ok resp, final) ∧
    BatchSpec sampleSqlite .deferred [] (.replicate 2 ⟨"INSERT INTO t VALUES (1)", none⟩) false
      resp final := by
  refine (batch_spec_iff sampleSqlite [] _ .deferred false 7 (fun st hst ↦ ?_) rfl
    fun _ ↦ rfl).mpr fun i _ ↦ ?_
  · rw [List.eq_of_mem_replicate hst]
    exact sampleInsert_plain
  · rintro ⟨st, hst, hfails⟩
    rw [List.eq_of_mem_replicate (List.mem_of_getElem? hst)] at hfails
    exact sampleInsert_noticed _ _ hfails

/-- The row is handed out before the transaction of the statement fails. -/
theorem batch_spec_fails_returning : ¬ ∃ resp final,
    batch deferredSqlite [] [⟨"INSERT INTO c VALUES (1) RETURNING x", none⟩] .none false 7 =
      (.ok resp, final) ∧
    BatchSpec deferredSqlite .none [] [⟨"INSERT INTO c VALUES (1) RETURNING x", none⟩] false
      resp final := by
  rintro ⟨resp, final, hbatch, hspec⟩
  cases hbatch
  have hfails := (hspec.entries 0 _ rfl).mpr ⟨_, rfl, rfl⟩
  cases hfails

end RsqliteRsync.Gateway.DatabaseEngine
