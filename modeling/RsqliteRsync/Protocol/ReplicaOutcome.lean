import RsqliteRsync.Protocol.ReplicaScript
import RsqliteRsync.Protocol.Convergence

namespace RsqliteRsync.Protocol.Replica

open Foundation.Process Foundation.Script Db

variable {lib : Crates} {algorithm : HashAlgorithm} {tuning : SyncTuning} {σ : Type}
  {handle : (e : ConnOp) → σ → e.Reply × σ} {conn : Connection} {r : Image} {s s' : σ}
  {l l' : HandlerLine} {g : ℕ} {gs : List ℕ} {batches : List (List PageData)}

section Closing

theorem closing_of_ne_nil {hashes : List PageHash} {count : ℕ} (h : gs ≠ []) :
    closing conn hashes count gs = finePass conn hashes count gs := if_neg h

variable (lib algorithm handle conn r) in
theorem closing_cases (gs : List ℕ) (s : σ) (l : HandlerLine) :
    Errs (play handle (closing conn (pageHashList lib algorithm r) r.pageCount gs) s l) ∨
      AllServed handle conn gs s l ∨ EarlyDone handle conn gs s l ∨
      Overflow handle conn gs s l := by
  by_cases hnil : gs = []
  · subst hnil
    refine errs_or_recv _ fun m msgs hm ↦ ?_
    refine (expectDone_cases _ m s _).imp_right ?_
    rintro rfl
    exact .inl ⟨[], s, l, msgs, .nil s l, hm⟩
  · rw [closing_of_ne_nil hnil]
    exact finePass_cases gs s l

theorem closing_all_served {msgs : List Message}
    (h : Served handle conn gs batches s l s' l') (hdone : l'.incoming = .done :: msgs) :
    play handle (closing conn (pageHashList lib algorithm r) r.pageCount gs) s l =
      ⟨.ok (), s', l'.withIncoming msgs,
        servedEvents lib algorithm conn r gs batches ++ [.received .done]⟩ := by
  by_cases hnil : gs = []
  · subst hnil
    cases h
    exact play_recv_msg _ hdone
  · rw [closing_of_ne_nil hnil, finePass_all_served h hdone]

theorem closing_overflow (h : Overflow handle conn gs s l) :
    (play handle (closing conn (pageHashList lib algorithm r) r.pageCount gs) s l).outcome =
      .error .panic := by
  have hne : gs ≠ [] := by
    obtain ⟨served, g, rest, -, -, -, rfl, -⟩ := h
    simp
  rw [closing_of_ne_nil hne]
  exact finePass_overflow h

theorem run_asked {version size count : ℕ} {msgs : List Message}
    (hsize : conn.pageSize = r.pageSize) (hn : r.pageCount + 64 ≤ u32Bound)
    (h : Asked handle r algorithm version size count gs msgs s l) :
    play handle (runWithTuning lib conn tuning) s l =
      (play handle (closing conn (pageHashList lib algorithm r) r.pageCount gs) s
        (afterAsking l msgs)).prepend
        (greetingEvents conn r version size count ++ coarseEvents lib algorithm r gs) := by
  rw [runWithTuning_eq, play_bind_ok (play_asked hsize hn h)]

theorem run_errs (h : Errs (play handle (opening lib conn tuning) s l)) :
    Errs (play handle (runWithTuning lib conn tuning) s l) := by
  rw [runWithTuning_eq]
  exact errs_bind h _

end Closing

section Served

/-- A complete session: the handshake with version 1 or 2, the groups that the origin asks for, for
each of them one answer whose pages are written and acknowledged, and the final `Done`. -/
def Completed (lib : Crates) (conn : Connection) (r : Image)
    (trace : List (Event Message ConnOp.Reply)) : Prop :=
  ∃ algorithm version size count gs batches, (version = 1 ∨ version = 2) ∧
    batches.length = gs.length ∧
    trace = greetingEvents conn r version size count ++ coarseEvents lib algorithm r gs ++
      servedEvents lib algorithm conn r gs batches ++ [.received .done]

/-- The handler returns success only for a complete session, and an error value otherwise. -/
def Faithful (lib : Crates) (conn : Connection) (r : Image)
    (e : HandlerEnd ConnOp.Reply Unit σ) : Prop :=
  Errs e ∨ (e.outcome = .ok () ∧ Completed lib conn r e.trace)

theorem Served.length_eq (h : Served handle conn gs batches s l s' l') :
    batches.length = gs.length := by
  induction h with
  | nil => rfl
  | cons _ _ _ _ _ _ ih => simp [ih]

section Received

theorem received_served (h : batches.length = gs.length) :
    receivedMessages (servedEvents lib algorithm conn r gs batches) =
      batches.map Message.sendPages := by
  induction gs generalizing batches with
  | nil =>
    cases List.length_eq_zero_iff.mp h
    rfl
  | cons g gs ih =>
    cases batches with
    | nil => cases h
    | cons pages batches =>
      rw [servedEvents, receivedMessages_append, ih (by simpa using h), roundEvents]
      simp [receivedMessages, writeEvent]

theorem received_greeting (version size count : ℕ) :
    receivedMessages (greetingEvents conn r version size count) =
      [.helloAck version size count] := by
  unfold greetingEvents
  split <;> rfl

end Received

theorem not_completed_of_early {version size count : ℕ} (h : batches.length = gs.length) :
    ¬ Completed lib conn r (greetingEvents conn r version size count ++
      coarseEvents lib algorithm r (gs ++ [g]) ++ (servedEvents lib algorithm conn r gs batches ++
        [.sent (.pageHashes (groupPageNos g r.pageCount) (groupInput lib algorithm r g)),
          .received .done])) := by
  rintro ⟨algorithm', version', size', count', gs', batches', -, hlength, htrace⟩
  -- the two message sequences name the same groups but differ in length
  have hreceived := congrArg receivedMessages htrace
  simp only [receivedMessages_append, received_served h, received_served hlength,
    received_greeting] at hreceived
  simp only [receivedMessages, coarseEvents, List.filterMap_cons, List.filterMap_nil,
    List.cons_append, List.nil_append, List.cons.injEq, Message.groupsNeedFine.injEq] at hreceived
  obtain ⟨-, rfl, hmsgs⟩ := hreceived
  have hlen := congrArg List.length hmsgs
  simp only [List.length_append, List.length_map, List.length_cons, List.length_nil] at hlen hlength
  omega

end Served

section Outcome

/-- The replica has too many pages for the end of its last group to be a `u32`, and the handshake
succeeds. -/
def HashOverflow (handle : (e : ConnOp) → σ → e.Reply × σ) (r : Image) (s : σ) (l : HandlerLine) :
    Prop :=
  u32Bound < r.pageCount + 64 ∧ ∃ algorithm version size count msgs,
    Greeted handle r algorithm version size count msgs s l

def GroupOverflow (handle : (e : ConnOp) → σ → e.Reply × σ) (conn : Connection) (r : Image) (s : σ)
    (l : HandlerLine) : Prop :=
  r.pageCount + 64 ≤ u32Bound ∧ ∃ algorithm version size count gs msgs,
    Asked handle r algorithm version size count gs msgs s l ∧
    Overflow handle conn gs s (afterAsking l msgs)

def DoneTooEarly (handle : (e : ConnOp) → σ → e.Reply × σ) (conn : Connection) (r : Image) (s : σ)
    (l : HandlerLine) : Prop :=
  r.pageCount + 64 ≤ u32Bound ∧ ∃ algorithm version size count gs msgs,
    Asked handle r algorithm version size count gs msgs s l ∧
    EarlyDone handle conn gs s (afterAsking l msgs)

theorem not_faithful_of_panic {e : HandlerEnd ConnOp.Reply Unit σ}
    (h : e.outcome = .error .panic) : ¬ Faithful lib conn r e := by
  rintro (⟨error, herror⟩ | ⟨hok, -⟩)
  · cases h.symm.trans herror
  · cases h.symm.trans hok

theorem run_all_served {version size count : ℕ} {msgs rest : List Message}
    (hsize : conn.pageSize = r.pageSize) (hn : r.pageCount + 64 ≤ u32Bound)
    (hasked : Asked handle r algorithm version size count gs msgs s l)
    (hserved : Served handle conn gs batches s (afterAsking l msgs) s' l')
    (hdone : l'.incoming = .done :: rest) :
    (play handle (runWithTuning lib conn tuning) s l).outcome = .ok () ∧
      (play handle (runWithTuning lib conn tuning) s l).trace =
        greetingEvents conn r version size count ++ coarseEvents lib algorithm r gs ++
          servedEvents lib algorithm conn r gs batches ++ [.received .done] := by
  rw [run_asked hsize hn hasked, closing_all_served hserved hdone]
  exact ⟨rfl, (List.append_assoc _ _ _).symm⟩

theorem hash_overflow_panics (hsize : conn.pageSize = r.pageSize)
    (h : HashOverflow handle r s l) :
    (play handle (runWithTuning lib conn tuning) s l).outcome = .error .panic := by
  obtain ⟨hn, algorithm, version, size, count, msgs, hgreeted⟩ := h
  rw [runWithTuning_eq, play_bind, End.andThen, opening_overflow hsize hn hgreeted]

theorem group_overflow_panics (hsize : conn.pageSize = r.pageSize)
    (h : GroupOverflow handle conn r s l) :
    (play handle (runWithTuning lib conn tuning) s l).outcome = .error .panic := by
  obtain ⟨hn, algorithm, version, size, count, gs, msgs, hasked, hoverflow⟩ := h
  rw [run_asked hsize hn hasked, End.outcome_prepend]
  exact closing_overflow hoverflow

variable (lib tuning) in
theorem early_done_succeeds (hsize : conn.pageSize = r.pageSize)
    (h : DoneTooEarly handle conn r s l) :
    (play handle (runWithTuning lib conn tuning) s l).outcome = .ok () ∧
      ¬ Completed lib conn r (play handle (runWithTuning lib conn tuning) s l).trace := by
  obtain ⟨hn, algorithm, version, size, count, gs, msgs, hasked,
    served, g, batches, s', l', rest, rfl, hserved, hg, hsend, hdone⟩ := h
  rw [run_asked hsize hn hasked, closing_of_ne_nil (by simp),
    finePass_early_done hserved hg hsend hdone]
  exact ⟨rfl, not_completed_of_early hserved.length_eq⟩

variable (lib tuning) in
theorem run_outcome (hp : Presents handle conn r s) (l : HandlerLine) :
    Faithful lib conn r (play handle (runWithTuning lib conn tuning) s l) ∨
      HashOverflow handle r s l ∨ DoneTooEarly handle conn r s l ∨
      GroupOverflow handle conn r s l := by
  by_cases hn : r.pageCount + 64 ≤ u32Bound
  · rcases asked_cases lib tuning hp hn l with
      herr | ⟨algorithm, version, size, count, gs, msgs, hasked⟩
    · exact .inl (.inl (run_errs herr))
    · rcases closing_cases lib algorithm handle conn r gs s (afterAsking l msgs) with
        herr | ⟨batches, s', l', rest, hserved, hdone⟩ | hearly | hoverflow
      · refine .inl (.inl ?_)
        rwa [run_asked hp.pageSize hn hasked]
      · obtain ⟨hok, htrace⟩ := run_all_served hp.pageSize hn hasked hserved hdone
        exact .inl (.inr ⟨hok, algorithm, version, size, count, gs, batches,
          version_of_supported hasked.greeted.supported, hserved.length_eq, htrace⟩)
      · exact .inr (.inr (.inl ⟨hn, algorithm, version, size, count, gs, msgs, hasked, hearly⟩))
      · exact .inr (.inr (.inr ⟨hn, algorithm, version, size, count, gs, msgs, hasked, hoverflow⟩))
  · rcases greeted_cases lib tuning hp l with
      herr | ⟨algorithm, version, size, count, msgs, hgreeted⟩
    · exact .inl (.inl (run_errs herr))
    · exact .inr (.inl ⟨not_le.mp hn, algorithm, version, size, count, msgs, hgreeted⟩)

/-- Success means that every requested group was served, and everything else is an error, exactly
when the origin does not send `Done` for the pages of the last group and neither the replica's own
groups nor the requested ones exceed the `u32` range. -/
theorem faithful_iff (hp : Presents handle conn r s) :
    Faithful lib conn r (play handle (runWithTuning lib conn tuning) s l) ↔
      ¬ DoneTooEarly handle conn r s l ∧ ¬ HashOverflow handle r s l ∧
        ¬ GroupOverflow handle conn r s l := by
  constructor
  · intro h
    refine ⟨fun hearly ↦ ?_, fun hhash ↦ ?_, fun hgroup ↦ ?_⟩
    · obtain ⟨hok, hnot⟩ := early_done_succeeds lib tuning hp.pageSize hearly
      rcases h with ⟨error, herror⟩ | ⟨-, hcompleted⟩
      · cases hok.symm.trans herror
      · exact hnot hcompleted
    · exact not_faithful_of_panic (hash_overflow_panics hp.pageSize hhash) h
    · exact not_faithful_of_panic (group_overflow_panics hp.pageSize hgroup) h
  · rintro ⟨hearly, hhash, hgroup⟩
    rcases run_outcome lib tuning hp l with h | h | h | h
    · exact h
    · exact absurd h hhash
    · exact absurd h hearly
    · exact absurd h hgroup

theorem disk_presents (r : Image) (writable : Bool) :
    Presents (Disk.handle r.pageSize) ⟨r.pageSize, writable⟩ r r.disk :=
  ⟨rfl, .inl (Session.disk_serves r).pageCount, .inl rfl⟩

section Sample

theorem asked_one_blank (gs : List ℕ) (msgs : List Message) :
    Asked (Disk.handle 512) Session.oneBlank .blake3V2 2 512 1 gs msgs Session.oneBlank.disk
      (lineOf (.helloAck 2 512 1 :: .groupsNeedFine gs :: msgs)) :=
  ⟨⟨(Session.disk_serves Session.oneBlank).pageCount, fun _ ↦ rfl, rfl, rfl, rfl⟩, rfl⟩

/-- An origin that asks for group 0 and sends its page. -/
def servingLine : HandlerLine :=
  lineOf [.helloAck 2 512 1, .groupsNeedFine [0], .sendPages [⟨1, Session.onePage⟩], .done]

theorem servingLine_served :
    (play (Disk.handle 512) (runWithTuning Session.tabulated ⟨512, true⟩ {})
      Session.oneBlank.disk servingLine).outcome = .ok () ∧
    (play (Disk.handle 512) (runWithTuning Session.tabulated ⟨512, true⟩ {})
      Session.oneBlank.disk servingLine).trace =
        greetingEvents ⟨512, true⟩ Session.oneBlank 2 512 1 ++
          coarseEvents Session.tabulated .blake3V2 Session.oneBlank [0] ++
          servedEvents Session.tabulated .blake3V2 ⟨512, true⟩ Session.oneBlank [0]
            [[⟨1, Session.onePage⟩]] ++ [.received .done] := by
  have hwrote : Wrote (Disk.handle 512) ⟨512, true⟩ [⟨1, Session.onePage⟩]
      Session.oneBlank.disk _ :=
    .cons (by decide) List.length_replicate rfl rfl (.nil _)
  exact run_all_served rfl (by decide) (asked_one_blank _ _)
    (.cons (by decide) rfl rfl hwrote rfl (.nil _ _)) rfl

end Sample

theorem faithful_iff_one_blank :
    (play (Disk.handle 512) (runWithTuning Session.tabulated ⟨512, true⟩ {})
      Session.oneBlank.disk servingLine).outcome = .ok () ∧
    ¬ DoneTooEarly (Disk.handle 512) ⟨512, true⟩ Session.oneBlank Session.oneBlank.disk
      servingLine ∧
    ¬ HashOverflow (Disk.handle 512) Session.oneBlank Session.oneBlank.disk servingLine ∧
    ¬ GroupOverflow (Disk.handle 512) ⟨512, true⟩ Session.oneBlank Session.oneBlank.disk
      servingLine := by
  obtain ⟨hok, htrace⟩ := servingLine_served
  refine ⟨hok, (faithful_iff (disk_presents Session.oneBlank true)).mp (.inr ⟨hok, ?_⟩)⟩
  exact ⟨.blake3V2, 2, 512, 1, [0], [[⟨1, Session.onePage⟩]], .inr rfl, rfl, htrace⟩

/-- Asked for group 0, the replica reports success although no page of it has arrived. -/
theorem early_done_one_blank :
    (play (Disk.handle 512) (runWithTuning Session.tabulated ⟨512, true⟩ {})
      Session.oneBlank.disk (lineOf [.helloAck 2 512 1, .groupsNeedFine [0], .done])).outcome =
        .ok () ∧
    ¬ Faithful Session.tabulated ⟨512, true⟩ Session.oneBlank
      (play (Disk.handle 512) (runWithTuning Session.tabulated ⟨512, true⟩ {})
        Session.oneBlank.disk (lineOf [.helloAck 2 512 1, .groupsNeedFine [0], .done])) := by
  have hearly : DoneTooEarly (Disk.handle 512) ⟨512, true⟩ Session.oneBlank Session.oneBlank.disk
      (lineOf [.helloAck 2 512 1, .groupsNeedFine [0], .done]) :=
    ⟨by decide, .blake3V2, 2, 512, 1, [0], [.done], asked_one_blank _ _,
      [], 0, [], Session.oneBlank.disk, _, [], rfl, .nil _ _, by decide, rfl, rfl⟩
  obtain ⟨hok, hnot⟩ := early_done_succeeds Session.tabulated {} rfl hearly
  refine ⟨hok, ?_⟩
  rintro (⟨error, herror⟩ | ⟨-, hcompleted⟩)
  · cases hok.symm.trans herror
  · exact hnot hcompleted

end Outcome

end RsqliteRsync.Protocol.Replica
