import RsqliteRsync.Protocol.OriginScript
import RsqliteRsync.Protocol.Convergence
import RsqliteRsync.Transport.Framing

namespace RsqliteRsync.Protocol.Origin

open Foundation.Process Foundation.Script Db

variable {lib : Crates} {snap : Snapshot} {tuning : SyncTuning} {σ : Type}
  {handle : (e : Empty) → σ → Empty.elim e × σ} {s : σ} {l : HandlerLine} {version size count : ℕ}
  {hashes : List PageHash} {replies : List Reply} {gs : List ℕ} {msgs rest : List Message}

section Asked

structure Asked (snap : Snapshot) (version size count : ℕ) (hashes : List PageHash)
    (msgs : List Message) (l : HandlerLine) : Prop where
  greeted : Greeted snap version size count (.groupHashes 0 hashes :: msgs) l
  short : hashes.length < 2 ^ 26
  sends : l.fate 1 = .ok ()

def openingEvents (lib : Crates) (snap : Snapshot) (version size count : ℕ)
    (hashes : List PageHash) : List OriginEvent :=
  [.received (.hello version size count),
    .sent (.helloAck (min version PROTOCOL_VERSION) snap.pageSize snap.pageCount),
    .received (.groupHashes 0 hashes),
    .sent (.groupsNeedFine (flaggedGroups lib (algorithmFor version) snap hashes))]

theorem play_asked (h : Asked snap version size count hashes msgs l) :
    play handle (runWithTuning lib snap tuning) s l =
      (play handle (finePass lib snap tuning (algorithmFor version)
        (flaggedGroups lib (algorithmFor version) snap hashes) >>= fun _ ↦ send .done) s
          ((l.afterSends 2).withIncoming msgs)).prepend
            (openingEvents lib snap version size count hashes) := by
  have hsend : (l.afterSend.withIncoming (.groupHashes 0 hashes :: msgs)).fate 0 = .ok () :=
    h.sends
  rw [runWithTuning, play_bind_ok (play_handshake h.greeted),
    play_bind_ok (play_coarsePass h.short rfl hsend), End.prepend_prepend]
  rfl

theorem asked_cases (hshort : ShortGroupHashes l) (s : σ) :
    Errs (play handle (runWithTuning lib snap tuning) s l) ∨
      ∃ version size count hashes msgs, Asked snap version size count hashes msgs l := by
  rw [runWithTuning]
  rcases handshake_cases s l with herr | ⟨version, size, count, msgs, hgreeted⟩
  · exact .inl (errs_bind herr _)
  rw [play_bind_ok (play_handshake hgreeted), errs_prepend]
  have hcoarse := hshort.after_first hgreeted.incoming
  rcases coarsePass_cases (l := l.afterSend.withIncoming msgs) hcoarse s with
    herr | ⟨hashes, rest, hlen, hm, hsend⟩
  · exact .inl (errs_bind herr _)
  · cases hm
    exact .inr ⟨version, size, count, hashes, rest, hgreeted, hlen, hsend⟩

end Asked

section Outcome

/-- Everything a replica says in an accepted session. -/
structure Dialogue where
  version : ℕ
  size : ℕ
  count : ℕ
  hashes : List PageHash
  replies : List Reply

namespace Dialogue

variable (lib : Crates) (snap : Snapshot) (d : Dialogue)

def groups : List ℕ := flaggedGroups lib (algorithmFor d.version) snap d.hashes

structure Valid : Prop where
  version : 1 ≤ d.version
  size : d.size = 0 ∨ d.size = snap.pageSize
  replies : List.Forall₂ (Reply.Valid lib (algorithmFor d.version) snap) (d.groups lib snap)
    d.replies

def messages : List Message :=
  .hello d.version d.size d.count :: .groupHashes 0 d.hashes ::
    (List.zipWith Reply.messages (d.groups lib snap) d.replies).flatten

def answers : List Message :=
  [.helloAck (min d.version PROTOCOL_VERSION) snap.pageSize snap.pageCount,
    .groupsNeedFine (d.groups lib snap)] ++
  List.zipWith (fun g reply ↦ .sendPages
    (roundPages lib (algorithmFor d.version) snap g reply.hashes)) (d.groups lib snap) d.replies ++
  [.done]

def events : List OriginEvent :=
  openingEvents lib snap d.version d.size d.count d.hashes ++
  (List.zipWith (Reply.events lib (algorithmFor d.version) snap) (d.groups lib snap)
    d.replies).flatten ++ [.sent .done]

theorem sentMessages_events : sentMessages (d.events lib snap) = d.answers lib snap := by
  have hrounds : ∀ (gs : List ℕ) (replies : List Reply),
      sentMessages (List.zipWith (Reply.events lib (algorithmFor d.version) snap) gs
        replies).flatten = List.zipWith (fun g reply ↦ .sendPages
          (roundPages lib (algorithmFor d.version) snap g reply.hashes)) gs replies := by
    intro gs
    induction gs with
    | nil => intro replies; rfl
    | cons g gs ih =>
      intro replies
      cases replies with
      | nil => rfl
      | cons reply replies => exact congrArg (_ :: ·) (ih replies)
  unfold events answers
  rw [sentMessages_append, sentMessages_append, hrounds]
  rfl

end Dialogue

structure Heard (lib : Crates) (snap : Snapshot) (d : Dialogue) (rest : List Message)
    (l : HandlerLine) : Prop where
  valid : d.Valid lib snap
  short : d.hashes.length < 2 ^ 26
  incoming : l.incoming = d.messages lib snap ++ rest
  sends : ∀ n < (d.groups lib snap).length + 3, l.fate n = .ok ()

theorem Heard.asked {d : Dialogue} (h : Heard lib snap d rest l) :
    Asked snap d.version d.size d.count d.hashes
      ((List.zipWith Reply.messages (d.groups lib snap) d.replies).flatten ++ rest) l :=
  ⟨⟨h.valid.version, h.valid.size, h.incoming, h.sends 0 (by omega)⟩, h.short,
    h.sends 1 (by omega)⟩

theorem Heard.answered {d : Dialogue} (h : Heard lib snap d rest l) :
    Answered lib (algorithmFor d.version) snap (d.groups lib snap) d.replies rest
      ((l.afterSends 2).withIncoming
        ((List.zipWith Reply.messages (d.groups lib snap) d.replies).flatten ++ rest)) :=
  ⟨h.valid.replies, rfl, fun n hn ↦ h.sends (n + 2) (by omega)⟩

/-- The line brings the origin to a flagged group and then hashes pages of it that do not exist. -/
def Excess (lib : Crates) (snap : Snapshot) (l : HandlerLine) : Prop :=
  ∃ version size count hashes msgs served g more replies rest,
    Asked snap version size count hashes msgs l ∧
    flaggedGroups lib (algorithmFor version) snap hashes = served ++ g :: more ∧
    Answered lib (algorithmFor version) snap served replies rest
      ((l.afterSends 2).withIncoming msgs) ∧ Beyond snap g rest

theorem run_heard (hn : snap.pageCount + 64 ≤ u32Bound) {d : Dialogue}
    (h : Heard lib snap d rest l) :
    (play handle (runWithTuning lib snap tuning) s l).outcome = .ok () ∧
      (play handle (runWithTuning lib snap tuning) s l).trace = d.events lib snap := by
  have hfit := flaggedGroups_fit lib (algorithmFor d.version) hn h.short
  have hdone : l.fate ((flaggedGroups lib (algorithmFor d.version) snap d.hashes).length + 2) =
      .ok () := h.sends _ (Nat.lt_succ_self _)
  rw [play_asked h.asked, play_bind_ok (play_finePass hfit h.answered), End.prepend_prepend,
    send, play_send, Line.fate_withIncoming, Line.fate_afterSends, Line.fate_withIncoming,
    Line.fate_afterSends, Nat.zero_add, hdone]
  exact ⟨rfl, rfl⟩

theorem run_excess (hn : snap.pageCount + 64 ≤ u32Bound) (h : Excess lib snap l) :
    (play handle (runWithTuning lib snap tuning) s l).outcome = .error .panic := by
  obtain ⟨version, size, count, hashes, msgs, served, g, more, replies, rest, hasked, hgroups,
    hserved, hbeyond⟩ := h
  have hfit := flaggedGroups_fit lib (algorithmFor version) hn hasked.short
  rw [hgroups] at hfit
  rw [play_asked hasked, End.outcome_prepend, hgroups, play_bind, End.andThen,
    finePass_beyond hfit hserved hbeyond]

theorem run_cases (hn : snap.pageCount + 64 ≤ u32Bound) (hshort : ShortGroupHashes l) (s : σ) :
    Errs (play handle (runWithTuning lib snap tuning) s l) ∨
      (∃ d rest, Heard lib snap d rest l) ∨ Excess lib snap l := by
  rcases asked_cases hshort s with herr | ⟨version, size, count, hashes, msgs, hasked⟩
  · exact .inl herr
  have hfit := flaggedGroups_fit lib (algorithmFor version) hn hasked.short
  rw [play_asked hasked, errs_prepend]
  rcases finePass_cases hfit s ((l.afterSends 2).withIncoming msgs) with
    herr | ⟨replies, rest, hanswered⟩ | ⟨served, g, more, replies, rest, hgroups, hserved, hbeyond⟩
  · exact .inl (errs_bind herr _)
  · rw [play_bind_ok (play_finePass hfit hanswered), errs_prepend, ← Proc.bind_ret (send .done)]
    refine errs_or_send _ _ fun hdone ↦ .inr (.inl ⟨⟨version, size, count, hashes, replies⟩, rest,
      ⟨hasked.greeted.supported, hasked.greeted.sized, hanswered.valid⟩, hasked.short, ?_, ?_⟩)
    · rw [hasked.greeted.incoming, show msgs = _ from hanswered.incoming]
      rfl
    · intro n hlt
      change n < (flaggedGroups lib (algorithmFor version) snap hashes).length + 3 at hlt
      obtain _ | _ | n := n
      · exact hasked.greeted.sends
      · exact hasked.sends
      · have hle : n ≤ (flaggedGroups lib (algorithmFor version) snap hashes).length := by omega
        rcases hle.lt_or_eq with hlt | rfl
        · exact hanswered.sends n hlt
        · simpa using hdone
  · exact .inr (.inr ⟨version, size, count, hashes, msgs, served, g, more, replies, rest, hasked,
      hgroups, hserved, hbeyond⟩)

/-- With sends that succeed, the origin reports success exactly on the lines that begin with a valid
dialogue, and then it has sent exactly the answers to it. -/
theorem accepts_iff (hn : snap.pageCount + 64 ≤ u32Bound) (hopen : l.Open)
    (hshort : ShortGroupHashes l) :
    ((play handle (runWithTuning lib snap tuning) s l).outcome = .ok () ↔
      ∃ d : Dialogue, d.Valid lib snap ∧ d.messages lib snap <+: l.incoming) ∧
    ∀ d : Dialogue, d.Valid lib snap → d.messages lib snap <+: l.incoming →
      sentMessages (play handle (runWithTuning lib snap tuning) s l).trace =
        d.answers lib snap := by
  have hheard : ∀ d : Dialogue, d.Valid lib snap → d.messages lib snap <+: l.incoming →
      ∃ rest, Heard lib snap d rest l := by
    rintro d hvalid ⟨rest, hrest⟩
    have hlen := hshort 0 d.hashes (by rw [← hrest]; rfl)
    exact ⟨rest, hvalid, hlen, hrest.symm, fun n _ ↦ hopen n⟩
  refine ⟨⟨fun hok ↦ ?_, ?_⟩, fun d hvalid hmessages ↦ ?_⟩
  · rcases run_cases hn hshort s with ⟨error, herr⟩ | ⟨d, rest, h⟩ | hexcess
    · cases hok.symm.trans herr
    · exact ⟨d, h.valid, rest, h.incoming.symm⟩
    · cases hok.symm.trans (run_excess hn hexcess)
  · rintro ⟨d, hvalid, hmessages⟩
    obtain ⟨rest, h⟩ := hheard d hvalid hmessages
    exact (run_heard hn h).1
  · obtain ⟨rest, h⟩ := hheard d hvalid hmessages
    rw [(run_heard hn h).2, d.sentMessages_events]

/-- An empty replica is sent the only page. -/
theorem accepts_iff_one_blank :
    (play Session.originHandle (runWithTuning Session.tabulated Session.oneBlank {}) ()
      (lineOf [.hello 1 0 0, .groupHashes 0 [], .pageHashes [] [], .pagesAck [1]])).outcome =
        .ok () ∧
    sentMessages (play Session.originHandle
      (runWithTuning Session.tabulated Session.oneBlank {}) () (lineOf
        [.hello 1 0 0, .groupHashes 0 [], .pageHashes [] [], .pagesAck [1]])).trace =
      [.helloAck 1 512 1, .groupsNeedFine [0], .sendPages [⟨1, Session.oneBlank.page 1⟩],
        .done] := by
  obtain ⟨haccepts, hanswers⟩ := @accepts_iff Session.tabulated Session.oneBlank {} _
    Session.originHandle ()
    (lineOf [.hello 1 0 0, .groupHashes 0 [], .pageHashes [] [], .pagesAck [1]]) (by decide)
    (fun _ ↦ rfl) fun first hashes h ↦ by cases h; decide
  have hvalid : Dialogue.Valid Session.tabulated Session.oneBlank ⟨1, 0, 0, [], [⟨[], [1]⟩]⟩ :=
    ⟨le_rfl, .inl rfl, .cons ⟨by decide, .inl rfl, .refl _⟩ .nil⟩
  exact ⟨haccepts.mpr ⟨_, hvalid, List.prefix_rfl⟩, hanswers _ hvalid List.prefix_rfl⟩

theorem short_of_fits {codec : Transport.Bincode} (hwide : codec.WritesHashes)
    (hfits : ∀ m ∈ l.incoming, codec.Fits m) : ShortGroupHashes l := by
  intro first hashes h
  obtain ⟨payload, hpayload, hsize⟩ := hfits _ (List.mem_of_getElem? h)
  have := hwide first hashes payload hpayload
  simp only [Transport.MAX_MESSAGE_SIZE] at hsize
  omega

/-- Whatever arrives in frames, the origin ends with a result exactly when no flagged group is
answered by hashes of pages it does not have. -/
theorem never_panics_iff (hn : snap.pageCount + 64 ≤ u32Bound) {codec : Transport.Bincode}
    (hwide : codec.WritesHashes) (hfits : ∀ m ∈ l.incoming, codec.Fits m) :
    (play handle (runWithTuning lib snap tuning) s l).outcome ≠ .error .panic ↔
      ¬ Excess lib snap l := by
  refine not_congr ⟨fun hpanic ↦ ?_, run_excess hn⟩
  rcases run_cases hn (short_of_fits hwide hfits) s with ⟨error, herr⟩ | ⟨d, rest, h⟩ | hexcess
  · cases hpanic.symm.trans herr
  · cases hpanic.symm.trans (run_heard hn h).1
  · exact hexcess

def twoPageOpening : List Message := [.hello 2 512 2, .groupHashes 0 []]

theorem twoPageOpening_fits : ∀ m ∈ twoPageOpening, Transport.sampleCodec.Fits m := by
  intro m hm
  rcases List.mem_pair.mp hm with rfl | rfl
  · exact ⟨[0, 2, 251, 0, 2, 2], rfl, by decide⟩
  · exact ⟨[2, 0, 0], rfl, by decide⟩

theorem never_panics_iff_one_blank :
    (play Session.originHandle (runWithTuning Session.tabulated Session.oneBlank {}) ()
      (lineOf twoPageOpening)).outcome =
        .error (.err (.protocol "connection closed unexpectedly")) ∧
    ¬ Excess Session.tabulated Session.oneBlank (lineOf twoPageOpening) := by
  have hclosed : (play Session.originHandle (runWithTuning Session.tabulated Session.oneBlank {}) ()
      (lineOf twoPageOpening)).outcome =
        .error (.err (.protocol "connection closed unexpectedly")) := rfl
  refine ⟨hclosed, ?_⟩
  apply (never_panics_iff (by decide) Transport.sampleCodec_writesHashes twoPageOpening_fits).mp
  intro hpanic
  cases hclosed.symm.trans hpanic

theorem panics_one_blank :
    (∀ m ∈ twoPageOpening ++ [.pageHashes [1, 2] (.replicate 2 (.replicate 32 0))],
      Transport.sampleCodec.Fits m) ∧
    (play Session.originHandle (runWithTuning Session.tabulated Session.oneBlank {}) ()
      (lineOf (twoPageOpening ++ [.pageHashes [1, 2] (.replicate 2 (.replicate 32 0))]))).outcome =
        .error .panic := by
  constructor
  · intro m hm
    rcases List.mem_append.mp hm with hm | hm
    · exact twoPageOpening_fits m hm
    · rw [List.mem_singleton.mp hm]
      exact ⟨[4, 2, 1, 2, 2] ++ .replicate 64 0, rfl, by decide⟩
  · refine run_excess (by decide) ⟨2, 512, 2, [], _, [], 0, [], [], _,
      ⟨⟨by decide, .inr rfl, rfl, rfl⟩, by decide, rfl⟩, rfl, .nil _, ?_⟩
    exact ⟨.replicate 2 (.replicate 32 0), [], by simp, by decide, by decide, rfl⟩

end Outcome

end RsqliteRsync.Protocol.Origin
