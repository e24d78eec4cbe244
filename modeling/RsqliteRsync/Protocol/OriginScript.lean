import RsqliteRsync.Protocol.Script
import RsqliteRsync.Protocol.OriginSpec

namespace RsqliteRsync.Protocol.Origin

open Foundation.Process Foundation.Script Db

variable {lib : Crates} {algorithm : HashAlgorithm} {snap : Snapshot} {tuning : SyncTuning}
  {σ : Type} {handle : (e : Empty) → σ → Empty.elim e × σ} {s : σ} {l : HandlerLine} {g : ℕ}
  {gs : List ℕ} {msgs : List Message}

abbrev OriginEvent := Event Message (Empty.elim : Empty → Type)

section Round

theorem compared_sublist (hashes : List PageHash) (a : ℕ) :
    (((hashes.zipIdx a).filterMap fun x ↦ if pageHash lib algorithm snap x.2 ≠ x.1 then
      some (⟨x.2, snap.page x.2⟩ : PageData) else none).map (·.pageNo)).Sublist
        (List.range' a hashes.length) := by
  induction hashes generalizing a with
  | nil => exact .slnil
  | cons hash hashes ih =>
    rw [List.zipIdx_cons, List.filterMap_cons, List.length_cons, List.range'_succ]
    split
    · exact (ih (a + 1)).cons a
    · next page hpage =>
      obtain ⟨-, hsome⟩ := Option.ite_none_right_eq_some.mp hpage
      cases hsome
      exact (ih (a + 1)).cons_cons a

theorem roundPages_nodup (hashes : List PageHash) :
    ((roundPages lib algorithm snap g hashes).map (·.pageNo)).Nodup := by
  rw [roundPages, List.map_append, List.map_map]
  refine List.Nodup.sublist ((compared_sublist hashes _).append (.refl _)) ?_
  rw [show g * 64 + hashes.length + 1 = g * 64 + 1 + 1 * hashes.length by omega]
  simpa [Function.comp_def, List.range'_append] using List.nodup_range'

/-- What a replica answers to a flagged group: the hashes of the first pages of the group, and the
acknowledgement of the pages it is then sent. -/
structure Reply where
  hashes : List PageHash
  ack : List ℕ

namespace Reply

/-- The hashed pages exist on the origin, and every page sent is acknowledged once. -/
structure Valid (lib : Crates) (algorithm : HashAlgorithm) (snap : Snapshot) (g : ℕ)
    (reply : Reply) : Prop where
  short : reply.hashes.length ≤ 64
  inside : reply.hashes = [] ∨ g * 64 + reply.hashes.length ≤ snap.pageCount
  acked : reply.ack.Perm ((roundPages lib algorithm snap g reply.hashes).map (·.pageNo))

def messages (g : ℕ) (reply : Reply) : List Message :=
  [.pageHashes (List.range' (g * 64 + 1) reply.hashes.length) reply.hashes, .pagesAck reply.ack]

def events (lib : Crates) (algorithm : HashAlgorithm) (snap : Snapshot) (g : ℕ) (reply : Reply) :
    List OriginEvent :=
  [.received (.pageHashes (List.range' (g * 64 + 1) reply.hashes.length) reply.hashes),
    .sent (.sendPages (roundPages lib algorithm snap g reply.hashes)),
    .received (.pagesAck reply.ack)]

end Reply

/-- The next message hashes pages of the group beyond the end of the snapshot. -/
def Beyond (snap : Snapshot) (g : ℕ) (msgs : List Message) : Prop :=
  ∃ hashes rest, hashes ≠ [] ∧ hashes.length ≤ 64 ∧ snap.pageCount < g * 64 + hashes.length ∧
    msgs = .pageHashes (List.range' (g * 64 + 1) hashes.length) hashes :: rest

theorem fineRound_pageHashes (hg : (g + 1) * 64 < u32Bound) {pageNos : List ℕ}
    {hashes : List PageHash} (hm : l.incoming = .pageHashes pageNos hashes :: msgs) :
    play handle (fineRound lib snap tuning algorithm g) s l =
      (play handle (orViolation (validatePageHashesForGroup pageNos hashes g) >>= fun _ ↦
        lift (changedPages lib snap tuning algorithm (g * 64 + 1)
          (min ((g + 1) * 64) snap.pageCount) pageNos hashes) >>= sendChanged) s
            (l.withIncoming msgs)).prepend [.received (.pageHashes pageNos hashes)] := by
  rw [fineRound, play_recv_msg _ hm]
  simp only [expectPageHashes, Proc.pure_eq, Proc.ret_bind, firstPageOf_eq hg, lastPageOf_eq _ hg,
    lift_pure]

theorem play_fineRound (hg : (g + 1) * 64 < u32Bound) {reply : Reply}
    (h : reply.Valid lib algorithm snap g) (hm : l.incoming = reply.messages g ++ msgs)
    (hsend : l.fate 0 = .ok ()) :
    play handle (fineRound lib snap tuning algorithm g) s l =
      ⟨.ok (), s, l.afterSend.withIncoming msgs, reply.events lib algorithm snap g⟩ := by
  have hm' : l.incoming = .pageHashes (List.range' (g * 64 + 1) reply.hashes.length)
      reply.hashes :: .pagesAck reply.ack :: msgs := hm
  have hsend' : (l.withIncoming (.pagesAck reply.ack :: msgs)).fate 0 = .ok () := hsend
  have hack : expectPagesAck ((roundPages lib algorithm snap g reply.hashes).map (·.pageNo))
      (.pagesAck reply.ack) = (.ret () : OriginHandler Unit) := by
    rw [expectPagesAck, validatePagesAck_perm (roundPages_nodup _) h.acked]
    rfl
  rw [fineRound_pageHashes hg hm', validatePageHashesForGroup_range hg h.short,
    changedPages_range tuning hg h.short h.inside]
  change End.prepend _ (play handle (sendChanged _) _ _) = _
  rw [sendChanged, play_send_ok _ _ hsend', play_recv_msg _ rfl, hack]
  rfl

theorem fineRound_beyond (hg : (g + 1) * 64 < u32Bound) (h : Beyond snap g l.incoming) :
    (play handle (fineRound lib snap tuning algorithm g) s l).outcome = .error .panic := by
  obtain ⟨hashes, rest, hne, hk, hlt, hm⟩ := h
  rw [fineRound_pageHashes hg hm, validatePageHashesForGroup_range hg hk,
    changedPages_beyond tuning _ _ hne hlt]
  rfl

theorem receives_pageHashes (s : σ) (l : HandlerLine) :
    Errs (play handle (fineRound lib snap tuning algorithm g) s l) ∨
      ∃ pageNos hashes msgs, l.incoming = .pageHashes pageNos hashes :: msgs := by
  refine errs_or_recv _ fun m msgs hm ↦ ?_
  cases m
  case pageHashes pageNos hashes => exact .inr ⟨pageNos, hashes, msgs, hm⟩
  all_goals exact .inl ⟨_, rfl⟩

theorem sendChanged_cases {pages : List PageData} (h : (pages.map (·.pageNo)).Nodup) (s : σ)
    (l : HandlerLine) :
    Errs (play handle (sendChanged pages) s l) ∨ l.fate 0 = .ok () ∧
      ∃ ack msgs, l.incoming = .pagesAck ack :: msgs ∧ ack.Perm (pages.map (·.pageNo)) := by
  refine errs_or_send _ _ fun hsend ↦ errs_or_recv _ fun m msgs hm ↦ ?_
  cases m
  case pagesAck ack =>
    rcases validatePagesAck_cases h ack with ⟨message, hinvalid⟩ | hperm
    · rw [expectPagesAck, hinvalid]
      exact .inl (play_violation_errs _)
    · exact .inr ⟨hsend, ack, msgs, hm, hperm⟩
  all_goals exact .inl ⟨_, rfl⟩

variable (lib algorithm snap tuning handle) in
/-- What can happen to a flagged group: an error, an answered round, or hashes of pages that do
not exist. -/
theorem fineRound_cases (hg : (g + 1) * 64 < u32Bound) (s : σ) (l : HandlerLine) :
    Errs (play handle (fineRound lib snap tuning algorithm g) s l) ∨
      (∃ (reply : Reply) (msgs : List Message), reply.Valid lib algorithm snap g ∧
        l.incoming = reply.messages g ++ msgs ∧ l.fate 0 = .ok ()) ∨
      Beyond snap g l.incoming := by
  rcases receives_pageHashes s l with herr | ⟨pageNos, hashes, msgs, hm⟩
  · exact .inl herr
  rw [fineRound_pageHashes hg hm, errs_prepend]
  rcases validatePageHashesForGroup_cases hg pageNos hashes with ⟨message, hinvalid⟩ | ⟨hk, rfl⟩
  · rw [hinvalid]
    exact .inl (errs_bind (play_violation_errs message) _)
  rw [validatePageHashesForGroup_range hg hk]
  by_cases hinside : hashes = [] ∨ g * 64 + hashes.length ≤ snap.pageCount
  · rw [changedPages_range tuning hg hk hinside]
    rcases sendChanged_cases (roundPages_nodup hashes) s (l.withIncoming msgs) with
      herr | ⟨hsend, ack, rest, hack, hperm⟩
    · exact .inl herr
    · refine .inr (.inl ⟨⟨hashes, ack⟩, rest, ⟨hk, hinside, hperm⟩, ?_, hsend⟩)
      rw [hm, show msgs = .pagesAck ack :: rest from hack]
      rfl
  · rw [not_or, not_le] at hinside
    exact .inr (.inr ⟨hashes, msgs, hinside.1, hk, hinside.2, hm⟩)

end Round

section FinePass

variable {replies : List Reply} {more : List ℕ}

/-- The line answers these groups and then goes on with the given messages. -/
structure Answered (lib : Crates) (algorithm : HashAlgorithm) (snap : Snapshot) (gs : List ℕ)
    (replies : List Reply) (msgs : List Message) (l : HandlerLine) : Prop where
  valid : List.Forall₂ (Reply.Valid lib algorithm snap) gs replies
  incoming : l.incoming = (List.zipWith Reply.messages gs replies).flatten ++ msgs
  sends : ∀ n < gs.length, l.fate n = .ok ()

theorem Answered.nil (l : HandlerLine) : Answered lib algorithm snap [] [] l.incoming l :=
  ⟨.nil, rfl, by simp⟩

theorem answered_cons {reply : Reply} :
    Answered lib algorithm snap (g :: gs) (reply :: replies) msgs l ↔
      ∃ more, reply.Valid lib algorithm snap g ∧ l.incoming = reply.messages g ++ more ∧
        l.fate 0 = .ok () ∧
        Answered lib algorithm snap gs replies msgs (l.afterSend.withIncoming more) := by
  constructor
  · rintro ⟨hvalid, hm, hsends⟩
    obtain ⟨hreply, hreplies⟩ := List.forall₂_cons.mp hvalid
    refine ⟨(List.zipWith Reply.messages gs replies).flatten ++ msgs, hreply, ?_,
      hsends 0 (by simp), hreplies, rfl, fun n hn ↦ hsends (n + 1) (by simpa using hn)⟩
    simpa using hm
  · rintro ⟨more, hreply, hm, hsend, hreplies, hmore, hsends⟩
    refine ⟨.cons hreply hreplies, ?_, fun n hn ↦ ?_⟩
    · rw [Line.incoming_withIncoming] at hmore
      simp [hm, hmore]
    · cases n with
      | zero => exact hsend
      | succ n => exact hsends n (by simpa using hn)

theorem finePass_answered (hfit : ∀ g ∈ gs, (g + 1) * 64 < u32Bound)
    (h : Answered lib algorithm snap gs replies msgs l) (more : List ℕ) :
    play handle (finePass lib snap tuning algorithm (gs ++ more)) s l =
      (play handle (finePass lib snap tuning algorithm more) s
        ((l.afterSends gs.length).withIncoming msgs)).prepend
          (List.zipWith (Reply.events lib algorithm snap) gs replies).flatten := by
  induction gs generalizing replies l with
  | nil =>
    obtain ⟨hvalid, hm, -⟩ := h
    cases hvalid
    rw [List.zipWith_nil_left, List.flatten_nil, List.nil_append] at hm
    rw [← hm]
    rfl
  | cons g gs ih =>
    obtain _ | reply := replies
    · cases h.valid
    obtain ⟨rest, hreply, hm, hsend, htail⟩ := answered_cons.mp h
    have hround := @play_fineRound lib algorithm snap tuning σ handle s l g rest
      (hfit g (by simp)) reply hreply hm hsend
    rw [List.cons_append, finePass, play_bind_ok hround,
      ih (fun g' hg' ↦ hfit g' (by simp [hg'])) htail]
    simp only [End.prepend_prepend]
    rfl

theorem play_finePass (hfit : ∀ g ∈ gs, (g + 1) * 64 < u32Bound)
    (h : Answered lib algorithm snap gs replies msgs l) :
    play handle (finePass lib snap tuning algorithm gs) s l =
      ⟨.ok (), s, (l.afterSends gs.length).withIncoming msgs,
        (List.zipWith (Reply.events lib algorithm snap) gs replies).flatten⟩ := by
  have hplay := @finePass_answered lib algorithm snap tuning σ handle s l gs msgs replies hfit h []
  rw [List.append_nil] at hplay
  rw [hplay, finePass, Proc.pure_eq, play_ret, End.prepend, List.append_nil]

theorem finePass_beyond (hfit : ∀ g' ∈ gs ++ g :: more, (g' + 1) * 64 < u32Bound)
    (h : Answered lib algorithm snap gs replies msgs l) (hbeyond : Beyond snap g msgs) :
    (play handle (finePass lib snap tuning algorithm (gs ++ g :: more)) s l).outcome =
      .error .panic := by
  have hg : (g + 1) * 64 < u32Bound := hfit g (by simp)
  rw [finePass_answered (fun g' hg' ↦ hfit g' (List.mem_append_left _ hg')) h,
    End.outcome_prepend, finePass, play_bind]
  rw [End.andThen, fineRound_beyond hg hbeyond]

theorem finePass_cases (hfit : ∀ g ∈ gs, (g + 1) * 64 < u32Bound) (s : σ) (l : HandlerLine) :
    Errs (play handle (finePass lib snap tuning algorithm gs) s l) ∨
      (∃ replies msgs, Answered lib algorithm snap gs replies msgs l) ∨
      ∃ served g more replies msgs, gs = served ++ g :: more ∧
        Answered lib algorithm snap served replies msgs l ∧ Beyond snap g msgs := by
  induction gs generalizing l with
  | nil => exact .inr (.inl ⟨[], l.incoming, .nil l⟩)
  | cons g gs ih =>
    rw [finePass]
    have hg := hfit g (by simp)
    rcases fineRound_cases lib algorithm snap tuning handle hg s l with
      herr | ⟨reply, rest, hreply, hm, hsend⟩ | hbeyond
    · exact .inl (errs_bind herr _)
    · rw [play_bind_ok (play_fineRound hg hreply hm hsend), errs_prepend]
      rcases ih (fun g' hg' ↦ hfit g' (by simp [hg'])) (l.afterSend.withIncoming rest) with
        herr | ⟨replies, msgs, hanswered⟩ | ⟨served, last, more, replies, msgs, rfl, hserved, hlast⟩
      · exact .inl herr
      · exact .inr (.inl ⟨reply :: replies, msgs,
          answered_cons.mpr ⟨rest, hreply, hm, hsend, hanswered⟩⟩)
      · exact .inr (.inr ⟨g :: served, last, more, reply :: replies, msgs, rfl,
          answered_cons.mpr ⟨rest, hreply, hm, hsend, hserved⟩, hlast⟩)
    · exact .inr (.inr ⟨[], g, gs, [], l.incoming, rfl, .nil l, hbeyond⟩)

end FinePass

section Opening

variable {version size count : ℕ} {hashes : List PageHash}

def algorithmFor (version : ℕ) : HashAlgorithm := if version = 1 then .sha256V1 else .blake3V2

theorem fromProtocolVersion_min (h : 1 ≤ version) :
    HashAlgorithm.fromProtocolVersion (min version PROTOCOL_VERSION) =
      some (algorithmFor version) := by
  rcases h.eq_or_lt with rfl | h
  · rfl
  · rw [PROTOCOL_VERSION, min_eq_right h, algorithmFor, if_neg h.ne']
    rfl

structure Greeted (snap : Snapshot) (version size count : ℕ) (msgs : List Message)
    (l : HandlerLine) : Prop where
  supported : 1 ≤ version
  sized : size = 0 ∨ size = snap.pageSize
  incoming : l.incoming = .hello version size count :: msgs
  sends : l.fate 0 = .ok ()

theorem play_handshake (h : Greeted snap version size count msgs l) :
    play handle (handshake snap) s l =
      ⟨.ok (algorithmFor version), s, l.afterSend.withIncoming msgs,
        [.received (.hello version size count),
          .sent (.helloAck (min version PROTOCOL_VERSION) snap.pageSize snap.pageCount)]⟩ := by
  have hversion : version ≠ 0 := Nat.one_le_iff_ne_zero.mp h.supported
  have hsize : ¬ (snap.pageSize ≠ size ∧ size ≠ 0) := by
    rcases h.sized with rfl | rfl <;> simp
  have hsend : (l.withIncoming msgs).fate 0 = .ok () := h.sends
  rw [handshake, play_recv_msg _ h.incoming]
  simp only [expectHello, Proc.pure_eq, Proc.ret_bind, if_neg hversion,
    fromProtocolVersion_min h.supported, if_neg hsize]
  rw [play_send_ok _ _ hsend]
  rfl

theorem handshake_cases (s : σ) (l : HandlerLine) :
    Errs (play handle (handshake snap) s l) ∨
      ∃ version size count msgs, Greeted snap version size count msgs l := by
  refine errs_or_recv _ fun m msgs hm ↦ ?_
  cases m
  case hello version size count =>
    simp only [expectHello, Proc.pure_eq, Proc.ret_bind]
    by_cases hversion : version = 0
    · rw [if_pos hversion]
      exact .inl (play_violation_errs _)
    have hpos : 1 ≤ version := Nat.one_le_iff_ne_zero.mpr hversion
    rw [if_neg hversion, fromProtocolVersion_min hpos]
    by_cases hsize : snap.pageSize ≠ size ∧ size ≠ 0
    · simp only [if_pos hsize]
      exact errs_or_send _ _ fun _ ↦ .inl (play_throwErr_errs _)
    · simp only [if_neg hsize]
      refine errs_or_send _ _ fun hsend ↦ .inr ⟨version, size, count, msgs, hpos, ?_, hm, hsend⟩
      rw [not_and_not_right] at hsize
      by_cases hzero : size = 0
      · exact .inl hzero
      · exact .inr (by_contra fun hne ↦ hzero (hsize (Ne.symm hne)))
  all_goals exact .inl ⟨_, rfl⟩

/-- The groups whose hashes differ, those the origin does not have, and those only it has. -/
def flaggedGroups (lib : Crates) (algorithm : HashAlgorithm) (snap : Snapshot)
    (hashes : List PageHash) : List ℕ :=
  hashes.zipIdx.filterMap (fun x ↦ flagged lib snap algorithm x.2 x.1) ++
    List.range' hashes.length (groupCount snap.pageCount - hashes.length)

variable (lib algorithm) in
theorem flaggedGroups_fit (hn : snap.pageCount + 64 ≤ u32Bound) (hlen : hashes.length < 2 ^ 26) :
    ∀ g ∈ flaggedGroups lib algorithm snap hashes, (g + 1) * 64 < u32Bound := by
  intro g hg
  unfold u32Bound at *
  rcases List.mem_append.mp hg with hg | hg
  · obtain ⟨⟨hash, i⟩, hmem, hflagged⟩ := List.mem_filterMap.mp hg
    have hi : i < hashes.length := List.snd_lt_of_mem_zipIdx hmem
    rw [flagged] at hflagged
    obtain ⟨-, hsome⟩ := Option.ite_none_right_eq_some.mp hflagged
    cases hsome
    omega
  · rw [List.mem_range'_1] at hg
    have := lt_groupCount_iff.mp (show g < groupCount snap.pageCount by omega)
    omega

theorem needFine_flagged (tuning : SyncTuning) (hlen : hashes.length < 2 ^ 26) :
    needFine lib snap tuning algorithm 0 hashes =
      pure (flaggedGroups lib algorithm snap hashes) := by
  refine needFine_eq tuning ?_
  unfold u32Bound
  omega

theorem play_coarsePass (hlen : hashes.length < 2 ^ 26)
    (hm : l.incoming = .groupHashes 0 hashes :: msgs) (hsend : l.fate 0 = .ok ()) :
    play handle (coarsePass lib snap tuning algorithm) s l =
      ⟨.ok (flaggedGroups lib algorithm snap hashes), s, l.afterSend.withIncoming msgs,
        [.received (.groupHashes 0 hashes),
          .sent (.groupsNeedFine (flaggedGroups lib algorithm snap hashes))]⟩ := by
  have hsend' : (l.withIncoming msgs).fate 0 = .ok () := hsend
  rw [coarsePass, play_recv_msg _ hm]
  simp only [expectGroupHashes, Proc.pure_eq, Proc.ret_bind, ne_eq, not_true_eq_false, if_false,
    needFine_flagged tuning hlen, lift_pure]
  rw [play_send_ok _ _ hsend']
  rfl

theorem coarsePass_cases
    (hshort : ∀ first hashes, l.incoming.head? = some (.groupHashes first hashes) →
      hashes.length < 2 ^ 26) (s : σ) :
    Errs (play handle (coarsePass lib snap tuning algorithm) s l) ∨
      ∃ hashes msgs, hashes.length < 2 ^ 26 ∧ l.incoming = .groupHashes 0 hashes :: msgs ∧
        l.fate 0 = .ok () := by
  refine errs_or_recv _ fun m msgs hm ↦ ?_
  cases m
  case groupHashes first hashes =>
    have hlen := hshort first hashes (by rw [hm]; rfl)
    simp only [expectGroupHashes, Proc.pure_eq, Proc.ret_bind]
    by_cases hfirst : first = 0
    · subst hfirst
      simp only [ne_eq, not_true_eq_false, if_false, lift_pure, needFine_flagged tuning hlen,
        Proc.ret_bind]
      exact errs_or_send _ _ fun hsend ↦ .inr ⟨hashes, msgs, hlen, hm, hsend⟩
    · rw [if_pos hfirst]
      exact .inl (play_violation_errs _)
  all_goals exact .inl ⟨_, rfl⟩

end Opening

end RsqliteRsync.Protocol.Origin
