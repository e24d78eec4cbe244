import RsqliteRsync.Protocol.Script
import RsqliteRsync.Protocol.ReplicaSpec

namespace RsqliteRsync.Protocol.Replica

open Foundation.Process Foundation.Script Db

variable {lib : Crates} {algorithm : HashAlgorithm} {σ : Type}
  {handle : (e : ConnOp) → σ → e.Reply × σ} {conn : Connection} {r : Image} {s s' : σ}
  {l l' : HandlerLine} {g : ℕ} {gs : List ℕ} {pages : List PageData}
  {batches : List (List PageData)}

section Pages

/-- Every page is well formed and the file takes it. -/
inductive Wrote (handle : (e : ConnOp) → σ → e.Reply × σ) (conn : Connection) :
    List PageData → σ → σ → Prop
  | nil (s : σ) : Wrote handle conn [] s s
  | cons {page : PageData} {pages : List PageData} {s s' s'' : σ} : 0 < page.pageNo →
      page.data.length = conn.pageSize → conn.writable = true →
      handle (.writeAt ((page.pageNo - 1) * conn.pageSize) page.data) s = (.ok (), s') →
      Wrote handle conn pages s' s'' → Wrote handle conn (page :: pages) s s''

def writeEvent (conn : Connection) (page : PageData) : Event Message ConnOp.Reply :=
  .called (.writeAt ((page.pageNo - 1) * conn.pageSize) page.data) (.ok () : Except SyncError Unit)

theorem applyPages_wrote (h : Wrote handle conn pages s s') :
    play handle (applyPages conn pages) s l = ⟨.ok (), s', l, pages.map (writeEvent conn)⟩ := by
  induction h with
  | nil s => rfl
  | @cons page pages s s₁ s₂ hno hlen hw hcall _ ih =>
    rw [applyPages, conn.writePage_eq hno hlen hw]
    exact (play_call s hcall _).trans (congrArg (End.prepend [writeEvent conn page]) ih)

variable (handle conn) in
theorem applyPages_cases (pages : List PageData) (s : σ) (l : HandlerLine) :
    Errs (play handle (applyPages conn pages) s l) ∨ ∃ s', Wrote handle conn pages s s' := by
  induction pages generalizing s with
  | nil => exact .inr ⟨s, .nil s⟩
  | cons page pages ih =>
    rw [applyPages, Connection.writePage]
    split_ifs with hno hlen hw
    · exact .inl ⟨_, rfl⟩
    · exact .inl ⟨_, rfl⟩
    · rcases hcall : handle (.writeAt ((page.pageNo - 1) * conn.pageSize) page.data) s with
        ⟨e | u, s₁⟩
      · exact .inl ⟨e, congrArg End.outcome (play_call s hcall _)⟩
      · rcases ih s₁ with ⟨error, herror⟩ | ⟨s₂, hwrote⟩
        · exact .inl ⟨error, (congrArg End.outcome (play_call s hcall _)).trans herror⟩
        · exact .inr ⟨s₂, .cons (Nat.pos_of_ne_zero hno) (not_not.mp hlen) hw hcall hwrote⟩
    · exact .inl ⟨_, rfl⟩

end Pages

section FinePass

/-- The origin has answered the page hashes of these groups with these pages, and all of them were
written. -/
inductive Served (handle : (e : ConnOp) → σ → e.Reply × σ) (conn : Connection) :
    List ℕ → List (List PageData) → σ → HandlerLine → σ → HandlerLine → Prop
  | nil (s : σ) (l : HandlerLine) : Served handle conn [] [] s l s l
  | cons {g : ℕ} {gs : List ℕ} {pages : List PageData} {batches : List (List PageData)}
      {s s₁ s₂ : σ} {l l' : HandlerLine} {msgs : List Message} : (g + 1) * 64 < u32Bound →
      l.fate 0 = .ok () → l.incoming = .sendPages pages :: msgs → Wrote handle conn pages s s₁ →
      l.fate 1 = .ok () →
      Served handle conn gs batches s₁ (l.afterSend.withIncoming msgs).afterSend s₂ l' →
      Served handle conn (g :: gs) (pages :: batches) s l s₂ l'

variable (lib algorithm conn r)

def roundEvents (g : ℕ) (pages : List PageData) : List (Event Message ConnOp.Reply) :=
  .sent (.pageHashes (groupPageNos g r.pageCount) (groupInput lib algorithm r g)) ::
    .received (.sendPages pages) :: pages.map (writeEvent conn) ++
    [.sent (.pagesAck (pages.map (·.pageNo)))]

def servedEvents : List ℕ → List (List PageData) → List (Event Message ConnOp.Reply)
  | g :: gs, pages :: batches =>
    roundEvents lib algorithm conn r g pages ++ servedEvents gs batches
  | _, _ => []

variable {lib algorithm conn r}

theorem play_round (hg : (g + 1) * 64 < u32Bound) (hsend : l.fate 0 = .ok ())
    {m : Message} {msgs : List Message} (hm : l.incoming = m :: msgs) :
    play handle (finePass conn (pageHashList lib algorithm r) r.pageCount (g :: gs)) s l =
      (play handle (onAnswer conn gs.length
        (finePass conn (pageHashList lib algorithm r) r.pageCount gs) m) s
        (l.afterSend.withIncoming msgs)).prepend
          [.sent (.pageHashes (groupPageNos g r.pageCount) (groupInput lib algorithm r g)),
            .received m] := by
  rw [finePass, groupPages_eq hg, lift_pure, Proc.ret_bind, play_send_ok _ _ hsend,
    play_recv_msg _ (l := l.afterSend) hm, End.prepend_prepend]
  rfl

theorem play_sendPages (next : ReplicaHandler Unit) (pending : ℕ)
    (hwrote : Wrote handle conn pages s s') (hsend : l.fate 0 = .ok ()) :
    play handle (onAnswer conn pending next (.sendPages pages)) s l =
      (play handle next s' l.afterSend).prepend
        (pages.map (writeEvent conn) ++ [.sent (.pagesAck (pages.map (·.pageNo)))]) := by
  rw [onAnswer, play_bind_ok (applyPages_wrote hwrote), play_send_ok _ _ hsend,
    End.prepend_prepend]

/-- By induction on the served groups. -/
theorem finePass_served (h : Served handle conn gs batches s l s' l') (more : List ℕ) :
    play handle (finePass conn (pageHashList lib algorithm r) r.pageCount (gs ++ more)) s l =
      (play handle (finePass conn (pageHashList lib algorithm r) r.pageCount more) s' l').prepend
        (servedEvents lib algorithm conn r gs batches) := by
  induction h with
  | nil s l => rfl
  | cons hg hsend hm hwrote hack _ ih =>
    rw [List.cons_append, play_round hg hsend hm, play_sendPages _ _ hwrote hack, ih,
      End.prepend_prepend, End.prepend_prepend]
    rfl

/-- The origin ends the session where the pages of the last group are due. -/
def EarlyDone (handle : (e : ConnOp) → σ → e.Reply × σ) (conn : Connection) (gs : List ℕ) (s : σ)
    (l : HandlerLine) : Prop :=
  ∃ served g batches s' l' msgs, gs = served ++ [g] ∧
    Served handle conn served batches s l s' l' ∧ (g + 1) * 64 < u32Bound ∧
    l'.fate 0 = .ok () ∧ l'.incoming = .done :: msgs

/-- After the groups before it were served, the turn comes to a group whose end is no `u32`. -/
def Overflow (handle : (e : ConnOp) → σ → e.Reply × σ) (conn : Connection) (gs : List ℕ) (s : σ)
    (l : HandlerLine) : Prop :=
  ∃ served g rest batches s' l', gs = served ++ g :: rest ∧
    Served handle conn served batches s l s' l' ∧ u32Bound ≤ (g + 1) * 64

/-- The origin has served every group and then sends `Done`. -/
def AllServed (handle : (e : ConnOp) → σ → e.Reply × σ) (conn : Connection) (gs : List ℕ) (s : σ)
    (l : HandlerLine) : Prop :=
  ∃ batches s' l' msgs, Served handle conn gs batches s l s' l' ∧ l'.incoming = .done :: msgs

theorem expectDone_cases (violation : String) (m : Message) (s : σ) (l : HandlerLine) :
    Errs (play handle (expectDone violation m) s l) ∨ m = .done := by
  cases m
  case done => exact .inr rfl
  all_goals exact .inl ⟨_, rfl⟩

variable (handle conn) in
theorem onAnswer_cases (next : ReplicaHandler Unit) (pending : ℕ) (m : Message) (s : σ)
    (l : HandlerLine) :
    Errs (play handle (onAnswer conn pending next m) s l) ∨ (∃ pages, m = .sendPages pages) ∨
      (m = .done ∧ pending = 0) := by
  cases m
  case sendPages pages => exact .inr (.inl ⟨pages, rfl⟩)
  case done =>
    rcases Nat.eq_zero_or_pos pending with hzero | hpos
    · exact .inr (.inr ⟨rfl, hzero⟩)
    · rw [onAnswer, if_pos hpos]
      exact .inl (play_violation_errs _)
  all_goals exact .inl ⟨_, rfl⟩

variable (lib algorithm handle conn r gs) in
/-- What can happen to a group that fits: an error, a `Done` in the place of the last pages, or
pages that are written and acknowledged. -/
theorem round_cases (hg : (g + 1) * 64 < u32Bound) (s : σ) (l : HandlerLine) :
    Errs (play handle (finePass conn (pageHashList lib algorithm r) r.pageCount (g :: gs)) s l) ∨
      (gs = [] ∧ l.fate 0 = .ok () ∧ ∃ msgs, l.incoming = .done :: msgs) ∨
      ∃ pages msgs s', l.fate 0 = .ok () ∧ l.incoming = .sendPages pages :: msgs ∧
        Wrote handle conn pages s s' ∧ l.fate 1 = .ok () := by
  have hround : finePass conn (pageHashList lib algorithm r) r.pageCount (g :: gs) =
      send (.pageHashes (groupPageNos g r.pageCount) (groupInput lib algorithm r g)) >>= fun _ ↦
        recv >>= onAnswer conn gs.length
          (finePass conn (pageHashList lib algorithm r) r.pageCount gs) := by
    rw [finePass, groupPages_eq hg]
    rfl
  rw [hround]
  refine errs_or_send _ _ fun hsend ↦ errs_or_recv _ fun m msgs hm ↦ ?_
  rcases onAnswer_cases handle conn
    (finePass conn (pageHashList lib algorithm r) r.pageCount gs) gs.length m s
    (l.afterSend.withIncoming msgs) with herr | ⟨pages, rfl⟩ | ⟨rfl, hpending⟩
  · exact .inl herr
  · rw [onAnswer]
    rcases applyPages_cases handle conn pages s
      (l.afterSend.withIncoming msgs) with herr | ⟨s', hwrote⟩
    · exact .inl (errs_bind herr _)
    · rw [play_bind_ok (applyPages_wrote hwrote), errs_prepend]
      exact errs_or_send _ _ fun hack ↦ .inr (.inr ⟨pages, msgs, s', hsend, hm, hwrote, hack⟩)
  · exact .inr (.inl ⟨List.length_eq_zero_iff.mp hpending, hsend, msgs, hm⟩)

/-- By induction on the groups. -/
theorem finePass_cases (gs : List ℕ) (s : σ) (l : HandlerLine) :
    Errs (play handle (finePass conn (pageHashList lib algorithm r) r.pageCount gs) s l) ∨
      AllServed handle conn gs s l ∨ EarlyDone handle conn gs s l ∨
      Overflow handle conn gs s l := by
  induction gs generalizing s l with
  | nil =>
    refine errs_or_recv _ fun m msgs hm ↦ ?_
    refine (expectDone_cases _ m s _).imp_right ?_
    rintro rfl
    exact .inl ⟨[], s, l, msgs, .nil s l, hm⟩
  | cons g gs ih =>
    by_cases hg : (g + 1) * 64 < u32Bound
    · rcases round_cases lib algorithm handle conn r gs hg s l with
        herr | ⟨rfl, hsend, msgs, hm⟩ | ⟨pages, msgs, s₁, hsend, hm, hwrote, hack⟩
      · exact .inl herr
      · exact .inr (.inr (.inl ⟨[], g, [], s, l, msgs, rfl, .nil s l, hg, hsend, hm⟩))
      · rw [play_round hg hsend hm, play_sendPages _ _ hwrote hack, errs_prepend, errs_prepend]
        rcases ih s₁ (l.afterSend.withIncoming msgs).afterSend with herr |
          ⟨batches, s₂, l₂, msgs₂, hserved, hdone⟩ |
          ⟨served, last, batches, s₂, l₂, msgs₂, rfl, hserved, hlast⟩ |
          ⟨served, last, rest, batches, s₂, l₂, rfl, hserved, hlast⟩
        · exact .inl herr
        · exact .inr (.inl ⟨pages :: batches, s₂, l₂, msgs₂,
            .cons hg hsend hm hwrote hack hserved, hdone⟩)
        · exact .inr (.inr (.inl ⟨g :: served, last, pages :: batches, s₂, l₂, msgs₂, rfl,
            .cons hg hsend hm hwrote hack hserved, hlast⟩))
        · exact .inr (.inr (.inr ⟨g :: served, last, rest, pages :: batches, s₂, l₂, rfl,
            .cons hg hsend hm hwrote hack hserved, hlast⟩))
    · exact .inr (.inr (.inr ⟨[], g, gs, [], s, l, rfl, .nil s l, not_lt.mp hg⟩))

theorem finePass_all_served {msgs : List Message}
    (h : Served handle conn gs batches s l s' l') (hdone : l'.incoming = .done :: msgs) :
    play handle (finePass conn (pageHashList lib algorithm r) r.pageCount gs) s l =
      ⟨.ok (), s', l'.withIncoming msgs,
        servedEvents lib algorithm conn r gs batches ++ [.received .done]⟩ := by
  rw [← List.append_nil gs, finePass_served h, finePass, play_recv_msg _ hdone, List.append_nil]
  rfl

theorem finePass_early_done {msgs : List Message}
    (h : Served handle conn gs batches s l s' l') (hg : (g + 1) * 64 < u32Bound)
    (hsend : l'.fate 0 = .ok ()) (hdone : l'.incoming = .done :: msgs) :
    play handle (finePass conn (pageHashList lib algorithm r) r.pageCount (gs ++ [g])) s l =
      ⟨.ok (), s', l'.afterSend.withIncoming msgs, servedEvents lib algorithm conn r gs batches ++
        [.sent (.pageHashes (groupPageNos g r.pageCount) (groupInput lib algorithm r g)),
          .received .done]⟩ := by
  rw [finePass_served h, play_round hg hsend hdone]
  rfl

theorem finePass_overflow (h : Overflow handle conn gs s l) :
    (play handle (finePass conn (pageHashList lib algorithm r) r.pageCount gs) s l).outcome =
      .error .panic := by
  obtain ⟨served, g, rest, batches, s', l', rfl, hserved, hg⟩ := h
  rw [finePass_served hserved, finePass, groupPages_panics hg]
  rfl

end FinePass

section Opening

/-- The connection shows the database `r`, or fails to read it. -/
structure Presents (handle : (e : ConnOp) → σ → e.Reply × σ) (conn : Connection) (r : Image)
    (s : σ) : Prop where
  pageSize : conn.pageSize = r.pageSize
  pageCount : handle .pageCount s = (.ok r.pageCount, s) ∨ ∃ e, handle .pageCount s = (.error e, s)
  serialize : handle .serialize s = (.ok r.bytes, s) ∨ ∃ e, handle .serialize s = (.error e, s)

/-- The handshake succeeds, and so does reading the database. -/
structure Greeted (handle : (e : ConnOp) → σ → e.Reply × σ) (r : Image)
    (algorithm : HashAlgorithm) (version size count : ℕ) (msgs : List Message) (s : σ)
    (l : HandlerLine) : Prop where
  counted : handle .pageCount s = (.ok r.pageCount, s)
  read : 0 < r.pageCount → handle .serialize s = (.ok r.bytes, s)
  sent : l.fate 0 = .ok ()
  supported : HashAlgorithm.fromProtocolVersion version = some algorithm
  incoming : l.incoming = .helloAck version size count :: msgs

def greetingEvents (conn : Connection) (r : Image) (version size count : ℕ) :
    List (Event Message ConnOp.Reply) :=
  [.called .pageCount (.ok r.pageCount : Except SyncError ℕ),
    .sent (.hello PROTOCOL_VERSION conn.pageSize r.pageCount),
    .received (.helloAck version size count)] ++
  if r.pageCount = 0 then [] else [.called .serialize (.ok r.bytes : Except SyncError (List UInt8))]

section Phases

variable (lib conn) (tuning : SyncTuning)

def coarse (count : ℕ) (algorithm : HashAlgorithm) (pageHashes : List PageHash) :
    ReplicaHandler (List PageHash × ℕ × List ℕ) := do
  let hashes ← lift (groupHashes lib tuning algorithm pageHashes count)
  send (.groupHashes 0 hashes)
  let msg ← recv
  let groups ← expectGroupsNeedFine msg
  pure (pageHashes, count, groups)

def opening : ReplicaHandler (List PageHash × ℕ × List ℕ) := do
  let count ← Connection.pageCount
  let algorithm ← handshake conn count
  let bytes ← currentBytes count
  let pageHashes ← lift (allPageHashes lib tuning algorithm bytes conn.pageSize count)
  coarse lib tuning count algorithm pageHashes

def closing (pageHashes : List PageHash) (count : ℕ) (groups : List ℕ) : ReplicaHandler Unit :=
  if groups = [] then recv >>= expectDone "expected Done after empty GroupsNeedFine"
  else finePass conn pageHashes count groups

theorem runWithTuning_eq :
    runWithTuning lib conn tuning =
      opening lib conn tuning >>= fun x ↦ closing conn x.1 x.2.1 x.2.2 := by
  simp only [opening, coarse, bind_assoc, pure_bind]
  rfl

end Phases

variable (handle) in
theorem expectHelloAck_cases {β : Type} (f : ℕ → ReplicaHandler β) (m : Message) (s : σ)
    (l : HandlerLine) :
    Errs (play handle (expectHelloAck m >>= f) s l) ∨
      ∃ version size count, m = .helloAck version size count := by
  cases m
  case helloAck version size count => exact .inr ⟨version, size, count, rfl⟩
  all_goals exact .inl ⟨_, rfl⟩

theorem expectGroupsNeedFine_cases {β : Type} (f : List ℕ → ReplicaHandler β) (m : Message) (s : σ)
    (l : HandlerLine) :
    Errs (play handle (expectGroupsNeedFine m >>= f) s l) ∨
      ∃ groups, m = .groupsNeedFine groups := by
  cases m
  case groupsNeedFine groups => exact .inr ⟨groups, rfl⟩
  all_goals exact .inl ⟨_, rfl⟩

theorem version_of_supported {version : ℕ}
    (h : HashAlgorithm.fromProtocolVersion version = some algorithm) :
    version = 1 ∨ version = 2 := by
  match version with
  | 0 => cases h
  | 1 => exact .inl rfl
  | 2 => exact .inr rfl
  | _ + 3 => cases h

theorem play_currentBytes (hread : 0 < r.pageCount → handle .serialize s = (.ok r.bytes, s))
    {β : Type} (f : List UInt8 → ReplicaHandler β) :
    play handle (currentBytes r.pageCount >>= f) s l = (play handle (f r.bytes) s l).prepend
      (if r.pageCount = 0 then []
        else [.called .serialize (.ok r.bytes : Except SyncError (List UInt8))]) := by
  unfold currentBytes
  split
  case isTrue h =>
    rw [r.bytes_of_empty h]
    rfl
  case isFalse h => exact play_call s (hread (by omega)) _

theorem play_handshake {version size count n : ℕ} {msgs : List Message} (hsend : l.fate 0 = .ok ())
    (hversion : HashAlgorithm.fromProtocolVersion version = some algorithm)
    (hm : l.incoming = .helloAck version size count :: msgs) :
    play handle (handshake conn n) s l = ⟨.ok algorithm, s, l.afterSend.withIncoming msgs,
      [.sent (.hello PROTOCOL_VERSION conn.pageSize n),
        .received (.helloAck version size count)]⟩ := by
  have hvalid : ¬ (version = 0 ∨ PROTOCOL_VERSION < version) := by
    rcases version_of_supported hversion with rfl | rfl <;> decide
  rw [handshake, play_send_ok _ _ hsend, play_recv_msg _ (l := l.afterSend) hm]
  simp only [expectHelloAck, Proc.pure_eq, Proc.ret_bind, if_neg hvalid, hversion]
  rfl

variable (handle conn) in
theorem handshake_cases (n : ℕ) (s : σ) (l : HandlerLine) :
    Errs (play handle (handshake conn n) s l) ∨ ∃ algorithm version size count msgs,
      l.fate 0 = .ok () ∧ HashAlgorithm.fromProtocolVersion version = some algorithm ∧
      l.incoming = .helloAck version size count :: msgs := by
  refine errs_or_send _ _ fun hsend ↦ errs_or_recv _ fun m msgs hm ↦ ?_
  rcases expectHelloAck_cases handle _ m s (l.afterSend.withIncoming msgs) with
    herr | ⟨version, size, count, rfl⟩
  · exact .inl herr
  · simp only [expectHelloAck, Proc.pure_eq, Proc.ret_bind]
    split_ifs with hinvalid
    · exact .inl (play_throwErr_errs _)
    · cases halgorithm : HashAlgorithm.fromProtocolVersion version with
      | none => exact .inl (play_throwErr_errs _)
      | some algorithm =>
        exact .inr ⟨algorithm, version, size, count, msgs, hsend, halgorithm, hm⟩

theorem play_pageCount {n : ℕ} (h : handle .pageCount s = (.ok n, s)) {β : Type}
    (f : ℕ → ReplicaHandler β) :
    play handle (Connection.pageCount >>= f) s l = (play handle (f n) s l).prepend
      [.called .pageCount (.ok n : Except SyncError ℕ)] := play_call s h _

theorem play_greeted {version size count : ℕ} {msgs : List Message} {tuning : SyncTuning}
    (hsize : conn.pageSize = r.pageSize)
    (h : Greeted handle r algorithm version size count msgs s l) :
    play handle (opening lib conn tuning) s l =
      (play handle (coarse lib tuning r.pageCount algorithm (pageHashList lib algorithm r)) s
        (l.afterSend.withIncoming msgs)).prepend (greetingEvents conn r version size count) := by
  have hhashes : allPageHashes lib tuning algorithm r.bytes conn.pageSize r.pageCount =
      pure (pageHashList lib algorithm r) := by
    rw [hsize]
    exact allPageHashes_eq tuning
  rw [opening, play_pageCount h.counted,
    play_bind_ok (play_handshake h.sent h.supported h.incoming), play_currentBytes h.read, hhashes,
    lift_pure, Proc.ret_bind, End.prepend_prepend, End.prepend_prepend]
  rfl

theorem errs_or_read {P : Prop} {β : Type} (h : Presents handle conn r s)
    (f : List UInt8 → ReplicaHandler β)
    (hread : (0 < r.pageCount → handle .serialize s = (.ok r.bytes, s)) → P) :
    Errs (play handle (currentBytes r.pageCount >>= f) s l) ∨ P := by
  rcases h.serialize with hok | ⟨e, herror⟩
  · exact .inr (hread fun _ ↦ hok)
  · rcases Nat.eq_zero_or_pos r.pageCount with hzero | hpos
    · exact .inr (hread fun hpos ↦ absurd hzero hpos.ne')
    · rw [currentBytes, if_neg hpos.ne']
      exact .inl ⟨e, congrArg End.outcome (play_call s herror _)⟩

variable (lib) in
theorem greeted_cases (tuning : SyncTuning) (h : Presents handle conn r s) (l : HandlerLine) :
    Errs (play handle (opening lib conn tuning) s l) ∨
      ∃ algorithm version size count msgs,
        Greeted handle r algorithm version size count msgs s l := by
  rw [opening]
  rcases h.pageCount with hcounted | ⟨e, herror⟩
  · rw [play_pageCount hcounted, errs_prepend]
    rcases handshake_cases handle conn r.pageCount s l with
      herr | ⟨algorithm, version, size, count, msgs, hsend, hsupported, hm⟩
    · exact .inl (errs_bind herr _)
    · rw [play_bind_ok (play_handshake hsend hsupported hm), errs_prepend]
      exact errs_or_read h _ fun hread ↦
        ⟨algorithm, version, size, count, msgs, hcounted, hread, hsend, hsupported, hm⟩
  · exact .inl ⟨e, congrArg End.outcome (play_call s herror _)⟩

def coarseEvents (lib : Crates) (algorithm : HashAlgorithm) (r : Image) (gs : List ℕ) :
    List (Event Message ConnOp.Reply) :=
  [.sent (.groupHashes 0 ((List.range (numGroups r.pageCount)).map (groupHash lib algorithm r))),
    .received (.groupsNeedFine gs)]

theorem play_coarse {msgs : List Message} {tuning : SyncTuning}
    (hn : r.pageCount + 64 ≤ u32Bound) (hsend : l.fate 0 = .ok ())
    (hm : l.incoming = .groupsNeedFine gs :: msgs) :
    play handle (coarse lib tuning r.pageCount algorithm (pageHashList lib algorithm r)) s l =
      ⟨.ok (pageHashList lib algorithm r, r.pageCount, gs), s, l.afterSend.withIncoming msgs,
        coarseEvents lib algorithm r gs⟩ := by
  rw [coarse, groupHashes_eq tuning hn, lift_pure, Proc.ret_bind, play_send_ok _ _ hsend,
    play_recv_msg _ (l := l.afterSend) hm, End.prepend_prepend]
  rfl

/-- The origin asks for the groups `gs`. -/
structure Asked (handle : (e : ConnOp) → σ → e.Reply × σ) (r : Image) (algorithm : HashAlgorithm)
    (version size count : ℕ) (gs : List ℕ) (msgs : List Message) (s : σ) (l : HandlerLine) :
    Prop where
  greeted : Greeted handle r algorithm version size count (.groupsNeedFine gs :: msgs) s l
  sent : l.fate 1 = .ok ()

def afterAsking (l : HandlerLine) (msgs : List Message) : HandlerLine :=
  l.afterSend.afterSend.withIncoming msgs

theorem play_asked {version size count : ℕ} {msgs : List Message} {tuning : SyncTuning}
    (hsize : conn.pageSize = r.pageSize) (hn : r.pageCount + 64 ≤ u32Bound)
    (h : Asked handle r algorithm version size count gs msgs s l) :
    play handle (opening lib conn tuning) s l =
      ⟨.ok (pageHashList lib algorithm r, r.pageCount, gs), s, afterAsking l msgs,
        greetingEvents conn r version size count ++ coarseEvents lib algorithm r gs⟩ := by
  rw [play_greeted hsize h.greeted, play_coarse hn h.sent rfl]
  rfl

variable (lib) in
theorem asked_cases (tuning : SyncTuning) (hp : Presents handle conn r s)
    (hn : r.pageCount + 64 ≤ u32Bound) (l : HandlerLine) :
    Errs (play handle (opening lib conn tuning) s l) ∨
      ∃ algorithm version size count gs msgs,
        Asked handle r algorithm version size count gs msgs s l := by
  rcases greeted_cases lib tuning hp l with
    herr | ⟨algorithm, version, size, count, msgs, hgreeted⟩
  · exact .inl herr
  · rw [play_greeted hp.pageSize hgreeted, errs_prepend, coarse, groupHashes_eq tuning hn,
      lift_pure, Proc.ret_bind]
    refine errs_or_send _ _ fun hsend ↦ errs_or_recv _ fun m rest hm ↦ ?_
    refine (expectGroupsNeedFine_cases _ m s _).imp_right ?_
    rintro ⟨gs, rfl⟩
    exact ⟨algorithm, version, size, count, gs, rest, hm ▸ hgreeted, hsend⟩

theorem opening_overflow {version size count : ℕ} {msgs : List Message} {tuning : SyncTuning}
    (hsize : conn.pageSize = r.pageSize) (hn : u32Bound < r.pageCount + 64)
    (h : Greeted handle r algorithm version size count msgs s l) :
    (play handle (opening lib conn tuning) s l).outcome = .error .panic := by
  rw [play_greeted hsize h, coarse, groupHashes_panics tuning hn]
  rfl

end Opening

end RsqliteRsync.Protocol.Replica
