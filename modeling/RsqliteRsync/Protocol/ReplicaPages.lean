import RsqliteRsync.Protocol.ReplicaOutcome

namespace RsqliteRsync.Protocol.Replica

open Foundation.Process Foundation.Script Db

variable {lib : Crates} {algorithm : HashAlgorithm} {tuning : SyncTuning} {σ α β : Type}
  {handle : (e : ConnOp) → σ → e.Reply × σ} {conn : Connection} {r : Image} {s : σ}
  {l : HandlerLine} {g n : ℕ}

section Trace

/-- The page numbers of every `PageHashes` sent. -/
def hashedPages (trace : List (Event Message ConnOp.Reply)) : List (List ℕ) :=
  trace.filterMap fun
    | .sent (.pageHashes pageNos _) => some pageNos
    | _ => none

def requestedGroups (trace : List (Event Message ConnOp.Reply)) : List ℕ :=
  trace.flatMap fun
    | .received (.groupsNeedFine groups) => groups
    | _ => []

theorem hashedPages_append (trace more : List (Event Message ConnOp.Reply)) :
    hashedPages (trace ++ more) = hashedPages trace ++ hashedPages more := List.filterMap_append

theorem requestedGroups_append (trace more : List (Event Message ConnOp.Reply)) :
    requestedGroups (trace ++ more) = requestedGroups trace ++ requestedGroups more :=
  List.flatMap_append

def isPageHashes : Message → Bool
  | .pageHashes _ _ => true
  | _ => false

abbrev Quiet (p : ReplicaHandler α) : Prop := Only (fun m ↦ isPageHashes m = false) p

variable (handle) in
theorem hashedPages_of_quiet {p : ReplicaHandler α} (h : Quiet p) (s : σ) (l : HandlerLine) :
    hashedPages (play handle p s l).trace = [] := by
  refine List.filterMap_eq_nil_iff.mpr fun event hevent ↦ ?_
  cases event with
  | received m => rfl
  | called e reply => rfl
  | sent m =>
    have hm := h.sent hevent
    cases m with
    | pageHashes pageNos hashes => cases hm
    | _ => rfl

theorem listed_of_quiet {p : ReplicaHandler α} (h : Quiet p) (lists : List (List ℕ)) :
    hashedPages (play handle p s l).trace <+: lists := by
  rw [hashedPages_of_quiet handle h]
  exact List.nil_prefix

variable (handle) in
theorem hashedPages_bind {p : ReplicaHandler α} (h : Quiet p) (f : α → ReplicaHandler β) (s : σ)
    (l : HandlerLine) :
    hashedPages (play handle (p >>= f) s l).trace = [] ∨
      ∃ a s' l', hashedPages (play handle (p >>= f) s l).trace =
        hashedPages (play handle (f a) s' l').trace := by
  have hquiet := hashedPages_of_quiet handle h s l
  rw [play_bind, End.andThen]
  cases (play handle p s l).outcome with
  | error stop => exact .inl hquiet
  | ok a =>
    refine .inr ⟨a, (play handle p s l).store, (play handle p s l).line, ?_⟩
    rw [End.trace_prepend, hashedPages_append, hquiet, List.nil_append]

end Trace

section Quiet

theorem quiet_applyPages (pages : List PageData) : Quiet (applyPages conn pages) := by
  induction pages with
  | nil => trivial
  | cons page pages ih =>
    refine Only.bind ?_ fun _ ↦ ih
    unfold Connection.writePage
    split_ifs
    · trivial
    · trivial
    · exact only_orFail
    · trivial

theorem quiet_expectDone (violation : String) (m : Message) : Quiet (expectDone violation m) := by
  cases m <;> first | trivial | exact only_violation rfl

theorem quiet_handshake (count : ℕ) : Quiet (handshake conn count) := by
  refine Only.bind (only_send rfl) fun _ ↦ Only.bind only_recv fun m ↦
    Only.bind ?_ fun version ↦ ?_
  · cases m <;> first | trivial | exact only_violation rfl
  · split_ifs
    · trivial
    · split <;> trivial

variable (lib tuning conn) in
theorem quiet_opening : Quiet (opening lib conn tuning) := by
  refine Only.bind only_orFail fun count ↦ Only.bind (quiet_handshake count) fun algorithm ↦
    Only.bind ?_ fun bytes ↦ Only.bind (only_lift _) fun hashes ↦ Only.bind (only_lift _) fun _ ↦
    Only.bind (only_send rfl) fun _ ↦ Only.bind only_recv fun m ↦ Only.bind ?_ fun groups ↦ trivial
  · unfold currentBytes
    split_ifs
    · trivial
    · exact only_orFail
  · cases m <;> first | trivial | exact only_violation rfl

end Quiet

section Listed

/-- The pages of a group, in the words of the page numbers. -/
theorem groupPageNos_eq_filter (g n : ℕ) :
    groupPageNos g n = (List.range' 1 n).filter fun p ↦ (p - 1) / 64 = g := by
  have hsorted : ((List.range' 1 n).filter fun p ↦ (p - 1) / 64 = g).Pairwise (· < ·) :=
    List.Pairwise.filter _ List.pairwise_lt_range'
  refine List.Perm.eq_of_pairwise' (r := (· < ·)) List.pairwise_lt_range' hsorted ?_
  refine (List.perm_ext_iff_of_nodup List.nodup_range' (hsorted.imp ne_of_lt)).mpr fun p ↦ ?_
  rw [← groupPageNos, mem_groupPageNos, List.mem_filter, List.mem_range'_1, decide_eq_true_eq]
  omega

variable (handle conn) in
theorem onAnswer_listed (next : ReplicaHandler Unit) (pending : ℕ) (m : Message) (s : σ)
    (l : HandlerLine) :
    hashedPages (play handle (onAnswer conn pending next m) s l).trace = [] ∨
      ∃ s' l', hashedPages (play handle (onAnswer conn pending next m) s l).trace =
        hashedPages (play handle next s' l').trace := by
  cases m with
  | sendPages pages =>
    have hquiet : Quiet (applyPages conn pages >>= fun _ ↦
        send (.pagesAck (pages.map (·.pageNo)))) :=
      Only.bind (quiet_applyPages pages) fun _ ↦ only_send rfl
    rw [onAnswer, ← bind_assoc]
    refine (hashedPages_bind handle hquiet (fun _ ↦ next) s l).imp_right ?_
    rintro ⟨_, s', l', h⟩
    exact ⟨s', l', h⟩
  | done =>
    refine .inl (hashedPages_of_quiet handle ?_ s l)
    unfold onAnswer
    split_ifs
    · exact only_violation rfl
    · trivial
  | _ => exact .inl rfl

/-- By induction on the groups: each turn sends the page numbers of its group, and no other part of
a turn sends any. -/
theorem finePass_listed (gs : List ℕ) (s : σ) (l : HandlerLine) :
    hashedPages (play handle (finePass conn (pageHashList lib algorithm r) r.pageCount gs) s
      l).trace <+: gs.map (groupPageNos · r.pageCount) := by
  induction gs generalizing s l with
  | nil =>
    exact listed_of_quiet (Only.bind only_recv fun m ↦ quiet_expectDone _ m) _
  | cons g gs ih =>
    have hanswer : hashedPages (play handle (recv >>= onAnswer conn gs.length
        (finePass conn (pageHashList lib algorithm r) r.pageCount gs)) s l.afterSend).trace <+:
        gs.map (groupPageNos · r.pageCount) := by
      rcases hashedPages_bind handle only_recv (onAnswer conn gs.length
        (finePass conn (pageHashList lib algorithm r) r.pageCount gs)) s l.afterSend with
        hnil | ⟨m, s₁, l₁, hrecv⟩
      · rw [hnil]
        exact List.nil_prefix
      · rw [hrecv]
        rcases onAnswer_listed handle conn
          (finePass conn (pageHashList lib algorithm r) r.pageCount gs) gs.length m s₁ l₁ with
          hnil | ⟨s₂, l₂, hnext⟩
        · rw [hnil]
          exact List.nil_prefix
        · rw [hnext]
          exact ih s₂ l₂
    by_cases hg : (g + 1) * 64 < u32Bound
    · rw [finePass, groupPages_eq hg, lift_pure, Proc.ret_bind, List.map_cons]
      cases hsend : l.fate 0 with
      | error e =>
        rw [play_send_error _ _ hsend]
        exact List.cons_prefix_cons.mpr ⟨rfl, List.nil_prefix⟩
      | ok u =>
        rw [play_send_ok _ _ hsend]
        exact List.cons_prefix_cons.mpr ⟨rfl, hanswer⟩
    · rw [finePass, groupPages_panics (not_lt.mp hg)]
      exact List.nil_prefix

theorem closing_listed (gs : List ℕ) (s : σ) (l : HandlerLine) :
    hashedPages (play handle (closing conn (pageHashList lib algorithm r) r.pageCount gs) s
      l).trace <+: gs.map (groupPageNos · r.pageCount) := by
  by_cases hnil : gs = []
  · rw [closing, if_pos hnil]
    exact listed_of_quiet (Only.bind only_recv fun m ↦ quiet_expectDone _ m) _
  · rw [closing_of_ne_nil hnil]
    exact finePass_listed gs s l

theorem requested_asked (version size count : ℕ) (gs : List ℕ) :
    requestedGroups (greetingEvents conn r version size count ++ coarseEvents lib algorithm r gs) =
      gs := by
  rw [requestedGroups_append]
  unfold greetingEvents
  split <;> simp [requestedGroups, coarseEvents]

theorem hashed_asked (version size count : ℕ) (gs : List ℕ) :
    hashedPages (greetingEvents conn r version size count ++ coarseEvents lib algorithm r gs) =
      [] := by
  rw [hashedPages_append]
  unfold greetingEvents
  split <;> rfl

/-- Whatever the origin sends, the page numbers in the `PageHashes` messages are those of the
requested groups, in the order of the request. -/
theorem run_listed (hp : Presents handle conn r s) (hn : r.pageCount + 64 ≤ u32Bound)
    (l : HandlerLine) :
    hashedPages (play handle (runWithTuning lib conn tuning) s l).trace <+:
      (requestedGroups (play handle (runWithTuning lib conn tuning) s l).trace).map
        (groupPageNos · r.pageCount) := by
  rcases asked_cases lib tuning hp hn l with
    ⟨error, herror⟩ | ⟨algorithm, version, size, count, gs, msgs, hasked⟩
  · have hquiet := hashedPages_of_quiet handle
      (quiet_opening lib tuning conn) s l
    rw [runWithTuning_eq, play_bind, End.andThen, herror, hquiet]
    exact List.nil_prefix
  · rw [run_asked hp.pageSize hn hasked, End.trace_prepend, hashedPages_append,
      requestedGroups_append, hashed_asked, requested_asked, List.nil_append, List.map_append]
    exact (closing_listed gs s _).trans (List.prefix_append _ _)

end Listed

/-- The replica's page arithmetic never overflows and lists exactly the pages of each requested
group, precisely when the turn never comes to a group that ends beyond `2 ^ 32 - 1`. -/
theorem page_lists_iff (hp : Presents handle conn r s) (hn : r.pageCount + 64 ≤ u32Bound) :
    ((play handle (runWithTuning lib conn tuning) s l).outcome ≠ .error .panic ∧
      hashedPages (play handle (runWithTuning lib conn tuning) s l).trace <+:
        (requestedGroups (play handle (runWithTuning lib conn tuning) s l).trace).map fun g ↦
          (List.range' 1 r.pageCount).filter fun p ↦ (p - 1) / 64 = g) ↔
      ¬ GroupOverflow handle conn r s l := by
  simp only [← groupPageNos_eq_filter]
  constructor
  · rintro ⟨hsafe, -⟩ hoverflow
    exact hsafe (group_overflow_panics hp.pageSize hoverflow)
  · intro h
    refine ⟨fun hpanic ↦ ?_, run_listed hp hn l⟩
    rcases run_outcome lib tuning hp l with hfaithful | hhash | hearly | hgroup
    · exact not_faithful_of_panic hpanic hfaithful
    · exact absurd hhash.1 (not_lt.mpr hn)
    · cases hpanic.symm.trans (early_done_succeeds _ _ hp.pageSize hearly).1
    · exact h hgroup

theorem page_lists_one_blank :
    hashedPages (play (Disk.handle 512) (runWithTuning Session.tabulated ⟨512, true⟩ {})
      Session.oneBlank.disk servingLine).trace = [[1]] ∧
    ¬ GroupOverflow (Disk.handle 512) ⟨512, true⟩ Session.oneBlank Session.oneBlank.disk
      servingLine := by
  obtain ⟨hok, htrace⟩ := servingLine_served
  have hp : Presents (Disk.handle 512) ⟨512, true⟩ Session.oneBlank Session.oneBlank.disk :=
    disk_presents Session.oneBlank true
  refine ⟨by rw [htrace]; rfl, ?_⟩
  apply (@page_lists_iff Session.tabulated {} _ _ _ _ _ _ hp (by decide)).mp
  constructor
  · intro hpanic
    cases hok.symm.trans hpanic
  · rw [htrace]
    exact List.prefix_rfl

/-- A request for the group `2 ^ 26 - 1` makes the replica panic. -/
theorem group_overflow_one_blank :
    (play (Disk.handle 512) (runWithTuning Session.tabulated ⟨512, true⟩ {})
      Session.oneBlank.disk (lineOf [.helloAck 2 512 1, .groupsNeedFine [67108863]])).outcome =
        .error .panic := by
  refine group_overflow_panics rfl (r := Session.oneBlank) ⟨by decide, .blake3V2, 2, 512, 1,
    [67108863], [], asked_one_blank _ _, [], 67108863, [], [], Session.oneBlank.disk, _, rfl,
    .nil _ _, by decide⟩

end RsqliteRsync.Protocol.Replica
