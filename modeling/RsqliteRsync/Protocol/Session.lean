import RsqliteRsync.Protocol.OriginSpec
import RsqliteRsync.Protocol.ReplicaSpec

namespace RsqliteRsync.Protocol.Session

open Foundation.Process Foundation.Schedule Db

def originHandle : (e : Empty) → Unit → Empty.elim e × Unit := nofun

variable {lib : Crates} {σ : Type} {handle : (e : ConnOp) → σ → e.Reply × σ}
variable {o : Snapshot} {r : Image} {conn : Connection} {tO tR : SyncTuning} {s : σ} {g : ℕ}

abbrev State (σ : Type) :=
  Duplex Message SyncError (Empty.elim : Empty → Type) ConnOp.Reply Stop Unit Unit Unit σ

abbrev Moves (handle : (e : ConnOp) → σ → e.Reply × σ) : State σ → State σ → Prop :=
  Step originHandle handle

def start (lib : Crates) (o : Snapshot) (conn : Connection) (tO tR : SyncTuning) (s : σ) :
    State σ :=
  meet (Origin.runWithTuning lib o tO) (Replica.runWithTuning lib conn tR) () s [] []

/-- The store holds the database `r` and takes every write. -/
structure Serves (handle : (e : ConnOp) → σ → e.Reply × σ) (s : σ) (r : Image) : Prop where
  pageCount : handle .pageCount s = (.ok r.pageCount, s)
  serialize : 0 < r.pageCount → handle .serialize s = (.ok r.bytes, s)
  writeAt : ∀ off data t, (handle (.writeAt off data) t).1 = .ok ()

/-- The connection can write and has the page size of both databases. -/
structure Fits (conn : Connection) (o : Snapshot) (r : Image) : Prop where
  writable : conn.writable = true
  replica : conn.pageSize = r.pageSize
  origin : conn.pageSize = o.pageSize

def applyWrites (handle : (e : ConnOp) → σ → e.Reply × σ) (size : ℕ) (s : σ)
    (pages : List PageData) : σ :=
  pages.foldl (fun s page ↦ (handle (.writeAt ((page.pageNo - 1) * size) page.data) s).2) s

theorem applyWrites_append (size : ℕ) (s : σ) (pages more : List PageData) :
    applyWrites handle size s (pages ++ more) =
      applyWrites handle size (applyWrites handle size s pages) more := List.foldl_append

section Rounds

variable {out back : List Message}

theorem applyPages_run {p : Origin.OriginHandler Unit} {k : Unit → Replica.ReplicaHandler Unit}
    {pages : List PageData} (hw : conn.writable = true)
    (hok : ∀ off data t, (handle (.writeAt off data) t).1 = .ok ())
    (hp : ∀ page ∈ pages, 0 < page.pageNo ∧ page.data.length = conn.pageSize) :
    Reaches (Moves handle) (meet p (Replica.applyPages conn pages >>= k) () s out back)
      (meet p (k ()) () (applyWrites handle conn.pageSize s pages) out back) := by
  induction pages generalizing s with
  | nil => exact .refl _
  | cons page pages ih =>
    obtain ⟨hno, hlen⟩ := hp page List.mem_cons_self
    have hcall : handle (.writeAt ((page.pageNo - 1) * conn.pageSize) page.data) s =
      (.ok (), applyWrites handle conn.pageSize s [page]) := Prod.ext (hok _ _ s) rfl
    rw [Replica.applyPages, conn.writePage_eq hno hlen hw, bind_assoc]
    exact (right_calls hcall p _).trans (ih fun q hq ↦ hp q (List.mem_cons_of_mem page hq))

theorem mem_sentPages {page : PageData} (h : page ∈ Origin.sentPages lib .blake3V2 o r g) :
    page.pageNo ∈ groupPageNos g o.pageCount ∧ page.data = o.page page.pageNo := by
  obtain ⟨p, hp, rfl⟩ := List.mem_map.mp h
  exact ⟨List.mem_of_mem_filter hp, rfl⟩

theorem map_pageNo_pages (o : Image) (ps : List ℕ) :
    (ps.map fun p ↦ (⟨p, o.page p⟩ : PageData)).map (·.pageNo) = ps := by
  rw [List.map_map]
  exact List.map_id ps

theorem sentPages_valid (hs : conn.pageSize = o.pageSize) :
    ∀ page ∈ Origin.sentPages lib .blake3V2 o r g,
      0 < page.pageNo ∧ page.data.length = conn.pageSize := by
  intro page hpage
  obtain ⟨hp, hdata⟩ := mem_sentPages hpage
  have hpos := pos_of_mem_groupPageNos hp
  exact ⟨hpos, by rw [hdata, hs, o.length_page hpos (le_of_mem_groupPageNos hp)]⟩

theorem sentPages_nodup :
    ((Origin.sentPages lib .blake3V2 o r g).map (·.pageNo)).Nodup := by
  rw [Origin.sentPages, map_pageNo_pages]
  exact List.Nodup.filter _ List.nodup_range'

def roundReplies (lib : Crates) (o r : Image) (g : ℕ) : List Message :=
  [.pageHashes (groupPageNos g r.pageCount) (groupInput lib .blake3V2 r g),
    .pagesAck ((Origin.sentPages lib .blake3V2 o r g).map (·.pageNo))]

theorem round_opens (hg : (g + 1) * 64 < u32Bound) (k : Unit → Origin.OriginHandler Unit)
    (rest : List ℕ) :
    Reaches (Moves handle)
      (meet (Origin.fineRound lib o tO .blake3V2 g >>= k)
        (Replica.finePass conn (Replica.pageHashList lib .blake3V2 r) r.pageCount (g :: rest))
        () s out back)
      (meet (lift (Origin.changedPages lib o tO .blake3V2 (g * 64 + 1)
          (min ((g + 1) * 64) o.pageCount) (groupPageNos g r.pageCount)
          (groupInput lib .blake3V2 r g)) >>= fun pages ↦ Origin.sendChanged pages >>= k)
        (recv >>= Replica.onAnswer conn rest.length
          (Replica.finePass conn (Replica.pageHashList lib .blake3V2 r) r.pageCount rest))
        () s out
        (back ++ [.pageHashes (groupPageNos g r.pageCount) (groupInput lib .blake3V2 r g)])) := by
  have hlen : (groupInput lib .blake3V2 r g).length = (groupPageNos g r.pageCount).length := by
    simp [groupInput]
  have hvalid : Origin.orViolation (Origin.validatePageHashesForGroup
      (groupPageNos g r.pageCount) (groupInput lib .blake3V2 r g) g) = .ret () := by
    rw [Origin.validatePageHashesForGroup_eq hg hlen]
    rfl
  rw [Replica.finePass, Replica.groupPages_eq hg]
  simp only [Origin.fineRound, recv, send, lift_pure, Proc.ret_bind, Proc.recv_bind,
    Proc.send_bind, bind_assoc]
  refine (right_sends _ _).trans ?_
  simp only [orFail_ok, Proc.ret_bind, Origin.expectPageHashes, Proc.pure_eq,
    firstPageOf_eq hg, lastPageOf_eq _ hg, lift_pure, hvalid]
  exact .refl _

/-- One round of the fine pass, on a group whose pages the origin has. -/
theorem round_run (hf : Fits conn o r)
    (hok : ∀ off data t, (handle (.writeAt off data) t).1 = .ok ())
    (hg : (g + 1) * 64 < u32Bound) (h : ∀ p ∈ groupPageNos g r.pageCount, p ≤ o.pageCount)
    (k : Unit → Origin.OriginHandler Unit) (rest : List ℕ) :
    Reaches (Moves handle)
      (meet (Origin.fineRound lib o tO .blake3V2 g >>= k)
        (Replica.finePass conn (Replica.pageHashList lib .blake3V2 r) r.pageCount (g :: rest))
        () s out back)
      (meet (k ())
        (Replica.finePass conn (Replica.pageHashList lib .blake3V2 r) r.pageCount rest)
        () (applyWrites handle conn.pageSize s (Origin.sentPages lib .blake3V2 o r g))
        (out ++ [.sendPages (Origin.sentPages lib .blake3V2 o r g)])
        (back ++ roundReplies lib o r g)) := by
  refine (round_opens hg k rest).trans ?_
  rw [Origin.changedPages_eq tO hg h, lift_pure, Proc.ret_bind, roundReplies]
  set pages := Origin.sentPages lib .blake3V2 o r g
  have hack : Origin.expectPagesAck (pages.map (·.pageNo)) (.pagesAck (pages.map (·.pageNo))) =
      .ret () := by
    rw [Origin.expectPagesAck, Origin.validatePagesAck_perm sentPages_nodup (.refl _)]
    rfl
  simp only [Origin.sendChanged, recv, send, Proc.recv_bind, Proc.send_bind, bind_assoc]
  refine (left_sends _ _).trans ?_
  simp only [orFail_ok, Proc.ret_bind, Replica.onAnswer, send, Proc.send_bind]
  refine (applyPages_run hf.writable hok (sentPages_valid hf.origin)).trans ?_
  refine (right_sends _ _).trans ?_
  simp only [orFail_ok, Proc.ret_bind, hack, List.append_assoc, List.singleton_append]
  exact .refl _

theorem rounds_run (hf : Fits conn o r)
    (hok : ∀ off data t, (handle (.writeAt off data) t).1 = .ok ()) (gs rest : List ℕ)
    (hg : ∀ g ∈ gs, (g + 1) * 64 < u32Bound ∧ ∀ p ∈ groupPageNos g r.pageCount, p ≤ o.pageCount)
    (k : Unit → Origin.OriginHandler Unit) :
    Reaches (Moves handle)
      (meet (Origin.finePass lib o tO .blake3V2 (gs ++ rest) >>= k)
        (Replica.finePass conn (Replica.pageHashList lib .blake3V2 r) r.pageCount (gs ++ rest))
        () s out back)
      (meet (Origin.finePass lib o tO .blake3V2 rest >>= k)
        (Replica.finePass conn (Replica.pageHashList lib .blake3V2 r) r.pageCount rest)
        () (applyWrites handle conn.pageSize s
          (gs.flatMap (Origin.sentPages lib .blake3V2 o r)))
        (out ++ gs.map fun g ↦ .sendPages (Origin.sentPages lib .blake3V2 o r g))
        (back ++ gs.flatMap (roundReplies lib o r))) := by
  induction gs generalizing s out back with
  | nil =>
    simp only [List.nil_append, List.flatMap_nil, List.map_nil, List.append_nil]
    exact .refl _
  | cons g gs ih =>
    obtain ⟨hlt, hle⟩ := hg g List.mem_cons_self
    rw [List.cons_append, Origin.finePass, bind_assoc]
    refine (round_run hf hok hlt hle _ _).trans ?_
    rw [List.flatMap_cons, applyWrites_append, List.map_cons, List.append_cons out _ (gs.map _),
      List.flatMap_cons, ← List.append_assoc back]
    exact ih fun g' hg' ↦ hg g' (List.mem_cons_of_mem g hg')

end Rounds

section Coarse

def NeedsFine (lib : Crates) (o r : Image) (g : ℕ) : Prop :=
  Replica.numGroups r.pageCount ≤ g ∨ o.pageCount ≤ g * 64 ∨
    groupHash lib .blake3V2 o g ≠ groupHash lib .blake3V2 r g

instance (o r : Image) (g : ℕ) : Decidable (NeedsFine lib o r g) :=
  inferInstanceAs (Decidable (_ ∨ _))

def fineGroups (lib : Crates) (o r : Image) : List ℕ :=
  (List.range (max (Replica.numGroups r.pageCount) (groupCount o.pageCount))).filter
    (NeedsFine lib o r)

theorem mem_fineGroups : g ∈ fineGroups lib o r ↔
    (g < Replica.numGroups r.pageCount ∨ g < groupCount o.pageCount) ∧ NeedsFine lib o r g := by
  simp [fineGroups]

theorem fineGroups_sorted (lib : Crates) (o r : Image) : (fineGroups lib o r).Pairwise (· < ·) :=
  List.Pairwise.filter _ List.pairwise_lt_range

theorem zipIdx_map_range {α : Type} (f : ℕ → α) (n : ℕ) :
    ((List.range n).map f).zipIdx = (List.range n).map fun g ↦ (f g, g) := by
  rw [List.range_eq_range']
  exact Origin.zipIdx_map_range' f 0 n

theorem needFine_fineGroups (hn : r.pageCount + 64 ≤ u32Bound) :
    Origin.needFine lib o tO .blake3V2 0
      ((List.range (Replica.numGroups r.pageCount)).map (groupHash lib .blake3V2 r)) =
      pure (fineGroups lib o r) := by
  -- the groups that only the origin has come after the compared ones, and all of them are asked for
  set n := Replica.numGroups r.pageCount with hdef
  set m := groupCount o.pageCount
  have hlen : (((List.range n).map (groupHash lib .blake3V2 r)).length + 1) * 64 ≤ u32Bound := by
    simp only [hdef, List.length_map, List.length_range, Replica.numGroups, groupCount, GROUP_SIZE,
      u32Bound] at *
    omega
  have hsplit : List.range (max n m) = List.range n ++ List.range' n (m - n) := by
    rw [List.range_eq_range', List.range_eq_range', show max n m = n + (m - n) by omega,
      ← List.range'_append_1, Nat.zero_add]
  have hrest : (List.range' n (m - n)).filter (NeedsFine lib o r) = List.range' n (m - n) := by
    rw [List.filter_eq_self]
    intro g hg
    exact decide_eq_true (.inl (List.mem_range'_1.mp hg).1)
  have hfirst : ((List.range n).map fun g ↦ (groupHash lib .blake3V2 r g, g)).filterMap
      (fun x ↦ Origin.flagged lib o .blake3V2 x.2 x.1) =
      (List.range n).filter (NeedsFine lib o r) := by
    rw [List.filterMap_map, ← List.filterMap_eq_filter]
    apply List.filterMap_congr
    intro g hg
    have hg' : ¬ n ≤ g := not_le.mpr (List.mem_range.mp hg)
    simp only [Function.comp_apply, Origin.flagged, NeedsFine, ← hdef, hg', false_or,
      Option.guard_def, decide_eq_true_eq]
  rw [Origin.needFine_eq tO hlen, zipIdx_map_range, hfirst, List.length_map, List.length_range,
    fineGroups, ← hdef, hsplit, List.filter_append, hrest]

def afterCoarse (lib : Crates) (conn : Connection) (r : Image) (groups : List ℕ) :
    Replica.ReplicaHandler Unit :=
  if groups = [] then
    recv >>= Replica.expectDone "expected Done after empty GroupsNeedFine"
  else Replica.finePass conn (Replica.pageHashList lib .blake3V2 r) r.pageCount groups

def afterHashing (lib : Crates) (conn : Connection) (r : Image) (hashes : List PageHash) :
    Replica.ReplicaHandler Unit := do
  send (.groupHashes 0 hashes)
  let msg ← recv
  let groups ← Replica.expectGroupsNeedFine msg
  afterCoarse lib conn r groups

theorem currentBytes_run {p : Origin.OriginHandler Unit} {out back : List Message}
    {k : List UInt8 → Replica.ReplicaHandler Unit} (hs : Serves handle s r) :
    Reaches (Moves handle) (meet p (Replica.currentBytes r.pageCount >>= k) () s out back)
      (meet p (k r.bytes) () s out back) := by
  unfold Replica.currentBytes
  split
  case isTrue h =>
    rw [r.bytes_of_empty h]
    exact .refl _
  case isFalse h =>
    exact right_calls (hs.serialize (by omega)) p _

variable (lib tO tR) in
/-- A handshake that the origin accepts, up to the hashes of the replica's pages. -/
theorem handshake_accepted (hs : Serves handle s r)
    (hsize : conn.pageSize = 0 ∨ conn.pageSize = o.pageSize)
    (hhash : Replica.allPageHashes lib tR .blake3V2 r.bytes conn.pageSize r.pageCount =
      pure (Replica.pageHashList lib .blake3V2 r)) :
    Reaches (Moves handle) (start lib o conn tO tR s)
      (meet
        (Origin.coarsePass lib o tO .blake3V2 >>= fun groups ↦
          Origin.finePass lib o tO .blake3V2 groups >>= fun _ ↦ send .done)
        (lift (Replica.groupHashes lib tR .blake3V2 (Replica.pageHashList lib .blake3V2 r)
          r.pageCount) >>= afterHashing lib conn r)
        () s [.helloAck 2 o.pageSize o.pageCount]
        [.hello 2 conn.pageSize r.pageCount]) := by
  have hsize' : ¬ (o.pageSize ≠ conn.pageSize ∧ conn.pageSize ≠ 0) := by
    rintro ⟨hne, hzero⟩
    exact hsize.elim hzero (hne ∘ Eq.symm)
  unfold start Replica.runWithTuning
  refine (right_calls hs.pageCount _ _).trans ?_
  simp only [orFail_ok, Replica.handshake, Origin.runWithTuning, Origin.handshake, send, recv,
    Proc.send_bind, Proc.recv_bind, bind_assoc]
  refine (right_sends _ _).trans ?_
  simp only [orFail_ok, Proc.ret_bind, Origin.expectHello, Proc.pure_eq, PROTOCOL_VERSION,
    min_self, HashAlgorithm.fromProtocolVersion, OfNat.ofNat_ne_zero, if_false, if_neg hsize',
    Proc.send_bind]
  refine (left_sends _ _).trans ?_
  simp only [orFail_ok, Proc.ret_bind, Replica.expectHelloAck, Proc.pure_eq, OfNat.ofNat_ne_zero,
    lt_irrefl, or_self, if_false]
  refine (currentBytes_run hs).trans ?_
  rw [hhash, lift_pure, Proc.ret_bind]
  exact .refl _

variable (lib tO tR) in
theorem handshake_run (hs : Serves handle s r) (hf : Fits conn o r) :
    Reaches (Moves handle) (start lib o conn tO tR s)
      (meet
        (Origin.coarsePass lib o tO .blake3V2 >>= fun groups ↦
          Origin.finePass lib o tO .blake3V2 groups >>= fun _ ↦ send .done)
        (lift (Replica.groupHashes lib tR .blake3V2 (Replica.pageHashList lib .blake3V2 r)
          r.pageCount) >>= afterHashing lib conn r)
        () s [.helloAck 2 o.pageSize o.pageCount]
        [.hello 2 conn.pageSize r.pageCount]) :=
  handshake_accepted lib tO tR hs (.inr hf.origin) (by rw [hf.replica, Replica.allPageHashes_eq])

/-- The coarse pass of a replica whose groups all end below `2 ^ 32`. -/
theorem coarse_run (hn : r.pageCount + 64 ≤ u32Bound) {out back : List Message}
    (k : List ℕ → Origin.OriginHandler Unit) :
    Reaches (Moves handle)
      (meet (Origin.coarsePass lib o tO .blake3V2 >>= k)
        (lift (Replica.groupHashes lib tR .blake3V2 (Replica.pageHashList lib .blake3V2 r)
          r.pageCount) >>= afterHashing lib conn r) () s out back)
      (meet (k (fineGroups lib o r)) (afterCoarse lib conn r (fineGroups lib o r)) () s
        (out ++ [.groupsNeedFine (fineGroups lib o r)])
        (back ++ [.groupHashes 0 ((List.range (Replica.numGroups r.pageCount)).map
          (groupHash lib .blake3V2 r))])) := by
  rw [Replica.groupHashes_eq tR hn, lift_pure, Proc.ret_bind]
  simp only [afterHashing, Origin.coarsePass, send, recv, Proc.send_bind, Proc.recv_bind,
    bind_assoc]
  refine (right_sends _ _).trans ?_
  simp only [orFail_ok, Proc.ret_bind, Origin.expectGroupHashes, Proc.pure_eq, ne_eq,
    not_true_eq_false, if_false, needFine_fineGroups hn, lift_pure, Proc.send_bind]
  refine (left_sends _ _).trans ?_
  exact .refl _

theorem fine_run (gs : List ℕ) {out back : List Message} (hf : Fits conn o r)
    (hok : ∀ off data t, (handle (.writeAt off data) t).1 = .ok ())
    (hg : ∀ g ∈ gs, (g + 1) * 64 < u32Bound ∧
      ∀ p ∈ groupPageNos g r.pageCount, p ≤ o.pageCount) :
    Reaches (Moves handle)
      (meet (Origin.finePass lib o tO .blake3V2 gs >>= fun _ ↦ send .done)
        (afterCoarse lib conn r gs) () s out back)
      (meet (.ret ()) (.ret ()) ()
        (applyWrites handle conn.pageSize s (gs.flatMap (Origin.sentPages lib .blake3V2 o r)))
        (out ++ (gs.map fun g ↦ .sendPages (Origin.sentPages lib .blake3V2 o r g)) ++ [.done])
        (back ++ gs.flatMap (roundReplies lib o r))) := by
  by_cases hnil : gs = []
  · subst hnil
    simp only [afterCoarse, Origin.finePass, List.flatMap_nil, List.map_nil, List.append_nil]
    exact left_sends _ _
  · have hrounds := @rounds_run lib σ handle o r conn tO s out back hf hok gs [] hg
      fun _ ↦ send .done
    rw [List.append_nil] at hrounds
    rw [afterCoarse, if_neg hnil]
    exact hrounds.trans (left_sends _ _)

end Coarse

def transcript (lib : Crates) (o r : Image) : List Message :=
  [.helloAck 2 o.pageSize o.pageCount, .groupsNeedFine (fineGroups lib o r)] ++
    ((fineGroups lib o r).map fun g ↦ .sendPages (Origin.sentPages lib .blake3V2 o r g)) ++
    [.done]

def allSentPages (lib : Crates) (o r : Image) : List PageData :=
  (fineGroups lib o r).flatMap (Origin.sentPages lib .blake3V2 o r)

theorem fineGroups_bounds (hle : r.pageCount ≤ o.pageCount) (hn : o.pageCount + 64 ≤ u32Bound) :
    ∀ g ∈ fineGroups lib o r, (g + 1) * 64 < u32Bound ∧
      ∀ p ∈ groupPageNos g r.pageCount, p ≤ o.pageCount := by
  intro g hg
  have hmem := (mem_fineGroups.mp hg).1
  have hlt : g < Replica.numGroups o.pageCount := by
    simp only [Replica.numGroups, groupCount, GROUP_SIZE] at *
    omega
  exact ⟨(Replica.group_bounds hlt hn).2, fun p hp ↦ (le_of_mem_groupPageNos hp).trans hle⟩

variable (lib tO tR) in
/-- Onto a replica with at most as many pages, every schedule of a session ends the same way. -/
theorem session_ends (hs : Serves handle s r) (hf : Fits conn o r)
    (hle : r.pageCount ≤ o.pageCount) (hn : o.pageCount + 64 ≤ u32Bound) :
    ∃ back, EndsIn (Moves handle) (start lib o conn tO tR s)
      (meet (.ret ()) (.ret ()) ()
        (applyWrites handle conn.pageSize s (allSentPages lib o r)) (transcript lib o r) back) := by
  have hcoarse : r.pageCount + 64 ≤ u32Bound := by omega
  exact ⟨_, endsIn_meet (((handshake_run lib tO tR hs hf).trans (coarse_run hcoarse _)).trans
    (fine_run _ hf hs.writeAt (fineGroups_bounds hle hn))) trivial trivial⟩

end RsqliteRsync.Protocol.Session
