import RsqliteRsync.Protocol.Session

namespace RsqliteRsync.Protocol.Session

open Foundation.Process Foundation.Schedule Db

variable {lib : Crates} {σ : Type} {handle : (e : ConnOp) → σ → e.Reply × σ}
variable {o : Snapshot} {r : Image} {conn : Connection} {tO tR : SyncTuning} {s : σ} {g : ℕ}

def groupsAsked (sent : List Message) : List (List ℕ) :=
  sent.filterMap fun
    | .groupsNeedFine groups => some groups
    | _ => none

def pagesOf (sent : List Message) : List PageData :=
  sent.flatMap fun
    | .sendPages pages => pages
    | _ => []

theorem pagesOf_append (sent more : List Message) :
    pagesOf (sent ++ more) = pagesOf sent ++ pagesOf more := List.flatMap_append

theorem pagesOf_map (f : ℕ → List PageData) (gs : List ℕ) :
    pagesOf (gs.map fun g ↦ .sendPages (f g)) = gs.flatMap f := by
  rw [pagesOf, List.flatMap_map]

variable (tO tR) in
theorem reach_round (hs : Serves handle s r) (hf : Fits conn o r)
    (hn : r.pageCount + 64 ≤ u32Bound) (hg : g ∈ fineGroups lib o r)
    (hbefore : ∀ g' < g, (g' + 1) * 64 < u32Bound ∧
      ∀ p ∈ groupPageNos g' r.pageCount, p ≤ o.pageCount) :
    ∃ (before after : List ℕ) (t : σ) (back : List Message), (∀ g' ∈ before, g' < g) ∧
      Reaches (Moves handle) (start lib o conn tO tR s)
        (meet
          (Origin.finePass lib o tO .blake3V2 (g :: after) >>= fun _ ↦ send .done)
          (Replica.finePass conn (Replica.pageHashList lib .blake3V2 r) r.pageCount (g :: after))
          () t ([.helloAck 2 o.pageSize o.pageCount] ++ [.groupsNeedFine (fineGroups lib o r)] ++
            before.map fun g ↦ .sendPages (Origin.sentPages lib .blake3V2 o r g)) back) := by
  obtain ⟨before, after, hsplit⟩ := List.append_of_mem hg
  have hlt : ∀ g' ∈ before, g' < g := by
    have hsorted := fineGroups_sorted lib o r
    rw [hsplit, List.pairwise_append] at hsorted
    exact fun g' hg' ↦ hsorted.2.2 g' hg' g List.mem_cons_self
  have hne : ¬ fineGroups lib o r = [] := List.ne_nil_of_mem hg
  have hcoarse := (handshake_run lib tO tR hs hf).trans (coarse_run hn _)
  rw [afterCoarse, if_neg hne, hsplit] at hcoarse
  rw [hsplit]
  exact ⟨before, after, _, _, hlt, hcoarse.trans (rounds_run hf hs.writeAt before (g :: after)
    (fun g' hg' ↦ hbefore g' (hlt g' hg')) _)⟩

variable (lib tO tR) in
theorem hashing_overflows (hs : Serves handle s r) (hf : Fits conn o r)
    (hn : u32Bound < r.pageCount + 64) :
    ∃ z, EndsIn (Moves handle) (start lib o conn tO tR s) z ∧ z.right.proc = .fail .panic ∧
      z.left.sent = [.helloAck 2 o.pageSize o.pageCount] := by
  have hrun := handshake_run lib tO tR hs hf
  rw [Replica.groupHashes_panics tR hn, lift_panic, Proc.fail_bind] at hrun
  exact ⟨_, endsIn_meet hrun trivial trivial, rfl, rfl⟩

variable (lib tO tR) in
/-- An origin within 64 pages of `2 ^ 32` never gets its last group across: the replica panics
when it computes the end of that group, at the latest. -/
theorem overflow_ends (hs : Serves handle s r) (hf : Fits conn o r)
    (hle : r.pageCount ≤ o.pageCount) (hn : u32Bound < o.pageCount + 64) :
    ∃ z, EndsIn (Moves handle) (start lib o conn tO tR s) z ∧ z.right.proc = .fail .panic ∧
      ∀ page ∈ pagesOf z.left.sent, page.pageNo < o.pageCount := by
  by_cases hr : u32Bound < r.pageCount + 64
  · obtain ⟨z, hz, hproc, hsent⟩ := hashing_overflows lib tO tR hs hf hr
    refine ⟨z, hz, hproc, ?_⟩
    simp [hsent, pagesOf]
  · have ho := o.pageCount_lt
    unfold u32Bound at *
    have hlast : 67108863 ∈ fineGroups lib o r := by
      refine mem_fineGroups.mpr ⟨.inr (lt_groupCount_iff.mpr (by omega)), .inl ?_⟩
      simp only [Replica.numGroups, groupCount, GROUP_SIZE]
      omega
    obtain ⟨before, after, t, back, hlt, hrun⟩ := reach_round tO tR hs hf
      (not_lt.mp hr) hlast fun g' hg' ↦
        ⟨by unfold u32Bound; omega, fun p hp ↦ (le_of_mem_groupPageNos hp).trans hle⟩
    rw [Replica.finePass, Replica.groupPages_panics (by decide), lift_panic,
      Proc.fail_bind] at hrun
    refine ⟨_, endsIn_meet hrun trivial trivial, rfl, fun page hpage ↦ ?_⟩
    rw [meet, pagesOf_append, pagesOf_map] at hpage
    obtain ⟨g, hg, hpage⟩ := List.mem_flatMap.mp hpage
    have hg' := hlt g hg
    have hno := (mem_groupPageNos.mp (mem_sentPages hpage).1).2.1
    omega

theorem boundary_flagged (hcf : CollisionFree lib .blake3V2 o r)
    (hlt : o.pageCount < r.pageCount) :
    o.pageCount ≤ o.pageCount / 64 * 64 ∨ groupHash lib .blake3V2 o (o.pageCount / 64) ≠
      groupHash lib .blake3V2 r (o.pageCount / 64) := by
  by_cases hfull : o.pageCount ≤ o.pageCount / 64 * 64
  · exact .inl hfull
  · refine .inr fun heq ↦ ?_
    have ho : o.pageCount / 64 < groupCount o.pageCount := lt_groupCount_iff.mpr (by omega)
    have hr : o.pageCount / 64 < max (groupCount r.pageCount) 1 :=
      lt_max_of_lt_left (lt_groupCount_iff.mpr (by omega))
    have hlen := congrArg List.length ((hcf.groupHash_eq_iff ho hr).mp heq)
    rw [length_groupInput, length_groupInput] at hlen
    omega

variable (tO tR) in
/-- Onto a replica with more pages than the origin, the origin panics: it slices past its
snapshot for the first page that only the replica has. -/
theorem shrink_ends (hcf : CollisionFree lib .blake3V2 o r) (hs : Serves handle s r)
    (hf : Fits conn o r) (hlt : o.pageCount < r.pageCount) :
    ∃ z, EndsIn (Moves handle) (start lib o conn tO tR s) z ∧
      (z.left.proc = .fail .panic ∨ z.right.proc = .fail .panic) := by
  by_cases hr : u32Bound < r.pageCount + 64
  · obtain ⟨z, hz, hproc, -⟩ := hashing_overflows lib tO tR hs hf hr
    exact ⟨z, hz, .inr hproc⟩
  · have hmem : o.pageCount / 64 ∈ fineGroups lib o r := by
      refine mem_fineGroups.mpr ⟨.inl (lt_max_of_lt_left (lt_groupCount_iff.mpr (by omega))), ?_⟩
      exact .inr (boundary_flagged hcf hlt)
    obtain ⟨before, after, t, back, -, hrun⟩ := reach_round tO tR hs hf
      (not_lt.mp hr) hmem fun g' hg' ↦ ⟨by unfold u32Bound at *; omega, fun p hp ↦ by
        have hp' := mem_groupPageNos.mp hp
        omega⟩
    rw [Origin.finePass, bind_assoc] at hrun
    have hround := hrun.trans (round_opens (by unfold u32Bound at *; omega) _ _)
    have hpage : ∃ p ∈ groupPageNos (o.pageCount / 64) r.pageCount, o.pageCount < p :=
      ⟨o.pageCount + 1, mem_groupPageNos.mpr (by omega), by omega⟩
    rw [Origin.changedPages_panics tO _ _ hpage, lift_panic, Proc.fail_bind] at hround
    exact ⟨_, endsIn_meet hround trivial trivial, .inl rfl⟩

end RsqliteRsync.Protocol.Session
