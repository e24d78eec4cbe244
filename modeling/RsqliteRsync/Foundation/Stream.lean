import Mathlib.Data.List.Forall2
import Mathlib.Data.List.Infix

namespace RsqliteRsync.Foundation.Stream

variable {α β ε : Type}

abbrev Take (α β ε : Type) := List β → Except ε (Option α) × List β

/-- The reads still to come, each a chunk or an error. After the last one, as with an empty chunk,
the stream has ended. -/
abbrev Reads (β ε : Type) := List (Except ε (List β))

structure Receiver (β ε : Type) where
  buf : List β
  reads : Reads β ε

section Pull

variable (take : Take α β ε) (ended : ε)

def afterTake (reads : Reads β ε) (more : List β → Except ε α × Receiver β ε) :
    Except ε (Option α) × List β → Except ε α × Receiver β ε
  | (.error e, buf) => (.error e, ⟨buf, reads⟩)
  | (.ok (some a), buf) => (.ok a, ⟨buf, reads⟩)
  | (.ok none, buf) => more buf

def pull : Reads β ε → List β → Except ε α × Receiver β ε
  | [], buf => afterTake [] (fun buf ↦ (.error ended, ⟨buf, []⟩)) (take buf)
  | read :: reads, buf => afterTake (read :: reads)
      (fun buf ↦ match read with
        | .error e => (.error e, ⟨buf, reads⟩)
        | .ok [] => (.error ended, ⟨buf, reads⟩)
        | .ok (b :: chunk) => pull reads (buf ++ b :: chunk)) (take buf)

end Pull

def inOrder (receive : Receiver β ε → Except ε α × Receiver β ε) :
    ℕ → Receiver β ε → List (Except ε α) × Receiver β ε
  | 0, r => ([], r)
  | n + 1, r =>
    let next := receive r
    let later := inOrder receive n next.2
    (next.1 :: later.1, later.2)

section Frames

variable {take : Take α β ε} {ended : ε} {frame buf more : List β} {a : α}
  {chunks : List (List β)}

structure Frames (take : Take α β ε) (a : α) (frame : List β) : Prop where
  whole : ∀ more, take (frame ++ more) = (.ok (some a), more)
  part : ∀ buf, buf <+: frame → buf ≠ frame → take buf = (.ok none, buf)

def Carries (r : Receiver β ε) (bytes : List β) : Prop :=
  ∃ chunks : List (List β), r.reads = chunks.map .ok ∧ (∀ c ∈ chunks, c ≠ []) ∧
    r.buf ++ chunks.flatten = bytes

theorem eq_of_carries_nil {r : Receiver β ε} (h : Carries r []) : r = ⟨[], []⟩ := by
  obtain ⟨buf, reads⟩ := r
  obtain ⟨chunks, rfl, hne, hbytes⟩ := h
  obtain ⟨rfl, hflatten⟩ := List.append_eq_nil_iff.mp hbytes
  have hchunks : chunks = [] := List.eq_nil_iff_forall_not_mem.mpr fun c hc ↦
    hne c hc (List.flatten_eq_nil_iff.mp hflatten c hc)
  rw [hchunks, List.map_nil]

theorem pull_chunks (h : Frames take a frame) (hne : ∀ c ∈ chunks, c ≠ [])
    (hbytes : buf ++ chunks.flatten = frame ++ more) :
    ∃ r, pull take ended (chunks.map .ok) buf = (.ok a, r) ∧ Carries r more := by
  induction chunks generalizing buf with
  | nil =>
    rw [List.flatten_nil, List.append_nil] at hbytes
    refine ⟨⟨more, []⟩, ?_, [], rfl, by simp, by simp⟩
    rw [List.map_nil, pull, hbytes, h.whole, afterTake]
  | cons chunk chunks ih =>
    rw [List.map_cons, pull]
    by_cases hwhole : frame <+: buf
    · obtain ⟨tail, rfl⟩ := hwhole
      rw [List.append_assoc, List.append_cancel_left_eq] at hbytes
      rw [h.whole, afterTake]
      exact ⟨_, rfl, chunk :: chunks, rfl, hne, hbytes⟩
    · have hpart : buf <+: frame := by
        have hbuf : buf <+: frame ++ more := hbytes ▸ List.prefix_append _ _
        exact (List.prefix_or_prefix_of_prefix hbuf (List.prefix_append _ _)).resolve_right hwhole
      rw [h.part buf hpart (fun heq ↦ hwhole (heq ▸ List.prefix_rfl)), afterTake]
      obtain _ | ⟨b, chunk⟩ := chunk
      · exact absurd rfl (hne [] (by simp))
      · refine ih (fun c hc ↦ hne c (by simp [hc])) ?_
        rw [← hbytes, List.flatten_cons, List.append_assoc]

theorem pull_carries {r : Receiver β ε} (h : Frames take a frame)
    (hr : Carries r (frame ++ more)) :
    ∃ r', pull take ended r.reads r.buf = (.ok a, r') ∧ Carries r' more := by
  obtain ⟨buf, reads⟩ := r
  obtain ⟨chunks, rfl, hne, hbytes⟩ := hr
  exact pull_chunks h hne hbytes

/-- However a run of frames is cut into chunks, receiving once for each gives their items in order
and leaves nothing behind. By induction on the frames. -/
theorem inOrder_frames {items : List α} {frames : List (List β)} {r : Receiver β ε}
    (h : List.Forall₂ (Frames take) items frames) (hr : Carries r frames.flatten) :
    inOrder (fun r ↦ pull take ended r.reads r.buf) items.length r = (items.map .ok, ⟨[], []⟩) := by
  induction h generalizing r with
  | nil => rw [List.length_nil, inOrder, eq_of_carries_nil hr, List.map_nil]
  | cons hframe _ ih =>
    obtain ⟨r', hpull, hr'⟩ := pull_carries hframe hr
    rw [List.length_cons, inOrder, hpull, ih hr', List.map_cons]

end Frames

end RsqliteRsync.Foundation.Stream
