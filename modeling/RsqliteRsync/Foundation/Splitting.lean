import Mathlib.Data.List.DropRight

namespace RsqliteRsync.Foundation.Splitting

variable {α σ τ : Type*}

section Strip

variable {blank : α → Bool} {xs ys : List α} {x : α}

def strip (blank : α → Bool) (xs : List α) : List α := (xs.dropWhile blank).rdropWhile blank

def Blank (blank : α → Bool) (xs : List α) : Prop := ∀ x ∈ xs, blank x = true

theorem blank_append : Blank blank (xs ++ ys) ↔ Blank blank xs ∧ Blank blank ys :=
  List.forall_mem_append

theorem strip_eq_nil_iff : strip blank xs = [] ↔ Blank blank xs := by
  unfold strip
  rw [List.rdropWhile_eq_nil_iff]
  constructor
  · intro h
    cases hrest : xs.dropWhile blank with
    | nil => exact List.dropWhile_eq_nil_iff.mp hrest
    | cons y ys =>
      have hy : blank y = false := by simpa [hrest] using List.head?_dropWhile_not blank xs
      rw [hrest] at h
      cases (h y List.mem_cons_self).symm.trans hy
  · intro h x hx
    exact h x ((List.dropWhile_suffix blank).subset hx)

theorem dropWhile_append_of_not_blank (h : ¬ Blank blank xs) (ys : List α) :
    (xs ++ ys).dropWhile blank = xs.dropWhile blank ++ ys := by
  rw [List.dropWhile_append, if_neg]
  rw [List.isEmpty_iff, List.dropWhile_eq_nil_iff]
  exact h

theorem rdropWhile_append_of_not_blank (xs : List α) (h : ¬ Blank blank ys) :
    (xs ++ ys).rdropWhile blank = xs ++ ys.rdropWhile blank := by
  have hreverse : ¬ Blank blank ys.reverse := by
    intro hall
    exact h fun y hy ↦ hall y (List.mem_reverse.mpr hy)
  unfold List.rdropWhile
  rw [List.reverse_append, dropWhile_append_of_not_blank hreverse, List.reverse_append,
    List.reverse_reverse]

theorem strip_concat_of_blank (xs : List α) (h : blank x = true) :
    strip blank (xs ++ [x]) = strip blank xs := by
  by_cases hxs : Blank blank xs
  · have hboth : Blank blank (xs ++ [x]) := blank_append.mpr ⟨hxs, by simpa [Blank] using h⟩
    rw [strip_eq_nil_iff.mpr hboth, strip_eq_nil_iff.mpr hxs]
  · rw [strip, dropWhile_append_of_not_blank hxs, List.rdropWhile_concat_pos _ _ _ h, strip]

theorem not_blank_of_strip (h : strip blank xs = xs) (hne : xs ≠ []) : ¬ Blank blank xs := by
  intro hblank
  rw [strip_eq_nil_iff.mpr hblank] at h
  exact hne h.symm

theorem while_of_strip (h : strip blank xs = xs) :
    xs.dropWhile blank = xs ∧ xs.rdropWhile blank = xs := by
  have hdrop : xs.dropWhile blank = xs := by
    apply (List.dropWhile_suffix blank).eq_of_length_le
    calc xs.length = (strip blank xs).length := by rw [h]
      _ ≤ (xs.dropWhile blank).length := (List.rdropWhile_prefix blank _).length_le
  rw [strip, hdrop] at h
  exact ⟨hdrop, h⟩

theorem strip_of_forall (h : ∀ x ∈ xs, blank x = false) : strip blank xs = xs := by
  have hdrop : xs.dropWhile blank = xs := by
    rw [List.dropWhile_eq_self_iff]
    intro hlength
    rw [h _ (List.getElem_mem hlength)]
    exact Bool.false_ne_true
  rw [strip, hdrop, List.rdropWhile_eq_self_iff]
  intro hne
  rw [h _ (List.getLast_mem hne)]
  exact Bool.false_ne_true

theorem strip_between (hxs : strip blank xs = xs) (hys : strip blank ys = ys) (hx : xs ≠ [])
    (hy : ys ≠ []) (between : List α) :
    strip blank (xs ++ (between ++ ys)) = xs ++ (between ++ ys) := by
  have hend : ¬ Blank blank (between ++ ys) := fun h ↦
    not_blank_of_strip hys hy (blank_append.mp h).2
  rw [strip, dropWhile_append_of_not_blank (not_blank_of_strip hxs hx), (while_of_strip hxs).1,
    rdropWhile_append_of_not_blank _ hend,
    rdropWhile_append_of_not_blank _ (not_blank_of_strip hys hy), (while_of_strip hys).2]

theorem strip_ne_strip_append (h : ¬ Blank blank xs) (hy : ¬ Blank blank ys) :
    strip blank xs ≠ strip blank (xs ++ ys) := by
  intro heq
  unfold strip at heq
  rw [dropWhile_append_of_not_blank h, rdropWhile_append_of_not_blank _ hy] at heq
  have hshort := (List.rdropWhile_prefix blank (xs.dropWhile blank)).length_le
  have hlonger : 0 < (ys.rdropWhile blank).length := by
    rw [List.length_pos_iff, ne_eq, List.rdropWhile_eq_nil_iff]
    exact hy
  have hlength := congrArg List.length heq
  rw [List.length_append] at hlength
  omega

def kept (blank : α → Bool) (xs : List α) : List (List α) :=
  if (strip blank xs).isEmpty then [] else [strip blank xs]

theorem kept_of_not_blank (h : ¬ Blank blank xs) : kept blank xs = [strip blank xs] := by
  rw [kept, if_neg]
  rw [List.isEmpty_iff, strip_eq_nil_iff]
  exact h

end Strip

/-- Reads a text from left to right and knows where a separator counts. -/
structure Scanner (α σ : Type*) where
  start : σ
  next : σ → α → σ
  outside : σ → Bool

namespace Scanner

variable (S : Scanner α σ) (S' : Scanner α τ) (sep : α) (blank : α → Bool)

def run (s : σ) (xs : List α) : σ := xs.foldl S.next s

theorem run_cons (s : σ) (x : α) (xs : List α) : S.run s (x :: xs) = S.run (S.next s x) xs :=
  rfl

theorem run_append (s : σ) (xs ys : List α) : S.run s (xs ++ ys) = S.run (S.run s xs) ys :=
  List.foldl_append

/-- A cut brings the scanner back to its start, and blanks leave it there. -/
structure Resets : Prop where
  start : S.outside S.start = true
  cut : ∀ s, S.outside s = true → S.next s sep = S.start
  idle : ∀ x, blank x = true → S.next S.start x = S.start

def Agree (s : σ) (s' : τ) (xs : List α) : Prop :=
  ∀ before after, xs = before ++ sep :: after →
    S.outside (S.run s before) = S'.outside (S'.run s' before)

section Agreement

variable {S S' sep} {s : σ} {s' : τ} {xs : List α} {x : α}

theorem agree_nil : Agree S S' sep s s' [] := by
  intro before after hxs
  simp at hxs

theorem agree_cons : Agree S S' sep s s' (x :: xs) ↔ (x = sep → S.outside s = S'.outside s') ∧
    Agree S S' sep (S.next s x) (S'.next s' x) xs := by
  constructor
  · intro h
    refine ⟨?_, fun before after hxs ↦ h (x :: before) after (congrArg (x :: ·) hxs)⟩
    rintro rfl
    exact h [] xs rfl
  · intro ⟨hnow, h⟩ before after hxs
    cases before with
    | nil => exact hnow (List.cons.inj hxs).1
    | cons y before =>
      obtain ⟨rfl, htail⟩ := List.cons.inj hxs
      exact h before after htail

theorem agree_append {ys : List α} : Agree S S' sep s s' (xs ++ ys) ↔
    Agree S S' sep s s' xs ∧ Agree S S' sep (S.run s xs) (S'.run s' xs) ys := by
  induction xs generalizing s s' with
  | nil => exact (and_iff_right agree_nil).symm
  | cons x xs ih =>
    rw [List.cons_append, agree_cons, agree_cons, ih, and_assoc]
    rfl

end Agreement

variable [DecidableEq α]

/-- The text is cut at the separators that count. `current` is what the piece has so far. -/
def split (s : σ) (current : List α) : List α → List (List α)
  | [] => [current]
  | x :: xs =>
    if x = sep ∧ S.outside s = true then current :: split (S.next s x) [] xs
    else split (S.next s x) (current ++ [x]) xs

def pieces (s : σ) (current xs : List α) : List (List α) :=
  (S.split sep s current xs).flatMap (kept blank)

variable {S S' sep blank} {s : σ} {s' : τ} {current xs : List α} {x : α}

theorem split_eq_cons (S : Scanner α σ) (sep : α) (s : σ) (current xs : List α) :
    ∃ more later, S.split sep s current xs = (current ++ more) :: later := by
  induction xs generalizing s current with
  | nil => exact ⟨[], [], by rw [split, List.append_nil]⟩
  | cons x xs ih =>
    unfold split
    split_ifs
    · exact ⟨[], _, by rw [List.append_nil]⟩
    · obtain ⟨more, later, h⟩ := ih (S.next s x) (current ++ [x])
      exact ⟨x :: more, later, by rw [h, List.append_assoc, List.singleton_append]⟩

theorem pieces_cut (h : S.outside s = true) : S.pieces sep blank s current (sep :: xs) =
    kept blank current ++ S.pieces sep blank (S.next s sep) [] xs := by
  rw [pieces, split, if_pos ⟨rfl, h⟩, List.flatMap_cons]
  rfl

theorem pieces_uncut (h : x = sep → S.outside s = false) : S.pieces sep blank s current (x :: xs) =
    S.pieces sep blank (S.next s x) (current ++ [x]) xs := by
  rw [pieces, split, if_neg]
  · rfl
  · intro ⟨hx, hout⟩
    cases (h hx).symm.trans hout

theorem pieces_eq_cons (S : Scanner α σ) (sep : α) (h : ¬ Blank blank current) (s : σ)
    (xs : List α) :
    ∃ more later, S.pieces sep blank s current xs = strip blank (current ++ more) :: later := by
  obtain ⟨more, later, hsplit⟩ := S.split_eq_cons sep s current xs
  have hmore : ¬ Blank blank (current ++ more) := fun hblank ↦ h (blank_append.mp hblank).1
  refine ⟨more, later.flatMap (kept blank), ?_⟩
  rw [pieces, hsplit, List.flatMap_cons, kept_of_not_blank hmore, List.singleton_append]

/-- A cut after text that is not blank cannot be made up for. -/
theorem pieces_ne (hsep : blank sep = false) (hcurrent : ¬ Blank blank current)
    (hcut : S.outside s = true) (hgoes : S'.outside s' = false) :
    S.pieces sep blank s current (sep :: xs) ≠ S'.pieces sep blank s' current (sep :: xs) := by
  have hlonger (more : List α) : ¬ Blank blank (sep :: more) := by
    intro h
    cases hsep.symm.trans (h sep List.mem_cons_self)
  have hcurrent' : ¬ Blank blank (current ++ [sep]) := fun h ↦ hcurrent (blank_append.mp h).1
  obtain ⟨more, later, hother⟩ := S'.pieces_eq_cons sep hcurrent' (S'.next s' sep) xs
  rw [pieces_cut hcut, pieces_uncut fun _ ↦ hgoes, hother, kept_of_not_blank hcurrent,
    List.singleton_append, List.append_assoc, List.singleton_append]
  intro heq
  exact strip_ne_strip_append hcurrent (hlonger more) (List.cons.inj heq).1

/-- Two scanners give the same pieces exactly if they cut at the same separators. The induction
carries that both are at their start as long as the piece is blank. -/
theorem pieces_eq_iff (hS : S.Resets sep blank) (hS' : S'.Resets sep blank)
    (hsep : blank sep = false) (hstart : Blank blank current → s = S.start ∧ s' = S'.start) :
    S.pieces sep blank s current xs = S'.pieces sep blank s' current xs ↔
      Agree S S' sep s s' xs := by
  induction xs generalizing s s' current with
  | nil => exact iff_of_true rfl agree_nil
  | cons x xs ih =>
    rcases eq_or_ne x sep with rfl | hne
    · have hcurrent (hdiffer : S.outside s ≠ S'.outside s') : ¬ Blank blank current := by
        intro hblank
        obtain ⟨rfl, rfl⟩ := hstart hblank
        exact hdiffer (hS.start.trans hS'.start.symm)
      rw [agree_cons, forall_prop_of_true rfl]
      cases hout : S.outside s <;> cases hout' : S'.outside s'
      · rw [pieces_uncut fun _ ↦ hout, pieces_uncut fun _ ↦ hout', ih, eq_self_iff_true, true_and]
        intro hblank
        cases hsep.symm.trans (hblank x (by simp))
      · rw [hout, hout'] at hcurrent
        apply iff_of_false (pieces_ne hsep (hcurrent Bool.false_ne_true) hout' hout).symm
        exact fun h ↦ Bool.false_ne_true h.1
      · rw [hout, hout'] at hcurrent
        apply iff_of_false (pieces_ne hsep (hcurrent Bool.false_ne_true.symm) hout hout')
        exact fun h ↦ Bool.false_ne_true h.1.symm
      · rw [pieces_cut hout, pieces_cut hout', List.append_right_inj, ih, eq_self_iff_true,
          true_and]
        intro _
        exact ⟨hS.cut s hout, hS'.cut s' hout'⟩
    · rw [pieces_uncut fun h ↦ absurd h hne, pieces_uncut fun h ↦ absurd h hne,
        agree_cons, and_iff_right fun h ↦ absurd h hne]
      apply ih
      intro hblank
      obtain ⟨hcurrent, hx⟩ := blank_append.mp hblank
      obtain ⟨rfl, rfl⟩ := hstart hcurrent
      exact ⟨hS.idle x (hx x (by simp)), hS'.idle x (hx x (by simp))⟩

end Scanner

end RsqliteRsync.Foundation.Splitting
