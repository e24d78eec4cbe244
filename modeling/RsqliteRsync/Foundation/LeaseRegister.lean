import Mathlib.Order.Basic
import Mathlib.Tactic

namespace RsqliteRsync.Foundation.LeaseRegister

variable {ν τ : Type*} [LinearOrder τ] {now now' : τ}

structure Grant (ν τ : Type*) where
  holder : ν
  expiry : τ

variable {r r' : Option (Grant ν τ)} {g g' : Grant ν τ}

/-- The register passes on or empties only after its grant has run out, and its holder never
shortens it. -/
inductive Moves (now : τ) : Option (Grant ν τ) → Option (Grant ν τ) → Prop
  | acquire (g : Grant ν τ) : Moves now none (some g)
  | renew {g g' : Grant ν τ} : g'.holder = g.holder → g.expiry ≤ g'.expiry →
      Moves now (some g) (some g')
  | expire {g : Grant ν τ} (r : Option (Grant ν τ)) : g.expiry < now → Moves now (some g) r

/-- A grant that was once read: its holder has the register for at least as long, or it has run
out. -/
def Vouched (now : τ) (r : Option (Grant ν τ)) (g : Grant ν τ) : Prop :=
  (∃ g', r = some g' ∧ g'.holder = g.holder ∧ g.expiry ≤ g'.expiry) ∨ g.expiry < now

theorem Vouched.self (now : τ) (g : Grant ν τ) : Vouched now (some g) g :=
  .inl ⟨g, rfl, rfl, le_rfl⟩

theorem Vouched.later (h : Vouched now r g) (hle : now ≤ now') : Vouched now' r g := by
  rcases h with hheld | hout
  · exact .inl hheld
  · exact .inr (hout.trans_le hle)

theorem Vouched.moves (h : Vouched now r g) (hm : Moves now r r') : Vouched now r' g := by
  rcases h with ⟨g₁, rfl, hholder, hle⟩ | hout
  · cases hm with
    | renew hsame hlonger => exact .inl ⟨_, rfl, hsame.trans hholder, hle.trans hlonger⟩
    | expire r hout => exact .inr (hle.trans_lt hout)
  · exact .inr hout

/-- Two grants that have not run out have the same holder, whenever they were read. -/
theorem Vouched.holder_eq (h : Vouched now r g) (h' : Vouched now r g') (hg : now ≤ g.expiry)
    (hg' : now ≤ g'.expiry) : g.holder = g'.holder := by
  obtain ⟨g₁, hr, hholder, -⟩ := h.resolve_right hg.not_gt
  obtain ⟨g₂, hr', hholder', -⟩ := h'.resolve_right hg'.not_gt
  cases hr.symm.trans hr'
  exact hholder.symm.trans hholder'

end RsqliteRsync.Foundation.LeaseRegister
