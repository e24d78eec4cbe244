import RsqliteRsync.Foundation.Chunks
import RsqliteRsync.Protocol.Messages

namespace RsqliteRsync.Protocol

def GROUP_SIZE : ℕ := 64

inductive HashAlgorithm
  | sha256V1
  | blake3V2
  deriving DecidableEq, Repr

def HashAlgorithm.fromProtocolVersion : ℕ → Option HashAlgorithm
  | 1 => some .sha256V1
  | 2 => some .blake3V2
  | _ => none

/-- The crates the handlers call. The digests of `sha2` and `blake3` are left open. Collecting
an indexed parallel iterator of `rayon` keeps the order of the items, installing a closure in
a pool runs it, and building a pool may fail. -/
structure Crates where
  digest : HashAlgorithm → List UInt8 → PageHash
  parMap : {α β : Type} → (α → Res β) → List α → Res (List β)
  parMap_eq : ∀ {α β : Type} (f : α → Res β) (l : List α), parMap f l = l.mapM f
  parFilterMap : {α β : Type} → (α → Res (Option β)) → List α → Res (List β)
  parFilterMap_eq : ∀ {α β : Type} (f : α → Res (Option β)) (l : List α),
    parFilterMap f l = l.filterMapM f
  buildPool : ℕ → Bool
  install : {α : Type} → (Unit → Res α) → Res α
  install_eq : ∀ {α : Type} (f : Unit → Res α), install f = f ()

def hashPageFor (lib : Crates) (data : List UInt8) (algorithm : HashAlgorithm) : PageHash :=
  lib.digest algorithm data

def hashGroupFor (lib : Crates) (hashes : List PageHash) (algorithm : HashAlgorithm) : PageHash :=
  lib.digest algorithm (hashes.flatMap (·.toList))

structure SyncTuning where
  maxHashThreads : Option ℕ := none
  parallelMinPages : ℕ := 4096
  hashChunkGroups : ℕ := 16

def SyncTuning.shouldParallelize (tuning : SyncTuning) (pages : ℕ) : Bool :=
  decide (tuning.parallelMinPages ≤ pages)

section Tuning

variable (lib : Crates) {α : Type}

def withConfiguredPool (tuning : SyncTuning) (f : Unit → Res α) : Res α :=
  match tuning.maxHashThreads with
  | some threads => if 0 < threads ∧ lib.buildPool threads then lib.install f else f ()
  | none => f ()

def computeWithParallelism (tuning : SyncTuning) (itemCount : ℕ)
    (parallelFn serialFn : Unit → Res (List α)) : Res (List α) :=
  if tuning.shouldParallelize itemCount then withConfiguredPool lib tuning parallelFn
  else serialFn ()

theorem withConfiguredPool_eq (tuning : SyncTuning) (f : Unit → Res α) :
    withConfiguredPool lib tuning f = f () := by
  unfold withConfiguredPool
  split
  · split
    · exact lib.install_eq f
    · rfl
  · rfl

theorem computeWithParallelism_eq (tuning : SyncTuning) (itemCount : ℕ)
    {parallelFn serialFn : Unit → Res (List α)} (h : parallelFn () = serialFn ()) :
    computeWithParallelism lib tuning itemCount parallelFn serialFn = serialFn () := by
  unfold computeWithParallelism
  split
  · rw [withConfiguredPool_eq, h]
  · rfl

end Tuning

section Groups

def firstPageOf (groupIdx : ℕ) : Res ℕ := do
  let start ← mulU32 groupIdx GROUP_SIZE
  addU32 start 1

def groupEnd (groupIdx : ℕ) : Res ℕ := do
  let next ← addU32 groupIdx 1
  mulU32 next GROUP_SIZE

def lastPageOf (groupIdx pageCount : ℕ) : Res ℕ := do
  let last ← groupEnd groupIdx
  pure (min last pageCount)

def groupCount (pageCount : ℕ) : ℕ := (pageCount + (GROUP_SIZE - 1)) / GROUP_SIZE

theorem firstPageOf_eq {g : ℕ} (h : (g + 1) * 64 < u32Bound) :
    firstPageOf g = pure (g * 64 + 1) := by
  have h₁ : g * 64 < u32Bound := by omega
  simp only [firstPageOf, GROUP_SIZE, mulU32_of_lt h₁, pure_bind]
  exact addU32_of_lt (by omega)

theorem groupEnd_eq {g : ℕ} (h : (g + 1) * 64 < u32Bound) :
    groupEnd g = pure ((g + 1) * 64) := by
  have h₁ : g + 1 < u32Bound := by omega
  simp only [groupEnd, GROUP_SIZE, addU32_of_lt h₁, pure_bind]
  exact mulU32_of_lt h

theorem lastPageOf_eq {g : ℕ} (n : ℕ) (h : (g + 1) * 64 < u32Bound) :
    lastPageOf g n = pure (min ((g + 1) * 64) n) := by
  simp only [lastPageOf, groupEnd_eq h, pure_bind]

theorem lastPageOf_panics {g : ℕ} (n : ℕ) (h : u32Bound ≤ (g + 1) * 64) :
    lastPageOf g n = panic := by
  have hend : groupEnd g = panic := by
    by_cases h' : g + 1 < u32Bound
    · rw [groupEnd, addU32_of_lt h', pure_bind, GROUP_SIZE, mulU32, if_neg (not_lt.mpr h)]
    · rw [groupEnd, addU32, if_neg h']
      rfl
  rw [lastPageOf, hend]
  rfl

theorem firstPageOf_cases (g : ℕ) : firstPageOf g = panic ∨ ∃ p, firstPageOf g = pure p := by
  unfold firstPageOf mulU32
  split
  · rw [pure_bind, addU32]
    split
    · exact .inr ⟨_, rfl⟩
    · exact .inl rfl
  · exact .inl rfl

theorem lt_groupCount_iff {g n : ℕ} : g < groupCount n ↔ g * 64 < n := by
  simp only [groupCount, GROUP_SIZE]
  omega

end Groups

end RsqliteRsync.Protocol
