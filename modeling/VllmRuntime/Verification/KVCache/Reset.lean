import VllmRuntime.Verification.KVCache.RefCounts
import VllmRuntime.Shared.Runs

/-! # Resetting the prefix cache

The cache is reset when the null block is the only one in use. Freed requests hold nothing, so this
is so once all requests are freed, unless blocks are reserved as attention sinks. -/

namespace VllmRuntime

open List

variable {kv : KVCacheManager} {s : KVCacheRun} {pool : BlockPool} {enableCaching : Bool}
  {dcpWorldSize pcpWorldSize : ℕ} {pool' : BlockPool} {reserved : List BlockRef}

open BlockHash SingleTypeKVCacheManager

/-! ## Who holds blocks -/

namespace SingleTypeKVCacheManager

variable {m m' : SingleTypeKVCacheManager} {r : RequestId} {pool pool' : BlockPool}
  {live : Finset RequestId} {r' : RequestId} {numTokens total : ℕ} {hits : List BlockRef} {main : ℕ}

/-- Only the requests in `live` have blocks in `m`. -/
def HoldsOnly (live : Finset RequestId) (m : SingleTypeKVCacheManager) : Prop :=
  ∀ r, r ∉ live → m.blocksOf r = []

lemma HoldsOnly.grow (h : HoldsOnly live m) (hchanges : Changes m m' r) : HoldsOnly (insert r live) m' := by
  intro r' hr'
  rw [Finset.mem_insert, not_or] at hr'
  rw [hchanges.blocksOf r' hr'.1]
  exact h r' hr'.2

/-- The table has not become longer. -/
lemma HoldsOnly.of_length (h : HoldsOnly live m) (hchanges : Changes m m' r)
    (hlength : (m'.blocksOf r).length = (m.blocksOf r).length) : HoldsOnly live m' := by
  intro r' hr'
  by_cases hr : r' = r
  · subst hr
    rw [← length_eq_zero_iff, hlength, h r' hr']
    rfl
  · rw [hchanges.blocksOf r' hr, h r' hr']

lemma HoldsOnly.getNumBlocksToAllocate {num : ℤ} (hlive : HoldsOnly live m)
    (h : m.getNumBlocksToAllocate pool r numTokens hits total main = .ok (num, m')) : HoldsOnly live m' := by
  rcases getNumBlocksToAllocate_eq h with rfl | rfl
  · exact hlive
  · exact hlive.of_length (changes_setBlocks m r _) (by rw [blocksOf_setBlocks])

lemma allocateNewComputedBlocks_changes {numLocal numExternal : ℕ}
    (h : m.allocateNewComputedBlocks pool r hits numLocal numExternal = .ok (m', pool')) : Changes m m' r := by
  obtain ⟨rfl, -⟩ | ⟨_, _, hgives⟩ := allocateNewComputedBlocks_eq_ok h
  · exact Changes.refl _ r
  · exact hgives.changes

lemma HoldsOnly.removeSkippedBlocks (hlive : HoldsOnly live m)
    (h : m.removeSkippedBlocks pool r total = .ok (m', pool')) : HoldsOnly live m' := by
  obtain ⟨m₁, pool₁, removed, removed', hskips, hskips'⟩ := removeSkippedBlocks_eq_ok h
  exact (hlive.of_length hskips.changes hskips.blanked.length).of_length hskips'.changes hskips'.blanked.length

/-- A freed request has no blocks. -/
lemma HoldsOnly.free (hlive : HoldsOnly live m) (h : m.free pool r = .ok (m', pool')) :
    HoldsOnly (live.erase r) m' := by
  obtain ⟨-, hchanges, hnone, -⟩ := free_eq_ok h
  intro r' hr'
  by_cases hr : r' = r
  · exact hr ▸ hnone
  · rw [hchanges.blocksOf r' hr]
    exact hlive r' fun hmem => hr' (Finset.mem_erase.mpr ⟨hr, hmem⟩)

end SingleTypeKVCacheManager

namespace KVCacheCoordinator

variable {c c' : KVCacheCoordinator} {r : RequestId} {live live' : Finset RequestId} {numTokens : ℕ}
  {α : Type} {hits : List (List BlockRef)} {numEncoderTokens main : ℕ}
  {f : ℕ → SingleTypeKVCacheManager → BlockPool → Except PyError (α × SingleTypeKVCacheManager × BlockPool)}
  {as : List α}

/-- Only the requests in `live` have blocks. -/
def HoldsOnly (live : Finset RequestId) (c : KVCacheCoordinator) : Prop :=
  ∀ m ∈ c.singleTypeManagers, SingleTypeKVCacheManager.HoldsOnly live m

section

variable (h : c.HoldsOnly live)
include h

lemma HoldsOnly.overManagers
    (hf : ∀ {i m pool a m' pool'}, m.HoldsOnly live → f i m pool = .ok (a, m', pool') → m'.HoldsOnly live')
    (hrun : c.overManagers f = .ok (as, c')) : c'.HoldsOnly live' := by
  obtain ⟨-, hall⟩ := overManagers_keeps (fun _ => True) (fun _ m' => m'.HoldsOnly live')
    (fun _ m _ _ _ _ hm _ hround => ⟨trivial, hf (h m hm) hround⟩) trivial hrun
  exact forall_of_forall₂ hall

lemma HoldsOnly.removeSkippedBlocks {n : ℕ} (hrun : c.removeSkippedBlocks r n = .ok c') :
    c'.HoldsOnly live := by
  obtain ⟨⟨as, c₁⟩, hloop, hret⟩ := bind_eq_ok hrun
  cases hret
  exact h.overManagers (fun hm hround => hm.removeSkippedBlocks (round_eq_ok hround)) hloop

lemma HoldsOnly.getNumBlocksToAllocate {total : ℕ} {num : ℤ}
    (hrun : c.getNumBlocksToAllocate r numTokens hits numEncoderTokens total main = .ok (num, c')) :
    c'.HoldsOnly live := by
  obtain ⟨⟨nums, c₁⟩, hloop, hret⟩ := bind_eq_ok hrun
  cases hret
  refine h.overManagers (fun hm hround => ?_) hloop
  obtain ⟨⟨num₁, m₁⟩, hest, hret⟩ := bind_eq_ok hround
  obtain ⟨-, hrest⟩ := ok_pair_inj hret
  cases hrest
  unfold SingleTypeKVCacheManager.estimate at hest
  split at hest
  · exact hm.getNumBlocksToAllocate hest
  · exact hm.getNumBlocksToAllocate hest

lemma HoldsOnly.allocateNewComputedBlocks {numLocal numExternal : ℕ}
    (hrun : c.allocateNewComputedBlocks r hits numLocal numExternal = .ok c') :
    c'.HoldsOnly (insert r live) := by
  obtain ⟨⟨as, c₁⟩, hloop, hret⟩ := bind_eq_ok hrun
  cases hret
  exact h.overManagers (fun hm hround => hm.grow (allocateNewComputedBlocks_changes (round_eq_ok hround))) hloop

lemma HoldsOnly.allocateNewBlocks {newBlocks : List (List BlockRef)}
    (hrun : c.allocateNewBlocks r numTokens main numEncoderTokens = .ok (newBlocks, c')) :
    c'.HoldsOnly (insert r live) :=
  h.overManagers (fun hm hround => hm.grow (allocateNewBlocks_eq_ok hround).1) hrun

lemma HoldsOnly.cacheBlocks {request : Request}
    (hrun : c.cacheBlocks request numTokens = .ok c') : c'.HoldsOnly live := by
  obtain ⟨⟨as, c₁⟩, hloop, hret⟩ := bind_eq_ok hrun
  cases hret
  refine h.overManagers (fun hm hround => ?_) hloop
  obtain ⟨⟨hchanges, hblocks, -⟩, -⟩ := cacheBlocks_eq_ok (round_eq_ok hround)
  exact hm.of_length hchanges (by rw [hblocks])

lemma HoldsOnly.free (hrun : c.free r = .ok c') : c'.HoldsOnly (live.erase r) := by
  obtain ⟨⟨as, c₁⟩, hloop, hret⟩ := bind_eq_ok hrun
  cases hret
  exact h.overManagers (fun hm hround => hm.free (round_eq_ok hround)) hloop

lemma HoldsOnly.mono (hsub : live ⊆ live') : c.HoldsOnly live' :=
  fun m hm r hr => h m hm r fun hmem => hr (hsub hmem)

end

end KVCacheCoordinator

open KVCacheManager

lemma KVCacheManager.allocateSlots_holdsOnly {kv' : KVCacheManager} {live : Finset RequestId}
    {request : Request} {hits : List (List BlockRef)} {args : AllocateArgs}
    {result : Option (List (List BlockRef))} (h : kv.coordinator.HoldsOnly live)
    (hrun : kv.allocateSlots request hits args = .ok (result, kv')) :
    kv'.coordinator.HoldsOnly (insert request.requestId live) := by
  have hgrow := Finset.subset_insert request.requestId live
  obtain ⟨-, num, c₁, hprep, hcases⟩ := allocateSlots_eq_ok hrun
  have h₁ : c₁.HoldsOnly live := by
    obtain ⟨c₀, hskip, hnum⟩ := bind_eq_ok hprep
    exact (h.removeSkippedBlocks hskip).getNumBlocksToAllocate hnum
  obtain ⟨-, rfl⟩ | ⟨-, newBlocks, c₂, c₃, htake, hcommit, -, rfl⟩ := hcases
  · exact h₁.mono hgrow
  · obtain ⟨c₀, hadd, hnew⟩ := bind_eq_ok htake
    have h₀ : c₀.HoldsOnly (insert request.requestId live) := by
      unfold KVCacheManager.addComputedBlocks at hadd
      split at hadd
      · exact h₁.allocateNewComputedBlocks hadd
      · cases hadd
        exact h₁.mono hgrow
    have h₂ : c₂.HoldsOnly (insert request.requestId live) := by
      have h₂ := h₀.allocateNewBlocks hnew
      rwa [Finset.insert_idem] at h₂
    unfold commitBlocks at hcommit
    split at hcommit
    · cases hcommit
      exact h₂
    · exact h₂.cacheBlocks hcommit

/-! ## Freed requests -/

/-- A manager with the requests that it has allocated and not freed since. -/
structure KVCacheRun where
  kv : KVCacheManager
  unfreed : Finset RequestId

/-- The requests that are not freed after a call. -/
def KVCacheCall.unfreed (unfreed : Finset RequestId) : KVCacheCall → Finset RequestId
  | allocateNew request _ => insert request.requestId unfreed
  | allocateRunning request _ => insert request.requestId unfreed
  | free request => unfreed.erase request.requestId
  | _ => unfreed

def KVCacheRun.call (call : KVCacheCall) (s : KVCacheRun) : Except PyError KVCacheRun := do
  let kv ← call.run s.kv
  return { kv, unfreed := call.unfreed s.unfreed }

lemma KVCacheRun.call_holdsOnly {call : KVCacheCall} {s' : KVCacheRun}
    (h : s.kv.coordinator.HoldsOnly s.unfreed) (hcall : s.call call = .ok s') :
    s'.kv.coordinator.HoldsOnly s'.unfreed := by
  obtain ⟨kv', hrun, rfl⟩ := map_eq_ok hcall
  cases call with
  | allocateNew request args =>
    obtain ⟨⟨hits, n⟩, -, hrun⟩ := bind_eq_ok hrun
    obtain ⟨⟨result, kv₁⟩, hslots, hret⟩ := bind_eq_ok hrun
    cases hret
    exact allocateSlots_holdsOnly h hslots
  | allocateRunning request args =>
    obtain ⟨⟨result, kv₁⟩, hslots, hret⟩ := bind_eq_ok hrun
    cases hret
    exact allocateSlots_holdsOnly h hslots
  | cacheBlocks request numComputedTokens =>
    change s.kv.cacheBlocks request numComputedTokens = .ok kv' at hrun
    unfold KVCacheManager.cacheBlocks at hrun
    split at hrun
    · obtain ⟨c, hcache, rfl⟩ := map_eq_ok hrun
      exact h.cacheBlocks hcache
    · cases hrun
      exact h
  | removeSkippedBlocks requestId totalComputedTokens =>
    obtain ⟨c, hskip, rfl⟩ := map_eq_ok hrun
    exact h.removeSkippedBlocks hskip
  | free request =>
    obtain ⟨c, hfree, rfl⟩ := map_eq_ok hrun
    exact h.free hfree
  | evictBlocks blockIds =>
    obtain ⟨pool, -, rfl⟩ := map_eq_ok hrun
    exact h
  | resetPrefixCache =>
    cases hrun
    exact h

/-! ## Sinks -/

lemma SingleTypeKVCacheManager.new_numFreeBlocks {spec : KVCacheSpec} {kvCacheGroupId : ℕ}
    {m : SingleTypeKVCacheManager}
    (h : SingleTypeKVCacheManager.new spec pool enableCaching kvCacheGroupId dcpWorldSize pcpWorldSize =
      .ok (m, pool')) :
    pool'.getNumFreeBlocks ≤ pool.getNumFreeBlocks ∧
      (spec.isSinkFullAttention = true → pool'.getNumFreeBlocks < pool.getNumFreeBlocks) := by
  unfold SingleTypeKVCacheManager.new at h
  split at h
  · dsimp only at h
    split at h
    · cases h
    · rename_i sinkLen
      obtain ⟨_, hassert, h⟩ := bind_eq_ok h
      obtain ⟨⟨sinks, queue⟩, hpop, hret⟩ := bind_eq_ok h
      cases hret
      obtain ⟨hpos, hmod⟩ := of_decide_eq_true (pyAssert_eq_ok.mp hassert)
      -- A positive multiple of the block size is at least one block.
      have hdiv := Nat.div_pos (Nat.le_of_dvd hpos (Nat.dvd_of_mod_eq_zero hmod))
        (Nat.pos_of_dvd_of_pos (Nat.dvd_of_mod_eq_zero hmod) hpos)
      have hcount : queue.numFreeBlocks < pool.freeBlockQueue.numFreeBlocks := by
        unfold FreeKVCacheBlockQueue.popleftN at hpop
        rw [if_neg (by omega)] at hpop
        obtain ⟨_, -, hpop⟩ := bind_eq_ok hpop
        obtain ⟨⟨popped, curr, links⟩, -, hret⟩ := bind_eq_ok hpop
        cases hret
        change pool.freeBlockQueue.numFreeBlocks - _ < _
        omega
      exact ⟨hcount.le, fun _ => hcount⟩
  · rename_i hnot
    cases h
    refine ⟨le_rfl, fun hsink => ?_⟩
    cases spec with
    | sinkFullAttention attention sinkLen => exact absurd rfl (hnot attention sinkLen)
    | _ => cases hsink

lemma newManagers_numFreeBlocks {i : ℕ} {specs : List KVCacheSpec} {ms : List SingleTypeKVCacheManager}
    (h : newManagers enableCaching dcpWorldSize pcpWorldSize i specs pool = .ok (ms, pool')) :
    pool'.getNumFreeBlocks ≤ pool.getNumFreeBlocks ∧
      ((∃ spec ∈ specs, spec.isSinkFullAttention = true) → pool'.getNumFreeBlocks < pool.getNumFreeBlocks) := by
  induction specs generalizing i pool ms with
  | nil =>
    cases h
    simp
  | cons spec specs ih =>
    rw [newManagers] at h
    obtain ⟨⟨m, pool₁⟩, hm, h⟩ := bind_eq_ok h
    obtain ⟨⟨ms₁, pool₂⟩, hrest, hret⟩ := bind_eq_ok h
    cases hret
    obtain ⟨hle, hlt⟩ := SingleTypeKVCacheManager.new_numFreeBlocks hm
    obtain ⟨hle', hlt'⟩ := ih hrest
    refine ⟨hle'.trans hle, ?_⟩
    rintro ⟨s, hs, hsink⟩
    rcases List.mem_cons.mp hs with rfl | hs
    · exact hle'.trans_lt (hlt hsink)
    · exact (hlt' ⟨s, hs, hsink⟩).trans_le hle

/-- At the start no request holds a block, and with sinks more than the null block is in use. -/
lemma KVCacheManager.new_unheld {config : KVCacheConfig} {maxModelLen hashBlockSize : ℕ}
    {useEagle enableKvCacheEvents useIntBlockHashes : Bool}
    (h : KVCacheManager.new config maxModelLen hashBlockSize enableCaching useEagle enableKvCacheEvents
      useIntBlockHashes dcpWorldSize pcpWorldSize = .ok kv) :
    kv.coordinator.HoldsOnly ∅ ∧ ((∃ spec ∈ config.kvCacheGroups, spec.isSinkFullAttention = true) →
      (kv.blockPool.numGpuBlocks : ℤ) - kv.blockPool.getNumFreeBlocks ≠ 1) := by
  obtain ⟨c, hc, rfl⟩ := map_eq_ok h
  obtain ⟨pool₀, hpool, hc⟩ := bind_eq_ok hc
  obtain ⟨⟨ms, pool⟩, hms, hc⟩ := bind_eq_ok hc
  obtain ⟨kind, -, rfl⟩ := map_eq_ok hc
  obtain ⟨hunused, -, -⟩ := BlockPool.new_unused hpool
  obtain ⟨-, hsame, hall, -⟩ := newManagers_unused hunused hms
  refine ⟨?_, fun hsink => ?_⟩
  · intro m hm r _
    obtain ⟨j, hj⟩ := getElem?_of_mem hm
    exact (hall j m hj).1.blocksOf r
  · obtain ⟨l, hfree⟩ := hunused.free
    have hused := (hfree.numUsed_eq_one_iff hunused.null.1).mpr
      fun b _ _ => ⟨not_mem_nil, hunused.refCnt b⟩
    have hlt := (newManagers_numFreeBlocks hms).2 hsink
    change (pool.numGpuBlocks : ℤ) - pool.getNumFreeBlocks ≠ 1
    rw [hsame.numGpuBlocks]
    omega

/-! ## Resetting -/

/-- The cache is reset and nothing is cached any more. -/
structure KVCacheManager.Resets (kv : KVCacheManager) : Prop where
  success : kv.resetPrefixCache.1 = true
  cache : kv.resetPrefixCache.2.blockPool.cachedBlockHashToBlock = ∅
  blockHash : ∀ b, kv.blockPool.IsBlock b → kv.resetPrefixCache.2.blockPool.blockHash b = none

lemma BlockPool.resetPrefixCache_of_ne (h : (pool.numGpuBlocks : ℤ) - pool.getNumFreeBlocks ≠ 1) :
    pool.resetPrefixCache = (false, pool) := by
  unfold BlockPool.resetPrefixCache
  exact if_pos h

lemma BlockPool.resetPrefixCache_of_eq (h : (pool.numGpuBlocks : ℤ) - pool.getNumFreeBlocks = 1) :
    pool.resetPrefixCache.1 = true ∧ pool.resetPrefixCache.2.cachedBlockHashToBlock = ∅ ∧
      ∀ b, pool.IsBlock b → pool.resetPrefixCache.2.blockHash b = none := by
  unfold BlockPool.resetPrefixCache
  dsimp only
  rw [if_neg (not_not.mpr h)]
  split
  · exact ⟨rfl, rfl, fun b hb => by simp [BlockPool.blockHash, hb]⟩
  · exact ⟨rfl, rfl, fun b hb => by simp [BlockPool.blockHash, hb]⟩

lemma KVCacheManager.resets_iff :
    kv.Resets ↔ (kv.blockPool.numGpuBlocks : ℤ) - kv.blockPool.getNumFreeBlocks = 1 := by
  constructor
  · intro h
    by_contra hne
    have hsuccess := h.success
    unfold KVCacheManager.resetPrefixCache at hsuccess
    rw [BlockPool.resetPrefixCache_of_ne hne] at hsuccess
    cases hsuccess
  · intro h
    obtain ⟨hsuccess, hcache, hhash⟩ := BlockPool.resetPrefixCache_of_eq h
    exact ⟨hsuccess, hcache, hhash⟩

lemma KVCacheManager.resetPrefixCache_of_held {tracked : Prop}
    (hinv : kv.coordinator.Invariant tracked reserved 0)
    (hheld : ∃ m ∈ kv.coordinator.singleTypeManagers, ∃ r, ∃ b ∈ m.blocksOf r, b ≠ kv.blockPool.nullBlock) :
    kv.resetPrefixCache = (false, kv) := by
  obtain ⟨m, hm, r, b, hb, hne⟩ := hheld
  obtain ⟨l, hfree⟩ := hinv.cache.free
  have hused : (kv.blockPool.numGpuBlocks : ℤ) - kv.blockPool.getNumFreeBlocks ≠ 1 := by
    intro hused
    have hzero := ((hfree.numUsed_eq_one_iff hinv.cache.null.1).mp hused b (hinv.cache.real m hm r b hb).1 hne).2
    rw [hinv.cache.refCnt b hne] at hzero
    have hpos := numPositions_pos hm hb
    omega
  unfold KVCacheManager.resetPrefixCache
  rw [BlockPool.resetPrefixCache_of_ne hused]
  rfl

/-- The calls of `resetPrefixCache_iff`: requests carry their hashes, and no group has more hits than the
computed tokens have blocks when external tokens need blocks. -/
def KVCacheRun.Counted (hashFunction : HashInput → BlockHash) (noneHash : BlockHash) (s : KVCacheRun)
    (call : KVCacheCall) : Prop :=
  call.Hashed hashFunction noneHash ∧ call.HitsCovered s.kv

lemma KVCacheRun.inv_of_reaches {hashFunction : HashInput → BlockHash} {noneHash : BlockHash}
    {start : KVCacheManager} (hfree : CollisionFree hashFunction noneHash)
    (hinv : start.coordinator.Invariant False reserved 0) (hlen : 0 < start.coordinator.maxModelLen)
    (hnone : start.coordinator.HoldsOnly ∅)
    (h : Reaches KVCacheRun.call (KVCacheRun.Counted hashFunction noneHash) ⟨start, ∅⟩ s) :
    s.kv.coordinator.Invariant False reserved 0 ∧ s.kv.coordinator.HoldsOnly s.unfreed ∧
      KVCacheCoordinator.SameSetUp start.coordinator s.kv.coordinator := by
  refine h.invariant (P := fun s => s.kv.coordinator.Invariant False reserved 0 ∧
    s.kv.coordinator.HoldsOnly s.unfreed ∧ KVCacheCoordinator.SameSetUp start.coordinator s.kv.coordinator)
    ⟨hinv, hnone, KVCacheCoordinator.SameSetUp.refl _⟩ ?_
  rintro s call s' ⟨hinv, hholds, hsame⟩ ⟨hhashed, hcovered⟩ hcall
  have hholds' := KVCacheRun.call_holdsOnly hholds hcall
  obtain ⟨kv', hrun, rfl⟩ := map_eq_ok hcall
  obtain ⟨hinv', hsame'⟩ := KVCacheCall.run_inv hinv (hsame.maxModelLen ▸ hlen) hfree hhashed hcovered
    False.elim hrun
  exact ⟨hinv', hholds', hsame.trans hsame'⟩

/-- The cache can be reset when all requests are freed, and only when none holds a block: so it is in every
state of a run, unless there are sinks. -/
theorem resetPrefixCache_iff {hashFunction : HashInput → BlockHash} {noneHash : BlockHash}
    (hfree : CollisionFree hashFunction noneHash) {config : KVCacheConfig} {maxModelLen hashBlockSize : ℕ}
    {enableCaching useEagle enableKvCacheEvents useIntBlockHashes : Bool} {dcpWorldSize pcpWorldSize : ℕ}
    {start : KVCacheManager} {s : KVCacheRun}
    (hconfig : ValidConfig config maxModelLen dcpWorldSize pcpWorldSize)
    (hnew : KVCacheManager.new config maxModelLen hashBlockSize enableCaching useEagle enableKvCacheEvents
      useIntBlockHashes dcpWorldSize pcpWorldSize = .ok start)
    (hrun : Reaches KVCacheRun.call (KVCacheRun.Counted hashFunction noneHash) ⟨start, ∅⟩ s) :
    (s.unfreed = ∅ → s.kv.Resets) ∧
        ((∃ m ∈ s.kv.coordinator.singleTypeManagers, ∃ r, ∃ b ∈ m.blocksOf r, b ≠ s.kv.blockPool.nullBlock) →
          s.kv.resetPrefixCache = (false, s.kv)) ↔
      (∀ spec ∈ config.kvCacheGroups, spec.isSinkFullAttention = false) ∨ s.unfreed ≠ ∅ := by
  obtain ⟨reserved, hstart, hreserved, hlen, -⟩ := KVCacheManager.new_inv hconfig (fun h : False => h.elim) hnew
  obtain ⟨hnone, hsinks⟩ := KVCacheManager.new_unheld hnew
  obtain ⟨hinv, hholds, hsame⟩ := KVCacheRun.inv_of_reaches hfree hstart (hlen ▸ hconfig.maxModelLen) hnone hrun
  have hheld := KVCacheManager.resetPrefixCache_of_held hinv
  obtain ⟨l, hlist⟩ := hinv.cache.free
  have hused := hlist.numUsed_eq_one_iff hinv.cache.null.1
  constructor
  · rintro ⟨hresets, -⟩
    by_contra hcontra
    rw [not_or, not_not] at hcontra
    obtain ⟨hsink, hempty⟩ := hcontra
    -- The blocks that are reserved now were reserved at the start.
    have hout := hused.mp (KVCacheManager.resets_iff.mp (hresets hempty))
    obtain ⟨l₀, hlist₀⟩ := hstart.cache.free
    refine hsinks (by simpa using hsink) ((hlist₀.numUsed_eq_one_iff hstart.cache.null.1).mpr fun b hb hne => ?_)
    refine ⟨(hout b ((hsame.pool.isBlock_iff b).mpr hb) (hsame.pool.nullBlock.symm ▸ hne)).1, ?_⟩
    rw [hstart.cache.refCnt b hne, numPositions_eq_zero fun m hm r hmem => ?_]
    · rfl
    · rw [hnone m hm r (Finset.notMem_empty r)] at hmem
      exact not_mem_nil hmem
  · intro hcond
    refine ⟨fun hempty => KVCacheManager.resets_iff.mpr (hused.mpr fun b hb hne => ?_), hheld⟩
    have hnosinks := hcond.resolve_right (not_not.mpr hempty)
    rw [hreserved hnosinks]
    refine ⟨not_mem_nil, ?_⟩
    rw [hinv.cache.refCnt b hne, numPositions_eq_zero fun m hm r hmem => ?_]
    · rfl
    · rw [hholds m hm r (by simp [hempty])] at hmem
      exact not_mem_nil hmem

/-- A manager before any call. -/
def KVCacheRun.of (manager : Except PyError KVCacheManager) : Except PyError KVCacheRun :=
  manager.map fun kv => ⟨kv, ∅⟩

lemma KVCacheRun.of_eq_ok {manager : Except PyError KVCacheManager} (h : KVCacheRun.of manager = .ok s) :
    ∃ start, manager = .ok start ∧ s = ⟨start, ∅⟩ := by
  cases manager with
  | error e => cases h
  | ok start => exact ⟨start, rfl, (Except.ok.inj h).symm⟩

lemma reaches_counted {manager : Except PyError KVCacheManager} {β : Type} {f : KVCacheRun × KVCacheRun → β}
    {values : β} {calls : List KVCacheCall} (hcalls : calls ⊆ fillCalls)
    (h : (runCheckedFrom (KVCacheRun.of manager) KVCacheRun.call
      (fun s call => decide (call.HitsCovered s.kv)) calls).map f = some values) :
    ∃ start s, manager = .ok start ∧
      Reaches KVCacheRun.call (KVCacheRun.Counted serialize serializeSeed) ⟨start, ∅⟩ s ∧
      f (⟨start, ∅⟩, s) = values := by
  obtain ⟨s₀, s, hof, hreach, hvals⟩ := reaches_of_map_runCheckedFrom (fun s call hcall hcheck =>
    And.intro (loadCalls_hashed call (mem_append_left _ (hcalls hcall))) (of_decide_eq_true hcheck)) h
  obtain ⟨start, hstart, rfl⟩ := KVCacheRun.of_eq_ok hof
  exact ⟨start, s, hstart, hreach, hvals⟩

/-- All requests of `fillCalls` are freed in the end. -/
theorem resetPrefixCache_windowConfig :
    ∃ start s, windowManager = .ok start ∧
      Reaches KVCacheRun.call (KVCacheRun.Counted serialize serializeSeed) ⟨start, ∅⟩ s ∧
      s.unfreed = ∅ ∧ s.kv.blockPool.cachedBlockHashToBlock.keys.length = 6 ∧ s.kv.Resets := by
  have heval : (runCheckedFrom (KVCacheRun.of windowManager) KVCacheRun.call
      (fun s call => decide (call.HitsCovered s.kv)) fillCalls).map
      (fun p => (p.2.unfreed, p.2.kv.blockPool.cachedBlockHashToBlock.keys.length)) = some (∅, 6) := by
    decide +kernel
  obtain ⟨start, s, hstart, hreach, hvals⟩ := reaches_counted (fun _ hcall => hcall) heval
  obtain ⟨hunfreed, hcached⟩ := Prod.mk.inj hvals
  have hresets := ((resetPrefixCache_iff serialize_collisionFree windowConfig_valid hstart hreach).mpr
    (Or.inl (by decide))).1 hunfreed
  exact ⟨start, s, hstart, hreach, hunfreed, hcached, hresets⟩

/-- A group whose first token is a sink, with nine blocks of one token. -/
def sinkManager : Except PyError KVCacheManager :=
  KVCacheManager.new
    { numBlocks := 10
      kvCacheGroups := [.sinkFullAttention { KVCacheCoordinator.attentionWithHeads 1 with } (some 1)] }
    10 1 true false false false 1 1

/-- The block of the sink counts as used when all requests are freed. -/
theorem resetPrefixCache_fails_sink :
    ∃ start s, sinkManager = .ok start ∧
      Reaches KVCacheRun.call (KVCacheRun.Counted serialize serializeSeed) ⟨start, ∅⟩ s ∧
      s.unfreed = ∅ ∧ (∀ m ∈ s.kv.coordinator.singleTypeManagers, m.reqToBlocks.keys = []) ∧
      s.kv.resetPrefixCache.1 = false ∧
      s.kv.resetPrefixCache.2.blockPool.cachedBlockHashToBlock.keys.length = 3 := by
  have heval : (runCheckedFrom (KVCacheRun.of sinkManager) KVCacheRun.call
      (fun s call => decide (call.HitsCovered s.kv)) fillCalls).map
      (fun p => (p.2.unfreed, p.2.kv.coordinator.singleTypeManagers.map (·.reqToBlocks.keys),
        p.2.kv.resetPrefixCache.1, p.2.kv.resetPrefixCache.2.blockPool.cachedBlockHashToBlock.keys.length)) =
      some (∅, [[]], false, 3) := by
    decide +kernel
  obtain ⟨start, s, hstart, hreach, hvals⟩ := reaches_counted (fun _ hcall => hcall) heval
  simp only [Prod.mk.injEq] at hvals
  obtain ⟨hunfreed, htables, hreset, hcached⟩ := hvals
  refine ⟨start, s, hstart, hreach, hunfreed, fun m hm => ?_, hreset, hcached⟩
  have hmem := mem_map_of_mem (f := fun m : SingleTypeKVCacheManager => m.reqToBlocks.keys) hm
  rw [htables] at hmem
  exact List.mem_singleton.mp hmem

end VllmRuntime
