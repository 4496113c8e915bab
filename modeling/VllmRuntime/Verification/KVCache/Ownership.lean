import VllmRuntime.Verification.KVCache.PrefixCache
import VllmRuntime.Verification.KVCache.Reset

/-! # Owners of blocks

No block is lost: what is not free any more is held by requests that have not been freed. A block that is
still written has one owner. -/

namespace VllmRuntime

open List BlockHash KVCacheManager SingleTypeKVCacheManager

variable {hashFunction : HashInput → BlockHash} {noneHash : BlockHash} {config : KVCacheConfig}
  {maxModelLen hashBlockSize dcpWorldSize pcpWorldSize : ℕ}
  {enableCaching useEagle enableKvCacheEvents useIntBlockHashes : Bool} {kv start : KVCacheManager} {b : BlockRef}

/-! ## Free and held blocks -/

/-- The blocks that stand in tables, but for the null block. -/
def KVCacheManager.heldBlocks (kv : KVCacheManager) : List BlockRef :=
  ((range kv.blockPool.numGpuBlocks).map .block).filter fun b =>
    b ≠ kv.blockPool.nullBlock ∧ 0 < numPositions kv.coordinator.singleTypeManagers b

/-- The blocks that were free at the start are free or held, and the holders are requests that have not been
freed. -/
structure KVCacheRun.Conserves (start : KVCacheManager) (s : KVCacheRun) : Prop where
  numFree : s.kv.blockPool.getNumFreeBlocks + s.kv.heldBlocks.length = start.blockPool.getNumFreeBlocks
  holders : ∀ b ∈ s.kv.heldBlocks, ∃ m ∈ s.kv.coordinator.singleTypeManagers, ∃ r ∈ s.unfreed, b ∈ m.blocksOf r

lemma KVCacheManager.mem_heldBlocks : b ∈ kv.heldBlocks ↔
    kv.blockPool.IsBlock b ∧ b ≠ kv.blockPool.nullBlock ∧
      0 < numPositions kv.coordinator.singleTypeManagers b := by
  rw [heldBlocks, mem_filter, decide_eq_true_iff]
  simp only [mem_map, mem_range, BlockPool.IsBlock, eq_comm]

lemma exists_of_numPositions_pos {ms : List SingleTypeKVCacheManager} (h : 0 < numPositions ms b) :
    ∃ m ∈ ms, ∃ r, b ∈ m.blocksOf r := by
  by_contra hnone
  push Not at hnone
  exact h.ne' (numPositions_eq_zero hnone)

lemma heldBlocks_nodup (kv : KVCacheManager) : kv.heldBlocks.Nodup :=
  (nodup_range.map fun _ _ h => by cases h; rfl).filter _

/-- The list of free blocks at the start is that of the free and the held ones. -/
lemma freeList_perm {reserved l l₀ : List BlockRef} (hinv : kv.coordinator.Invariant False reserved 0)
    (hsame : KVCacheCoordinator.SameSetUp start.coordinator kv.coordinator)
    (hl : kv.blockPool.FreeList reserved l) (hl₀ : start.blockPool.FreeList reserved l₀)
    (hunused : ∀ b, b ≠ start.blockPool.nullBlock → start.blockPool.refCnt b = 0) :
    (l ++ kv.heldBlocks).Perm l₀ := by
  have hrefCnt (b : BlockRef) (hne : b ≠ kv.blockPool.nullBlock) := hinv.cache.refCnt b hne
  have hdisjoint : List.Disjoint l kv.heldBlocks := by
    intro b hb hheld
    obtain ⟨-, hne, hpos⟩ := mem_heldBlocks.mp hheld
    have hzero := ((hl.mem_iff b).mp hb).2.2
    have hcount := hrefCnt b hne
    change kv.blockPool.refCnt b = _ at hcount
    omega
  refine (perm_ext_iff_of_nodup (hl.isQueue.nodup_blocks.append (heldBlocks_nodup kv) hdisjoint)
    hl₀.isQueue.nodup_blocks).mpr fun b => ?_
  have hpool : BlockPool.SameConfig start.blockPool kv.blockPool := hsame.pool
  rw [mem_append, hl.mem_iff, mem_heldBlocks, hl₀.mem_iff, ← hpool.isBlock_iff, ← hpool.nullBlock]
  constructor
  · rintro (⟨hblock, hne, -⟩ | ⟨hblock, hne, hpos⟩)
    · exact ⟨hblock, hne, hunused b (hpool.nullBlock ▸ hne)⟩
    · obtain ⟨m, hm, r, hb⟩ := exists_of_numPositions_pos hpos
      exact ⟨hinv.cache.real m hm r b hb, hne, hunused b (hpool.nullBlock ▸ hne)⟩
  · rintro ⟨hblock, hne, -⟩
    rcases Nat.eq_zero_or_pos (numPositions kv.coordinator.singleTypeManagers b) with hzero | hpos
    · exact .inl ⟨hblock, hne, (hrefCnt b hne).trans (by rw [hzero]; rfl)⟩
    · exact .inr ⟨hblock.1, hne, hpos⟩

/-- In every state of a run, with any groups, as many blocks are free as at the start but for the held ones. -/
theorem conserves_of_reaches (hfree : CollisionFree hashFunction noneHash) {s : KVCacheRun}
    (hconfig : ValidConfig config maxModelLen dcpWorldSize pcpWorldSize)
    (hnew : KVCacheManager.new config maxModelLen hashBlockSize enableCaching useEagle enableKvCacheEvents
      useIntBlockHashes dcpWorldSize pcpWorldSize = .ok start)
    (hrun : Reaches KVCacheRun.call (KVCacheRun.Counted hashFunction noneHash) ⟨start, ∅⟩ s) :
    s.Conserves start := by
  obtain ⟨reserved, hstart, -, hlen, -⟩ := KVCacheManager.new_inv hconfig (fun h : False => h.elim) hnew
  obtain ⟨hnone, -⟩ := KVCacheManager.new_unheld hnew
  obtain ⟨hinv, hholds, hsame⟩ := KVCacheRun.inv_of_reaches hfree hstart (hlen ▸ hconfig.maxModelLen) hnone hrun
  obtain ⟨l, hl⟩ := hinv.cache.free
  obtain ⟨l₀, hl₀⟩ := hstart.cache.free
  have hunused (b : BlockRef) (hne : b ≠ start.blockPool.nullBlock) : start.blockPool.refCnt b = 0 := by
    refine (hstart.cache.refCnt b hne).trans ?_
    rw [numPositions_eq_zero fun m hm r hb => ?_]
    · rfl
    · rw [hnone m hm r (Finset.notMem_empty r)] at hb
      exact not_mem_nil hb
  refine ⟨?_, fun b hb => ?_⟩
  · have hlength := (freeList_perm hinv hsame hl hl₀ hunused).length_eq
    rw [length_append] at hlength
    have hcount : s.kv.blockPool.getNumFreeBlocks = l.length := hl.numFreeBlocks
    have hcount₀ : start.blockPool.getNumFreeBlocks = l₀.length := hl₀.numFreeBlocks
    omega
  · obtain ⟨m, hm, r, hmem⟩ := exists_of_numPositions_pos (mem_heldBlocks.mp hb).2.2
    refine ⟨m, hm, r, ?_, hmem⟩
    by_contra hfreed
    rw [hholds m hm r hfreed] at hmem
    exact not_mem_nil hmem

/-- A request holds six of the nine blocks. -/
theorem conserves_of_reaches_windowConfig :
    ∃ start s, windowManager = .ok start ∧
      Reaches KVCacheRun.call (KVCacheRun.Counted serialize serializeSeed) ⟨start, ∅⟩ s ∧
      s.kv.heldBlocks.length = 6 ∧ s.kv.blockPool.getNumFreeBlocks = 3 ∧ s.Conserves start := by
  have heval : (runCheckedFrom (KVCacheRun.of windowManager) KVCacheRun.call
      (fun s call => decide (call.HitsCovered s.kv)) (fillCalls.take 1)).map (fun p =>
      (p.2.kv.heldBlocks.length, p.2.kv.blockPool.getNumFreeBlocks)) =
      some (6, 3) := by
    decide +kernel
  obtain ⟨start, s, hstart, hreach, hvals⟩ := reaches_counted (fun _ hcall => mem_of_mem_take hcall) heval
  obtain ⟨hheld, hnum⟩ := Prod.mk.inj hvals
  exact ⟨start, s, hstart, hreach, hheld, hnum, conserves_of_reaches serialize_collisionFree
    windowConfig_valid hstart hreach⟩

/-! ## Blocks that are still written -/

/-- No request has a block twice. A block that is not cached yet stands in one place of all tables and has no
hash, so that no lookup finds it. -/
structure KVCacheManager.OwnedOnce (kv : KVCacheManager) : Prop where
  once : ∀ m ∈ kv.coordinator.singleTypeManagers, ∀ r, ∀ b, b ≠ kv.blockPool.nullBlock →
    (m.blocksOf r).count b ≤ 1
  oneWriter : ∀ b, b ≠ kv.blockPool.nullBlock → numFresh kv.coordinator.singleTypeManagers b ≤ 1
  unhashed : ∀ m ∈ kv.coordinator.singleTypeManagers, ∀ r, ∀ b ∈ (m.blocksOf r).drop (m.numCached r),
    b ≠ kv.blockPool.nullBlock → kv.blockPool.blockHash b = none ∧
      ∀ key, ¬ kv.blockPool.cachedBlockHashToBlock.Stored key b

/-- In a run whose lookups never find more blocks than they have computed tokens for, no two requests write
one block. -/
theorem ownedOnce_of_reachable (hconfig : ValidConfig config maxModelLen dcpWorldSize pcpWorldSize)
    (hfree : CollisionFree hashFunction noneHash)
    (hnew : KVCacheManager.new config maxModelLen hashBlockSize true useEagle enableKvCacheEvents
      useIntBlockHashes dcpWorldSize pcpWorldSize = .ok start)
    (hrun : Reachable (fun kv call => call.Hashed hashFunction noneHash ∧ call.Promised kv ∧
      call.HitsCovered kv) start kv) : kv.OwnedOnce := by
  obtain ⟨reserved, hstart, -, hlen, -⟩ := KVCacheManager.new_inv hconfig (fun _ : True => rfl) hnew
  obtain ⟨hinv, -⟩ := hrun.inv hfree (fun kv call hcall => ⟨hcall.1, hcall.2.2, fun _ => hcall.2.1⟩) hstart
    (hlen ▸ hconfig.maxModelLen)
  refine ⟨hinv.cache.once, hinv.cache.fresh_once trivial, fun m hm r b hb hne => ?_⟩
  obtain ⟨front, back, hsplit⟩ := append_of_mem hm
  have hcache := hinv.cache
  rw [hsplit] at hcache
  have hpos := List.count_pos_iff.mpr hb
  have hfresh := (hcache.focus r).fresh_hash trivial b hne (by omega)
  refine ⟨hfresh, fun key hstored => ?_⟩
  have hkey := ((hcache.agrees.stored_iff key b).mp hstored).2.2
  cases hfresh.symm.trans hkey

/-- A request shares two blocks with one that has left; another one's token is loaded later. -/
theorem ownedOnce_of_reachable_windowConfig :
    ∃ start kv, windowManager = .ok start ∧
      Reachable (fun kv call => call.Hashed serialize serializeSeed ∧ call.Promised kv ∧
        call.HitsCovered kv) start kv ∧
      kv.coordinator.getBlocks 1 = [[.block 1, .block 2, .block 7], [.block 0, .block 0, .block 8]] ∧
      numFresh kv.coordinator.singleTypeManagers (.block 9) = 1 ∧ kv.OwnedOnce := by
  have heval : (runCheckedFrom windowManager (fun call kv => call.run kv)
      (fun kv call => decide (call.Promised kv ∧ call.HitsCovered kv)) (fillCalls ++ [loadCall] ++ [.allocateRunning
        (hashedRequest 2 [5]) { numNewTokens := 1, delayCacheBlocks := true }])).map (fun p =>
        (p.2.coordinator.getBlocks 1, numFresh p.2.coordinator.singleTypeManagers (.block 9))) =
      some ([[.block 1, .block 2, .block 7], [.block 0, .block 0, .block 8]], 1) := by
    decide +kernel
  obtain ⟨start, kv, hstart, hreach, hvals⟩ := reachable_of_map_runCheckedFrom (fun kv call hcall hcheck => And.intro (by
    rcases mem_append.mp hcall with hcall | hcall
    · exact loadCalls_hashed call hcall
    · rw [mem_singleton.mp hcall]
      trivial) (of_decide_eq_true hcheck)) heval
  obtain ⟨hblocks, hnum⟩ := Prod.mk.inj hvals
  exact ⟨start, kv, hstart, hreach, hblocks, hnum, ownedOnce_of_reachable windowConfig_valid
    serialize_collisionFree hstart hreach⟩

end VllmRuntime
