import VllmRuntime.Model.KVCacheConfigs
import VllmRuntime.Verification.KVCache.Runs

/-! # Capacity for the longest request

The configuration of one group of full attention layers holds a request of `max_model_len` tokens
exactly when every worker has memory for one block more than the request needs: block zero is
the null block. -/

namespace VllmRuntime

variable {spec : FullAttentionSpec} {settings settings' : CacheSettings} {group : KVCacheGroupSpec}
  {memory : List ℤ} {config : KVCacheConfig} {configs : List WorkerKVCacheConfig}
  {hashBlockSize maxModelLen usage : ℕ} {enableCaching useEagle enableKvCacheEvents useIntBlockHashes : Bool}
  {kv : KVCacheManager}

open List BlockPool KVCacheManager KVCacheCoordinator

section Forall₂

variable {α β : Type} {R : α → β → Prop} {as : List α} {bs : List β}

lemma forall_iff_of_forall₂ {P : β → Prop} {Q : α → Prop}
    (h : List.Forall₂ (fun a b => P b ↔ Q a) as bs) : (∀ b ∈ bs, P b) ↔ ∀ a ∈ as, Q a := by
  induction h with
  | nil => simp
  | cons hab _ ih => rw [forall_mem_cons, forall_mem_cons, hab, ih]

end Forall₂

/-! ## The blocks of a worker -/

/-- The page size of a layer, padded or not. -/
def FullAttentionSpec.pageSize (spec : FullAttentionSpec) : ℕ :=
  spec.pageSizePadded.getD spec.realPageSizeBytes

lemma FullAttentionSpec.pageSizeBytes_eq_ok {pageSize : ℕ} (h : spec.pageSizeBytes = .ok pageSize) :
    pageSize = spec.pageSize := by
  unfold pageSizeBytes at h
  unfold FullAttentionSpec.pageSize
  cases hpadded : spec.pageSizePadded with
  | none =>
    rw [hpadded] at h
    exact (Except.ok.inj h).symm
  | some padded =>
    rw [hpadded] at h
    obtain ⟨_, -, hret⟩ := bind_eq_ok h
    exact (Except.ok.inj hret).symm

/-- The memory that a block takes on a worker with `numLayers` layers of the group. Layers of
different sizes are all counted on every worker. -/
def GroupSpec.bytesPerBlock (numLayers : ℕ) : GroupSpec → ℕ
  | merged spec => numLayers * spec.pageSize
  | uniformType _ specs => (specs.map fun layer => layer.2.pageSize).sum

lemma uniformType_pageSizeBytes {blockSize pageSize : ℕ} {specs : LayerSpecs}
    (h : (GroupSpec.uniformType blockSize specs).pageSizeBytes = .ok pageSize) (numLayers : ℕ) :
    pageSize = (GroupSpec.uniformType blockSize specs).bytesPerBlock numLayers := by
  obtain ⟨pageSizes, hsizes, hret⟩ := bind_eq_ok h
  cases Except.ok.inj hret
  have hall := mapM_eq_ok hsizes
  unfold GroupSpec.bytesPerBlock
  congr 1
  clear h hsizes hret
  induction hall with
  | nil => rfl
  | cons hlayer _ ih => rw [map_cons, FullAttentionSpec.pageSizeBytes_eq_ok hlayer, ih]

lemma floorDiv_eq_ok {a q : ℤ} {b : ℕ} (h : floorDiv a b = .ok q) : 0 < b ∧ q = a / b := by
  unfold floorDiv at h
  split at h
  · cases h
  · rename_i hne
    exact ⟨Nat.pos_of_ne_zero hne, (Except.ok.inj h).symm⟩

/-- A worker has `n` blocks if its memory holds them. -/
lemma le_toNat_ediv_iff {memory : ℤ} {bytes n : ℕ} (hbytes : 0 < bytes) (hn : 0 < n) :
    n ≤ (memory / bytes).toNat ↔ ((n * bytes : ℕ) : ℤ) ≤ memory := by
  have hb : (0 : ℤ) < bytes := by exact_mod_cast hbytes
  have hiff := Int.le_ediv_iff_mul_le (a := (n : ℤ)) (b := memory) hb
  push_cast
  rw [← hiff]
  omega

lemma getUniformPageSize_single {pageSize : ℕ} (h : getUniformPageSize [.merged spec] = .ok pageSize) :
    pageSize = spec.pageSize := by
  obtain ⟨pageSizes, hsizes, h⟩ := bind_eq_ok h
  have hall := mapM_eq_ok hsizes
  cases hall with
  | cons hspec hrest =>
    cases hrest
    cases h
    exact FullAttentionSpec.pageSizeBytes_eq_ok hspec

lemma getKvCacheConfigFromGroups_single {memory : ℤ} {config : WorkerKVCacheConfig}
    (h : getKvCacheConfigFromGroups [group] memory = .ok config) :
    config.kvCacheGroups = [group] ∧
      0 < group.kvCacheSpec.bytesPerBlock group.layerNames.length ∧
      config.numBlocks =
        (memory / group.kvCacheSpec.bytesPerBlock group.layerNames.length).toNat := by
  obtain ⟨layerNames, spec⟩ := group
  cases spec with
  | uniformType blockSize specs =>
    obtain ⟨pageSize, hsize, h⟩ := bind_eq_ok h
    obtain ⟨numBlocks, hdiv, h⟩ := bind_eq_ok h
    obtain ⟨tensors, -, rfl⟩ := map_eq_ok h
    obtain ⟨hpos, rfl⟩ := floorDiv_eq_ok hdiv
    have hbytes := uniformType_pageSizeBytes hsize layerNames.length
    rw [← hbytes]
    exact ⟨rfl, hpos, rfl⟩
  | merged spec =>
    obtain ⟨pageSize, hsize, h⟩ := bind_eq_ok h
    obtain ⟨_, hgroup, h⟩ := bind_eq_ok h
    obtain ⟨numBlocks, hblocks, rfl⟩ := map_eq_ok h
    obtain ⟨numPages, hpages, hblocks⟩ := bind_eq_ok hblocks
    obtain ⟨quotient, hquotient, rfl⟩ := map_eq_ok hblocks
    obtain ⟨hpagePos, rfl⟩ := floorDiv_eq_ok hpages
    obtain ⟨hlayersPos, rfl⟩ := floorDiv_eq_ok hquotient
    obtain rfl := getUniformPageSize_single hsize
    have hlayers : maxGroupSize [⟨layerNames, .merged spec⟩] = layerNames.length := by
      simp [maxGroupSize]
    rw [hlayers] at hlayersPos ⊢
    refine ⟨rfl, Nat.mul_pos hlayersPos hpagePos, ?_⟩
    simp only [GroupSpec.bytesPerBlock]
    rw [Int.ediv_ediv_of_nonneg (by positivity), Nat.mul_comm]
    push_cast
    rfl

/-- What `get_kv_cache_configs` does with one group. -/
lemma getKvCacheConfigs_single {workers : List LayerSpecs} {merged : LayerSpecs}
    (hmerged : mergeKvCacheSpecs workers [] = .ok merged)
    (hgroups : getKvCacheGroups settings merged = .ok [group])
    (h : getKvCacheConfigs settings workers memory = .ok (configs, settings')) :
    checkMinMemory settings' [group] memory = .ok () ∧
      fitMaxModelLen settings [group] memory = .ok settings' ∧
      ∃ minNumBlocks, (∀ config ∈ configs, config.numBlocks = minNumBlocks ∧
          ∃ names, config.kvCacheGroups = [⟨names, group.kvCacheSpec⟩]) ∧
        ∀ n, 0 < n → (n ≤ minNumBlocks ↔ ∀ p ∈ workers.zip memory,
          ((n * group.kvCacheSpec.bytesPerBlock p.1.length : ℕ) : ℤ) ≤ p.2) := by
  obtain ⟨merged', hmerged', h⟩ := bind_eq_ok h
  obtain rfl := Except.ok.inj (hmerged.symm.trans hmerged')
  obtain ⟨groups, hgroups', h⟩ := bind_eq_ok h
  obtain rfl := Except.ok.inj (hgroups.symm.trans hgroups')
  obtain ⟨fitted, hfit, h⟩ := bind_eq_ok h
  obtain ⟨_, hcheck, h⟩ := bind_eq_ok h
  obtain ⟨full, hfull, h⟩ := bind_eq_ok h
  split at h
  · cases h
  · rename_i minNumBlocks hmin
    obtain ⟨shrunk, hshrunk, hret⟩ := bind_eq_ok h
    cases hret
    -- Each worker has the blocks that fit in its memory.
    have hworkers : List.Forall₂ (fun p config => (∃ names,
        config.kvCacheGroups = [⟨names, group.kvCacheSpec⟩]) ∧
        ∀ n, 0 < n → (n ≤ config.numBlocks ↔
          ((n * group.kvCacheSpec.bytesPerBlock p.1.length : ℕ) : ℤ) ≤ p.2))
        (workers.zip memory) full := by
      refine (mapM_eq_ok hfull).imp fun p config hconfig => ?_
      obtain ⟨_, hassigned, hconfig⟩ := bind_eq_ok hconfig
      obtain ⟨hgroups, hpos, hblocks⟩ := getKvCacheConfigFromGroups_single hconfig
      have hlayers : (group.layerNames.filter fun name => (p.1.lookup name).isSome).length =
          p.1.length := by
        simpa [groupsOfWorker] using pyAssert_eq_ok.mp hassigned
      simp only [hlayers] at hpos hblocks
      refine ⟨⟨_, hgroups⟩, fun n hn => ?_⟩
      rw [hblocks, le_toNat_ediv_iff hpos hn]
    refine ⟨hcheck, hfit, minNumBlocks, ?_, ?_⟩
    · intro config hconfig
      obtain ⟨old, hold, hshrink⟩ := exists_of_forall₂ (mapM_eq_ok hshrunk) hconfig
      obtain ⟨tensors, -, rfl⟩ := map_eq_ok hshrink
      obtain ⟨p, -, hgroups, -⟩ := exists_of_forall₂ hworkers hold
      exact ⟨rfl, hgroups⟩
    · intro n hn
      have hblocks := forall_iff_of_forall₂ (hworkers.imp fun p config hconfig => hconfig.2 n hn)
      rw [le_min?_iff hmin, ← hblocks]
      simp

/-! ## A new manager of one full attention group -/

/-- The manager of the group before any request. -/
def newFullManager (spec : FullAttentionSpec) (enableCaching : Bool) : SingleTypeKVCacheManager where
  kvCacheSpec := .fullAttention spec
  enableCaching := enableCaching
  kvCacheGroupId := 0
  dcpWorldSize := 1
  pcpWorldSize := 1

section Fresh

variable {spec : FullAttentionSpec} {enableCaching : Bool} {c : KVCacheCoordinator}
  {request : Request} {args : AllocateArgs} {pool : BlockPool} {maxModelLen : ℕ}
  {blocks newBlocks : List BlockRef}

lemma newFullManager_blockSize :
    (newFullManager spec enableCaching).blockSize = spec.blockSize := rfl

lemma newFullManager_blocksOf (r : RequestId) :
    (newFullManager spec enableCaching).blocksOf r = [] := rfl

lemma newFullManager_skipped (n : ℕ) :
    (newFullManager spec enableCaching).getNumSkippedTokens n = 0 := rfl

lemma removeSkippedBlocks_fresh (hms : c.singleTypeManagers = [newFullManager spec enableCaching])
    (r : RequestId) (n : ℕ) : c.removeSkippedBlocks r n = .ok c := by
  have hc : { c with singleTypeManagers := [newFullManager spec enableCaching] } = c := by
    rw [← hms]
  have hround : (newFullManager spec enableCaching).removeSkippedBlocks c.blockPool r n =
      .ok (newFullManager spec enableCaching, c.blockPool) := rfl
  simp only [KVCacheCoordinator.removeSkippedBlocks, overManagers, hms, forManagers, hround]
  exact congrArg Except.ok hc

lemma estimate_fresh (pool : BlockPool) (r : RequestId) (n e total main : ℕ) :
    (newFullManager spec enableCaching).estimate pool r n [] e total main =
      .ok (cdiv n spec.blockSize, newFullManager spec enableCaching) := by
  have hbase : (newFullManager spec enableCaching).baseGetNumBlocksToAllocate pool r n [] total =
      .ok (cdiv n spec.blockSize : ℤ) := by
    unfold SingleTypeKVCacheManager.baseGetNumBlocksToAllocate
    rw [if_neg (by simp [newFullManager])]
    simp [newFullManager_blocksOf, newFullManager_blockSize, newFullManager_skipped,
      SingleTypeKVCacheManager.getNumEvictableBlocks]
  change (do
    let num ← (newFullManager spec enableCaching).baseGetNumBlocksToAllocate pool r n [] total
    return (num, newFullManager spec enableCaching) : Except PyError _) = _
  rw [hbase]
  rfl

lemma getNumBlocksToAllocate_fresh
    (hms : c.singleTypeManagers = [newFullManager spec enableCaching])
    (r : RequestId) (n e total main : ℕ) :
    c.getNumBlocksToAllocate r n [[]] e total main = .ok (cdiv n spec.blockSize, c) := by
  have hc : { c with singleTypeManagers := [newFullManager spec enableCaching] } = c := by
    rw [← hms]
  simp only [KVCacheCoordinator.getNumBlocksToAllocate, overManagers, hms, forManagers,
    getD_cons_zero, estimate_fresh]
  simp [pure, Except.pure, bind, Except.bind, hc]

/-- The request, from its first token on, asks for the slots of `max_model_len` tokens. -/
structure AsksForAll (request : Request) (args : AllocateArgs) (maxModelLen : ℕ) : Prop where
  computed : request.numComputedTokens = 0
  newTokens : args.numNewTokens = maxModelLen
  localTokens : args.numNewComputedTokens = 0
  external : args.numExternalComputedTokens = 0

lemma AsksForAll.total (h : AsksForAll request args maxModelLen) :
    args.totalComputedTokens request maxModelLen = 0 := by
  simp [AllocateArgs.totalComputedTokens, AllocateArgs.numLocalComputedTokens, h.computed,
    h.localTokens, h.external]

lemma AsksForAll.slots (h : AsksForAll request args maxModelLen) :
    args.numTokensNeedSlot request maxModelLen = maxModelLen := by
  simp [AllocateArgs.numTokensNeedSlot, AllocateArgs.numTokensMainModel, h.total, h.newTokens]

lemma prepareAllocation_fresh (hms : kv.coordinator.singleTypeManagers = [newFullManager spec enableCaching])
    (hall : AsksForAll request args kv.coordinator.maxModelLen) :
    kv.prepareAllocation request [[]] args =
      .ok (cdiv kv.coordinator.maxModelLen spec.blockSize, kv.coordinator) := by
  simp only [prepareAllocation, removeSkippedBlocks_fresh hms]
  change kv.coordinator.getNumBlocksToAllocate _ _ _ _ _ _ = _
  rw [getNumBlocksToAllocate_fresh hms, hall.slots]

/-- Blocks without a hash can be cached. -/
lemma cacheFullBlocksLoop_fresh (kvCacheGroupId : ℕ) {hashes : List BlockHash} (hnodup : blocks.Nodup)
    (hnull : pool.nullBlock ∉ blocks) (hnone : ∀ b ∈ blocks, pool.blockHash b = none)
    (hlen : blocks.length ≤ hashes.length) :
    ∃ newHashes pool', cacheFullBlocksLoop kvCacheGroupId blocks hashes pool =
      .ok (newHashes, pool') := by
  induction blocks generalizing hashes pool with
  | nil => exact ⟨[], pool, rfl⟩
  | cons blk blks ih =>
    rw [mem_cons, not_or] at hnull
    obtain ⟨hnot, hnodup⟩ := List.nodup_cons.mp hnodup
    have hblk := hnone blk mem_cons_self
    cases hashes with
    | nil => simp at hlen
    | cons hash hashes =>
      let key := makeBlockHashWithGroupId hash kvCacheGroupId
      let pool₁ : BlockPool := { pool with
        blocks := Function.update pool.blocks blk { pool.blocks blk with blockHash := key }
        cachedBlockHashToBlock := pool.cachedBlockHashToBlock.insert key blk }
      have hunhashed : ∀ b ∈ blks, pool₁.blockHash b = none := by
        intro b hb
        have hne : b ≠ blk := fun he => hnot (he ▸ hb)
        have hold := hnone b (mem_cons_of_mem _ hb)
        simpa [pool₁, blockHash, hne] using hold
      have hshorter : blks.length ≤ hashes.length := by simpa using hlen
      have hnull₁ : pool₁.nullBlock ∉ blks := hnull.2
      obtain ⟨newHashes, pool', hrest⟩ := ih hnodup hnull₁ hunhashed hshorter
      refine ⟨maybeConvertBlockHash pool'.useIntBlockHashes hash :: newHashes, pool', ?_⟩
      rw [cacheFullBlocksLoop, if_neg (Ne.symm hnull.1), if_neg (by simp [hblk])]
      have hset : pool.setBlockHash blk key = .ok { pool with
          blocks := Function.update pool.blocks blk
            { pool.blocks blk with blockHash := key } } := by
        rw [setBlockHash, if_neg (by simp [hblk])]
      simp only [key] at hset
      simp only [hset]
      change (cacheFullBlocksLoop kvCacheGroupId blks hashes pool₁ >>= _) = _
      rw [hrest]
      rfl

lemma cacheFullBlocks_fresh {k blockSize : ℕ} (groupId : ℕ) (hsize : blockSize = pool.hashBlockSize)
    (hlen : k ≤ request.blockHashes.length) (hnodup : blocks.Nodup) (hnull : pool.nullBlock ∉ blocks)
    (hnone : ∀ b ∈ blocks, pool.blockHash b = none) :
    ∃ pool', pool.cacheFullBlocks request blocks 0 k blockSize groupId = .ok pool' := by
  unfold cacheFullBlocks
  split
  · exact ⟨pool, rfl⟩
  · have hassert : pyAssert (request.blockHashes.length ≥ k)
        "len(request.block_hashes) >= num_full_blocks" = .ok () := by
      simp [pyAssert, hlen]
    have hshort : (blocks.take k).length ≤ request.blockHashes.length := by
      rw [length_take]
      omega
    obtain ⟨newHashes, pool', hloop⟩ := cacheFullBlocksLoop_fresh groupId
      (hnodup.sublist (take_sublist k blocks)) (fun hmem => hnull (mem_of_mem_take hmem))
      (fun b hb => hnone b (mem_of_mem_take hb)) hshort
    simp only [hassert, requestBlockHashes, if_pos hsize, drop_zero]
    change ∃ pool'', (cacheFullBlocksLoop groupId (blocks.take k) request.blockHashes pool >>= _) =
      Except.ok pool''
    rw [hloop]
    change ∃ pool'', pool'.storeEvent request request.blockHashes newHashes 0 k blockSize =
      Except.ok pool''
    unfold storeEvent
    split
    · exact ⟨_, rfl⟩
    · exact ⟨_, rfl⟩

lemma takeBlocks_fresh (hms : c.singleTypeManagers = [newFullManager spec enableCaching])
    (hall : AsksForAll request args c.maxModelLen) (hpos : 0 < cdiv c.maxModelLen spec.blockSize)
    (hget : c.blockPool.getNewBlocks (cdiv c.maxModelLen spec.blockSize) = .ok (newBlocks, pool)) :
    takeBlocks c request [[]] args = .ok ([newBlocks], { c with
      blockPool := pool
      singleTypeManagers := [(newFullManager spec enableCaching).setBlocks request.requestId
        newBlocks] }) := by
  have hadd : KVCacheManager.addComputedBlocks c request [[]] args = .ok c := by
    rw [KVCacheManager.addComputedBlocks, if_neg (by simp [hasComputedBlocks, hall.external])]
  have hround : (newFullManager spec enableCaching).allocateNewBlocks c.blockPool request.requestId
      c.maxModelLen (args.numTokensMainModel request c.maxModelLen) =
      .ok (newBlocks, (newFullManager spec enableCaching).setBlocks request.requestId newBlocks,
        pool) := by
    change (newFullManager spec enableCaching).baseAllocateNewBlocks c.blockPool request.requestId
      c.maxModelLen = _
    have hnum : (cdiv c.maxModelLen (newFullManager spec enableCaching).blockSize : ℤ) -
        ((newFullManager spec enableCaching).blocksOf request.requestId).length =
        cdiv c.maxModelLen spec.blockSize := by
      rw [newFullManager_blocksOf, newFullManager_blockSize]
      simp
    unfold SingleTypeKVCacheManager.baseAllocateNewBlocks
    dsimp only
    rw [if_neg (by rw [hnum]; omega), hnum, hget]
    rfl
  rw [takeBlocks, hadd]
  change c.allocateNewBlocks _ _ _ _ = _
  rw [hall.slots]
  simp only [KVCacheCoordinator.allocateNewBlocks, overManagers, hms, forManagers]
  rw [if_neg (by simp [newFullManager, KVCacheSpec.isCrossAttention]), hround]
  rfl

/-- The blocks that were taken can be cached. -/
lemma commitBlocks_fresh (hms : c.singleTypeManagers =
      [(newFullManager spec enableCaching).setBlocks request.requestId newBlocks])
    (hsize : c.enableCaching = true → spec.blockSize = c.blockPool.hashBlockSize)
    (hhashes : c.enableCaching = true → request.numTokens / spec.blockSize ≤ request.blockHashes.length)
    (hnodup : newBlocks.Nodup) (hnull : c.blockPool.nullBlock ∉ newBlocks)
    (hnone : c.enableCaching = true → ∀ b ∈ newBlocks, c.blockPool.blockHash b = none) :
    ∃ c', commitBlocks c request args = .ok c' := by
  unfold commitBlocks
  split
  · exact ⟨c, rfl⟩
  · rename_i hcaches
    simp only [Bool.or_eq_true, Bool.not_eq_true', not_or, Bool.not_eq_false,
      Bool.not_eq_true] at hcaches
    generalize hn : min (args.numTokensMainModel request c.maxModelLen) request.numTokens = n
    have hle : n / spec.blockSize ≤ request.blockHashes.length :=
      (Nat.div_le_div_right (hn ▸ min_le_right _ _)).trans (hhashes hcaches.1)
    obtain ⟨pool, hpool⟩ := cacheFullBlocks_fresh 0 (hsize hcaches.1) hle hnodup hnull
      (hnone hcaches.1)
    have hround : ∃ p, SingleTypeKVCacheManager.cacheBlocks
        ((newFullManager spec enableCaching).setBlocks request.requestId newBlocks) c.blockPool
        request n = .ok p := by
      unfold SingleTypeKVCacheManager.cacheBlocks
      rw [SingleTypeKVCacheManager.blocksOf_setBlocks]
      split
      · rename_i hcross
        cases hcross
      · dsimp only
        split
        · exact ⟨_, rfl⟩
        · change ∃ p, (c.blockPool.cacheFullBlocks request newBlocks 0 (n / spec.blockSize)
            spec.blockSize 0 >>= _) = Except.ok p
          rw [hpool]
          exact ⟨_, rfl⟩
    obtain ⟨⟨m', pool'⟩, hround⟩ := hround
    refine ⟨{ c with singleTypeManagers := [m'], blockPool := pool' }, ?_⟩
    simp only [KVCacheCoordinator.cacheBlocks, overManagers, hms, forManagers, hround]
    rfl

end Fresh

/-! ## The longest request -/

lemma popleft_numFreeBlocks {q q' : FreeKVCacheBlockQueue} {b : BlockRef}
    (h : q.popleft = .ok (b, q')) : q'.numFreeBlocks = q.numFreeBlocks - 1 := by
  have hempty : q.noFreeBlocks ≠ .ok (b, q') := by
    intro herr
    obtain ⟨_, -, herr⟩ := bind_eq_ok herr
    cases herr
  unfold FreeKVCacheBlockQueue.popleft at h
  split at h
  · exact absurd h hempty
  · exact absurd h hempty
  · split at h
    · cases h
    · cases h
      rfl

/-- What a new manager of one full attention group is made of. -/
lemma KVCacheManager.new_full (hgroups : config.kvCacheGroups = [.fullAttention spec])
    (hnew : KVCacheManager.new config maxModelLen hashBlockSize enableCaching useEagle
      enableKvCacheEvents useIntBlockHashes 1 1 = .ok kv) :
    kv.coordinator.singleTypeManagers = [newFullManager spec enableCaching] ∧
      kv.coordinator.maxModelLen = maxModelLen ∧ kv.coordinator.enableCaching = enableCaching ∧
      kv.blockPool.enableCaching = enableCaching ∧ kv.blockPool.Unused [] ∧
      kv.blockPool.getNumFreeBlocks = config.numBlocks - 1 ∧
      (enableCaching = true → spec.blockSize = kv.blockPool.hashBlockSize) := by
  obtain ⟨c, hc, rfl⟩ := map_eq_ok hnew
  obtain ⟨pool, hpool, hc⟩ := bind_eq_ok hc
  rw [hgroups] at hc
  obtain ⟨managers, hmanagers, hc⟩ := bind_eq_ok hc
  obtain rfl : ([newFullManager spec enableCaching], pool) = managers := Except.ok.inj hmanagers
  obtain ⟨kind, hkind, rfl⟩ := map_eq_ok hc
  obtain ⟨hunused, hcaching, hhash⟩ := BlockPool.new_unused hpool
  refine ⟨rfl, rfl, rfl, hcaching, hunused, ?_, ?_⟩
  · obtain ⟨_, -, hpool⟩ := bind_eq_ok hpool
    obtain ⟨⟨nullBlock, queue⟩, hpop, hret⟩ := bind_eq_ok hpool
    cases hret
    change queue.numFreeBlocks = _
    rw [popleft_numFreeBlocks hpop]
    simp [FreeKVCacheBlockQueue.new]
  · rintro rfl
    obtain ⟨_, hassert, -⟩ := bind_eq_ok hkind
    have heq : hashBlockSize = spec.blockSize := by
      simpa [unitaryBlockSize, KVCacheSpec.blockSize] using pyAssert_eq_ok.mp hassert
    exact heq.symm.trans hhash.symm

/-- A new manager of the group gives out the blocks exactly if there are enough besides the null
block. -/
lemma allocateSlots_new_iff {request : Request} {args : AllocateArgs}
    (hgroups : config.kvCacheGroups = [.fullAttention spec]) (hsize : 0 < spec.blockSize)
    (hlen : 0 < maxModelLen)
    (hnew : KVCacheManager.new config maxModelLen hashBlockSize enableCaching useEagle
      enableKvCacheEvents useIntBlockHashes 1 1 = .ok kv) (hall : AsksForAll request args maxModelLen)
    (hhashes : enableCaching = true → request.numTokens / spec.blockSize ≤ request.blockHashes.length) :
    (∃ blocks kv', kv.allocateSlots request kv.emptyKvCacheBlocks args = .ok (some blocks, kv')) ↔
      cdiv maxModelLen spec.blockSize + 1 ≤ config.numBlocks := by
  obtain ⟨hms, hmax, hcaching, hpoolCaching, hunused, hfreeCount, hblockSize⟩ :=
    KVCacheManager.new_full hgroups hnew
  subst hmax
  have hempty : kv.emptyKvCacheBlocks = [[]] := by
    rw [emptyKvCacheBlocks, hms]
    rfl
  have hneeded : 0 < cdiv kv.coordinator.maxModelLen spec.blockSize := by
    rw [lt_cdiv_iff hsize]
    omega
  have hprep := prepareAllocation_fresh hms hall
  have hnewTokens := hall.newTokens
  rw [hempty, allocateSlots, if_neg (by omega), hprep]
  constructor
  · rintro ⟨blocks, kv', h⟩
    simp only [bind, Except.bind] at h
    split at h
    · cases h
    · rename_i hle
      have hfree : kv.coordinator.blockPool.getNumFreeBlocks = config.numBlocks - 1 := hfreeCount
      omega
  · intro hle
    obtain ⟨l, hfree⟩ := hunused.free
    have hlength := hfree.numFreeBlocks
    have hcount : kv.coordinator.blockPool.getNumFreeBlocks = config.numBlocks - 1 := hfreeCount
    obtain ⟨pool, hget, -, htaken⟩ := hfree.getNewBlocks hunused.agrees
      (show cdiv kv.coordinator.maxModelLen spec.blockSize ≤ l.length by omega)
    have htake := takeBlocks_fresh hms hall hneeded hget
    -- The blocks that were taken are different and have no hash.
    have hblocks : ∀ b ∈ l.take (cdiv kv.coordinator.maxModelLen spec.blockSize),
        b ≠ kv.blockPool.nullBlock := fun b hb =>
      ((hfree.mem_iff b).mp (mem_of_mem_take hb)).2.1
    have hstate : ∃ c', commitBlocks { kv.coordinator with
        blockPool := pool
        singleTypeManagers := [(newFullManager spec enableCaching).setBlocks request.requestId
          (l.take (cdiv kv.coordinator.maxModelLen spec.blockSize))] } request args = .ok c' :=
      commitBlocks_fresh rfl
      (fun hc => (hblockSize (hcaching.symm.trans hc)).trans htaken.config.hashBlockSize.symm)
      (fun hc => hhashes (hcaching.symm.trans hc))
      (hfree.isQueue.nodup_blocks.sublist (take_sublist _ l))
      (fun hmem => hblocks _ hmem htaken.config.nullBlock)
      (fun hc => htaken.hash_reset (hpoolCaching.trans (hcaching.symm.trans hc)))
    obtain ⟨c', hcommit⟩ := hstate
    refine ⟨[l.take (cdiv kv.coordinator.maxModelLen spec.blockSize)], { coordinator := c' }, ?_⟩
    simp only [bind, Except.bind]
    rw [if_neg (by omega), htake]
    simp only [hcommit]
    rfl

/-! ## The configuration that was accepted -/

lemma FullAttentionSpec.blockSize_pos (h : spec.maxMemoryUsageBytes settings = .ok usage) :
    0 < spec.blockSize := by
  obtain ⟨numBlocks, hblocks, -⟩ := bind_eq_ok h
  unfold checkedCdiv at hblocks
  split at hblocks
  · cases hblocks
  · rename_i hne
    exact Nat.pos_of_ne_zero hne

/-- The memory that is needed was computed with the block size of the scheduler's spec. -/
lemma blockSize_pos_of_usage (hspec : group.kvCacheSpec.toKVCacheSpec = .ok (.fullAttention spec))
    (h : maxMemoryUsageBytesFromGroups settings [group] = .ok usage) : 0 < spec.blockSize := by
  obtain ⟨layerNames, groupSpec⟩ := group
  cases groupSpec with
  | merged own =>
    cases hspec
    obtain ⟨_, -, h⟩ := bind_eq_ok h
    obtain ⟨_, husage, -⟩ := bind_eq_ok h
    exact FullAttentionSpec.blockSize_pos husage
  | uniformType blockSize specs =>
    obtain ⟨usages, husages, -⟩ := bind_eq_ok h
    cases mapM_eq_ok husages with
    | nil => cases hspec
    | cons hlayer _ =>
      cases hspec
      exact FullAttentionSpec.blockSize_pos hlayer

lemma checkMinMemory_eq_ok (h : checkMinMemory settings [group] memory = .ok ()) :
    ∃ usage, maxMemoryUsageBytesFromGroups settings [group] = .ok usage := by
  obtain ⟨available, -, h⟩ := bind_eq_ok h
  unfold checkEnoughKvCacheMemory at h
  split at h
  · cases h
  · obtain ⟨usage, husage, -⟩ := bind_eq_ok h
    exact ⟨usage, husage⟩

lemma fitMaxModelLen_pos {groups : List KVCacheGroupSpec} (hpos : 0 < settings.maxModelLen)
    (h : fitMaxModelLen settings groups memory = .ok settings') : 0 < settings'.maxModelLen := by
  unfold fitMaxModelLen at h
  split at h
  · obtain ⟨maxModelLen, hfit, rfl⟩ := map_eq_ok h
    unfold autoFitMaxModelLen at hfit
    split at hfit
    · cases hfit
      exact hpos
    · obtain ⟨_, -, hfit⟩ := bind_eq_ok hfit
      obtain ⟨autoFitMax, -, hfit⟩ := bind_eq_ok hfit
      split at hfit
      · cases hfit
      · rename_i hne
        cases hfit
        exact lt_min (Nat.pos_of_ne_zero hne) hpos
  · cases h
    exact hpos

/-- The scheduler sees the blocks and the spec that all workers agree on. -/
lemma generateSchedulerKvCacheConfig_single {groupSpec : GroupSpec} {numBlocks : ℕ}
    (hconfigs : ∀ worker ∈ configs, worker.numBlocks = numBlocks ∧
      ∃ names, worker.kvCacheGroups = [⟨names, groupSpec⟩])
    (h : generateSchedulerKvCacheConfig configs = .ok config) :
    config.numBlocks = numBlocks ∧ ∃ spec, groupSpec.toKVCacheSpec = .ok (.fullAttention spec) ∧
      config.kvCacheGroups = [.fullAttention spec] := by
  cases configs with
  | nil => cases h
  | cons first rest =>
    obtain ⟨hblocks, names, hnames⟩ := hconfigs first mem_cons_self
    obtain ⟨_, -, h⟩ := bind_eq_ok h
    obtain ⟨specs, hspecs, rfl⟩ := map_eq_ok h
    rw [hnames] at hspecs
    cases mapM_eq_ok hspecs with
    | @cons _ spec _ _ hspec hnil =>
      cases hnil
      refine ⟨hblocks, ?_⟩
      cases groupSpec with
      | merged own =>
        cases hspec
        exact ⟨own, rfl, rfl⟩
      | uniformType blockSize layers =>
        cases layers with
        | nil => cases hspec
        | cons layer layers =>
          cases hspec
          exact ⟨layer.2, rfl, rfl⟩

/-- With a configuration that was accepted, the longest request gets its blocks exactly if each
worker's memory holds one block more than the request has. -/
theorem longestRequest_allocates_iff {settings settings' : CacheSettings}
    {workers : List LayerSpecs} {memory : List ℤ} {merged : LayerSpecs} {group : KVCacheGroupSpec}
    {configs : List WorkerKVCacheConfig} {config : KVCacheConfig} {spec : FullAttentionSpec}
    {hashBlockSize : ℕ} {enableCaching useEagle enableKvCacheEvents useIntBlockHashes : Bool}
    {kv : KVCacheManager} {request : Request} {args : AllocateArgs}
    (hlen : 0 < settings.maxModelLen) (hmerged : mergeKvCacheSpecs workers [] = .ok merged)
    (hgroups : getKvCacheGroups settings merged = .ok [group])
    (hconfigs : getKvCacheConfigs settings workers memory = .ok (configs, settings'))
    (hconfig : generateSchedulerKvCacheConfig configs = .ok config)
    (hspec : config.kvCacheGroups = [.fullAttention spec])
    (hnew : KVCacheManager.new config settings'.maxModelLen hashBlockSize enableCaching useEagle
      enableKvCacheEvents useIntBlockHashes 1 1 = .ok kv)
    (hall : AsksForAll request args settings'.maxModelLen)
    (hhashes : enableCaching = true → request.numTokens / spec.blockSize ≤ request.blockHashes.length) :
    (∃ blocks kv', kv.allocateSlots request kv.emptyKvCacheBlocks args = .ok (some blocks, kv')) ↔
      ∀ p ∈ workers.zip memory,
        (((cdiv settings'.maxModelLen spec.blockSize + 1) *
          group.kvCacheSpec.bytesPerBlock p.1.length : ℕ) : ℤ) ≤ p.2 := by
  obtain ⟨hcheck, hfit, minNumBlocks, hworkers, hfits⟩ :=
    getKvCacheConfigs_single hmerged hgroups hconfigs
  obtain ⟨hblocks, own, hown, hsame⟩ := generateSchedulerKvCacheConfig_single hworkers hconfig
  obtain rfl : own = spec := by
    rw [hsame] at hspec
    simpa using hspec
  obtain ⟨usage, husage⟩ := checkMinMemory_eq_ok hcheck
  have hsize : 0 < own.blockSize := blockSize_pos_of_usage hown husage
  rw [allocateSlots_new_iff hsame hsize (fitMaxModelLen_pos hlen hfit) hnew hall hhashes, hblocks,
    hfits _ (Nat.succ_pos _)]

/-! ## One layer -/

/-- A layer with blocks of four tokens, of eight bytes each. -/
def layerSpec : FullAttentionSpec where
  blockSize := 4
  numKvHeads := 1
  headSize := 1
  dtype := ⟨"uint8", 1⟩

/-- A prompt as long as the model takes. -/
def longestRequest : Request where
  requestId := 0
  promptTokenIds := some [1, 2, 3, 4]
  numPromptTokens := 4
  allTokenIds := [1, 2, 3, 4]

/-- The configuration of a worker that has `numBlocks` blocks of the layer. -/
def layerConfig (numBlocks : ℕ) : WorkerKVCacheConfig where
  numBlocks := numBlocks
  kvCacheTensors := [⟨8 * numBlocks, ["layer"]⟩]
  kvCacheGroups := [⟨["layer"], .merged layerSpec⟩]

lemma longestRequest_asksForAll :
    AsksForAll longestRequest { numNewTokens := 4 } ({ maxModelLen := 4 } : CacheSettings).maxModelLen :=
  ⟨rfl, rfl, rfl, rfl⟩

/-- The memory of two blocks is enough for a request of one block. -/
theorem longestRequest_allocates_twoPages :
    ∃ kv, getKvCacheConfigs { maxModelLen := 4 } [[("layer", layerSpec)]] [16] =
        .ok ([layerConfig 2], { maxModelLen := 4 }) ∧
      KVCacheManager.new ⟨2, [.fullAttention layerSpec]⟩ 4 4 false false false false 1 1 = .ok kv ∧
      ∃ blocks kv', kv.allocateSlots longestRequest kv.emptyKvCacheBlocks { numNewTokens := 4 } =
        .ok (some blocks, kv') := by
  have hconfigs : getKvCacheConfigs { maxModelLen := 4 } [[("layer", layerSpec)]] [16] =
      .ok ([layerConfig 2], { maxModelLen := 4 }) := rfl
  have hfits : ∀ p ∈ [[("layer", layerSpec)]].zip [(16 : ℤ)],
      (((cdiv 4 layerSpec.blockSize + 1) *
        (GroupSpec.merged layerSpec).bytesPerBlock p.1.length : ℕ) : ℤ) ≤ p.2 := by
    decide
  have hgroups : getKvCacheGroups { maxModelLen := 4 } [("layer", layerSpec)] =
      .ok [⟨["layer"], .merged layerSpec⟩] := rfl
  have hnew : ∃ kv, KVCacheManager.new ⟨2, [.fullAttention layerSpec]⟩ 4 4 false false false false
      1 1 = .ok kv := ⟨_, rfl⟩
  obtain ⟨kv, hnew⟩ := hnew
  refine ⟨kv, hconfigs, hnew, ?_⟩
  exact (longestRequest_allocates_iff (Nat.succ_pos 3) rfl hgroups hconfigs rfl rfl hnew
    longestRequest_asksForAll (by simp)).mpr hfits

/-- The memory of one block is accepted, but the only block is the null block. -/
theorem longestRequest_not_allocated_onePage :
    ∃ kv kv', getKvCacheConfigs { maxModelLen := 4 } [[("layer", layerSpec)]] [8] =
        .ok ([layerConfig 1], { maxModelLen := 4 }) ∧
      generateSchedulerKvCacheConfig [layerConfig 1] = .ok ⟨1, [.fullAttention layerSpec]⟩ ∧
      KVCacheManager.new ⟨1, [.fullAttention layerSpec]⟩ 4 4 false false false false 1 1 = .ok kv ∧
      AsksForAll longestRequest { numNewTokens := 4 } 4 ∧
      kv.allocateSlots longestRequest kv.emptyKvCacheBlocks { numNewTokens := 4 } =
        .ok (none, kv') :=
  ⟨_, _, rfl, rfl, rfl, longestRequest_asksForAll, rfl⟩

end VllmRuntime
