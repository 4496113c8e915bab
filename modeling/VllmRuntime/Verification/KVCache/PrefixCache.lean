import VllmRuntime.Verification.KVCache.Assertions
import VllmRuntime.Verification.KVCache.RefCounts

/-! # The prefix cache

In every state that a run reaches, the map from hashes to blocks and the hashes of the blocks
agree, and no call fails because a block that is cached has a hash already. -/

namespace VllmRuntime

variable {kv : KVCacheManager} {reserved : List BlockRef} {request : Request} {hits : List (List BlockRef)}
  {args : AllocateArgs}

open List BlockHash BlockPool KVCacheManager KVCacheCoordinator

/-- The map and the blocks agree, and what they hand out fits. -/
structure PrefixCacheAgrees (kv : KVCacheManager) : Prop where
  nodup : kv.blockPool.cachedBlockHashToBlock.EntriesNodup
  stored_iff : ∀ key b, kv.blockPool.cachedBlockHashToBlock.Stored key b ↔
    kv.blockPool.IsBlock b ∧ b ≠ kv.blockPool.nullBlock ∧ kv.blockPool.blockHash b = some key
  cachedBlock : ∀ blockHash ids blocks, kv.blockPool.getCachedBlock blockHash ids = some blocks →
    ∀ (j groupId : ℕ), ids[j]? = some groupId → ∃ b, blocks[j]? = some b ∧
      kv.blockPool.blockHash b = some (makeBlockHashWithGroupId blockHash groupId)
  newBlocks : ∀ n ret pool, kv.blockPool.getNewBlocks n = .ok (ret, pool) → ∀ b ∈ ret,
    pool.blockHash b = none ∧ ∀ key, ¬ pool.cachedBlockHashToBlock.Stored key b

/-- When `allocate_slots` has taken its blocks, those that are not cached yet have no hash and
are in no entry of the map. -/
def TakesUnhashed (kv : KVCacheManager) (request : Request) (hits : List (List BlockRef))
    (args : AllocateArgs) : Prop :=
  ¬ (args.numNewTokens = 0 ∧ args.numExternalComputedTokens = 0) →
    ∀ num c newBlocks c', kv.prepareAllocation request hits args = .ok (num, c) →
    takeBlocks c request hits args = .ok (newBlocks, c') →
    ∀ m ∈ c'.singleTypeManagers,
    ∀ b ∈ (m.blocksOf request.requestId).drop (m.numCached request.requestId),
    b ≠ c'.blockPool.nullBlock →
    c'.blockPool.blockHash b = none ∧ ∀ key, ¬ c'.blockPool.cachedBlockHashToBlock.Stored key b

/-- The allocations of a call take blocks without a hash. -/
def KVCacheCall.TakesUnhashed (kv : KVCacheManager) : KVCacheCall → Prop
  | allocateNew request args => ∀ hits n, kv.getComputedBlocks request = .ok (hits, n) →
      VllmRuntime.TakesUnhashed kv request hits { args with numNewComputedTokens := n }
  | allocateRunning request args => VllmRuntime.TakesUnhashed kv request kv.emptyKvCacheBlocks
      { args with numNewComputedTokens := 0, numExternalComputedTokens := 0 }
  | _ => True

lemma getNewBlocks_unhashed {pool pool' : BlockPool} {l ret : List BlockRef} {n : ℤ}
    (hfree : pool.FreeList reserved l) (hagrees : pool.CacheAgrees) (hcaching : pool.enableCaching = true)
    (h : pool.getNewBlocks n = .ok (ret, pool')) :
    ∀ b ∈ ret, pool'.blockHash b = none ∧ ∀ key, ¬ pool'.cachedBlockHashToBlock.Stored key b := by
  intro b hb
  rcases lt_or_ge n 0 with hneg | hpos
  · -- A negative number of blocks is none.
    have hnil : ret = [] := by
      unfold BlockPool.getNewBlocks at h
      split at h
      · cases h
      · obtain ⟨⟨popped, queue⟩, hpop, h⟩ := bind_eq_ok h
        obtain ⟨pool₁, -, hret⟩ := bind_eq_ok h
        cases hret
        rw [FreeKVCacheBlockQueue.popleftN, if_neg (by omega)] at hpop
        obtain ⟨_, -, hpop⟩ := bind_eq_ok hpop
        obtain ⟨⟨popped', curr, links⟩, hloop, hpop⟩ := bind_eq_ok hpop
        cases hpop
        rw [show n.toNat = 0 by omega] at hloop
        exact (ok_pair_inj hloop).1.symm
    simp [hnil] at hb
  · obtain ⟨-, -, -, htaken⟩ := hfree.getNewBlocks_eq_ok hagrees hpos h
    have hnone := htaken.hash_reset hcaching b hb
    refine ⟨hnone, fun key hstored => ?_⟩
    rw [htaken.agrees.stored_iff, hnone] at hstored
    exact absurd hstored.2.2 (by simp)

lemma prefixCacheAgrees_of_inv {tokens : RequestId → ℕ} (h : kv.coordinator.Invariant True reserved tokens) :
    PrefixCacheAgrees kv := by
  obtain ⟨l, hfree⟩ := h.cache.free
  have hagrees := h.cache.agrees
  refine ⟨hagrees.nodup, hagrees.stored_iff, ?_, ?_⟩
  · intro blockHash ids blocks hget j groupId hj
    obtain ⟨b, hb, hone⟩ := getElem?_of_forall₂ (mapM_eq_some hget) hj
    exact ⟨b, hb, (hagrees.getOneBlock hone).2.2⟩
  · intro n ret pool hget
    exact getNewBlocks_unhashed hfree hagrees (h.cache.caching trivial) hget

lemma takesUnhashed_of_inv (hinv : kv.coordinator.Invariant True reserved 0)
    (hlen : 0 < kv.coordinator.maxModelLen)
    (hfit : HitsFit True reserved kv.coordinator hits (args.numLocalComputedTokens request)
      args.numExternalComputedTokens) (htotal : TotalFits kv.coordinator.maxModelLen request hits args) :
    TakesUnhashed kv request hits args := by
  intro hpos num c newBlocks c' hprep htake m hm b hb hne
  obtain ⟨hinv₁, hsame⟩ := prepareAllocation_inv hinv hprep
  obtain ⟨hinv₂, -, -⟩ := takeBlocks_inv hinv₁ (hsame.maxModelLen ▸ hlen) hpos
    (hfit.of_same hsame) (fun _ => hsame.maxModelLen ▸ htotal) htake
  obtain ⟨front, back, hsplit⟩ := append_of_mem hm
  have hcache := hinv₂.cache
  rw [hsplit] at hcache
  have hfresh := (hcache.focus request.requestId).fresh_hash trivial b hne (by
    have := List.count_pos_iff.mpr hb
    omega)
  refine ⟨hfresh, fun key hstored => ?_⟩
  rw [hcache.agrees.stored_iff, hfresh] at hstored
  exact absurd hstored.2.2 (by simp)

/-- In a run whose lookups never find more blocks than they have computed tokens for, the map
and the blocks agree in every state, no call fails on a hash, and new blocks have none. -/
theorem prefixCache_agrees_of_hitsCovered {config : KVCacheConfig} {maxModelLen hashBlockSize : ℕ}
    {useEagle enableKvCacheEvents useIntBlockHashes : Bool} {dcpWorldSize pcpWorldSize : ℕ}
    {hashFunction : HashInput → BlockHash} {noneHash : BlockHash} {start kv : KVCacheManager}
    (hconfig : ValidConfig config maxModelLen dcpWorldSize pcpWorldSize)
    (hfree : CollisionFree hashFunction noneHash)
    (hnew : KVCacheManager.new config maxModelLen hashBlockSize true useEagle
      enableKvCacheEvents useIntBlockHashes dcpWorldSize pcpWorldSize = .ok start)
    (hrun : Reachable (fun kv call => call.Hashed hashFunction noneHash ∧ call.Promised kv ∧
      call.HitsCovered kv) start kv) :
    PrefixCacheAgrees kv ∧ ∀ call : KVCacheCall, call.Hashed hashFunction noneHash →
      call.Promised kv → call.HitsCovered kv →
      NoHashAssertion (call.run kv) ∧ call.TakesUnhashed kv := by
  obtain ⟨reserved, hinv₀, -, hlen, -⟩ := KVCacheManager.new_inv hconfig
    (fun _ : True => rfl) hnew
  have hpos : 0 < start.coordinator.maxModelLen := hlen ▸ hconfig.maxModelLen
  obtain ⟨hinv, hsame⟩ := hrun.inv hfree
    (fun kv call hcall => ⟨hcall.1, hcall.2.2, fun _ => hcall.2.1⟩) hinv₀ hpos
  have hpos' : 0 < kv.coordinator.maxModelLen := hsame.maxModelLen ▸ hpos
  refine ⟨prefixCacheAgrees_of_inv hinv, fun call hhashed hpromised hcovered => ⟨?_, ?_⟩⟩
  · exact KVCacheCall.run_noHashAssertion trivial hinv hpos' hfree hhashed hcovered hpromised
  · cases call with
    | allocateNew request args =>
      intro hits n hlook
      exact takesUnhashed_of_inv hinv hpos'
        (KVCacheCall.hitsFit_of_lookup hinv hfree hhashed hcovered hlook)
        (fun _ => hpromised hits n hlook)
    | allocateRunning request args =>
      apply takesUnhashed_of_inv hinv hpos' (KVCacheCall.hitsFit_empty kv _)
      intro hsome
      rw [KVCacheCall.hasComputedBlocks_empty] at hsome
      simp at hsome
    | cacheBlocks request numComputedTokens => trivial
    | removeSkippedBlocks requestId totalComputedTokens => trivial
    | free request => trivial
    | evictBlocks blockIds => trivial
    | resetPrefixCache => trivial

instance KVCacheCall.decidablePromised (kv : KVCacheManager) (call : KVCacheCall) : Decidable (call.Promised kv) :=
  match call with
  | .allocateNew request _ => decidableForallOk (kv.getComputedBlocks request)
  | .cacheBlocks _ _ => inferInstanceAs (Decidable (∀ m ∈ kv.coordinator.singleTypeManagers, _))
  | .allocateRunning _ _ | .removeSkippedBlocks _ _ | .free _
  | .evictBlocks _ | .resetPrefixCache => .isTrue trivial

theorem prefixCache_agrees_windowConfig :
    ∃ start kv, windowManager = .ok start ∧
      Reachable (fun kv call => call.Hashed serialize serializeSeed ∧ call.Promised kv ∧
        call.HitsCovered kv) start kv ∧
      kv.coordinator.getBlocks 1 =
        [[.block 1, .block 2, .block 7], [.block 0, .block 0, .block 8]] ∧
      PrefixCacheAgrees kv := by
  have heval : (runCheckedFrom windowManager (fun call kv => call.run kv)
      (fun kv call => decide (call.Promised kv ∧ call.HitsCovered kv)) (fillCalls ++ [loadCall])).map
        (fun p => p.2.coordinator.getBlocks 1) =
      some [[.block 1, .block 2, .block 7], [.block 0, .block 0, .block 8]] := by
    decide +kernel
  obtain ⟨start, kv, hstart, hreach, hblocks⟩ := reachable_of_map_runCheckedFrom
    (fun kv call hcall hcheck => And.intro (loadCalls_hashed call hcall) (of_decide_eq_true hcheck)) heval
  exact ⟨start, kv, hstart, hreach, hblocks, (prefixCache_agrees_of_hitsCovered windowConfig_valid
    serialize_collisionFree hstart hreach).1⟩

/-! ## A cached sentinel -/

/-- After the count of free blocks has become too large, another request takes one block more
than there are. -/
def sentinelCalls : List KVCacheCall :=
  longHitsCalls ++ [.allocateNew (hashedRequest 2 [1, 1]) { numNewTokens := 2 }]

/-- The tail of the free queue is stored in the map: it is no block of the pool. -/
theorem prefixCache_disagrees_twoFullConfig :
    ∃ start kv, KVCacheManager.new twoFullConfig 10 1 true false false false 1 1 = .ok start ∧
      Reachable (fun _ call => call.Hashed serialize serializeSeed) start kv ∧
      ¬ PrefixCacheAgrees kv := by
  have heval : (runCheckedFrom (KVCacheManager.new twoFullConfig 10 1 true false false false 1 1)
      (fun call kv => call.run kv) (fun _ _ => true) sentinelCalls).map (fun p =>
        (p.2.blockPool.blockHash .fakeTail).bind p.2.blockPool.cachedBlockHashToBlock.getOneBlock) =
      some (some .fakeTail) := by
    decide +kernel
  have hhashed : ∀ call ∈ sentinelCalls, call.Hashed serialize serializeSeed := by
    intro call hcall
    simp only [sentinelCalls, mem_append, mem_singleton] at hcall
    rcases hcall with hcall | rfl
    · exact longHitsCalls_hashed call hcall
    · exact hashedRequest_hashed _ _ _
  obtain ⟨start, kv, hstart, hreach, hstored⟩ :=
    reachable_of_map_runCheckedFrom (fun _ call hcall _ => hhashed call hcall) heval
  refine ⟨start, kv, hstart, hreach, fun h => ?_⟩
  obtain ⟨key, -, hget⟩ := Option.bind_eq_some_iff.mp hstored
  obtain ⟨⟨id, -, hid⟩, -⟩ :=
    (h.stored_iff key .fakeTail).mp (BlockHashToBlockMap.stored_of_getOneBlock hget)
  cases hid

end VllmRuntime
