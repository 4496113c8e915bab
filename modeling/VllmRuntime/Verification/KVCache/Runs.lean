import VllmRuntime.Verification.KVCache.Hits

/-! # Runs of the KV cache manager

The invariant holds after construction and after every call of the scheduler whose hits fit. -/

namespace VllmRuntime

open List

variable {pool : BlockPool} {reserved : List BlockRef} {enableCaching : Bool}
  {m : SingleTypeKVCacheManager} {dcpWorldSize pcpWorldSize : ℕ} {hashBlockSize : ℕ}
  {enableKvCacheEvents useIntBlockHashes : Bool} {pool' : BlockPool}

open BlockHash SingleTypeKVCacheManager

/-! ## Construction -/

/-- A pool that no request has used. -/
structure BlockPool.Unused (pool : BlockPool) (reserved : List BlockRef) : Prop where
  null : pool.IsBlock pool.nullBlock ∧ pool.nullBlock ∉ reserved
  free : ∃ l, pool.FreeList reserved l
  refCnt : ∀ b, pool.refCnt b = 0
  blockHash : ∀ b, pool.blockHash b = none
  cache : pool.cachedBlockHashToBlock = ∅

lemma BlockPool.Unused.agrees (h : pool.Unused reserved) : pool.CacheAgrees where
  nodup := by
    rw [h.cache]
    intro key entry hentry
    simp at hentry
  stored_iff key b := by
    rw [h.cache, h.blockHash b]
    simp [BlockHashToBlockMap.not_stored_empty]
  null_hash := h.blockHash _

lemma BlockPool.new_unused {numGpuBlocks : ℕ}
    (h : BlockPool.new numGpuBlocks enableCaching hashBlockSize enableKvCacheEvents
      useIntBlockHashes = .ok pool) :
    pool.Unused [] ∧ pool.enableCaching = enableCaching ∧ pool.hashBlockSize = hashBlockSize := by
  obtain ⟨_, hpos, h⟩ := bind_eq_ok h
  obtain ⟨⟨nullBlock, queue⟩, hpop, hret⟩ := bind_eq_ok h
  cases hret
  obtain ⟨n, rfl⟩ : ∃ n, numGpuBlocks = n + 1 := by
    have : numGpuBlocks > 0 := by simpa using pyAssert_eq_ok.mp hpos
    exact ⟨numGpuBlocks - 1, by omega⟩
  have hinj : Function.Injective BlockRef.block := fun a b hab => by simpa using hab
  have hnodup : ((range (n + 1)).map BlockRef.block).Nodup :=
    nodup_range.map hinj
  have hqueue := FreeKVCacheBlockQueue.new_isQueue hnodup (by simp) (by simp)
  have hsplit : (range (n + 1)).map BlockRef.block =
      .block 0 :: (range n).map fun i => .block (i + 1) := by
    rw [range_succ_eq_map]
    simp
  rw [hsplit] at hqueue hnodup
  obtain ⟨queue', hpop', hqueue'⟩ := FreeKVCacheBlockQueue.popleft_isQueue hqueue
  rw [← hsplit] at hpop'
  cases hpop.symm.trans hpop'
  refine ⟨⟨⟨⟨0, by simp, rfl⟩, by simp⟩, ⟨_, hqueue', ?_, ?_⟩, fun _ => rfl, fun _ => rfl, rfl⟩, rfl,
    rfl⟩
  · intro b
    change _ ↔ (BlockPool.IsBlock _ b ∧ b ∉ []) ∧ b ≠ .block 0 ∧ (0 : ℤ) = 0
    simp only [mem_map, mem_range, not_mem_nil, not_false_eq_true, and_true]
    constructor
    · rintro ⟨i, hi, rfl⟩
      exact ⟨⟨i + 1, Nat.succ_lt_succ hi, rfl⟩, by simp⟩
    · rintro ⟨⟨id, hid, rfl⟩, hne⟩
      obtain ⟨i, rfl⟩ : ∃ i, id = i + 1 := ⟨id - 1, by
        have : id ≠ 0 := fun he => hne (by rw [he])
        omega⟩
      exact ⟨i, Nat.lt_of_succ_lt_succ hid, rfl⟩
  · intro b _ _
    exact le_rfl

/-- Blocks at the front of the queue are taken out of it for good. -/
lemma BlockPool.Unused.reserve {sinks : List BlockRef} (h : pool.Unused reserved) {n : ℕ}
    {queue : FreeKVCacheBlockQueue} (hpop : pool.freeBlockQueue.popleftN n = .ok (sinks, queue)) :
    BlockPool.Unused { pool with freeBlockQueue := queue } (reserved ++ sinks) := by
  obtain ⟨l, hfree⟩ := h.free
  have hn : n ≤ l.length := by
    by_contra hlt
    have hcount := hfree.isQueue.count
    have hne : (n : ℤ) ≠ 0 := by omega
    rw [FreeKVCacheBlockQueue.popleftN, if_neg hne] at hpop
    obtain ⟨_, hassert, -⟩ := bind_eq_ok hpop
    have hge := of_decide_eq_true (pyAssert_eq_ok.mp hassert)
    omega
  obtain ⟨queue', hpop', hqueue⟩ := FreeKVCacheBlockQueue.popleftN_isQueue hfree.isQueue hn
  cases hpop.symm.trans hpop'
  have hnodup := hfree.isQueue.nodup_blocks
  have hdisj : ∀ b ∈ l.take n, b ∉ l.drop n := by
    intro b hfront hback
    rw [← take_append_drop n l, nodup_append] at hnodup
    exact hnodup.2.2 b hfront b hback rfl
  refine ⟨⟨h.null.1, ?_⟩, ⟨l.drop n, hqueue, ?_, hfree.nonneg⟩, h.refCnt, h.blockHash, h.cache⟩
  · intro hmem
    rcases mem_append.mp hmem with hmem | hmem
    · exact h.null.2 hmem
    · exact ((hfree.mem_iff _).mp (mem_of_mem_take hmem)).2.1 rfl
  · intro b
    change b ∈ l.drop n ↔
      (pool.IsBlock b ∧ b ∉ reserved ++ l.take n) ∧ b ≠ pool.nullBlock ∧ pool.refCnt b = 0
    have hmem := hfree.mem_iff b
    have hsplit : b ∈ l ↔ b ∈ l.take n ∨ b ∈ l.drop n := by
      rw [← mem_append, take_append_drop]
    rw [mem_append, not_or]
    by_cases hfront : b ∈ l.take n
    · simp [hfront, hdisj b hfront]
    · simp only [hfront, false_or] at hsplit
      rw [← hsplit, hmem]
      simp [hfront]

/-- A manager that no request has used. -/
structure SingleTypeKVCacheManager.Unused (m : SingleTypeKVCacheManager) : Prop where
  reqToBlocks : m.reqToBlocks = ∅
  numCachedBlock : m.numCachedBlock = ∅
  allocatedBlockReqs : m.allocatedBlockReqs = ∅

lemma SingleTypeKVCacheManager.Unused.blocksOf (h : m.Unused) (r : RequestId) : m.blocksOf r = [] := by
  simp [SingleTypeKVCacheManager.blocksOf, h.reqToBlocks]

lemma SingleTypeKVCacheManager.Unused.holds (h : m.Unused) (b : BlockRef) : m.holds b = 0 := by
  simp [SingleTypeKVCacheManager.holds, h.reqToBlocks]

lemma SingleTypeKVCacheManager.new_unused {spec : KVCacheSpec} {kvCacheGroupId : ℕ}
    (hpool : pool.Unused reserved)
    (h : SingleTypeKVCacheManager.new spec pool enableCaching kvCacheGroupId dcpWorldSize
      pcpWorldSize = .ok (m, pool')) :
    m.Unused ∧ m.kvCacheSpec = spec ∧ m.enableCaching = enableCaching ∧
      m.kvCacheGroupId = kvCacheGroupId ∧ m.dcpWorldSize = dcpWorldSize ∧
      m.pcpWorldSize = pcpWorldSize ∧ BlockPool.SameConfig pool pool' ∧
      ∃ sinks, pool'.Unused (reserved ++ sinks) ∧
        (spec.isSinkFullAttention = false → sinks = []) := by
  unfold SingleTypeKVCacheManager.new at h
  split at h
  · rename_i attention sinkLen
    dsimp only at h
    split at h
    · cases h
    · rename_i n
      obtain ⟨_, -, h⟩ := bind_eq_ok h
      obtain ⟨⟨sinks, queue⟩, hpop, hret⟩ := bind_eq_ok h
      cases hret
      exact ⟨⟨rfl, rfl, rfl⟩, rfl, rfl, rfl, rfl, rfl, ⟨rfl, rfl, rfl, rfl⟩, sinks,
        hpool.reserve hpop, by simp [KVCacheSpec.isSinkFullAttention]⟩
  · cases h
    exact ⟨⟨rfl, rfl, rfl⟩, rfl, rfl, rfl, rfl, rfl, BlockPool.SameConfig.refl _, [],
      by simpa using hpool, fun _ => rfl⟩

lemma newManagers_unused {i : ℕ} {specs : List KVCacheSpec} {ms : List SingleTypeKVCacheManager}
    (hpool : pool.Unused reserved)
    (h : newManagers enableCaching dcpWorldSize pcpWorldSize i specs pool = .ok (ms, pool')) :
    ms.map kvCacheSpec = specs ∧ BlockPool.SameConfig pool pool' ∧
      (∀ (j : ℕ) (m : SingleTypeKVCacheManager), ms[j]? = some m →
        m.Unused ∧ m.enableCaching = enableCaching ∧ m.kvCacheGroupId = i + j ∧
        m.dcpWorldSize = dcpWorldSize ∧ m.pcpWorldSize = pcpWorldSize) ∧
      ∃ sinks, pool'.Unused (reserved ++ sinks) ∧
        ((∀ spec ∈ specs, spec.isSinkFullAttention = false) → sinks = []) := by
  induction specs generalizing i pool reserved ms with
  | nil =>
    cases h
    exact ⟨rfl, BlockPool.SameConfig.refl _, by simp, [], by simpa using hpool, fun _ => rfl⟩
  | cons spec specs ih =>
    rw [newManagers] at h
    obtain ⟨⟨m, pool₁⟩, hm, h⟩ := bind_eq_ok h
    obtain ⟨⟨ms₁, pool₂⟩, hrest, hret⟩ := bind_eq_ok h
    cases hret
    obtain ⟨hunused, hspec, hcaching, hid, hdcp, hpcp, hconfig, sinks, hpool₁, hsinks⟩ :=
      SingleTypeKVCacheManager.new_unused hpool hm
    obtain ⟨hspecs, hconfig', hall, sinks', hpool₂, hsinks'⟩ := ih hpool₁ hrest
    refine ⟨by simp [hspec, hspecs], hconfig.trans hconfig', ?_, sinks ++ sinks',
      by simpa using hpool₂, fun hnone => ?_⟩
    · intro j m' hj
      cases j with
      | zero =>
        obtain rfl : m = m' := by simpa using hj
        exact ⟨hunused, hcaching, hid, hdcp, hpcp⟩
      | succ j =>
        have hrec := hall j m' (by simpa using hj)
        rwa [show i + 1 + j = i + (j + 1) by omega] at hrec
    · rw [hsinks (hnone spec mem_cons_self),
        hsinks' fun s hs => hnone s (mem_cons_of_mem _ hs)]
      rfl

/-- What the engine checks of a configuration before it builds a cache manager. -/
structure ValidConfig (config : KVCacheConfig) (maxModelLen dcpWorldSize pcpWorldSize : ℕ) :
    Prop where
  specs : ∀ spec ∈ config.kvCacheGroups, ValidSpec spec
  maxModelLen : 0 < maxModelLen
  dcpWorldSize : 0 < dcpWorldSize
  pcpWorldSize : 0 < pcpWorldSize

/-- The tables are empty and all blocks but the null block and the sinks are free. -/
lemma KVCacheManager.new_inv {config : KVCacheConfig} {maxModelLen : ℕ} {useEagle : Bool}
    {kv : KVCacheManager} {tracked : Prop}
    (hconfig : ValidConfig config maxModelLen dcpWorldSize pcpWorldSize)
    (htracked : tracked → enableCaching = true)
    (h : KVCacheManager.new config maxModelLen hashBlockSize enableCaching useEagle
      enableKvCacheEvents useIntBlockHashes dcpWorldSize pcpWorldSize = .ok kv) :
    ∃ reserved, kv.coordinator.Invariant tracked reserved 0 ∧
      ((∀ spec ∈ config.kvCacheGroups, spec.isSinkFullAttention = false) → reserved = []) ∧
      kv.coordinator.maxModelLen = maxModelLen ∧
      kv.coordinator.singleTypeManagers.map kvCacheSpec = config.kvCacheGroups := by
  obtain ⟨c, hc, rfl⟩ := map_eq_ok h
  obtain ⟨pool₀, hpool, hc⟩ := bind_eq_ok hc
  obtain ⟨⟨ms, pool⟩, hms, hc⟩ := bind_eq_ok hc
  obtain ⟨kind, hkind, rfl⟩ := map_eq_ok hc
  obtain ⟨hunused₀, hcaching, hhash⟩ := BlockPool.new_unused hpool
  obtain ⟨hspecs, hsame, hall, sinks, hunused, hsinks⟩ := newManagers_unused hunused₀ hms
  rw [nil_append] at hunused
  have hmem : ∀ m ∈ ms, m.Unused ∧ m.enableCaching = enableCaching ∧
      m.dcpWorldSize = dcpWorldSize ∧ m.pcpWorldSize = pcpWorldSize := by
    intro m hm
    obtain ⟨j, hj⟩ := getElem?_of_mem hm
    obtain ⟨hu, hcache, -, hdcp, hpcp⟩ := hall j m hj
    exact ⟨hu, hcache, hdcp, hpcp⟩
  have hempty : ∀ b, numPositions ms b = 0 := by
    intro b
    apply sum_eq_zero
    intro n hn
    obtain ⟨m, hm, rfl⟩ := mem_map.mp hn
    exact (hmem m hm).1.holds b
  refine ⟨sinks, ⟨⟨?_, ?_, fun m hm => (hmem m hm).2.1, ?_, ?_, ?_, ?_, ?_⟩, ?_, ?_⟩, hsinks, rfl,
    hspecs⟩
  · rw [hspecs]
    exact hkind
  · intro m hm
    apply hconfig.specs
    rw [← hspecs]
    exact mem_map_of_mem hm
  · intro i m hi
    simpa using (hall i m hi).2.2.1
  · intro m hm
    obtain ⟨-, -, hdcp, hpcp⟩ := hmem m hm
    rw [CacheHit.unitaryBlockSize_eq _ hconfig.dcpWorldSize hconfig.pcpWorldSize,
      SingleTypeKVCacheManager.blockSize, hdcp, hpcp]
  · exact ⟨hconfig.dcpWorldSize, hconfig.pcpWorldSize⟩
  · exact hsame.enableCaching.trans hcaching
  · exact hsame.hashBlockSize.trans hhash
  · refine ⟨hunused.null, hunused.free, hunused.agrees, fun b _ => hunused.blockHash b, ?_, ?_, ?_,
      ?_, ?_, ?_⟩
    · intro m hm r b hb
      simp [(hmem m hm).1.blocksOf r] at hb
    · intro m hm r b _
      simp [(hmem m hm).1.blocksOf r]
    · intro b _
      rw [hunused.refCnt b, hempty b]
      rfl
    · intro ht
      rw [hsame.enableCaching, hcaching]
      exact htracked ht
    · intro _ b _
      exact ((numFresh_le ms b).trans (hempty b).le).trans (Nat.zero_le 1)
    · intro _ b _ _
      exact hunused.blockHash b
  · intro m hm _ r
    have hu := (hmem m hm).1
    refine ⟨fun hr => ?_, fun _ => Or.inr ⟨?_, ?_⟩⟩
    · simp [hu.allocatedBlockReqs] at hr
    · simp [hu.allocatedBlockReqs]
    · simp [numCached, hu.numCachedBlock]

/-! ## Allocation -/

namespace KVCacheManager

open KVCacheCoordinator

variable {tracked : Prop} {reserved : List BlockRef} {kv kv' : KVCacheManager}
  {c c' : KVCacheCoordinator} {request : Request} {hits : List (List BlockRef)}
  {args : AllocateArgs}

lemma prepareAllocation_inv {num : ℤ} (hinv : kv.coordinator.Invariant tracked reserved 0)
    (h : kv.prepareAllocation request hits args = .ok (num, c)) :
    c.Invariant tracked reserved 0 ∧ SameSetUp kv.coordinator c := by
  obtain ⟨c₁, hskip, hnum⟩ := bind_eq_ok h
  obtain ⟨hinv₁, hsame₁⟩ := removeSkippedBlocks_inv hinv hskip
  obtain ⟨hinv₂, hsame₂⟩ := getNumBlocksToAllocate_inv hinv₁ hnum
  exact ⟨hinv₂, hsame₁.trans hsame₂⟩

/-- The tokens of the computed blocks are among the tokens of the main model. -/
def TotalFits (maxModelLen : ℕ) (request : Request) (hits : List (List BlockRef))
    (args : AllocateArgs) : Prop :=
  hasComputedBlocks hits = true ∨ args.numExternalComputedTokens > 0 →
    args.numLocalComputedTokens request + args.numExternalComputedTokens ≤ maxModelLen

lemma numTokensMainModel_pos {maxModelLen : ℕ} (hlen : 0 < maxModelLen)
    (h : ¬ (args.numNewTokens = 0 ∧ args.numExternalComputedTokens = 0)) :
    0 < args.numTokensMainModel request maxModelLen := by
  unfold AllocateArgs.numTokensMainModel AllocateArgs.totalComputedTokens
  omega

lemma takeBlocks_inv {newBlocks : List (List BlockRef)} (hinv : c.Invariant tracked reserved 0)
    (hlen : 0 < c.maxModelLen) (hpos : ¬ (args.numNewTokens = 0 ∧ args.numExternalComputedTokens = 0))
    (hfit : HitsFit tracked reserved c hits (args.numLocalComputedTokens request)
      args.numExternalComputedTokens)
    (htotal : tracked → TotalFits c.maxModelLen request hits args)
    (h : takeBlocks c request hits args = .ok (newBlocks, c')) :
    c'.Invariant tracked reserved 0 ∧ SameSetUp c c' ∧
      ∀ m ∈ c'.singleTypeManagers, m.kvCacheSpec.isMambaAlign = true →
        (m.blocksOf request.requestId).length =
          cdiv (args.numTokensMainModel request c.maxModelLen) m.blockSize +
            m.kvCacheSpec.numSpeculativeBlocks := by
  obtain ⟨c₁, hadd, hnew⟩ := bind_eq_ok h
  -- The table of the request holds its hits; they are fewer than the blocks it will have.
  obtain ⟨tokens, hinv₁, hsame₁, hother, hle⟩ : ∃ tokens, c₁.Invariant tracked reserved tokens ∧
      SameSetUp c c₁ ∧ (∀ r', r' ≠ request.requestId → tokens r' = 0) ∧
      tokens request.requestId ≤ args.numTokensMainModel request c.maxModelLen := by
    unfold addComputedBlocks at hadd
    split at hadd
    · rename_i hsome
      obtain ⟨hinv₁, hsame₁⟩ := allocateNewComputedBlocks_inv hinv hfit hadd
      by_cases ht : tracked
      · refine ⟨_, hinv₁, hsame₁, fun r' hne => Pi.single_eq_of_ne hne _, ?_⟩
        have hbound := htotal ht (by simpa using hsome)
        rw [Pi.single_eq_same]
        unfold AllocateArgs.numTokensMainModel AllocateArgs.totalComputedTokens
        omega
      · refine ⟨0, ⟨hinv₁.setUp, hinv₁.cache, fun m hm hmode r => ?_⟩, hsame₁, fun _ _ => rfl,
          Nat.zero_le _⟩
        exact ⟨(hinv₁.align m hm hmode r).length, fun ht' => absurd ht' ht⟩
    · cases hadd
      exact ⟨0, hinv, SameSetUp.refl c, fun _ _ => rfl, Nat.zero_le _⟩
  rw [hsame₁.maxModelLen] at hnew
  obtain ⟨hinv₂, hsame₂, hlength⟩ := allocateNewBlocks_inv hinv₁ hother hle
    (numTokensMainModel_pos hlen hpos) hnew
  exact ⟨hinv₂, hsame₁.trans hsame₂, hlength⟩

lemma commitBlocks_inv (hinv : c.Invariant tracked reserved 0)
    (hlength : ∀ m ∈ c.singleTypeManagers, m.kvCacheSpec.isMambaAlign = true →
      (m.blocksOf request.requestId).length =
        cdiv (args.numTokensMainModel request c.maxModelLen) m.blockSize +
          m.kvCacheSpec.numSpeculativeBlocks)
    (h : commitBlocks c request args = .ok c') :
    c'.Invariant tracked reserved 0 ∧ SameSetUp c c' := by
  unfold commitBlocks at h
  split at h
  · cases h
    exact ⟨hinv, SameSetUp.refl c⟩
  · apply cacheBlocks_inv hinv _ h
    intro _ m hm hmode
    rw [hlength m hm hmode]
    apply Nat.add_le_add_right
    exact (Nat.div_le_div_right (min_le_left _ _)).trans (div_le_cdiv _ _)

/-- A call that returns has found too few free blocks, or has taken blocks and cached the full ones. -/
lemma allocateSlots_eq_ok {result : Option (List (List BlockRef))}
    (h : kv.allocateSlots request hits args = .ok (result, kv')) :
    ¬ (args.numNewTokens = 0 ∧ args.numExternalComputedTokens = 0) ∧
      ∃ num c, kv.prepareAllocation request hits args = .ok (num, c) ∧
        (result = none ∧ kv' = { kv with coordinator := c } ∨
          num ≤ c.blockPool.getNumFreeBlocks ∧ ∃ newBlocks c₂ c₃,
            takeBlocks c request hits args = .ok (newBlocks, c₂) ∧ commitBlocks c₂ request args = .ok c₃ ∧
            result = some newBlocks ∧ kv' = { kv with coordinator := c₃ }) := by
  unfold allocateSlots at h
  split at h
  · cases h
  · rename_i hpos
    obtain ⟨⟨num, c₁⟩, hprep, h⟩ := bind_eq_ok h
    refine ⟨hpos, num, c₁, hprep, ?_⟩
    dsimp only at h
    split at h
    · cases h
      exact .inl ⟨rfl, rfl⟩
    · rename_i henough
      obtain ⟨⟨newBlocks, c₂⟩, htake, h⟩ := bind_eq_ok h
      obtain ⟨c₃, hcommit, hret⟩ := bind_eq_ok h
      cases hret
      exact .inr ⟨not_lt.mp henough, newBlocks, c₂, c₃, htake, hcommit, rfl, rfl⟩

/-- `allocate_slots` keeps the invariant when its hits fit. -/
lemma allocateSlots_inv {result : Option (List (List BlockRef))}
    (hinv : kv.coordinator.Invariant tracked reserved 0) (hlen : 0 < kv.coordinator.maxModelLen)
    (hfit : HitsFit tracked reserved kv.coordinator hits (args.numLocalComputedTokens request)
      args.numExternalComputedTokens)
    (htotal : tracked → TotalFits kv.coordinator.maxModelLen request hits args)
    (h : kv.allocateSlots request hits args = .ok (result, kv')) :
    kv'.coordinator.Invariant tracked reserved 0 ∧ SameSetUp kv.coordinator kv'.coordinator := by
  obtain ⟨hpos, num, c₁, hprep, hcases⟩ := allocateSlots_eq_ok h
  obtain ⟨hinv₁, hsame₁⟩ := prepareAllocation_inv hinv hprep
  obtain ⟨-, rfl⟩ | ⟨-, newBlocks, c₂, c₃, htake, hcommit, -, rfl⟩ := hcases
  · exact ⟨hinv₁, hsame₁⟩
  · obtain ⟨hinv₂, hsame₂, hlength⟩ := takeBlocks_inv hinv₁ (hsame₁.maxModelLen ▸ hlen) hpos
      (hfit.of_same hsame₁) (hsame₁.maxModelLen ▸ htotal) htake
    rw [← hsame₂.maxModelLen] at hlength
    obtain ⟨hinv₃, hsame₃⟩ := commitBlocks_inv hinv₂ hlength hcommit
    exact ⟨hinv₃, (hsame₁.trans hsame₂).trans hsame₃⟩

end KVCacheManager

/-! ## Calls and runs -/

open KVCacheManager KVCacheCoordinator

namespace KVCacheCall

/-- The request of a lookup carries the hashes that the block hasher gave it. -/
def Hashed (hashFunction : HashInput → BlockHash) (noneHash : BlockHash) : KVCacheCall → Prop
  | allocateNew request _ => request.HashedBy hashFunction noneHash
  | _ => True

/-- When external tokens need blocks, no group has more hits than the computed tokens, local
and external, have blocks. -/
def HitsCovered (kv : KVCacheManager) : KVCacheCall → Prop
  | allocateNew request args => ∀ hits n, kv.getComputedBlocks request = .ok (hits, n) →
      args.numExternalComputedTokens > 0 →
      ∀ (i : ℕ) (m : SingleTypeKVCacheManager), kv.coordinator.singleTypeManagers[i]? = some m →
        m.kvCacheSpec.isCrossAttention = false → (hits.getD i []).length ≤
          cdiv (request.numComputedTokens + n + args.numExternalComputedTokens) m.blockSize
  | _ => True

/-- What the scheduler promises about token counts: computed tokens fit in the model length, and
the blocks it asks to cache in mode `align` are not the running state or speculative blocks. -/
def Promised (kv : KVCacheManager) : KVCacheCall → Prop
  | allocateNew request args => ∀ hits n, kv.getComputedBlocks request = .ok (hits, n) →
      request.numComputedTokens + n + args.numExternalComputedTokens ≤ kv.coordinator.maxModelLen
  | cacheBlocks request numComputedTokens => ∀ m ∈ kv.coordinator.singleTypeManagers,
      m.kvCacheSpec.isMambaAlign = true →
      numComputedTokens / m.blockSize + m.kvCacheSpec.numSpeculativeBlocks ≤
        (m.blocksOf request.requestId).length
  | _ => True

variable {hashFunction : HashInput → BlockHash} {noneHash : BlockHash} {tracked : Prop}
  {reserved : List BlockRef} {kv kv' : KVCacheManager}

/-- The hits of a lookup fit in the allocation that follows it. -/
lemma hitsFit_of_lookup {request : Request} {args : AllocateArgs}
    {hits : List (List BlockRef)} {n : ℕ} (hinv : kv.coordinator.Invariant tracked reserved 0)
    (hfree : CollisionFree hashFunction noneHash)
    (hhashed : (allocateNew request args).Hashed hashFunction noneHash)
    (hcovered : (allocateNew request args).HitsCovered kv)
    (hlook : kv.getComputedBlocks request = .ok (hits, n)) :
    HitsFit tracked reserved kv.coordinator hits
      ({ args with numNewComputedTokens := n }.numLocalComputedTokens request)
      args.numExternalComputedTokens := by
  refine ⟨fun i _ _ => getComputedBlocks_hits hinv hfree hhashed hlook i, ?_, ?_⟩
  · intro i m hm hcross hext
    exact hcovered hits n hlook hext i m hm hcross
  · intro _ i m hm hmode
    have hsize := blockSize_pos (hinv.setUp.specs m (mem_of_getElem? hm))
    have hnot : m.kvCacheSpec.isFullAttention = false := by
      obtain ⟨mamba, hspec, -⟩ := isMambaAlign_eq_true.mp hmode
      rw [hspec]
      rfl
    have hshort := (getComputedBlocks_result hinv.setUp hlook).short i m hm (Or.inl hnot)
    calc
      (hits.getD i []).length = cdiv ((hits.getD i []).length * m.blockSize) m.blockSize :=
        (cdiv_mul_right _ hsize).symm
      _ ≤ _ := by
        apply cdiv_mono
        change _ ≤ request.numComputedTokens + n + args.numExternalComputedTokens
        omega

lemma hitsFit_empty (kv : KVCacheManager) (numLocal : ℕ) :
    HitsFit tracked reserved kv.coordinator kv.emptyKvCacheBlocks numLocal 0 := by
  have hempty : ∀ i, kv.emptyKvCacheBlocks.getD i [] = [] := getD_map_nil _
  refine ⟨?_, ?_, ?_⟩
  · intro i m _
    rw [hempty]
    exact ⟨by simp, by simp⟩
  · intro i m _ _ hext
    omega
  · intro _ i m _ _
    rw [hempty]
    exact Nat.zero_le _

lemma hasComputedBlocks_empty (kv : KVCacheManager) :
    hasComputedBlocks kv.emptyKvCacheBlocks = false := by
  simp [hasComputedBlocks, emptyKvCacheBlocks]

/-- Every call of the scheduler keeps the invariant. -/
lemma run_inv {call : KVCacheCall} (hinv : kv.coordinator.Invariant tracked reserved 0)
    (hlen : 0 < kv.coordinator.maxModelLen) (hfree : CollisionFree hashFunction noneHash)
    (hhashed : call.Hashed hashFunction noneHash) (hcovered : call.HitsCovered kv)
    (hpromised : tracked → call.Promised kv) (h : call.run kv = .ok kv') :
    kv'.coordinator.Invariant tracked reserved 0 ∧ SameSetUp kv.coordinator kv'.coordinator := by
  cases call with
  | allocateNew request args =>
    obtain ⟨⟨hits, n⟩, hlook, h⟩ := bind_eq_ok h
    obtain ⟨⟨result, kv₁⟩, hslots, hret⟩ := bind_eq_ok h
    cases hret
    exact allocateSlots_inv hinv hlen (hitsFit_of_lookup hinv hfree hhashed hcovered hlook)
      (fun ht _ => hpromised ht hits n hlook) hslots
  | allocateRunning request args =>
    obtain ⟨⟨result, kv₁⟩, hslots, hret⟩ := bind_eq_ok h
    cases hret
    refine allocateSlots_inv hinv hlen (hitsFit_empty kv _) (fun _ hsome => ?_) hslots
    rw [hasComputedBlocks_empty] at hsome
    simp at hsome
  | cacheBlocks request numComputedTokens =>
    change kv.cacheBlocks request numComputedTokens = .ok kv' at h
    unfold KVCacheManager.cacheBlocks at h
    split at h
    · obtain ⟨c, hcache, rfl⟩ := map_eq_ok h
      exact cacheBlocks_inv hinv hpromised hcache
    · cases h
      exact ⟨hinv, SameSetUp.refl _⟩
  | removeSkippedBlocks requestId totalComputedTokens =>
    obtain ⟨c, hskip, rfl⟩ := map_eq_ok h
    exact removeSkippedBlocks_inv hinv hskip
  | free request =>
    obtain ⟨c, hcall, rfl⟩ := map_eq_ok h
    exact free_inv hinv hcall
  | evictBlocks blockIds =>
    obtain ⟨pool, hevict, rfl⟩ := map_eq_ok h
    exact evict_inv hinv (BlockPool.evictBlocks_evicted hinv.cache.agrees hevict)
  | resetPrefixCache =>
    cases h
    obtain ⟨reset, hreset⟩ := BlockPool.resetPrefixCache_evicted hinv.cache.agrees hinv.cache.null.1
    exact evict_inv hinv hreset

end KVCacheCall

/-- The states that calls reach, each of them admitted by `allowed` in the state before it. -/
inductive Reachable (allowed : KVCacheManager → KVCacheCall → Prop) (start : KVCacheManager) :
    KVCacheManager → Prop where
  | start : Reachable allowed start start
  | step {kv kv' : KVCacheManager} {call : KVCacheCall} : Reachable allowed start kv →
      allowed kv call → call.run kv = .ok kv' → Reachable allowed start kv'

namespace Reachable

variable {allowed : KVCacheManager → KVCacheCall → Prop} {start kv : KVCacheManager}

lemma inv {hashFunction : HashInput → BlockHash} {noneHash : BlockHash} {tracked : Prop}
    (hfree : CollisionFree hashFunction noneHash)
    (hallowed : ∀ kv call, allowed kv call → call.Hashed hashFunction noneHash ∧
      call.HitsCovered kv ∧ (tracked → call.Promised kv))
    (hinv : start.coordinator.Invariant tracked reserved 0) (hlen : 0 < start.coordinator.maxModelLen)
    (h : Reachable allowed start kv) :
    kv.coordinator.Invariant tracked reserved 0 ∧ SameSetUp start.coordinator kv.coordinator := by
  induction h with
  | start => exact ⟨hinv, SameSetUp.refl _⟩
  | step _ hcall hrun ih =>
    obtain ⟨hinv', hsame⟩ := ih
    obtain ⟨hhashed, hcovered, hpromised⟩ := hallowed _ _ hcall
    obtain ⟨hinv'', hsame'⟩ := KVCacheCall.run_inv hinv' (hsame.maxModelLen ▸ hlen) hfree hhashed
      hcovered hpromised hrun
    exact ⟨hinv'', hsame.trans hsame'⟩

end Reachable

end VllmRuntime
