import VllmRuntime.Verification.BlockPool.Cache
import VllmRuntime.Verification.BlockPool.Equations

/-! # Agreement of the map and the hashes

Caching, eviction and the reset of the cache keep the map from hashes to blocks in step with
the hashes of the blocks. -/

namespace VllmRuntime.BlockPool

open List Function

variable {pool pool' : BlockPool} {kvCacheGroupId numCachedBlocks numFullBlocks blockSize : ℕ}
  {blocks : List BlockRef} {b : BlockRef} {hashes : List BlockHash} {request : Request}
  {key : BlockHashWithGroupId} {newHashes : List ExternalBlockHash} {α : Type}

/-- A block is stored under a key exactly when it is a block of the pool, other than the null
block, that carries the key as its hash; no entry lists a block twice. -/
structure CacheAgrees (pool : BlockPool) : Prop where
  nodup : pool.cachedBlockHashToBlock.EntriesNodup
  stored_iff : ∀ key b, pool.cachedBlockHashToBlock.Stored key b ↔
    pool.IsBlock b ∧ b ≠ pool.nullBlock ∧ pool.blockHash b = some key
  null_hash : pool.blockHash pool.nullBlock = none

lemma CacheAgrees.of_sameCache (h : CacheAgrees pool) (hs : SameCache pool pool') :
    CacheAgrees pool' where
  nodup := by rw [hs.cache]; exact h.nodup
  stored_iff key b := by
    rw [hs.cache, hs.blockHash, hs.nullBlock, hs.isBlock_iff]
    exact h.stored_iff key b
  null_hash := by rw [hs.blockHash, hs.nullBlock]; exact h.null_hash

lemma CacheAgrees.getOneBlock (h : CacheAgrees pool)
    (hget : pool.cachedBlockHashToBlock.getOneBlock key = some b) :
    pool.IsBlock b ∧ b ≠ pool.nullBlock ∧ pool.blockHash b = some key :=
  (h.stored_iff key b).mp (BlockHashToBlockMap.stored_of_getOneBlock hget)

/-! ## Eviction -/

/-- The hashes of some blocks are reset and the blocks are no longer stored. -/
structure Evicted (pool pool' : BlockPool) (reset : BlockRef → Prop) : Prop where
  config : SameConfig pool pool'
  queue : pool'.freeBlockQueue = pool.freeBlockQueue
  refCnt : pool'.refCnt = pool.refCnt
  agrees : CacheAgrees pool'
  hash_reset : ∀ b, reset b → pool'.blockHash b = none
  hash_kept : ∀ b, ¬ reset b → pool'.blockHash b = pool.blockHash b

lemma resetHash_blockHash (pool : BlockPool) (b c : BlockRef) :
    (pool.resetHash b).blockHash c = if c = b then none else pool.blockHash c := by
  by_cases h : c = b
  · subst h
    simp [resetHash, blockHash]
  · simp [resetHash, blockHash, h]

lemma resetHash_refCnt (pool : BlockPool) (b : BlockRef) :
    (pool.resetHash b).refCnt = pool.refCnt := by
  funext c
  by_cases h : c = b
  · subst h
    simp [resetHash, refCnt]
  · simp [resetHash, refCnt, h]

/-- Taking one block out of the map and resetting its hash keeps the agreement. -/
lemma CacheAgrees.evict (h : CacheAgrees pool) {cache : BlockHashToBlockMap} (hnodup : cache.EntriesNodup)
    (hb : pool.blockHash b = some key) (hstored : ∀ key' c, cache.Stored key' c ↔
      pool.cachedBlockHashToBlock.Stored key' c ∧ ¬ (key' = key ∧ c = b)) :
    CacheAgrees ({ pool with cachedBlockHashToBlock := cache }.resetHash b) where
  nodup := hnodup
  stored_iff key' c := by
    have hhash := resetHash_blockHash { pool with cachedBlockHashToBlock := cache } b c
    rw [hhash]
    change cache.Stored key' c ↔ pool.IsBlock c ∧ c ≠ pool.nullBlock ∧ _
    rw [hstored, h.stored_iff]
    by_cases hcb : c = b
    · subst hcb
      simp only [if_true, reduceCtorEq, and_false, iff_false]
      rintro ⟨⟨-, -, hc⟩, hother⟩
      exact hother ⟨Option.some.inj (hc.symm.trans hb), trivial⟩
    · simp only [hcb, and_false, not_false_eq_true, and_true, if_false]
      rfl
  null_hash := by
    have hhash := resetHash_blockHash { pool with cachedBlockHashToBlock := cache } b pool.nullBlock
    rw [show (resetHash { pool with cachedBlockHashToBlock := cache } b).nullBlock =
      pool.nullBlock from rfl, hhash]
    split
    · rfl
    · exact h.null_hash

lemma maybeEvictCachedBlock_evicted (h : CacheAgrees pool) (hblock : pool.IsBlock b) :
    Evicted pool (pool.maybeEvictCachedBlock b).2 (· = b) := by
  unfold maybeEvictCachedBlock
  cases hb : pool.blockHash b with
  | none =>
    refine ⟨SameConfig.refl _, rfl, rfl, h, ?_, fun _ _ => rfl⟩
    rintro c rfl
    exact hb
  | some key =>
    have hne : b ≠ pool.nullBlock := by
      rintro rfl
      rw [h.null_hash] at hb
      cases hb
    have hst := (h.stored_iff key b).mpr ⟨hblock, hne, hb⟩
    obtain ⟨cache', hpop, hnodup, hstored⟩ := BlockHashToBlockMap.pop_stored h.nodup hst
    have hagrees := h.evict hnodup hb hstored
    have hhash := resetHash_blockHash { pool with cachedBlockHashToBlock := cache' } b
    have hreset : ∀ c, c = b →
        (resetHash { pool with cachedBlockHashToBlock := cache' } b).blockHash c = none := by
      intro c hc
      rw [hhash, if_pos hc]
    have hkept : ∀ c, ¬ c = b →
        (resetHash { pool with cachedBlockHashToBlock := cache' } b).blockHash c =
          pool.blockHash c := by
      intro c hc
      rw [hhash, if_neg hc]
      rfl
    have hrefs := resetHash_refCnt { pool with cachedBlockHashToBlock := cache' } b
    simp only [hpop]
    split
    · exact ⟨⟨rfl, rfl, rfl, rfl⟩, rfl, hrefs,
        ⟨hagrees.nodup, hagrees.stored_iff, hagrees.null_hash⟩, hreset, hkept⟩
    · exact ⟨⟨rfl, rfl, rfl, rfl⟩, rfl, hrefs, hagrees, hreset, hkept⟩

lemma evictBlocks_evicted {blockIds : List ℕ} (hagrees : CacheAgrees pool)
    (h : pool.evictBlocks blockIds = .ok pool') :
    Evicted pool pool' (fun b => ∃ id ∈ blockIds, b = .block id) := by
  induction blockIds generalizing pool with
  | nil =>
    cases h
    exact ⟨SameConfig.refl _, rfl, rfl, hagrees, by simp, fun _ _ => rfl⟩
  | cons blockId blockIds ih =>
    rw [evictBlocks] at h
    obtain ⟨_, hbound, hrest⟩ := bind_eq_ok h
    have hblock : pool.IsBlock (.block blockId) :=
      ⟨blockId, by simpa using pyAssert_eq_ok.mp hbound, rfl⟩
    have hone := maybeEvictCachedBlock_evicted hagrees hblock
    have hmore := ih hone.agrees hrest
    refine ⟨hone.config.trans hmore.config, hmore.queue.trans hone.queue,
      hmore.refCnt.trans hone.refCnt, hmore.agrees, ?_, ?_⟩
    · rintro b ⟨id, hid, rfl⟩
      by_cases hlater : ∃ id' ∈ blockIds, BlockRef.block id = .block id'
      · exact hmore.hash_reset _ hlater
      · rw [hmore.hash_kept _ hlater]
        rcases List.mem_cons.mp hid with rfl | hmem
        · exact hone.hash_reset _ rfl
        · exact absurd ⟨id, hmem, rfl⟩ hlater
    · intro b hb
      have hlater : ¬ ∃ id' ∈ blockIds, b = .block id' := fun ⟨id', hid', heq⟩ =>
        hb ⟨id', mem_cons_of_mem _ hid', heq⟩
      have hfirst : ¬ b = .block blockId := fun heq => hb ⟨blockId, mem_cons_self, heq⟩
      rw [hmore.hash_kept b hlater, hone.hash_kept b hfirst]

lemma resetPrefixCache_evicted (h : CacheAgrees pool) (hnull : pool.IsBlock pool.nullBlock) :
    ∃ reset, Evicted pool pool.resetPrefixCache.2 reset := by
  unfold resetPrefixCache
  simp only
  split
  · exact ⟨fun _ => False, SameConfig.refl _, rfl, rfl, h, fun _ hf => hf.elim, fun _ _ => rfl⟩
  · set cleared : BlockPool := { pool with
      cachedBlockHashToBlock := ∅
      blocks := fun b =>
        if pool.IsBlock b then { pool.blocks b with blockHash := none } else pool.blocks b }
      with hcleared
    have hhash : ∀ b, cleared.blockHash b = if pool.IsBlock b then none else pool.blockHash b := by
      intro b
      simp only [hcleared, blockHash]
      split <;> rfl
    have hrefs : cleared.refCnt = pool.refCnt := by
      funext b
      simp only [hcleared, refCnt]
      split <;> rfl
    have hagrees : CacheAgrees cleared := by
      refine ⟨?_, ?_, ?_⟩
      · intro key entry hl
        simp [hcleared] at hl
      · intro key b
        refine iff_of_false (BlockHashToBlockMap.not_stored_empty key b) ?_
        rintro ⟨hblock, -, hb⟩
        rw [hhash, if_pos (show pool.IsBlock b from hblock)] at hb
        cases hb
      · exact (hhash pool.nullBlock).trans (if_pos hnull)
    refine ⟨pool.IsBlock, ?_⟩
    split
    · exact ⟨⟨rfl, rfl, rfl, rfl⟩, rfl, hrefs,
        ⟨hagrees.nodup, hagrees.stored_iff, hagrees.null_hash⟩,
        fun b hb => (hhash b).trans (if_pos hb), fun b hb => (hhash b).trans (if_neg hb)⟩
    · exact ⟨⟨rfl, rfl, rfl, rfl⟩, rfl, hrefs, hagrees,
        fun b hb => (hhash b).trans (if_pos hb), fun b hb => (hhash b).trans (if_neg hb)⟩

/-! ## Caching -/

/-- One block more is stored. -/
lemma CacheAgrees.cache (h : CacheAgrees pool) (hblock : pool.IsBlock b) (hne : b ≠ pool.nullBlock)
    (hhash : pool.blockHash b = none) (key : BlockHashWithGroupId) :
    CacheAgrees { pool with
      blocks := update pool.blocks b { pool.blocks b with blockHash := key }
      cachedBlockHashToBlock := pool.cachedBlockHashToBlock.insert key b } := by
  refine ⟨h.nodup.insert, ?_, ?_⟩
  · intro key' c
    change (pool.cachedBlockHashToBlock.insert key b).Stored key' c ↔
      pool.IsBlock c ∧ c ≠ pool.nullBlock ∧ (update pool.blocks b
        { pool.blocks b with blockHash := key } c).blockHash = some key'
    rw [BlockHashToBlockMap.stored_insert, h.stored_iff]
    by_cases hcb : c = b
    · subst hcb
      rw [hhash]
      simp only [update_self, Option.some.injEq, reduceCtorEq, and_false, false_or,
        and_true]
      exact ⟨fun he => ⟨hblock, hne, he.symm⟩, fun he => he.2.2.symm⟩
    · rw [update_of_ne hcb]
      simp only [hcb, and_false, or_false]
      rfl
  · change (update pool.blocks b _ pool.nullBlock).blockHash = none
    rw [update_of_ne (Ne.symm hne)]
    exact h.null_hash

/-- What caching `blocks` under `hashes` does. -/
structure Cached (pool pool' : BlockPool) (kvCacheGroupId : ℕ) (blocks : List BlockRef)
    (hashes : List BlockHash) : Prop where
  config : SameConfig pool pool'
  queue : pool'.freeBlockQueue = pool.freeBlockQueue
  refCnt : pool'.refCnt = pool.refCnt
  agrees : CacheAgrees pool'
  hash_kept : ∀ b, b ∉ blocks ∨ b = pool.nullBlock → pool'.blockHash b = pool.blockHash b
  hash_new : ∀ (i : ℕ) (b : BlockRef), blocks[i]? = some b → b ≠ pool.nullBlock →
    pool.blockHash b = none ∧ ∃ hash, hashes[i]? = some hash ∧
      pool'.blockHash b = some (makeBlockHashWithGroupId hash kvCacheGroupId)

lemma cacheFullBlocksLoop_cached (hagrees : CacheAgrees pool) (hblocks : ∀ b ∈ blocks, pool.IsBlock b)
    (h : cacheFullBlocksLoop kvCacheGroupId blocks hashes pool = .ok (newHashes, pool')) :
    Cached pool pool' kvCacheGroupId blocks hashes := by
  induction blocks generalizing hashes pool newHashes with
  | nil =>
    cases h
    exact ⟨SameConfig.refl _, rfl, rfl, hagrees, fun _ _ => rfl, by simp⟩
  | cons blk blks ih =>
    unfold cacheFullBlocksLoop at h
    by_cases hnull : blk = pool.nullBlock
    · rw [if_pos hnull] at h
      have hrest := ih hagrees (fun b hb => hblocks b (mem_cons_of_mem _ hb)) h
      refine ⟨hrest.config, hrest.queue, hrest.refCnt, hrest.agrees, ?_, ?_⟩
      · intro b hb
        refine hrest.hash_kept b (hb.imp_left fun hnot hmem => ?_)
        exact hnot (mem_cons_of_mem _ hmem)
      · intro i b hi hne
        cases i with
        | zero => exact absurd ((Option.some.inj hi).symm.trans hnull) hne
        | succ i =>
          obtain ⟨hnone, hash, hhash, hnew⟩ := hrest.hash_new i b (by simpa using hi) hne
          exact ⟨hnone, hash, by rw [← hhash]; cases hashes <;> simp, hnew⟩
    · rw [if_neg hnull] at h
      by_cases hsome : (pool.blockHash blk).isSome
      · rw [if_pos hsome] at h
        cases h
      · rw [if_neg hsome] at h
        have hnone : pool.blockHash blk = none := by simpa using hsome
        cases hashes with
        | nil => cases h
        | cons hash hashes =>
          obtain ⟨pool₁, hset, h⟩ := bind_eq_ok h
          obtain ⟨⟨more, pool₂⟩, hloop, hret⟩ := bind_eq_ok h
          cases hret
          rw [setBlockHash, if_neg hsome] at hset
          cases hset
          have hblk := hblocks blk mem_cons_self
          have hstep := hagrees.cache hblk hnull hnone
            (makeBlockHashWithGroupId hash kvCacheGroupId)
          have hrest := ih hstep
            (fun b hb => hblocks b (mem_cons_of_mem _ hb)) hloop
          have hother : ∀ b, b ≠ blk → BlockPool.blockHash { pool with
              blocks := update pool.blocks blk { pool.blocks blk with
                blockHash := (makeBlockHashWithGroupId hash kvCacheGroupId) }
              cachedBlockHashToBlock := pool.cachedBlockHashToBlock.insert
                (makeBlockHashWithGroupId hash kvCacheGroupId) blk } b = pool.blockHash b := by
            intro b hb
            simp [blockHash, hb]
          -- A block that has just been cached does not come up again.
          have honce : blk ∉ blks := by
            intro hmem
            obtain ⟨i, hi⟩ := getElem?_of_mem hmem
            have := (hrest.hash_new i blk hi hnull).1
            simp [blockHash] at this
          refine ⟨⟨hrest.config.1, hrest.config.2, hrest.config.3, hrest.config.4⟩, hrest.queue,
            ?_, hrest.agrees, ?_, ?_⟩
          · rw [hrest.refCnt]
            funext b
            by_cases hb : b = blk
            · subst hb
              simp [refCnt]
            · simp [refCnt, hb]
          · intro b hb
            have hne : b ≠ blk := by
              rintro rfl
              exact hb.elim (fun hnot => hnot mem_cons_self) hnull
            rw [hrest.hash_kept b (hb.imp_left fun hnot hmem =>
              hnot (mem_cons_of_mem _ hmem)), hother b hne]
          · intro i b hi hne
            cases i with
            | zero =>
              cases hi
              refine ⟨hnone, hash, by simp, ?_⟩
              rw [hrest.hash_kept blk (Or.inl honce)]
              simp [blockHash]
            | succ i =>
              have hmem : b ∈ blks := mem_of_getElem? (by simpa using hi)
              have hbne : b ≠ blk := fun he => honce (he ▸ hmem)
              obtain ⟨hn, hash', hhash', hnew⟩ := hrest.hash_new i b (by simpa using hi) hne
              exact ⟨by rw [← hother b hbne]; exact hn, hash', by simpa using hhash', hnew⟩

lemma Cached.withEvents (h : Cached pool pool' kvCacheGroupId blocks hashes)
    (events : List KVCacheEvent) :
    Cached pool { pool' with kvEventQueue := events } kvCacheGroupId blocks hashes :=
  ⟨⟨h.config.1, h.config.2, h.config.3, h.config.4⟩, h.queue, h.refCnt,
    ⟨h.agrees.nodup, h.agrees.stored_iff, h.agrees.null_hash⟩, h.hash_kept, h.hash_new⟩

lemma storeEvent_eq {blockHashes : List BlockHash}
    (h : pool.storeEvent request blockHashes newHashes numCachedBlocks numFullBlocks blockSize =
      .ok pool') : ∃ events, pool' = { pool with kvEventQueue := events } := by
  unfold storeEvent at h
  split at h
  · obtain ⟨parent, -, hret⟩ := bind_eq_ok h
    exact ⟨_, (Except.ok.inj hret).symm⟩
  · cases h
    exact ⟨_, rfl⟩

lemma cacheFullBlocks_cached (hagrees : CacheAgrees pool) (hblocks : ∀ b ∈ blocks, pool.IsBlock b)
    (hlt : numCachedBlocks < numFullBlocks)
    (h : pool.cacheFullBlocks request blocks numCachedBlocks numFullBlocks blockSize
      kvCacheGroupId = .ok pool') :
    ∃ hashes, pool.requestBlockHashes request blockSize = .ok hashes ∧
      Cached pool pool' kvCacheGroupId ((blocks.take numFullBlocks).drop numCachedBlocks)
        (hashes.drop numCachedBlocks) := by
  rw [cacheFullBlocks, if_neg (by omega)] at h
  obtain ⟨_, -, h⟩ := bind_eq_ok h
  obtain ⟨hashes, hhashes, h⟩ := bind_eq_ok h
  obtain ⟨⟨newHashes, pool₁⟩, hloop, h⟩ := bind_eq_ok h
  obtain ⟨events, rfl⟩ := storeEvent_eq h
  refine ⟨hashes, hhashes, (cacheFullBlocksLoop_cached hagrees ?_ hloop).withEvents events⟩
  intro b hb
  exact hblocks b (mem_of_mem_take (mem_of_mem_drop hb))

/-! ## The assertions on the hash -/

/-- The result is not the failure of an assertion that a block has no hash. -/
def NoHashAssertion {α : Type} (x : Except PyError α) : Prop :=
  ∀ message, x ≠ .error (.blockHashAssertion message)

lemma noHashAssertion_ok (a : α) : NoHashAssertion (.ok a) :=
  fun _ h => by cases h

lemma noHashAssertion_pyAssert (condition : Bool) (message : String) :
    NoHashAssertion (pyAssert condition message) := by
  intro message' h
  unfold pyAssert at h
  split at h <;> cases h

lemma NoHashAssertion.bind {β : Type} {x : Except PyError α} {f : α → Except PyError β}
    (hx : NoHashAssertion x) (hf : ∀ a, x = .ok a → NoHashAssertion (f a)) :
    NoHashAssertion (x >>= f) := by
  intro message h
  rcases bind_eq_error h with hfirst | ⟨a, ha, hrest⟩
  · exact hx message hfirst
  · exact hf a ha message hrest

/-- Caching different blocks without hashes does not fail on a hash. -/
lemma cacheFullBlocksLoop_noHashAssertion
    (hfresh : ∀ b ∈ blocks, b ≠ pool.nullBlock → pool.blockHash b = none ∧ blocks.count b ≤ 1) :
    NoHashAssertion (cacheFullBlocksLoop kvCacheGroupId blocks hashes pool) := by
  induction blocks generalizing hashes pool with
  | nil => exact noHashAssertion_ok _
  | cons blk blks ih =>
    have hlater : ∀ b ∈ blks, b ≠ pool.nullBlock → pool.blockHash b = none ∧ blks.count b ≤ 1 := by
      intro b hb hne
      obtain ⟨hnone, hcount⟩ := hfresh b (mem_cons_of_mem _ hb) hne
      exact ⟨hnone, (count_le_count_cons).trans hcount⟩
    unfold cacheFullBlocksLoop
    split
    · exact ih hlater
    · rename_i hnull
      obtain ⟨hnone, hcount⟩ := hfresh blk mem_cons_self hnull
      have hsome : ¬ (pool.blockHash blk).isSome := by simp [hnone]
      rw [if_neg hsome]
      cases hashes with
      | nil => exact fun _ h => by cases h
      | cons hash hashes =>
        have honce : blk ∉ blks := by
          intro hmem
          have := List.count_pos_iff.mpr hmem
          rw [count_cons_self] at hcount
          omega
        apply NoHashAssertion.bind
        · rw [setBlockHash, if_neg hsome]
          exact noHashAssertion_ok _
        · intro pool₁ hset
          rw [setBlockHash, if_neg hsome] at hset
          cases hset
          apply NoHashAssertion.bind
          · apply ih
            intro b hb hne
            obtain ⟨hb', hcount'⟩ := hlater b hb hne
            have hbne : b ≠ blk := fun he => honce (he ▸ hb)
            refine ⟨?_, hcount'⟩
            simpa [blockHash, hbne] using hb'
          · intro result _
            exact noHashAssertion_ok _

lemma storeEvent_noHashAssertion (pool : BlockPool) (request : Request)
    (blockHashes : List BlockHash) (newHashes : List ExternalBlockHash)
    (numCachedBlocks numFullBlocks blockSize : ℕ) :
    NoHashAssertion (pool.storeEvent request blockHashes newHashes numCachedBlocks numFullBlocks
      blockSize) := by
  unfold storeEvent
  split
  · refine NoHashAssertion.bind ?_ fun _ _ => noHashAssertion_ok _
    intro message h
    unfold parentBlockHash at h
    split at h
    · cases h
    · split at h <;> cases h
  · exact noHashAssertion_ok _

lemma cacheFullBlocks_noHashAssertion (hfresh : ∀ b ∈ blocks.drop numCachedBlocks, b ≠ pool.nullBlock →
      pool.blockHash b = none ∧ blocks.count b ≤ 1) :
    NoHashAssertion (pool.cacheFullBlocks request blocks numCachedBlocks numFullBlocks blockSize
      kvCacheGroupId) := by
  unfold cacheFullBlocks
  split
  · exact noHashAssertion_ok _
  · apply (noHashAssertion_pyAssert _ _).bind
    intro _ _
    apply NoHashAssertion.bind
    · unfold requestBlockHashes
      split
      · exact noHashAssertion_ok _
      · exact (noHashAssertion_pyAssert _ _).bind fun _ _ => noHashAssertion_ok _
    · intro hashes _
      apply NoHashAssertion.bind
      · apply cacheFullBlocksLoop_noHashAssertion
        intro b hb hne
        have hsub : ((blocks.take numFullBlocks).drop numCachedBlocks).Sublist blocks :=
          (drop_sublist _ _).trans (take_sublist _ _)
        have hmem : b ∈ blocks.drop numCachedBlocks := by
          rw [drop_take] at hb
          exact mem_of_mem_take hb
        obtain ⟨hnone, hcount⟩ := hfresh b hmem hne
        exact ⟨hnone, (hsub.count_le b).trans hcount⟩
      · intro result _
        exact storeEvent_noHashAssertion _ _ _ _ _ _ _

end VllmRuntime.BlockPool
