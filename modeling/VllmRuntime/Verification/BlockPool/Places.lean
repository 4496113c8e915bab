import VllmRuntime.Verification.BlockPool.Cache
import VllmRuntime.Verification.BlockPool.Equations

/-! # The places of cached blocks

A cached block belongs to one group, and where its index counts to one index of that group: the
key under which it is stored names both. This holds whatever the state of the free queue, as long
as the queue never leads to the null block. -/

namespace VllmRuntime

open List

/-- No node is followed by the null block. -/
def Links.Avoids (l : Links BlockRef) (nullBlock : BlockRef) : Prop :=
  ∀ b, l.next b ≠ some nullBlock

lemma Links.connectAll_next_ne {l : Links BlockRef} {nodes : List BlockRef} {b c : BlockRef}
    (h : l.next b ≠ some c) (hnodes : c ∉ nodes.tail) : (l.connectAll nodes).next b ≠ some c := by
  induction nodes generalizing l with
  | nil => exact h
  | cons x nodes ih =>
    cases nodes with
    | nil => exact h
    | cons y nodes =>
      rw [tail_cons, mem_cons, not_or] at hnodes
      refine ih ?_ hnodes.2
      by_cases hb : b = x
      · subst hb
        simpa using Ne.symm hnodes.1
      · rwa [Links.connect_next_of_ne l hb]

namespace Links.Avoids

variable {l : Links BlockRef} {nullBlock : BlockRef}

lemma connect (h : l.Avoids nullBlock) (x : BlockRef) {y : BlockRef} (hy : y ≠ nullBlock) :
    (l.connect x y).Avoids nullBlock := by
  intro b
  by_cases hb : b = x
  · subst hb
    simpa using hy
  · rw [connect_next_of_ne l hb]
    exact h b

lemma detach (h : l.Avoids nullBlock) (x : BlockRef) : (l.detach x).Avoids nullBlock := by
  intro b
  by_cases hb : b = x
  · simp [Links.detach, hb]
  · rw [detach_next_of_ne l hb]
    exact h b

lemma connectAll (h : l.Avoids nullBlock) {nodes : List BlockRef} (hnodes : nullBlock ∉ nodes.tail) :
    (l.connectAll nodes).Avoids nullBlock :=
  fun b => connectAll_next_ne (h b) hnodes

end Links.Avoids

namespace FreeKVCacheBlockQueue

variable {nullBlock : BlockRef} {q q' : FreeKVCacheBlockQueue} {ret : List BlockRef}

/-- The first block is not reached any more. -/
lemma popleft_avoids (hhead : nullBlock ≠ .fakeHead)
    (hlinks : ∀ b, b ≠ .fakeHead → q.links.next b ≠ some nullBlock) (h : q.popleft = .ok (nullBlock, q')) :
    q'.links.Avoids nullBlock := by
  unfold popleft at h
  split at h
  · obtain ⟨_, -, h⟩ := bind_eq_ok h
    cases h
  · obtain ⟨_, -, h⟩ := bind_eq_ok h
    cases h
  · split at h
    · cases h
    · rename_i first _ _ _ second hsecond
      obtain ⟨rfl, rfl⟩ := ok_pair_inj h
      intro b
      by_cases hb : b = first
      · simp [Links.detach, hb]
      · change (Links.detach _ _).next b ≠ _
        rw [Links.detach_next_of_ne _ hb]
        by_cases hfirst : b = .fakeHead
        · subst hfirst
          rw [Links.connect_next_self, Ne, Option.some.injEq]
          rintro rfl
          exact hlinks _ hhead hsecond
        · rw [Links.connect_next_of_ne _ hfirst]
          exact hlinks b hfirst

lemma popleftNLoop_avoids {n : ℕ} {curr curr' : Option BlockRef} {links links' : Links BlockRef}
    (hlinks : links.Avoids nullBlock) (hcurr : curr ≠ some nullBlock)
    (h : popleftNLoop n curr links = .ok (ret, curr', links')) :
    nullBlock ∉ ret ∧ curr' ≠ some nullBlock ∧ links'.Avoids nullBlock ∧ ret.length = n := by
  induction n generalizing curr links ret with
  | zero =>
    simp only [popleftNLoop, Except.ok.injEq, Prod.mk.injEq] at h
    obtain ⟨rfl, rfl, rfl⟩ := h
    exact ⟨not_mem_nil, hcurr, hlinks, rfl⟩
  | succ n ih =>
    cases curr with
    | none => cases h
    | some b =>
      obtain ⟨⟨rest, next, links₁⟩, hrest, hret⟩ := bind_eq_ok h
      cases hret
      obtain ⟨hnot, hcurr', hlinks', hlength⟩ := ih (hlinks.detach b) (hlinks b) hrest
      refine ⟨?_, hcurr', hlinks', by rw [length_cons, hlength]⟩
      rw [mem_cons, not_or]
      exact ⟨fun he => hcurr (he ▸ rfl), hnot⟩

lemma popleftN_avoids {n : ℤ} (hlinks : q.links.Avoids nullBlock) (h : q.popleftN n = .ok (ret, q')) :
    nullBlock ∉ ret ∧ q'.links.Avoids nullBlock ∧ ret.length = n.toNat := by
  unfold popleftN at h
  split at h
  · rename_i hzero
    cases h
    exact ⟨not_mem_nil, hlinks, by simp [hzero]⟩
  · obtain ⟨_, -, h⟩ := bind_eq_ok h
    obtain ⟨⟨popped, curr, links⟩, hloop, hret⟩ := bind_eq_ok h
    cases hret
    obtain ⟨hnot, hcurr, hlinks', hlength⟩ := popleftNLoop_avoids hlinks (hlinks .fakeHead) hloop
    refine ⟨hnot, ?_, hlength⟩
    cases curr with
    | none => exact hlinks'
    | some b => exact hlinks'.connect _ fun he => hcurr (he ▸ rfl)

lemma remove_avoids {b : BlockRef} (hlinks : q.links.Avoids nullBlock) (h : q.remove b = .ok q') :
    q'.links.Avoids nullBlock := by
  unfold remove at h
  split at h
  · rename_i prev next _ hnext
    cases h
    exact (hlinks.connect prev fun he => hlinks b (he ▸ hnext)).detach b
  · cases h

lemma appendN_avoids {blocks : List BlockRef} (hlinks : q.links.Avoids nullBlock)
    (hblocks : nullBlock ∉ blocks) (htail : nullBlock ≠ .fakeTail) (h : q.appendN blocks = .ok q') :
    q'.links.Avoids nullBlock := by
  unfold appendN at h
  split at h
  · cases h
    exact hlinks
  · split at h
    · cases h
    · cases h
      apply hlinks.connectAll
      simp [hblocks, htail]

end FreeKVCacheBlockQueue

namespace BlockPool

open FreeKVCacheBlockQueue

/-- `place` gives each cached block a group and an index. The key of the block names the group and,
if `full` holds of it, a hash that has this index. -/
structure Placed (indexed : BlockHash → ℕ → Prop) (full : ℕ → Prop) (place : BlockRef → ℕ × ℕ)
    (pool : BlockPool) : Prop where
  caching : pool.enableCaching = true
  null : pool.nullBlock ≠ .fakeTail
  queue : pool.freeBlockQueue.links.Avoids pool.nullBlock
  nodup : pool.cachedBlockHashToBlock.EntriesNodup
  stored : ∀ key b, pool.cachedBlockHashToBlock.Stored key b →
    b ≠ pool.nullBlock ∧ pool.blockHash b = some key ∧ (place b).1 < 2 ^ 32 ∧
      ∃ hash, key = makeBlockHashWithGroupId hash (place b).1 ∧ (full (place b).1 → indexed hash (place b).2)

/-- The block is stored under some key. -/
def IsCached (pool : BlockPool) (b : BlockRef) : Prop :=
  ∃ key, pool.cachedBlockHashToBlock.Stored key b

variable {indexed : BlockHash → ℕ → Prop} {full : ℕ → Prop} {place place' : BlockRef → ℕ × ℕ}
  {pool pool' : BlockPool} {blocks : List BlockRef} {kvCacheGroupId : ℕ} {p q r : BlockPool}

/-- Only the places of cached blocks matter. -/
lemma Placed.congr (h : Placed indexed full place pool)
    (heq : ∀ b, pool.IsCached b → place' b = place b) : Placed indexed full place' pool where
  caching := h.caching
  null := h.null
  queue := h.queue
  nodup := h.nodup
  stored key b hstored := by
    rw [heq b ⟨key, hstored⟩]
    exact h.stored key b hstored

lemma Placed.of_sameCache (h : Placed indexed full place pool) (hs : SameCache pool pool')
    (hqueue : pool'.freeBlockQueue.links.Avoids pool.nullBlock) : Placed indexed full place pool' where
  caching := hs.enableCaching.trans h.caching
  null := by
    rw [hs.nullBlock]
    exact h.null
  queue := by
    rw [hs.nullBlock]
    exact hqueue
  nodup := by
    rw [hs.cache]
    exact h.nodup
  stored := by
    rw [hs.cache, hs.blockHash, hs.nullBlock]
    exact h.stored

/-! ## Touching and freeing -/

lemma touch_avoids (hlinks : pool.freeBlockQueue.links.Avoids pool.nullBlock)
    (h : pool.touch blocks = .ok pool') : pool'.freeBlockQueue.links.Avoids pool.nullBlock := by
  induction blocks generalizing pool with
  | nil =>
    cases h
    exact hlinks
  | cons b blocks ih =>
    obtain ⟨queue, hremove, hrest⟩ := bind_eq_ok h
    refine @ih ({ pool with freeBlockQueue := queue }.setRefCnt b (pool.refCnt b + 1)) ?_ hrest
    unfold removeIfFree at hremove
    split at hremove
    · exact remove_avoids hlinks hremove
    · cases hremove
      exact hlinks

lemma freeBlocks_avoids (hnull : pool.nullBlock ≠ .fakeTail)
    (hlinks : pool.freeBlockQueue.links.Avoids pool.nullBlock) (h : pool.freeBlocks blocks = .ok pool') :
    pool'.freeBlockQueue.links.Avoids pool.nullBlock := by
  obtain ⟨hsame, hqueue, -⟩ := decrRefCnts_spec pool blocks
  obtain ⟨queue, happend, rfl⟩ := map_eq_ok h
  rw [hqueue] at happend
  refine appendN_avoids hlinks ?_ hnull happend
  intro hmem
  rw [mem_filter, hsame.nullBlock] at hmem
  simp at hmem

lemma Placed.touch (h : Placed indexed full place pool) (htouch : pool.touch blocks = .ok pool') :
    Placed indexed full place pool' :=
  h.of_sameCache (touch_spec htouch).1 (touch_avoids h.queue htouch)

lemma Placed.freeBlocks (h : Placed indexed full place pool)
    (hfree : pool.freeBlocks blocks = .ok pool') : Placed indexed full place pool' :=
  h.of_sameCache (freeBlocks_spec hfree).1 (freeBlocks_avoids h.null h.queue hfree)

/-! ## Eviction -/

/-- Some blocks are no longer stored; those that are keep their hashes. -/
structure Shrinks (pool pool' : BlockPool) : Prop where
  config : SameConfig pool pool'
  queue : pool'.freeBlockQueue = pool.freeBlockQueue
  refCnt : pool'.refCnt = pool.refCnt
  nodup : pool.cachedBlockHashToBlock.EntriesNodup → pool'.cachedBlockHashToBlock.EntriesNodup
  stored : ∀ key b, pool'.cachedBlockHashToBlock.Stored key b →
    pool.cachedBlockHashToBlock.Stored key b ∧ pool'.blockHash b = pool.blockHash b

lemma Shrinks.refl (pool : BlockPool) : Shrinks pool pool :=
  ⟨SameConfig.refl pool, rfl, rfl, id, fun _ _ h => ⟨h, rfl⟩⟩

lemma Shrinks.trans (h : Shrinks p q) (h' : Shrinks q r) : Shrinks p r where
  config := h.config.trans h'.config
  queue := h'.queue.trans h.queue
  refCnt := h'.refCnt.trans h.refCnt
  nodup := h'.nodup ∘ h.nodup
  stored key b hstored := by
    obtain ⟨hq, hhash'⟩ := h'.stored key b hstored
    obtain ⟨hp, hhash⟩ := h.stored key b hq
    exact ⟨hp, hhash'.trans hhash⟩

lemma Placed.shrinks (h : Placed indexed full place pool) (hs : Shrinks pool pool') :
    Placed indexed full place pool' where
  caching := hs.config.enableCaching.trans h.caching
  null := by
    rw [hs.config.nullBlock]
    exact h.null
  queue := by
    rw [hs.queue, hs.config.nullBlock]
    exact h.queue
  nodup := hs.nodup h.nodup
  stored key b hstored := by
    obtain ⟨hold, hhash⟩ := hs.stored key b hstored
    rw [hhash, hs.config.nullBlock]
    exact h.stored key b hold

lemma Placed.maybeEvictCachedBlock (h : Placed indexed full place pool) (b : BlockRef) :
    Shrinks pool (pool.maybeEvictCachedBlock b).2 ∧ ¬ (pool.maybeEvictCachedBlock b).2.IsCached b := by
  have hkey : ∀ key, pool.cachedBlockHashToBlock.Stored key b → pool.blockHash b = some key :=
    fun key hstored => (h.stored key b hstored).2.1
  unfold BlockPool.maybeEvictCachedBlock
  cases hb : pool.blockHash b with
  | none =>
    refine ⟨Shrinks.refl pool, ?_⟩
    rintro ⟨key, hstored⟩
    rw [hkey key hstored] at hb
    cases hb
  | some key =>
    by_cases hstored : pool.cachedBlockHashToBlock.Stored key b
    · obtain ⟨cache, hpop, hnodup, hrest⟩ := BlockHashToBlockMap.pop_stored h.nodup hstored
      have hgone : ∀ key', ¬ cache.Stored key' b := by
        intro key' hin
        obtain ⟨hold, hnot⟩ := (hrest key' b).mp hin
        exact hnot ⟨Option.some.inj ((hkey key' hold).symm.trans hb), rfl⟩
      have hkept : ∀ key' c, cache.Stored key' c → pool.cachedBlockHashToBlock.Stored key' c ∧
          (resetHash { pool with cachedBlockHashToBlock := cache } b).blockHash c = pool.blockHash c := by
        intro key' c hin
        refine ⟨((hrest key' c).mp hin).1, ?_⟩
        have hne : c ≠ b := fun he => hgone key' (he ▸ hin)
        simp [resetHash, blockHash, hne]
      have hrefs : (resetHash { pool with cachedBlockHashToBlock := cache } b).refCnt = pool.refCnt := by
        funext c
        by_cases hc : c = b
        · simp [resetHash, refCnt, hc]
        · simp [resetHash, refCnt, hc]
      simp only [hpop]
      split
      · exact ⟨⟨⟨rfl, rfl, rfl, rfl⟩, rfl, hrefs, fun _ => hnodup, hkept⟩, not_exists.mpr hgone⟩
      · exact ⟨⟨⟨rfl, rfl, rfl, rfl⟩, rfl, hrefs, fun _ => hnodup, hkept⟩, not_exists.mpr hgone⟩
    · simp only [BlockHashToBlockMap.pop_not_stored hstored]
      refine ⟨Shrinks.refl pool, ?_⟩
      rintro ⟨key', hin⟩
      cases (hkey key' hin).symm.trans hb
      exact hstored hin

lemma Placed.evictBlocks (h : Placed indexed full place pool) {blockIds : List ℕ}
    (hevict : pool.evictBlocks blockIds = .ok pool') : Shrinks pool pool' := by
  induction blockIds generalizing pool with
  | nil =>
    obtain rfl := Except.ok.inj hevict
    exact Shrinks.refl pool
  | cons blockId blockIds ih =>
    obtain ⟨_, -, hrest⟩ := bind_eq_ok hevict
    have hone := (h.maybeEvictCachedBlock (.block blockId)).1
    exact hone.trans (ih (h.shrinks hone) hrest)

lemma resetPrefixCache_shrinks (pool : BlockPool) : Shrinks pool pool.resetPrefixCache.2 := by
  unfold resetPrefixCache
  dsimp only
  split
  · exact Shrinks.refl pool
  · have hrefs : ∀ b, (if pool.IsBlock b then { pool.blocks b with blockHash := none } else pool.blocks b).refCnt =
        (pool.blocks b).refCnt := by
      intro b
      split <;> rfl
    have hempty : (∅ : BlockHashToBlockMap).EntriesNodup := fun key entry hentry => by simp at hentry
    split
    · exact ⟨⟨rfl, rfl, rfl, rfl⟩, rfl, funext hrefs, fun _ => hempty, fun key b hin =>
        absurd hin (BlockHashToBlockMap.not_stored_empty key b)⟩
    · exact ⟨⟨rfl, rfl, rfl, rfl⟩, rfl, funext hrefs, fun _ => hempty, fun key b hin =>
        absurd hin (BlockHashToBlockMap.not_stored_empty key b)⟩

/-! ## New blocks -/

/-- New blocks: nobody held them, none is cached or comes twice. -/
structure TakesNew (indexed : BlockHash → ℕ → Prop) (full : ℕ → Prop) (place : BlockRef → ℕ × ℕ)
    (pool pool' : BlockPool) (blocks : List BlockRef) : Prop where
  placed : Placed indexed full place pool'
  config : SameConfig pool pool'
  refCnt : ∀ b, pool'.refCnt b = pool.refCnt b + blocks.count b
  unused : ∀ b ∈ blocks, pool.refCnt b = 0
  nodup : blocks.Nodup
  not_null : pool.nullBlock ∉ blocks
  not_cached : ∀ b ∈ blocks, ¬ pool'.IsCached b
  cached : ∀ b, pool'.IsCached b → pool.IsCached b

lemma Placed.getNewBlocksLoop (h : Placed indexed full place pool) (hnull : pool.nullBlock ∉ blocks)
    (hget : getNewBlocksLoop blocks pool = .ok pool') :
    TakesNew indexed full place pool pool' blocks := by
  induction blocks generalizing pool with
  | nil =>
    cases hget
    exact ⟨h, SameConfig.refl _, by simp, by simp, nodup_nil, by simp, by simp, fun _ hb => hb⟩
  | cons b blocks ih =>
    rw [BlockPool.getNewBlocksLoop, if_pos h.caching] at hget
    obtain ⟨_, hassert, hrest⟩ := bind_eq_ok hget
    obtain ⟨hevict, hnot⟩ := h.maybeEvictCachedBlock b
    generalize (pool.maybeEvictCachedBlock b).2 = evicted at hevict hnot hassert hrest
    have hzero : evicted.refCnt b = 0 := of_decide_eq_true (pyAssert_eq_ok.mp hassert)
    have hset := setRefCnt_sameCache evicted b (evicted.refCnt b + 1)
    have hplaced : Placed indexed full place (evicted.setRefCnt b (evicted.refCnt b + 1)) :=
      (h.shrinks hevict).of_sameCache hset (h.shrinks hevict).queue
    have hnull' : (evicted.setRefCnt b (evicted.refCnt b + 1)).nullBlock ∉ blocks := by
      rw [hset.nullBlock, hevict.config.nullBlock]
      exact fun hmem => hnull (mem_cons_of_mem _ hmem)
    have hmore := ih hplaced hnull' hrest
    have hrefs : ∀ c, (evicted.setRefCnt b (evicted.refCnt b + 1)).refCnt c =
        pool.refCnt c + if c = b then 1 else 0 := by
      intro c
      rw [setRefCnt_add, hevict.refCnt]
    have hcached : ∀ c, (evicted.setRefCnt b (evicted.refCnt b + 1)).IsCached c → pool.IsCached c := by
      rintro c ⟨key, hin⟩
      rw [hset.cache] at hin
      exact ⟨key, (hevict.stored key c hin).1⟩
    -- A block that has just been taken has a count.
    have honce : b ∉ blocks := by
      intro hmem
      have hunused := hmore.unused b hmem
      rw [setRefCnt_refCnt_self, hzero] at hunused
      omega
    refine ⟨hmore.placed, (hevict.config.trans hset.toSameConfig).trans hmore.config,
      refCnt_eq_count_cons hrefs hmore.refCnt, ?_, List.nodup_cons.mpr ⟨honce, hmore.nodup⟩, hnull, ?_,
      fun c hc => hcached c (hmore.cached c hc)⟩
    · intro c hc
      rcases List.mem_cons.mp hc with rfl | hmem
      · rw [← hevict.refCnt]
        exact hzero
      · have hunused := hmore.unused c hmem
        have hne : c ≠ b := fun he => honce (he ▸ hmem)
        rw [hrefs, if_neg hne] at hunused
        omega
    · intro c hc
      rcases List.mem_cons.mp hc with rfl | hmem
      · intro hin
        apply hnot
        obtain ⟨key, hin⟩ := hmore.cached c hin
        rw [hset.cache] at hin
        exact ⟨key, hin⟩
      · exact hmore.not_cached c hmem

lemma Placed.getNewBlocks (h : Placed indexed full place pool) {n : ℤ} {ret : List BlockRef}
    (hget : pool.getNewBlocks n = .ok (ret, pool')) :
    TakesNew indexed full place pool pool' ret ∧ ret.length = n.toNat := by
  unfold BlockPool.getNewBlocks at hget
  split at hget
  · cases hget
  · obtain ⟨⟨popped, queue⟩, hpop, hget⟩ := bind_eq_ok hget
    obtain ⟨pool₁, hloop, hret⟩ := bind_eq_ok hget
    cases hret
    obtain ⟨hnull, hlinks, hlength⟩ := popleftN_avoids h.queue hpop
    have hplaced : Placed indexed full place { pool with freeBlockQueue := queue } :=
      h.of_sameCache ((SameCache.refl pool).withQueue queue) hlinks
    have hnew := hplaced.getNewBlocksLoop hnull hloop
    exact ⟨⟨hnew.placed, ⟨hnew.config.1, hnew.config.2, hnew.config.3, hnew.config.4⟩, hnew.refCnt,
      hnew.unused, hnew.nodup, hnew.not_null, hnew.not_cached, hnew.cached⟩, hlength⟩

/-! ## Caching -/

/-- One more block is stored, at its place. -/
lemma Placed.cacheBlock (h : Placed indexed full place pool) {b : BlockRef} {hash : BlockHash}
    (hid : kvCacheGroupId < 2 ^ 32) (hne : b ≠ pool.nullBlock) (hnone : pool.blockHash b = none)
    (hgroup : (place b).1 = kvCacheGroupId) (hindex : full kvCacheGroupId → indexed hash (place b).2) :
    Placed indexed full place { pool with
      blocks := Function.update pool.blocks b
        { pool.blocks b with blockHash := makeBlockHashWithGroupId hash kvCacheGroupId }
      cachedBlockHashToBlock :=
        pool.cachedBlockHashToBlock.insert (makeBlockHashWithGroupId hash kvCacheGroupId) b } where
  caching := h.caching
  null := h.null
  queue := h.queue
  nodup := h.nodup.insert
  stored key c hin := by
    rw [BlockHashToBlockMap.stored_insert] at hin
    rcases hin with hold | ⟨rfl, rfl⟩
    · obtain ⟨hnull, hhash, hplace⟩ := h.stored key c hold
      have hcb : c ≠ b := by
        rintro rfl
        rw [hnone] at hhash
        cases hhash
      refine ⟨hnull, ?_, hplace⟩
      change (Function.update pool.blocks b _ c).blockHash = some key
      rw [Function.update_of_ne hcb]
      exact hhash
    · subst hgroup
      exact ⟨hne, by simp [blockHash], hid, hash, rfl, hindex⟩

/-- Caching changes nothing but hashes and the map. -/
structure SameCounts (pool pool' : BlockPool) : Prop extends SameConfig pool pool' where
  queue : pool'.freeBlockQueue = pool.freeBlockQueue
  refCnt : pool'.refCnt = pool.refCnt

lemma SameCounts.refl (pool : BlockPool) : SameCounts pool pool :=
  ⟨SameConfig.refl pool, rfl, rfl⟩

lemma SameCounts.trans (h : SameCounts p q) (h' : SameCounts q r) : SameCounts p r :=
  ⟨h.toSameConfig.trans h'.toSameConfig, h'.queue.trans h.queue, h'.refCnt.trans h.refCnt⟩

lemma Placed.cacheFullBlocksLoop (h : Placed indexed full place pool) (hid : kvCacheGroupId < 2 ^ 32)
    {hashes : List BlockHash} {newHashes : List ExternalBlockHash}
    (hblocks : ∀ (k : ℕ) (b : BlockRef) (hash : BlockHash), blocks[k]? = some b → hashes[k]? = some hash →
      b ≠ pool.nullBlock → (place b).1 = kvCacheGroupId ∧ (full kvCacheGroupId → indexed hash (place b).2))
    (hrun : cacheFullBlocksLoop kvCacheGroupId blocks hashes pool = .ok (newHashes, pool')) :
    Placed indexed full place pool' ∧ SameCounts pool pool' := by
  induction blocks generalizing hashes pool newHashes with
  | nil =>
    obtain ⟨-, rfl⟩ := ok_pair_inj hrun
    exact ⟨h, SameCounts.refl pool⟩
  | cons blk blks ih =>
    unfold BlockPool.cacheFullBlocksLoop at hrun
    by_cases hnull : blk = pool.nullBlock
    · rw [if_pos hnull] at hrun
      refine ih h (fun k b hash hb hhash => hblocks (k + 1) b hash hb ?_) hrun
      rw [getElem?_tail] at hhash
      exact hhash
    · rw [if_neg hnull] at hrun
      by_cases hsome : (pool.blockHash blk).isSome
      · rw [if_pos hsome] at hrun
        cases hrun
      · rw [if_neg hsome] at hrun
        cases hashes with
        | nil => cases hrun
        | cons hash hashes =>
          obtain ⟨pool₁, hset, hrun⟩ := bind_eq_ok hrun
          obtain ⟨⟨more, pool₂⟩, hloop, hret⟩ := bind_eq_ok hrun
          cases hret
          rw [setBlockHash, if_neg hsome] at hset
          cases hset
          obtain ⟨hgroup, hindex⟩ := hblocks 0 blk hash rfl rfl hnull
          have hstep := h.cacheBlock hid hnull (by simpa using hsome) hgroup hindex
          obtain ⟨hrest, hsame⟩ := ih hstep (fun k b hash' hb hhash => hblocks (k + 1) b hash' hb hhash) hloop
          refine ⟨hrest, SameCounts.trans ?_ hsame⟩
          refine ⟨⟨rfl, rfl, rfl, rfl⟩, rfl, ?_⟩
          funext b
          by_cases hb : b = blk
          · subst hb
            simp [refCnt]
          · simp [refCnt, hb]

/-- The blocks from `numCachedBlocks` on get the hashes of their indices. -/
lemma Placed.cacheFullBlocks (h : Placed indexed full place pool) {request : Request}
    {numCachedBlocks numFullBlocks blockSize : ℕ} (hid : kvCacheGroupId < 2 ^ 32)
    (hblocks : ∀ (i : ℕ) (b : BlockRef), blocks[i]? = some b → b ≠ pool.nullBlock →
      (place b).1 = kvCacheGroupId ∧ (full kvCacheGroupId → (place b).2 = i))
    (hashes : ∀ (blockHashes : List BlockHash) (i : ℕ) (hash : BlockHash),
      pool.requestBlockHashes request blockSize = .ok blockHashes → blockHashes[i]? = some hash → indexed hash i)
    (hrun : pool.cacheFullBlocks request blocks numCachedBlocks numFullBlocks blockSize kvCacheGroupId =
      .ok pool') :
    Placed indexed full place pool' ∧ SameCounts pool pool' := by
  unfold BlockPool.cacheFullBlocks at hrun
  split at hrun
  · cases hrun
    exact ⟨h, SameCounts.refl pool⟩
  · obtain ⟨_, -, hrun⟩ := bind_eq_ok hrun
    obtain ⟨blockHashes, hlist, hrun⟩ := bind_eq_ok hrun
    obtain ⟨⟨newHashes, pool₁⟩, hloop, hevent⟩ := bind_eq_ok hrun
    obtain ⟨hplaced, hsame⟩ := h.cacheFullBlocksLoop hid (by
      intro k b hash hb hhash hne
      rw [getElem?_drop] at hb hhash
      rw [getElem?_take] at hb
      split at hb
      · obtain ⟨hgroup, hindex⟩ := hblocks _ b hb hne
        exact ⟨hgroup, fun hfull => hindex hfull ▸ hashes blockHashes _ hash hlist hhash⟩
      · cases hb) hloop
    dsimp only at hevent
    unfold storeEvent at hevent
    split at hevent
    · obtain ⟨parent, -, rfl⟩ := map_eq_ok hevent
      exact ⟨⟨hplaced.caching, hplaced.null, hplaced.queue, hplaced.nodup, hplaced.stored⟩,
        ⟨hsame.numGpuBlocks, hsame.enableCaching, hsame.hashBlockSize, hsame.nullBlock⟩, hsame.queue, hsame.refCnt⟩
    · cases hevent
      exact ⟨hplaced, hsame⟩

end BlockPool

end VllmRuntime
