import VllmRuntime.Verification.BlockPool.FreeList

/-! # One block table and the pool

The invariant of the cache, seen from the block table of one request in one group: the other
tables only matter through the number of positions they give to each block and the blocks they
have not cached yet. Each way in which a manager changes a table keeps the invariant. -/

namespace VllmRuntime

open List

/-- The table `table`, of which the first `numCached` entries have been cached, next to other
tables that hold block `b` at `others b` positions, of which `fresh b` have not been cached
yet. A block waits to be cached at one position at most; this part is only tracked where it is
needed. -/
structure TableInv (tracked : Prop) (reserved : List BlockRef) (others fresh : BlockRef → ℕ)
    (table : List BlockRef) (numCached : ℕ) (pool : BlockPool) : Prop where
  null : pool.IsBlock pool.nullBlock ∧ pool.nullBlock ∉ reserved
  free : ∃ l, pool.FreeList reserved l
  agrees : pool.CacheAgrees
  reserved_hash : ∀ b ∈ reserved, pool.blockHash b = none
  real : ∀ b ∈ table, pool.IsBlock b ∧ b ∉ reserved
  once : ∀ b, b ≠ pool.nullBlock → table.count b ≤ 1
  refCnt : ∀ b, b ≠ pool.nullBlock → pool.refCnt b = others b + table.count b
  caching : tracked → pool.enableCaching = true
  fresh_le : ∀ b, fresh b ≤ others b
  fresh_once : tracked → ∀ b, b ≠ pool.nullBlock →
    fresh b + (table.drop numCached).count b ≤ 1
  fresh_hash : tracked → ∀ b, b ≠ pool.nullBlock →
    0 < fresh b + (table.drop numCached).count b → pool.blockHash b = none

namespace TableInv

variable {tracked : Prop} {reserved : List BlockRef} {others fresh : BlockRef → ℕ} {table table' : List BlockRef}
  {numCached numCached' : ℕ} {pool pool' : BlockPool}

/-- The invariant after a step that keeps the parameters of the pool. -/
lemma of_step (h : TableInv tracked reserved others fresh table numCached pool)
    (hconfig : BlockPool.SameConfig pool pool') (hfree : ∃ l, pool'.FreeList reserved l)
    (hagrees : pool'.CacheAgrees) (hreserved : ∀ b ∈ reserved, pool'.blockHash b = none)
    (hreal : ∀ b ∈ table', b ≠ pool.nullBlock → pool.IsBlock b ∧ b ∉ reserved)
    (honce : ∀ b, b ≠ pool.nullBlock → table'.count b ≤ 1)
    (hrefs : ∀ b, b ≠ pool.nullBlock → pool'.refCnt b = others b + table'.count b)
    (hfresh : tracked → ∀ b, b ≠ pool.nullBlock →
      fresh b + (table'.drop numCached').count b ≤ 1 ∧
        (0 < fresh b + (table'.drop numCached').count b → pool'.blockHash b = none)) :
    TableInv tracked reserved others fresh table' numCached' pool' where
  null := by
    rw [hconfig.isBlock_iff, hconfig.nullBlock]
    exact h.null
  free := hfree
  agrees := hagrees
  reserved_hash := hreserved
  real b hb := by
    rw [hconfig.isBlock_iff]
    by_cases hne : b = pool.nullBlock
    · exact hne ▸ h.null
    · exact hreal b hb hne
  once := by
    rw [hconfig.nullBlock]
    exact honce
  refCnt := by
    rw [hconfig.nullBlock]
    exact hrefs
  caching ht := by
    rw [hconfig.enableCaching]
    exact h.caching ht
  fresh_le := h.fresh_le
  fresh_once ht b hne := (hfresh ht b (by rwa [← hconfig.nullBlock])).1
  fresh_hash ht b hne := (hfresh ht b (by rwa [← hconfig.nullBlock])).2

/-- Moving blocks within the table and padding with the null block. -/
lemma rearrange (h : TableInv tracked reserved others fresh table numCached pool)
    (hcount : ∀ b, b ≠ pool.nullBlock → table'.count b = table.count b)
    (hfresh : tracked → ∀ b, b ≠ pool.nullBlock →
      (table'.drop numCached').count b ≤ (table.drop numCached).count b) :
    TableInv tracked reserved others fresh table' numCached' pool := by
  apply h.of_step (BlockPool.SameConfig.refl _) h.free h.agrees h.reserved_hash
  · intro b hb hne
    apply h.real
    rw [← count_pos_iff, ← hcount b hne]
    exact count_pos_iff.mpr hb
  · intro b hne
    exact hcount b hne ▸ h.once b hne
  · intro b hne
    exact hcount b hne ▸ h.refCnt b hne
  · intro ht b hne
    have hle := hfresh ht b hne
    have honce := h.fresh_once ht b hne
    exact ⟨by omega, fun hpos => h.fresh_hash ht b hne (by omega)⟩

lemma count_replicate_null {n : ℕ} {b nullBlock : BlockRef} (h : b ≠ nullBlock) :
    (List.replicate n nullBlock).count b = 0 := by
  rw [count_replicate]
  simp [Ne.symm h]

lemma pad (h : TableInv tracked reserved others fresh table numCached pool) (n : ℕ) :
    TableInv tracked reserved others fresh (table ++ List.replicate n pool.nullBlock) numCached pool := by
  apply h.rearrange
  · intro b hne
    rw [count_append, count_replicate_null hne, add_zero]
  · intro _ b hne
    have hzero : ((List.replicate n pool.nullBlock).drop (numCached - table.length)).count b = 0 := by
      rw [drop_replicate, count_replicate_null hne]
    rw [drop_append, count_append, hzero, add_zero]

/-- A table that starts with cached blocks: all hits are touched. -/
lemma touch (h : TableInv tracked reserved others fresh [] numCached pool) {hits : List BlockRef}
    (hreal : ∀ b ∈ hits, pool.IsBlock b ∧ b ∉ reserved) (honce : ∀ b, b ≠ pool.nullBlock → hits.count b ≤ 1)
    (n : ℕ) (htouch : pool.touch hits = .ok pool') :
    TableInv tracked reserved others fresh (List.replicate n pool'.nullBlock ++ hits)
      (n + hits.length) pool' := by
  obtain ⟨hsame, hrefs⟩ := BlockPool.touch_spec htouch
  have hcount : ∀ b, b ≠ pool.nullBlock →
      (List.replicate n pool'.nullBlock ++ hits).count b = hits.count b := by
    intro b hne
    rw [count_append, hsame.nullBlock, count_replicate_null hne, zero_add]
  obtain ⟨l, hfree⟩ := h.free
  obtain ⟨pool'', htouch', hfree'⟩ := hfree.touch hreal
  obtain rfl := Except.ok.inj (htouch.symm.trans htouch')
  apply h.of_step hsame.toSameConfig ⟨_, hfree'⟩ (h.agrees.of_sameCache hsame)
    (by rw [hsame.blockHash]; exact h.reserved_hash)
  · intro b hb hne
    rcases mem_append.mp hb with hb | hb
    · exact absurd ((eq_of_mem_replicate hb).trans hsame.nullBlock) hne
    · exact hreal b hb
  · intro b hne
    rw [hcount b hne]
    exact honce b hne
  · intro b hne
    rw [hrefs, hcount b hne, h.refCnt b hne]
    simp
  · intro ht b hne
    have hdrop : (List.replicate n pool'.nullBlock ++ hits).drop (n + hits.length) = [] :=
      drop_of_length_le (by simp)
    have holdonce := h.fresh_once ht b hne
    have holdhash := h.fresh_hash ht b hne
    simp only [drop_nil, count_nil, add_zero] at holdonce holdhash
    rw [hdrop, count_nil, add_zero, hsame.blockHash]
    exact ⟨holdonce, holdhash⟩

section

variable (h : TableInv tracked reserved others fresh table numCached pool)
include h

/-- New blocks at the end. -/
lemma take {n : ℤ} (hn : 0 ≤ n)
    {ret : List BlockRef} (hget : pool.getNewBlocks n = .ok (ret, pool')) :
    TableInv tracked reserved others fresh (table ++ ret) numCached pool' := by
  obtain ⟨l, hfree⟩ := h.free
  obtain ⟨-, hret, hfree', htaken⟩ := hfree.getNewBlocks_eq_ok h.agrees hn hget
  have hretFree : ∀ b ∈ ret, (pool.IsBlock b ∧ b ∉ reserved) ∧ b ≠ pool.nullBlock ∧ pool.refCnt b = 0 := by
    intro b hb
    rw [hret] at hb
    exact (hfree.mem_iff b).mp (mem_of_mem_take hb)
  have hretOnce : ∀ b, ret.count b ≤ 1 := by
    have hnodup : ret.Nodup := hret ▸ hfree.isQueue.nodup_blocks.sublist (take_sublist _ _)
    exact nodup_iff_count_le_one.mp hnodup
  -- A new block is held nowhere.
  have hunheld : ∀ b ∈ ret, others b = 0 ∧ table.count b = 0 := by
    intro b hb
    obtain ⟨-, hne, hzero⟩ := hretFree b hb
    have := h.refCnt b hne
    omega
  apply h.of_step htaken.config ⟨_, hfree'⟩ htaken.agrees
  · intro b hb
    rw [htaken.hash_kept b fun hmem => (hretFree b hmem).1.2 hb]
    exact h.reserved_hash b hb
  · intro b hb _
    rcases mem_append.mp hb with hb | hb
    · exact h.real b hb
    · exact (hretFree b hb).1
  · intro b hne
    rw [count_append]
    have := h.once b hne
    by_cases hb : b ∈ ret
    · have := hunheld b hb
      have := hretOnce b
      omega
    · rw [count_eq_zero_of_not_mem hb]
      omega
  · intro b hne
    rw [htaken.refCnt, h.refCnt b hne, count_append]
    push_cast
    ring
  · intro ht b hne
    rw [drop_append, count_append]
    have hfreshle := h.fresh_le b
    have htail := (drop_sublist (numCached - table.length) ret).count_le b
    by_cases hb : b ∈ ret
    · obtain ⟨hothers, htable⟩ := hunheld b hb
      have hold := (drop_sublist numCached table).count_le b
      have := hretOnce b
      exact ⟨by omega, fun _ => htaken.hash_reset (h.caching ht) b hb⟩
    · rw [count_eq_zero_of_not_mem hb] at htail
      have hnone : ((ret.drop (numCached - table.length)).count b) = 0 := by omega
      rw [hnone, add_zero, htaken.hash_kept b hb]
      exact ⟨h.fresh_once ht b hne, h.fresh_hash ht b hne⟩

/-- Positions given back to the pool. -/
lemma release {freed : List BlockRef}
    (hcount : ∀ b, b ≠ pool.nullBlock → table.count b = table'.count b + freed.count b)
    (hreal : ∀ b ∈ freed, pool.IsBlock b ∧ b ∉ reserved)
    (hfresh : tracked → ∀ b, b ≠ pool.nullBlock →
      (table'.drop numCached').count b ≤ (table.drop numCached).count b)
    (hfreeBlocks : pool.freeBlocks freed = .ok pool') :
    TableInv tracked reserved others fresh table' numCached' pool' := by
  obtain ⟨hsame, hrefs⟩ := BlockPool.freeBlocks_spec hfreeBlocks
  obtain ⟨l, hfree⟩ := h.free
  obtain ⟨pool'', hfreeBlocks', hfree'⟩ := hfree.freeBlocks hreal (by
    intro b hne
    have hc := hcount b hne
    have hone := h.once b hne
    have href := h.refCnt b hne
    exact Or.inl ⟨by omega, by omega⟩)
  obtain rfl := Except.ok.inj (hfreeBlocks.symm.trans hfreeBlocks')
  apply h.of_step hsame.toSameConfig ⟨_, hfree'⟩ (h.agrees.of_sameCache hsame)
    (by rw [hsame.blockHash]; exact h.reserved_hash)
  · intro b hb hne
    have hpos := count_pos_iff.mpr hb
    exact h.real b (count_pos_iff.mp (by have := hcount b hne; omega))
  · intro b hne
    have := hcount b hne
    have := h.once b hne
    omega
  · intro b hne
    rw [hrefs, h.refCnt b hne, hcount b hne]
    push_cast
    ring
  · intro ht b hne
    have hle := hfresh ht b hne
    have honce := h.fresh_once ht b hne
    rw [hsame.blockHash]
    exact ⟨by omega, fun hpos => h.fresh_hash ht b hne (by omega)⟩

/-- Full blocks of the table are cached. -/
lemma cache {request : Request}
    {numFullBlocks blockSize kvCacheGroupId : ℕ} (hlt : numCached < numFullBlocks)
    (hcache : pool.cacheFullBlocks request table numCached numFullBlocks blockSize kvCacheGroupId =
      .ok pool') :
    TableInv tracked reserved others fresh table numFullBlocks pool' := by
  obtain ⟨hashes, -, hcached⟩ := BlockPool.cacheFullBlocks_cached h.agrees
    (fun b hb => (h.real b hb).1) hlt hcache
  obtain ⟨l, hfree⟩ := h.free
  apply h.of_step hcached.config ⟨l, hfree.congr hcached.config hcached.queue hcached.refCnt⟩
    hcached.agrees _ (fun b hb _ => h.real b hb) h.once
  · rw [hcached.refCnt]
    exact h.refCnt
  · intro ht b hne
    have honce := h.fresh_once ht b hne
    have hsplit : (table.drop numCached).count b =
        ((table.take numFullBlocks).drop numCached).count b +
          (table.drop numFullBlocks).count b := by
      have hdrop : (table.drop numCached).drop (numFullBlocks - numCached) =
          table.drop numFullBlocks := by
        rw [drop_drop]
        congr 1
        omega
      rw [← hdrop, drop_take, ← count_append, take_append_drop]
    refine ⟨by omega, fun hpos => ?_⟩
    -- A position that still waits is not among the cached ones: there is only one.
    have hnot : b ∉ (table.take numFullBlocks).drop numCached := by
      intro hmem
      have := count_pos_iff.mpr hmem
      omega
    rw [hcached.hash_kept b (Or.inl hnot)]
    exact h.fresh_hash ht b hne (by omega)
  · intro b hb
    have hnot : b ∉ (table.take numFullBlocks).drop numCached := fun hmem =>
      (h.real b (mem_of_mem_take (mem_of_mem_drop hmem))).2 hb
    rw [hcached.hash_kept b (Or.inl hnot)]
    exact h.reserved_hash b hb

lemma cache_noHashAssertion (ht : tracked) (request : Request) (numFullBlocks blockSize kvCacheGroupId : ℕ) :
    BlockPool.NoHashAssertion (pool.cacheFullBlocks request table numCached numFullBlocks blockSize
      kvCacheGroupId) := by
  apply BlockPool.cacheFullBlocks_noHashAssertion
  intro b hb hne
  have hpos := count_pos_iff.mpr hb
  exact ⟨h.fresh_hash ht b hne (by omega), h.once b hne⟩

end

end TableInv

end VllmRuntime
