import VllmRuntime.Model.BlockPool

/-! # Reference counts

Touching and freeing move the count of a block by the number of times it occurs in the
argument and leave the hashes alone, whatever the state of the free queue. -/

namespace VllmRuntime.BlockPool

variable {p q pool pool' : BlockPool} {blocks : List BlockRef}

/-- The parameters of the pool are the same. -/
structure SameConfig (pool pool' : BlockPool) : Prop where
  numGpuBlocks : pool'.numGpuBlocks = pool.numGpuBlocks
  enableCaching : pool'.enableCaching = pool.enableCaching
  hashBlockSize : pool'.hashBlockSize = pool.hashBlockSize
  nullBlock : pool'.nullBlock = pool.nullBlock

namespace SameConfig

variable {p q : BlockPool}

lemma refl (pool : BlockPool) : SameConfig pool pool := ⟨rfl, rfl, rfl, rfl⟩

lemma trans {r : BlockPool} (h : SameConfig p q) (h' : SameConfig q r) : SameConfig p r :=
  ⟨h'.1.trans h.1, h'.2.trans h.2, h'.3.trans h.3, h'.4.trans h.4⟩

lemma isBlock_iff (h : SameConfig p q) (b : BlockRef) :
    q.IsBlock b ↔ p.IsBlock b := by
  simp [IsBlock, h.numGpuBlocks]

end SameConfig

/-- The hashes and the map are the same too. -/
structure SameCache (pool pool' : BlockPool) : Prop extends SameConfig pool pool' where
  blockHash : pool'.blockHash = pool.blockHash
  cache : pool'.cachedBlockHashToBlock = pool.cachedBlockHashToBlock

lemma SameCache.refl (pool : BlockPool) : SameCache pool pool :=
  ⟨SameConfig.refl pool, rfl, rfl⟩

lemma SameCache.withQueue (h : SameCache p q) (queue : FreeKVCacheBlockQueue) :
    SameCache p { q with freeBlockQueue := queue } :=
  ⟨⟨h.numGpuBlocks, h.enableCaching, h.hashBlockSize, h.nullBlock⟩, h.blockHash, h.cache⟩

lemma SameCache.trans {r : BlockPool} (h : SameCache p q) (h' : SameCache q r) :
    SameCache p r :=
  ⟨h.toSameConfig.trans h'.toSameConfig, h'.blockHash.trans h.blockHash, h'.cache.trans h.cache⟩

/-! ## Single updates -/

@[simp] lemma setRefCnt_refCnt_self (pool : BlockPool) (b : BlockRef) (n : ℤ) :
    (pool.setRefCnt b n).refCnt b = n := by
  simp [setRefCnt, refCnt]

lemma setRefCnt_refCnt_of_ne (pool : BlockPool) {b c : BlockRef} (n : ℤ) (h : c ≠ b) :
    (pool.setRefCnt b n).refCnt c = pool.refCnt c := by
  simp [setRefCnt, refCnt, h]

lemma setRefCnt_sameCache (pool : BlockPool) (b : BlockRef) (n : ℤ) :
    SameCache pool (pool.setRefCnt b n) := by
  refine ⟨⟨rfl, rfl, rfl, rfl⟩, ?_, rfl⟩
  funext c
  by_cases h : c = b
  · subst h
    simp [setRefCnt, blockHash]
  · simp [setRefCnt, blockHash, h]

/-- Counting one occurrence more. -/
lemma setRefCnt_add (pool : BlockPool) (b c : BlockRef) (k : ℤ) :
    (pool.setRefCnt b (pool.refCnt b + k)).refCnt c =
      pool.refCnt c + if c = b then k else 0 := by
  by_cases h : c = b
  · subst h
    simp
  · simp [setRefCnt_refCnt_of_ne pool _ h, h]

/-! ## Touching and freeing -/

lemma refCnt_eq_count_cons {pool₁ : BlockPool} (hone : ∀ c, pool₁.refCnt c = pool.refCnt c + if c = b then 1 else 0)
    (hrest : ∀ c, pool'.refCnt c = pool₁.refCnt c + blocks.count c) (c : BlockRef) :
    pool'.refCnt c = pool.refCnt c + (b :: blocks).count c := by
  rw [hrest, hone, List.count_cons]
  by_cases hc : c = b
  · simp [hc]
    omega
  · simp [hc, Ne.symm hc]

lemma touch_spec (h : pool.touch blocks = .ok pool') :
    SameCache pool pool' ∧ ∀ b, pool'.refCnt b = pool.refCnt b + blocks.count b := by
  induction blocks generalizing pool with
  | nil =>
    simp only [touch, Except.ok.injEq] at h
    subst h
    exact ⟨SameCache.refl _, by simp⟩
  | cons b blocks ih =>
    rw [touch] at h
    obtain ⟨queue, -, hrest⟩ := bind_eq_ok h
    obtain ⟨hsame, hcount⟩ := ih hrest
    have hstep := setRefCnt_sameCache { pool with freeBlockQueue := queue } b (pool.refCnt b + 1)
    exact ⟨(((SameCache.refl pool).withQueue queue).trans hstep).trans hsame,
      refCnt_eq_count_cons (setRefCnt_add { pool with freeBlockQueue := queue } b · 1) hcount⟩

lemma decrRefCnts_spec (pool : BlockPool) (blocks : List BlockRef) :
    SameCache pool (pool.decrRefCnts blocks) ∧
      (pool.decrRefCnts blocks).freeBlockQueue = pool.freeBlockQueue ∧
      ∀ b, (pool.decrRefCnts blocks).refCnt b = pool.refCnt b - blocks.count b := by
  induction blocks generalizing pool with
  | nil => exact ⟨SameCache.refl _, rfl, by simp [decrRefCnts]⟩
  | cons b blocks ih =>
    obtain ⟨hsame, hqueue, hcount⟩ := ih (pool.setRefCnt b (pool.refCnt b - 1))
    refine ⟨(setRefCnt_sameCache pool b _).trans hsame, hqueue, fun c => (hcount c).trans ?_⟩
    by_cases hbc : c = b
    · simp [hbc]
      omega
    · simp [setRefCnt_refCnt_of_ne pool _ hbc, Ne.symm hbc]

lemma freeBlocks_spec (h : pool.freeBlocks blocks = .ok pool') :
    SameCache pool pool' ∧ ∀ b, pool'.refCnt b = pool.refCnt b - blocks.count b := by
  obtain ⟨hsame, -, hcount⟩ := decrRefCnts_spec pool blocks
  obtain ⟨queue, -, rfl⟩ := map_eq_ok h
  exact ⟨hsame.withQueue queue, hcount⟩

end VllmRuntime.BlockPool
