import VllmRuntime.Verification.BlockPool.Agreement
import VllmRuntime.Verification.FreeQueue.Correctness

/-! # The free queue holds the unreferenced blocks

As long as no operation is asked for a negative number of blocks or frees a block more often
than it is held, the queue is the list of the blocks with reference count zero. -/

namespace VllmRuntime.BlockPool

open List FreeKVCacheBlockQueue

/-- The queue is the list `l` of the blocks, other than the null block, that nobody holds. The
blocks `reserved` have been taken out of the queue for good. -/
structure FreeList (pool : BlockPool) (reserved l : List BlockRef) : Prop where
  isQueue : IsQueue pool.freeBlockQueue l
  mem_iff : ∀ b, b ∈ l ↔
    (pool.IsBlock b ∧ b ∉ reserved) ∧ b ≠ pool.nullBlock ∧ pool.refCnt b = 0
  nonneg : ∀ b, pool.IsBlock b → b ≠ pool.nullBlock → 0 ≤ pool.refCnt b

variable {pool pool' : BlockPool} {reserved l : List BlockRef} {b : BlockRef} {blocks : List BlockRef}

lemma FreeList.numFreeBlocks (h : FreeList pool reserved l) : pool.getNumFreeBlocks = l.length :=
  h.isQueue.count

/-- Only the null block is in use when every other block is in the queue. -/
lemma FreeList.numUsed_eq_one_iff (h : FreeList pool reserved l) (hnull : pool.IsBlock pool.nullBlock) :
    (pool.numGpuBlocks : ℤ) - pool.getNumFreeBlocks = 1 ↔
      ∀ b, pool.IsBlock b → b ≠ pool.nullBlock → b ∉ reserved ∧ pool.refCnt b = 0 := by
  have hinj : Function.Injective BlockRef.block := fun a b hab => BlockRef.block.inj hab
  set all : Finset BlockRef := ((Finset.range pool.numGpuBlocks).image BlockRef.block).erase pool.nullBlock with hall
  have hmem : ∀ b, b ∈ all ↔ pool.IsBlock b ∧ b ≠ pool.nullBlock := by
    intro b
    rw [hall, Finset.mem_erase, Finset.mem_image, and_comm]
    simp only [Finset.mem_range, IsBlock, eq_comm]
  have hcard : all.card + 1 = pool.numGpuBlocks := by
    have himage : pool.nullBlock ∈ (Finset.range pool.numGpuBlocks).image BlockRef.block := by
      obtain ⟨id, hid, he⟩ := hnull
      exact Finset.mem_image.mpr ⟨id, Finset.mem_range.mpr hid, he.symm⟩
    rw [hall, Finset.card_erase_add_one himage, Finset.card_image_of_injective _ hinj, Finset.card_range]
  have hsub : l.toFinset ⊆ all := by
    intro b hb
    obtain ⟨hblock, hne, -⟩ := (h.mem_iff b).mp (mem_toFinset.mp hb)
    exact (hmem b).mpr ⟨hblock.1, hne⟩
  have hlength : l.toFinset.card = l.length := toFinset_card_of_nodup h.isQueue.nodup_blocks
  rw [h.numFreeBlocks]
  constructor
  · intro hused b hb hne
    have heq := Finset.eq_of_subset_of_card_le hsub (by omega)
    have hin : b ∈ l := mem_toFinset.mp (heq ▸ (hmem b).mpr ⟨hb, hne⟩)
    obtain ⟨hblock, -, hzero⟩ := (h.mem_iff b).mp hin
    exact ⟨hblock.2, hzero⟩
  · intro hfree
    have hsup : all ⊆ l.toFinset := by
      intro b hb
      obtain ⟨hblock, hne⟩ := (hmem b).mp hb
      obtain ⟨hout, hzero⟩ := hfree b hblock hne
      exact mem_toFinset.mpr ((h.mem_iff b).mpr ⟨⟨hblock, hout⟩, hne, hzero⟩)
    have hle := Finset.card_le_card hsup
    have hle' := Finset.card_le_card hsub
    omega

lemma IsBlock.ne_fakeHead (h : pool.IsBlock b) : b ≠ .fakeHead := by
  obtain ⟨id, -, rfl⟩ := h
  simp

lemma IsBlock.ne_fakeTail (h : pool.IsBlock b) : b ≠ .fakeTail := by
  obtain ⟨id, -, rfl⟩ := h
  simp

/-- The free list only depends on the queue, the counts and the parameters. -/
lemma FreeList.congr (h : FreeList pool reserved l) (hconfig : SameConfig pool pool')
    (hqueue : pool'.freeBlockQueue = pool.freeBlockQueue) (hrefs : pool'.refCnt = pool.refCnt) :
    FreeList pool' reserved l where
  isQueue := hqueue ▸ h.isQueue
  mem_iff b := by
    rw [hconfig.isBlock_iff, hconfig.nullBlock, hrefs]
    exact h.mem_iff b
  nonneg b hb hne := by
    rw [hconfig.isBlock_iff] at hb
    rw [hconfig.nullBlock] at hne
    rw [hrefs]
    exact h.nonneg b hb hne

/-! ## Touching -/

lemma FreeList.touchOne (h : FreeList pool reserved l) (hb : pool.IsBlock b ∧ b ∉ reserved) :
    ∃ queue, pool.removeIfFree b = .ok queue ∧
      FreeList ({ pool with freeBlockQueue := queue }.setRefCnt b (pool.refCnt b + 1)) reserved
        (l.filter (· ≠ b)) := by
  obtain ⟨queue, hremove, hqueue⟩ : ∃ queue, pool.removeIfFree b = .ok queue ∧
      IsQueue queue (l.filter (· ≠ b)) := by
    unfold removeIfFree
    split
    · rename_i hfree
      have hmem : b ∈ l := (h.mem_iff b).mpr ⟨hb, hfree.2, hfree.1⟩
      obtain ⟨front, back, hsplit⟩ := append_of_mem hmem
      have hnodup := h.isQueue.nodup_blocks
      have hfilter : l.filter (· ≠ b) = front ++ back := by
        rw [hsplit, nodup_append] at hnodup
        rw [hsplit, filter_append, filter_cons_of_neg (by simp)]
        have hfront : front.filter (· ≠ b) = front := by
          rw [filter_eq_self]
          intro x hx
          simpa using fun he => hnodup.2.2 x hx b mem_cons_self he
        have hback : back.filter (· ≠ b) = back := by
          rw [filter_eq_self]
          intro x hx
          have hne : x ≠ b := fun he => (nodup_cons.mp hnodup.2.1).1 (he ▸ hx)
          simpa using hne
        rw [hfront, hback]
      have hisQueue := h.isQueue
      rw [hsplit] at hisQueue
      obtain ⟨queue, hrem, hq⟩ := remove_isQueue hisQueue
      exact ⟨queue, hrem, hfilter ▸ hq⟩
    · rename_i hheld
      have hnot : b ∉ l := fun hmem =>
        hheld ⟨((h.mem_iff b).mp hmem).2.2, ((h.mem_iff b).mp hmem).2.1⟩
      have hfilter : l.filter (· ≠ b) = l := by
        rw [filter_eq_self]
        intro x hx
        have hne : x ≠ b := fun he => hnot (he ▸ hx)
        simpa using hne
      exact ⟨_, rfl, hfilter.symm ▸ h.isQueue⟩
  have hcount : ∀ c, (setRefCnt { pool with freeBlockQueue := queue } b (pool.refCnt b + 1)).refCnt c =
    pool.refCnt c + if c = b then 1 else 0 := (setRefCnt_add { pool with freeBlockQueue := queue } b · 1)
  refine ⟨queue, hremove, hqueue, fun c => ?_, fun c hc hne => ?_⟩
  · change c ∈ _ ↔ (pool.IsBlock c ∧ c ∉ reserved) ∧ c ≠ pool.nullBlock ∧ _
    rw [hcount, mem_filter, h.mem_iff c]
    by_cases hcb : c = b
    · subst hcb
      simp only [ne_eq, not_true_eq_false, decide_false, Bool.false_eq_true, and_false, if_true,
        false_iff, not_and]
      intro hc hne
      have := h.nonneg c hc.1 hne
      omega
    · simp [hcb]
  · have hold := h.nonneg c hc hne
    rw [hcount]
    split <;> omega

lemma FreeList.touch (h : FreeList pool reserved l) (hblocks : ∀ b ∈ blocks, pool.IsBlock b ∧ b ∉ reserved) :
    ∃ pool', pool.touch blocks = .ok pool' ∧ FreeList pool' reserved (l.filter (· ∉ blocks)) := by
  induction blocks generalizing pool l with
  | nil => exact ⟨pool, rfl, by simpa using h⟩
  | cons b blocks ih =>
    obtain ⟨queue, hremove, hone⟩ := h.touchOne (hblocks b mem_cons_self)
    obtain ⟨pool', htouch, hrest⟩ := ih hone fun c hc => hblocks c (mem_cons_of_mem _ hc)
    refine ⟨pool', ?_, ?_⟩
    · rw [BlockPool.touch, hremove]
      exact htouch
    · rw [filter_filter] at hrest
      convert hrest using 2
      funext c
      simp [Bool.and_comm]

/-! ## Taking -/

/-- The blocks have been handed out: each is held once more and has lost its hash. -/
structure Taken (pool pool' : BlockPool) (blocks : List BlockRef) : Prop where
  config : SameConfig pool pool'
  refCnt : ∀ b, pool'.refCnt b = pool.refCnt b + blocks.count b
  agrees : CacheAgrees pool'
  hash_reset : pool.enableCaching = true → ∀ b ∈ blocks, pool'.blockHash b = none
  hash_kept : ∀ b ∉ blocks, pool'.blockHash b = pool.blockHash b

lemma getNewBlocksLoop_taken (hagrees : CacheAgrees pool) (hnodup : blocks.Nodup)
    (hblocks : ∀ b ∈ blocks, pool.IsBlock b ∧ pool.refCnt b = 0) :
    ∃ pool', getNewBlocksLoop blocks pool = .ok pool' ∧
      pool'.freeBlockQueue = pool.freeBlockQueue ∧ Taken pool pool' blocks := by
  induction blocks generalizing pool with
  | nil =>
    exact ⟨pool, rfl, rfl, SameConfig.refl _, by simp, hagrees, by simp, fun _ _ => rfl⟩
  | cons b blocks ih =>
    rw [nodup_cons] at hnodup
    obtain ⟨hb, hzero⟩ := hblocks b mem_cons_self
    set pool₁ := if pool.enableCaching then (pool.maybeEvictCachedBlock b).2 else pool with hpool₁
    have hevict := maybeEvictCachedBlock_evicted hagrees hb
    -- The loop goes on with the block evicted, or untouched without caching.
    have hstep : SameConfig pool pool₁ ∧ pool₁.freeBlockQueue = pool.freeBlockQueue ∧
        pool₁.refCnt = pool.refCnt ∧ CacheAgrees pool₁ ∧
        (pool.enableCaching = true → pool₁.blockHash b = none) ∧
        ∀ c, c ≠ b → pool₁.blockHash c = pool.blockHash c := by
      rw [hpool₁]
      split
      · exact ⟨hevict.config, hevict.queue, hevict.refCnt, hevict.agrees,
          fun _ => hevict.hash_reset b rfl, hevict.hash_kept⟩
      · rename_i hcaching
        exact ⟨SameConfig.refl _, rfl, rfl, hagrees, fun hc => absurd hc hcaching,
          fun _ _ => rfl⟩
    obtain ⟨hconfig, hqueue, hrefs, hagrees₁, hreset, hkept⟩ := hstep
    set pool₂ := pool₁.setRefCnt b (pool₁.refCnt b + 1) with hpool₂
    have hsame := setRefCnt_sameCache pool₁ b (pool₁.refCnt b + 1)
    have hcount : ∀ c, pool₂.refCnt c = pool.refCnt c + if c = b then 1 else 0 := by
      intro c
      rw [hpool₂, setRefCnt_add, hrefs]
    obtain ⟨pool', hloop, hqueue', htaken⟩ := ih (hagrees₁.of_sameCache hsame) hnodup.2 (by
      intro c hc
      obtain ⟨hcblock, hczero⟩ := hblocks c (mem_cons_of_mem _ hc)
      have hne : c ≠ b := fun he => hnodup.1 (he ▸ hc)
      refine ⟨((hconfig.trans hsame.toSameConfig).isBlock_iff c).mpr hcblock, ?_⟩
      rw [hcount c, if_neg hne, hczero]
      rfl)
    refine ⟨pool', ?_, hqueue'.trans hqueue, ?_⟩
    · rw [getNewBlocksLoop]
      have hassert : decide (pool₁.refCnt b = 0) = true := by simpa [hrefs] using hzero
      simp only [← hpool₁, hassert, pyAssert_true, bind, Except.bind]
      exact hloop
    · refine ⟨(hconfig.trans hsame.toSameConfig).trans htaken.config,
        refCnt_eq_count_cons hcount htaken.refCnt, htaken.agrees, ?_, ?_⟩
      · intro hcaching c hc
        have hcaching₂ : pool₂.enableCaching = true := hconfig.enableCaching.trans hcaching
        rcases mem_cons.mp hc with rfl | hmem
        · rw [htaken.hash_kept c hnodup.1, hsame.blockHash]
          exact hreset hcaching
        · exact htaken.hash_reset hcaching₂ c hmem
      · intro c hc
        rw [mem_cons, not_or] at hc
        rw [htaken.hash_kept c hc.2, hsame.blockHash, hkept c hc.1]

/-- Up to the number of free blocks, the blocks come from the front of the queue. -/
lemma FreeList.getNewBlocks (h : FreeList pool reserved l) (hagrees : CacheAgrees pool) {n : ℕ}
    (hn : n ≤ l.length) :
    ∃ pool', pool.getNewBlocks n = .ok (l.take n, pool') ∧ FreeList pool' reserved (l.drop n) ∧
      Taken pool pool' (l.take n) := by
  obtain ⟨queue, hpop, hqueue⟩ := popleftN_isQueue h.isQueue hn
  have hagrees' : CacheAgrees { pool with freeBlockQueue := queue } :=
    hagrees.of_sameCache ((SameCache.refl pool).withQueue queue)
  have hnodup := h.isQueue.nodup_blocks
  have hblocks : ∀ b ∈ l.take n,
      IsBlock { pool with freeBlockQueue := queue } b ∧
        BlockPool.refCnt { pool with freeBlockQueue := queue } b = 0 := by
    intro b hb
    have hfree := (h.mem_iff b).mp (mem_of_mem_take hb)
    exact ⟨hfree.1.1, hfree.2.2⟩
  obtain ⟨pool', hloop, hqueue', htaken⟩ := getNewBlocksLoop_taken hagrees'
    (hnodup.sublist (take_sublist n l)) hblocks
  have htaken' : Taken pool pool' (l.take n) :=
    ⟨⟨htaken.config.1, htaken.config.2, htaken.config.3, htaken.config.4⟩, htaken.refCnt,
      htaken.agrees, htaken.hash_reset, htaken.hash_kept⟩
  refine ⟨pool', ?_, ⟨?_, ?_, ?_⟩, htaken'⟩
  · have hle : ¬ (n : ℤ) > pool.getNumFreeBlocks := by
      rw [h.numFreeBlocks]
      omega
    rw [BlockPool.getNewBlocks, if_neg hle, hpop]
    change (getNewBlocksLoop (l.take n) { pool with freeBlockQueue := queue } >>= _) = _
    rw [hloop]
    rfl
  · rw [hqueue']
    exact hqueue
  · intro b
    rw [htaken'.config.isBlock_iff, htaken'.config.nullBlock, htaken'.refCnt]
    have hsplit : b ∈ l ↔ b ∈ l.take n ∨ b ∈ l.drop n := by
      rw [← mem_append, take_append_drop]
    have hdisj : b ∈ l.take n → b ∉ l.drop n := by
      intro hfront hback
      rw [← take_append_drop n l, nodup_append] at hnodup
      exact hnodup.2.2 b hfront b hback rfl
    have hmem := h.mem_iff b
    by_cases hfront : b ∈ l.take n
    · have hpos := count_pos_iff.mpr hfront
      have hzero := (hmem.mp (hsplit.mpr (Or.inl hfront))).2.2
      refine iff_of_false (hdisj hfront) ?_
      rintro ⟨-, -, hsum⟩
      omega
    · rw [count_eq_zero_of_not_mem hfront, Int.natCast_zero, add_zero, ← hmem, hsplit]
      simp [hfront]
  · intro b hb hne
    rw [htaken'.config.isBlock_iff] at hb
    rw [htaken'.config.nullBlock] at hne
    rw [htaken'.refCnt]
    have := h.nonneg b hb hne
    omega

lemma FreeList.getNewBlocks_eq_ok (h : FreeList pool reserved l) (hagrees : CacheAgrees pool) {n : ℤ}
    (hn : 0 ≤ n) {ret : List BlockRef} (hget : pool.getNewBlocks n = .ok (ret, pool')) :
    (ret.length : ℤ) = n ∧ ret = l.take n.toNat ∧ FreeList pool' reserved (l.drop n.toNat) ∧
      Taken pool pool' ret := by
  have hle : n ≤ pool.getNumFreeBlocks := by
    by_contra hlt
    rw [BlockPool.getNewBlocks, if_pos (by omega)] at hget
    cases hget
  rw [h.numFreeBlocks] at hle
  obtain ⟨pool'', hget', hfree, htaken⟩ := h.getNewBlocks hagrees
    (show n.toNat ≤ l.length by omega)
  rw [Int.toNat_of_nonneg hn, hget] at hget'
  cases hget'
  refine ⟨?_, rfl, hfree, htaken⟩
  rw [length_take]
  omega

/-! ## Freeing -/

/-- Blocks that are held at least as often as they are freed go back, in order, when nobody
holds them any more. -/
lemma FreeList.freeBlocks (h : FreeList pool reserved l)
    (hblocks : ∀ b ∈ blocks, pool.IsBlock b ∧ b ∉ reserved)
    (hheld : ∀ b, b ≠ pool.nullBlock → blocks.count b ≤ 1 ∧ (blocks.count b : ℤ) ≤ pool.refCnt b ∨
      b ∉ blocks) :
    ∃ pool', pool.freeBlocks blocks = .ok pool' ∧
      FreeList pool' reserved
        (l ++ blocks.filter fun b => pool.refCnt b = 1 ∧ b ≠ pool.nullBlock) := by
  obtain ⟨hsame, hqueue, hcount⟩ := decrRefCnts_spec pool blocks
  set pool₁ := pool.decrRefCnts blocks with hpool₁
  have hone : ∀ b ∈ blocks, b ≠ pool.nullBlock → blocks.count b = 1 ∧ 1 ≤ pool.refCnt b := by
    intro b hb hne
    have hpos := count_pos_iff.mpr hb
    rcases hheld b hne with ⟨hle, href⟩ | hnot
    · omega
    · exact absurd hb hnot
  set freed := blocks.filter fun b => pool.refCnt b = 1 ∧ b ≠ pool.nullBlock with hfreed
  have hfilter : (blocks.filter fun b => pool₁.refCnt b = 0 ∧ b ≠ pool₁.nullBlock) = freed := by
    apply filter_congr
    intro b hb
    rw [hcount b, hsame.nullBlock]
    by_cases hne : b = pool.nullBlock
    · simp [hne]
    · have hb1 := (hone b hb hne).1
      simp only [ne_eq, hne, not_false_eq_true, and_true, hb1, decide_eq_decide]
      omega
  have hmemfreed : ∀ b, b ∈ freed ↔ b ∈ blocks ∧ pool.refCnt b = 1 ∧ b ≠ pool.nullBlock := by
    intro b
    rw [hfreed, mem_filter]
    simp
  have hnodup : (l ++ freed).Nodup := by
    rw [nodup_append]
    refine ⟨h.isQueue.nodup_blocks, ?_, ?_⟩
    · rw [nodup_iff_count_le_one]
      intro b
      by_cases hb : b ∈ freed
      · obtain ⟨hmem, -, hne⟩ := (hmemfreed b).mp hb
        have hsub : freed.Sublist blocks := filter_sublist
        exact (hsub.count_le b).trans (hone b hmem hne).1.le
      · rw [count_eq_zero_of_not_mem hb]
        omega
    · intro a ha b hb hab
      subst hab
      have hzero := ((h.mem_iff a).mp ha).2.2
      have := ((hmemfreed a).mp hb).2.1
      omega
  obtain ⟨queue, happend, hisQueue⟩ := appendN_isQueue h.isQueue hnodup
    (fun hm => (hblocks _ ((hmemfreed _).mp hm).1).1.ne_fakeHead rfl)
    (fun hm => (hblocks _ ((hmemfreed _).mp hm).1).1.ne_fakeTail rfl)
  refine ⟨{ pool₁ with freeBlockQueue := queue }, ?_, hisQueue, ?_, ?_⟩
  · rw [BlockPool.freeBlocks]
    simp only [← hpool₁, hfilter, hqueue, happend]
    rfl
  · intro b
    change b ∈ l ++ freed ↔
      (pool₁.IsBlock b ∧ b ∉ reserved) ∧ b ≠ pool₁.nullBlock ∧ pool₁.refCnt b = 0
    rw [hsame.isBlock_iff, hsame.nullBlock, hcount b, mem_append, h.mem_iff, hmemfreed]
    by_cases hmem : b ∈ blocks
    · by_cases hne : b = pool.nullBlock
      · simp [hne]
      · obtain ⟨hc, href⟩ := hone b hmem hne
        have hblock := hblocks b hmem
        simp only [hblock.1, hblock.2, hne, not_false_eq_true, ne_eq, true_and, hmem, and_true, hc]
        omega
    · simp [hmem, count_eq_zero_of_not_mem hmem]
  · intro b hb hne
    change 0 ≤ pool₁.refCnt b
    rw [hcount b]
    have hb' : pool.IsBlock b := (hsame.isBlock_iff b).mp hb
    have hne' : b ≠ pool.nullBlock := by rwa [← hsame.nullBlock]
    have := h.nonneg b hb' hne'
    by_cases hmem : b ∈ blocks
    · obtain ⟨hc, href⟩ := hone b hmem hne'
      omega
    · rw [count_eq_zero_of_not_mem hmem]
      omega

end VllmRuntime.BlockPool
