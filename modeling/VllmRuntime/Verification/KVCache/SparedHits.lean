import VllmRuntime.Verification.KVCache.CommonPrefix

/-! # Hits that no other group takes

For a new request the groups take blocks one after the other: each one touches its hits, then takes the next free
blocks for external tokens. Until its group comes, a hit that nobody holds is one of the free blocks. -/

namespace VllmRuntime

open List BlockHash SingleTypeKVCacheManager KVCacheCoordinator KVCacheManager

variable {reserved l queue : List BlockRef} {r : RequestId} {pool₀ pool pool' : BlockPool} {b : BlockRef}
  {total numLocal numExternal : ℕ}

/-! ## One group -/

namespace SingleTypeKVCacheManager

variable {m m' : SingleTypeKVCacheManager} {hits removed table newBlocks : List BlockRef}

/-- The number of blocks that a group takes for external tokens, after its hits. -/
def numExternalBlocks (m : SingleTypeKVCacheManager) (hits : List BlockRef) (total numExternal : ℕ) : ℕ :=
  if m.kvCacheSpec.isCrossAttention = false ∧ m.neededExternalTokens total numExternal > 0 then
    cdiv total m.blockSize - max (m.numSkippedBlocks total).toNat hits.length
  else 0

/-- The blocks behind the hits in the table: those that `get_new_blocks` has handed out. -/
def behindHits (m : SingleTypeKVCacheManager) (r : RequestId) (hits : List BlockRef) (total : ℕ) : List BlockRef :=
  (m.blocksOf r).drop (max (m.numSkippedBlocks total).toNat hits.length)

/-- Nothing is known of the request. -/
structure IsNew (m : SingleTypeKVCacheManager) (r : RequestId) : Prop where
  blocks : m.blocksOf r = []
  cached : r ∉ m.numCachedBlock
  allocated : r ∉ m.allocatedBlockReqs

/-- The hits that the group needs, behind null blocks for the skipped ones. -/
def startOfTable (m : SingleTypeKVCacheManager) (nullBlock : BlockRef) (hits : List BlockRef) (total : ℕ) :
    List BlockRef :=
  List.replicate (m.numSkippedBlocks total).toNat nullBlock ++ m.neededBlocks hits total

lemma length_startOfTable (m : SingleTypeKVCacheManager) (nullBlock : BlockRef) (hits : List BlockRef) (total : ℕ) :
    (m.startOfTable nullBlock hits total).length = max (m.numSkippedBlocks total).toNat hits.length := by
  rw [startOfTable, length_append, length_replicate, length_computed_table]

/-- Of the blocks that are free, a group takes the next `n` that are none of its own hits. -/
structure TakesHits (reserved l : List BlockRef) (r : RequestId) (hits : List BlockRef) (total n : ℕ)
    (m : SingleTypeKVCacheManager) (pool : BlockPool) (m' : SingleTypeKVCacheManager) (pool' : BlockPool) : Prop where
  config : BlockPool.SameConfig pool pool'
  agrees : pool'.CacheAgrees
  free : pool'.FreeList reserved ((l.filter (· ∉ m.neededBlocks hits total)).drop n)
  hash : ∀ b ∉ (l.filter (· ∉ m.neededBlocks hits total)).take n, pool'.blockHash b = pool.blockHash b
  changes : Changes m m' r
  allocated : m'.allocatedBlockReqs = m.allocatedBlockReqs
  blocks : m'.blocksOf r =
    m.startOfTable pool.nullBlock hits total ++ (l.filter (· ∉ m.neededBlocks hits total)).take n

lemma allocateNewComputedBlocks_takes (hspec : ValidSpec m.kvCacheSpec) (hnew : m.IsNew r)
    (hhits : Hits pool reserved hits) (hlen : m.kvCacheSpec.isCrossAttention = false →
      hits.length ≤ cdiv (numLocal + numExternal) m.blockSize)
    (hfree : pool.FreeList reserved l) (hagrees : pool.CacheAgrees)
    (h : m.allocateNewComputedBlocks pool r hits numLocal numExternal = .ok (m', pool')) :
    TakesHits reserved l r hits (numLocal + numExternal)
      (m.numExternalBlocks hits (numLocal + numExternal) numExternal) m pool m' pool' := by
  obtain ⟨rfl, rfl, rfl, hcross⟩ | ⟨pool₁, ret, hgives⟩ := allocateNewComputedBlocks_eq_ok h
  · have hcross := hcross.resolve_right hnew.cached
    have hskip : m'.numSkippedBlocks (numLocal + numExternal) = 0 := by
      unfold numSkippedBlocks getNumSkippedTokens KVCacheSpec.getNumSkippedTokens
      cases hs : m'.kvCacheSpec <;> simp [hs, KVCacheSpec.isCrossAttention] at hcross ⊢
    have hneeded := KVCacheCall.neededBlocks_nil m' (numLocal + numExternal)
    rw [numExternalBlocks, if_neg (by simp [hcross])]
    refine ⟨BlockPool.SameConfig.refl _, hagrees, ?_, fun _ _ => rfl, Changes.refl _ r, rfl, ?_⟩
    · simpa [hneeded] using hfree
    · simp [startOfTable, hneeded, hskip, hnew.blocks]
  · have hneeded := hhits.neededBlocks m (numLocal + numExternal)
    obtain ⟨pool₂, htouch, hfree₁⟩ := hfree.touch hneeded.real
    cases hgives.touch.symm.trans htouch
    have hsame := (BlockPool.touch_spec htouch).1
    obtain ⟨hpos, hget⟩ | ⟨hpos, hnil, rfl⟩ := hgives.external
    · have hskip := numSkippedBlocks_le hspec (numLocal + numExternal)
      have hfit := hlen hgives.cross
      obtain ⟨-, hret, hrest, htaken⟩ := hfree₁.getNewBlocks_eq_ok (hagrees.of_sameCache hsame) (by omega) hget
      have hnum : ((cdiv (numLocal + numExternal) m.blockSize : ℤ) -
          (max (m.numSkippedBlocks (numLocal + numExternal)).toNat hits.length : ℕ)).toNat =
          m.numExternalBlocks hits (numLocal + numExternal) numExternal := by
        rw [numExternalBlocks, if_pos ⟨hgives.cross, hpos⟩]
        omega
      rw [hnum] at hret hrest
      refine ⟨hsame.toSameConfig.trans htaken.config, htaken.agrees, hrest, fun b hb => ?_, hgives.changes,
        hgives.allocated, hret ▸ hgives.blocks⟩
      rw [htaken.hash_kept b (hret ▸ hb), hsame.blockHash]
    · rw [numExternalBlocks, if_neg fun hand => hpos hand.2]
      refine ⟨hsame.toSameConfig, hagrees.of_sameCache hsame, hfree₁, fun b _ => by rw [hsame.blockHash],
        hgives.changes, hgives.allocated, ?_⟩
      rw [hgives.blocks, hnil, take_zero]
      rfl

/-- What the group of a manager needs and takes depends on its parameters only. -/
lemma numSkippedBlocks_congr (hspec : m'.kvCacheSpec = m.kvCacheSpec) (hsize : m'.blockSize = m.blockSize) (n : ℕ) :
    m'.numSkippedBlocks n = m.numSkippedBlocks n := by
  unfold numSkippedBlocks getNumSkippedTokens
  rw [hspec, hsize]

lemma neededBlocks_congr (hspec : m'.kvCacheSpec = m.kvCacheSpec) (hsize : m'.blockSize = m.blockSize)
    (hits : List BlockRef) (n : ℕ) : m'.neededBlocks hits n = m.neededBlocks hits n := by
  unfold neededBlocks
  rw [numSkippedBlocks_congr hspec hsize]

lemma Changes.startOfTable (h : Changes m m' r) (nullBlock : BlockRef) (hits : List BlockRef) (n : ℕ) :
    m'.startOfTable nullBlock hits n = m.startOfTable nullBlock hits n := by
  unfold SingleTypeKVCacheManager.startOfTable
  rw [numSkippedBlocks_congr h.spec h.blockSize, neededBlocks_congr h.spec h.blockSize]

/-! ## After the hits -/

/-- The table of the request has grown at its end. -/
structure Grows (r : RequestId) (m m' : SingleTypeKVCacheManager) : Prop where
  changes : Changes m m' r
  table : m.blocksOf r <+: m'.blocksOf r

lemma Skips.isNew (h : Skips r removed m pool m' pool') (hnew : m.IsNew r) : pool' = pool ∧ m'.IsNew r := by
  have hnil : removed = [] := eq_nil_iff_forall_not_mem.mpr fun b hb => by simpa [hnew.blocks] using h.blanked.subset b hb
  have hfree := h.free
  rw [hnil] at hfree
  refine ⟨(Except.ok.inj hfree).symm, ?_, h.numCachedBlock ▸ hnew.cached, h.allocated ▸ hnew.allocated⟩
  exact length_eq_zero_iff.mp (h.blanked.length.trans (by rw [hnew.blocks]; rfl))

lemma getNumBlocksToAllocate_isNew {num : ℤ} {numTokens main : ℕ} (hnew : m.IsNew r)
    (h : m.getNumBlocksToAllocate pool r numTokens hits total main = .ok (num, m')) : m'.IsNew r := by
  obtain rfl | rfl := getNumBlocksToAllocate_eq h
  · exact hnew
  · exact ⟨by rw [blocksOf_setBlocks, hnew.blocks], hnew.cached, hnew.allocated⟩

/-- Blocks that are in use are not handed out, and keep their hashes. -/
structure KeepsHeld (reserved : List BlockRef) (pool pool' : BlockPool) : Prop where
  free : ∃ l, pool'.FreeList reserved l
  agrees : pool'.CacheAgrees
  held : ∀ b, 0 < pool.refCnt b → 0 < pool'.refCnt b ∧ pool'.blockHash b = pool.blockHash b

lemma AddsNew.keepsHeld {numRequired : ℕ} (h : AddsNew r numRequired table newBlocks m pool m' pool')
    (hkeeps : KeepsHeld reserved pool₀ pool) (hle : table.length ≤ numRequired) : KeepsHeld reserved pool₀ pool' := by
  obtain ⟨l, hfree⟩ := hkeeps.free
  obtain ⟨-, hret, hrest, htaken⟩ := hfree.getNewBlocks_eq_ok hkeeps.agrees (by omega) h.get
  refine ⟨⟨_, hrest⟩, htaken.agrees, fun b hb => ?_⟩
  obtain ⟨hpos, hhash⟩ := hkeeps.held b hb
  have hnot : b ∉ newBlocks := by
    intro hmem
    have hzero := ((hfree.mem_iff b).mp (mem_of_mem_take (hret ▸ hmem))).2.2
    omega
  refine ⟨?_, (htaken.hash_kept b hnot).trans hhash⟩
  rw [htaken.refCnt]
  omega

/-- New blocks come behind what a new request has. -/
lemma allocateNewBlocks_keepsHeld {numTokens main : ℕ} (hnew : r ∉ m.allocatedBlockReqs)
    (hkeeps : KeepsHeld reserved pool₀ pool)
    (h : m.allocateNewBlocks pool r numTokens main = .ok (newBlocks, m', pool')) :
    KeepsHeld reserved pool₀ pool' ∧ Grows r m m' := by
  by_cases hmode : m.kvCacheSpec.isMambaAlign = true
  · rw [allocateNewBlocks_of_align hmode] at h
    obtain ⟨numRequired, rfl, ⟨-, rfl, rfl⟩ | ⟨table, ret, hlt, htable, hadds⟩⟩ := alignAllocateNewBlocks_eq_ok h
    · exact ⟨hkeeps, changes_setBlocks m r _, by rw [blocksOf_setBlocks]⟩
    · rw [alignExtendBlocks, if_neg hnew] at htable
      cases htable
      refine ⟨hadds.keepsHeld hkeeps ?_, hadds.changes, ?_⟩
      · rw [length_append, length_replicate]
        omega
      · rw [hadds.blocks, append_assoc]
        exact prefix_append _ _
  · obtain ⟨k, h⟩ := allocateNewBlocks_of_not_align hmode h
    obtain ⟨rfl, rfl⟩ | ⟨hlt, hadds⟩ := baseAllocateNewBlocks_eq_ok h
    · exact ⟨hkeeps, changes_setBlocks m r _, by rw [blocksOf_setBlocks]⟩
    · exact ⟨hadds.keepsHeld hkeeps hlt.le, hadds.changes, hadds.blocks ▸ prefix_append _ _⟩

/-- Caching gives hashes to blocks that have none. -/
lemma cacheBlocks_hash {request : Request} {numTokens : ℕ} (hagrees : pool.CacheAgrees)
    (hreal : ∀ b ∈ m.blocksOf request.requestId, pool.IsBlock b)
    (h : m.cacheBlocks pool request numTokens = .ok (m', pool')) :
    BlockPool.SameConfig pool pool' ∧ pool'.CacheAgrees ∧
      ∀ b, pool.blockHash b ≠ none → pool'.blockHash b = pool.blockHash b := by
  obtain ⟨-, ⟨-, rfl, rfl⟩ | ⟨hlt, -, hcache⟩⟩ := cacheBlocks_eq_ok h
  · exact ⟨BlockPool.SameConfig.refl _, hagrees, fun _ _ => rfl⟩
  · obtain ⟨hashes, -, hcached⟩ := BlockPool.cacheFullBlocks_cached hagrees hreal hlt hcache
    refine ⟨hcached.config, hcached.agrees, fun b hb => hcached.hash_kept b ?_⟩
    by_contra hnot
    push Not at hnot
    obtain ⟨k, hk⟩ := getElem?_of_mem hnot.1
    exact hb (hcached.hash_new k b hk hnot.2).1

end SingleTypeKVCacheManager

/-! ## All groups -/

namespace KVCacheCoordinator

variable {m m' : SingleTypeKVCacheManager} {ms ms' : List SingleTypeKVCacheManager} {hits : List (List BlockRef)}
  {i : ℕ} {nullBlock : BlockRef} {c c' : KVCacheCoordinator}

/-- The hits that the groups from `i` on need, and the numbers of blocks that they take for external tokens. -/
def hitGroups (hits : List (List BlockRef)) (total numExternal : ℕ) :
    ℕ → List SingleTypeKVCacheManager → List (List BlockRef × ℕ)
  | _, [] => []
  | i, m :: ms => (m.neededBlocks (hits.getD i []) total, m.numExternalBlocks (hits.getD i []) total numExternal) ::
    hitGroups hits total numExternal (i + 1) ms

/-- No group takes, from what the groups before it leave of the free queue, a block that a later group needs. -/
def Spared : List (List BlockRef × ℕ) → List BlockRef → Prop
  | [], _ => True
  | (own, n) :: groups, queue =>
    (∀ g ∈ groups, ∀ b ∈ g.1, b ∉ (queue.filter (· ∉ own)).take n) ∧ Spared groups ((queue.filter (· ∉ own)).drop n)

/-- The blocks behind the hits in the tables of the groups from `i` on. -/
def handedOut (r : RequestId) (hits : List (List BlockRef)) (total : ℕ) :
    ℕ → List SingleTypeKVCacheManager → List BlockRef
  | _, [] => []
  | i, m :: ms => m.behindHits r (hits.getD i []) total ++ handedOut r hits total (i + 1) ms

/-- The tables of the groups from `i` on start with the hits that are needed. -/
def StartsWithHits (nullBlock : BlockRef) (r : RequestId) (hits : List (List BlockRef)) (total : ℕ) :
    ℕ → List SingleTypeKVCacheManager → Prop
  | _, [] => True
  | i, m :: ms => m.startOfTable nullBlock (hits.getD i []) total <+: m.blocksOf r ∧
    StartsWithHits nullBlock r hits total (i + 1) ms

lemma hitGroups_congr (h : List.Forall₂ (fun m m' => m'.kvCacheSpec = m.kvCacheSpec ∧ m'.blockSize = m.blockSize)
    ms ms') : hitGroups hits total numExternal i ms' = hitGroups hits total numExternal i ms := by
  induction h generalizing i with
  | nil => rfl
  | cons hm _ ih =>
    obtain ⟨hspec, hsize⟩ := hm
    rw [hitGroups, hitGroups, ih, neededBlocks_congr hspec hsize]
    unfold numExternalBlocks neededExternalTokens getNumSkippedTokens
    rw [numSkippedBlocks_congr hspec hsize, hspec, hsize]

lemma exists_mem_of_mem_hitGroups {g : List BlockRef × ℕ} (hg : g ∈ hitGroups hits total numExternal i ms)
    (hb : b ∈ g.1) : ∃ j, b ∈ hits.getD j [] := by
  induction ms generalizing i with
  | nil => exact absurd hg not_mem_nil
  | cons m ms ih =>
    obtain rfl | hg := mem_cons.mp hg
    · refine ⟨i, ?_⟩
      change b ∈ m.neededBlocks _ _ at hb
      unfold neededBlocks at hb
      split at hb
      · exact mem_of_mem_drop hb
      · exact hb
    · exact ih hg

/-- A hit that is in the tables has no room behind the hits, if its block stands there once. -/
lemma StartsWithHits.count_le (h : StartsWithHits nullBlock r hits total i ms) (numExternal : ℕ) (b : BlockRef) :
    ((hitGroups hits total numExternal i ms).map fun g => g.1.count b).sum + (handedOut r hits total i ms).count b ≤
      (ms.map (·.blocksOf r)).flatten.count b := by
  induction ms generalizing i with
  | nil => exact Nat.zero_le _
  | cons m ms ih =>
    obtain ⟨hstart, hrest⟩ := h
    have hle := ih hrest
    have htable := congrArg (count b) (prefix_iff_eq_append.mp hstart)
    rw [length_startOfTable, startOfTable, count_append, count_append] at htable
    change _ + _ + (m.behindHits r (hits.getD i []) total).count b = _ at htable
    simp only [hitGroups, handedOut, map_cons, sum_cons, count_append, flatten_cons]
    omega

/-- The tables may grow behind the hits. -/
lemma StartsWithHits.grow (hgrow : List.Forall₂ (Grows r) ms ms')
    (h : StartsWithHits nullBlock r hits total i ms) : StartsWithHits nullBlock r hits total i ms' ∧
      ∀ b ∈ handedOut r hits total i ms, b ∈ handedOut r hits total i ms' := by
  induction hgrow generalizing i with
  | nil => exact ⟨h, fun _ => id⟩
  | cons hm _ ih =>
    obtain ⟨hchanges, hprefix⟩ := hm
    obtain ⟨hstart, hrest⟩ := h
    obtain ⟨hstarts, hsub⟩ := ih hrest
    refine ⟨⟨?_, hstarts⟩, fun b hb => ?_⟩
    · rw [hchanges.startOfTable]
      exact hstart.trans hprefix
    · rw [handedOut, mem_append] at hb ⊢
      refine hb.imp (fun hb => ?_) (hsub b)
      unfold behindHits at hb ⊢
      rw [numSkippedBlocks_congr hchanges.spec hchanges.blockSize]
      obtain ⟨new, hnew⟩ := hprefix
      rw [← hnew, drop_append]
      exact mem_append_left _ hb

/-- What the loop of `allocate_new_computed_blocks` does for a new request: the tables start with the hits, and the
blocks behind them come from the free queue and have lost their hashes. -/
structure GivesHits (l : List BlockRef) (r : RequestId) (hits : List (List BlockRef)) (numLocal numExternal i : ℕ)
    (ms : List SingleTypeKVCacheManager) (pool : BlockPool) (ms' : List SingleTypeKVCacheManager)
    (pool' : BlockPool) : Prop where
  allocated : ∀ m' ∈ ms', r ∉ m'.allocatedBlockReqs
  starts : StartsWithHits pool.nullBlock r hits (numLocal + numExternal) i ms'
  sub : ∀ b ∈ handedOut r hits (numLocal + numExternal) i ms', b ∈ l
  hash : ∀ b ∉ handedOut r hits (numLocal + numExternal) i ms', pool'.blockHash b = pool.blockHash b
  spared : Spared (hitGroups hits (numLocal + numExternal) numExternal i ms) l ↔
    ∀ g ∈ hitGroups hits (numLocal + numExternal) numExternal i ms, ∀ b ∈ g.1,
      b ∉ handedOut r hits (numLocal + numExternal) i ms'
  kept : Spared (hitGroups hits (numLocal + numExternal) numExternal i ms) l →
    (∀ g ∈ hitGroups hits (numLocal + numExternal) numExternal i ms, ∀ b ∈ g.1, b ≠ pool.nullBlock →
      pool.IsCached b) → HitsKept r hits numLocal numExternal i ms pool

lemma forManagers_gives {α : Type} {as : List α} {f : ℕ → SingleTypeKVCacheManager → BlockPool →
      Except PyError (α × SingleTypeKVCacheManager × BlockPool)}
    (hf : ∀ {i m pool a m' pool'}, f i m pool = .ok (a, m', pool') →
      m.allocateNewComputedBlocks pool r (hits.getD i []) numLocal numExternal = .ok (m', pool'))
    (hround : ∀ (j : ℕ) (m : SingleTypeKVCacheManager), ms[j]? = some m → ValidSpec m.kvCacheSpec ∧ m.IsNew r ∧
      Hits pool reserved (hits.getD (i + j) []) ∧ (m.kvCacheSpec.isCrossAttention = false →
        (hits.getD (i + j) []).length ≤ cdiv (numLocal + numExternal) m.blockSize))
    (hfree : pool.FreeList reserved l) (hagrees : pool.CacheAgrees)
    (h : forManagers f i ms pool = .ok (as, ms', pool')) :
    GivesHits l r hits numLocal numExternal i ms pool ms' pool' := by
  induction ms generalizing i pool l as ms' with
  | nil =>
    cases h
    exact ⟨by simp, trivial, fun _ hb => absurd hb not_mem_nil, fun _ _ => rfl, by simp [Spared, hitGroups],
      fun _ _ => trivial⟩
  | cons m ms ih =>
    obtain ⟨⟨a, m₁, pool₁⟩, hm, h⟩ := bind_eq_ok h
    obtain ⟨⟨as₁, ms₁, pool₂⟩, hrest, h⟩ := bind_eq_ok h
    cases h
    obtain ⟨hspec, hnew, hhits, hlen⟩ := hround 0 m rfl
    rw [Nat.add_zero] at hhits hlen
    have hrun := hf hm
    have htakes := allocateNewComputedBlocks_takes hspec hnew hhits hlen hfree hagrees hrun
    have hgives := ih (fun j m' hj => by
      obtain ⟨hspec', hnew', hhits', hlen'⟩ := hround (j + 1) m' hj
      rw [show i + 1 + j = i + (j + 1) by omega]
      exact ⟨hspec', hnew', hhits'.congr htakes.config, hlen'⟩) htakes.free htakes.agrees hrest
    have hbehind : m₁.behindHits r (hits.getD i []) (numLocal + numExternal) =
        (l.filter (· ∉ m.neededBlocks (hits.getD i []) (numLocal + numExternal))).take
          (m.numExternalBlocks (hits.getD i []) (numLocal + numExternal) numExternal) := by
      rw [behindHits, htakes.blocks, numSkippedBlocks_congr htakes.changes.spec htakes.changes.blockSize]
      exact drop_left' (length_startOfTable _ _ _ _)
    have hfirst := hgives.sub
    refine ⟨?_, ⟨?_, ?_⟩, fun b hb => ?_, fun b hb => ?_, ?_, fun hspared hcached => ⟨fun b hb hne => ?_, ?_⟩⟩
    · rw [forall_mem_cons]
      exact ⟨htakes.allocated ▸ hnew.allocated, hgives.allocated⟩
    · rw [htakes.changes.startOfTable, htakes.blocks]
      exact prefix_append _ _
    · exact htakes.config.nullBlock ▸ hgives.starts
    · rw [handedOut, hbehind, mem_append] at hb
      exact mem_of_mem_filter (hb.elim mem_of_mem_take fun hb => mem_of_mem_drop (hfirst b hb))
    · rw [handedOut, hbehind, mem_append, not_or] at hb
      rw [hgives.hash b hb.2, htakes.hash b hb.1]
    · -- The own hits of the group are filtered out.
      have hown : ∀ b ∈ m.neededBlocks (hits.getD i []) (numLocal + numExternal),
          b ∉ l.filter (· ∉ m.neededBlocks (hits.getD i []) (numLocal + numExternal)) := by
        intro b hb hmem
        exact of_decide_eq_true (mem_filter.mp hmem).2 hb
      rw [hitGroups, handedOut, hbehind, Spared, hgives.spared]
      simp only [forall_mem_cons, mem_append, not_or]
      exact ⟨fun h => ⟨fun b hb => ⟨fun hb' => hown b hb (mem_of_mem_take hb'),
          fun hb' => hown b hb (mem_of_mem_drop (hfirst b hb'))⟩, fun g hg b hb => ⟨h.1 g hg b hb, h.2 g hg b hb⟩⟩,
        fun h => ⟨fun g hg b hb => (h.2 g hg b hb).1, fun g hg b hb => (h.2 g hg b hb).2⟩⟩
    · exact hcached _ mem_cons_self b hb hne
    · intro m₂ pool₂ hrun'
      cases hrun.symm.trans hrun'
      refine hgives.kept hspared.2 fun g hg b hb hne => ?_
      obtain ⟨key, hstored⟩ := hcached g (mem_cons_of_mem _ hg) b hb (htakes.config.nullBlock ▸ hne)
      refine ⟨key, (htakes.agrees.stored_iff key b).mpr ?_⟩
      rw [htakes.config.isBlock_iff, htakes.config.nullBlock, htakes.hash b (hspared.1 g hg b hb)]
      exact (hagrees.stored_iff key b).mp hstored

variable {numTokens numEncoderTokens main : ℕ} {request : Request}

lemma removeSkippedBlocks_isNew (hnew : ∀ m ∈ c.singleTypeManagers, m.IsNew r)
    (h : c.removeSkippedBlocks r total = .ok c') :
    c'.blockPool = c.blockPool ∧ ∀ m ∈ c'.singleTypeManagers, m.IsNew r := by
  obtain ⟨⟨as, c₁⟩, hloop, hret⟩ := bind_eq_ok h
  cases hret
  obtain ⟨hpool, hall⟩ := overManagers_keeps (· = c.blockPool) (fun _ m' => m'.IsNew r) (by
    rintro i m pool a m' pool' hm rfl hround
    obtain ⟨m₁, pool₁, removed, removed', hskips, hskips'⟩ := removeSkippedBlocks_eq_ok (round_eq_ok hround)
    obtain ⟨rfl, hnew₁⟩ := hskips.isNew (hnew m hm)
    exact hskips'.isNew hnew₁) rfl hloop
  exact ⟨hpool, forall_of_forall₂ hall⟩

lemma getNumBlocksToAllocate_isNew {num : ℤ} (hnew : ∀ m ∈ c.singleTypeManagers, m.IsNew r)
    (h : c.getNumBlocksToAllocate r numTokens hits numEncoderTokens total main = .ok (num, c')) :
    c'.blockPool = c.blockPool ∧ ∀ m ∈ c'.singleTypeManagers, m.IsNew r := by
  obtain ⟨⟨nums, c₁⟩, hloop, hret⟩ := bind_eq_ok h
  cases hret
  obtain ⟨hpool, hall⟩ := overManagers_keeps (· = c.blockPool) (fun _ m' => m'.IsNew r) (by
    rintro i m pool a m' pool' hm rfl hround
    obtain ⟨⟨num₁, m₁⟩, hest, hret⟩ := bind_eq_ok hround
    cases hret
    refine ⟨rfl, ?_⟩
    unfold SingleTypeKVCacheManager.estimate at hest
    split at hest
    · exact SingleTypeKVCacheManager.getNumBlocksToAllocate_isNew (hnew m hm) hest
    · exact SingleTypeKVCacheManager.getNumBlocksToAllocate_isNew (hnew m hm) hest) rfl hloop
  exact ⟨hpool, forall_of_forall₂ hall⟩

lemma allocateNewBlocks_grows {newBlocks : List (List BlockRef)} (hfree : c.blockPool.FreeList reserved l)
    (hagrees : c.blockPool.CacheAgrees) (hnew : ∀ m ∈ c.singleTypeManagers, r ∉ m.allocatedBlockReqs)
    (h : c.allocateNewBlocks r numTokens main numEncoderTokens = .ok (newBlocks, c')) :
    KeepsHeld reserved c.blockPool c'.blockPool ∧ List.Forall₂ (Grows r) c.singleTypeManagers c'.singleTypeManagers :=
  overManagers_keeps _ _ (fun _ m _ _ _ _ hm hkeeps hround => allocateNewBlocks_keepsHeld (hnew m hm) hkeeps hround)
    ⟨⟨l, hfree⟩, hagrees, fun _ hb => ⟨hb, rfl⟩⟩ h

lemma commitBlocks_grows {args : AllocateArgs} (hagrees : c.blockPool.CacheAgrees)
    (hreal : ∀ m ∈ c.singleTypeManagers, ∀ b ∈ m.blocksOf request.requestId, c.blockPool.IsBlock b)
    (h : commitBlocks c request args = .ok c') :
    (∀ b, c.blockPool.blockHash b ≠ none → c'.blockPool.blockHash b = c.blockPool.blockHash b) ∧
      List.Forall₂ (Grows request.requestId) c.singleTypeManagers c'.singleTypeManagers := by
  unfold commitBlocks at h
  split at h
  · cases h
    exact ⟨fun _ _ => rfl, forall₂_same.mpr fun m _ => ⟨Changes.refl m _, prefix_rfl⟩⟩
  · obtain ⟨⟨as, c₁⟩, hloop, hret⟩ := bind_eq_ok h
    cases hret
    obtain ⟨⟨-, -, hhash⟩, hall⟩ := overManagers_keeps (fun pool => BlockPool.SameConfig c.blockPool pool ∧
      pool.CacheAgrees ∧ ∀ b, c.blockPool.blockHash b ≠ none → pool.blockHash b = c.blockPool.blockHash b)
      (Grows request.requestId) (by
      rintro i m pool a m' pool' hm ⟨hconfig, hagrees, hhash⟩ hround
      have hrun := round_eq_ok hround
      obtain ⟨hconfig', hagrees', hhash'⟩ := cacheBlocks_hash hagrees (fun b hb => by
        rw [hconfig.isBlock_iff]
        exact hreal m hm b hb) hrun
      obtain ⟨⟨hchanges, hblocks, -⟩, -⟩ := cacheBlocks_eq_ok hrun
      refine ⟨⟨hconfig.trans hconfig', hagrees', fun b hb => ?_⟩, hchanges, hblocks ▸ prefix_rfl⟩
      rw [hhash' b (hhash b hb ▸ hb), hhash b hb]) ⟨BlockPool.SameConfig.refl _, hagrees, fun _ _ => rfl⟩ hloop
    exact ⟨hhash, hall⟩

/-- In placed tables, a request has a block at one position. -/
lemma PlacedAt.count_flatten_le_one {hashFunction : HashInput → BlockHash} {noneHash : BlockHash}
    {place : BlockRef → ℕ × ℕ} (h : c.PlacedAt hashFunction noneHash place) {tracked : Prop}
    (hcache : CacheInv tracked reserved c.singleTypeManagers c.blockPool) (hne : b ≠ c.blockPool.nullBlock)
    (r : RequestId) : (c.getBlocks r).flatten.count b ≤ 1 := by
  have hgroup : ∀ m ∈ c.singleTypeManagers, b ∈ m.blocksOf r → (place b).1 = m.kvCacheGroupId := by
    intro m hm hb
    obtain ⟨k, hk⟩ := getElem?_of_mem hb
    exact (h.tables.held m hm r k b hk hne).1
  have honce : ∀ m ∈ c.singleTypeManagers, (m.blocksOf r).count b ≤ 1 := fun m hm => hcache.once m hm r b hne
  have hids := h.setUp.groupIds_nodup
  unfold getBlocks
  generalize c.singleTypeManagers = ms at hgroup honce hids
  induction ms with
  | nil => exact Nat.zero_le _
  | cons m ms ih =>
    rw [forall_mem_cons] at hgroup honce
    rw [map_cons, nodup_cons] at hids
    have hrest := ih hgroup.2 honce.2 hids.2
    rw [map_cons, flatten_cons, count_append]
    by_cases hb : b ∈ m.blocksOf r
    · have hnone : (ms.map fun m => m.blocksOf r).flatten.count b = 0 := by
        simp only [count_eq_zero, mem_flatten, mem_map, not_exists, not_and]
        rintro _ ⟨m', hm', rfl⟩ hb'
        exact hids.1 (mem_map.mpr ⟨m', hm', (hgroup.2 m' hm' hb').symm.trans (hgroup.1 hb)⟩)
      have hone := honce.1
      omega
    · rw [count_eq_zero.mpr hb]
      omega

end KVCacheCoordinator

namespace KVCacheManager

variable {kv kv' : KVCacheManager} {request : Request} {hits newBlocks : List (List BlockRef)} {args : AllocateArgs}
  {c : KVCacheCoordinator}

/-! ## One allocation -/

/-- The free blocks in the order of the queue. -/
def freeQueue (kv : KVCacheManager) : List BlockRef :=
  (nextNodes kv.blockPool.freeBlockQueue.links (kv.blockPool.freeBlockQueue.numFreeBlocks.toNat + 1) .fakeHead).dropLast

lemma freeQueue_eq (h : kv.blockPool.FreeList reserved l) : kv.freeQueue = l := by
  have hnodes := nextNodes_of_linked h.isQueue.linked
  rw [append_eq, length_append] at hnodes
  rw [freeQueue, h.isQueue.count, Int.toNat_natCast]
  exact (congrArg dropLast hnodes).trans dropLast_concat

/-- The hits that the groups need for the request, and the numbers of blocks that they take for external tokens. -/
def hitGroupsOf (kv : KVCacheManager) (request : Request) (hits : List (List BlockRef)) (args : AllocateArgs) :
    List (List BlockRef × ℕ) :=
  hitGroups hits (args.numLocalComputedTokens request + args.numExternalComputedTokens) args.numExternalComputedTokens 0
    kv.coordinator.singleTypeManagers

/-- The blocks behind the hits in the tables that `ms` have for the request. -/
def handedOutBy (ms : List SingleTypeKVCacheManager) (request : Request) (hits : List (List BlockRef))
    (args : AllocateArgs) : List BlockRef :=
  handedOut request.requestId hits (args.numLocalComputedTokens request + args.numExternalComputedTokens) 0 ms

/-- No hit that a group needs is handed out as a new block, the request has each block at one position, and the hits
keep their hashes. -/
structure HitsOnce (kv : KVCacheManager) (request : Request) (hits : List (List BlockRef)) (args : AllocateArgs)
    (kv' : KVCacheManager) : Prop where
  notHandedOut : ∀ g ∈ kv.hitGroupsOf request hits args, ∀ b ∈ g.1, b ≠ kv.blockPool.nullBlock →
    b ∉ handedOutBy kv'.coordinator.singleTypeManagers request hits args
  once : ∀ b, b ≠ kv.blockPool.nullBlock → (kv'.coordinator.getBlocks request.requestId).flatten.count b ≤ 1
  hash : ∀ g ∈ kv.hitGroupsOf request hits args, ∀ b ∈ g.1, b ≠ kv.blockPool.nullBlock →
    kv'.blockPool.blockHash b = kv.blockPool.blockHash b

lemma prepareAllocation_isNew {num : ℤ} (hnew : ∀ m ∈ kv.coordinator.singleTypeManagers, m.IsNew request.requestId)
    (h : kv.prepareAllocation request hits args = .ok (num, c)) :
    c.blockPool = kv.blockPool ∧ ∀ m ∈ c.singleTypeManagers, m.IsNew request.requestId := by
  obtain ⟨c₁, hskip, hnum⟩ := bind_eq_ok h
  obtain ⟨hpool₁, hnew₁⟩ := removeSkippedBlocks_isNew hnew hskip
  obtain ⟨hpool₂, hnew₂⟩ := getNumBlocksToAllocate_isNew hnew₁ hnum
  exact ⟨hpool₂.trans hpool₁, hnew₂⟩

lemma sum_count_pos {groups : List (List BlockRef × ℕ)} {g : List BlockRef × ℕ} (hg : g ∈ groups) (hb : b ∈ g.1) :
    0 < (groups.map fun g => g.1.count b).sum :=
  (count_pos_iff.mpr hb).trans_le (single_le_sum (fun _ _ => Nat.zero_le _) _ (mem_map_of_mem hg))

/-- The hits come first, and what is behind them after the hits have been given stays there. A hit that no group has
taken keeps its hash. -/
lemma allocateSlots_gives (hinv : kv.coordinator.Invariant False reserved 0) (hlen : 0 < kv.coordinator.maxModelLen)
    (hfit : HitsFit False reserved kv.coordinator hits (args.numLocalComputedTokens request)
      args.numExternalComputedTokens) (hexternal : 0 < args.numExternalComputedTokens)
    (hnew : ∀ m ∈ kv.coordinator.singleTypeManagers, m.IsNew request.requestId)
    (hl : kv.blockPool.FreeList reserved l)
    (hslots : kv.allocateSlots request hits args = .ok (some newBlocks, kv')) :
    ∃ num c ms' pool', kv.prepareAllocation request hits args = .ok (num, c) ∧ c.blockPool = kv.blockPool ∧
      hitGroups hits (args.numLocalComputedTokens request + args.numExternalComputedTokens)
        args.numExternalComputedTokens 0 c.singleTypeManagers = kv.hitGroupsOf request hits args ∧
      GivesHits l request.requestId hits (args.numLocalComputedTokens request) args.numExternalComputedTokens 0
        c.singleTypeManagers c.blockPool ms' pool' ∧
      StartsWithHits kv.blockPool.nullBlock request.requestId hits
        (args.numLocalComputedTokens request + args.numExternalComputedTokens) 0 kv'.coordinator.singleTypeManagers ∧
      (∀ b ∈ handedOutBy ms' request hits args,
        b ∈ handedOutBy kv'.coordinator.singleTypeManagers request hits args) ∧
      ∀ g ∈ kv.hitGroupsOf request hits args, ∀ b ∈ g.1, b ≠ kv.blockPool.nullBlock →
        b ∉ handedOutBy ms' request hits args →
        kv.blockPool.blockHash b ≠ none → kv'.blockPool.blockHash b = kv.blockPool.blockHash b := by
  obtain ⟨hpos, num, c, hprep, ⟨hnone, -⟩ | ⟨-, newBlocks, c₂, c₃, htake, hcommit, -, rfl⟩⟩ := allocateSlots_eq_ok hslots
  · cases hnone
  · obtain ⟨hpool, hnewc⟩ := prepareAllocation_isNew hnew hprep
    obtain ⟨hinvc, hsame⟩ := prepareAllocation_inv hinv hprep
    have hfitc := hfit.of_same hsame
    obtain ⟨hinv₂, -⟩ := takeBlocks_inv hinvc (hsame.maxModelLen ▸ hlen) hpos hfitc False.elim htake
    obtain ⟨c₁, hadd, hblocks⟩ := bind_eq_ok htake
    rw [KVCacheManager.addComputedBlocks, if_pos (by simp [hexternal])] at hadd
    obtain ⟨hinv₁, hsame₁⟩ := allocateNewComputedBlocks_inv hinvc hfitc hadd
    obtain ⟨⟨as, c₁'⟩, hloop, hret⟩ := bind_eq_ok hadd
    cases hret
    obtain ⟨⟨as', ms', pool'⟩, hrounds, hret⟩ := bind_eq_ok hloop
    cases hret
    have hgives := forManagers_gives (r := request.requestId) round_eq_ok (fun j m hm => by
      rw [Nat.zero_add]
      exact ⟨hinvc.setUp.specs m (mem_of_getElem? hm), hnewc m (mem_of_getElem? hm), hfitc.hits j m hm,
        fun hcross => hfitc.short j m hm hcross hexternal⟩) (hpool ▸ hl) hinvc.cache.agrees hrounds
    obtain ⟨l', hl'⟩ := hinv₁.cache.free
    obtain ⟨hkeeps, hgrow₂⟩ := allocateNewBlocks_grows hl' hinv₁.cache.agrees hgives.allocated hblocks
    obtain ⟨hhash, hgrow₃⟩ := commitBlocks_grows hkeeps.agrees (fun m hm b hb => (hinv₂.cache.real m hm _ b hb).1)
      hcommit
    obtain ⟨hstarts₂, hsub₂⟩ := hgives.starts.grow hgrow₂
    obtain ⟨hstarts₃, hsub₃⟩ := hstarts₂.grow hgrow₃
    have hgroups : hitGroups hits (args.numLocalComputedTokens request + args.numExternalComputedTokens)
        args.numExternalComputedTokens 0 c.singleTypeManagers = kv.hitGroupsOf request hits args :=
      hitGroups_congr (hsame.managers.imp fun _ _ h => ⟨h.1, h.2.2.2⟩)
    refine ⟨num, c, ms', pool', hprep, hpool, hgroups, hgives, hpool ▸ hstarts₃, fun b hb => hsub₃ b (hsub₂ b hb),
      fun g hg b hb hne hnot hcached => ?_⟩
    -- A hit is in use once its group has taken it.
    have hheld : 0 < pool'.refCnt b := by
      have hcount := hgives.starts.count_le args.numExternalComputedTokens b
      rw [hitGroups_congr (hsame₁.managers.imp fun _ _ h => ⟨h.1, h.2.2.2⟩), hgroups] at hcount
      obtain ⟨_, htables, hmem⟩ := mem_flatten.mp (count_pos_iff.mp ((sum_count_pos hg hb).trans_le
        ((Nat.le_add_right _ _).trans hcount)))
      obtain ⟨m, hm, rfl⟩ := mem_map.mp htables
      have hpos := numPositions_pos hm hmem
      have hrefs := hinv₁.cache.refCnt b (by rwa [hsame₁.pool.nullBlock, hpool])
      dsimp only at hrefs
      omega
    have hsteps : c₂.blockPool.blockHash b = kv.blockPool.blockHash b :=
      ((hkeeps.held b hheld).2.trans (hgives.hash b hnot)).trans (by rw [hpool])
    exact (hhash b (hsteps ▸ hcached)).trans hsteps

/-- The hits of a lookup that the groups need are cached. -/
lemma hitGroupsOf_cached {n : ℕ} (args : AllocateArgs) (hinv : kv.coordinator.Invariant False reserved 0)
    (hlook : kv.getComputedBlocks request = .ok (hits, n)) :
    ∀ g ∈ kv.hitGroupsOf request hits args, ∀ b ∈ g.1, b ≠ kv.blockPool.nullBlock → kv.blockPool.IsCached b := by
  intro g hg b hb hne
  obtain ⟨i, hi⟩ := exists_mem_of_mem_hitGroups hg hb
  rcases (getComputedBlocks_result hinv.setUp hlook).found i with hnil | ⟨hashes, -, hfound⟩
  · rw [hnil] at hi
    exact absurd hi not_mem_nil
  · obtain ⟨k, hk⟩ := getElem?_of_mem hi
    obtain ⟨hash, -, hget⟩ := (hfound k b hk).resolve_left hne
    exact ⟨_, BlockHashToBlockMap.stored_of_getOneBlock hget⟩

end KVCacheManager

/-- With a collision-free hash, and after calls in which the groups found and kept their hits, `allocate_slots` gives a
new request each hit once, and hands none of them out, exactly when the groups spare each other's hits. -/
theorem hitsOnce_iff_spared {hashFunction : HashInput → BlockHash} {noneHash : BlockHash}
    (hfree : CollisionFree hashFunction noneHash) {config : KVCacheConfig} {maxModelLen hashBlockSize : ℕ}
    {useEagle enableKvCacheEvents useIntBlockHashes : Bool} {dcpWorldSize pcpWorldSize : ℕ}
    {start kv kv' : KVCacheManager} (hconfig : ValidConfig config maxModelLen dcpWorldSize pcpWorldSize)
    (hgroups : config.kvCacheGroups.length ≤ 2 ^ 32)
    (hstart : KVCacheManager.new config maxModelLen hashBlockSize true useEagle enableKvCacheEvents
      useIntBlockHashes dcpWorldSize pcpWorldSize = .ok start)
    (hrun : Reaches (fun call kv => KVCacheCall.run kv call)
      (fun kv call => call.Shares hashFunction noneHash kv ∧ call.HitsCovered kv) start kv)
    {request : Request} {args : AllocateArgs} {hits newBlocks : List (List BlockRef)}
    (hhashed : request.HashedBy hashFunction noneHash)
    (hcovered : (KVCacheCall.allocateNew request args).HitsCovered kv)
    (hnew : ∀ m ∈ kv.coordinator.singleTypeManagers, m.IsNew request.requestId)
    (hexternal : 0 < args.numExternalComputedTokens)
    (hlook : kv.getComputedBlocks request = .ok (hits, args.numNewComputedTokens))
    (hslots : kv.allocateSlots request hits args = .ok (some newBlocks, kv')) :
    HitsOnce kv request hits args kv' ↔
      Spared (kv.hitGroupsOf request hits args) kv.freeQueue := by
  obtain ⟨reserved, hinv₀, -⟩ := KVCacheManager.new_inv hconfig (fun h : False => h.elim) hstart
  obtain ⟨hplaced₀, hlen₀⟩ :
      start.coordinator.PlacedAt hashFunction noneHash (fun _ => (0, 0)) ∧ 0 < start.coordinator.maxModelLen :=
    KVCacheManager.new_placed hconfig hgroups _ hstart
  obtain ⟨⟨place, hplaced⟩, hinv, hlen⟩ := hrun.invariant
    (P := fun kv => (∃ place, kv.coordinator.PlacedAt hashFunction noneHash place) ∧
      kv.coordinator.Invariant False reserved 0 ∧ 0 < kv.coordinator.maxModelLen) ⟨⟨_, hplaced₀⟩, hinv₀, hlen₀⟩ (by
    rintro kv call kv' ⟨⟨place, hplaced⟩, hinv, hlen⟩ ⟨⟨hhashed, hkept⟩, hcovered⟩ hcall
    obtain ⟨hplaced', hsame⟩ := KVCacheCall.run_placed hplaced hlen hfree hhashed hkept hcall
    exact ⟨hplaced', (KVCacheCall.run_inv hinv hlen hfree (by
      cases call with
      | allocateNew => exact hhashed
      | _ => trivial) hcovered False.elim hcall).1,
      hsame.maxModelLen ▸ hlen⟩)
  have hfit : HitsFit False reserved kv.coordinator hits (args.numLocalComputedTokens request)
      args.numExternalComputedTokens := KVCacheCall.hitsFit_of_lookup hinv hfree hhashed hcovered hlook
  obtain ⟨l, hl⟩ := hinv.cache.free
  rw [freeQueue_eq hl]
  obtain ⟨num, c, ms', pool', hprep, hpool, hgroupsOf, hgives, hstarts, hsub, hhash⟩ :=
    allocateSlots_gives hinv hlen hfit hexternal hnew hl hslots
  have hspared := hgives.spared
  have hkept := hgives.kept
  rw [hgroupsOf] at hspared hkept
  rw [hpool] at hkept
  constructor
  · intro h
    refine hspared.mpr fun g hg b hb hmem => h.notHandedOut g hg b hb ?_ (hsub b hmem)
    exact ((hl.mem_iff b).mp (hgives.sub b hmem)).2.1
  · intro h
    have hcached := hitGroupsOf_cached args hinv hlook
    obtain ⟨⟨place', hplaced'⟩, hsame⟩ := allocateSlots_placed hplaced hlen hhashed
      (getComputedBlocks_placed hplaced hfree hhashed hlook) (fun _ _ hprep' _ => by
        cases hprep.symm.trans hprep'
        rw [HitsKeptFor, hpool]
        exact hkept h hcached) hslots
    obtain ⟨hinv', -⟩ := allocateSlots_inv hinv hlen hfit False.elim hslots
    have honce : ∀ b, b ≠ kv.blockPool.nullBlock →
        (kv'.coordinator.getBlocks request.requestId).flatten.count b ≤ 1 := fun b hne =>
      hplaced'.count_flatten_le_one hinv'.cache (by rwa [hsame.pool.nullBlock]) _
    have hnot : ∀ g ∈ kv.hitGroupsOf request hits args, ∀ b ∈ g.1,
        b ≠ kv.blockPool.nullBlock → b ∉ handedOutBy kv'.coordinator.singleTypeManagers request hits args := by
      intro g hg b hb hne hmem
      have hcount := hstarts.count_le args.numExternalComputedTokens b
      rw [hitGroups_congr (hsame.managers.imp fun _ _ h => ⟨h.1, h.2.2.2⟩)] at hcount
      have hhit := sum_count_pos hg hb
      have hout := count_pos_iff.mpr hmem
      have hle := honce b hne
      unfold hitGroupsOf at hhit
      unfold handedOutBy at hout
      unfold getBlocks at hle
      omega
    refine ⟨hnot, honce, fun g hg b hb hne => hhash g hg b hb hne (fun hmem => hnot g hg b hb hne (hsub b hmem)) ?_⟩
    obtain ⟨key, hstored⟩ := hcached g hg b hb hne
    exact ne_of_eq_of_ne ((hinv.cache.agrees.stored_iff key b).mp hstored).2.2 (Option.some_ne_none key)

/-! ## Two runs -/

instance KVCacheCoordinator.decidableSpared : ∀ groups queue, Decidable (Spared groups queue)
  | [], _ => .isTrue trivial
  | (own, n) :: groups, queue =>
    have := decidableSpared groups ((queue.filter (· ∉ own)).drop n)
    inferInstanceAs (Decidable (_ ∧ _))

instance SingleTypeKVCacheManager.decidableIsNew (m : SingleTypeKVCacheManager) (r : RequestId) :
    Decidable (m.IsNew r) :=
  decidable_of_iff (m.blocksOf r = [] ∧ r ∉ m.numCachedBlock ∧ r ∉ m.allocatedBlockReqs)
    ⟨fun ⟨h, h', h''⟩ => ⟨h, h', h''⟩, fun ⟨h, h', h''⟩ => ⟨h, h', h''⟩⟩

/-- One new token and one from elsewhere, behind `n` found tokens. -/
def loadArgs (n : ℕ) : AllocateArgs where
  numNewTokens := 1
  numNewComputedTokens := n
  numExternalComputedTokens := 1

/-- The last of the calls: the states before and after it, and what its lookup finds. -/
structure LoadRun where
  start : KVCacheManager
  before : KVCacheManager
  after : KVCacheManager
  hits : List (List BlockRef)
  numFound : ℕ
  newBlocks : List (List BlockRef)

def loadRun (tokens : List TokenId) : Option LoadRun :=
  (runCheckedFrom wideWindowManager (fun call kv => KVCacheCall.run kv call)
    (fun kv call => decide (call.HitsKept kv ∧ call.HitsCovered kv)) (commonCalls tokens).dropLast).bind fun p =>
  (p.2.getComputedBlocks (hashedRequest 1 tokens)).toOption.bind fun found =>
  (p.2.allocateSlots (hashedRequest 1 tokens) found.1 (loadArgs found.2)).toOption.bind fun result =>
  result.1.map fun newBlocks => ⟨p.1, p.2, result.2, found.1, found.2, newBlocks⟩

lemma eq_ok_of_toOption {α : Type} {x : Except PyError α} {a : α} (h : x.toOption = some a) : x = .ok a := by
  cases x with
  | error e => cases h
  | ok a' => exact congrArg _ (Option.some.inj h)

lemma loadRun_eq_some {tokens : List TokenId} {s : LoadRun} (h : loadRun tokens = some s) :
    wideWindowManager = .ok s.start ∧
      Reaches (fun call kv => KVCacheCall.run kv call)
        (fun kv call => call.Shares serialize serializeSeed kv ∧ call.HitsCovered kv) s.start s.before ∧
      s.before.getComputedBlocks (hashedRequest 1 tokens) = .ok (s.hits, s.numFound) ∧
      s.before.allocateSlots (hashedRequest 1 tokens) s.hits (loadArgs s.numFound) =
        .ok (some s.newBlocks, s.after) := by
  unfold loadRun at h
  obtain ⟨⟨start, kv⟩, hrun, h⟩ := Option.bind_eq_some_iff.mp h
  obtain ⟨⟨hits, n⟩, hlook, h⟩ := Option.bind_eq_some_iff.mp h
  obtain ⟨⟨result, kv'⟩, hslots, h⟩ := Option.bind_eq_some_iff.mp h
  obtain ⟨newBlocks, hresult, rfl⟩ := Option.map_eq_some_iff.mp h
  cases hresult
  obtain ⟨hstart, hrun⟩ := runCheckedFrom_eq_some hrun
  refine ⟨hstart, Reaches.of_runChecked_mem (fun _ call hcall hcheck => ?_) .start hrun, eq_ok_of_toOption hlook,
    eq_ok_of_toOption hslots⟩
  obtain ⟨hkept, hcovered⟩ := of_decide_eq_true hcheck
  exact ⟨⟨commonCalls_hashed tokens call (mem_of_mem_dropLast hcall), hkept⟩, hcovered⟩

/-- With two tokens in common the external tokens take none of the hits. -/
theorem hitsOnce_iff_spared_wideWindowConfig :
    ∃ s, loadRun [0, 0, 9, 9] = some s ∧ s.numFound = 2 ∧
      HitsOnce s.before (hashedRequest 1 [0, 0, 9, 9]) s.hits (loadArgs s.numFound) s.after := by
  have heval : (loadRun [0, 0, 9, 9]).map (fun s =>
      decide (s.numFound = 2 ∧ (∀ m ∈ s.before.coordinator.singleTypeManagers, m.IsNew 1) ∧
        (KVCacheCall.allocateNew (hashedRequest 1 [0, 0, 9, 9]) (loadArgs s.numFound)).HitsCovered s.before ∧
        Spared (s.before.hitGroupsOf (hashedRequest 1 [0, 0, 9, 9]) s.hits (loadArgs s.numFound))
          s.before.freeQueue)) = some true := by
    decide +kernel
  obtain ⟨s, hload, hvals⟩ := Option.map_eq_some_iff.mp heval
  obtain ⟨hfound, hnew, hcovered, hspared⟩ := of_decide_eq_true hvals
  obtain ⟨hstart, hreach, hlook, hslots⟩ := loadRun_eq_some hload
  exact ⟨s, hload, hfound, (hitsOnce_iff_spared serialize_collisionFree wideWindowConfig_valid (by decide) hstart
    hreach ⟨_, rfl⟩ hcovered hnew Nat.one_pos hlook hslots).mpr hspared⟩

/-- Request 1 has one token in common with request 0: full attention takes block 8 for the external token, and then
the window touches it as its hit. -/
theorem hits_handed_out :
    ∃ start kv hits newBlocks kv', wideWindowManager = .ok start ∧
      Reaches (fun call kv => KVCacheCall.run kv call)
        (fun kv call => call.Shares serialize serializeSeed kv ∧ call.HitsCovered kv) start kv ∧
      (∀ m ∈ kv.coordinator.singleTypeManagers, m.IsNew 1) ∧
      kv.getComputedBlocks (hashedRequest 1 [0, 9, 9]) = .ok (hits, 1) ∧
      kv.allocateSlots (hashedRequest 1 [0, 9, 9]) hits (loadArgs 1) = .ok (some newBlocks, kv') ∧
      kv'.coordinator.getBlocks 1 = [[.block 5, .block 8, .block 1], [.block 8, .block 2, .block 4]] ∧
      ¬ HitsOnce kv (hashedRequest 1 [0, 9, 9]) hits (loadArgs 1) kv' := by
  have heval : (loadRun [0, 9, 9]).map (fun s =>
      decide (s.numFound = 1 ∧ (∀ m ∈ s.before.coordinator.singleTypeManagers, m.IsNew 1) ∧
        .block 8 ≠ s.before.blockPool.nullBlock ∧ s.after.coordinator.getBlocks 1 =
          [[.block 5, .block 8, .block 1], [.block 8, .block 2, .block 4]])) = some true := by
    decide +kernel
  obtain ⟨s, hload, hvals⟩ := Option.map_eq_some_iff.mp heval
  obtain ⟨hfound, hnew, hne, hblocks⟩ := of_decide_eq_true hvals
  obtain ⟨hstart, hreach, hlook, hslots⟩ := loadRun_eq_some hload
  rw [hfound] at hlook hslots
  refine ⟨s.start, s.before, s.hits, s.newBlocks, s.after, hstart, hreach, hnew, hlook, hslots, hblocks,
    fun honce => ?_⟩
  have hcount := honce.once (.block 8) hne
  rw [show (hashedRequest 1 [0, 9, 9]).requestId = 1 from rfl, hblocks] at hcount
  exact absurd hcount (by decide)

end VllmRuntime
