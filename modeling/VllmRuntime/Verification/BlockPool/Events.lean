import VllmRuntime.Verification.BlockPool.Agreement
import Mathlib.Algebra.Order.Group.Multiset

/-! # Events of the pool

Replaying the events gives the multiset of the hashes that the blocks have. -/

namespace VllmRuntime

open List

/-- The hashes that a consumer of the events holds after one more event. -/
def KVCacheEvent.apply (hashes : Multiset ExternalBlockHash) :
    KVCacheEvent → Multiset ExternalBlockHash
  | blockStored blockHashes _ _ _ _ _ => hashes + blockHashes
  | blockRemoved blockHashes => hashes - blockHashes
  | allBlocksCleared => 0

def replay (events : List KVCacheEvent) : Multiset ExternalBlockHash :=
  events.foldl KVCacheEvent.apply 0

lemma replay_append_singleton (events : List KVCacheEvent) (event : KVCacheEvent) :
    replay (events ++ [event]) = event.apply (replay events) := by
  simp [replay]

@[simp] lemma getBlockHash_makeBlockHashWithGroupId (hash : BlockHash) (groupId : ℕ) :
    getBlockHash (makeBlockHashWithGroupId hash groupId) = hash := by
  simp [getBlockHash, makeBlockHashWithGroupId, groupIdBytes]

namespace BlockPool

variable {p q pool : BlockPool} {b : BlockRef} {key : BlockHashWithGroupId} {r pool' : BlockPool}

/-- The hash of a block as the events show it. -/
def cachedHash (pool : BlockPool) (b : BlockRef) : Multiset ExternalBlockHash :=
  match pool.blockHash b with
  | none => 0
  | some key => {maybeConvertBlockHash pool.useIntBlockHashes (getBlockHash key)}

lemma cachedHash_of_none (h : pool.blockHash b = none) :
    pool.cachedHash b = 0 := by
  rw [cachedHash, h]

lemma cachedHash_of_some (h : pool.blockHash b = some key) :
    pool.cachedHash b = {maybeConvertBlockHash pool.useIntBlockHashes (getBlockHash key)} := by
  rw [cachedHash, h]

/-- The hashes of all blocks, with multiplicity. -/
def cachedHashes (pool : BlockPool) : Multiset ExternalBlockHash :=
  ∑ id ∈ Finset.range pool.numGpuBlocks, pool.cachedHash (.block id)

/-- The hashes and the events are the same. -/
structure SameEvents (pool pool' : BlockPool) : Prop where
  numGpuBlocks : pool'.numGpuBlocks = pool.numGpuBlocks
  nullBlock : pool'.nullBlock = pool.nullBlock
  enableKvCacheEvents : pool'.enableKvCacheEvents = pool.enableKvCacheEvents
  useIntBlockHashes : pool'.useIntBlockHashes = pool.useIntBlockHashes
  blockHash : pool'.blockHash = pool.blockHash
  kvEventQueue : pool'.kvEventQueue = pool.kvEventQueue

/-- The events so far, those in `taken` included, give the hashes of the blocks, and all of them
have the property `good`. Only blocks of the pool, the null block excepted, have a hash. -/
structure EventsAgree (good : KVCacheEvent → Prop) (useInt : Bool) (taken : List KVCacheEvent)
    (pool : BlockPool) : Prop where
  enabled : pool.enableKvCacheEvents = true
  useInt : pool.useIntBlockHashes = useInt
  hashed : ∀ b, pool.blockHash b ≠ none → pool.IsBlock b ∧ b ≠ pool.nullBlock
  replay : VllmRuntime.replay (taken ++ pool.kvEventQueue) = pool.cachedHashes
  good : ∀ event ∈ taken ++ pool.kvEventQueue, good event

lemma SameEvents.refl (pool : BlockPool) : SameEvents pool pool :=
  ⟨rfl, rfl, rfl, rfl, rfl, rfl⟩

lemma SameEvents.trans (h : SameEvents p q) (h' : SameEvents q r) :
    SameEvents p r :=
  ⟨h'.1.trans h.1, h'.2.trans h.2, h'.3.trans h.3, h'.4.trans h.4, h'.5.trans h.5, h'.6.trans h.6⟩

lemma SameEvents.withQueue (pool : BlockPool) (queue : FreeKVCacheBlockQueue) :
    SameEvents pool { pool with freeBlockQueue := queue } :=
  ⟨rfl, rfl, rfl, rfl, rfl, rfl⟩

lemma setRefCnt_sameEvents (pool : BlockPool) (b : BlockRef) (n : ℤ) :
    SameEvents pool (pool.setRefCnt b n) :=
  ⟨rfl, rfl, rfl, rfl, (setRefCnt_sameCache pool b n).blockHash, rfl⟩

lemma SameEvents.isBlock_iff (h : SameEvents p q) (b : BlockRef) :
    q.IsBlock b ↔ p.IsBlock b := by
  simp [IsBlock, h.numGpuBlocks]

lemma SameEvents.cachedHashes (h : SameEvents p q) :
    q.cachedHashes = p.cachedHashes := by
  simp only [BlockPool.cachedHashes, cachedHash, h.numGpuBlocks, h.blockHash, h.useIntBlockHashes]

/-! ## One block -/

/-- When the hash of one block changes, the multiset changes by that hash. -/
lemma cachedHashes_update (hb : p.IsBlock b) (hnum : q.numGpuBlocks = p.numGpuBlocks)
    (hint : q.useIntBlockHashes = p.useIntBlockHashes)
    (hother : ∀ c, c ≠ b → q.blockHash c = p.blockHash c) :
    q.cachedHashes + p.cachedHash b = p.cachedHashes + q.cachedHash b := by
  obtain ⟨id, hid, rfl⟩ := hb
  have hmem : id ∈ Finset.range p.numGpuBlocks := Finset.mem_range.mpr hid
  have hrest : ∑ i ∈ (Finset.range p.numGpuBlocks).erase id, q.cachedHash (.block i) =
      ∑ i ∈ (Finset.range p.numGpuBlocks).erase id, p.cachedHash (.block i) := by
    apply Finset.sum_congr rfl
    intro i hi
    have hne : BlockRef.block i ≠ .block id := by
      simpa using Finset.ne_of_mem_erase hi
    rw [cachedHash, cachedHash, hother _ hne, hint]
  rw [cachedHashes, cachedHashes, hnum, ← Finset.add_sum_erase _ _ hmem,
    ← Finset.add_sum_erase _ (fun i => p.cachedHash (.block i)) hmem, hrest]
  abel

namespace EventsAgree

variable {good : KVCacheEvent → Prop} {useInt : Bool} {taken : List KVCacheEvent}
  {pool pool' : BlockPool} {blocks : List BlockRef}

section

variable (h : EventsAgree good useInt taken pool)
include h

lemma congr (hsame : SameEvents pool pool') :
    EventsAgree good useInt taken pool' where
  enabled := hsame.enableKvCacheEvents.trans h.enabled
  useInt := hsame.useIntBlockHashes.trans h.useInt
  hashed b hb := by
    rw [hsame.blockHash] at hb
    rw [hsame.isBlock_iff, hsame.nullBlock]
    exact h.hashed b hb
  replay := by
    rw [hsame.kvEventQueue, hsame.cachedHashes]
    exact h.replay
  good := by
    rw [hsame.kvEventQueue]
    exact h.good

/-- The hash of a block is removed, and the event says so. -/
lemma remove (hkey : pool.blockHash b = some key)
    (hnum : pool'.numGpuBlocks = pool.numGpuBlocks) (hnull : pool'.nullBlock = pool.nullBlock)
    (henabled : pool'.enableKvCacheEvents = pool.enableKvCacheEvents)
    (hint : pool'.useIntBlockHashes = pool.useIntBlockHashes) (hnone : pool'.blockHash b = none)
    (hother : ∀ c, c ≠ b → pool'.blockHash c = pool.blockHash c)
    (hqueue : pool'.kvEventQueue = pool.kvEventQueue ++
      [.blockRemoved [maybeConvertBlockHash pool.useIntBlockHashes (getBlockHash key)]])
    (hremoved : ∀ hashes, good (.blockRemoved hashes)) : EventsAgree good useInt taken pool' := by
  have hblock := (h.hashed b (by simp [hkey])).1
  refine ⟨henabled.trans h.enabled, hint.trans h.useInt, ?_, ?_, ?_⟩
  · intro c hc
    have hne : c ≠ b := by
      rintro rfl
      exact hc hnone
    rw [hother c hne] at hc
    simpa [IsBlock, hnum, hnull] using h.hashed c hc
  · have hupdate := cachedHashes_update hblock hnum hint hother
    rw [cachedHash_of_some hkey, cachedHash_of_none hnone, add_zero] at hupdate
    rw [hqueue, ← append_assoc, replay_append_singleton, h.replay, ← hupdate]
    simp only [KVCacheEvent.apply, Multiset.coe_singleton]
    exact Multiset.add_sub_cancel_right
  · intro event hevent
    rw [hqueue, ← append_assoc, mem_append, mem_singleton] at hevent
    rcases hevent with hevent | rfl
    · exact h.good event hevent
    · exact hremoved _

lemma maybeEvictCachedBlock (hremoved : ∀ hashes, good (.blockRemoved hashes)) (b : BlockRef) :
    EventsAgree good useInt taken (pool.maybeEvictCachedBlock b).2 := by
  unfold BlockPool.maybeEvictCachedBlock
  split
  · exact h
  · rename_i key hkey
    split
    · exact h.congr ⟨rfl, rfl, rfl, rfl, rfl, rfl⟩
    · rename_i popped cache hpop
      have hreset := resetHash_blockHash { pool with cachedBlockHashToBlock := cache } b
      have henabled : ({ pool with cachedBlockHashToBlock := cache }.resetHash b).enableKvCacheEvents =
          true := h.enabled
      rw [if_pos henabled]
      refine h.remove hkey rfl rfl rfl rfl ?_ ?_ rfl hremoved
      · exact (hreset b).trans (if_pos rfl)
      · intro c hc
        exact (hreset c).trans (if_neg hc)

lemma getNewBlocksLoop (hremoved : ∀ hashes, good (.blockRemoved hashes))
    (hrun : BlockPool.getNewBlocksLoop blocks pool = .ok pool') :
    EventsAgree good useInt taken pool' := by
  induction blocks generalizing pool with
  | nil =>
    cases hrun
    exact h
  | cons b blocks ih =>
    rw [BlockPool.getNewBlocksLoop] at hrun
    obtain ⟨_, -, hrun⟩ := bind_eq_ok hrun
    refine ih (congr ?_ (setRefCnt_sameEvents _ _ _)) hrun
    split
    · exact h.maybeEvictCachedBlock hremoved b
    · exact h

lemma getNewBlocks {n : ℤ} {ret : List BlockRef} (hremoved : ∀ hashes, good (.blockRemoved hashes))
    (hrun : pool.getNewBlocks n = .ok (ret, pool')) : EventsAgree good useInt taken pool' := by
  unfold BlockPool.getNewBlocks at hrun
  split at hrun
  · cases hrun
  · obtain ⟨⟨popped, queue⟩, -, hrun⟩ := bind_eq_ok hrun
    obtain ⟨pool₁, hloop, hret⟩ := bind_eq_ok hrun
    cases hret
    exact (h.congr (SameEvents.withQueue pool queue)).getNewBlocksLoop hremoved hloop

lemma touch (hrun : pool.touch blocks = .ok pool') :
    EventsAgree good useInt taken pool' := by
  induction blocks generalizing pool with
  | nil =>
    cases hrun
    exact h
  | cons b blocks ih =>
    rw [BlockPool.touch] at hrun
    obtain ⟨queue, -, hrun⟩ := bind_eq_ok hrun
    have hqueue := h.congr (SameEvents.withQueue pool queue)
    exact ih (hqueue.congr (setRefCnt_sameEvents _ _ _)) hrun

lemma decrRefCnts (blocks : List BlockRef) :
    EventsAgree good useInt taken (pool.decrRefCnts blocks) := by
  induction blocks generalizing pool with
  | nil => exact h
  | cons b blocks ih => exact ih (h.congr (setRefCnt_sameEvents pool b _))

lemma freeBlocks (hrun : pool.freeBlocks blocks = .ok pool') :
    EventsAgree good useInt taken pool' := by
  obtain ⟨queue, -, rfl⟩ := map_eq_ok hrun
  exact (h.decrRefCnts blocks).congr (SameEvents.withQueue _ queue)

lemma evictBlocks {blockIds : List ℕ} (hremoved : ∀ hashes, good (.blockRemoved hashes))
    (hrun : pool.evictBlocks blockIds = .ok pool') : EventsAgree good useInt taken pool' := by
  induction blockIds generalizing pool with
  | nil =>
    cases hrun
    exact h
  | cons blockId blockIds ih =>
    rw [BlockPool.evictBlocks] at hrun
    obtain ⟨_, -, hrun⟩ := bind_eq_ok hrun
    exact ih (h.maybeEvictCachedBlock hremoved _) hrun

lemma resetPrefixCache (hcleared : good .allBlocksCleared) :
    EventsAgree good useInt taken pool.resetPrefixCache.2 := by
  unfold BlockPool.resetPrefixCache
  dsimp only
  split
  · exact h
  · rw [if_pos h.enabled]
    have hnone : ∀ b, (if pool.IsBlock b then { pool.blocks b with blockHash := none }
        else pool.blocks b).blockHash = none := by
      intro b
      split
      · rfl
      · rename_i hblock
        by_contra hsome
        exact hblock (h.hashed b hsome).1
    refine ⟨h.enabled, h.useInt, ?_, ?_, ?_⟩
    · intro b hb
      exact absurd (hnone b) hb
    · dsimp only
      rw [← append_assoc, replay_append_singleton]
      symm
      apply Finset.sum_eq_zero
      intro id _
      exact cachedHash_of_none (hnone (.block id))
    · intro event hevent
      rw [← append_assoc, mem_append, mem_singleton] at hevent
      rcases hevent with hevent | rfl
      · exact h.good event hevent
      · exact hcleared

/-- Events that are taken are still part of the stream. -/
lemma takeEvents :
    EventsAgree good useInt (taken ++ pool.takeEvents.1) pool.takeEvents.2 := by
  have htake : pool.takeEvents = (pool.kvEventQueue, { pool with kvEventQueue := [] }) := by
    rw [BlockPool.takeEvents, if_pos h.enabled]
  rw [htake]
  refine ⟨h.enabled, h.useInt, h.hashed, ?_, ?_⟩
  · rw [append_nil]
    exact h.replay
  · simpa using h.good

end

end EventsAgree

/-! ## Caching blocks -/

/-- Hashes are added to blocks, without an event so far. -/
structure HashesAdded (pool pool' : BlockPool) (added : List ExternalBlockHash) : Prop where
  numGpuBlocks : pool'.numGpuBlocks = pool.numGpuBlocks
  nullBlock : pool'.nullBlock = pool.nullBlock
  enableKvCacheEvents : pool'.enableKvCacheEvents = pool.enableKvCacheEvents
  useIntBlockHashes : pool'.useIntBlockHashes = pool.useIntBlockHashes
  kvEventQueue : pool'.kvEventQueue = pool.kvEventQueue
  hashed : (∀ b, pool.blockHash b ≠ none → pool.IsBlock b ∧ b ≠ pool.nullBlock) →
    ∀ b, pool'.blockHash b ≠ none → pool'.IsBlock b ∧ b ≠ pool'.nullBlock
  cachedHashes : pool'.cachedHashes = pool.cachedHashes + added

lemma HashesAdded.trans {xs ys : List ExternalBlockHash} (h : HashesAdded p q xs) (h' : HashesAdded q r ys) :
    HashesAdded p r (xs ++ ys) := by
  refine ⟨h'.1.trans h.1, h'.2.trans h.2, h'.3.trans h.3, h'.4.trans h.4, h'.5.trans h.5,
    fun hp => h'.hashed (h.hashed hp), ?_⟩
  rw [h'.cachedHashes, h.cachedHashes, add_assoc, Multiset.coe_add]

/-- One block gets a hash. -/
lemma HashesAdded.one (hblock : pool.IsBlock b) (hne : b ≠ pool.nullBlock)
    (hnum : pool'.numGpuBlocks = pool.numGpuBlocks) (hnull : pool'.nullBlock = pool.nullBlock)
    (henabled : pool'.enableKvCacheEvents = pool.enableKvCacheEvents)
    (hint : pool'.useIntBlockHashes = pool.useIntBlockHashes)
    (hqueue : pool'.kvEventQueue = pool.kvEventQueue) (hnone : pool.blockHash b = none)
    (hkey : pool'.blockHash b = some key) (hother : ∀ c, c ≠ b → pool'.blockHash c = pool.blockHash c) :
    HashesAdded pool pool' [maybeConvertBlockHash pool.useIntBlockHashes (getBlockHash key)] := by
  refine ⟨hnum, hnull, henabled, hint, hqueue, ?_, ?_⟩
  · intro hp c hc
    have hold : pool.IsBlock c ∧ c ≠ pool.nullBlock := by
      by_cases hcb : c = b
      · exact hcb ▸ ⟨hblock, hne⟩
      · exact hp c (hother c hcb ▸ hc)
    simpa [IsBlock, hnum, hnull] using hold
  · have hupdate := cachedHashes_update hblock hnum hint hother
    rw [cachedHash_of_none hnone, cachedHash_of_some hkey, hint, add_zero] at hupdate
    rw [hupdate, Multiset.coe_singleton]

lemma cacheFullBlocksLoop_added {kvCacheGroupId : ℕ} {blocks : List BlockRef} {hashes : List BlockHash}
    {newHashes : List ExternalBlockHash} (hblocks : ∀ b ∈ blocks, pool.IsBlock b)
    (h : cacheFullBlocksLoop kvCacheGroupId blocks hashes pool = .ok (newHashes, pool')) :
    HashesAdded pool pool' newHashes ∧ (pool.nullBlock ∉ blocks → blocks.length ≤ hashes.length ∧
      newHashes = (hashes.take blocks.length).map (maybeConvertBlockHash pool.useIntBlockHashes)) := by
  induction blocks generalizing hashes pool newHashes with
  | nil =>
    cases h
    exact ⟨⟨rfl, rfl, rfl, rfl, rfl, id, by simp⟩, by simp⟩
  | cons blk blks ih =>
    have hrest : ∀ b ∈ blks, pool.IsBlock b := fun b hb => hblocks b (mem_cons_of_mem _ hb)
    unfold cacheFullBlocksLoop at h
    split at h
    · rename_i hnull
      refine ⟨(ih hrest h).1, fun hnot => ?_⟩
      exact absurd (hnull ▸ mem_cons_self) hnot
    · rename_i hnull
      split at h
      · cases h
      · rename_i hsome
        split at h
        · cases h
        · rename_i hash hashes
          obtain ⟨pool₁, hset, h⟩ := bind_eq_ok h
          obtain ⟨⟨more, pool₂⟩, hloop, hret⟩ := bind_eq_ok h
          obtain ⟨rfl, rfl⟩ := ok_pair_inj hret
          rw [setBlockHash, if_neg hsome] at hset
          obtain rfl := Except.ok.inj hset
          have hone : HashesAdded pool { pool with
              blocks := Function.update pool.blocks blk { pool.blocks blk with
                blockHash := (makeBlockHashWithGroupId hash kvCacheGroupId) }
              cachedBlockHashToBlock := pool.cachedBlockHashToBlock.insert
                (makeBlockHashWithGroupId hash kvCacheGroupId) blk }
              [maybeConvertBlockHash pool.useIntBlockHashes
                (getBlockHash (makeBlockHashWithGroupId hash kvCacheGroupId))] := by
            refine HashesAdded.one (hblocks blk mem_cons_self) hnull ?_ ?_ ?_ ?_ ?_
              (by simpa using hsome) (by simp [blockHash]) ?_
            iterate 5 rfl
            intro c hc
            simp [blockHash, hc]
          rw [getBlockHash_makeBlockHashWithGroupId] at hone
          obtain ⟨hmore, hall⟩ := ih (by
            intro b hb
            simpa [IsBlock, hone.numGpuBlocks] using hrest b hb) hloop
          have hint : pool₂.useIntBlockHashes = pool.useIntBlockHashes :=
            hmore.useIntBlockHashes.trans hone.useIntBlockHashes
          refine ⟨?_, fun hnot => ?_⟩
          · rw [hint]
            exact hone.trans hmore
          · rw [mem_cons, not_or] at hnot
            obtain ⟨hlen, rfl⟩ := hall (by
              rw [hone.nullBlock]
              exact hnot.2)
            rw [hint, hone.useIntBlockHashes]
            exact ⟨Nat.succ_le_succ hlen, rfl⟩

/-- Whatever `cache_full_blocks` stores, its event is good. The hashes of all blocks are in the
event if none of them is null. -/
def StoresGood (good : KVCacheEvent → Prop) (pool : BlockPool) (request : Request)
    (blocks : List BlockRef) (numCachedBlocks numFullBlocks blockSize : ℕ) : Prop :=
  ∀ blockHashes parent, pool.requestBlockHashes request blockSize = .ok blockHashes →
    pool.parentBlockHash blockHashes numCachedBlocks = .ok parent →
    numCachedBlocks < numFullBlocks →
    let newFullBlocks := (blocks.take numFullBlocks).drop numCachedBlocks
    let newBlockHashes := blockHashes.drop numCachedBlocks
    ∀ newHashes, (pool.nullBlock ∉ newFullBlocks → newFullBlocks.length ≤ newBlockHashes.length ∧
        newHashes = (newBlockHashes.take newFullBlocks.length).map
          (maybeConvertBlockHash pool.useIntBlockHashes)) →
      good (.blockStored newHashes parent ((request.allTokenIds.take (numFullBlocks * blockSize)).drop
        (numCachedBlocks * blockSize)) blockSize (request.loraRequest.map LoRARequest.loraIntId)
        (request.loraRequest.map LoRARequest.loraName))

namespace EventsAgree

variable {good : KVCacheEvent → Prop} {useInt : Bool} {taken : List KVCacheEvent}
  {pool pool' : BlockPool}

lemma cacheFullBlocks {request : Request} {blocks : List BlockRef}
    {numCachedBlocks numFullBlocks blockSize kvCacheGroupId : ℕ}
    (h : EventsAgree good useInt taken pool) (hblocks : ∀ b ∈ blocks, pool.IsBlock b)
    (hgood : pool.StoresGood good request blocks numCachedBlocks numFullBlocks blockSize)
    (hrun : pool.cacheFullBlocks request blocks numCachedBlocks numFullBlocks blockSize
      kvCacheGroupId = .ok pool') : EventsAgree good useInt taken pool' := by
  unfold BlockPool.cacheFullBlocks at hrun
  split at hrun
  · cases hrun
    exact h
  · rename_i hlt
    obtain ⟨_, -, hrun⟩ := bind_eq_ok hrun
    obtain ⟨blockHashes, hhashes, hrun⟩ := bind_eq_ok hrun
    obtain ⟨⟨newHashes, pool₁⟩, hloop, hrun⟩ := bind_eq_ok hrun
    obtain ⟨hadded, hnew⟩ := cacheFullBlocksLoop_added (by
      intro b hb
      exact hblocks b (mem_of_mem_take (mem_of_mem_drop hb))) hloop
    unfold storeEvent at hrun
    dsimp only at hrun
    rw [if_pos (hadded.enableKvCacheEvents.trans h.enabled)] at hrun
    obtain ⟨parent, hparent, rfl⟩ := map_eq_ok hrun
    have hparent' : pool.parentBlockHash blockHashes numCachedBlocks = .ok parent := by
      rw [← hparent, parentBlockHash, parentBlockHash, hadded.useIntBlockHashes]
    refine ⟨hadded.enableKvCacheEvents.trans h.enabled, hadded.useIntBlockHashes.trans h.useInt,
      hadded.hashed h.hashed, ?_, ?_⟩
    · dsimp only
      rw [hadded.kvEventQueue, ← append_assoc, replay_append_singleton, h.replay]
      exact hadded.cachedHashes.symm
    · intro event hevent
      dsimp only at hevent
      rw [hadded.kvEventQueue, ← append_assoc, mem_append, mem_singleton] at hevent
      rcases hevent with hevent | rfl
      · exact h.good event hevent
      · exact hgood blockHashes parent hhashes hparent' (by omega) newHashes hnew

end EventsAgree

end BlockPool

end VllmRuntime
