import VllmRuntime.Verification.KVCache.Runs

/-! # Calls that fail on no hash

The assertions that a block has no hash yet are in the caching of blocks only. All other
operations raise different exceptions, whatever the state. -/

namespace VllmRuntime

variable {α : Type}

open BlockPool

lemma noHashAssertion_error {e : PyError} (h : ∀ message, e ≠ .blockHashAssertion message) :
    NoHashAssertion (.error e : Except PyError α) :=
  fun message heq => h message (Except.error.inj heq)

lemma noHashAssertion_ite {p : Prop} [Decidable p] {x y : Except PyError α} (hx : NoHashAssertion x)
    (hy : NoHashAssertion y) : NoHashAssertion (if p then x else y) := by
  split
  · exact hx
  · exact hy

/-! ## The pool -/

namespace FreeKVCacheBlockQueue

lemma popleftNLoop_noHashAssertion (n : ℕ) (curr : Option BlockRef) (links : Links BlockRef) :
    NoHashAssertion (popleftNLoop n curr links) := by
  induction n generalizing curr links with
  | zero => exact noHashAssertion_ok _
  | succ n ih =>
    cases curr with
    | none => exact noHashAssertion_error (by simp)
    | some block => exact (ih _ _).bind fun _ _ => noHashAssertion_ok _

lemma popleftN_noHashAssertion (q : FreeKVCacheBlockQueue) (n : ℤ) :
    NoHashAssertion (q.popleftN n) := by
  unfold popleftN
  apply noHashAssertion_ite (noHashAssertion_ok _)
  apply (noHashAssertion_pyAssert _ _).bind
  intro _ _
  exact (popleftNLoop_noHashAssertion _ _ _).bind fun _ _ => noHashAssertion_ok _

lemma remove_noHashAssertion (q : FreeKVCacheBlockQueue) (b : BlockRef) :
    NoHashAssertion (q.remove b) := by
  unfold remove
  split
  · exact noHashAssertion_ok _
  · exact noHashAssertion_error (by simp)

lemma appendN_noHashAssertion (q : FreeKVCacheBlockQueue) (blocks : List BlockRef) :
    NoHashAssertion (q.appendN blocks) := by
  unfold appendN
  apply noHashAssertion_ite (noHashAssertion_ok _)
  split
  · exact noHashAssertion_error (by simp)
  · exact noHashAssertion_ok _

end FreeKVCacheBlockQueue

namespace BlockPool

lemma getNewBlocksLoop_noHashAssertion (blocks : List BlockRef) (pool : BlockPool) :
    NoHashAssertion (getNewBlocksLoop blocks pool) := by
  induction blocks generalizing pool with
  | nil => exact noHashAssertion_ok _
  | cons b blocks ih => exact (noHashAssertion_pyAssert _ _).bind fun _ _ => ih _

lemma getNewBlocks_noHashAssertion (pool : BlockPool) (n : ℤ) :
    NoHashAssertion (pool.getNewBlocks n) := by
  unfold getNewBlocks
  apply noHashAssertion_ite (noHashAssertion_error (by simp))
  apply (FreeKVCacheBlockQueue.popleftN_noHashAssertion _ _).bind
  intro _ _
  exact (getNewBlocksLoop_noHashAssertion _ _).bind fun _ _ => noHashAssertion_ok _

lemma touch_noHashAssertion (pool : BlockPool) (blocks : List BlockRef) :
    NoHashAssertion (pool.touch blocks) := by
  induction blocks generalizing pool with
  | nil => exact noHashAssertion_ok _
  | cons b blocks ih =>
    apply NoHashAssertion.bind
    · exact noHashAssertion_ite (FreeKVCacheBlockQueue.remove_noHashAssertion _ _)
        (noHashAssertion_ok _)
    · intro _ _
      exact ih _

lemma freeBlocks_noHashAssertion (pool : BlockPool) (blocks : List BlockRef) :
    NoHashAssertion (pool.freeBlocks blocks) :=
  (FreeKVCacheBlockQueue.appendN_noHashAssertion _ _).bind fun _ _ => noHashAssertion_ok _

lemma evictBlocks_noHashAssertion (pool : BlockPool) (blockIds : List ℕ) :
    NoHashAssertion (pool.evictBlocks blockIds) := by
  induction blockIds generalizing pool with
  | nil => exact noHashAssertion_ok _
  | cons blockId blockIds ih => exact (noHashAssertion_pyAssert _ _).bind fun _ _ => ih _

end BlockPool

/-! ## The managers -/

namespace SingleTypeKVCacheManager

variable (m : SingleTypeKVCacheManager) (pool : BlockPool) (r : RequestId)

lemma baseGetNumBlocksToAllocate_noHashAssertion (numTokens : ℕ) (hits : List BlockRef)
    (total : ℕ) : NoHashAssertion (m.baseGetNumBlocksToAllocate pool r numTokens hits total) := by
  unfold baseGetNumBlocksToAllocate
  apply noHashAssertion_ite
  · exact (noHashAssertion_pyAssert _ _).bind fun _ _ => noHashAssertion_ok _
  · exact noHashAssertion_ok _

lemma getNumBlocksToAllocate_noHashAssertion (numTokens : ℕ) (hits : List BlockRef)
    (total main : ℕ) :
    NoHashAssertion (m.getNumBlocksToAllocate pool r numTokens hits total main) := by
  have hbase : ∀ numTokens', NoHashAssertion (do
      let num ← m.baseGetNumBlocksToAllocate pool r numTokens' hits total
      return (num, m) : Except PyError (ℤ × SingleTypeKVCacheManager)) := fun numTokens' =>
    (baseGetNumBlocksToAllocate_noHashAssertion m pool r numTokens' hits total).bind
      fun _ _ => noHashAssertion_ok _
  unfold getNumBlocksToAllocate
  split
  · exact noHashAssertion_ite (noHashAssertion_ok _) (hbase _)
  · exact hbase _

lemma estimate_noHashAssertion (numTokens : ℕ) (hits : List BlockRef)
    (numEncoderTokens total main : ℕ) :
    NoHashAssertion (m.estimate pool r numTokens hits numEncoderTokens total main) :=
  noHashAssertion_ite (getNumBlocksToAllocate_noHashAssertion m pool r _ _ _ _)
    (getNumBlocksToAllocate_noHashAssertion m pool r _ _ _ _)

lemma touchComputedBlocks_noHashAssertion (hits : List BlockRef) :
    NoHashAssertion (m.touchComputedBlocks pool hits) := by
  apply noHashAssertion_ite (touch_noHashAssertion _ _)
  exact (noHashAssertion_pyAssert _ _).bind fun _ _ => noHashAssertion_ok _

lemma allocateExternalBlocks_noHashAssertion (total : ℕ) (numExternal : ℤ) :
    NoHashAssertion (m.allocateExternalBlocks pool r total numExternal) := by
  apply noHashAssertion_ite _ (noHashAssertion_ok _)
  exact (getNewBlocks_noHashAssertion _ _).bind fun _ _ => noHashAssertion_ok _

lemma allocateNewComputedBlocks_noHashAssertion (hits : List BlockRef)
    (numLocal numExternal : ℕ) :
    NoHashAssertion (m.allocateNewComputedBlocks pool r hits numLocal numExternal) := by
  apply noHashAssertion_ite
  · exact (noHashAssertion_pyAssert _ _).bind fun _ _ => noHashAssertion_ok _
  · apply noHashAssertion_ite
    · exact (noHashAssertion_pyAssert _ _).bind fun _ _ => noHashAssertion_ok _
    · apply (noHashAssertion_pyAssert _ _).bind
      intro _ _
      apply (touchComputedBlocks_noHashAssertion m pool _).bind
      intro _ _
      exact allocateExternalBlocks_noHashAssertion _ _ _ _ _

lemma baseAllocateNewBlocks_noHashAssertion (numTokens : ℕ) :
    NoHashAssertion (m.baseAllocateNewBlocks pool r numTokens) := by
  apply noHashAssertion_ite (noHashAssertion_ok _)
  exact (getNewBlocks_noHashAssertion _ _).bind fun _ _ => noHashAssertion_ok _

lemma reuseSpeculativeBlocks_noHashAssertion (nullBlock : BlockRef) (numSkipped : ℤ)
    (count : ℕ) (blockIdx : ℤ) (table : List BlockRef) :
    NoHashAssertion (reuseSpeculativeBlocks nullBlock numSkipped count blockIdx table) := by
  induction count generalizing blockIdx table with
  | zero => exact noHashAssertion_ok _
  | succ count ih =>
    rw [reuseSpeculativeBlocks]
    apply noHashAssertion_ite _ (noHashAssertion_ok _)
    split
    · exact noHashAssertion_error (by simp)
    · dsimp only
      split
      · exact noHashAssertion_error (by simp)
      · exact ih _ _

lemma alignAllocateNewBlocks_noHashAssertion (main : ℕ) :
    NoHashAssertion (m.alignAllocateNewBlocks pool r main) := by
  apply noHashAssertion_ite (noHashAssertion_ok _)
  apply (noHashAssertion_pyAssert _ _).bind
  intro _ _
  apply NoHashAssertion.bind
  · exact noHashAssertion_ite (reuseSpeculativeBlocks_noHashAssertion _ _ _ _ _)
      (noHashAssertion_ok _)
  · intro table _
    apply NoHashAssertion.bind
    · exact noHashAssertion_ite (noHashAssertion_pyAssert _ _) (noHashAssertion_pyAssert _ _)
    · intro _ _
      exact (getNewBlocks_noHashAssertion _ _).bind fun _ _ => noHashAssertion_ok _

lemma allocateNewBlocks_noHashAssertion (numTokens main : ℕ) :
    NoHashAssertion (m.allocateNewBlocks pool r numTokens main) := by
  unfold allocateNewBlocks
  split
  · exact noHashAssertion_ite (alignAllocateNewBlocks_noHashAssertion m pool r main)
      (baseAllocateNewBlocks_noHashAssertion m pool r _)
  · exact baseAllocateNewBlocks_noHashAssertion m pool r _

lemma free_noHashAssertion : NoHashAssertion (m.free pool r) :=
  (freeBlocks_noHashAssertion _ _).bind fun _ _ => noHashAssertion_ok _

lemma baseRemoveSkippedBlocks_noHashAssertion (total : ℕ) :
    NoHashAssertion (m.baseRemoveSkippedBlocks pool r total) := by
  apply noHashAssertion_ite (noHashAssertion_ok _)
  exact (freeBlocks_noHashAssertion _ _).bind fun _ _ => noHashAssertion_ok _

lemma alignRemoveSkippedBlocks_noHashAssertion (numComputedTokens : ℕ) :
    NoHashAssertion (m.alignRemoveSkippedBlocks pool r numComputedTokens) := by
  unfold alignRemoveSkippedBlocks
  split
  · exact noHashAssertion_ok _
  · apply noHashAssertion_ite _ (noHashAssertion_ok _)
    dsimp only
    split
    · exact noHashAssertion_error (by simp)
    · apply noHashAssertion_ite _ (noHashAssertion_ok _)
      exact (freeBlocks_noHashAssertion _ _).bind fun _ _ => noHashAssertion_ok _

lemma removeSkippedBlocks_noHashAssertion (total : ℕ) :
    NoHashAssertion (m.removeSkippedBlocks pool r total) := by
  apply (baseRemoveSkippedBlocks_noHashAssertion m pool r total).bind
  intro _ _
  exact noHashAssertion_ite (alignRemoveSkippedBlocks_noHashAssertion _ _ _ _)
    (noHashAssertion_ok _)

end SingleTypeKVCacheManager

/-! ## Lookups -/

namespace CacheHit

variable (pool : BlockPool) (blockHashes : List BlockHash) (ids : List ℕ)

lemma chunkedLocalLoop_noHashAssertion (count i : ℕ) :
    NoHashAssertion (chunkedLocalLoop pool blockHashes ids count i) := by
  induction count generalizing i with
  | zero => exact noHashAssertion_ok _
  | succ count ih =>
    rw [chunkedLocalLoop]
    split
    · exact noHashAssertion_error (by simp)
    · split
      · exact noHashAssertion_ok _
      · exact (ih _).bind fun _ _ => noHashAssertion_ok _

lemma rows_noHashAssertion (maxLength : ℕ) (spec : KVCacheSpec) (useEagle : Bool)
    (alignmentTokens dcpWorldSize pcpWorldSize : ℕ) :
    NoHashAssertion (rows pool blockHashes ids maxLength spec useEagle alignmentTokens dcpWorldSize
      pcpWorldSize) := by
  cases spec with
  | slidingWindow attention window =>
    apply (noHashAssertion_pyAssert _ _).bind
    intro _ _
    apply (noHashAssertion_pyAssert _ _).bind
    intro _ _
    apply noHashAssertion_ite (noHashAssertion_error (by simp))
    apply noHashAssertion_ite _ (noHashAssertion_ok _)
    exact (noHashAssertion_pyAssert _ _).bind fun _ _ => noHashAssertion_ok _
  | chunkedLocalAttention attention chunkSize =>
    apply (noHashAssertion_pyAssert _ _).bind
    intro _ _
    apply (noHashAssertion_pyAssert _ _).bind
    intro _ _
    apply (noHashAssertion_pyAssert _ _).bind
    intro _ _
    apply (noHashAssertion_pyAssert _ _).bind
    intro _ _
    exact (chunkedLocalLoop_noHashAssertion _ _ _ _ _).bind fun _ _ => noHashAssertion_ok _
  | mamba mambaSpec =>
    apply (noHashAssertion_pyAssert _ _).bind
    intro _ _
    apply (noHashAssertion_pyAssert _ _).bind
    intro _ _
    exact noHashAssertion_ite (noHashAssertion_error (by simp)) (noHashAssertion_ok _)
  | crossAttention attention => exact noHashAssertion_error (by simp)
  | fullAttention attention => exact noHashAssertion_ok _
  | mlaAttention attention dtype => exact noHashAssertion_ok _
  | sinkFullAttention attention sinkLen => exact noHashAssertion_ok _

end CacheHit

lemma findLongestCacheHit_noHashAssertion (pool : BlockPool) (blockHashes : List BlockHash)
    (maxLength : ℕ) (ids : List ℕ) (spec : KVCacheSpec) (useEagle : Bool)
    (alignmentTokens dcpWorldSize pcpWorldSize : ℕ) :
    NoHashAssertion (findLongestCacheHit pool blockHashes maxLength ids spec useEagle
      alignmentTokens dcpWorldSize pcpWorldSize) :=
  (CacheHit.rows_noHashAssertion _ _ _ _ _ _ _ _ _).bind fun _ _ => noHashAssertion_ok _

/-! ## The coordinator -/

namespace KVCacheCoordinator

variable (c : KVCacheCoordinator)

lemma hybridPass_noHashAssertion (blockHashes : List BlockHash) (lcmBlockSize : ℕ)
    (groups : List AttentionGroup) (length : ℕ) (hits : HitBlocks) :
    NoHashAssertion (c.hybridPass blockHashes lcmBlockSize groups length hits) := by
  induction groups generalizing length hits with
  | nil => exact noHashAssertion_ok _
  | cons g groups ih =>
    rw [hybridPass]
    apply noHashAssertion_ite (ih _ _)
    exact (findLongestCacheHit_noHashAssertion _ _ _ _ _ _ _ _ _).bind fun _ _ => ih _ _

lemma hybridLoop_noHashAssertion (blockHashes : List BlockHash) (groups : List AttentionGroup)
    (lcmBlockSize : ℕ) (simple : Bool) (fuel length : ℕ) (hits : HitBlocks) :
    NoHashAssertion (c.hybridLoop blockHashes groups lcmBlockSize simple fuel length hits) := by
  induction fuel generalizing length hits with
  | zero => exact noHashAssertion_ok _
  | succ fuel ih =>
    rw [hybridLoop]
    apply (hybridPass_noHashAssertion c _ _ _ _ _).bind
    intro _ _
    apply noHashAssertion_ite (noHashAssertion_ok _)
    exact noHashAssertion_ite (noHashAssertion_ok _) (ih _ _)

lemma findLongestCacheHit_noHashAssertion (blockHashes : List BlockHash) (maxLength : ℕ) :
    NoHashAssertion (c.findLongestCacheHit blockHashes maxLength) := by
  unfold KVCacheCoordinator.findLongestCacheHit
  split
  · exact noHashAssertion_ok _
  · exact (VllmRuntime.findLongestCacheHit_noHashAssertion _ _ _ _ _ _ _ _ _).bind
      fun _ _ => noHashAssertion_ok _
  · exact (hybridLoop_noHashAssertion c _ _ _ _ _ _ _).bind fun _ _ => noHashAssertion_ok _

lemma overManagers_noHashAssertion {α : Type} {f : ℕ → SingleTypeKVCacheManager → BlockPool →
      Except PyError (α × SingleTypeKVCacheManager × BlockPool)}
    (hf : ∀ i m pool, NoHashAssertion (f i m pool)) : NoHashAssertion (c.overManagers f) := by
  have hloop : ∀ i ms pool, NoHashAssertion (forManagers f i ms pool) := by
    intro i ms pool
    induction ms generalizing i pool with
    | nil => exact noHashAssertion_ok _
    | cons m ms ih =>
      rw [forManagers]
      apply (hf i m pool).bind
      intro _ _
      exact (ih _ _).bind fun _ _ => noHashAssertion_ok _
  exact (hloop _ _ _).bind fun _ _ => noHashAssertion_ok _

lemma getNumBlocksToAllocate_noHashAssertion (r : RequestId) (numTokens : ℕ)
    (hits : List (List BlockRef)) (numEncoderTokens total main : ℕ) :
    NoHashAssertion (c.getNumBlocksToAllocate r numTokens hits numEncoderTokens total main) := by
  refine (overManagers_noHashAssertion c fun i m pool => ?_).bind fun _ _ => noHashAssertion_ok _
  exact (m.estimate_noHashAssertion pool r _ _ _ _ _).bind fun _ _ => noHashAssertion_ok _

lemma allocateNewComputedBlocks_noHashAssertion (r : RequestId) (hits : List (List BlockRef))
    (numLocal numExternal : ℕ) :
    NoHashAssertion (c.allocateNewComputedBlocks r hits numLocal numExternal) := by
  refine (overManagers_noHashAssertion c fun i m pool => ?_).bind fun _ _ => noHashAssertion_ok _
  exact (m.allocateNewComputedBlocks_noHashAssertion pool r _ _ _).bind
    fun _ _ => noHashAssertion_ok _

lemma allocateNewBlocks_noHashAssertion (r : RequestId)
    (numTokens main numEncoderTokens : ℕ) :
    NoHashAssertion (c.allocateNewBlocks r numTokens main numEncoderTokens) :=
  overManagers_noHashAssertion c fun _ m pool => m.allocateNewBlocks_noHashAssertion pool r _ _

lemma free_noHashAssertion (r : RequestId) : NoHashAssertion (c.free r) := by
  refine (overManagers_noHashAssertion c fun i m pool => ?_).bind fun _ _ => noHashAssertion_ok _
  exact (m.free_noHashAssertion pool r).bind fun _ _ => noHashAssertion_ok _

lemma removeSkippedBlocks_noHashAssertion (r : RequestId) (total : ℕ) :
    NoHashAssertion (c.removeSkippedBlocks r total) := by
  refine (overManagers_noHashAssertion c fun i m pool => ?_).bind fun _ _ => noHashAssertion_ok _
  exact (m.removeSkippedBlocks_noHashAssertion pool r total).bind fun _ _ => noHashAssertion_ok _

variable {c} {tracked : Prop} {reserved : List BlockRef}

/-- Caching is the one operation for which the blocks that wait to be cached must be fresh. -/
lemma cacheBlocks_noHashAssertion {request : Request} {numTokens : ℕ} (ht : tracked)
    (hcache : CacheInv tracked reserved c.singleTypeManagers c.blockPool) :
    NoHashAssertion (c.cacheBlocks request numTokens) := by
  have hloop : ∀ i front ms pool, CacheInv tracked reserved (front ++ ms) pool →
      NoHashAssertion (forManagers (fun _ m pool => do
        let cached ← m.cacheBlocks pool request numTokens
        return ((), cached.1, cached.2)) i ms pool) := by
    intro i front ms pool hinv
    induction ms generalizing i front pool with
    | nil => exact noHashAssertion_ok _
    | cons m ms ih =>
      have htable := hinv.focus request.requestId
      rw [forManagers]
      apply NoHashAssertion.bind
      · exact (SingleTypeKVCacheManager.cacheBlocks_noHashAssertion ht htable).bind
          fun _ _ => noHashAssertion_ok _
      · rintro ⟨a, m', pool'⟩ hround
        obtain ⟨hstep, -, -⟩ := SingleTypeKVCacheManager.cacheBlocks_step htable
          (round_eq_ok hround)
        have hinv' := hinv.step hstep
        rw [List.append_cons] at hinv'
        exact (ih _ _ _ hinv').bind fun _ _ => noHashAssertion_ok _
  refine NoHashAssertion.bind ?_ fun _ _ => noHashAssertion_ok _
  exact (hloop 0 [] _ _ hcache).bind fun _ _ => noHashAssertion_ok _

end KVCacheCoordinator

/-! ## Calls -/

namespace KVCacheCall

open KVCacheManager KVCacheCoordinator BlockHash

variable {kv : KVCacheManager} {tracked : Prop} {reserved : List BlockRef}

lemma getComputedBlocks_noHashAssertion (kv : KVCacheManager) (request : Request) :
    NoHashAssertion (kv.getComputedBlocks request) :=
  noHashAssertion_ite (noHashAssertion_ok _)
    (KVCacheCoordinator.findLongestCacheHit_noHashAssertion _ _ _)

lemma allocateSlots_noHashAssertion {request : Request} {hits : List (List BlockRef)}
    {args : AllocateArgs} (ht : tracked) (hinv : kv.coordinator.Invariant tracked reserved 0)
    (hlen : 0 < kv.coordinator.maxModelLen)
    (hfit : HitsFit tracked reserved kv.coordinator hits (args.numLocalComputedTokens request)
      args.numExternalComputedTokens)
    (htotal : TotalFits kv.coordinator.maxModelLen request hits args) :
    NoHashAssertion (kv.allocateSlots request hits args) := by
  unfold allocateSlots
  split
  · exact noHashAssertion_error (by simp)
  · rename_i hpos
    apply NoHashAssertion.bind
    · exact (removeSkippedBlocks_noHashAssertion _ _ _).bind
        fun _ _ => getNumBlocksToAllocate_noHashAssertion _ _ _ _ _ _ _
    · intro ⟨num, c⟩ hprep
      obtain ⟨hinv₁, hsame₁⟩ := prepareAllocation_inv hinv hprep
      apply noHashAssertion_ite (noHashAssertion_ok _)
      apply NoHashAssertion.bind
      · refine NoHashAssertion.bind ?_ fun _ _ => allocateNewBlocks_noHashAssertion _ _ _ _ _
        exact noHashAssertion_ite (allocateNewComputedBlocks_noHashAssertion _ _ _ _ _)
          (noHashAssertion_ok _)
      · intro ⟨newBlocks, c₂⟩ htake
        obtain ⟨hinv₂, -, -⟩ := takeBlocks_inv hinv₁ (hsame₁.maxModelLen ▸ hlen) hpos
          (hfit.of_same hsame₁) (fun _ => hsame₁.maxModelLen ▸ htotal) htake
        refine NoHashAssertion.bind ?_ fun _ _ => noHashAssertion_ok _
        exact noHashAssertion_ite (noHashAssertion_ok _)
          (KVCacheCoordinator.cacheBlocks_noHashAssertion ht hinv₂.cache)

lemma run_noHashAssertion {hashFunction : HashInput → BlockHash} {noneHash : BlockHash}
    {call : KVCacheCall} (ht : tracked) (hinv : kv.coordinator.Invariant tracked reserved 0)
    (hlen : 0 < kv.coordinator.maxModelLen) (hfree : CollisionFree hashFunction noneHash)
    (hhashed : call.Hashed hashFunction noneHash) (hcovered : call.HitsCovered kv)
    (hpromised : call.Promised kv) : NoHashAssertion (call.run kv) := by
  cases call with
  | allocateNew request args =>
    apply (getComputedBlocks_noHashAssertion kv request).bind
    intro ⟨hits, n⟩ hlook
    refine NoHashAssertion.bind ?_ fun _ _ => noHashAssertion_ok _
    exact allocateSlots_noHashAssertion ht hinv hlen
      (hitsFit_of_lookup hinv hfree hhashed hcovered hlook) (fun _ => hpromised hits n hlook)
  | allocateRunning request args =>
    refine NoHashAssertion.bind ?_ fun _ _ => noHashAssertion_ok _
    apply allocateSlots_noHashAssertion ht hinv hlen (hitsFit_empty kv _)
    intro hsome
    rw [hasComputedBlocks_empty] at hsome
    simp at hsome
  | cacheBlocks request numComputedTokens =>
    apply noHashAssertion_ite _ (noHashAssertion_ok _)
    exact (KVCacheCoordinator.cacheBlocks_noHashAssertion ht hinv.cache).bind
      fun _ _ => noHashAssertion_ok _
  | removeSkippedBlocks requestId totalComputedTokens =>
    exact (removeSkippedBlocks_noHashAssertion _ _ _).bind fun _ _ => noHashAssertion_ok _
  | free request => exact (free_noHashAssertion _ _).bind fun _ _ => noHashAssertion_ok _
  | evictBlocks blockIds =>
    exact (evictBlocks_noHashAssertion _ _).bind fun _ _ => noHashAssertion_ok _
  | resetPrefixCache => exact noHashAssertion_ok _

end KVCacheCall

end VllmRuntime
