import VllmRuntime.Model.BlockPool
import VllmRuntime.Model.KVCacheSpec

/-! # Managers of one attention type

`vllm/v1/core/single_type_kv_cache_manager.py`. The class of a manager is determined by its
spec; the pool, which all managers share, is passed in and out. -/

namespace VllmRuntime

structure SingleTypeKVCacheManager where
  kvCacheSpec : KVCacheSpec
  enableCaching : Bool
  kvCacheGroupId : ℕ
  dcpWorldSize : ℕ
  pcpWorldSize : ℕ
  reqToBlocks : Dict RequestId (List BlockRef) := ∅
  numCachedBlock : Dict RequestId ℕ := ∅
  lastStateBlockIdx : Dict RequestId ℤ := ∅
  allocatedBlockReqs : Finset RequestId := ∅
  sinkBlocks : List BlockRef := []

namespace SingleTypeKVCacheManager

/-- `block_size` of the manager, scaled by context parallelism. -/
def blockSize (m : SingleTypeKVCacheManager) : ℕ :=
  if m.dcpWorldSize * m.pcpWorldSize > 1 then
    m.kvCacheSpec.blockSize * (m.dcpWorldSize * m.pcpWorldSize)
  else
    m.kvCacheSpec.blockSize

/-- The blocks of a request; `req_to_blocks` defaults to the empty list. -/
def blocksOf (m : SingleTypeKVCacheManager) (requestId : RequestId) : List BlockRef :=
  (m.reqToBlocks.lookup requestId).getD []

/-- `num_cached_block.get(request_id, 0)`. -/
def numCached (m : SingleTypeKVCacheManager) (requestId : RequestId) : ℕ :=
  (m.numCachedBlock.lookup requestId).getD 0

/-- Stores the block list of a request, also when it was created by looking it up. -/
def setBlocks (m : SingleTypeKVCacheManager) (requestId : RequestId) (blocks : List BlockRef) :
    SingleTypeKVCacheManager :=
  { m with reqToBlocks := m.reqToBlocks.insert requestId blocks }

def getNumSkippedTokens (m : SingleTypeKVCacheManager) (numComputedTokens : ℕ) : ℤ :=
  m.kvCacheSpec.getNumSkippedTokens numComputedTokens

/-- `_get_num_evictable_blocks`. -/
def getNumEvictableBlocks (pool : BlockPool) (blocks : List BlockRef) : ℕ :=
  blocks.countP fun blk => pool.refCnt blk = 0 ∧ blk ≠ pool.nullBlock

/-- `get_manager_for_kv_cache_spec` with the constructors of the manager classes. -/
def new (spec : KVCacheSpec) (pool : BlockPool) (enableCaching : Bool)
    (kvCacheGroupId dcpWorldSize pcpWorldSize : ℕ) :
    Except PyError (SingleTypeKVCacheManager × BlockPool) := do
  let m : SingleTypeKVCacheManager :=
    { kvCacheSpec := spec, enableCaching, kvCacheGroupId, dcpWorldSize, pcpWorldSize }
  match spec with
  | .sinkFullAttention _ sinkLen =>
    let message := "sink_len is not None and sink_len > 0 and sink_len % self.block_size == 0"
    match sinkLen with
    | none => .error (.assertionError message)
    | some sinkLen =>
      pyAssert (sinkLen > 0 ∧ sinkLen % m.blockSize = 0) message
      let (sinkBlocks, freeBlockQueue) ←
        pool.freeBlockQueue.popleftN (sinkLen / m.blockSize : ℕ)
      return ({ m with sinkBlocks }, { pool with freeBlockQueue })
  | _ => return (m, pool)

/-! ## Estimating an allocation -/

/-- `SingleTypeKVCacheManager.get_num_blocks_to_allocate`. -/
def baseGetNumBlocksToAllocate (m : SingleTypeKVCacheManager) (pool : BlockPool)
    (requestId : RequestId) (numTokens : ℕ) (newComputedBlocks : List BlockRef)
    (totalComputedTokens : ℕ) : Except PyError ℤ :=
  let numRequiredBlocks : ℤ := cdiv numTokens m.blockSize
  let numReqBlocks : ℤ := (m.blocksOf requestId).length
  if requestId ∈ m.numCachedBlock then do
    -- A running request has no new prefix-cache hits.
    pyAssert (newComputedBlocks.length = 0) "len(new_computed_blocks) == 0"
    return max (numRequiredBlocks - numReqBlocks) 0
  else
    let numSkippedTokens := m.getNumSkippedTokens totalComputedTokens
    let numLocalComputedBlocks : ℤ := newComputedBlocks.length + numReqBlocks
    let numSkippedBlocks := numSkippedTokens / m.blockSize
    let numNewBlocks := max (numRequiredBlocks - max numSkippedBlocks numLocalComputedBlocks) 0
    let numSkippedNewComputedBlocks := max 0 (numSkippedBlocks - numReqBlocks)
    let numEvictableBlocks := getNumEvictableBlocks pool
      (newComputedBlocks.drop numSkippedNewComputedBlocks.toNat)
    .ok (numNewBlocks + numEvictableBlocks)

/-- `MambaManager.get_num_blocks_to_allocate` in mode `align`. Looking up the block list of
the request creates it. -/
def alignGetNumBlocksToAllocate (m : SingleTypeKVCacheManager) (pool : BlockPool)
    (requestId : RequestId) (newComputedBlocks : List BlockRef) (numTokensMainModel : ℕ) :
    ℤ × SingleTypeKVCacheManager :=
  let numSpeculativeBlocks := m.kvCacheSpec.numSpeculativeBlocks
  let numRequiredBlocks : ℤ := cdiv numTokensMainModel m.blockSize + numSpeculativeBlocks
  let numNewBlocks : ℤ :=
    numRequiredBlocks - newComputedBlocks.length - (m.blocksOf requestId).length
  let numNewBlocks : ℤ :=
    if numNewBlocks > 0 then
      if requestId ∈ m.allocatedBlockReqs then 1 else 1 + numSpeculativeBlocks
    else
      numNewBlocks
  (numNewBlocks + getNumEvictableBlocks pool newComputedBlocks,
    m.setBlocks requestId (m.blocksOf requestId))

def getNumBlocksToAllocate (m : SingleTypeKVCacheManager) (pool : BlockPool)
    (requestId : RequestId) (numTokens : ℕ) (newComputedBlocks : List BlockRef)
    (totalComputedTokens numTokensMainModel : ℕ) :
    Except PyError (ℤ × SingleTypeKVCacheManager) :=
  match m.kvCacheSpec with
  | .mamba spec =>
    if spec.mambaCacheMode = .align then
      .ok (m.alignGetNumBlocksToAllocate pool requestId newComputedBlocks numTokensMainModel)
    else do
      -- The extra speculative blocks are counted in blocks of the spec.
      let numTokens := numTokens + spec.blockSize * spec.numSpeculativeBlocks
      let num ← m.baseGetNumBlocksToAllocate pool requestId numTokens newComputedBlocks
        totalComputedTokens
      return (num, m)
  | _ => do
    let num ← m.baseGetNumBlocksToAllocate pool requestId numTokens newComputedBlocks
      totalComputedTokens
    return (num, m)

/-! ## Allocating -/

/-- Touches the hit blocks so that they are not evicted. -/
def touchComputedBlocks (m : SingleTypeKVCacheManager) (pool : BlockPool)
    (newComputedBlocks : List BlockRef) : Except PyError BlockPool :=
  if m.enableCaching then
    pool.touch newComputedBlocks
  else do
    pyAssert newComputedBlocks.isEmpty
      "Computed blocks should be empty when prefix caching is disabled"
    return pool

/-- The last part of `allocate_new_computed_blocks`: the blocks for external tokens. -/
def allocateExternalBlocks (m : SingleTypeKVCacheManager) (pool : BlockPool)
    (requestId : RequestId) (numTotalComputedTokens : ℕ) (numExternalComputedTokens : ℤ) :
    Except PyError (SingleTypeKVCacheManager × BlockPool) :=
  if numExternalComputedTokens > 0 then do
    let reqBlocks := m.blocksOf requestId
    let (allocatedBlocks, pool) ← pool.getNewBlocks
      ((cdiv numTotalComputedTokens m.blockSize : ℤ) - reqBlocks.length)
    return (m.setBlocks requestId (reqBlocks ++ allocatedBlocks), pool)
  else
    .ok (m, pool)

/-- `num_skipped_blocks` of `allocate_new_computed_blocks`. -/
def numSkippedBlocks (m : SingleTypeKVCacheManager) (numTotalComputedTokens : ℕ) : ℤ :=
  m.getNumSkippedTokens numTotalComputedTokens / m.blockSize

/-- The hit blocks that are not skipped. -/
def neededBlocks (m : SingleTypeKVCacheManager) (newComputedBlocks : List BlockRef)
    (numTotalComputedTokens : ℕ) : List BlockRef :=
  if m.numSkippedBlocks numTotalComputedTokens > 0 then
    newComputedBlocks.drop (m.numSkippedBlocks numTotalComputedTokens).toNat
  else
    newComputedBlocks

/-- The external tokens that are not skipped. -/
def neededExternalTokens (m : SingleTypeKVCacheManager)
    (numTotalComputedTokens numExternalComputedTokens : ℕ) : ℤ :=
  if m.numSkippedBlocks numTotalComputedTokens > 0 then
    min (numTotalComputedTokens - m.getNumSkippedTokens numTotalComputedTokens)
      numExternalComputedTokens
  else
    numExternalComputedTokens

/-- Skipped blocks are padded with null blocks; all hits, the skipped ones included, are marked
as cached. -/
def addComputedBlocks (m : SingleTypeKVCacheManager) (nullBlock : BlockRef)
    (requestId : RequestId) (neededBlocks : List BlockRef) (numSkippedBlocks : ℕ) :
    SingleTypeKVCacheManager :=
  let reqBlocks := List.replicate numSkippedBlocks nullBlock ++ neededBlocks
  { m.setBlocks requestId reqBlocks with
    numCachedBlock := m.numCachedBlock.insert requestId reqBlocks.length }

/-- `SingleTypeKVCacheManager.allocate_new_computed_blocks`. -/
def baseAllocateNewComputedBlocks (m : SingleTypeKVCacheManager) (pool : BlockPool)
    (requestId : RequestId) (newComputedBlocks : List BlockRef)
    (numLocalComputedTokens numExternalComputedTokens : ℕ) :
    Except PyError (SingleTypeKVCacheManager × BlockPool) :=
  if requestId ∈ m.numCachedBlock then do
    pyAssert (newComputedBlocks.length = 0) "len(new_computed_blocks) == 0"
    return (m, pool)
  else do
    pyAssert ((m.blocksOf requestId).length = 0) "len(req_blocks) == 0"
    let numTotalComputedTokens := numLocalComputedTokens + numExternalComputedTokens
    let neededBlocks := m.neededBlocks newComputedBlocks numTotalComputedTokens
    let pool ← m.touchComputedBlocks pool neededBlocks
    let m := m.addComputedBlocks pool.nullBlock requestId neededBlocks
      (m.numSkippedBlocks numTotalComputedTokens).toNat
    m.allocateExternalBlocks pool requestId numTotalComputedTokens
      (m.neededExternalTokens numTotalComputedTokens numExternalComputedTokens)

def allocateNewComputedBlocks (m : SingleTypeKVCacheManager) (pool : BlockPool)
    (requestId : RequestId) (newComputedBlocks : List BlockRef)
    (numLocalComputedTokens numExternalComputedTokens : ℕ) :
    Except PyError (SingleTypeKVCacheManager × BlockPool) :=
  if m.kvCacheSpec.isCrossAttention then do
    pyAssert (newComputedBlocks.length = 0) "len(new_computed_blocks) == 0"
    return (m, pool)
  else
    m.baseAllocateNewComputedBlocks pool requestId newComputedBlocks numLocalComputedTokens
      numExternalComputedTokens

/-- `SingleTypeKVCacheManager.allocate_new_blocks`. -/
def baseAllocateNewBlocks (m : SingleTypeKVCacheManager) (pool : BlockPool)
    (requestId : RequestId) (numTokens : ℕ) :
    Except PyError (List BlockRef × SingleTypeKVCacheManager × BlockPool) :=
  let reqBlocks := m.blocksOf requestId
  let numNewBlocks : ℤ := (cdiv numTokens m.blockSize : ℤ) - reqBlocks.length
  if numNewBlocks ≤ 0 then
    .ok ([], m.setBlocks requestId reqBlocks, pool)
  else do
    let (newBlocks, pool) ← pool.getNewBlocks numNewBlocks
    return (newBlocks, m.setBlocks requestId (reqBlocks ++ newBlocks), pool)

/-- The loop that reuses the speculative blocks of the previous step: from `blockIdx` on,
`count` blocks are moved to the end as long as they lie before `numSkippedBlocks`. -/
def reuseSpeculativeBlocks (nullBlock : BlockRef) (numSkippedBlocks : ℤ) :
    ℕ → ℤ → List BlockRef → Except PyError (List BlockRef)
  | 0, _, reqBlocks => .ok reqBlocks
  | count + 1, blockIdx, reqBlocks =>
    if blockIdx < numSkippedBlocks then
      match pyIndex reqBlocks.length blockIdx with
      | none => .error .indexError
      | some i =>
        let reqBlocks := reqBlocks ++ [reqBlocks.getD i nullBlock]
        match pyIndex reqBlocks.length blockIdx with
        | none => .error .indexError
        | some i =>
          reuseSpeculativeBlocks nullBlock numSkippedBlocks count (blockIdx + 1)
            (reqBlocks.set i nullBlock)
    else
      .ok reqBlocks

/-- The new value of `last_state_block_idx` in `allocate_new_blocks`. -/
def nextLastStateBlockIdx (m : SingleTypeKVCacheManager) (requestId : RequestId)
    (prevBlockLen : ℕ) : Dict RequestId ℤ :=
  if requestId ∈ m.allocatedBlockReqs then
    -- The running state is at the last `1 + num_speculative_blocks` block.
    m.lastStateBlockIdx.insert requestId
      ((prevBlockLen : ℤ) - 1 - m.kvCacheSpec.numSpeculativeBlocks)
  else if prevBlockLen > 0 then
    -- After a prefix-cache hit the last block has the hit state.
    m.lastStateBlockIdx.insert requestId ((prevBlockLen : ℤ) - 1)
  else
    m.lastStateBlockIdx

/-- The block list before new blocks are taken: padded with null blocks up to the last state
block, then with the speculative blocks of the previous step. -/
def alignExtendBlocks (m : SingleTypeKVCacheManager) (nullBlock : BlockRef)
    (requestId : RequestId) (numSkippedBlocks : ℤ) : Except PyError (List BlockRef) :=
  let reqBlocks := m.blocksOf requestId
  let prevBlockLen := reqBlocks.length
  let padded := reqBlocks ++
    List.replicate (numSkippedBlocks - prevBlockLen).toNat nullBlock
  if requestId ∈ m.allocatedBlockReqs then
    reuseSpeculativeBlocks nullBlock numSkippedBlocks m.kvCacheSpec.numSpeculativeBlocks
      ((prevBlockLen : ℤ) - m.kvCacheSpec.numSpeculativeBlocks) padded
  else
    .ok padded

/-- The assertion on the number of new blocks. -/
def assertNumNewBlocks (m : SingleTypeKVCacheManager) (requestId : RequestId)
    (numNewBlocks : ℤ) : Except PyError Unit :=
  if requestId ∈ m.allocatedBlockReqs then
    pyAssert (numNewBlocks ≤ 1) "num_new_blocks <= 1"
  else
    pyAssert (numNewBlocks ≤ (m.kvCacheSpec.numSpeculativeBlocks : ℤ) + 1)
      "num_new_blocks <= self.num_speculative_blocks + 1"

/-- `MambaManager.allocate_new_blocks` in mode `align`. -/
def alignAllocateNewBlocks (m : SingleTypeKVCacheManager) (pool : BlockPool)
    (requestId : RequestId) (numTokensMainModel : ℕ) :
    Except PyError (List BlockRef × SingleTypeKVCacheManager × BlockPool) :=
  let prevBlockLen := (m.blocksOf requestId).length
  let numSpeculativeBlocks := m.kvCacheSpec.numSpeculativeBlocks
  let numRequiredBlocks := cdiv numTokensMainModel m.blockSize + numSpeculativeBlocks
  if numRequiredBlocks = prevBlockLen then
    .ok ([], m.setBlocks requestId (m.blocksOf requestId), pool)
  else do
    pyAssert (numRequiredBlocks > prevBlockLen)
      s!"num_required_blocks {numRequiredBlocks} < len(req_blocks) {prevBlockLen}"
    let reqBlocks ← m.alignExtendBlocks pool.nullBlock requestId
      ((numRequiredBlocks : ℤ) - numSpeculativeBlocks - 1)
    let numNewBlocks : ℤ := (numRequiredBlocks : ℤ) - reqBlocks.length
    m.assertNumNewBlocks requestId numNewBlocks
    let (newBlocks, pool) ← pool.getNewBlocks numNewBlocks
    let reqBlocks := reqBlocks ++ newBlocks
    return (reqBlocks.drop prevBlockLen,
      { m.setBlocks requestId reqBlocks with
        lastStateBlockIdx := m.nextLastStateBlockIdx requestId prevBlockLen
        allocatedBlockReqs := insert requestId m.allocatedBlockReqs }, pool)

def allocateNewBlocks (m : SingleTypeKVCacheManager) (pool : BlockPool) (requestId : RequestId)
    (numTokens numTokensMainModel : ℕ) :
    Except PyError (List BlockRef × SingleTypeKVCacheManager × BlockPool) :=
  match m.kvCacheSpec with
  | .mamba spec =>
    if spec.mambaCacheMode = .align then
      m.alignAllocateNewBlocks pool requestId numTokensMainModel
    else
      -- The extra speculative blocks are allocated in blocks of the manager.
      m.baseAllocateNewBlocks pool requestId
        (numTokens + m.blockSize * spec.numSpeculativeBlocks)
  | _ => m.baseAllocateNewBlocks pool requestId numTokens

/-! ## Caching and freeing -/

def cacheBlocks (m : SingleTypeKVCacheManager) (pool : BlockPool) (request : Request)
    (numTokens : ℕ) : Except PyError (SingleTypeKVCacheManager × BlockPool) :=
  if m.kvCacheSpec.isCrossAttention then
    .error (.valueError "Should not be called as prefix caching is disabled.")
  else
    let numCachedBlocks := m.numCached request.requestId
    let numFullBlocks := numTokens / m.blockSize
    if numCachedBlocks ≥ numFullBlocks then
      .ok (m, pool)
    else do
      let blocks := m.blocksOf request.requestId
      let pool ← pool.cacheFullBlocks request blocks numCachedBlocks numFullBlocks m.blockSize
        m.kvCacheGroupId
      return ({ m.setBlocks request.requestId blocks with
        numCachedBlock := m.numCachedBlock.insert request.requestId numFullBlocks }, pool)

/-- The part of `MambaManager.free` for mode `align`. -/
def forgetStates (m : SingleTypeKVCacheManager) (requestId : RequestId) :
    SingleTypeKVCacheManager :=
  if m.kvCacheSpec.isMambaAlign then
    { m with
      allocatedBlockReqs := m.allocatedBlockReqs.erase requestId
      lastStateBlockIdx := m.lastStateBlockIdx.erase requestId }
  else
    m

def free (m : SingleTypeKVCacheManager) (pool : BlockPool) (requestId : RequestId) :
    Except PyError (SingleTypeKVCacheManager × BlockPool) := do
  let m := m.forgetStates requestId
  let pool ← pool.freeBlocks (m.blocksOf requestId).reverse
  return ({ m with
    reqToBlocks := m.reqToBlocks.erase requestId
    numCachedBlock := m.numCachedBlock.erase requestId }, pool)

/-- `get_num_common_prefix_blocks`: only full attention counts the blocks that as many requests hold as
have a block list. Looking up the list of the request creates it. -/
def getNumCommonPrefixBlocks (m : SingleTypeKVCacheManager) (pool : BlockPool)
    (runningRequestId : RequestId) : ℕ × SingleTypeKVCacheManager :=
  if m.kvCacheSpec.isFullAttention then
    let blocks := m.blocksOf runningRequestId
    let m := m.setBlocks runningRequestId blocks
    ((blocks.takeWhile fun block => pool.refCnt block = m.reqToBlocks.keys.length).length, m)
  else
    (0, m)

/-- The loop of `remove_skipped_blocks`: from index `n - 1` down to the first null block, the
blocks are replaced by the null block. Returns the removed blocks and the new list. -/
def removeSkippedBlocksLoop (nullBlock : BlockRef) :
    ℕ → List BlockRef → List BlockRef × List BlockRef
  | 0, blocks => ([], blocks)
  | i + 1, blocks =>
    let block := blocks.getD i nullBlock
    if block = nullBlock then
      ([], blocks)
    else
      let rest := removeSkippedBlocksLoop nullBlock i (blocks.set i nullBlock)
      (block :: rest.1, rest.2)

/-- `SingleTypeKVCacheManager.remove_skipped_blocks`. -/
def baseRemoveSkippedBlocks (m : SingleTypeKVCacheManager) (pool : BlockPool)
    (requestId : RequestId) (totalComputedTokens : ℕ) :
    Except PyError (SingleTypeKVCacheManager × BlockPool) :=
  let numSkippedTokens := m.getNumSkippedTokens totalComputedTokens
  if numSkippedTokens ≤ 0 then
    .ok (m, pool)
  else do
    let blocks := m.blocksOf requestId
    let numSkippedBlocks := min (numSkippedTokens.toNat / m.blockSize) blocks.length
    let (removedBlocks, blocks) := removeSkippedBlocksLoop pool.nullBlock numSkippedBlocks blocks
    let pool ← pool.freeBlocks removedBlocks
    return (m.setBlocks requestId blocks, pool)

/-- The part of `MambaManager.remove_skipped_blocks` for mode `align`: frees the state block
allocated two steps ago. -/
def alignRemoveSkippedBlocks (m : SingleTypeKVCacheManager) (pool : BlockPool)
    (requestId : RequestId) (numComputedTokens : ℕ) :
    Except PyError (SingleTypeKVCacheManager × BlockPool) :=
  match m.lastStateBlockIdx.lookup requestId with
  | none => .ok (m, pool)
  | some lastStateBlockIdx =>
    if lastStateBlockIdx < (cdiv numComputedTokens m.blockSize : ℤ) - 1 then
      let blocks := m.blocksOf requestId
      match pyIndex blocks.length lastStateBlockIdx with
      | none => .error .indexError
      | some i =>
        let block := blocks.getD i pool.nullBlock
        if block ≠ pool.nullBlock then do
          let pool ← pool.freeBlocks [block]
          return (m.setBlocks requestId (blocks.set i pool.nullBlock), pool)
        else
          .ok (m.setBlocks requestId blocks, pool)
    else
      .ok (m, pool)

def removeSkippedBlocks (m : SingleTypeKVCacheManager) (pool : BlockPool)
    (requestId : RequestId) (totalComputedTokens : ℕ) :
    Except PyError (SingleTypeKVCacheManager × BlockPool) := do
  let (m, pool) ← m.baseRemoveSkippedBlocks pool requestId totalComputedTokens
  if m.kvCacheSpec.isMambaAlign then
    m.alignRemoveSkippedBlocks pool requestId totalComputedTokens
  else
    return (m, pool)

end SingleTypeKVCacheManager

end VllmRuntime
