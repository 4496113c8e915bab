import VllmRuntime.Model.Coordinator

/-! # The KV cache manager

`vllm/v1/core/kv_cache_manager.py` and the calls the scheduler makes. Statistics are left
out. -/

namespace VllmRuntime

structure KVCacheManager where
  coordinator : KVCacheCoordinator

namespace KVCacheManager

/-- `KVCacheManager.__init__`. -/
def new (config : KVCacheConfig) (maxModelLen hashBlockSize : ℕ)
    (enableCaching useEagle enableKvCacheEvents useIntBlockHashes : Bool)
    (dcpWorldSize pcpWorldSize : ℕ) : Except PyError KVCacheManager := do
  let coordinator ← KVCacheCoordinator.new config maxModelLen useEagle enableCaching
    enableKvCacheEvents useIntBlockHashes dcpWorldSize pcpWorldSize hashBlockSize
  return { coordinator }

def blockPool (kv : KVCacheManager) : BlockPool := kv.coordinator.blockPool

def emptyKvCacheBlocks (kv : KVCacheManager) : List (List BlockRef) :=
  kv.coordinator.singleTypeManagers.map fun _ => []

/-- The cached blocks of the request, one list for each group, and their number of tokens. A
request has at least one token. -/
def getComputedBlocks (kv : KVCacheManager) (request : Request) :
    Except PyError (List (List BlockRef) × ℕ) :=
  if !kv.coordinator.enableCaching || request.skipReadingPrefixCache then
    .ok (kv.emptyKvCacheBlocks, 0)
  else
    -- The last token is always recomputed to obtain logits.
    kv.coordinator.findLongestCacheHit request.blockHashes (request.numTokens - 1)

structure AllocateArgs where
  numNewTokens : ℕ
  numNewComputedTokens : ℕ := 0
  numLookaheadTokens : ℕ := 0
  numExternalComputedTokens : ℕ := 0
  delayCacheBlocks : Bool := false
  numEncoderTokens : ℕ := 0
  deriving DecidableEq, Repr

/-- `num_local_computed_tokens`. -/
def AllocateArgs.numLocalComputedTokens (args : AllocateArgs) (request : Request) : ℕ :=
  request.numComputedTokens + args.numNewComputedTokens

/-- `total_computed_tokens`, capped by the model length. -/
def AllocateArgs.totalComputedTokens (args : AllocateArgs) (request : Request)
    (maxModelLen : ℕ) : ℕ :=
  min (args.numLocalComputedTokens request + args.numExternalComputedTokens) maxModelLen

def AllocateArgs.numTokensMainModel (args : AllocateArgs) (request : Request)
    (maxModelLen : ℕ) : ℕ :=
  args.totalComputedTokens request maxModelLen + args.numNewTokens

def AllocateArgs.numTokensNeedSlot (args : AllocateArgs) (request : Request)
    (maxModelLen : ℕ) : ℕ :=
  min (args.numTokensMainModel request maxModelLen + args.numLookaheadTokens) maxModelLen

/-- The blocks that were passed in are not the pre-constructed empty ones. -/
def hasComputedBlocks (newComputedBlocks : List (List BlockRef)) : Bool :=
  newComputedBlocks.any fun blocks => !blocks.isEmpty

/-- The part of `allocate_slots` before the capacity check: frees skipped blocks and returns
`num_blocks_to_allocate`. -/
def prepareAllocation (kv : KVCacheManager) (request : Request)
    (newComputedBlocks : List (List BlockRef)) (args : AllocateArgs) :
    Except PyError (ℤ × KVCacheCoordinator) := do
  let maxModelLen := kv.coordinator.maxModelLen
  let c ← kv.coordinator.removeSkippedBlocks request.requestId
    (args.totalComputedTokens request maxModelLen)
  c.getNumBlocksToAllocate request.requestId (args.numTokensNeedSlot request maxModelLen)
    newComputedBlocks args.numEncoderTokens
    (args.numLocalComputedTokens request + args.numExternalComputedTokens)
    (args.numTokensMainModel request maxModelLen)

/-- Appends the computed blocks, if there are any or external tokens need blocks. -/
def addComputedBlocks (c : KVCacheCoordinator) (request : Request)
    (newComputedBlocks : List (List BlockRef)) (args : AllocateArgs) :
    Except PyError KVCacheCoordinator :=
  if hasComputedBlocks newComputedBlocks || args.numExternalComputedTokens > 0 then
    c.allocateNewComputedBlocks request.requestId newComputedBlocks
      (args.numLocalComputedTokens request) args.numExternalComputedTokens
  else
    .ok c

/-- The part of `allocate_slots` that takes blocks: `allocate_new_computed_blocks` followed by
`allocate_new_blocks`. -/
def takeBlocks (c : KVCacheCoordinator) (request : Request)
    (newComputedBlocks : List (List BlockRef)) (args : AllocateArgs) :
    Except PyError (List (List BlockRef) × KVCacheCoordinator) := do
  let c ← addComputedBlocks c request newComputedBlocks args
  c.allocateNewBlocks request.requestId (args.numTokensNeedSlot request c.maxModelLen)
    (args.numTokensMainModel request c.maxModelLen) args.numEncoderTokens

/-- The part of `allocate_slots` that caches the finalized tokens. -/
def commitBlocks (c : KVCacheCoordinator) (request : Request) (args : AllocateArgs) :
    Except PyError KVCacheCoordinator :=
  if !c.enableCaching || args.delayCacheBlocks then
    .ok c
  else
    c.cacheBlocks request (min (args.numTokensMainModel request c.maxModelLen) request.numTokens)

/-- `allocate_slots`: `none` when there are not enough free blocks. -/
def allocateSlots (kv : KVCacheManager) (request : Request)
    (newComputedBlocks : List (List BlockRef)) (args : AllocateArgs) :
    Except PyError (Option (List (List BlockRef)) × KVCacheManager) :=
  if args.numNewTokens = 0 ∧ args.numExternalComputedTokens = 0 then
    .error (.valueError
      "num_new_tokens must be greater than 0 when there are no external computed tokens")
  else do
    let (numBlocksToAllocate, c) ← kv.prepareAllocation request newComputedBlocks args
    if numBlocksToAllocate > c.blockPool.getNumFreeBlocks then
      return (none, { kv with coordinator := c })
    else
      let (newBlocks, c) ← takeBlocks c request newComputedBlocks args
      let c ← commitBlocks c request args
      return (some newBlocks, { kv with coordinator := c })

def free (kv : KVCacheManager) (request : Request) : Except PyError KVCacheManager := do
  return { kv with coordinator := ← kv.coordinator.free request.requestId }

def removeSkippedBlocks (kv : KVCacheManager) (requestId : RequestId)
    (totalComputedTokens : ℕ) : Except PyError KVCacheManager := do
  return { kv with
    coordinator := ← kv.coordinator.removeSkippedBlocks requestId totalComputedTokens }

def evictBlocks (kv : KVCacheManager) (blockIds : List ℕ) : Except PyError KVCacheManager := do
  let blockPool ← kv.blockPool.evictBlocks blockIds
  return { kv with coordinator := { kv.coordinator with blockPool } }

def resetPrefixCache (kv : KVCacheManager) : Bool × KVCacheManager :=
  let (reset, blockPool) := kv.blockPool.resetPrefixCache
  (reset, { kv with coordinator := { kv.coordinator with blockPool } })

def getNumCommonPrefixBlocks (kv : KVCacheManager) (runningRequestId : RequestId) :
    List ℕ × KVCacheManager :=
  let (nums, coordinator) := kv.coordinator.getNumCommonPrefixBlocks runningRequestId
  (nums, { kv with coordinator })

def takeEvents (kv : KVCacheManager) : List KVCacheEvent × KVCacheManager :=
  let (events, blockPool) := kv.blockPool.takeEvents
  (events, { kv with coordinator := { kv.coordinator with blockPool } })

def cacheBlocks (kv : KVCacheManager) (request : Request) (numComputedTokens : ℕ) :
    Except PyError KVCacheManager :=
  if kv.coordinator.enableCaching then do
    return { kv with coordinator := ← kv.coordinator.cacheBlocks request numComputedTokens }
  else
    .ok kv

end KVCacheManager

/-! ## Calls of the scheduler -/

/-- A call of the scheduler. A waiting request is looked up and allocated in one go; a request
that holds blocks already (running, or back from a remote load) is allocated without a
lookup. -/
inductive KVCacheCall where
  | allocateNew (request : Request) (args : KVCacheManager.AllocateArgs)
  | allocateRunning (request : Request) (args : KVCacheManager.AllocateArgs)
  | cacheBlocks (request : Request) (numComputedTokens : ℕ)
  | removeSkippedBlocks (requestId : RequestId) (totalComputedTokens : ℕ)
  | free (request : Request)
  | evictBlocks (blockIds : List ℕ)
  | resetPrefixCache

def KVCacheCall.run (kv : KVCacheManager) : KVCacheCall → Except PyError KVCacheManager
  | allocateNew request args => do
    let (hits, numNewComputedTokens) ← kv.getComputedBlocks request
    let (_, kv) ← kv.allocateSlots request hits { args with numNewComputedTokens }
    return kv
  | allocateRunning request args => do
    let (_, kv) ← kv.allocateSlots request kv.emptyKvCacheBlocks
      { args with numNewComputedTokens := 0, numExternalComputedTokens := 0 }
    return kv
  | cacheBlocks request numComputedTokens => kv.cacheBlocks request numComputedTokens
  | removeSkippedBlocks requestId totalComputedTokens =>
    kv.removeSkippedBlocks requestId totalComputedTokens
  | free request => kv.free request
  | evictBlocks blockIds => kv.evictBlocks blockIds
  | resetPrefixCache => .ok kv.resetPrefixCache.2

end VllmRuntime
