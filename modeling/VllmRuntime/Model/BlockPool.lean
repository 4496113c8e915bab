import VllmRuntime.Model.FreeQueue
import VllmRuntime.Model.Request

/-! # The block pool

`vllm/v1/core/block_pool.py`. Metrics are left out. -/

namespace VllmRuntime

/-- The fields of a `KVCacheBlock` that the pool maintains; the link fields are in the queue. -/
structure KVCacheBlock where
  refCnt : ℤ := 0
  blockHash : Option BlockHashWithGroupId := none
  deriving DecidableEq, Repr

/-! ## Cached blocks by hash -/

/-- What one key maps to: a block, or a dictionary of blocks in insertion order, which is
never empty. -/
inductive CachedBlocks where
  | block (b : BlockRef)
  | dict (first : BlockRef) (rest : List BlockRef)
  deriving DecidableEq, Repr

def CachedBlocks.toList : CachedBlocks → List BlockRef
  | .block b => [b]
  | .dict first rest => first :: rest

abbrev BlockHashToBlockMap := Dict BlockHashWithGroupId CachedBlocks

namespace BlockHashToBlockMap

def getOneBlock (cache : BlockHashToBlockMap) (key : BlockHashWithGroupId) : Option BlockRef :=
  match cache.lookup key with
  | none => none
  | some (.block block) => some block
  | some (.dict first _) => some first

def insert (cache : BlockHashToBlockMap) (key : BlockHashWithGroupId) (block : BlockRef) :
    BlockHashToBlockMap :=
  match cache.lookup key with
  | none => AList.insert key (.block block) cache
  | some (.block other) =>
    AList.insert key (.dict other (if block = other then [] else [block])) cache
  | some (.dict first rest) =>
    if block = first ∨ block ∈ rest then
      cache
    else
      AList.insert key (.dict first (rest ++ [block])) cache

def pop (cache : BlockHashToBlockMap) (key : BlockHashWithGroupId) (block : BlockRef) :
    Option BlockRef × BlockHashToBlockMap :=
  match cache.lookup key with
  | none => (none, cache)
  | some (.block other) =>
    if other = block then (some other, AList.erase key cache) else (none, cache)
  | some (.dict first rest) =>
    if first = block then
      match rest with
      | [] => (some block, AList.erase key cache)
      | second :: rest => (some block, AList.insert key (.dict second rest) cache)
    else if block ∈ rest then
      (some block, AList.insert key (.dict first (rest.erase block)) cache)
    else
      (none, cache)

end BlockHashToBlockMap

/-! ## Events -/

inductive KVCacheEvent where
  | blockStored (blockHashes : List ExternalBlockHash) (parentBlockHash : Option ExternalBlockHash)
      (tokenIds : List TokenId) (blockSize : ℕ) (loraId : Option ℕ) (loraName : Option String)
  | blockRemoved (blockHashes : List ExternalBlockHash)
  | allBlocksCleared
  deriving DecidableEq, Repr

/-! ## The pool -/

structure BlockPool where
  numGpuBlocks : ℕ
  enableCaching : Bool
  hashBlockSize : ℕ
  enableKvCacheEvents : Bool
  useIntBlockHashes : Bool
  blocks : BlockRef → KVCacheBlock
  freeBlockQueue : FreeKVCacheBlockQueue
  cachedBlockHashToBlock : BlockHashToBlockMap
  nullBlock : BlockRef
  kvEventQueue : List KVCacheEvent

/-- `BlockHashListWithBlockSize`, all entries at once: runs of `target_block_size /
hash_block_size` hashes are concatenated, and a last incomplete run is dropped. -/
def blockHashListWithBlockSize (blockHashes : List BlockHash)
    (hashBlockSize targetBlockSize : ℕ) : List BlockHash :=
  let scaleFactor := targetBlockSize / hashBlockSize
  (List.range (blockHashes.length / scaleFactor)).map fun idx =>
    ((blockHashes.drop (idx * scaleFactor)).take scaleFactor).flatten

namespace BlockPool

/-- `BlockPool.__init__`. -/
def new (numGpuBlocks : ℕ) (enableCaching : Bool) (hashBlockSize : ℕ)
    (enableKvCacheEvents useIntBlockHashes : Bool) : Except PyError BlockPool := do
  pyAssert (numGpuBlocks > 0) "isinstance(num_gpu_blocks, int) and num_gpu_blocks > 0"
  let queue := FreeKVCacheBlockQueue.new ((List.range numGpuBlocks).map .block)
  let (nullBlock, freeBlockQueue) ← queue.popleft
  return { numGpuBlocks, enableCaching, hashBlockSize, enableKvCacheEvents, useIntBlockHashes,
           freeBlockQueue, nullBlock, blocks := fun _ => {}, cachedBlockHashToBlock := ∅,
           kvEventQueue := [] }

/-- A member of `BlockPool.blocks`. -/
def IsBlock (pool : BlockPool) (b : BlockRef) : Prop := ∃ id < pool.numGpuBlocks, b = .block id

instance (pool : BlockPool) (b : BlockRef) : Decidable (pool.IsBlock b) :=
  match b with
  | .block id => decidable_of_iff (id < pool.numGpuBlocks) (by simp [IsBlock])
  | .fakeHead => .isFalse (by simp [IsBlock])
  | .fakeTail => .isFalse (by simp [IsBlock])

def refCnt (pool : BlockPool) (b : BlockRef) : ℤ := (pool.blocks b).refCnt

def blockHash (pool : BlockPool) (b : BlockRef) : Option BlockHashWithGroupId :=
  (pool.blocks b).blockHash

def getNumFreeBlocks (pool : BlockPool) : ℤ := pool.freeBlockQueue.numFreeBlocks

def setRefCnt (pool : BlockPool) (b : BlockRef) (refCnt : ℤ) : BlockPool :=
  { pool with blocks := Function.update pool.blocks b { pool.blocks b with refCnt } }

/-- The setter of `block_hash`. -/
def setBlockHash (pool : BlockPool) (b : BlockRef) (key : BlockHashWithGroupId) :
    Except PyError BlockPool :=
  if (pool.blockHash b).isSome then
    .error (.blockHashAssertion "The block already has a hash. This should not happen.")
  else
    .ok { pool with
      blocks := Function.update pool.blocks b { pool.blocks b with blockHash := key } }

def resetHash (pool : BlockPool) (b : BlockRef) : BlockPool :=
  { pool with
    blocks := Function.update pool.blocks b { pool.blocks b with blockHash := none } }

def getCachedBlock (pool : BlockPool) (blockHash : BlockHash) (kvCacheGroupIds : List ℕ) :
    Option (List BlockRef) :=
  kvCacheGroupIds.mapM fun groupId =>
    pool.cachedBlockHashToBlock.getOneBlock (makeBlockHashWithGroupId blockHash groupId)

/-- The `for` loop of `cache_full_blocks`, with the hashes added so far. -/
def cacheFullBlocksLoop (kvCacheGroupId : ℕ) :
    List BlockRef → List BlockHash → BlockPool → Except PyError (List ExternalBlockHash × BlockPool)
  | [], _, pool => .ok ([], pool)
  | blk :: blks, newBlockHashes, pool =>
    if blk = pool.nullBlock then
      cacheFullBlocksLoop kvCacheGroupId blks newBlockHashes.tail pool
    else if (pool.blockHash blk).isSome then
      .error (.blockHashAssertion "blk.block_hash is None")
    else
      match newBlockHashes with
      | [] => .error .indexError
      | blockHash :: newBlockHashes => do
        let key := makeBlockHashWithGroupId blockHash kvCacheGroupId
        let pool ← pool.setBlockHash blk key
        let pool := { pool with
          cachedBlockHashToBlock := pool.cachedBlockHashToBlock.insert key blk }
        let (newHashes, pool) ← cacheFullBlocksLoop kvCacheGroupId blks newBlockHashes pool
        return (maybeConvertBlockHash pool.useIntBlockHashes blockHash :: newHashes, pool)

/-- The hashes of the request at the granularity of `blockSize`. -/
def requestBlockHashes (pool : BlockPool) (request : Request) (blockSize : ℕ) :
    Except PyError (List BlockHash) :=
  if blockSize = pool.hashBlockSize then
    .ok request.blockHashes
  else do
    pyAssert (blockSize % pool.hashBlockSize = 0) "block_size % self.hash_block_size == 0"
    return blockHashListWithBlockSize request.blockHashes pool.hashBlockSize blockSize

/-- `parent_block_hash` of the event for the blocks from `numCachedBlocks` on. -/
def parentBlockHash (pool : BlockPool) (blockHashes : List BlockHash) (numCachedBlocks : ℕ) :
    Except PyError (Option ExternalBlockHash) :=
  if numCachedBlocks = 0 then
    .ok none
  else
    match blockHashes[numCachedBlocks - 1]? with
    | none => .error .indexError
    | some hash => .ok (some (maybeConvertBlockHash pool.useIntBlockHashes hash))

/-- Appends the `BlockStored` event of `cache_full_blocks`. -/
def storeEvent (pool : BlockPool) (request : Request) (blockHashes : List BlockHash)
    (newHashes : List ExternalBlockHash) (numCachedBlocks numFullBlocks blockSize : ℕ) :
    Except PyError BlockPool :=
  if pool.enableKvCacheEvents then do
    let parentBlockHash ← pool.parentBlockHash blockHashes numCachedBlocks
    let tokenIds := (request.allTokenIds.take (numFullBlocks * blockSize)).drop
      (numCachedBlocks * blockSize)
    let event := .blockStored newHashes parentBlockHash tokenIds blockSize
      (request.loraRequest.map LoRARequest.loraIntId)
      (request.loraRequest.map LoRARequest.loraName)
    return { pool with kvEventQueue := pool.kvEventQueue ++ [event] }
  else
    .ok pool

def cacheFullBlocks (pool : BlockPool) (request : Request) (blocks : List BlockRef)
    (numCachedBlocks numFullBlocks blockSize kvCacheGroupId : ℕ) : Except PyError BlockPool :=
  if numCachedBlocks ≥ numFullBlocks then
    .ok pool
  else do
    let newFullBlocks := (blocks.take numFullBlocks).drop numCachedBlocks
    pyAssert (request.blockHashes.length ≥ numFullBlocks)
      "len(request.block_hashes) >= num_full_blocks"
    let blockHashes ← pool.requestBlockHashes request blockSize
    let (newHashes, pool) ← cacheFullBlocksLoop kvCacheGroupId newFullBlocks
      (blockHashes.drop numCachedBlocks) pool
    pool.storeEvent request blockHashes newHashes numCachedBlocks numFullBlocks blockSize

/-- `_maybe_evict_cached_block`. -/
def maybeEvictCachedBlock (pool : BlockPool) (b : BlockRef) : Bool × BlockPool :=
  match pool.blockHash b with
  | none => (false, pool)
  | some blockHash =>
    match pool.cachedBlockHashToBlock.pop blockHash b with
    | (none, cache) => (false, { pool with cachedBlockHashToBlock := cache })
    | (some _, cache) =>
      let pool := { pool with cachedBlockHashToBlock := cache }.resetHash b
      if pool.enableKvCacheEvents then
        let event := .blockRemoved
          [maybeConvertBlockHash pool.useIntBlockHashes (getBlockHash blockHash)]
        (true, { pool with kvEventQueue := pool.kvEventQueue ++ [event] })
      else
        (true, pool)

/-- The loop of `get_new_blocks` over the popped blocks. -/
def getNewBlocksLoop : List BlockRef → BlockPool → Except PyError BlockPool
  | [], pool => .ok pool
  | block :: blocks, pool => do
    let pool := if pool.enableCaching then (pool.maybeEvictCachedBlock block).2 else pool
    pyAssert (pool.refCnt block = 0) "block.ref_cnt == 0"
    getNewBlocksLoop blocks (pool.setRefCnt block (pool.refCnt block + 1))

def getNewBlocks (pool : BlockPool) (numBlocks : ℤ) :
    Except PyError (List BlockRef × BlockPool) :=
  if numBlocks > pool.getNumFreeBlocks then
    .error (.valueError s!"Cannot get {numBlocks} free blocks from the pool")
  else do
    let (ret, freeBlockQueue) ← pool.freeBlockQueue.popleftN numBlocks
    let pool ← getNewBlocksLoop ret { pool with freeBlockQueue }
    return (ret, pool)

/-- The free queue without `block`, if `block` is an eviction candidate. -/
def removeIfFree (pool : BlockPool) (block : BlockRef) : Except PyError FreeKVCacheBlockQueue :=
  if pool.refCnt block = 0 ∧ block ≠ pool.nullBlock then
    pool.freeBlockQueue.remove block
  else
    .ok pool.freeBlockQueue

def touch (pool : BlockPool) : List BlockRef → Except PyError BlockPool
  | [] => .ok pool
  | block :: blocks => do
    let freeBlockQueue ← pool.removeIfFree block
    touch ({ pool with freeBlockQueue }.setRefCnt block (pool.refCnt block + 1)) blocks

/-- The first loop of `free_blocks`. -/
def decrRefCnts (pool : BlockPool) (blocks : List BlockRef) : BlockPool :=
  blocks.foldl (fun pool block => pool.setRefCnt block (pool.refCnt block - 1)) pool

def freeBlocks (pool : BlockPool) (orderedBlocks : List BlockRef) : Except PyError BlockPool := do
  let pool := pool.decrRefCnts orderedBlocks
  let freeBlockQueue ← pool.freeBlockQueue.appendN
    (orderedBlocks.filter fun block => pool.refCnt block = 0 ∧ block ≠ pool.nullBlock)
  return { pool with freeBlockQueue }

/-- `evict_blocks`; the iteration order of the set is that of the list. -/
def evictBlocks (pool : BlockPool) : List ℕ → Except PyError BlockPool
  | [] => .ok pool
  | blockId :: blockIds => do
    let numBlocks := pool.numGpuBlocks
    pyAssert (blockId < pool.numGpuBlocks)
      (s!"Invalid block_id {blockId} >= {numBlocks}. This indicates a bug in the KV connector - " ++
        "workers should only report block IDs that were allocated by the scheduler.")
    evictBlocks (pool.maybeEvictCachedBlock (.block blockId)).2 blockIds

def resetPrefixCache (pool : BlockPool) : Bool × BlockPool :=
  let numUsedBlocks : ℤ := pool.numGpuBlocks - pool.getNumFreeBlocks
  if numUsedBlocks ≠ 1 then
    (false, pool)
  else
    let pool := { pool with
      cachedBlockHashToBlock := ∅
      blocks := fun b =>
        if pool.IsBlock b then { pool.blocks b with blockHash := none } else pool.blocks b }
    if pool.enableKvCacheEvents then
      (true, { pool with kvEventQueue := pool.kvEventQueue ++ [.allBlocksCleared] })
    else
      (true, pool)

def takeEvents (pool : BlockPool) : List KVCacheEvent × BlockPool :=
  if pool.enableKvCacheEvents then
    (pool.kvEventQueue, { pool with kvEventQueue := [] })
  else
    ([], pool)

end BlockPool

end VllmRuntime
