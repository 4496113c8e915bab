import VllmRuntime.Model.Request
import VllmRuntime.Shared.Runs

/-! # Managers of offloaded blocks

`vllm/v1/kv_offload`: `CPUBackend`, which hands out the ids of CPU blocks, and the managers
`LRUOffloadingManager` and `ARCOffloadingManager`, which decide what is kept. A `LoadStoreSpec` is the
list of its block ids. -/

namespace VllmRuntime

/-- `CPUBlockStatus`. The counter is a `c_int32`: `-1` says that the block is not ready yet. -/
structure CPUBlockStatus where
  refCnt : BitVec 32 := -1
  blockId : ℕ
  deriving DecidableEq, Repr

def CPUBlockStatus.isReady (block : CPUBlockStatus) : Bool := 0 ≤ block.refCnt.toInt

structure OffloadingEvent where
  blockHashes : List BlockHash
  blockSize : ℕ
  medium : String
  removed : Bool
  deriving DecidableEq, Repr

structure PrepareStoreOutput where
  blockHashesToStore : List BlockHash
  storeSpec : List ℕ
  blockHashesEvicted : List BlockHash
  deriving DecidableEq, Repr

/-! ## The backend -/

structure CPUBackend where
  blockSize : ℕ
  medium : String := "CPU"
  numBlocks : ℕ
  numAllocatedBlocks : ℕ := 0
  allocatedBlocksFreeList : List ℕ := []
  deriving DecidableEq, Repr

namespace CPUBackend

def getNumFreeBlocks (backend : CPUBackend) : ℤ :=
  backend.allocatedBlocksFreeList.length + backend.numBlocks - backend.numAllocatedBlocks

/-- `allocate_blocks`: fresh ids first, then those at the end of the free list. -/
def allocateBlocks (backend : CPUBackend) (blockHashes : List BlockHash) :
    Except PyError (List CPUBlockStatus × CPUBackend) := do
  let numFreshBlocks := min blockHashes.length (backend.numBlocks - backend.numAllocatedBlocks)
  let numReusedBlocks := blockHashes.length - numFreshBlocks
  let freeList := backend.allocatedBlocksFreeList
  pyAssert (freeList.length ≥ numReusedBlocks)
    "len(self.allocated_blocks_free_list) >= num_reused_blocks"
  let fresh := List.range' backend.numAllocatedBlocks numFreshBlocks
  let reused := (freeList.drop (freeList.length - numReusedBlocks)).reverse
  return ((fresh ++ reused).map fun blockId => { blockId }, { backend with
    numAllocatedBlocks := backend.numAllocatedBlocks + numFreshBlocks
    allocatedBlocksFreeList := freeList.take (freeList.length - numReusedBlocks) })

def free (backend : CPUBackend) (block : CPUBlockStatus) : CPUBackend :=
  { backend with allocatedBlocksFreeList := backend.allocatedBlocksFreeList ++ [block.blockId] }

/-- Appends an event about blocks, if there are any and events are recorded. -/
def recordEvent (backend : CPUBackend) (events : Option (List OffloadingEvent))
    (blockHashes : List BlockHash) (removed : Bool) : Option (List OffloadingEvent) :=
  if blockHashes.isEmpty then events
  else events.map (· ++ [{ blockHashes, blockSize := backend.blockSize, medium := backend.medium, removed }])

end CPUBackend

/-- The calls of an `OffloadingManager`. -/
inductive OffloadingCall where
  | lookup (blockHashes : List BlockHash)
  | prepareLoad (blockHashes : List BlockHash)
  | touch (blockHashes : List BlockHash)
  | completeLoad (blockHashes : List BlockHash)
  | prepareStore (blockHashes : List BlockHash)
  | completeStore (blockHashes : List BlockHash) (success : Bool)
  | takeEvents
  deriving DecidableEq, Repr

/-! ## Least recently used -/

structure LRUOffloadingManager where
  backend : CPUBackend
  blocks : OrderedDict BlockHash CPUBlockStatus := []
  events : Option (List OffloadingEvent) := none
  deriving DecidableEq, Repr

namespace LRUOffloadingManager

def lookup (m : LRUOffloadingManager) (blockHashes : List BlockHash) : ℕ :=
  (blockHashes.takeWhile fun blockHash => (m.blocks.lookup blockHash).any (·.isReady)).length

/-- The body of the loop of `prepare_load`. -/
def loadBlock (m : LRUOffloadingManager) (blockHash : BlockHash) :
    Except PyError (ℕ × LRUOffloadingManager) :=
  match m.blocks.lookup blockHash with
  | none => .error .keyError
  | some block => do
    pyAssert block.isReady "block.is_ready"
    return (block.blockId, { m with
      blocks := dictSet m.blocks blockHash { block with refCnt := block.refCnt + 1 } })

def prepareLoad (m : LRUOffloadingManager) :
    List BlockHash → Except PyError (List ℕ × LRUOffloadingManager)
  | [] => .ok ([], m)
  | blockHash :: blockHashes => do
    let (blockId, m) ← m.loadBlock blockHash
    let (blockIds, m) ← m.prepareLoad blockHashes
    return (blockId :: blockIds, m)

def touchBlock (m : LRUOffloadingManager) (blockHash : BlockHash) : LRUOffloadingManager :=
  { m with blocks := (dictMoveToEnd m.blocks blockHash).getD m.blocks }

def touch (m : LRUOffloadingManager) (blockHashes : List BlockHash) : LRUOffloadingManager :=
  blockHashes.reverse.foldl touchBlock m

/-- The body of the loop of `complete_load`. -/
def unloadBlock (m : LRUOffloadingManager) (blockHash : BlockHash) :
    Except PyError LRUOffloadingManager :=
  match m.blocks.lookup blockHash with
  | none => .error .keyError
  | some block => do
    pyAssert (0 < block.refCnt.toInt) "block.ref_cnt > 0"
    return { m with
      blocks := dictSet m.blocks blockHash { block with refCnt := block.refCnt - 1 } }

def completeLoad (m : LRUOffloadingManager) (blockHashes : List BlockHash) :
    Except PyError LRUOffloadingManager :=
  blockHashes.foldlM unloadBlock m

/-- The loop that builds the list of blocks to evict; `none` if there are not enough. -/
def toEvict : OrderedDict BlockHash CPUBlockStatus → ℕ → Option (List BlockHash)
  | _, 0 => some []
  | [], _ + 1 => none
  | (blockHash, block) :: blocks, n + 1 =>
    if block.refCnt = 0 then (toEvict blocks n).map (blockHash :: ·) else toEvict blocks (n + 1)

/-- `self.backend.free(self.blocks.pop(block_hash))`. -/
def evictBlock (m : LRUOffloadingManager) (blockHash : BlockHash) :
    Except PyError LRUOffloadingManager :=
  match m.blocks.lookup blockHash with
  | none => .error .keyError
  | some block => .ok { m with
      backend := m.backend.free block
      blocks := dictPop m.blocks blockHash }

def prepareStore (m : LRUOffloadingManager) (blockHashes : List BlockHash) :
    Except PyError (Option PrepareStoreOutput × LRUOffloadingManager) :=
  let blockHashesToStore := blockHashes.filter fun blockHash => blockHash ∉ m.blocks.map Prod.fst
  let numBlocksToEvict := (blockHashesToStore.length - m.backend.getNumFreeBlocks).toNat
  match toEvict m.blocks numBlocksToEvict with
  | none => .ok (none, m)
  | some evicted => do
    let m ← evicted.foldlM evictBlock m
    let events := m.backend.recordEvent m.events evicted true
    let (blocks, backend) ← m.backend.allocateBlocks blockHashesToStore
    pyAssert (blocks.length = blockHashesToStore.length)
      "len(blocks) == len(block_hashes_to_store)"
    return (some {
        blockHashesToStore
        storeSpec := blocks.map (·.blockId)
        blockHashesEvicted := evicted },
      { backend, events
        blocks := (blockHashesToStore.zip blocks).foldl (fun d e => dictSet d e.1 e.2) m.blocks })

/-- The body of the loop of `complete_store` after a success: the hash, if it was stored now. -/
def storeBlock (m : LRUOffloadingManager) (blockHash : BlockHash) :
    Except PyError (List BlockHash × LRUOffloadingManager) :=
  match m.blocks.lookup blockHash with
  | none => .error .keyError
  | some block =>
    if block.isReady then .ok ([], m)
    else .ok ([blockHash], { m with
      blocks := dictSet m.blocks blockHash { block with refCnt := 0 } })

def storeBlocks (m : LRUOffloadingManager) :
    List BlockHash → Except PyError (List BlockHash × LRUOffloadingManager)
  | [] => .ok ([], m)
  | blockHash :: blockHashes => do
    let (stored, m) ← m.storeBlock blockHash
    let (rest, m) ← m.storeBlocks blockHashes
    return (stored ++ rest, m)

/-- The body of the loop of `complete_store` after a failure. -/
def dropBlock (m : LRUOffloadingManager) (blockHash : BlockHash) :
    Except PyError LRUOffloadingManager :=
  match m.blocks.lookup blockHash with
  | none => .error .keyError
  | some block =>
    if block.isReady then .ok m
    else .ok { m with
      backend := m.backend.free block
      blocks := dictPop m.blocks blockHash }

def completeStore (m : LRUOffloadingManager) (blockHashes : List BlockHash) (success : Bool) :
    Except PyError LRUOffloadingManager :=
  if success then do
    let (stored, m) ← m.storeBlocks blockHashes
    return { m with events := m.backend.recordEvent m.events stored false }
  else
    blockHashes.foldlM dropBlock m

def takeEvents (m : LRUOffloadingManager) : List OffloadingEvent × LRUOffloadingManager :=
  (m.events.getD [], { m with events := m.events.map fun _ => [] })

/-- The state after a call. -/
def run : OffloadingCall → LRUOffloadingManager → Except PyError LRUOffloadingManager
  | .lookup _, m => .ok m
  | .prepareLoad blockHashes, m => do
    let (_, m) ← m.prepareLoad blockHashes
    return m
  | .touch blockHashes, m => .ok (m.touch blockHashes)
  | .completeLoad blockHashes, m => m.completeLoad blockHashes
  | .prepareStore blockHashes, m => do
    let (_, m) ← m.prepareStore blockHashes
    return m
  | .completeStore blockHashes success, m => m.completeStore blockHashes success
  | .takeEvents, m => .ok m.takeEvents.2

end LRUOffloadingManager

/-! ## Adaptive replacement -/

/-- `target_t1_size` is a float: a sum or a quotient is the exact one, rounded. How floats are rounded
is a parameter. -/
structure ARCOffloadingManager where
  backend : CPUBackend
  targetT1Size : ℚ := 0
  t1 : OrderedDict BlockHash CPUBlockStatus := []
  t2 : OrderedDict BlockHash CPUBlockStatus := []
  b1 : OrderedDict BlockHash Unit := []
  b2 : OrderedDict BlockHash Unit := []
  events : Option (List OffloadingEvent) := none
  cacheCapacity : ℤ
  deriving DecidableEq, Repr

namespace ARCOffloadingManager

/-- `ARCOffloadingManager.__init__`. -/
def new (backend : CPUBackend) (enableEvents : Bool) : ARCOffloadingManager where
  backend := backend
  events := if enableEvents then some [] else none
  cacheCapacity := backend.getNumFreeBlocks

/-- `self.t1.get(block_hash) or self.t2.get(block_hash)`. -/
def getBlock (m : ARCOffloadingManager) (blockHash : BlockHash) : Option CPUBlockStatus :=
  (m.t1.lookup blockHash).or (m.t2.lookup blockHash)

/-- Changes the status of a block that is in one of the two caches. -/
def setBlock (m : ARCOffloadingManager) (blockHash : BlockHash) (block : CPUBlockStatus) :
    ARCOffloadingManager :=
  if blockHash ∈ m.t1.map Prod.fst then { m with t1 := dictSet m.t1 blockHash block }
  else { m with t2 := dictSet m.t2 blockHash block }

def lookup (m : ARCOffloadingManager) (blockHashes : List BlockHash) : ℕ :=
  (blockHashes.takeWhile fun blockHash => (m.getBlock blockHash).any (·.isReady)).length

/-- The body of the loop of `prepare_load`. -/
def loadBlock (m : ARCOffloadingManager) (blockHash : BlockHash) :
    Except PyError (ℕ × ARCOffloadingManager) :=
  match m.getBlock blockHash with
  | none => .error (.assertionError "Block \x7bblock_hash!r\x7d not found in cache")
  | some block => do
    pyAssert block.isReady "Block \x7bblock_hash!r\x7d is not ready for reading"
    return (block.blockId, m.setBlock blockHash { block with refCnt := block.refCnt + 1 })

def prepareLoad (m : ARCOffloadingManager) :
    List BlockHash → Except PyError (List ℕ × ARCOffloadingManager)
  | [] => .ok ([], m)
  | blockHash :: blockHashes => do
    let (blockId, m) ← m.loadBlock blockHash
    let (blockIds, m) ← m.prepareLoad blockHashes
    return (blockId :: blockIds, m)

/-- The body of the loop of `complete_load`. -/
def unloadBlock (m : ARCOffloadingManager) (blockHash : BlockHash) :
    Except PyError ARCOffloadingManager :=
  match m.getBlock blockHash with
  | none => .error (.assertionError "Block \x7bblock_hash!r\x7d not found")
  | some block => do
    pyAssert (0 < block.refCnt.toInt) "Block \x7bblock_hash!r\x7d ref_cnt is already 0"
    return m.setBlock blockHash { block with refCnt := block.refCnt - 1 }

def completeLoad (m : ARCOffloadingManager) (blockHashes : List BlockHash) :
    Except PyError ARCOffloadingManager :=
  blockHashes.foldlM unloadBlock m

section Touch

variable (round : ℚ → ℚ)

/-- `max(1, a / b)`. -/
def ghostDelta (a b : OrderedDict BlockHash Unit) : ℚ := max 1 (round (a.length / b.length))

/-- The body of the loop of `touch`. -/
def touchBlock (m : ARCOffloadingManager) (blockHash : BlockHash) :
    Except PyError ARCOffloadingManager :=
  match m.t1.lookup blockHash with
  | some block =>
    let m := { m with t1 := dictPop m.t1 blockHash }
    if !block.isReady then
      match dictMoveToEnd m.t1 blockHash with
      | none => .error .keyError
      | some t1 => .ok { m with t1 }
    else
      .ok { m with t2 := dictSet m.t2 blockHash block }
  | none =>
    match dictMoveToEnd m.t2 blockHash with
    | some t2 => .ok { m with t2 }
    | none =>
      match dictMoveToEnd m.b1 blockHash with
      | some b1 => .ok { m with
          targetT1Size :=
            min (round (m.targetT1Size + ghostDelta round m.b2 m.b1)) m.cacheCapacity
          b1 }
      | none =>
        match dictMoveToEnd m.b2 blockHash with
        | some b2 => .ok { m with
            targetT1Size := max (round (m.targetT1Size - ghostDelta round m.b1 m.b2)) 0
            b2 }
        | none => .ok m

def touch (m : ARCOffloadingManager) (blockHashes : List BlockHash) :
    Except PyError ARCOffloadingManager :=
  blockHashes.reverse.foldlM (touchBlock round) m

end Touch

/-- `int(x)`. -/
def pyInt (x : ℚ) : ℤ := if x < 0 then ⌈x⌉ else ⌊x⌋

/-- The oldest block that is not in use. -/
def oldestUnused (t : OrderedDict BlockHash CPUBlockStatus) : Option (BlockHash × CPUBlockStatus) :=
  t.find? fun e => e.2.refCnt = 0

/-- The block to evict next, and whether it is taken from `t1`. -/
def blockToEvict (m : ARCOffloadingManager) : Option (Bool × BlockHash × CPUBlockStatus) :=
  match if m.t1.length ≥ pyInt m.targetT1Size then oldestUnused m.t1 else none with
  | some e => some (true, e)
  | none => (oldestUnused m.t2).map fun e => (false, e)

/-- Moves a block to its ghost list and frees it. -/
def evictBlock (m : ARCOffloadingManager) (fromT1 : Bool) (blockHash : BlockHash)
    (block : CPUBlockStatus) : ARCOffloadingManager :=
  let m := { m with backend := m.backend.free block }
  if fromT1 then { m with t1 := dictPop m.t1 blockHash, b1 := dictSet m.b1 blockHash () }
  else { m with t2 := dictPop m.t2 blockHash, b2 := dictSet m.b2 blockHash () }

/-- The `while` loop of `prepare_store`: the blocks that were evicted, unless there were not enough,
and the manager with what was evicted until then. -/
def evictLoop : ℕ → ARCOffloadingManager → Option (List BlockHash) × ARCOffloadingManager
  | 0, m => (some [], m)
  | n + 1, m =>
    match m.blockToEvict with
    | none => (none, m)
    | some (fromT1, blockHash, block) =>
      let (evicted, m) := evictLoop n (m.evictBlock fromT1 blockHash block)
      (evicted.map (blockHash :: ·), m)

/-- Drops the oldest entries of a ghost list that is too long. -/
def trimGhosts (m : ARCOffloadingManager) (b : OrderedDict BlockHash Unit) :
    OrderedDict BlockHash Unit :=
  b.drop (b.length - m.cacheCapacity).toNat

/-- Inserts a new block into `t1`, and removes it from the ghost lists. -/
def insertBlock (m : ARCOffloadingManager) (e : BlockHash × CPUBlockStatus) : ARCOffloadingManager :=
  { m with
    t1 := dictSet m.t1 e.1 e.2
    b1 := dictPop m.b1 e.1
    b2 := dictPop m.b2 e.1 }

def prepareStore (m : ARCOffloadingManager) (blockHashes : List BlockHash) :
    Except PyError (Option PrepareStoreOutput × ARCOffloadingManager) :=
  let blockHashesToStore := blockHashes.filter fun blockHash =>
    blockHash ∉ m.t1.map Prod.fst ∧ blockHash ∉ m.t2.map Prod.fst
  if blockHashesToStore.isEmpty then
    .ok (some { blockHashesToStore := [], storeSpec := [], blockHashesEvicted := [] }, m)
  else
    match evictLoop (blockHashesToStore.length - m.backend.getNumFreeBlocks).toNat m with
    | (none, m) => .ok (none, m)
    | (some evicted, m) => do
      let m := { m with b1 := m.trimGhosts m.b1, b2 := m.trimGhosts m.b2 }
      let events := m.backend.recordEvent m.events evicted true
      let (blocks, backend) ← m.backend.allocateBlocks blockHashesToStore
      pyAssert (blocks.length = blockHashesToStore.length)
        "Backend did not allocate the expected number of blocks"
      return (some {
          blockHashesToStore
          storeSpec := blocks.map (·.blockId)
          blockHashesEvicted := evicted },
        (blockHashesToStore.zip blocks).foldl insertBlock { m with backend, events })

/-- The body of the loop of `complete_store` after a success. -/
def storeBlock (m : ARCOffloadingManager) (blockHash : BlockHash) : ARCOffloadingManager :=
  match m.getBlock blockHash with
  | none => m
  | some block => if block.isReady then m else m.setBlock blockHash { block with refCnt := 0 }

/-- The hash was stored now. -/
def isStored (m : ARCOffloadingManager) (blockHash : BlockHash) : Bool :=
  (m.getBlock blockHash).any fun block => !block.isReady

def storeBlocks (m : ARCOffloadingManager) : List BlockHash → List BlockHash × ARCOffloadingManager
  | [] => ([], m)
  | blockHash :: blockHashes =>
    let (rest, m') := (m.storeBlock blockHash).storeBlocks blockHashes
    (if m.isStored blockHash then blockHash :: rest else rest, m')

/-- The body of the loop of `complete_store` after a failure. -/
def dropBlock (m : ARCOffloadingManager) (blockHash : BlockHash) : ARCOffloadingManager :=
  let dropped := if blockHash ∈ m.t1.map Prod.fst then { m with t1 := dictPop m.t1 blockHash }
    else { m with t2 := dictPop m.t2 blockHash }
  match m.getBlock blockHash with
  | none => dropped
  | some block => if block.isReady then dropped
      else { dropped with backend := m.backend.free block }

def completeStore (m : ARCOffloadingManager) (blockHashes : List BlockHash) (success : Bool) :
    ARCOffloadingManager :=
  if success then
    let (stored, m) := m.storeBlocks blockHashes
    { m with events := m.backend.recordEvent m.events stored false }
  else
    blockHashes.foldl dropBlock m

def takeEvents (m : ARCOffloadingManager) : List OffloadingEvent × ARCOffloadingManager :=
  (m.events.getD [], { m with events := m.events.map fun _ => [] })

/-- The state after a call. -/
def run (round : ℚ → ℚ) :
    OffloadingCall → ARCOffloadingManager → Except PyError ARCOffloadingManager
  | .lookup _, m => .ok m
  | .prepareLoad blockHashes, m => do
    let (_, m) ← m.prepareLoad blockHashes
    return m
  | .touch blockHashes, m => m.touch round blockHashes
  | .completeLoad blockHashes, m => m.completeLoad blockHashes
  | .prepareStore blockHashes, m => do
    let (_, m) ← m.prepareStore blockHashes
    return m
  | .completeStore blockHashes success, m => .ok (m.completeStore blockHashes success)
  | .takeEvents, m => .ok m.takeEvents.2

end ARCOffloadingManager

end VllmRuntime
