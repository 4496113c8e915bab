import VllmRuntime.Model.CacheHit

/-! # Coordinators of several KV cache groups

`vllm/v1/core/kv_cache_coordinator.py`. -/

namespace VllmRuntime

/-- `KVCacheConfig`, with the spec of each group. -/
structure KVCacheConfig where
  numBlocks : ℕ
  kvCacheGroups : List KVCacheSpec
  deriving DecidableEq, Repr

/-- An entry of `attention_groups`: a spec and the ids of the groups that use it. -/
structure AttentionGroup where
  spec : KVCacheSpec
  groupIds : List ℕ
  deriving DecidableEq, Repr

/-- The coordinator class. -/
inductive CoordinatorKind where
  | noPrefixCache
  | unitary (spec : KVCacheSpec)
  | hybrid (attentionGroups : List AttentionGroup) (lcmBlockSize : ℕ)
  deriving DecidableEq, Repr

structure KVCacheCoordinator where
  kind : CoordinatorKind
  maxModelLen : ℕ
  useEagle : Bool
  enableCaching : Bool
  dcpWorldSize : ℕ
  pcpWorldSize : ℕ
  hashBlockSize : ℕ
  blockPool : BlockPool
  singleTypeManagers : List SingleTypeKVCacheManager

/-! ## Construction -/

/-- Adds group `i` to the entry with its spec, or a new entry. -/
def addAttentionGroup : List AttentionGroup → KVCacheSpec → ℕ → List AttentionGroup
  | [], spec, i => [⟨spec, [i]⟩]
  | group :: groups, spec, i =>
    if group.spec = spec then
      { group with groupIds := group.groupIds ++ [i] } :: groups
    else
      group :: addAttentionGroup groups spec i

/-- The `attention_groups` in the order in which their specs first appear. -/
def splitKvCacheGroups (groups : List KVCacheSpec) : List AttentionGroup :=
  groups.zipIdx.foldl (fun acc p => addAttentionGroup acc p.1 p.2) []

/-- `sorted(attention_groups, key=lambda x: not isinstance(x[0], FullAttentionSpec))`. -/
def fullAttentionFirst (groups : List AttentionGroup) : List AttentionGroup :=
  groups.filter (fun g => g.spec.isFullAttention) ++
    groups.filter (fun g => !g.spec.isFullAttention)

def lcmBlockSize (groups : List AttentionGroup) : ℕ :=
  groups.foldl (fun acc g => Nat.lcm acc g.spec.blockSize) 1

/-- `UnitaryKVCacheCoordinator.block_size`. -/
def unitaryBlockSize (spec : KVCacheSpec) (dcpWorldSize pcpWorldSize : ℕ) : ℕ :=
  let blockSize := if dcpWorldSize > 1 then spec.blockSize * dcpWorldSize else spec.blockSize
  if pcpWorldSize > 1 then blockSize * pcpWorldSize else blockSize

/-- The managers of the groups from `i` on, each built on the pool the previous one left. -/
def newManagers (enableCaching : Bool) (dcpWorldSize pcpWorldSize : ℕ) :
    ℕ → List KVCacheSpec → BlockPool → Except PyError (List SingleTypeKVCacheManager × BlockPool)
  | _, [], pool => .ok ([], pool)
  | i, spec :: specs, pool => do
    let (m, pool) ← SingleTypeKVCacheManager.new spec pool enableCaching i dcpWorldSize
      pcpWorldSize
    let (ms, pool) ← newManagers enableCaching dcpWorldSize pcpWorldSize (i + 1) specs pool
    return (m :: ms, pool)

/-- The class-specific part of `get_kv_cache_coordinator`. -/
def coordinatorKind (groups : List KVCacheSpec) (enableCaching : Bool)
    (dcpWorldSize pcpWorldSize hashBlockSize : ℕ) : Except PyError CoordinatorKind :=
  match enableCaching, groups with
  | false, _ => .ok .noPrefixCache
  | true, [spec] => do
    pyAssert (hashBlockSize = unitaryBlockSize spec dcpWorldSize pcpWorldSize)
      "UnitaryKVCacheCoordinator assumes hash_block_size == block_size"
    return .unitary spec
  | true, groups => do
    pyAssert (groups.all fun spec => spec.blockSize % hashBlockSize = 0)
      "block_size must be divisible by hash_block_size"
    pyAssert (dcpWorldSize = 1) "DCP not support hybrid attn now."
    pyAssert (pcpWorldSize = 1) "PCP not support hybrid attn now."
    let attentionGroups := splitKvCacheGroups groups
    pyAssert (attentionGroups.length > 1)
      "HybridKVCacheCoordinator requires at least two attention groups."
    return .hybrid (fullAttentionFirst attentionGroups) (lcmBlockSize attentionGroups)

/-- The summand of one manager in the coordinator's `get_num_blocks_to_allocate`: for
cross-attention a single static allocation for the encoder tokens. -/
def SingleTypeKVCacheManager.estimate (m : SingleTypeKVCacheManager) (pool : BlockPool)
    (requestId : RequestId) (numTokens : ℕ) (newComputedBlocks : List BlockRef)
    (numEncoderTokens totalComputedTokens numTokensMainModel : ℕ) :
    Except PyError (ℤ × SingleTypeKVCacheManager) :=
  if m.kvCacheSpec.isCrossAttention then
    m.getNumBlocksToAllocate pool requestId numEncoderTokens [] 0 numEncoderTokens
  else
    m.getNumBlocksToAllocate pool requestId numTokens newComputedBlocks totalComputedTokens
      numTokensMainModel

namespace KVCacheCoordinator

/-- `get_kv_cache_coordinator`. -/
def new (config : KVCacheConfig) (maxModelLen : ℕ) (useEagle enableCaching enableKvCacheEvents : Bool)
    (useIntBlockHashes : Bool) (dcpWorldSize pcpWorldSize hashBlockSize : ℕ) :
    Except PyError KVCacheCoordinator := do
  let pool ← BlockPool.new config.numBlocks enableCaching hashBlockSize enableKvCacheEvents
    useIntBlockHashes
  let (singleTypeManagers, blockPool) ← newManagers enableCaching dcpWorldSize pcpWorldSize 0
    config.kvCacheGroups pool
  let kind ← coordinatorKind config.kvCacheGroups enableCaching dcpWorldSize pcpWorldSize
    hashBlockSize
  return { kind, maxModelLen, useEagle, enableCaching, dcpWorldSize, pcpWorldSize, hashBlockSize,
           blockPool, singleTypeManagers }

/-! ## Loops over the managers -/

/-- Runs `f` for each manager in turn, the pool passing from one to the next. -/
def forManagers {α : Type} (f : ℕ → SingleTypeKVCacheManager → BlockPool →
      Except PyError (α × SingleTypeKVCacheManager × BlockPool)) :
    ℕ → List SingleTypeKVCacheManager → BlockPool →
      Except PyError (List α × List SingleTypeKVCacheManager × BlockPool)
  | _, [], pool => .ok ([], [], pool)
  | i, m :: ms, pool => do
    let (a, m, pool) ← f i m pool
    let (as, ms, pool) ← forManagers f (i + 1) ms pool
    return (a :: as, m :: ms, pool)

/-- `forManagers` over the managers of the coordinator. -/
def overManagers {α : Type} (c : KVCacheCoordinator)
    (f : ℕ → SingleTypeKVCacheManager → BlockPool →
      Except PyError (α × SingleTypeKVCacheManager × BlockPool)) :
    Except PyError (List α × KVCacheCoordinator) := do
  let (as, singleTypeManagers, blockPool) ← forManagers f 0 c.singleTypeManagers c.blockPool
  return (as, { c with singleTypeManagers, blockPool })

def getNumBlocksToAllocate (c : KVCacheCoordinator) (requestId : RequestId) (numTokens : ℕ)
    (newComputedBlocks : List (List BlockRef))
    (numEncoderTokens totalComputedTokens numTokensMainModel : ℕ) :
    Except PyError (ℤ × KVCacheCoordinator) := do
  let (nums, c) ← c.overManagers fun i m pool => do
    let (num, m) ← m.estimate pool requestId numTokens (newComputedBlocks.getD i [])
      numEncoderTokens totalComputedTokens numTokensMainModel
    return (num, m, pool)
  return (nums.sum, c)

def allocateNewComputedBlocks (c : KVCacheCoordinator) (requestId : RequestId)
    (newComputedBlocks : List (List BlockRef))
    (numLocalComputedTokens numExternalComputedTokens : ℕ) :
    Except PyError KVCacheCoordinator := do
  let (_, c) ← c.overManagers fun i m pool => do
    let (m, pool) ← m.allocateNewComputedBlocks pool requestId (newComputedBlocks.getD i [])
      numLocalComputedTokens numExternalComputedTokens
    return ((), m, pool)
  return c

def allocateNewBlocks (c : KVCacheCoordinator) (requestId : RequestId)
    (numTokens numTokensMainModel numEncoderTokens : ℕ) :
    Except PyError (List (List BlockRef) × KVCacheCoordinator) :=
  c.overManagers fun _ m pool =>
    m.allocateNewBlocks pool requestId
      (if m.kvCacheSpec.isCrossAttention then numEncoderTokens else numTokens) numTokensMainModel

def cacheBlocks (c : KVCacheCoordinator) (request : Request) (numComputedTokens : ℕ) :
    Except PyError KVCacheCoordinator := do
  let (_, c) ← c.overManagers fun _ m pool => do
    let (m, pool) ← m.cacheBlocks pool request numComputedTokens
    return ((), m, pool)
  return c

def free (c : KVCacheCoordinator) (requestId : RequestId) : Except PyError KVCacheCoordinator := do
  let (_, c) ← c.overManagers fun _ m pool => do
    let (m, pool) ← m.free pool requestId
    return ((), m, pool)
  return c

def removeSkippedBlocks (c : KVCacheCoordinator) (requestId : RequestId)
    (totalComputedTokens : ℕ) : Except PyError KVCacheCoordinator := do
  let (_, c) ← c.overManagers fun _ m pool => do
    let (m, pool) ← m.removeSkippedBlocks pool requestId totalComputedTokens
    return ((), m, pool)
  return c

/-- `get_num_common_prefix_blocks`, one number for each group. -/
def getNumCommonPrefixBlocks (c : KVCacheCoordinator) (runningRequestId : RequestId) :
    List ℕ × KVCacheCoordinator :=
  match c.kind with
  | .noPrefixCache => (c.singleTypeManagers.map fun _ => 0, c)
  | _ =>
    let results := c.singleTypeManagers.map fun m =>
      m.getNumCommonPrefixBlocks c.blockPool runningRequestId
    (results.map Prod.fst, { c with singleTypeManagers := results.map Prod.snd })

def getBlocks (c : KVCacheCoordinator) (requestId : RequestId) : List (List BlockRef) :=
  c.singleTypeManagers.map fun m => m.blocksOf requestId

/-! ## Cache hits -/

/-- `_get_block_hashes` of the hybrid coordinator. -/
def blockHashesFor (c : KVCacheCoordinator) (blockHashes : List BlockHash) (spec : KVCacheSpec) :
    List BlockHash :=
  if spec.blockSize = c.hashBlockSize then blockHashes
  else blockHashListWithBlockSize blockHashes c.hashBlockSize spec.blockSize

/-- `hit_blocks_by_group`: `None` until a group has been looked up. -/
abbrev HitBlocks := List (Option (List BlockRef))

/-- `for group_id, blocks in zip(group_ids, hit_blocks)`. -/
def setHitBlocks (hits : HitBlocks) (groupIds : List ℕ) (hitBlocks : List (List BlockRef)) :
    HitBlocks :=
  (groupIds.zip hitBlocks).foldl (fun hits p => hits.set p.1 (some p.2)) hits

/-- The `for` loop of the hybrid `find_longest_cache_hit`: each attention type accepts the
current length or reduces it. -/
def hybridPass (c : KVCacheCoordinator) (blockHashes : List BlockHash) (lcmBlockSize : ℕ) :
    List AttentionGroup → ℕ → HitBlocks → Except PyError (ℕ × HitBlocks)
  | [], currHitLength, hits => .ok (currHitLength, hits)
  | group :: groups, currHitLength, hits =>
    let cached := (hits.getD (group.groupIds.headD 0) none).isSome
    if group.spec.isFullAttention && cached then
      -- Full attention: the blocks of the first lookup are reused.
      let numBlocks := currHitLength / group.spec.blockSize
      hybridPass c blockHashes lcmBlockSize groups (numBlocks * group.spec.blockSize) hits
    else do
      let hitBlocks ← findLongestCacheHit c.blockPool (c.blockHashesFor blockHashes group.spec)
        currHitLength group.groupIds group.spec c.useEagle lcmBlockSize 1 1
      hybridPass c blockHashes lcmBlockSize groups
        ((hitBlocks.headD []).length * group.spec.blockSize)
        (setHitBlocks hits group.groupIds hitBlocks)

/-- The `while True` loop of the hybrid `find_longest_cache_hit`. Each round but the last
lowers the length, so `hitLength + 1` rounds are enough. -/
def hybridLoop (c : KVCacheCoordinator) (blockHashes : List BlockHash)
    (attentionGroups : List AttentionGroup) (lcmBlockSize : ℕ) (isSimpleHybrid : Bool) :
    ℕ → ℕ → HitBlocks → Except PyError (ℕ × HitBlocks)
  | 0, hitLength, hits => .ok (hitLength, hits)
  | fuel + 1, hitLength, hits => do
    let (currHitLength, hits) ←
      hybridPass c blockHashes lcmBlockSize attentionGroups hitLength hits
    if currHitLength ≥ hitLength then
      return (hitLength, hits)
    else if isSimpleHybrid then
      return (currHitLength, hits)
    else
      hybridLoop c blockHashes attentionGroups lcmBlockSize isSimpleHybrid fuel currHitLength hits

/-- Truncates the blocks of the first attention type if it is full attention. -/
def truncateFullAttention (attentionGroups : List AttentionGroup) (hitLength : ℕ)
    (hits : HitBlocks) : HitBlocks :=
  match attentionGroups with
  | [] => hits
  | group :: _ =>
    if group.spec.isFullAttention then
      group.groupIds.foldl (fun hits groupId =>
        hits.modify groupId (Option.map (List.take (hitLength / group.spec.blockSize)))) hits
    else
      hits

/-- One full attention type and one other type: a single iteration is enough. -/
def isSimpleHybrid (attentionGroups : List AttentionGroup) : Bool :=
  attentionGroups.length = 2 && attentionGroups.head?.any fun group => group.spec.isFullAttention

/-- `HybridKVCacheCoordinator.find_longest_cache_hit`. -/
def hybridFindLongestCacheHit (c : KVCacheCoordinator) (attentionGroups : List AttentionGroup)
    (lcmBlockSize : ℕ) (blockHashes : List BlockHash) (maxCacheHitLength : ℕ) :
    Except PyError (List (List BlockRef) × ℕ) := do
  let (hitLength, hits) ← hybridLoop c blockHashes attentionGroups lcmBlockSize
    (isSimpleHybrid attentionGroups) (maxCacheHitLength + 1) maxCacheHitLength
    (List.replicate c.singleTypeManagers.length none)
  let hits := truncateFullAttention attentionGroups hitLength hits
  return (hits.map (Option.getD · []), hitLength)

def findLongestCacheHit (c : KVCacheCoordinator) (blockHashes : List BlockHash)
    (maxCacheHitLength : ℕ) : Except PyError (List (List BlockRef) × ℕ) :=
  match c.kind with
  | .noPrefixCache => .ok (c.singleTypeManagers.map fun _ => [], 0)
  | .unitary spec => do
    let blockSize := unitaryBlockSize spec c.dcpWorldSize c.pcpWorldSize
    let hitBlocks ← VllmRuntime.findLongestCacheHit c.blockPool blockHashes maxCacheHitLength [0]
      spec c.useEagle blockSize c.dcpWorldSize c.pcpWorldSize
    return (hitBlocks, (hitBlocks.headD []).length * blockSize)
  | .hybrid attentionGroups lcmBlockSize =>
    c.hybridFindLongestCacheHit attentionGroups lcmBlockSize blockHashes maxCacheHitLength

end KVCacheCoordinator

end VllmRuntime
