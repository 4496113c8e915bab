import VllmRuntime.Model.SingleTypeManager

/-! # Longest cache hits

`find_longest_cache_hit` of the manager classes. The tuple of block lists, one for each
group, is built row by row: a row has one block for each group. -/

namespace VllmRuntime

/-- The blocks of all groups at one index. -/
abbrev BlockRow := List BlockRef

/-- The block lists of the groups. -/
def columns (nullBlock : BlockRef) (numGroups : ℕ) (rows : List BlockRow) : List (List BlockRef) :=
  (List.range numGroups).map fun j => rows.map fun row => row.getD j nullBlock

/-- Pops entries until the length in tokens is a multiple of `alignmentTokens`. -/
def alignedLength (blockSize alignmentTokens : ℕ) : ℕ → ℕ
  | 0 => 0
  | n + 1 =>
    if blockSize ≠ alignmentTokens ∧ (n + 1) * blockSize % alignmentTokens ≠ 0 then
      alignedLength blockSize alignmentTokens n
    else
      n + 1

namespace CacheHit

variable (pool : BlockPool) (blockHashes : List BlockHash) (kvCacheGroupIds : List ℕ)

/-- The leading hashes whose blocks are cached for all groups. -/
def cachedPrefix : List BlockHash → List BlockRow
  | [] => []
  | blockHash :: rest =>
    match pool.getCachedBlock blockHash kvCacheGroupIds with
    | none => []
    | some row => row :: cachedPrefix rest

/-- `FullAttentionManager.find_longest_cache_hit`; `blockSize` includes context
parallelism. -/
def fullAttention (maxLength blockSize : ℕ) (useEagle : Bool) (alignmentTokens : ℕ) :
    List BlockRow :=
  let rows := cachedPrefix pool kvCacheGroupIds (blockHashes.take (maxLength / blockSize))
  -- Eagle recomputes the last matched block.
  let rows := if useEagle then rows.dropLast else rows
  rows.take (alignedLength blockSize alignmentTokens rows.length)

/-- The cached row of one index. -/
def rowAt (i : ℕ) : Option BlockRow :=
  blockHashes[i]?.bind fun blockHash => pool.getCachedBlock blockHash kvCacheGroupIds

/-- The right-to-left loop of `SlidingWindowManager.find_longest_cache_hit` over the indices
below its first argument: the rows, the number of contiguous hits and whether enough of them
were found. -/
def slidingWindowLoop (slidingWindowContiguousBlocks blockSize alignmentTokens : ℕ) :
    ℕ → ℕ → List BlockRow → List BlockRow × ℕ × Bool
  | 0, numContiguousBlocks, rows => (rows, numContiguousBlocks, false)
  | i + 1, numContiguousBlocks, rows =>
    match rowAt pool blockHashes kvCacheGroupIds i with
    | none => slidingWindowLoop slidingWindowContiguousBlocks blockSize alignmentTokens i 0 rows
    | some row =>
      if numContiguousBlocks = 0 ∧ blockSize ≠ alignmentTokens ∧
          (i + 1) * blockSize % alignmentTokens ≠ 0 then
        -- The hit would not end at an aligned position.
        slidingWindowLoop slidingWindowContiguousBlocks blockSize alignmentTokens i
          numContiguousBlocks rows
      else
        let rows := rows.set i row
        let numContiguousBlocks := numContiguousBlocks + 1
        if numContiguousBlocks ≥ slidingWindowContiguousBlocks then
          (rows.take (i + numContiguousBlocks), numContiguousBlocks, true)
        else
          slidingWindowLoop slidingWindowContiguousBlocks blockSize alignmentTokens i
            numContiguousBlocks rows

/-- The rows before the last one is dropped for eagle. -/
def slidingWindowRows (maxNumBlocks blockSize window : ℕ) (useEagle : Bool)
    (alignmentTokens : ℕ) : List BlockRow :=
  let slidingWindowContiguousBlocks :=
    cdiv (window - 1) blockSize + if useEagle then 1 else 0
  let nullRow := List.replicate kvCacheGroupIds.length pool.nullBlock
  let result := slidingWindowLoop pool blockHashes kvCacheGroupIds slidingWindowContiguousBlocks
    blockSize alignmentTokens maxNumBlocks 0 (List.replicate maxNumBlocks nullRow)
  if result.2.2 then
    result.1
  else
    let rows := result.1.take result.2.1
    rows.take (alignedLength blockSize alignmentTokens rows.length)

/-- `SlidingWindowManager.find_longest_cache_hit`. The scan starts at the last index, so
hashes that are too short show up at once. -/
def slidingWindow (maxLength blockSize window : ℕ) (useEagle : Bool) (alignmentTokens : ℕ) :
    Except PyError (List BlockRow) :=
  let maxNumBlocks := maxLength / blockSize
  if maxNumBlocks > blockHashes.length then
    .error .indexError
  else
    let rows := slidingWindowRows pool blockHashes kvCacheGroupIds maxNumBlocks blockSize window
      useEagle alignmentTokens
    if useEagle ∧ rows ≠ [] then do
      pyAssert (blockSize = alignmentTokens) "aligned_length is not compatible with eagle now"
      return rows.dropLast
    else
      .ok rows

/-- The loop of `ChunkedLocalAttentionManager.find_longest_cache_hit` over `count` indices
from `i` on. -/
def chunkedLocalLoop : ℕ → ℕ → Except PyError (List BlockRow)
  | 0, _ => .ok []
  | count + 1, i =>
    match blockHashes[i]? with
    | none => .error .indexError
    | some blockHash =>
      match pool.getCachedBlock blockHash kvCacheGroupIds with
      | none => .ok []
      | some row => do
        let rest ← chunkedLocalLoop count (i + 1)
        return row :: rest

/-- `ChunkedLocalAttentionManager.find_longest_cache_hit`. -/
def chunkedLocalAttention (maxLength blockSize attentionChunkSize alignmentTokens : ℕ) :
    Except PyError (List BlockRow) := do
  pyAssert (blockSize = alignmentTokens)
    ("KV cache groups with different block sizes are not compatible with " ++
      "chunked local attention now")
  let maxNumBlocks := maxLength / blockSize
  let localAttentionStartIdx := maxLength / attentionChunkSize * attentionChunkSize
  let localAttentionStartBlockIdx := localAttentionStartIdx / blockSize
  let nullRow := List.replicate kvCacheGroupIds.length pool.nullBlock
  let rest ← chunkedLocalLoop pool blockHashes kvCacheGroupIds
    (maxNumBlocks - localAttentionStartBlockIdx) localAttentionStartBlockIdx
  return List.replicate localAttentionStartBlockIdx nullRow ++ rest

/-- The right-to-left loop of `MambaManager.find_longest_cache_hit`. -/
def mambaLoop (blockSize alignmentTokens : ℕ) : ℕ → List BlockRow
  | 0 => []
  | i + 1 =>
    match rowAt pool blockHashes kvCacheGroupIds i with
    | none => mambaLoop blockSize alignmentTokens i
    | some row =>
      if blockSize ≠ alignmentTokens ∧ (i + 1) * blockSize % alignmentTokens ≠ 0 then
        mambaLoop blockSize alignmentTokens i
      else
        List.replicate i (List.replicate kvCacheGroupIds.length pool.nullBlock) ++ [row]

/-- `MambaManager.find_longest_cache_hit`. -/
def mamba (maxLength blockSize alignmentTokens : ℕ) : Except PyError (List BlockRow) :=
  let maxNumBlocks := maxLength / blockSize
  if maxNumBlocks > blockHashes.length then
    .error .indexError
  else
    .ok (mambaLoop pool blockHashes kvCacheGroupIds blockSize alignmentTokens maxNumBlocks)

/-- `find_longest_cache_hit` of the manager class that belongs to the spec, as rows. -/
def rows (maxLength : ℕ) (spec : KVCacheSpec) (useEagle : Bool)
    (alignmentTokens dcpWorldSize pcpWorldSize : ℕ) : Except PyError (List BlockRow) := do
  match spec with
  | .slidingWindow attention window =>
    pyAssert (dcpWorldSize = 1) "DCP not support sliding window attn now."
    pyAssert (pcpWorldSize = 1) "PCP not support sliding window attn now."
    slidingWindow pool blockHashes kvCacheGroupIds maxLength attention.blockSize window useEagle
      alignmentTokens
  | .chunkedLocalAttention attention chunkSize =>
    pyAssert (!useEagle) "Hybrid KV cache is not supported for eagle + chunked local attention."
    pyAssert (dcpWorldSize = 1) "DCP not support chunked local attn now."
    pyAssert (pcpWorldSize = 1) "PCP not support chunked local attn now."
    chunkedLocalAttention pool blockHashes kvCacheGroupIds maxLength attention.blockSize chunkSize
      alignmentTokens
  | .mamba mambaSpec =>
    pyAssert (dcpWorldSize = 1) "DCP not support mamba now."
    pyAssert (pcpWorldSize = 1) "PCP not support mamba now."
    mamba pool blockHashes kvCacheGroupIds maxLength mambaSpec.blockSize alignmentTokens
  | .crossAttention _ =>
    .error (.notImplementedError "CrossAttentionManager does not support caching")
  | spec =>
    let blockSize :=
      if dcpWorldSize * pcpWorldSize > 1 then spec.blockSize * (dcpWorldSize * pcpWorldSize)
      else spec.blockSize
    return fullAttention pool blockHashes kvCacheGroupIds maxLength blockSize useEagle
      alignmentTokens

end CacheHit

/-- `find_longest_cache_hit` of the manager class that belongs to the spec. -/
def findLongestCacheHit (pool : BlockPool) (blockHashes : List BlockHash) (maxLength : ℕ)
    (kvCacheGroupIds : List ℕ) (spec : KVCacheSpec) (useEagle : Bool)
    (alignmentTokens dcpWorldSize pcpWorldSize : ℕ) : Except PyError (List (List BlockRef)) := do
  let rows ← CacheHit.rows pool blockHashes kvCacheGroupIds maxLength spec useEagle
    alignmentTokens dcpWorldSize pcpWorldSize
  return columns pool.nullBlock kvCacheGroupIds.length rows

end VllmRuntime
