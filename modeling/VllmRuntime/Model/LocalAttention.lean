import VllmRuntime.Model.AttentionBackends

/-! # Local attention

`make_local_attention_virtual_batches` of `vllm/v1/attention/backends/utils.py`. Lengths are natural numbers;
a request has at least one query token and at most as many as it has tokens. -/

namespace VllmRuntime

open Segments

/-- `array[mask] = values`. -/
def assignMask {α : Type} : List α → List Bool → List α → List α
  | _ :: xs, true :: mask, value :: values => value :: assignMask xs mask values
  | x :: xs, _ :: mask, values => x :: assignMask xs mask values
  | xs, _, _ => xs

/-- `block_table[batch_indices, block_indices]`. -/
def indexTable (blockTable : List (List ℕ)) (batchIndices blockIndices : List ℕ) : Option (List ℕ) :=
  (batchIndices.zip blockIndices).mapM fun index => blockTable[index.1]?.bind (·[index.2]?)

/-- `tensor.view(rows, -1)`, where the rows have this width. -/
def viewRows {α : Type} (flat : List α) (rows width : ℕ) : List (List α) :=
  (List.range rows).map fun i => (flat.drop (i * width)).take width

/-- `make_local_attention_virtual_batches`: the metadata, and the function that makes a local block table. -/
def makeLocalAttentionVirtualBatches (attnChunkSize : ℕ) (metadata : CommonAttentionMetadata) (blockSize : ℕ) :
    Except PyError (CommonAttentionMetadata × (List (List ℕ) → Option (List (List ℕ)))) := do
  let qSeqlens := List.zipWith (· - ·) metadata.queryStartLoc.tail metadata.queryStartLoc
  let seqLens := metadata.seqLens
  let actualBatchSize := seqLens.length
  let qTokensInFirstBlock :=
    List.zipWith (fun s q => min (attnChunkSize - (s - q) % attnChunkSize) q) seqLens qSeqlens
  -- the remainder of a negative divisor is not positive
  let tokensInLastBlock :=
    seqLens.map fun s : ℕ => ((attnChunkSize : ℤ) + Int.fmod s (-(attnChunkSize : ℤ))).toNat
  let localBlocks := List.zipWith (fun q first => 1 + cdiv (q - first) attnChunkSize) qSeqlens qTokensInFirstBlock
  let cuNumBlocks := cumsum localBlocks
  match cuNumBlocks.getLast? with
  | none => .error .indexError
  | some virtualBatches => do
    let blockOffsets := repeatEach (List.zipWith (· - ·) cuNumBlocks localBlocks) localBlocks
    let arange := List.zipWith (· - ·) (List.range virtualBatches) blockOffsets
    let rarange := List.zipWith (· - · - 1) (repeatEach localBlocks localBlocks) arange
    let seqlensQLocal := repeatEach (List.zipWith (· - ·) qSeqlens qTokensInFirstBlock) localBlocks
    let seqlensQLocal := assignMask seqlensQLocal (arange.map (· == 0)) qTokensInFirstBlock
    let seqlensQLocal := List.zipWith
      (fun i q => if 0 < i then min (q - attnChunkSize * (i - 1)) attnChunkSize else q) arange seqlensQLocal
    let cuSeqlensQLocal := 0 :: cumsum seqlensQLocal
    let seqlensKLocal := scatter (List.replicate virtualBatches attnChunkSize) (cuNumBlocks.map (· - 1))
      tokensInLastBlock
    let numComputedTokensLocal := List.zipWith (· - ·) seqlensKLocal seqlensQLocal
    let kSeqstartsAbsolute := List.zipWith (· - ·) (repeatEach seqLens localBlocks)
      (List.zipWith (· * attnChunkSize + ·) rarange (repeatEach tokensInLastBlock localBlocks))
    let blockStarts := kSeqstartsAbsolute.map (· / blockSize)
    pyAssert (attnChunkSize % blockSize = 0)
      s!"attn_chunk_size {attnChunkSize} is not divisible by block_size {blockSize}"
    let pagesPerLocalBatch := attnChunkSize / blockSize
    let width := (metadata.blockTable.head?.map (·.length)).getD 0
    let blockIndices := (blockStarts.flatMap fun start =>
      (List.range pagesPerLocalBatch).map (start + ·)).map (min · (width - 1))
    let batchIndices := repeatEach (List.range actualBatchSize) (localBlocks.map (· * pagesPerLocalBatch))
    let makeBlockTable blockTable := (indexTable blockTable batchIndices blockIndices).map fun flat =>
      viewRows flat virtualBatches pagesPerLocalBatch
    match makeBlockTable metadata.blockTable with
    | none => .error .indexError
    | some blockTableLocal =>
      return ({ queryStartLoc := cuSeqlensQLocal
                seqLens := seqlensKLocal
                numReqs := seqlensKLocal.length
                numActualTokens := metadata.numActualTokens
                maxQueryLen := seqlensQLocal.foldr max 0
                maxSeqLen := seqlensKLocal.foldr max 0
                blockTable := blockTableLocal
                slotMapping := metadata.slotMapping
                causal := true
                numComputedTokens := some numComputedTokensLocal }, makeBlockTable)

/-- The example of the source's comment. -/
example : (makeLocalAttentionVirtualBatches 4
      { queryStartLoc := [0, 4, 14, 19], seqLens := [6, 17, 9], numReqs := 3, numActualTokens := 19
        maxQueryLen := 10, maxSeqLen := 17, slotMapping := []
        blockTable := [[0, 1, 2, 3, 4, 5, 6, 7, 8, 9], [10, 11, 12, 13, 14, 15, 16, 17, 18, 19],
          [20, 21, 22, 23, 24, 25, 26, 27, 28, 29]] } 2).toOption.map
        (fun result => (result.1.queryStartLoc, result.1.seqLens, result.1.blockTable)) =
      some ([0, 2, 4, 5, 9, 13, 14, 18, 19], [4, 2, 4, 4, 4, 1, 4, 1],
        [[0, 1], [2, 3], [12, 13], [14, 15], [16, 17], [18, 19], [22, 23], [24, 25]]) := by
  decide

end VllmRuntime
