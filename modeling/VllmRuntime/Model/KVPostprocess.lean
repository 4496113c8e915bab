import VllmRuntime.Model.Torch

/-! # Received KV cache blocks

The functions of `vllm/distributed/kv_transfer/kv_connector/utils.py` that bring blocks from a remote
instance with another block size or layout into the local layout. They update the cache in place. -/

namespace VllmRuntime

variable {α : Type}

/-- The last three of the four sizes of a shape. -/
def lastSizes : List ℕ → Except PyError (ℕ × ℕ × ℕ)
  | [_, a, b, c] => .ok (a, b, c)
  | _ => .error (.valueError "expected 3 values to unpack")

/-- `block_size // block_size_ratio`. -/
def divideBlockSize (blockSize blockSizeRatio : ℕ) : Except PyError ℕ :=
  if blockSizeRatio = 0 then .error .zeroDivisionError else .ok (blockSize / blockSizeRatio)

def kvPostprocessBlksizeOnReceive (cache : Tensor α) (indices : List ℕ) (blockSizeRatio : ℕ) :
    Except PyError (Tensor α) := do
  let blocksToUpdate ← cache.indexSelect indices
  -- use physical order
  let blocksToUpdate ← blocksToUpdate.permuteDims [0, 2, 1, 3]
  let (nKvHeads, blockSize, headSize) ← lastSizes blocksToUpdate.shape
  let remoteBlockSize ← divideBlockSize blockSize blockSizeRatio
  let nBlocks := blockSizeRatio
  let remoteBlocks ← blocksToUpdate.reshapeInfer [nBlocks, nKvHeads, remoteBlockSize, headSize]
  let permutedBlocks ← remoteBlocks.permuteDims [0, 2, 1, 3, 4]
  let permutedBlocks ← (permutedBlocks.flatten 2 3).permuteDims [0, 2, 1, 3]
  cache.indexCopy indices permutedBlocks

def kvPostprocessLayoutOnReceive (cache : Tensor α) (indices : List ℕ) :
    Except PyError (Tensor α) := do
  let blocksToUpdate ← cache.indexSelect indices
  let (blockSize, nKvHeads, headSize) ← lastSizes blocksToUpdate.shape
  let blocksToUpdate ← blocksToUpdate.reshapeInfer [nKvHeads, blockSize, headSize]
  let permutedBlocks ← blocksToUpdate.permuteDims [0, 2, 1, 3]
  cache.indexCopy indices permutedBlocks

def kvPostprocessBlksizeAndLayoutOnReceive (cache : Tensor α) (indices : List ℕ)
    (blockSizeRatio : ℕ) : Except PyError (Tensor α) := do
  let blocksToUpdate ← cache.indexSelect indices
  let (blockSize, nKvHeads, headSize) ← lastSizes blocksToUpdate.shape
  let remoteBlockSize ← divideBlockSize blockSize blockSizeRatio
  let nBlocks := blockSizeRatio
  let remoteBlocks ← blocksToUpdate.reshapeInfer [nBlocks, nKvHeads, remoteBlockSize, headSize]
  let permutedBlocks ← remoteBlocks.permuteDims [0, 1, 3, 2, 4]
  cache.indexCopy indices (permutedBlocks.flatten 1 2)

end VllmRuntime
