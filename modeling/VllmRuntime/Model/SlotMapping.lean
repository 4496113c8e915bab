import VllmRuntime.Model.Base
import Mathlib.Data.Int.ModEq

/-! # Slots of the KV cache

`BlockTable.compute_slot_mapping` of `vllm/v1/worker/block_table.py`, with the sizes that the
constructors give to a table, and `get_dcp_local_seq_lens` of `vllm/v1/attention/backends/utils.py`. -/

namespace VllmRuntime

/-- The context-parallel groups of a worker. -/
structure ContextParallel where
  pcpWorldSize : ℕ
  pcpRank : ℕ
  dcpWorldSize : ℕ
  dcpRank : ℕ
  cpKvCacheInterleaveSize : ℕ
  deriving DecidableEq, Repr

namespace ContextParallel

def totalCpWorldSize (cp : ContextParallel) : ℕ := cp.pcpWorldSize * cp.dcpWorldSize

def totalCpRank (cp : ContextParallel) : ℕ := cp.pcpRank * cp.dcpWorldSize + cp.dcpRank

end ContextParallel

/-- The sizes of a block table. -/
structure BlockTableSizes where
  blockSize : ℕ
  blocksPerKvBlock : ℕ
  maxNumBlocksPerReq : ℕ
  deriving DecidableEq, Repr

/-- `BlockTable.__init__`, with the number of blocks that `MultiGroupBlockTable.__init__` gives. -/
def BlockTableSizes.new (blockSize kernelBlockSize maxModelLen totalCpWorldSize : ℕ) :
    Except PyError BlockTableSizes :=
  let maxNumBlocks := cdiv maxModelLen (blockSize * totalCpWorldSize)
  if kernelBlockSize = blockSize then .ok ⟨blockSize, 1, maxNumBlocks⟩
  else if blockSize % kernelBlockSize ≠ 0 then
    .error (.valueError
      s!"kernel_block_size {kernelBlockSize} must divide kv_manager_block_size size {blockSize} evenly")
  else
    let blocksPerKvBlock := blockSize / kernelBlockSize
    .ok ⟨kernelBlockSize, blocksPerKvBlock, maxNumBlocks * blocksPerKvBlock⟩

/-- The value of an array of `int32`. -/
def int32 (x : ℤ) : ℤ := Int.bmod x (2 ^ 32)

/-- `block_table.np.ravel()[index]`. -/
def ravel (width : ℕ) (table : ℕ → ℕ → ℕ) (index : ℕ) : ℕ := table (index / width) (index % width)

/-- One entry of the slot mapping. The table is an array of `int32`, so that the product with the block
size is one too; -1 stands for a token that is not local. -/
def slotOf (cp : ContextParallel) (sizes : BlockTableSizes) (table : ℕ → ℕ → ℕ) (reqIndex position : ℕ) : ℤ :=
  if 1 < cp.totalCpWorldSize then
    let virtualBlockSize := sizes.blockSize * cp.totalCpWorldSize
    let blockTableIndex := reqIndex * sizes.maxNumBlocksPerReq + position / virtualBlockSize
    let blockNumber := ravel sizes.maxNumBlocksPerReq table blockTableIndex
    let virtualBlockOffset := position % virtualBlockSize
    let mask := virtualBlockOffset / cp.cpKvCacheInterleaveSize % cp.totalCpWorldSize = cp.totalCpRank
    let blockOffset :=
      virtualBlockOffset / (cp.totalCpWorldSize * cp.cpKvCacheInterleaveSize) * cp.cpKvCacheInterleaveSize +
        virtualBlockOffset % cp.cpKvCacheInterleaveSize
    if mask then int32 (blockNumber * sizes.blockSize) + blockOffset else -1
  else
    let blockTableIndex := reqIndex * sizes.maxNumBlocksPerReq + position / sizes.blockSize
    let blockNumber := ravel sizes.maxNumBlocksPerReq table blockTableIndex
    let blockOffset := position % sizes.blockSize
    int32 (blockNumber * sizes.blockSize) + blockOffset

def computeSlotMapping (cp : ContextParallel) (sizes : BlockTableSizes) (table : ℕ → ℕ → ℕ)
    (reqIndices positions : List ℕ) : List ℤ :=
  List.zipWith (slotOf cp sizes table) reqIndices positions

/-- `get_dcp_local_seq_lens` of one sequence and one rank. -/
def getDcpLocalSeqLen (seqLen dcpSize dcpRank cpKvCacheInterleaveSize : ℕ) : ℤ :=
  let base : ℤ := seqLen / cpKvCacheInterleaveSize / dcpSize * cpKvCacheInterleaveSize
  let remainder : ℤ := seqLen - base * dcpSize
  let remainder := max 0 (min (cpKvCacheInterleaveSize : ℤ)
    (remainder - dcpRank * cpKvCacheInterleaveSize))
  base + remainder

end VllmRuntime
