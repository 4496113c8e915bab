import VllmRuntime.Model.NixlRecv

/-! # What a read of the NIXL connector copies

`vllm/distributed/kv_transfer/kv_connector/v1/nixl_connector.py`: `_read_blocks` up to the transfer that it
posts, `get_mapped_blocks` and `_get_block_descs_ids`; `block_size_ratio` of `kv_connector/utils.py`. -/

namespace VllmRuntime.Nixl

/-- The fields of a worker that a read depends on. `dst_num_blocks` has the numbers of blocks of both engines. -/
structure ReadWorker where
  engineId : EngineId
  blockSize : ℕ
  numRegions : ℕ
  numLayers : ℕ
  blockWindowPerLayer : List (Option ℕ) := []
  dstNumBlocks : EngineId → Option ℕ
  remoteBlockSize : EngineId → Option ℕ

/-- The descriptors of a transfer. -/
structure BlockRead where
  localBlockDescsIds : List ℕ
  remoteBlockDescsIds : List ℕ
  deriving DecidableEq, Repr

/-- `get_mapped_blocks`. -/
def getMappedBlocks (blockIds : List ℕ) (blockSizeRatio : ℕ) : List ℕ :=
  blockIds.flatMap fun blockId => (List.range blockSizeRatio).map (blockId * blockSizeRatio + ·)

/-- `xs[-n:]`. -/
def pyLast {α : Type*} (xs : List α) (n : ℕ) : List α := if n = 0 then xs else xs.drop (xs.length - n)

namespace ReadWorker

variable (w : ReadWorker)

/-- `block_size_ratio_from_engine_id`. -/
def blockSizeRatioFromEngineId (engineId : EngineId) : Except PyError ℕ :=
  match w.remoteBlockSize engineId with
  | none => .error .keyError
  | some remoteBlockSize =>
    if w.blockSize % remoteBlockSize = 0 then .ok (w.blockSize / remoteBlockSize)
    else .error (.assertionError
      (s!"Local block size {w.blockSize} is not divisible " ++
        s!"by remote block size {remoteBlockSize} or vice versa."))

/-- The regions of a layer, or all of them. -/
def regionIds (layerIdx : Option ℕ) : Except PyError (List ℕ) :=
  match layerIdx with
  | none => .ok (List.range w.numRegions)
  | some layerIdx => do
    pyAssert (decide (layerIdx < w.numLayers)) ""
    if w.numLayers < w.numRegions then
      pyAssert (decide (2 * w.numLayers = w.numRegions)) ""
      return [2 * layerIdx, 2 * layerIdx + 1]
    else
      pyAssert (decide (w.numLayers = w.numRegions)) ""
      return [layerIdx]

/-- `_get_block_descs_ids`. -/
def getBlockDescsIds (engineId : EngineId) (blockIds : List ℕ) (layerIdx blockSizeRatio : Option ℕ) :
    Except PyError (List ℕ) := do
  let regionIds ← w.regionIds layerIdx
  match w.dstNumBlocks engineId with
  | none => .error .keyError
  | some numBlocks =>
    let numBlocks := numBlocks * blockSizeRatio.getD 1
    return regionIds.flatMap fun region => blockIds.map (region * numBlocks + ·)

/-- The local blocks of a read, in the block size of the remote engine. -/
def clipLocalBlocks (localBlockIds remoteBlockIds : List ℕ) (blockSizeRatio : ℕ) : List ℕ :=
  if 1 < blockSizeRatio then
    let localBlockIds := getMappedBlocks localBlockIds blockSizeRatio
    if remoteBlockIds.length < localBlockIds.length then localBlockIds.take remoteBlockIds.length else localBlockIds
  else localBlockIds

/-- The remote blocks of a read. -/
def clipRemoteBlocks (localBlockIds remoteBlockIds : List ℕ) : List ℕ :=
  if localBlockIds.length < remoteBlockIds.length then pyLast remoteBlockIds localBlockIds.length else remoteBlockIds

/-- The blocks of a layer: the last ones in its window, or all of them. -/
def windowBlocks (blockIds : List ℕ) : Option ℕ → List ℕ
  | none => blockIds
  | some blockWindow => pyLast blockIds blockWindow

/-- The descriptors of one layer, with its window. -/
def layerDescsIds (dstEngineId : EngineId) (localBlockIds remoteBlockIds : List ℕ) (blockSizeRatio : ℕ)
    (blockWindow : Option ℕ) (layerIdx : ℕ) : Except PyError (List ℕ × List ℕ) := do
  let layerLocalBlockIds := windowBlocks localBlockIds blockWindow
  let layerRemoteBlockIds := windowBlocks remoteBlockIds blockWindow
  -- The engines of the two calls are those of the source.
  let layerLocalDescIds ← w.getBlockDescsIds dstEngineId layerLocalBlockIds (some layerIdx) none
  let layerRemoteDescIds ← w.getBlockDescsIds w.engineId layerRemoteBlockIds (some layerIdx) (some blockSizeRatio)
  return (layerLocalDescIds, layerRemoteDescIds)

/-- The descriptors of the two lists of blocks. -/
def descsIds (dstEngineId : EngineId) (localBlockIds remoteBlockIds : List ℕ) (blockSizeRatio : ℕ) :
    Except PyError (List ℕ × List ℕ) :=
  if w.blockWindowPerLayer = [] then do
    let remoteBlockDescsIds ← w.getBlockDescsIds dstEngineId remoteBlockIds none none
    let localBlockDescsIds ← w.getBlockDescsIds w.engineId localBlockIds none (some blockSizeRatio)
    return (localBlockDescsIds, remoteBlockDescsIds)
  else do
    let descsLists ← w.blockWindowPerLayer.zipIdx.mapM fun layer =>
      w.layerDescsIds dstEngineId localBlockIds remoteBlockIds blockSizeRatio layer.1 layer.2
    return ((descsLists.map (·.1)).flatten, (descsLists.map (·.2)).flatten)

/-- `_read_blocks`; `none` if there is nothing to read and the remote worker is only notified. -/
def readBlocks (localBlockIds remoteBlockIds : List ℕ) (dstEngineId : EngineId) :
    Except PyError (Option BlockRead) := do
  let blockSizeRatio ← w.blockSizeRatioFromEngineId dstEngineId
  let localBlockIds := clipLocalBlocks localBlockIds remoteBlockIds blockSizeRatio
  if localBlockIds.length = 0 then return none
  pyAssert (decide (localBlockIds.length ≤ remoteBlockIds.length)) ""
  let remoteBlockIds := clipRemoteBlocks localBlockIds remoteBlockIds
  let (localBlockDescsIds, remoteBlockDescsIds) ← w.descsIds dstEngineId localBlockIds remoteBlockIds blockSizeRatio
  pyAssert (decide (localBlockDescsIds.length = remoteBlockDescsIds.length)) ""
  return some { localBlockDescsIds, remoteBlockDescsIds }

end ReadWorker

end VllmRuntime.Nixl
