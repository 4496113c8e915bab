import VllmRuntime.Model.SchedulerUpdate
import VllmRuntime.Model.Offloading

/-! # Stores of the offloading connector

`OffloadingConnectorScheduler` of `offloading_connector.py`, as far as it decides which blocks of a request
are stored. The dictionaries of the connector have an independent entry for each request; this is the model of
one of them. -/

namespace VllmRuntime

/-- `itertools.islice`. -/
def islice {α : Type} (l : List α) (start : ℕ) (stop : Option ℕ) (step : ℕ) : List α :=
  (List.range l.length).filterMap fun k =>
    if stop.all (start + k * step < ·) then l[start + k * step]? else none

/-- The block sizes of an `OffloadingSpec`. -/
structure OffloadingSpec where
  gpuBlockSize : ℕ
  offloadedBlockSize : ℕ
  deriving DecidableEq, Repr

/-- What `OffloadingSpec.__init__` asserts, and that there are blocks. -/
structure OffloadingSpec.Valid (spec : OffloadingSpec) : Prop where
  pos : 0 < spec.offloadedBlockSize
  dvd : spec.offloadedBlockSize % spec.gpuBlockSize = 0

def OffloadingSpec.blockSizeFactor (spec : OffloadingSpec) : ℕ := spec.offloadedBlockSize / spec.gpuBlockSize

/-- `_get_block_hashes`. -/
def OffloadingSpec.getBlockHashes (spec : OffloadingSpec) (blockHashes : List BlockHash) (startIdx : ℕ)
    (endIdx : Option ℕ) : List BlockHash :=
  islice blockHashes (spec.blockSizeFactor * startIdx + spec.blockSizeFactor - 1)
    ((endIdx.filter (· ≠ 0)).map (spec.blockSizeFactor * ·)) spec.blockSizeFactor

/-- The entries of `OffloadingConnectorScheduler` for one request. -/
structure OffloadedRequest where
  requestBlockIds : List ℕ := []
  nextStoredBlockIdx : Option ℕ := none
  deriving DecidableEq, Repr

/-- The source and the destination of a transfer. -/
structure TransferSpec where
  src : List ℕ
  dst : List ℕ
  deriving DecidableEq, Repr

namespace OffloadedRequest

/-- `self._next_stored_block_idx.get(req_id, 0)`. -/
def startBlockIdx (c : OffloadedRequest) : ℕ := c.nextStoredBlockIdx.getD 0

/-- `update_state_after_alloc`: the hashes of the blocks to load and their destinations. -/
def updateStateAfterAlloc (spec : OffloadingSpec) (c : OffloadedRequest) (blockHashes : List BlockHash)
    (blockIds : List ℕ) (numComputedGpuBlocks numExternalTokens : ℕ) :
    Except PyError (Option (List BlockHash × List ℕ) × OffloadedRequest) :=
  let c := { c with requestBlockIds := [] }
  if numExternalTokens = 0 then
    .ok (none, c)
  else do
    let numComputedTokens := numComputedGpuBlocks * spec.gpuBlockSize
    let fullBlockTokens := numComputedTokens + numExternalTokens
    pyAssert (fullBlockTokens % spec.offloadedBlockSize = 0) "full_block_tokens % self.offloaded_block_size == 0"
    pyAssert ((numExternalTokens : ℤ) = ((blockIds.length : ℤ) - numComputedGpuBlocks) * spec.gpuBlockSize)
      "num_external_tokens == num_pending_gpu_blocks * self.gpu_block_size"
    let startBlockIdx := numComputedTokens / spec.offloadedBlockSize
    let numBlocks := fullBlockTokens / spec.offloadedBlockSize
    pyAssert (blockHashes.length / spec.blockSizeFactor ≥ numBlocks)
      "len(request.block_hashes) // self.block_size_factor >= num_blocks"
    return (some (spec.getBlockHashes blockHashes startBlockIdx (some numBlocks),
      blockIds.drop numComputedGpuBlocks), { c with nextStoredBlockIdx := some numBlocks })

/-- The blocks that the request has after this step. -/
def addBlockIds (c : OffloadedRequest) (newBlockIds : List ℕ) (preempted : Bool) : OffloadedRequest :=
  { c with requestBlockIds := (if preempted then [] else c.requestBlockIds) ++ newBlockIds }

/-- `num_blocks` of a request that is scheduled. -/
def numBlocks (spec : OffloadingSpec) (request : SchedRequest) (newTokens : ℤ) : ℤ :=
  (request.numComputedTokens + newTokens) / spec.offloadedBlockSize

/-- The GPU blocks of the new hashes that are stored. -/
def srcBlockIds (spec : OffloadingSpec) (blockIds : List ℕ) (blockHashesToStore : List BlockHash) :
    ℕ → List BlockHash → Except PyError (List ℕ)
  | _, [] => .ok []
  | offloadedBlockIdx, blkHash :: hashes => do
    let ids ← if blkHash ∉ blockHashesToStore then pure [] else
      (List.range spec.blockSizeFactor).mapM fun i =>
        match blockIds[offloadedBlockIdx * spec.blockSizeFactor + i]? with
        | none => .error .indexError
        | some blockId => .ok blockId
    let rest ← srcBlockIds spec blockIds blockHashesToStore (offloadedBlockIdx + 1) hashes
    return ids ++ rest

/-- The body of the loop of `_get_reqs_to_store`: what `prepare_store` is called with, the transfer, and
the entries of the request after that. The answers of `prepare_store` are a parameter. -/
def getReqToStore (spec : OffloadingSpec) (prepareStore : List BlockHash → Option PrepareStoreOutput)
    (c : OffloadedRequest) (request : SchedRequest) (newTokens : ℤ) (newBlockIds : List ℕ)
    (preempted : Bool) : Except PyError (Option (List BlockHash) × Option TransferSpec × OffloadedRequest) :=
  let c := c.addBlockIds newBlockIds preempted
  let numBlocks := numBlocks spec request newTokens
  if numBlocks - c.startBlockIdx ≤ 0 then
    .ok (none, none, c)
  else
    let newBlockHashes := spec.getBlockHashes request.base.blockHashes c.startBlockIdx (some numBlocks.toNat)
    match prepareStore newBlockHashes with
    | none => .ok (some newBlockHashes, none, c)
    | some storeOutput =>
      let c' := { c with nextStoredBlockIdx := some numBlocks.toNat }
      if storeOutput.blockHashesToStore.isEmpty then
        .ok (some newBlockHashes, none, c')
      else do
        let src ← srcBlockIds spec c.requestBlockIds storeOutput.blockHashesToStore c.startBlockIdx newBlockHashes
        return (some newBlockHashes, some { src, dst := storeOutput.storeSpec }, c')

end OffloadedRequest

end VllmRuntime
