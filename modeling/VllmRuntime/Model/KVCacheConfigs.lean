import VllmRuntime.Model.Coordinator

/-! # KV cache configurations

The part of `vllm/v1/core/kv_cache_utils.py` that sizes the KV cache of a model whose layers all
have a `FullAttentionSpec`. Log messages are left out, and `num_gpu_blocks_override` is not set. -/

namespace VllmRuntime

/-- The settings of `VllmConfig` that are read here. -/
structure CacheSettings where
  maxModelLen : ℕ
  /-- `original_max_model_len == -1`. -/
  autoFit : Bool := false
  dcpWorldSize : ℕ := 1
  pcpWorldSize : ℕ := 1
  disableHybridKvCacheManager : Bool := false
  deriving DecidableEq, Repr

/-- `a // b`. -/
def floorDiv (a : ℤ) (b : ℕ) : Except PyError ℤ :=
  if b = 0 then .error .zeroDivisionError else .ok (a / b)

/-- `cdiv(a, b)`, which divides. -/
def checkedCdiv (a b : ℕ) : Except PyError ℕ :=
  if b = 0 then .error .zeroDivisionError else .ok (cdiv a b)

/-! ## Specs of layers -/

namespace FullAttentionSpec

def realPageSizeBytes (spec : FullAttentionSpec) : ℕ :=
  spec.blockSize * spec.numKvHeads * (spec.headSize + spec.headSizeV) * spec.dtype.itemsize

def pageSizeBytes (spec : FullAttentionSpec) : Except PyError ℕ :=
  match spec.pageSizePadded with
  | none => .ok spec.realPageSizeBytes
  | some pageSizePadded => do
    pyAssert (pageSizePadded ≥ spec.realPageSizeBytes) "self.page_size_padded >= real_page_size"
    return pageSizePadded

def maxMemoryUsageBytes (settings : CacheSettings) (spec : FullAttentionSpec) :
    Except PyError ℕ := do
  let worldSize := settings.dcpWorldSize * settings.pcpWorldSize
  let maxModelLen := if worldSize > 1 then cdiv settings.maxModelLen worldSize
    else settings.maxModelLen
  let numBlocks ← checkedCdiv maxModelLen spec.blockSize
  let pageSize ← spec.pageSizeBytes
  return numBlocks * pageSize

/-- `merge_window_sizes`, of the sizes with repetitions. -/
def mergeWindowSizes (windowSizes : List ℕ) : Except PyError (Option ℕ) :=
  match windowSizes.eraseDups with
  | [] => .ok none
  | [size] => .ok (some size)
  | _ => .error (.valueError
      "All attention layers in the same KV cache group must have the same window size.")

/-- `FullAttentionSpec.merge`. The value head size is not compared. -/
def merge (specs : List FullAttentionSpec) : Except PyError FullAttentionSpec :=
  match specs with
  | [] => .error .indexError
  | first :: _ => do
    let slidingWindow ← mergeWindowSizes (specs.filterMap (·.slidingWindow))
    let attentionChunkSize ← mergeWindowSizes (specs.filterMap (·.attentionChunkSize))
    let mergedSpec := { first with slidingWindow, attentionChunkSize }
    pyAssert (specs.all fun spec => spec.toAttentionSpec = mergedSpec.toAttentionSpec)
      "All attention layers in the same KV cache group must have the same attention spec."
    pyAssert (slidingWindow.isNone || attentionChunkSize.isNone)
      ("Model with both sliding window layers and chunked local attention " ++
        "layers is not supported.")
    return mergedSpec

end FullAttentionSpec

/-- The specs of the layers by name, in insertion order. -/
abbrev LayerSpecs := List (String × FullAttentionSpec)

/-- The spec of a group: one for all its layers, or `UniformTypeKVCacheSpecs`. -/
inductive GroupSpec where
  | merged (spec : FullAttentionSpec)
  | uniformType (blockSize : ℕ) (kvCacheSpecs : LayerSpecs)
  deriving DecidableEq, Repr

structure KVCacheGroupSpec where
  layerNames : List String
  kvCacheSpec : GroupSpec
  deriving DecidableEq, Repr

namespace GroupSpec

def blockSize : GroupSpec → ℕ
  | merged spec => spec.blockSize
  | uniformType blockSize _ => blockSize

def pageSizeBytes : GroupSpec → Except PyError ℕ
  | merged spec => spec.pageSizeBytes
  | uniformType _ specs => do
    let pageSizes ← specs.mapM fun layer => layer.2.pageSizeBytes
    return pageSizes.sum

def maxMemoryUsageBytes (settings : CacheSettings) : GroupSpec → Except PyError ℕ
  | merged spec => spec.maxMemoryUsageBytes settings
  | uniformType blockSize specs => do
    let numPages ← specs.mapM fun layer => do
      let usage ← layer.2.maxMemoryUsageBytes settings
      let pageSize ← layer.2.pageSizeBytes
      checkedCdiv usage pageSize
    let pageSize ← (uniformType blockSize specs).pageSizeBytes
    match numPages.max? with
    | none => .error (.valueError "max() arg is an empty sequence")
    | some maxNumPages => return maxNumPages * pageSize

end GroupSpec

/-! ## Groups of layers -/

/-- `is_kv_cache_spec_uniform`: only a failed assertion means that the specs differ. -/
def isKvCacheSpecUniform (kvCacheSpec : LayerSpecs) : Except PyError Bool :=
  if kvCacheSpec.isEmpty then
    .ok true
  else
    match FullAttentionSpec.merge (kvCacheSpec.map Prod.snd) with
    | .ok _ => .ok true
    | .error (.assertionError _) => .ok false
    | .error e => .error e

/-- `UniformTypeKVCacheSpecs.is_uniform_type`: all layers are full attention, so only their block
sizes are compared. -/
def isUniformType (kvCacheSpec : LayerSpecs) : Bool :=
  kvCacheSpec.all fun layer => kvCacheSpec.all fun layer' => layer.2.blockSize = layer'.2.blockSize

/-- `UniformTypeKVCacheSpecs.from_specs`. -/
def uniformTypeFromSpecs (kvCacheSpec : LayerSpecs) : Option GroupSpec :=
  match kvCacheSpec with
  | [] => none
  | layer :: _ =>
    if isUniformType kvCacheSpec then some (.uniformType layer.2.blockSize kvCacheSpec) else none

/-- `unify_hybrid_kv_cache_specs`: there are no layers to convert. -/
def unifyHybridKvCacheSpecs (kvCacheSpec : LayerSpecs) : Except PyError Unit := do
  if (← isKvCacheSpecUniform kvCacheSpec) || isUniformType kvCacheSpec then
    return ()
  else
    .error (.valueError ("Hybrid KV cache manager is disabled but failed to " ++
      "convert the KV cache specs to one unified type."))

/-- `create_kv_cache_group_specs`. -/
def createKvCacheGroupSpecs (kvCacheSpec : LayerSpecs) (groupedLayerNames : List (List String)) :
    Except PyError (List KVCacheGroupSpec) :=
  groupedLayerNames.mapM fun layerNames => do
    let spec ← FullAttentionSpec.merge (layerNames.filterMap fun name => kvCacheSpec.lookup name)
    return ⟨layerNames, .merged spec⟩

/-- `unify_kv_cache_spec_page_size`. -/
def unifyKvCacheSpecPageSize (kvCacheSpec : LayerSpecs) : Except PyError LayerSpecs := do
  let pageSizes ← kvCacheSpec.mapM fun layer => layer.2.pageSizeBytes
  if pageSizes.eraseDups.length ≤ 1 then
    return kvCacheSpec
  else
    let maxPageSize := pageSizes.max?.getD 0
    kvCacheSpec.mapM fun layer => do
      let layerPageSize ← layer.2.pageSizeBytes
      if layerPageSize = maxPageSize then
        return layer
      else
        if layerPageSize = 0 then
          .error .zeroDivisionError
        else if maxPageSize % layerPageSize ≠ 0 then
          .error (.notImplementedError ("The page size of the layer is not divisible by the " ++
            "maximum page size. Cannot unify by adjusting block_size."))
        else
          let newSpec := { layer.2 with
            blockSize := layer.2.blockSize * (maxPageSize / layerPageSize) }
          let newPageSize ← newSpec.pageSizeBytes
          pyAssert (newPageSize = maxPageSize) "new_spec.page_size_bytes == max_page_size"
          return (layer.1, newSpec)

/-- `same_type_layers`: the names of the layers of each spec, in order of first appearance. -/
def sameTypeLayers (kvCacheSpec : LayerSpecs) : List (List String) :=
  (kvCacheSpec.map Prod.snd).eraseDups.map fun spec =>
    (kvCacheSpec.filter fun layer => layer.2 = spec).map Prod.fst

/-- `layers[i::num_groups]`. -/
def everyNth (layers : List String) (numGroups i : ℕ) : List String :=
  (layers.zipIdx.filter fun p => p.2 % numGroups = i).map Prod.fst

/-- `_get_kv_cache_groups_uniform_page_size`. -/
def getKvCacheGroupsUniformPageSize (kvCacheSpec : LayerSpecs) :
    Except PyError (List KVCacheGroupSpec) :=
  let types := sameTypeLayers kvCacheSpec
  let minNumLayers := (types.map List.length).min?.getD 0
  let maxNumLayers := (types.map List.length).max?.getD 0
  -- `max_num_layers < min_num_layers * 1.25`
  let groupSize := if 4 * maxNumLayers < 5 * minNumLayers then maxNumLayers else minNumLayers
  createKvCacheGroupSpecs kvCacheSpec (types.flatMap fun layers =>
    let numGroups := cdiv layers.length groupSize
    (List.range numGroups).map (everyNth layers numGroups))

def getKvCacheGroups (settings : CacheSettings) (kvCacheSpec : LayerSpecs) :
    Except PyError (List KVCacheGroupSpec) := do
  if settings.disableHybridKvCacheManager then
    unifyHybridKvCacheSpecs kvCacheSpec
  if kvCacheSpec.isEmpty then
    return []
  else if ← isKvCacheSpecUniform kvCacheSpec then
    createKvCacheGroupSpecs kvCacheSpec [kvCacheSpec.map Prod.fst]
  else
    match uniformTypeFromSpecs kvCacheSpec with
    | some spec => return [⟨kvCacheSpec.map Prod.fst, spec⟩]
    | none => do
      let kvCacheSpec ← unifyKvCacheSpecPageSize kvCacheSpec
      getKvCacheGroupsUniformPageSize kvCacheSpec

/-! ## Memory checks -/

/-- `get_uniform_page_size`. -/
def getUniformPageSize (kvCacheSpecs : List GroupSpec) : Except PyError ℕ := do
  let pageSizes ← kvCacheSpecs.mapM GroupSpec.pageSizeBytes
  match pageSizes.eraseDups with
  | [pageSize] => return pageSize
  | _ => .error (.assertionError "len(page_sizes) == 1")

/-- `max(len(group.layer_names) for group in kv_cache_groups)`, of at least one group. -/
def maxGroupSize (kvCacheGroups : List KVCacheGroupSpec) : ℕ :=
  (kvCacheGroups.map fun group => group.layerNames.length).foldl max 0

/-- `_max_memory_usage_bytes_from_groups`. -/
def maxMemoryUsageBytesFromGroups (settings : CacheSettings)
    (kvCacheGroups : List KVCacheGroupSpec) : Except PyError ℕ :=
  match kvCacheGroups with
  | [] => .ok 0
  | [⟨_, .uniformType _ perLayerSpecs⟩] => do
    let usages ← perLayerSpecs.mapM fun layer => layer.2.maxMemoryUsageBytes settings
    return usages.sum
  | first :: _ => do
    let groupSize := maxGroupSize kvCacheGroups
    let pageSize ← getUniformPageSize (kvCacheGroups.map (·.kvCacheSpec))
    let usage ← first.kvCacheSpec.maxMemoryUsageBytes settings
    let blocksNeeded ← checkedCdiv usage pageSize
    return groupSize * pageSize * blocksNeeded

/-- The `while` loop of `_estimate_max_model_len_from_groups`. The interval shrinks in each round,
so its length is enough fuel. -/
def estimateMaxModelLenLoop (fits : ℕ → Except PyError Bool) :
    ℕ → ℕ → ℕ → ℕ → Except PyError ℕ
  | 0, _, _, result => .ok result
  | fuel + 1, left, right, result =>
    if left ≤ right then do
      let mid := (left + right) / 2
      if ← fits mid then
        estimateMaxModelLenLoop fits fuel (mid + 1) right mid
      else
        estimateMaxModelLenLoop fits fuel left (mid - 1) result
    else
      .ok result

/-- `_estimate_max_model_len_from_groups`. -/
def estimateMaxModelLenFromGroups (settings : CacheSettings)
    (kvCacheGroups : List KVCacheGroupSpec) (availableMemory : ℤ) : Except PyError ℕ := do
  let fits (modelLen : ℕ) : Except PyError Bool := do
    let usage ← maxMemoryUsageBytesFromGroups { settings with maxModelLen := modelLen } kvCacheGroups
    return usage ≤ availableMemory
  if ← fits 1 then
    estimateMaxModelLenLoop fits settings.maxModelLen 1 settings.maxModelLen 1
  else
    return 0

/-- `round(b / GiB_bytes, 2)` as text; `b` is small enough for the quotient to be exact. -/
def formatGib (b : ℕ) : String :=
  let quotient := 100 * b / 2 ^ 30
  let rest := 100 * b % 2 ^ 30
  let hundredths :=
    if rest > 2 ^ 29 ∨ (rest = 2 ^ 29 ∧ quotient % 2 = 1) then quotient + 1 else quotient
  let digits := if hundredths % 10 = 0 then toString (hundredths / 10 % 10)
    else toString (hundredths / 10 % 10) ++ toString (hundredths % 10)
  toString (hundredths / 100) ++ "." ++ digits

/-- `_check_enough_kv_cache_memory`. -/
def checkEnoughKvCacheMemory (availableMemory : ℤ) (getNeededMemory : Except PyError ℕ)
    (maxModelLen : ℕ) (estimateMaxModelLen : ℤ → Except PyError ℕ) : Except PyError Unit :=
  if availableMemory ≤ 0 then
    .error (.valueError ("No available memory for the cache blocks. " ++
      "Try increasing `gpu_memory_utilization` when initializing the engine. " ++
      "See https://docs.vllm.ai/en/latest/configuration/conserving_memory/ for more details."))
  else do
    let neededMemory ← getNeededMemory
    if neededMemory > availableMemory then
      let estimatedMaxLen ← estimateMaxModelLen availableMemory
      let estimatedMsg := if estimatedMaxLen > 0 then
          "Based on the available memory, the estimated maximum model length is " ++
            toString estimatedMaxLen ++ ". "
        else ""
      .error (.valueError ("To serve at least one request with the models's max seq len (" ++
        toString maxModelLen ++ "), (" ++ formatGib neededMemory ++
        " GiB KV cache is needed, which is larger than the available KV cache memory (" ++
        formatGib availableMemory.toNat ++ " GiB). " ++ estimatedMsg ++
        "Try increasing `gpu_memory_utilization` or decreasing `max_model_len` " ++
        "when initializing the engine. See " ++
        "https://docs.vllm.ai/en/latest/configuration/conserving_memory/ for more details."))
    else
      return ()

/-- `min(available_memory)`. -/
def minAvailableMemory (availableMemory : List ℤ) : Except PyError ℤ :=
  match availableMemory.min? with
  | none => .error (.valueError "min() arg is an empty sequence")
  | some memory => .ok memory

/-- `_auto_fit_max_model_len`: the new `max_model_len`. -/
def autoFitMaxModelLen (settings : CacheSettings) (kvCacheGroups : List KVCacheGroupSpec)
    (availableMemory : List ℤ) : Except PyError ℕ :=
  if kvCacheGroups.isEmpty then
    .ok settings.maxModelLen
  else do
    let memory ← minAvailableMemory availableMemory
    let autoFitMax ← estimateMaxModelLenFromGroups settings kvCacheGroups memory
    if autoFitMax = 0 then
      .error (.valueError ("Cannot auto-fit max_model_len: not enough GPU memory available " ++
        "to serve even a single token. Try increasing `gpu_memory_utilization`."))
    else
      return min autoFitMax settings.maxModelLen

/-! ## Configurations of the workers -/

structure KVCacheTensor where
  size : ℕ
  sharedBy : List String
  deriving DecidableEq, Repr

/-- `KVCacheConfig` as the workers see it. -/
structure WorkerKVCacheConfig where
  numBlocks : ℕ
  kvCacheTensors : List KVCacheTensor
  kvCacheGroups : List KVCacheGroupSpec
  deriving DecidableEq, Repr

/-- `get_num_blocks`. -/
def getNumBlocks (numLayers : ℕ) (availableMemory : ℤ) (pageSize : ℕ) : Except PyError ℕ := do
  let numPages ← floorDiv availableMemory pageSize
  let numBlocks ← floorDiv numPages numLayers
  return numBlocks.toNat

/-- `get_kv_cache_config_from_groups`. In the case of different page sizes the memory is not
negative. -/
def getKvCacheConfigFromGroups (kvCacheGroups : List KVCacheGroupSpec) (availableMemory : ℤ) :
    Except PyError WorkerKVCacheConfig :=
  match kvCacheGroups with
  | [] => .ok ⟨1, [], []⟩
  | [⟨layerNames, .uniformType blockSize perLayerSpecs⟩] => do
    let pageSize ← (GroupSpec.uniformType blockSize perLayerSpecs).pageSizeBytes
    let numBlocks ← floorDiv availableMemory pageSize
    let kvCacheTensors ← layerNames.mapM fun layerName => do
      match perLayerSpecs.lookup layerName with
      | none => .error .indexError
      | some spec => do
        let layerPageSize ← spec.pageSizeBytes
        return ⟨layerPageSize * numBlocks.toNat, [layerName]⟩
    return ⟨numBlocks.toNat, kvCacheTensors, kvCacheGroups⟩
  | _ => do
    let groupSize := maxGroupSize kvCacheGroups
    let pageSize ← getUniformPageSize (kvCacheGroups.map (·.kvCacheSpec))
    pyAssert (groupSize > 0) "group_size must be greater than 0"
    let numBlocks ← getNumBlocks groupSize availableMemory pageSize
    let kvCacheTensors := (List.range groupSize).map fun i =>
      ⟨pageSize * numBlocks, kvCacheGroups.filterMap fun group => group.layerNames[i]?⟩
    return ⟨numBlocks, kvCacheTensors, kvCacheGroups⟩

/-- Merges the specs of all workers: a layer that several workers have has one spec. -/
def mergeKvCacheSpecs : List LayerSpecs → LayerSpecs → Except PyError LayerSpecs
  | [], merged => .ok merged
  | worker :: workers, merged => do
    let merged ← worker.foldlM (fun merged layer =>
      match merged.lookup layer.1 with
      | none => .ok (merged ++ [layer])
      | some spec => do
        pyAssert (spec = layer.2) ("The KV cache specs for the same layer are different " ++
          "across workers. This is not supported yet.")
        return merged) merged
    mergeKvCacheSpecs workers merged

/-- The layers of the groups that one worker has. -/
def groupsOfWorker (kvCacheGroups : List KVCacheGroupSpec) (worker : LayerSpecs) :
    List KVCacheGroupSpec :=
  kvCacheGroups.map fun group => { group with
    layerNames := group.layerNames.filter fun name => (worker.lookup name).isSome }

def configOfWorker (kvCacheGroups : List KVCacheGroupSpec) (worker : LayerSpecs)
    (availableMemory : ℤ) : Except PyError WorkerKVCacheConfig := do
  let groups := groupsOfWorker kvCacheGroups worker
  pyAssert ((groups.map fun group => group.layerNames.length).sum = worker.length)
    "Some layers are not assigned to any group."
  getKvCacheConfigFromGroups groups availableMemory

/-- Shrinks the tensors of a worker to the smallest number of blocks. -/
def shrinkConfig (minNumBlocks : ℕ) (config : WorkerKVCacheConfig) :
    Except PyError WorkerKVCacheConfig := do
  let kvCacheTensors ← config.kvCacheTensors.mapM fun tensor =>
    if config.numBlocks = 0 then
      .error .zeroDivisionError
    else do
      pyAssert (tensor.size % config.numBlocks = 0) "tensor.size % num_blocks_old == 0"
      return { tensor with size := tensor.size / config.numBlocks * minNumBlocks }
  return { config with numBlocks := minNumBlocks, kvCacheTensors }

/-- The settings after auto-fitting. -/
def fitMaxModelLen (settings : CacheSettings) (kvCacheGroups : List KVCacheGroupSpec)
    (availableMemory : List ℤ) : Except PyError CacheSettings :=
  if settings.autoFit then do
    let maxModelLen ← autoFitMaxModelLen settings kvCacheGroups availableMemory
    return { settings with maxModelLen }
  else
    .ok settings

/-- The memory check of `get_kv_cache_configs`, on the worker with the least memory. -/
def checkMinMemory (settings : CacheSettings) (kvCacheGroups : List KVCacheGroupSpec)
    (availableMemory : List ℤ) : Except PyError Unit :=
  if kvCacheGroups.isEmpty then
    .ok ()
  else do
    let memory ← minAvailableMemory availableMemory
    checkEnoughKvCacheMemory memory (maxMemoryUsageBytesFromGroups settings kvCacheGroups)
      settings.maxModelLen (estimateMaxModelLenFromGroups settings kvCacheGroups)

/-- `get_kv_cache_configs`: the configurations and the settings, in which `max_model_len` may have
been fitted. -/
def getKvCacheConfigs (settings : CacheSettings) (kvCacheSpecs : List LayerSpecs)
    (availableMemory : List ℤ) : Except PyError (List WorkerKVCacheConfig × CacheSettings) := do
  let mergedKvCacheSpecs ← mergeKvCacheSpecs kvCacheSpecs []
  let kvCacheGroups ← getKvCacheGroups settings mergedKvCacheSpecs
  let settings ← fitMaxModelLen settings kvCacheGroups availableMemory
  checkMinMemory settings kvCacheGroups availableMemory
  let configs ← (kvCacheSpecs.zip availableMemory).mapM fun p =>
    configOfWorker kvCacheGroups p.1 p.2
  match (configs.map (·.numBlocks)).min? with
  | none => .error (.valueError "min() arg is an empty sequence")
  | some minNumBlocks => do
    let configs ← configs.mapM (shrinkConfig minNumBlocks)
    return (configs, settings)

/-- The spec that the scheduler uses for a group. -/
def GroupSpec.toKVCacheSpec : GroupSpec → Except PyError KVCacheSpec
  | merged spec => .ok (.fullAttention spec)
  | uniformType _ [] => .error (.runtimeError "StopIteration")
  | uniformType _ (layer :: _) => .ok (.fullAttention layer.2)

/-- `generate_scheduler_kv_cache_config`. -/
def generateSchedulerKvCacheConfig (configs : List WorkerKVCacheConfig) :
    Except PyError KVCacheConfig :=
  match configs with
  | [] => .error .indexError
  | first :: _ => do
    pyAssert (configs.all fun config => config.numBlocks = first.numBlocks)
      "all([cfg.num_blocks == kv_cache_configs[0].num_blocks for cfg in kv_cache_configs])"
    let kvCacheGroups ← first.kvCacheGroups.mapM fun group => group.kvCacheSpec.toKVCacheSpec
    return { numBlocks := first.numBlocks, kvCacheGroups }

end VllmRuntime
