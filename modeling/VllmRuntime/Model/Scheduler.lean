import VllmRuntime.Model.EncoderCache
import VllmRuntime.Model.KVCacheManager
import VllmRuntime.Model.RequestQueue

/-! # The state of the scheduler

`Scheduler` and `AsyncScheduler` of `vllm/v1/core/sched`, without statistics, log messages and
metrics. KV connectors, EC connectors and grammars are outside of the repository's core: what they
answer is an input of the call that asks them. -/

namespace VllmRuntime

/-- The settings that the scheduler reads. -/
structure SchedulerConfig where
  policy : SchedulingPolicy := .fcfs
  maxNumRunningReqs : ℕ
  maxNumScheduledTokens : ℕ
  maxModelLen : ℕ
  longPrefillTokenThreshold : ℕ := 0
  enableChunkedPrefill : Bool := true
  disableChunkedMmInput : Bool := false
  maxNumEncoderInputTokens : ℕ := 0
  numEncoderMaxInputTokens : ℕ := 0
  isEncoderDecoder : Bool := false
  numSpecTokens : ℕ := 0
  numLookaheadTokens : ℕ := 0
  useEagle : Bool := false
  usePp : Bool := false
  /-- The scheduler is an `AsyncScheduler`. -/
  asyncScheduling : Bool := false
  needMambaBlockAlignedSplit : Bool := false
  /-- `cache_config.block_size`. -/
  cacheBlockSize : ℕ
  /-- `self.block_size`. -/
  blockSize : ℕ
  /-- `lora_config.max_loras`, if LoRA is enabled. -/
  maxLoras : Option ℕ := none
  hasConnector : Bool := false
  /-- The connector is a `SupportsHMA`. -/
  connectorSupportsHma : Bool := true
  hasEcConnector : Bool := false
  recomputeKvLoadFailures : Bool := true
  useV2ModelRunner : Bool := false
  deriving DecidableEq, Repr

structure Scheduler where
  config : SchedulerConfig
  /-- `request.get_hash_new_full_blocks`, the same for all requests. -/
  hasher : Option (Request → List BlockHash)
  kvCacheManager : KVCacheManager
  encoderCacheManager : EncoderCacheManager
  /-- The `Request` objects. -/
  request : RequestId → SchedRequest
  /-- The keys of `self.requests`. -/
  requests : List RequestId := []
  waiting : List RequestId := []
  running : List RequestId := []
  finishedReqIds : List RequestId := []
  numWaitingForStreamingInput : ℤ := 0
  finishedRecvingKvReqIds : List RequestId := []
  failedRecvingKvReqIds : List RequestId := []
  prevStepScheduledReqIds : List RequestId := []

namespace Scheduler

/-- The order of the priority queue. -/
def lt (s : Scheduler) (a b : RequestId) : Bool := (s.request a).lt (s.request b)

def setRequest (s : Scheduler) (r : RequestId) (request : SchedRequest) : Scheduler :=
  { s with request := Function.update s.request r request }

@[simp] lemma setRequest_request_self (s : Scheduler) (r : RequestId) (request : SchedRequest) :
    (s.setRequest r request).request r = request := Function.update_self ..

@[simp] lemma setRequest_request_of_ne (s : Scheduler) {r x : RequestId} (request : SchedRequest)
    (h : x ≠ r) : (s.setRequest r request).request x = s.request x := Function.update_of_ne h ..

def getNumUnfinishedRequests (s : Scheduler) : ℤ :=
  s.waiting.length - s.numWaitingForStreamingInput + s.running.length

/-- `_preempt_request`. The caller has taken the request out of `running`. -/
def preemptRequest (s : Scheduler) (r : RequestId) : Except PyError Scheduler := do
  let request := s.request r
  pyAssert (request.status = .running) "Only running requests can be preempted"
  let kvCacheManager ← s.kvCacheManager.free request.kvRequest
  let s := { s with
    kvCacheManager
    encoderCacheManager := s.encoderCacheManager.free r request.mmFeatures }
  let s := s.setRequest r { request with
    status := .preempted
    numComputedTokens := 0
    specTokenIds := []
    numPreemptions := request.numPreemptions + 1 }
  return { s with waiting := RequestQueue.prependRequest s.config.policy s.lt s.waiting r }

/-- `_mamba_block_aligned_split`. -/
def mambaBlockAlignedSplit (config : SchedulerConfig) (request : SchedRequest) (numNewTokens : ℤ)
    (numNewLocalComputedTokens numExternalComputedTokens : ℕ) : Except PyError ℤ := do
  pyAssert (numExternalComputedTokens = 0) "External KV connector is not verified yet"
  if request.numOutputTokens = 0 then
    let blockSize : ℤ := config.cacheBlockSize
    let lastCachePosition : ℤ := request.numPromptTokens - request.numPromptTokens % blockSize
    let lastCachePosition :=
      if config.useEagle then max (lastCachePosition - blockSize) 0 else lastCachePosition
    let numComputedTokens :=
      request.numComputedTokens + numNewLocalComputedTokens + numExternalComputedTokens
    let numComputedTokensAfterSched := numComputedTokens + numNewTokens
    if numComputedTokensAfterSched < lastCachePosition then
      return numNewTokens / blockSize * blockSize
    else if numComputedTokens < lastCachePosition ∧
        lastCachePosition < numComputedTokensAfterSched then
      return lastCachePosition - numComputedTokens
    else
      return numNewTokens
  else
    return numNewTokens

end Scheduler

/-- `allocate_slots` for a running request. Near the model length `num_new_tokens` can be negative;
the block counts that come from negative numbers of tokens are those of zero tokens. -/
def KVCacheManager.allocateRunningSlots (kv : KVCacheManager) (request : SchedRequest)
    (numNewTokens : ℤ) (numLookaheadTokens : ℕ) :
    Except PyError (Option (List (List BlockRef)) × KVCacheManager) :=
  if numNewTokens = 0 then
    .error (.valueError
      "num_new_tokens must be greater than 0 when there are no external computed tokens")
  else do
    let maxModelLen : ℤ := kv.coordinator.maxModelLen
    let totalComputedTokens := min request.numComputedTokens maxModelLen
    let numTokensMainModel := totalComputedTokens + numNewTokens
    let numTokensNeedSlot := min (numTokensMainModel + numLookaheadTokens) maxModelLen
    let c ← kv.coordinator.removeSkippedBlocks request.requestId totalComputedTokens.toNat
    let (numBlocksToAllocate, c) ← c.getNumBlocksToAllocate request.requestId
      numTokensNeedSlot.toNat kv.emptyKvCacheBlocks 0 request.numComputedTokens.toNat
      numTokensMainModel.toNat
    if numBlocksToAllocate > c.blockPool.getNumFreeBlocks then
      return (none, { kv with coordinator := c })
    else do
      let (newBlocks, c) ← c.allocateNewBlocks request.requestId numTokensNeedSlot.toNat
        numTokensMainModel.toNat 0
      if !c.enableCaching then
        return (some newBlocks, { kv with coordinator := c })
      else do
        let c ← c.cacheBlocks request.kvRequest
          (min numTokensMainModel (request.numTokens : ℤ)).toNat
        return (some newBlocks, { kv with coordinator := c })

/-! ## Encoder inputs -/

/-- The local variables of `_try_schedule_encoder_inputs`. -/
structure EncoderPlan where
  manager : EncoderCacheManager
  encoderInputsToSchedule : List ℕ := []
  numNewTokens : ℤ
  encoderComputeBudget : ℤ
  externalLoadEncoderInput : List ℕ := []
  mmHashesToSchedule : List String := []
  numEmbedsToSchedule : ℕ := 0

namespace EncoderPlan

/-- The rest of the loop body, for an input that is needed and not cached: whether the loop
continues, and the changed plan. -/
def addInput (config : SchedulerConfig) (hasCacheItem : String → Bool)
    (numComputedTokens shiftComputedTokens : ℤ) (feature : MultiModalFeatureSpec) (i : ℕ)
    (plan : EncoderPlan) : Except PyError (Bool × EncoderPlan) :=
  let startPos : ℤ := feature.mmPosition.offset
  let numEncoderTokens : ℤ := feature.mmPosition.length
  if config.disableChunkedMmInput && numComputedTokens < startPos &&
      numComputedTokens + plan.numNewTokens < startPos + numEncoderTokens then
    .ok (false, { plan with numNewTokens := startPos - numComputedTokens })
  else do
    let (fits, manager) ← plan.manager.canAllocate feature plan.encoderComputeBudget
      plan.numEmbedsToSchedule
    let plan := { plan with manager }
    if !fits then
      return (false, { plan with
        numNewTokens := if numComputedTokens + shiftComputedTokens < startPos then
          startPos - (numComputedTokens + shiftComputedTokens) else 0 })
    else do
      let (currEmbedsStart, currEmbedsEnd) ← feature.mmPosition.getEmbedsIndicesInRange
        (max 0 (numComputedTokens - startPos))
        (min numEncoderTokens (numComputedTokens + plan.numNewTokens - startPos))
      if currEmbedsEnd - currEmbedsStart = 0 then
        return (true, plan)
      else
        let plan := { plan with
          mmHashesToSchedule := plan.mmHashesToSchedule ++ [feature.identifier]
          numEmbedsToSchedule := plan.numEmbedsToSchedule + feature.numEmbeds }
        if config.hasEcConnector && hasCacheItem feature.identifier then
          return (true, { plan with
            externalLoadEncoderInput := plan.externalLoadEncoderInput ++ [i] })
        else
          return (true, { plan with
            encoderComputeBudget := plan.encoderComputeBudget - feature.numEmbeds
            encoderInputsToSchedule := plan.encoderInputsToSchedule ++ [i] })

/-- The body of the loop over `mm_features`: whether the loop continues, and the changed plan. -/
def visit (config : SchedulerConfig) (hasCacheItem : String → Bool) (requestId : RequestId)
    (numComputedTokens shiftComputedTokens : ℤ) (feature : MultiModalFeatureSpec) (i : ℕ)
    (plan : EncoderPlan) : Except PyError (Bool × EncoderPlan) :=
  let startPos : ℤ := feature.mmPosition.offset
  let numEncoderTokens : ℤ := feature.mmPosition.length
  if startPos ≥ numComputedTokens + plan.numNewTokens + shiftComputedTokens then
    .ok (false, plan)
  else if config.isEncoderDecoder && numComputedTokens > 0 then do
    pyAssert (startPos = 0) ("Encoder input should be processed at the beginning of " ++
      "the sequence when encoder-decoder models are used.")
    return (true, plan)
  else if startPos + numEncoderTokens ≤ numComputedTokens then
    .ok (true, plan)
  else if config.isEncoderDecoder then
    plan.addInput config hasCacheItem numComputedTokens shiftComputedTokens feature i
  else if feature.identifier ∈ plan.mmHashesToSchedule then
    .ok (true, plan)
  else do
    let (isCached, manager) ← plan.manager.checkAndUpdateCache requestId feature
    let plan := { plan with manager }
    if isCached then
      return (true, plan)
    else
      plan.addInput config hasCacheItem numComputedTokens shiftComputedTokens feature i

/-- The loop over `mm_features` with their indices. -/
def visitAll (config : SchedulerConfig) (hasCacheItem : String → Bool) (requestId : RequestId)
    (numComputedTokens shiftComputedTokens : ℤ) :
    List (MultiModalFeatureSpec × ℕ) → EncoderPlan → Except PyError EncoderPlan
  | [], plan => .ok plan
  | (feature, i) :: features, plan => do
    let (goesOn, plan) ← plan.visit config hasCacheItem requestId numComputedTokens
      shiftComputedTokens feature i
    if goesOn then
      visitAll config hasCacheItem requestId numComputedTokens shiftComputedTokens features plan
    else
      return plan

end EncoderPlan

/-- `_try_schedule_encoder_inputs`, with the encoder cache manager after the call. -/
def tryScheduleEncoderInputs (config : SchedulerConfig) (manager : EncoderCacheManager)
    (hasCacheItem : String → Bool) (request : SchedRequest) (numComputedTokens numNewTokens : ℤ)
    (encoderComputeBudget : ℤ) : Except PyError EncoderPlan :=
  let plan : EncoderPlan := { manager, numNewTokens, encoderComputeBudget }
  if numNewTokens = 0 || !request.hasEncoderInputs then
    .ok plan
  else
    plan.visitAll config hasCacheItem request.requestId numComputedTokens
      (if config.useEagle then 1 else 0) request.mmFeatures.zipIdx

end VllmRuntime
