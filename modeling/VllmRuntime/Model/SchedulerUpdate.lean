import VllmRuntime.Model.Schedule

/-! # Outputs and requests of the scheduler

`Scheduler.update_from_output`, `add_request`, `finish_requests`, `reset_prefix_cache` and the
functions they call. Log probabilities, routed experts and grammars do not touch the state that is
modelled. -/

namespace VllmRuntime

/-- What workers report about KV transfers. -/
structure KVConnectorOutput where
  invalidBlockIds : List ℕ := []
  finishedRecving : List RequestId := []
  finishedSending : List RequestId := []
  deriving DecidableEq, Repr

structure ModelRunnerOutput where
  sampledTokenIds : RequestId → List TokenId := fun _ => []
  /-- The pooler output of the request is not `None`. -/
  poolerOutput : RequestId → Bool := fun _ => false
  kvConnectorOutput : Option KVConnectorOutput := none

/-- An output for a client. -/
structure EngineCoreOutput where
  requestId : RequestId
  newTokenIds : List TokenId := []
  finishReason : Option FinishReason := none
  hasPoolingOutput : Bool := false
  stopReason : Option TokenId := none
  numCachedTokens : ℤ
  deriving DecidableEq, Repr

/-! ## Stopping -/

/-- `check_stop`. -/
def checkStop (request : SchedRequest) (maxModelLen : ℕ) : Except PyError (Bool × SchedRequest) := do
  pyAssert (!request.isPooling) "not request.pooling_params"
  match request.samplingParams, request.base.outputTokenIds.getLast? with
  | none, _ => .error (.assertionError "sampling_params is not None")
  | some samplingParams, lastTokenId =>
    if request.numOutputTokens < samplingParams.minTokens then
      return (false, request)
    else if !samplingParams.ignoreEos && lastTokenId.isSome && lastTokenId = request.eosTokenId then
      return (true, { request with status := .finishedStopped })
    else if lastTokenId.any (· ∈ samplingParams.stopTokenIds) then
      return (true, { request with status := .finishedStopped, stopReason := lastTokenId })
    else if request.numTokens ≥ maxModelLen ∨ request.numOutputTokens ≥ request.maxTokens then
      return (true, { request with status := .finishedLengthCapped })
    else
      return (false, request)

/-- `Scheduler._update_request_with_output`: the tokens that were appended and whether the request
stopped. -/
def appendOutput (hasher : Option (Request → List BlockHash)) (maxModelLen : ℕ) :
    List TokenId → SchedRequest → Except PyError (List TokenId × Bool × SchedRequest)
  | [], request => .ok ([], false, request)
  | tokenId :: tokenIds, request => do
    let (stopped, request) ← checkStop
      { request with base := request.base.appendOutputTokenIds hasher [tokenId] } maxModelLen
    if stopped then
      return ([tokenId], true, request)
    else do
      let (appended, stopped, request) ← appendOutput hasher maxModelLen tokenIds request
      return (tokenId :: appended, stopped, request)

namespace Scheduler

/-- `_update_request_with_output` of the two schedulers. -/
def updateRequestWithOutput (s : Scheduler) (r : RequestId) (newTokenIds : List TokenId) :
    Except PyError (List TokenId × Bool × Scheduler) :=
  let request := s.request r
  if s.config.asyncScheduling && request.discardLatestAsyncTokens then
    .ok ([], false, s.setRequest r { request with discardLatestAsyncTokens := false })
  else do
    let (appended, stopped, updated) ← appendOutput s.hasher s.config.maxModelLen newTokenIds request
    if !s.config.asyncScheduling then
      return (appended, stopped, s.setRequest r updated)
    else do
      let updated := { updated with
        numOutputPlaceholders := updated.numOutputPlaceholders - appended.length }
      pyAssert (updated.numOutputPlaceholders ≥ 0) "request.num_output_placeholders >= 0"
      let s := s.setRequest r updated
      if request.status = .running then do
        let kvCacheManager ← s.kvCacheManager.cacheBlocks updated.kvRequest
          (updated.numComputedTokens - updated.numOutputPlaceholders).toNat
        return (appended, stopped, { s with kvCacheManager })
      else
        return (appended, stopped, s)

/-- `_update_request_as_session`. -/
def updateSession (s : Scheduler) (r : RequestId) (update : QueuedUpdate) :
    Except PyError Scheduler := do
  let session := s.request r
  let base ← updateRequestAsSession s.hasher session.kvRequest update.toStreamingUpdate
  let s := { s with
    numWaitingForStreamingInput := if session.status = RequestStatus.waitingForStreamingReq then
      s.numWaitingForStreamingInput - 1 else s.numWaitingForStreamingInput }
  return s.setRequest r { session with
    base
    arrivalTime := update.arrivalTime
    samplingParams := update.samplingParams
    status := .waiting }

/-- Puts a request whose session goes on back to `waiting`. -/
def requeue (s : Scheduler) (r : RequestId) : Scheduler :=
  { s with waiting := RequestQueue.addRequest s.config.policy s.lt s.waiting r }

/-- `_handle_stopped_request`: whether the request is finished. -/
def handleStoppedRequest (s : Scheduler) (r : RequestId) : Except PyError (Bool × Scheduler) :=
  let request := s.request r
  if !request.resumable then
    .ok (true, s)
  else
    match request.streamingQueue with
    | some (update :: streamingQueue) =>
      let s := s.setRequest r { request with streamingQueue := some streamingQueue }
      match update with
      | none => .ok (true, s)
      | some update => do
        let s ← s.updateSession r update
        return (false, s.requeue r)
    | _ =>
      let s := s.setRequest r { request with status := .waitingForStreamingReq }
      .ok (false, { s with
        numWaitingForStreamingInput := s.numWaitingForStreamingInput + 1 }.requeue r)

/-- `_free_blocks`. -/
def freeBlocks (s : Scheduler) (r : RequestId) : Except PyError Scheduler := do
  pyAssert (s.request r).isFinished "request.is_finished()"
  let kvCacheManager ← s.kvCacheManager.free (s.request r).kvRequest
  if r ∈ s.requests then
    return { s with kvCacheManager, requests := s.requests.erase r }
  else
    .error .keyError

/-- `_connector_finished`: whether the connector still needs the blocks. -/
def connectorFinished (s : Scheduler) (delayFreeBlocks : RequestId → Bool) (r : RequestId) :
    Except PyError (Bool × Scheduler) :=
  if !s.config.hasConnector then
    .ok (false, s)
  else do
    let kvCacheManager ← s.kvCacheManager.removeSkippedBlocks r (s.request r).numTokens
    pyAssert (s.config.connectorSupportsHma ||
      kvCacheManager.coordinator.singleTypeManagers.length = 1)
      "len(self.kv_cache_config.kv_cache_groups) == 1"
    return (delayFreeBlocks r, { s with kvCacheManager })

/-- `_free_request`. The connector says of which requests it still needs the blocks. -/
def freeRequest (s : Scheduler) (delayFreeBlocks : RequestId → Bool) (r : RequestId) :
    Except PyError Scheduler := do
  pyAssert (s.request r).isFinished "request.is_finished()"
  let (delayFreeBlocks, s) ← s.connectorFinished delayFreeBlocks r
  let s := { s with
    encoderCacheManager := s.encoderCacheManager.free r (s.request r).mmFeatures
    finishedReqIds := if r ∈ s.finishedReqIds then s.finishedReqIds else s.finishedReqIds ++ [r] }
  if delayFreeBlocks then return s else s.freeBlocks r

/-! ## Finishing and adding requests -/

/-- Sets the status of the requests and frees them. -/
def finishAll (delayFreeBlocks : RequestId → Bool) (finishedStatus : RequestStatus) :
    List RequestId → Scheduler → Except PyError Scheduler
  | [], s => .ok s
  | r :: rs, s => do
    let s := s.setRequest r { s.request r with status := finishedStatus }
    let s ← s.freeRequest delayFreeBlocks r
    finishAll delayFreeBlocks finishedStatus rs s

/-- `finish_requests`. The ids are a set, in the order in which it is iterated. -/
def finishRequests (s : Scheduler) (delayFreeBlocks : RequestId → Bool)
    (requestIds : List RequestId) (finishedStatus : RequestStatus) : Except PyError Scheduler := do
  pyAssert finishedStatus.isFinished "RequestStatus.is_finished(finished_status)"
  let validRequests := requestIds.dedup.filter fun r =>
    r ∈ s.requests ∧ !(s.request r).isFinished
  let runningRequests := validRequests.filter fun r => (s.request r).status = .running
  let waitingRequests := validRequests.filter fun r => (s.request r).status ≠ .running
  let numStreaming := waitingRequests.countP fun r =>
    (s.request r).status = .waitingForStreamingReq
  finishAll delayFreeBlocks finishedStatus validRequests { s with
    numWaitingForStreamingInput := s.numWaitingForStreamingInput - numStreaming
    running := removeAll s.running runningRequests
    waiting := if waitingRequests.isEmpty then s.waiting
      else RequestQueue.removeRequests s.config.policy s.lt s.waiting waitingRequests }

/-- `add_request`. -/
def addRequest (s : Scheduler) (delayFreeBlocks : RequestId → Bool) (request : SchedRequest) :
    Except PyError Scheduler :=
  let r := request.requestId
  if r ∈ s.requests then
    let existing := s.request r
    let update := request.toUpdate
    if existing.status ≠ .waitingForStreamingReq then
      match existing.streamingQueue with
      | none => .error (.assertionError "duplicate request id")
      | some streamingQueue =>
        .ok (s.setRequest r { existing with streamingQueue := some (streamingQueue ++ [update]) })
    else
      match update with
      | some update => s.updateSession r update
      | none => s.finishRequests delayFreeBlocks [r] .finishedAborted
  else
    let request := if request.resumable then { request with streamingQueue := some [] } else request
    let s := (s.setRequest r request).requeue r
    .ok { s with requests := s.requests ++ [r] }

/-- Preempts all running requests, the last first. -/
def preemptAll : List RequestId → Scheduler → Except PyError Scheduler
  | [], s => .ok s
  | r :: rs, s => do
    let s := { s with running := s.running.dropLast }
    let s ← s.preemptRequest r
    preemptAll rs (s.setRequest r { s.request r with
      numOutputPlaceholders := 0
      discardLatestAsyncTokens := true })

/-- The part of `reset_prefix_cache` for `reset_running_requests`. -/
def resetRunningRequests (s : Scheduler) : Except PyError Scheduler := do
  let s ← preemptAll s.running.reverse s
  return { s with prevStepScheduledReqIds := [] }

/-- `reset_prefix_cache`. The cache of the connector is left out. -/
def resetPrefixCache (s : Scheduler) (resetRunningRequests : Bool) :
    Except PyError (Bool × Scheduler) :=
  if resetRunningRequests then do
    let s ← s.resetRunningRequests
    let (resetSuccessful, kvCacheManager) := s.kvCacheManager.resetPrefixCache
    if resetSuccessful then
      return (true, { s with kvCacheManager })
    else
      .error (.runtimeError ("Failed to reset KV cache even when all the running requests are " ++
        "preempted and moved to the waiting queue. This is likely due to the presence of " ++
        "running requests waiting for remote KV transfer, which is not supported yet."))
  else
    let (resetSuccessful, kvCacheManager) := s.kvCacheManager.resetPrefixCache
    .ok (resetSuccessful, { s with kvCacheManager })

/-- `update_draft_token_ids`. A grammar may shorten the drafts of its request before. -/
def updateDraftTokenIds (s : Scheduler) (draftTokenIds : List (RequestId × List ℤ)) : Scheduler :=
  draftTokenIds.foldl (fun s draft =>
    if draft.1 ∉ s.requests ∨ (s.request draft.1).isFinished then s
    else s.setRequest draft.1 { s.request draft.1 with specTokenIds := draft.2 }) s

end Scheduler

/-! ## Invalid blocks -/

/-- The variables of `_update_requests_with_invalid_blocks` for one request. -/
structure BlockScan where
  request : SchedRequest
  isAffected : Bool := false
  markedInvalidBlock : Bool := false
  markedInvalidBlocks : List BlockRef
  totalAffectedTokens : ℤ
  blocksToEvict : List BlockRef

/-- The loop over the blocks of a request with their indices. -/
def BlockScan.visitAll (blockSize : ℕ) (invalid : List BlockRef) (evictBlocks : Bool)
    (reqBlocks : List BlockRef) (reqNumComputedTokens : ℤ) :
    List (BlockRef × ℕ) → BlockScan → BlockScan
  | [], scan => scan
  | (block, idx) :: blocks, scan =>
    let visitRest := visitAll blockSize invalid evictBlocks reqBlocks reqNumComputedTokens blocks
    if block ∉ invalid then
      visitRest scan
    else
      let scan := { scan with isAffected := true }
      if block ∈ scan.markedInvalidBlocks then
        visitRest scan
      else
        let scan := { scan with markedInvalidBlocks := scan.markedInvalidBlocks ++ [block] }
        if scan.markedInvalidBlock then
          visitRest scan
        else
          let numComputedTokens : ℤ := idx * blockSize
          let numAffectedTokens := reqNumComputedTokens - numComputedTokens
          visitRest { scan with
            markedInvalidBlock := true
            request := { scan.request with
              numComputedTokens
              numExternalComputedTokens :=
                scan.request.numExternalComputedTokens - numAffectedTokens }
            totalAffectedTokens := scan.totalAffectedTokens + numAffectedTokens
            blocksToEvict := if evictBlocks then scan.blocksToEvict ++ reqBlocks.drop idx
              else scan.blocksToEvict }

/-- The results of `_update_requests_with_invalid_blocks`. -/
structure InvalidBlocksResult where
  affectedReqIds : List RequestId := []
  totalAffectedTokens : ℤ := 0
  blocksToEvict : List BlockRef := []

namespace Scheduler

/-- The number of blocks of a request that may contain externally computed tokens, and the number of
tokens it comes from. -/
def reqNumComputedTokens (s : Scheduler) (r : RequestId) (reqBlocks : List BlockRef) : ℤ :=
  let request := s.request r
  if request.status = .waitingForRemoteKvs then
    if r ∈ s.failedRecvingKvReqIds then request.numComputedTokens
    else reqBlocks.length * s.config.blockSize
  else
    request.numCachedTokens

/-- The loop of `_update_requests_with_invalid_blocks` over the requests. -/
def updateRequestsWithInvalidBlocks (invalid : List BlockRef) (evictBlocks : Bool) :
    List RequestId → List BlockRef → InvalidBlocksResult → Scheduler →
      Except PyError (InvalidBlocksResult × Scheduler)
  | [], _, result, s => .ok (result, s)
  | r :: rs, marked, result, s =>
    match s.kvCacheManager.coordinator.getBlocks r with
    | [reqBlocks] =>
      let numComputedTokens := s.reqNumComputedTokens r reqBlocks
      let numComputedBlocks := (numComputedTokens + s.config.blockSize - 1) / s.config.blockSize
      let scan := BlockScan.visitAll s.config.blockSize invalid evictBlocks reqBlocks
        numComputedTokens (reqBlocks.take numComputedBlocks.toNat).zipIdx
        { request := s.request r
          markedInvalidBlocks := marked
          totalAffectedTokens := result.totalAffectedTokens
          blocksToEvict := result.blocksToEvict }
      let isShared := scan.isAffected && !scan.markedInvalidBlock
      let request := if isShared then
        { scan.request with numComputedTokens := scan.request.numCachedTokens }
        else scan.request
      let totalAffectedTokens := if isShared then
        scan.totalAffectedTokens +
          (scan.request.numComputedTokens - scan.request.numCachedTokens)
        else scan.totalAffectedTokens
      updateRequestsWithInvalidBlocks invalid evictBlocks rs scan.markedInvalidBlocks
        { affectedReqIds := if scan.isAffected then result.affectedReqIds ++ [r]
            else result.affectedReqIds
          totalAffectedTokens
          blocksToEvict := scan.blocksToEvict }
        (s.setRequest r request)
    | _ => .error (.valueError "too many values to unpack (expected 1)")

/-- The ids of blocks, without those of the two ends of the free list. -/
def blockIds (blocks : List BlockRef) : List ℕ :=
  blocks.filterMap fun
    | .block id => some id
    | _ => none

/-- Evicts the blocks if they are not going to be recomputed. -/
def evictInvalidBlocks (s : Scheduler) (blocksToEvict : List BlockRef) : Except PyError Scheduler :=
  if blocksToEvict.isEmpty || s.config.recomputeKvLoadFailures then
    .ok s
  else do
    let kvCacheManager ← s.kvCacheManager.evictBlocks (blockIds blocksToEvict).dedup
    return { s with kvCacheManager }

/-- `_handle_invalid_blocks`: the requests to skip. -/
def handleInvalidBlocks (s : Scheduler) (invalidBlockIds : List ℕ) :
    Except PyError (List RequestId × Scheduler) := do
  let invalid := invalidBlockIds.map BlockRef.block
  let asyncLoadReqs := (RequestQueue.toList s.config.policy s.lt s.waiting).filter fun r =>
    (s.request r).status = .waitingForRemoteKvs
  let (asyncResult, s) ← updateRequestsWithInvalidBlocks invalid false asyncLoadReqs [] {} s
  let (syncResult, s) ← updateRequestsWithInvalidBlocks invalid true s.running [] {} s
  if asyncResult.affectedReqIds.isEmpty && syncResult.affectedReqIds.isEmpty then
    return ([], s)
  else do
    let s ← s.evictInvalidBlocks syncResult.blocksToEvict
    if !s.config.recomputeKvLoadFailures then
      return (asyncResult.affectedReqIds ++ syncResult.affectedReqIds, s)
    else
      return (syncResult.affectedReqIds, { s with
        failedRecvingKvReqIds := s.failedRecvingKvReqIds ++
          asyncResult.affectedReqIds.filter fun r => r ∉ s.failedRecvingKvReqIds })

/-- `_update_from_kv_xfer_finished`. -/
def updateFromKvXferFinished (s : Scheduler) (output : KVConnectorOutput) :
    Except PyError Scheduler :=
  let s := { s with
    finishedRecvingKvReqIds := s.finishedRecvingKvReqIds ++
      output.finishedRecving.filter fun r => r ∉ s.finishedRecvingKvReqIds }
  output.finishedSending.foldlM (fun s r => do
    pyAssert (r ∈ s.requests) "req_id in self.requests"
    s.freeBlocks r) s

end Scheduler

/-! ## Outputs of the model -/

/-- The scheduler and the local variables of `update_from_output`. -/
structure UpdateState where
  scheduler : Scheduler
  stoppedRunningReqs : List RequestId := []
  stoppedPreemptedReqs : List RequestId := []
  outputs : List EngineCoreOutput := []

/-- Subtracts the drafts that were rejected. -/
def SchedRequest.rejectDrafts (request : SchedRequest) (scheduledSpecTokenIds : List ℤ)
    (generatedTokenIds : List TokenId) : SchedRequest :=
  if scheduledSpecTokenIds.isEmpty || generatedTokenIds.isEmpty then
    request
  else
    let numAccepted : ℤ := generatedTokenIds.length - 1
    let numRejected := scheduledSpecTokenIds.length - numAccepted
    { request with
      numComputedTokens := if request.numComputedTokens > 0 then
        request.numComputedTokens - numRejected else request.numComputedTokens
      numOutputPlaceholders := if request.numOutputPlaceholders > 0 then
        request.numOutputPlaceholders - numRejected else request.numOutputPlaceholders }

namespace UpdateState

/-- Appends the tokens of a request, or stops a pooling request that has its output. -/
def appendTokens (s : Scheduler) (r : RequestId) (newTokenIds : List TokenId)
    (hasPoolerOutput : Bool) : Except PyError (List TokenId × Bool × Scheduler) :=
  if !newTokenIds.isEmpty then
    s.updateRequestWithOutput r newTokenIds
  else if (s.request r).isPooling && hasPoolerOutput then
    .ok ([], true, s.setRequest r { s.request r with status := .finishedStopped })
  else
    .ok ([], false, s)

/-- Frees a stopped request unless its session goes on. -/
def handleStopped (delayFreeBlocks : RequestId → Bool) (s : Scheduler) (r : RequestId) :
    Except PyError Scheduler := do
  let (finished, s) ← s.handleStoppedRequest r
  if finished then s.freeRequest delayFreeBlocks r else return s

/-- The body of the loop for a request that is not finished yet. -/
def processRequest (delayFreeBlocks : RequestId → Bool) (output : SchedulerOutput)
    (modelRunnerOutput : ModelRunnerOutput) (r : RequestId) (u : UpdateState) :
    Except PyError UpdateState := do
  let generatedTokenIds := modelRunnerOutput.sampledTokenIds r
  let scheduledSpecTokenIds := (output.scheduledSpecDecodeTokens.lookup r).getD []
  let request := (u.scheduler.request r).rejectDrafts scheduledSpecTokenIds generatedTokenIds
  let hasPoolerOutput := modelRunnerOutput.poolerOutput r
  let (newTokenIds, stopped, s) ← appendTokens (u.scheduler.setRequest r request) r
    generatedTokenIds hasPoolerOutput
  let finishReason := if stopped then (s.request r).status.getFinishedReason else none
  if stopped then do
    let s' ← handleStopped delayFreeBlocks s r
    return {
      scheduler := s'
      stoppedRunningReqs := if request.status = .running then u.stoppedRunningReqs ++ [r]
        else u.stoppedRunningReqs
      stoppedPreemptedReqs := if request.status = .running then u.stoppedPreemptedReqs
        else u.stoppedPreemptedReqs ++ [r]
      outputs := u.outputs ++ [{
        requestId := r
        newTokenIds
        finishReason
        hasPoolingOutput := hasPoolerOutput
        stopReason := (s'.request r).stopReason
        numCachedTokens := (s'.request r).numCachedTokens }] }
  else
    return { u with
      scheduler := s
      outputs := if newTokenIds.isEmpty && !hasPoolerOutput then u.outputs else u.outputs ++ [{
        requestId := r
        newTokenIds
        hasPoolingOutput := hasPoolerOutput
        stopReason := (s.request r).stopReason
        numCachedTokens := (s.request r).numCachedTokens }] }

/-- The loop over `num_scheduled_tokens`. -/
def processAll (delayFreeBlocks : RequestId → Bool) (output : SchedulerOutput)
    (modelRunnerOutput : ModelRunnerOutput) (failedReqIds : List RequestId) :
    OrderedDict RequestId ℤ → UpdateState → Except PyError UpdateState
  | [], u => .ok u
  | (r, numTokensScheduled) :: rest, u => do
    pyAssert (numTokensScheduled > 0) "num_tokens_scheduled > 0"
    if r ∈ failedReqIds ∨ r ∉ u.scheduler.requests then
      processAll delayFreeBlocks output modelRunnerOutput failedReqIds rest u
    else do
      let u ← u.processRequest delayFreeBlocks output modelRunnerOutput r
      processAll delayFreeBlocks output modelRunnerOutput failedReqIds rest u

/-- Removes the stopped requests from the queues. -/
def removeStopped (u : UpdateState) : Scheduler :=
  let s := { u.scheduler with running := removeAll u.scheduler.running u.stoppedRunningReqs }
  { s with waiting := if u.stoppedPreemptedReqs.isEmpty then s.waiting
      else RequestQueue.removeRequests s.config.policy s.lt s.waiting u.stoppedPreemptedReqs }

end UpdateState

namespace Scheduler

/-- The first part of `update_from_output`: the requests to skip. -/
def handleKvLoadFailures (s : Scheduler) (kvConnectorOutput : Option KVConnectorOutput) :
    Except PyError (List RequestId × Scheduler) :=
  let invalidBlockIds := (kvConnectorOutput.map (·.invalidBlockIds)).getD []
  if invalidBlockIds.isEmpty then .ok ([], s) else s.handleInvalidBlocks invalidBlockIds

/-- Finishes the requests that failed under the policy `fail`. -/
def finishFailed (s : Scheduler) (delayFreeBlocks : RequestId → Bool)
    (failedReqIds : List RequestId) : Except PyError (List EngineCoreOutput × Scheduler) :=
  if failedReqIds.isEmpty || s.config.recomputeKvLoadFailures then
    .ok ([], s)
  else if failedReqIds.any fun r => r ∉ s.requests then
    .error .keyError
  else do
    let s ← s.finishRequests delayFreeBlocks failedReqIds .finishedError
    return (failedReqIds.map fun r =>
      { requestId := r
        finishReason := (s.request r).status.getFinishedReason
        numCachedTokens := (s.request r).numCachedTokens }, s)

/-- `take_events`: the events are published. -/
def publishEvents (s : Scheduler) : Scheduler :=
  { s with kvCacheManager := s.kvCacheManager.takeEvents.2 }

/-- The last part of `update_from_output`: transfers that are finished, and events. -/
def updateFromKvConnector (s : Scheduler) :
    Option KVConnectorOutput → Except PyError Scheduler
  | none => .ok s.publishEvents
  | some output => do
    let s ← s.updateFromKvXferFinished output
    return s.publishEvents

/-- `update_from_output`. -/
def updateFromOutput (s : Scheduler) (delayFreeBlocks : RequestId → Bool) (output : SchedulerOutput)
    (modelRunnerOutput : ModelRunnerOutput) : Except PyError (List EngineCoreOutput × Scheduler) := do
  let (failedReqIds, s) ← s.handleKvLoadFailures modelRunnerOutput.kvConnectorOutput
  let u ← UpdateState.processAll delayFreeBlocks output modelRunnerOutput failedReqIds
    output.numScheduledTokens { scheduler := s }
  let (failedOutputs, s) ← u.removeStopped.finishFailed delayFreeBlocks failedReqIds
  let s ← s.updateFromKvConnector modelRunnerOutput.kvConnectorOutput
  return (u.outputs ++ failedOutputs, s)

end Scheduler

end VllmRuntime
