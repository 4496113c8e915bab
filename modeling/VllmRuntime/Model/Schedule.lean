import VllmRuntime.Model.Scheduler

/-! # One scheduling step

`Scheduler.schedule` and the functions it calls. The hint `num_common_prefix_blocks` and the
metadata that connectors add to the output are left out. -/

namespace VllmRuntime

/-- What the code outside of the scheduler answers during one call of `schedule`. -/
structure ScheduleEnv where
  /-- `connector.get_num_new_matched_tokens`. -/
  matchedTokens : RequestId → ℕ → Option ℕ × Bool := fun _ _ => (some 0, false)
  /-- The grammar of the request is compiled. -/
  grammarReady : RequestId → Bool := fun _ => false
  /-- `ec_connector.has_cache_item`. -/
  hasCacheItem : String → Bool := fun _ => false

/-- The scheduler and the local variables of `schedule`. -/
structure ScheduleState where
  scheduler : Scheduler
  scheduledNewReqs : List RequestId := []
  scheduledResumedReqs : List RequestId := []
  scheduledRunningReqs : List RequestId := []
  preemptedReqs : List RequestId := []
  reqToNewBlocks : OrderedDict RequestId (List (List BlockRef)) := []
  numScheduledTokens : OrderedDict RequestId ℤ := []
  tokenBudget : ℤ
  scheduledEncoderInputs : OrderedDict RequestId (List ℕ) := []
  encoderComputeBudget : ℤ
  scheduledSpecDecodeTokens : OrderedDict RequestId (List ℤ) := []
  /-- The inputs that the EC connector was told to load. -/
  externalLoads : List String := []
  scheduledLoras : Finset ℕ := ∅
  skippedWaitingRequests : List RequestId := []

namespace ScheduleState

/-- The local variables before the first request. -/
def start (s : Scheduler) : ScheduleState where
  scheduler := s
  tokenBudget := s.config.maxNumScheduledTokens
  encoderComputeBudget := s.config.maxNumEncoderInputTokens

def config (st : ScheduleState) : SchedulerConfig := st.scheduler.config

def request (st : ScheduleState) (r : RequestId) : SchedRequest := st.scheduler.request r

def setEncoderCacheManager (st : ScheduleState) (manager : EncoderCacheManager) : ScheduleState :=
  { st with scheduler := { st.scheduler with encoderCacheManager := manager } }

def setKvCacheManager (st : ScheduleState) (kv : KVCacheManager) : ScheduleState :=
  { st with scheduler := { st.scheduler with kvCacheManager := kv } }

/-- Allocates the encoder cache for the inputs with the given indices. -/
def allocateEncoderInputs (st : ScheduleState) (r : RequestId) (inputIds : List ℕ) :
    Except PyError ScheduleState := do
  let features := inputIds.filterMap ((st.request r).mmFeatures[·]?)
  let manager ← features.foldlM (fun m feature => m.allocate r feature)
    st.scheduler.encoderCacheManager
  return st.setEncoderCacheManager manager

/-- Schedules the encoder inputs that are computed in this step. -/
def scheduleComputedInputs (st : ScheduleState) (r : RequestId) (plan : EncoderPlan) :
    Except PyError ScheduleState :=
  if plan.encoderInputsToSchedule.isEmpty then
    .ok st
  else do
    let st ← st.allocateEncoderInputs r plan.encoderInputsToSchedule
    return { st with
      scheduledEncoderInputs := dictSet st.scheduledEncoderInputs r plan.encoderInputsToSchedule
      encoderComputeBudget := plan.encoderComputeBudget }

/-- The encoder-related part of scheduling a request. -/
def scheduleEncoderInputs (st : ScheduleState) (r : RequestId) (plan : EncoderPlan) :
    Except PyError ScheduleState := do
  let st ← st.scheduleComputedInputs r plan
  let st ← st.allocateEncoderInputs r plan.externalLoadEncoderInput
  return { st with
    externalLoads := st.externalLoads ++ (plan.externalLoadEncoderInput.filterMap
      ((st.request r).mmFeatures[·]?)).map (·.identifier) }

/-! ## Running requests -/

/-- The request is not scheduled while it has output placeholders: with pipeline parallelism, or
when the step in flight is sure to reach `max_tokens`. -/
def waitsForOutput (config : SchedulerConfig) (request : SchedRequest) : Bool :=
  request.numOutputPlaceholders > 0 &&
    (config.usePp || request.numComputedTokens + 2 - request.numOutputPlaceholders ≥
      request.numPromptTokens + request.maxTokens)

/-- `num_new_tokens` of a running request before encoder inputs are looked at. -/
def numNewRunningTokens (config : SchedulerConfig) (request : SchedRequest) (tokenBudget : ℤ) : ℤ :=
  let numNewTokens : ℤ :=
    request.numTokensWithSpec + request.numOutputPlaceholders - request.numComputedTokens
  let threshold : ℤ := config.longPrefillTokenThreshold
  let numNewTokens :=
    if 0 < threshold ∧ threshold < numNewTokens then threshold else numNewTokens
  min (min numNewTokens tokenBudget) (config.maxModelLen - 1 - request.numComputedTokens)

/-- What is to be computed for a running request in this step. -/
def planRunning (env : ScheduleEnv) (st : ScheduleState) (request : SchedRequest) :
    Except PyError EncoderPlan := do
  let plan ← tryScheduleEncoderInputs st.config st.scheduler.encoderCacheManager env.hasCacheItem
    request request.numComputedTokens (numNewRunningTokens st.config request st.tokenBudget)
    st.encoderComputeBudget
  if st.config.needMambaBlockAlignedSplit then do
    let numNewTokens ← Scheduler.mambaBlockAlignedSplit st.config request plan.numNewTokens 0 0
    return { plan with numNewTokens }
  else
    return plan

/-- `a.priority, a.arrival_time` is less than that of `b`. -/
def lessUrgent (a b : SchedRequest) : Bool :=
  a.priority < b.priority || (a.priority = b.priority && a.arrivalTime < b.arrivalTime)

/-- `max(self.running, key=...)`: the first of the least urgent requests. -/
def lowestPriority (request : RequestId → SchedRequest) : List RequestId → Option RequestId
  | [] => none
  | r :: rs => some (rs.foldl (fun worst r =>
    if lessUrgent (request worst) (request r) then r else worst) r)

/-- Takes back what was scheduled for a request that is preempted in the same step. -/
def unschedule (st : ScheduleState) (r : RequestId) : ScheduleState :=
  let inputIds := (st.scheduledEncoderInputs.lookup r).getD []
  let numEmbedsToRestore :=
    ((inputIds.filterMap ((st.request r).mmFeatures[·]?)).map (·.numEmbeds)).sum
  { st with
    scheduledRunningReqs := st.scheduledRunningReqs.erase r
    tokenBudget := st.tokenBudget + (st.numScheduledTokens.lookup r).getD 0
    reqToNewBlocks := dictPop st.reqToNewBlocks r
    numScheduledTokens := dictPop st.numScheduledTokens r
    scheduledSpecDecodeTokens := dictPop st.scheduledSpecDecodeTokens r
    scheduledEncoderInputs := dictPop st.scheduledEncoderInputs r
    encoderComputeBudget := st.encoderComputeBudget + numEmbedsToRestore }

/-- Takes the request to be preempted out of `running`, and `req_index` after that. -/
def popPreempted (st : ScheduleState) (reqIndex : ℕ) :
    Except PyError (RequestId × ScheduleState × ℕ) :=
  match st.config.policy with
  | .priority =>
    match lowestPriority st.request st.scheduler.running with
    | none => .error (.valueError "max() arg is an empty sequence")
    | some r =>
      let st := { st with
        scheduler := { st.scheduler with running := st.scheduler.running.erase r } }
      if r ∈ st.scheduledRunningReqs then
        .ok (r, st.unschedule r, reqIndex - 1)
      else
        .ok (r, st, reqIndex)
  | .fcfs =>
    match st.scheduler.running.getLast? with
    | none => .error .indexError
    | some r =>
      .ok (r, { st with
        scheduler := { st.scheduler with running := st.scheduler.running.dropLast } }, reqIndex)

/-- Preempts a request to make room. -/
def preempt (st : ScheduleState) (reqIndex : ℕ) :
    Except PyError (RequestId × ScheduleState × ℕ) := do
  let (r, st, reqIndex) ← st.popPreempted reqIndex
  let scheduler ← st.scheduler.preemptRequest r
  return (r, { st with scheduler, preemptedReqs := st.preemptedReqs ++ [r] }, reqIndex)

/-- The inner `while` loop: allocates slots, preempting other requests for them. There are no
blocks when the request itself was preempted. Each round but the last preempts a request, so their
number is enough fuel. -/
def allocateLoop (r : RequestId) (numNewTokens : ℤ) :
    ℕ → ScheduleState → ℕ →
      Except PyError (Option (List (List BlockRef)) × ScheduleState × ℕ)
  | 0, _, _ => .error .indexError
  | fuel + 1, st, reqIndex => do
    let (newBlocks, kv) ← st.scheduler.kvCacheManager.allocateRunningSlots (st.request r)
      numNewTokens st.config.numLookaheadTokens
    let st := st.setKvCacheManager kv
    match newBlocks with
    | some blocks => return (some blocks, st, reqIndex)
    | none => do
      let (preemptedReq, st, reqIndex) ← st.preempt reqIndex
      if preemptedReq = r then
        return (none, st, reqIndex)
      else
        allocateLoop r numNewTokens fuel st reqIndex

/-- The drafts that are scheduled with `num_new_tokens` tokens of the request. -/
def scheduledSpecTokens (request : SchedRequest) (numNewTokens : ℤ) : List ℤ :=
  request.specTokenIds.take (numNewTokens + request.numComputedTokens - request.numTokens -
    request.numOutputPlaceholders).toNat

/-- Schedules a running request that has its blocks. -/
def scheduleRunning (st : ScheduleState) (r : RequestId) (plan : EncoderPlan)
    (newBlocks : List (List BlockRef)) : Except PyError ScheduleState :=
  let request := st.request r
  let specTokens := scheduledSpecTokens request plan.numNewTokens
  { st with
    scheduler := st.scheduler.setRequest r { request with specTokenIds := [] }
    scheduledRunningReqs := st.scheduledRunningReqs ++ [r]
    reqToNewBlocks := dictSet st.reqToNewBlocks r newBlocks
    numScheduledTokens := dictSet st.numScheduledTokens r plan.numNewTokens
    tokenBudget := st.tokenBudget - plan.numNewTokens
    scheduledSpecDecodeTokens := if specTokens.isEmpty then st.scheduledSpecDecodeTokens
      else dictSet st.scheduledSpecDecodeTokens r specTokens }.scheduleEncoderInputs r plan

/-- The loop over the running requests. Either `req_index` grows or a request leaves `running` in
each round, so the number of running requests is enough fuel. -/
def runningLoop (env : ScheduleEnv) : ℕ → ScheduleState → ℕ → Except PyError ScheduleState
  | 0, st, _ => .ok st
  | fuel + 1, st, reqIndex =>
    match st.scheduler.running[reqIndex]? with
    | none => .ok st
    | some r =>
      if st.tokenBudget ≤ 0 then
        .ok st
      else if waitsForOutput st.config (st.request r) then
        runningLoop env fuel st (reqIndex + 1)
      else do
        let plan ← st.planRunning env (st.request r)
        let st := st.setEncoderCacheManager plan.manager
        if plan.numNewTokens = 0 then
          runningLoop env fuel st (reqIndex + 1)
        else do
          let (newBlocks, st, reqIndex) ← allocateLoop r plan.numNewTokens
            st.scheduler.running.length st reqIndex
          match newBlocks with
          | none => return st
          | some blocks => do
            let st ← st.scheduleRunning r plan blocks
            runningLoop env fuel st (reqIndex + 1)

/-- Records the adapters of the running requests that were scheduled. -/
def recordLoras (st : ScheduleState) : Except PyError ScheduleState :=
  match st.config.maxLoras with
  | none => .ok st
  | some maxLoras => do
    let scheduledLoras := (st.scheduledRunningReqs.filterMap fun r =>
      (st.request r).base.loraRequest.bind fun lora =>
        if lora.loraIntId > 0 then some lora.loraIntId else none).toFinset
    pyAssert (scheduledLoras.card ≤ maxLoras)
      "len(scheduled_loras) <= self.lora_config.max_loras"
    return { st with scheduledLoras }

/-! ## Waiting requests -/

/-- Takes the request out of `waiting`; it is put back at the end of the step. -/
def skipWaiting (st : ScheduleState) : Except PyError ScheduleState := do
  let s := st.scheduler
  let (r, waiting) ← RequestQueue.popRequest s.config.policy s.lt s.waiting
  return { st with
    scheduler := { s with waiting }
    skippedWaitingRequests :=
      RequestQueue.prependRequest s.config.policy s.lt st.skippedWaitingRequests r }

end ScheduleState

/-- Caches the blocks of a request whose load failed that are valid, or frees all. -/
def Scheduler.keepValidBlocks (s : Scheduler) (request : SchedRequest) :
    Except PyError KVCacheManager :=
  if request.numComputedTokens ≠ 0 then
    s.kvCacheManager.cacheBlocks request.kvRequest request.numComputedTokens.toNat
  else
    s.kvCacheManager.free request.kvRequest

/-- `_update_waiting_for_remote_kv`: whether the transfer is finished. -/
def Scheduler.updateWaitingForRemoteKv (s : Scheduler) (r : RequestId) :
    Except PyError (Bool × Scheduler) := do
  pyAssert s.config.hasConnector "self.connector is not None"
  let request := s.request r
  if r ∉ s.finishedRecvingKvReqIds then
    return (false, s)
  else if r ∈ s.failedRecvingKvReqIds then do
    let kvCacheManager ← s.keepValidBlocks request
    return (true, { s with
      kvCacheManager
      failedRecvingKvReqIds := s.failedRecvingKvReqIds.erase r
      finishedRecvingKvReqIds := s.finishedRecvingKvReqIds.erase r })
  else
    match s.kvCacheManager.coordinator.getBlocks r with
    | [blocks] => do
      let numComputedTokens := min (blocks.length * s.config.blockSize) request.numTokens
      let numComputedTokens : ℤ :=
        if numComputedTokens = request.numTokens then (numComputedTokens : ℤ) - 1
        else numComputedTokens
      let kvCacheManager ← s.kvCacheManager.cacheBlocks request.kvRequest numComputedTokens.toNat
      let s := { s with
        kvCacheManager
        finishedRecvingKvReqIds := s.finishedRecvingKvReqIds.erase r }
      return (true, s.setRequest r { request with numComputedTokens })
    | _ => .error (.valueError "too many values to unpack (expected 1)")

/-- The status checks at the head of the waiting loop: whether the request can be scheduled, and
the scheduler with its new status. -/
def Scheduler.updateWaitingStatus (env : ScheduleEnv) (s : Scheduler) (r : RequestId) :
    Except PyError (Bool × Scheduler) :=
  match (s.request r).status with
  | .waitingForRemoteKvs => do
    let (isReady, s) ← s.updateWaitingForRemoteKv r
    if isReady then
      let request := s.request r
      return (true, s.setRequest r { request with
        status := if request.numPreemptions ≠ 0 then .preempted else .waiting })
    else
      return (false, s)
  | .waitingForFsm =>
    if env.grammarReady r then
      .ok (true, s.setRequest r { s.request r with status := .waiting })
    else
      .ok (false, s)
  | .waitingForStreamingReq => do
    pyAssert ((s.request r).streamingQueue.getD [] = []) "not request.streaming_queue"
    return (false, s)
  | _ => .ok (true, s)

namespace ScheduleState

/-- Scheduling the request would exceed `max_loras`. -/
def exceedsMaxLoras (st : ScheduleState) (request : SchedRequest) : Bool :=
  match st.config.maxLoras, request.base.loraRequest with
  | some maxLoras, some lora =>
    st.scheduledLoras.card = maxLoras && lora.loraIntId ∉ st.scheduledLoras
  | _, _ => false

/-- What is known to be computed for a waiting request. -/
structure CacheLookup where
  newComputedBlocks : List (List BlockRef)
  numNewLocalComputedTokens : ℕ := 0
  numExternalComputedTokens : ℕ := 0
  loadKvAsync : Bool := false
  numComputedTokens : ℤ

/-- Gets the cached tokens of a waiting request. There is no result when the connector does not know
yet. -/
def lookupComputed (env : ScheduleEnv) (s : Scheduler) (r : RequestId) :
    Except PyError (Option CacheLookup × Scheduler) :=
  let request := s.request r
  if request.numComputedTokens = 0 then do
    let (newComputedBlocks, numLocal) ← s.kvCacheManager.getComputedBlocks request.kvRequest
    if s.config.hasConnector then
      match env.matchedTokens r numLocal with
      | (none, _) => return (none, s)
      | (some extTokens, loadKvAsync) =>
        return (some
          { newComputedBlocks, loadKvAsync
            numNewLocalComputedTokens := numLocal
            numExternalComputedTokens := extTokens
            numComputedTokens := numLocal + extTokens },
          s.setRequest r { request with numExternalComputedTokens := extTokens })
    else
      return (some
        { newComputedBlocks
          numNewLocalComputedTokens := numLocal
          numComputedTokens := numLocal }, s)
  else
    .ok (some
      { newComputedBlocks := s.kvCacheManager.emptyKvCacheBlocks
        numComputedTokens := request.numComputedTokens }, s)

/-- The part of the plan before the block-aligned split: `false` breaks the loop. -/
def planWaitingTokens (env : ScheduleEnv) (st : ScheduleState) (request : SchedRequest)
    (lookup : CacheLookup) : Except PyError (Bool × EncoderPlan) :=
  let unchanged : EncoderPlan :=
    { manager := st.scheduler.encoderCacheManager, numNewTokens := 0,
      encoderComputeBudget := st.encoderComputeBudget }
  if lookup.loadKvAsync then do
    pyAssert (lookup.numExternalComputedTokens > 0) "num_external_computed_tokens > 0"
    return (true, unchanged)
  else
    let numNewTokens : ℤ := request.numTokens - lookup.numComputedTokens
    let threshold : ℤ := st.config.longPrefillTokenThreshold
    let numNewTokens :=
      if 0 < threshold ∧ threshold < numNewTokens then threshold else numNewTokens
    if !st.config.enableChunkedPrefill && numNewTokens > st.tokenBudget then
      .ok (false, unchanged)
    else do
      let numNewTokens := min numNewTokens st.tokenBudget
      pyAssert (numNewTokens > 0) "num_new_tokens > 0"
      let plan ← tryScheduleEncoderInputs st.config st.scheduler.encoderCacheManager
        env.hasCacheItem request lookup.numComputedTokens numNewTokens st.encoderComputeBudget
      return (plan.numNewTokens ≠ 0, plan)

/-- What is to be computed for a waiting request in this step: `false` breaks the loop. -/
def planWaiting (env : ScheduleEnv) (st : ScheduleState) (request : SchedRequest)
    (lookup : CacheLookup) : Except PyError (Bool × EncoderPlan) := do
  let (goesOn, plan) ← st.planWaitingTokens env request lookup
  if goesOn && st.config.needMambaBlockAlignedSplit then do
    let numNewTokens ← Scheduler.mambaBlockAlignedSplit st.config request plan.numNewTokens
      lookup.numNewLocalComputedTokens lookup.numExternalComputedTokens
    return (numNewTokens ≠ 0, { plan with numNewTokens })
  else
    return (goesOn, plan)

/-- The arguments of `allocate_slots` for a waiting request. -/
def waitingAllocateArgs (config : SchedulerConfig) (request : SchedRequest) (lookup : CacheLookup)
    (numNewTokens : ℤ) : KVCacheManager.AllocateArgs where
  numNewTokens := numNewTokens.toNat
  numNewComputedTokens := lookup.numNewLocalComputedTokens
  numLookaheadTokens := if request.numComputedTokens = 0 then 0 else config.numLookaheadTokens
  numExternalComputedTokens := lookup.numExternalComputedTokens
  delayCacheBlocks := lookup.loadKvAsync
  numEncoderTokens := if config.isEncoderDecoder && request.hasEncoderInputs then
    config.numEncoderMaxInputTokens else 0

/-- Puts a request whose blocks are loaded asynchronously aside. -/
def startLoading (st : ScheduleState) (r : RequestId) : Except PyError ScheduleState := do
  let st ← st.skipWaiting
  return { st with
    scheduler := st.scheduler.setRequest r { st.request r with status := .waitingForRemoteKvs } }

/-- The lists of new and of resumed requests with a request of the given status. -/
def recordScheduled (st : ScheduleState) (r : RequestId) :
    RequestStatus → Except PyError (List RequestId × List RequestId)
  | .waiting => .ok (st.scheduledNewReqs ++ [r], st.scheduledResumedReqs)
  | .preempted => .ok (st.scheduledNewReqs, st.scheduledResumedReqs ++ [r])
  | _ => .error (.runtimeError "Invalid request status")

/-- Moves a waiting request that has its blocks to `running`. -/
def moveToRunning (st : ScheduleState) (r : RequestId) (lookup : CacheLookup) (plan : EncoderPlan) :
    Except PyError ScheduleState := do
  let s := st.scheduler
  let request := s.request r
  let (_, waiting) ← RequestQueue.popRequest s.config.policy s.lt s.waiting
  let (newReqs, resumedReqs) ← st.recordScheduled r request.status
  let s := { s with waiting, running := s.running ++ [r] }
  { st with
    scheduler := s.setRequest r { request with
      status := .running
      numComputedTokens := lookup.numComputedTokens
      numCachedTokens := if request.numCachedTokens < 0 then lookup.numComputedTokens
        else request.numCachedTokens }
    scheduledNewReqs := newReqs
    scheduledResumedReqs := resumedReqs
    scheduledLoras := match st.config.maxLoras, request.base.loraRequest with
      | some _, some lora => insert lora.loraIntId st.scheduledLoras
      | _, _ => st.scheduledLoras
    reqToNewBlocks := dictSet st.reqToNewBlocks r (s.kvCacheManager.coordinator.getBlocks r)
    numScheduledTokens := dictSet st.numScheduledTokens r plan.numNewTokens
    tokenBudget := st.tokenBudget - plan.numNewTokens }.scheduleEncoderInputs r plan

/-- The body of the waiting loop for a request whose cached tokens are known: `false` breaks the
loop. -/
def scheduleWaiting (env : ScheduleEnv) (st : ScheduleState) (r : RequestId)
    (lookup : CacheLookup) : Except PyError (Bool × ScheduleState) := do
  let request := st.request r
  let (goesOn, plan) ← st.planWaiting env request lookup
  let st := st.setEncoderCacheManager plan.manager
  if !goesOn then
    return (false, st)
  else do
    let (newBlocks, kv) ← st.scheduler.kvCacheManager.allocateSlots request.kvRequest
      lookup.newComputedBlocks (waitingAllocateArgs st.config request lookup plan.numNewTokens)
    let st := st.setKvCacheManager kv
    if newBlocks.isNone then
      return (false, st.setEncoderCacheManager
        (st.scheduler.encoderCacheManager.free r request.mmFeatures))
    else if lookup.loadKvAsync then do
      let st ← st.startLoading r
      return (true, st)
    else do
      let st ← st.moveToRunning r lookup plan
      return (true, st)

/-- The body of the waiting loop: `false` breaks the loop. -/
def waitingStep (env : ScheduleEnv) (st : ScheduleState) : Except PyError (Bool × ScheduleState) := do
  let r ← RequestQueue.peekRequest st.scheduler.waiting
  let (isReady, scheduler) ← st.scheduler.updateWaitingStatus env r
  let st := { st with scheduler }
  if !isReady || st.exceedsMaxLoras (st.request r) then do
    let st ← st.skipWaiting
    return (true, st)
  else do
    let (lookup, scheduler) ← lookupComputed env st.scheduler r
    let st := { st with scheduler }
    match lookup with
    | none => do
      let st ← st.skipWaiting
      return (true, st)
    | some lookup => st.scheduleWaiting env r lookup

/-- The loop over the waiting requests. A request leaves `waiting` in each round that does not break
the loop, so their number is enough fuel. -/
def waitingLoop (env : ScheduleEnv) : ℕ → ScheduleState → Except PyError ScheduleState
  | 0, st => .ok st
  | fuel + 1, st =>
    if st.scheduler.waiting.isEmpty || st.tokenBudget ≤ 0 ||
        st.scheduler.running.length = st.config.maxNumRunningReqs then
      .ok st
    else do
      let (goesOn, st) ← st.waitingStep env
      if goesOn then waitingLoop env fuel st else return st

/-- Puts the skipped requests back. -/
def putBackSkipped (st : ScheduleState) : ScheduleState :=
  if st.skippedWaitingRequests.isEmpty then
    st
  else
    let s := st.scheduler
    { st with
      scheduler := { s with
        waiting := RequestQueue.prependRequests s.config.policy s.lt s.waiting
          st.skippedWaitingRequests } }

/-- The assertions after the loops. -/
def checkConstraints (st : ScheduleState) : Except PyError Unit := do
  let numRunning := st.scheduler.running.length
  pyAssert ((st.numScheduledTokens.map Prod.snd).sum ≤ st.config.maxNumScheduledTokens)
    "total_num_scheduled_tokens <= self.max_num_scheduled_tokens"
  pyAssert (st.tokenBudget ≥ 0) "token_budget >= 0"
  pyAssert (numRunning ≤ st.config.maxNumRunningReqs)
    "len(self.running) <= self.max_num_running_reqs"
  pyAssert (st.scheduledNewReqs.length + st.scheduledResumedReqs.length +
    st.scheduledRunningReqs.length ≤ numRunning)
    "len(scheduled_new_reqs) + len(scheduled_resumed_reqs) + len(scheduled_running_reqs)"

/-- The waiting requests are only looked at if no running request was preempted. -/
def scheduleWaitingRequests (env : ScheduleEnv) (st : ScheduleState) : Except PyError ScheduleState :=
  if st.preemptedReqs.isEmpty then waitingLoop env st.scheduler.waiting.length st else .ok st

/-- The two loops and the assertions after them. -/
def loops (env : ScheduleEnv) (s : Scheduler) : Except PyError ScheduleState := do
  let st ← runningLoop env s.running.length (start s) 0
  let st ← st.recordLoras
  let st ← st.scheduleWaitingRequests env
  let st := st.putBackSkipped
  st.checkConstraints
  return st

end ScheduleState

/-! ## The output -/

structure NewRequestData where
  reqId : RequestId
  promptTokenIds : Option (List TokenId)
  mmFeatures : List MultiModalFeatureSpec
  samplingParams : Option SamplingParams
  isPooling : Bool
  blockIds : List (List BlockRef)
  numComputedTokens : ℤ
  loraRequest : Option LoRARequest
  promptEmbeds : Option (List Bytes)
  prefillTokenIds : Option (List TokenId)
  deriving DecidableEq, Repr

/-- One row of `CachedRequestData`. -/
structure CachedRequestData where
  reqId : RequestId
  isResumed : Bool
  newTokenIds : Option (List TokenId)
  allTokenIds : Option (List TokenId)
  newBlockIds : List (List BlockRef)
  numComputedTokens : ℤ
  numOutputTokens : ℤ
  deriving DecidableEq, Repr

structure SchedulerOutput where
  scheduledNewReqs : List NewRequestData
  scheduledCachedReqs : List CachedRequestData
  numScheduledTokens : OrderedDict RequestId ℤ
  scheduledSpecDecodeTokens : OrderedDict RequestId (List ℤ)
  scheduledEncoderInputs : OrderedDict RequestId (List ℕ)
  /-- The inputs that the EC connector loads. -/
  externalLoads : List String
  preemptedReqIds : List RequestId
  finishedReqIds : List RequestId
  freeEncoderMmHashes : List String
  hasStructuredOutputRequests : Bool := false
  pendingStructuredOutputTokens : Bool := false
  deriving DecidableEq, Repr

def SchedulerOutput.totalNumScheduledTokens (output : SchedulerOutput) : ℤ :=
  (output.numScheduledTokens.map Prod.snd).sum

namespace ScheduleState

/-- `NewRequestData.from_request`. -/
def newRequestData (st : ScheduleState) (r : RequestId) : NewRequestData :=
  let request := st.request r
  { reqId := r
    promptTokenIds := request.base.promptTokenIds
    mmFeatures := request.mmFeatures
    samplingParams := request.samplingParams
    isPooling := request.isPooling
    blockIds := (st.reqToNewBlocks.lookup r).getD []
    numComputedTokens := request.numComputedTokens
    loraRequest := request.base.loraRequest
    promptEmbeds := request.base.promptEmbeds
    prefillTokenIds := if st.config.useV2ModelRunner then some request.base.allTokenIds else none }

/-- The row of `_make_cached_request_data` for one request. -/
def cachedRequestData (st : ScheduleState) (isResumed : Bool) (r : RequestId) :
    Except PyError CachedRequestData := do
  let request := st.request r
  let scheduledInPrevStep := r ∈ st.scheduler.prevStepScheduledReqIds
  pyAssert (!isResumed || !scheduledInPrevStep) "not scheduled_in_prev_step"
  let numTokens := (st.numScheduledTokens.lookup r).getD 0 -
    ((st.scheduledSpecDecodeTokens.lookup r).getD []).length
  return {
    reqId := r
    isResumed
    newTokenIds := if st.config.usePp then
      some ((request.base.allTokenIds.drop request.numComputedTokens.toNat).take numTokens.toNat)
      else none
    allTokenIds := if scheduledInPrevStep then none else some request.base.allTokenIds
    newBlockIds := (st.reqToNewBlocks.lookup r).getD []
    numComputedTokens := request.numComputedTokens
    numOutputTokens := request.numOutputTokens + request.numOutputPlaceholders }

/-- Constructs the scheduler output. -/
def makeOutput (st : ScheduleState) : Except PyError (SchedulerOutput × Scheduler) := do
  let newReqs := if st.config.useV2ModelRunner then
    st.scheduledNewReqs ++ st.scheduledResumedReqs else st.scheduledNewReqs
  let resumedReqs := if st.config.useV2ModelRunner then [] else st.scheduledResumedReqs
  let runningData ← st.scheduledRunningReqs.mapM (st.cachedRequestData false)
  let resumedData ← resumedReqs.mapM (st.cachedRequestData true)
  let (freeEncoderMmHashes, encoderCacheManager) := st.scheduler.encoderCacheManager.getFreedMmHashes
  return (
    { scheduledNewReqs := newReqs.map st.newRequestData
      scheduledCachedReqs := runningData ++ resumedData
      numScheduledTokens := st.numScheduledTokens
      scheduledSpecDecodeTokens := st.scheduledSpecDecodeTokens
      scheduledEncoderInputs := st.scheduledEncoderInputs
      externalLoads := st.externalLoads
      preemptedReqIds := st.preemptedReqs
      finishedReqIds := st.scheduler.finishedReqIds
      freeEncoderMmHashes },
    { st.scheduler with
      encoderCacheManager
      prevStepScheduledReqIds := st.numScheduledTokens.map Prod.fst })

end ScheduleState

namespace Scheduler

/-- `_free_encoder_inputs`. -/
def freeEncoderInputs (s : Scheduler) (r : RequestId) : EncoderCacheManager :=
  let request := s.request r
  let inputIds := (s.encoderCacheManager.getCachedInputIds request.mmFeatures).filter fun i =>
    (s.config.isEncoderDecoder && request.numComputedTokens > 0) ||
      (request.mmFeatures[i]?).any fun feature =>
        feature.mmPosition.stop ≤ request.numComputedTokens
  s.encoderCacheManager.freeInputs r request.mmFeatures inputIds

/-- Advances `num_computed_tokens` of a scheduled request. -/
def advance (s : Scheduler) (r : RequestId) (numScheduledToken : ℤ) : Scheduler :=
  let request := s.request r
  let s := s.setRequest r { request with
    numComputedTokens := request.numComputedTokens + numScheduledToken }
  if request.hasEncoderInputs then { s with encoderCacheManager := s.freeEncoderInputs r } else s

/-- The body of the loop of `AsyncScheduler._update_after_schedule`. -/
def addPlaceholders (s : Scheduler) (r : RequestId) (curNumSpecTokens : ℕ) : Scheduler :=
  let request := s.request r
  if request.numComputedTokens =
      request.numTokens + request.numOutputPlaceholders + curNumSpecTokens then
    s.setRequest r { request with
      numOutputPlaceholders := request.numOutputPlaceholders + (1 + curNumSpecTokens)
      specTokenIds := List.replicate s.config.numSpecTokens (-1) }
  else
    s

/-- `_update_after_schedule` of the two schedulers. -/
def updateAfterSchedule (s : Scheduler) (output : SchedulerOutput) : SchedulerOutput × Scheduler :=
  let s := output.numScheduledTokens.foldl (fun s e => s.advance e.1 e.2) s
  let s := { s with finishedReqIds := [] }
  if s.config.asyncScheduling then
    let reqIds := output.numScheduledTokens.map Prod.fst
    ({ output with
        hasStructuredOutputRequests := reqIds.any fun r => (s.request r).useStructuredOutput
        pendingStructuredOutputTokens := reqIds.any fun r =>
          (s.request r).useStructuredOutput && (s.request r).numOutputPlaceholders > 0 },
      reqIds.foldl (fun s r =>
        s.addPlaceholders r ((output.scheduledSpecDecodeTokens.lookup r).getD []).length) s)
  else
    (output, s)

def schedule (env : ScheduleEnv) (s : Scheduler) : Except PyError (SchedulerOutput × Scheduler) := do
  let st ← ScheduleState.loops env s
  let (output, s) ← st.makeOutput
  return s.updateAfterSchedule output

end Scheduler

end VllmRuntime
