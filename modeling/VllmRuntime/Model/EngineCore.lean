import VllmRuntime.Model.SchedulerUpdate
import VllmRuntime.Shared.Runs

/-! # The engine core

The scheduler together with the batch queue of `vllm/v1/engine/core.py`: the batches whose outputs
have not been processed yet. `step` and `step_with_batch_queue` schedule a batch, or process the
output of the oldest one; requests are added and aborted in between. -/

namespace VllmRuntime

structure EngineCore where
  scheduler : Scheduler
  /-- The batches in flight, the oldest first. -/
  batchQueue : List SchedulerOutput := []

inductive EngineCall where
  | addRequest (delayFreeBlocks : RequestId → Bool) (request : SchedRequest)
  | finishRequests (delayFreeBlocks : RequestId → Bool) (requestIds : List RequestId)
      (finishedStatus : RequestStatus)
  | resetPrefixCache (resetRunningRequests : Bool)
  | updateDraftTokenIds (draftTokenIds : List (RequestId × List ℤ))
  | schedule (env : ScheduleEnv)
  | updateFromOutput (delayFreeBlocks : RequestId → Bool) (modelRunnerOutput : ModelRunnerOutput)

def EngineCall.run : EngineCall → EngineCore → Except PyError EngineCore
  | addRequest delayFreeBlocks request, e => do
    let scheduler ← e.scheduler.addRequest delayFreeBlocks request
    return { e with scheduler }
  | finishRequests delayFreeBlocks requestIds finishedStatus, e => do
    let scheduler ← e.scheduler.finishRequests delayFreeBlocks requestIds finishedStatus
    return { e with scheduler }
  | resetPrefixCache resetRunningRequests, e => do
    let (_, scheduler) ← e.scheduler.resetPrefixCache resetRunningRequests
    return { e with scheduler }
  | updateDraftTokenIds draftTokenIds, e =>
    .ok { e with scheduler := e.scheduler.updateDraftTokenIds draftTokenIds }
  | schedule env, e => do
    let (output, scheduler) ← e.scheduler.schedule env
    return { scheduler, batchQueue := e.batchQueue ++ [output] }
  | updateFromOutput delayFreeBlocks modelRunnerOutput, e =>
    match e.batchQueue with
    | [] => .error .indexError
    | output :: batchQueue => do
      let (_, scheduler) ← e.scheduler.updateFromOutput delayFreeBlocks output modelRunnerOutput
      return { scheduler, batchQueue }

namespace EngineCore

/-- The engine before the first request. -/
def new (config : SchedulerConfig) (hasher : Option (Request → List BlockHash))
    (kvCacheManager : KVCacheManager) (encoderCacheSize : ℕ) (request : RequestId → SchedRequest) :
    EngineCore where
  scheduler :=
    { config, hasher, kvCacheManager, request
      encoderCacheManager :=
        { isEncoderDecoder := config.isEncoderDecoder, cacheSize := encoderCacheSize } }

/-- The states that are reached by allowed calls. -/
def Reachable (allowed : EngineCore → EngineCall → Prop) (start : EngineCore) : EngineCore → Prop :=
  Reaches EngineCall.run allowed start

end EngineCore

end VllmRuntime
