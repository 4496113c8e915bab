import VllmRuntime.Model.Session
import VllmRuntime.Shared.Heapq

/-! # Requests in the scheduler and their queues

The fields of `vllm/v1/request.py` that only the scheduler reads, and
`vllm/v1/core/sched/request_queue.py`. A queue holds request ids. Events, trace headers, client
indices and log probabilities are left out. -/

namespace VllmRuntime

inductive RequestStatus where
  | waiting
  | waitingForFsm
  | waitingForRemoteKvs
  | waitingForStreamingReq
  | running
  | preempted
  | finishedStopped
  | finishedLengthCapped
  | finishedAborted
  | finishedIgnored
  | finishedError
  deriving DecidableEq, Repr

inductive FinishReason where
  | stop
  | length
  | abort
  | error
  deriving DecidableEq, Repr

namespace RequestStatus

/-- `status > RequestStatus.PREEMPTED`. -/
def isFinished : RequestStatus → Bool
  | waiting | waitingForFsm | waitingForRemoteKvs | waitingForStreamingReq | running | preempted =>
    false
  | finishedStopped | finishedLengthCapped | finishedAborted | finishedIgnored | finishedError =>
    true

def getFinishedReason : RequestStatus → Option FinishReason
  | finishedStopped => some .stop
  | finishedLengthCapped => some .length
  | finishedAborted => some .abort
  | finishedIgnored => some .length
  | finishedError => some .error
  | waitingForStreamingReq => some .stop
  | _ => none

end RequestStatus

structure SamplingParams where
  maxTokens : ℕ
  minTokens : ℕ := 0
  ignoreEos : Bool := false
  stopTokenIds : List TokenId := []
  deriving DecidableEq, Repr

/-- A `StreamingUpdate` as it waits in `streaming_queue`. -/
structure QueuedUpdate extends StreamingUpdate where
  arrivalTime : ℕ
  samplingParams : Option SamplingParams
  deriving DecidableEq, Repr

/-- A `Request` as the scheduler keeps it. The tokens and the block hashes are those of `base`;
arrival times are only compared. -/
structure SchedRequest where
  base : Request
  priority : ℤ := 0
  arrivalTime : ℕ := 0
  samplingParams : Option SamplingParams
  /-- `pooling_params is not None`. -/
  isPooling : Bool := false
  maxTokens : ℕ
  eosTokenId : Option TokenId := none
  useStructuredOutput : Bool := false
  status : RequestStatus := .waiting
  stopReason : Option TokenId := none
  numOutputPlaceholders : ℤ := 0
  discardLatestAsyncTokens : Bool := false
  /-- Drafts; a placeholder is `-1`. -/
  specTokenIds : List ℤ := []
  numComputedTokens : ℤ := 0
  numCachedTokens : ℤ := -1
  numPreemptions : ℕ := 0
  numExternalComputedTokens : ℤ := 0
  resumable : Bool := false
  /-- `none` in the queue means that the session is finished. -/
  streamingQueue : Option (List (Option QueuedUpdate)) := none
  deriving DecidableEq, Repr

namespace SchedRequest

def requestId (r : SchedRequest) : RequestId := r.base.requestId

def numTokens (r : SchedRequest) : ℕ := r.base.numTokens

def numTokensWithSpec (r : SchedRequest) : ℕ := r.base.numTokens + r.specTokenIds.length

def numOutputTokens (r : SchedRequest) : ℕ := r.base.numOutputTokens

def numPromptTokens (r : SchedRequest) : ℕ := r.base.numPromptTokens

def mmFeatures (r : SchedRequest) : List MultiModalFeatureSpec := r.base.mmFeatures

def hasEncoderInputs (r : SchedRequest) : Bool := !r.mmFeatures.isEmpty

def isFinished (r : SchedRequest) : Bool := r.status.isFinished

/-- The request as the KV cache manager sees it. -/
def kvRequest (r : SchedRequest) : Request :=
  { r.base with numComputedTokens := r.numComputedTokens.toNat }

/-- `Request.__init__`, given what it does with the tokens. -/
def new (base : Request) (samplingParams : Option SamplingParams) (isPooling : Bool)
    (eosTokenId : Option TokenId) (arrivalTime : ℕ) (priority : ℤ)
    (useStructuredOutput resumable : Bool) : Except PyError SchedRequest :=
  let request : SchedRequest :=
    { base, samplingParams, isPooling, eosTokenId, arrivalTime, priority, useStructuredOutput,
      resumable, maxTokens := 1 }
  if isPooling then
    .ok request
  else
    match samplingParams with
    | none => .error (.valueError "sampling_params and pooling_params can't both be unset")
    | some params => .ok { request with
        maxTokens := params.maxTokens
        status := if useStructuredOutput then .waitingForFsm else .waiting }

/-- `Request.__lt__`. Two requests in a queue have different ids. -/
def lt (a b : SchedRequest) : Bool :=
  if a.priority ≠ b.priority then a.priority < b.priority
  else if a.arrivalTime ≠ b.arrivalTime then a.arrivalTime < b.arrivalTime
  else a.requestId < b.requestId

/-- `StreamingUpdate.from_request`. -/
def toUpdate (r : SchedRequest) : Option QueuedUpdate :=
  if r.resumable then
    some { mmFeatures := some r.mmFeatures, promptTokenIds := r.base.promptTokenIds,
           arrivalTime := r.arrivalTime, samplingParams := r.samplingParams }
  else
    none

end SchedRequest

/-! ## Queues -/

inductive SchedulingPolicy where
  | fcfs
  | priority
  deriving DecidableEq, Repr

namespace RequestQueue

/-- `add_request`: `FCFSRequestQueue` is a deque and `PriorityRequestQueue` a heap. -/
def addRequest (policy : SchedulingPolicy) (lt : RequestId → RequestId → Bool)
    (queue : List RequestId) (request : RequestId) : List RequestId :=
  match policy with
  | .fcfs => queue ++ [request]
  | .priority => Heapq.heappush lt queue request

def popRequest (policy : SchedulingPolicy) (lt : RequestId → RequestId → Bool)
    (queue : List RequestId) : Except PyError (RequestId × List RequestId) :=
  match policy, queue with
  | .fcfs, [] => .error .indexError
  | .fcfs, request :: queue => .ok (request, queue)
  | .priority, queue =>
    match Heapq.heappop lt queue with
    | none => .error .indexError
    | some popped => .ok popped

/-- `peek_request`: `self[0]` and `self._heap[0]`. -/
def peekRequest (queue : List RequestId) : Except PyError RequestId :=
  match queue with
  | [] => .error .indexError
  | request :: _ => .ok request

def prependRequest (policy : SchedulingPolicy) (lt : RequestId → RequestId → Bool)
    (queue : List RequestId) (request : RequestId) : List RequestId :=
  match policy with
  | .fcfs => request :: queue
  | .priority => addRequest .priority lt queue request

/-- `__iter__`. -/
def toList (policy : SchedulingPolicy) (lt : RequestId → RequestId → Bool)
    (queue : List RequestId) : List RequestId :=
  match policy with
  | .fcfs => queue
  | .priority => Heapq.drain lt queue.length queue

/-- `prepend_requests`: a deque is extended on the left, which reverses the other queue. -/
def prependRequests (policy : SchedulingPolicy) (lt : RequestId → RequestId → Bool)
    (queue requests : List RequestId) : List RequestId :=
  match policy with
  | .fcfs => requests.reverse ++ queue
  | .priority => (toList .priority lt requests).foldl (addRequest .priority lt) queue

def removeRequests (policy : SchedulingPolicy) (lt : RequestId → RequestId → Bool)
    (queue requests : List RequestId) : List RequestId :=
  match policy with
  | .fcfs => queue.filter fun r => r ∉ requests
  | .priority => Heapq.heapify lt (queue.filter fun r => r ∉ requests)

end RequestQueue

/-- `remove_all`: one item is removed at its first occurrence, several wherever they occur. -/
def removeAll (lst itemsToRemove : List RequestId) : List RequestId :=
  match itemsToRemove with
  | [] => lst
  | [item] => lst.erase item
  | _ => lst.filter fun r => r ∉ itemsToRemove

end VllmRuntime
