import VllmRuntime.Model.Detokenizer

/-! # The front end

`vllm/v1/engine/output_processor.py` with `ParentRequest` of `vllm/v1/engine/parallel_sampling.py`,
`RequestOutput.add` of `vllm/outputs.py` and the fan-out of `AsyncLLM.add_request`. Requests that generate
and do not stream their input; log-probabilities, statistics and what a `RequestOutput` says about the
prompt are left out. -/

namespace VllmRuntime.Frontend

open Function

inductive RequestOutputKind where
  | cumulative
  | delta
  | finalOnly
  deriving DecidableEq, Repr

/-- The sampling parameters that the front end reads. No stop string is empty and `n` is positive, as
`SamplingParams._verify_args` checks. -/
structure SamplingParams where
  n : ℕ
  outputKind : RequestOutputKind
  stop : List Text := []
  minTokens : ℕ := 0
  includeStopStrInOutput : Bool := false
  n_pos : 0 < n := by decide
  stop_ne_nil : ∀ s ∈ stop, s ≠ [] := by decide

/-- An internal request id: that of a request of a client, which is unique by its random suffix, or
`f"{index}_{request_id}"`. -/
inductive InternalId where
  | client (id : String)
  | child (index : ℕ) (id : String)
  deriving DecidableEq, Repr

inductive StopReason where
  | token (tokenId : TokenId)
  | text (stop : Text)
  deriving DecidableEq, Repr

structure EngineCoreOutput where
  requestId : InternalId
  newTokenIds : List TokenId
  finishReason : Option FinishReason := none
  stopReason : Option StopReason := none
  deriving DecidableEq, Repr

structure CompletionOutput where
  index : ℕ
  text : Text
  tokenIds : List TokenId
  finishReason : Option FinishReason
  stopReason : Option StopReason
  deriving DecidableEq, Repr

/-! ## Outputs of a request -/

/-- The list of an output: one of its own, or the `output_aggregator` of the parent request itself. -/
inductive Outputs where
  | own (completions : List CompletionOutput)
  | aggregator
  deriving DecidableEq, Repr

structure RequestOutput where
  outputs : Outputs
  finished : Bool
  deriving DecidableEq, Repr

/-- Merges a later completion of the same index. -/
def CompletionOutput.merge (completion next : CompletionOutput) : CompletionOutput where
  index := completion.index
  text := completion.text ++ next.text
  tokenIds := completion.tokenIds ++ next.tokenIds
  finishReason := next.finishReason
  stopReason := next.stopReason

/-- The inner loop of `RequestOutput.add`. -/
def addCompletion (aggregate : Bool) (next : CompletionOutput) : List CompletionOutput → List CompletionOutput
  | [] => [next]
  | completion :: completions =>
    if completion.index = next.index then
      (if aggregate then completion.merge next else next) :: completions
    else completion :: addCompletion aggregate next completions

/-- `RequestOutput.add`. Two outputs of a parent that aggregates share one list, in which every completion
finds itself first; a placeholder has no index. -/
def RequestOutput.add (aggregate : Bool) (outputAggregator : List (Option CompletionOutput))
    (output next : RequestOutput) : Except PyError RequestOutput :=
  let finished := output.finished || next.finished
  match output.outputs, next.outputs with
  | .own completions, .own nextCompletions =>
    .ok ⟨.own (nextCompletions.foldl (fun completions next => addCompletion aggregate next completions)
      completions), finished⟩
  | .aggregator, .aggregator =>
    if outputAggregator.any (·.isNone) then .error .attributeError else .ok ⟨.aggregator, finished⟩
  | _, _ => .error .attributeError

/-- `RequestOutputCollector`. -/
structure RequestOutputCollector where
  aggregate : Bool
  output : Option RequestOutput := none
  deriving DecidableEq, Repr

/-- `put`. -/
def RequestOutputCollector.put (collector : RequestOutputCollector)
    (outputAggregator : List (Option CompletionOutput)) (output : RequestOutput) :
    Except PyError RequestOutputCollector :=
  match collector.output with
  | none => .ok { collector with output := some output }
  | some pending => do
    let output ← pending.add collector.aggregate outputAggregator output
    return { collector with output := some output }

/-- `put` of an output that may be `None`. -/
def RequestOutputCollector.putOutput (collector : RequestOutputCollector)
    (outputAggregator : List (Option CompletionOutput)) :
    Option RequestOutput → Except PyError RequestOutputCollector
  | none => .ok collector
  | some output => collector.put outputAggregator output

/-- What a client sees of an output at the time it takes it. -/
structure SeenOutput where
  outputs : List (Option CompletionOutput)
  finished : Bool
  deriving DecidableEq, Repr

def RequestOutput.seen (outputAggregator : List (Option CompletionOutput)) (output : RequestOutput) :
    SeenOutput where
  outputs := match output.outputs with
    | .own completions => completions.map some
    | .aggregator => outputAggregator
  finished := output.finished

/-! ## Parent requests -/

structure ParentRequest where
  childRequests : List InternalId := []
  outputAggregator : List (Option CompletionOutput)
  deriving DecidableEq, Repr

/-- `ParentRequest.__init__`. -/
def ParentRequest.new (params : SamplingParams) : ParentRequest where
  outputAggregator := if params.outputKind = .finalOnly then List.replicate params.n none else []

/-- `get_outputs`; the list is `none` if it is empty. -/
def ParentRequest.getOutputs (parent : ParentRequest) (outputKind : RequestOutputKind)
    (childRequestId : InternalId) (completion : CompletionOutput) :
    ParentRequest × Option Outputs × Bool :=
  let finished := completion.finishReason.isSome
  let alreadyFinishedAndReturned := finished && !(parent.childRequests.contains childRequestId)
  let childRequests := if finished then parent.childRequests.erase childRequestId else parent.childRequests
  if outputKind ≠ .finalOnly then
    ({ parent with childRequests },
      if alreadyFinishedAndReturned then none else some (.own [completion]),
      childRequests.isEmpty)
  else
    ({ childRequests, outputAggregator := parent.outputAggregator.set completion.index (some completion) },
      if childRequests.isEmpty then some .aggregator else none,
      childRequests.isEmpty)

/-! ## The state of a request -/

structure RequestState (σ : Type) where
  clientId : String
  externalReqId : String
  hasParent : Bool
  requestIndex : ℕ
  outputKind : RequestOutputKind
  detokenizer : IncrementalDetokenizer σ
  streamInterval : ℕ
  sentTokensOffset : ℕ := 0

section RequestState

variable {σ : Type}

/-- What a client gives besides the parameters: without a tokenizer `none`, else what the tokenizer starts
with and the tokens that the detokenizer has in front. -/
abbrev Tokenizer (σ : Type) := Option (σ × List TokenId)

/-- `IncrementalDetokenizer.from_new_request`. -/
def IncrementalDetokenizer.fromNewRequest (tokenizer : Tokenizer σ) (params : SamplingParams) :
    IncrementalDetokenizer σ :=
  match tokenizer with
  | none => ⟨[], 0, none⟩
  | some (decodeState, promptTokenIds) =>
    let stopBufferLength :=
      if params.stop ≠ [] ∧ !params.includeStopStrInOutput then
        (params.stop.map (·.length)).foldr max 0 - 1
      else 0
    { tokenIds := promptTokenIds, promptLen := promptTokenIds.length
      text := some { stop := params.stop, minTokens := params.minTokens,
                     includeStopStrInOutput := params.includeStopStrInOutput,
                     stopBufferLength, decodeState } }

/-- `_new_completion_output`. -/
def RequestState.newCompletionOutput (state : RequestState σ) (tokenIds : List TokenId)
    (finishReason : Option FinishReason) (stopReason : Option StopReason) :
    RequestState σ × CompletionOutput :=
  let next := state.detokenizer.getNextOutputText finishReason.isSome (state.outputKind = .delta)
  ({ state with detokenizer := next.1 },
    { index := state.requestIndex
      text := next.2
      tokenIds := if state.outputKind = .delta then tokenIds else next.1.outputTokenIds
      finishReason
      stopReason := if finishReason.isSome then stopReason else none })

/-- Where `make_request_output` returns `None` at once: an output before the final one in FINAL_ONLY mode,
or one before the stream interval is reached. -/
def RequestState.holdsBack (state : RequestState σ) (finished : Bool) : Bool :=
  (!finished && decide (state.outputKind = .finalOnly)) ||
    (decide (1 < state.streamInterval) && !(finished || state.sentTokensOffset == 0 ||
      decide (state.streamInterval ≤ state.detokenizer.outputTokenIds.length - state.sentTokensOffset)))

/-- The tokens to send: with a stream interval in DELTA mode, all that were not sent yet. -/
def RequestState.takeTokens (state : RequestState σ) (newTokenIds : List TokenId) :
    List TokenId × RequestState σ :=
  if 1 < state.streamInterval ∧ state.outputKind = .delta then
    (state.detokenizer.outputTokenIds.drop state.sentTokensOffset,
      { state with sentTokensOffset := state.detokenizer.outputTokenIds.length })
  else (newTokenIds, state)

/-- `make_request_output`, with the parent request. -/
def RequestState.makeRequestOutput (state : RequestState σ) (requestId : InternalId)
    (parent : ParentRequest) (newTokenIds : List TokenId) (finishReason : Option FinishReason)
    (stopReason : Option StopReason) : RequestState σ × ParentRequest × Option RequestOutput :=
  if state.holdsBack finishReason.isSome then (state, parent, none)
  else
    let taken := state.takeTokens newTokenIds
    let made := taken.2.newCompletionOutput taken.1 finishReason stopReason
    if !state.hasParent then (made.1, parent, some ⟨.own [made.2], finishReason.isSome⟩)
    else
      let got := parent.getOutputs state.outputKind requestId made.2
      (made.1, got.1, got.2.1.map (⟨·, got.2.2⟩))

end RequestState

/-- The finish reason and the stop reason after the stop strings were checked. -/
def EngineCoreOutput.stopReasons (output : EngineCoreOutput) (stopString : Option Text) :
    Option FinishReason × Option StopReason :=
  match stopString with
  | some stop => (some .stop, some (.text stop))
  | none => (output.finishReason, output.stopReason)

/-! ## The output processor -/

/-- A request of a client: how many of its children the fan-out of `add_request` has added, its parent
request (used if `n > 1`) and its queue. -/
structure Client (σ : Type) where
  params : SamplingParams
  externalReqId : String
  tokenizer : Tokenizer σ
  added : ℕ := 0
  parent : ParentRequest
  queue : RequestOutputCollector

/-- The id of a child of a client; with `n = 1` it is that of the request itself. -/
def Client.childId {σ : Type} (client : Client σ) (id : String) (index : ℕ) : InternalId :=
  if client.params.n = 1 then .client id else .child index id

/-- `make_request_output` of a request and `put` of what it gives. -/
def Client.deliver {σ : Type} (client : Client σ) (requestId : InternalId) (state : RequestState σ)
    (newTokenIds : List TokenId) (finishReason : Option FinishReason) (stopReason : Option StopReason) :
    Except PyError (RequestState σ × Client σ) := do
  let made := state.makeRequestOutput requestId client.parent newTokenIds finishReason stopReason
  let queue ← client.queue.putOutput made.2.1.outputAggregator made.2.2
  return (made.1, { client with parent := made.2.1, queue })

/-- The process of `AsyncLLM`. Dictionaries are functions; `toAbort` are the ids that were sent to the
engine core to be aborted. -/
structure AsyncLLM (σ : Type) where
  streamInterval : ℕ
  requestStates : InternalId → Option (RequestState σ)
  parentRequests : String → Bool
  externalReqIds : String → List InternalId
  clients : String → Option (Client σ)
  toAbort : List InternalId

namespace AsyncLLM

variable {σ : Type}

def new (streamInterval : ℕ) : AsyncLLM σ where
  streamInterval := streamInterval
  requestStates _ := none
  parentRequests _ := false
  externalReqIds _ := []
  clients _ := none
  toAbort := []

def setClient (s : AsyncLLM σ) (id : String) (client : Client σ) : AsyncLLM σ :=
  { s with clients := update s.clients id (some client) }

/-- `add_request` up to the fan-out. The internal id is new. -/
def submit (s : AsyncLLM σ) (id : String) (externalReqId : String) (params : SamplingParams)
    (tokenizer : Tokenizer σ) : AsyncLLM σ :=
  s.setClient id { params, externalReqId, tokenizer, parent := .new params
                   queue := { aggregate := params.outputKind = .delta } }

/-- `OutputProcessor.add_request`. -/
def addRequest (s : AsyncLLM σ) (id : String) (client : Client σ) (requestId : InternalId) : AsyncLLM σ :=
  let state : RequestState σ :=
    { clientId := id, externalReqId := client.externalReqId, hasParent := decide (client.params.n ≠ 1)
      requestIndex := client.added, outputKind := client.params.outputKind
      detokenizer := .fromNewRequest client.tokenizer client.params, streamInterval := s.streamInterval }
  { s with
    requestStates := update s.requestStates requestId (some state)
    parentRequests :=
      if client.params.n ≠ 1 then update s.parentRequests id true else s.parentRequests
    externalReqIds := update s.externalReqIds client.externalReqId
      (s.externalReqIds client.externalReqId ++ [requestId]) }

/-- One turn of the fan-out, up to its `await`: `get_child_info` and `_add_request`. -/
def fanOut (s : AsyncLLM σ) (id : String) : AsyncLLM σ :=
  match s.clients id with
  | none => s
  | some client =>
    if client.params.n ≤ client.added then s
    else
      let requestId := client.childId id client.added
      let parent := if client.params.n = 1 then client.parent else
        { client.parent with childRequests := client.parent.childRequests.insert requestId }
      (s.addRequest id client requestId).setClient id { client with added := client.added + 1, parent }

/-- `internal_ids.remove(request_id)`, and the entry is deleted when it is empty. -/
def removeExternal (s : AsyncLLM σ) (externalReqId : String) (requestId : InternalId) :
    Except PyError (AsyncLLM σ) :=
  let internalIds := s.externalReqIds externalReqId
  if internalIds.contains requestId then
    let internalIds := internalIds.erase requestId
    .ok { s with externalReqIds := update s.externalReqIds externalReqId internalIds }
  else .error (.valueError "list.remove(x): x not in list")

/-- `make_request_output` of a request and `put` of what it gives, in the state of the process. -/
def emit (s : AsyncLLM σ) (requestId : InternalId) (state : RequestState σ) (newTokenIds : List TokenId)
    (finishReason : Option FinishReason) (stopReason : Option StopReason) :
    Except PyError (RequestState σ × AsyncLLM σ) :=
  match s.clients state.clientId with
  | none => .error .keyError
  | some client => do
    let (state', client) ← client.deliver requestId state newTokenIds finishReason stopReason
    return (state', s.setClient state.clientId client)

/-- `_finish_request`. -/
def finishRequest (s : AsyncLLM σ) (requestId : InternalId) (state : RequestState σ) :
    Except PyError (AsyncLLM σ) := do
  let s := { s with requestStates := update s.requestStates requestId none }
  let s ← s.removeExternal state.externalReqId requestId
  let noChildren := (s.clients state.clientId).all (·.parent.childRequests.isEmpty)
  return if state.hasParent && noChildren then
      { s with parentRequests := update s.parentRequests state.clientId false }
    else s

section Outputs

variable (decodeNext : σ → TokenId → Text × σ)

/-- One turn of the loop of `process_outputs`. -/
def processOutput (s : AsyncLLM σ) (output : EngineCoreOutput) : Except PyError (AsyncLLM σ) :=
  match s.requestStates output.requestId with
  | none => .ok s
  | some state => do
    let updated := state.detokenizer.update decodeNext output.newTokenIds (output.finishReason = some .stop)
    let reasons := output.stopReasons updated.2
    let (state, s) ← s.emit output.requestId { state with detokenizer := updated.1 } output.newTokenIds
      reasons.1 reasons.2
    if reasons.1.isSome then
      let s ← s.finishRequest output.requestId state
      return if output.finishReason.isNone then { s with toAbort := s.toAbort ++ [output.requestId] } else s
    else
      return { s with requestStates := update s.requestStates output.requestId (some state) }

/-- `process_outputs`. -/
def processOutputs (s : AsyncLLM σ) (outputs : List EngineCoreOutput) : Except PyError (AsyncLLM σ) :=
  outputs.foldlM (processOutput decodeNext) s

end Outputs

/-! ## Aborts -/

/-- The first loop of `abort_requests`, for an internal id. -/
def unmapInternal (s : AsyncLLM σ) (requestId : InternalId) : Except PyError (AsyncLLM σ) :=
  match s.requestStates requestId with
  | none => .ok s
  | some state => s.removeExternal state.externalReqId requestId

/-- The first loop of `abort_requests`, for an external id. -/
def unmapExternal (collected : AsyncLLM σ × List InternalId) (externalReqId : String) :
    AsyncLLM σ × List InternalId :=
  ({ collected.1 with externalReqIds := update collected.1.externalReqIds externalReqId [] },
    collected.2 ++ collected.1.externalReqIds externalReqId)

/-- The second loop of `abort_requests`, for a request that has a state. -/
def abortState (s : AsyncLLM σ) (requestId : InternalId) (state : RequestState σ) :
    Except PyError (AsyncLLM σ) := do
  let s := { s with
    requestStates := update s.requestStates requestId none
    toAbort := s.toAbort ++ [requestId] }
  let (_, s) ← s.emit requestId state [] (some .abort) none
  return s

/-- `abort_requests` of children, which are no parents themselves. -/
def abortChildren (s : AsyncLLM σ) (requestIds : List InternalId) : Except PyError (AsyncLLM σ) := do
  let s ← requestIds.foldlM unmapInternal s
  requestIds.foldlM (fun s requestId =>
    match s.requestStates requestId with
    | some state => s.abortState requestId state
    | none => .ok s) s

section Abort

/- The order in which `list` gives the elements of a set. -/
variable (listOrder : List InternalId → List InternalId)

/-- Aborts the children of a parent request. -/
def abortParent (s : AsyncLLM σ) (id : String) : Except PyError (AsyncLLM σ) :=
  match s.clients id with
  | none => .ok s
  | some client => s.abortChildren (listOrder client.parent.childRequests)

/-- The second loop of `abort_requests`. -/
def abortOne (s : AsyncLLM σ) (requestId : InternalId) : Except PyError (AsyncLLM σ) :=
  match s.requestStates requestId with
  | some state => s.abortState requestId state
  | none =>
    match requestId with
    | .child _ _ => .ok s
    | .client id =>
      if s.parentRequests id then do
        let s ← s.abortParent listOrder id
        return { s with parentRequests := update s.parentRequests id false }
      else .ok s

/-- `abort_requests` of internal ids. -/
def abortInternal (s : AsyncLLM σ) (requestIds : List InternalId) : Except PyError (AsyncLLM σ) := do
  let s ← requestIds.foldlM unmapInternal s
  requestIds.foldlM (abortOne listOrder) s

/-- `abort_requests` of external ids. -/
def abortExternal (s : AsyncLLM σ) (externalReqIds : List String) : Except PyError (AsyncLLM σ) :=
  let unmapped := externalReqIds.foldl unmapExternal (s, [])
  unmapped.2.foldlM (abortOne listOrder) unmapped.1

end Abort

/-- `get` and `get_nowait` of a client's queue. -/
def get (s : AsyncLLM σ) (id : String) : AsyncLLM σ × Option SeenOutput :=
  match s.clients id with
  | none => (s, none)
  | some client =>
    (s.setClient id { client with queue := { client.queue with output := none } },
      client.queue.output.map (RequestOutput.seen client.parent.outputAggregator))

end AsyncLLM

end VllmRuntime.Frontend
