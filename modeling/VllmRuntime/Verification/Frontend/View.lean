import VllmRuntime.Model.OutputProcessor
import VllmRuntime.Shared.Runs

/-! One request of a client on its own. The steps of the whole front end are, seen from one request, steps of
a small machine: a child is added, a child is served an output, a child is aborted, the client takes what
is in its queue. -/

namespace VllmRuntime.Frontend

open Function

variable {σ : Type}

/-! ## The front end with what was reported and seen -/

/-- The front end, with the tokens that the engine reported for every child, the last text of its
detokenizer and the outputs that every client has taken. -/
structure Observed (σ : Type) where
  llm : AsyncLLM σ
  reported : InternalId → List TokenId
  texts : InternalId → Text
  seen : String → List SeenOutput

/-- The calls on the front end. Each runs without an `await` in between. -/
inductive FrontendCall (σ : Type) where
  | submit (id externalReqId : String) (params : SamplingParams) (tokenizer : Tokenizer σ)
  | fanOut (id : String)
  | processOutputs (outputs : List EngineCoreOutput)
  | abortInternal (requestIds : List InternalId)
  | abortExternal (externalReqIds : List String)
  | get (id : String)

namespace Observed

def new (streamInterval : ℕ) : Observed σ where
  llm := .new streamInterval
  reported _ := []
  texts _ := []
  seen _ := []

def fanOut (t : Observed σ) (id : String) : Observed σ :=
  match t.llm.clients id with
  | none => t
  | some client =>
    if client.params.n ≤ client.added then t
    else
      { t with
        llm := t.llm.fanOut id
        reported := update t.reported (client.childId id client.added) []
        texts := update t.texts (client.childId id client.added) [] }

section Step

variable (decodeNext : σ → TokenId → Text × σ) (listOrder : List InternalId → List InternalId)

/-- The detokenizer of a request after an output, and the stop string that was matched. -/
def detokenize (state : RequestState σ) (output : EngineCoreOutput) : IncrementalDetokenizer σ × Option Text :=
  state.detokenizer.update decodeNext output.newTokenIds (output.finishReason = some .stop)

def processOutput (t : Observed σ) (output : EngineCoreOutput) : Except PyError (Observed σ) := do
  let llm ← t.llm.processOutput decodeNext output
  return match t.llm.requestStates output.requestId with
    | none => { t with llm }
    | some state =>
      { t with
        llm
        reported := update t.reported output.requestId
          (t.reported output.requestId ++ output.newTokenIds)
        texts := update t.texts output.requestId (detokenize decodeNext state output).1.outputText }

def get (t : Observed σ) (id : String) : Observed σ :=
  { t with
    llm := (t.llm.get id).1
    seen := update t.seen id (t.seen id ++ (t.llm.get id).2.toList) }

def run : FrontendCall σ → Observed σ → Except PyError (Observed σ)
  | .submit id externalReqId params tokenizer, t =>
    .ok { t with llm := t.llm.submit id externalReqId params tokenizer, seen := update t.seen id [] }
  | .fanOut id, t => .ok (t.fanOut id)
  | .processOutputs outputs, t => outputs.foldlM (processOutput decodeNext) t
  | .abortInternal requestIds, t => do
    let llm ← t.llm.abortInternal listOrder requestIds
    return { t with llm }
  | .abortExternal externalReqIds, t => do
    let llm ← t.llm.abortExternal listOrder externalReqIds
    return { t with llm }
  | .get id, t => .ok (t.get id)

end Step

end Observed

/-! ## A request on its own -/

/-- A request of a client: its children by their index. -/
@[ext]
structure View (σ : Type) where
  id : String
  streamInterval : ℕ
  client : Client σ
  states : ℕ → Option (RequestState σ)
  reported : ℕ → List TokenId
  texts : ℕ → Text
  seen : List SeenOutput

namespace View

/-- A request that was just submitted. -/
def new (id : String) (streamInterval : ℕ) (externalReqId : String) (params : SamplingParams)
    (tokenizer : Tokenizer σ) : View σ where
  id := id
  streamInterval := streamInterval
  client := { params, externalReqId, tokenizer, parent := .new params
              queue := { aggregate := params.outputKind = .delta } }
  states _ := none
  reported _ := []
  texts _ := []
  seen := []

def childId (v : View σ) (i : ℕ) : InternalId := v.client.childId v.id i

/-- The state that a new child gets. -/
def newState (v : View σ) : RequestState σ where
  clientId := v.id
  externalReqId := v.client.externalReqId
  hasParent := decide (v.client.params.n ≠ 1)
  requestIndex := v.client.added
  outputKind := v.client.params.outputKind
  detokenizer := .fromNewRequest v.client.tokenizer v.client.params
  streamInterval := v.streamInterval

def fanOut (v : View σ) : View σ :=
  { v with
    client := { v.client with
      added := v.client.added + 1
      parent := if v.client.params.n = 1 then v.client.parent else
        { v.client.parent with
          childRequests := v.client.parent.childRequests.insert (v.childId v.client.added) } }
    states := update v.states v.client.added (some v.newState)
    reported := update v.reported v.client.added []
    texts := update v.texts v.client.added [] }

/-- A child is served an output; it is gone when it is finished. -/
def serve (v : View σ) (i : ℕ) (state : RequestState σ) (newTokenIds : List TokenId)
    (finishReason : Option FinishReason) (stopReason : Option StopReason) : Except PyError (View σ) := do
  let (state, client) ← v.client.deliver (v.childId i) state newTokenIds finishReason stopReason
  return { v with
    client
    states := update v.states i (if finishReason.isSome then none else some state) }

def report (v : View σ) (i : ℕ) (newTokenIds : List TokenId) (text : Text) : View σ :=
  { v with
    reported := update v.reported i (v.reported i ++ newTokenIds)
    texts := update v.texts i text }

@[simp] lemma report_reported_self (v : View σ) (i : ℕ) (newTokenIds : List TokenId) (text : Text) :
    (v.report i newTokenIds text).reported i = v.reported i ++ newTokenIds :=
  update_self _ _ _

@[simp] lemma report_texts_self (v : View σ) (i : ℕ) (newTokenIds : List TokenId) (text : Text) :
    (v.report i newTokenIds text).texts i = text :=
  update_self _ _ _

def get (v : View σ) : View σ :=
  { v with
    client := { v.client with queue := { v.client.queue with output := none } }
    seen := v.seen ++
      (v.client.queue.output.map (RequestOutput.seen v.client.parent.outputAggregator)).toList }

/-- The steps of a request. A rule says which children may be finished in which states. -/
inductive Step (decodeNext : σ → TokenId → Text × σ) (mayFinish : View σ → ℕ → Prop) :
    View σ → View σ → Prop where
  | fanOut {v : View σ} (hadded : v.client.added < v.client.params.n) : Step decodeNext mayFinish v v.fanOut
  | report {v v' : View σ} {i : ℕ} {state : RequestState σ} {output : EngineCoreOutput}
      {detokenizer : IncrementalDetokenizer σ} {stopString : Option Text} (hstate : v.states i = some state)
      (hupdate : Observed.detokenize decodeNext state output = (detokenizer, stopString))
      (hfinish : (output.stopReasons stopString).1.isSome → mayFinish v i)
      (hserve : v.serve i { state with detokenizer } output.newTokenIds (output.stopReasons stopString).1
        (output.stopReasons stopString).2 = .ok v') :
      Step decodeNext mayFinish v (v'.report i output.newTokenIds detokenizer.outputText)
  | abort {v v' : View σ} {i : ℕ} {state : RequestState σ} (hstate : v.states i = some state)
      (hfinish : mayFinish v i) (hserve : v.serve i state [] (some .abort) none = .ok v') :
      Step decodeNext mayFinish v v'
  | get (v : View σ) : Step decodeNext mayFinish v v.get

end View

/-- The request of a client as the front end has it. -/
def Observed.view (t : Observed σ) (id : String) (client : Client σ) : View σ where
  id := id
  streamInterval := t.llm.streamInterval
  client := client
  states i := if i < client.added then t.llm.requestStates (client.childId id i) else none
  reported i := if i < client.added then t.reported (client.childId id i) else []
  texts i := if i < client.added then t.texts (client.childId id i) else []
  seen := t.seen id

end VllmRuntime.Frontend
