import VllmRuntime.Model.OutputProcessor

/-! # Log-probabilities of outputs

`LogprobsProcessor._update_sample_logprobs` of `vllm/v1/engine/logprobs.py` and what
`RequestState._new_completion_output` cuts from its list. A request whose sampling parameters ask for
log-probabilities; the container of a position is a parameter, and so is what its row of the engine core
looks like. Log-probabilities of the prompt and the cumulative one are left out. -/

namespace VllmRuntime.Frontend

/-- `xs[-n:]`. -/
def lastEntries {α : Type} (xs : List α) (n : ℕ) : List α := if n = 0 then xs else xs.drop (xs.length - n)

/-- An output of the engine core with `new_logprobs`, one row for each position. -/
structure SampledOutput (ρ : Type) extends EngineCoreOutput where
  newLogprobs : Option (List ρ) := none

/-- A request with the list of its `LogprobsProcessor`. -/
structure LogprobsState (σ Λ : Type) where
  request : RequestState σ
  logprobs : List Λ := []

/-- A `CompletionOutput` with its `logprobs`. -/
structure SampledCompletion (Λ : Type) where
  completion : CompletionOutput
  logprobs : List Λ
  deriving DecidableEq, Repr

/-- What can happen to a request: an output of the engine core is processed, or the request is aborted. -/
inductive SampledEvent (ρ : Type) where
  | output (output : SampledOutput ρ)
  | abort (hasQueue : Bool)

namespace LogprobsState

variable {σ Λ ρ : Type}

/-- `_new_completion_output`. -/
def newCompletionOutput (state : LogprobsState σ Λ) (tokenIds : List TokenId)
    (finishReason : Option FinishReason) (stopReason : Option StopReason) :
    LogprobsState σ Λ × SampledCompletion Λ :=
  let made := state.request.newCompletionOutput tokenIds finishReason stopReason
  let logprobs :=
    if state.request.outputKind = .delta ∧ state.logprobs ≠ [] then lastEntries state.logprobs tokenIds.length
    else state.logprobs
  ({ state with request := made.1 }, { completion := made.2, logprobs })

/-- The completion that `make_request_output` makes. -/
def makeRequestOutput (state : LogprobsState σ Λ) (newTokenIds : List TokenId)
    (finishReason : Option FinishReason) (stopReason : Option StopReason) :
    LogprobsState σ Λ × Option (SampledCompletion Λ) :=
  if state.request.holdsBack finishReason.isSome then (state, none)
  else
    let taken := state.request.takeTokens newTokenIds
    let made := newCompletionOutput { state with request := taken.2 } taken.1 finishReason stopReason
    (made.1, some made.2)

section Process

variable (decodeNext : σ → TokenId → Text × σ) (container : List Λ → ρ → Λ)

/-- `_update_sample_logprobs`. The container of a position may depend on the earlier ones, from which a
token that is no text by itself is decoded. -/
def updateSampleLogprobs (logprobs : List Λ) (rows : List ρ) : List Λ :=
  rows.foldl (fun logprobs row => logprobs ++ [container logprobs row]) logprobs

/-- `LogprobsProcessor.update_from_output`. -/
def updateFromOutput (logprobs : List Λ) (output : SampledOutput ρ) : List Λ :=
  match output.newLogprobs with
  | some rows => updateSampleLogprobs container logprobs rows
  | none => logprobs

/-- One turn of the loop of `process_outputs`: the completion, and whether the request is finished. -/
def processOutput (state : LogprobsState σ Λ) (output : SampledOutput ρ) :
    LogprobsState σ Λ × Option (SampledCompletion Λ) × Bool :=
  let updated := state.request.detokenizer.update decodeNext output.newTokenIds (output.finishReason = some .stop)
  let reasons := output.stopReasons updated.2
  let made := makeRequestOutput
    { request := { state.request with detokenizer := updated.1 }
      logprobs := updateFromOutput container state.logprobs output }
    output.newTokenIds reasons.1 reasons.2
  (made.1, made.2, reasons.1.isSome)

/-- A step; without a queue, an abort makes no output. -/
def step (state : LogprobsState σ Λ) : SampledEvent ρ → LogprobsState σ Λ × Option (SampledCompletion Λ) × Bool
  | .output output => state.processOutput decodeNext container output
  | .abort true =>
    let made := state.makeRequestOutput [] (some .abort) none
    (made.1, made.2, true)
  | .abort false => (state, none, true)

/-- The completions of a request and the full list of its log-probabilities at the end; `none` if the
request is still running. -/
def run (state : LogprobsState σ Λ) : List (SampledEvent ρ) → Option (List (SampledCompletion Λ) × List Λ)
  | [] => none
  | event :: events =>
    let stepped := state.step decodeNext container event
    if stepped.2.2 then some (stepped.2.1.toList, stepped.1.logprobs)
    else (run stepped.1 events).map fun result => (stepped.2.1.toList ++ result.1, result.2)

end Process

end LogprobsState

end VllmRuntime.Frontend
