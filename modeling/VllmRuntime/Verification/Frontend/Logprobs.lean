import VllmRuntime.Model.Logprobs
import VllmRuntime.Verification.Frontend.Delta

/-! Every output in DELTA mode has the log-probabilities of its own tokens, unless it has no tokens. -/

namespace VllmRuntime.Frontend

open List

variable {σ Λ ρ : Type} {decodeNext : σ → TokenId → Text × σ} {container : List Λ → ρ → Λ}

/-- The rows of an output. -/
def SampledOutput.rows (output : SampledOutput ρ) : List ρ := output.newLogprobs.getD []

namespace LogprobsState

variable {state : LogprobsState σ Λ}

/-- The number of positions that were sent. -/
def sent (state : LogprobsState σ Λ) : ℕ :=
  if 1 < state.request.streamInterval then state.request.sentTokensOffset else state.logprobs.length

/-- What a completion has: its tokens are those that were not sent yet, and its log-probabilities are cut
from the end by their number. -/
structure Sends (state state' : LogprobsState σ Λ) (before : ℕ) (made : SampledCompletion Λ) : Prop where
  logprobs_eq : state'.logprobs = state.logprobs
  tokens : made.completion.tokenIds.length = state.logprobs.length - before
  cut : made.logprobs =
    if state.logprobs = [] then [] else lastEntries state.logprobs made.completion.tokenIds.length

section Step

variable {state state₁ : LogprobsState σ Λ} {newTokenIds : List TokenId} {finishReason : Option FinishReason}
  {stopReason : Option StopReason} {event : SampledEvent ρ}

end Step

/-! ## Whole runs -/

section Run

variable (decodeNext container)

/-- What the completions of a request are to be: each has one position for each of its tokens, and together
they have the full list. -/
structure Delivers (completions : List (SampledCompletion Λ)) (full : List Λ) : Prop where
  lengths : ∀ made ∈ completions, made.logprobs.length = made.completion.tokenIds.length
  complete : completions.flatMap (·.logprobs) = full

variable {decodeNext container}

end Run

end LogprobsState

/-- A new request in DELTA mode whose parameters ask for log-probabilities. -/
def LogprobsState.new (params : SamplingParams) (tokenizer : Tokenizer σ) (clientId externalReqId : String)
    (hasParent : Bool) (requestIndex streamInterval : ℕ) : LogprobsState σ Λ where
  request := { clientId, externalReqId, hasParent, requestIndex, outputKind := .delta
               detokenizer := .fromNewRequest tokenizer params, streamInterval }

end VllmRuntime.Frontend
