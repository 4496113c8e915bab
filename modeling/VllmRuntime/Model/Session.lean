import VllmRuntime.Model.Request

/-! # Streaming sessions

`Scheduler._update_request_as_session` and what happens to the tokens of a resumable request
between two updates. Arrival times, sampling parameters and the status counters do not
touch the tokens and are left out. -/

namespace VllmRuntime

structure StreamingUpdate where
  mmFeatures : Option (List MultiModalFeatureSpec) := none
  promptTokenIds : Option (List TokenId)
  deriving DecidableEq, Repr

/-- `replace(mm_position, offset=mm_position.offset + base)`. -/
def MultiModalFeatureSpec.shift (base : ℕ) (feature : MultiModalFeatureSpec) :
    MultiModalFeatureSpec :=
  { feature with
    mmPosition := { feature.mmPosition with offset := feature.mmPosition.offset + base } }

/-- Keeps the computed tokens, appends the tokens of the update and hashes the blocks that
are new. -/
def updateRequestAsSession (hasher : Option (Request → List BlockHash)) (session : Request)
    (update : StreamingUpdate) : Except PyError Request := do
  let numComputedTokens := session.numComputedTokens
  let keptOutputTokens :=
    (session.allTokenIds.take numComputedTokens).drop session.numPromptTokens
  let allTokenIds := session.allTokenIds.take numComputedTokens
  match session.promptTokenIds with
  | none => .error (.assertionError "session.prompt_token_ids is not None")
  | some promptTokenIds =>
    let base := allTokenIds.length
    let updateTokens := update.promptTokenIds.getD []
    let promptTokenIds := promptTokenIds ++ keptOutputTokens ++ updateTokens
    let session := Request.extendBlockHashes hasher
      { session with
        allTokenIds := allTokenIds ++ updateTokens
        outputTokenIds := []
        promptTokenIds := some promptTokenIds
        mmFeatures := session.mmFeatures ++
          (update.mmFeatures.getD []).map (MultiModalFeatureSpec.shift base) }
    return { session with numPromptTokens := promptTokenIds.length }

/-- What can happen to a resumable request: generated tokens are appended, scheduling moves
`num_computed_tokens`, and an update arrives. -/
inductive SessionEvent where
  | append (tokenIds : List TokenId)
  | compute (numComputedTokens : ℕ)
  | update (update : StreamingUpdate)

def SessionEvent.apply (hasher : Option (Request → List BlockHash)) (session : Request) :
    SessionEvent → Except PyError Request
  | append tokenIds => return session.appendOutputTokenIds hasher tokenIds
  | compute numComputedTokens => return { session with numComputedTokens }
  | update streamingUpdate => updateRequestAsSession hasher session streamingUpdate

end VllmRuntime
