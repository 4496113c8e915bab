import VllmRuntime.Model.Base
import VllmRuntime.Shared.Segments

/-! # Verification of draft tokens

`GPUModelRunner._calc_spec_decode_metadata` of `vllm/v1/worker/gpu_model_runner.py` and the greedy path
of `vllm/v1/sample/rejection_sampler.py`: `RejectionSampler.forward`, `rejection_sample`,
`rejection_greedy_sample_kernel`, `_get_logprobs_tensors` and `parse_output`. -/

namespace VllmRuntime

open Segments

abbrev DraftToken := ℤ

/-- `PLACEHOLDER_TOKEN_ID`. -/
def placeholderTokenId : DraftToken := -1

/-- `MAX_SPEC_LEN`. -/
def maxSpecLenLimit : ℕ := 128

/-! ## The four index spaces -/

/-- `_get_cumsum_and_arange`. -/
def getCumsumAndArange (numTokens : List ℕ) : List ℕ × List ℕ :=
  let cuNumTokens := cumsum numTokens
  let totalNumTokens := cuNumTokens.getLastD 0
  let cumsumsOffsets := repeatEach (List.zipWith (· - ·) cuNumTokens numTokens) numTokens
  (cuNumTokens, List.zipWith (· - ·) (List.range totalNumTokens) cumsumsOffsets)

structure SpecDecodeMetadata where
  draftTokenIds : List DraftToken
  numDraftTokens : List ℕ
  cuNumDraftTokens : List ℕ
  cuNumSampledTokens : List ℕ
  targetLogitsIndices : List ℕ
  bonusLogitsIndices : List ℕ
  logitsIndices : List ℕ
  deriving DecidableEq, Repr

/-- `max(self.num_draft_tokens)`; a batch is never empty. -/
def SpecDecodeMetadata.maxSpecLen (metadata : SpecDecodeMetadata) : ℕ :=
  metadata.numDraftTokens.foldr max 0

/-- `_calc_spec_decode_metadata`, where `inputIds` are the ids of the scheduled tokens. -/
def calcSpecDecodeMetadata (inputIds : List DraftToken) (numDraftTokens cuNumScheduledTokens : List ℕ) :
    Option SpecDecodeMetadata := do
  let numSampledTokens := numDraftTokens.map (· + 1)
  let (cuNumSampledTokens, arange) := getCumsumAndArange numSampledTokens
  let logitsIndices :=
    repeatEach (List.zipWith (· - ·) cuNumScheduledTokens numSampledTokens) numSampledTokens
  let logitsIndices := List.zipWith (· + ·) logitsIndices arange
  let bonusLogitsIndices := cuNumSampledTokens.map (· - 1)
  let (cuNumDraftTokens, arange) := getCumsumAndArange numDraftTokens
  let targetLogitsIndices :=
    repeatEach (List.zipWith (· - ·) cuNumSampledTokens numSampledTokens) numDraftTokens
  let targetLogitsIndices := List.zipWith (· + ·) targetLogitsIndices arange
  let draftTokenIds ← gather inputIds logitsIndices
  let draftTokenIds ← gather draftTokenIds (targetLogitsIndices.map (· + 1))
  return { draftTokenIds, numDraftTokens, cuNumDraftTokens, cuNumSampledTokens,
           targetLogitsIndices, bonusLogitsIndices, logitsIndices }

/-! ## The greedy kernel -/

/-- `tl.load`. -/
def load {α : Type*} [Inhabited α] (xs : List α) (i : ℕ) : α := xs.getD i default

/-- One program of `rejection_greedy_sample_kernel`. The output is a flat buffer, in which every request
has `max_spec_len + 1` places. -/
def rejectionGreedySampleKernel (cuNumDraftTokens : List ℕ)
    (draftTokenIds targetArgmax bonusTokenIds : List DraftToken) (isGreedy : Option (List Bool))
    (maxSpecLen reqIdx : ℕ) (outputTokenIds : List DraftToken) : List DraftToken :=
  if !(isGreedy.elim true (load · reqIdx)) then outputTokenIds
  else
    let startIdx := if reqIdx = 0 then 0 else load cuNumDraftTokens (reqIdx - 1)
    let endIdx := load cuNumDraftTokens reqIdx
    let numDraftTokens := endIdx - startIdx
    let (outputTokenIds, rejected) := (List.range numDraftTokens).foldl
      (fun (outputTokenIds, rejected) pos =>
        if !rejected then
          let draftTokenId := load draftTokenIds (startIdx + pos)
          let targetArgmaxId := load targetArgmax (startIdx + pos)
          (outputTokenIds.set (reqIdx * (maxSpecLen + 1) + pos) targetArgmaxId,
            draftTokenId != targetArgmaxId)
        else (outputTokenIds, rejected))
      (outputTokenIds, false)
    if !rejected then
      outputTokenIds.set (reqIdx * (maxSpecLen + 1) + numDraftTokens) (load bonusTokenIds reqIdx)
    else outputTokenIds

/-- `rejection_sample` of a batch that is all greedy. The programs of the kernel's grid run in some
`order`; the result is the buffer seen as a matrix. -/
def rejectionSample (order : List ℕ) (draftTokenIds : List DraftToken) (numDraftTokens : List ℕ)
    (maxSpecLen : ℕ) (cuNumDraftTokens : List ℕ) (targetArgmax bonusTokenIds : List DraftToken) :
    List (List DraftToken) :=
  let batchSize := numDraftTokens.length
  let outputTokenIds := List.replicate (batchSize * (maxSpecLen + 1)) placeholderTokenId
  let outputTokenIds := order.foldl (fun outputTokenIds reqIdx =>
    rejectionGreedySampleKernel cuNumDraftTokens draftTokenIds targetArgmax bonusTokenIds none
      maxSpecLen reqIdx outputTokenIds) outputTokenIds
  (List.range batchSize).map fun i =>
    (outputTokenIds.drop (i * (maxSpecLen + 1))).take (maxSpecLen + 1)

/-! ## The sampler -/

/-- What the sampler does to one row of logits: the greedy token, the log-probabilities, and the row that
`gather_logprobs` makes for a token. The batch has no penalties, bad words or allowed tokens, so that the
logits are not changed before. -/
structure Sampler (Row LogprobRow : Type) where
  zeros : Row
  argmax : Row → DraftToken
  computeLogprobs : Row → Row
  gatherLogprobs : Row → ℕ → DraftToken → LogprobRow
  isLogitsLogprobsMode : Bool

variable {Row LogprobRow : Type}

/-- The row that the log-probabilities of a token are taken from. -/
def Sampler.logprobs (sampler : Sampler Row LogprobRow) (row : Row) : Row :=
  if sampler.isLogitsLogprobsMode then row else sampler.computeLogprobs row

/-- `_get_logprobs_tensors`, with the three tensors of the result as one list of rows. -/
def getLogprobsTensors (sampler : Sampler Row LogprobRow) (maxNumLogprobs : ℕ)
    (metadata : SpecDecodeMetadata) (logits targetLogits bonusLogits : List Row)
    (sampledTokenIds : List (List DraftToken)) : Option (List LogprobRow) := do
  let logitStartIndices := (0 :: metadata.cuNumSampledTokens).dropLast
  let finalLogits := List.replicate logits.length sampler.zeros
  let finalLogits := scatter finalLogits metadata.targetLogitsIndices targetLogits
  let finalLogits := scatter finalLogits metadata.bonusLogitsIndices bonusLogits
  let acceptedLogitIndices := logitStartIndices.flatMap fun start =>
    (List.range (metadata.maxSpecLen + 1)).map (start + ·)
  let acceptedLogitIndices := acceptedLogitIndices.map (min · (finalLogits.length - 1))
  let acceptedTokens := sampledTokenIds.flatten.map fun token =>
    if token = placeholderTokenId then 0 else token
  let acceptedLogits ← gather finalLogits acceptedLogitIndices
  return List.zipWith (fun row token => sampler.gatherLogprobs (sampler.logprobs row) maxNumLogprobs token)
    acceptedLogits acceptedTokens

structure SamplerOutput (LogprobRow : Type) where
  sampledTokenIds : List (List DraftToken)
  logprobsTensors : Option (List LogprobRow)

/-- `RejectionSampler.forward` after its assertion, for greedy requests. The softmax of the target rows in
float32 is left out: the target tokens are the argmax of the rows themselves. -/
def verifyDrafts (sampler : Sampler Row LogprobRow) (order : List ℕ) (metadata : SpecDecodeMetadata)
    (logits : List Row) (maxNumLogprobs : Option ℕ) : Option (SamplerOutput LogprobRow) := do
  let bonusLogits ← gather logits metadata.bonusLogitsIndices
  let bonusTokenIds := bonusLogits.map sampler.argmax
  let targetLogits ← gather logits metadata.targetLogitsIndices
  let outputTokenIds := rejectionSample order metadata.draftTokenIds metadata.numDraftTokens
    metadata.maxSpecLen metadata.cuNumDraftTokens (targetLogits.map sampler.argmax) bonusTokenIds
  let logprobsTensors ← maxNumLogprobs.mapM fun num =>
    getLogprobsTensors sampler num metadata logits targetLogits bonusLogits outputTokenIds
  return ⟨outputTokenIds, logprobsTensors⟩

/-- `RejectionSampler.forward`. -/
def RejectionSampler.forward (sampler : Sampler Row LogprobRow) (order : List ℕ)
    (metadata : SpecDecodeMetadata) (logits : List Row) (maxNumLogprobs : Option ℕ) :
    Option (SamplerOutput LogprobRow) :=
  if metadata.maxSpecLen ≤ maxSpecLenLimit then
    verifyDrafts sampler order metadata logits maxNumLogprobs
  else none

/-! ## Parsing -/

structure LogprobsLists (LogprobRow : Type) where
  rows : List LogprobRow
  cuNumGeneratedTokens : List ℕ

/-- `LogprobsLists.slice_request`. -/
def LogprobsLists.sliceRequest (lists : LogprobsLists LogprobRow) (reqIdx numPositions : ℕ) :
    List LogprobRow :=
  (lists.rows.drop (load lists.cuNumGeneratedTokens reqIdx)).take numPositions

/-- `parse_output`. -/
def parseOutput (outputTokenIds : List (List DraftToken)) (vocabSize : ℕ) (discardReqIndices : List ℕ)
    (logprobsTensors : Option (List LogprobRow)) :
    List (List DraftToken) × Option (LogprobsLists LogprobRow) :=
  let validMask := outputTokenIds.map fun row => row.map fun token =>
    decide (token ≠ placeholderTokenId) && decide (token < vocabSize)
  let outputLogprobs := logprobsTensors.map fun tensors =>
    let cuNumTokens := 0 :: cumsum (validMask.map (·.count true))
    LogprobsLists.mk (compress tensors validMask.flatten) cuNumTokens
  let validMask := validMask.mapIdx fun i row =>
    if i ∈ discardReqIndices then row.map fun _ => false else row
  (List.zipWith compress outputTokenIds validMask, outputLogprobs)

/-! ## One step of a batch -/

/-- A request of the batch: what was computed before, the tokens that are scheduled in this step, at least
one, and the drafts scheduled after them. -/
structure SpecRequest where
  computed : List DraftToken
  newTokens : List DraftToken
  drafts : List DraftToken
  newTokens_ne_nil : newTokens ≠ []

namespace SpecRequest

def scheduled (r : SpecRequest) : List DraftToken := r.newTokens ++ r.drafts

/-- The rows that the target model gives at the scheduled positions. -/
def rows (model : List DraftToken → Row) (r : SpecRequest) : List Row :=
  (List.range r.scheduled.length).map fun k => model (r.computed ++ r.scheduled.take (k + 1))

end SpecRequest

/-- The scheduled tokens of a batch go through the target model, and what it gives at `logits_indices`
through the rejection sampler and the parser. -/
def specDecodeStep (model : List DraftToken → Row) (sampler : Sampler Row LogprobRow) (vocabSize : ℕ)
    (order : List ℕ) (maxNumLogprobs : Option ℕ) (discardReqIndices : List ℕ)
    (requests : List SpecRequest) :
    Option (List (List DraftToken) × Option (LogprobsLists LogprobRow)) := do
  let inputIds := requests.flatMap (·.scheduled)
  let hiddenStates := requests.flatMap (·.rows model)
  let metadata ← calcSpecDecodeMetadata inputIds (requests.map (·.drafts.length))
    (cumsum (requests.map (·.scheduled.length)))
  let logits ← gather hiddenStates metadata.logitsIndices
  let output ← verifyDrafts sampler order metadata logits maxNumLogprobs
  return parseOutput output.sampledTokenIds vocabSize discardReqIndices output.logprobsTensors

end VllmRuntime
