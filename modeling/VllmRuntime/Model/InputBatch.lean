import VllmRuntime.Model.Request
import VllmRuntime.Shared.Runs

/-! # The persistent batch

`vllm/v1/worker/gpu_input_batch.py` for generation models, with the rows of
`vllm/v1/worker/block_table.py` and the `BatchUpdateBuilder` of
`vllm/v1/sample/logits_processor/state.py`. An array is a function of the index. -/

namespace VllmRuntime

open Function

variable {γ : Type}

/-! ## Requests -/

inductive SamplingType where
  | greedy
  | random
  | randomSeed
  deriving DecidableEq, Repr

/-- The fields of `SamplingParams` that the batch reads; an optional list that is missing is empty. -/
structure BatchSamplingParams where
  samplingType : SamplingType
  temperature : ℚ
  topP : ℚ
  topK : ℤ
  frequencyPenalty : ℚ
  presencePenalty : ℚ
  repetitionPenalty : ℚ
  logprobs : Option ℤ := none
  allowedTokenIds : List ℕ := []
  badWordsTokenIds : List (List ℕ) := []
  minP : ℚ := 0
  logitBias : OrderedDict ℕ ℚ := []
  minTokens : ℕ := 0
  allStopTokenIds : List ℕ := []
  deriving DecidableEq, Repr

/-- `CachedRequestState` of a generation request. `outputList` says which list `output_token_ids` is,
since the list grows in place. The last fields say what the constructors of the request and of its
`LoRARequest` have checked. -/
structure CachedRequestState (γ : Type) where
  reqId : String
  promptTokenIds : Option (List TokenId)
  promptEmbeds : Option (List Bytes) := none
  samplingParams : BatchSamplingParams
  generator : Option γ := none
  blockIds : List (List ℕ)
  numComputedTokens : ℕ
  outputTokenIds : List TokenId := []
  outputList : ℕ := 0
  loraRequest : Option LoRARequest := none
  numPromptTokens : ℕ
  numPromptTokens_eq : lengthFromPromptTokenIdsOrEmbeds promptTokenIds promptEmbeds = .ok numPromptTokens
  loraIntId_pos : ∀ lora, loraRequest = some lora → 0 < lora.loraIntId

def CachedRequestState.numTokens (request : CachedRequestState γ) : ℕ :=
  request.numPromptTokens + request.outputTokenIds.length

/-! ## Rows of arrays -/

/-- The array row after an assignment to `row[start : start + len(values)]`. -/
def setSlice {α : Type} (row : ℕ → α) (start : ℕ) (values : List α) : ℕ → α :=
  fun j => if start ≤ j then (values[j - start]?).getD (row j) else row j

def broadcastError : PyError := .valueError "could not broadcast input array"

/-- `row[start : start + len(values)] = values` of a row of this width. The slice ends at the width, and
a single value is broadcast to an empty slice. -/
def assignSlice {α : Type} (width : ℕ) (row : ℕ → α) (start : ℕ) (values : List α) :
    Except PyError (ℕ → α) :=
  if min width (start + values.length) - min width start = values.length then
    .ok (setSlice row start values)
  else if values.length = 1 then .ok row
  else .error broadcastError

/-- `row[start:stop] = value`. -/
def fillSlice {α : Type} (row : ℕ → α) (start stop : ℕ) (value : α) : ℕ → α :=
  fun j => if start ≤ j ∧ j < stop then value else row j

/-- `array[tgt, :n] = array[src, :n]`. -/
def copySlice {α : Type} (array : ℕ → ℕ → α) (src tgt n : ℕ) : ℕ → ℕ → α :=
  update array tgt fun j => if j < n then array src j else array tgt j

/-- `array[i1], array[i2] = array[i2], array[i1]`. -/
def swapEntries {α : Type} (array : ℕ → α) (i1 i2 : ℕ) : ℕ → α :=
  update (update array i1 (array i2)) i2 (array i1)

/-! ## Block tables -/

structure BlockTable where
  blocksPerKvBlock : ℕ
  maxNumBlocksPerReq : ℕ
  blockTable : ℕ → ℕ → ℕ := fun _ _ => 0
  numBlocksPerRow : ℕ → ℕ := fun _ => 0

/-- `map_to_kernel_blocks`. -/
def mapToKernelBlocks (blocksPerKvBlock : ℕ) (blockIds : List ℕ) : List ℕ :=
  if blocksPerKvBlock = 1 then blockIds
  else blockIds.flatMap fun blockId => (List.range blocksPerKvBlock).map (blockId * blocksPerKvBlock + ·)

namespace BlockTable

def appendRow (table : BlockTable) (blockIds : List ℕ) (rowIdx : ℕ) : Except PyError BlockTable :=
  if blockIds.isEmpty then .ok table
  else do
    let blockIds := mapToKernelBlocks table.blocksPerKvBlock blockIds
    let start := table.numBlocksPerRow rowIdx
    let row ← assignSlice table.maxNumBlocksPerReq (table.blockTable rowIdx) start blockIds
    return { table with
      numBlocksPerRow := update table.numBlocksPerRow rowIdx (start + blockIds.length)
      blockTable := update table.blockTable rowIdx row }

def addRow (table : BlockTable) (blockIds : List ℕ) (rowIdx : ℕ) : Except PyError BlockTable :=
  { table with numBlocksPerRow := update table.numBlocksPerRow rowIdx 0 }.appendRow blockIds rowIdx

def moveRow (table : BlockTable) (src tgt : ℕ) : BlockTable :=
  let numBlocks := table.numBlocksPerRow src
  { table with
    blockTable := copySlice table.blockTable src tgt numBlocks
    numBlocksPerRow := update table.numBlocksPerRow tgt numBlocks }

def swapRow (table : BlockTable) (src tgt : ℕ) : BlockTable :=
  { table with
    numBlocksPerRow := swapEntries table.numBlocksPerRow src tgt
    blockTable := swapEntries table.blockTable src tgt }

/-- `MultiGroupBlockTable.add_row`. -/
def addRows : List BlockTable → List (List ℕ) → ℕ → Except PyError (List BlockTable)
  | [], _, _ => .ok []
  | _ :: _, [], _ => .error .indexError
  | table :: tables, blockIds :: rest, rowIdx => do
    let table ← table.addRow blockIds rowIdx
    let tables ← addRows tables rest rowIdx
    return table :: tables

end BlockTable

/-! ## The changes of a step -/

inductive MoveDirectionality where
  | unidirectional
  | swap
  deriving DecidableEq, Repr

structure AddedRequest where
  index : ℕ
  params : BatchSamplingParams
  promptTokenIds : Option (List TokenId)
  outputList : ℕ
  deriving DecidableEq, Repr

structure BatchUpdateBuilder where
  removed : List ℕ := []
  isRemovedSorted : Bool := false
  added : List AddedRequest := []
  moved : List (ℕ × ℕ × MoveDirectionality) := []
  batchChanged : Bool := false
  deriving DecidableEq, Repr

namespace BatchUpdateBuilder

def ensureRemovedSorted (builder : BatchUpdateBuilder) : BatchUpdateBuilder :=
  if builder.isRemovedSorted then builder
  else { builder with removed := builder.removed.insertionSort (· ≥ ·), isRemovedSorted := true }

def removedAppend (builder : BatchUpdateBuilder) (index : ℕ) : Except PyError BatchUpdateBuilder :=
  if builder.isRemovedSorted then
    .error (.runtimeError "Cannot register new removed request after self.removed has been read.")
  else .ok { builder with removed := builder.removed ++ [index], batchChanged := true }

/-- `peek_removed`: the lowest removed index. -/
def peekRemoved (builder : BatchUpdateBuilder) : Option ℕ × BatchUpdateBuilder :=
  if builder.removed.isEmpty then (none, builder)
  else
    let builder := builder.ensureRemovedSorted
    (builder.removed.getLast?, builder)

def popRemoved (builder : BatchUpdateBuilder) : Option ℕ × BatchUpdateBuilder :=
  if builder.removed.isEmpty then (none, builder)
  else
    let builder := builder.ensureRemovedSorted
    (builder.removed.getLast?, { builder with removed := builder.removed.dropLast })

/-- What is left by `get_and_reset`. -/
def getAndReset (builder : BatchUpdateBuilder) : BatchUpdateBuilder :=
  let builder := { builder with isRemovedSorted := false, batchChanged := false }
  if builder.removed.isEmpty ∧ builder.moved.isEmpty ∧ builder.added.isEmpty then builder
  else { builder with removed := [], moved := [], added := [] }

end BatchUpdateBuilder

/-! ## The batch -/

/-- The sizes of the batch; `float32` rounds what is stored in an array of `torch.float32`. -/
structure InputBatchConfig where
  maxNumReqs : ℕ
  maxModelLen : ℕ
  vocabSize : ℕ
  float32 : ℚ → ℚ

structure InputBatch (γ : Type) where
  reqIds : List (Option String) := []
  reqIdToIndex : OrderedDict String ℕ := []
  tokenIdsCpu : ℕ → ℕ → TokenId := fun _ _ => 0
  isTokenIds : ℕ → ℕ → Bool := fun _ _ => false
  reqPromptEmbeds : OrderedDict ℕ (List Bytes) := []
  numTokensNoSpec : ℕ → ℕ := fun _ => 0
  numPromptTokens : ℕ → ℕ := fun _ => 0
  numComputedTokensCpu : ℕ → ℕ := fun _ => 0
  blockTable : List BlockTable
  temperatureCpu : ℕ → ℚ
  greedyReqs : Finset String := ∅
  randomReqs : Finset String := ∅
  topPCpu : ℕ → ℚ
  topPReqs : Finset String := ∅
  topKCpu : ℕ → ℤ
  topKReqs : Finset String := ∅
  frequencyPenaltiesCpu : ℕ → ℚ
  frequencyPenaltiesReqs : Finset String := ∅
  presencePenaltiesCpu : ℕ → ℚ
  presencePenaltiesReqs : Finset String := ∅
  repetitionPenaltiesCpu : ℕ → ℚ
  repetitionPenaltiesReqs : Finset String := ∅
  numAcceptedTokensCpu : ℕ → ℕ := fun _ => 1
  requestLoraMapping : ℕ → ℕ := fun _ => 0
  loraIdToRequestIds : OrderedDict ℕ (Finset String) := []
  loraIdToLoraRequest : OrderedDict ℕ LoRARequest := []
  generators : OrderedDict ℕ γ := []
  numLogprobs : OrderedDict String ℤ := []
  batchUpdateBuilder : BatchUpdateBuilder := {}
  hasAllowedTokenIds : Finset String := ∅
  allowedTokenIdsMaskCpuTensor : Option (ℕ → ℕ → Bool) := none
  badWordsTokenIds : OrderedDict ℕ (List (List ℕ)) := []
  reqOutputTokenIds : List (Option (List TokenId)) := []
  specTokenIds : List (List TokenId)

namespace InputBatch

variable (config : InputBatchConfig)

def numReqs (b : InputBatch γ) : ℕ := b.reqIdToIndex.length

/-- `_register_add_request`. -/
def registerAddRequest (b : InputBatch γ) (request : CachedRequestState γ) :
    Except PyError (ℕ × InputBatch γ) := do
  let (index, builder) := b.batchUpdateBuilder.popRemoved
  let newReqIndex := index.getD b.numReqs
  pyAssert (newReqIndex < config.maxNumReqs) "new_req_index < self.max_num_reqs"
  return (newReqIndex, { b with batchUpdateBuilder := { builder with
    batchChanged := true
    added := builder.added ++ [⟨newReqIndex, request.samplingParams, request.promptTokenIds,
      request.outputList⟩] } })

/-- Sets an entry of a list, or appends it. -/
def setOrAppend {α : Type} (append : Bool) (xs : List α) (index : ℕ) (x : α) : List α :=
  if append then xs ++ [x] else xs.set index x

/-- The part of `add_request` that enters the request id. -/
def enterId (b : InputBatch γ) (request : CachedRequestState γ) (reqIndex : ℕ) : InputBatch γ :=
  let append := reqIndex = b.reqIds.length
  { b with
    reqIds := setOrAppend append b.reqIds reqIndex (some request.reqId)
    reqOutputTokenIds := setOrAppend append b.reqOutputTokenIds reqIndex (some request.outputTokenIds)
    specTokenIds := setOrAppend append b.specTokenIds reqIndex []
    reqIdToIndex := dictSet b.reqIdToIndex request.reqId reqIndex }

/-- The row of the tokens with those of the prompt. -/
def enterPrompt (row : ℕ → TokenId) : Option (List TokenId) → Except PyError (ℕ → TokenId)
  | some promptTokenIds => assignSlice config.maxModelLen row 0 promptTokenIds
  | none => .ok row

/-- The part of `add_request` that copies the token ids. -/
def enterTokens (b : InputBatch γ) (request : CachedRequestState γ) (reqIndex : ℕ) :
    Except PyError (InputBatch γ) := do
  let numPromptTokens ← lengthFromPromptTokenIdsOrEmbeds request.promptTokenIds request.promptEmbeds
  let startIdx := numPromptTokens
  let endIdx := startIdx + request.outputTokenIds.length
  let row ← enterPrompt config (b.tokenIdsCpu reqIndex) request.promptTokenIds
  let isRow := fillSlice (b.isTokenIds reqIndex) 0 numPromptTokens request.promptTokenIds.isSome
  let row ← assignSlice config.maxModelLen row startIdx request.outputTokenIds
  return { b with
    numPromptTokens := update b.numPromptTokens reqIndex numPromptTokens
    tokenIdsCpu := update b.tokenIdsCpu reqIndex row
    isTokenIds := update b.isTokenIds reqIndex (fillSlice isRow startIdx endIdx true)
    reqPromptEmbeds := match request.promptEmbeds with
      | some promptEmbeds => dictSet b.reqPromptEmbeds reqIndex promptEmbeds
      | none => b.reqPromptEmbeds
    numTokensNoSpec := update b.numTokensNoSpec reqIndex request.numTokens
    numComputedTokensCpu := update b.numComputedTokensCpu reqIndex request.numComputedTokens }

/-- `if condition: reqs.add(req_id)`. -/
def insertIf (reqs : Finset String) (condition : Bool) (reqId : String) : Finset String :=
  if condition then insert reqId reqs else reqs

/-- A `top_k` that restricts nothing is stored as the size of the vocabulary. -/
def storedTopK (params : BatchSamplingParams) : ℤ :=
  if 0 < params.topK ∧ params.topK < config.vocabSize then params.topK else config.vocabSize

/-- The part of `add_request` that enters the sampling parameters. -/
def enterSampling (b : InputBatch γ) (request : CachedRequestState γ) (reqIndex : ℕ) : InputBatch γ :=
  let reqId := request.reqId
  let params := request.samplingParams
  let greedy := params.samplingType = .greedy
  { b with
    temperatureCpu := update b.temperatureCpu reqIndex
      (if greedy then 0 else config.float32 params.temperature)
    greedyReqs := insertIf b.greedyReqs greedy reqId
    randomReqs := insertIf b.randomReqs (!greedy) reqId
    topPCpu := update b.topPCpu reqIndex (config.float32 params.topP)
    topPReqs := insertIf b.topPReqs (params.topP < 1) reqId
    topKReqs := insertIf b.topKReqs (0 < params.topK ∧ params.topK < config.vocabSize) reqId
    topKCpu := update b.topKCpu reqIndex (storedTopK config params)
    frequencyPenaltiesCpu :=
      update b.frequencyPenaltiesCpu reqIndex (config.float32 params.frequencyPenalty)
    frequencyPenaltiesReqs := insertIf b.frequencyPenaltiesReqs (params.frequencyPenalty ≠ 0) reqId
    presencePenaltiesCpu :=
      update b.presencePenaltiesCpu reqIndex (config.float32 params.presencePenalty)
    presencePenaltiesReqs := insertIf b.presencePenaltiesReqs (params.presencePenalty ≠ 0) reqId
    repetitionPenaltiesCpu :=
      update b.repetitionPenaltiesCpu reqIndex (config.float32 params.repetitionPenalty)
    repetitionPenaltiesReqs := insertIf b.repetitionPenaltiesReqs (params.repetitionPenalty ≠ 1) reqId
    generators := match request.generator with
      | some generator => dictSet b.generators reqIndex generator
      | none => b.generators
    numLogprobs := match params.logprobs with
      | some logprobs =>
        dictSet b.numLogprobs reqId (if logprobs = -1 then config.vocabSize else logprobs)
      | none => b.numLogprobs
    hasAllowedTokenIds := insertIf b.hasAllowedTokenIds (!params.allowedTokenIds.isEmpty) reqId
    allowedTokenIdsMaskCpuTensor :=
      if params.allowedTokenIds.isEmpty then b.allowedTokenIdsMaskCpuTensor
      else some (update (b.allowedTokenIdsMaskCpuTensor.getD fun _ _ => false) reqIndex
        fun tokenId => tokenId ∉ params.allowedTokenIds)
    badWordsTokenIds :=
      if params.badWordsTokenIds.isEmpty then b.badWordsTokenIds
      else dictSet b.badWordsTokenIds reqIndex params.badWordsTokenIds
    numAcceptedTokensCpu := update b.numAcceptedTokensCpu reqIndex 1 }

/-- The part of `add_request` that enters the LoRA adapter; the id 0 stands for none. -/
def enterLora (b : InputBatch γ) (request : CachedRequestState γ) (reqIndex : ℕ) : InputBatch γ :=
  { b with
    requestLoraMapping := update b.requestLoraMapping reqIndex
      ((request.loraRequest.map (·.loraIntId)).getD 0)
    loraIdToRequestIds := match request.loraRequest with
      | some lora => dictSet b.loraIdToRequestIds lora.loraIntId
          (insert request.reqId ((b.loraIdToRequestIds.lookup lora.loraIntId).getD ∅))
      | none => b.loraIdToRequestIds
    loraIdToLoraRequest := match request.loraRequest with
      | some lora => dictSet b.loraIdToLoraRequest lora.loraIntId lora
      | none => b.loraIdToLoraRequest }

def addRequest (b : InputBatch γ) (request : CachedRequestState γ) : Except PyError (InputBatch γ) := do
  let (reqIndex, b) ← b.registerAddRequest config request
  let b := b.enterId request reqIndex
  let b ← b.enterTokens config request reqIndex
  let blockTable ← BlockTable.addRows b.blockTable request.blockIds reqIndex
  let b := { b with blockTable }
  let b := b.enterSampling config request reqIndex
  return b.enterLora request reqIndex

/-- `update_req_spec_token_ids` with the draft tokens that are scheduled for the request. -/
def updateReqSpecTokenIds (b : InputBatch γ) (reqId : String) (specTokenIds : List TokenId) :
    Except PyError (InputBatch γ) :=
  match b.reqIdToIndex.lookup reqId with
  | none => .error .keyError
  | some reqIndex =>
    let b := { b with specTokenIds := b.specTokenIds.set reqIndex [] }
    if specTokenIds.isEmpty then .ok b
    else do
      let row ← assignSlice config.maxModelLen (b.tokenIdsCpu reqIndex) (b.numTokensNoSpec reqIndex)
        specTokenIds
      return { b with
        tokenIdsCpu := update b.tokenIdsCpu reqIndex row
        specTokenIds := b.specTokenIds.set reqIndex specTokenIds }

/-- The loop of `_update_states_after_model_execute` over the numbers of accepted tokens. -/
def setNumAcceptedTokens (b : InputBatch γ) (numAcceptedTokens : List ℕ) : InputBatch γ :=
  { b with numAcceptedTokensCpu := fun i => (numAcceptedTokens[i]?).getD (b.numAcceptedTokensCpu i) }

/-- The part of `remove_request` about the LoRA adapter. -/
def leaveLora (b : InputBatch γ) (reqId : String) (reqIndex : ℕ) : Except PyError (InputBatch γ) :=
  let loraId := b.requestLoraMapping reqIndex
  if loraId = 0 then .ok b
  else match b.loraIdToRequestIds.lookup loraId with
    | none => .error .keyError
    | some loraReqIds =>
      let loraReqIds := loraReqIds.erase reqId
      let b := { b with requestLoraMapping := update b.requestLoraMapping reqIndex 0 }
      if loraReqIds = ∅ then
        .ok { b with
          loraIdToRequestIds := dictPop b.loraIdToRequestIds loraId
          loraIdToLoraRequest := dictPop b.loraIdToLoraRequest loraId }
      else .ok { b with loraIdToRequestIds := dictSet b.loraIdToRequestIds loraId loraReqIds }

/-- The part of `remove_request` about the sampling parameters. -/
def leaveSampling (b : InputBatch γ) (reqId : String) (reqIndex : ℕ) : InputBatch γ :=
  { b with
    greedyReqs := b.greedyReqs.erase reqId
    randomReqs := b.randomReqs.erase reqId
    topPReqs := b.topPReqs.erase reqId
    topKReqs := b.topKReqs.erase reqId
    frequencyPenaltiesReqs := b.frequencyPenaltiesReqs.erase reqId
    presencePenaltiesReqs := b.presencePenaltiesReqs.erase reqId
    repetitionPenaltiesReqs := b.repetitionPenaltiesReqs.erase reqId
    generators := dictPop b.generators reqIndex
    numLogprobs := dictPop b.numLogprobs reqId
    hasAllowedTokenIds := b.hasAllowedTokenIds.erase reqId
    allowedTokenIdsMaskCpuTensor :=
      b.allowedTokenIdsMaskCpuTensor.map (update · reqIndex fun _ => false)
    badWordsTokenIds := dictPop b.badWordsTokenIds reqIndex }

def removeRequest (b : InputBatch γ) (reqId : String) : Except PyError (InputBatch γ) :=
  match b.reqIdToIndex.lookup reqId with
  | none => .ok b
  | some reqIndex => do
    let b := { b with reqIdToIndex := dictPop b.reqIdToIndex reqId }
    let batchUpdateBuilder ← b.batchUpdateBuilder.removedAppend reqIndex
    let b := { b with
      batchUpdateBuilder
      reqIds := b.reqIds.set reqIndex none
      reqOutputTokenIds := b.reqOutputTokenIds.set reqIndex none
      specTokenIds := b.specTokenIds.set reqIndex [] }
    let b ← b.leaveLora reqId reqIndex
    return b.leaveSampling reqId reqIndex

/-- `swap_dict_values`. -/
def swapDictValues {α : Type} (d : OrderedDict ℕ α) (key1 key2 : ℕ) : OrderedDict ℕ α :=
  let v1 := d.lookup key1
  let v2 := d.lookup key2
  let d := match v1 with
    | some v1 => dictSet d key2 v1
    | none => dictPop d key2
  match v2 with
  | some v2 => dictSet d key1 v2
  | none => dictPop d key1

/-- `xs[i1], xs[i2] = xs[i2], xs[i1]`. -/
def swapItems {α : Type} (xs : List α) (i1 i2 : ℕ) : List α :=
  match xs[i1]?, xs[i2]? with
  | some x1, some x2 => (xs.set i1 x2).set i2 x1
  | _, _ => xs

def swapStates (b : InputBatch γ) (i1 i2 : ℕ) : Except PyError (InputBatch γ) :=
  match b.reqIds[i1]?, b.reqIds[i2]? with
  | some (some id1), some (some id2) =>
    match b.reqIdToIndex.lookup id1, b.reqIdToIndex.lookup id2 with
    | some index1, some index2 => .ok { b with
        reqIds := swapItems b.reqIds i1 i2
        reqOutputTokenIds := swapItems b.reqOutputTokenIds i1 i2
        specTokenIds := swapItems b.specTokenIds i1 i2
        reqIdToIndex := dictSet (dictSet b.reqIdToIndex id1 index2) id2 index1
        numTokensNoSpec := swapEntries b.numTokensNoSpec i1 i2
        numPromptTokens := swapEntries b.numPromptTokens i1 i2
        numComputedTokensCpu := swapEntries b.numComputedTokensCpu i1 i2
        tokenIdsCpu := swapEntries b.tokenIdsCpu i1 i2
        isTokenIds := swapEntries b.isTokenIds i1 i2
        reqPromptEmbeds := swapDictValues b.reqPromptEmbeds i1 i2
        blockTable := b.blockTable.map (·.swapRow i1 i2)
        requestLoraMapping := swapEntries b.requestLoraMapping i1 i2
        batchUpdateBuilder := { b.batchUpdateBuilder with
          moved := b.batchUpdateBuilder.moved ++ [(i1, i2, .swap)] }
        temperatureCpu := swapEntries b.temperatureCpu i1 i2
        topPCpu := swapEntries b.topPCpu i1 i2
        topKCpu := swapEntries b.topKCpu i1 i2
        frequencyPenaltiesCpu := swapEntries b.frequencyPenaltiesCpu i1 i2
        presencePenaltiesCpu := swapEntries b.presencePenaltiesCpu i1 i2
        repetitionPenaltiesCpu := swapEntries b.repetitionPenaltiesCpu i1 i2
        numAcceptedTokensCpu := swapEntries b.numAcceptedTokensCpu i1 i2
        generators := swapDictValues b.generators i1 i2
        badWordsTokenIds := swapDictValues b.badWordsTokenIds i1 i2
        -- the right side is two views, so that the second row gets what the first has by then
        allowedTokenIdsMaskCpuTensor := b.allowedTokenIdsMaskCpuTensor.map fun mask =>
          update mask i1 (mask i2) }
    | _, _ => .error .keyError
  | some _, some _ => .error (.assertionError "old_id_i1 is not None and old_id_i2 is not None")
  | _, _ => .error .indexError

/-- `if src in d: d[tgt] = d.pop(src)`. -/
def moveDictValue {α : Type} (d : OrderedDict ℕ α) (src tgt : ℕ) : OrderedDict ℕ α :=
  match d.lookup src with
  | some value => dictSet (dictPop d src) tgt value
  | none => d

/-- The body of the loop of `condense`, which moves a request down into an empty index. -/
def moveDown (b : InputBatch γ) (lastReqIndex emptyIndex : ℕ) : Except PyError (InputBatch γ) :=
  match b.reqIds[lastReqIndex]? with
  | some (some reqId) =>
    let numTokens := b.numTokensNoSpec lastReqIndex + ((b.specTokenIds[lastReqIndex]?).getD []).length
    .ok { b with
      reqIds := (b.reqIds.set emptyIndex (some reqId)).set lastReqIndex none
      reqOutputTokenIds := (b.reqOutputTokenIds.set emptyIndex
        (b.reqOutputTokenIds[lastReqIndex]?).join).set lastReqIndex none
      reqIdToIndex := dictSet b.reqIdToIndex reqId emptyIndex
      specTokenIds := (swapItems b.specTokenIds lastReqIndex emptyIndex).set lastReqIndex []
      tokenIdsCpu := copySlice b.tokenIdsCpu lastReqIndex emptyIndex numTokens
      isTokenIds := copySlice b.isTokenIds lastReqIndex emptyIndex numTokens
      reqPromptEmbeds := moveDictValue b.reqPromptEmbeds lastReqIndex emptyIndex
      numTokensNoSpec := update b.numTokensNoSpec emptyIndex (b.numTokensNoSpec lastReqIndex)
      numPromptTokens := update b.numPromptTokens emptyIndex (b.numPromptTokens lastReqIndex)
      numComputedTokensCpu :=
        update b.numComputedTokensCpu emptyIndex (b.numComputedTokensCpu lastReqIndex)
      blockTable := b.blockTable.map (·.moveRow lastReqIndex emptyIndex)
      requestLoraMapping :=
        update b.requestLoraMapping emptyIndex (b.requestLoraMapping lastReqIndex)
      batchUpdateBuilder := { b.batchUpdateBuilder with
        moved := b.batchUpdateBuilder.moved ++ [(lastReqIndex, emptyIndex, .unidirectional)] }
      temperatureCpu := update b.temperatureCpu emptyIndex (b.temperatureCpu lastReqIndex)
      topPCpu := update b.topPCpu emptyIndex (b.topPCpu lastReqIndex)
      topKCpu := update b.topKCpu emptyIndex (b.topKCpu lastReqIndex)
      frequencyPenaltiesCpu :=
        update b.frequencyPenaltiesCpu emptyIndex (b.frequencyPenaltiesCpu lastReqIndex)
      presencePenaltiesCpu :=
        update b.presencePenaltiesCpu emptyIndex (b.presencePenaltiesCpu lastReqIndex)
      repetitionPenaltiesCpu :=
        update b.repetitionPenaltiesCpu emptyIndex (b.repetitionPenaltiesCpu lastReqIndex)
      numAcceptedTokensCpu :=
        update b.numAcceptedTokensCpu emptyIndex (b.numAcceptedTokensCpu lastReqIndex)
      generators := moveDictValue b.generators lastReqIndex emptyIndex
      allowedTokenIdsMaskCpuTensor := b.allowedTokenIdsMaskCpuTensor.map fun mask =>
        update mask emptyIndex (mask lastReqIndex)
      badWordsTokenIds := moveDictValue b.badWordsTokenIds lastReqIndex emptyIndex }
  | some none => .error (.assertionError "req_id is not None")
  | none => .error .indexError

/-- `while last_req_index in empty_req_indices: last_req_index -= 1`. -/
def skipRemoved (removed : List ℕ) : ℕ → ℕ
  | 0 => 0
  | lastReqIndex + 1 =>
    if lastReqIndex + 1 ∈ removed then skipRemoved removed lastReqIndex else lastReqIndex + 1

/-- The loop of `condense`; each round takes an index out of those that are removed. -/
def condenseLoop : ℕ → ℕ → InputBatch γ → Except PyError (InputBatch γ)
  | 0, _, b => .ok b
  | rounds + 1, lastReqIndex, b =>
    let lastReqIndex := skipRemoved b.batchUpdateBuilder.removed lastReqIndex
    match b.batchUpdateBuilder.peekRemoved with
    | (none, _) => .ok b
    | (some emptyIndex, builder) =>
      if lastReqIndex ≤ emptyIndex then .ok { b with batchUpdateBuilder := builder }
      else do
        let b ← moveDown { b with batchUpdateBuilder := builder.popRemoved.2 } lastReqIndex emptyIndex
        condenseLoop rounds (lastReqIndex - 1) b

def condense (b : InputBatch γ) : Except PyError (InputBatch γ) :=
  let numReqs := b.numReqs
  let b := { b with batchUpdateBuilder := b.batchUpdateBuilder.ensureRemovedSorted }
  let emptyReqIndices := b.batchUpdateBuilder.removed
  if emptyReqIndices.isEmpty then .ok b
  else if numReqs = 0 then
    .ok { b with reqIds := [], reqOutputTokenIds := [], specTokenIds := [] }
  else do
    let b ← condenseLoop emptyReqIndices.length (numReqs + emptyReqIndices.length - 1) b
    return { b with
      reqIds := b.reqIds.take numReqs
      reqOutputTokenIds := b.reqOutputTokenIds.take numReqs
      specTokenIds := b.specTokenIds.take numReqs }

/-- The part of `refresh_metadata` about the batch itself. -/
def refreshMetadata (b : InputBatch γ) : InputBatch γ :=
  { b with batchUpdateBuilder := b.batchUpdateBuilder.getAndReset }

end InputBatch

end VllmRuntime
