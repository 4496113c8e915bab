import VllmRuntime.Model.Request
import VllmRuntime.Shared.Effects
import Mathlib.Data.List.Sort

/-! # Processor caches of multi-modal items

`vllm/utils/cache.py`, `vllm/multimodal/cache.py`, the cached path of
`BaseMultiModalProcessor.apply` and `InputProcessor.process_inputs` from its call of the preprocessor
on: the cache `MultiModalProcessorSenderCache` of the API process (P0) and the cache
`MultiModalReceiverCache` of the engine (P1). -/

namespace VllmRuntime

/-! ## The cache -/

/-- The state of `LRUCache`: `_Cache__data` with the size that was recorded for each value,
`_LRUCache__order` and the pinned keys. -/
structure LRUCache (κ ν : Type) where
  maxsize : ℚ
  data : OrderedDict κ (ν × ℕ) := []
  currsize : ℤ := 0
  order : List κ := []
  pinnedItems : List κ := []
  deriving DecidableEq, Repr

namespace LRUCache

variable {κ ν : Type} [DecidableEq κ]

def contains (cache : LRUCache κ ν) (key : κ) : Bool := cache.data.any (·.1 = key)

/-- `touch`: a key that is not in the order is appended, whether it is stored or not. -/
def touch (cache : LRUCache κ ν) (key : κ) : LRUCache κ ν :=
  { cache with order := cache.order.erase key ++ [key] }

/-- What `cachetools` does to the state when it stores a new key. -/
def store (cache : LRUCache κ ν) (key : κ) (value : ν) (size : ℕ) : LRUCache κ ν :=
  { cache with
    data := cache.data ++ [(key, value, size)]
    currsize := cache.currsize + size
    order := cache.order.erase key ++ [key] }

/-- What `cachetools` does to the state when it deletes a stored key. -/
def delete (cache : LRUCache κ ν) (key : κ) (size : ℕ) : LRUCache κ ν :=
  { cache with
    data := dictPop cache.data key
    currsize := cache.currsize - size
    order := cache.order.erase key }

/-- There is room for a value of this size. -/
def HasRoom (cache : LRUCache κ ν) (size : ℕ) : Prop := ((cache.currsize + size : ℤ) : ℚ) ≤ cache.maxsize

instance (cache : LRUCache κ ν) (size : ℕ) : Decidable (cache.HasRoom size) :=
  inferInstanceAs (Decidable (((cache.currsize + size : ℤ) : ℚ) ≤ cache.maxsize))

end LRUCache

/-- The methods `__getitem__`, `__delitem__` and `__setitem__` of the base class
`cachetools.LRUCache`. The last one calls `popitem` of the subclass. -/
structure Cachetools (κ ν : Type) where
  getitem : κ → Effect PyError (LRUCache κ ν) ν
  delitem : κ → Effect PyError (LRUCache κ ν) Unit
  setitem : κ → ν → Effect PyError (LRUCache κ ν) Unit

namespace Cachetools

variable {κ ν : Type} [DecidableEq κ] (base : Cachetools κ ν)

def get (key : κ) : Effect PyError (LRUCache κ ν) (Option ν) := do
  if ← Effect.read (·.contains key) then
    let value ← base.getitem key
    return some value
  else
    return none

/-- `LRUCache.__delitem__`. -/
def delItem (key : κ) : Effect PyError (LRUCache κ ν) Unit := do
  let _ ← base.getitem key
  base.delitem key
  Effect.update fun cache => { cache with pinnedItems := cache.pinnedItems.erase key }

def pop (key : κ) : Effect PyError (LRUCache κ ν) (Option ν) := do
  if ← Effect.read (·.contains key) then
    let value ← base.getitem key
    base.delItem key
    return some value
  else
    return none

/-- `popitem` with `remove_pinned=False`. -/
def popitem : Effect PyError (LRUCache κ ν) (κ × Option ν) := do
  match ← Effect.read fun cache => cache.order.find? (· ∉ cache.pinnedItems) with
  | none => throw (.runtimeError "All items are pinned, cannot remove oldest from the cache.")
  | some key =>
    let value ← base.pop key
    return (key, value)

/-- `popitem` with `remove_pinned=True`. -/
def popitemPinned : Effect PyError (LRUCache κ ν) (κ × Option ν) := do
  match ← Effect.read (·.order.head?) with
  | none => throw .stopIteration
  | some key =>
    let value ← base.pop key
    return (key, value)

def pin [ToString κ] (key : κ) : Effect PyError (LRUCache κ ν) Unit := do
  if ← Effect.read (·.contains key) then
    Effect.update fun cache => { cache with pinnedItems := cache.pinnedItems.insert key }
  else
    throw (.valueError s!"Cannot pin key: {key} not in cache.")

/-- `while len(self) > 0: self.remove_oldest(remove_pinned=True)`, for a number of rounds. -/
def clearRounds : ℕ → Effect PyError (LRUCache κ ν) Unit
  | 0 => fun _ => none
  | rounds + 1 => fun cache =>
    if cache.data = [] then some (.ok (), cache)
    else (base.popitemPinned >>= fun _ => clearRounds rounds) cache

/-- `clear`. A round either removes an entry or is repeated forever. -/
def clear : Effect PyError (LRUCache κ ν) Unit := fun cache =>
  base.clearRounds (cache.data.length + 1) cache

/-- `popitem` can be called until there is room, or until it raises. -/
inductive RoomMade (size : ℕ) : LRUCache κ ν → Prop where
  | fits {cache} : cache.HasRoom size → RoomMade size cache
  | raises {cache cache' e} : base.popitem cache = some (.error e, cache') → RoomMade size cache
  | evicts {cache cache' item} : base.popitem cache = some (.ok item, cache') →
      RoomMade size cache' → RoomMade size cache

/-- The base class finds and deletes what is stored, with its size and its place in the order. -/
structure KeepsItems : Prop where
  getitem_stored (cache : LRUCache κ ν) (key : κ) (value : ν) (size : ℕ) :
    cache.data.lookup key = some (value, size) →
      base.getitem key cache = some (.ok value, cache.touch key)
  delitem_stored (cache : LRUCache κ ν) (key : κ) (value : ν) (size : ℕ) :
    cache.data.lookup key = some (value, size) →
      base.delitem key cache = some (.ok (), cache.delete key size)

/-- The documented behaviour of the base class: `__setitem__` of a new key refuses a value that is
larger than the cache and else calls `self.popitem()` repeatedly until there is enough room. -/
structure Documented (getsizeof : ν → ℕ) : Prop extends base.KeepsItems where
  setitem_large (cache : LRUCache κ ν) (key : κ) (value : ν) : cache.maxsize < getsizeof value →
    base.setitem key value cache = some (.error (.valueError "value too large"), cache)
  setitem_fits (cache : LRUCache κ ν) (key : κ) (value : ν) : getsizeof value ≤ cache.maxsize →
    cache.contains key = false → cache.HasRoom (getsizeof value) →
      base.setitem key value cache = some (.ok (), cache.store key value (getsizeof value))
  setitem_full (cache : LRUCache κ ν) (key : κ) (value : ν) : getsizeof value ≤ cache.maxsize →
    cache.contains key = false → ¬ cache.HasRoom (getsizeof value) →
      base.setitem key value cache = (base.popitem >>= fun _ => base.setitem key value) cache
  setitem_returns (cache : LRUCache κ ν) (key : κ) (value : ν) out : getsizeof value ≤ cache.maxsize →
    cache.contains key = false → base.setitem key value cache = some out →
      base.RoomMade (getsizeof value) cache

end Cachetools

/-! ## The two caches -/

variable {α δ υ : Type}

/-- `MultiModalProcessorCacheItemMetadata`. -/
structure MultiModalProcessorCacheItemMetadata (υ : Type) where
  itemSize : ℕ
  promptUpdates : List υ
  deriving DecidableEq, Repr

abbrev SenderCache (υ : Type) := LRUCache String (MultiModalProcessorCacheItemMetadata υ)

abbrev ReceiverCache (δ : Type) := LRUCache String δ

def expectedCachedItem (mmHash : String) : PyError :=
  .assertionError s!"Expected a cached item for mm_hash='{mmHash}'"

namespace MultiModalProcessorSenderCache

variable (base : Cachetools String (MultiModalProcessorCacheItemMetadata υ)) (getItemSize : δ → ℕ)

def getAndUpdateItem (mmItem : Option (δ × List υ)) (mmHash : String) :
    Effect PyError (SenderCache υ) (Option δ × List υ) := do
  match ← base.get mmHash with
  | some cachedItem => return (none, cachedItem.promptUpdates)
  | none =>
    match mmItem with
    | none => throw (expectedCachedItem mmHash)
    | some (item, promptUpdates) =>
      base.setitem mmHash { itemSize := getItemSize item, promptUpdates }
      return (some item, promptUpdates)

end MultiModalProcessorSenderCache

/-- A `MultiModalFeatureSpec` with all its fields. -/
structure MultiModalFeature (δ : Type) extends MultiModalFeatureSpec where
  data : Option δ
  modality : String
  mmHash : String
  deriving DecidableEq, Repr

namespace MultiModalFeature

/-- `feature.mm_hash or feature.identifier`. -/
def cacheKey (feature : MultiModalFeature δ) : String :=
  if feature.mmHash = "" then feature.identifier else feature.mmHash

end MultiModalFeature

namespace MultiModalReceiverCache

variable (base : Cachetools String δ)

def getAndUpdateItem (mmItem : Option δ) (mmHash : String) : Effect PyError (ReceiverCache δ) δ := do
  match ← base.get mmHash with
  | some cachedItem => return cachedItem
  | none =>
    match mmItem with
    | none => throw (expectedCachedItem mmHash)
    | some item =>
      base.setitem mmHash item
      return item

def updateFeature (feature : MultiModalFeature δ) :
    Effect PyError (ReceiverCache δ) (MultiModalFeature δ) := do
  let data ← getAndUpdateItem base feature.data feature.cacheKey
  return { feature with data := some data }

def getAndUpdateFeatures (mmFeatures : List (MultiModalFeature δ)) :
    Effect PyError (ReceiverCache δ) (List (MultiModalFeature δ)) := do
  Effect.update fun cache => mmFeatures.foldl (fun cache feature => cache.touch feature.cacheKey) cache
  mmFeatures.mapM (updateFeature base)

end MultiModalReceiverCache

/-! ## The processor -/

/-- What the HF processor makes of the items it is given: the prompt, the processed items and
their prompt updates for each modality, and whether the updates are applied already. -/
structure HFProcessorOutput (δ υ : Type) where
  promptIds : List TokenId
  kwargs : OrderedDict String (List δ)
  promptUpdates : OrderedDict String (List (List υ))
  isUpdateApplied : Bool
  deriving DecidableEq, Repr

/-- A call of `process_inputs` with multi-modal data: the hash of each item with its data, which may
be missing if the user gave an id, and what the model's processor, the tokenizer and the platform do
with this request. -/
structure ProcessInputsCall (α δ υ : Type) where
  mmItems : OrderedDict String (List (String × Option α))
  passthrough : Bool := false
  applyHfProcessorMain : OrderedDict String (List (Option α)) → Except PyError (HFProcessorOutput δ υ)
  recomputeCachedPromptUpdate : υ → ℕ → υ
  applyPromptUpdates : List TokenId → OrderedDict String (List (List υ)) → Bool →
    Except PyError (List TokenId × OrderedDict String (List PlaceholderRange))
  validateRequest : Except PyError Unit := .ok ()
  decoderPrompt : Option (List TokenId) := none
  loraName : Option String := none
  nodup_mmItems : (mmItems.map Prod.fst).Nodup
  nodup_placeholders : ∀ promptIds updates isUpdateApplied result,
    applyPromptUpdates promptIds updates isUpdateApplied = .ok result → (result.2.map Prod.fst).Nodup

structure InputProcessor where
  maxModelLen : ℕ
  vocabSize : ℕ
  tokenizerMaxTokenId : Option ℕ
  isMultimodalModel : Bool := true
  skipPromptLengthCheck : Bool := false
  isPooling : Bool := false
  enableTowerConnectorLora : Bool := false
  deriving DecidableEq, Repr

namespace ProcessInputsCall

variable (call : ProcessInputsCall α δ υ)

def mmHashes : OrderedDict String (List String) :=
  call.mmItems.map fun (modality, items) => (modality, items.map (·.1))

/-- The data of a modality's items that are not cached. -/
def missingData (isCached : String → Bool) (modality : String) :
    List (String × Option α) → ℕ → Except PyError (List (Option α))
  | [], _ => .ok []
  | (mmHash, data) :: items, idx =>
    if isCached mmHash then missingData isCached modality items (idx + 1)
    else match data with
      | none => .error (.valueError
          s!"Cache miss for {modality} at index {idx} but data is not provided.")
      | some data => do
        let rest ← missingData isCached modality items (idx + 1)
        return some data :: rest

/-- `_get_cache_missing_items`. -/
def getCacheMissingItems (isCached : String → Bool) :
    Except PyError (OrderedDict String (List (Option α))) :=
  call.mmItems.mapM fun (modality, items) => do
    let missing ← missingData isCached modality items 0
    return (modality, missing)

end ProcessInputsCall

section Processor

variable (base : Cachetools String (MultiModalProcessorCacheItemMetadata υ)) (getItemSize : δ → ℕ)

open MultiModalProcessorSenderCache

/-- The inner loop of `_merge_mm_kwargs`, over the hashes of a modality with their `is_cached`
flags. -/
def mergeItems (recompute : υ → ℕ → υ) (missingKwargs : List δ) (missingPromptUpdates : List (List υ)) :
    List (String × Bool) → ℕ → ℕ → Effect PyError (SenderCache υ) (List (Option δ) × List (List υ))
  | [], _, _ => pure ([], [])
  | (itemHash, true) :: hashes, itemIdx, missingNextIdx => do
    let (kwargs, updates) ← getAndUpdateItem base getItemSize none itemHash
    let (kwargsItems, updatesItems) ← mergeItems recompute missingKwargs missingPromptUpdates hashes
      (itemIdx + 1) missingNextIdx
    return (kwargs :: kwargsItems, updates.map (recompute · itemIdx) :: updatesItems)
  | (itemHash, false) :: hashes, itemIdx, missingNextIdx =>
    match missingKwargs[missingNextIdx]?, missingPromptUpdates[missingNextIdx]? with
    | some kwargsItem, some updatesItem => do
      let (kwargs, updates) ←
        getAndUpdateItem base getItemSize (some (kwargsItem, updatesItem)) itemHash
      let (kwargsItems, updatesItems) ← mergeItems recompute missingKwargs missingPromptUpdates
        hashes (itemIdx + 1) (missingNextIdx + 1)
      return (kwargs :: kwargsItems, updates.map (recompute · itemIdx) :: updatesItems)
    | _, _ => throw .indexError

/-- The loop of `_merge_mm_kwargs` over the modalities. The results are `defaultdict`s: a modality
without items has no entry. -/
def mergeModalities (recompute : υ → ℕ → υ) (missing : HFProcessorOutput δ υ) :
    OrderedDict String (List (String × Bool)) → Effect PyError (SenderCache υ)
      (OrderedDict String (List (Option δ)) × OrderedDict String (List (List υ)))
  | [] => pure ([], [])
  | (modality, hashes) :: mmHashes => do
    let (kwargs, updates) ← mergeItems base getItemSize recompute
      ((missing.kwargs.lookup modality).getD []) ((missing.promptUpdates.lookup modality).getD [])
      hashes 0 0
    let (mergedKwargs, mergedPromptUpdates) ← mergeModalities recompute missing mmHashes
    if hashes.isEmpty then
      return (mergedKwargs, mergedPromptUpdates)
    else
      return ((modality, kwargs) :: mergedKwargs, (modality, updates) :: mergedPromptUpdates)

/-- `_merge_mm_kwargs`: touches all hashes before it updates any. -/
def mergeMmKwargs (recompute : υ → ℕ → υ) (mmHashes : OrderedDict String (List (String × Bool)))
    (missing : HFProcessorOutput δ υ) : Effect PyError (SenderCache υ)
      (OrderedDict String (List (Option δ)) × OrderedDict String (List (List υ))) := do
  Effect.update fun cache =>
    (mmHashes.flatMap (·.2)).foldl (fun cache itemHash => cache.touch itemHash.1) cache
  mergeModalities base getItemSize recompute missing mmHashes

/-- `_validate_mm_kwargs`, `_validate_mm_updates` and `_validate_mm_placeholders` compare the number of
entries for each modality with the number of its items. -/
def validateCounts {γ : Type} (found : OrderedDict String (List γ)) (message : String → ℕ → ℕ → String)
    (mmItemCounts : OrderedDict String ℕ) : Except PyError Unit :=
  forM mmItemCounts fun (modality, itemCount) =>
    if ((found.lookup modality).getD []).length ≠ itemCount then
      .error (.runtimeError (message modality itemCount ((found.lookup modality).getD []).length))
    else
      .ok ()

def validateMmKwargs (mmKwargs : OrderedDict String (List (Option δ))) :
    OrderedDict String ℕ → Except PyError Unit :=
  validateCounts mmKwargs fun modality itemCount found =>
    s!"Expected there to be {itemCount} {modality} items in keyword arguments corresponding to " ++
    s!"{itemCount} {modality} data items, but only found {found}! There is likely a problem with your " ++
    "implementation of merged multi-modal processor for this model (usually arising from an " ++
    "inconsistency between `_call_hf_processor` and `_get_mm_fields_config`)."

def validateMmUpdates (mmUpdates : OrderedDict String (List (List υ))) :
    OrderedDict String ℕ → Except PyError Unit :=
  validateCounts mmUpdates fun modality itemCount found =>
    s!"Expected there to be {itemCount} prompt updates corresponding to {itemCount} {modality} items, " ++
    s!"but instead found {found} prompt updates! This is likely because you forgot to include input " ++
    "placeholder tokens (e.g., `<image>`, `<|image_pad|>`) in the prompt. If the model has a chat " ++
    "template, make sure you have applied it before calling `LLM.generate`."

def validateMmPlaceholders (mmPlaceholders : OrderedDict String (List PlaceholderRange)) :
    OrderedDict String ℕ → Except PyError Unit :=
  validateCounts mmPlaceholders fun modality itemCount found =>
    s!"Expected there to be {itemCount} prompt placeholders corresponding to {itemCount} {modality} " ++
    s!"items, but instead found {found} prompt placeholders! Make sure the implementation of " ++
    "`_call_hf_processor` and `_get_mm_fields_config` are consistent with each other."

/-- `_cached_apply_hf_processor`: items that are passed through go past the cache. -/
def cachedApplyHfProcessor (call : ProcessInputsCall α δ υ) : Effect PyError (SenderCache υ)
    (List TokenId × OrderedDict String (List (Option δ)) × OrderedDict String (List (List υ)) × Bool) := do
  if call.passthrough then
    let output ← Effect.lift (call.applyHfProcessorMain
      (call.mmItems.map fun (modality, items) => (modality, items.map (·.2))))
    return (output.promptIds, output.kwargs.map fun (modality, items) => (modality, items.map some),
      output.promptUpdates, output.isUpdateApplied)
  else
    let isCached ← Effect.read fun cache mmHash => cache.contains mmHash
    let missingItems ← Effect.lift (call.getCacheMissingItems isCached)
    let missing ← Effect.lift (call.applyHfProcessorMain missingItems)
    let (mmKwargs, mmPromptUpdates) ← mergeMmKwargs base getItemSize call.recomputeCachedPromptUpdate
      (call.mmHashes.map fun (modality, hashes) => (modality, hashes.map fun h => (h, isCached h)))
      missing
    return (missing.promptIds, mmKwargs, mmPromptUpdates, missing.isUpdateApplied)

/-- `BaseMultiModalProcessor.apply`. -/
def applyProcessor (call : ProcessInputsCall α δ υ) : Effect PyError (SenderCache υ)
    (List TokenId × OrderedDict String (List (Option δ)) × OrderedDict String (List PlaceholderRange)) := do
  let (promptIds, mmKwargs, mmPromptUpdates, isUpdateApplied) ←
    cachedApplyHfProcessor base getItemSize call
  let mmItemCounts := call.mmItems.map fun (modality, items) => (modality, items.length)
  Effect.lift (validateMmKwargs mmKwargs mmItemCounts)
  Effect.lift (validateMmUpdates mmPromptUpdates mmItemCounts)
  let (promptIds, mmPlaceholders) ←
    Effect.lift (call.applyPromptUpdates promptIds mmPromptUpdates isUpdateApplied)
  Effect.lift (validateMmPlaceholders mmPlaceholders mmItemCounts)
  return (promptIds, mmKwargs, mmPlaceholders)

/-! ## The input processor -/

namespace InputProcessor

variable (processor : InputProcessor)

/-- `_validate_model_input` of a prompt of token ids. -/
def validateModelInput (promptType : String) (promptIds : List TokenId) : Except PyError Unit := do
  if promptIds = [] ∧ ¬ (promptType = "encoder" ∧ processor.isMultimodalModel) then
    throw (.valueError s!"The {promptType} prompt cannot be empty")
  match processor.tokenizerMaxTokenId with
  | none => pure ()
  | some maxTokenId =>
    let maxInputId := promptIds.foldl max 0
    if max maxTokenId (processor.vocabSize - 1) < maxInputId then
      throw (.valueError s!"Token id {maxInputId} is out of vocabulary")
  let promptLen := promptIds.length
  let maxPromptLen := processor.maxModelLen
  if maxPromptLen < promptLen then
    if processor.isMultimodalModel && processor.skipPromptLengthCheck then
      return ()
    else
      let suggestion := if processor.isMultimodalModel then
          "Make sure that `max_model_len` is no smaller than the number of text tokens plus multimodal " ++
          "tokens. For image inputs, the number of image tokens depends on the number of images, and " ++
          "possibly their aspect ratios as well."
        else
          "Make sure that `max_model_len` is no smaller than the number of text tokens."
      throw (.valueError (s!"The {promptType} prompt (length {promptLen}) is longer than the maximum " ++
        s!"model length of {maxPromptLen}. {suggestion}"))
  else if promptLen = maxPromptLen ∧ promptType = "decoder" ∧ ¬ processor.isMultimodalModel ∧
      ¬ processor.isPooling then
    throw (.valueError (s!"The {promptType} prompt (length {promptLen}) plus the number of requested " ++
      s!"output tokens (at least 1) is longer than the maximum model length of {maxPromptLen}. " ++
      "Make sure that `max_model_len` is no smaller than the number of text tokens (prompt + " ++
      "requested output tokens)."))
  else
    return ()

/-- `_validate_model_inputs`. The processor of an encoder-decoder model is given the encoder's
prompt, and the decoder has one of its own. -/
def validateModelInputs (promptIds : List TokenId) : Option (List TokenId) → Except PyError Unit
  | none => processor.validateModelInput "decoder" promptIds
  | some decoderPrompt => do
    processor.validateModelInput "encoder" promptIds
    processor.validateModelInput "decoder" decoderPrompt

/-- `_get_mm_identifier`. -/
def getMmIdentifier (mmHash : String) : Option String → String
  | none => mmHash
  | some loraName => if processor.enableTowerConnectorLora then s!"{loraName}:{mmHash}" else mmHash

end InputProcessor

/-- The `(modality, idx, item)` of `argsort_mm_positions`, before they are sorted. -/
def flatItems {γ : Type} (items : OrderedDict String (List γ)) : List (String × ℕ × γ) :=
  items.flatMap fun (modality, items) => items.zipIdx.map fun (item, idx) => (modality, idx, item)

/-- `argsort_mm_positions`, with the positions. -/
def argsortMmPositions (mmPositions : OrderedDict String (List PlaceholderRange)) :
    List (String × ℕ × PlaceholderRange) :=
  (flatItems mmPositions).insertionSort fun a b => a.2.2.offset ≤ b.2.2.offset

/-- `d[modality][idx]`. -/
def itemAt {γ : Type} (items : OrderedDict String (List γ)) (modality : String) (idx : ℕ) :
    Except PyError γ :=
  match items.lookup modality with
  | none => .error .keyError
  | some items =>
    match items[idx]? with
    | none => .error .indexError
    | some item => .ok item

/-- The loop of `process_inputs` that flattens the items in the order of their positions. -/
def flattenFeatures (processor : InputProcessor) (call : ProcessInputsCall α δ υ)
    (mmKwargs : OrderedDict String (List (Option δ)))
    (mmPlaceholders : OrderedDict String (List PlaceholderRange)) :
    Except PyError (List (MultiModalFeature δ)) :=
  (argsortMmPositions mmPlaceholders).mapM fun (modality, idx, mmPosition) => do
    let mmHash ← itemAt call.mmHashes modality idx
    let data ← itemAt mmKwargs modality idx
    return { data, modality, identifier := processor.getMmIdentifier mmHash call.loraName, mmPosition,
             mmHash }

/-- `InputProcessor.process_inputs`: the features of the request that is sent to P1. -/
def processInputs (processor : InputProcessor) (call : ProcessInputsCall α δ υ) :
    Effect PyError (SenderCache υ) (List (MultiModalFeature δ)) := do
  let (promptIds, mmKwargs, mmPlaceholders) ← applyProcessor base getItemSize call
  Effect.lift call.validateRequest
  Effect.lift (processor.validateModelInputs promptIds call.decoderPrompt)
  Effect.lift (flattenFeatures processor call mmKwargs mmPlaceholders)

end Processor

end VllmRuntime
