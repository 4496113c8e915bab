import VllmRuntime.Model.Request

/-! # The encoder cache manager

`vllm/v1/core/encoder_cache_manager.py`. The two classes are one type: `isEncoderDecoder` says which
one it is, and `allocated` and `toFree` belong to `EncoderDecoderCacheManager` only. -/

namespace VllmRuntime

namespace PlaceholderRange

def getNumEmbeds (range : PlaceholderRange) : ℕ :=
  match range.isEmbed with
  | none => range.length
  | some isEmbed => isEmbed.count true

/-- `embeds_cumsum`. -/
def embedsCumsum (isEmbed : List Bool) : List ℕ :=
  (List.range isEmbed.length).map fun i => (isEmbed.take (i + 1)).count true

/-- `get_embeds_indices_in_range`. Indices outside of the tensor are an error, and negative ones
count from its end. -/
def getEmbedsIndicesInRange (range : PlaceholderRange) (startIdx endIdx : ℤ) :
    Except PyError (ℤ × ℤ) :=
  match range.isEmbed with
  | none => .ok (startIdx, endIdx)
  | some isEmbed =>
    let cumsum := embedsCumsum isEmbed
    let entry (idx : ℤ) : Except PyError ℤ :=
      match (pyIndex cumsum.length idx).bind (cumsum[·]?) with
      | none => .error .indexError
      | some n => .ok n
    if startIdx > 0 then do
      return (← entry (startIdx - 1), ← entry (endIdx - 1))
    else do
      return (0, ← entry (endIdx - 1))

/-- `torch.diff`. -/
def diff (xs : List ℤ) : List ℤ := xs.zipWith (fun x next => next - x) xs.tail

/-- The rises of the mask, `starts` of `extract_embeds_range`. -/
def embedStarts (maskI : List ℤ) : List ℕ := (diff (0 :: maskI)).findIdxs (· = 1)

/-- The falls of the mask, `ends` of `extract_embeds_range`. -/
def embedEnds (maskI : List ℤ) : List ℕ := (diff (maskI ++ [0])).findIdxs (· = -1)

/-- `extract_embeds_range`. Starts and ends are stacked only when there are as many of both. -/
def extractEmbedsRange (range : PlaceholderRange) : Except PyError (List (ℤ × ℤ)) :=
  match range.isEmbed with
  | none => .ok [((range.offset : ℤ), range.offset + range.length - 1)]
  | some isEmbed =>
    let maskI := isEmbed.map fun embed => if embed then (1 : ℤ) else 0
    let starts := embedStarts maskI
    let ends := embedEnds maskI
    if starts.length = ends.length then
      .ok ((starts.zip ends).map fun (first, last) => ((first : ℤ) + range.offset, (last : ℤ) + range.offset))
    else .error (.runtimeError "stack expects each tensor to be equal size")

end PlaceholderRange

def MultiModalFeatureSpec.numEmbeds (feature : MultiModalFeatureSpec) : ℕ :=
  feature.mmPosition.getNumEmbeds

structure EncoderCacheManager where
  isEncoderDecoder : Bool := false
  cacheSize : ℕ
  numFreeSlots : ℤ := cacheSize
  numFreeableSlots : ℤ := cacheSize
  /-- The ids of the requests that reference an entry. -/
  cached : Dict String (Finset RequestId) := ∅
  freeable : OrderedDict String ℕ := []
  freed : List String := []
  allocated : List String := []
  toFree : List String := []

namespace EncoderCacheManager

/-- The part of `check_and_update_cache` for an entry that may not be referenced by a request. -/
def reclaim (m : EncoderCacheManager) (mmHash : String) (requestIds : Finset RequestId) :
    Except PyError EncoderCacheManager :=
  if requestIds ≠ ∅ then
    .ok m
  else
    match m.freeable.lookup mmHash with
    | none => .error .keyError
    | some numEncoderEmbeds => .ok { m with
        freeable := dictPop m.freeable mmHash
        numFreeableSlots := m.numFreeableSlots - numEncoderEmbeds }

def checkAndUpdateCache (m : EncoderCacheManager) (requestId : RequestId)
    (feature : MultiModalFeatureSpec) : Except PyError (Bool × EncoderCacheManager) :=
  if m.isEncoderDecoder then
    .ok (false, m)
  else
    match m.cached.lookup feature.identifier with
    | none => .ok (false, m)
    | some requestIds => do
      let m ← m.reclaim feature.identifier requestIds
      return (true, { m with
        cached := m.cached.insert feature.identifier (insert requestId requestIds) })

/-- The `while` loop of `can_allocate`. An entry is evicted in each round, so their number is enough
fuel. -/
def evictLoop (numEmbeds : ℕ) : ℕ → EncoderCacheManager → Except PyError EncoderCacheManager
  | 0, m => if numEmbeds > m.numFreeSlots then .error .keyError else .ok m
  | fuel + 1, m =>
    if numEmbeds > m.numFreeSlots then
      match m.freeable with
      | [] => .error .keyError
      | (mmHash, numFreeEmbeds) :: freeable =>
        if mmHash ∈ m.cached then
          evictLoop numEmbeds fuel { m with
            freeable
            cached := m.cached.erase mmHash
            freed := m.freed ++ [mmHash]
            numFreeSlots := m.numFreeSlots + numFreeEmbeds }
        else
          .error .keyError
    else
      .ok m

def canAllocate (m : EncoderCacheManager) (feature : MultiModalFeatureSpec)
    (encoderComputeBudget : ℤ) (numEmbedsToSchedule : ℕ) :
    Except PyError (Bool × EncoderCacheManager) :=
  if feature.numEmbeds > encoderComputeBudget then
    .ok (false, m)
  else
    let numEmbeds := feature.numEmbeds + numEmbedsToSchedule
    if m.isEncoderDecoder then
      .ok (numEmbeds ≤ m.numFreeSlots, m)
    else if numEmbeds ≤ m.numFreeSlots then
      .ok (true, m)
    else if numEmbeds > m.numFreeableSlots then
      .ok (false, m)
    else do
      let m ← evictLoop numEmbeds m.freeable.length m
      return (true, m)

def allocate (m : EncoderCacheManager) (requestId : RequestId) (feature : MultiModalFeatureSpec) :
    Except PyError EncoderCacheManager :=
  if m.isEncoderDecoder then
    .ok { m with
      numFreeSlots := m.numFreeSlots - feature.numEmbeds
      allocated := m.allocated ++ [feature.identifier] }
  else do
    let requestIds := (m.cached.lookup feature.identifier).getD ∅
    pyAssert (m.numFreeSlots ≥ feature.numEmbeds) "self.num_free_slots >= num_encoder_embeds"
    pyAssert (m.numFreeableSlots ≥ feature.numEmbeds)
      "self.num_freeable_slots >= num_encoder_embeds"
    return { m with
      cached := m.cached.insert feature.identifier (insert requestId requestIds)
      numFreeSlots := m.numFreeSlots - feature.numEmbeds
      numFreeableSlots := m.numFreeableSlots - feature.numEmbeds }

/-- `get_cached_input_ids`, in ascending order. -/
def getCachedInputIds (m : EncoderCacheManager) (mmFeatures : List MultiModalFeatureSpec) : List ℕ :=
  (mmFeatures.zipIdx.filter fun p => m.isEncoderDecoder || p.1.identifier ∈ m.cached).map Prod.snd

def freeEncoderInput (m : EncoderCacheManager) (requestId : RequestId)
    (feature : MultiModalFeatureSpec) : EncoderCacheManager :=
  if m.isEncoderDecoder then
    { m with numFreeSlots := m.numFreeSlots + feature.numEmbeds }
  else
    match m.cached.lookup feature.identifier with
    | none => m
    | some requestIds =>
      if requestIds = ∅ then
        m
      else
        let requestIds := requestIds.erase requestId
        let m := { m with cached := m.cached.insert feature.identifier requestIds }
        if requestIds = ∅ then
          { m with
            freeable := dictSet m.freeable feature.identifier feature.numEmbeds
            numFreeableSlots := m.numFreeableSlots + feature.numEmbeds }
        else
          m

/-- Frees the inputs with the given indices. -/
def freeInputs (m : EncoderCacheManager) (requestId : RequestId)
    (mmFeatures : List MultiModalFeatureSpec) (inputIds : List ℕ) : EncoderCacheManager :=
  (inputIds.filterMap (mmFeatures[·]?)).foldl (fun m feature => m.freeEncoderInput requestId feature) m

def free (m : EncoderCacheManager) (requestId : RequestId)
    (mmFeatures : List MultiModalFeatureSpec) : EncoderCacheManager :=
  m.freeInputs requestId mmFeatures (m.getCachedInputIds mmFeatures)

def getFreedMmHashes (m : EncoderCacheManager) : List String × EncoderCacheManager :=
  if m.isEncoderDecoder then
    (m.toFree, { m with toFree := m.allocated, allocated := [] })
  else
    (m.freed, { m with freed := [] })

end EncoderCacheManager

end VllmRuntime
