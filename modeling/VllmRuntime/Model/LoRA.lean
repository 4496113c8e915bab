import VllmRuntime.Model.MultiModalCache

/-! # LoRA adapters

`vllm/lora/model_manager.py` and `vllm/lora/worker_manager.py`: `LRUCacheLoRAModelManager` with its two caches
whose callbacks change the manager, and `LRUCacheWorkerLoRAManager`. Adapters are known by their ids; `ω` are
the weights of an adapter and `τ` those of one of its layers. -/

namespace VllmRuntime.LoRA

inductive LoRAMappingType where
  | language
  | tower
  | connector
  deriving DecidableEq, Repr

/-- The adapter of each token and of each sampled token, 0 for none. -/
structure LoRAMapping where
  indexMapping : List ℕ
  promptMapping : List ℕ
  isPrefill : Bool := false
  type : LoRAMappingType := .language
  deriving DecidableEq, Repr

/-- The position of an adapter in `lora_index_to_id`, -1 for none. -/
def loraIndex (loraIndexToId : List (Option ℕ)) (loraId : ℕ) : Except PyError ℤ :=
  if loraId = 0 then .ok (-1)
  else if some loraId ∈ loraIndexToId then .ok (loraIndexToId.idxOf (some loraId))
  else .error (.valueError (toString loraId ++ " is not in list"))

/-- `convert_mapping`: the indices of the tokens and those for the sampler. -/
def convertMapping (mapping : LoRAMapping) (loraIndexToId : List (Option ℕ)) :
    Except PyError (List ℤ × List ℤ) := do
  let samplerIndices ← mapping.promptMapping.mapM (loraIndex loraIndexToId)
  let baseIndices ← mapping.indexMapping.mapM (loraIndex loraIndexToId)
  return (baseIndices, samplerIndices)

/-- What a punica wrapper was last given, and the indices that it computed. -/
structure Metadata where
  mapping : LoRAMapping
  loraIndexToId : List (Option ℕ)
  indices : List ℤ × List ℤ
  deriving DecidableEq, Repr

/-- What the managers know of the model: the modules with LoRA layers, how merged weights are made and which
weights a module has in an adapter, and the punica wrapper for each part of a multi-modal model, which may be
missing. -/
structure ModelInfo (ω τ : Type) where
  modules : List String
  createMergedLoras : ω → ω
  getLoraLayerWeights : ω → String → Option τ
  supportsTowerConnectorLora : Bool
  towerModel : Bool
  connector : Bool
  getPunicaWrapper : LoRAMappingType → Option ℕ

/-- `target_prefix` of `_set_adapter_mapping`, as the part of the model. -/
def ModelInfo.target {ω τ : Type} (info : ModelInfo ω τ) (mapping : LoRAMapping) : LoRAMappingType :=
  if !info.supportsTowerConnectorLora then .language
  else if mapping.type = .tower ∧ info.towerModel then .tower
  else if mapping.type = .connector ∧ info.connector then .connector
  else .language

/-- `LRUCacheLoRAModelManager`. `weights` are the buffers of the modules at each index, `none` if reset. -/
structure LoRAModelManager (ω τ : Type) where
  capacity : ℕ
  loraSlots : ℕ
  registeredAdapters : LRUCache ℕ ω
  activeAdapters : LRUCache ℕ Unit
  loraIndexToId : List (Option ℕ)
  weights : String → ℕ → Option τ
  lastMapping : Option LoRAMapping
  metadata : ℕ → Option Metadata

def LoRAModelManager.new (ω τ : Type) (capacity loraSlots : ℕ) : LoRAModelManager ω τ where
  capacity
  loraSlots
  registeredAdapters := { maxsize := capacity }
  activeAdapters := { maxsize := loraSlots }
  loraIndexToId := List.replicate loraSlots none
  weights _ _ := none
  lastMapping := none
  metadata _ := none

abbrev Run (ω τ α : Type) := Effect PyError (LoRAModelManager ω τ) α

/-! ## The caches -/

/-- An `AdapterLRUCache` of the manager: its base class, whose `__setitem__` may call `popitem` and with it the
callback, the field of the manager, and the callback. -/
structure AdapterLRUCache (ω τ ν : Type) where
  base : Cachetools ℕ ν
  setitem : ℕ → ν → Run ω τ Unit
  cache : LoRAModelManager ω τ → LRUCache ℕ ν
  withCache : LoRAModelManager ω τ → LRUCache ℕ ν → LoRAModelManager ω τ
  deactivateFn : ℕ → Run ω τ Unit

namespace AdapterLRUCache

variable {ω τ ν α : Type} (adapters : AdapterLRUCache ω τ ν)

/-- A method of the base class that leaves the rest of the manager alone. -/
def lift (x : Effect PyError (LRUCache ℕ ν) α) : Run ω τ α := fun s =>
  (x (adapters.cache s)).map fun out => (out.1, adapters.withCache s out.2)

def contains (loraId : ℕ) : Run ω τ Bool := Effect.read fun s => (adapters.cache s).contains loraId

/-- `pop`: `__delitem__` ends with `_on_remove`. -/
def pop (loraId : ℕ) : Run ω τ Unit := do
  if ← adapters.contains loraId then
    let _ ← adapters.lift (adapters.base.pop loraId)
    adapters.deactivateFn loraId

/-- `remove_oldest` with `popitem`. -/
def removeOldest : Run ω τ Unit := do
  if (← Effect.read fun s => (adapters.cache s).data.length) = 0 then
    return
  match ← Effect.read fun s => (adapters.cache s).order.find? (· ∉ (adapters.cache s).pinnedItems) with
  | none => throw (.runtimeError "All items are pinned, cannot remove oldest from the cache.")
  | some loraId => adapters.pop loraId

end AdapterLRUCache

/-- The parts of the caches that `cachetools` provides. -/
structure CacheBases (ω τ : Type) where
  registered : Cachetools ℕ ω
  active : Cachetools ℕ Unit
  setRegistered : ℕ → ω → Run ω τ Unit
  setActive : ℕ → Unit → Run ω τ Unit

/-- The documented behaviour of `cachetools`: it finds and deletes what is stored, and `__setitem__` stores a new
key for which there is room. -/
structure CacheBases.Documented {ω τ : Type} (bases : CacheBases ω τ) : Prop where
  registered : bases.registered.KeepsItems
  active : bases.active.KeepsItems
  setRegistered_fits (s : LoRAModelManager ω τ) (loraId : ℕ) (lora : ω) : 1 ≤ s.registeredAdapters.maxsize →
    s.registeredAdapters.contains loraId = false → s.registeredAdapters.HasRoom 1 →
      bases.setRegistered loraId lora s =
        some (.ok (), { s with registeredAdapters := s.registeredAdapters.store loraId lora 1 })
  setActive_fits (s : LoRAModelManager ω τ) (loraId : ℕ) : 1 ≤ s.activeAdapters.maxsize →
    s.activeAdapters.contains loraId = false → s.activeAdapters.HasRoom 1 →
      bases.setActive loraId () s =
        some (.ok (), { s with activeAdapters := s.activeAdapters.store loraId () 1 })

/-! ## `LRUCacheLoRAModelManager` -/

section Manager

variable {ω τ : Type} (bases : CacheBases ω τ) (info : ModelInfo ω τ)

/-- `_deactivate_adapter`: nothing changes if the id is not in the list. -/
def deactivateSlot (loraId : ℕ) : Run ω τ Unit :=
  Effect.update fun s => { s with loraIndexToId := s.loraIndexToId.set (s.loraIndexToId.idxOf (some loraId)) none }

def activeAdapters : AdapterLRUCache ω τ Unit where
  base := bases.active
  setitem := bases.setActive
  cache s := s.activeAdapters
  withCache s activeAdapters := { s with activeAdapters }
  deactivateFn := deactivateSlot

def deactivateAdapter (adapterId : ℕ) : Run ω τ Bool := do
  if ← (activeAdapters bases).contains adapterId then
    deactivateSlot adapterId
    (activeAdapters bases).pop adapterId
    return true
  else
    return false

def registeredAdapters : AdapterLRUCache ω τ ω where
  base := bases.registered
  setitem := bases.setRegistered
  cache s := s.registeredAdapters
  withCache s registeredAdapters := { s with registeredAdapters }
  deactivateFn adapterId := do let _ ← deactivateAdapter bases adapterId

/-- `LoRAModelManager.activate_adapter`. -/
def activateInSlot (loraId : ℕ) : Run ω τ Bool := do
  if ← (activeAdapters bases).contains loraId then
    return false
  let loraIndexToId ← Effect.read (·.loraIndexToId)
  if none ∉ loraIndexToId then
    throw (.valueError "No free lora slots")
  let index := loraIndexToId.idxOf none
  (activeAdapters bases).setitem loraId ()
  let loraModel ← (registeredAdapters bases).lift (bases.registered.getitem loraId)
  Effect.update fun s => { s with
    loraIndexToId := s.loraIndexToId.set index (some loraId)
    weights := fun module i => if module ∈ info.modules ∧ i = index then info.getLoraLayerWeights loraModel module
      else s.weights module i }
  return true

def activateAdapter (loraId : ℕ) : Run ω τ Bool := do
  let active ← (activeAdapters bases).contains loraId
  let full ← Effect.read fun s : LoRAModelManager ω τ => decide (s.loraSlots ≤ s.activeAdapters.data.length)
  if !active && full then
    (activeAdapters bases).removeOldest
  let result ← activateInSlot bases info loraId
  Effect.update fun s => { s with activeAdapters := s.activeAdapters.touch loraId }
  return result

def removeAdapter (adapterId : ℕ) : Run ω τ Bool := do
  let _ ← deactivateAdapter bases adapterId
  if ← (registeredAdapters bases).contains adapterId then
    (registeredAdapters bases).pop adapterId
    return true
  else
    return false

def removeOldestAdapter : Run ω τ Bool := do
  if 0 < (← Effect.read fun s : LoRAModelManager ω τ => s.registeredAdapters.data.length) then
    (registeredAdapters bases).removeOldest
    return true
  else
    return false

/-- `LRUCacheLoRAModelManager.add_adapter`. -/
def registerAdapter (loraId : ℕ) (lora : ω) : Run ω τ Bool := do
  if ← (registeredAdapters bases).contains loraId then
    Effect.update fun s => { s with registeredAdapters := s.registeredAdapters.touch loraId }
    return false
  else
    (registeredAdapters bases).setitem loraId (info.createMergedLoras lora)
    return true

/-- `_set_adapter_mapping`. -/
def updateMetadata (mapping : LoRAMapping) : Run ω τ Unit := do
  match info.getPunicaWrapper (info.target mapping) with
  | none => throw (.assertionError "")
  | some wrapper =>
    let loraIndexToId ← Effect.read (·.loraIndexToId)
    let indices ← Effect.lift (convertMapping mapping loraIndexToId)
    Effect.update fun s => { s with
      metadata := Function.update s.metadata wrapper (some { mapping, loraIndexToId, indices }) }

def setAdapterMapping (mapping : LoRAMapping) : Run ω τ Unit := do
  if (← Effect.read (·.lastMapping)) ≠ some mapping then
    updateMetadata info mapping
    Effect.update fun s => { s with lastMapping := some mapping }

end Manager

/-! ## `LRUCacheWorkerLoRAManager` -/

/-- A `LoRARequest`, with what `_load_adapter` does with it. -/
structure LoRARequest (ω : Type) where
  loraIntId : ℕ
  loadInplace : Bool
  loaded : Except PyError ω

section Worker

variable {ω τ : Type} (bases : CacheBases ω τ) (info : ModelInfo ω τ)

def addAdapter (request : LoRARequest ω) : Run ω τ Bool := do
  let registered ← (registeredAdapters bases).contains request.loraIntId
  let loaded ←
    if !registered || request.loadInplace then do
      let lora ← Effect.lift request.loaded
      let _ ← removeAdapter bases request.loraIntId
      if ← Effect.read fun s : LoRAModelManager ω τ => decide (s.capacity < s.registeredAdapters.data.length + 1) then
        let _ ← removeOldestAdapter bases
      registerAdapter bases info request.loraIntId lora
    else do
      let adapter ← (registeredAdapters bases).lift (bases.registered.get request.loraIntId)
      pure adapter.isSome
  let _ ← activateAdapter bases info request.loraIntId
  return loaded

/-- The requests by id, in the order in which the set is iterated. -/
def lorasMap (requests : List (LoRARequest ω)) : OrderedDict ℕ (LoRARequest ω) :=
  requests.foldl (fun lorasMap request => dictSet lorasMap request.loraIntId request) []

def addAdapters : List (LoRARequest ω) → Run ω τ Unit
  | [] => pure ()
  | request :: requests => do
    let _ ← addAdapter bases info request
    addAdapters requests

def applyAdapters (requests : List (LoRARequest ω)) : Run ω τ Unit := do
  let loraSlots ← Effect.read (·.loraSlots)
  if loraSlots < (lorasMap requests).length then
    throw (.runtimeError ("Number of requested LoRAs (" ++ toString (lorasMap requests).length ++
      ") is greater than the number of GPU LoRA slots (" ++ toString loraSlots ++ ")."))
  addAdapters bases info ((lorasMap requests).map Prod.snd)

def setActiveAdapters (requests : List (LoRARequest ω)) (mapping : Option LoRAMapping) : Run ω τ Unit := do
  applyAdapters bases info requests
  match mapping with
  | none => pure ()
  | some mapping => setAdapterMapping info mapping

end Worker

end VllmRuntime.LoRA
