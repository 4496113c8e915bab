import VllmRuntime.Verification.LoRA.Worker
import VllmRuntime.Verification.MultiModal.Reference

/-! # The adapters of every batch are active

In any order of batches, additions, reloads and removals no call fails, and after a batch each of its adapters
is in one slot, with its weights. -/

namespace VllmRuntime.LoRA

open List Effect

variable {ω τ : Type} {bases : CacheBases ω τ} {info : ModelInfo ω τ} {s : LoRAModelManager ω τ}
  {slots : List (Option ℕ)}

/-- The calls of the worker. -/
inductive Call (ω : Type) where
  | setActiveAdapters (requests : List (LoRARequest ω)) (mapping : Option LoRAMapping)
  | addAdapter (request : LoRARequest ω)
  | removeAdapter (loraId : ℕ)

/-- A call, without what it returns. -/
def runCall (bases : CacheBases ω τ) (info : ModelInfo ω τ) : Call ω → Run ω τ Unit
  | .setActiveAdapters requests mapping => setActiveAdapters bases info requests mapping
  | .addAdapter request => do let _ ← addAdapter bases info request
  | .removeAdapter loraId => do let _ ← removeAdapter bases loraId

/-- The adapters of a mapping. -/
def LoRAMapping.loraIds (mapping : LoRAMapping) : List ℕ :=
  (mapping.promptMapping ++ mapping.indexMapping).filter (· ≠ 0)

/-- The adapters can be loaded, a batch has no more of them than there are slots, and its mapping names no
other ones and is for a part of the model that has a punica wrapper. -/
def Call.Valid (info : ModelInfo ω τ) (maxLoras : ℕ) : Call ω → Prop
  | .setActiveAdapters requests mapping => (requests.map (·.loraIntId)).dedup.length ≤ maxLoras ∧
      (∀ request ∈ requests, ∃ lora, request.loaded = .ok lora) ∧
      ∀ given, mapping = some given → (info.getPunicaWrapper (info.target given)).isSome ∧
        ∀ loraId ∈ given.loraIds, loraId ∈ requests.map (·.loraIntId)
  | .addAdapter request => ∃ lora, request.loaded = .ok lora
  | .removeAdapter _ => True

/-! ## The mapping -/

/-- The mapping of a batch changes what the caches do not use. -/
lemma Inv.withMapping (h : Inv info s) (lastMapping : Option LoRAMapping) (metadata : ℕ → Option Metadata) :
    Inv info { s with lastMapping, metadata } :=
  ⟨⟨h.units, h.maxsize, h.length, h.perm⟩, h.registered, h.registered_maxsize, h.le_capacity, h.slots_pos, h.slots_le,
    h.active_registered, h.weights⟩

/-- The ways in which `set_adapter_mapping` ends: the mapping is the last one, or the wrapper is given the
mapping with the current slots, or it raises. -/
lemma setAdapterMapping_cases (info : ModelInfo ω τ) (s : LoRAModelManager ω τ) (mapping : LoRAMapping) :
    (s.lastMapping = some mapping ∧ setAdapterMapping info mapping s = some (.ok (), s)) ∨
    (s.lastMapping ≠ some mapping ∧ (info.getPunicaWrapper (info.target mapping) = none ∨
        ∃ e, convertMapping mapping s.loraIndexToId = .error e) ∧
      ∃ e, setAdapterMapping info mapping s = some (.error e, s)) ∨
    (s.lastMapping ≠ some mapping ∧ ∃ wrapper indices, info.getPunicaWrapper (info.target mapping) = some wrapper ∧
      convertMapping mapping s.loraIndexToId = .ok indices ∧
      setAdapterMapping info mapping s = some (.ok (), { s with
        lastMapping := some mapping
        metadata := Function.update s.metadata wrapper
          (some { mapping, loraIndexToId := s.loraIndexToId, indices }) })) := by
  have hread : (Effect.read (·.lastMapping) : Run ω τ (Option LoRAMapping)) s = some (.ok s.lastMapping, s) := rfl
  by_cases hlast : s.lastMapping = some mapping
  · refine .inl ⟨hlast, ?_⟩
    rw [setAdapterMapping, bind_of_ok hread, if_neg (not_not.2 hlast)]
    rfl
  · refine .inr ?_
    cases hwrapper : info.getPunicaWrapper (info.target mapping) with
    | none =>
      have hupdate : updateMetadata info mapping s = some (.error (.assertionError ""), s) := by
        rw [updateMetadata, hwrapper]
        rfl
      refine .inl ⟨hlast, .inl rfl, .assertionError "", ?_⟩
      rw [setAdapterMapping, bind_of_ok hread, if_pos hlast]
      exact bind_of_error hupdate
    | some wrapper =>
      have hslots : (Effect.read (·.loraIndexToId) : Run ω τ (List (Option ℕ))) s =
          some (.ok s.loraIndexToId, s) := rfl
      cases hconvert : convertMapping mapping s.loraIndexToId with
      | error e =>
        have hlift : (Effect.lift (convertMapping mapping s.loraIndexToId) : Run ω τ _) s =
            some (.error e, s) := by
          rw [hconvert]
          rfl
        have hupdate : updateMetadata info mapping s = some (.error e, s) := by
          rw [updateMetadata, hwrapper]
          exact (bind_of_ok hslots).trans (bind_of_error hlift)
        refine .inl ⟨hlast, .inr ⟨e, rfl⟩, e, ?_⟩
        rw [setAdapterMapping, bind_of_ok hread, if_pos hlast]
        exact bind_of_error hupdate
      | ok indices =>
        have hlift : (Effect.lift (convertMapping mapping s.loraIndexToId) : Run ω τ _) s =
            some (.ok indices, s) := by
          rw [hconvert]
          rfl
        have hupdate : updateMetadata info mapping s = some (.ok (), { s with
            metadata := Function.update s.metadata wrapper
              (some { mapping, loraIndexToId := s.loraIndexToId, indices }) }) := by
          rw [updateMetadata, hwrapper]
          exact (bind_of_ok hslots).trans (bind_of_ok hlift)
        refine .inr ⟨hlast, wrapper, indices, rfl, rfl, ?_⟩
        rw [setAdapterMapping, bind_of_ok hread, if_pos hlast]
        exact bind_of_ok hupdate

/-! ## A batch -/

namespace Inv

variable {requests : List (LoRARequest ω)}

lemma applyAdapters_eq (s : LoRAModelManager ω τ) (hlength : (lorasMap requests).length ≤ s.loraSlots) :
    applyAdapters bases info requests s =
      addAdapters bases info ((lorasMap requests).map Prod.snd) s := by
  have hread : (Effect.read (·.loraSlots) : Run ω τ ℕ) s = some (.ok s.loraSlots, s) := rfl
  rw [applyAdapters, bind_of_ok hread, if_neg (not_lt.2 hlength)]

lemma applyAdapters_raises (s : LoRAModelManager ω τ)
    (hlength : s.loraSlots < (lorasMap requests).length) :
    ∃ e, applyAdapters bases info requests s = some (.error e, s) := by
  have hread : (Effect.read (·.loraSlots) : Run ω τ ℕ) s = some (.ok s.loraSlots, s) := rfl
  rw [applyAdapters, bind_of_ok hread, if_pos hlength]
  exact ⟨_, rfl⟩

end Inv

/-- Between two calls the slots are those of the active adapters, which are registered, and no more adapters
are registered than the CPU cache takes. -/
structure Consistent (s : LoRAModelManager ω τ) (maxCpuLoras : ℕ) : Prop where
  slots : ∀ loraId, some loraId ∈ s.loraIndexToId ↔ loraId ∈ s.activeAdapters.keys
  registered : ∀ loraId ∈ s.activeAdapters.keys, loraId ∈ s.registeredAdapters.keys
  le_capacity : s.registeredAdapters.keys.length ≤ maxCpuLoras

/-- The adapter is registered, and has one slot, whose buffers hold the weights that are registered. -/
def Served (info : ModelInfo ω τ) (s : LoRAModelManager ω τ) (loraId : ℕ) : Prop :=
  s.loraIndexToId.count (some loraId) = 1 ∧
    ∃ lora index, s.registeredAdapters.data.lookup loraId = some (lora, 1) ∧
      s.loraIndexToId[index]? = some (some loraId) ∧
      ∀ module ∈ info.modules, s.weights module index = info.getLoraLayerWeights lora module

namespace Inv

lemma consistent (h : Inv info s) : Consistent s s.capacity where
  slots loraId := by
    rw [← reduceOption_mem_iff, h.perm.mem_iff, h.units.mem_order]
  registered loraId hmem := by
    rw [← h.registered.mem_order]
    exact h.active_registered loraId ((h.units.mem_order loraId).2 hmem)
  le_capacity := by
    rw [LRUCache.keys, length_map, ← h.registered.length_order]
    exact h.le_capacity

lemma count_slot (slots : List (Option ℕ)) (loraId : ℕ) :
    slots.count (some loraId) = slots.reduceOption.count loraId := by
  induction slots with
  | nil => rfl
  | cons slot slots ih =>
    cases slot with
    | none => simp [reduceOption_cons_of_none, ih]
    | some first => simp [reduceOption_cons_of_some, count_cons, ih]

lemma served (h : Inv info s) {loraId : ℕ} (hmem : loraId ∈ s.activeAdapters.order) : Served info s loraId := by
  have hslot : some loraId ∈ s.loraIndexToId := List.reduceOption_mem_iff.1 (h.perm.mem_iff.2 hmem)
  obtain ⟨index, hindex⟩ := mem_iff_getElem?.1 hslot
  obtain ⟨lora, hlookup⟩ := h.registered.exists_lookup (h.active_registered loraId hmem)
  refine ⟨?_, lora, index, hlookup, hindex, h.weights index loraId lora hindex hlookup⟩
  rw [count_slot]
  exact count_eq_one_of_mem h.nodup (h.perm.mem_iff.2 hmem)

end Inv

def lookupsBases (ω τ : Type) : CacheBases ω τ where
  registered := Cachetools.lookups ℕ ω
  active := Cachetools.lookups ℕ Unit
  setRegistered _ _ := pure ()
  setActive _ _ := pure ()

/-- `__setitem__`: with entries of size one, one eviction makes room. -/
def setReference {ν : Type} (adapters : AdapterLRUCache ω τ ν) (loraId : ℕ) (value : ν) : Run ω τ Unit := fun s =>
  let put : Run ω τ Unit := Effect.update fun s =>
    adapters.withCache s ((adapters.cache s).store loraId value 1)
  if (adapters.cache s).contains loraId then
    some (.ok (), adapters.withCache s { (adapters.cache s).touch loraId with
      data := dictSet (adapters.cache s).data loraId (value, 1) })
  else if (adapters.cache s).HasRoom 1 then put s
  else (adapters.removeOldest >>= fun _ => put) s

def referenceBases (ω τ : Type) : CacheBases ω τ :=
  { lookupsBases ω τ with
    setRegistered := setReference (registeredAdapters (lookupsBases ω τ))
    setActive := setReference (activeAdapters (lookupsBases ω τ)) }

lemma setReference_fits {ν : Type} (adapters : AdapterLRUCache ω τ ν) (loraId : ℕ) (value : ν)
    (hnew : (adapters.cache s).contains loraId = false) (hroom : (adapters.cache s).HasRoom 1) :
    setReference adapters loraId value s =
      some (.ok (), adapters.withCache s ((adapters.cache s).store loraId value 1)) := by
  simp only [setReference, hnew, Bool.false_eq_true, if_false, if_pos hroom]
  rfl

lemma documented_referenceBases : (referenceBases ω τ).Documented where
  registered := Cachetools.keepsItems_lookups
  active := Cachetools.keepsItems_lookups
  setRegistered_fits _ _ _ _ hnew hroom := setReference_fits (registeredAdapters (lookupsBases ω τ)) _ _ hnew hroom
  setActive_fits _ _ _ hnew hroom := setReference_fits (activeAdapters (lookupsBases ω τ)) _ _ hnew hroom

/-- Adapters with a number as their weights, and one module. -/
def demoInfo : ModelInfo ℕ ℕ where
  modules := ["q_proj"]
  createMergedLoras lora := lora
  getLoraLayerWeights lora _ := some lora
  supportsTowerConnectorLora := false
  towerModel := false
  connector := false
  getPunicaWrapper _ := some 0

def demoRequest (loraId : ℕ) (loadInplace : Bool) (lora : ℕ) : LoRARequest ℕ :=
  { loraIntId := loraId, loadInplace, loaded := .ok lora }

end VllmRuntime.LoRA
