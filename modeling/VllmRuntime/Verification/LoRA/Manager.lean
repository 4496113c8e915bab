import Mathlib.Data.List.ReduceOption
import VllmRuntime.Verification.LoRA.Caches

/-! # The manager of the adapters

The non-empty entries of `lora_index_to_id` are the active adapters, which are registered, and the buffers at
their indices hold their weights. Each operation of the manager is an equation under this invariant. -/

namespace VllmRuntime.LoRA

variable {slots : List (Option ℕ)}

open List Effect

/-! ## The slots -/

/-- `_deactivate_adapter` on the list. -/
def clearSlot (loraIndexToId : List (Option ℕ)) (loraId : ℕ) : List (Option ℕ) :=
  loraIndexToId.set (loraIndexToId.idxOf (some loraId)) none

lemma reduceOption_clearSlot (slots : List (Option ℕ)) (loraId : ℕ) :
    (clearSlot slots loraId).reduceOption = slots.reduceOption.erase loraId := by
  induction slots with
  | nil => rfl
  | cons slot slots ih =>
    cases slot with
    | none =>
      have hclear : clearSlot (none :: slots) loraId = none :: clearSlot slots loraId := by
        simp [clearSlot]
      rw [hclear, reduceOption_cons_of_none, reduceOption_cons_of_none, ih]
    | some first =>
      by_cases heq : first = loraId
      · simp [clearSlot, heq, reduceOption_cons_of_none, reduceOption_cons_of_some]
      · have hclear : clearSlot (some first :: slots) loraId = some first :: clearSlot slots loraId := by
          simp [clearSlot, heq]
        rw [hclear, reduceOption_cons_of_some, reduceOption_cons_of_some, ih,
          erase_cons_tail (by simpa using heq)]

lemma clearSlot_of_not_mem {loraId : ℕ} (h : loraId ∉ slots.reduceOption) :
    clearSlot slots loraId = slots := by
  have hnot : some loraId ∉ slots := fun hmem => h (reduceOption_mem_iff.2 hmem)
  rw [clearSlot, idxOf_of_notMem hnot, set_eq_of_length_le le_rfl]

lemma getElem?_clearSlot {loraId other index : ℕ} (h : (clearSlot slots loraId)[index]? = some (some other)) :
    slots[index]? = some (some other) := by
  rw [clearSlot, getElem?_set] at h
  split at h
  · split at h
    · cases h
    · cases h
  · exact h

lemma reduceOption_fill (loraId : ℕ) (h : none ∈ slots) :
    (slots.set (slots.idxOf none) (some loraId)).reduceOption.Perm (loraId :: slots.reduceOption) := by
  induction slots with
  | nil => cases h
  | cons slot slots ih =>
    cases slot with
    | none => simp [reduceOption_cons_of_none, reduceOption_cons_of_some]
    | some first =>
      have hrest : none ∈ slots := by simpa using h
      have hfill : (some first :: slots).set ((some first :: slots).idxOf none) (some loraId) =
          some first :: slots.set (slots.idxOf none) (some loraId) := by
        simp
      rw [hfill, reduceOption_cons_of_some, reduceOption_cons_of_some]
      exact ((ih hrest).cons first).trans (.swap loraId first _)

/-! ## The invariant -/

variable {ω τ : Type}

/-- The active adapters are those in the slots. -/
structure Slots (s : LoRAModelManager ω τ) : Prop where
  units : s.activeAdapters.Units
  maxsize : s.activeAdapters.maxsize = s.loraSlots
  length : s.loraIndexToId.length = s.loraSlots
  perm : s.loraIndexToId.reduceOption.Perm s.activeAdapters.order

structure Inv (info : ModelInfo ω τ) (s : LoRAModelManager ω τ) : Prop extends Slots s where
  registered : s.registeredAdapters.Units
  registered_maxsize : s.registeredAdapters.maxsize = s.capacity
  le_capacity : s.registeredAdapters.order.length ≤ s.capacity
  slots_pos : 0 < s.loraSlots
  slots_le : s.loraSlots ≤ s.capacity
  active_registered : ∀ loraId ∈ s.activeAdapters.order, loraId ∈ s.registeredAdapters.order
  weights : ∀ index loraId lora, s.loraIndexToId[index]? = some (some loraId) →
    s.registeredAdapters.data.lookup loraId = some (lora, 1) →
      ∀ module ∈ info.modules, s.weights module index = info.getLoraLayerWeights lora module

/-- What the caches do not touch. -/
structure Frame (s s' : LoRAModelManager ω τ) : Prop where
  capacity : s'.capacity = s.capacity
  loraSlots : s'.loraSlots = s.loraSlots
  lastMapping : s'.lastMapping = s.lastMapping
  metadata : s'.metadata = s.metadata

lemma Frame.refl (s : LoRAModelManager ω τ) : Frame s s := ⟨rfl, rfl, rfl, rfl⟩

lemma Frame.trans {s s' s'' : LoRAModelManager ω τ} (h : Frame s s') (h' : Frame s' s'') : Frame s s'' :=
  ⟨h'.capacity.trans h.capacity, h'.loraSlots.trans h.loraSlots, h'.lastMapping.trans h.lastMapping,
    h'.metadata.trans h.metadata⟩

lemma inv_new (info : ModelInfo ω τ) {capacity loraSlots : ℕ} (hpos : 0 < loraSlots)
    (hle : loraSlots ≤ capacity) : Inv info (LoRAModelManager.new ω τ capacity loraSlots) := by
  have hunits {ν : Type} (maxsize : ℚ) : ({ maxsize } : LRUCache ℕ ν).Units :=
    ⟨nodup_nil, nodup_nil, fun _ => Iff.rfl, fun _ _ _ hlookup => (nomatch hlookup), rfl, rfl⟩
  refine ⟨⟨hunits _, rfl, length_replicate, ?_⟩, hunits _, rfl, Nat.zero_le _, hpos, hle, ?_, ?_⟩
  · change (List.replicate loraSlots none).reduceOption.Perm []
    simp
  · intro _ hmem
    cases hmem
  · intro _ _ _ _ hlookup
    cases hlookup

namespace LoRAModelManager

/-- The manager after an adapter is deactivated. -/
def deactivated (s : LoRAModelManager ω τ) (loraId : ℕ) : LoRAModelManager ω τ :=
  if loraId ∈ s.activeAdapters.order then
    { s with
      activeAdapters := s.activeAdapters.popped loraId 1
      loraIndexToId := clearSlot s.loraIndexToId loraId }
  else s

/-- The manager after an adapter is removed. -/
def removed (s : LoRAModelManager ω τ) (loraId : ℕ) : LoRAModelManager ω τ :=
  if loraId ∈ s.registeredAdapters.order then
    { s.deactivated loraId with registeredAdapters := s.registeredAdapters.popped loraId 1 }
  else s.deactivated loraId

end LoRAModelManager

variable {bases : CacheBases ω τ} {info : ModelInfo ω τ} {s : LoRAModelManager ω τ} {loraId : ℕ}

lemma frame_deactivated (s : LoRAModelManager ω τ) (loraId : ℕ) : Frame s (s.deactivated loraId) := by
  unfold LoRAModelManager.deactivated
  split
  · exact ⟨rfl, rfl, rfl, rfl⟩
  · exact .refl s

lemma frame_removed (s : LoRAModelManager ω τ) (loraId : ℕ) : Frame s (s.removed loraId) := by
  have hframe := frame_deactivated s loraId
  unfold LoRAModelManager.removed
  split
  · exact ⟨hframe.capacity, hframe.loraSlots, hframe.lastMapping, hframe.metadata⟩
  · exact hframe

lemma registered_deactivated (s : LoRAModelManager ω τ) (loraId : ℕ) :
    (s.deactivated loraId).registeredAdapters = s.registeredAdapters := by
  unfold LoRAModelManager.deactivated
  split
  · rfl
  · rfl

/-! ## Deactivating -/

namespace Slots

lemma nodup (h : Slots s) : s.loraIndexToId.reduceOption.Nodup := h.perm.nodup_iff.2 h.units.nodup

lemma clearSlot_clearSlot (h : Slots s) :
    clearSlot (clearSlot s.loraIndexToId loraId) loraId = clearSlot s.loraIndexToId loraId := by
  apply clearSlot_of_not_mem
  rw [reduceOption_clearSlot]
  exact h.nodup.not_mem_erase

lemma order_deactivated (h : Slots s) :
    (s.deactivated loraId).activeAdapters.order = s.activeAdapters.order.erase loraId := by
  unfold LoRAModelManager.deactivated
  split
  · exact h.units.order_popped
  · rename_i hmem
    rw [erase_of_not_mem hmem]

lemma deactivated (h : Slots s) : Slots (s.deactivated loraId) := by
  unfold LoRAModelManager.deactivated
  split
  · rename_i hmem
    refine ⟨h.units.popped hmem, h.maxsize, ?_, ?_⟩
    · simpa [clearSlot] using h.length
    · rw [reduceOption_clearSlot, h.units.order_popped]
      exact h.perm.erase loraId
  · exact h

/-- The callback clears the slot once more, which changes nothing. -/
lemma deactivateAdapter_eq (h : Slots s) (hbase : bases.active.KeepsItems) :
    deactivateAdapter bases loraId s = some (.ok (decide (loraId ∈ s.activeAdapters.order)), s.deactivated loraId) := by
  by_cases hmem : loraId ∈ s.activeAdapters.order
  · have hcontains : (activeAdapters bases).contains loraId s = some (.ok true, s) :=
      AdapterLRUCache.contains_of_mem _ _ h.units hmem
    have hslot : deactivateSlot loraId s = some (.ok (),
        { s with loraIndexToId := clearSlot s.loraIndexToId loraId }) := rfl
    have hpop : (activeAdapters bases).pop loraId { s with loraIndexToId := clearSlot s.loraIndexToId loraId } =
        some (.ok (), { s with
          activeAdapters := s.activeAdapters.popped loraId 1
          loraIndexToId := clearSlot s.loraIndexToId loraId }) := by
      rw [AdapterLRUCache.pop_of_mem (activeAdapters bases) { s with loraIndexToId := _ } hbase h.units hmem]
      change some (Except.ok (), { s with
        activeAdapters := s.activeAdapters.popped loraId 1
        loraIndexToId := clearSlot (clearSlot s.loraIndexToId loraId) loraId }) = _
      rw [h.clearSlot_clearSlot]
    rw [deactivateAdapter, bind_of_ok hcontains, if_pos rfl, bind_of_ok hslot, bind_of_ok hpop,
      LoRAModelManager.deactivated, if_pos hmem, decide_eq_true hmem]
    rfl
  · have hcontains : (activeAdapters bases).contains loraId s = some (.ok false, s) :=
      AdapterLRUCache.contains_of_not_mem _ _ h.units hmem
    rw [deactivateAdapter, bind_of_ok hcontains, if_neg Bool.false_ne_true,
      LoRAModelManager.deactivated, if_neg hmem, decide_eq_false hmem]
    rfl

end Slots

/-! ## Removing -/

lemma deactivated_withRegistered (s : LoRAModelManager ω τ) (registeredAdapters : LRUCache ℕ ω) (loraId : ℕ) :
    LoRAModelManager.deactivated { s with registeredAdapters } loraId =
      { s.deactivated loraId with registeredAdapters } := by
  unfold LoRAModelManager.deactivated
  split
  · rfl
  · rfl

namespace Inv

section

variable (h : Inv info s)
include h

lemma order_removed :
    (s.removed loraId).registeredAdapters.order = s.registeredAdapters.order.erase loraId := by
  unfold LoRAModelManager.removed
  split
  · exact h.registered.order_popped
  · rename_i hmem
    rw [registered_deactivated, erase_of_not_mem hmem]

lemma activeOrder_removed :
    (s.removed loraId).activeAdapters.order = s.activeAdapters.order.erase loraId := by
  have hactive : (s.removed loraId).activeAdapters = (s.deactivated loraId).activeAdapters := by
    unfold LoRAModelManager.removed
    split
    · rfl
    · rfl
  rw [hactive, h.order_deactivated]

/-- An adapter in a slot is active. -/
lemma active_of_slot {index : ℕ} (hslot : s.loraIndexToId[index]? = some (some loraId)) :
    loraId ∈ s.activeAdapters.order :=
  h.perm.mem_iff.1 (reduceOption_mem_iff.2 (mem_of_getElem? hslot))

lemma deactivated : Inv info (s.deactivated loraId) := by
  have hslots : Slots (s.deactivated loraId) := h.toSlots.deactivated
  unfold LoRAModelManager.deactivated at hslots ⊢
  split
  · rename_i hmem
    rw [if_pos hmem] at hslots
    refine ⟨hslots, h.registered, h.registered_maxsize, h.le_capacity, h.slots_pos, h.slots_le, ?_, ?_⟩
    · intro other hother
      rw [h.units.order_popped] at hother
      exact h.active_registered other (mem_of_mem_erase hother)
    · intro index other lora hslot
      exact h.weights index other lora (getElem?_clearSlot hslot)
  · exact h

lemma removed : Inv info (s.removed loraId) := by
  have hdeactivated : Inv info (s.deactivated loraId) := h.deactivated
  have hne {other : ℕ} (hmem : other ∈ (s.deactivated loraId).activeAdapters.order) : other ≠ loraId := by
    rw [h.order_deactivated] at hmem
    exact (h.units.nodup.mem_erase_iff.1 hmem).1
  unfold LoRAModelManager.removed
  split
  · rename_i hreg
    have hregistered := registered_deactivated s loraId
    refine ⟨⟨hdeactivated.units, hdeactivated.maxsize, hdeactivated.length, hdeactivated.perm⟩,
      h.registered.popped hreg, ?_, ?_, hdeactivated.slots_pos, hdeactivated.slots_le, ?_, ?_⟩
    · exact h.registered_maxsize.trans (congrArg _ (frame_deactivated s loraId).capacity.symm)
    · rw [h.registered.order_popped]
      have hle := hdeactivated.le_capacity
      rw [hregistered] at hle
      exact (erase_sublist.length_le).trans hle
    · intro other hmem
      have hother := hdeactivated.active_registered other hmem
      rw [hregistered] at hother
      rw [h.registered.order_popped]
      exact h.registered.nodup.mem_erase_iff.2 ⟨hne hmem, hother⟩
    · intro index other lora hslot hlookup
      refine hdeactivated.weights index other lora hslot ?_
      rw [hregistered]
      rwa [LRUCache.lookup_popped _ (hne (hdeactivated.active_of_slot hslot))] at hlookup
  · exact hdeactivated

/-- The callback of the cache finds the adapter deactivated. -/
lemma removeAdapter_eq (hbases : bases.Documented) :
    ∃ b, removeAdapter bases loraId s = some (.ok b, s.removed loraId) := by
  have hdeactivate : deactivateAdapter bases loraId s = _ := h.deactivateAdapter_eq hbases.active
  have hregistered := registered_deactivated s loraId
  have hunits : (s.deactivated loraId).registeredAdapters.Units := hregistered ▸ h.registered
  have hinactive : loraId ∉ (s.deactivated loraId).activeAdapters.order := by
    rw [h.order_deactivated]
    exact h.units.nodup.not_mem_erase
  by_cases hmem : loraId ∈ s.registeredAdapters.order
  · have hmem' : loraId ∈ (s.deactivated loraId).registeredAdapters.order := hregistered ▸ hmem
    have hcontains : (registeredAdapters bases).contains loraId (s.deactivated loraId) =
        some (.ok true, s.deactivated loraId) := AdapterLRUCache.contains_of_mem _ _ hunits hmem'
    have hpop : (registeredAdapters bases).pop loraId (s.deactivated loraId) =
        some (.ok (), s.removed loraId) := by
      have hslots : Slots { s.deactivated loraId with
          registeredAdapters := (s.deactivated loraId).registeredAdapters.popped loraId 1 } :=
        ⟨h.toSlots.deactivated.units, h.toSlots.deactivated.maxsize, h.toSlots.deactivated.length,
          h.toSlots.deactivated.perm⟩
      rw [AdapterLRUCache.pop_of_mem (registeredAdapters bases) (s.deactivated loraId) hbases.registered hunits hmem']
      change (deactivateAdapter bases loraId >>= fun _ => pure ()) { s.deactivated loraId with
        registeredAdapters := (s.deactivated loraId).registeredAdapters.popped loraId 1 } = _
      rw [bind_of_ok (hslots.deactivateAdapter_eq hbases.active), deactivated_withRegistered,
        LoRAModelManager.deactivated, if_neg hinactive, LoRAModelManager.removed, if_pos hmem, hregistered]
      rfl
    refine ⟨true, ?_⟩
    rw [removeAdapter, bind_of_ok hdeactivate, bind_of_ok hcontains, if_pos rfl, bind_of_ok hpop]
    rfl
  · have hcontains : (registeredAdapters bases).contains loraId (s.deactivated loraId) =
        some (.ok false, s.deactivated loraId) :=
      AdapterLRUCache.contains_of_not_mem _ _ hunits fun hmem' => hmem (hregistered ▸ hmem')
    refine ⟨false, ?_⟩
    rw [removeAdapter, bind_of_ok hdeactivate, bind_of_ok hcontains, if_neg Bool.false_ne_true,
      LoRAModelManager.removed, if_neg hmem]
    rfl

/-- The least recently used adapter is removed; the callback deactivates it. -/
lemma removeOldestAdapter_eq (hbases : bases.Documented) {rest : List ℕ}
    (horder : s.registeredAdapters.order = loraId :: rest) :
    removeOldestAdapter bases s = some (.ok true, s.removed loraId) := by
  have hmem : loraId ∈ s.registeredAdapters.order := by
    rw [horder]
    exact mem_cons_self
  have hlength : (Effect.read fun s : LoRAModelManager ω τ => s.registeredAdapters.data.length :
      Run ω τ ℕ) s = some (.ok (rest.length + 1), s) := by
    rw [Effect.read, ← h.registered.length_order, horder, length_cons]
  have hremove : (registeredAdapters bases).removeOldest s = some (.ok (), s.removed loraId) := by
    have hslots : Slots { s with registeredAdapters := s.registeredAdapters.popped loraId 1 } :=
      ⟨h.units, h.maxsize, h.length, h.perm⟩
    rw [AdapterLRUCache.removeOldest_eq (registeredAdapters bases) s h.registered horder,
      AdapterLRUCache.pop_of_mem (registeredAdapters bases) s hbases.registered h.registered hmem]
    change (deactivateAdapter bases loraId >>= fun _ => pure ())
      { s with registeredAdapters := s.registeredAdapters.popped loraId 1 } = _
    rw [bind_of_ok (hslots.deactivateAdapter_eq hbases.active), deactivated_withRegistered,
      LoRAModelManager.removed, if_pos hmem]
    rfl
  rw [removeOldestAdapter, bind_of_ok hlength, if_pos (Nat.succ_pos _), bind_of_ok hremove]
  rfl

/-! ## Registering and activating -/

lemma capacity_pos : 0 < s.capacity := h.slots_pos.trans_le h.slots_le

lemma registerAdapter_eq (hbases : bases.Documented) (hnew : loraId ∉ s.registeredAdapters.order)
    (hroom : s.registeredAdapters.order.length < s.capacity) (lora : ω) :
    registerAdapter bases info loraId lora s = some (.ok true, { s with
      registeredAdapters := s.registeredAdapters.store loraId (info.createMergedLoras lora) 1 }) := by
  have hcontains : (registeredAdapters bases).contains loraId s = some (.ok false, s) :=
    AdapterLRUCache.contains_of_not_mem _ _ h.registered hnew
  have hset := hbases.setRegistered_fits s loraId (info.createMergedLoras lora)
    (by rw [h.registered_maxsize]; exact_mod_cast h.capacity_pos) ((h.registered.not_contains_iff loraId).2 hnew)
    (h.registered.hasRoom h.registered_maxsize hroom)
  rw [registerAdapter, bind_of_ok hcontains, if_neg Bool.false_ne_true]
  exact bind_of_ok hset

lemma register (hnew : loraId ∉ s.registeredAdapters.order)
    (hroom : s.registeredAdapters.order.length < s.capacity) (lora : ω) :
    Inv info { s with registeredAdapters := s.registeredAdapters.store loraId lora 1 } := by
  have horder : (s.registeredAdapters.store loraId lora 1).order = s.registeredAdapters.order ++ [loraId] := by
    rw [LRUCache.store, erase_of_not_mem hnew]
  refine ⟨⟨h.units, h.maxsize, h.length, h.perm⟩, h.registered.store hnew lora, h.registered_maxsize, ?_, h.slots_pos,
    h.slots_le, ?_, ?_⟩
  · rw [horder, length_append]
    exact hroom
  · intro other hmem
    rw [horder]
    exact mem_append_left _ (h.active_registered other hmem)
  · intro index other otherLora hslot hlookup
    have hne : other ≠ loraId := fun heq => hnew (heq ▸ h.active_registered other (h.active_of_slot hslot))
    refine h.weights index other otherLora hslot ?_
    rwa [LRUCache.lookup_store _ _ hne] at hlookup

lemma touchRegistered (hmem : loraId ∈ s.registeredAdapters.order) :
    Inv info { s with registeredAdapters := s.registeredAdapters.touch loraId } := by
  have hunits := h.registered.touch hmem
  refine ⟨⟨h.units, h.maxsize, h.length, h.perm⟩, hunits, h.registered_maxsize, ?_, h.slots_pos, h.slots_le, ?_,
    h.weights⟩
  · rw [hunits.length_order]
    exact h.registered.length_order.symm.trans_le h.le_capacity
  · intro other hactive
    exact (hunits.mem_order other).2 ((h.registered.mem_order other).1 (h.active_registered other hactive))

lemma touchActive (hmem : loraId ∈ s.activeAdapters.order) :
    Inv info { s with activeAdapters := s.activeAdapters.touch loraId } := by
  have hunits := h.units.touch hmem
  have hperm : (s.activeAdapters.touch loraId).order.Perm s.activeAdapters.order :=
    (perm_append_singleton loraId _).trans (perm_cons_erase hmem).symm
  refine ⟨⟨hunits, h.maxsize, h.length, h.perm.trans hperm.symm⟩, h.registered, h.registered_maxsize, h.le_capacity,
    h.slots_pos, h.slots_le, ?_, h.weights⟩
  intro other hother
  exact h.active_registered other (hperm.mem_iff.1 hother)

end

end Inv

namespace LoRAModelManager

/-- The manager after an adapter is put in the first free slot. -/
def activated (s : LoRAModelManager ω τ) (info : ModelInfo ω τ) (loraId : ℕ) (lora : ω) : LoRAModelManager ω τ :=
  { s with
    activeAdapters := s.activeAdapters.store loraId () 1
    registeredAdapters := s.registeredAdapters.touch loraId
    loraIndexToId := s.loraIndexToId.set (s.loraIndexToId.idxOf none) (some loraId)
    weights := fun module i => if module ∈ info.modules ∧ i = s.loraIndexToId.idxOf none then
        info.getLoraLayerWeights lora module
      else s.weights module i }

end LoRAModelManager

namespace Inv

variable {lora : ω}

lemma none_mem (h : Inv info s) (hroom : s.activeAdapters.order.length < s.loraSlots) : none ∈ s.loraIndexToId := by
  rw [← reduceOption_length_lt_iff, h.perm.length_eq, h.length]
  exact hroom

lemma activateInSlot_eq (h : Inv info s) (hbases : bases.Documented)
    (hnot : loraId ∉ s.activeAdapters.order) (hroom : s.activeAdapters.order.length < s.loraSlots)
    (hlookup : s.registeredAdapters.data.lookup loraId = some (lora, 1)) :
    activateInSlot bases info loraId s = some (.ok true, s.activated info loraId lora) := by
  have hcontains : (activeAdapters bases).contains loraId s = some (.ok false, s) :=
    AdapterLRUCache.contains_of_not_mem _ _ h.units hnot
  have hread : (Effect.read (·.loraIndexToId) : Run ω τ (List (Option ℕ))) s = some (.ok s.loraIndexToId, s) := rfl
  have hset : (activeAdapters bases).setitem loraId () s =
      some (.ok (), { s with activeAdapters := s.activeAdapters.store loraId () 1 }) :=
    hbases.setActive_fits s loraId (by rw [h.maxsize]; exact_mod_cast h.slots_pos)
      ((h.units.not_contains_iff loraId).2 hnot) (h.units.hasRoom h.maxsize hroom)
  have hget : (registeredAdapters bases).lift (bases.registered.getitem loraId)
      { s with activeAdapters := s.activeAdapters.store loraId () 1 } = some (.ok lora, { s with
        activeAdapters := s.activeAdapters.store loraId () 1
        registeredAdapters := s.registeredAdapters.touch loraId }) := by
    rw [AdapterLRUCache.lift]
    change (bases.registered.getitem loraId s.registeredAdapters).map _ = _
    rw [hbases.registered.getitem_stored _ _ _ _ hlookup]
    rfl
  have hfree : ¬none ∉ s.loraIndexToId := not_not.2 (h.none_mem hroom)
  rw [activateInSlot, bind_of_ok hcontains, if_neg Bool.false_ne_true, bind_of_ok hread, if_neg hfree]
  exact (bind_of_ok hset).trans (bind_of_ok hget)

lemma activated (h : Inv info s) (hnot : loraId ∉ s.activeAdapters.order)
    (hroom : s.activeAdapters.order.length < s.loraSlots)
    (hlookup : s.registeredAdapters.data.lookup loraId = some (lora, 1)) :
    Inv info (s.activated info loraId lora) := by
  have hmem : loraId ∈ s.registeredAdapters.order := (h.registered.mem_order loraId).2 (key_mem_of_lookup hlookup)
  have htouched := h.touchRegistered hmem
  have horder : (s.activeAdapters.store loraId () 1).order = s.activeAdapters.order ++ [loraId] := by
    rw [LRUCache.store, erase_of_not_mem hnot]
  refine ⟨⟨h.units.store hnot (), h.maxsize, ?_, ?_⟩, htouched.registered, h.registered_maxsize, htouched.le_capacity,
    h.slots_pos, h.slots_le, ?_, ?_⟩
  · exact length_set.trans h.length
  · refine (reduceOption_fill loraId (h.none_mem hroom)).trans ((h.perm.cons loraId).trans ?_)
    exact (perm_append_singleton loraId _).symm.trans (.of_eq horder.symm)
  · intro other hother
    rcases mem_append.1 (horder ▸ hother : other ∈ s.activeAdapters.order ++ [loraId]) with hother | hother
    · exact htouched.active_registered other hother
    · obtain rfl := mem_singleton.1 hother
      exact (htouched.registered.mem_order other).2 ((h.registered.mem_order other).1 hmem)
  · intro index other otherLora hslot hother module hmodule
    change (s.loraIndexToId.set _ _)[index]? = _ at hslot
    rw [getElem?_set] at hslot
    by_cases hindex : s.loraIndexToId.idxOf none = index
    · rw [if_pos hindex] at hslot
      split at hslot
      · obtain rfl : loraId = other := by simpa using hslot
        obtain rfl : lora = otherLora := congrArg Prod.fst (Option.some.inj (hlookup.symm.trans hother))
        exact if_pos ⟨hmodule, hindex.symm⟩
      · cases hslot
    · rw [if_neg hindex] at hslot
      refine (if_neg fun hboth => hindex hboth.2.symm).trans ?_
      exact h.weights index other otherLora hslot hother module hmodule

lemma activateAdapter_of_active (h : Inv info s) (hmem : loraId ∈ s.activeAdapters.order) :
    activateAdapter bases info loraId s =
      some (.ok false, { s with activeAdapters := s.activeAdapters.touch loraId }) := by
  have hcontains : (activeAdapters bases).contains loraId s = some (.ok true, s) :=
    AdapterLRUCache.contains_of_mem _ _ h.units hmem
  have hfull : (Effect.read fun s : LoRAModelManager ω τ => decide (s.loraSlots ≤ s.activeAdapters.data.length) :
      Run ω τ Bool) s = some (.ok (decide (s.loraSlots ≤ s.activeAdapters.data.length)), s) := rfl
  have hslot : activateInSlot bases info loraId s = some (.ok false, s) := by
    rw [activateInSlot, bind_of_ok hcontains, if_pos rfl]
    rfl
  rw [activateAdapter, bind_of_ok hcontains, bind_of_ok hfull, if_neg (by simp)]
  exact bind_of_ok hslot

/-- The least recently used adapter makes room if all slots are taken. -/
lemma activateAdapter_of_not_active (h : Inv info s) (hbases : bases.Documented)
    (hnot : loraId ∉ s.activeAdapters.order)
    (hlookup : s.registeredAdapters.data.lookup loraId = some (lora, 1)) :
    ∃ s₁, (s₁ = s ∨ ∃ oldest rest, s.activeAdapters.order = oldest :: rest ∧
        s.loraSlots ≤ s.activeAdapters.order.length ∧ s₁ = s.deactivated oldest) ∧
      s₁.activeAdapters.order.length < s.loraSlots ∧
      activateAdapter bases info loraId s = some (.ok true, { s₁.activated info loraId lora with
        activeAdapters := (s₁.activeAdapters.store loraId () 1).touch loraId }) := by
  have hcontains : (activeAdapters bases).contains loraId s = some (.ok false, s) :=
    AdapterLRUCache.contains_of_not_mem _ _ h.units hnot
  have hfull : (Effect.read fun s : LoRAModelManager ω τ => decide (s.loraSlots ≤ s.activeAdapters.data.length) :
      Run ω τ Bool) s = some (.ok (decide (s.loraSlots ≤ s.activeAdapters.data.length)), s) := rfl
  rw [← h.units.length_order] at hfull
  by_cases hle : s.loraSlots ≤ s.activeAdapters.order.length
  · obtain ⟨oldest, rest, horder⟩ := exists_cons_of_length_pos (h.slots_pos.trans_le hle)
    have hmem : oldest ∈ s.activeAdapters.order := by
      rw [horder]
      exact mem_cons_self
    have hremove : (activeAdapters bases).removeOldest s = some (.ok (), s.deactivated oldest) := by
      rw [AdapterLRUCache.removeOldest_eq (activeAdapters bases) s h.units horder,
        AdapterLRUCache.pop_of_mem (activeAdapters bases) s hbases.active h.units hmem,
        LoRAModelManager.deactivated, if_pos hmem]
      rfl
    have hroom : (s.deactivated oldest).activeAdapters.order.length < s.loraSlots := by
      have hslots : s.activeAdapters.order.length ≤ s.loraSlots := by
        rw [← h.perm.length_eq, ← h.length]
        exact reduceOption_length_le _
      rw [h.order_deactivated, length_erase_of_mem hmem]
      have hpos := h.slots_pos
      omega
    have hinv : Inv info (s.deactivated oldest) := h.deactivated
    have hslot : activateInSlot bases info loraId (s.deactivated oldest) =
        some (.ok true, (s.deactivated oldest).activated info loraId lora) := by
      refine hinv.activateInSlot_eq hbases ?_ ?_ ?_
      · rw [h.order_deactivated]
        exact fun hin => hnot (mem_of_mem_erase hin)
      · rw [(frame_deactivated s oldest).loraSlots]
        exact hroom
      · rw [registered_deactivated]
        exact hlookup
    refine ⟨s.deactivated oldest, .inr ⟨oldest, rest, horder, hle, rfl⟩, hroom, ?_⟩
    rw [activateAdapter, bind_of_ok hcontains, bind_of_ok hfull, if_pos (by simpa using hle), bind_of_ok hremove]
    exact bind_of_ok hslot
  · have hslot := h.activateInSlot_eq hbases hnot (not_le.1 hle) hlookup
    refine ⟨s, .inl rfl, not_le.1 hle, ?_⟩
    rw [activateAdapter, bind_of_ok hcontains, bind_of_ok hfull, if_neg (by simpa using hle)]
    exact bind_of_ok hslot

/-- An adapter that was just registered or used is activated. -/
lemma activateAdapter_spec (h : Inv info s) (hbases : bases.Documented) {used : List ℕ}
    (hregistered : Recent s.registeredAdapters.order (loraId :: used)) (hactive : Recent s.activeAdapters.order used)
    (hnew : loraId ∉ used) (hlength : used.length < s.loraSlots) :
    ∃ b s', activateAdapter bases info loraId s = some (.ok b, s') ∧ Inv info s' ∧ Frame s s' ∧
      Recent s'.registeredAdapters.order (loraId :: used) ∧ Recent s'.activeAdapters.order (loraId :: used) := by
  by_cases hmem : loraId ∈ s.activeAdapters.order
  · exact ⟨false, _, h.activateAdapter_of_active hmem, h.touchActive hmem, ⟨rfl, rfl, rfl, rfl⟩, hregistered,
      hactive.use hnew⟩
  · have hin : loraId ∈ s.registeredAdapters.order := hregistered.mem mem_cons_self
    obtain ⟨lora, hlookup⟩ := h.registered.exists_lookup hin
    obtain ⟨s₁, hs₁, hroom, hactivate⟩ := h.activateAdapter_of_not_active hbases hmem hlookup
    -- making room evicts no adapter that was just used, since there are more active ones than these
    have hkept : Inv info s₁ ∧ Frame s s₁ ∧ s₁.registeredAdapters = s.registeredAdapters ∧
        loraId ∉ s₁.activeAdapters.order ∧ Recent s₁.activeAdapters.order used := by
      rcases hs₁ with rfl | ⟨oldest, rest, horder, hle, rfl⟩
      · exact ⟨h, .refl _, rfl, hmem, hactive⟩
      · have hold : oldest ∉ used := by
          rw [horder] at hactive hle
          exact hactive.head_not_mem (horder ▸ h.units.nodup) (hlength.trans_le hle)
        refine ⟨h.deactivated, frame_deactivated s oldest, registered_deactivated s oldest, ?_, ?_⟩
        · rw [h.order_deactivated]
          exact fun hmem' => hmem (mem_of_mem_erase hmem')
        · rw [h.order_deactivated]
          exact hactive.erase hold
    obtain ⟨hinv₁, hframe, hsame, hnot₁, hrecent⟩ := hkept
    have hactivated : Inv info (s₁.activated info loraId lora) :=
      hinv₁.activated hnot₁ (hframe.loraSlots ▸ hroom) (by rw [hsame]; exact hlookup)
    have hrecent' : Recent (s₁.activeAdapters.store loraId () 1).order (loraId :: used) := hrecent.use hnew
    refine ⟨true, _, hactivate, hactivated.touchActive ?_, ⟨hframe.capacity, hframe.loraSlots, hframe.lastMapping,
      hframe.metadata⟩, ?_, ?_⟩
    · exact hrecent'.mem mem_cons_self
    · change Recent (s₁.registeredAdapters.order.erase loraId ++ [loraId]) (loraId :: used)
      rw [hsame]
      exact hregistered.again h.registered.nodup mem_cons_self
    · exact hrecent'.again hactivated.units.nodup mem_cons_self

end Inv

end VllmRuntime.LoRA
