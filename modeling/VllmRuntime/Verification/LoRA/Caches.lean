import VllmRuntime.Model.LoRA
import VllmRuntime.Verification.MultiModal.LRUCache

/-! The caches of adapters hold entries of size one, none of them pinned, so that their order lists the keys. -/

namespace VllmRuntime

open List Effect

namespace LRUCache

variable {κ ν : Type} [DecidableEq κ] {c : LRUCache κ ν} {key other : κ} {value : ν}

/-- The entries have size one, no key is pinned, and the order has every key once. -/
structure Units (c : LRUCache κ ν) : Prop where
  nodup : c.order.Nodup
  nodup_keys : c.keys.Nodup
  mem_order : ∀ key, key ∈ c.order ↔ key ∈ c.keys
  sizes : ∀ key value size, c.data.lookup key = some (value, size) → size = 1
  currsize : c.currsize = c.data.length
  pinnedItems : c.pinnedItems = []

namespace Units

section

variable (h : c.Units)
include h

lemma length_order : c.order.length = c.data.length := by
  have hperm : c.order.Perm c.keys := (perm_ext_iff_of_nodup h.nodup h.nodup_keys).2 h.mem_order
  rw [hperm.length_eq, keys, length_map]

lemma contains_iff (key : κ) : c.contains key = true ↔ key ∈ c.order := by
  rw [contains_eq_true, h.mem_order]

lemma not_contains_iff (key : κ) : c.contains key = false ↔ key ∉ c.order := by
  rw [contains_eq_false, h.mem_order]

lemma exists_lookup (hmem : key ∈ c.order) : ∃ value, c.data.lookup key = some (value, 1) := by
  obtain ⟨value, size, hlookup⟩ := LRUCache.exists_lookup ((h.contains_iff key).2 hmem)
  obtain rfl := h.sizes key value size hlookup
  exact ⟨value, hlookup⟩

lemma touch (hmem : key ∈ c.order) : (c.touch key).Units where
  nodup := (perm_append_singleton key _).nodup_iff.2
    (List.nodup_cons.2 ⟨h.nodup.not_mem_erase, h.nodup.erase key⟩)
  nodup_keys := h.nodup_keys
  mem_order other := by
    change other ∈ c.order.erase key ++ [key] ↔ other ∈ c.keys
    rw [mem_append, h.nodup.mem_erase_iff, mem_singleton, h.mem_order]
    by_cases heq : other = key
    · subst heq
      simpa using (h.mem_order other).1 hmem
    · simp [heq]
  sizes := h.sizes
  currsize := h.currsize
  pinnedItems := h.pinnedItems

lemma store (hnew : key ∉ c.order) (value : ν) : (c.store key value 1).Units where
  nodup := by
    rw [LRUCache.store, erase_of_not_mem hnew]
    exact (perm_append_singleton key _).nodup_iff.2 (List.nodup_cons.2 ⟨hnew, h.nodup⟩)
  nodup_keys := by
    rw [keys_store]
    exact (perm_append_singleton key _).nodup_iff.2
      (List.nodup_cons.2 ⟨fun hmem => hnew ((h.mem_order key).2 hmem), h.nodup_keys⟩)
  mem_order other := by
    rw [keys_store, LRUCache.store, erase_of_not_mem hnew, mem_append, mem_append, h.mem_order]
  sizes other value' size hlookup := by
    rw [LRUCache.store, lookup_append] at hlookup
    cases hold : c.data.lookup other with
    | some entry =>
      rw [hold, Option.some_or] at hlookup
      exact h.sizes other value' size (hold.trans hlookup)
    | none =>
      rw [hold, Option.none_or] at hlookup
      exact (Prod.mk.inj (Prod.mk.inj (List.mem_singleton.1 (mem_of_lookup hlookup))).2).2
  currsize := by
    simp [LRUCache.store, h.currsize]
  pinnedItems := h.pinnedItems

lemma order_popped : (c.popped key 1).order = c.order.erase key := by
  have hnot : key ∉ c.order.erase key := h.nodup.not_mem_erase
  simp [popped, LRUCache.touch, LRUCache.delete, erase_append, hnot]

lemma popped (hmem : key ∈ c.order) : (c.popped key 1).Units where
  nodup := by
    rw [h.order_popped]
    exact h.nodup.erase key
  nodup_keys := nodup_dictPop h.nodup_keys
  mem_order other := by
    rw [h.order_popped, h.nodup.mem_erase_iff, h.mem_order]
    exact (and_comm.trans mem_map_fst_dictPop.symm)
  sizes other value size hlookup := by
    change (dictPop c.data key).lookup other = some (value, size) at hlookup
    rw [lookup_dictPop] at hlookup
    split at hlookup
    · cases hlookup
    · exact h.sizes other value size hlookup
  currsize := by
    obtain ⟨value, hlookup⟩ := h.exists_lookup hmem
    have hlength := (perm_dictPop h.nodup_keys hlookup).length_eq
    simp only [LRUCache.popped, LRUCache.touch, LRUCache.delete, h.currsize]
    rw [length_cons] at hlength
    push_cast [hlength]
    omega
  pinnedItems := by
    simp [LRUCache.popped, LRUCache.touch, LRUCache.delete, h.pinnedItems]

lemma hasRoom {n : ℕ} (hmax : c.maxsize = n) (hlt : c.order.length < n) : c.HasRoom 1 := by
  rw [HasRoom, h.currsize, hmax, ← h.length_order]
  exact_mod_cast hlt

end

end Units

lemma lookup_popped (c : LRUCache κ ν) (hne : other ≠ key) :
    (c.popped key 1).data.lookup other = c.data.lookup other := by
  change (dictPop c.data key).lookup other = _
  rw [lookup_dictPop, if_neg hne]

lemma lookup_store (c : LRUCache κ ν) (value : ν) (hne : other ≠ key) :
    (c.store key value 1).data.lookup other = c.data.lookup other := by
  have hnone : ([(key, value, 1)] : OrderedDict κ (ν × ℕ)).lookup other = none :=
    lookup_eq_none.2 (by simpa using hne)
  rw [store, lookup_append, hnone, Option.or_none]

end LRUCache

namespace LoRA.AdapterLRUCache

variable {ω τ ν : Type} (adapters : AdapterLRUCache ω τ ν) (s : LoRAModelManager ω τ) {loraId : ℕ}

lemma contains_of_mem (hunits : (adapters.cache s).Units) (hmem : loraId ∈ (adapters.cache s).order) :
    adapters.contains loraId s = some (.ok true, s) := by
  rw [contains, Effect.read, (hunits.contains_iff loraId).2 hmem]

lemma contains_of_not_mem (hunits : (adapters.cache s).Units) (hmem : loraId ∉ (adapters.cache s).order) :
    adapters.contains loraId s = some (.ok false, s) := by
  rw [contains, Effect.read, (hunits.not_contains_iff loraId).2 hmem]

lemma pop_of_mem (hbase : adapters.base.KeepsItems) (hunits : (adapters.cache s).Units)
    (hmem : loraId ∈ (adapters.cache s).order) :
    adapters.pop loraId s =
      adapters.deactivateFn loraId (adapters.withCache s ((adapters.cache s).popped loraId 1)) := by
  obtain ⟨value, hlookup⟩ := hunits.exists_lookup hmem
  have hpop : adapters.lift (adapters.base.pop loraId) s =
      some (.ok (some value), adapters.withCache s ((adapters.cache s).popped loraId 1)) := by
    rw [lift, hbase.pop_stored hlookup]
    rfl
  rw [pop, bind_of_ok (contains_of_mem adapters s hunits hmem), if_pos rfl, bind_of_ok hpop]

lemma removeOldest_eq (hunits : (adapters.cache s).Units) {rest : List ℕ}
    (horder : (adapters.cache s).order = loraId :: rest) : adapters.removeOldest s = adapters.pop loraId s := by
  have hlength : (read fun s => (adapters.cache s).data.length : Run ω τ ℕ) s =
      some (.ok (rest.length + 1), s) := by
    rw [Effect.read, ← hunits.length_order, horder, length_cons]
  have hfind : (read fun s => (adapters.cache s).order.find? (· ∉ (adapters.cache s).pinnedItems) :
      Run ω τ (Option ℕ)) s = some (.ok (some loraId), s) := by
    rw [Effect.read, hunits.pinnedItems, horder]
    rfl
  rw [removeOldest, bind_of_ok hlength, if_neg (Nat.succ_ne_zero _), bind_of_ok hfind]

end LoRA.AdapterLRUCache

end VllmRuntime
