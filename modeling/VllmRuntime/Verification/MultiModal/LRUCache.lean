import VllmRuntime.Model.MultiModalCache

/-! # Equations of the cache

What the methods of `LRUCache` do on top of the documented behaviour of `cachetools`, which keys they
can leave in the cache, and that they act in the same way on two caches with the same keys, sizes
and order. -/

namespace VllmRuntime

open Effect

variable {κ ν ν' : Type} [DecidableEq κ]

namespace LRUCache

variable {c : LRUCache κ ν} {c' : LRUCache κ ν'} {key : κ} {size : ℕ}

def keys (c : LRUCache κ ν) : List κ := c.data.map Prod.fst

lemma contains_eq_true : c.contains key = true ↔ key ∈ c.keys := by
  simp [contains, keys]

lemma contains_eq_false : c.contains key = false ↔ key ∉ c.keys := by
  rw [← contains_eq_true, Bool.not_eq_true]

lemma exists_lookup (h : c.contains key = true) :
    ∃ value size, c.data.lookup key = some (value, size) := by
  obtain ⟨entry, hentry⟩ := Option.isSome_iff_exists.mp (lookup_isSome.mpr (contains_eq_true.mp h))
  exact ⟨entry.1, entry.2, hentry⟩

lemma contains_of_lookup {value : ν} (h : c.data.lookup key = some (value, size)) :
    c.contains key = true :=
  contains_eq_true.mpr (key_mem_of_lookup h)

/-- The cache after `pop` of a stored key. -/
def popped (c : LRUCache κ ν) (key : κ) (size : ℕ) : LRUCache κ ν :=
  let c := ((c.touch key).touch key).delete key size
  { c with pinnedItems := c.pinnedItems.erase key }

lemma keys_popped : ∀ x ∈ (c.popped key size).keys, x ∈ c.keys := by
  intro x hx
  exact (mem_map_fst_dictPop.mp hx).1

/-- All keys of the cache are in the set. -/
def KeysIn (S : Set κ) (c : LRUCache κ ν) : Prop := ∀ key ∈ c.keys, key ∈ S

lemma keys_store (value : ν) : (c.store key value size).keys = c.keys ++ [key] := by
  simp [keys, store]

/-! ## Two caches with the same entries -/

/-- The caches have the same keys with the same sizes, in the same eviction order. -/
structure Mirrors (c : LRUCache κ ν) (c' : LRUCache κ ν') : Prop where
  maxsize : c.maxsize = c'.maxsize
  currsize : c.currsize = c'.currsize
  order : c.order = c'.order
  pinnedItems : c.pinnedItems = c'.pinnedItems
  sizes : c.data.map (fun entry => (entry.1, entry.2.2)) =
    c'.data.map fun entry => (entry.1, entry.2.2)

namespace Mirrors

omit [DecidableEq κ] in
lemma keys_eq (h : c.Mirrors c') : c.keys = c'.keys := by
  have hkeys := congrArg (List.map Prod.fst) h.sizes
  simpa [keys, Function.comp_def] using hkeys

lemma contains_eq (h : c.Mirrors c') (key : κ) : c.contains key = c'.contains key := by
  rw [Bool.eq_iff_iff, contains_eq_true, contains_eq_true, h.keys_eq]

omit [DecidableEq κ] in
lemma hasRoom (h : c.Mirrors c') : c.HasRoom size ↔ c'.HasRoom size := by
  unfold HasRoom
  rw [h.currsize, h.maxsize]

lemma touch (h : c.Mirrors c') (key : κ) : (c.touch key).Mirrors (c'.touch key) :=
  ⟨h.maxsize, h.currsize, by simp [LRUCache.touch, h.order], h.pinnedItems, h.sizes⟩

lemma store (h : c.Mirrors c') (key : κ) (value : ν) (value' : ν') (size : ℕ) :
    (c.store key value size).Mirrors (c'.store key value' size) where
  maxsize := h.maxsize
  currsize := by simp [LRUCache.store, h.currsize]
  order := by simp [LRUCache.store, h.order]
  pinnedItems := h.pinnedItems
  sizes := by simp [LRUCache.store, h.sizes]

lemma popped (h : c.Mirrors c') (key : κ) (size : ℕ) :
    (c.popped key size).Mirrors (c'.popped key size) where
  maxsize := h.maxsize
  currsize := by simp [LRUCache.popped, LRUCache.delete, LRUCache.touch, h.currsize]
  order := by simp [LRUCache.popped, LRUCache.delete, LRUCache.touch, h.order]
  pinnedItems := by simp [LRUCache.popped, LRUCache.delete, LRUCache.touch, h.pinnedItems]
  sizes := by
    have hfilter := congrArg (List.filter fun entry : κ × ℕ => entry.1 ≠ key) h.sizes
    simpa [LRUCache.popped, LRUCache.delete, LRUCache.touch, dictPop, List.filter_map,
      Function.comp_def] using hfilter

lemma lookup (h : c.Mirrors c') {value : ν} (hlookup : c.data.lookup key = some (value, size)) :
    ∃ value', c'.data.lookup key = some (value', size) := by
  have hsizes := congrArg (List.lookup key) h.sizes
  have hmap {μ : Type} (d : OrderedDict κ (μ × ℕ)) :
      (d.map fun entry => (entry.1, entry.2.2)).lookup key = (d.lookup key).map Prod.snd :=
    lookup_map_snd d (fun _ => Prod.snd) key
  rw [hmap, hmap, hlookup] at hsizes
  obtain ⟨⟨value', size'⟩, hlookup', hsize⟩ := Option.map_eq_some_iff.mp hsizes.symm
  obtain rfl : size' = size := hsize
  exact ⟨value', hlookup'⟩

end Mirrors

end LRUCache

/-! ## The methods -/

namespace Cachetools.KeepsItems

open LRUCache

variable {base : Cachetools κ ν} {c : LRUCache κ ν} {key : κ} {value : ν} {size : ℕ}

lemma get_stored (hbase : base.KeepsItems)
    (h : c.data.lookup key = some (value, size)) :
    base.get key c = some (.ok (some value), c.touch key) := by
  have hcontains : (Effect.read (·.contains key) : Effect PyError (LRUCache κ ν) Bool) c =
      some (.ok true, c) := by
    rw [Effect.read, contains_of_lookup h]
  rw [Cachetools.get, bind_of_ok hcontains, if_pos rfl,
    bind_of_ok (hbase.getitem_stored c key value size h)]
  rfl

lemma get_missing (h : c.contains key = false) : base.get key c = some (.ok none, c) := by
  have hcontains : (Effect.read (·.contains key) : Effect PyError (LRUCache κ ν) Bool) c =
      some (.ok false, c) := by
    rw [Effect.read, h]
  rw [Cachetools.get, bind_of_ok hcontains, if_neg (by simp)]
  rfl

lemma get_cases (hbase : base.KeepsItems) (c : LRUCache κ ν) (key : κ) :
    (c.contains key = false ∧ base.get key c = some (.ok none, c)) ∨
      ∃ value size, c.data.lookup key = some (value, size) ∧
        base.get key c = some (.ok (some value), c.touch key) := by
  cases hcontains : c.contains key with
  | false => exact Or.inl ⟨rfl, get_missing hcontains⟩
  | true =>
    obtain ⟨value, size, hlookup⟩ := exists_lookup hcontains
    exact Or.inr ⟨value, size, hlookup, hbase.get_stored hlookup⟩

lemma pop_stored (hbase : base.KeepsItems)
    (h : c.data.lookup key = some (value, size)) :
    base.pop key c = some (.ok (some value), c.popped key size) := by
  have hcontains : (Effect.read (·.contains key) : Effect PyError (LRUCache κ ν) Bool) c =
      some (.ok true, c) := by
    rw [Effect.read, contains_of_lookup h]
  have hdel : base.delItem key (c.touch key) = some (.ok (), c.popped key size) := by
    rw [Cachetools.delItem, bind_of_ok (hbase.getitem_stored (c.touch key) key value size h),
      bind_of_ok (hbase.delitem_stored ((c.touch key).touch key) key value size h)]
    rfl
  rw [Cachetools.pop, bind_of_ok hcontains, if_pos rfl,
    bind_of_ok (hbase.getitem_stored c key value size h), bind_of_ok hdel]
  rfl

lemma pop_missing (h : c.contains key = false) : base.pop key c = some (.ok none, c) := by
  have hcontains : (Effect.read (·.contains key) : Effect PyError (LRUCache κ ν) Bool) c =
      some (.ok false, c) := by
    rw [Effect.read, h]
  rw [Cachetools.pop, bind_of_ok hcontains, if_neg (by simp)]
  rfl

/-- `popitem` evicts the first key of the order that is not pinned. A key of the order that is not
stored stays where it is. -/
lemma popitem_cases (hbase : base.KeepsItems) (c : LRUCache κ ν) :
    (c.order.find? (· ∉ c.pinnedItems) = none ∧ base.popitem c =
      some (.error (.runtimeError "All items are pinned, cannot remove oldest from the cache."), c)) ∨
    (∃ key, c.order.find? (· ∉ c.pinnedItems) = some key ∧ c.contains key = false ∧
      base.popitem c = some (.ok (key, none), c)) ∨
    ∃ key value size, c.order.find? (· ∉ c.pinnedItems) = some key ∧
      c.data.lookup key = some (value, size) ∧
      base.popitem c = some (.ok (key, some value), c.popped key size) := by
  have hread (found : Option κ) (h : c.order.find? (· ∉ c.pinnedItems) = found) :
      (Effect.read fun c : LRUCache κ ν => c.order.find? (· ∉ c.pinnedItems) :
        Effect PyError (LRUCache κ ν) (Option κ)) c = some (.ok found, c) := by
    rw [Effect.read, h]
  cases hfind : c.order.find? (· ∉ c.pinnedItems) with
  | none =>
    refine Or.inl ⟨rfl, ?_⟩
    rw [Cachetools.popitem, bind_of_ok (hread none hfind)]
    rfl
  | some key =>
    refine Or.inr ?_
    cases hcontains : c.contains key with
    | false =>
      refine Or.inl ⟨key, rfl, hcontains, ?_⟩
      rw [Cachetools.popitem, bind_of_ok (hread (some key) hfind)]
      exact bind_of_ok (pop_missing hcontains)
    | true =>
      obtain ⟨value, size, hlookup⟩ := exists_lookup hcontains
      refine Or.inr ⟨key, value, size, rfl, hlookup, ?_⟩
      rw [Cachetools.popitem, bind_of_ok (hread (some key) hfind)]
      exact bind_of_ok (hbase.pop_stored hlookup)

/-! ## The keys that are left -/

lemma keeps_keysIn_popitem (hbase : base.KeepsItems) (S : Set κ) :
    Keeps (KeysIn S) base.popitem := by
  intro c out c' hc h
  rcases hbase.popitem_cases c with ⟨-, hpop⟩ | ⟨key, -, -, hpop⟩ | ⟨key, value, size, -, -, hpop⟩ <;>
    rw [hpop] at h <;> cases h
  · exact hc
  · exact hc
  · exact fun x hx => hc x (keys_popped x hx)

lemma keeps_maxsize_popitem (hbase : base.KeepsItems) (m : ℚ) :
    Keeps (fun c => c.maxsize = m) base.popitem := by
  intro c out c' hc h
  rcases hbase.popitem_cases c with ⟨-, hpop⟩ | ⟨key, -, -, hpop⟩ | ⟨key, value, size, -, -, hpop⟩ <;>
    rw [hpop] at h <;> cases h <;> exact hc

/-- A key that is not stored is still missing after an eviction. -/
lemma missing_of_popitem (hbase : base.KeepsItems) {out : Except PyError (κ × Option ν)}
    {c' : LRUCache κ ν} (hmissing : c.contains key = false) (h : base.popitem c = some (out, c')) :
    c'.contains key = false := by
  have hkeys : c.KeysIn {x | x ≠ key} := fun x hx hkey => contains_eq_false.mp hmissing (hkey ▸ hx)
  rw [contains_eq_false]
  exact fun hkey => hbase.keeps_keysIn_popitem _ c _ c' hkeys h key hkey rfl

end Cachetools.KeepsItems

/-! ## Storing a new key -/

namespace Cachetools.Documented

open LRUCache KeepsItems

/-- The ways in which `__setitem__` of a new key ends. -/
inductive Stores (base : Cachetools κ ν) (getsizeof : ν → ℕ) (key : κ) (value : ν) :
    LRUCache κ ν → Except PyError Unit → LRUCache κ ν → Prop where
  | large {c : LRUCache κ ν} : c.maxsize < getsizeof value →
      Stores base getsizeof key value c (.error (.valueError "value too large")) c
  | fits {c : LRUCache κ ν} : getsizeof value ≤ c.maxsize → c.HasRoom (getsizeof value) →
      Stores base getsizeof key value c (.ok ()) (c.store key value (getsizeof value))
  | raises {c c' : LRUCache κ ν} {e} : ¬ c.HasRoom (getsizeof value) → base.popitem c = some (.error e, c') →
      Stores base getsizeof key value c (.error e) c'
  | evicts {c c₁ c' : LRUCache κ ν} {item out} : getsizeof value ≤ c.maxsize → ¬ c.HasRoom (getsizeof value) →
      base.popitem c = some (.ok item, c₁) → Stores base getsizeof key value c₁ out c' →
      Stores base getsizeof key value c out c'

variable {base : Cachetools κ ν} {base' : Cachetools κ ν'} {getsizeof : ν → ℕ} {getsizeof' : ν' → ℕ}
  {c : LRUCache κ ν} {key : κ} {value : ν} {out : Except PyError Unit} {c' : LRUCache κ ν}

lemma stores_of_setitem (hbase : base.Documented getsizeof) (hmissing : c.contains key = false)
    (h : base.setitem key value c = some (out, c')) : Stores base getsizeof key value c out c' := by
  by_cases hlarge : c.maxsize < getsizeof value
  · rw [hbase.setitem_large c key value hlarge] at h
    cases h
    exact .large hlarge
  have hle := not_lt.mp hlarge
  have hroom := hbase.setitem_returns c key value _ hle hmissing h
  clear hlarge
  -- the induction follows the calls of `popitem` in `__setitem__`
  induction hroom with
  | @fits c hfits =>
    rw [hbase.setitem_fits c key value hle hmissing hfits] at h
    cases h
    exact .fits hle hfits
  | @raises c c₁ e hpop =>
    by_cases hfits : c.HasRoom (getsizeof value)
    · rw [hbase.setitem_fits c key value hle hmissing hfits] at h
      cases h
      exact .fits hle hfits
    · rw [hbase.setitem_full c key value hle hmissing hfits, bind_of_error hpop] at h
      cases h
      exact .raises hfits hpop
  | @evicts c c₁ item hpop hroom ih =>
    by_cases hfits : c.HasRoom (getsizeof value)
    · rw [hbase.setitem_fits c key value hle hmissing hfits] at h
      cases h
      exact .fits hle hfits
    · rw [hbase.setitem_full c key value hle hmissing hfits, bind_of_ok hpop] at h
      have hmissing₁ := hbase.missing_of_popitem hmissing hpop
      have hmaxsize := hbase.keeps_maxsize_popitem _ c _ c₁ rfl hpop
      exact .evicts hle hfits hpop (ih hmissing₁ h (hmaxsize ▸ hle))

/-- The base class stores nothing but the key it is given. -/
lemma keysIn_setitem (hbase : base.Documented getsizeof) {S : Set κ} (hkey : key ∈ S) (hc : c.KeysIn S)
    (hmissing : c.contains key = false) (h : base.setitem key value c = some (out, c')) : c'.KeysIn S := by
  have hstores := hbase.stores_of_setitem hmissing h
  clear h hmissing
  induction hstores with
  | large => exact hc
  | fits =>
    intro x hx
    rw [keys_store, List.mem_append, List.mem_singleton] at hx
    rcases hx with hx | rfl
    · exact hc x hx
    · exact hkey
  | raises _ hpop => exact hbase.keeps_keysIn_popitem S _ _ _ hc hpop
  | evicts _ _ hpop _ ih => exact ih (hbase.keeps_keysIn_popitem S _ _ _ hc hpop)

/-! ## Two caches in lockstep -/

section Lockstep

variable (hbase : base.Documented getsizeof) (hbase' : base'.Documented getsizeof')

include hbase hbase'

lemma simulates_get (key : κ) :
    Simulates Mirrors (fun a b => a.isSome = b.isSome) (base.get key) (base'.get key) := by
  intro c c' found c₁ hmirrors h
  rcases hbase.get_cases c key with ⟨hmissing, hget⟩ | ⟨value, size, hlookup, hget⟩ <;>
    rw [hget] at h <;> cases h
  · have hmissing' := (hmirrors.contains_eq key).symm.trans hmissing
    exact ⟨none, c', get_missing hmissing', rfl, hmirrors⟩
  · obtain ⟨value', hlookup'⟩ := hmirrors.lookup hlookup
    exact ⟨some value', _, hbase'.get_stored hlookup', rfl, hmirrors.touch key⟩

lemma simulates_popitem :
    Simulates Mirrors (fun a b => a.1 = b.1) base.popitem base'.popitem := by
  intro c c' item c₁ hmirrors h
  have hfind : c'.order.find? (· ∉ c'.pinnedItems) = c.order.find? (· ∉ c.pinnedItems) := by
    rw [hmirrors.order, hmirrors.pinnedItems]
  rcases hbase.popitem_cases c with ⟨-, hpop⟩ | ⟨key, hkey, hmissing, hpop⟩ |
      ⟨key, value, size, hkey, hlookup, hpop⟩ <;> rw [hpop] at h <;> cases h <;>
    rcases hbase'.popitem_cases c' with ⟨hkey', hpop'⟩ | ⟨key', hkey', hmissing', hpop'⟩ |
      ⟨key', value', size', hkey', hlookup', hpop'⟩ <;> rw [hfind, hkey] at hkey' <;> cases hkey'
  · exact ⟨_, _, hpop', rfl, hmirrors⟩
  · have hcontains := contains_of_lookup hlookup'
    rw [← hmirrors.contains_eq key, hmissing] at hcontains
    cases hcontains
  · rw [← hmirrors.contains_eq key, contains_of_lookup hlookup] at hmissing'
    cases hmissing'
  · obtain ⟨value'', hlookup''⟩ := hmirrors.lookup hlookup
    obtain ⟨-, rfl⟩ := Prod.mk.inj (Option.some.inj (hlookup'.symm.trans hlookup''))
    exact ⟨_, _, hpop', rfl, hmirrors.popped key size'⟩

/-- Values of the same size are stored in the same way. -/
lemma simulates_setitem {c₁ : LRUCache κ ν} {c' : LRUCache κ ν'} (value' : ν')
    (hsize : getsizeof value = getsizeof' value') (hmirrors : c.Mirrors c')
    (hmissing : c.contains key = false) (h : base.setitem key value c = some (.ok (), c₁)) :
    ∃ c₁', base'.setitem key value' c' = some (.ok (), c₁') ∧ c₁.Mirrors c₁' := by
  have hstores := hbase.stores_of_setitem hmissing h
  generalize hout : (.ok () : Except PyError Unit) = out at hstores
  clear h
  induction hstores generalizing c' with
  | large => cases hout
  | raises => cases hout
  | @fits c hle hfits =>
    have hmissing' := (hmirrors.contains_eq key).symm.trans hmissing
    have hle' : (getsizeof' value' : ℚ) ≤ c'.maxsize := by rwa [← hsize, ← hmirrors.maxsize]
    have hfits' : c'.HasRoom (getsizeof' value') := hsize ▸ hmirrors.hasRoom.mp hfits
    refine ⟨_, hbase'.setitem_fits c' key value' hle' hmissing' hfits', ?_⟩
    rw [← hsize]
    exact hmirrors.store key value value' _
  | @evicts c c₁ c₂ item out hle hfits hpop _ ih =>
    have hmissing' := (hmirrors.contains_eq key).symm.trans hmissing
    have hle' : (getsizeof' value' : ℚ) ≤ c'.maxsize := by rwa [← hsize, ← hmirrors.maxsize]
    have hfits' : ¬ c'.HasRoom (getsizeof' value') := hsize ▸ fun h => hfits (hmirrors.hasRoom.mpr h)
    obtain ⟨item', c₁', hpop', -, hmirrors₁⟩ :=
      simulates_popitem hbase hbase' c c' item c₁ hmirrors hpop
    have hmissing₁ : c₁.contains key = false := hbase.missing_of_popitem hmissing hpop
    obtain ⟨c₂', hset, hmirrors₂⟩ := ih hmirrors₁ hmissing₁ hout
    refine ⟨c₂', ?_, hmirrors₂⟩
    rw [hbase'.setitem_full c' key value' hle' hmissing' hfits', bind_of_ok hpop']
    exact hset

end Lockstep

end Cachetools.Documented

end VllmRuntime
