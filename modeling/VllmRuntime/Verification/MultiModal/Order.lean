import VllmRuntime.Shared.Runs
import VllmRuntime.Verification.MultiModal.Reference

/-! # The eviction order

As long as only stored keys are touched, the eviction order lists exactly the stored keys. Then every
eviction removes an entry, and the loops of `__setitem__` and `clear` end. -/

namespace VllmRuntime

open Effect

variable {κ ν : Type} [DecidableEq κ]

namespace LRUCache

/-- What `cachetools` does to the state when it stores a value in place of another one. -/
def replace (c : LRUCache κ ν) (key : κ) (value : ν) (size old : ℕ) : LRUCache κ ν :=
  { c.touch key with
    data := dictSet c.data key (value, size)
    currsize := c.currsize + size - old }

/-- The order lists exactly the stored keys. -/
structure Tidy (c : LRUCache κ ν) : Prop where
  nodup : c.order.Nodup
  nodup_keys : c.keys.Nodup
  mem_order : ∀ key, key ∈ c.order ↔ key ∈ c.keys

namespace Tidy

variable {c : LRUCache κ ν} {key : κ} {value : ν} {size old : ℕ}

omit [DecidableEq κ] in
lemma perm (h : c.Tidy) : c.order.Perm c.keys :=
  (List.perm_ext_iff_of_nodup h.nodup h.nodup_keys).mpr h.mem_order

omit [DecidableEq κ] in
lemma empty (maxsize : ℚ) : ({ maxsize } : LRUCache κ ν).Tidy :=
  ⟨.nil, .nil, fun _ => Iff.rfl⟩

lemma touch (h : c.Tidy) (hkey : key ∈ c.keys) : (c.touch key).Tidy := by
  have hperm : (c.touch key).order.Perm c.order :=
    (List.perm_append_singleton key _).trans (List.perm_cons_erase ((h.mem_order key).mpr hkey)).symm
  exact ⟨hperm.nodup_iff.mpr h.nodup, h.nodup_keys, fun x => hperm.mem_iff.trans (h.mem_order x)⟩

lemma store (h : c.Tidy) (hkey : key ∉ c.keys) : (c.store key value size).Tidy where
  nodup := by
    have hnot : key ∉ c.order := fun hmem => hkey ((h.mem_order key).mp hmem)
    rw [LRUCache.store, List.erase_of_not_mem hnot]
    exact h.nodup.append (List.nodup_singleton key) (List.disjoint_singleton.mpr hnot)
  nodup_keys := by
    rw [keys_store]
    exact h.nodup_keys.append (List.nodup_singleton key) (List.disjoint_singleton.mpr hkey)
  mem_order x := by
    have hnot : key ∉ c.order := fun hmem => hkey ((h.mem_order key).mp hmem)
    rw [keys_store, LRUCache.store, List.erase_of_not_mem hnot, List.mem_append, List.mem_append, h.mem_order]

lemma replace (h : c.Tidy) (hkey : key ∈ c.keys) : (c.replace key value size old).Tidy := by
  have hkeys : (c.replace key value size old).keys = (c.touch key).keys :=
    map_fst_dictSet.trans (if_pos hkey)
  have htouch := h.touch hkey
  exact ⟨htouch.nodup, hkeys ▸ htouch.nodup_keys, hkeys ▸ htouch.mem_order⟩

lemma order_popped (h : c.Tidy) : (c.popped key size).order = c.order.erase key := by
  have hnot : key ∉ c.order.erase key := h.nodup.not_mem_erase
  simp [popped, LRUCache.touch, delete, List.erase_append, hnot]

lemma popped (h : c.Tidy) : (c.popped key size).Tidy where
  nodup := by
    rw [h.order_popped]
    exact h.nodup.erase key
  nodup_keys := nodup_dictPop h.nodup_keys
  mem_order x := by
    rw [h.order_popped, h.nodup.mem_erase_iff, h.mem_order]
    exact and_comm.trans mem_map_fst_dictPop.symm

/-- Every key in the order is stored. -/
lemma contains (h : c.Tidy) (hkey : key ∈ c.order) : c.contains key = true :=
  contains_eq_true.mpr ((h.mem_order key).mp hkey)

end Tidy

end LRUCache

/-! ## Evictions -/

namespace Cachetools

open LRUCache

variable {base : Cachetools κ ν} {getsizeof : ν → ℕ} {c : LRUCache κ ν} {key : κ} {value : ν}

/-- The documented behaviour of `__setitem__` of a stored key: the value is replaced, or `self.popitem()` is
called first because there is no room. -/
structure DocumentedPut (base : Cachetools κ ν) (getsizeof : ν → ℕ) : Prop extends base.Documented getsizeof where
  setitem_stored (c : LRUCache κ ν) (key : κ) (value old : ν) (size : ℕ) : getsizeof value ≤ c.maxsize →
    c.data.lookup key = some (old, size) →
      base.setitem key value c = some (.ok (), c.replace key value (getsizeof value) size) ∨
        ¬ c.HasRoom (getsizeof value) ∧
          base.setitem key value c = (base.popitem >>= fun _ => base.setitem key value) c

/-- `popitem` removes a stored entry that is not pinned, or all entries are pinned. -/
lemma KeepsItems.popitem_tidy (hbase : base.KeepsItems) (h : c.Tidy) :
    ((∀ key ∈ c.keys, key ∈ c.pinnedItems) ∧ base.popitem c =
      some (.error (.runtimeError "All items are pinned, cannot remove oldest from the cache."), c)) ∨
    ∃ key value size, key ∉ c.pinnedItems ∧ c.data.lookup key = some (value, size) ∧
      base.popitem c = some (.ok (key, some value), c.popped key size) := by
  rcases hbase.popitem_cases c with ⟨hfind, hpop⟩ | ⟨key, hfind, hmissing, -⟩ |
    ⟨key, value, size, hfind, hlookup, hpop⟩
  · refine Or.inl ⟨fun key hkey => ?_, hpop⟩
    simpa using List.find?_eq_none.mp hfind key ((h.mem_order key).mpr hkey)
  · have hstored := h.contains (List.mem_of_find?_eq_some hfind)
    rw [hmissing] at hstored
    cases hstored
  · exact Or.inr ⟨key, value, size, by simpa using List.find?_some hfind, hlookup, hpop⟩

/-- `popitem(remove_pinned=True)` takes the first key of the order. A key that is not stored stays where
it is. -/
lemma KeepsItems.popitemPinned_cases (hbase : base.KeepsItems) (c : LRUCache κ ν) :
    (c.order = [] ∧ base.popitemPinned c = some (.error .stopIteration, c)) ∨
    (∃ key, c.order.head? = some key ∧ c.contains key = false ∧ base.popitemPinned c = some (.ok (key, none), c)) ∨
    ∃ key value size, c.data.lookup key = some (value, size) ∧
      base.popitemPinned c = some (.ok (key, some value), c.popped key size) := by
  have hread : (Effect.read fun c : LRUCache κ ν => c.order.head? :
      Effect PyError (LRUCache κ ν) (Option κ)) c = some (.ok c.order.head?, c) := rfl
  rw [popitemPinned, bind_of_ok hread]
  cases c.order with
  | nil => exact Or.inl ⟨rfl, rfl⟩
  | cons key order =>
    refine Or.inr ?_
    cases hcontains : c.contains key with
    | false => exact Or.inl ⟨key, rfl, hcontains, bind_of_ok (KeepsItems.pop_missing hcontains)⟩
    | true =>
      obtain ⟨value, size, hlookup⟩ := exists_lookup hcontains
      exact Or.inr ⟨key, value, size, hlookup, bind_of_ok (hbase.pop_stored hlookup)⟩

/-- `__setitem__` returns: there are only so many entries that can be evicted. -/
lemma DocumentedPut.setitem_tidy (hbase : base.DocumentedPut getsizeof) (h : c.Tidy) :
    ∃ out c', base.setitem key value c = some (out, c') ∧ c'.Tidy := by
  induction hlength : c.data.length using Nat.strongRecOn generalizing c with
  | _ n ih =>
    by_cases hlarge : c.maxsize < getsizeof value
    · exact ⟨_, c, hbase.setitem_large c key value hlarge, h⟩
    have hle := not_lt.mp hlarge
    have hpopped (hset : base.setitem key value c = (base.popitem >>= fun _ => base.setitem key value) c) :
        ∃ out c', base.setitem key value c = some (out, c') ∧ c'.Tidy := by
      rw [hset]
      rcases hbase.popitem_tidy h with ⟨-, hpop⟩ | ⟨x, y, size, -, hlookup, hpop⟩
      · exact ⟨_, c, bind_of_error hpop, h⟩
      · rw [bind_of_ok hpop]
        exact ih _ (hlength ▸ length_popped_lt hlookup) h.popped rfl
    cases hcontains : c.contains key with
    | false =>
      by_cases hroom : c.HasRoom (getsizeof value)
      · exact ⟨_, _, hbase.setitem_fits c key value hle hcontains hroom,
          h.store (contains_eq_false.mp hcontains)⟩
      · exact hpopped (hbase.setitem_full c key value hle hcontains hroom)
    | true =>
      obtain ⟨old, size, hlookup⟩ := exists_lookup hcontains
      rcases hbase.setitem_stored c key value old size hle hlookup with hset | ⟨-, hset⟩
      · exact ⟨_, _, hset, h.replace (contains_eq_true.mp hcontains)⟩
      · exact hpopped hset

/-- When a key that is not stored comes first in the order, `__setitem__` of a new key calls `popitem`
forever. -/
lemma Documented.setitem_stuck (hbase : base.Documented getsizeof) {x : κ} (hmissing : c.contains key = false)
    (hle : getsizeof value ≤ c.maxsize) (hroom : ¬ c.HasRoom (getsizeof value))
    (hfind : c.order.find? (· ∉ c.pinnedItems) = some x) (hx : c.contains x = false) :
    base.setitem key value c = none := by
  have hpop : base.popitem c = some (.ok (x, none), c) := by
    rcases hbase.popitem_cases c with ⟨hnone, -⟩ | ⟨y, hy, -, hpop⟩ | ⟨y, _, _, hy, hlookup, -⟩
    · cases hfind.symm.trans hnone
    · cases hfind.symm.trans hy
      exact hpop
    · cases hfind.symm.trans hy
      simp [contains_of_lookup hlookup] at hx
  have hstuck {c' : LRUCache κ ν} (h : base.RoomMade (getsizeof value) c') : c' ≠ c := by
    induction h with
    | fits hfits =>
      rintro rfl
      exact hroom hfits
    | raises hraises =>
      rintro rfl
      simp [hpop] at hraises
    | evicts hevicts _ ih =>
      rintro rfl
      cases hpop.symm.trans hevicts
      exact ih rfl
  cases hset : base.setitem key value c with
  | none => rfl
  | some out => exact absurd rfl (hstuck (hbase.setitem_returns c key value out hle hmissing hset))

/-! ## Clearing the cache -/

lemma clearRounds_of_nil (h : c.data = []) (rounds : ℕ) :
    base.clearRounds (rounds + 1) c = some (.ok (), c) :=
  if_pos h

lemma clearRounds_of_ne_nil (h : c.data ≠ []) (rounds : ℕ) :
    base.clearRounds (rounds + 1) c = (base.popitemPinned >>= fun _ => base.clearRounds rounds) c :=
  if_neg h

/-- `clear` returns, with no entry left. -/
lemma KeepsItems.clearRounds_tidy (hbase : base.KeepsItems) (h : c.Tidy) {rounds : ℕ}
    (hrounds : c.data.length < rounds) :
    ∃ c', base.clearRounds rounds c = some (.ok (), c') ∧ c'.Tidy ∧ c'.data = [] := by
  induction rounds generalizing c with
  | zero => omega
  | succ rounds ih =>
    by_cases hdata : c.data = []
    · exact ⟨c, clearRounds_of_nil hdata rounds, h, hdata⟩
    rw [clearRounds_of_ne_nil hdata]
    rcases hbase.popitemPinned_cases c with ⟨horder, -⟩ | ⟨key, hhead, hmissing, -⟩ |
      ⟨key, value, size, hlookup, hpop⟩
    · have hkeys : c.keys = [] := List.perm_nil.mp (horder ▸ h.perm.symm)
      exact absurd (List.map_eq_nil_iff.mp hkeys) hdata
    · have hstored := h.contains (List.mem_of_mem_head? hhead)
      rw [hmissing] at hstored
      cases hstored
    · have hlt := length_popped_lt hlookup
      rw [bind_of_ok hpop]
      exact ih h.popped (by omega)

/-! ## Runs -/

/-- The calls of the interface. -/
inductive Call (κ ν : Type) where
  | get (key : κ)
  | touch (key : κ)
  | put (key : κ) (value : ν)
  | pop (key : κ)
  | pin (key : κ)
  | popitem (removePinned : Bool)
  | clear

variable [ToString κ]

/-- What a call does, without the value it returns. -/
def call (base : Cachetools κ ν) : Call κ ν → Effect PyError (LRUCache κ ν) Unit
  | .get key => base.get key >>= fun _ => pure ()
  | .touch key => update (·.touch key)
  | .put key value => base.setitem key value
  | .pop key => base.pop key >>= fun _ => pure ()
  | .pin key => pin key
  | .popitem false => base.popitem >>= fun _ => pure ()
  | .popitem true => base.popitemPinned >>= fun _ => pure ()
  | .clear => base.clear

/-- The state after a call that returns or raises. -/
def step (base : Cachetools κ ν) (call : Call κ ν) (c : LRUCache κ ν) : Except Unit (LRUCache κ ν) :=
  match base.call call c with
  | none => .error ()
  | some (_, c') => .ok c'

/-- Only stored keys are touched. -/
def TouchesStored (c : LRUCache κ ν) : Call κ ν → Prop
  | .touch key => key ∈ c.keys
  | _ => True

/-- The call returns or raises, and the order still lists the stored keys. -/
def ReturnsTidy {α : Type} (x : Effect PyError (LRUCache κ ν) α) (c : LRUCache κ ν) : Prop :=
  ∃ out c', x c = some (out, c') ∧ c'.Tidy

omit [DecidableEq κ] [ToString κ] in
lemma ReturnsTidy.ignore {α : Type} {x : Effect PyError (LRUCache κ ν) α} (h : ReturnsTidy x c) :
    ReturnsTidy (x >>= fun _ => pure ()) c := by
  obtain ⟨out, c', hx, htidy⟩ := h
  cases out with
  | ok a => exact ⟨_, c', bind_of_ok hx, htidy⟩
  | error e => exact ⟨_, c', bind_of_error hx, htidy⟩

lemma DocumentedPut.call_tidy (hbase : base.DocumentedPut getsizeof) (h : c.Tidy) (call : Call κ ν)
    (hcall : TouchesStored c call) : ReturnsTidy (base.call call) c := by
  cases call with
  | get key =>
    apply ReturnsTidy.ignore
    rcases hbase.get_cases c key with ⟨-, hget⟩ | ⟨value, size, hlookup, hget⟩
    · exact ⟨_, c, hget, h⟩
    · exact ⟨_, _, hget, h.touch (contains_eq_true.mp (contains_of_lookup hlookup))⟩
  | touch key => exact ⟨_, _, rfl, h.touch hcall⟩
  | put key value => exact hbase.setitem_tidy h
  | pop key =>
    apply ReturnsTidy.ignore
    cases hcontains : c.contains key with
    | false => exact ⟨_, c, KeepsItems.pop_missing hcontains, h⟩
    | true =>
      obtain ⟨value, size, hlookup⟩ := exists_lookup hcontains
      exact ⟨_, _, hbase.pop_stored hlookup, h.popped⟩
  | pin key =>
    have hread : (Effect.read (·.contains key) : Effect PyError (LRUCache κ ν) Bool) c =
        some (.ok (c.contains key), c) := rfl
    rw [ReturnsTidy, Cachetools.call, pin, bind_of_ok hread]
    cases c.contains key with
    | false => exact ⟨_, c, rfl, h⟩
    | true => exact ⟨_, _, rfl, ⟨h.nodup, h.nodup_keys, h.mem_order⟩⟩
  | popitem removePinned =>
    cases removePinned with
    | false =>
      apply ReturnsTidy.ignore
      rcases hbase.popitem_tidy h with ⟨-, hpop⟩ | ⟨key, value, size, -, -, hpop⟩
      · exact ⟨_, c, hpop, h⟩
      · exact ⟨_, _, hpop, h.popped⟩
    | true =>
      apply ReturnsTidy.ignore
      rcases hbase.popitemPinned_cases c with ⟨-, hpop⟩ | ⟨key, -, -, hpop⟩ | ⟨key, value, size, -, hpop⟩
      · exact ⟨_, c, hpop, h⟩
      · exact ⟨_, c, hpop, h⟩
      · exact ⟨_, _, hpop, h.popped⟩
  | clear =>
    obtain ⟨c', hclear, htidy, -⟩ := hbase.clearRounds_tidy h (Nat.lt_succ_self _)
    exact ⟨_, c', hclear, htidy⟩

/-- When only stored keys are touched, the eviction order always lists exactly the stored keys, every call
returns, and `popitem` removes a stored entry that is not pinned if there is one. -/
theorem evictionOrder_of_reaches (hbase : base.DocumentedPut getsizeof) {maxsize : ℚ}
    (hreach : Reaches base.step TouchesStored { maxsize } c) :
    c.order.Perm c.keys ∧
    (∀ call, TouchesStored c call → ∃ out, base.call call c = some out) ∧
    ((∀ key ∈ c.keys, key ∈ c.pinnedItems) ∧ base.popitem c =
        some (.error (.runtimeError "All items are pinned, cannot remove oldest from the cache."), c) ∨
      ∃ key value c', key ∈ c.keys ∧ key ∉ c.pinnedItems ∧
        base.popitem c = some (.ok (key, some value), c') ∧ c'.data = dictPop c.data key) := by
  have htidy : c.Tidy := by
    apply hreach.invariant (Tidy.empty maxsize)
    intro c call c' h hcall hstep
    obtain ⟨out, c₁, hret, htidy⟩ := hbase.call_tidy h call hcall
    rw [step, hret] at hstep
    exact Except.ok.inj hstep ▸ htidy
  refine ⟨htidy.perm, fun call hcall => ?_, ?_⟩
  · obtain ⟨out, c', hret, -⟩ := hbase.call_tidy htidy call hcall
    exact ⟨_, hret⟩
  · refine (hbase.popitem_tidy htidy).imp_right ?_
    rintro ⟨key, value, size, hpinned, hlookup, hpop⟩
    exact ⟨key, value, _, contains_eq_true.mp (contains_of_lookup hlookup), hpinned, hpop, rfl⟩

/-! ## A base class with the documented behaviour -/

omit [ToString κ] in
lemma reference_setitem_of_all (hle : getsizeof value ≤ c.maxsize)
    (hall : (c.data.lookup key).all (fun entry => entry.2 < getsizeof value) = true) :
    (reference getsizeof).setitem key value c =
      (evictUntil (getsizeof value) (c.data.length + 1) >>= fun _ => putValue getsizeof key value) c := by
  simp [reference, not_lt.mpr hle, hall]

omit [ToString κ] in
lemma documentedPut_reference : (reference getsizeof : Cachetools κ ν).DocumentedPut getsizeof where
  toDocumented := documented_reference
  setitem_stored c key value old size hle hlookup := by
    have hput : putValue getsizeof key value c =
        some (.ok (), c.replace key value (getsizeof value) size) := by
      simp [putValue, update, hlookup, replace]
    by_cases hsize : size < getsizeof value
    · have hall : (c.data.lookup key).all (fun entry => entry.2 < getsizeof value) = true := by
        simp [hlookup, hsize]
      rw [reference_setitem_of_all hle hall]
      by_cases hroom : c.HasRoom (getsizeof value)
      · rw [bind_of_ok (evictUntil_of_room hroom _)]
        exact Or.inl hput
      · refine Or.inr ⟨hroom, ?_⟩
        rw [reference_popitem]
        rcases keepsItems_lookups.popitem_cases c with ⟨-, hpop⟩ | ⟨x, -, -, hpop⟩ |
          ⟨x, y, n, -, hlookup₁, hpop⟩
        · have hevict := (evictUntil_of_full hroom c.data.length).trans (bind_of_error hpop)
          rw [bind_of_error hevict, bind_of_error hpop]
        · rw [bind_of_ok hpop, reference_setitem_of_all hle hall]
        · have hlt := length_popped_lt hlookup₁
          have hle₁ : (getsizeof value : ℚ) ≤ (c.popped x n).maxsize := hle
          have hall₁ : ((c.popped x n).data.lookup key).all (fun entry => entry.2 < getsizeof value) = true := by
            change ((dictPop c.data x).lookup key).all _ = true
            rw [lookup_dictPop]
            split
            · rfl
            · exact hall
          rw [bind_of_ok hpop, reference_setitem_of_all hle₁ hall₁]
          apply bind_congr_left
          rw [evictUntil_of_full hroom, bind_of_ok hpop]
          exact evictUntil_eq _ hlt (Nat.lt_succ_self _)
    · left
      simpa [reference, not_lt.mpr hle, hlookup, hsize] using hput

instance (c : LRUCache κ ν) (call : Call κ ν) : Decidable (TouchesStored c call) :=
  match call with
  | .touch key => inferInstanceAs (Decidable (key ∈ c.keys))
  | .get _ | .put _ _ | .pop _ | .pin _ | .popitem _ | .clear => .isTrue trivial

/-- A cache of three units in which "b" was evicted, "a" is pinned and "c" was touched. -/
def pinnedAndTouched : LRUCache String ℕ :=
  { maxsize := 3, data := [("a", 1, 1), ("c", 2, 2)], currsize := 3, order := ["a", "c"], pinnedItems := ["a"] }

lemma reaches_pinnedAndTouched :
    runChecked (reference id).step (fun c call => decide (TouchesStored c call))
      [.put "a" 1, .put "b" 2, .touch "a", .pin "a", .put "c" 2, .get "b", .touch "c"]
      ({ maxsize := 3 } : LRUCache String ℕ) = some pinnedAndTouched := by
  decide +kernel

theorem evictionOrder_of_reaches_pinnedAndTouched :
    pinnedAndTouched.order.Perm pinnedAndTouched.keys ∧
    (∀ call, TouchesStored pinnedAndTouched call →
      ∃ out, (reference id).call call pinnedAndTouched = some out) ∧
    ((∀ key ∈ pinnedAndTouched.keys, key ∈ pinnedAndTouched.pinnedItems) ∧
        (reference id).popitem pinnedAndTouched =
          some (.error (.runtimeError "All items are pinned, cannot remove oldest from the cache."),
            pinnedAndTouched) ∨
      ∃ key value c', key ∈ pinnedAndTouched.keys ∧ key ∉ pinnedAndTouched.pinnedItems ∧
        (reference id).popitem pinnedAndTouched = some (.ok (key, some value), c') ∧
        c'.data = dictPop pinnedAndTouched.data key) :=
  evictionOrder_of_reaches documentedPut_reference
    (Reaches.of_runChecked (fun _ _ hcheck => of_decide_eq_true hcheck) .start reaches_pinnedAndTouched)

/-- The order has a key that is not stored. -/
def touchedBeforePut : LRUCache String ℕ :=
  { maxsize := 3, data := [("a", 2, 2)], currsize := 2, order := ["b", "a"] }

/-- Two keys are touched before their values are stored, and there is no room for both values. -/
theorem put_never_returns : (reference id : Cachetools String ℕ).DocumentedPut id ∧
    runChecked (reference id).step (fun _ _ => true) [.touch "a", .touch "b", .put "a" 2]
      ({ maxsize := 3 } : LRUCache String ℕ) = some touchedBeforePut ∧
    ¬ touchedBeforePut.order.Perm touchedBeforePut.keys ∧
    (reference id).call (.put "b" 2) touchedBeforePut = none := by
  have hbase : (reference id : Cachetools String ℕ).DocumentedPut id := documentedPut_reference
  refine ⟨hbase, by decide +kernel, by decide, ?_⟩
  exact hbase.setitem_stuck (by decide) (by norm_num [touchedBeforePut]) (by decide +kernel) rfl rfl

end Cachetools

end VllmRuntime
