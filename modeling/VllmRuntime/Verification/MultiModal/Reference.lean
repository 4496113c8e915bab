import VllmRuntime.Verification.MultiModal.LRUCache

/-! # A base class with the documented behaviour

`popitem` either shrinks the cache or leaves it as it is, and in the second case `__setitem__` calls it
forever; so the length of the cache bounds the number of calls that can still make room. -/

namespace VllmRuntime

open Effect LRUCache

namespace Cachetools

variable {κ ν : Type} [DecidableEq κ]

/-- `__getitem__` and `__delitem__`; `__setitem__` is added in `reference`. -/
def lookups (κ ν : Type) [DecidableEq κ] : Cachetools κ ν where
  getitem key c :=
    match c.data.lookup key with
    | none => some (.error .keyError, c)
    | some entry => some (.ok entry.1, c.touch key)
  delitem key c :=
    match c.data.lookup key with
    | none => some (.error .keyError, c)
    | some entry => some (.ok (), c.delete key entry.2)
  setitem _ _ c := some (.ok (), c)

/-- `while self.__currsize + size > maxsize: self.popitem()`, for a number of rounds. -/
def evictUntil (size : ℕ) : ℕ → Effect PyError (LRUCache κ ν) Unit
  | 0 => fun _ => none
  | rounds + 1 => fun c =>
    if c.HasRoom size then some (.ok (), c)
    else ((lookups κ ν).popitem >>= fun _ => evictUntil size rounds) c

/-- Stores the value, in place of the one that is there. -/
def putValue (getsizeof : ν → ℕ) (key : κ) (value : ν) : Effect PyError (LRUCache κ ν) Unit :=
  update fun c =>
    match c.data.lookup key with
    | none => c.store key value (getsizeof value)
    | some entry =>
      { c.touch key with
        data := dictSet c.data key (value, getsizeof value)
        currsize := c.currsize + getsizeof value - entry.2 }

def reference (getsizeof : ν → ℕ) : Cachetools κ ν :=
  { lookups κ ν with
    setitem := fun key value c =>
      if c.maxsize < getsizeof value then some (.error (.valueError "value too large"), c)
      else if (c.data.lookup key).all (fun entry => entry.2 < getsizeof value) then
        (evictUntil (getsizeof value) (c.data.length + 1) >>= fun _ => putValue getsizeof key value) c
      else putValue getsizeof key value c }

variable {getsizeof : ν → ℕ} {c c' : LRUCache κ ν} {key : κ} {value : ν} {size : ℕ} {rounds : ℕ}

lemma reference_popitem : (reference getsizeof : Cachetools κ ν).popitem = (lookups κ ν).popitem := rfl

lemma keepsItems_lookups : (lookups κ ν).KeepsItems where
  getitem_stored c key value size h := by simp [lookups, h]
  delitem_stored c key value size h := by simp [lookups, h]

lemma length_popped_lt (h : c.data.lookup key = some (value, size)) :
    (c.popped key size).data.length < c.data.length := by
  have hmem : (key, value, size) ∈ c.data := mem_of_lookup h
  exact List.length_filter_lt_length_iff_exists.mpr ⟨_, hmem, by simp⟩

lemma evictUntil_of_room (h : c.HasRoom size) (rounds : ℕ) :
    (evictUntil size (rounds + 1) : Effect PyError (LRUCache κ ν) Unit) c = some (.ok (), c) :=
  if_pos h

lemma evictUntil_of_full (h : ¬ c.HasRoom size) (rounds : ℕ) :
    (evictUntil size (rounds + 1) : Effect PyError (LRUCache κ ν) Unit) c =
      ((lookups κ ν).popitem >>= fun _ => evictUntil size rounds) c :=
  if_neg h

/-- When the oldest key is not stored, no number of rounds makes room. -/
lemma evictUntil_stuck {item : κ × Option ν} (h : ¬ c.HasRoom size)
    (hpop : (lookups κ ν).popitem c = some (.ok item, c)) (rounds : ℕ) :
    (evictUntil size rounds : Effect PyError (LRUCache κ ν) Unit) c = none := by
  induction rounds with
  | zero => rfl
  | succ rounds ih => rw [evictUntil_of_full h, bind_of_ok hpop, ih]

/-- More rounds than there are entries change nothing. -/
lemma evictUntil_eq (c : LRUCache κ ν) {rounds' : ℕ} (h : c.data.length < rounds) (h' : c.data.length < rounds') :
    (evictUntil size rounds : Effect PyError (LRUCache κ ν) Unit) c = evictUntil size rounds' c := by
  induction rounds generalizing c rounds' with
  | zero => omega
  | succ rounds ih =>
    obtain ⟨rounds', rfl⟩ := Nat.exists_eq_succ_of_ne_zero (Nat.ne_zero_of_lt h')
    by_cases hroom : c.HasRoom size
    · rw [evictUntil_of_room hroom, evictUntil_of_room hroom]
    · rw [evictUntil_of_full hroom, evictUntil_of_full hroom]
      rcases keepsItems_lookups.popitem_cases c with ⟨-, hpop⟩ | ⟨key, -, -, hpop⟩ |
        ⟨key, value, n, -, hlookup, hpop⟩
      · rw [bind_of_error hpop, bind_of_error hpop]
      · rw [bind_of_ok hpop, bind_of_ok hpop, evictUntil_stuck hroom hpop, evictUntil_stuck hroom hpop]
      · have hlt := length_popped_lt hlookup
        rw [bind_of_ok hpop, bind_of_ok hpop]
        exact ih _ (by omega) (by omega)

lemma roomMade_of_evictUntil (getsizeof : ν → ℕ) {out : Except PyError Unit × LRUCache κ ν}
    (h : (evictUntil size rounds : Effect PyError (LRUCache κ ν) Unit) c = some out) :
    (reference getsizeof).RoomMade size c := by
  induction rounds generalizing c with
  | zero => cases h
  | succ rounds ih =>
    by_cases hroom : c.HasRoom size
    · exact .fits hroom
    · rw [evictUntil_of_full hroom] at h
      rcases keepsItems_lookups.popitem_cases c with ⟨-, hpop⟩ | ⟨key, -, -, hpop⟩ |
        ⟨key, value, n, -, -, hpop⟩
      · exact .raises hpop
      · rw [bind_of_ok hpop] at h
        exact .evicts hpop (ih h)
      · rw [bind_of_ok hpop] at h
        exact .evicts hpop (ih h)

/-- `__setitem__` of a new key that is not too large. -/
lemma reference_setitem (hle : getsizeof value ≤ c.maxsize) (hmissing : c.contains key = false) :
    (reference getsizeof).setitem key value c =
      (evictUntil (getsizeof value) (c.data.length + 1) >>= fun _ => putValue getsizeof key value) c := by
  have hlookup : c.data.lookup key = none := lookup_eq_none.mpr (contains_eq_false.mp hmissing)
  simp [reference, hlookup, not_lt.mpr hle]

lemma documented_reference : (reference getsizeof : Cachetools κ ν).Documented getsizeof where
  getitem_stored := keepsItems_lookups.getitem_stored
  delitem_stored := keepsItems_lookups.delitem_stored
  setitem_large c key value h := by simp [reference, h]
  setitem_fits c key value hle hmissing hroom := by
    have hlookup : c.data.lookup key = none := lookup_eq_none.mpr (contains_eq_false.mp hmissing)
    rw [reference_setitem hle hmissing, bind_of_ok (evictUntil_of_room hroom _)]
    simp [putValue, update, hlookup]
  setitem_full c key value hle hmissing hroom := by
    rw [reference_setitem hle hmissing, reference_popitem]
    rcases keepsItems_lookups.popitem_cases c with ⟨-, hpop⟩ | ⟨x, -, -, hpop⟩ |
      ⟨x, y, n, -, hlookup, hpop⟩
    · have hevict := (evictUntil_of_full hroom c.data.length).trans (bind_of_error hpop)
      rw [bind_of_error hevict, bind_of_error hpop]
    · rw [bind_of_ok hpop, reference_setitem hle hmissing]
    · have hmissing₁ := keepsItems_lookups.missing_of_popitem hmissing hpop
      have hlt := length_popped_lt hlookup
      have hle₁ : (getsizeof value : ℚ) ≤ (c.popped x n).maxsize := hle
      rw [bind_of_ok hpop, reference_setitem hle₁ hmissing₁]
      apply bind_congr_left
      rw [evictUntil_of_full hroom, bind_of_ok hpop]
      exact evictUntil_eq _ hlt (Nat.lt_succ_self _)
  setitem_returns c key value out hle hmissing h := by
    rw [reference_setitem hle hmissing] at h
    obtain ⟨out, c'⟩ := out
    rcases bind_eq_some h with ⟨_, c₁, hevict, -⟩ | ⟨e, hevict, -⟩
    · exact roomMade_of_evictUntil getsizeof hevict
    · exact roomMade_of_evictUntil getsizeof hevict

end Cachetools

end VllmRuntime
