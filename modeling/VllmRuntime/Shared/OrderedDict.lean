import Mathlib.Tactic

/-! # Dictionaries in insertion order

An association list without a repeated key. Setting a key that is there keeps its position; moving a
key to the end makes it the youngest. -/

namespace VllmRuntime

open List

/-- A dictionary in insertion order, as an association list. -/
abbrev OrderedDict (κ : Type*) (ν : Type*) := List (κ × ν)

/-- `d[key] = value`: a key that is there keeps its position. -/
def dictSet {κ ν : Type*} [DecidableEq κ] (d : OrderedDict κ ν) (key : κ) (value : ν) :
    OrderedDict κ ν :=
  if key ∈ d.map Prod.fst then d.map fun e => if e.1 = key then (key, value) else e
  else d ++ [(key, value)]

/-- `d.pop(key, None)`, without the value. -/
def dictPop {κ ν : Type*} [DecidableEq κ] (d : OrderedDict κ ν) (key : κ) : OrderedDict κ ν :=
  d.filter fun e => e.1 ≠ key

/-- `d.move_to_end(key)`, if the key is there. -/
def dictMoveToEnd {κ ν : Type*} [BEq κ] [DecidableEq κ] (d : OrderedDict κ ν) (key : κ) :
    Option (OrderedDict κ ν) :=
  (d.lookup key).map fun value => dictPop d key ++ [(key, value)]

variable {κ ν : Type*} {d d' : OrderedDict κ ν} {key x : κ} {value v : ν}

/-! ## Looking up -/

section Lookup

variable [BEq κ] [LawfulBEq κ]

lemma lookup_eq_none : d.lookup key = none ↔ key ∉ d.map Prod.fst := by
  rw [lookup_eq_none_iff, mem_map, not_exists]
  refine forall_congr' fun e => ?_
  rw [not_and, bne_iff_ne, ne_comm]

lemma lookup_isSome : (d.lookup key).isSome ↔ key ∈ d.map Prod.fst := by
  rw [← not_iff_not, ← lookup_eq_none, Option.not_isSome_iff_eq_none]

lemma lookup_filter_fst (d : OrderedDict κ ν) (p : κ → Bool) (x : κ) :
    (d.filter fun entry => p entry.1).lookup x = if p x then d.lookup x else none := by
  induction d with
  | nil => simp
  | cons entry d ih =>
    obtain ⟨k, v⟩ := entry
    by_cases hx : x = k
    · subst hx
      cases hp : p x with
      | true => simp [hp]
      | false => simp [hp, ih]
    · have hne : (x == k) = false := by simpa using hx
      cases hp : p k <;> simp [hp, lookup_cons, hne, ih]

lemma lookup_map_snd {ν' : Type*} (d : OrderedDict κ ν) (f : κ → ν → ν') (key : κ) :
    (d.map fun entry => (entry.1, f entry.1 entry.2)).lookup key = (d.lookup key).map (f key) := by
  induction d with
  | nil => rfl
  | cons entry d ih =>
    obtain ⟨k, v⟩ := entry
    by_cases hkey : key = k
    · simp [hkey]
    · have hne : (key == k) = false := by simpa using hkey
      simp [lookup_cons, hne, ih]

lemma mem_of_lookup (h : d.lookup key = some value) : (key, value) ∈ d := by
  obtain ⟨l₁, l₂, rfl, -⟩ := lookup_eq_some_iff.mp h
  simp

lemma key_mem_of_lookup (h : d.lookup key = some value) : key ∈ d.map Prod.fst :=
  mem_map_of_mem (mem_of_lookup h)

lemma lookup_of_mem (hnodup : (d.map Prod.fst).Nodup) (h : (key, value) ∈ d) :
    d.lookup key = some value := by
  induction d with
  | nil => cases h
  | cons e d ih =>
    obtain ⟨k, v⟩ := e
    rw [map_cons, nodup_cons] at hnodup
    rcases mem_cons.mp h with heq | hmem
    · cases heq
      simp
    · have hne : (key == k) = false := by
        rw [beq_eq_false_iff_ne]
        rintro rfl
        exact hnodup.1 (mem_map.mpr ⟨_, hmem, rfl⟩)
      rw [lookup_cons, hne]
      exact ih hnodup.2 hmem

lemma lookup_perm (hnodup : (d.map Prod.fst).Nodup) (h : d'.Perm d) (x : κ) : d'.lookup x = d.lookup x := by
  have hnodup' : (d'.map Prod.fst).Nodup := (h.map Prod.fst).nodup_iff.mpr hnodup
  cases hx : d.lookup x with
  | none =>
    rw [lookup_eq_none] at hx ⊢
    rwa [(h.map Prod.fst).mem_iff]
  | some value => exact lookup_of_mem hnodup' (h.mem_iff.mpr (mem_of_lookup hx))

end Lookup

/-! ## Setting and popping -/

variable [DecidableEq κ]

lemma map_fst_dictSet : (dictSet d key value).map Prod.fst =
    if key ∈ d.map Prod.fst then d.map Prod.fst else d.map Prod.fst ++ [key] := by
  unfold dictSet
  split
  · rw [map_map]
    refine map_congr_left fun e _ => ?_
    by_cases he : e.1 = key
    · simp [he]
    · simp [he]
  · simp

lemma nodup_dictSet (h : (d.map Prod.fst).Nodup) :
    ((dictSet d key value).map Prod.fst).Nodup := by
  rw [map_fst_dictSet]
  split
  · exact h
  · rename_i hkey
    exact h.append (nodup_singleton key) (disjoint_singleton.mpr hkey)

lemma nodup_dictPop (h : (d.map Prod.fst).Nodup) : ((dictPop d key).map Prod.fst).Nodup :=
  h.sublist (filter_sublist.map Prod.fst)

lemma dictPop_of_not_mem (h : key ∉ d.map Prod.fst) : dictPop d key = d := by
  refine filter_eq_self.mpr fun e he => ?_
  simp only [decide_eq_true_eq]
  rintro rfl
  exact h (mem_map_of_mem he)

lemma mem_dictPop : (x, v) ∈ dictPop d key ↔ (x, v) ∈ d ∧ x ≠ key := by
  simp [dictPop]

lemma mem_dictSet :
    (x, v) ∈ dictSet d key value ↔ if x = key then v = value else (x, v) ∈ d := by
  unfold dictSet
  split
  · rename_i hkey
    rw [mem_map]
    split
    · rename_i hx
      subst hx
      constructor
      · rintro ⟨e, -, he⟩
        split at he
        · exact (Prod.mk.inj he).2.symm
        · rename_i hne
          exact absurd (congrArg Prod.fst he) hne
      · rintro rfl
        obtain ⟨e, he, hfst⟩ := mem_map.mp hkey
        exact ⟨e, he, if_pos hfst⟩
    · rename_i hx
      constructor
      · rintro ⟨e, he, heq⟩
        split at heq
        · exact absurd (congrArg Prod.fst heq).symm hx
        · exact heq ▸ he
      · exact fun he => ⟨(x, v), he, if_neg hx⟩
  · rename_i hkey
    rw [mem_append, mem_singleton, Prod.mk.injEq]
    split
    · rename_i hx
      subst hx
      have hnot : (x, v) ∉ d := fun hmem => hkey (mem_map_of_mem (f := Prod.fst) hmem)
      simp [hnot]
    · rename_i hx
      simp [hx]

lemma dictSet_of_not_mem (h : key ∉ d.map Prod.fst) : dictSet d key value = d ++ [(key, value)] :=
  if_neg h

/-- New keys are appended. -/
lemma foldl_dictSet_eq_append {l : List (κ × ν)} (hnodup : (l.map Prod.fst).Nodup)
    (hnew : ∀ x ∈ l.map Prod.fst, x ∉ d.map Prod.fst) :
    l.foldl (fun d e => dictSet d e.1 e.2) d = d ++ l := by
  induction l generalizing d with
  | nil => simp
  | cons e l ih =>
    rw [map_cons, nodup_cons] at hnodup
    rw [map_cons, forall_mem_cons] at hnew
    rw [foldl_cons, dictSet_of_not_mem hnew.1, ih hnodup.2, append_assoc]
    · rfl
    · intro x hx hmem
      rw [map_append, mem_append] at hmem
      rcases hmem with hmem | hmem
      · exact hnew.2 x hx hmem
      · obtain rfl : x = e.1 := by simpa using hmem
        exact hnodup.1 hx

lemma map_set_of_not_mem (h : key ∉ d.map Prod.fst) :
    d.map (fun e => if e.1 = key then (key, value) else e) = d := by
  refine (map_congr_left fun e he => ?_).trans (map_id d)
  rw [if_neg]
  · rfl
  · rintro rfl
    exact h (mem_map_of_mem he)

/-- A key that only the first of two dictionaries has is set there. -/
lemma dictSet_append_left (h : key ∈ d.map Prod.fst) (h' : key ∉ d'.map Prod.fst) :
    dictSet (d ++ d') key value = dictSet d key value ++ d' := by
  have hmem : key ∈ (d ++ d').map Prod.fst := by
    rw [map_append]
    exact mem_append_left _ h
  rw [dictSet, dictSet, if_pos h, if_pos hmem, map_append, map_set_of_not_mem h']

lemma dictSet_append_right (h : key ∉ d.map Prod.fst) :
    dictSet (d ++ d') key value = d ++ dictSet d' key value := by
  unfold dictSet
  by_cases h' : key ∈ d'.map Prod.fst
  · have hmem : key ∈ (d ++ d').map Prod.fst := by
      rw [map_append]
      exact mem_append_right _ h'
    rw [if_pos hmem, if_pos h', map_append, map_set_of_not_mem h]
  · have hmem : key ∉ (d ++ d').map Prod.fst := by
      rw [map_append]
      exact not_mem_append h h'
    rw [if_neg hmem, if_neg h', append_assoc]

lemma dictPop_append (d d' : OrderedDict κ ν) (key : κ) :
    dictPop (d ++ d') key = dictPop d key ++ dictPop d' key := filter_append ..

/-! ## Looking up after a change -/

variable [BEq κ] [LawfulBEq κ]

lemma lookup_dictPop (d : OrderedDict κ ν) (key x : κ) :
    (dictPop d key).lookup x = if x = key then none else d.lookup x := by
  rw [dictPop, lookup_filter_fst d (fun k => decide (k ≠ key))]
  by_cases hx : x = key <;> simp [hx]

lemma lookup_dictSet (d : OrderedDict κ ν) (key x : κ) (value : ν) :
    (dictSet d key value).lookup x = if x = key then some value else d.lookup x := by
  unfold dictSet
  split
  · rename_i hkey
    have hmap : (d.map fun e => if e.1 = key then (key, value) else e) =
        d.map fun e => (e.1, if e.1 = key then value else e.2) := by
      refine map_congr_left fun e _ => ?_
      split
      · rename_i he
        rw [he]
      · rfl
    rw [hmap, lookup_map_snd d (fun k v => if k = key then value else v) x]
    by_cases hx : x = key
    · subst hx
      obtain ⟨v, hv⟩ := Option.isSome_iff_exists.mp (lookup_isSome.mpr hkey)
      simp [hv]
    · simp [hx]
  · rename_i hkey
    by_cases hx : x = key
    · subst hx
      simp [lookup_append, lookup_eq_none.mpr hkey]
    · have hbeq : (x == key) = false := by simpa using hx
      simp [lookup_append, lookup_cons, hbeq, hx]

lemma mem_map_fst_dictPop :
    x ∈ (dictPop d key).map Prod.fst ↔ x ∈ d.map Prod.fst ∧ x ≠ key := by
  rw [← lookup_isSome, lookup_dictPop, ← lookup_isSome]
  by_cases hx : x = key
  · simp [hx]
  · simp [hx]

/-- Popping takes out one entry. -/
lemma perm_dictPop (hnodup : (d.map Prod.fst).Nodup) (h : d.lookup key = some value) :
    d.Perm ((key, value) :: dictPop d key) := by
  induction d with
  | nil => cases h
  | cons e d ih =>
    obtain ⟨k, v⟩ := e
    rw [map_cons, nodup_cons] at hnodup
    by_cases hk : k = key
    · subst hk
      obtain rfl : v = value := by simpa using h
      have hpop : dictPop ((k, v) :: d) k = d := by
        rw [dictPop, filter_cons_of_neg (by simp)]
        exact dictPop_of_not_mem hnodup.1
      rw [hpop]
    · have hbeq : (key == k) = false := by simpa using Ne.symm hk
      rw [lookup_cons, hbeq] at h
      have hpop : dictPop ((k, v) :: d) key = (k, v) :: dictPop d key := by
        rw [dictPop, filter_cons_of_pos (by simpa using hk)]
        rfl
      rw [hpop]
      exact ((ih hnodup.2 h).cons _).trans (.swap ..)

/-- A new value leaves what does not depend on it. -/
lemma map_dictSet {β : Type*} {f : κ × ν → β} {value' : ν} (hnodup : (d.map Prod.fst).Nodup)
    (h : d.lookup key = some value) (hf : f (key, value') = f (key, value)) :
    (dictSet d key value').map f = d.map f := by
  rw [dictSet, if_pos (key_mem_of_lookup h), map_map]
  refine map_congr_left fun e he => ?_
  rw [Function.comp_apply]
  split
  · rename_i hkey
    have hmem : (key, e.2) ∈ d := by rwa [← hkey]
    have hvalue : e.2 = value := Option.some.inj ((lookup_of_mem hnodup hmem).symm.trans h)
    rw [hf, ← hvalue, ← hkey]
  · rfl

omit [LawfulBEq κ] in
lemma dictMoveToEnd_eq_some (h : dictMoveToEnd d key = some d') :
    ∃ value, d.lookup key = some value ∧ d' = dictPop d key ++ [(key, value)] := by
  obtain ⟨value, hvalue, rfl⟩ := Option.map_eq_some_iff.mp h
  exact ⟨value, hvalue, rfl⟩

/-- Moving a key changes the order only. -/
lemma dictMoveToEnd_perm (hnodup : (d.map Prod.fst).Nodup) (h : dictMoveToEnd d key = some d') :
    d'.Perm d := by
  obtain ⟨value, hvalue, rfl⟩ := dictMoveToEnd_eq_some h
  exact (perm_append_comm.trans (perm_dictPop hnodup hvalue).symm)

/-! ## The most recently used keys

A list in order of use, the youngest key last. As long as it has more keys than were just used, its first key is
none of these. -/

section Recent

variable {α : Type*}

/-- The keys in `used` are the last ones of the order. -/
def Recent (order used : List α) : Prop := ∃ older newer, order = older ++ newer ∧ newer.Perm used

namespace Recent

variable {order used : List α} {x : α}

lemma nil (order : List α) : Recent order [] := ⟨order, [], (append_nil order).symm, .nil⟩

lemma mem (h : Recent order used) (hx : x ∈ used) : x ∈ order := by
  obtain ⟨older, newer, rfl, hperm⟩ := h
  exact mem_append_right _ (hperm.mem_iff.2 hx)

/-- The first key of a longer order was not just used. -/
lemma head_not_mem {rest : List α} (h : Recent (x :: rest) used) (hnodup : (x :: rest).Nodup)
    (hlength : used.length < (x :: rest).length) : x ∉ used := by
  obtain ⟨older, newer, horder, hperm⟩ := h
  cases older with
  | nil =>
    rw [horder, nil_append, hperm.length_eq] at hlength
    exact absurd hlength (lt_irrefl _)
  | cons first older =>
    obtain ⟨rfl, rfl⟩ := List.cons.inj horder
    intro hx
    exact (List.nodup_cons.1 hnodup).1 (mem_append_right _ (hperm.mem_iff.2 hx))

variable [DecidableEq α]

lemma erase (h : Recent order used) (hx : x ∉ used) : Recent (order.erase x) used := by
  obtain ⟨older, newer, rfl, hperm⟩ := h
  have hnewer : x ∉ newer := fun hmem => hx (hperm.mem_iff.1 hmem)
  refine ⟨older.erase x, newer, ?_, hperm⟩
  rw [erase_append, erase_of_not_mem hnewer]
  split
  · rfl
  · rename_i hmem
    rw [erase_of_not_mem hmem]

/-- Another key is used. -/
lemma use (h : Recent order used) (hx : x ∉ used) : Recent (order.erase x ++ [x]) (x :: used) := by
  obtain ⟨older, newer, heq, hperm⟩ := h.erase hx
  refine ⟨older, newer ++ [x], ?_, ?_⟩
  · rw [heq, append_assoc]
  · exact (perm_append_singleton x newer).trans (hperm.cons x)

/-- A key that was just used is used again. -/
lemma again (h : Recent order used) (hnodup : order.Nodup) (hx : x ∈ used) :
    Recent (order.erase x ++ [x]) used := by
  obtain ⟨older, newer, rfl, hperm⟩ := h
  have hmem : x ∈ newer := hperm.mem_iff.2 hx
  have hnot : x ∉ older := fun hold => (List.nodup_append.1 hnodup).2.2 x hold x hmem rfl
  refine ⟨older, newer.erase x ++ [x], ?_, ?_⟩
  · rw [erase_append_right _ hnot, append_assoc]
  · have hcons := (perm_append_singleton x (newer.erase x)).trans (perm_cons_erase hmem).symm
    exact hcons.trans hperm

end Recent

end Recent

end VllmRuntime
