import VllmRuntime.Model.BlockPool

/-! # The map from hashes to cached blocks

A block is stored under a key when the entry of the key contains it. Insertion adds exactly
one pair and popping removes exactly one pair, whatever the representation of the entry. -/

namespace VllmRuntime

open List

namespace BlockHashToBlockMap

def Stored (cache : BlockHashToBlockMap) (key : BlockHashWithGroupId) (b : BlockRef) : Prop :=
  ∃ entry, cache.lookup key = some entry ∧ b ∈ entry.toList

/-- The dictionaries in the map have no block twice. -/
def EntriesNodup (cache : BlockHashToBlockMap) : Prop :=
  ∀ key entry, cache.lookup key = some entry → entry.toList.Nodup

variable {cache : BlockHashToBlockMap} {key : BlockHashWithGroupId} {b : BlockRef}

lemma not_stored_empty (key : BlockHashWithGroupId) (b : BlockRef) :
    ¬ Stored (∅ : BlockHashToBlockMap) key b := by
  rintro ⟨entry, h, -⟩
  simp at h

lemma stored_of_lookup {entry : CachedBlocks} (h : cache.lookup key = some entry) :
    Stored cache key b ↔ b ∈ entry.toList := by
  simp [Stored, h]

lemma stored_of_getOneBlock (h : getOneBlock cache key = some b) : Stored cache key b := by
  unfold getOneBlock at h
  cases hl : cache.lookup key with
  | none => simp [hl] at h
  | some entry =>
    refine ⟨entry, hl, ?_⟩
    cases entry <;> simp_all [CachedBlocks.toList]

/-- Replacing one entry changes what is stored under that key only. -/
lemma stored_insert_entry (key' : BlockHashWithGroupId) (entry : CachedBlocks) (c : BlockRef) :
    Stored (AList.insert key entry cache) key' c ↔
      (key' = key ∧ c ∈ entry.toList) ∨ (key' ≠ key ∧ Stored cache key' c) := by
  by_cases hk : key' = key
  · subst hk
    simp [Stored]
  · simp [Stored, AList.lookup_insert_ne hk, hk]

lemma stored_erase_entry (key' : BlockHashWithGroupId) (c : BlockRef) :
    Stored (AList.erase key cache) key' c ↔ key' ≠ key ∧ Stored cache key' c := by
  by_cases hk : key' = key
  · subst hk
    simp [Stored]
  · simp [Stored, AList.lookup_erase_ne hk, hk]

lemma stored_insert (key' : BlockHashWithGroupId) (c : BlockRef) :
    Stored (insert cache key b) key' c ↔ Stored cache key' c ∨ (key' = key ∧ c = b) := by
  unfold insert
  cases hl : cache.lookup key with
  | none =>
    have hnot : ∀ d, ¬ Stored cache key d := by simp [Stored, hl]
    simp only [stored_insert_entry, CachedBlocks.toList, mem_singleton]
    by_cases hk : key' = key
    · subst hk
      simp [hnot]
    · simp [hk]
  | some entry =>
    have hst : ∀ d, Stored cache key d ↔ d ∈ entry.toList := fun d => stored_of_lookup hl
    cases entry with
    | block other =>
      simp only [stored_insert_entry]
      by_cases hk : key' = key
      · subst hk
        by_cases hb : b = other <;> simp [hst, CachedBlocks.toList, hb]
      · simp [hk]
    | dict first rest =>
      by_cases hmem : b = first ∨ b ∈ rest
      · simp only [hmem, if_true]
        refine ⟨Or.inl, ?_⟩
        rintro (h | ⟨rfl, rfl⟩)
        · exact h
        · rw [hst]
          simpa [CachedBlocks.toList] using hmem
      · simp only [hmem, if_false, stored_insert_entry]
        by_cases hk : key' = key
        · subst hk
          simp [hst, CachedBlocks.toList, or_assoc]
        · simp [hk]

lemma EntriesNodup.insert (h : EntriesNodup cache) : EntriesNodup (insert cache key b) := by
  unfold BlockHashToBlockMap.insert
  intro key' entry' hl'
  cases hl : cache.lookup key with
  | none =>
    simp only [hl] at hl'
    by_cases hk : key' = key
    · subst hk
      obtain rfl : CachedBlocks.block b = entry' := by simpa using hl'
      simp [CachedBlocks.toList]
    · rw [AList.lookup_insert_ne hk] at hl'
      exact h key' entry' hl'
  | some entry =>
    have hnodup := h key entry hl
    cases entry with
    | block other =>
      simp only [hl] at hl'
      by_cases hk : key' = key
      · subst hk
        obtain rfl : CachedBlocks.dict other (if b = other then [] else [b]) = entry' := by
          simpa using hl'
        by_cases hb : b = other <;> simp [CachedBlocks.toList, hb, Ne.symm]
      · rw [AList.lookup_insert_ne hk] at hl'
        exact h key' entry' hl'
    | dict first rest =>
      by_cases hmem : b = first ∨ b ∈ rest
      · simp only [hl, hmem, if_true] at hl'
        exact h key' entry' hl'
      · simp only [hl, hmem, if_false] at hl'
        by_cases hk : key' = key
        · subst hk
          obtain rfl : CachedBlocks.dict first (rest ++ [b]) = entry' := by simpa using hl'
          have hnot : b ∉ first :: rest := by simpa using hmem
          have happ : (first :: (rest ++ [b])) = (first :: rest) ++ [b] := rfl
          simp only [CachedBlocks.toList] at hnodup ⊢
          rw [happ, nodup_append]
          refine ⟨hnodup, by simp, ?_⟩
          intro x hx y hy hxy
          rw [List.mem_singleton.mp hy] at hxy
          exact hnot (hxy ▸ hx)
        · rw [AList.lookup_insert_ne hk] at hl'
          exact h key' entry' hl'

/-- Popping a stored block removes that pair. -/
lemma pop_stored (hnodup : EntriesNodup cache) (h : Stored cache key b) :
    ∃ cache', pop cache key b = (some b, cache') ∧ EntriesNodup cache' ∧
      ∀ key' c, Stored cache' key' c ↔ Stored cache key' c ∧ ¬ (key' = key ∧ c = b) := by
  obtain ⟨entry, hl, hmem⟩ := h
  have hst : ∀ d, Stored cache key d ↔ d ∈ entry.toList := fun d => stored_of_lookup hl
  have hent := hnodup key entry hl
  have keep : ∀ entry' : CachedBlocks, entry'.toList.Nodup →
      (∀ c, c ∈ entry'.toList ↔ c ∈ entry.toList ∧ c ≠ b) →
      EntriesNodup (AList.insert key entry' cache) ∧
        ∀ key' c, Stored (AList.insert key entry' cache) key' c ↔
          Stored cache key' c ∧ ¬ (key' = key ∧ c = b) := by
    intro entry' hnd hsub
    constructor
    · intro key' e hk'
      by_cases hk : key' = key
      · subst hk
        obtain rfl : entry' = e := by simpa using hk'
        exact hnd
      · rw [AList.lookup_insert_ne hk] at hk'
        exact hnodup key' e hk'
    · intro key' c
      rw [stored_insert_entry]
      by_cases hk : key' = key
      · subst hk
        simp [hst, hsub]
      · simp [hk]
  have drop : (∀ c, c ∈ entry.toList ↔ c = b) →
      EntriesNodup (AList.erase key cache) ∧
        ∀ key' c, Stored (AList.erase key cache) key' c ↔
          Stored cache key' c ∧ ¬ (key' = key ∧ c = b) := by
    intro honly
    constructor
    · intro key' e hk'
      by_cases hk : key' = key
      · subst hk
        simp at hk'
      · rw [AList.lookup_erase_ne hk] at hk'
        exact hnodup key' e hk'
    · intro key' c
      rw [stored_erase_entry]
      by_cases hk : key' = key
      · subst hk
        simp [hst, honly]
      · simp [hk]
  unfold pop
  cases entry with
  | block other =>
    obtain rfl : b = other := by simpa [CachedBlocks.toList] using hmem
    simp only [hl, if_true]
    exact ⟨_, rfl, drop (by simp [CachedBlocks.toList])⟩
  | dict first rest =>
    simp only [CachedBlocks.toList, nodup_cons] at hent
    by_cases hfirst : first = b
    · subst hfirst
      cases rest with
      | nil =>
        simp only [hl, if_true]
        exact ⟨_, rfl, drop (by simp [CachedBlocks.toList])⟩
      | cons second rest =>
        simp only [hl, if_true]
        refine ⟨_, rfl, keep (.dict second rest) hent.2 ?_⟩
        intro c
        simp only [CachedBlocks.toList, mem_cons]
        constructor
        · intro hc
          refine ⟨Or.inr hc, ?_⟩
          rintro rfl
          exact hent.1 (by simpa using hc)
        · rintro ⟨rfl | hc, hne⟩
          · exact absurd rfl hne
          · exact hc
    · have hrest : b ∈ rest := by
        have : b = first ∨ b ∈ rest := by simpa [CachedBlocks.toList] using hmem
        exact this.resolve_left fun he => hfirst he.symm
      simp only [hl, hfirst, if_false, hrest, if_true]
      refine ⟨_, rfl, keep (.dict first (rest.erase b)) ?_ ?_⟩
      · simp only [CachedBlocks.toList, nodup_cons]
        exact ⟨fun hm => hent.1 (mem_of_mem_erase hm), hent.2.erase b⟩
      · intro c
        simp only [CachedBlocks.toList, mem_cons, hent.2.mem_erase_iff]
        constructor
        · rintro (rfl | ⟨hne, hc⟩)
          · exact ⟨Or.inl rfl, hfirst⟩
          · exact ⟨Or.inr hc, hne⟩
        · rintro ⟨rfl | hc, hne⟩
          · exact Or.inl rfl
          · exact Or.inr ⟨hne, hc⟩

lemma pop_not_stored (h : ¬ Stored cache key b) : pop cache key b = (none, cache) := by
  unfold pop
  cases hl : cache.lookup key with
  | none => rfl
  | some entry =>
    rw [stored_of_lookup hl] at h
    cases entry with
    | block other =>
      have : other ≠ b := fun he => h (by simp [CachedBlocks.toList, he])
      simp [this]
    | dict first rest =>
      simp only [CachedBlocks.toList, mem_cons, not_or] at h
      have : first ≠ b := fun he => h.1 he.symm
      simp [this, h.2]

end BlockHashToBlockMap

end VllmRuntime
