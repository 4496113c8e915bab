import Mathlib.Tactic
import Mathlib.Data.List.AList

/-! # Sums over the entries of a dictionary -/

namespace VllmRuntime

open List

variable {κ ν : Type*} {f : κ → ν → ℕ} {d : AList fun _ : κ => ν} {k : κ}

/-- The sum of `f key value` over all entries. -/
def dictSum (f : κ → ν → ℕ) (d : AList fun _ : κ => ν) : ℕ :=
  (d.entries.map fun e => f e.1 e.2).sum

@[simp] lemma dictSum_empty (f : κ → ν → ℕ) : dictSum f ∅ = 0 := rfl

lemma dictSum_mono {g : κ → ν → ℕ} (h : ∀ k v, f k v ≤ g k v) (d : AList fun _ : κ => ν) :
    dictSum f d ≤ dictSum g d := by
  exact sum_le_sum fun e _ => h e.1 e.2

variable [DecidableEq κ]

lemma dictSum_insert (f : κ → ν → ℕ) (d : AList fun _ : κ => ν) (k : κ) (v : ν) :
    dictSum f (d.insert k v) = f k v + dictSum f (d.erase k) := by
  have herase : (d.erase k).entries = d.entries.kerase k := rfl
  simp [dictSum, AList.entries_insert, herase]

/-- Only the value at `k` is missing after erasing `k`. -/
lemma dictSum_eq_add_erase (f : κ → ν → ℕ) (d : AList fun _ : κ => ν) (k : κ) :
    dictSum f d = (d.lookup k).elim 0 (f k) + dictSum f (d.erase k) := by
  unfold dictSum
  by_cases hk : k ∈ d
  · obtain ⟨v, front, back, hnot, hentries, hrest⟩ := exists_of_kerase hk
    have hlookup : d.lookup k = some v := by
      rw [← Option.mem_def, AList.mem_lookup_iff, hentries]
      simp
    have herase : (d.erase k).entries = front ++ back := hrest
    rw [hlookup, herase, hentries]
    simp
    omega
  · have hlookup : d.lookup k = none := AList.lookup_eq_none.mpr hk
    have herase : (d.erase k).entries = d.entries := kerase_of_notMem_keys hk
    rw [hlookup, herase]
    simp

/-- A key that is absent counts like one that holds a value of weight zero. -/
lemma dictSum_eq_getD_add_erase (f : κ → ν → ℕ) (d : AList fun _ : κ => ν) (k : κ) {v₀ : ν}
    (h₀ : f k v₀ = 0) :
    dictSum f d = f k ((d.lookup k).getD v₀) + dictSum f (d.erase k) := by
  rw [dictSum_eq_add_erase f d k]
  cases d.lookup k <;> simp [h₀]

lemma dictSum_erase_insert (f : κ → ν → ℕ) (d : AList fun _ : κ => ν) (k : κ) (v : ν) :
    dictSum f ((d.insert k v).erase k) = dictSum f (d.erase k) := by
  have h := dictSum_eq_add_erase f (d.insert k v) k
  rw [dictSum_insert, AList.lookup_insert] at h
  exact (Nat.add_left_cancel h).symm

lemma dictSum_erase_erase (f : κ → ν → ℕ) (d : AList fun _ : κ => ν) (k : κ) :
    dictSum f ((d.erase k).erase k) = dictSum f (d.erase k) := by
  have h := dictSum_eq_add_erase f (d.erase k) k
  simpa using h.symm

lemma dictSum_erase_congr {g : κ → ν → ℕ} (d : AList fun _ : κ => ν)
    (h : ∀ k', k' ≠ k → ∀ v, f k' v = g k' v) :
    dictSum f (d.erase k) = dictSum g (d.erase k) := by
  unfold dictSum
  congr 1
  apply map_congr_left
  intro e he
  apply h
  rintro rfl
  have hkey : e.1 ∈ d.erase e.1 := mem_keys_of_mem he
  simp at hkey

lemma le_dictSum (f : κ → ν → ℕ) {v : ν} (h : d.lookup k = some v) : f k v ≤ dictSum f d := by
  rw [dictSum_eq_add_erase f d k, h]
  simp

lemma dictSum_eq_zero (h : ∀ k v, d.lookup k = some v → f k v = 0) : dictSum f d = 0 := by
  apply sum_eq_zero
  intro n hn
  obtain ⟨⟨k, v⟩, he, rfl⟩ := List.mem_map.mp hn
  exact h k v (AList.mem_lookup_iff.mpr he)

lemma dictSum_le_length (hle : ∀ k v, d.lookup k = some v → f k v ≤ 1) :
    dictSum f d ≤ d.keys.length := by
  have hsum := sum_le_card_nsmul (d.entries.map fun e => f e.1 e.2) 1 (by
    intro n hn
    obtain ⟨⟨k, v⟩, he, rfl⟩ := List.mem_map.mp hn
    exact hle k v (AList.mem_lookup_iff.mpr he))
  simpa [dictSum, AList.keys, List.keys] using hsum

/-- When no entry counts for more than one, and the sum is the number of entries, each counts for one. -/
lemma eq_one_of_length_le_dictSum (hle : ∀ k v, d.lookup k = some v → f k v ≤ 1)
    (hsum : d.keys.length ≤ dictSum f d) {v : ν} (h : d.lookup k = some v) : f k v = 1 := by
  have hrest : dictSum f (d.erase k) ≤ (d.erase k).keys.length := by
    apply dictSum_le_length
    intro k' v' hk'
    by_cases hk : k' = k
    · subst hk
      simp at hk'
    · rw [AList.lookup_erase_ne hk] at hk'
      exact hle k' v' hk'
  have hmem : k ∈ d.keys := AList.lookup_isSome.mp (by simp [h])
  have hlength := length_erase_add_one hmem
  rw [AList.keys_erase] at hrest
  rw [dictSum_eq_add_erase f d k, h, Option.elim_some] at hsum
  have hone := hle k v h
  omega

end VllmRuntime
