import Mathlib.InformationTheory.Coding.UniquelyDecodable
import VllmRuntime.Model.BlockPool
import VllmRuntime.Verification.BlockHash.CollisionFree

/-! # A block hash tells its index

The hashes of a block size are runs of the chained hashes. Without collisions a run determines
the hashes it is made of, and these determine where in the chain they stand. -/

namespace VllmRuntime.BlockHash

open List InformationTheory

variable {hashFunction : HashInput → BlockHash} {noneHash : BlockHash} {hash : BlockHash}
  {inputs : List BlockInput} {i : ℕ}

/-- `hash` is the run number `i` of some request, in runs of some length. -/
def HashIndex (hashFunction : HashInput → BlockHash) (noneHash hash : BlockHash) (i : ℕ) : Prop :=
  ∃ (inputs : List BlockInput) (scaleFactor : ℕ), 0 < scaleFactor ∧ (i + 1) * scaleFactor ≤ inputs.length ∧
    hash = (((HashChain.chain (hashStep hashFunction noneHash) none inputs).drop (i * scaleFactor)).take
      scaleFactor).flatten

lemma CollisionFree.uniquelyDecodable (h : CollisionFree hashFunction noneHash) :
    UniquelyDecodable (Set.range hashFunction) := by
  intro words
  induction words with
  | nil =>
    intro words' _ hwords' heq
    cases words' with
    | nil => rfl
    | cons word words' =>
      obtain ⟨input, rfl⟩ := hwords' word mem_cons_self
      exact absurd (List.append_eq_nil_iff.mp heq.symm).1 (h.ne_nil input)
  | cons word words ih =>
    intro words' hwords hwords' heq
    obtain ⟨input, rfl⟩ := hwords word mem_cons_self
    cases words' with
    | nil => exact absurd (List.append_eq_nil_iff.mp heq).1 (h.ne_nil input)
    | cons word' words' =>
      obtain ⟨input', rfl⟩ := hwords' word' mem_cons_self
      rw [flatten_cons, flatten_cons] at heq
      -- of two words that start one text, one starts the other
      have hword : hashFunction input = hashFunction input' := by
        have hleft : hashFunction input <+: hashFunction input ++ words.flatten := prefix_append _ _
        have hright : hashFunction input' <+: hashFunction input ++ words.flatten :=
          heq ▸ prefix_append _ _
        rcases prefix_or_prefix_of_prefix hleft hright with hpre | hpre
        · exact h.prefixFree input input' hpre
        · exact (h.prefixFree input' input hpre).symm
      rw [hword] at heq ⊢
      rw [ih words' (fun w hw => hwords w (mem_cons_of_mem _ hw))
        (fun w hw => hwords' w (mem_cons_of_mem _ hw)) (append_cancel_left heq)]

lemma mem_chain {parent : Option BlockHash}
    (h : hash ∈ HashChain.chain (hashStep hashFunction noneHash) parent inputs) :
    hash ∈ Set.range hashFunction := by
  induction inputs generalizing parent with
  | nil => simp at h
  | cons input inputs ih =>
    rw [HashChain.chain_cons, mem_cons] at h
    rcases h with rfl | h
    · exact ⟨_, rfl⟩
    · exact ih h

lemma HashIndex.unique (h : CollisionFree hashFunction noneHash) {j : ℕ}
    (hi : HashIndex hashFunction noneHash hash i) (hj : HashIndex hashFunction noneHash hash j) : i = j := by
  obtain ⟨inputs, size, hpos, hle, rfl⟩ := hi
  obtain ⟨inputs', size', hpos', hle', heq⟩ := hj
  have hruns := h.uniquelyDecodable _ _
    (fun w hw => mem_chain (mem_of_mem_drop (mem_of_mem_take hw)))
    (fun w hw => mem_chain (mem_of_mem_drop (mem_of_mem_take hw))) heq
  -- The runs have the same length and the same first hash.
  have hsize : size = size' := by
    have hlength := congrArg List.length hruns
    simp only [length_take, length_drop, HashChain.chain_length] at hlength
    rw [Nat.succ_mul] at hle hle'
    omega
  have hfirst := congrArg (·[0]?) hruns
  subst hsize
  simp only [getElem?_take_of_lt hpos, getElem?_drop, Nat.add_zero] at hfirst
  have hlt : i * size < (HashChain.chain (hashStep hashFunction noneHash) none inputs).length := by
    rw [HashChain.chain_length]
    rw [Nat.succ_mul] at hle
    omega
  rw [getElem?_eq_getElem hlt] at hfirst
  exact Nat.eq_of_mul_eq_mul_right hpos
    (h.chain_index_eq (getElem?_eq_getElem hlt) hfirst.symm)

/-- The hashes of the chain are runs of one hash. -/
lemma hashIndex_chain (h : (HashChain.chain (hashStep hashFunction noneHash) none inputs)[i]? = some hash) :
    HashIndex hashFunction noneHash hash i := by
  obtain ⟨hlt, rfl⟩ := List.getElem?_eq_some_iff.mp h
  refine ⟨inputs, 1, Nat.one_pos, ?_, ?_⟩
  · rw [HashChain.chain_length] at hlt
    omega
  · rw [Nat.mul_one, drop_eq_getElem_cons hlt, take_succ_cons, take_zero, flatten_singleton]

lemma hashIndex_blockHashList {hashBlockSize targetBlockSize : ℕ}
    (h : (blockHashListWithBlockSize (HashChain.chain (hashStep hashFunction noneHash) none inputs)
      hashBlockSize targetBlockSize)[i]? = some hash) :
    HashIndex hashFunction noneHash hash i := by
  unfold blockHashListWithBlockSize at h
  dsimp only at h
  generalize targetBlockSize / hashBlockSize = scale at h
  rw [getElem?_map, Option.map_eq_some_iff] at h
  obtain ⟨idx, hidx, rfl⟩ := h
  obtain ⟨hlt, hget⟩ := List.getElem?_eq_some_iff.mp hidx
  obtain rfl : i = idx := by simpa using hget
  rw [length_range, HashChain.chain_length] at hlt
  have hpos : 0 < scale := by
    rcases Nat.eq_zero_or_pos scale with rfl | hpos
    · simp at hlt
    · exact hpos
  exact ⟨inputs, scale, hpos, (Nat.le_div_iff_mul_le hpos).mp hlt, rfl⟩

end VllmRuntime.BlockHash
