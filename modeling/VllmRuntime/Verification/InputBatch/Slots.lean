import VllmRuntime.Verification.InputBatch.Row

/-! # The indices of the batch

`req_ids` and `req_id_to_index` are inverse to each other throughout a step. The indices that hold no
request are those that `BatchUpdateBuilder` has as removed. -/

namespace VllmRuntime

open List

/-! ## The removed indices -/

namespace BatchUpdateBuilder

variable {builder : BatchUpdateBuilder}

/-- A list that counts as sorted is sorted. -/
def Sorted (builder : BatchUpdateBuilder) : Prop :=
  builder.isRemovedSorted = true → builder.removed.Pairwise (· ≥ ·)

lemma ensureRemovedSorted_eq (h : builder.Sorted) :
    ∃ sorted, builder.ensureRemovedSorted = { builder with removed := sorted, isRemovedSorted := true } ∧
      sorted ~ builder.removed ∧ sorted.Pairwise (· ≥ ·) := by
  unfold ensureRemovedSorted
  split
  · rename_i hflag
    refine ⟨builder.removed, ?_, .refl _, h hflag⟩
    rw [← hflag]
  · exact ⟨_, rfl, perm_insertionSort _ _, pairwise_insertionSort _ _⟩

/-- `pop_removed` takes the lowest removed index. -/
lemma popRemoved_eq (h : builder.Sorted) :
    builder.popRemoved = (none, builder) ∧ builder.removed = [] ∨
      ∃ rest index, builder.popRemoved =
          (some index, { builder with removed := rest, isRemovedSorted := true }) ∧
        rest ++ [index] ~ builder.removed ∧ (rest ++ [index]).Pairwise (· ≥ ·) := by
  by_cases hnil : builder.removed = []
  · left
    rw [popRemoved, hnil]
    exact ⟨rfl, rfl⟩
  · right
    obtain ⟨sorted, heq, hperm, hsorted⟩ := ensureRemovedSorted_eq h
    have hne : sorted ≠ [] := fun hsorted => hnil (perm_nil.mp (hsorted ▸ hperm.symm))
    have hsplit := dropLast_append_getLast hne
    refine ⟨sorted.dropLast, sorted.getLast hne, ?_, ?_, ?_⟩
    · rw [popRemoved, if_neg (by simpa using hnil), heq]
      simp [getLast?_eq_getLast_of_ne_nil hne]
    · rwa [hsplit]
    · rwa [hsplit]

/-- `peek_removed` of sorted indices. -/
lemma peekRemoved_eq {rest : List ℕ} {index : ℕ} (hflag : builder.isRemovedSorted = true)
    (h : builder.removed = rest ++ [index]) :
    builder.peekRemoved = (some index, builder) ∧
      builder.popRemoved = (some index, { builder with removed := rest }) := by
  have hne : ¬builder.removed.isEmpty := by simp [h]
  simp [peekRemoved, popRemoved, ensureRemovedSorted, hflag, h]

end BatchUpdateBuilder

/-! ## The inverse tables -/

/-- `req_ids` and `req_id_to_index` are inverse to each other. -/
structure Inverse (reqIds : List (Option String)) (reqIdToIndex : OrderedDict String ℕ) : Prop where
  nodup : (reqIdToIndex.map Prod.fst).Nodup
  lookup : ∀ id i, reqIdToIndex.lookup id = some i ↔ reqIds[i]? = some (some id)

namespace Inverse

variable {reqIds : List (Option String)} {reqIdToIndex : OrderedDict String ℕ} {id : String} {idx : ℕ}

section

variable (h : Inverse reqIds reqIdToIndex)
include h

lemma lt_length (hlookup : reqIdToIndex.lookup id = some idx) :
    idx < reqIds.length :=
  (List.getElem?_eq_some_iff.mp ((h.lookup id idx).mp hlookup)).1

lemma nodup_indices : (reqIdToIndex.map Prod.snd).Nodup := by
  refine List.Nodup.map_on ?_ (List.Nodup.of_map _ h.nodup)
  rintro ⟨id, i⟩ hid ⟨id', i'⟩ hid' rfl
  have hi := (h.lookup id i).mp (lookup_of_mem h.nodup hid)
  have hi' := (h.lookup id' i).mp (lookup_of_mem h.nodup hid')
  rw [hi] at hi'
  cases Option.some.inj hi'
  rfl

lemma mem_indices {i : ℕ} :
    i ∈ reqIdToIndex.map Prod.snd ↔ ∃ id, reqIds[i]? = some (some id) := by
  rw [mem_map]
  constructor
  · rintro ⟨⟨id, i⟩, hmem, rfl⟩
    exact ⟨id, (h.lookup id i).mp (lookup_of_mem h.nodup hmem)⟩
  · rintro ⟨id, hid⟩
    exact ⟨(id, i), mem_of_lookup ((h.lookup id i).mpr hid), rfl⟩

/-- The requests fill the indices below a bound: the bound is their number. -/
lemma length_eq {n : ℕ}
    (hfilled : ∀ i, (∃ id, reqIds[i]? = some (some id)) ↔ i < n) : reqIdToIndex.length = n := by
  have hperm : reqIdToIndex.map Prod.snd ~ List.range n := by
    rw [perm_ext_iff_of_nodup h.nodup_indices nodup_range]
    intro i
    rw [h.mem_indices, hfilled, mem_range]
  simpa using hperm.length_eq

lemma remove (hid : reqIdToIndex.lookup id = some idx) :
    Inverse (reqIds.set idx none) (dictPop reqIdToIndex id) := by
  refine ⟨nodup_dictPop h.nodup, fun x i => ?_⟩
  rw [lookup_dictPop]
  by_cases hx : x = id
  · subst hx
    rw [if_pos rfl]
    by_cases hi : idx = i
    · subst hi
      simp [getElem?_set_self (h.lt_length hid)]
    · rw [getElem?_set_ne hi, ← h.lookup, hid]
      simp [hi]
  · rw [if_neg hx, h.lookup]
    by_cases hi : idx = i
    · subst hi
      rw [getElem?_set_self (h.lt_length hid), (h.lookup id idx).mp hid]
      simp [Ne.symm hx]
    · rw [getElem?_set_ne hi]

/-- A request enters at an index that holds none. -/
lemma enter {reqIds' : List (Option String)}
    (hid : reqIdToIndex.lookup id = none) (hfree : ∀ x, reqIds[idx]? ≠ some (some x))
    (hidx : reqIds'[idx]? = some (some id)) (hother : ∀ i, i ≠ idx → reqIds'[i]? = reqIds[i]?) :
    Inverse reqIds' (dictSet reqIdToIndex id idx) := by
  refine ⟨nodup_dictSet h.nodup, fun x i => ?_⟩
  rw [lookup_dictSet]
  by_cases hi : i = idx
  · subst hi
    rw [hidx]
    by_cases hx : x = id
    · simp [hx]
    · rw [if_neg hx, h.lookup]
      simp [hfree x, Ne.symm hx]
  · rw [hother i hi, ← h.lookup]
    by_cases hx : x = id
    · subst hx
      simp [hid, Ne.symm hi]
    · rw [if_neg hx]

/-- A request moves to an index that holds none. -/
lemma move {src tgt : ℕ} (hsrc : reqIds[src]? = some (some id))
    (htgt : reqIds[tgt]? = some none) :
    Inverse ((reqIds.set tgt (some id)).set src none) (dictSet reqIdToIndex id tgt) := by
  have hne : src ≠ tgt := by
    rintro rfl
    rw [hsrc] at htgt
    cases htgt
  have hsrcLt := lt_of_getElem? hsrc
  have htgtLt := lt_of_getElem? htgt
  refine ⟨nodup_dictSet h.nodup, fun x i => ?_⟩
  rw [lookup_dictSet]
  by_cases his : src = i
  · subst his
    rw [getElem?_set_self (by simpa using hsrcLt)]
    by_cases hx : x = id
    · simp [hx, hne.symm]
    · rw [if_neg hx, h.lookup, hsrc]
      simp [Ne.symm hx]
  · rw [getElem?_set_ne his]
    by_cases hit : tgt = i
    · subst hit
      rw [getElem?_set_self htgtLt]
      by_cases hx : x = id
      · simp [hx]
      · rw [if_neg hx, h.lookup, htgt]
        simp [Ne.symm hx]
    · rw [getElem?_set_ne hit, ← h.lookup]
      by_cases hx : x = id
      · subst hx
        rw [if_pos rfl, (h.lookup x src).mpr hsrc]
        simp [his, hit]
      · rw [if_neg hx]

/-- Two requests change places. -/
lemma swap {i1 i2 : ℕ} {id1 id2 : String}
    (h1 : reqIds[i1]? = some (some id1)) (h2 : reqIds[i2]? = some (some id2)) :
    Inverse (InputBatch.swapItems reqIds i1 i2) (dictSet (dictSet reqIdToIndex id1 i2) id2 i1) := by
  have hlt1 := lt_of_getElem? h1
  have hlt2 := lt_of_getElem? h2
  have hids : ∀ i x, reqIds[i]? = some (some x) → (x = id1 ↔ i = i1) ∧ (x = id2 ↔ i = i2) := by
    intro i x hx
    have hlookup := (h.lookup x i).mpr hx
    have hlookup1 := (h.lookup id1 i1).mpr h1
    have hlookup2 := (h.lookup id2 i2).mpr h2
    refine ⟨⟨?_, ?_⟩, ⟨?_, ?_⟩⟩ <;> rintro rfl <;> simp_all
  refine ⟨nodup_dictSet (nodup_dictSet h.nodup), fun x i => ?_⟩
  rw [lookup_dictSet, lookup_dictSet, InputBatch.getElem?_swapItems hlt1 hlt2]
  by_cases hx2 : x = id2
  · subst hx2
    rw [if_pos rfl]
    constructor
    · intro hi
      rw [← Option.some.inj hi, Equiv.swap_apply_left]
      exact h2
    · intro hi
      rw [Equiv.swap_apply_eq_iff.mp ((hids _ _ hi).2.mp rfl), Equiv.swap_apply_right]
  · rw [if_neg hx2]
    by_cases hx1 : x = id1
    · subst hx1
      rw [if_pos rfl]
      constructor
      · intro hi
        rw [← Option.some.inj hi, Equiv.swap_apply_right]
        exact h1
      · intro hi
        rw [Equiv.swap_apply_eq_iff.mp ((hids _ _ hi).1.mp rfl), Equiv.swap_apply_left]
    · rw [if_neg hx1]
      constructor
      · intro hi
        have hi' := (h.lookup x i).mp hi
        have hne1 : i ≠ i1 := fun hii => hx1 ((hids i x hi').1.mpr hii)
        have hne2 : i ≠ i2 := fun hii => hx2 ((hids i x hi').2.mpr hii)
        rwa [Equiv.swap_apply_of_ne_of_ne hne1 hne2]
      · intro hi
        have hne1 : Equiv.swap i1 i2 i ≠ i1 := fun hii => hx1 ((hids _ x hi).1.mpr hii)
        have hne2 : Equiv.swap i1 i2 i ≠ i2 := fun hii => hx2 ((hids _ x hi).2.mpr hii)
        rw [h.lookup]
        rwa [← Equiv.swap_apply_of_ne_of_ne hne1 hne2, Equiv.swap_apply_self] at hi

end

end Inverse

/-! ## Indices without a request -/

/-- The removed indices are those that hold no request. -/
structure Holes (reqIds : List (Option String)) (removed : List ℕ) : Prop where
  nodup : removed.Nodup
  mem : ∀ i, i ∈ removed ↔ reqIds[i]? = some none

namespace Holes

variable {reqIds : List (Option String)} {removed : List ℕ} {idx : ℕ} {id : String}

lemma remove (h : Holes reqIds removed) (hidx : reqIds[idx]? = some (some id)) :
    Holes (reqIds.set idx none) (removed ++ [idx]) := by
  have hlt := lt_of_getElem? hidx
  have hnot : idx ∉ removed := by
    rw [h.mem, hidx]
    simp
  refine ⟨List.nodup_append.mpr ⟨h.nodup, by simp, ?_⟩, fun i => ?_⟩
  · rintro i hi j hj rfl
    exact hnot (by rwa [List.mem_singleton.mp hj] at hi)
  · rw [mem_append, mem_singleton, h.mem]
    by_cases hi : idx = i
    · subst hi
      simp [getElem?_set_self hlt]
    · simp [getElem?_set_ne hi, Ne.symm hi]

/-- An index is taken out of the removed ones and filled. -/
lemma reuse {rest : List ℕ} (h : Holes reqIds removed) (hperm : rest ++ [idx] ~ removed) :
    Holes (reqIds.set idx (some id)) rest := by
  have hnodup := hperm.nodup_iff.mpr h.nodup
  have hnot : idx ∉ rest := by
    intro hmem
    exact (List.nodup_append.mp hnodup).2.2 idx hmem idx (by simp) rfl
  have hlt : idx < reqIds.length := by
    have hmem := (h.mem idx).mp (hperm.mem_iff.mp (by simp))
    exact lt_of_getElem? hmem
  refine ⟨(List.nodup_append.mp hnodup).1, fun i => ?_⟩
  by_cases hi : idx = i
  · subst hi
    simp [hnot, getElem?_set_self hlt]
  · rw [getElem?_set_ne hi, ← h.mem, ← hperm.mem_iff]
    simp [Ne.symm hi]

/-- The list is as long as the requests and the removed indices together. -/
lemma length_eq {reqIdToIndex : OrderedDict String ℕ} (h : Holes reqIds removed)
    (hinverse : Inverse reqIds reqIdToIndex) : reqIds.length = reqIdToIndex.length + removed.length := by
  have hdisjoint : (reqIdToIndex.map Prod.snd).Disjoint removed := by
    intro i hi hi'
    obtain ⟨id, hid⟩ := hinverse.mem_indices.mp hi
    rw [h.mem, hid] at hi'
    cases hi'
  have hperm : reqIdToIndex.map Prod.snd ++ removed ~ List.range reqIds.length := by
    rw [perm_ext_iff_of_nodup (hinverse.nodup_indices.append h.nodup hdisjoint) nodup_range]
    intro i
    rw [mem_append, hinverse.mem_indices, h.mem, mem_range]
    cases hi : reqIds[i]? with
    | none => simpa using List.getElem?_eq_none_iff.mp hi
    | some entry =>
      have hlt := lt_of_getElem? hi
      cases entry <;> simp [hlt]
  simpa using hperm.length_eq.symm

end Holes

/-! ## Condensing -/

/-- During `condense` the requests stand at or below the last index, except at the removed indices. -/
structure Condensing (reqIds : List (Option String)) (removed : List ℕ) (last : ℕ) : Prop where
  sorted : removed.Pairwise (· > ·)
  free : ∀ i ∈ removed, reqIds[i]? = some none
  filled : ∀ i, (∃ id, reqIds[i]? = some (some id)) ↔ i ≤ last ∧ i ∉ removed

lemma Holes.condensing {reqIds : List (Option String)} {removed : List ℕ} (h : Holes reqIds removed)
    (hsorted : removed.Pairwise (· ≥ ·)) (hne : reqIds ≠ []) :
    Condensing reqIds removed (reqIds.length - 1) := by
  have hpos := length_pos_of_ne_nil hne
  refine ⟨?_, fun i hi => (h.mem i).mp hi, fun i => ?_⟩
  · refine (hsorted.and h.nodup).imp ?_
    rintro i j ⟨hle, hne⟩
    exact lt_of_le_of_ne hle (Ne.symm hne)
  · rw [h.mem]
    cases hi : reqIds[i]? with
    | none =>
      have hle := List.getElem?_eq_none_iff.mp hi
      have hnot : ¬i ≤ reqIds.length - 1 := by omega
      simp [hnot]
    | some entry =>
      have hlt := lt_of_getElem? hi
      have hle : i ≤ reqIds.length - 1 := by omega
      cases entry <;> simp [hle]

lemma skipRemoved_spec (removed : List ℕ) (last : ℕ) :
    InputBatch.skipRemoved removed last ≤ last ∧
      (∀ i, InputBatch.skipRemoved removed last < i → i ≤ last → i ∈ removed) ∧
      (InputBatch.skipRemoved removed last ∉ removed ∨ InputBatch.skipRemoved removed last = 0) := by
  induction last with
  | zero => exact ⟨le_refl 0, fun i hlt hle => absurd (lt_of_lt_of_le hlt hle) (lt_irrefl 0), .inr rfl⟩
  | succ last ih =>
    rw [InputBatch.skipRemoved]
    split
    · rename_i hmem
      refine ⟨ih.1.trans (Nat.le_succ last), fun i hlt hle => ?_, ih.2.2⟩
      rcases Nat.le_succ_iff.mp hle with hle | rfl
      · exact ih.2.1 i hlt hle
      · exact hmem
    · rename_i hmem
      exact ⟨le_refl _, fun i hlt hle => absurd (lt_of_lt_of_le hlt hle) (lt_irrefl _), .inl hmem⟩

namespace Condensing

variable {reqIds : List (Option String)} {removed rest : List ℕ} {last index : ℕ}

lemma skip (h : Condensing reqIds removed last) :
    Condensing reqIds removed (InputBatch.skipRemoved removed last) := by
  obtain ⟨hle, hskipped, -⟩ := skipRemoved_spec removed last
  refine ⟨h.sorted, h.free, fun i => ?_⟩
  rw [h.filled]
  constructor
  · rintro ⟨hi, hmem⟩
    exact ⟨Nat.le_of_not_lt fun hlt => hmem (hskipped i hlt hi), hmem⟩
  · rintro ⟨hi, hmem⟩
    exact ⟨hi.trans hle, hmem⟩

/-- The request at the last index moves down to the lowest removed one. -/
lemma move {id : String} (h : Condensing reqIds (rest ++ [index]) last) (hlt : index < last)
    (hlast : reqIds[last]? = some (some id)) :
    Condensing ((reqIds.set index (some id)).set last none) rest (last - 1) := by
  have hsorted := List.pairwise_append.mp h.sorted
  have hindex : index ∉ rest := fun hmem => lt_irrefl _ (hsorted.2.2 index hmem index (by simp))
  have hlastNot : last ∉ rest ++ [index] := ((h.filled last).mp ⟨id, hlast⟩).2
  have hlastLt := lt_of_getElem? hlast
  refine ⟨hsorted.1, fun i hi => ?_, fun i => ?_⟩
  · have hne : last ≠ i := fun heq => hlastNot (heq ▸ mem_append_left _ hi)
    have hne' : index ≠ i := fun heq => hindex (heq ▸ hi)
    rw [getElem?_set_ne hne, getElem?_set_ne hne']
    exact h.free i (mem_append_left _ hi)
  · by_cases hil : last = i
    · subst hil
      rw [getElem?_set_self (by simpa using hlastLt)]
      have hnot : ¬last ≤ last - 1 := by omega
      simp [hnot]
    · rw [getElem?_set_ne hil]
      by_cases hii : index = i
      · subst hii
        rw [getElem?_set_self (by omega)]
        have hle : index ≤ last - 1 := by omega
        simp [hindex, hle]
      · rw [getElem?_set_ne hii, h.filled]
        have hle : i ≤ last ↔ i ≤ last - 1 := by omega
        simp [hle, Ne.symm hii]

/-- The requests stand without a gap once the last index is below all that are removed. -/
lemma gapless (h : Condensing reqIds removed last) (hle : ∀ i ∈ removed, last ≤ i) :
    ∃ n : ℕ, ∀ i, (∃ id, reqIds[i]? = some (some id)) ↔ i < n := by
  by_cases hmem : last ∈ removed
  · refine ⟨last, fun i => ?_⟩
    rw [h.filled]
    constructor
    · rintro ⟨hi, hnot⟩
      exact lt_of_le_of_ne hi fun heq => hnot (heq ▸ hmem)
    · intro hi
      exact ⟨hi.le, fun hir => absurd (hle i hir) (by omega)⟩
  · refine ⟨last + 1, fun i => ?_⟩
    rw [h.filled, Nat.lt_succ_iff]
    constructor
    · exact And.left
    · intro hi
      refine ⟨hi, fun hir => hmem ?_⟩
      rwa [le_antisymm (hle i hir) hi]

end Condensing

end VllmRuntime
