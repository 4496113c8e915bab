import VllmRuntime.Shared.Heapq

/-! # Order in a binary heap

The algorithms of `heapq` keep the heap order for every comparison for which not being greater is a total
preorder, and the item on top is a least one. -/

namespace VllmRuntime.Heapq

open List

variable {α : Type*} {lt lt' : α → α → Bool}

/-- Not to be greater is total and transitive. -/
structure Ranks (lt : α → α → Bool) : Prop where
  asymm : ∀ a b, lt a b = true → lt b a = false
  trans : ∀ a b c, lt b a = false → lt c b = false → lt c a = false

/-- Below position `k` and its descendants no item is less than its parent. -/
def HeapFrom (lt : α → α → Bool) (k : ℕ) (heap : List α) : Prop :=
  ∀ i, 0 < i → i < heap.length → k ≤ (i - 1) / 2 → lessAt lt heap i ((i - 1) / 2) = false

/-- No item is less than its parent. -/
def IsHeap (lt : α → α → Bool) (heap : List α) : Prop := HeapFrom lt 0 heap

instance (lt : α → α → Bool) (heap : List α) : Decidable (IsHeap lt heap) :=
  decidable_of_iff (∀ i < heap.length, 0 < i → lessAt lt heap i ((i - 1) / 2) = false)
    ⟨fun h i hpos hi _ => h i hi hpos, fun h i hi hpos => h i hpos hi (Nat.zero_le _)⟩

/-! ## Comparing positions -/

section Positions

variable {heap : List α} {i j k : ℕ}

lemma getElem?_swap (hi : i < heap.length) (hj : j < heap.length) (k : ℕ) :
    (swap heap i j)[k]? = heap[Equiv.swap i j k]? := by
  rw [swap, Array.swapIfInBounds_def, dif_pos (by simpa using hi), dif_pos (by simpa using hj)]
  rw [Array.getElem?_toList, Array.getElem?_swap]
  by_cases hkj : j = k
  · subst hkj
    simp [hi]
  · by_cases hki : i = k
    · subst hki
      simp [hkj, hj]
    · rw [if_neg hkj, if_neg hki, Equiv.swap_apply_of_ne_of_ne (Ne.symm hki) (Ne.symm hkj)]
      simp

@[simp] lemma length_swap (heap : List α) (i j : ℕ) : (swap heap i j).length = heap.length :=
  (swap_perm heap i j).length_eq

lemma lessAt_swap (hi : i < heap.length) (hj : j < heap.length) (a b : ℕ) :
    lessAt lt (swap heap i j) a b = lessAt lt heap (Equiv.swap i j a) (Equiv.swap i j b) := by
  rw [lessAt, lessAt, getElem?_swap hi hj, getElem?_swap hi hj]

lemma lessAt_asymm (hlt : Ranks lt) (h : lessAt lt heap i j = true) : lessAt lt heap j i = false := by
  unfold lessAt at h ⊢
  cases hi : heap[i]? <;> cases hj : heap[j]? <;> simp_all
  exact hlt.asymm _ _ h

lemma lessAt_trans (hlt : Ranks lt) (hj : j < heap.length) (hji : lessAt lt heap j i = false)
    (hkj : lessAt lt heap k j = false) : lessAt lt heap k i = false := by
  unfold lessAt at hji hkj ⊢
  rw [getElem?_eq_getElem hj] at hji hkj
  cases hi : heap[i]? <;> cases hk : heap[k]? <;> simp_all
  exact hlt.trans _ _ _ hji hkj

lemma lessAt_congr {heap' : List α} {i' j' : ℕ} (hi : heap[i]? = heap'[i']?) (hj : heap[j]? = heap'[j']?) :
    lessAt lt heap i j = lessAt lt heap' i' j' := by
  rw [lessAt, lessAt, hi, hj]

end Positions

/-! ## Descendants -/

/-- The position is `root` or one of its descendants. -/
inductive Descends (root : ℕ) : ℕ → Prop where
  | refl : Descends root root
  | child {pos : ℕ} (hpos : 0 < pos) (h : Descends root ((pos - 1) / 2)) : Descends root pos

namespace Descends

variable {root pos : ℕ}

lemma le (h : Descends root pos) : root ≤ pos := by
  induction h with
  | refl => exact le_rfl
  | child hpos _ ih => omega

lemma parent (h : Descends root pos) (hlt : root < pos) : Descends root ((pos - 1) / 2) := by
  cases h with
  | refl => exact absurd hlt (lt_irrefl _)
  | child hpos h => exact h

lemma zero (pos : ℕ) : Descends 0 pos := by
  induction pos using Nat.strongRecOn with
  | ind pos ih =>
    rcases Nat.eq_zero_or_pos pos with rfl | hpos
    · exact .refl
    · exact .child hpos (ih _ (by omega))

end Descends

/-! ## Moving an item up -/

/-- The heap is in order but for the item at `pos`, which may be less than its parent. -/
structure Rises (lt : α → α → Bool) (root : ℕ) (heap : List α) (pos : ℕ) : Prop where
  other : ∀ i, 0 < i → i < heap.length → root ≤ (i - 1) / 2 → i ≠ pos → lessAt lt heap i ((i - 1) / 2) = false
  grand : root < pos → ∀ i, 0 < i → i < heap.length → (i - 1) / 2 = pos → lessAt lt heap i ((pos - 1) / 2) = false

variable {root : ℕ} {heap : List α} {pos : ℕ} {fuel : ℕ} {top : α}

lemma Rises.swap (h : Rises lt root heap pos) (hlt : Ranks lt) (hpos : pos < heap.length)
    (hsub : Descends root pos) (hroot : root < pos) (hless : lessAt lt heap pos ((pos - 1) / 2) = true) :
    Rises lt root (swap heap pos ((pos - 1) / 2)) ((pos - 1) / 2) := by
  have hparent : (pos - 1) / 2 < pos := by omega
  have hle : root ≤ (pos - 1) / 2 := (hsub.parent hroot).le
  have hback := lessAt_asymm hlt hless
  refine ⟨?_, ?_⟩
  · intro i hi hilen hik hine
    rw [length_swap] at hilen
    rw [lessAt_swap hpos (by omega)]
    by_cases hip : i = pos
    · subst hip
      rw [Equiv.swap_apply_left, Equiv.swap_apply_right]
      exact hback
    rw [Equiv.swap_apply_of_ne_of_ne hip hine]
    by_cases hpar : (i - 1) / 2 = pos
    · rw [hpar, Equiv.swap_apply_left]
      exact h.grand hroot i hi hilen hpar
    · by_cases hsib : (i - 1) / 2 = (pos - 1) / 2
      · rw [hsib, Equiv.swap_apply_right]
        have hedge := h.other i hi hilen hik hip
        rw [hsib] at hedge
        exact lessAt_trans hlt (by omega) hback hedge
      · rw [Equiv.swap_apply_of_ne_of_ne hpar hsib]
        exact h.other i hi hilen hik hip
  · intro hk i hi hilen hpar
    rw [length_swap] at hilen
    have hup : root ≤ ((pos - 1) / 2 - 1) / 2 := ((hsub.parent hroot).parent hk).le
    have hedge := h.other ((pos - 1) / 2) (by omega) (by omega) hup (by omega)
    have hgrand : Equiv.swap pos ((pos - 1) / 2) (((pos - 1) / 2 - 1) / 2) = ((pos - 1) / 2 - 1) / 2 :=
      Equiv.swap_apply_of_ne_of_ne (by omega) (by omega)
    rw [lessAt_swap hpos (by omega), hgrand]
    by_cases hip : i = pos
    · rw [hip, Equiv.swap_apply_left]
      exact hedge
    · rw [Equiv.swap_apply_of_ne_of_ne hip (by omega)]
      have hchild := h.other i hi hilen (by omega) hip
      rw [hpar] at hchild
      exact lessAt_trans hlt (by omega) hedge hchild

/-- Moving the item up until it is not less than its parent restores the order. -/
lemma Rises.siftdown (hlt : Ranks lt) (h : Rises lt root heap pos) (hfuel : pos ≤ fuel)
    (hpos : pos < heap.length) (hsub : Descends root pos) :
    HeapFrom lt root (siftdown lt root fuel heap pos) := by
  induction fuel generalizing heap pos with
  | zero =>
    intro i hi hilen hik
    exact h.other i hi hilen hik (by omega)
  | succ fuel ih =>
    rw [Heapq.siftdown]
    split
    · rename_i hmove
      exact ih (h.swap hlt hpos hsub hmove.1 hmove.2) (by omega) (by rw [length_swap]; omega) (hsub.parent hmove.1)
    · rename_i hstop
      intro i hi hilen hik
      by_cases hip : i = pos
      · subst hip
        exact Bool.eq_false_iff.2 fun hless => hstop ⟨by omega, hless⟩
      · exact h.other i hi hilen hik hip

/-! ## Moving an item down -/

/-- The heap is in order but for the item at `pos`, which may be greater than its children. -/
structure Sinks (lt : α → α → Bool) (root : ℕ) (heap : List α) (pos : ℕ) : Prop where
  other : ∀ i, 0 < i → i < heap.length → root ≤ (i - 1) / 2 → i ≠ pos → (i - 1) / 2 ≠ pos →
    lessAt lt heap i ((i - 1) / 2) = false
  grand : root < pos → ∀ i, 0 < i → i < heap.length → (i - 1) / 2 = pos → lessAt lt heap i ((pos - 1) / 2) = false

lemma smallerChild_spec (hlt : Ranks lt) (hchild : 2 * pos + 1 < heap.length) :
    (smallerChild lt heap pos - 1) / 2 = pos ∧ pos < smallerChild lt heap pos ∧
      smallerChild lt heap pos < heap.length ∧
      ∀ i, 0 < i → i < heap.length → (i - 1) / 2 = pos → lessAt lt heap i (smallerChild lt heap pos) = false := by
  have hself (i : ℕ) : lessAt lt heap i i = false := by
    cases h : lessAt lt heap i i with
    | false => rfl
    | true => exact h.symm.trans (lessAt_asymm hlt h)
  unfold smallerChild
  split
  · rename_i h
    simp only [Bool.not_eq_true'] at h
    refine ⟨by omega, by omega, h.1, ?_⟩
    intro i hi hilen hpar
    obtain rfl | rfl : i = 2 * pos + 1 ∨ i = 2 * pos + 2 := by omega
    · exact h.2
    · exact hself _
  · rename_i h
    refine ⟨by omega, by omega, hchild, ?_⟩
    intro i hi hilen hpar
    obtain rfl | rfl : i = 2 * pos + 1 ∨ i = 2 * pos + 2 := by omega
    · exact hself _
    · refine lessAt_asymm hlt ?_
      by_contra hnot
      exact h ⟨hilen, by simpa using hnot⟩

lemma Sinks.swap (h : Sinks lt root heap pos) (hlt : Ranks lt) (hchild : 2 * pos + 1 < heap.length)
    (hsub : Descends root pos) :
    Sinks lt root (swap heap pos (smallerChild lt heap pos)) (smallerChild lt heap pos) := by
  obtain ⟨hpar, hless, hlen, hleast⟩ := smallerChild_spec hlt hchild
  generalize smallerChild lt heap pos = child at hpar hless hlen hleast
  refine ⟨?_, ?_⟩
  · intro i hi hilen hik hine hpne
    rw [length_swap] at hilen
    rw [lessAt_swap (by omega) hlen]
    by_cases hip : i = pos
    · subst hip
      rw [Equiv.swap_apply_left, Equiv.swap_apply_of_ne_of_ne (by omega) hpne]
      exact h.grand (by omega) child (by omega) hlen hpar
    · rw [Equiv.swap_apply_of_ne_of_ne hip hine]
      by_cases hsib : (i - 1) / 2 = pos
      · rw [hsib, Equiv.swap_apply_left]
        exact hleast i hi hilen hsib
      · rw [Equiv.swap_apply_of_ne_of_ne hsib hpne]
        exact h.other i hi hilen hik hip hsib
  · intro _ i hi hilen hchild'
    rw [length_swap] at hilen
    rw [lessAt_swap (by omega) hlen, hpar, Equiv.swap_apply_left,
      Equiv.swap_apply_of_ne_of_ne (by omega) (by omega), ← hchild']
    have hroot := hsub.le
    exact h.other i hi hilen (by omega) (by omega) (by omega)

/-- Moving the smaller child up until there is none leaves only the item at the leaf out of order. -/
lemma Sinks.siftupLoop (hlt : Ranks lt) (h : Sinks lt root heap pos) (hfuel : heap.length ≤ fuel + pos)
    (hpos : pos < heap.length) (hsub : Descends root pos) :
    Rises lt root (siftupLoop lt fuel heap pos).1 (siftupLoop lt fuel heap pos).2 ∧
      (siftupLoop lt fuel heap pos).2 < heap.length ∧ Descends root (siftupLoop lt fuel heap pos).2 := by
  induction fuel generalizing heap pos with
  | zero => omega
  | succ fuel ih =>
    rw [Heapq.siftupLoop]
    split
    · rename_i hchild
      obtain ⟨hpar, hless, hlen, -⟩ := smallerChild_spec hlt hchild
      have hnext := ih (h.swap hlt hchild hsub) (by rw [length_swap]; omega) (by rwa [length_swap])
        (.child (by omega) (by rwa [hpar]))
      rwa [length_swap] at hnext
    · rename_i hleaf
      have hnone (i : ℕ) (hi : 0 < i) (hilen : i < heap.length) : (i - 1) / 2 ≠ pos := by omega
      refine ⟨⟨?_, ?_⟩, hpos, hsub⟩
      · intro i hi hilen hik hip
        exact h.other i hi hilen hik hip (hnone i hi hilen)
      · intro _ i hi hilen hpar
        exact absurd hpar (hnone i hi hilen)

lemma Sinks.siftup (hlt : Ranks lt) (h : Sinks lt pos heap pos) (hpos : pos < heap.length) :
    HeapFrom lt pos (siftup lt heap pos) := by
  obtain ⟨hrises, hleaf, hsub⟩ := h.siftupLoop hlt (Nat.le_add_right _ _) hpos .refl
  have hlen := (siftupLoop_perm lt heap.length heap pos).length_eq
  exact hrises.siftdown hlt (by rw [hlen]; exact hleaf.le) (by rwa [hlen]) hsub

/-! ## The operations -/

lemma IsHeap.nil : IsHeap lt ([] : List α) := fun _ _ hi _ => nomatch hi

lemma IsHeap.heappush (hlt : Ranks lt) (h : IsHeap lt heap) (item : α) : IsHeap lt (heappush lt heap item) := by
  have hrises : Rises lt 0 (heap ++ [item]) heap.length := by
    refine ⟨?_, ?_⟩
    · intro i hi hilen hik hine
      rw [length_append, length_singleton] at hilen
      rw [← h i hi (by omega) hik]
      exact lessAt_congr (getElem?_append_left (by omega)) (getElem?_append_left (by omega))
    · intro _ i hi hilen hpar
      rw [length_append, length_singleton] at hilen
      omega
  exact hrises.siftdown hlt (Nat.le_succ _) (by simp) (.zero _)

lemma IsHeap.heappop (hlt : Ranks lt) {rest : List α} (h : IsHeap lt heap)
    (hpop : heappop lt heap = some (top, rest)) : IsHeap lt rest := by
  cases heap with
  | nil => cases hpop
  | cons first others =>
    rw [Heapq.heappop] at hpop
    cases hlast : others.getLast? with
    | none =>
      rw [hlast] at hpop
      cases hpop
      exact .nil
    | some last =>
      rw [hlast] at hpop
      obtain ⟨-, rfl⟩ := Prod.mk.inj (Option.some.inj hpop)
      refine Sinks.siftup hlt ⟨?_, fun h0 => absurd h0 (lt_irrefl _)⟩ (by simp)
      intro i hi hilen hik hine hpne
      have hsame (j : ℕ) (hj : 0 < j) (hjlen : j < (last :: others.dropLast).length) :
          (last :: others.dropLast)[j]? = (first :: others)[j]? := by
        obtain ⟨j, rfl⟩ := Nat.exists_eq_succ_of_ne_zero hj.ne'
        rw [length_cons, length_dropLast] at hjlen
        simp only [getElem?_cons_succ, getElem?_dropLast]
        rw [if_pos (by omega)]
      have hlen : i < (first :: others).length := by
        rw [length_cons, length_dropLast] at hilen
        rw [length_cons]
        omega
      rw [← h i hi hlen hik]
      exact lessAt_congr (hsame i hi hilen) (hsame _ (by omega) (by omega))

lemma heapify_isHeap (hlt : Ranks lt) (heap : List α) : IsHeap lt (heapify lt heap) := by
  have hfold (n : ℕ) (heap : List α) (hn : n ≤ heap.length / 2) (h : HeapFrom lt n heap) :
      IsHeap lt ((List.range n).reverse.foldl (siftup lt) heap) := by
    induction n generalizing heap with
    | zero => exact h
    | succ n ih =>
      rw [range_succ, reverse_append, reverse_singleton, singleton_append, foldl_cons]
      have hlen := (siftup_perm lt heap n).length_eq
      refine ih _ (by omega) (Sinks.siftup hlt ⟨?_, fun h0 => absurd h0 (lt_irrefl _)⟩ (by omega))
      intro i hi hilen hik hine hpne
      exact h i hi hilen (by omega)
  refine hfold _ heap le_rfl ?_
  intro i hi hilen hik
  omega

/-- The item on top of a heap is a least one. -/
lemma IsHeap.head_least (hlt : Ranks lt) {x : α} (h : IsHeap lt heap) (htop : heap.head? = some top)
    (hx : x ∈ heap) : lt x top = false := by
  have hroot (i : ℕ) (hi : i < heap.length) : lessAt lt heap i 0 = false := by
    induction i using Nat.strongRecOn with
    | ind i ih =>
      rcases Nat.eq_zero_or_pos i with rfl | hpos
      · cases hself : lessAt lt heap 0 0 with
        | false => rfl
        | true => exact hself.symm.trans (lessAt_asymm hlt hself)
      · exact lessAt_trans hlt (by omega) (ih ((i - 1) / 2) (by omega) (by omega)) (h i hpos hi (Nat.zero_le _))
  obtain ⟨i, hi, rfl⟩ := getElem_of_mem hx
  have hless := hroot i hi
  rw [lessAt, getElem?_eq_getElem hi, ← head?_eq_getElem?, htop] at hless
  exact hless

/-- Popping all items of a heap sorts them. -/
lemma IsHeap.drain_pairwise (hlt : Ranks lt) (h : IsHeap lt heap) (hfuel : heap.length ≤ fuel) :
    (drain lt fuel heap).Pairwise fun a b => lt b a = false := by
  induction fuel generalizing heap with
  | zero => exact .nil
  | succ fuel ih =>
    rw [drain]
    cases hpop : Heapq.heappop lt heap with
    | none => exact .nil
    | some popped =>
      obtain ⟨htop, hperm⟩ := heappop_perm lt hpop
      have hlen := hperm.length_eq
      rw [length_cons] at hlen
      refine .cons (fun x hx => ?_) (ih (h.heappop hlt hpop) (by omega))
      exact h.head_least hlt htop (hperm.mem_iff.mpr (mem_cons_of_mem _ ((drain_perm lt (by omega)).mem_iff.mp hx)))

/-- The order of a heap only depends on how its items compare. -/
lemma IsHeap.congr (h : IsHeap lt heap) (hsame : ∀ a ∈ heap, ∀ b ∈ heap, lt' a b = lt a b) : IsHeap lt' heap := by
  intro i hi hilen hik
  have hp : (i - 1) / 2 < heap.length := by omega
  have hedge := h i hi hilen hik
  rw [lessAt, getElem?_eq_getElem hilen, getElem?_eq_getElem hp] at hedge ⊢
  exact (hsame _ (getElem_mem _) _ (getElem_mem _)).trans hedge

end VllmRuntime.Heapq
