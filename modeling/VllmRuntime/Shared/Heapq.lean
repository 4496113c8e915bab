import Mathlib.Tactic
import Mathlib.Data.List.Perm.Basic

/-! # Binary heaps in a list

The algorithms of Python's `heapq` for an arbitrary comparison. The comparison need not be an order,
and the list need not be a heap: the items of the list are kept in any case. -/

namespace VllmRuntime.Heapq

open List

variable {α : Type*} (lt : α → α → Bool) {heap : List α}

/-- `heap[i] < heap[j]`, for positions of the heap. -/
def lessAt (heap : List α) (i j : ℕ) : Bool :=
  match heap[i]?, heap[j]? with
  | some a, some b => lt a b
  | _, _ => false

/-- Exchanges the items at two positions. -/
def swap (heap : List α) (i j : ℕ) : List α := (heap.toArray.swapIfInBounds i j).toList

/-- `_siftdown`. The position gets smaller in each round, so it is enough fuel. -/
def siftdown (startpos : ℕ) : ℕ → List α → ℕ → List α
  | 0, heap, _ => heap
  | fuel + 1, heap, pos =>
    if pos > startpos ∧ lessAt lt heap pos ((pos - 1) / 2) then
      siftdown startpos fuel (swap heap pos ((pos - 1) / 2)) ((pos - 1) / 2)
    else
      heap

/-- The smaller child of a position whose left child exists. -/
def smallerChild (heap : List α) (pos : ℕ) : ℕ :=
  if 2 * pos + 2 < heap.length ∧ !lessAt lt heap (2 * pos + 1) (2 * pos + 2) then
    2 * pos + 2
  else
    2 * pos + 1

/-- The loop of `_siftup`: moves the item down to a leaf and returns where it is. -/
def siftupLoop : ℕ → List α → ℕ → List α × ℕ
  | 0, heap, pos => (heap, pos)
  | fuel + 1, heap, pos =>
    if 2 * pos + 1 < heap.length then
      siftupLoop fuel (swap heap pos (smallerChild lt heap pos)) (smallerChild lt heap pos)
    else
      (heap, pos)

def siftup (heap : List α) (pos : ℕ) : List α :=
  let (heap, leaf) := siftupLoop lt heap.length heap pos
  siftdown lt pos heap.length heap leaf

def heappush (heap : List α) (item : α) : List α :=
  siftdown lt 0 (heap.length + 1) (heap ++ [item]) heap.length

/-- The item on top and the heap without it. -/
def heappop : List α → Option (α × List α)
  | [] => none
  | top :: rest =>
    match rest.getLast? with
    | none => some (top, [])
    | some last => some (top, siftup lt (last :: rest.dropLast) 0)

def heapify (heap : List α) : List α :=
  (List.range (heap.length / 2)).reverse.foldl (siftup lt) heap

/-- The items in the order in which they are popped. -/
def drain : ℕ → List α → List α
  | 0, _ => []
  | fuel + 1, heap =>
    match heappop lt heap with
    | none => []
    | some (top, rest) => top :: drain fuel rest

/-! ## The items are kept -/

lemma swap_perm (heap : List α) (i j : ℕ) : (swap heap i j).Perm heap := by
  unfold swap
  rw [Array.swapIfInBounds_def]
  split
  · split
    · rename_i hi hj
      simpa using Array.perm_iff_toList_perm.mp (Array.swap_perm hi hj)
    · exact .refl _
  · exact .refl _

lemma siftdown_perm (startpos fuel : ℕ) (heap : List α) (pos : ℕ) :
    (siftdown lt startpos fuel heap pos).Perm heap := by
  induction fuel generalizing heap pos with
  | zero => exact .refl _
  | succ fuel ih =>
    rw [siftdown]
    split
    · exact (ih _ _).trans (swap_perm _ _ _)
    · exact .refl _

lemma siftupLoop_perm (fuel : ℕ) (heap : List α) (pos : ℕ) :
    (siftupLoop lt fuel heap pos).1.Perm heap := by
  induction fuel generalizing heap pos with
  | zero => exact .refl _
  | succ fuel ih =>
    rw [siftupLoop]
    split
    · exact (ih _ _).trans (swap_perm _ _ _)
    · exact .refl _

lemma siftup_perm (heap : List α) (pos : ℕ) : (siftup lt heap pos).Perm heap :=
  (siftdown_perm lt _ _ _ _).trans (siftupLoop_perm lt _ _ _)

lemma heappush_perm (heap : List α) (item : α) : (heappush lt heap item).Perm (item :: heap) :=
  (siftdown_perm lt _ _ _ _).trans (perm_append_singleton item heap)

lemma heappop_perm {rest : List α} {top : α} (h : heappop lt heap = some (top, rest)) :
    heap.head? = some top ∧ heap.Perm (top :: rest) := by
  cases heap with
  | nil => cases h
  | cons first others =>
    rw [heappop] at h
    split at h
    · rename_i hlast
      cases h
      rw [getLast?_eq_none_iff] at hlast
      subst hlast
      exact ⟨rfl, .refl _⟩
    · rename_i last hlast
      cases h
      refine ⟨rfl, ?_⟩
      have hsplit : others.dropLast ++ [last] = others :=
        dropLast_append_getLast? last hlast
      have hperm : others.Perm (last :: others.dropLast) := by
        rw [← hsplit]
        simp
      exact (hperm.trans (siftup_perm lt _ 0).symm).cons _

lemma heappop_isSome (top : α) (rest : List α) : ∃ heap, heappop lt (top :: rest) = some (top, heap) := by
  rw [heappop]
  split
  · exact ⟨[], rfl⟩
  · exact ⟨_, rfl⟩

lemma heapify_perm (heap : List α) : (heapify lt heap).Perm heap := by
  unfold heapify
  generalize (List.range (heap.length / 2)).reverse = positions
  induction positions generalizing heap with
  | nil => exact .refl _
  | cons pos positions ih => exact (ih _).trans (siftup_perm lt _ _)

lemma drain_perm {fuel : ℕ} (hfuel : heap.length ≤ fuel) :
    (drain lt fuel heap).Perm heap := by
  induction fuel generalizing heap with
  | zero =>
    obtain rfl := eq_nil_of_length_eq_zero (Nat.le_zero.mp hfuel)
    exact .refl _
  | succ fuel ih =>
    cases heap with
    | nil => exact .refl _
    | cons top others =>
      obtain ⟨rest, hpop⟩ := heappop_isSome lt top others
      have hperm := (heappop_perm lt hpop).2
      have hlen := hperm.length_eq
      rw [length_cons] at hfuel
      have hrest : rest.length ≤ fuel := by
        rw [length_cons, length_cons] at hlen
        omega
      rw [drain, hpop]
      exact ((ih hrest).cons top).trans hperm.symm

end VllmRuntime.Heapq
