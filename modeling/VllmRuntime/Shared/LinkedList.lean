import Mathlib.Tactic
import Mathlib.Data.List.Chain
import Mathlib.Logic.Function.Basic

/-! # Doubly linked lists

Nodes carry two link fields. A list of nodes is linked when each node points to its
successor and each successor points back. The rules say what the usual pointer updates do
to a linked list. -/

namespace VllmRuntime

open List Function

/-- The link fields of all nodes. -/
structure Links (α : Type*) where
  prev : α → Option α
  next : α → Option α

namespace Links

variable {α : Type*} {x y z : α} {l : Links α} {nodes front back : List α}

/-- Neighbours in `nodes` point to each other. -/
def Linked (l : Links α) (nodes : List α) : Prop :=
  nodes.IsChain fun x y => l.next x = some y ∧ l.prev y = some x

@[simp] lemma linked_nil (l : Links α) : l.Linked [] := List.IsChain.nil

@[simp] lemma linked_singleton (l : Links α) (x : α) : l.Linked [x] := isChain_singleton x

@[simp] lemma linked_cons_cons :
    l.Linked (x :: y :: nodes) ↔
      (l.next x = some y ∧ l.prev y = some x) ∧ l.Linked (y :: nodes) :=
  isChain_cons_cons

/-- A linked list splits at every node. -/
lemma linked_append_cons :
    l.Linked (front ++ x :: back) ↔ l.Linked (front ++ [x]) ∧ l.Linked (x :: back) := by
  unfold Linked
  rw [isChain_split]

/-- Only the successors of the front and the predecessors of the back matter. -/
lemma Linked.congr {l' : Links α} (h : l.Linked nodes)
    (hnext : ∀ x ∈ nodes.dropLast, l'.next x = l.next x) (hprev : ∀ x ∈ nodes.tail, l'.prev x = l.prev x) :
    l'.Linked nodes := by
  induction nodes with
  | nil => simp
  | cons x nodes ih =>
    cases nodes with
    | nil => simp
    | cons y nodes =>
      rw [linked_cons_cons] at h ⊢
      refine ⟨⟨?_, ?_⟩, ih h.2 ?_ ?_⟩
      · rw [hnext x (by simp), h.1.1]
      · rw [hprev y (by simp), h.1.2]
      · intro z hz
        exact hnext z (mem_cons_of_mem _ hz)
      · intro z hz
        exact hprev z (mem_cons_of_mem _ hz)

/-! ## Pointer updates -/

variable [DecidableEq α]

/-- Makes `y` the successor of `x` and `x` the predecessor of `y`. -/
def connect (l : Links α) (x y : α) : Links α where
  prev := update l.prev y (some x)
  next := update l.next x (some y)

/-- Clears both fields of `x`. -/
def detach (l : Links α) (x : α) : Links α where
  prev := update l.prev x none
  next := update l.next x none

@[simp] lemma connect_next_self (l : Links α) (x y : α) : (l.connect x y).next x = some y := by
  simp [connect]

@[simp] lemma connect_prev_self (l : Links α) (x y : α) : (l.connect x y).prev y = some x := by
  simp [connect]

lemma connect_next_of_ne (l : Links α) (h : z ≠ x) :
    (l.connect x y).next z = l.next z := by
  simp [connect, h]

lemma connect_prev_of_ne (l : Links α) (h : z ≠ y) :
    (l.connect x y).prev z = l.prev z := by
  simp [connect, h]

lemma detach_next_of_ne (l : Links α) (h : z ≠ x) : (l.detach x).next z = l.next z := by
  simp [detach, h]

lemma detach_prev_of_ne (l : Links α) (h : z ≠ x) : (l.detach x).prev z = l.prev z := by
  simp [detach, h]

/-- Detaching a node leaves the lists it is not on. -/
lemma Linked.detach (h : l.Linked nodes) (hx : x ∉ nodes) : (l.detach x).Linked nodes := by
  apply h.congr
  · intro z hz
    exact detach_next_of_ne l fun he => hx (he ▸ mem_of_mem_dropLast hz)
  · intro z hz
    exact detach_prev_of_ne l fun he => hx (he ▸ mem_of_mem_tail hz)

lemma Linked.detach_all {removed : List α} (h : l.Linked nodes) (hdisj : ∀ x ∈ removed, x ∉ nodes) :
    (removed.foldl Links.detach l).Linked nodes := by
  induction removed generalizing l with
  | nil => exact h
  | cons x removed ih =>
    exact ih (h.detach (hdisj x (by simp))) fun y hy => hdisj y (by simp [hy])

/-- Connecting two linked lists end to front. -/
lemma Linked.connect (hfront : l.Linked (front ++ [x])) (hback : l.Linked (y :: back))
    (hnodup : (front ++ x :: y :: back).Nodup) :
    (l.connect x y).Linked (front ++ x :: y :: back) := by
  rw [linked_append_cons, linked_cons_cons]
  have hy : y ∉ front ++ [x] := by
    intro hmem
    have := nodup_append.mp (show ((front ++ [x]) ++ y :: back).Nodup by simpa using hnodup)
    exact this.2.2 y hmem y (by simp) rfl
  have hx : x ∉ front ∧ x ∉ y :: back := by
    have h := nodup_append.mp hnodup
    refine ⟨fun hmem => h.2.2 x hmem x (by simp) rfl, ?_⟩
    exact (nodup_cons.mp h.2.1).1
  have hyback : y ∉ back := by
    have h := nodup_append.mp hnodup
    exact (nodup_cons.mp (nodup_cons.mp h.2.1).2).1
  refine ⟨?_, ⟨connect_next_self l x y, connect_prev_self l x y⟩, ?_⟩
  · apply hfront.congr
    · intro z hz
      rw [dropLast_concat] at hz
      exact connect_next_of_ne l fun he => hx.1 (he ▸ hz)
    · intro z hz
      exact connect_prev_of_ne l fun he => hy (he ▸ mem_of_mem_tail hz)
  · apply hback.congr
    · intro z hz
      exact connect_next_of_ne l fun he => hx.2 (he ▸ mem_of_mem_dropLast hz)
    · intro z hz
      exact connect_prev_of_ne l fun he => hyback (by simpa [he] using hz)

/-- Connects each node of the list to the one after it, from left to right. -/
def connectAll (l : Links α) : List α → Links α
  | x :: y :: nodes => (l.connect x y).connectAll (y :: nodes)
  | _ => l

/-- Chaining new nodes between the last node `x` of a linked list and an end node. -/
lemma Linked.connectAll (h : l.Linked (front ++ [x])) (hnodup : (front ++ x :: nodes).Nodup) :
    (l.connectAll (x :: nodes)).Linked (front ++ x :: nodes) := by
  induction nodes generalizing l front x with
  | nil => exact h
  | cons y nodes ih =>
    have hone : (front ++ x :: y :: []).Nodup := by
      have hsub : (front ++ x :: y :: []).Sublist (front ++ x :: y :: nodes) := by simp
      exact hnodup.sublist hsub
    have hnext : (l.connect x y).Linked ((front ++ [x]) ++ [y]) := by
      simpa using h.connect (linked_singleton l y) hone
    have := ih hnext (by simpa using hnodup)
    simpa [Links.connectAll] using this

/-- Bypassing a node takes it off the list. -/
lemma Linked.bypass {a b : α} (h : l.Linked (front ++ a :: x :: b :: back))
    (hnodup : (front ++ a :: x :: b :: back).Nodup) :
    ((l.connect a b).detach x).Linked (front ++ a :: b :: back) := by
  have hsplit := linked_append_cons.mp h
  have hback : l.Linked (b :: back) := by
    have := hsplit.2
    simp only [linked_cons_cons] at this
    exact this.2.2
  have hperm : (front ++ a :: x :: b :: back).Perm (x :: (front ++ a :: b :: back)) := by
    have : (a :: x :: b :: back).Perm (x :: a :: b :: back) := List.Perm.swap _ _ _
    exact (this.append_left front).trans perm_middle
  have hnodup' := nodup_cons.mp (hperm.nodup_iff.mp hnodup)
  exact (hsplit.1.connect hback hnodup'.2).detach hnodup'.1

end Links

end VllmRuntime
