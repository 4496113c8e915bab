import Mathlib.Data.List.Nodup
import Mathlib.Data.List.Perm.Basic
import Mathlib.Tactic

/-! # Lists of the elements with a property

A list enumerates a property if it holds elements with that property and each of them once. The order
of the list does not matter, so queues with different disciplines are treated alike. -/

namespace VllmRuntime

open List

variable {α : Type*} {l l' : List α} {P P' : α → Prop} {a : α}

/-- The elements of `l` have the property `P` and are there once. If `all` holds, they are all the
elements with that property. -/
structure Enumerates (all : Prop) (l : List α) (P : α → Prop) : Prop where
  nodup : l.Nodup
  sound : ∀ a ∈ l, P a
  complete : all → ∀ a, P a → a ∈ l

namespace Enumerates

variable {all : Prop}

lemma mem_iff (h : Enumerates True l P) (a : α) : a ∈ l ↔ P a :=
  ⟨h.sound a, h.complete trivial a⟩

lemma perm (h : Enumerates all l P) (hperm : l'.Perm l) : Enumerates all l' P :=
  ⟨hperm.nodup_iff.mpr h.nodup, fun a ha => h.sound a (hperm.mem_iff.mp ha),
    fun hall a ha => hperm.mem_iff.mpr (h.complete hall a ha)⟩

lemma congr (h : Enumerates all l P) (hP : ∀ a, P' a ↔ P a) : Enumerates all l P' :=
  ⟨h.nodup, fun a ha => (hP a).mpr (h.sound a ha), fun hall a ha => h.complete hall a ((hP a).mp ha)⟩

lemma cons (h : Enumerates all l P) (ha : a ∉ l) (ha' : P' a)
    (hother : ∀ x, x ≠ a → (P' x ↔ P x)) : Enumerates all (a :: l) P' := by
  refine ⟨List.nodup_cons.mpr ⟨ha, h.nodup⟩, fun x hx => ?_, fun hall x hx => ?_⟩
  · rcases List.mem_cons.mp hx with rfl | hx
    · exact ha'
    · exact (hother x fun hxa => ha (hxa ▸ hx)).mpr (h.sound x hx)
  · by_cases hxa : x = a
    · exact hxa ▸ mem_cons_self
    · exact mem_cons_of_mem a (h.complete hall x ((hother x hxa).mp hx))

lemma filter {p : α → Bool} (h : Enumerates all l P) (hP : ∀ x, P' x ↔ P x ∧ p x = true) :
    Enumerates all (l.filter p) P' := by
  refine ⟨h.nodup.filter p, fun x hx => ?_, fun hall x hx => ?_⟩
  · obtain ⟨hmem, hp⟩ := List.mem_filter.mp hx
    exact (hP x).mpr ⟨h.sound x hmem, hp⟩
  · obtain ⟨hPx, hp⟩ := (hP x).mp hx
    exact List.mem_filter.mpr ⟨h.complete hall x hPx, hp⟩

variable [DecidableEq α]

lemma erase (h : Enumerates all l P) (ha : all → ¬ P' a) (hother : ∀ x, x ≠ a → (P' x ↔ P x)) :
    Enumerates all (l.erase a) P' := by
  refine ⟨h.nodup.erase a, fun x hx => ?_, fun hall x hx => ?_⟩
  · obtain ⟨hxa, hmem⟩ := h.nodup.mem_erase_iff.mp hx
    exact (hother x hxa).mpr (h.sound x hmem)
  · have hxa : x ≠ a := fun hxa => ha hall (hxa ▸ hx)
    exact h.nodup.mem_erase_iff.mpr ⟨hxa, h.complete hall x ((hother x hxa).mp hx)⟩

/-- Two lists of disjoint properties hold an element with one of them once. -/
lemma count_append (h : Enumerates True l P) (h' : Enumerates True l' P')
    (hdisjoint : ∀ x, P x → ¬ P' x) (ha : P a ∨ P' a) : (l ++ l').count a = 1 := by
  have hnodup : (l ++ l').Nodup := by
    refine h.nodup.append h'.nodup fun x hx hx' => ?_
    exact hdisjoint x (h.sound x hx) (h'.sound x hx')
  refine count_eq_one_of_mem hnodup (List.mem_append.mpr ?_)
  exact ha.imp (h.mem_iff a).mpr (h'.mem_iff a).mpr

end Enumerates

/-! ## Counting -/

section Counting

variable {p p' : α → Bool}

lemma countP_congr_of_ne (hother : ∀ x, x ≠ a → p' x = p x) (ha : a ∉ l) :
    l.countP p' = l.countP p := by
  refine countP_congr fun x hx => ?_
  rw [hother x fun hxa => ha (hxa ▸ hx)]

variable [DecidableEq α]

lemma countP_eq_erase (ha : a ∈ l) : l.countP p = (l.erase a).countP p + if p a then 1 else 0 := by
  rw [(perm_cons_erase ha).countP_eq, countP_cons]

/-- Counting a list without some of its elements. -/
lemma countP_filter_not_mem {part : List α} (hl : l.Nodup) (hpart : part.Nodup)
    (hsub : ∀ x ∈ part, x ∈ l) :
    (l.filter fun x => x ∉ part).countP p + part.countP p = l.countP p := by
  have hperm : ((l.filter fun x => x ∈ part) ++ (l.filter fun x => x ∉ part)).Perm l := by
    simpa using filter_append_perm (fun x => decide (x ∈ part)) l
  have hsame : (l.filter fun x => x ∈ part).Perm part := by
    refine (perm_ext_iff_of_nodup (hl.filter _) hpart).mpr fun x => ?_
    simp only [mem_filter, decide_eq_true_eq]
    exact ⟨fun h => h.2, fun h => ⟨hsub x h, h⟩⟩
  rw [← hperm.countP_eq, countP_append, hsame.countP_eq, Nat.add_comm]

end Counting

end VllmRuntime
