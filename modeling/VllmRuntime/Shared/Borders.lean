import Mathlib.Data.List.Basic
import Mathlib.Tactic

/-! # Borders

A border of length `v` at `i` is a prefix of `v` elements of a list that is also a suffix of its first `i`
elements. -/

namespace Borders

variable {α : Type*} {t : List α} {u v w i : ℕ}

/-- The first `v` elements of the list are the last ones of its first `i` elements, and less of them. -/
structure Border (t : List α) (v i : ℕ) : Prop where
  lt : v < i
  eq : ∀ j < v, t[j]? = t[i - v + j]?

lemma Border.zero (h : 0 < i) : Border t 0 i := ⟨h, fun _ hj => absurd hj (Nat.not_lt_zero _)⟩

lemma Border.succ (h : Border t v i) (hnext : t[v]? = t[i]?) : Border t (v + 1) (i + 1) where
  lt := Nat.succ_lt_succ h.lt
  eq j hj := by
    rw [Nat.add_sub_add_right]
    rcases Nat.lt_succ_iff_lt_or_eq.mp hj with hlt | rfl
    · exact h.eq j hlt
    · rw [Nat.sub_add_cancel h.lt.le, hnext]

lemma border_succ_iff : Border t (v + 1) (i + 1) ↔ Border t v i ∧ t[v]? = t[i]? := by
  constructor
  · intro h
    have hlt : v < i := Nat.lt_of_succ_lt_succ h.lt
    refine ⟨⟨hlt, fun j hj => ?_⟩, ?_⟩
    · have heq := h.eq j (Nat.lt_succ_of_lt hj)
      rwa [Nat.add_sub_add_right] at heq
    · have heq := h.eq v (Nat.lt_succ_self v)
      rwa [Nat.add_sub_add_right, Nat.sub_add_cancel hlt.le] at heq
  · rintro ⟨h, hnext⟩
    exact h.succ hnext

lemma Border.trans (huv : Border t u v) (hvi : Border t v i) : Border t u i where
  lt := huv.lt.trans hvi.lt
  eq j hj := by
    have hlt := huv.lt
    have hle := hvi.lt
    rw [huv.eq j hj, hvi.eq (v - u + j) (by omega)]
    congr 1
    omega

/-- Of two borders at the same place the shorter one is a border of the longer one. -/
lemma Border.of_lt (hv : Border t v i) (hw : Border t w i) (hlt : v < w) : Border t v w where
  lt := hlt
  eq j hj := by
    have hle := hw.lt
    rw [hv.eq j hj, hw.eq (w - v + j) (by omega)]
    congr 1
    omega

/-- `v` is the longest border at `i` of those that are shorter than `m`. -/
structure Longest (t : List α) (m v i : ℕ) : Prop where
  border : Border t v i
  lt : v < m
  le : ∀ w, Border t w i → w < m → w ≤ v

lemma Longest.zero (hm : 0 < m) (hi : i = 1) : Longest t m 0 i where
  border := .zero (by omega)
  lt := hm
  le w hw _ := by
    have hlt := hw.lt
    omega

end Borders
