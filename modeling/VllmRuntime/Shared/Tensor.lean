import Mathlib.Algebra.BigOperators.Group.List.Basic
import Mathlib.Data.List.Forall2
import Mathlib.Tactic.Ring

/-! # Tensors

A tensor has a shape and an element at every index. Elements are numbered in row-major order. -/

structure Tensor (α : Type) where
  shape : List ℕ
  get : List ℕ → α

namespace Tensor

open List

variable {α : Type} {shape dims index rest : List ℕ} {o n i : ℕ}

/-! ## Row-major order -/

/-- The row-major number of an index. -/
def offset : List ℕ → List ℕ → ℕ
  | _ :: shape, i :: index => i * shape.prod + offset shape index
  | _, _ => 0

/-- The index with a row-major number. -/
def unravel : List ℕ → ℕ → List ℕ
  | [], _ => []
  | _ :: shape, o => o / shape.prod :: unravel shape (o % shape.prod)

lemma offset_lt (h : Forall₂ (· < ·) index shape) : offset shape index < shape.prod := by
  induction h with
  | nil => decide
  | @cons i n index shape hi _ ih =>
    rw [prod_cons]
    calc i * shape.prod + offset shape index < (i + 1) * shape.prod := by
          rw [Nat.succ_mul]
          omega
      _ ≤ n * shape.prod := Nat.mul_le_mul_right _ hi

lemma unravel_cons (n : ℕ) (ho : o < shape.prod) :
    unravel (n :: shape) (i * shape.prod + o) = i :: unravel shape o := by
  have hpos : 0 < shape.prod := Nat.zero_lt_of_lt ho
  rw [unravel, Nat.mul_comm, Nat.mul_add_div hpos, Nat.div_eq_of_lt ho, Nat.add_zero,
    Nat.mul_add_mod, Nat.mod_eq_of_lt ho]

lemma unravel_offset (h : Forall₂ (· < ·) index shape) : unravel shape (offset shape index) = index := by
  induction h with
  | nil => rfl
  | cons _ hrest ih => rw [offset, unravel_cons _ (offset_lt hrest), ih]

lemma offset_unravel (h : o < shape.prod) :
    Forall₂ (· < ·) (unravel shape o) shape ∧ offset shape (unravel shape o) = o := by
  induction shape generalizing o with
  | nil =>
    obtain rfl : o = 0 := by simpa using h
    exact ⟨.nil, rfl⟩
  | cons n shape ih =>
    rw [prod_cons] at h
    have hpos : 0 < shape.prod := Nat.pos_of_mul_pos_left (Nat.zero_lt_of_lt h)
    obtain ⟨hwithin, hoffset⟩ := ih (Nat.mod_lt o hpos)
    refine ⟨.cons (Nat.div_lt_of_lt_mul (by rwa [Nat.mul_comm])) hwithin, ?_⟩
    rw [unravel, offset, hoffset, Nat.mul_comm, Nat.div_add_mod]

/-! ## Operations -/

def reshape (t : Tensor α) (shape : List ℕ) : Tensor α :=
  ⟨shape, fun index => t.get (unravel t.shape (offset shape index))⟩

/-- Axis `k` of the result is axis `dims[k]` of the tensor. -/
def permute (t : Tensor α) (dims : List ℕ) : Tensor α :=
  ⟨dims.map (t.shape.getD · 0),
    fun index => t.get ((range dims.length).map fun axis => index.getD (dims.idxOf axis) 0)⟩

/-- The elements of each `t[i]` lie in row-major order in `memory i`. -/
structure RowMajor (t : Tensor α) (n : ℕ) (shape : List ℕ) (memory : ℕ → ℕ → α) : Prop where
  shape_eq : t.shape = n :: shape
  get_eq : ∀ i < n, ∀ rest, Forall₂ (· < ·) rest shape → t.get (i :: rest) = memory i (offset shape rest)

/-- A view of the same memory in another shape. -/
lemma RowMajor.reshape {t : Tensor α} {memory : ℕ → ℕ → α} (h : t.RowMajor n shape memory)
    (hdims : dims.prod = shape.prod) : (t.reshape (n :: dims)).RowMajor n dims memory := by
  refine ⟨rfl, ?_⟩
  intro i hi rest hrest
  have hlt : offset dims rest < shape.prod := hdims ▸ offset_lt hrest
  obtain ⟨hwithin, hoffset⟩ := offset_unravel hlt
  calc (t.reshape (n :: dims)).get (i :: rest)
      = t.get (unravel t.shape (i * dims.prod + offset dims rest)) := rfl
    _ = t.get (unravel (n :: shape) (i * shape.prod + offset dims rest)) := by rw [h.shape_eq, hdims]
    _ = t.get (i :: unravel shape (offset dims rest)) := by rw [unravel_cons n hlt]
    _ = memory i (offset dims rest) := by rw [h.get_eq i hi _ hwithin, hoffset]

/-- Reading a reshaped tensor. -/
lemma get_reshape (t : Tensor α) (hindex : Forall₂ (· < ·) index t.shape)
    (hoffset : offset dims rest = offset t.shape index) : (t.reshape dims).get rest = t.get index := by
  change t.get (unravel t.shape (offset dims rest)) = t.get index
  rw [hoffset, unravel_offset hindex]

end Tensor
