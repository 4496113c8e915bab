import VllmRuntime.Model.Base
import VllmRuntime.Shared.Tensor

/-! # Torch operations

What the modelled code calls on tensors, as PyTorch documents it. An operation raises when the shapes or
indices that it is given do not fit. -/

namespace Tensor

open List VllmRuntime

variable {α : Type}

/-- `t.index_select(0, indices)`: the entries of the first axis at the indices, in their order. -/
def indexSelect (t : Tensor α) (indices : List ℕ) : Except PyError (Tensor α) :=
  if indices.all (· < t.shape.headD 0) then
    .ok ⟨indices.length :: t.shape.tail,
      fun index => t.get (indices.getD (index.headD 0) 0 :: index.tail)⟩
  else
    .error .indexError

/-- `t.index_copy_(0, indices, source)` for indices without repetitions: entry `indices[i]` of the first
axis becomes entry `i` of `source`. -/
def indexCopy (t : Tensor α) (indices : List ℕ) (source : Tensor α) : Except PyError (Tensor α) :=
  if indices.all (· < t.shape.headD 0) then
    if source.shape = indices.length :: t.shape.tail then
      .ok ⟨t.shape, fun index =>
        if index.headD 0 ∈ indices then source.get (indices.idxOf (index.headD 0) :: index.tail)
        else t.get index⟩
    else
      .error (.runtimeError "Source/destination tensor must have same slice shapes")
  else
    .error .indexError

/-- `t.permute(dims)`: a view whose axis `i` is axis `dims[i]` of the tensor. -/
def permuteDims (t : Tensor α) (dims : List ℕ) : Except PyError (Tensor α) :=
  if dims.Perm (range t.shape.length) then .ok (t.permute dims)
  else .error (.runtimeError "the dims are no permutation of the axes")

/-- `t.reshape(-1, *dims)`: the elements in row-major order; the size `-1` is what the others leave. -/
def reshapeInfer (t : Tensor α) (dims : List ℕ) : Except PyError (Tensor α) :=
  if dims.prod = 0 then
    .error (.runtimeError "the unspecified dimension size -1 can be any value and is ambiguous")
  else if t.shape.prod % dims.prod = 0 then
    .ok (t.reshape (t.shape.prod / dims.prod :: dims))
  else
    .error (.runtimeError "shape is invalid for input of this size")

/-- `t.flatten(first, last)`: these axes become one, in row-major order. -/
def flatten (t : Tensor α) (first last : ℕ) : Tensor α :=
  t.reshape (t.shape.take first ++ ((t.shape.take (last + 1)).drop first).prod ::
    t.shape.drop (last + 1))

end Tensor
