import VllmRuntime.Model.KVCacheConfigs

/-! # Merging KV cache specs

`merge` and `page_size_bytes` of the spec classes of `vllm/v1/kv_cache_interface.py`, and
`is_kv_cache_spec_uniform` for layers of any of these classes. -/

namespace VllmRuntime

/-- `page_size_bytes`: the size that is padded to, if it is not too small. -/
def paddedPageSize (pageSizePadded : Option ℕ) (realPageSize : ℕ) (message : String) : Except PyError ℕ :=
  match pageSizePadded with
  | none => .ok realPageSize
  | some pageSizePadded => do
    pyAssert (pageSizePadded ≥ realPageSize) message
    return pageSizePadded

def AttentionSpec.realPageSizeBytes (spec : AttentionSpec) : ℕ :=
  2 * spec.blockSize * spec.numKvHeads * spec.headSize * spec.dtype.itemsize

/-- `MLAAttentionSpec.real_page_size_bytes`. -/
def FullAttentionSpec.mlaPageSizeBytes (spec : FullAttentionSpec) (cacheDtypeStr : Option String) : ℕ :=
  if cacheDtypeStr = some "fp8_ds_mla" then spec.blockSize * 656
  else spec.blockSize * spec.numKvHeads * spec.headSize * spec.dtype.itemsize

/-- The size of the states. -/
def MambaSpec.stateBytes (spec : MambaSpec) : ℕ :=
  ((spec.shapes.zip spec.dtypes).map fun state => state.1.prod * state.2.itemsize).sum

namespace KVCacheSpec

def pageSizeBytes : KVCacheSpec → Except PyError ℕ
  | fullAttention spec | sinkFullAttention spec _ => spec.pageSizeBytes
  | mlaAttention spec cacheDtypeStr => paddedPageSize spec.pageSizePadded
      (spec.mlaPageSizeBytes cacheDtypeStr) "self.page_size_padded >= real_page_size"
  | slidingWindow spec _ | chunkedLocalAttention spec _ | crossAttention spec =>
    paddedPageSize spec.pageSizePadded spec.realPageSizeBytes "self.page_size_padded >= real_page_size"
  | mamba spec => paddedPageSize spec.pageSizePadded spec.stateBytes "self.page_size_padded >= page_size"

/-- The fields of a `FullAttentionSpec`, if it is one. -/
def asFullAttention : KVCacheSpec → Option FullAttentionSpec
  | fullAttention spec | sinkFullAttention spec _ | mlaAttention spec _ => some spec
  | _ => none

/-- `isinstance(spec, MLAAttentionSpec)`. -/
def isMlaAttention : KVCacheSpec → Bool
  | mlaAttention _ _ => true
  | _ => false

/-- The fields of an `MLAAttentionSpec`, if it is one. -/
def asMlaAttention : KVCacheSpec → Option (FullAttentionSpec × Option String)
  | mlaAttention spec cacheDtypeStr => some (spec, cacheDtypeStr)
  | _ => none

/-- What `FullAttentionSpec.merge` and `SinkFullAttentionSpec.merge` share. -/
def mergeFullAttention (specs : List KVCacheSpec) : Except PyError FullAttentionSpec :=
  match specs.mapM asFullAttention with
  | none => .error (.assertionError
      "All attention layers in the same KV cache group must be FullAttentionSpec.")
  | some fullSpecs => do
    pyAssert (!specs.any isMlaAttention) "MLAAttentionSpec should be merged in MLAAttentionSpec.merge"
    FullAttentionSpec.merge fullSpecs

/-- `MLAAttentionSpec.merge`: the fields of the first layer, but for the ones that only other classes
use. -/
def mergeMlaAttention (specs : List KVCacheSpec) : Except PyError KVCacheSpec :=
  match specs.mapM asMlaAttention with
  | none => .error (.assertionError
      "All attention layers in the same KV cache group must be MLAAttentionSpec.")
  | some [] => .error .indexError
  | some ((first, cacheDtypeStr) :: mlaSpecs) => do
    pyAssert (mlaSpecs.all fun spec => spec.2 = cacheDtypeStr)
      "All attention layers in the same KV cache group must use the same quantization method."
    return mlaAttention { toAttentionSpec := first.toAttentionSpec } cacheDtypeStr

/-- `specs[0].merge(specs)`. -/
def merge (specs : List KVCacheSpec) : Except PyError KVCacheSpec :=
  match specs with
  | [] => .error .indexError
  | fullAttention _ :: _ => do
    let spec ← mergeFullAttention specs
    return fullAttention spec
  | sinkFullAttention _ sinkLen :: _ => do
    let spec ← mergeFullAttention specs
    return sinkFullAttention spec sinkLen
  | mlaAttention _ _ :: _ => mergeMlaAttention specs
  | first :: rest => do
    pyAssert (rest.all fun spec => spec = first)
      "All layers in the same KV cache group must be the same."
    return first

/-- `is_kv_cache_spec_uniform`: only a failed assertion means that the specs differ. -/
def isKvCacheSpecUniform (kvCacheSpec : List (String × KVCacheSpec)) : Except PyError Bool :=
  if kvCacheSpec.isEmpty then
    .ok true
  else
    match merge (kvCacheSpec.map Prod.snd) with
    | .ok _ => .ok true
    | .error (.assertionError _) => .ok false
    | .error e => .error e

end KVCacheSpec

end VllmRuntime
