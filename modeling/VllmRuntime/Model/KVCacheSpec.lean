import VllmRuntime.Model.Base

/-! # KV cache specs

The spec classes of `vllm/v1/kv_cache_interface.py`. Two specs are equal when they have the
same class and the same fields. -/

namespace VllmRuntime

structure TorchDtype where
  name : String
  itemsize : ℕ
  deriving DecidableEq, Repr

structure AttentionSpec where
  blockSize : ℕ
  numKvHeads : ℕ
  headSize : ℕ
  dtype : TorchDtype
  pageSizePadded : Option ℕ := none
  deriving DecidableEq, Repr

structure FullAttentionSpec extends AttentionSpec where
  headSizeV : ℕ := headSize
  slidingWindow : Option ℕ := none
  attentionChunkSize : Option ℕ := none
  deriving DecidableEq, Repr

inductive MambaCacheMode where
  | none
  | all
  | align
  deriving DecidableEq, Repr

structure MambaSpec where
  blockSize : ℕ
  shapes : List (List ℕ)
  dtypes : List TorchDtype
  pageSizePadded : Option ℕ := none
  mambaType : String := "mamba2"
  mambaCacheMode : MambaCacheMode := .none
  numSpeculativeBlocks : ℕ := 0
  deriving DecidableEq, Repr

inductive KVCacheSpec where
  | fullAttention (spec : FullAttentionSpec)
  | mlaAttention (spec : FullAttentionSpec) (cacheDtypeStr : Option String)
  | sinkFullAttention (spec : FullAttentionSpec) (sinkLen : Option ℕ)
  | slidingWindow (spec : AttentionSpec) (slidingWindow : ℕ)
  | chunkedLocalAttention (spec : AttentionSpec) (attentionChunkSize : ℕ)
  | mamba (spec : MambaSpec)
  | crossAttention (spec : AttentionSpec)
  deriving DecidableEq, Repr

namespace KVCacheSpec

def blockSize : KVCacheSpec → ℕ
  | fullAttention spec => spec.blockSize
  | mlaAttention spec _ => spec.blockSize
  | sinkFullAttention spec _ => spec.blockSize
  | slidingWindow spec _ => spec.blockSize
  | chunkedLocalAttention spec _ => spec.blockSize
  | mamba spec => spec.blockSize
  | crossAttention spec => spec.blockSize

/-- `isinstance(spec, FullAttentionSpec)`. -/
def isFullAttention : KVCacheSpec → Bool
  | fullAttention _ => true
  | mlaAttention _ _ => true
  | sinkFullAttention _ _ => true
  | _ => false

/-- `isinstance(manager, CrossAttentionManager)`. -/
def isCrossAttention : KVCacheSpec → Bool
  | crossAttention _ => true
  | _ => false

/-- `isinstance(manager, SinkFullAttentionManager)`. -/
def isSinkFullAttention : KVCacheSpec → Bool
  | sinkFullAttention _ _ => true
  | _ => false

/-- A Mamba spec whose states are kept at block boundaries. -/
def isMambaAlign : KVCacheSpec → Bool
  | mamba spec => spec.mambaCacheMode = .align
  | _ => false

/-- `num_speculative_blocks` of a Mamba spec. -/
def numSpeculativeBlocks : KVCacheSpec → ℕ
  | mamba spec => spec.numSpeculativeBlocks
  | _ => 0

/-- `get_num_skipped_tokens` of the manager class that belongs to the spec. -/
def getNumSkippedTokens (spec : KVCacheSpec) (numComputedTokens : ℕ) : ℤ :=
  match spec with
  | slidingWindow _ window => max 0 ((numComputedTokens : ℤ) - window + 1)
  | chunkedLocalAttention _ chunkSize => (numComputedTokens / chunkSize * chunkSize : ℕ)
  | mamba _ => (numComputedTokens : ℤ) - 1
  | _ => 0

end KVCacheSpec

end VllmRuntime
