import VllmRuntime.Model.InputBatch
import VllmRuntime.Shared.Segments

/-! # Splitting a batch for attention

`reorder_batch_to_split_decodes_and_prefills` and `split_decodes_and_prefills` of
`vllm/v1/attention/backends/utils.py`. -/

namespace VllmRuntime

open Segments

variable {γ : Type}

/-- The fields of `CommonAttentionMetadata` that are read here. -/
structure CommonAttentionMetadata where
  queryStartLoc : List ℕ
  seqLens : List ℕ
  numReqs : ℕ
  numActualTokens : ℕ
  maxQueryLen : ℕ
  maxSeqLen : ℕ
  blockTable : List (List ℕ)
  slotMapping : List ℤ
  causal : Bool := true
  numComputedTokens : Option (List ℕ) := none
  deriving DecidableEq, Repr

/-! ## Reordering -/

/-- The inner `while` loop, which follows a cycle of the map; `none` if the fuel is used up. -/
def followCycle (src : ℕ) : ℕ → ℕ → OrderedDict ℕ ℕ → InputBatch γ →
    Except PyError (Option (OrderedDict ℕ ℕ × InputBatch γ))
  | 0, _, _, _ => .ok none
  | fuel + 1, dst, srcDestMap, b =>
    if src ≠ dst then do
      let b ← b.swapStates src dst
      let nextDst := (srcDestMap.lookup dst).getD dst
      followCycle src fuel nextDst (dictSet srcDestMap dst dst) b
    else .ok (some (srcDestMap, b))

/-- The `for` loop over the keys of the map, which do not change. -/
def followCycles (fuel : ℕ) : List ℕ → OrderedDict ℕ ℕ → InputBatch γ →
    Except PyError (Option (InputBatch γ))
  | [], _, b => .ok (some b)
  | src :: srcs, srcDestMap, b =>
    match srcDestMap.lookup src with
    | none => .error .keyError
    | some dst => do
      match ← followCycle src fuel dst srcDestMap b with
      | none => return none
      | some (srcDestMap, b) => followCycles fuel srcs srcDestMap b

/-- An entry of `is_prefill`. -/
def isPrefill (numComputed : ℕ) : Bool := numComputed = 0

/-- An entry of `is_decode`. -/
def isDecode (decodeThreshold numScheduled numComputed : ℕ) : Bool :=
  numScheduled ≤ decodeThreshold && !isPrefill numComputed

/-- An entry of `is_extend`. -/
def isExtend (decodeThreshold numScheduled numComputed : ℕ) : Bool :=
  decodeThreshold < numScheduled && !isPrefill numComputed

/-- An entry of `req_regions`. -/
def reqRegion (decodeThreshold numScheduled numComputed : ℕ) : ℕ :=
  if isPrefill numComputed then 2
  else if isExtend decodeThreshold numScheduled numComputed then 1
  else 0

/-- An entry of `target_regions`. -/
def targetRegion (numDecodes numExtends i : ℕ) : ℕ :=
  if numDecodes + numExtends ≤ i then 2 else if numDecodes ≤ i then 1 else 0

/-- `num_scheduled_tokens` of the requests of the batch. -/
def InputBatch.numScheduledTokens (b : InputBatch γ) (numScheduledTokens : OrderedDict String ℕ) :
    Except PyError (List ℕ) :=
  b.reqIds.mapM fun reqId =>
    match reqId.bind fun reqId => numScheduledTokens.lookup reqId with
    | some n => .ok n
    | none => .error .keyError

/-- `reorder_batch_to_split_decodes_and_prefills`; `none` if the fuel of a loop is used up. -/
def reorderBatchToSplitDecodesAndPrefills (fuel : ℕ) (b : InputBatch γ)
    (numScheduledTokens : OrderedDict String ℕ) (decodeThreshold : ℕ) :
    Except PyError (Option (Bool × InputBatch γ)) := do
  let numReqs := b.reqIds.length
  let numScheduled ← b.numScheduledTokens numScheduledTokens
  let numComputed := (List.range numReqs).map b.numComputedTokensCpu
  let reqRegions := List.zipWith (reqRegion decodeThreshold) numScheduled numComputed
  let numDecodes := (List.zipWith (isDecode decodeThreshold) numScheduled numComputed).count true
  let numExtends := (List.zipWith (isExtend decodeThreshold) numScheduled numComputed).count true
  let region i := reqRegions.getD i 0
  let origIndices := (List.range numReqs).filter fun i => region i ≠ targetRegion numDecodes numExtends i
  if origIndices.isEmpty then
    return some (false, b)
  else do
    -- a stable sort by region
    let srcIndices := origIndices.insertionSort fun i j => region i ≤ region j
    let b ← followCycles fuel srcIndices (srcIndices.zip origIndices) b
    return b.map (true, ·)

/-! ## Splitting -/

/-- `split_decodes_and_prefills`: the numbers of decodes and of prefills, and of their tokens. -/
def splitDecodesAndPrefills (metadata : CommonAttentionMetadata) (decodeThreshold : ℕ)
    (requireUniform : Bool) : Except PyError (ℕ × ℕ × ℕ × ℕ) :=
  let numReqs := metadata.numReqs
  let numTokens := metadata.numActualTokens
  if metadata.maxQueryLen ≤ decodeThreshold ∧ (requireUniform = false ∨ decodeThreshold ≤ 1) then
    .ok (numReqs, 0, numTokens, 0)
  else
    let queryLens := List.zipWith (· - ·) metadata.queryStartLoc.tail metadata.queryStartLoc
    match queryLens.head? with
    | none => .error .indexError
    | some first =>
      if decodeThreshold < first then .ok (0, numReqs, 0, numTokens)
      else if requireUniform && queryLens.all fun q => q = first || q = 0 then do
        pyAssert (numReqs * first = numTokens) "tokens not padded correctly"
        return (numReqs, 0, numTokens, 0)
      else
        let isPrefill q := if requireUniform then decide (q ≠ first) else decide (decodeThreshold < q)
        if !queryLens.any isPrefill then .ok (numReqs, 0, numTokens, 0)
        else do
          let firstPrefill := queryLens.findIdx isPrefill
          pyAssert ((queryLens.take firstPrefill).all (· ≤ decodeThreshold))
            "torch.all(query_lens[:first_prefill] <= decode_threshold)"
          match metadata.queryStartLoc[firstPrefill]? with
          | none => .error .indexError
          | some numDecodeTokens =>
            return (firstPrefill, numReqs - firstPrefill, numDecodeTokens, numTokens - numDecodeTokens)

end VllmRuntime
