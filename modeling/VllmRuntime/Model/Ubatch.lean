import VllmRuntime.Model.AttentionBackends

/-! # Micro-batches

`vllm/v1/worker/ubatch_utils.py`. The copies of `query_start_loc` and `seq_lens` on the host have the values of
those on the device, so there is one of each. -/

namespace VllmRuntime

open Segments

/-- `slice(start, stop)`. -/
structure Slice where
  start : ℕ
  stop : ℕ
  deriving DecidableEq, Repr

/-- `xs[start:stop]`. -/
def Slice.get {α : Type*} (s : Slice) (xs : List α) : List α := (xs.take s.stop).drop s.start

structure UBatchSlice where
  requestSlice : Slice
  tokenSlice : Slice
  deriving DecidableEq, Repr

namespace UBatchSlice

def isEmpty (s : UBatchSlice) : Bool :=
  s.requestSlice.start = s.requestSlice.stop || s.tokenSlice.start = s.tokenSlice.stop

def numTokens (s : UBatchSlice) : ℤ := s.tokenSlice.stop - s.tokenSlice.start

/-- `repr`. -/
def repr (s : UBatchSlice) : String :=
  s!"UBatchSlice(request_slice=slice({s.requestSlice.start}, {s.requestSlice.stop}, None), " ++
    s!"token_slice=slice({s.tokenSlice.start}, {s.tokenSlice.stop}, None))"

end UBatchSlice

def isLastUbatchEmpty (origNumTokens paddedNumTokens numUbatches : ℕ) : Bool :=
  origNumTokens ≤ paddedNumTokens / numUbatches * (numUbatches - 1)

/-- `np.searchsorted(xs, v, side="left")` of a sorted array: `xs[i - 1] < v <= xs[i]`. -/
def searchsortedLeft (xs : List ℕ) (v : ℕ) : ℕ := xs.findIdx (v ≤ ·)

/-- `np.searchsorted(xs, v, side="right")` of a sorted array: `xs[i - 1] <= v < xs[i]`. -/
def searchsortedRight (xs : List ℕ) (v : ℕ) : ℕ := xs.findIdx (v < ·)

/-- `_pad_out_ubatch_slices`. -/
def padOutUbatchSlices (ubatchSlices : List UBatchSlice) (numTotalTokens numReqsPadded : ℕ) : List UBatchSlice :=
  match ubatchSlices.getLast? with
  | none => []
  | some lastSlice =>
    ubatchSlices.dropLast ++ [⟨⟨lastSlice.requestSlice.start, numReqsPadded⟩,
      ⟨lastSlice.tokenSlice.start, numTotalTokens⟩⟩]

/-- The loop over `all_points`. -/
def slicesTo (cuNumTokens : List ℕ) (startToken : ℕ) : List ℕ → List UBatchSlice
  | [] => []
  | endToken :: points =>
    let reqStart := searchsortedRight cuNumTokens startToken - 1
    let reqStop := searchsortedLeft cuNumTokens endToken
    ⟨⟨reqStart, reqStop⟩, ⟨startToken, endToken⟩⟩ :: slicesTo cuNumTokens endToken points

/-- The distance of two split points. -/
def splitPointOf (numTokensPadded numUbatches : ℕ) : Option ℕ → Except PyError ℕ
  | some splitPoint => .ok splitPoint
  | none => if numUbatches = 0 then .error .zeroDivisionError else .ok (numTokensPadded / numUbatches)

/-- `maybe_create_ubatch_slices`. -/
def maybeCreateUbatchSlices (shouldUbatch : Bool) (numScheduledTokens : List ℕ)
    (numTokensPadded numReqsPadded numUbatches : ℕ) (splitPoint : Option ℕ) :
    Except PyError (Option (List UBatchSlice × List UBatchSlice)) :=
  if !shouldUbatch then .ok none
  else do
    let splitPoint ← splitPointOf numTokensPadded numUbatches splitPoint
    let tokenSplitPoints := (List.range' 1 (numUbatches - 1)).map (splitPoint * ·)
    let cuNumTokens := 0 :: cumsum numScheduledTokens
    let allPoints := tokenSplitPoints ++ [cuNumTokens.getLastD 0]
    let ubatchSlices := slicesTo cuNumTokens 0 allPoints
    let ubatchSlicesPadded := padOutUbatchSlices ubatchSlices numTokensPadded numReqsPadded
    pyAssert (decide ((ubatchSlicesPadded.map (·.numTokens)).sum = numTokensPadded)) ""
    return some (ubatchSlices, ubatchSlicesPadded)

/-- `slice_query_start_locs`, with the location of the first request of the slice. -/
def sliceQueryStartLocs (queryStartLoc : List ℕ) (requestSlice : Slice) (first : ℕ) : List ℕ :=
  (Slice.get ⟨requestSlice.start, requestSlice.stop + 1⟩ queryStartLoc).map (· - first)

/-- `xs[1:] -= n`. -/
def subtractAfterFirst (n : ℕ) : List ℕ → List ℕ
  | [] => []
  | x :: xs => x :: xs.map (· - n)

/-- `xs[-1] -= n`. -/
def subtractLast (n : ℕ) (xs : List ℕ) : List ℕ := xs.modify (xs.length - 1) (· - n)

/-- `torch.max(torch.abs(xs[1:] - xs[:-1]))`. -/
def maxDistance (xs : List ℕ) : ℕ := (List.zipWith (fun (y x : ℕ) => ((y : ℤ) - x).natAbs) xs.tail xs).foldr max 0

/-- `num_computed_tokens_cpu`. -/
def CommonAttentionMetadata.numComputedTokensCpu (metadata : CommonAttentionMetadata) : List ℕ :=
  metadata.numComputedTokens.getD
    (List.zipWith (· - ·) metadata.seqLens
      (List.zipWith (· - ·) metadata.queryStartLoc.tail metadata.queryStartLoc))

/-- `start_locs[first_req] <= first_tok < start_locs[first_req + 1]`, with the location of the first request. -/
def firstRequestLoc (startLocs : List ℕ) (firstReq firstTok : ℕ) : Except PyError ℕ :=
  match startLocs[firstReq]? with
  | none => .error .indexError
  | some first =>
    if first ≤ firstTok then
      match startLocs[firstReq + 1]? with
      | none => .error .indexError
      | some next => do
        pyAssert (decide (firstTok < next)) "Token slice start outside of first request"
        return first
    else .error (.assertionError "Token slice start outside of first request")

/-- `_make_metadata_with_slice`. The subtractions are of what was added up before, so no result is negative. -/
def makeMetadataWithSlice (ubatchSlice : UBatchSlice) (attnMetadata : CommonAttentionMetadata) :
    Except PyError CommonAttentionMetadata := do
  pyAssert (!ubatchSlice.isEmpty) s!"Ubatch slice {ubatchSlice.repr} is empty"
  let requestSlice := ubatchSlice.requestSlice
  let tokenSlice := ubatchSlice.tokenSlice
  let startLocs := attnMetadata.queryStartLoc
  let firstTok := tokenSlice.start
  let first ← firstRequestLoc startLocs requestSlice.start firstTok
  -- `last_req + 1` is the end of the slice.
  match startLocs[requestSlice.stop]? with
  | none => .error .indexError
  | some last =>
    let splitsFirstRequest := first < firstTok
    let splitsLastRequest := (tokenSlice.stop : ℤ) - 1 < (last : ℤ) - 1
    let queryStartLoc := sliceQueryStartLocs startLocs requestSlice first
    pyAssert (decide (2 ≤ queryStartLoc.length))
      s!"query_start_loc must have at least 2 elements, got {queryStartLoc.length}"
    let queryStartLoc :=
      if splitsFirstRequest then subtractAfterFirst (firstTok - first) queryStartLoc else queryStartLoc
    let seqLens := requestSlice.get attnMetadata.seqLens
    let queryStartLoc := if splitsLastRequest then subtractLast (last - tokenSlice.stop) queryStartLoc else queryStartLoc
    let seqLens := if splitsLastRequest then subtractLast (last - tokenSlice.stop) seqLens else seqLens
    match seqLens.max? with
    | none => .error (.runtimeError "max(): Expected reduction dim to be specified for input.numel() == 0.")
    | some maxSeqLen =>
      let maxQueryLen := maxDistance queryStartLoc
      return {
        queryStartLoc
        seqLens
        numReqs := requestSlice.stop - requestSlice.start
        numActualTokens := tokenSlice.stop - tokenSlice.start
        maxQueryLen := if maxQueryLen = 0 then attnMetadata.maxQueryLen else maxQueryLen
        maxSeqLen
        blockTable := requestSlice.get attnMetadata.blockTable
        slotMapping := tokenSlice.get attnMetadata.slotMapping
        numComputedTokens := some (requestSlice.get attnMetadata.numComputedTokensCpu) }

/-- `split_attn_metadata`. -/
def splitAttnMetadata (ubatchSlices : List UBatchSlice) (commonAttnMetadata : CommonAttentionMetadata) :
    Except PyError (List CommonAttentionMetadata) :=
  ubatchSlices.mapM fun ubatchSlice => makeMetadataWithSlice ubatchSlice commonAttnMetadata

end VllmRuntime
