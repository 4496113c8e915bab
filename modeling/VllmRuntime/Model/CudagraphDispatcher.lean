import Mathlib.Data.Finset.Insert
import Mathlib.Data.List.Sort
import VllmRuntime.Model.Base

/-! # Dispatching of CUDA graphs

`vllm/v1/cudagraph_dispatcher.py`, with `CUDAGraphMode` and `adjust_cudagraph_sizes_for_spec_decode` of
`vllm/config/compilation.py` and `BatchDescriptor` of `vllm/forward_context.py`. -/

namespace VllmRuntime.Cudagraph

inductive CUDAGraphMode where
  | none
  | piecewise
  | full
  | fullDecodeOnly
  | fullAndPiecewise
  deriving DecidableEq, Repr

namespace CUDAGraphMode

/-- The modes whose value is a pair. -/
def separateRoutine : CUDAGraphMode → Bool
  | fullDecodeOnly | fullAndPiecewise => true
  | _ => false

def decodeMode : CUDAGraphMode → CUDAGraphMode
  | fullDecodeOnly | fullAndPiecewise => full
  | mode => mode

def mixedMode : CUDAGraphMode → CUDAGraphMode
  | fullDecodeOnly => none
  | fullAndPiecewise => piecewise
  | mode => mode

/-- `has_mode(CUDAGraphMode.FULL)`. -/
def hasFull : CUDAGraphMode → Bool
  | full | fullDecodeOnly | fullAndPiecewise => true
  | _ => false

end CUDAGraphMode

structure BatchDescriptor where
  numTokens : ℕ
  numReqs : Option ℕ := none
  uniform : Bool := false
  hasLora : Bool := false
  deriving DecidableEq, Repr

def BatchDescriptor.relaxForMixedBatchCudagraphs (desc : BatchDescriptor) : BatchDescriptor :=
  { numTokens := desc.numTokens, hasLora := desc.hasLora }

/-! ## The configuration -/

structure CompilationConfig where
  cudagraphCaptureSizes : List ℕ
  maxCudagraphCaptureSize : ℕ
  compileSizes : List ℕ := []
  cudagraphSpecializeLora : Bool := true
  /-- `pass_config.enable_sp`. -/
  enableSp : Bool := false
  deriving DecidableEq, Repr

def roundUp (x y : ℕ) : ℕ := cdiv x y * y

/-- `sorted(set(...))`. -/
def sortedSet (sizes : List ℕ) : List ℕ := sizes.dedup.insertionSort (· ≤ ·)

/-- `adjust_cudagraph_sizes_for_spec_decode`. -/
def CompilationConfig.adjustCudagraphSizesForSpecDecode (config : CompilationConfig)
    (uniformDecodeQueryLen tensorParallelSize : ℕ) : Except PyError CompilationConfig :=
  let parallel := decide (1 < tensorParallelSize) && config.enableSp
  let multipleOf := if parallel then max uniformDecodeQueryLen tensorParallelSize else uniformDecodeQueryLen
  if parallel ∧ (multipleOf % uniformDecodeQueryLen ≠ 0 ∨ multipleOf % tensorParallelSize ≠ 0) then
    .error (.valueError
      (s!"Can't determine cudagraph shapes that are both a multiple of {uniformDecodeQueryLen} " ++
        s!"(num_speculative_tokens + 1) required by spec-decode and {tensorParallelSize} " ++
        "(tensor_parallel_size) required by sequence parallelism please adjust " ++
        "num_speculative_tokens or disable sequence parallelism"))
  else if config.cudagraphCaptureSizes = [] ∨ multipleOf ≤ 1 then .ok config
  else
    let roundedSizes := sortedSet
      ((config.cudagraphCaptureSizes.map (roundUp · multipleOf)).filter (· ≤ config.maxCudagraphCaptureSize))
    let roundedSizes :=
      if roundedSizes = [] ∧ multipleOf ≤ config.maxCudagraphCaptureSize then [multipleOf] else roundedSizes
    match roundedSizes.getLast? with
    | none =>
      .error (.valueError
        (s!"No valid cudagraph sizes after rounding to multiple of {multipleOf} " ++
          "(num_speculative_tokens + 1 or tp if sequence parallelism is enabled) please adjust " ++
          s!"num_speculative_tokens ({uniformDecodeQueryLen - 1}) or " ++
          s!"max_cudagraph_capture_size ({config.maxCudagraphCaptureSize}) or " ++
          s!"cudagraph_capture_sizes ({config.cudagraphCaptureSizes})"))
    | some last =>
      .ok { config with maxCudagraphCaptureSize := last, cudagraphCaptureSizes := roundedSizes }

/-! ## The dispatcher -/

structure CudagraphDispatcher where
  compilationConfig : CompilationConfig
  maxNumSeqs : ℕ
  /-- `vllm_config.lora_config` is set. -/
  loraConfig : Bool
  uniformDecodeQueryLen : ℕ
  cudagraphKeys : CUDAGraphMode → Finset BatchDescriptor := fun _ => ∅
  keysInitialized : Bool := false
  cudagraphMode : CUDAGraphMode := .none
  bsToPaddedGraphSize : List ℕ := []

/-- `table[bs] = size`. -/
def setSize (table : List ℕ) (bs size : ℕ) : Except PyError (List ℕ) :=
  if bs < table.length then .ok (table.set bs size) else .error .indexError

/-- The inner loop of `_compute_bs_to_padded_graph_size`. -/
def padRange (table : List ℕ) (start stop : ℕ) : Except PyError (List ℕ) :=
  (List.range' start (stop - start)).foldlM
    (fun table bs => setSize table bs (if bs = start then start else stop)) table

/-- The table of `_compute_bs_to_padded_graph_size`. -/
def computeBsToPaddedGraphSize (captureSizes : List ℕ) (maxSize : ℕ) : Except PyError (List ℕ) :=
  ((captureSizes ++ [maxSize + 1]).zip (0 :: captureSizes)).foldlM
    (fun table range => padRange table range.2 range.1) (List.replicate (maxSize + 1) 0)

/-- The check of `_compute_bs_to_padded_graph_size` for one of the `compile_sizes`. -/
def checkCompileSize (table : List ℕ) (maxSize size : ℕ) : Except PyError Unit :=
  if size ≤ maxSize then
    match table[size]? with
    | none => .error .indexError
    | some padded =>
      if padded ≠ size then
        .error (.valueError
          (s!"compile_sizes contains {size} which would be padded to {padded}. " ++
            "All compile_sizes must be values that won't be changed by cudagraph padding. " ++
            "Use values from cudagraph_capture_sizes."))
      else .ok ()
  else .ok ()

namespace CudagraphDispatcher

/-- `_compute_bs_to_padded_graph_size`. -/
def computePadding (d : CudagraphDispatcher) : Except PyError CudagraphDispatcher := do
  let config := d.compilationConfig
  let table ← computeBsToPaddedGraphSize config.cudagraphCaptureSizes config.maxCudagraphCaptureSize
  if d.cudagraphMode ≠ .none then
    config.compileSizes.forM (checkCompileSize table config.maxCudagraphCaptureSize)
  return { d with bsToPaddedGraphSize := table }

/-- `_create_padded_batch_descriptor`. -/
def createPaddedBatchDescriptor (d : CudagraphDispatcher) (numTokens : ℕ) (uniformDecode hasLora : Bool) :
    Except PyError BatchDescriptor :=
  match d.bsToPaddedGraphSize[numTokens]? with
  | none => .error .indexError
  | some numTokensPadded =>
    if uniformDecode && d.cudagraphMode.hasFull then
      if numTokensPadded % d.uniformDecodeQueryLen = 0 then
        .ok { numTokens := numTokensPadded, numReqs := some (numTokensPadded / d.uniformDecodeQueryLen),
              uniform := true, hasLora }
      else .error (.assertionError "")
    else
      .ok { numTokens := numTokensPadded, numReqs := some (min numTokensPadded d.maxNumSeqs),
            uniform := false, hasLora }

/-- `add_cudagraph_key`. -/
def addCudagraphKey (d : CudagraphDispatcher) (runtimeMode : CUDAGraphMode) (desc : BatchDescriptor) :
    Except PyError CudagraphDispatcher :=
  if runtimeMode = .piecewise ∨ runtimeMode = .full then
    .ok { d with cudagraphKeys :=
      Function.update d.cudagraphKeys runtimeMode (insert desc (d.cudagraphKeys runtimeMode)) }
  else .error (.assertionError "Invalid cudagraph runtime mode for keys")

/-- `lora_cases`. -/
def loraCases (d : CudagraphDispatcher) : List Bool :=
  if d.loraConfig then if d.compilationConfig.cudagraphSpecializeLora then [true, false] else [true] else [false]

/-- The keys for batches of any kind. -/
def addMixedKeys (d : CudagraphDispatcher) (cudagraphMode : CUDAGraphMode) : Except PyError CudagraphDispatcher :=
  if cudagraphMode.mixedMode ≠ .none then
    (d.compilationConfig.cudagraphCaptureSizes.product d.loraCases).foldlM (fun d case => do
      let desc ← d.createPaddedBatchDescriptor case.1 false case.2
      d.addCudagraphKey cudagraphMode.mixedMode desc.relaxForMixedBatchCudagraphs) d
  else .ok d

/-- The keys for uniform decode batches. -/
def addDecodeKeys (d : CudagraphDispatcher) (cudagraphMode : CUDAGraphMode) (uniformDecodeQueryLen : ℕ) :
    Except PyError CudagraphDispatcher :=
  if cudagraphMode.decodeMode = .full ∧ cudagraphMode.separateRoutine then
    let maxNumTokens := uniformDecodeQueryLen * d.maxNumSeqs
    let captureSizes := d.compilationConfig.cudagraphCaptureSizes.filter fun x =>
      x ≤ maxNumTokens && uniformDecodeQueryLen ≤ x
    (captureSizes.product d.loraCases).foldlM (fun d case => do
      let desc ← d.createPaddedBatchDescriptor case.1 true case.2
      d.addCudagraphKey .full desc) d
  else .ok d

def initializeCudagraphKeys (d : CudagraphDispatcher) (cudagraphMode : CUDAGraphMode)
    (uniformDecodeQueryLen : ℕ) : Except PyError CudagraphDispatcher :=
  let d := { d with cudagraphMode }
  if cudagraphMode = .none then .ok { d with keysInitialized := true }
  else do
    let d ← d.computePadding
    let d ← d.addMixedKeys cudagraphMode
    let d ← d.addDecodeKeys cudagraphMode uniformDecodeQueryLen
    return { d with keysInitialized := true }

def dispatch (d : CudagraphDispatcher) (numTokens : ℕ) (uniformDecode hasLora disableFull : Bool) :
    Except PyError (CUDAGraphMode × BatchDescriptor) :=
  if ¬d.keysInitialized ∨ d.cudagraphMode = .none ∨ d.compilationConfig.maxCudagraphCaptureSize < numTokens then
    .ok (.none, { numTokens })
  else do
    let batchDesc ← d.createPaddedBatchDescriptor numTokens uniformDecode hasLora
    let relaxedBatchDesc := batchDesc.relaxForMixedBatchCudagraphs
    if ¬disableFull ∧ batchDesc ∈ d.cudagraphKeys .full then return (.full, batchDesc)
    else if ¬disableFull ∧ relaxedBatchDesc ∈ d.cudagraphKeys .full then return (.full, relaxedBatchDesc)
    else if relaxedBatchDesc ∈ d.cudagraphKeys .piecewise then return (.piecewise, relaxedBatchDesc)
    else return (.none, { numTokens })

end CudagraphDispatcher

end VllmRuntime.Cudagraph
