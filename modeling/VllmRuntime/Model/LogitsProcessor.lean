import VllmRuntime.Model.InputBatch

/-! # Built-in logits processors

`vllm/v1/sample/logits_processor/builtin.py`: how the state of each processor follows the changes of
the batch. The tensors that `apply` uses are copies of this state. -/

namespace VllmRuntime

open Function

/-- What `get_and_reset` returns, apart from the size of the batch. -/
structure BatchUpdate where
  removed : List ℕ
  moved : List (ℕ × ℕ × MoveDirectionality)
  added : List AddedRequest
  deriving DecidableEq, Repr

def BatchUpdateBuilder.batchUpdate (builder : BatchUpdateBuilder) : Option BatchUpdate :=
  if builder.removed.isEmpty ∧ builder.moved.isEmpty ∧ builder.added.isEmpty then none
  else some ⟨builder.removed, builder.moved, builder.added⟩

/-! ## Min-p -/

structure MinPLogitsProcessor where
  minPCount : ℤ := 0
  minPCpu : ℕ → ℚ := fun _ => 0

namespace MinPLogitsProcessor

/-- An added request. The entry is a `numpy.float32`, to which the parameter is rounded when the two are
compared. -/
def addRequest (float32 : ℚ → ℚ) (p : MinPLogitsProcessor) (added : AddedRequest) : MinPLogitsProcessor :=
  let minP := added.params.minP
  let minPBefore := p.minPCpu added.index
  if minPBefore ≠ float32 minP then
    { minPCpu := update p.minPCpu added.index (float32 minP)
      minPCount :=
        if minP ≠ 0 ∧ minPBefore = 0 then p.minPCount + 1
        else if minP = 0 ∧ minPBefore ≠ 0 then p.minPCount - 1
        else p.minPCount }
  else p

def removeRequest (p : MinPLogitsProcessor) (index : ℕ) : MinPLogitsProcessor :=
  if p.minPCpu index ≠ 0 then
    { minPCpu := update p.minPCpu index 0
      minPCount := p.minPCount - 1 }
  else p

def moveRequest (p : MinPLogitsProcessor) (move : ℕ × ℕ × MoveDirectionality) : MinPLogitsProcessor :=
  let (adx, bdx, direct) := move
  let minPA := p.minPCpu adx
  let minPB := p.minPCpu bdx
  let p :=
    if minPA ≠ minPB then
      { p with minPCpu :=
          let minPCpu := update p.minPCpu bdx minPA
          if direct = .swap then update minPCpu adx minPB else minPCpu }
    else p
  if direct = .unidirectional then
    { minPCpu := if minPA ≠ 0 then update p.minPCpu adx 0 else p.minPCpu
      minPCount := if minPB ≠ 0 then p.minPCount - 1 else p.minPCount }
  else p

def updateState (float32 : ℚ → ℚ) (p : MinPLogitsProcessor) : Option BatchUpdate → MinPLogitsProcessor
  | none => p
  | some update =>
    let p := update.added.foldl (addRequest float32) p
    if p.minPCount ≠ 0 then update.moved.foldl moveRequest (update.removed.foldl removeRequest p)
    else p

end MinPLogitsProcessor

/-! ## Processors with a dictionary -/

section

variable {τ : Type}

/-- The move of the entries of two indices. -/
def moveEntry (entries : OrderedDict ℕ τ) (move : ℕ × ℕ × MoveDirectionality) : OrderedDict ℕ τ :=
  let (aIndex, bIndex, direct) := move
  let aEntry := entries.lookup aIndex
  let entries := dictPop entries aIndex
  let bEntry := entries.lookup bIndex
  let entries := dictPop entries bIndex
  let entries := match aEntry with
    | some aEntry => dictSet entries bIndex aEntry
    | none => entries
  match bEntry with
  | some bEntry => if direct = .swap then dictSet entries aIndex bEntry else entries
  | none => entries

/-- The entry of an added request. -/
def addEntry (newState : AddedRequest → Option τ) (entries : OrderedDict ℕ τ) (added : AddedRequest) :
    OrderedDict ℕ τ :=
  match newState added with
  | some state => dictSet entries added.index state
  | none => dictPop entries added.index

/-- `process_dict_updates`, without the flag that says whether anything was updated. -/
def processDictUpdates (entries : OrderedDict ℕ τ) (newState : AddedRequest → Option τ) :
    Option BatchUpdate → OrderedDict ℕ τ
  | none => entries
  | some update =>
    let entries := update.added.foldl (addEntry newState) entries
    if entries.isEmpty then entries
    else update.moved.foldl moveEntry (update.removed.foldl dictPop entries)

end

/-- `LogitBiasLogitsProcessor`: the state of an added request is its bias, if it is not empty. -/
def logitBiasState (added : AddedRequest) : Option (OrderedDict ℕ ℚ) :=
  if added.params.logitBias.isEmpty then none else some added.params.logitBias

/-- An entry of `MinTokensLogitsProcessor`: the minimum, the list of the output and the stop tokens. -/
structure MinTokens where
  minTokens : ℕ
  outputList : ℕ
  stopTokenIds : List ℕ
  deriving DecidableEq, Repr

namespace MinTokens

/-- `MinTokensLogitsProcessor.add_request`, for the lengths that the lists have now. -/
def addRequest (length : ℕ → ℕ) (added : AddedRequest) : Option MinTokens :=
  let minTokens := added.params.minTokens
  if minTokens = 0 ∨ minTokens ≤ length added.outputList then none
  else some ⟨minTokens, added.outputList, added.params.allStopTokenIds⟩

/-- `MinTokensLogitsProcessor.update_state`: at the end the requests that have their minimum are dropped. -/
def updateState (length : ℕ → ℕ) (minToks : OrderedDict ℕ MinTokens) (update : Option BatchUpdate) :
    OrderedDict ℕ MinTokens :=
  (processDictUpdates minToks (addRequest length) update).filter fun entry =>
    length entry.2.outputList < entry.2.minTokens

end MinTokens

/-- The states of the built-in processors. -/
structure LogitsProcessors where
  minP : MinPLogitsProcessor := {}
  biases : OrderedDict ℕ (OrderedDict ℕ ℚ) := []
  minToks : OrderedDict ℕ MinTokens := []

/-- The updates of `refresh_metadata`. -/
def LogitsProcessors.updateState (float32 : ℚ → ℚ) (length : ℕ → ℕ) (p : LogitsProcessors)
    (update : Option BatchUpdate) : LogitsProcessors where
  minP := p.minP.updateState float32 update
  biases := processDictUpdates p.biases logitBiasState update
  minToks := MinTokens.updateState length p.minToks update

end VllmRuntime
