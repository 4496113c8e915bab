import VllmRuntime.Model.RequestQueue

/-! # Incremental detokenization

`vllm/v1/engine/detokenizer.py`: `IncrementalDetokenizer`, `BaseIncrementalDetokenizer` and
`check_stop_strings`. What the tokenizer makes of the next token is a parameter. -/

namespace VllmRuntime.Frontend

/-- A Python string. -/
abbrev Text := List Char

/-- `text.find(sub, start)`; `none` is -1. -/
def pyFind (text sub : Text) (start : ℤ) : Option ℕ :=
  let first := if start < 0 then (text.length + start).toNat else start.toNat
  (List.range (text.length + 1)).find? fun i => decide (first ≤ i) && sub.isPrefixOf (text.drop i)

/-- `check_stop_strings`; the offset is `none` for -1. -/
def checkStopStrings (outputText : Text) (newCharCount : ℕ) (stop : List Text) (includeInOutput : Bool) :
    Option (Text × Option ℕ) :=
  if newCharCount = 0 ∨ stop = [] then none
  else
    stop.findSome? fun stopStr =>
      match pyFind outputText stopStr (1 - newCharCount - stopStr.length) with
      | none => none
      | some stopIndex =>
        if includeInOutput then
          let stopIndex := stopIndex + stopStr.length
          if outputText.length ≤ stopIndex then some (stopStr, none) else some (stopStr, some stopIndex)
        else some (stopStr, some stopIndex)

/-- The fields that `BaseIncrementalDetokenizer` adds, with what the tokenizer keeps between tokens. -/
structure TextState (σ : Type) where
  stop : List Text
  minTokens : ℕ
  includeStopStrInOutput : Bool
  stopBufferLength : ℕ
  lastOutputTextOffset : ℕ := 0
  outputText : Text := []
  decodeState : σ

/-- A detokenizer. Without a tokenizer there is no text; the slow detokenizer has the prompt in front of
its tokens. -/
structure IncrementalDetokenizer (σ : Type) where
  tokenIds : List TokenId
  promptLen : ℕ
  text : Option (TextState σ)

namespace IncrementalDetokenizer

variable {σ : Type}

def outputTokenIds (d : IncrementalDetokenizer σ) : List TokenId := d.tokenIds.drop d.promptLen

/-- The text so far; empty without a tokenizer. -/
def outputText (d : IncrementalDetokenizer σ) : Text := (d.text.map (·.outputText)).getD []

end IncrementalDetokenizer

section Update

variable {σ : Type} (decodeNext : σ → TokenId → Text × σ)

/-- One turn of the loop of `update`: the tokens, the text and `stop_check_offset`. -/
def decodeToken (promptLen : ℕ) (state : List TokenId × TextState σ × ℕ) (newTokenId : TokenId) :
    List TokenId × TextState σ × ℕ :=
  let (tokenIds, text, stopCheckOffset) := state
  let tokenIds := tokenIds ++ [newTokenId]
  let (decoded, decodeState) := decodeNext text.decodeState newTokenId
  let text := { text with outputText := text.outputText ++ decoded, decodeState }
  let stopCheckOffset :=
    if text.minTokens ≠ 0 ∧ (tokenIds.drop promptLen).length ≤ text.minTokens then text.outputText.length
    else stopCheckOffset
  (tokenIds, text, stopCheckOffset)

/-- `update`; returns the stop string that was matched. -/
def IncrementalDetokenizer.update (d : IncrementalDetokenizer σ) (newTokenIds : List TokenId)
    (stopTerminated : Bool) : IncrementalDetokenizer σ × Option Text :=
  match d.text with
  | none => ({ d with tokenIds := d.tokenIds ++ newTokenIds }, none)
  | some text =>
    if newTokenIds = [] then (d, none)
    else
      let skips := stopTerminated && !text.includeStopStrInOutput
      let skippedStopTokenId := if skips then newTokenIds.getLast? else none
      let newTokenIds := if skips then newTokenIds.dropLast else newTokenIds
      let (tokenIds, text, stopCheckOffset) :=
        newTokenIds.foldl (decodeToken decodeNext d.promptLen) (d.tokenIds, text, text.outputText.length)
      let tokenIds := tokenIds ++ skippedStopTokenId.toList
      let stop :=
        if text.stop ≠ [] ∧ text.minTokens < (tokenIds.drop d.promptLen).length then
          checkStopStrings text.outputText (text.outputText.length - stopCheckOffset) text.stop
            text.includeStopStrInOutput
        else none
      let text := match stop with
        | some (_, some truncateTo) => { text with outputText := text.outputText.take truncateTo }
        | _ => text
      ({ d with tokenIds, text := some text }, stop.map (·.1))

end Update

/-- `get_next_output_text`. -/
def IncrementalDetokenizer.getNextOutputText {σ : Type} (d : IncrementalDetokenizer σ)
    (finished delta : Bool) : IncrementalDetokenizer σ × Text :=
  match d.text with
  | none => (d, [])
  | some text =>
    let bufferLength := if finished then 0 else text.stopBufferLength
    let length := text.outputText.length - bufferLength
    if !delta then (d, text.outputText.take length)
    else
      let lastOffset := text.lastOutputTextOffset
      if lastOffset < length then
        ({ d with text := some { text with lastOutputTextOffset := length } },
          (text.outputText.take length).drop lastOffset)
      else (d, [])

end VllmRuntime.Frontend
