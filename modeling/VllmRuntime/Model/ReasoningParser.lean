import VllmRuntime.Model.Detokenizer

/-! # Reasoning parsers

`vllm/reasoning/basic_parsers.py`: `BaseThinkingReasoningParser`;
`vllm/reasoning/deepseek_r1_reasoning_parser.py`: `DeepSeekR1ReasoningParser`. Of a delta the parsers read its
text and its token ids and the token ids before it. -/

namespace VllmRuntime.Frontend

/-- `DeltaMessage`. -/
structure DeltaMessage where
  reasoning : Option Text := none
  content : Option Text := none
  deriving DecidableEq, Repr

/-- `text.find(sub)`. -/
def find (text sub : Text) : ℤ :=
  match pyFind text sub 0 with
  | some i => i
  | none => -1

/-- The place of a bound of a slice. -/
def sliceBound (text : Text) (i : ℤ) : ℕ := if i < 0 then (text.length + i).toNat else i.toNat

/-- `text[start:stop]`. -/
def slice (text : Text) (start stop : ℤ) : Text := (text.take (sliceBound text stop)).drop (sliceBound text start)

/-- `text.partition(sep)`. -/
def pyPartition (text sep : Text) : Text × Text × Text :=
  match pyFind text sep 0 with
  | some i => (text.take i, sep, text.drop (i + sep.length))
  | none => (text, [], [])

/-- `text or None`. -/
def orNone (text : Text) : Option Text := if text = [] then none else some text

/-- `BaseThinkingReasoningParser`. -/
structure BaseThinkingReasoningParser where
  startToken : Text
  endToken : Text
  startTokenId : TokenId
  endTokenId : TokenId

namespace BaseThinkingReasoningParser

variable (parser : BaseThinkingReasoningParser)

/-- The message of a delta with the end token: `delta_text` is cut from a point up to the token, and after it. -/
def cutAtEnd (deltaText : Text) (start : ℤ) : DeltaMessage :=
  let endIndex := find deltaText parser.endToken
  { reasoning := some (slice deltaText start endIndex)
    content := orNone (slice deltaText (endIndex + parser.endToken.length) deltaText.length) }

/-- `extract_reasoning_streaming`. -/
def extractReasoningStreaming (deltaText : Text) (previousTokenIds deltaTokenIds : List TokenId) :
    Option DeltaMessage :=
  if deltaTokenIds = [parser.startTokenId] ∨ deltaTokenIds = [parser.endTokenId] then none
  else if parser.startTokenId ∈ previousTokenIds then
    if parser.endTokenId ∈ deltaTokenIds then some (parser.cutAtEnd deltaText 0)
    else if parser.endTokenId ∈ previousTokenIds then some { content := some deltaText }
    else some { reasoning := some deltaText }
  else if parser.startTokenId ∈ deltaTokenIds then
    if parser.endTokenId ∈ deltaTokenIds then
      some (parser.cutAtEnd deltaText (find deltaText parser.startToken + parser.startToken.length))
    else some { reasoning := some deltaText }
  else some { content := some deltaText }

/-- `extract_reasoning`: the reasoning and the content. -/
def extractReasoning (modelOutput : Text) : Option Text × Option Text :=
  let modelOutputParts := pyPartition modelOutput parser.startToken
  let modelOutput := if modelOutputParts.2.1 ≠ [] then modelOutputParts.2.2 else modelOutputParts.1
  if (pyFind modelOutput parser.endToken 0).isNone then (some modelOutput, none)
  else
    let parts := pyPartition modelOutput parser.endToken
    (some parts.1, orNone parts.2.2)

end BaseThinkingReasoningParser

namespace DeepSeekR1ReasoningParser

/-- The parser with the ids that the vocabulary has for its tokens. -/
def new (startTokenId endTokenId : TokenId) : BaseThinkingReasoningParser where
  startToken := "<think>".toList
  endToken := "</think>".toList
  startTokenId := startTokenId
  endTokenId := endTokenId

/-- `extract_reasoning_streaming`. -/
def extractReasoningStreaming (parser : BaseThinkingReasoningParser) (deltaText : Text)
    (previousTokenIds deltaTokenIds : List TokenId) : Option DeltaMessage :=
  match parser.extractReasoningStreaming deltaText previousTokenIds deltaTokenIds with
  | none => none
  | some ret =>
    if parser.startTokenId ∉ previousTokenIds ∧ parser.startTokenId ∉ deltaTokenIds then
      if parser.endTokenId ∈ deltaTokenIds then some (parser.cutAtEnd deltaText 0)
      else if parser.endTokenId ∈ previousTokenIds then some { content := some deltaText }
      else some { reasoning := some deltaText }
    else some ret

end DeepSeekR1ReasoningParser

/-- A token of the output with its text. -/
structure TextToken where
  id : TokenId
  text : Text
  deriving DecidableEq, Repr

/-- The text of some tokens. -/
def textOf (tokens : List TextToken) : Text := (tokens.map (·.text)).flatten

/-- The messages of the deltas of an output, one after the other. -/
def streamMessages (parser : BaseThinkingReasoningParser) (previous : List TextToken) :
    List (List TextToken) → List (Option DeltaMessage)
  | [] => []
  | delta :: deltas =>
    DeepSeekR1ReasoningParser.extractReasoningStreaming parser (textOf delta) (previous.map (·.id))
        (delta.map (·.id)) ::
      streamMessages parser (previous ++ delta) deltas

end VllmRuntime.Frontend
