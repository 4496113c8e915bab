import VllmRuntime.Verification.Frontend.Delta
import VllmRuntime.Verification.Frontend.StopStrings

/-! # Streaming with stop strings

Whatever chunks the tokens come in and whenever the new text is asked for, what was given out stays a prefix
of the text, and a match is one of the stop strings that the last chunk completes. -/

namespace VllmRuntime.Frontend

open List Occurrences

variable {σ : Type}

/-- What happens to a detokenizer: a chunk of tokens comes, or the text that is new is asked for. -/
inductive StreamEvent where
  | update (newTokenIds : List TokenId) (stopTerminated : Bool)
  | getNext
  deriving DecidableEq, Repr

/-- A detokenizer with the texts that it returned and the stop string that ended the request. -/
structure TextStream (σ : Type) where
  detokenizer : IncrementalDetokenizer σ
  returned : List Text := []
  matched : Option Text := none

namespace TextStream

variable (decodeNext : σ → TokenId → Text × σ) {params : SamplingParams} {s : TextStream σ}

/-- After a match there are no more tokens. -/
def step (s : TextStream σ) : StreamEvent → TextStream σ
  | .update newTokenIds stopTerminated =>
    if s.matched.isSome then s
    else
      let updated := s.detokenizer.update decodeNext newTokenIds stopTerminated
      { s with detokenizer := updated.1, matched := updated.2 }
  | .getNext =>
    let next := s.detokenizer.getNextOutputText false true
    { s with detokenizer := next.1, returned := s.returned ++ [next.2] }

def run (s : TextStream σ) (events : List StreamEvent) : TextStream σ := events.foldl (step decodeNext) s

/-- A new request with a tokenizer. -/
def new (params : SamplingParams) (start : σ) (promptTokenIds : List TokenId) : TextStream σ where
  detokenizer := .fromNewRequest (some (start, promptTokenIds)) params

/-- A detokenizer of a request with these parameters. -/
structure Serves (params : SamplingParams) (text : TextState σ) : Prop where
  stop : text.stop = params.stop
  minTokens : text.minTokens = params.minTokens
  includes : text.includeStopStrInOutput = params.includeStopStrInOutput

/-- What holds between two events. -/
structure Inv (params : SamplingParams) (s : TextStream σ) : Prop where
  returned : s.returned.flatten = s.detokenizer.sentText
  running : s.matched = none → s.detokenizer.Buffered ∧ ∃ text, s.detokenizer.text = some text ∧ Serves params text

/-- What the match of an update is to be, with `text` before it: there is one if a stop string ends in the
text of the chunk after the checked point, and the text is cut at it. -/
structure MatchRight (params : SamplingParams) (text : TextState σ) (count : ℕ) (newTokenIds : List TokenId)
    (stopTerminated : Bool) (updated : IncrementalDetokenizer σ × Option Text) : Prop where
  found_iff : updated.2.isSome ↔ ∃ word ∈ params.stop, ∃ i,
    OccursAt word (text.nextText decodeNext newTokenIds stopTerminated) i ∧
      text.checkedPoint decodeNext count newTokenIds stopTerminated < i + word.length
  cut : ∀ word, updated.2 = some word → word ∈ params.stop ∧ ∃ i,
    OccursAt word (text.nextText decodeNext newTokenIds stopTerminated) i ∧
      updated.1.outputText = (text.nextText decodeNext newTokenIds stopTerminated).take
        (if params.includeStopStrInOutput then i + word.length else i)
  whole : updated.2 = none → updated.1.outputText = text.nextText decodeNext newTokenIds stopTerminated

lemma matchRight {d : IncrementalDetokenizer σ} {text : TextState σ} (htext : d.text = some text)
    (hprompt : d.promptLen ≤ d.tokenIds.length) (hserves : Serves params text) (newTokenIds : List TokenId)
    (stopTerminated : Bool) :
    MatchRight decodeNext params text d.outputTokenIds.length newTokenIds stopTerminated
      (d.update decodeNext newTokenIds stopTerminated) := by
  have hstop : ∀ s ∈ text.stop, s ≠ [] := by
    rw [hserves.stop]
    exact params.stop_ne_nil
  have hupdate := IncrementalDetokenizer.update_eq decodeNext htext hprompt hstop newTokenIds stopTerminated
  have houtput : (d.update decodeNext newTokenIds stopTerminated).1.outputText =
      cutAt text.includeStopStrInOutput (text.nextText decodeNext newTokenIds stopTerminated)
        (text.stopMatch decodeNext d.outputTokenIds.length newTokenIds stopTerminated) := by
    rw [hupdate]
    rfl
  have hmatched : (d.update decodeNext newTokenIds stopTerminated).2 =
      (text.stopMatch decodeNext d.outputTokenIds.length newTokenIds stopTerminated).map (·.1) := by
    rw [hupdate]
  rw [hserves.includes] at houtput
  refine ⟨?_, fun word hword => ?_, fun hnone => ?_⟩
  · rw [hmatched, Option.isSome_map, ← hserves.stop, Option.isSome_iff_ne_none]
    unfold TextState.stopMatch
    rw [ne_eq, firstMatch_eq_none_iff hstop]
    push Not
    rfl
  · rw [hmatched, Option.map_eq_some_iff] at hword
    obtain ⟨⟨word', i⟩, hfound, rfl⟩ := hword
    rw [hfound] at houtput
    obtain ⟨hmem, hfirst, -⟩ := (firstMatch_eq_some_iff hstop).mp hfound
    exact ⟨hserves.stop ▸ hmem, i, ((firstAfter_eq_some_iff (hstop _ hmem)).mp hfirst).1, houtput⟩
  · rw [hmatched, Option.map_eq_none_iff] at hnone
    rw [houtput, hnone]
    rfl

/-! ## Runs -/

variable {decodeNext}

lemma Inv.new (params : SamplingParams) (start : σ) (promptTokenIds : List TokenId) :
    Inv params (TextStream.new params start promptTokenIds) := by
  obtain ⟨hbuffered, -, -, hsent⟩ := DeltaInv.buffered_fromNewRequest (some (start, promptTokenIds)) params
  exact ⟨hsent.symm, fun _ => ⟨hbuffered, _, rfl, rfl, rfl, rfl⟩⟩

lemma Inv.step (h : Inv params s) (event : StreamEvent) :
    Inv params (s.step decodeNext event) := by
  cases event with
  | update newTokenIds stopTerminated =>
    simp only [TextStream.step]
    split
    · exact h
    · rename_i hrunning
      have hmatched : s.matched = none := by simpa using hrunning
      obtain ⟨hbuffered, text, htext, hserves⟩ := h.running hmatched
      obtain ⟨-, hsent, hready⟩ := IncrementalDetokenizer.update_spec decodeNext hbuffered newTokenIds stopTerminated
      have hstop : ∀ s ∈ text.stop, s ≠ [] := (hbuffered.text text htext).stop_ne_nil
      refine ⟨h.returned.trans hsent.symm, fun hnone => ⟨hready hnone, ?_⟩⟩
      rw [IncrementalDetokenizer.update_eq decodeNext htext hbuffered.prompt_le hstop]
      exact ⟨_, rfl, hserves.stop, hserves.minTokens, hserves.includes⟩
  | getNext =>
    obtain ⟨-, -, hsent, -, hready⟩ := IncrementalDetokenizer.getNextOutputText_delta s.detokenizer false
    refine ⟨?_, fun hmatched => ?_⟩
    · simp only [TextStream.step]
      rw [flatten_append, h.returned, hsent, flatten_singleton]
    · obtain ⟨hbuffered, text, htext, hserves⟩ := h.running hmatched
      refine ⟨hready rfl hbuffered, ?_⟩
      simp only [TextStream.step, IncrementalDetokenizer.getNextOutputText, htext]
      simp only [Bool.not_true, Bool.false_eq_true, if_false]
      split
      · exact ⟨_, rfl, hserves.stop, hserves.minTokens, hserves.includes⟩
      · exact ⟨text, htext, hserves⟩

variable (decodeNext) in
lemma Inv.run (h : Inv params s) (events : List StreamEvent) :
    Inv params (s.run decodeNext events) := by
  induction events generalizing s with
  | nil => exact h
  | cons event events ih => exact ih (h.step event)

variable (decodeNext) in
/-- Texts that were returned are not taken back. -/
lemma returned_prefix_run (s : TextStream σ) (events : List StreamEvent) :
    s.returned <+: (s.run decodeNext events).returned := by
  induction events generalizing s with
  | nil => exact prefix_rfl
  | cons event events ih =>
    have hstep : s.returned <+: (s.step decodeNext event).returned := by
      cases event with
      | update newTokenIds stopTerminated =>
        simp only [TextStream.step]
        split <;> exact prefix_rfl
      | getNext => exact prefix_append _ _
    exact hstep.trans (ih _)

lemma run_append (s : TextStream σ) (before after : List StreamEvent) :
    s.run decodeNext (before ++ after) = (s.run decodeNext before).run decodeNext after :=
  foldl_append

variable (decodeNext) in
/-- What streaming is to give: every match is right; at any time the texts that were returned are a prefix of
the final text; with the last text, of the finished request, they are the final text. -/
structure Right (params : SamplingParams) (s : TextStream σ) (events : List StreamEvent) : Prop where
  matches_right : ∀ before newTokenIds stopTerminated after,
    events = before ++ .update newTokenIds stopTerminated :: after → (s.run decodeNext before).matched = none →
      ∃ text, (s.run decodeNext before).detokenizer.text = some text ∧
        MatchRight decodeNext params text (s.run decodeNext before).detokenizer.outputTokenIds.length newTokenIds
          stopTerminated ((s.run decodeNext before).detokenizer.update decodeNext newTokenIds stopTerminated)
  streamed : ∀ before after, events = before ++ after →
    (s.run decodeNext before).returned.flatten <+: (s.run decodeNext events).detokenizer.outputText
  complete : (s.run decodeNext events).returned.flatten ++
      ((s.run decodeNext events).detokenizer.getNextOutputText true true).2 =
    (s.run decodeNext events).detokenizer.outputText

end TextStream

/-- For all parameters, tokens, chunks and calls for new text. -/
theorem textStream_right (decodeNext : σ → TokenId → Text × σ) (params : SamplingParams) (start : σ)
    (promptTokenIds : List TokenId) (events : List StreamEvent) :
    (TextStream.new params start promptTokenIds).Right decodeNext params events := by
  have hnew := TextStream.Inv.new params start promptTokenIds
  have hinv (events : List StreamEvent) := hnew.run decodeNext events
  refine ⟨fun before newTokenIds stopTerminated after _ hmatched => ?_, fun before after hevents => ?_, ?_⟩
  · obtain ⟨hbuffered, text, htext, hserves⟩ := (hinv before).running hmatched
    exact ⟨text, htext, TextStream.matchRight decodeNext htext hbuffered.prompt_le hserves newTokenIds stopTerminated⟩
  · have hgrows := TextStream.returned_prefix_run decodeNext
      ((TextStream.new params start promptTokenIds).run decodeNext before) after
    rw [← TextStream.run_append, ← hevents] at hgrows
    refine hgrows.flatten.trans ?_
    rw [(hinv events).returned]
    exact IncrementalDetokenizer.sentText_isPrefix _
  · obtain ⟨-, -, hsent, hall, -⟩ := IncrementalDetokenizer.getNextOutputText_delta
      ((TextStream.new params start promptTokenIds).run decodeNext events).detokenizer true
    rw [(hinv events).returned, ← hsent, hall rfl]

end VllmRuntime.Frontend
