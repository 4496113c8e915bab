import VllmRuntime.Model.OutputProcessor
import VllmRuntime.Verification.Frontend.StopStrings

/-! # Chunks of tokens and stop strings

A chunk of several tokens may complete several stop strings. Token by token the one that is completed first
ends the request; in a chunk it is the one that is listed first. -/

namespace VllmRuntime.Frontend

open List Occurrences

variable {σ : Type} (decodeNext : σ → TokenId → Text × σ)

/-- Calls of `update`, with the tokens and `stop_terminated` of each, up to the first match. -/
def IncrementalDetokenizer.updates (d : IncrementalDetokenizer σ) :
    List (List TokenId × Bool) → IncrementalDetokenizer σ × Option Text
  | [] => (d, none)
  | (newTokenIds, stopTerminated) :: calls =>
    match d.update decodeNext newTokenIds stopTerminated with
    | (d, some stop) => (d, some stop)
    | (d, none) => d.updates calls

/-- The tokens of a call in a call each; the last one is the stop token. -/
def oneByOne (stopTerminated : Bool) : List TokenId → List (List TokenId × Bool)
  | [] => []
  | [token] => [([token], stopTerminated)]
  | token :: tokens => ([token], false) :: oneByOne stopTerminated tokens

/-- The texts of the tokens of each call. -/
def chunkTexts (includes : Bool) (s : σ) : List (List TokenId × Bool) → List (List Text)
  | [] => []
  | (newTokenIds, stopTerminated) :: calls =>
    decodeTexts decodeNext s (shownTokens includes stopTerminated newTokenIds) ::
      chunkTexts includes (decodeEnd decodeNext s (shownTokens includes stopTerminated newTokenIds)) calls

lemma shownTokens_cons (includes stopTerminated : Bool) (token : TokenId) {tokens : List TokenId}
    (h : tokens ≠ []) : shownTokens includes stopTerminated (token :: tokens) =
      token :: shownTokens includes stopTerminated tokens := by
  unfold shownTokens
  split
  · exact dropLast_cons_of_ne_nil h
  · rfl

/-- Calls of `update` read the texts of their tokens chunk by chunk. -/
lemma updates_eq_scan {d : IncrementalDetokenizer σ} {text : TextState σ} (htext : d.text = some text)
    (hprompt : d.promptLen ≤ d.tokenIds.length) (hstop : ∀ s ∈ text.stop, s ≠ []) (hmin : text.minTokens = 0)
    (calls : List (List TokenId × Bool)) :
    ((d.updates decodeNext calls).1.outputText, (d.updates decodeNext calls).2) =
      scan text.stop text.includeStopStrInOutput text.outputText
        (chunkTexts decodeNext text.includeStopStrInOutput text.decodeState calls) := by
  induction calls generalizing d text with
  | nil => simp [IncrementalDetokenizer.updates, chunkTexts, scan, IncrementalDetokenizer.outputText, htext]
  | cons call calls ih =>
    obtain ⟨newTokenIds, stopTerminated⟩ := call
    have hupdate := IncrementalDetokenizer.update_eq decodeNext htext hprompt hstop newTokenIds stopTerminated
    have hmatch : text.stopMatch decodeNext d.outputTokenIds.length newTokenIds stopTerminated =
        firstMatch text.stop (text.nextText decodeNext newTokenIds stopTerminated) text.outputText.length := by
      simp [TextState.stopMatch, TextState.checkedPoint, hmin]
    have hnext : text.outputText ++ (decodeTexts decodeNext text.decodeState
        (shownTokens text.includeStopStrInOutput stopTerminated newTokenIds)).flatten =
          text.nextText decodeNext newTokenIds stopTerminated := rfl
    rw [hmatch] at hupdate
    rw [IncrementalDetokenizer.updates, hupdate, chunkTexts, scan, hnext]
    cases hfound : firstMatch text.stop (text.nextText decodeNext newTokenIds stopTerminated)
        text.outputText.length with
    | some found => rfl
    | none =>
      dsimp only [Option.map_none, cutAt]
      refine @ih _ { text with
        outputText := text.nextText decodeNext newTokenIds stopTerminated
        decodeState := _ } rfl ?_ hstop hmin
      exact hprompt.trans (by simp)

/-! ## One by one -/

section OneByOne

variable {words : List Text} {includes : Bool}

lemma scan_oneByOne (hwords : ∀ word ∈ words, word ≠ []) (stopTerminated : Bool) (newTokenIds : List TokenId)
    (s : σ) (calls : List (List TokenId × Bool)) (text : Text) :
    scan words includes text (chunkTexts decodeNext includes s (oneByOne stopTerminated newTokenIds ++ calls)) =
      scan words includes text
        ((decodeTexts decodeNext s (shownTokens includes stopTerminated newTokenIds)).map ([·]) ++
          chunkTexts decodeNext includes (decodeEnd decodeNext s (shownTokens includes stopTerminated newTokenIds))
            calls) := by
  induction newTokenIds generalizing s text with
  | nil =>
    have hnothing : shownTokens includes stopTerminated [] = [] := by
      unfold shownTokens
      split <;> rfl
    rw [hnothing]
    rfl
  | cons token tokens ih =>
    cases tokens with
    | nil =>
      -- A stop token that is not shown is a call without a text.
      cases hskips : stopTerminated && !includes with
      | false => simp [oneByOne, chunkTexts, shownTokens, hskips, decodeTexts]
      | true =>
        simp only [oneByOne, chunkTexts, shownTokens, hskips, decodeTexts, decodeEnd, if_true,
          dropLast_singleton, cons_append, nil_append, map_nil]
        exact scan_nil_cons hwords _
    | cons token' tokens =>
      rw [shownTokens_cons includes stopTerminated token (cons_ne_nil _ _)]
      exact scan_append_congr (ih (decodeNext s token).2) [[(decodeNext s token).1]] text

lemma scan_flatMap_oneByOne (hwords : ∀ word ∈ words, word ≠ []) (calls : List (List TokenId × Bool)) (s : σ)
    (text : Text) :
    scan words includes text
        (chunkTexts decodeNext includes s (calls.flatMap fun call => oneByOne call.2 call.1)) =
      scan words includes text ((chunkTexts decodeNext includes s calls).flatMap (·.map ([·]))) := by
  induction calls generalizing s text with
  | nil => rfl
  | cons call calls ih =>
    rw [flatMap_cons, scan_oneByOne decodeNext hwords, chunkTexts, flatMap_cons]
    exact scan_append_congr (ih _) _ text

end OneByOne

/-- The text and the stop string of a new request are the same for these calls as token by token. -/
def GroupingAgrees (params : SamplingParams) (start : σ) (promptTokenIds : List TokenId)
    (calls : List (List TokenId × Bool)) : Prop :=
  let d := IncrementalDetokenizer.fromNewRequest (some (start, promptTokenIds)) params
  let grouped := d.updates decodeNext calls
  let single := d.updates decodeNext (calls.flatMap fun call => oneByOne call.2 call.1)
  grouped.1.outputText = single.1.outputText ∧ grouped.2 = single.2

instance (params : SamplingParams) (start : σ) (promptTokenIds : List TokenId) (calls : List (List TokenId × Bool)) :
    Decidable (GroupingAgrees decodeNext params start promptTokenIds calls) :=
  inferInstanceAs (Decidable (_ ∧ _))

/-- The grouping does not matter exactly if no stop string that is listed before the one completed first is
completed later in the same chunk. -/
theorem groupingAgrees_iff (params : SamplingParams) (hmin : params.minTokens = 0) (start : σ)
    (promptTokenIds : List TokenId) (calls : List (List TokenId × Bool)) :
    GroupingAgrees decodeNext params start promptTokenIds calls ↔
      Settled params.stop [] (chunkTexts decodeNext params.includeStopStrInOutput start calls) := by
  have hscan := updates_eq_scan decodeNext
    (d := IncrementalDetokenizer.fromNewRequest (some (start, promptTokenIds)) params) rfl (le_refl _)
    params.stop_ne_nil hmin
  have hgrouped := hscan calls
  have hsingle := hscan (calls.flatMap fun call => oneByOne call.2 call.1)
  rw [scan_flatMap_oneByOne decodeNext params.stop_ne_nil] at hsingle
  rw [← scan_eq_scan_pieces_iff params.includeStopStrInOutput params.stop_ne_nil]
  unfold GroupingAgrees
  dsimp only at hgrouped hsingle ⊢
  rw [← Prod.mk.injEq, hgrouped, hsingle]

/-- Token 0 is `a`, all others are `b`. -/
def decodeAOrB (_ : Unit) (tokenId : TokenId) : Text × Unit := (if tokenId = 0 then ['a'] else ['b'], ())

/-- In `b`, `ab` the listed first of `b` and `ab` is completed first too. -/
theorem groupingAgrees_iff_letters :
    GroupingAgrees decodeAOrB { n := 1, outputKind := .delta, stop := [['b'], ['a', 'b']] } () [5]
      [([0], false), ([0, 1, 0], false)] := by
  refine (groupingAgrees_iff decodeAOrB _ rfl () [5] _).mpr ?_
  refine (scan_eq_scan_pieces_iff false (by decide) _).mp ?_
  decide +kernel

/-- `b` is listed before `a`, so the chunk `ab` ends at `b` and the text has the stop string `a`. -/
theorem grouping_disagrees_listedFirst :
    let d : IncrementalDetokenizer Unit :=
      .fromNewRequest (some ((), [5])) { n := 1, outputKind := .delta, stop := [['b'], ['a']] }
    let grouped := d.updates decodeAOrB [([0, 1], false)]
    let single := d.updates decodeAOrB [([0], false), ([1], false)]
    (grouped.1.outputText = ['a'] ∧ grouped.2 = some ['b']) ∧
      (single.1.outputText = [] ∧ single.2 = some ['a']) ∧
      ¬GroupingAgrees decodeAOrB { n := 1, outputKind := .delta, stop := [['b'], ['a']] } () [5]
        [([0, 1], false)] := by
  decide +kernel

end VllmRuntime.Frontend
