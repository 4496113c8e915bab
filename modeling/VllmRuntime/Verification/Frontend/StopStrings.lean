import VllmRuntime.Shared.Occurrences
import VllmRuntime.Verification.Frontend.Detokenizer

/-! An update looks for the first stop string of the list that the new characters complete. -/

namespace VllmRuntime.Frontend

open List Occurrences

variable {σ : Type} {text : Text} {newCharCount : ℕ}

/-! ## The search -/

lemma pyFind_eq {sub : Text} (hsub : sub ≠ []) (hnew : 0 < newCharCount) (hle : newCharCount ≤ text.length) :
    pyFind text sub (1 - newCharCount - sub.length) = firstAfter sub text (text.length - newCharCount) := by
  have hpos := length_pos_of_ne_nil hsub
  unfold pyFind firstAfter
  rw [if_pos (by omega)]
  dsimp only
  congr 1
  funext i
  congr 1
  simp only [decide_eq_decide]
  omega

/-- The text after a match. -/
def cutAt (includes : Bool) (text : Text) : Option (Text × ℕ) → Text
  | none => text
  | some (word, i) => text.take (if includes then i + word.length else i)

/-- What the search returns for a match. -/
def truncateTo (includes : Bool) (text : Text) (found : Text × ℕ) : Text × Option ℕ :=
  (found.1, if includes then
      if text.length ≤ found.2 + found.1.length then none else some (found.2 + found.1.length)
    else some found.2)

lemma checkStopStrings_eq {stop : List Text} {includes : Bool} (hstop : ∀ s ∈ stop, s ≠ [])
    (hle : newCharCount ≤ text.length) :
    checkStopStrings text newCharCount stop includes =
      (firstMatch stop text (text.length - newCharCount)).map (truncateTo includes text) := by
  unfold checkStopStrings
  split
  · rename_i hor
    have hnone : firstMatch stop text (text.length - newCharCount) = none := by
      rcases hor with rfl | rfl
      · exact (firstMatch_eq_none_iff hstop).mpr fun word hword i hat => hat.end_le (hstop word hword)
      · rfl
    rw [hnone]
    rfl
  · rename_i hneither
    have hnew : 0 < newCharCount := Nat.pos_of_ne_zero fun hzero => hneither (.inl hzero)
    clear hneither
    unfold firstMatch
    induction stop with
    | nil => rfl
    | cons s stop ih =>
      rw [forall_mem_cons] at hstop
      rw [findSome?_cons, findSome?_cons, pyFind_eq hstop.1 hnew hle]
      cases firstAfter s text (text.length - newCharCount) with
      | none => exact ih hstop.2
      | some i =>
        cases includes with
        | false => rfl
        | true =>
          by_cases hend : text.length ≤ i + s.length <;> simp [truncateTo, hend]

/-- The text after the truncation. -/
lemma cutText_truncateTo (text : TextState σ) (found : Option (Text × ℕ)) :
    IncrementalDetokenizer.cutText text (found.map (truncateTo text.includeStopStrInOutput text.outputText)) =
      { text with outputText := cutAt text.includeStopStrInOutput text.outputText found } := by
  obtain ⟨stop, minTokens, includes, buffer, offset, out, decodeState⟩ := text
  dsimp only
  cases found with
  | none => rfl
  | some found =>
    cases includes with
    | false => rfl
    | true =>
      by_cases hend : out.length ≤ found.2 + found.1.length
      · simp [truncateTo, hend, IncrementalDetokenizer.cutText, cutAt, take_of_length_le hend]
      · simp [truncateTo, hend, IncrementalDetokenizer.cutText, cutAt]

/-! ## The loop -/

section Decode

variable (decodeNext : σ → TokenId → Text × σ) {text : TextState σ}

lemma length_decodeTexts (s : σ) (tokens : List TokenId) : (decodeTexts decodeNext s tokens).length = tokens.length := by
  induction tokens generalizing s with
  | nil => rfl
  | cons token tokens ih => rw [decodeTexts, length_cons, length_cons, ih]

/-! ## The update -/

/-- The tokens of a chunk that have a text. -/
def shownTokens (includes stopTerminated : Bool) (newTokenIds : List TokenId) : List TokenId :=
  if stopTerminated && !includes then newTokenIds.dropLast else newTokenIds

def TextState.visible (text : TextState σ) (newTokenIds : List TokenId) (stopTerminated : Bool) : List TokenId :=
  shownTokens text.includeStopStrInOutput stopTerminated newTokenIds

/-- The text with that of a chunk, before it is cut. -/
def TextState.nextText (text : TextState σ) (newTokenIds : List TokenId) (stopTerminated : Bool) : Text :=
  text.outputText ++ (decodeTexts decodeNext text.decodeState (text.visible newTokenIds stopTerminated)).flatten

/-- The point up to which the text was checked before, or need not be checked: `count` tokens came before the
chunk. -/
def TextState.checkedPoint (text : TextState σ) (count : ℕ) (newTokenIds : List TokenId) (stopTerminated : Bool) : ℕ :=
  text.outputText.length + ((decodeTexts decodeNext text.decodeState (text.visible newTokenIds stopTerminated)).take
    (text.minTokens - count)).flatten.length

/-- The first stop string that the chunk completes. -/
def TextState.stopMatch (text : TextState σ) (count : ℕ) (newTokenIds : List TokenId) (stopTerminated : Bool) :
    Option (Text × ℕ) :=
  firstMatch text.stop (text.nextText decodeNext newTokenIds stopTerminated)
    (text.checkedPoint decodeNext count newTokenIds stopTerminated)

lemma TextState.checkedPoint_le (text : TextState σ) (count : ℕ) (newTokenIds : List TokenId)
    (stopTerminated : Bool) : text.checkedPoint decodeNext count newTokenIds stopTerminated ≤
      (text.nextText decodeNext newTokenIds stopTerminated).length := by
  unfold checkedPoint nextText
  rw [length_append]
  have hpre := (List.take_prefix (text.minTokens - count)
    (decodeTexts decodeNext text.decodeState (text.visible newTokenIds stopTerminated))).flatten
  have hle := hpre.length_le
  omega

/-- A chunk within the first `min_tokens` tokens matches nothing. -/
lemma TextState.stopMatch_eq_none (hstop : ∀ s ∈ text.stop, s ≠ []) {count : ℕ} {newTokenIds : List TokenId}
    {stopTerminated : Bool} (h : (text.visible newTokenIds stopTerminated).length ≤ text.minTokens - count) :
    text.stopMatch decodeNext count newTokenIds stopTerminated = none := by
  refine (firstMatch_eq_none_iff hstop).mpr fun word hword i hat => (hat.end_le (hstop word hword)).trans ?_
  unfold nextText checkedPoint
  rw [take_of_length_le (by rw [length_decodeTexts]; exact h), length_append]

lemma IncrementalDetokenizer.update_eq {d : IncrementalDetokenizer σ} (htext : d.text = some text)
    (hprompt : d.promptLen ≤ d.tokenIds.length) (hstop : ∀ s ∈ text.stop, s ≠ []) (newTokenIds : List TokenId)
    (stopTerminated : Bool) :
    d.update decodeNext newTokenIds stopTerminated =
      ({ d with
          tokenIds := d.tokenIds ++ newTokenIds
          text := some { text with
            outputText := cutAt text.includeStopStrInOutput (text.nextText decodeNext newTokenIds stopTerminated)
              (text.stopMatch decodeNext d.outputTokenIds.length newTokenIds stopTerminated)
            decodeState := decodeEnd decodeNext text.decodeState (text.visible newTokenIds stopTerminated) } },
        (text.stopMatch decodeNext d.outputTokenIds.length newTokenIds stopTerminated).map (·.1)) := by
  have hcount : d.outputTokenIds.length = d.tokenIds.length - d.promptLen := length_drop
  by_cases hnil : newTokenIds = []
  · have hvisible : text.visible newTokenIds stopTerminated = [] := by
      unfold TextState.visible shownTokens
      rw [hnil]
      split <;> rfl
    rw [TextState.stopMatch_eq_none decodeNext hstop (by rw [hvisible]; exact Nat.zero_le _)]
    unfold update TextState.nextText
    rw [hvisible, hnil, htext]
    simp only [if_true, decodeTexts, decodeEnd, flatten_nil, append_nil, cutAt, Option.map_none]
    rw [← htext]
  · have hle := text.checkedPoint_le decodeNext d.outputTokenIds.length newTokenIds stopTerminated
    have hsplit : text.visible newTokenIds stopTerminated ++
        (if (stopTerminated && !text.includeStopStrInOutput) = true then newTokenIds.getLast? else none).toList =
          newTokenIds := by
      unfold TextState.visible shownTokens
      cases stopTerminated && !text.includeStopStrInOutput with
      | false => simp
      | true => simp [getLast?_eq_some_getLast hnil, dropLast_append_getLast]
    have hfold := foldl_decodeToken_eq decodeNext d.promptLen (text.visible newTokenIds stopTerminated) d.tokenIds
      text text.outputText.length hprompt
    rw [← hcount] at hfold
    have hpoint : (if text.visible newTokenIds stopTerminated = [] ∨ text.minTokens ≤ d.outputTokenIds.length then
          text.outputText.length
        else text.outputText.length + ((decodeTexts decodeNext text.decodeState
          (text.visible newTokenIds stopTerminated)).take (text.minTokens - d.outputTokenIds.length)).flatten.length) =
        text.checkedPoint decodeNext d.outputTokenIds.length newTokenIds stopTerminated := by
      unfold TextState.checkedPoint
      split
      · rename_i hor
        rcases hor with hempty | hmin
        · rw [hempty]
          simp [decodeTexts]
        · rw [Nat.sub_eq_zero_of_le hmin]
          simp
      · rfl
    rw [hpoint] at hfold
    have hfound : (if text.stop ≠ [] ∧ text.minTokens < ((d.tokenIds ++ newTokenIds).drop d.promptLen).length then
          checkStopStrings (text.nextText decodeNext newTokenIds stopTerminated)
            ((text.nextText decodeNext newTokenIds stopTerminated).length -
              text.checkedPoint decodeNext d.outputTokenIds.length newTokenIds stopTerminated)
            text.stop text.includeStopStrInOutput
        else none) =
        (text.stopMatch decodeNext d.outputTokenIds.length newTokenIds stopTerminated).map
          (truncateTo text.includeStopStrInOutput (text.nextText decodeNext newTokenIds stopTerminated)) := by
      split
      · rw [checkStopStrings_eq hstop (Nat.sub_le _ _), Nat.sub_sub_self hle]
        rfl
      · rename_i hnot
        have hnone : text.stopMatch decodeNext d.outputTokenIds.length newTokenIds stopTerminated = none := by
          by_cases hempty : text.stop = []
          · unfold TextState.stopMatch
            rw [hempty]
            rfl
          · apply TextState.stopMatch_eq_none decodeNext hstop
            have hfew : ¬text.minTokens < ((d.tokenIds ++ newTokenIds).drop d.promptLen).length :=
              fun hlt => hnot ⟨hempty, hlt⟩
            have hlen := congrArg List.length hsplit
            rw [length_append] at hlen
            rw [length_drop, length_append] at hfew
            omega
        rw [hnone]
        rfl
    have hvisible : (if (stopTerminated && !text.includeStopStrInOutput) = true then newTokenIds.dropLast
        else newTokenIds) = text.visible newTokenIds stopTerminated := rfl
    obtain ⟨next, hnext⟩ : ∃ next : TextState σ, next = { text with
        outputText := text.nextText decodeNext newTokenIds stopTerminated
        decodeState := decodeEnd decodeNext text.decodeState (text.visible newTokenIds stopTerminated) } := ⟨_, rfl⟩
    have hupdate : d.update decodeNext newTokenIds stopTerminated =
        ({ d with
            tokenIds := d.tokenIds ++ newTokenIds
            text := some (cutText next ((text.stopMatch decodeNext d.outputTokenIds.length newTokenIds
              stopTerminated).map (truncateTo text.includeStopStrInOutput
                (text.nextText decodeNext newTokenIds stopTerminated)))) },
          ((text.stopMatch decodeNext d.outputTokenIds.length newTokenIds stopTerminated).map
            (truncateTo text.includeStopStrInOutput (text.nextText decodeNext newTokenIds stopTerminated))).map
            (·.1)) := by
      rw [← hfound, hnext]
      simp only [update, htext, if_neg hnil, hvisible, hfold, append_assoc, hsplit]
      rfl
    have hcut := cutText_truncateTo next (text.stopMatch decodeNext d.outputTokenIds.length newTokenIds stopTerminated)
    rw [hnext] at hcut hupdate
    rw [hupdate, Option.map_map]
    dsimp only at hcut
    rw [hcut]
    rfl

end Decode

end VllmRuntime.Frontend
