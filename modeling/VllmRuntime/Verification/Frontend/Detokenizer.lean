import VllmRuntime.Model.Detokenizer

/-! What the detokenizer holds back is enough: no stop string cuts off text that was already given out. -/

namespace VllmRuntime.Frontend

open List

variable {σ : Type} {decodeNext : σ → TokenId → Text × σ} {text : TextState σ}

/-! ## Searching for stop strings -/

/-- A match that is found does not start before the place the search starts at. -/
lemma le_of_pyFind {text sub : Text} {start : ℤ} {i : ℕ} (h : pyFind text sub start = some i) :
    (if start < 0 then (text.length + start).toNat else start.toNat) ≤ i ∧
      i + sub.length ≤ text.length := by
  have hfound := find?_some h
  simp only [Bool.and_eq_true, decide_eq_true_eq, isPrefixOf_iff_prefix] at hfound
  obtain ⟨hle, hsub⟩ := hfound
  refine ⟨hle, ?_⟩
  have hlen := hsub.length_le
  have hi : i < text.length + 1 := List.mem_range.1 (mem_of_find?_eq_some h)
  rw [length_drop] at hlen
  omega

/-- A stop string ends in the new characters, so that it starts at most one character less than its length
before them. -/
lemma le_of_checkStopStrings {outputText stopString : Text} {newCharCount k : ℕ} {stop : List Text}
    {includes : Bool} (hnew : newCharCount ≤ outputText.length) (hstop : ∀ s ∈ stop, s ≠ [])
    (h : checkStopStrings outputText newCharCount stop includes = some (stopString, some k)) :
    ∃ s ∈ stop, outputText.length - newCharCount ≤ k + (if includes then 0 else s.length - 1) ∧
      k ≤ outputText.length := by
  unfold checkStopStrings at h
  split at h
  · cases h
  rename_i hsome
  obtain ⟨s, hs, hfound⟩ := exists_of_findSome?_eq_some h
  refine ⟨s, hs, ?_⟩
  have hpos : 0 < s.length := length_pos_of_ne_nil (hstop s hs)
  cases hfind : pyFind outputText s (1 - newCharCount - s.length) with
  | none => simp [hfind] at hfound
  | some i =>
    obtain ⟨hle, hend⟩ := le_of_pyFind hfind
    rw [if_pos (by omega)] at hle
    rw [hfind] at hfound
    cases includes with
    | false =>
      obtain ⟨-, rfl⟩ : s = stopString ∧ i = k := by simpa using hfound
      simp only [Bool.false_eq_true, if_false]
      omega
    | true =>
      simp only [if_true] at hfound ⊢
      split at hfound
      · simp at hfound
      · obtain ⟨-, rfl⟩ : s = stopString ∧ i + s.length = k := by simpa using hfound
        omega

/-! ## The text that is given out -/

/-- What holds of a text state between two updates. -/
structure TextState.Buffered (text : TextState σ) : Prop where
  stop_ne_nil : ∀ s ∈ text.stop, s ≠ []
  buffer_le : text.includeStopStrInOutput = false → ∀ s ∈ text.stop, s.length ≤ text.stopBufferLength + 1
  offset_le : text.lastOutputTextOffset + text.stopBufferLength ≤ text.outputText.length ∨
    text.lastOutputTextOffset = 0

lemma TextState.Buffered.offset_le_length (h : text.Buffered) :
    text.lastOutputTextOffset ≤ text.outputText.length := by
  rcases h.offset_le with hle | hzero <;> omega

/-- What an update leaves alone. -/
structure TextState.Extends (text text' : TextState σ) : Prop where
  stop_eq : text'.stop = text.stop
  include_eq : text'.includeStopStrInOutput = text.includeStopStrInOutput
  buffer_eq : text'.stopBufferLength = text.stopBufferLength
  offset_eq : text'.lastOutputTextOffset = text.lastOutputTextOffset

lemma TextState.Buffered.append {text' : TextState σ} (h : text.Buffered) (hext : text.Extends text')
    {new : Text} (htext : text'.outputText = text.outputText ++ new) : text'.Buffered where
  stop_ne_nil := by
    rw [hext.stop_eq]
    exact h.stop_ne_nil
  buffer_le := by
    rw [hext.include_eq, hext.stop_eq, hext.buffer_eq]
    exact h.buffer_le
  offset_le := by
    have hlen : text.outputText.length ≤ text'.outputText.length := by simp [htext]
    rw [hext.offset_eq, hext.buffer_eq]
    rcases h.offset_le with hle | hzero
    · exact .inl (hle.trans hlen)
    · exact .inr hzero

section Loop

variable (decodeNext)

/-- The texts of tokens. -/
def decodeTexts (s : σ) : List TokenId → List Text
  | [] => []
  | token :: tokens => (decodeNext s token).1 :: decodeTexts (decodeNext s token).2 tokens

/-- What the tokenizer keeps after tokens. -/
def decodeEnd (s : σ) : List TokenId → σ
  | [] => s
  | token :: tokens => decodeEnd (decodeNext s token).2 tokens

/-- The loop appends the texts; the place to check from is moved behind the first `min_tokens` tokens. -/
lemma foldl_decodeToken_eq (promptLen : ℕ) (newTokenIds tokenIds : List TokenId) (text : TextState σ)
    (offset : ℕ) (hprompt : promptLen ≤ tokenIds.length) :
    newTokenIds.foldl (decodeToken decodeNext promptLen) (tokenIds, text, offset) =
      (tokenIds ++ newTokenIds,
        { text with
          outputText := text.outputText ++ (decodeTexts decodeNext text.decodeState newTokenIds).flatten
          decodeState := decodeEnd decodeNext text.decodeState newTokenIds },
        if newTokenIds = [] ∨ text.minTokens ≤ tokenIds.length - promptLen then offset
        else text.outputText.length + ((decodeTexts decodeNext text.decodeState newTokenIds).take
          (text.minTokens - (tokenIds.length - promptLen))).flatten.length) := by
  induction newTokenIds generalizing tokenIds text offset with
  | nil => simp [decodeTexts, decodeEnd]
  | cons token tokens ih =>
    have hprompt' : promptLen ≤ (tokenIds ++ [token]).length := by
      rw [length_append]
      omega
    have hcount : (tokenIds ++ [token]).length - promptLen = tokenIds.length - promptLen + 1 := by
      rw [length_append, length_singleton]
      omega
    rw [foldl_cons]
    simp only [decodeToken]
    rw [ih _ _ _ hprompt']
    simp only [decodeTexts, decodeEnd, flatten_cons, append_assoc, singleton_append,
      length_append, length_drop, reduceCtorEq, false_or, Prod.mk.injEq, true_and, length_singleton]
    rw [show tokenIds.length + 1 - promptLen = tokenIds.length - promptLen + 1 by omega]
    generalize tokenIds.length - promptLen = count
    rcases Nat.lt_trichotomy text.minTokens (count + 1) with hlt | heq | hgt
    · rw [if_pos (.inr hlt.le), if_neg (by omega), if_pos (by omega)]
    · rw [if_pos (.inr heq.le), if_pos (by omega), if_neg (by omega), show text.minTokens - count = 1 by omega]
      simp
    · rw [if_neg (by omega : ¬text.minTokens ≤ count),
        show text.minTokens - count = text.minTokens - (count + 1) + 1 by omega, take_succ_cons,
        flatten_cons, length_append]
      by_cases htokens : tokens = []
      · rw [if_pos (.inl htokens), if_pos (by omega), htokens]
        simp [decodeTexts]
      · rw [if_neg (by rintro (h | h) <;> [exact htokens h; omega]), Nat.add_assoc]

/-- The stop strings are checked from a place that is not before the text that the loop began with. -/
lemma exists_foldl_decodeToken (promptLen : ℕ) (newTokenIds tokenIds : List TokenId) (text : TextState σ)
    (hprompt : promptLen ≤ tokenIds.length) :
    ∃ text' offset new,
      newTokenIds.foldl (decodeToken decodeNext promptLen) (tokenIds, text, text.outputText.length) =
        (tokenIds ++ newTokenIds, text', offset) ∧
      text.Extends text' ∧ text'.outputText = text.outputText ++ new ∧ text.outputText.length ≤ offset ∧
      offset ≤ text'.outputText.length := by
  refine ⟨_, _, _, foldl_decodeToken_eq decodeNext promptLen newTokenIds tokenIds text _ hprompt,
    ⟨rfl, rfl, rfl, rfl⟩, rfl, ?_, ?_⟩
  · split <;> omega
  · have hle := (List.take_prefix (text.minTokens - (tokenIds.length - promptLen))
      (decodeTexts decodeNext text.decodeState newTokenIds)).flatten.length_le
    rw [length_append]
    split <;> omega

end Loop

namespace IncrementalDetokenizer

variable {d : IncrementalDetokenizer σ} {text text' : TextState σ} {new : Text} {offset : ℕ}

/-- What holds of a detokenizer between two updates. -/
structure Buffered (d : IncrementalDetokenizer σ) : Prop where
  prompt_le : d.promptLen ≤ d.tokenIds.length
  text : ∀ text, d.text = some text → text.Buffered

/-- The text that was given out so far. -/
def sentText (d : IncrementalDetokenizer σ) : Text :=
  (d.text.map fun text => text.outputText.take text.lastOutputTextOffset).getD []

lemma sentText_isPrefix (d : IncrementalDetokenizer σ) : d.sentText <+: d.outputText := by
  rw [sentText, outputText]
  cases d.text with
  | none => exact prefix_rfl
  | some text => exact take_prefix _ _

lemma outputTokenIds_append (h : d.Buffered) (newTokenIds : List TokenId) :
    (d.tokenIds ++ newTokenIds).drop d.promptLen = d.outputTokenIds ++ newTokenIds := by
  rw [drop_append_of_le_length h.prompt_le, outputTokenIds]

/-- Where a stop string cuts the text, nothing of what was sent is cut off. -/
lemma sent_le_of_stop (h : text.Buffered) (hext : text.Extends text')
    (htext : text'.outputText = text.outputText ++ new) {k : ℕ} (hoffset : text.outputText.length ≤ offset)
    (hle : offset ≤ text'.outputText.length) {stopString : Text}
    (hstop : checkStopStrings text'.outputText (text'.outputText.length - offset) text'.stop
      text'.includeStopStrInOutput = some (stopString, some k)) :
    text.lastOutputTextOffset ≤ k := by
  have hne : ∀ s ∈ text'.stop, s ≠ [] := by
    rw [hext.stop_eq]
    exact h.stop_ne_nil
  obtain ⟨s, hs, hk, -⟩ := le_of_checkStopStrings (Nat.sub_le _ _) hne hstop
  rcases h.offset_le with hsent | hzero
  · rw [hext.stop_eq] at hs
    rw [hext.include_eq] at hk
    have hlen : text.outputText.length ≤ text'.outputText.length := by simp [htext]
    cases hinc : text.includeStopStrInOutput with
    | true =>
      simp only [hinc, if_true] at hk
      omega
    | false =>
      have hbuffer := h.buffer_le hinc s hs
      simp only [hinc, Bool.false_eq_true, if_false] at hk
      omega
  · omega

/-- The text after the stop strings were checked. -/
def cutText (text : TextState σ) : Option (Text × Option ℕ) → TextState σ
  | some (_, some truncateTo) => { text with outputText := text.outputText.take truncateTo }
  | _ => text

lemma cutText_offset (text : TextState σ) (stop : Option (Text × Option ℕ)) :
    (cutText text stop).lastOutputTextOffset = text.lastOutputTextOffset := by
  fun_cases cutText text stop <;> rfl

lemma take_cutText (h : text.Buffered) (hext : text.Extends text')
    (htext : text'.outputText = text.outputText ++ new) (hoffset : text.outputText.length ≤ offset)
    (hle : offset ≤ text'.outputText.length) {stop : Option (Text × Option ℕ)}
    (hstop : stop = none ∨ stop = checkStopStrings text'.outputText (text'.outputText.length - offset)
      text'.stop text'.includeStopStrInOutput) :
    (cutText text' stop).outputText.take text.lastOutputTextOffset =
      text'.outputText.take text.lastOutputTextOffset := by
  fun_cases cutText text' stop with
  | case1 stopString k =>
    have hcheck := hstop.resolve_left (by simp)
    have hk := sent_le_of_stop h hext htext hoffset hle hcheck.symm
    rw [take_take, Nat.min_eq_left hk]
  | case2 => rfl

variable (decodeNext) in
/-- An update appends the tokens and leaves the sent text as it is; as long as no stop string is found, the
detokenizer is ready for the next one. -/
lemma update_spec (h : d.Buffered) (newTokenIds : List TokenId) (stopTerminated : Bool) :
    (d.update decodeNext newTokenIds stopTerminated).1.outputTokenIds = d.outputTokenIds ++ newTokenIds ∧
      (d.update decodeNext newTokenIds stopTerminated).1.sentText = d.sentText ∧
      ((d.update decodeNext newTokenIds stopTerminated).2 = none →
        (d.update decodeNext newTokenIds stopTerminated).1.Buffered) := by
  have happend := outputTokenIds_append h newTokenIds
  cases hd : d.text with
  | none =>
    simp only [update, hd]
    refine ⟨happend, by simp [sentText, hd], fun _ => ⟨?_, by simp⟩⟩
    exact h.prompt_le.trans (by simp)
  | some text =>
    have htext : text.Buffered := h.text text hd
    by_cases hnil : newTokenIds = []
    · simp only [update, hd, hnil, if_true, append_nil, true_and]
      exact fun _ => h
    generalize hdecoded : (if (stopTerminated && !text.includeStopStrInOutput) = true then newTokenIds.dropLast
      else newTokenIds) = decoded
    have hsplit : decoded ++ (if (stopTerminated && !text.includeStopStrInOutput) = true then
        newTokenIds.getLast? else none).toList = newTokenIds := by
      rw [← hdecoded]
      cases stopTerminated && !text.includeStopStrInOutput with
      | false => simp
      | true => simp [getLast?_eq_some_getLast hnil, dropLast_append_getLast]
    obtain ⟨text', offset, new, hfold, hext, hout, hle, hle'⟩ :=
      exists_foldl_decodeToken decodeNext d.promptLen decoded d.tokenIds text h.prompt_le
    obtain ⟨stop, hstop, hupdate⟩ : ∃ stop : Option (Text × Option ℕ),
        (stop = none ∨ stop = checkStopStrings text'.outputText (text'.outputText.length - offset) text'.stop
          text'.includeStopStrInOutput) ∧
        d.update decodeNext newTokenIds stopTerminated =
          ({ d with tokenIds := d.tokenIds ++ newTokenIds, text := some (cutText text' stop) },
            stop.map (·.1)) := by
      refine ⟨if text'.stop ≠ [] ∧ text'.minTokens < ((d.tokenIds ++ newTokenIds).drop d.promptLen).length then
        checkStopStrings text'.outputText (text'.outputText.length - offset) text'.stop
          text'.includeStopStrInOutput else none, ?_, ?_⟩
      · split
        · exact .inr rfl
        · exact .inl rfl
      · simp only [update, hd, if_neg hnil, hdecoded, hfold, append_assoc, hsplit]
        rfl
    rw [hupdate]
    refine ⟨happend, ?_, ?_⟩
    · have hsent : (cutText text' stop).outputText.take text.lastOutputTextOffset =
          text.outputText.take text.lastOutputTextOffset := by
        rw [take_cutText htext hext hout hle hle' hstop, hout, take_append_of_le_length htext.offset_le_length]
      simp only [sentText, hd, Option.map_some, Option.getD_some, cutText_offset, hext.offset_eq, hsent]
    · intro hnone
      obtain rfl : stop = none := by simpa using hnone
      refine ⟨h.prompt_le.trans (by simp), ?_⟩
      rintro _ ⟨rfl⟩
      exact htext.append hext hout

/-- In delta mode the text that is returned continues what was sent; a finished request is given all of it. -/
lemma getNextOutputText_delta (d : IncrementalDetokenizer σ) (finished : Bool) :
    (d.getNextOutputText finished true).1.outputTokenIds = d.outputTokenIds ∧
      (d.getNextOutputText finished true).1.outputText = d.outputText ∧
      (d.getNextOutputText finished true).1.sentText =
        d.sentText ++ (d.getNextOutputText finished true).2 ∧
      (finished = true → (d.getNextOutputText finished true).1.sentText = d.outputText) ∧
      (finished = false → d.Buffered → (d.getNextOutputText finished true).1.Buffered) := by
  cases hd : d.text with
  | none => simp [getNextOutputText, hd, sentText, outputText]
  | some text =>
    generalize hlength : text.outputText.length - (if finished then 0 else text.stopBufferLength) = length
    by_cases hlt : text.lastOutputTextOffset < length
    · have hnext : d.getNextOutputText finished true =
          ({ d with text := some { text with lastOutputTextOffset := length } },
            (text.outputText.take length).drop text.lastOutputTextOffset) := by
        simp [getNextOutputText, hd, hlength, hlt]
      have hsent : text.outputText.take text.lastOutputTextOffset =
          (text.outputText.take length).take text.lastOutputTextOffset := by
        rw [take_take, Nat.min_eq_left hlt.le]
      rw [hnext]
      refine ⟨rfl, by simp [outputText, hd], ?_, ?_, ?_⟩
      · simp only [sentText, hd, Option.map_some, Option.getD_some]
        rw [hsent, take_append_drop]
      · rintro rfl
        obtain rfl : text.outputText.length = length := by simpa using hlength
        simp [sentText, outputText, hd]
      · rintro rfl h
        refine ⟨h.prompt_le, ?_⟩
        rintro _ ⟨rfl⟩
        have htext := h.text text hd
        refine ⟨htext.stop_ne_nil, htext.buffer_le, .inl ?_⟩
        simp only [Bool.false_eq_true, if_false] at hlength ⊢
        omega
    · have hnext : d.getNextOutputText finished true = (d, []) := by
        simp [getNextOutputText, hd, hlength, hlt]
      rw [hnext]
      refine ⟨rfl, rfl, (append_nil _).symm, ?_, fun _ h => h⟩
      rintro rfl
      simp only [if_true, Nat.sub_zero] at hlength
      simp only [sentText, outputText, hd, Option.map_some, Option.getD_some]
      exact take_of_length_le (by omega)

end IncrementalDetokenizer

end VllmRuntime.Frontend
