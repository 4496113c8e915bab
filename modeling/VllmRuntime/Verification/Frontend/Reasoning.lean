import Mathlib.Data.List.TakeWhile
import VllmRuntime.Model.ReasoningParser
import VllmRuntime.Shared.Occurrences

/-! # Reasoning and content in deltas

The tokens before the end token are the reasoning and those after it are the content, however the tokens are
grouped. -/

namespace VllmRuntime.Frontend

open List Occurrences

/-! ## Texts -/

lemma pyFind_zero {text sub : Text} (hsub : sub ≠ []) : pyFind text sub 0 = firstAfter sub text 0 := by
  have hpos := length_pos_of_ne_nil hsub
  have hlt (i : ℕ) : 0 < i + sub.length := by omega
  simp [pyFind, firstAfter, hlt]

lemma pyFind_marker {c : Char} {marker : Text} (front back : Text) (hmarker : Marks c marker)
    (h : ¬marker <:+: front) : pyFind (front ++ (marker ++ back)) marker 0 = some front.length := by
  rw [pyFind_zero hmarker.ne_nil, firstAfter_marker hmarker h]

lemma textOf_append (tokens more : List TextToken) : textOf (tokens ++ more) = textOf tokens ++ textOf more := by
  rw [textOf, map_append, flatten_append, textOf, textOf]

lemma textOf_cons (token : TextToken) (tokens : List TextToken) :
    textOf (token :: tokens) = token.text ++ textOf tokens := rfl

lemma slice_natCast (text : Text) (start stop : ℕ) : slice text start stop = (text.take stop).drop start := by
  have hbound (n : ℕ) : sliceBound text n = n := by
    rw [sliceBound, if_neg (by omega), Int.toNat_natCast]
  rw [slice, hbound, hbound]

/-! ## The two parts -/

section Parts

variable (parser : BaseThinkingReasoningParser)

/-- The tokens before the end token, without the start token. -/
def reasoningTokens (tokens : List TextToken) : List TextToken :=
  (tokens.takeWhile (·.id != parser.endTokenId)).filter (·.id != parser.startTokenId)

/-- The tokens after the end token. -/
def contentTokens (tokens : List TextToken) : List TextToken :=
  (tokens.dropWhile (·.id != parser.endTokenId)).tail

/-- The start token comes first if at all and the end token comes once at most. Both have the texts of the
markers, and no marker is in the text of other tokens in a row. -/
structure ThinkingStream (tokens : List TextToken) : Prop where
  start_text : ∀ t ∈ tokens, t.id = parser.startTokenId → t.text = parser.startToken
  end_text : ∀ t ∈ tokens, t.id = parser.endTokenId → t.text = parser.endToken
  start_first : parser.startTokenId ∉ tokens.tail.map (·.id)
  end_once : (tokens.map (·.id)).count parser.endTokenId ≤ 1
  no_marker : ∀ piece, piece <:+: tokens →
    (∀ t ∈ piece, t.id ≠ parser.startTokenId ∧ t.id ≠ parser.endTokenId) →
      ¬parser.startToken <:+: textOf piece ∧ ¬parser.endToken <:+: textOf piece

/-- A delta whose start token is left in the reasoning: it has other tokens and not the end token. -/
def Leaks (delta : List TextToken) : Prop :=
  parser.startTokenId ∈ delta.map (·.id) ∧ delta.length ≠ 1 ∧ parser.endTokenId ∉ delta.map (·.id)

instance (delta : List TextToken) : Decidable (Leaks parser delta) := instDecidableAnd

variable {parser} {tokens : List TextToken}

lemma reasoningTokens_of_not_mem (h : ∀ t ∈ tokens, t.id ≠ parser.endTokenId) :
    reasoningTokens parser tokens = tokens.filter (·.id != parser.startTokenId) := by
  rw [reasoningTokens, takeWhile_eq_self_iff.mpr]
  intro t ht
  exact bne_iff_ne.mpr (h t ht)

lemma contentTokens_of_not_mem (h : ∀ t ∈ tokens, t.id ≠ parser.endTokenId) :
    contentTokens parser tokens = [] := by
  rw [contentTokens, dropWhile_eq_nil_iff.mpr]
  · rfl
  · intro t ht
    exact bne_iff_ne.mpr (h t ht)

/-- The end token separates the parts. -/
lemma parts_of_end {before : List TextToken} (after : List TextToken) {t : TextToken}
    (hbefore : ∀ u ∈ before, u.id ≠ parser.endTokenId) (ht : t.id = parser.endTokenId) :
    reasoningTokens parser (before ++ t :: after) = before.filter (·.id != parser.startTokenId) ∧
      contentTokens parser (before ++ t :: after) = after := by
  have hall : ∀ u ∈ before, (u.id != parser.endTokenId) = true := fun u hu => bne_iff_ne.mpr (hbefore u hu)
  have hhead : ¬(t.id != parser.endTokenId) = true := by simp [ht]
  constructor
  · rw [reasoningTokens, takeWhile_append_of_pos hall, takeWhile_cons, if_neg hhead, append_nil]
  · rw [contentTokens, dropWhile_append_of_pos hall, dropWhile_cons, if_neg hhead, tail_cons]

/-- What follows the end token is content. -/
lemma parts_append (h : parser.endTokenId ∈ tokens.map (·.id)) (more : List TextToken) :
    reasoningTokens parser (tokens ++ more) = reasoningTokens parser tokens ∧
      contentTokens parser (tokens ++ more) = contentTokens parser tokens ++ more := by
  induction tokens with
  | nil => cases h
  | cons t tokens ih =>
    by_cases ht : t.id = parser.endTokenId
    · have hnone : ∀ u ∈ ([] : List TextToken), u.id ≠ parser.endTokenId := fun u hu => by cases hu
      obtain ⟨hreasoning, hcontent⟩ := parts_of_end tokens hnone ht
      obtain ⟨hreasoning', hcontent'⟩ := parts_of_end (tokens ++ more) hnone ht
      rw [nil_append] at hreasoning hcontent hreasoning' hcontent'
      rw [cons_append, hreasoning, hreasoning', hcontent, hcontent']
      exact ⟨rfl, rfl⟩
    · rw [map_cons, mem_cons] at h
      obtain ⟨hreasoning, hcontent⟩ := ih (h.resolve_left fun heq => ht heq.symm)
      have hpos : (t.id != parser.endTokenId) = true := bne_iff_ne.mpr ht
      simp only [reasoningTokens, contentTokens] at hreasoning hcontent ⊢
      simp only [cons_append, takeWhile_cons, dropWhile_cons, if_pos hpos, filter_cons,
        hreasoning, hcontent, and_self]

lemma filter_start_eq_self (h : parser.startTokenId ∉ tokens.map (·.id)) :
    tokens.filter (·.id != parser.startTokenId) = tokens := by
  rw [filter_eq_self]
  intro t ht
  refine bne_iff_ne.mpr fun heq => h ?_
  rw [← heq]
  exact mem_map_of_mem ht

/-- A token with an id, with the tokens around it. -/
lemma exists_split {id : TokenId} (h : id ∈ tokens.map (·.id)) :
    ∃ before t after, tokens = before ++ t :: after ∧ t.id = id ∧ ∀ u ∈ before, u.id ≠ id := by
  induction tokens with
  | nil => cases h
  | cons t tokens ih =>
    by_cases ht : t.id = id
    · exact ⟨[], t, tokens, rfl, ht, fun u hu => by cases hu⟩
    · rw [map_cons, mem_cons] at h
      obtain ⟨before, u, after, rfl, hu, hbefore⟩ := ih (h.resolve_left fun heq => ht heq.symm)
      refine ⟨t :: before, u, after, rfl, hu, ?_⟩
      rw [forall_mem_cons]
      exact ⟨ht, hbefore⟩

namespace ThinkingStream

variable {t : TextToken} {before after : List TextToken}

lemma of_append {more : List TextToken} (h : ThinkingStream parser (tokens ++ more)) :
    ThinkingStream parser tokens where
  start_text t ht := h.start_text t (mem_append_left _ ht)
  end_text t ht := h.end_text t (mem_append_left _ ht)
  start_first := by
    intro hmem
    cases tokens with
    | nil => cases hmem
    | cons t tokens =>
      apply h.start_first
      rw [cons_append, tail_cons, map_append]
      exact mem_append_left _ hmem
  end_once := by
    have hcount := h.end_once
    rw [map_append, count_append] at hcount
    omega
  no_marker piece hpiece := h.no_marker piece (hpiece.trans (prefix_append _ _).isInfix)

lemma of_cons (h : ThinkingStream parser (t :: tokens)) :
    ThinkingStream parser tokens where
  start_text u hu := h.start_text u (mem_cons_of_mem t hu)
  end_text u hu := h.end_text u (mem_cons_of_mem t hu)
  start_first hmem := h.start_first (((tail_sublist tokens).map _).subset hmem)
  end_once := ((sublist_cons_self t tokens).map _).count_le _ |>.trans h.end_once
  no_marker piece hpiece := h.no_marker piece (hpiece.trans (suffix_cons t tokens).isInfix)

lemma eq_nil_of_start (h : ThinkingStream parser (before ++ t :: after)) (ht : t.id = parser.startTokenId) :
    before = [] := by
  cases before with
  | nil => rfl
  | cons u before =>
    refine absurd ?_ h.start_first
    rw [← ht, cons_append, tail_cons]
    exact mem_map_of_mem (mem_append_right _ mem_cons_self)

/-- There is no other end token. -/
lemma not_end_around (h : ThinkingStream parser (before ++ t :: after)) (ht : t.id = parser.endTokenId) :
    (∀ u ∈ before, u.id ≠ parser.endTokenId) ∧ ∀ u ∈ after, u.id ≠ parser.endTokenId := by
  have hcount := h.end_once
  rw [map_append, map_cons, count_append, ht, count_cons_self] at hcount
  have hnone {tokens : List TextToken} (hzero : (tokens.map (·.id)).count parser.endTokenId = 0) :
      ∀ u ∈ tokens, u.id ≠ parser.endTokenId :=
    fun u hu heq => count_eq_zero.mp hzero (heq ▸ mem_map_of_mem hu)
  exact ⟨hnone (by omega), hnone (by omega)⟩

/-- The start token is only the first one. -/
lemma not_start (previous : List TextToken) {delta : List TextToken} (h : ThinkingStream parser (previous ++ delta))
    (hprevious : previous ≠ []) : parser.startTokenId ∉ delta.map (·.id) := by
  intro hmem
  obtain ⟨before, t, after, rfl, ht, -⟩ := exists_split hmem
  rw [← append_assoc] at h
  exact hprevious (append_eq_nil_iff.mp (h.eq_nil_of_start ht)).1

lemma not_start_rest {rest : List TextToken} (h : ThinkingStream parser (t :: rest)) :
    parser.startTokenId ∉ rest.map (·.id) :=
  h.not_start [t] (cons_ne_nil t [])

end ThinkingStream

end Parts

/-! ## One delta -/

/-- The reasoning of a message; empty without one. -/
def reasoningPart (message : Option DeltaMessage) : Text := (message.bind (·.reasoning)).getD []

/-- The content of a message; empty without one. -/
def contentPart (message : Option DeltaMessage) : Text := (message.bind (·.content)).getD []

lemma getD_orNone (text : Text) : (orNone text).getD [] = text := by
  unfold orNone
  split
  · rename_i hnil
    exact hnil.symm
  · rfl

section Delta

variable {startTokenId endTokenId : TokenId} {delta : List TextToken} {message : Option DeltaMessage}

lemma marks_start : Marks '<' (DeepSeekR1ReasoningParser.new startTokenId endTokenId).startToken :=
  ⟨"think>".toList, rfl, by decide⟩

lemma marks_end : Marks '<' (DeepSeekR1ReasoningParser.new startTokenId endTokenId).endToken :=
  ⟨"/think>".toList, rfl, by decide⟩

variable {parser : BaseThinkingReasoningParser}
  (hparser : parser = DeepSeekR1ReasoningParser.new startTokenId endTokenId)
include hparser

/-- A delta is cut at the end token. -/
lemma cutAtEnd_eq (front middle back : Text) (h : ¬parser.endToken <:+: front ++ middle) :
    parser.cutAtEnd (front ++ (middle ++ (parser.endToken ++ back))) front.length =
      { reasoning := some middle, content := orNone back } := by
  have hmarks : Marks '<' parser.endToken := hparser ▸ marks_end
  rw [← append_assoc, BaseThinkingReasoningParser.cutAtEnd, find, pyFind_marker _ back hmarks h]
  dsimp only
  rw [← Nat.cast_add, slice_natCast, slice_natCast, take_left, drop_left, take_length,
    ← length_append, ← append_assoc, drop_left]

omit hparser in
/-- Without a start token it does not matter whether there was one before. -/
lemma extract_of_not_start {deltaText : Text} {previous delta : List TokenId}
    (h : parser.startTokenId ∉ delta) :
    DeepSeekR1ReasoningParser.extractReasoningStreaming parser deltaText previous delta =
      if delta = [parser.endTokenId] then none
      else if parser.endTokenId ∈ delta then some (parser.cutAtEnd deltaText 0)
      else if parser.endTokenId ∈ previous then some { content := some deltaText }
      else some { reasoning := some deltaText } := by
  have hne : delta ≠ [parser.startTokenId] := by
    rintro rfl
    exact h mem_cons_self
  unfold DeepSeekR1ReasoningParser.extractReasoningStreaming BaseThinkingReasoningParser.extractReasoningStreaming
  simp only [hne, false_or, h, if_false, not_false_eq_true, and_true]
  by_cases hsingle : delta = [parser.endTokenId]
  · rw [if_pos hsingle, if_pos hsingle]
  rw [if_neg hsingle, if_neg hsingle]
  by_cases hprevious : parser.startTokenId ∈ previous
  · rw [if_pos hprevious]
    split
    · rename_i hnone
      split at hnone
      · cases hnone
      · split at hnone <;> cases hnone
    · rename_i ret hret
      rw [if_neg (not_not.mpr hprevious), hret]
  · rw [if_neg hprevious]
    dsimp only
    rw [if_pos hprevious]

/-- What a delta without the start token adds to the parts. -/
lemma parts_of_not_start {previous : List TextToken} (h : ThinkingStream parser (previous ++ delta))
    (hstart : parser.startTokenId ∉ delta.map (·.id))
    (hmessage : message = DeepSeekR1ReasoningParser.extractReasoningStreaming parser (textOf delta)
      (previous.map (·.id)) (delta.map (·.id))) :
    textOf (reasoningTokens parser (previous ++ delta)) =
        textOf (reasoningTokens parser previous) ++ reasoningPart message ∧
      textOf (contentTokens parser (previous ++ delta)) =
        textOf (contentTokens parser previous) ++ contentPart message := by
  rw [extract_of_not_start hstart] at hmessage
  by_cases hend : parser.endTokenId ∈ delta.map (·.id)
  · obtain ⟨before, t, after, rfl, ht, hbefore⟩ := exists_split hend
    rw [← append_assoc] at h ⊢
    have hnone := (h.not_end_around ht).1
    obtain ⟨hreasoning, hcontent⟩ := parts_of_end after hnone ht
    rw [forall_mem_append] at hnone
    rw [map_append, mem_append, not_or] at hstart
    rw [hreasoning, hcontent, filter_append, filter_start_eq_self hstart.1, reasoningTokens_of_not_mem hnone.1,
      contentTokens_of_not_mem hnone.1, textOf_append]
    by_cases hsingle : (before ++ t :: after).map (·.id) = [parser.endTokenId]
    · rw [if_pos hsingle] at hmessage
      have hlength := congrArg List.length hsingle
      simp only [length_map, length_append, length_cons, length_nil] at hlength
      obtain rfl : before = [] := eq_nil_of_length_eq_zero (by omega)
      obtain rfl : after = [] := eq_nil_of_length_eq_zero (by omega)
      rw [hmessage]
      exact ⟨rfl, rfl⟩
    · have hmarker := h.no_marker before ⟨previous, t :: after, rfl⟩ fun u hu =>
        ⟨fun heq => hstart.1 (heq ▸ mem_map_of_mem hu), hbefore u hu⟩
      have hcut := cutAtEnd_eq hparser [] (textOf before) (textOf after) hmarker.2
      have htext : textOf (before ++ t :: after) = [] ++ (textOf before ++ (parser.endToken ++ textOf after)) := by
        rw [textOf_append, textOf_cons, h.end_text t (by simp) ht, nil_append]
      rw [if_neg hsingle, if_pos hend, htext] at hmessage
      rw [hmessage]
      change _ = _ ++ reasoningPart (some (parser.cutAtEnd _ (([] : Text).length : ℤ))) ∧
        _ = _ ++ contentPart (some (parser.cutAtEnd _ (([] : Text).length : ℤ)))
      rw [hcut]
      exact ⟨rfl, (getD_orNone _).symm⟩
  · have hsingle : delta.map (·.id) ≠ [parser.endTokenId] := by
      intro heq
      rw [heq] at hend
      exact hend mem_cons_self
    rw [if_neg hsingle, if_neg hend] at hmessage
    by_cases hprevious : parser.endTokenId ∈ previous.map (·.id)
    · obtain ⟨hreasoning, hcontent⟩ := parts_append hprevious delta
      rw [if_pos hprevious] at hmessage
      rw [hreasoning, hcontent, textOf_append, hmessage]
      exact ⟨(append_nil _).symm, rfl⟩
    · rw [if_neg hprevious] at hmessage
      have hnone {tokens : List TextToken} (hmem : parser.endTokenId ∉ tokens.map (·.id)) :
          ∀ u ∈ tokens, u.id ≠ parser.endTokenId :=
        fun u hu heq => hmem (heq ▸ mem_map_of_mem hu)
      have hall := forall_mem_append.mpr ⟨hnone hprevious, hnone hend⟩
      rw [reasoningTokens_of_not_mem hall, contentTokens_of_not_mem hall,
        reasoningTokens_of_not_mem (hnone hprevious), contentTokens_of_not_mem (hnone hprevious), filter_append,
        filter_start_eq_self hstart, textOf_append, hmessage]
      exact ⟨rfl, rfl⟩

/-- The markers differ in their second letter. -/
lemma not_end_in_start {text : Text} (h : ¬parser.endToken <:+: text) :
    ¬parser.endToken <:+: parser.startToken ++ text := by
  subst hparser
  intro hin
  rcases marks_end.infix_marker_append marks_start hin with hpre | hin
  · exact absurd (cons_prefix_cons.mp (cons_prefix_cons.mp hpre).2).1 (by decide)
  · exact h hin

/-- What a delta with the start token gives. -/
lemma parts_of_start (h : ThinkingStream parser delta) (hids : parser.startTokenId ≠ parser.endTokenId)
    (hstart : parser.startTokenId ∈ delta.map (·.id))
    (hmessage : message = DeepSeekR1ReasoningParser.extractReasoningStreaming parser (textOf delta) []
      (delta.map (·.id))) :
    reasoningPart message =
        (if Leaks parser delta then parser.startToken else []) ++ textOf (reasoningTokens parser delta) ∧
      contentPart message = textOf (contentTokens parser delta) := by
  have hdelta := hstart
  obtain ⟨before, t, rest, rfl, ht, -⟩ := exists_split hstart
  obtain rfl := h.eq_nil_of_start ht
  rw [nil_append] at *
  have hrest := h.not_start_rest
  have htext := h.start_text t mem_cons_self ht
  have htend : t.id ≠ parser.endTokenId := ht ▸ hids
  have hskip : (t :: rest).filter (·.id != parser.startTokenId) = rest.filter (·.id != parser.startTokenId) := by
    rw [filter_cons, if_neg (by simp [ht])]
  unfold DeepSeekR1ReasoningParser.extractReasoningStreaming BaseThinkingReasoningParser.extractReasoningStreaming
    at hmessage
  by_cases hnil : rest = []
  · subst hnil
    have hleaks : ¬Leaks parser [t] := fun hleaks => hleaks.2.1 rfl
    have hsingle : ([t].map (·.id)) = [parser.startTokenId] := by rw [map_singleton, ht]
    have hnone : ∀ u ∈ [t], u.id ≠ parser.endTokenId := by simpa using htend
    rw [if_pos (.inl hsingle)] at hmessage
    rw [if_neg hleaks, reasoningTokens_of_not_mem hnone, contentTokens_of_not_mem hnone, hskip, hmessage]
    exact ⟨rfl, rfl⟩
  have hlength : (t :: rest).length ≠ 1 := by
    have := length_pos_of_ne_nil hnil
    rw [length_cons]
    omega
  have hsingle (id : TokenId) : (t :: rest).map (·.id) ≠ [id] := by
    intro heq
    exact hlength (by simpa using congrArg List.length heq)
  rw [if_neg (not_or.mpr ⟨hsingle _, hsingle _⟩), if_neg not_mem_nil, if_pos hdelta, textOf_cons, htext]
    at hmessage
  by_cases hend : parser.endTokenId ∈ (t :: rest).map (·.id)
  · have hleaks : ¬Leaks parser (t :: rest) := fun hleaks => hleaks.2.2 hend
    rw [if_pos hend] at hmessage
    rw [map_cons, mem_cons] at hend
    obtain ⟨before, u, after, rfl, hu, hbefore⟩ := exists_split (hend.resolve_left htend.symm)
    have hnone : ∀ v ∈ t :: before, v.id ≠ parser.endTokenId := forall_mem_cons.mpr ⟨htend, hbefore⟩
    obtain ⟨hreasoning, hcontent⟩ := parts_of_end after hnone hu
    rw [cons_append] at hreasoning hcontent
    rw [map_append, mem_append, not_or] at hrest
    have hbeforeStart : (t :: before).filter (·.id != parser.startTokenId) = before := by
      rw [filter_cons, if_neg (by simp [ht]), filter_start_eq_self hrest.1]
    have hmarker := h.no_marker before ⟨[t], u :: after, by simp⟩ fun v hv =>
      ⟨fun heq => hrest.1 (heq ▸ mem_map_of_mem hv), hbefore v hv⟩
    have hcut := cutAtEnd_eq hparser _ (textOf before) (textOf after) (not_end_in_start hparser hmarker.2)
    have hmarks : Marks '<' parser.startToken := hparser ▸ marks_start
    have hfind := pyFind_marker [] (textOf before ++ (parser.endToken ++ textOf after)) hmarks
      fun hin => hmarks.ne_nil (infix_nil.mp hin)
    rw [nil_append] at hfind
    rw [textOf_append, textOf_cons, h.end_text u (by simp) hu, find, hfind] at hmessage
    dsimp only at hmessage
    rw [length_nil, Nat.cast_zero, zero_add, hcut] at hmessage
    rw [if_neg hleaks, hreasoning, hcontent, hbeforeStart, hmessage, if_neg (fun hnot => hnot.2 hdelta)]
    exact ⟨rfl, getD_orNone _⟩
  · have hleaks : Leaks parser (t :: rest) := ⟨hdelta, hlength, hend⟩
    have hnone : ∀ u ∈ t :: rest, u.id ≠ parser.endTokenId := fun u hu heq =>
      hend (heq ▸ mem_map_of_mem hu)
    rw [if_neg hend] at hmessage
    dsimp only at hmessage
    rw [if_neg (fun hnot => hnot.2 hdelta)] at hmessage
    rw [if_pos hleaks, reasoningTokens_of_not_mem hnone, contentTokens_of_not_mem hnone, hskip,
      filter_start_eq_self hrest, hmessage]
    exact ⟨rfl, rfl⟩

end Delta

/-! ## The whole text -/

section Whole

variable {startTokenId endTokenId : TokenId} {parser : BaseThinkingReasoningParser}
  (hparser : parser = DeepSeekR1ReasoningParser.new startTokenId endTokenId) {tokens : List TextToken}
include hparser

/-- Without the start token the text is cut at the end token, if it has one. -/
lemma cut_of_not_start (h : ThinkingStream parser tokens)
    (hstart : parser.startTokenId ∉ tokens.map (·.id)) :
    (if (pyFind (textOf tokens) parser.endToken 0).isNone then (some (textOf tokens), none)
      else (some (pyPartition (textOf tokens) parser.endToken).1,
        orNone (pyPartition (textOf tokens) parser.endToken).2.2)) =
      (some (textOf (reasoningTokens parser tokens)),
        if parser.endTokenId ∈ tokens.map (·.id) then orNone (textOf (contentTokens parser tokens)) else none) := by
  have hmarks : Marks '<' parser.endToken := hparser ▸ marks_end
  have hother {piece : List TextToken} (hpiece : piece <:+: tokens) (hnone : ∀ u ∈ piece, u.id ≠ parser.endTokenId) :
      ¬parser.endToken <:+: textOf piece :=
    (h.no_marker piece hpiece fun u hu =>
      ⟨fun heq => hstart (heq ▸ (hpiece.map (·.id)).subset (mem_map_of_mem hu)), hnone u hu⟩).2
  by_cases hend : parser.endTokenId ∈ tokens.map (·.id)
  · rw [if_pos hend]
    obtain ⟨before, t, after, rfl, ht, hnone⟩ := exists_split hend
    obtain ⟨hreasoning, hcontent⟩ := parts_of_end after hnone ht
    have hfind := pyFind_marker (textOf before) (textOf after) hmarks (hother (prefix_append _ _).isInfix hnone)
    rw [map_append, mem_append, not_or] at hstart
    rw [hreasoning, hcontent, filter_start_eq_self hstart.1, pyPartition, textOf_append, textOf_cons,
      h.end_text t (by simp) ht, hfind]
    dsimp only
    rw [take_left, ← length_append, ← append_assoc, drop_left]
    rfl
  · have hnone : ∀ u ∈ tokens, u.id ≠ parser.endTokenId := fun u hu heq => hend (heq ▸ mem_map_of_mem hu)
    rw [if_neg hend, reasoningTokens_of_not_mem hnone, filter_start_eq_self hstart, pyFind_zero hmarks.ne_nil,
      firstAfter_eq_none_of_not_infix hmarks.ne_nil (hother infix_rfl hnone)]
    rfl

/-- Only the start token has its marker in the text. -/
lemma not_start_in_text (h : ThinkingStream parser tokens)
    (hstart : parser.startTokenId ∉ tokens.map (·.id)) : ¬parser.startToken <:+: textOf tokens := by
  have hother {piece : List TextToken} (hpiece : piece <:+: tokens) (hnone : ∀ u ∈ piece, u.id ≠ parser.endTokenId) :
      ¬parser.startToken <:+: textOf piece :=
    (h.no_marker piece hpiece fun u hu =>
      ⟨fun heq => hstart (heq ▸ (hpiece.map (·.id)).subset (mem_map_of_mem hu)), hnone u hu⟩).1
  by_cases hend : parser.endTokenId ∈ tokens.map (·.id)
  · obtain ⟨before, t, after, rfl, ht, hnone⟩ := exists_split hend
    have hbefore := hother (prefix_append before (t :: after)).isInfix hnone
    have hafter := hother ⟨before ++ [t], [], by simp⟩ (h.not_end_around ht).2
    rw [textOf_append, textOf_cons, h.end_text t (by simp) ht]
    subst hparser
    intro hin
    have hsides : _ <:+: textOf before ∨
        _ <:+: (DeepSeekR1ReasoningParser.new startTokenId endTokenId).endToken ++ textOf after :=
      marks_start.infix_append hin
    rcases hsides with hin | hin
    · exact hbefore hin
    · rcases marks_start.infix_marker_append (@marks_end startTokenId endTokenId) hin with hpre | hin
      · exact absurd (cons_prefix_cons.mp (cons_prefix_cons.mp hpre).2).1 (by decide)
      · exact hafter hin
  · exact hother infix_rfl fun u hu heq => hend (heq ▸ mem_map_of_mem hu)

/-- The parts of the whole text are those of its tokens. -/
lemma extractReasoning_textOf (h : ThinkingStream parser tokens)
    (hids : parser.startTokenId ≠ parser.endTokenId) :
    parser.extractReasoning (textOf tokens) = (some (textOf (reasoningTokens parser tokens)),
      if parser.endTokenId ∈ tokens.map (·.id) then orNone (textOf (contentTokens parser tokens)) else none) := by
  have hmarks : Marks '<' parser.startToken := hparser ▸ marks_start
  by_cases hstart : parser.startTokenId ∈ tokens.map (·.id)
  · obtain ⟨before, t, rest, rfl, ht, -⟩ := exists_split hstart
    obtain rfl := h.eq_nil_of_start ht
    rw [nil_append] at *
    have htend : t.id ≠ parser.endTokenId := ht ▸ hids
    have hpos : (t.id != parser.endTokenId) = true := bne_iff_ne.mpr htend
    have hreasoning : reasoningTokens parser (t :: rest) = reasoningTokens parser rest := by
      rw [reasoningTokens, takeWhile_cons, if_pos hpos, filter_cons, if_neg (by simp [ht]), reasoningTokens]
    have hcontent : contentTokens parser (t :: rest) = contentTokens parser rest := by
      rw [contentTokens, dropWhile_cons, if_pos hpos, contentTokens]
    have hmem : parser.endTokenId ∈ (t :: rest).map (·.id) ↔ parser.endTokenId ∈ rest.map (·.id) := by
      rw [map_cons, mem_cons, or_iff_right htend.symm]
    have hfind := pyFind_marker [] (textOf rest) hmarks fun hin => hmarks.ne_nil (infix_nil.mp hin)
    rw [nil_append] at hfind
    have hparts : pyPartition (textOf (t :: rest)) parser.startToken = ([], parser.startToken, textOf rest) := by
      rw [pyPartition, textOf_cons, h.start_text t mem_cons_self ht, hfind]
      dsimp only
      rw [length_nil, zero_add, drop_left, take_zero]
    rw [BaseThinkingReasoningParser.extractReasoning, hparts, hreasoning, hcontent]
    dsimp only
    rw [if_pos hmarks.ne_nil, cut_of_not_start hparser h.of_cons h.not_start_rest]
    simp only [hmem]
  · have hfind := firstAfter_eq_none_of_not_infix hmarks.ne_nil (not_start_in_text hparser h hstart)
    have hparts : pyPartition (textOf tokens) parser.startToken = (textOf tokens, [], []) := by
      rw [pyPartition, pyFind_zero hmarks.ne_nil, hfind]
    rw [BaseThinkingReasoningParser.extractReasoning, hparts]
    dsimp only
    rw [if_neg (not_not.mpr rfl), cut_of_not_start hparser h hstart]

/-! ## All deltas -/

/-- The parts of the messages in a row: what the deltas leave of start tokens is in front of the reasoning. -/
lemma parts_streamMessages (hids : parser.startTokenId ≠ parser.endTokenId) (deltas : List (List TextToken))
    (previous : List TextToken) (h : ThinkingStream parser (previous ++ deltas.flatten)) :
    textOf (reasoningTokens parser previous) ++ ((streamMessages parser previous deltas).map reasoningPart).flatten =
        (deltas.map fun delta => if Leaks parser delta then parser.startToken else []).flatten ++
          textOf (reasoningTokens parser (previous ++ deltas.flatten)) ∧
      textOf (contentTokens parser previous) ++ ((streamMessages parser previous deltas).map contentPart).flatten =
        textOf (contentTokens parser (previous ++ deltas.flatten)) := by
  induction deltas generalizing previous with
  | nil => simp [streamMessages]
  | cons delta deltas ih =>
    rw [flatten_cons, ← append_assoc] at h ⊢
    obtain ⟨hreasoning, hcontent⟩ := ih _ h
    simp only [streamMessages, map_cons, flatten_cons]
    by_cases hstart : parser.startTokenId ∈ delta.map (·.id)
    · -- The start token is the first of all.
      obtain rfl : previous = [] := by
        by_contra hne
        exact h.of_append.not_start _ hne hstart
      obtain ⟨hreasoning', hcontent'⟩ := parts_of_start hparser h.of_append hids hstart rfl
      rw [nil_append] at *
      rw [map_nil, hreasoning', hcontent', ← hcontent, append_assoc, hreasoning]
      have hnil : textOf (reasoningTokens parser []) = [] := rfl
      rw [hnil, nil_append, append_assoc]
      exact ⟨rfl, rfl⟩
    · obtain ⟨hreasoning', hcontent'⟩ := parts_of_not_start hparser h.of_append hstart rfl
      have hleaks : ¬Leaks parser delta := fun hleaks => hstart hleaks.1
      rw [if_neg hleaks, nil_append, ← append_assoc, ← hreasoning', hreasoning, ← append_assoc,
        ← hcontent', hcontent]
      exact ⟨rfl, rfl⟩

end Whole

/-- The messages of the deltas have the reasoning and the content of the whole text. -/
def StreamAgrees (parser : BaseThinkingReasoningParser) (deltas : List (List TextToken)) : Prop :=
  let messages := streamMessages parser [] deltas
  let whole := parser.extractReasoning (textOf deltas.flatten)
  (messages.map reasoningPart).flatten = whole.1.getD [] ∧ (messages.map contentPart).flatten = whole.2.getD []

instance (parser : BaseThinkingReasoningParser) (deltas : List (List TextToken)) :
    Decidable (StreamAgrees parser deltas) := instDecidableAnd

/-- For every grouping of a stream into deltas. -/
theorem streamAgrees_iff {startTokenId endTokenId : TokenId} (hids : startTokenId ≠ endTokenId)
    {parser : BaseThinkingReasoningParser} (hparser : parser = DeepSeekR1ReasoningParser.new startTokenId endTokenId)
    {deltas : List (List TextToken)} (h : ThinkingStream parser deltas.flatten) :
    StreamAgrees parser deltas ↔ ∀ delta ∈ deltas, parser.startTokenId ∈ delta.map (·.id) →
      delta.length = 1 ∨ parser.endTokenId ∈ delta.map (·.id) := by
  have hids' : parser.startTokenId ≠ parser.endTokenId := by
    rw [hparser]
    exact hids
  obtain ⟨hreasoning, hcontent⟩ := parts_streamMessages hparser hids' deltas [] h
  rw [nil_append] at hreasoning hcontent
  have hwhole : (parser.extractReasoning (textOf deltas.flatten)).2.getD [] =
      textOf (contentTokens parser deltas.flatten) := by
    rw [extractReasoning_textOf hparser h hids']
    dsimp only
    split
    · exact getD_orNone _
    · rename_i hend
      rw [contentTokens_of_not_mem fun u hu heq => hend (heq ▸ mem_map_of_mem hu)]
      rfl
  have hne : parser.startToken ≠ [] := by
    rw [hparser]
    exact cons_ne_nil _ _
  have hempty : textOf (reasoningTokens parser []) = [] ∧ textOf (contentTokens parser []) = [] := ⟨rfl, rfl⟩
  rw [hempty.1, nil_append] at hreasoning
  rw [hempty.2, nil_append] at hcontent
  have hwhole' : (parser.extractReasoning (textOf deltas.flatten)).1.getD [] =
      textOf (reasoningTokens parser deltas.flatten) := by
    rw [extractReasoning_textOf hparser h hids', Option.getD_some]
  simp only [StreamAgrees, hreasoning, hcontent, hwhole, hwhole', and_true]
  rw [append_left_eq_self, flatten_eq_nil_iff]
  constructor
  · intro hnone delta hdelta hstart
    have hleaks := hnone _ (mem_map_of_mem hdelta)
    by_contra hcond
    rw [not_or] at hcond
    rw [if_pos (show Leaks parser delta from ⟨hstart, hcond⟩)] at hleaks
    exact hne hleaks
  · intro hcond part hpart
    obtain ⟨delta, hdelta, rfl⟩ := List.mem_map.mp hpart
    refine if_neg ?_
    rintro ⟨hstart, hlength, hend⟩
    exact (hcond delta hdelta hstart).elim hlength hend

/-- A start token, a word, the end token and a word in two deltas. -/
theorem streamAgrees_iff_twoDeltas :
    StreamAgrees (DeepSeekR1ReasoningParser.new 1 2)
        [[⟨1, "<think>".toList⟩], [⟨5, "a".toList⟩, ⟨2, "</think>".toList⟩, ⟨6, "b".toList⟩]] ↔
      ∀ delta ∈ [[⟨1, "<think>".toList⟩], [⟨5, "a".toList⟩, ⟨2, "</think>".toList⟩, ⟨6, "b".toList⟩]],
        1 ∈ delta.map TextToken.id → delta.length = 1 ∨ 2 ∈ delta.map TextToken.id := by
  apply streamAgrees_iff (by decide) rfl
  constructor
  · decide
  · decide
  · decide
  · decide
  · intro piece hpiece hother
    have hletters : ∀ t ∈ piece, '<' ∉ t.text := by
      intro t ht
      have hmem := hpiece.subset ht
      have hids := hother t ht
      fin_cases hmem
      · exact absurd rfl hids.1
      · decide
      · exact absurd rfl hids.2
      · decide
    have hnone : '<' ∉ textOf piece := by
      intro hmem
      obtain ⟨text, htext, hletter⟩ := List.mem_flatten.mp hmem
      obtain ⟨t, ht, rfl⟩ := List.mem_map.mp htext
      exact hletters t ht hletter
    exact ⟨fun hin => hnone (hin.subset mem_cons_self), fun hin => hnone (hin.subset mem_cons_self)⟩

/-- Two tokens in the first delta, as with speculative decoding. -/
theorem stream_disagrees_firstDelta :
    ¬StreamAgrees (DeepSeekR1ReasoningParser.new 1 2) [[⟨1, "<think>".toList⟩, ⟨5, "a".toList⟩]] := by
  decide

end VllmRuntime.Frontend
