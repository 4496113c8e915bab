import Mathlib.Data.List.Infix
import Mathlib.Tactic

/-! # Occurrences of words in a growing text

A text grows at its end. An occurrence of a word stays where it is, and it was completed by the piece in
which it ends; of several words the first in the list that was completed is looked for. -/

namespace Occurrences

open List

variable {α : Type*} {word text more : List α} {c : α} {i : ℕ}

/-- A word is at a place of a text. -/
def OccursAt (word text : List α) (i : ℕ) : Prop := word <+: text.drop i

lemma OccursAt.end_le (h : OccursAt word text i) (hword : word ≠ []) :
    i + word.length ≤ text.length := by
  have hlen := h.length_le
  have hpos := length_pos_of_ne_nil hword
  rw [length_drop] at hlen
  omega

/-- What is appended to the text does not matter to an occurrence that ends before. -/
lemma occursAt_append_iff (h : i + word.length ≤ text.length) (more : List α) :
    OccursAt word (text ++ more) i ↔ OccursAt word text i := by
  unfold OccursAt
  rw [drop_append_of_le_length (by omega)]
  constructor
  · intro hpre
    refine prefix_of_prefix_length_le hpre (prefix_append _ _) ?_
    rw [length_drop]
    omega
  · exact fun hpre => hpre.trans (prefix_append _ _)

/-! ## Markers

A marker has its first letter nowhere else, so it overlaps with no other marker of that letter. -/

/-- The first letter of a word is in no other place of it. -/
def Marks (c : α) (word : List α) : Prop := ∃ rest, word = c :: rest ∧ c ∉ rest

lemma Marks.ne_nil (hword : Marks c word) : word ≠ [] := by
  obtain ⟨rest, rfl, -⟩ := hword
  exact cons_ne_nil c rest

lemma Marks.prefix_of_append (hword : Marks c word) (htext : text ≠ [])
    (h : word <+: text ++ c :: more) : word <+: text := by
  obtain ⟨rest, rfl, hrest⟩ := hword
  rcases Nat.lt_or_ge text.length (c :: rest).length with hlt | hle
  · -- The letter is in the text, and again after it.
    obtain ⟨after, hafter⟩ := prefix_of_prefix_length_le (prefix_append text _) h hlt.le
    obtain ⟨first, text, rfl⟩ := exists_cons_of_ne_nil htext
    obtain ⟨rfl, rfl⟩ := cons.inj hafter
    change first :: text ++ after <+: first :: text ++ first :: more at h
    rw [prefix_append_right_inj] at h
    cases after with
    | nil => simp at hlt
    | cons d after =>
      rw [cons_prefix_cons] at h
      exact absurd (h.1 ▸ mem_append_right text mem_cons_self) hrest
  · exact prefix_of_prefix_length_le h (prefix_append _ _) hle

/-- A marker is on one side of the start of another. -/
lemma Marks.infix_append (hword : Marks c word) (h : word <:+: text ++ c :: more) :
    word <:+: text ∨ word <:+: c :: more := by
  induction text with
  | nil => exact .inr h
  | cons d text ih =>
    rcases infix_cons_iff.mp h with hpre | hin
    · exact .inl (hword.prefix_of_append (cons_ne_nil d text) hpre).isInfix
    · exact (ih hin).imp (fun htext => htext.trans (suffix_cons d text).isInfix) id

/-- A marker does not start inside of another. -/
lemma Marks.infix_marker_append {marker : List α} (hword : Marks c word) (hmarker : Marks c marker)
    (h : word <:+: marker ++ more) : word <+: marker ++ more ∨ word <:+: more := by
  obtain ⟨rest, rfl, hrest⟩ := hmarker
  rcases infix_cons_iff.mp h with hpre | hin
  · exact .inl hpre
  · right
    clear h
    induction rest with
    | nil => exact hin
    | cons d rest ih =>
      rw [mem_cons, not_or] at hrest
      rcases infix_cons_iff.mp hin with hpre | hin
      · obtain ⟨tail, rfl, -⟩ := hword
        exact absurd (cons_prefix_cons.mp hpre).1 hrest.1
      · exact ih hrest.2 hin

section First

variable [BEq α] [LawfulBEq α] {text word : List α} {point i : ℕ} {words : List (List α)}

/-- The first place of a word that ends after a point. -/
def firstAfter (word text : List α) (point : ℕ) : Option ℕ :=
  (List.range (text.length + 1)).find? fun i => decide (point < i + word.length) && word.isPrefixOf (text.drop i)

lemma firstAfter_eq_some_iff (hword : word ≠ []) :
    firstAfter word text point = some i ↔ OccursAt word text i ∧ point < i + word.length ∧
      ∀ j < i, OccursAt word text j → j + word.length ≤ point := by
  simp only [firstAfter, find?_range_eq_some, Bool.and_eq_true, decide_eq_true_eq,
    isPrefixOf_iff_prefix, mem_range, Bool.not_eq_true', Bool.and_eq_false_iff, decide_eq_false_iff_not]
  constructor
  · rintro ⟨⟨hpoint, hat⟩, -, hfirst⟩
    refine ⟨hat, hpoint, fun j hj hoccurs => ?_⟩
    rcases hfirst j hj with hle | hnot
    · omega
    · exact absurd (List.isPrefixOf_iff_prefix.mpr hoccurs) (by simp [hnot])
  · rintro ⟨hat, hpoint, hfirst⟩
    refine ⟨⟨hpoint, hat⟩, by have := hat.end_le hword; omega, fun j hj => ?_⟩
    by_cases hoccurs : OccursAt word text j
    · have hle := hfirst j hj hoccurs
      exact .inl (by omega)
    · exact .inr (Bool.eq_false_iff.mpr fun hpre => hoccurs (List.isPrefixOf_iff_prefix.mp hpre))

lemma firstAfter_eq_none_iff (hword : word ≠ []) :
    firstAfter word text point = none ↔ ∀ i, OccursAt word text i → i + word.length ≤ point := by
  simp only [firstAfter, find?_eq_none, mem_range, Bool.and_eq_true, decide_eq_true_eq,
    isPrefixOf_iff_prefix, not_and]
  constructor
  · intro hnone i hat
    have hend := hat.end_le hword
    by_contra hlt
    exact hnone i (by omega) (by omega) hat
  · intro hle i _ hlt hat
    have := hle i hat
    omega

/-- The first occurrence stays the first one. -/
lemma firstAfter_append (hword : word ≠ []) (h : firstAfter word text point = some i) (more : List α) :
    firstAfter word (text ++ more) point = some i := by
  rw [firstAfter_eq_some_iff hword] at h ⊢
  obtain ⟨hat, hpoint, hfirst⟩ := h
  have hend := hat.end_le hword
  refine ⟨(occursAt_append_iff hend more).mpr hat, hpoint, fun j hj hoccurs => hfirst j hj ?_⟩
  exact (occursAt_append_iff (by omega) more).mp hoccurs

/-- The point may be moved to before where the first occurrence ends. -/
lemma firstAfter_of_le (hword : word ≠ []) {point' : ℕ} (hle : point ≤ point')
    (h : ∀ i, OccursAt word text i → i + word.length ≤ point' → i + word.length ≤ point) :
    firstAfter word text point = firstAfter word text point' := by
  cases hfirst : firstAfter word text point' with
  | none =>
    rw [firstAfter_eq_none_iff hword] at hfirst ⊢
    exact fun i hat => h i hat (hfirst i hat)
  | some i =>
    rw [firstAfter_eq_some_iff hword] at hfirst ⊢
    obtain ⟨hat, hpoint, hbefore⟩ := hfirst
    exact ⟨hat, by omega, fun j hj hoccurs => h j hoccurs (hbefore j hj hoccurs)⟩

/-- The first place of a marker that is not in the text before. -/
lemma firstAfter_marker {marker : List α} (hmarker : Marks c marker) (h : ¬marker <:+: text) :
    firstAfter marker (text ++ (marker ++ more)) 0 = some text.length := by
  obtain ⟨rest, hcons, -⟩ := id hmarker
  have hpos := length_pos_of_ne_nil hmarker.ne_nil
  rw [firstAfter_eq_some_iff hmarker.ne_nil]
  refine ⟨?_, by omega, fun j hj hat => ?_⟩
  · rw [OccursAt, drop_left]
    exact prefix_append _ _
  · rw [OccursAt, drop_append_of_le_length hj.le] at hat
    have hdrop : text.drop j ≠ [] := by
      rw [ne_eq, drop_eq_nil_iff]
      omega
    have hpre : marker <+: text.drop j := by
      apply hmarker.prefix_of_append hdrop
      rwa [hcons, cons_append, ← hcons] at hat
    exact absurd (hpre.isInfix.trans (drop_suffix j text).isInfix) h

lemma firstAfter_eq_none_of_not_infix (hword : word ≠ []) (h : ¬word <:+: text) :
    firstAfter word text 0 = none := by
  rw [firstAfter_eq_none_iff hword]
  intro i hat
  exact absurd (hat.isInfix.trans (drop_suffix i text).isInfix) h

/-! ## Several words -/

/-- The first word in the list that ends after a point, with its first place. -/
def firstMatch (words : List (List α)) (text : List α) (point : ℕ) : Option (List α × ℕ) :=
  words.findSome? fun word => (firstAfter word text point).map (word, ·)

lemma firstMatch_eq_none_iff (hwords : ∀ word ∈ words, word ≠ []) :
    firstMatch words text point = none ↔
      ∀ word ∈ words, ∀ i, OccursAt word text i → i + word.length ≤ point := by
  simp only [firstMatch, findSome?_eq_none_iff, Option.map_eq_none_iff]
  exact forall₂_congr fun word hword => firstAfter_eq_none_iff (hwords word hword)

/-- The word that is found is the first one of the list: none of those before it ends after the point. -/
lemma firstMatch_eq_some_iff (hwords : ∀ word ∈ words, word ≠ []) :
    firstMatch words text point = some (word, i) ↔
      word ∈ words ∧ firstAfter word text point = some i ∧
        ∀ other ∈ words.takeWhile (· != word), ∀ j, OccursAt other text j → j + other.length ≤ point := by
  induction words with
  | nil => simp [firstMatch]
  | cons first words ih =>
    rw [forall_mem_cons] at hwords
    have hcons : firstMatch (first :: words) text point =
        ((firstAfter first text point).map (first, ·)).or (firstMatch words text point) := by
      rw [firstMatch, findSome?_cons]
      cases firstAfter first text point <;> rfl
    rw [hcons]
    by_cases hfirst : first = word
    · subst hfirst
      have hnothing : (first :: words).takeWhile (· != first) = [] := by simp
      rw [hnothing]
      cases hat : firstAfter first text point with
      | none =>
        -- Another copy of the word is not found either.
        have hnever : firstMatch words text point ≠ some (first, i) := by
          intro hfound
          have hword := ((ih hwords.2).mp hfound).2.1
          rw [hat] at hword
          cases hword
        simpa using hnever
      | some j => simp
    · have htake : (first :: words).takeWhile (· != word) = first :: words.takeWhile (· != word) := by
        rw [takeWhile_cons_of_pos (by simpa using hfirst)]
      rw [htake, forall_mem_cons]
      cases hat : firstAfter first text point with
      | none =>
        have hnone := (firstAfter_eq_none_iff hwords.1).mp hat
        simp only [Option.map_none, Option.none_or, ih hwords.2, mem_cons, Ne.symm hfirst, false_or,
          and_congr_right_iff]
        exact fun _ _ => ⟨fun hrest => ⟨hnone, hrest⟩, fun hall => hall.2⟩
      | some j =>
        obtain ⟨hoccurs, hpoint, -⟩ := (firstAfter_eq_some_iff hwords.1).mp hat
        constructor
        · intro heq
          exact absurd (congrArg Prod.fst (Option.some.inj heq)) hfirst
        · rintro ⟨-, -, hall, -⟩
          have := hall j hoccurs
          omega

/-! ## Reading in chunks -/

/-- Reads chunks of pieces up to the first one that completes a word; the text is cut before the word that is
found, or after it. -/
def scan (words : List (List α)) (includes : Bool) (text : List α) : List (List (List α)) → List α × Option (List α)
  | [] => (text, none)
  | chunk :: chunks =>
    match firstMatch words (text ++ chunk.flatten) text.length with
    | some (word, i) => ((text ++ chunk.flatten).take (if includes then i + word.length else i), some word)
    | none => scan words includes (text ++ chunk.flatten) chunks

/-- When a piece of a chunk is the first one to complete words, no word that is listed before the one found
there is completed by a later piece of the chunk. -/
def SettledIn (words : List (List α)) (text : List α) (chunk : List (List α)) : Prop :=
  ∀ before piece after, chunk = before ++ piece :: after →
    firstMatch words (text ++ before.flatten) text.length = none →
      ∀ word i, firstMatch words (text ++ before.flatten ++ piece) (text ++ before.flatten).length = some (word, i) →
        ∀ other ∈ words.takeWhile (· != word), ∀ j, OccursAt other (text ++ chunk.flatten) j →
          j + other.length ≤ (text ++ before.flatten ++ piece).length

/-- The first chunk that completes a word is settled. -/
def Settled (words : List (List α)) (text : List α) : List (List (List α)) → Prop
  | [] => True
  | chunk :: chunks => SettledIn words text chunk ∧
      (firstMatch words (text ++ chunk.flatten) text.length = none → Settled words (text ++ chunk.flatten) chunks)

omit [LawfulBEq α] in
lemma scan_append_congr {includes : Bool} {chunks chunks' : List (List (List α))}
    (h : ∀ text, scan words includes text chunks = scan words includes text chunks')
    (first : List (List (List α))) (text : List α) :
    scan words includes text (first ++ chunks) = scan words includes text (first ++ chunks') := by
  induction first generalizing text with
  | nil => exact h text
  | cons chunk first ih => rw [cons_append, cons_append, scan, scan, ih]

section Scan

variable {words : List (List α)} {includes : Bool} {text : List α} (hwords : ∀ word ∈ words, word ≠ [])
  {piece : List α}
include hwords

/-- No word is completed by several pieces exactly if none is completed by the first and none by the rest. -/
lemma firstMatch_append_eq_none_iff (first rest : List α) :
    firstMatch words (text ++ (first ++ rest)) text.length = none ↔
      firstMatch words (text ++ first) text.length = none ∧
        firstMatch words (text ++ first ++ rest) (text ++ first).length = none := by
  rw [← append_assoc]
  simp only [firstMatch_eq_none_iff hwords]
  constructor
  · intro hnone
    refine ⟨fun word hword i hat => ?_, fun word hword i hat => ?_⟩
    · exact hnone word hword i ((occursAt_append_iff (hat.end_le (hwords word hword)) rest).mpr hat)
    · have hle := hnone word hword i hat
      rw [length_append]
      omega
  · rintro ⟨hfirst, hrest⟩ word hword i hat
    exact hfirst word hword i ((occursAt_append_iff (hrest word hword i hat) rest).mp hat)

lemma firstMatch_nil : firstMatch words text text.length = none :=
  (firstMatch_eq_none_iff hwords).mpr fun word hword _ hat => hat.end_le (hwords word hword)

lemma scan_nil_cons (chunks : List (List (List α))) :
    scan words includes text ([] :: chunks) = scan words includes text chunks := by
  rw [scan, flatten_nil, append_nil, firstMatch_nil hwords]

/-- Pieces that complete nothing are read one by one. -/
lemma scan_pieces_of_none (pieces : List (List α)) (chunks : List (List (List α)))
    (h : firstMatch words (text ++ pieces.flatten) text.length = none) :
    scan words includes text (pieces.map ([·]) ++ chunks) = scan words includes (text ++ pieces.flatten) chunks := by
  induction pieces generalizing text with
  | nil => simp
  | cons piece pieces ih =>
    rw [flatten_cons, firstMatch_append_eq_none_iff hwords] at h
    rw [map_cons, cons_append, scan, flatten_singleton, h.1]
    dsimp only
    rw [ih h.2, flatten_cons, append_assoc]

/-- The first piece of a chunk that completes a word. -/
lemma exists_first_piece (pieces : List (List α))
    (h : firstMatch words (text ++ pieces.flatten) text.length ≠ none) :
    ∃ before piece after word i, pieces = before ++ piece :: after ∧
      firstMatch words (text ++ before.flatten) text.length = none ∧
      firstMatch words (text ++ before.flatten ++ piece) (text ++ before.flatten).length = some (word, i) := by
  induction pieces generalizing text with
  | nil => exact absurd (by simpa using firstMatch_nil hwords) h
  | cons piece pieces ih =>
    rw [flatten_cons, ne_eq, firstMatch_append_eq_none_iff hwords, not_and] at h
    cases hpiece : firstMatch words (text ++ piece) text.length with
    | some found =>
      refine ⟨[], piece, pieces, found.1, found.2, rfl, ?_, by simpa using hpiece⟩
      simpa using firstMatch_nil hwords
    | none =>
      obtain ⟨before, piece', after, word, i, rfl, hbefore, hfound⟩ := ih (h hpiece)
      refine ⟨piece :: before, piece', after, word, i, rfl, ?_, ?_⟩
      · rw [flatten_cons, firstMatch_append_eq_none_iff hwords]
        exact ⟨hpiece, hbefore⟩
      · rw [flatten_cons, ← append_assoc]
        exact hfound

/-- Where the first piece that completes words completes one, the whole chunk has the same match exactly if no
word listed before it ends later in the chunk. -/
lemma firstMatch_chunk_iff {before after : List α}
    (hbefore : firstMatch words (text ++ before) text.length = none)
    (hpiece : firstMatch words (text ++ before ++ piece) (text ++ before).length = some (word, i)) :
    firstMatch words (text ++ before ++ piece ++ after) text.length = some (word, i) ↔
      ∀ other ∈ words.takeWhile (· != word), ∀ j, OccursAt other (text ++ before ++ piece ++ after) j →
        j + other.length ≤ (text ++ before ++ piece).length := by
  rw [firstMatch_eq_none_iff hwords] at hbefore
  rw [firstMatch_eq_some_iff hwords] at hpiece ⊢
  obtain ⟨hmem, hfirst, hothers⟩ := hpiece
  have hgrow : text.length ≤ (text ++ before).length := by simp
  -- What ends in the text before the piece ends in the text before the chunk.
  have hearly (other : List α) (hother : other ∈ words) (j : ℕ) (hat : OccursAt other (text ++ before ++ piece) j)
      (hle : j + other.length ≤ (text ++ before).length) : j + other.length ≤ text.length :=
    hbefore other hother j ((occursAt_append_iff hle piece).mp hat)
  constructor
  · rintro ⟨-, -, hnone⟩ other hother j hat
    have hle := hnone other hother j hat
    simp only [length_append] at hle ⊢
    omega
  · intro hlater
    refine ⟨hmem, ?_, fun other hother j hat => ?_⟩
    · apply firstAfter_append (hwords word hmem)
      rw [firstAfter_of_le (hwords word hmem) hgrow (hearly word hmem)]
      exact hfirst
    · have hle := hlater other hother j hat
      have hpiece := (occursAt_append_iff hle after).mp hat
      exact hearly other (takeWhile_subset _ hother) j hpiece (hothers other hother j hpiece)

/-- Read one by one, the pieces of a chunk are read up to the first one that completes a word. -/
lemma scan_pieces_of_piece {before after : List (List α)} (chunks : List (List (List α)))
    (hbefore : firstMatch words (text ++ before.flatten) text.length = none)
    (hpiece : firstMatch words (text ++ before.flatten ++ piece) (text ++ before.flatten).length = some (word, i)) :
    scan words includes text ((before ++ piece :: after).map ([·]) ++ chunks) =
      ((text ++ before.flatten ++ piece).take (if includes then i + word.length else i), some word) := by
  rw [map_append, append_assoc, scan_pieces_of_none hwords before _ hbefore, map_cons, cons_append,
    scan, flatten_singleton, hpiece]

variable (includes) in
/-- Chunks are read like their pieces one by one exactly if they are settled. -/
lemma scan_eq_scan_pieces_iff (chunks : List (List (List α))) :
    scan words includes text chunks = scan words includes text (chunks.flatMap (·.map ([·]))) ↔
      Settled words text chunks := by
  induction chunks generalizing text with
  | nil => simp [Settled]
  | cons chunk chunks ih =>
    rw [flatMap_cons, Settled]
    cases hchunk : firstMatch words (text ++ chunk.flatten) text.length with
    | none =>
      have hsettled : SettledIn words text chunk := by
        rintro before piece after rfl - word i hpiece
        rw [flatten_append, flatten_cons, firstMatch_append_eq_none_iff hwords,
          firstMatch_append_eq_none_iff hwords, hpiece] at hchunk
        cases hchunk.2.1
      rw [scan_pieces_of_none hwords chunk _ hchunk, scan, hchunk]
      simpa [hsettled] using ih
    | some found =>
      obtain ⟨word', i'⟩ := found
      simp only [reduceCtorEq, false_implies, and_true]
      have hscan : scan words includes text (chunk :: chunks) =
          ((text ++ chunk.flatten).take (if includes then i' + word'.length else i'), some word') := by
        rw [scan, hchunk]
      rw [hscan]
      constructor
      · rintro heq before piece after rfl hbefore word i hpiece
        rw [scan_pieces_of_piece hwords _ hbefore hpiece] at heq
        cases congrArg Prod.snd heq
        intro other hother j hat
        have hle := ((firstMatch_eq_some_iff hwords).mp hchunk).2.2 other hother j hat
        simp only [length_append] at hle ⊢
        omega
      · intro hsettled
        obtain ⟨before, piece, after, word, i, rfl, hbefore, hpiece⟩ :=
          exists_first_piece hwords chunk (by rw [hchunk]; exact Option.some_ne_none _)
        rw [scan_pieces_of_piece hwords _ hbefore hpiece]
        have hflat : text ++ (before ++ piece :: after).flatten =
            text ++ before.flatten ++ piece ++ after.flatten := by
          simp
        have hsame := (firstMatch_chunk_iff hwords hbefore hpiece).mpr
          (hflat ▸ hsettled before piece after rfl hbefore word i hpiece)
        rw [hflat, hsame] at hchunk
        obtain ⟨rfl, rfl⟩ := Prod.mk.inj (Option.some.inj hchunk)
        have hword := ((firstMatch_eq_some_iff hwords).mp hpiece).1
        have hat := ((firstAfter_eq_some_iff (hwords word hword)).mp
          ((firstMatch_eq_some_iff hwords).mp hpiece).2.1).1
        have hend := hat.end_le (hwords word hword)
        rw [hflat, take_append_of_le_length]
        split <;> omega

end Scan

end First

end Occurrences
