import Mathlib.Tactic

/-! # Self-delimiting codes

An encoding whose code words can be read off the front of any longer word. Such codes
are injective, no code word is a proper prefix of another, and they compose. -/

namespace VllmRuntime

open List

variable {σ α β : Type*} {one stop : σ} {encode : α → List σ}

/-- The front of a word determines which value was written there. -/
def SelfDelimiting (encode : α → List σ) : Prop :=
  ∀ a b front back, encode a ++ front = encode b ++ back → a = b ∧ front = back

namespace SelfDelimiting

variable {encode : α → List σ}

lemma injective (h : SelfDelimiting encode) :
    Function.Injective encode := by
  intro a b hab
  exact (h a b [] [] (by rw [hab])).1

lemma eq_of_isPrefix (h : SelfDelimiting encode) {a b : α} (hab : encode a <+: encode b) : a = b := by
  obtain ⟨tail, htail⟩ := hab
  exact (h a b tail [] (by simpa using htail)).1

lemma comp (h : SelfDelimiting encode) {f : β → α} (hf : Function.Injective f) :
    SelfDelimiting (encode ∘ f) := by
  intro a b front back hab
  obtain ⟨heq, hrest⟩ := h _ _ front back hab
  exact ⟨hf heq, hrest⟩

lemma pair {encode' : β → List σ} (h : SelfDelimiting encode) (h' : SelfDelimiting encode') :
    SelfDelimiting fun p : α × β => encode p.1 ++ encode' p.2 := by
  rintro ⟨a, b⟩ ⟨c, d⟩ front back hab
  simp only [append_assoc] at hab
  obtain ⟨rfl, hrest⟩ := h a c _ _ hab
  obtain ⟨rfl, hfinal⟩ := h' b d _ _ hrest
  exact ⟨rfl, hfinal⟩

end SelfDelimiting

/-- Numbers in unary, ended by a different symbol. -/
def unary (one stop : σ) (n : ℕ) : List σ := List.replicate n one ++ [stop]

lemma unary_selfDelimiting (hne : one ≠ stop) :
    SelfDelimiting (unary one stop) := by
  intro n
  induction n with
  | zero =>
    intro m front back h
    cases m with
    | zero => simpa [unary] using h
    | succ m => simp [unary, replicate_succ, hne.symm] at h
  | succ n ih =>
    intro m front back h
    cases m with
    | zero => simp [unary, replicate_succ, hne] at h
    | succ m =>
      have h' : unary one stop n ++ front = unary one stop m ++ back := by
        simpa [unary, replicate_succ] using h
      obtain ⟨rfl, hrest⟩ := ih m front back h'
      exact ⟨rfl, hrest⟩

/-- A list is its length in unary followed by its entries. -/
def encodeList (one stop : σ) (encode : α → List σ) (l : List α) : List σ :=
  unary one stop l.length ++ l.flatMap encode

lemma encodeList_selfDelimiting (hne : one ≠ stop) (h : SelfDelimiting encode) :
    SelfDelimiting (encodeList one stop encode) := by
  have entries : ∀ (l l' : List α) (front back : List σ), l.length = l'.length →
      l.flatMap encode ++ front = l'.flatMap encode ++ back → l = l' ∧ front = back := by
    intro l
    induction l with
    | nil =>
      intro l' front back hlen hcode
      obtain rfl := List.length_eq_zero_iff.mp hlen.symm
      exact ⟨rfl, hcode⟩
    | cons a l ih =>
      intro l' front back hlen hcode
      cases l' with
      | nil => simp at hlen
      | cons b l' =>
        simp only [flatMap_cons, append_assoc] at hcode
        obtain ⟨rfl, hrest⟩ := h a b _ _ hcode
        obtain ⟨rfl, hfinal⟩ := ih l' front back (by simpa using hlen) hrest
        exact ⟨rfl, hfinal⟩
  intro l l' front back hcode
  simp only [encodeList, append_assoc] at hcode
  obtain ⟨hlen, hrest⟩ := unary_selfDelimiting hne _ _ _ _ hcode
  exact entries l l' front back hlen hrest

/-- Two codes side by side, told apart by their first symbol. -/
def encodeSum (left right : σ) (encode : α → List σ) (encode' : β → List σ) : α ⊕ β → List σ
  | .inl a => left :: encode a
  | .inr b => right :: encode' b

lemma encodeSum_selfDelimiting {left right : σ} (hne : left ≠ right) {encode' : β → List σ}
    (h : SelfDelimiting encode) (h' : SelfDelimiting encode') :
    SelfDelimiting (encodeSum left right encode encode') := by
  rintro (a | a) (b | b) front back hcode
  · obtain ⟨rfl, hrest⟩ := h a b front back (by simpa [encodeSum] using hcode)
    exact ⟨rfl, hrest⟩
  · simp [encodeSum, hne] at hcode
  · simp [encodeSum, hne.symm] at hcode
  · obtain ⟨rfl, hrest⟩ := h' a b front back (by simpa [encodeSum] using hcode)
    exact ⟨rfl, hrest⟩

end VllmRuntime
