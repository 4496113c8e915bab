import VllmRuntime.Model.Request
import VllmRuntime.Shared.HashChain
import Mathlib.Data.List.TakeWhile

/-! # What one pass of the block hasher digests

The hasher carries a cursor over the multimodal features from block to block. Read from
the first block on, the cursor only skips features that end before the block starts, so
the digested inputs have a description without it. -/

namespace VllmRuntime.BlockHash

open List

variable {s e : ℕ} {features : List MultiModalFeatureSpec} {request : Request} {α : Type*} {c : ℤ}

/-- The tokens and the extra keys of one block. -/
abbrev BlockInput := List TokenId × Option (List ExtraKey)

section Chain

variable (hashFunction : HashInput → BlockHash) (noneHash : BlockHash)

def hashStep (parent : Option BlockHash) (input : BlockInput) : BlockHash :=
  hashBlockTokens hashFunction noneHash parent input.1 input.2

/-- The inputs that `requestBlockHasherLoop` digests, in order. -/
def loopInputs (blockSize : ℕ) (request : Request) : ℕ → ℕ → ℤ → List BlockInput
  | 0, _, _ => []
  | numBlocks + 1, startTokenIdx, currMmIdx =>
    let endTokenIdx := startTokenIdx + blockSize
    let extra := generateBlockHashExtraKeys request startTokenIdx endTokenIdx currMmIdx
    ((request.allTokenIds.take endTokenIdx).drop startTokenIdx, extra.1) ::
      loopInputs blockSize request numBlocks endTokenIdx extra.2

lemma requestBlockHasherLoop_eq_chain (blockSize : ℕ) (request : Request)
    (numBlocks startTokenIdx : ℕ) (currMmIdx : ℤ) (prev : Option BlockHash) :
    requestBlockHasherLoop hashFunction noneHash blockSize request numBlocks startTokenIdx
        currMmIdx prev =
      HashChain.chain (hashStep hashFunction noneHash) prev
        (loopInputs blockSize request numBlocks startTokenIdx currMmIdx) := by
  induction numBlocks generalizing startTokenIdx currMmIdx prev with
  | zero => rfl
  | succ numBlocks ih =>
    simp only [requestBlockHasherLoop, loopInputs, HashChain.chain_cons, ih]
    rfl

end Chain

/-! ## Features before, inside and after a block -/

/-- Features in prompt order that do not overlap. -/
def Ordered (features : List MultiModalFeatureSpec) : Prop :=
  features.Pairwise fun f g => f.mmPosition.stop ≤ g.mmPosition.offset

/-- The feature lies before position `s`: a scan that has reached `s` is done with it. -/
def passed (s : ℕ) (f : MultiModalFeatureSpec) : Bool :=
  decide (f.mmPosition.offset < s ∧ f.mmPosition.stop ≤ s)

/-- The identifiers a block `[s, e)` owes to the multimodal features. -/
def mmKeys (features : List MultiModalFeatureSpec) (s e : ℕ) : List String :=
  ((features.dropWhile (passed s)).takeWhile fun f => decide (f.mmPosition.offset < e)).map
    MultiModalFeatureSpec.identifier

lemma offset_le_stop (r : PlaceholderRange) : r.offset ≤ r.stop := Nat.le_add_right _ _

lemma passed_mono (hse : s ≤ e) {f : MultiModalFeatureSpec} (h : passed s f = true) :
    passed e f = true := by
  simp only [passed, decide_eq_true_eq] at h ⊢
  omega

/-- Once one feature reaches past `s`, so do all later ones. -/
lemma not_passed_of_mem_dropWhile (hord : Ordered features) :
    ∀ f ∈ features.dropWhile (passed s), passed s f = false := by
  induction features with
  | nil => simp
  | cons g features ih =>
    obtain ⟨hg, hrest⟩ := pairwise_cons.mp hord
    by_cases hp : passed s g = true
    · simpa [dropWhile_cons, hp] using ih hrest
    · intro f hf
      rw [dropWhile_cons_of_neg hp] at hf
      have hp' : passed s g = false := by simpa using hp
      rcases mem_cons.mp hf with rfl | hf
      · exact hp'
      · have hgf := hg f hf
        have := offset_le_stop g.mmPosition
        simp only [passed, decide_eq_false_iff_not, not_and] at hp' ⊢
        omega

lemma takeWhile_append_dropWhile_of_imp {p q : α → Bool} (l : List α)
    (h : ∀ a ∈ l, p a = true → q a = true) :
    l.takeWhile q = l.takeWhile p ++ (l.dropWhile p).takeWhile q := by
  induction l with
  | nil => rfl
  | cons a l ih =>
    by_cases hp : p a = true
    · have hq : q a = true := h a (by simp) hp
      simp [hp, hq, ih (fun b hb => h b (by simp [hb]))]
    · simp [hp]

lemma drop_length_takeWhile (p : α → Bool) (l : List α) :
    l.drop (l.takeWhile p).length = l.dropWhile p := by
  induction l with
  | nil => rfl
  | cons a l ih => by_cases hp : p a = true <;> simp [hp, ih]

/-- The loop of `_gen_mm_extra_hash_keys` from the first feature that is not passed. -/
lemma genMmExtraHashKeysLoop_spec (hord : Ordered features) (hnot : ∀ f ∈ features, passed s f = false)
    (c : ℤ) :
    genMmExtraHashKeysLoop s e features c =
      ((features.takeWhile fun f => decide (f.mmPosition.offset < e)).map
          MultiModalFeatureSpec.identifier,
        c + (features.takeWhile (passed e)).length) := by
  induction features generalizing c with
  | nil => simp [genMmExtraHashKeysLoop]
  | cons f features ih =>
    obtain ⟨hf, hrest⟩ := pairwise_cons.mp hord
    have hle := offset_le_stop f.mmPosition
    have hns : ¬ s > f.mmPosition.stop := by
      have := hnot f (by simp)
      simp only [passed, decide_eq_false_iff_not, not_and] at this
      omega
    unfold genMmExtraHashKeysLoop
    by_cases he : e > f.mmPosition.offset
    · rw [if_pos he, if_neg hns]
      by_cases hstop : e ≥ f.mmPosition.stop
      · have hpe : passed e f = true := by simp [passed]; omega
        rw [if_pos hstop, ih hrest (fun g hg => hnot g (by simp [hg]))]
        simp [hpe, he, add_assoc, add_comm]
      · have hpe : passed e f = false := by simp [passed]; omega
        -- The block ends inside `f`; every later feature starts after that end.
        have hnil : (features.takeWhile fun g => decide (g.mmPosition.offset < e)) = [] := by
          rw [takeWhile_eq_nil_iff]
          intro hl
          have := hf _ (get_mem features ⟨0, hl⟩)
          simp only [decide_eq_true_eq]
          omega
        rw [if_neg hstop]
        simp [hpe, he, hnil]
    · have hpe : passed e f = false := by simp [passed]; omega
      rw [if_neg he]
      simp [hpe, he]

/-! ## The cursor -/

/-- The cursor a scan holds when it reaches position `s`: it points to the first feature
not yet passed, or does not matter because every feature ended before `s`. -/
def CursorOk (features : List MultiModalFeatureSpec) (s : ℕ) (c : ℤ) : Prop :=
  (∀ last ∈ features.getLast?, last.mmPosition.stop < s) ∨
    c = (features.takeWhile (passed s)).length

lemma stop_le_of_getLast? (hord : Ordered features) {last : MultiModalFeatureSpec}
    (hlast : last ∈ features.getLast?) :
    ∀ f ∈ features, f.mmPosition.stop ≤ last.mmPosition.stop := by
  obtain ⟨front, rfl⟩ := getLast?_eq_some_iff.mp hlast
  intro f hf
  rcases mem_append.mp hf with hf | hf
  · have h := (pairwise_append.mp hord).2.2 f hf last (by simp)
    exact h.trans (offset_le_stop _)
  · simp only [mem_singleton] at hf
    rw [hf]

lemma dropWhile_passed_eq_nil (hord : Ordered features)
    (h : ∀ last ∈ features.getLast?, last.mmPosition.stop < s) :
    features.dropWhile (passed s) = [] := by
  rw [dropWhile_eq_nil_iff]
  intro f hf
  obtain ⟨last, hlast⟩ : ∃ last, last ∈ features.getLast? := by
    cases hl : features.getLast? with
    | none => simp [getLast?_eq_none_iff.mp hl] at hf
    | some last => exact ⟨last, rfl⟩
  have h1 := stop_le_of_getLast? hord hlast f hf
  have h2 := h last hlast
  have h3 := offset_le_stop f.mmPosition
  simp only [passed, decide_eq_true_eq]
  omega

/-- With a good cursor, one call of `_gen_mm_extra_hash_keys` yields the block's
identifiers and a good cursor for the next block. -/
lemma genMmExtraHashKeys_spec (hord : Ordered request.mmFeatures) (hse : s ≤ e)
    (hc : CursorOk request.mmFeatures s c) :
    (genMmExtraHashKeys request s e c).1 = mmKeys request.mmFeatures s e ∧
      CursorOk request.mmFeatures e (genMmExtraHashKeys request s e c).2 := by
  by_cases hdone : ∀ last ∈ request.mmFeatures.getLast?, last.mmPosition.stop < s
  · have hkeys : genMmExtraHashKeys request s e c = ([], c) := by
      unfold genMmExtraHashKeys
      cases hl : request.mmFeatures.getLast? with
      | none => rfl
      | some last => simp [hdone last hl]
    rw [hkeys]
    refine ⟨by simp [mmKeys, dropWhile_passed_eq_nil hord hdone], Or.inl ?_⟩
    intro last hlast
    exact (hdone last hlast).trans_le hse
  · have hcur : c = ((request.mmFeatures.takeWhile (passed s)).length : ℕ) :=
      hc.resolve_left hdone
    push Not at hdone
    obtain ⟨last, hlast, hstop⟩ := hdone
    have hcall : genMmExtraHashKeys request s e c =
        genMmExtraHashKeysLoop s e (request.mmFeatures.dropWhile (passed s)) c := by
      unfold genMmExtraHashKeys
      rw [hlast]
      simp only
      rw [if_neg (by omega), if_neg (by omega), hcur, Int.toNat_natCast,
        drop_length_takeWhile]
    have hsub : Ordered (request.mmFeatures.dropWhile (passed s)) :=
      List.Pairwise.sublist (dropWhile_sublist _) hord
    rw [hcall, genMmExtraHashKeysLoop_spec hsub (not_passed_of_mem_dropWhile hord)]
    refine ⟨rfl, Or.inr ?_⟩
    simp only
    rw [takeWhile_append_dropWhile_of_imp (p := passed s) request.mmFeatures
      (fun f _ => passed_mono hse), length_append, hcur]
    push_cast
    ring

/-! ## One pass -/

/-- The `extra_keys` tuple of a block that owes `mm` to the multimodal features. -/
def extraKeys (request : Request) (mm : List String) (s e : ℕ) : Option (List ExtraKey) :=
  let keys := (genLoraExtraHashKeys request ++ mm ++ cacheSaltKeys request s).map ExtraKey.str ++
    (genPromptEmbedsExtraHashKeys request s e).map ExtraKey.bytes
  if keys.isEmpty then none else some keys

lemma generateBlockHashExtraKeys_eq (request : Request) (s e : ℕ) (c : ℤ) :
    generateBlockHashExtraKeys request s e c =
      (extraKeys request (genMmExtraHashKeys request s e c).1 s e,
        (genMmExtraHashKeys request s e c).2) := rfl

/-- Only the multimodal identifiers vary between the tuples of one block. -/
lemma extraKeys_inj {mm mm' : List String} :
    extraKeys request mm s e = extraKeys request mm' s e ↔ mm = mm' := by
  refine ⟨?_, fun h => by rw [h]⟩
  intro h
  have hstr : Function.Injective ExtraKey.str := fun a b hab => by injection hab
  simp only [extraKeys] at h
  split at h <;> split at h <;>
    simp_all [append_assoc, map_inj_right]

/-- Two lists agree on their first `k` blocks when they agree on each of them. -/
lemma take_eq_iff_blocks (l l' : List α) (b k : ℕ) :
    (∀ j < k, (l.take (j * b + b)).drop (j * b) = (l'.take (j * b + b)).drop (j * b)) ↔
      l.take (k * b) = l'.take (k * b) := by
  have hsplit : ∀ (l : List α) (j : ℕ), l.take ((j + 1) * b) =
      l.take (j * b) ++ (l.take (j * b + b)).drop (j * b) := by
    intro l j
    have hle : j * b ≤ (j + 1) * b := Nat.mul_le_mul_right _ (Nat.le_succ j)
    have h := (take_append_drop (j * b) (l.take ((j + 1) * b))).symm
    rw [take_take, Nat.min_eq_left hle] at h
    rw [h, ← Nat.succ_mul]
  induction k with
  | zero => simp
  | succ k ih =>
    rw [hsplit, hsplit]
    constructor
    · intro h
      rw [ih.mp (fun j hj => h j (hj.trans (Nat.lt_succ_self k))), h k (Nat.lt_succ_self k)]
    · intro h
      have hfront : l.take (k * b) = l'.take (k * b) := by
        have hle : k * b ≤ (k + 1) * b := Nat.mul_le_mul_right _ (Nat.le_succ k)
        rw [← hsplit, ← hsplit] at h
        simpa [take_take, Nat.min_eq_left hle] using congrArg (List.take (k * b)) h
      rw [hfront] at h
      have hlast := append_cancel_left h
      intro j hj
      rcases Nat.lt_succ_iff_lt_or_eq.mp hj with hj | rfl
      · exact ih.mpr hfront j hj
      · exact hlast

/-- The tokens of block `j`. -/
def blockTokens (request : Request) (blockSize j : ℕ) : List TokenId :=
  (request.allTokenIds.take (j * blockSize + blockSize)).drop (j * blockSize)

/-- What one pass over the request digests for block `j`. -/
def blockInput (request : Request) (blockSize j : ℕ) : BlockInput :=
  (blockTokens request blockSize j,
    extraKeys request
      (mmKeys request.mmFeatures (j * blockSize) (j * blockSize + blockSize))
      (j * blockSize) (j * blockSize + blockSize))

lemma loopInputs_eq_map (hord : Ordered request.mmFeatures) (blockSize n k : ℕ)
    (hc : CursorOk request.mmFeatures (k * blockSize) c) :
    loopInputs blockSize request n (k * blockSize) c =
      (range' k n).map (blockInput request blockSize) := by
  induction n generalizing k c with
  | zero => rfl
  | succ n ih =>
    obtain ⟨hkeys, hcursor⟩ :=
      genMmExtraHashKeys_spec hord (e := k * blockSize + blockSize) (by omega) hc
    simp only [loopInputs, generateBlockHashExtraKeys_eq, range'_succ, map_cons, hkeys]
    have hnext : k * blockSize + blockSize = (k + 1) * blockSize := (Nat.succ_mul k blockSize).symm
    have hrest := ih (k + 1) (hnext ▸ hcursor)
    rw [← hnext] at hrest
    rw [hrest]
    rfl

lemma cursorOk_zero (features : List MultiModalFeatureSpec) : CursorOk features 0 0 := by
  right
  have h : features.takeWhile (passed 0) = [] := by
    rw [takeWhile_eq_nil_iff]
    intro hl
    simp [passed]
  simp [h]

lemma cursorOk_nil (s : ℕ) (c : ℤ) : CursorOk [] s c := Or.inl (by simp)

/-- Hashing from an empty `block_hashes` digests every full block of the request. -/
lemma requestBlockHasher_onePass (hashFunction : HashInput → BlockHash) (noneHash : BlockHash)
    (hord : Ordered request.mmFeatures) (hnil : request.blockHashes = []) (blockSize : ℕ) :
    requestBlockHasher hashFunction noneHash blockSize request =
      HashChain.chain (hashStep hashFunction noneHash) none
        ((range (request.numTokens / blockSize)).map (blockInput request blockSize)) := by
  have h := loopInputs_eq_map hord blockSize (request.numTokens / blockSize) 0
    (c := 0) (by simpa using cursorOk_zero request.mmFeatures)
  rw [Nat.zero_mul] at h
  simp [requestBlockHasher, hnil, requestBlockHasherLoop_eq_chain, h, range_eq_range']

end VllmRuntime.BlockHash
