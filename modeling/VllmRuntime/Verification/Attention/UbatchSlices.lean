import VllmRuntime.Model.Ubatch
import VllmRuntime.Verification.Attention.Split

/-! # The slices of the micro-batches

All micro-batches but the last one have as many tokens as the distance of the split points. The requests of a
slice are those that have a token in it. -/

namespace VllmRuntime

variable {lens : List ℕ} {r n : ℕ}

open List Segments

/-! ## The first token of a request -/

lemma sum_take_mono (lens : List ℕ) {r' : ℕ} (h : r ≤ r') : (lens.take r).sum ≤ (lens.take r').sum := by
  rw [← take_append_drop r (lens.take r'), take_take, min_eq_left h, sum_append]
  exact Nat.le_add_right _ _

lemma sum_take_le (lens : List ℕ) (r : ℕ) : (lens.take r).sum ≤ lens.sum :=
  (take_sublist r lens).sum_le_sum fun _ _ => Nat.zero_le _

lemma sum_take_succ {len : ℕ} (h : lens[r]? = some len) :
    (lens.take (r + 1)).sum = (lens.take r).sum + len := by
  rw [take_add_one, h, Option.toList_some, sum_append, sum_singleton]

/-- Rows without tokens at the end change nothing. -/
lemma sum_take_append_zeros (lens : List ℕ) (extra r : ℕ) :
    ((lens ++ List.replicate extra 0).take r).sum = (lens.take r).sum := by
  rw [take_append, sum_append, take_replicate, sum_replicate, smul_zero, Nat.add_zero]

/-- A search over the starts of the requests. -/
lemma findIdx_starts {p : ℕ → Bool} (hp : p lens.sum = true) :
    (0 :: cumsum lens).findIdx p ≤ lens.length ∧ p (lens.take ((0 :: cumsum lens).findIdx p)).sum = true ∧
      ∀ r < (0 :: cumsum lens).findIdx p, p (lens.take r).sum = false := by
  have hlast : (0 :: cumsum lens)[lens.length]? = some lens.sum := by
    rw [getElem?_cons_cumsum le_rfl, take_length]
  have hlt := findIdx_lt_length_of_exists ⟨lens.sum, mem_of_getElem? hlast, hp⟩
  have hlength : (0 :: cumsum lens).length = lens.length + 1 := by simp [cumsum]
  refine ⟨by omega, findIdx_of_getElem?_eq_some (getElem?_cons_cumsum (by omega)), fun r hr => ?_⟩
  have hget := getElem?_eq_getElem (hr.trans hlt)
  rw [getElem?_cons_cumsum (by omega)] at hget
  rw [Option.some.inj hget]
  exact not_of_lt_findIdx hr

/-- The request of a token. -/
lemma searchsortedRight_spec {a : ℕ} (ha : a < lens.sum) :
    searchsortedRight (0 :: cumsum lens) a - 1 < lens.length ∧
      (lens.take (searchsortedRight (0 :: cumsum lens) a - 1)).sum ≤ a ∧
      a < (lens.take (searchsortedRight (0 :: cumsum lens) a - 1 + 1)).sum := by
  obtain ⟨hle, hlt, hbefore⟩ := findIdx_starts (p := fun x => decide (a < x)) (by simpa using ha)
  simp only [decide_eq_true_eq, decide_eq_false_iff_not, not_lt] at hlt hbefore
  unfold searchsortedRight
  have hpos : (0 :: cumsum lens).findIdx (fun x => decide (a < x)) ≠ 0 := by
    intro hzero
    rw [hzero, take_zero, sum_nil] at hlt
    exact absurd hlt (Nat.not_lt_zero a)
  obtain ⟨f, hf⟩ := Nat.exists_eq_succ_of_ne_zero hpos
  rw [hf] at hle hlt hbefore ⊢
  exact ⟨hle, hbefore f (Nat.lt_succ_self f), hlt⟩

/-- The first request that starts at a token or after it. -/
lemma searchsortedLeft_spec {b : ℕ} (hb : b ≤ lens.sum) :
    searchsortedLeft (0 :: cumsum lens) b ≤ lens.length ∧
      b ≤ (lens.take (searchsortedLeft (0 :: cumsum lens) b)).sum ∧
      ∀ r < searchsortedLeft (0 :: cumsum lens) b, (lens.take r).sum < b := by
  obtain ⟨hle, hlt, hbefore⟩ := findIdx_starts (p := fun x => decide (b ≤ x)) (by simpa using hb)
  simp only [decide_eq_true_eq, decide_eq_false_iff_not, not_le] at hlt hbefore
  exact ⟨hle, hlt, hbefore⟩

/-! ## The slices in closed form -/

/-- The slice of the tokens between two points. -/
def sliceOf (lens : List ℕ) (a b : ℕ) : UBatchSlice where
  requestSlice := ⟨searchsortedRight (0 :: cumsum lens) a - 1, searchsortedLeft (0 :: cumsum lens) b⟩
  tokenSlice := ⟨a, b⟩

/-- The slice of a micro-batch; the last one ends where it is told to. -/
def cutSlice (lens : List ℕ) (s n lastReq lastTok i : ℕ) : UBatchSlice :=
  if i + 1 < n then sliceOf lens (s * i) (s * (i + 1))
  else ⟨⟨searchsortedRight (0 :: cumsum lens) (s * i) - 1, lastReq⟩, ⟨s * i, lastTok⟩⟩

lemma slicesTo_eq (lens : List ℕ) (s total j k : ℕ) :
    slicesTo (0 :: cumsum lens) (s * j) ((range' (j + 1) k).map (s * ·) ++ [total]) =
      (range' j k).map (fun i => sliceOf lens (s * i) (s * (i + 1))) ++ [sliceOf lens (s * (j + k)) total] := by
  induction k generalizing j with
  | zero => rfl
  | succ k ih =>
    rw [range'_succ, range'_succ, map_cons, map_cons, cons_append, cons_append, slicesTo,
      ih, Nat.add_right_comm j 1 k]
    rfl

lemma map_cutSlice (lens : List ℕ) (s m lastReq lastTok : ℕ) :
    (range (m + 1)).map (cutSlice lens s (m + 1) lastReq lastTok) =
      (range' 0 m).map (fun i => sliceOf lens (s * i) (s * (i + 1))) ++
        [⟨⟨searchsortedRight (0 :: cumsum lens) (s * m) - 1, lastReq⟩, ⟨s * m, lastTok⟩⟩] := by
  rw [range_succ, map_append, map_singleton, cutSlice, if_neg (Nat.lt_irrefl _), ← range_eq_range']
  congr 1
  refine map_congr_left fun i hi => ?_
  rw [cutSlice, if_pos (Nat.succ_lt_succ (mem_range.mp hi))]

/-- The tokens of the slices add up to the end of the last one. -/
lemma sum_numTokens (lens : List ℕ) (s m lastReq lastTok : ℕ) :
    (((range (m + 1)).map (cutSlice lens s (m + 1) lastReq lastTok)).map (·.numTokens)).sum = lastTok := by
  have hfull (k : ℕ) : (((range' 0 k).map fun i => sliceOf lens (s * i) (s * (i + 1))).map
      (·.numTokens)).sum = ((s * k : ℕ) : ℤ) := by
    induction k with
    | zero => simp
    | succ k ih =>
      rw [range'_concat, map_append, map_append, sum_append, ih]
      simp [sliceOf, UBatchSlice.numTokens]
  rw [map_cutSlice, map_append, sum_append, hfull]
  simp [UBatchSlice.numTokens]

lemma padOutUbatchSlices_concat (slices : List UBatchSlice) (lens : List ℕ) (a b lastReq lastTok : ℕ) :
    padOutUbatchSlices (slices ++ [sliceOf lens a b]) lastTok lastReq =
      slices ++ [⟨⟨searchsortedRight (0 :: cumsum lens) a - 1, lastReq⟩, ⟨a, lastTok⟩⟩] := by
  unfold padOutUbatchSlices
  rw [getLast?_concat, dropLast_concat]
  rfl

lemma maybeCreateUbatchSlices_eq (lens : List ℕ) (padded reqsPadded : ℕ) (hn : 0 < n)
    (splitPoint : Option ℕ) : maybeCreateUbatchSlices true lens padded reqsPadded n splitPoint =
      .ok (some ((range n).map (cutSlice lens (splitPoint.getD (padded / n)) n
          (searchsortedLeft (0 :: cumsum lens) lens.sum) lens.sum),
        (range n).map (cutSlice lens (splitPoint.getD (padded / n)) n reqsPadded padded))) := by
  obtain ⟨m, rfl⟩ : ∃ m, n = m + 1 := ⟨n - 1, by omega⟩
  have hpoint : splitPointOf padded (m + 1) splitPoint = .ok (splitPoint.getD (padded / (m + 1))) := by
    cases splitPoint <;> rfl
  have hlast : (0 :: cumsum lens).getLastD 0 = lens.sum := by
    rw [getLastD_cons, cumsum, getLastD_cumsumFrom, Nat.zero_add]
  have hslices := slicesTo_eq lens (splitPoint.getD (padded / (m + 1))) lens.sum 0 m
  rw [Nat.mul_zero, Nat.zero_add, Nat.zero_add] at hslices
  have hsum := sum_numTokens lens (splitPoint.getD (padded / (m + 1))) m reqsPadded padded
  unfold maybeCreateUbatchSlices
  rw [hpoint]
  change (pyAssert (decide (((padOutUbatchSlices (slicesTo _ 0 (_ ++ [(0 :: cumsum lens).getLastD 0])) _ _).map
    (·.numTokens)).sum = _)) "" >>= _) = _
  rw [map_cutSlice] at hsum
  rw [hlast, Nat.add_sub_cancel, hslices, padOutUbatchSlices_concat, map_cutSlice, map_cutSlice]
  rw [decide_eq_true hsum]
  rfl

/-! ## The tokens of the slices -/

/-- The token slices have all tokens, one after the other. -/
def PartitionsTokens (slices : List UBatchSlice) (total : ℕ) : Prop :=
  (slices.flatMap fun s => List.range' s.tokenSlice.start (s.tokenSlice.stop - s.tokenSlice.start)) = List.range total

lemma partitionsTokens_cutSlice (lens : List ℕ) {s lastTok : ℕ} (lastReq : ℕ) (hn : 0 < n)
    (hlast : s * (n - 1) ≤ lastTok) :
    PartitionsTokens ((range n).map (cutSlice lens s n lastReq lastTok)) lastTok := by
  obtain ⟨m, rfl⟩ : ∃ m, n = m + 1 := ⟨n - 1, by omega⟩
  have hfull (k : ℕ) : ((range' 0 k).map fun i => sliceOf lens (s * i) (s * (i + 1))).flatMap
      (fun s => range' s.tokenSlice.start (s.tokenSlice.stop - s.tokenSlice.start)) = range' 0 (s * k) := by
    induction k with
    | zero => rfl
    | succ k ih =>
      rw [range'_concat, map_append, flatMap_append, ih, map_singleton, flatMap_singleton]
      have hdist : s * (k + 1) - s * k = s := by rw [Nat.mul_succ, Nat.add_sub_cancel_left]
      simp only [sliceOf, Nat.one_mul, Nat.zero_add, hdist]
      rw [Nat.mul_succ, ← range'_append_1, Nat.zero_add]
  rw [Nat.add_sub_cancel] at hlast
  unfold PartitionsTokens
  rw [map_cutSlice, flatMap_append, hfull, flatMap_singleton, range_eq_range',
    ← Nat.add_sub_cancel' hlast, Nat.add_sub_cancel_left, ← range'_append_1, Nat.zero_add]

end VllmRuntime
