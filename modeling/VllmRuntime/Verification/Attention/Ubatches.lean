import VllmRuntime.Verification.Attention.UbatchRows

/-! # Splitting the metadata of a batch

Every slice has its requests as long as no micro-batch is without tokens. The number of computed tokens of a row
is not moved with its start, so it is right where the slice starts with a request. -/

namespace VllmRuntime

open List Segments

variable {metadata : CommonAttentionMetadata} {lens : List ℕ} {n s lastTok i extra tokens lastReq t : ℕ}
  {cm : CommonAttentionMetadata}

lemma start_cutSlice (lens : List ℕ) (s n lastReq lastTok i : ℕ) :
    (cutSlice lens s n lastReq lastTok i).tokenSlice.start = s * i := by
  unfold cutSlice
  split
  · rfl
  · rfl

/-- The slices that the attention metadata is split by. -/
def attnSlices (padAttn : Bool) (slices : List UBatchSlice × List UBatchSlice) : List UBatchSlice :=
  if padAttn then slices.2 else slices.1

/-- Rows and tokens behind the batch, if it is padded. -/
def extraRows (padAttn : Bool) (lens : List ℕ) (reqsPadded : ℕ) : ℕ := if padAttn then reqsPadded - lens.length else 0

def attnTokens (padAttn : Bool) (lens : List ℕ) (padded : ℕ) : ℕ := if padAttn then padded else lens.sum

/-- The slices in closed form, padded or not. -/
lemma attnSlices_eq {padded reqsPadded : ℕ} (hn : 0 < n) (hpadded : lens.sum ≤ padded)
    (hreqs : lens.length ≤ reqsPadded) (splitPoint : Option ℕ) (padAttn : Bool)
    {slices : List UBatchSlice × List UBatchSlice}
    (h : maybeCreateUbatchSlices true lens padded reqsPadded n splitPoint = .ok (some slices)) :
    ∃ lastReq lastTok, LastEnds lens (extraRows padAttn lens reqsPadded) lastReq lastTok ∧
      attnSlices padAttn slices = (range n).map (cutSlice lens (splitPoint.getD (padded / n)) n lastReq lastTok) := by
  rw [maybeCreateUbatchSlices_eq lens padded reqsPadded hn] at h
  cases Except.ok.inj h
  cases padAttn with
  | true =>
    refine ⟨reqsPadded, padded, .inr ⟨?_, hpadded⟩, rfl⟩
    rw [extraRows, if_pos rfl, Nat.add_sub_cancel' hreqs]
  | false => exact ⟨_, _, .inl ⟨rfl, rfl⟩, rfl⟩

lemma lt_of_firstRequestLoc {locs : List ℕ} {firstReq firstTok first : ℕ}
    (h : firstRequestLoc locs firstReq firstTok = .ok first) :
    ∃ next, locs[firstReq + 1]? = some next ∧ firstTok < next := by
  unfold firstRequestLoc at h
  split at h
  · cases h
  · split at h
    · split at h
      · cases h
      · rename_i next hnext
        obtain ⟨u, hassert, -⟩ := bind_eq_ok h
        exact ⟨next, hnext, of_decide_eq_true (pyAssert_eq_ok.mp hassert)⟩
    · cases h

/-- A slice whose metadata can be made has tokens, the first one of them is of the batch. -/
lemma lt_of_makeMetadataWithSlice (hbatch : OfBatch metadata lens extra tokens) {s : UBatchSlice}
    (h : makeMetadataWithSlice s metadata = .ok cm) :
    s.isEmpty = false ∧ s.tokenSlice.start < lens.sum := by
  unfold makeMetadataWithSlice at h
  obtain ⟨u, hempty, h⟩ := bind_eq_ok h
  obtain ⟨first, hfirst, -⟩ := bind_eq_ok h
  obtain ⟨next, hnext, hlt⟩ := lt_of_firstRequestLoc hfirst
  have hle := lt_of_getElem? hnext
  rw [hbatch.queryStartLoc] at hle
  simp only [cumsum, length_cons, length_cumsumFrom, length_append, length_replicate] at hle
  rw [hbatch.getElem?_queryStartLoc (by omega), Option.some.injEq] at hnext
  have hsum := sum_take_le lens (s.requestSlice.start + 1)
  exact ⟨by simpa using pyAssert_eq_ok.mp hempty, by omega⟩

section Split

variable {s n extra lastReq lastTok tokens : ℕ} (hends : LastEnds lens extra lastReq lastTok)
  (hbatch : OfBatch metadata lens extra tokens)
include hends hbatch

/-- The metadata of every slice, if no slice is without tokens. -/
lemma splitAttnMetadata_eq_ok (hpoints : s * (n - 1) < lens.sum) (hpos : n = 1 ∨ 0 < s) :
    ∃ cms, splitAttnMetadata ((range n).map (cutSlice lens s n lastReq lastTok)) metadata = .ok cms := by
  apply exists_mapM_eq_ok
  intro slice hslice
  obtain ⟨i, hi, rfl⟩ := mem_map.mp hslice
  obtain ⟨cm, hcm, -⟩ := makeMetadataWithSlice_eq_ok
    (cutsRequests_cutSlice hends hpoints hpos (mem_range.mp hi)) hbatch
  exact ⟨cm, hcm⟩

omit hends in
/-- If the metadata of every slice can be made, no slice is without tokens. -/
lemma points_of_splitAttnMetadata (hn : 0 < n) {cms : List CommonAttentionMetadata}
    (h : splitAttnMetadata ((range n).map (cutSlice lens s n lastReq lastTok)) metadata = .ok cms) :
    s * (n - 1) < lens.sum ∧ (n = 1 ∨ 0 < s) := by
  have hslice {i : ℕ} (hi : i < n) : (cutSlice lens s n lastReq lastTok i).isEmpty = false ∧ s * i < lens.sum := by
    have hget : ((range n).map (cutSlice lens s n lastReq lastTok))[i]? =
        some (cutSlice lens s n lastReq lastTok i) := by
      rw [getElem?_map, getElem?_range hi]
      rfl
    obtain ⟨cm, -, hcm⟩ := getElem?_of_forall₂ (mapM_eq_ok h) hget
    have hlt := lt_of_makeMetadataWithSlice hbatch hcm
    rwa [start_cutSlice] at hlt
  refine ⟨(hslice (by omega)).2, ?_⟩
  by_contra hnot
  rw [not_or, Nat.not_lt, Nat.le_zero] at hnot
  have hempty := (hslice hn).1
  rw [cutSlice, if_pos (by omega), hnot.2] at hempty
  simp [sliceOf, UBatchSlice.isEmpty] at hempty

end Split

/-- The metadata of every slice can be made, and every token of a request is in one slice, in which it is placed
as in the batch. -/
def SplitsRight (metadata : CommonAttentionMetadata) (lens : List ℕ) (slices : List UBatchSlice) : Prop :=
  ∃ cms, splitAttnMetadata slices metadata = .ok cms ∧ ∀ r len seqLen t : ℕ, lens[r]? = some len →
    metadata.seqLens[r]? = some seqLen → (lens.take r).sum ≤ t → t < (lens.take r).sum + len →
      ∃ (i : ℕ) (s : UBatchSlice) (cm : CommonAttentionMetadata), slices[i]? = some s ∧ cms[i]? = some cm ∧
        Places metadata s cm r t (seqLen - len + (t - (lens.take r).sum)) ∧
        ∀ (i' : ℕ) (s' : UBatchSlice), slices[i']? = some s' → s'.tokenSlice.start ≤ t → t < s'.tokenSlice.stop → i' = i

/-- What the micro-batches are to be: the slices have all tokens in order, padded and not, and the metadata is
split right. -/
def UbatchesRight (metadata : CommonAttentionMetadata) (lens : List ℕ) (padded reqsPadded n : ℕ) (padAttn : Bool) :
    Prop :=
  ∃ slices, maybeCreateUbatchSlices true lens padded reqsPadded n none = .ok (some slices) ∧
    PartitionsTokens slices.1 lens.sum ∧ PartitionsTokens slices.2 padded ∧
    SplitsRight metadata lens (attnSlices padAttn slices)

/-- The slice of a token. -/
lemma exists_cutSlice (lastReq : ℕ) (hn : 0 < n) (ht : t < lastTok) :
    ∃ i < n, (cutSlice lens s n lastReq lastTok i).tokenSlice.start ≤ t ∧
      t < (cutSlice lens s n lastReq lastTok i).tokenSlice.stop := by
  by_cases hlast : s * (n - 1) ≤ t
  · refine ⟨n - 1, by omega, ?_⟩
    rw [cutSlice, if_neg (by omega)]
    exact ⟨hlast, ht⟩
  · have hs : 0 < s := by
      rcases Nat.eq_zero_or_pos s with rfl | hs
      · rw [Nat.zero_mul] at hlast
        omega
      · exact hs
    have hquot : t / s < n - 1 := (Nat.div_lt_iff_lt_mul hs).mpr (by rw [Nat.mul_comm]; omega)
    refine ⟨t / s, by omega, ?_⟩
    rw [cutSlice, if_pos (by omega)]
    exact ⟨Nat.mul_div_le t s, Nat.lt_mul_div_succ t hs⟩

/-- A slice ends where the next one starts. -/
lemma cutSlice_unique {i' : ℕ} (hstart' : (cutSlice lens s n lastReq lastTok i').tokenSlice.start ≤ t)
    (hi' : i' < n) (hstop : t < (cutSlice lens s n lastReq lastTok i).tokenSlice.stop) : i' ≤ i := by
  by_contra hlt
  rw [start_cutSlice] at hstart'
  rw [cutSlice, if_pos (by omega)] at hstop
  exact absurd (hstop.trans_le (Nat.mul_le_mul_left s (by omega : i + 1 ≤ i'))) (by omega)

lemma getElem?_map_cutSlice {slice : UBatchSlice}
    (h : ((List.range n).map (cutSlice lens s n lastReq lastTok))[i]? = some slice) :
    i < n ∧ slice = cutSlice lens s n lastReq lastTok i := by
  have hi := lt_of_getElem? h
  rw [length_map, length_range] at hi
  rw [getElem?_map, getElem?_range hi] at h
  exact ⟨hi, (Option.some.inj h).symm⟩

/-- Slices that all have tokens are split right. -/
lemma splitsRight_cutSlice (hends : LastEnds lens extra lastReq lastTok)
    (hbatch : OfBatch metadata lens extra tokens) (hn : 0 < n) (hpoints : s * (n - 1) < lens.sum)
    (hpos : n = 1 ∨ 0 < s) :
    SplitsRight metadata lens ((range n).map (cutSlice lens s n lastReq lastTok)) := by
  obtain ⟨cms, hcms⟩ := splitAttnMetadata_eq_ok hends hbatch hpoints hpos
  refine ⟨cms, hcms, fun r len seqLen t hr hseqLen hstart hend => ?_⟩
  have htotal : t < lens.sum := by
    have := sum_take_succ hr
    have := sum_take_le lens (r + 1)
    omega
  obtain ⟨i, hi, hle, hlt⟩ := exists_cutSlice lastReq hn (htotal.trans_le hends.le)
  have hslice : ((range n).map (cutSlice lens s n lastReq lastTok))[i]? =
      some (cutSlice lens s n lastReq lastTok i) := by
    rw [getElem?_map, getElem?_range hi]
    rfl
  obtain ⟨cm, hcm, hmake⟩ := getElem?_of_forall₂ (mapM_eq_ok hcms) hslice
  have hcuts := cutsRequests_cutSlice hends hpoints hpos hi
  obtain ⟨cm', hmake', hrows⟩ := makeMetadataWithSlice_eq_ok hcuts hbatch
  obtain rfl := Except.ok.inj (hmake.symm.trans hmake')
  refine ⟨i, _, cm, hslice, hcm, hrows.places hcuts hbatch hr hseqLen hstart hend hle hlt, ?_⟩
  intro i' s' hslice' hle' hlt'
  obtain ⟨hi', rfl⟩ := getElem?_map_cutSlice hslice'
  exact (cutSlice_unique hle' hi' hlt).antisymm (cutSlice_unique hle hi hlt')

/-- For every batch and every number of micro-batches whose last one is not empty. -/
theorem ubatchesRight_iff {padded reqsPadded n : ℕ} (hn : 0 < n) (hpadded : lens.sum ≤ padded)
    (hreqs : lens.length ≤ reqsPadded) (hlast : isLastUbatchEmpty lens.sum padded n = false) (padAttn : Bool)
    (hbatch : OfBatch metadata lens (extraRows padAttn lens reqsPadded) (attnTokens padAttn lens padded)) :
    UbatchesRight metadata lens padded reqsPadded n padAttn ↔ n ≤ padded := by
  have hpoints : padded / n * (n - 1) < lens.sum := by
    simpa [isLastUbatchEmpty] using hlast
  constructor
  · rintro ⟨slices, hslices, -, -, cms, hcms, -⟩
    obtain ⟨lastReq, lastTok, hends, heq⟩ := attnSlices_eq hn hpadded hreqs none padAttn hslices
    rw [heq] at hcms
    rcases (points_of_splitAttnMetadata hbatch hn hcms).2 with rfl | hpos
    · omega
    · by_contra hlt
      rw [Option.getD_none, Nat.div_eq_of_lt (not_le.mp hlt)] at hpos
      exact Nat.lt_irrefl 0 hpos
  · intro hle
    have hslices := maybeCreateUbatchSlices_eq lens padded reqsPadded hn none
    rw [Option.getD_none] at hslices
    obtain ⟨lastReq, lastTok, hends, heq⟩ := attnSlices_eq hn hpadded hreqs none padAttn hslices
    refine ⟨_, hslices, partitionsTokens_cutSlice lens _ hn hpoints.le,
      partitionsTokens_cutSlice lens _ hn (hpoints.le.trans hpadded), ?_⟩
    rw [heq, Option.getD_none]
    exact splitsRight_cutSlice hends hbatch hn hpoints (.inr (Nat.div_pos hle hn))

/-- Two requests of 3 and 2 tokens. -/
def twoRequests : CommonAttentionMetadata where
  queryStartLoc := [0, 3, 5]
  seqLens := [5, 2]
  numReqs := 2
  numActualTokens := 5
  maxQueryLen := 3
  maxSeqLen := 5
  blockTable := [[7], [8]]
  slotMapping := [28, 29, 30, 32, 33]
  numComputedTokens := some [2, 0]

lemma twoRequests_ofBatch (padded : ℕ) :
    OfBatch twoRequests [3, 2] (extraRows false [3, 2] 2) (attnTokens false [3, 2] padded) := by
  refine ⟨rfl, rfl, rfl, le_rfl, fun r len seqLen hr hseqLen => ?_⟩
  rcases r with _ | _ | r
  · cases hr
    cases hseqLen
    decide
  · cases hr
    cases hseqLen
    decide
  · cases hr

theorem ubatchesRight_iff_twoRequests : UbatchesRight twoRequests [3, 2] 6 2 2 false ↔ 2 ≤ 6 :=
  ubatchesRight_iff (by decide) (by decide) (by decide) (by decide) false (twoRequests_ofBatch 6)

/-- One token, which is not padded, for two micro-batches: the first one has no token, which is not checked for. -/
theorem ubatches_wrong_oneToken : isLastUbatchEmpty 1 1 2 = false ∧ ∀ metadata : CommonAttentionMetadata,
    ¬UbatchesRight metadata [1] 1 1 2 false := by
  refine ⟨rfl, fun metadata => ?_⟩
  rintro ⟨slices, hslices, -, -, cms, hcms, -⟩
  have hmake : maybeCreateUbatchSlices true [1] 1 1 2 none =
      .ok (some ([⟨⟨0, 0⟩, ⟨0, 0⟩⟩, ⟨⟨0, 1⟩, ⟨0, 1⟩⟩], [⟨⟨0, 0⟩, ⟨0, 0⟩⟩, ⟨⟨0, 1⟩, ⟨0, 1⟩⟩])) := rfl
  obtain rfl := Option.some.inj (Except.ok.inj (hmake.symm.trans hslices))
  cases hcms

/-! ## The computed tokens -/

/-- Every row has as many computed tokens as its sequence has before its query. -/
def ComputedAgree (metadata : CommonAttentionMetadata) : Prop :=
  ∀ k lo hi seqLen : ℕ, metadata.queryStartLoc[k]? = some lo → metadata.queryStartLoc[k + 1]? = some hi →
    metadata.seqLens[k]? = some seqLen → ∃ computed, metadata.numComputedTokensCpu[k]? = some computed ∧
      (computed : ℤ) = (seqLen : ℤ) - ((hi : ℤ) - lo)

/-- The rows of a slice agree exactly if the slice starts with a request. -/
lemma computedAgree_iff {s : UBatchSlice} (hrows : SlicedRows metadata lens s cm)
    (hcuts : CutsRequests lens extra s) (hbatch : OfBatch metadata lens extra tokens)
    (hcomputed : ComputedAgree metadata) :
    ComputedAgree cm ↔ ∃ r ≤ lens.length, (lens.take r).sum = s.tokenSlice.start := by
  have hrequests := hcuts.requests_lt
  have hstop := hcuts.stop_le
  have hfirst := hcuts.first_le
  have hsecond := hcuts.lt_second
  have htokens := hcuts.tokens_lt
  -- The row of a request in the batch.
  have hrow {k : ℕ} (hk : k < s.requestSlice.stop - s.requestSlice.start) : ∃ seqLen computed : ℕ,
      metadata.seqLens[s.requestSlice.start + k]? = some seqLen ∧
      metadata.numComputedTokensCpu[s.requestSlice.start + k]? = some computed ∧
      computed + ((lens.take (s.requestSlice.start + k + 1)).sum - (lens.take (s.requestSlice.start + k)).sum) =
        seqLen := by
    have hlt : s.requestSlice.start + k < metadata.seqLens.length := by
      rw [hbatch.seqLens]
      omega
    have hseqLen := getElem?_eq_getElem hlt
    obtain ⟨computed, hget, heq⟩ := hcomputed _ _ _ _ (hbatch.getElem?_queryStartLoc (by omega))
      (hbatch.getElem?_queryStartLoc (by omega)) hseqLen
    have hmono := sum_take_mono lens (by omega : s.requestSlice.start + k ≤ s.requestSlice.start + k + 1)
    exact ⟨_, computed, hseqLen, hget, by omega⟩
  constructor
  · intro hagree
    have hzero : 0 < s.requestSlice.stop - s.requestSlice.start := by omega
    obtain ⟨seqLen, computed, hseqLen, hget, hsum⟩ := hrow hzero
    have hlens := hrows.seqLens 0 hzero
    rw [hseqLen, Option.map_some] at hlens
    obtain ⟨computed', hget', heq⟩ := hagree 0 _ _ _ (hrows.starts 0 hzero.le) (hrows.starts 1 hzero) hlens
    rw [hrows.numComputed 0 hzero, hget, Option.some.injEq] at hget'
    subst hget'
    simp only [Nat.add_zero] at heq hsum
    refine ⟨min s.requestSlice.start lens.length, min_le_right _ _, ?_⟩
    rw [take_eq_take_min, min_assoc, min_self, ← take_eq_take_min]
    omega
  · rintro ⟨r, -, hr⟩ k lo hi seqLen hlo hhi hseqLen
    have hk := lt_of_getElem? hhi
    rw [hrows.length] at hk
    have hk : k < s.requestSlice.stop - s.requestSlice.start := by omega
    obtain ⟨seqLen', computed, hseqLen', hget, hsum⟩ := hrow hk
    rw [hrows.starts k hk.le, Option.some.injEq] at hlo
    rw [hrows.starts (k + 1) hk, Option.some.injEq, ← Nat.add_assoc] at hhi
    rw [hrows.seqLens k hk, hseqLen', Option.map_some, Option.some.injEq] at hseqLen
    refine ⟨computed, (hrows.numComputed k hk).trans hget, ?_⟩
    have hinner := hcuts.inner_le (s.requestSlice.start + k) (by omega)
    have hmono := sum_take_mono lens (by omega : s.requestSlice.start + k ≤ s.requestSlice.start + k + 1)
    -- The slice starts with its first request.
    have hbound : s.tokenSlice.start ≤ (lens.take (s.requestSlice.start + k)).sum := by
      rcases Nat.lt_or_ge s.requestSlice.start r with hlt | hge
      · have := sum_take_mono lens (by omega : s.requestSlice.start + 1 ≤ r)
        omega
      · have := sum_take_mono lens (by omega : r ≤ s.requestSlice.start + k)
        omega
    omega

/-- For every split whose metadata can be made. -/
theorem splitAttnMetadata_computedAgree_iff {padded reqsPadded n : ℕ} (hn : 0 < n) (hpadded : lens.sum ≤ padded)
    (hreqs : lens.length ≤ reqsPadded) {splitPoint : Option ℕ} (padAttn : Bool)
    (hbatch : OfBatch metadata lens (extraRows padAttn lens reqsPadded) (attnTokens padAttn lens padded))
    (hcomputed : ComputedAgree metadata) {slices : List UBatchSlice × List UBatchSlice}
    (hslices : maybeCreateUbatchSlices true lens padded reqsPadded n splitPoint = .ok (some slices))
    {cms : List CommonAttentionMetadata} (hcms : splitAttnMetadata (attnSlices padAttn slices) metadata = .ok cms) :
    (∀ cm ∈ cms, ComputedAgree cm) ↔
      ∀ i < n, ∃ r ≤ lens.length, (lens.take r).sum = splitPoint.getD (padded / n) * i := by
  obtain ⟨lastReq, lastTok, hends, heq⟩ := attnSlices_eq hn hpadded hreqs splitPoint padAttn hslices
  rw [heq] at hcms
  obtain ⟨hpoints, hpos⟩ := points_of_splitAttnMetadata hbatch hn hcms
  have hrow {i : ℕ} (hi : i < n) {cm : CommonAttentionMetadata}
      (hcm : makeMetadataWithSlice (cutSlice lens (splitPoint.getD (padded / n)) n lastReq lastTok i) metadata = .ok cm) :
      ComputedAgree cm ↔ ∃ r ≤ lens.length, (lens.take r).sum = splitPoint.getD (padded / n) * i := by
    have hcuts := cutsRequests_cutSlice hends hpoints hpos hi
    obtain ⟨cm', hcm', hrows⟩ := makeMetadataWithSlice_eq_ok hcuts hbatch
    obtain rfl := Except.ok.inj (hcm.symm.trans hcm')
    rw [computedAgree_iff hrows hcuts hbatch hcomputed, start_cutSlice]
  constructor
  · intro hall i hi
    have hslice : ((List.range n).map (cutSlice lens (splitPoint.getD (padded / n)) n lastReq lastTok))[i]? =
        some (cutSlice lens (splitPoint.getD (padded / n)) n lastReq lastTok i) := by
      rw [getElem?_map, getElem?_range hi]
      rfl
    obtain ⟨cm, hget, hcm⟩ := getElem?_of_forall₂ (mapM_eq_ok hcms) hslice
    exact (hrow hi hcm).mp (hall cm (mem_of_getElem? hget))
  · intro hall cm hmem
    obtain ⟨slice, hslice, hcm⟩ := exists_of_forall₂ (mapM_eq_ok hcms) hmem
    obtain ⟨i, hi, rfl⟩ := List.mem_map.mp hslice
    exact (hrow (List.mem_range.mp hi) hcm).mpr (hall i (List.mem_range.mp hi))

lemma twoRequests_computedAgree : ComputedAgree twoRequests := by
  intro k lo hi seqLen hlo hhi hseqLen
  rcases k with _ | _ | k
  · cases hlo
    cases hhi
    cases hseqLen
    exact ⟨2, rfl, by decide⟩
  · cases hlo
    cases hhi
    cases hseqLen
    exact ⟨0, rfl, by decide⟩
  · cases hseqLen

/-- Split between the requests. -/
theorem splitAttnMetadata_computedAgree_iff_boundary : ∃ cms,
    splitAttnMetadata [⟨⟨0, 1⟩, ⟨0, 3⟩⟩, ⟨⟨1, 2⟩, ⟨3, 5⟩⟩] twoRequests = .ok cms ∧
      ((∀ cm ∈ cms, ComputedAgree cm) ↔ ∀ i < 2, ∃ r ≤ 2, (([3, 2] : List ℕ).take r).sum = 3 * i) := by
  refine ⟨_, rfl, ?_⟩
  exact @splitAttnMetadata_computedAgree_iff _ _ 6 2 2 (by decide) (by decide) (by decide) none false
    (twoRequests_ofBatch 6) twoRequests_computedAgree _ rfl _ rfl

/-- Split after 2 tokens: the first request goes on with 1 token, its sequence has 5, and 2 are computed. -/
theorem computed_wrong_continued : ∃ slices cms, maybeCreateUbatchSlices true [3, 2] 5 2 2 none = .ok (some slices) ∧
    splitAttnMetadata slices.1 twoRequests = .ok cms ∧ ¬∀ cm ∈ cms, ComputedAgree cm := by
  refine ⟨_, _, rfl, rfl, fun hall => ?_⟩
  obtain ⟨computed, hcomputed, heq⟩ := hall _ (mem_cons_of_mem _ mem_cons_self) 0 0 1 5 rfl rfl rfl
  cases hcomputed
  exact absurd heq (by decide)

end VllmRuntime
