import VllmRuntime.Verification.Attention.UbatchSlices

/-! # The rows of a micro-batch

A request that is cut at either end has a shorter row. The rows of a slice are the requests of the batch with
their starts moved to the first token of the slice and their ends not after its last one. -/

namespace VllmRuntime

variable {k n x : ℕ} {α : Type*} {xs : List ℕ}

open List Segments

/-! ## Slices and corrections -/

lemma Slice.getElem?_get {s : Slice} (xs : List α) (hk : k < s.stop - s.start) :
    (s.get xs)[k]? = xs[s.start + k]? := by
  rw [Slice.get, getElem?_drop, getElem?_take, if_pos (by omega)]

lemma Slice.length_get (s : Slice) {xs : List α} (h : s.stop ≤ xs.length) :
    (s.get xs).length = s.stop - s.start := by
  rw [Slice.get, length_drop, length_take, min_eq_left h]

lemma getElem?_subtractAfterFirst (h : xs[k]? = some x) :
    (subtractAfterFirst n xs)[k]? = some (if k = 0 then x else x - n) := by
  cases xs with
  | nil => cases h
  | cons y ys =>
    cases k with
    | zero => exact h
    | succ k =>
      rw [getElem?_cons_succ] at h
      rw [subtractAfterFirst, getElem?_cons_succ, getElem?_map, h, if_neg (Nat.succ_ne_zero k)]
      rfl

lemma length_subtractAfterFirst (n : ℕ) (xs : List ℕ) : (subtractAfterFirst n xs).length = xs.length := by
  cases xs with
  | nil => rfl
  | cons y ys => rw [subtractAfterFirst, length_cons, length_map, length_cons]

lemma getElem?_subtractLast (h : xs[k]? = some x) :
    (subtractLast n xs)[k]? = some (if k + 1 = xs.length then x - n else x) := by
  have hlt := lt_of_getElem? h
  rw [subtractLast, getElem?_modify, h, Option.map_eq_map, Option.map_some]
  by_cases hlast : k + 1 = xs.length
  · rw [if_pos (by omega), if_pos hlast]
  · rw [if_neg (by omega), if_neg hlast]

lemma length_subtractLast (n : ℕ) (xs : List ℕ) : (subtractLast n xs).length = xs.length := by
  rw [subtractLast, length_modify]

/-! ## The rows -/

/-- The metadata of a batch with these numbers of scheduled tokens, with some more rows without tokens. -/
structure OfBatch (metadata : CommonAttentionMetadata) (lens : List ℕ) (extra tokens : ℕ) : Prop where
  queryStartLoc : metadata.queryStartLoc = 0 :: cumsum (lens ++ List.replicate extra 0)
  seqLens : metadata.seqLens.length = lens.length + extra
  blockTable : metadata.blockTable.length = lens.length + extra
  slotMapping : tokens ≤ metadata.slotMapping.length
  query_le : ∀ r len seqLen : ℕ, lens[r]? = some len → metadata.seqLens[r]? = some seqLen → len ≤ seqLen

lemma OfBatch.getElem?_queryStartLoc {metadata : CommonAttentionMetadata} {lens : List ℕ} {extra tokens : ℕ}
    (h : OfBatch metadata lens extra tokens) {r : ℕ} (hr : r ≤ lens.length + extra) :
    metadata.queryStartLoc[r]? = some (lens.take r).sum := by
  rw [h.queryStartLoc, getElem?_cons_cumsum (by simpa using hr), sum_take_append_zeros]

/-- The requests of a slice are those of its tokens. -/
structure CutsRequests (lens : List ℕ) (extra : ℕ) (s : UBatchSlice) : Prop where
  tokens_lt : s.tokenSlice.start < s.tokenSlice.stop
  requests_lt : s.requestSlice.start < s.requestSlice.stop
  stop_le : s.requestSlice.stop ≤ lens.length + extra
  first_le : (lens.take s.requestSlice.start).sum ≤ s.tokenSlice.start
  lt_second : s.tokenSlice.start < (lens.take (s.requestSlice.start + 1)).sum
  inner_le : ∀ r < s.requestSlice.stop, (lens.take r).sum ≤ s.tokenSlice.stop
  reaches : s.tokenSlice.stop ≤ (lens.take s.requestSlice.stop).sum ∨ s.requestSlice.stop = lens.length + extra

/-- The rows of a slice in closed form. -/
structure SlicedRows (metadata : CommonAttentionMetadata) (lens : List ℕ) (s : UBatchSlice)
    (cm : CommonAttentionMetadata) : Prop where
  length : cm.queryStartLoc.length = s.requestSlice.stop - s.requestSlice.start + 1
  starts : ∀ k ≤ s.requestSlice.stop - s.requestSlice.start, cm.queryStartLoc[k]? =
    some (min (lens.take (s.requestSlice.start + k)).sum s.tokenSlice.stop - s.tokenSlice.start)
  seqLens : ∀ k < s.requestSlice.stop - s.requestSlice.start, cm.seqLens[k]? =
    metadata.seqLens[s.requestSlice.start + k]?.map
      (· - ((lens.take (s.requestSlice.start + k + 1)).sum - s.tokenSlice.stop))
  blockTable : ∀ k < s.requestSlice.stop - s.requestSlice.start, cm.blockTable[k]? =
    metadata.blockTable[s.requestSlice.start + k]?
  slotMapping : ∀ j < s.tokenSlice.stop - s.tokenSlice.start, cm.slotMapping[j]? =
    metadata.slotMapping[s.tokenSlice.start + j]?
  numComputed : ∀ k < s.requestSlice.stop - s.requestSlice.start, cm.numComputedTokensCpu[k]? =
    metadata.numComputedTokensCpu[s.requestSlice.start + k]?

section Rows

variable {metadata : CommonAttentionMetadata} {lens : List ℕ} {extra tokens : ℕ} {s : UBatchSlice}

section

variable (h : CutsRequests lens extra s)
include h

lemma CutsRequests.firstRequestLoc_eq (hbatch : OfBatch metadata lens extra tokens) :
    firstRequestLoc metadata.queryStartLoc s.requestSlice.start s.tokenSlice.start =
      .ok (lens.take s.requestSlice.start).sum := by
  have hlt := h.requests_lt
  have hle := h.stop_le
  unfold firstRequestLoc
  rw [hbatch.getElem?_queryStartLoc (by omega), hbatch.getElem?_queryStartLoc (by omega)]
  dsimp only
  rw [if_pos h.first_le, decide_eq_true h.lt_second]
  rfl

/-- The starts after both corrections. -/
lemma CutsRequests.starts_eq (hbatch : OfBatch metadata lens extra tokens)
    {starts : List ℕ}
    (hstarts : starts = sliceQueryStartLocs metadata.queryStartLoc s.requestSlice (lens.take s.requestSlice.start).sum)
    {starts' : List ℕ} (hstarts' : starts' = if (lens.take s.requestSlice.start).sum < s.tokenSlice.start then
      subtractAfterFirst (s.tokenSlice.start - (lens.take s.requestSlice.start).sum) starts else starts)
    {starts'' : List ℕ}
    (hstarts'' : starts'' = if (s.tokenSlice.stop : ℤ) - 1 < ((lens.take s.requestSlice.stop).sum : ℤ) - 1 then
      subtractLast ((lens.take s.requestSlice.stop).sum - s.tokenSlice.stop) starts' else starts') :
    starts.length = s.requestSlice.stop - s.requestSlice.start + 1 ∧
      starts''.length = s.requestSlice.stop - s.requestSlice.start + 1 ∧
      ∀ k ≤ s.requestSlice.stop - s.requestSlice.start, starts''[k]? =
        some (min (lens.take (s.requestSlice.start + k)).sum s.tokenSlice.stop - s.tokenSlice.start) := by
  have hrequests := h.requests_lt
  have hle := h.stop_le
  have hfirst := h.first_le
  have htokens := h.tokens_lt
  have hlength : starts.length = s.requestSlice.stop - s.requestSlice.start + 1 := by
    rw [hstarts, sliceQueryStartLocs, length_map, Slice.length_get _]
    · dsimp only
      omega
    · rw [hbatch.queryStartLoc]
      simpa [cumsum] using hle
  have hlength' : starts'.length = starts.length := by
    rw [hstarts']
    split
    · exact length_subtractAfterFirst _ _
    · rfl
  have hlength'' : starts''.length = starts'.length := by
    rw [hstarts'']
    split
    · exact length_subtractLast _ _
    · rfl
  refine ⟨hlength, by omega, fun k hk => ?_⟩
  have hget : starts[k]? =
      some ((lens.take (s.requestSlice.start + k)).sum - (lens.take s.requestSlice.start).sum) := by
    rw [hstarts, sliceQueryStartLocs, getElem?_map, Slice.getElem?_get _ (by dsimp only; omega)]
    dsimp only
    rw [hbatch.getElem?_queryStartLoc (by omega)]
    rfl
  have hget' : starts'[k]? = some ((lens.take (s.requestSlice.start + k)).sum - s.tokenSlice.start) := by
    rw [hstarts']
    split
    · rw [getElem?_subtractAfterFirst hget]
      cases k with
      | zero => simp [Nat.sub_eq_zero_of_le hfirst]
      | succ k =>
        rw [if_neg (Nat.succ_ne_zero k)]
        congr 1
        omega
    · rw [hget]
      congr 2
      omega
  rw [hstarts'']
  split
  · rename_i hsplits
    rw [getElem?_subtractLast hget', hlength', hlength]
    by_cases hlast : k = s.requestSlice.stop - s.requestSlice.start
    · subst hlast
      rw [if_pos rfl, Nat.add_sub_cancel' hrequests.le]
      congr 1
      omega
    · have hinner := h.inner_le (s.requestSlice.start + k) (by omega)
      rw [if_neg (by omega), min_eq_left hinner]
  · rename_i hsplits
    rw [hget']
    by_cases hlast : k = s.requestSlice.stop - s.requestSlice.start
    · subst hlast
      rw [Nat.add_sub_cancel' hrequests.le, min_eq_left (by omega)]
    · have hinner := h.inner_le (s.requestSlice.start + k) (by omega)
      rw [min_eq_left hinner]

/-- The sequence lengths after the correction. -/
lemma CutsRequests.seqLens_eq (hbatch : OfBatch metadata lens extra tokens)
    {seqLens : List ℕ}
    (hseqLens : seqLens = if (s.tokenSlice.stop : ℤ) - 1 < ((lens.take s.requestSlice.stop).sum : ℤ) - 1 then
      subtractLast ((lens.take s.requestSlice.stop).sum - s.tokenSlice.stop) (s.requestSlice.get metadata.seqLens)
      else s.requestSlice.get metadata.seqLens) :
    seqLens.length = s.requestSlice.stop - s.requestSlice.start ∧
      ∀ k < s.requestSlice.stop - s.requestSlice.start, seqLens[k]? =
        metadata.seqLens[s.requestSlice.start + k]?.map
          (· - ((lens.take (s.requestSlice.start + k + 1)).sum - s.tokenSlice.stop)) := by
  have hle := h.stop_le
  have hlength := Slice.length_get s.requestSlice (hle.trans hbatch.seqLens.ge)
  constructor
  · rw [hseqLens]
    split
    · rw [length_subtractLast, hlength]
    · exact hlength
  · intro k hk
    have hlt : s.requestSlice.start + k < metadata.seqLens.length := by
      rw [hbatch.seqLens]
      omega
    have hget := Slice.getElem?_get metadata.seqLens hk
    rw [getElem?_eq_getElem hlt] at hget ⊢
    rw [hseqLens, Option.map_some]
    by_cases hlast : k + 1 = s.requestSlice.stop - s.requestSlice.start
    · have hstop : s.requestSlice.start + k + 1 = s.requestSlice.stop := by omega
      rw [hstop]
      split
      · rw [getElem?_subtractLast hget, hlength, if_pos hlast]
      · have hzero : (lens.take s.requestSlice.stop).sum - s.tokenSlice.stop = 0 := by omega
        rw [hget, hzero, Nat.sub_zero]
    · have hinner := h.inner_le (s.requestSlice.start + k + 1) (by omega)
      rw [Nat.sub_eq_zero_of_le hinner, Nat.sub_zero]
      split
      · rw [getElem?_subtractLast hget, hlength, if_neg hlast]
      · exact hget

/-- The metadata of a slice that has the requests of its tokens. -/
lemma makeMetadataWithSlice_eq_ok (hbatch : OfBatch metadata lens extra tokens) :
    ∃ cm, makeMetadataWithSlice s metadata = .ok cm ∧ SlicedRows metadata lens s cm := by
  have hrequests := h.requests_lt
  have hle := h.stop_le
  have htokens := h.tokens_lt
  have hempty : s.isEmpty = false := by
    simp only [UBatchSlice.isEmpty, Bool.or_eq_false_iff, decide_eq_false_iff_not]
    omega
  obtain ⟨starts, hstarts⟩ : ∃ starts, sliceQueryStartLocs metadata.queryStartLoc s.requestSlice
      (lens.take s.requestSlice.start).sum = starts := ⟨_, rfl⟩
  obtain ⟨starts', hstarts'⟩ : ∃ starts', (if (lens.take s.requestSlice.start).sum < s.tokenSlice.start then
      subtractAfterFirst (s.tokenSlice.start - (lens.take s.requestSlice.start).sum) starts else starts) =
    starts' := ⟨_, rfl⟩
  obtain ⟨starts'', hstarts''⟩ : ∃ starts'',
      (if (s.tokenSlice.stop : ℤ) - 1 < ((lens.take s.requestSlice.stop).sum : ℤ) - 1 then
        subtractLast ((lens.take s.requestSlice.stop).sum - s.tokenSlice.stop) starts' else starts') =
    starts'' := ⟨_, rfl⟩
  obtain ⟨seqLens, hseqLens⟩ : ∃ seqLens,
      (if (s.tokenSlice.stop : ℤ) - 1 < ((lens.take s.requestSlice.stop).sum : ℤ) - 1 then
        subtractLast ((lens.take s.requestSlice.stop).sum - s.tokenSlice.stop) (s.requestSlice.get metadata.seqLens)
      else s.requestSlice.get metadata.seqLens) = seqLens := ⟨_, rfl⟩
  obtain ⟨hlength, hlength'', hget⟩ := h.starts_eq hbatch hstarts.symm hstarts'.symm hstarts''.symm
  obtain ⟨hlensLength, hlensGet⟩ := h.seqLens_eq hbatch hseqLens.symm
  obtain ⟨maxSeqLen, hmax⟩ : ∃ maxSeqLen, seqLens.max? = some maxSeqLen := by
    rw [← Option.isSome_iff_exists, Option.isSome_iff_ne_none, ne_eq, max?_eq_none_iff,
      ← length_eq_zero_iff]
    omega
  refine ⟨{
    queryStartLoc := starts''
    seqLens
    numReqs := s.requestSlice.stop - s.requestSlice.start
    numActualTokens := s.tokenSlice.stop - s.tokenSlice.start
    maxQueryLen := if maxDistance starts'' = 0 then metadata.maxQueryLen else maxDistance starts''
    maxSeqLen
    blockTable := s.requestSlice.get metadata.blockTable
    slotMapping := s.tokenSlice.get metadata.slotMapping
    numComputedTokens := some (s.requestSlice.get metadata.numComputedTokensCpu) }, ?_, ?_⟩
  · unfold makeMetadataWithSlice
    rw [hempty]
    change (firstRequestLoc metadata.queryStartLoc s.requestSlice.start s.tokenSlice.start >>= _) = _
    rw [h.firstRequestLoc_eq hbatch]
    simp only [bind, Except.bind]
    rw [hbatch.getElem?_queryStartLoc hle]
    dsimp only
    rw [hstarts, hstarts', hstarts'', hseqLens, hmax]
    have htwo : 2 ≤ starts.length := by omega
    rw [decide_eq_true htwo]
    rfl
  · exact ⟨hlength'', hget, hlensGet, fun k hk => Slice.getElem?_get _ hk, fun j hj => Slice.getElem?_get _ hj,
      fun k hk => Slice.getElem?_get _ hk⟩

end

end Rows

/-! ## Every slice has the requests of its tokens -/

section Cuts

variable {lens : List ℕ} {a b : ℕ} {extra lastTok lastReq : ℕ}

lemma cutsRequests_sliceOf (extra : ℕ) (ha : a < b) (hb : b ≤ lens.sum) :
    CutsRequests lens extra (sliceOf lens a b) := by
  obtain ⟨hfirst, hle, hlt⟩ := searchsortedRight_spec (ha.trans_le hb)
  obtain ⟨hstop, hreaches, hinner⟩ := searchsortedLeft_spec hb
  refine ⟨ha, ?_, hstop.trans (Nat.le_add_right _ _), hle, hlt, fun r hr => (hinner r hr).le, .inl hreaches⟩
  by_contra hnot
  have hmono := sum_take_mono lens (not_lt.mp hnot)
  dsimp only [sliceOf] at hmono
  omega

lemma cutsRequests_padded (ha : a < lens.sum) (hlast : lens.sum ≤ lastTok) :
    CutsRequests lens extra
      ⟨⟨searchsortedRight (0 :: cumsum lens) a - 1, lens.length + extra⟩, ⟨a, lastTok⟩⟩ := by
  obtain ⟨hfirst, hle, hlt⟩ := searchsortedRight_spec ha
  exact ⟨ha.trans_le hlast, hfirst.trans_le (Nat.le_add_right _ _), le_rfl, hle, hlt,
    fun r _ => (sum_take_le lens r).trans hlast, .inr rfl⟩

/-- Where the last slice ends: with the batch or with the padding. -/
def LastEnds (lens : List ℕ) (extra lastReq lastTok : ℕ) : Prop :=
  (lastReq = searchsortedLeft (0 :: cumsum lens) lens.sum ∧ lastTok = lens.sum) ∨
    (lastReq = lens.length + extra ∧ lens.sum ≤ lastTok)

lemma LastEnds.le (h : LastEnds lens extra lastReq lastTok) : lens.sum ≤ lastTok := by
  rcases h with ⟨-, rfl⟩ | ⟨-, hle⟩
  · exact le_rfl
  · exact hle

lemma cutsRequests_cutSlice {s n i : ℕ} (hends : LastEnds lens extra lastReq lastTok)
    (hpoints : s * (n - 1) < lens.sum) (hpos : n = 1 ∨ 0 < s) (hi : i < n) :
    CutsRequests lens extra (cutSlice lens s n lastReq lastTok i) := by
  have hpoint : s * i < lens.sum := (Nat.mul_le_mul_left s (by omega : i ≤ n - 1)).trans_lt hpoints
  unfold cutSlice
  split
  · rename_i hlt
    apply cutsRequests_sliceOf
    · exact Nat.mul_lt_mul_of_pos_left (Nat.lt_succ_self i) (hpos.resolve_left (by omega))
    · exact (Nat.mul_le_mul_left s (by omega : i + 1 ≤ n - 1)).trans hpoints.le
  · rcases hends with ⟨rfl, rfl⟩ | ⟨rfl, hle⟩
    · exact cutsRequests_sliceOf extra hpoint le_rfl
    · exact cutsRequests_padded hpoint hle

end Cuts

/-! ## Where a token is -/

/-- A row has a token of the slice. -/
def InRow (cm : CommonAttentionMetadata) (k j : ℕ) : Prop :=
  ∃ lo hi, cm.queryStartLoc[k]? = some lo ∧ cm.queryStartLoc[k + 1]? = some hi ∧ lo ≤ j ∧ j < hi

/-- A slice has a token in one row only, which has the blocks of the request and puts the token at its position,
and the token has its own slot. -/
structure Places (metadata : CommonAttentionMetadata) (s : UBatchSlice) (cm : CommonAttentionMetadata)
    (r t position : ℕ) : Prop where
  start_le : s.tokenSlice.start ≤ t
  lt_stop : t < s.tokenSlice.stop
  row : ∃ k hi : ℕ, InRow cm k (t - s.tokenSlice.start) ∧
    (∀ k', InRow cm k' (t - s.tokenSlice.start) → k' = k) ∧ cm.blockTable[k]? = metadata.blockTable[r]? ∧
    cm.queryStartLoc[k + 1]? = some hi ∧
    cm.seqLens[k]? = some (position + (hi - (t - s.tokenSlice.start)))
  slot : cm.slotMapping[t - s.tokenSlice.start]? = metadata.slotMapping[t]?

section Places

variable {metadata cm : CommonAttentionMetadata} {lens : List ℕ} {extra tokens : ℕ} {s : UBatchSlice}

lemma SlicedRows.places (hrows : SlicedRows metadata lens s cm) (hcuts : CutsRequests lens extra s)
    (hbatch : OfBatch metadata lens extra tokens) {r len seqLen t : ℕ} (hr : lens[r]? = some len)
    (hseqLen : metadata.seqLens[r]? = some seqLen) (hstart : (lens.take r).sum ≤ t) (hend : t < (lens.take r).sum + len)
    (hle : s.tokenSlice.start ≤ t) (hlt : t < s.tokenSlice.stop) :
    Places metadata s cm r t (seqLen - len + (t - (lens.take r).sum)) := by
  have hnext := sum_take_succ hr
  have hquery := hbatch.query_le r len seqLen hr hseqLen
  have hfirst : s.requestSlice.start ≤ r := by
    by_contra hnot
    have hmono := sum_take_mono lens (by omega : r + 1 ≤ s.requestSlice.start)
    have := hcuts.first_le
    omega
  have hlast : r < s.requestSlice.stop := by
    rcases hcuts.reaches with hreaches | hall
    · by_contra hnot
      have hmono := sum_take_mono lens (not_lt.mp hnot)
      omega
    · have hlt := lt_of_getElem? hr
      omega
  obtain ⟨k, rfl⟩ := Nat.exists_eq_add_of_le hfirst
  have hk : k < s.requestSlice.stop - s.requestSlice.start := by omega
  refine ⟨hle, hlt, ⟨k, _, ?_, ?_, hrows.blockTable k hk, hrows.starts (k + 1) hk, ?_⟩, ?_⟩
  · refine ⟨_, _, hrows.starts k hk.le, hrows.starts (k + 1) hk, ?_, ?_⟩
    · omega
    · rw [← Nat.add_assoc, hnext]
      omega
  · rintro k' ⟨lo, hi, hlo, hhi, hle', hlt'⟩
    have hk' := lt_of_getElem? hhi
    rw [hrows.length] at hk'
    rw [hrows.starts k' (by omega), Option.some.injEq] at hlo
    rw [hrows.starts (k' + 1) (by omega), Option.some.injEq, ← Nat.add_assoc] at hhi
    rcases Nat.lt_trichotomy k' k with hbefore | heq | hafter
    · have hmono := sum_take_mono lens (by omega : s.requestSlice.start + k' + 1 ≤ s.requestSlice.start + k)
      omega
    · exact heq
    · have hmono := sum_take_mono lens (by omega : s.requestSlice.start + k + 1 ≤ s.requestSlice.start + k')
      omega
  · rw [hrows.seqLens k hk, hseqLen, Option.map_some, ← Nat.add_assoc, hnext]
    congr 1
    omega
  · rw [hrows.slotMapping _ (by omega), Nat.add_sub_cancel' hle]

end Places

end VllmRuntime
