import VllmRuntime.Verification.Attention.VirtualBatches

/-! # Local attention sees the chunk up to the token

A query token at position `p` is in the virtual batch of chunk `p / c`. With causal masking from the bottom
right, it sees there the keys from the start of its chunk up to itself. -/

namespace VllmRuntime

open List Segments

/-- The number of keys of the chunk that the position is in. -/
def AttentionRequest.chunkKeys (r : AttentionRequest) (c p : ℕ) : ℕ := min (p / c * c + c) r.seqLen - p / c * c

/-- The virtual batch `v` has the query token `t` of the batch, which is the one of a request at `p`. -/
structure CommonAttentionMetadata.Serves (metadata : CommonAttentionMetadata) (c bs : ℕ) (r : AttentionRequest)
    (t p v lo hi : ℕ) : Prop where
  start : metadata.queryStartLoc[v]? = some lo
  stop : metadata.queryStartLoc[v + 1]? = some hi
  inside : lo ≤ t ∧ t < hi
  keys : metadata.seqLens[v]? = some (r.chunkKeys c p)
  visible : ∀ k, k < r.chunkKeys c p ∧ k + (hi - lo) ≤ r.chunkKeys c p + (t - lo) ↔ p / c * c + k ≤ p
  pages : ∃ row, metadata.blockTable[v]? = some row ∧ row.length = c / bs ∧
    ∀ k < r.chunkKeys c p, ∃ block, r.blocks[(p / c * c + k) / bs]? = some block ∧ row[k / bs]? = some block

/-- What the virtual batches of some requests are to be. -/
structure CommonAttentionMetadata.SplitsIntoChunks (metadata : CommonAttentionMetadata) (c bs : ℕ)
    (requests : List AttentionRequest) : Prop where
  queryLens : ∃ lens : List ℕ, metadata.queryStartLoc = 0 :: cumsum lens ∧ lens.length = metadata.numReqs ∧
    metadata.seqLens.length = metadata.numReqs ∧ lens.sum = (requests.map (·.queryLen)).sum
  numActualTokens : metadata.numActualTokens = (requests.map (·.queryLen)).sum
  causal : metadata.causal = true
  serves : ∀ (b : ℕ) (r : AttentionRequest), requests[b]? = some r → ∀ i < r.queryLen, ∃ v lo hi,
    metadata.Serves c bs r (((requests.take b).map (·.queryLen)).sum + i) (r.context + i) v lo hi

namespace AttentionRequest

variable {c bs width : ℕ} {requests : List AttentionRequest} {r : AttentionRequest} {b i j p : ℕ}

/-! ## Offsets of the queries -/

/-- The query tokens in the chunks before one. -/
lemma sum_range_reach (r : AttentionRequest) (c j : ℕ) :
    ((List.range j).map fun j => r.reach c (j + 1) - r.reach c j).sum = r.reach c j := by
  induction j with
  | zero => rw [reach_zero]; rfl
  | succ j ih =>
    have hmono := r.reach_mono c (Nat.le_add_right j 1)
    rw [range_succ, map_append, sum_append, ih, map_singleton, sum_singleton]
    omega

lemma sum_rows_reach (hc : 0 < c) (r : AttentionRequest) :
    ((List.range (r.numChunks c)).map fun j => r.reach c (j + 1) - r.reach c j).sum = r.queryLen := by
  rw [sum_range_reach, r.reach_numChunks hc]

lemma sum_localQueryLens (hc : 0 < c) (requests : List AttentionRequest) :
    (localQueryLens c requests).sum = (requests.map (·.queryLen)).sum := by
  induction requests with
  | nil => rfl
  | cons r rs ih =>
    unfold localQueryLens at ih ⊢
    rw [rows_cons, sum_append, ih, sum_rows_reach hc, map_cons, sum_cons]

/-- Where the queries of a virtual batch start. -/
lemma queryStartLoc_getElem? (hc : 0 < c) (hr : requests[b]? = some r) (hj : j ≤ r.numChunks c) :
    (0 :: cumsum (localQueryLens c requests))[((requests.take b).map (·.numChunks c)).sum + j]? =
      some (((requests.take b).map (·.queryLen)).sum + r.reach c j) := by
  have hbound : ((requests.take b).map (·.numChunks c)).sum + j ≤ (localQueryLens c requests).length := by
    rw [localQueryLens, length_rows]
    have hsplit := take_append_drop b requests
    have hdrop := drop_eq_getElem?_toList_append (l := requests) (i := b)
    rw [hr] at hdrop
    conv_rhs => rw [← hsplit, hdrop]
    simp
    omega
  rw [getElem?_cons_cumsum hbound, localQueryLens, sum_take_rows hr hj, sum_range_reach]
  congr 3
  exact map_congr_left fun r _ => sum_rows_reach hc r

/-! ## The chunk of a position -/

/-- The index, among the virtual batches of the request, of the chunk of a position. -/
def chunkIndex (r : AttentionRequest) (c p : ℕ) : ℕ := p / c - r.context / c

lemma chunkStart_chunkIndex (h : r.context ≤ p) : r.chunkStart c (r.chunkIndex c p) = p / c * c := by
  have hle : r.context / c ≤ p / c := Nat.div_le_div_right h
  rw [chunkStart, chunkIndex, Nat.add_sub_cancel' hle]

lemma chunkIndex_lt (hc : 0 < c) (h : r.context ≤ p) (hp : p < r.seqLen) : r.chunkIndex c p < r.numChunks c := by
  rw [lt_numChunks_iff hc, chunkStart_chunkIndex h]
  exact (Nat.div_mul_le_self p c).trans_lt hp

/-- A token is one of the query tokens of its chunk. -/
lemma reach_chunkIndex (hc : 0 < c) (hi : i < r.queryLen) :
    r.reach c (r.chunkIndex c (r.context + i)) ≤ i ∧ i < r.reach c (r.chunkIndex c (r.context + i) + 1) := by
  have hadd := r.context_add
  have hstart := r.chunkStart_chunkIndex (c := c) (Nat.le_add_right r.context i)
  have hdiv := Nat.div_add_mod' (r.context + i) c
  have hmod := Nat.mod_lt (r.context + i) hc
  unfold reach
  rw [chunkStart_succ, hstart]
  omega

/-- Causal masking from the bottom right leaves the keys up to the token. -/
lemma visible_iff (hc : 0 < c) (hi : i < r.queryLen) (before k : ℕ) :
    k < r.chunkKeys c (r.context + i) ∧
        k + (before + r.reach c (r.chunkIndex c (r.context + i) + 1) -
            (before + r.reach c (r.chunkIndex c (r.context + i)))) ≤
          r.chunkKeys c (r.context + i) +
            (before + i - (before + r.reach c (r.chunkIndex c (r.context + i)))) ↔
      (r.context + i) / c * c + k ≤ r.context + i := by
  have hadd := r.context_add
  have hstart := r.chunkStart_chunkIndex (c := c) (Nat.le_add_right r.context i)
  have hdiv := Nat.div_add_mod' (r.context + i) c
  have hmod := Nat.mod_lt (r.context + i) hc
  unfold reach chunkKeys
  rw [chunkStart_succ, hstart]
  omega

/-! ## The block table -/

lemma length_localPages (requests : List AttentionRequest) :
    (localPages c bs width requests).length = (requests.map (·.numChunks c)).sum * (c / bs) := by
  rw [localPages, length_rows, sum_map_mul_right]

lemma getElem?_viewRows {α : Type} {flat : List α} {n w v : ℕ} (hv : v < n) :
    (viewRows flat n w)[v]? = some ((flat.drop (v * w)).take w) := by
  rw [viewRows, getElem?_map, getElem?_range hv]
  rfl

/-- A page of a virtual batch is the block with the same positions. -/
lemma getElem?_page (hr : requests[b]? = some r) (hj : j < r.numChunks c) {m : ℕ}
    (hm : m < c / bs) (hblock : r.chunkStart c j / bs + m < width) (hrect : r.blocks.length = width) :
    (localPages c bs width requests)[(((requests.take b).map (·.numChunks c)).sum + j) * (c / bs) + m]? =
      r.blocks[r.chunkStart c j / bs + m]? := by
  have hpages : 0 < c / bs := Nat.zero_lt_of_lt hm
  have hentry : j * (c / bs) + m < r.numChunks c * (c / bs) := by
    calc j * (c / bs) + m < (j + 1) * (c / bs) := by rw [Nat.succ_mul]; omega
      _ ≤ r.numChunks c * (c / bs) := Nat.mul_le_mul_right _ hj
  have hget := getElem?_rows (fun r : AttentionRequest => r.numChunks c * (c / bs))
    (fun r m => (r.blocks[r.pageIndex c bs width m]?).getD 0) hr hentry
  rw [sum_map_mul_right, ← Nat.add_assoc, ← Nat.add_mul] at hget
  have hindex : r.pageIndex c bs width (j * (c / bs) + m) = r.chunkStart c j / bs + m := by
    unfold pageIndex
    rw [Nat.mul_comm j, Nat.mul_add_div hpages, Nat.mul_add_mod, Nat.div_eq_of_lt hm, Nat.mod_eq_of_lt hm,
      Nat.add_zero]
    omega
  rw [localPages, hget, hindex, getElem?_eq_getElem (by omega), Option.getD_some]

/-! ## The virtual batches -/

/-- The virtual batch of a query token. -/
lemma serves (hc : 0 < c) (hbs : 0 < bs) (hdvd : bs ∣ c) {result : CommonAttentionMetadata}
    (hstarts : result.queryStartLoc = 0 :: cumsum (localQueryLens c requests))
    (hkeys : result.seqLens = localKeyLens c requests)
    (htable : result.blockTable =
      viewRows (localPages c bs width requests) (requests.map (·.numChunks c)).sum (c / bs))
    (hr : requests[b]? = some r) (hrect : r.blocks.length = width) (hwide : r.seqLen ≤ width * bs)
    (hi : i < r.queryLen) : ∃ v lo hi,
      result.Serves c bs r (((requests.take b).map (·.queryLen)).sum + i) (r.context + i) v lo hi := by
  have hp : r.context + i < r.seqLen := by
    have hadd := r.context_add
    omega
  have hj := r.chunkIndex_lt hc (Nat.le_add_right r.context i) hp
  have hstart := r.chunkStart_chunkIndex (c := c) (Nat.le_add_right r.context i)
  obtain ⟨hlo, hhi⟩ := reach_chunkIndex hc hi
  have hfull : c / bs * bs = c := Nat.div_mul_cancel hdvd
  -- The chunk starts with a page.
  obtain ⟨first, hfirst⟩ : ∃ first, (r.context + i) / c * c = first * bs :=
    ⟨(r.context + i) / c * (c / bs), by rw [Nat.mul_assoc, hfull]⟩
  refine ⟨((requests.take b).map (·.numChunks c)).sum + r.chunkIndex c (r.context + i),
    ((requests.take b).map (·.queryLen)).sum + r.reach c (r.chunkIndex c (r.context + i)),
    ((requests.take b).map (·.queryLen)).sum + r.reach c (r.chunkIndex c (r.context + i) + 1), ?_⟩
  refine { start := ?_, stop := ?_, inside := ?_, keys := ?_, visible := visible_iff hc hi _, pages := ?_ }
  · rw [hstarts, queryStartLoc_getElem? hc hr hj.le]
  · rw [hstarts, Nat.add_assoc, queryStartLoc_getElem? hc hr hj]
  · omega
  · rw [hkeys, localKeyLens, getElem?_rows _ _ hr hj, hstart]
    rfl
  · rw [htable, getElem?_viewRows (sum_take_add_lt (numChunks · c) hr hj)]
    refine ⟨_, rfl, ?_, fun k hk => ?_⟩
    · have hlt := sum_take_add_lt (numChunks · c) hr hj
      have hroom := Nat.mul_le_mul_right (c / bs) (Nat.succ_le_of_lt hlt)
      rw [Nat.succ_mul] at hroom
      rw [length_take, length_drop, length_localPages]
      omega
    · have hkc : k < c / bs * bs := by
        unfold chunkKeys at hk
        omega
      have hm : k / bs < c / bs := (Nat.div_lt_iff_lt_mul hbs).mpr hkc
      have hpage : ((r.context + i) / c * c + k) / bs =
          r.chunkStart c (r.chunkIndex c (r.context + i)) / bs + k / bs := by
        rw [hstart, hfirst, Nat.mul_comm first, Nat.mul_add_div hbs, Nat.mul_div_cancel_left _ hbs]
      have hblock : ((r.context + i) / c * c + k) / bs < width := by
        rw [Nat.div_lt_iff_lt_mul hbs]
        unfold chunkKeys at hk
        omega
      have hget := getElem?_page hr hj hm (hpage ▸ hblock) hrect
      rw [← hpage] at hget
      obtain ⟨block, hsome⟩ : ∃ block, r.blocks[((r.context + i) / c * c + k) / bs]? = some block :=
        ⟨_, getElem?_eq_getElem (hrect ▸ hblock)⟩
      refine ⟨block, hsome, ?_⟩
      rw [getElem?_take_of_lt hm, getElem?_drop, hget, hsome]

end AttentionRequest

/-- Every query token sees the keys from the start of its chunk up to itself. -/
theorem makeLocalAttentionVirtualBatches_splits {c bs width : ℕ} {requests : List AttentionRequest}
    {metadata : CommonAttentionMetadata} (hc : 0 < c) (hbs : 0 < bs) (hdvd : bs ∣ c)
    (h : metadata.Holds requests width) (hwide : ∀ r ∈ requests, r.seqLen ≤ width * bs) (hne : requests ≠ []) :
    ∃ result makeBlockTable,
      makeLocalAttentionVirtualBatches c metadata bs = .ok (result, makeBlockTable) ∧
        result.SplitsIntoChunks c bs requests := by
  have hwidth : 0 < width := by
    obtain ⟨r, hr⟩ := exists_mem_of_ne_nil requests hne
    have hseq := hwide r hr
    have hpos := r.context_lt
    by_contra hnot
    rw [Nat.eq_zero_of_not_pos hnot, Nat.zero_mul] at hseq
    omega
  obtain ⟨result, makeBlockTable, hok, hstarts, hkeys, hreqs, htokens, hcausal, htable⟩ :=
    AttentionRequest.makeLocalAttentionVirtualBatches_eq hc hbs hdvd h hne hwidth
  refine ⟨result, makeBlockTable, hok, ?_⟩
  refine { queryLens := ?_, numActualTokens := ?_, causal := hcausal, serves := fun b r hr i hi => ?_ }
  · refine ⟨_, hstarts, ?_, ?_, AttentionRequest.sum_localQueryLens hc requests⟩
    · rw [hreqs, AttentionRequest.localQueryLens, AttentionRequest.localKeyLens, length_rows, length_rows]
    · rw [hreqs, hkeys]
  · rw [htokens, h.numActualTokens]
  · have hmem := mem_of_getElem? hr
    exact AttentionRequest.serves hc hbs hdvd hstarts hkeys htable hr (h.rectangular r hmem) (hwide r hmem) hi

/-- Three requests, each in the middle of a chunk. -/
def chunkedRequests : List AttentionRequest :=
  [⟨4, 6, [0, 1, 2, 3, 4, 5, 6, 7, 8], by decide, by decide⟩,
    ⟨10, 17, [10, 11, 12, 13, 14, 15, 16, 17, 18], by decide, by decide⟩,
    ⟨5, 9, [20, 21, 22, 23, 24, 25, 26, 27, 28], by decide, by decide⟩]

theorem makeLocalAttentionVirtualBatches_splits_chunkedRequests : ∃ metadata : CommonAttentionMetadata,
    metadata.Holds chunkedRequests 9 ∧ ∃ result makeBlockTable,
      makeLocalAttentionVirtualBatches 4 metadata 2 = .ok (result, makeBlockTable) ∧
        result.SplitsIntoChunks 4 2 chunkedRequests := by
  let metadata : CommonAttentionMetadata :=
    { queryStartLoc := [0, 4, 14, 19], seqLens := [6, 17, 9], numReqs := 3, numActualTokens := 19, maxQueryLen := 10
      maxSeqLen := 17, slotMapping := [], blockTable := chunkedRequests.map (·.blocks) }
  have hholds : metadata.Holds chunkedRequests 9 := ⟨rfl, rfl, rfl, rfl, by decide⟩
  exact ⟨metadata, hholds,
    makeLocalAttentionVirtualBatches_splits (by decide) (by decide) (by decide) hholds (by decide) (by decide)⟩

end VllmRuntime
