import VllmRuntime.Verification.Attention.Local

/-! # The metadata of local attention

Every vector of the source is a flat array with one row for each request. With these rows the metadata is
read off position by position. -/

namespace VllmRuntime

open List Segments

variable {α ρ : Type}

/-! ## Masks and indices -/

lemma assignMask_false (xs ys : List α) (mask : List Bool) (values : List α) :
    assignMask (xs ++ ys) (List.replicate xs.length false ++ mask) values = xs ++ assignMask ys mask values := by
  induction xs with
  | nil => rfl
  | cons x xs ih =>
    rw [length_cons, replicate_succ, cons_append, cons_append, cons_append]
    simp only [assignMask]
    rw [ih]

/-- The mask of the first entry of each row. -/
lemma assignMask_rows {len : ρ → ℕ} (first other : ρ → α) {rs : List ρ} (h : ∀ r ∈ rs, 0 < len r) :
    assignMask (rows len (fun r _ => other r) rs) ((rows len (fun _ j => j) rs).map (· == 0)) (rs.map first) =
      rows len (fun r j => if j = 0 then first r else other r) rs := by
  induction rs with
  | nil => simp [assignMask]
  | cons r rs ih =>
    rw [forall_mem_cons] at h
    obtain ⟨n, hn⟩ : ∃ n, len r = n + 1 := ⟨len r - 1, by have := h.1; omega⟩
    have hmask : ((range (len r)).map fun j => j).map (· == 0) = true :: List.replicate n false := by
      rw [hn, range_succ_eq_map]
      simp [Function.comp_def]
    have hother : (range (len r)).map (fun _ => other r) = other r :: List.replicate n (other r) := by
      rw [map_const', length_range, hn, replicate_succ]
    have hresult : ((range (len r)).map fun j => if j = 0 then first r else other r) =
        first r :: List.replicate n (other r) := by
      rw [hn, range_succ_eq_map]
      simp [Function.comp_def]
    have hrest := assignMask_false (List.replicate n (other r)) (rows len (fun r _ => other r) rs)
      ((rows len (fun _ j => j) rs).map (· == 0)) (rs.map first)
    rw [length_replicate] at hrest
    rw [rows_cons, rows_cons, rows_cons, map_append, hmask, hother, hresult, map_cons,
      cons_append, cons_append, cons_append, ← ih h.2, ← hrest]
    rfl

lemma getLast?_cumsum {ns : List ℕ} (h : ns ≠ []) : (cumsum ns).getLast? = some ns.sum := by
  cases ns with
  | nil => exact absurd rfl h
  | cons n ns =>
    have hlast := getLastD_cumsumFrom (0 + n) ns
    rw [getLastD_eq_getLast?] at hlast
    rw [cumsum, cumsumFrom_cons, getLast?_cons, hlast, sum_cons, Nat.zero_add]

/-! ## The rows of the requests -/

/-- The metadata of a batch of these requests, whose block table has this width. -/
structure CommonAttentionMetadata.Holds (metadata : CommonAttentionMetadata) (requests : List AttentionRequest)
    (width : ℕ) : Prop where
  queryStartLoc : metadata.queryStartLoc = 0 :: cumsum (requests.map (·.queryLen))
  seqLens : metadata.seqLens = requests.map (·.seqLen)
  numActualTokens : metadata.numActualTokens = (requests.map (·.queryLen)).sum
  blockTable : metadata.blockTable = requests.map (·.blocks)
  rectangular : ∀ r ∈ requests, r.blocks.length = width

namespace AttentionRequest

variable {c bs width : ℕ} {requests : List AttentionRequest}

/-- The query lengths of the virtual batches. -/
def localQueryLens (c : ℕ) (requests : List AttentionRequest) : List ℕ :=
  rows (numChunks · c) (fun r j => r.reach c (j + 1) - r.reach c j) requests

/-- The key lengths of the virtual batches. -/
def localKeyLens (c : ℕ) (requests : List AttentionRequest) : List ℕ :=
  rows (numChunks · c) (fun r j => min (r.chunkStart c j + c) r.seqLen - r.chunkStart c j) requests

/-- The index into a request's blocks of page `m` of its virtual batches. -/
def pageIndex (c bs width : ℕ) (r : AttentionRequest) (m : ℕ) : ℕ :=
  min (r.chunkStart c (m / (c / bs)) / bs + m % (c / bs)) (width - 1)

/-- The pages of the virtual batches, one after the other. -/
def localPages (c bs width : ℕ) (requests : List AttentionRequest) : List ℕ :=
  rows (fun r => r.numChunks c * (c / bs)) (fun r m => (r.blocks[r.pageIndex c bs width m]?).getD 0) requests

lemma indexTable_eq (hwidth : 0 < width) (hrect : ∀ r ∈ requests, r.blocks.length = width) :
    indexTable (requests.map (·.blocks))
        (repeatEach (range requests.length) (requests.map fun r => r.numChunks c * (c / bs)))
        (rows (fun r => r.numChunks c * (c / bs)) (pageIndex c bs width) requests) =
      some (localPages c bs width requests) := by
  have hfst : requests = requests.zipIdx.map (·.1) := (zipIdx_map_fst 0 requests).symm
  have hsnd : range requests.length = requests.zipIdx.map (·.2) := by
    rw [zipIdx_map_snd, range_eq_range']
  have hbatch : repeatEach (range requests.length) (requests.map fun r => r.numChunks c * (c / bs)) =
      rows (fun x => x.1.numChunks c * (c / bs)) (fun x _ => x.2) requests.zipIdx := by
    rw [hsnd, ← repeatEach_rows (fun x : AttentionRequest × ℕ => x.2)]
    congr 1
    conv_lhs => rw [hfst, map_map]
    rfl
  have hblock : rows (fun r => r.numChunks c * (c / bs)) (pageIndex c bs width) requests =
      rows (fun x => x.1.numChunks c * (c / bs)) (fun x => x.1.pageIndex c bs width) requests.zipIdx := by
    conv_lhs => rw [hfst]
    exact rows_map _ _
  have hpages : localPages c bs width requests = rows (fun x => x.1.numChunks c * (c / bs))
      (fun x m => (x.1.blocks[x.1.pageIndex c bs width m]?).getD 0) requests.zipIdx := by
    unfold localPages
    conv_lhs => rw [hfst]
    exact rows_map _ _
  rw [indexTable, hbatch, hblock, hpages, List.zip, zipWith_rows]
  refine mapM_rows fun x hx m _ => ?_
  have hget := mem_zipIdx_iff_getElem?.mp hx
  have hbound : x.1.pageIndex c bs width m < x.1.blocks.length := by
    rw [hrect x.1 (mem_of_getElem? hget)]
    unfold pageIndex
    omega
  simp only [getElem?_map, hget, Option.map_some, Option.bind_some]
  rw [getElem?_eq_getElem hbound, Option.getD_some]

/-! ## The vectors of the source -/

lemma tokensInFirstBlock_map (hc : 0 < c) (requests : List AttentionRequest) :
    zipWith (fun s q => min (c - (s - q) % c) q) (requests.map (·.seqLen)) (requests.map (·.queryLen)) =
      requests.map (·.reach c 1) := by
  rw [zipWith_map_left, zipWith_map_right, zipWith_self]
  exact map_congr_left fun r _ => r.tokensInFirstBlock_eq hc

lemma localBlocks_map (hc : 0 < c) (requests : List AttentionRequest) :
    zipWith (fun q first => 1 + cdiv (q - first) c) (requests.map (·.queryLen))
        (requests.map (·.reach c 1)) =
      requests.map (·.numChunks c) := by
  rw [zipWith_map_left, zipWith_map_right, zipWith_self]
  exact map_congr_left fun r _ => r.localBlocks_eq hc

lemma tokensInLastBlock_map (hc : 0 < c) (requests : List AttentionRequest) :
    ((requests.map (·.seqLen)).map fun s : ℕ => ((c : ℤ) + Int.fmod s (-(c : ℤ))).toNat) =
      requests.map fun r => r.seqLen - r.chunkStart c (r.numChunks c - 1) := by
  rw [map_map]
  exact map_congr_left fun r _ => r.tokensInLastBlock_eq hc

lemma localQueryLens_eq (hc : 0 < c) (requests : List AttentionRequest) :
    zipWith (fun i q => if 0 < i then min (q - c * (i - 1)) c else q) (rows (numChunks · c) (fun _ j => j) requests)
        (assignMask (rows (numChunks · c) (fun r _ => r.queryLen - r.reach c 1) requests)
          ((rows (numChunks · c) (fun _ j => j) requests).map (· == 0)) (requests.map (·.reach c 1))) =
      localQueryLens c requests := by
  rw [assignMask_rows _ _ fun r _ => r.numChunks_pos hc, zipWith_rows]
  exact rows_congr fun r _ j hj => seqlensQLocal_eq hc hj

lemma localKeyLens_eq (hc : 0 < c) (requests : List AttentionRequest) :
    scatter (List.replicate (requests.map (·.numChunks c)).sum c)
        ((cumsum (requests.map (·.numChunks c))).map (· - 1))
        (requests.map fun r => r.seqLen - r.chunkStart c (r.numChunks c - 1)) =
      localKeyLens c requests := by
  rw [scatter_rows_last c _ fun r _ => r.numChunks_pos hc]
  exact rows_congr fun r _ j hj => seqlensKLocal_eq hc hj

lemma kSeqstarts_rows (hc : 0 < c) (requests : List AttentionRequest) :
    zipWith (· - ·) (rows (numChunks · c) (fun r _ => r.seqLen) requests)
        (zipWith (· * c + ·)
          (zipWith (· - · - 1) (rows (numChunks · c) (fun r _ => r.numChunks c) requests)
            (rows (numChunks · c) (fun _ j => j) requests))
          (rows (numChunks · c) (fun r _ => r.seqLen - r.chunkStart c (r.numChunks c - 1)) requests)) =
      rows (numChunks · c) (fun r j => r.chunkStart c j) requests := by
  rw [zipWith_rows, zipWith_rows, zipWith_rows]
  exact rows_congr fun r _ j hj => kSeqstarts_eq hc hj

lemma blockIndices_rows (hpages : 0 < c / bs) (requests : List AttentionRequest) :
    ((((rows (numChunks · c) (fun r j => r.chunkStart c j) requests).map (· / bs)).flatMap fun start =>
        (range (c / bs)).map (start + ·)).map (min · (width - 1))) =
      rows (fun r => r.numChunks c * (c / bs)) (pageIndex c bs width) requests := by
  rw [map_rows, flatMap_rows hpages, map_rows]
  rfl

/-- The metadata of the virtual batches, vector by vector. -/
lemma makeLocalAttentionVirtualBatches_eq {metadata : CommonAttentionMetadata} (hc : 0 < c) (hbs : 0 < bs)
    (hdvd : bs ∣ c) (h : metadata.Holds requests width) (hne : requests ≠ []) (hwidth : 0 < width) :
    ∃ result makeBlockTable,
      makeLocalAttentionVirtualBatches c metadata bs = .ok (result, makeBlockTable) ∧
        result.queryStartLoc = 0 :: cumsum (localQueryLens c requests) ∧
        result.seqLens = localKeyLens c requests ∧ result.numReqs = (localKeyLens c requests).length ∧
        result.numActualTokens = metadata.numActualTokens ∧ result.causal = true ∧
        result.blockTable =
          viewRows (localPages c bs width requests) (requests.map (·.numChunks c)).sum (c / bs) := by
  have hpages : 0 < c / bs := Nat.div_pos (Nat.le_of_dvd hc hdvd) hbs
  have hlens : zipWith (· - ·) metadata.queryStartLoc.tail metadata.queryStartLoc =
      requests.map (·.queryLen) := by
    rw [h.queryStartLoc]
    exact zipWith_sub_cumsumFrom 0 _
  have hlast : (cumsum (requests.map (·.numChunks c))).getLast? = some (requests.map (·.numChunks c)).sum :=
    getLast?_cumsum (by simpa using hne)
  have hhead : (metadata.blockTable.head?.map (·.length)).getD 0 = width := by
    rw [h.blockTable]
    cases hrequests : requests with
    | nil => exact absurd hrequests hne
    | cons r rs => exact h.rectangular r (hrequests ▸ mem_cons_self)
  have hpagesMap : (requests.map (·.numChunks c)).map (· * (c / bs)) =
      requests.map fun r => r.numChunks c * (c / bs) := by
    rw [map_map]
    rfl
  have hsub : zipWith (· - ·) (requests.map (·.queryLen)) (requests.map (·.reach c 1)) =
      requests.map fun r => r.queryLen - r.reach c 1 := by
    rw [zipWith_map_left, zipWith_map_right, zipWith_self]
  unfold makeLocalAttentionVirtualBatches
  dsimp only
  rw [hlens, h.seqLens, tokensInFirstBlock_map hc, localBlocks_map hc, tokensInLastBlock_map hc, hlast]
  dsimp only
  rw [arange_rows, hsub, repeatEach_rows, repeatEach_rows, repeatEach_rows, repeatEach_rows, localQueryLens_eq hc,
    localKeyLens_eq hc, kSeqstarts_rows hc, hhead, blockIndices_rows hpages, length_map, hpagesMap, h.blockTable,
    indexTable_eq hwidth h.rectangular, Nat.mod_eq_zero_of_dvd hdvd]
  exact ⟨_, _, rfl, rfl, rfl, rfl, rfl, rfl, rfl⟩

end AttentionRequest

end VllmRuntime
