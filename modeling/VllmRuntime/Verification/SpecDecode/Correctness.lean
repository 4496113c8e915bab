import VllmRuntime.Verification.SpecDecode.Kernel

/-! One step with drafts gives the tokens of decoding one token at a time. -/

namespace VllmRuntime

open List Segments

variable {Row LogprobRow : Type}

/-! ## Decoding one token at a time -/

/-- The next `n` tokens when every token is sampled from what stands before it. -/
def sequential (target : List DraftToken → DraftToken) : List DraftToken → ℕ → List DraftToken
  | _, 0 => []
  | context, n + 1 => target context :: sequential target (context ++ [target context]) n

/-- How many of the drafts agree with decoding one token at a time. -/
def agreement (target : List DraftToken → DraftToken) : List DraftToken → List DraftToken → ℕ
  | _, [] => 0
  | context, draft :: drafts =>
    if draft = target context then agreement target (context ++ [draft]) drafts + 1 else 0

section Sequential

variable (target : List DraftToken → DraftToken) {k : ℕ}

@[simp] lemma length_sequential (context : List DraftToken) (n : ℕ) :
    (sequential target context n).length = n := by
  induction n generalizing context with
  | zero => rfl
  | succ n ih => simp [sequential, ih]

lemma take_sequential (context : List DraftToken) {n : ℕ} (h : k ≤ n) :
    (sequential target context n).take k = sequential target context k := by
  induction k generalizing context n with
  | zero => simp [sequential]
  | succ k ih =>
    cases n with
    | zero => omega
    | succ n => rw [sequential, sequential, take_succ_cons, ih _ (by omega)]

lemma sequential_succ (context : List DraftToken) (n : ℕ) :
    sequential target context (n + 1) =
      sequential target context n ++ [target (context ++ sequential target context n)] := by
  induction n generalizing context with
  | zero => simp [sequential]
  | succ n ih =>
    rw [sequential, ih]
    simp [sequential]

lemma agreement_le (context drafts : List DraftToken) : agreement target context drafts ≤ drafts.length := by
  induction drafts generalizing context with
  | nil => simp [agreement]
  | cons draft drafts ih =>
    rw [agreement]
    split
    · simpa using ih _
    · simp

lemma take_eq_sequential_iff (context drafts : List DraftToken) (hk : k ≤ drafts.length) :
    drafts.take k = sequential target context k ↔ k ≤ agreement target context drafts := by
  induction drafts generalizing context k with
  | nil =>
    obtain rfl : k = 0 := by simpa using hk
    simp [sequential]
  | cons draft drafts ih =>
    cases k with
    | zero => simp [sequential]
    | succ k =>
      rw [take_succ_cons, sequential, agreement, cons.injEq]
      by_cases h : draft = target context
      · rw [if_pos h, ← h, ih _ (by simpa using hk), eq_self_iff_true, true_and, Nat.add_le_add_iff_right]
      · simp [h]

/-- The agreement is the length of the longest prefix of the drafts that is decoded one at a time. -/
lemma findGreatest_eq_agreement (context drafts : List DraftToken) :
    Nat.findGreatest (fun k => drafts.take k = sequential target context k) drafts.length =
      agreement target context drafts := by
  rw [Nat.findGreatest_eq_iff]
  refine ⟨agreement_le target context drafts, ?_, ?_⟩
  · intro _
    exact (take_eq_sequential_iff target context drafts (agreement_le target context drafts)).2 le_rfl
  · intro k hlt hle heq
    exact absurd ((take_eq_sequential_iff target context drafts hle).1 heq) (by omega)

/-- The kernel's tokens, with the target given at every prefix of the drafts. -/
lemma greedyTokens_eq_sequential (context drafts : List DraftToken) :
    greedyTokens drafts ((range drafts.length).map fun j => target (context ++ drafts.take j))
        (target (context ++ drafts)) =
      sequential target context (agreement target context drafts + 1) := by
  induction drafts generalizing context with
  | nil => simp [greedyTokens, agreement, sequential]
  | cons draft drafts ih =>
    have htail : (range drafts.length).map (fun j => target (context ++ (draft :: drafts).take (j + 1))) =
        (range drafts.length).map fun j => target (context ++ [draft] ++ drafts.take j) := by
      simp
    rw [length_cons, range_succ_eq_map, map_cons, map_map, greedyTokens]
    simp only [take_zero, append_nil, agreement, Function.comp_def, Nat.succ_eq_add_one, htail]
    by_cases h : draft = target context
    · have hnext : sequential target context (agreement target (context ++ [draft]) drafts + 1 + 1) =
          draft :: sequential target (context ++ [draft]) (agreement target (context ++ [draft]) drafts + 1) := by
        rw [sequential, ← h]
      rw [if_pos h, if_pos h, show context ++ draft :: drafts = context ++ [draft] ++ drafts by simp, ih,
        hnext, ← h]
    · rw [if_neg h, if_neg h]
      simp [sequential]

end Sequential

namespace SpecRequest

/-- The longest prefix of the drafts that agrees with decoding one token at a time. -/
def accepted (target : List DraftToken → DraftToken) (r : SpecRequest) : ℕ :=
  Nat.findGreatest (fun k => r.drafts.take k = sequential target r.context k) r.drafts.length

/-- As many tokens as drafts are accepted and one more, decoded one at a time. -/
def decoded (target : List DraftToken → DraftToken) (r : SpecRequest) : List DraftToken :=
  sequential target r.context (r.accepted target + 1)

section Decoded

variable (target : List DraftToken → DraftToken) (r : SpecRequest)

lemma take_accepted : r.drafts.take (r.accepted target) = sequential target r.context (r.accepted target) := by
  rw [accepted, findGreatest_eq_agreement]
  exact (take_eq_sequential_iff target _ _ (agreement_le target _ _)).2 le_rfl

lemma accepted_le : r.accepted target ≤ r.drafts.length := by
  rw [accepted, findGreatest_eq_agreement]
  exact agreement_le target _ _

lemma length_decoded : (r.decoded target).length = r.accepted target + 1 := by
  simp [decoded]

lemma decoded_eq_append :
    r.decoded target =
      r.drafts.take (r.accepted target) ++ [target (r.context ++ r.drafts.take (r.accepted target))] := by
  rw [decoded, sequential_succ, take_accepted]

lemma take_decoded {j : ℕ} (hj : j < (r.decoded target).length) :
    (r.decoded target).take j = r.drafts.take j := by
  have hle : j ≤ r.accepted target := by
    rw [length_decoded] at hj
    omega
  rw [decoded, take_sequential target _ (by omega), ← take_sequential target _ hle, ← take_accepted,
    take_take, Nat.min_eq_left hle]

lemma greedyTokens_eq_decoded (model : List DraftToken → Row) (argmax : Row → DraftToken) :
    greedyTokens r.drafts ((r.targetRows model).map argmax) (argmax (r.rowAfter model r.drafts.length)) =
      r.decoded fun tokens => argmax (model tokens) := by
  rw [decoded, accepted, findGreatest_eq_agreement, ← greedyTokens_eq_sequential, targetRows, map_map,
    rowAfter, take_length]
  rfl

end Decoded

end SpecRequest

/-! ## Parsing the padded rows -/

/-- The mask of a padded row. -/
def rowMask (m : ℕ) (tokens : List DraftToken) : List Bool :=
  List.replicate tokens.length true ++ List.replicate (m + 1 - tokens.length) false

lemma validMask_paddedRow {m vocabSize : ℕ} {tokens : List DraftToken}
    (h : ∀ token ∈ tokens, 0 ≤ token ∧ token < vocabSize) :
    ((paddedRow m tokens).map fun token =>
        decide (token ≠ placeholderTokenId) && decide (token < vocabSize)) = rowMask m tokens := by
  have htokens : (tokens.map fun token => decide (token ≠ placeholderTokenId) && decide (token < vocabSize)) =
      List.replicate tokens.length true := by
    rw [eq_replicate_iff]
    refine ⟨length_map _, ?_⟩
    simp only [mem_map, forall_exists_index, and_imp, forall_apply_eq_imp_iff₂]
    intro token htoken
    obtain ⟨hpos, hlt⟩ := h token htoken
    have hne : token ≠ placeholderTokenId := by
      rintro rfl
      exact absurd hpos (by decide)
    simp [hne, hlt]
  rw [paddedRow, map_append, htokens, rowMask]
  simp

lemma compress_paddedRow (m : ℕ) (tokens : List DraftToken) :
    compress (paddedRow m tokens) (rowMask m tokens) = tokens :=
  compress_split tokens _ _

lemma count_rowMask (m : ℕ) (tokens : List DraftToken) : (rowMask m tokens).count true = tokens.length := by
  simp [rowMask, count_replicate]

section Parse

variable {m vocabSize : ℕ} {requests : List SpecRequest} {tokens : SpecRequest → List DraftToken}

lemma parseOutput_eq (h : ∀ r ∈ requests, ∀ token ∈ tokens r, 0 ≤ token ∧ token < vocabSize)
    (discard : List ℕ) (tensors : Option (List LogprobRow)) :
    parseOutput (requests.map fun r => paddedRow m (tokens r)) vocabSize discard tensors =
      (requests.mapIdx fun i r => if i ∈ discard then [] else tokens r,
        tensors.map fun rows => ⟨compress rows (requests.flatMap fun r => rowMask m (tokens r)),
          0 :: cumsum (requests.map fun r => (tokens r).length)⟩) := by
  have hmask : (requests.map fun r => paddedRow m (tokens r)).map (fun row => row.map fun token =>
      decide (token ≠ placeholderTokenId) && decide (token < vocabSize)) =
        requests.map fun r => rowMask m (tokens r) := by
    rw [map_map]
    exact map_congr_left fun r hr => validMask_paddedRow (h r hr)
  have hcount : (requests.map fun r => rowMask m (tokens r)).map (·.count true) =
      requests.map fun r => (tokens r).length := by
    rw [map_map]
    exact map_congr_left fun r _ => count_rowMask m (tokens r)
  simp only [parseOutput, hmask, hcount, ← flatMap_def, Prod.mk.injEq, and_true]
  apply ext_getElem?
  intro i
  cases hi : requests[i]? with
  | none => simp [getElem?_zipWith, hi]
  | some r =>
    simp only [getElem?_zipWith, getElem?_map, getElem?_mapIdx, hi, Option.map_some]
    by_cases hd : i ∈ discard
    · simp [hd, compress_replicate_false]
    · simp [hd, compress_paddedRow]

/-! ## Rows of log-probabilities -/

/-- Under the mask, the rows of the accepted tokens stay, each from its own index. -/
lemma compress_logprobs (base : ℕ) (row : SpecRequest → ℕ → Row) (rowAt : ℕ → Row)
    (gatherRow : Row → DraftToken → LogprobRow) (hlen : ∀ r ∈ requests, (tokens r).length ≤ m + 1)
    (hrow : ∀ i r, requests[i]? = some r → ∀ j < (tokens r).length,
      rowAt (base + ((requests.take i).map (·.drafts.length + 1)).sum + j) = row r j) :
    compress (zipWith gatherRow
        ((flatIndices base (·.drafts.length + 1) (fun _ => range (m + 1)) requests).map rowAt)
        (requests.flatMap fun r => tokens r ++ List.replicate (m + 1 - (tokens r).length) 0))
        (requests.flatMap fun r => rowMask m (tokens r)) =
      requests.flatMap fun r => (tokens r).mapIdx fun j token => gatherRow (row r j) token := by
  induction requests generalizing base with
  | nil => rfl
  | cons r rs ih =>
    have hr : (tokens r).length ≤ m + 1 := hlen r mem_cons_self
    have hsplit : range (m + 1) = range (tokens r).length ++
        range' (tokens r).length (m + 1 - (tokens r).length) := by
      have happend := range'_append_1 (s := 0) (m := (tokens r).length)
        (n := m + 1 - (tokens r).length)
      rw [Nat.zero_add, Nat.add_sub_cancel' hr] at happend
      rw [range_eq_range', range_eq_range', happend]
    have hfirst : zipWith gatherRow ((range (tokens r).length).map (rowAt ∘ (base + ·))) (tokens r) =
        (tokens r).mapIdx fun j token => gatherRow (row r j) token := by
      apply ext_getElem?
      intro j
      by_cases hj : j < (tokens r).length
      · have h0 := hrow 0 r rfl j hj
        simp only [take_zero, map_nil, sum_nil, Nat.add_zero] at h0
        simp [hj, h0]
      · simp [Nat.le_of_not_lt hj]
    have hrest := ih (base + (r.drafts.length + 1)) (fun r' hr' => hlen r' (mem_cons_of_mem _ hr'))
      fun i r' hr' j hj => by
        rw [← hrow (i + 1) r' hr' j hj]
        congr 1
        simp only [take_succ_cons, map_cons, sum_cons]
        omega
    rw [flatIndices, map_append, flatMap_cons, flatMap_cons, flatMap_cons,
      zipWith_append (by simp [hr]), compress_append (by simp [rowMask, hr]), hrest]
    congr 1
    have hmask : rowMask m (tokens r) =
        List.replicate ((tokens r).mapIdx fun j token => gatherRow (row r j) token).length true ++
          List.replicate (m + 1 - (tokens r).length) false := by
      rw [rowMask, length_mapIdx]
    rw [map_map, hsplit, map_append, zipWith_append (by simp), hfirst, hmask, compress_split]

end Parse

section Logprobs

variable (requests : List SpecRequest) (model : List DraftToken → Row) (sampler : Sampler Row LogprobRow)
  {r : SpecRequest}

/-- The rows of targets and bonus tokens together are all rows of the logits. -/
lemma scatter_logits (zeros : Row) :
    scatter (scatter (List.replicate (requests.flatMap (·.sampledRows model)).length zeros)
        (specDecodeMetadata requests).targetLogitsIndices (requests.flatMap (·.targetRows model)))
        (specDecodeMetadata requests).bonusLogitsIndices
        (requests.map fun r => r.rowAfter model r.drafts.length) =
      requests.flatMap (·.sampledRows model) := by
  apply ext_getElem?
  intro p
  rw [getElem?_scatter_gather (by simp) (gather_bonusLogitsIndices requests model),
    getElem?_scatter_gather (by simp) (gather_targetLogitsIndices requests model)]
  by_cases hp : p < (requests.map (·.drafts.length + 1)).sum
  · obtain ⟨i, r, k, hr, hk, rfl⟩ := exists_of_lt_sum hp
    by_cases hlast : k = r.drafts.length
    · rw [if_pos]
      exact mem_flatIndices.2 ⟨i, r, k, hr, by simp [hlast], by rw [Nat.zero_add]⟩
    · have hmem : ((requests.take i).map (·.drafts.length + 1)).sum + k ∈
          (specDecodeMetadata requests).targetLogitsIndices :=
        mem_flatIndices.2 ⟨i, r, k, hr, mem_range.2 (by omega), by rw [Nat.zero_add]⟩
      rw [if_pos hmem, ite_self]
  · have hlen : (requests.flatMap (·.sampledRows model)).length ≤ p := by
      simpa [length_flatMap] using hp
    rw [getElem?_eq_none hlen, getElem?_eq_none (by simpa using hlen), ite_self, ite_self]

/-- The row at the start of a request plus an offset, where the offset is not beyond the bonus token. -/
lemma getD_sampledRows {i j : ℕ} (hr : requests[i]? = some r) (hj : j < r.drafts.length + 1) (zeros : Row) :
    (requests.flatMap (·.sampledRows model)).getD
        (min (((requests.take i).map (·.drafts.length + 1)).sum + j)
          ((requests.flatMap (·.sampledRows model)).length - 1)) zeros =
      r.rowAfter model j := by
  have hlt := sum_take_add_lt (·.drafts.length + 1) hr hj
  have htotal : (requests.flatMap (·.sampledRows model)).length =
      (requests.map (·.drafts.length + 1)).sum := by
    simp [length_flatMap]
  have hget := getElem?_flatMap (·.sampledRows model) hr (show j < (r.sampledRows model).length by simpa using hj)
  simp only [SpecRequest.length_sampledRows] at hget
  rw [htotal, Nat.min_eq_left (by omega), getD_eq_getElem?_getD, hget]
  simp [SpecRequest.sampledRows, hj]

lemma drafts_le_maxSpecLen (hr : r ∈ requests) :
    r.drafts.length ≤ (specDecodeMetadata requests).maxSpecLen :=
  le_max_of_le' 0 (mem_map_of_mem hr) le_rfl

variable {requests}

lemma getLogprobsTensors_eq {tokens : SpecRequest → List DraftToken} (num : ℕ)
    (hlen : ∀ r ∈ requests, (tokens r).length ≤ r.drafts.length + 1) {vocabSize : ℕ}
    (hvocab : ∀ r ∈ requests, ∀ token ∈ tokens r, 0 ≤ token ∧ token < vocabSize) :
    ∃ rows, getLogprobsTensors sampler num (specDecodeMetadata requests)
        (requests.flatMap (·.sampledRows model)) (requests.flatMap (·.targetRows model))
        (requests.map fun r => r.rowAfter model r.drafts.length)
        (requests.map fun r => paddedRow (specDecodeMetadata requests).maxSpecLen (tokens r)) = some rows ∧
      compress rows (requests.flatMap fun r => rowMask (specDecodeMetadata requests).maxSpecLen (tokens r)) =
        requests.flatMap fun r => (tokens r).mapIdx fun j token =>
          sampler.gatherLogprobs (sampler.logprobs (r.rowAfter model j)) num token := by
  generalize hm : (specDecodeMetadata requests).maxSpecLen = m
  have hfits : ∀ r ∈ requests, (tokens r).length ≤ m + 1 := by
    intro r hr
    have h1 := hlen r hr
    have h2 := drafts_le_maxSpecLen requests hr
    omega
  have htokens : (requests.map fun r => paddedRow m (tokens r)).flatten.map
      (fun token => if token = placeholderTokenId then 0 else token) =
        requests.flatMap fun r => tokens r ++ List.replicate (m + 1 - (tokens r).length) 0 := by
    rw [← flatMap_def, map_flatMap]
    refine flatMap_congr fun r hr => ?_
    rw [paddedRow, map_append, map_replicate, if_pos rfl]
    congr 1
    refine (map_congr_left fun token htoken => if_neg ?_).trans (map_id _)
    rintro rfl
    exact absurd (hvocab r hr _ htoken).1 (by decide)
  have hindices : ∀ p ∈ (flatIndices 0 (·.drafts.length + 1) (fun _ => range (m + 1)) requests).map
      (min · ((requests.flatMap (·.sampledRows model)).length - 1)),
      p < (requests.flatMap (·.sampledRows model)).length := by
    intro p hp
    obtain ⟨q, hq, rfl⟩ := mem_map.1 hp
    obtain ⟨i, r, k, hr, -, -⟩ := mem_flatIndices.1 hq
    have hpos := sum_take_add_lt (·.drafts.length + 1) hr (Nat.succ_pos _)
    have htotal : (requests.flatMap (·.sampledRows model)).length =
        (requests.map (·.drafts.length + 1)).sum := by
      simp [length_flatMap]
    omega
  have hstarts := flatMap_starts 0 (·.drafts.length + 1) requests (m + 1)
  refine ⟨_, ?_, compress_logprobs 0 (·.rowAfter model)
    (fun p => (requests.flatMap (·.sampledRows model)).getD
      (min p ((requests.flatMap (·.sampledRows model)).length - 1)) sampler.zeros)
    (fun row token => sampler.gatherLogprobs (sampler.logprobs row) num token) hfits ?_⟩
  · simp only [getLogprobsTensors, scatter_logits, htokens, hm]
    simp only [specDecodeMetadata, cumsum, hstarts]
    rw [gather_eq_map hindices sampler.zeros, map_map]
    rfl
  · intro i r hr j hj
    rw [Nat.zero_add]
    exact getD_sampledRows requests model hr
      (Nat.lt_of_lt_of_le hj (hlen r (mem_of_getElem? hr))) sampler.zeros

end Logprobs

/-! ## One step -/

section Step

variable (model : List DraftToken → Row) (sampler : Sampler Row LogprobRow) {vocabSize : ℕ}
  {requests : List SpecRequest}

/-- The greedy token that the target model gives after some tokens. -/
def greedyTarget (tokens : List DraftToken) : DraftToken := sampler.argmax (model tokens)

/-- The row of log-probabilities of every decoded token, from what stands before the token. -/
def SpecRequest.decodedLogprobs (num : ℕ) (r : SpecRequest) : List LogprobRow :=
  (r.decoded (greedyTarget model sampler)).mapIdx fun j token =>
    sampler.gatherLogprobs
      (sampler.logprobs (model (r.context ++ (r.decoded (greedyTarget model sampler)).take j))) num token

lemma mapIdx_rowAfter (num : ℕ) (r : SpecRequest) :
    ((r.decoded (greedyTarget model sampler)).mapIdx fun j token =>
      sampler.gatherLogprobs (sampler.logprobs (r.rowAfter model j)) num token) =
      r.decodedLogprobs model sampler num := by
  apply ext_getElem?
  intro j
  by_cases hj : j < (r.decoded (greedyTarget model sampler)).length
  · simp [SpecRequest.decodedLogprobs, SpecRequest.rowAfter, hj, r.take_decoded _ hj]
  · simp [SpecRequest.decodedLogprobs, Nat.le_of_not_lt hj]

lemma length_decodedLogprobs (num : ℕ) (r : SpecRequest) :
    (r.decodedLogprobs model sampler num).length = (r.decoded (greedyTarget model sampler)).length := by
  simp [SpecRequest.decodedLogprobs]

variable {model sampler}

section

variable (hvocab : ∀ tokens, 0 ≤ greedyTarget model sampler tokens ∧ greedyTarget model sampler tokens < vocabSize)
include hvocab

lemma mem_decoded (r : SpecRequest) {token : DraftToken} (h : token ∈ r.decoded (greedyTarget model sampler)) :
    0 ≤ token ∧ token < vocabSize := by
  have hgen : ∀ n context, token ∈ sequential (greedyTarget model sampler) context n →
      0 ≤ token ∧ token < vocabSize := by
    intro n
    induction n with
    | zero => simp [sequential]
    | succ n ih =>
      intro context hmem
      rcases mem_cons.1 hmem with rfl | hmem
      · exact hvocab context
      · exact ih _ hmem
  exact hgen _ _ h

/-- What the rejection sampler makes of the logits of a batch. -/
lemma verifyDrafts_eq {order : List ℕ} (horder : order.Perm (range requests.length)) (maxNumLogprobs : Option ℕ) :
    ∃ tensors, verifyDrafts sampler order (specDecodeMetadata requests)
        (requests.flatMap (·.sampledRows model)) maxNumLogprobs =
          some ⟨requests.map fun r => paddedRow (specDecodeMetadata requests).maxSpecLen
            (r.decoded (greedyTarget model sampler)), tensors⟩ ∧
      tensors.map (compress · (requests.flatMap fun r =>
          rowMask (specDecodeMetadata requests).maxSpecLen (r.decoded (greedyTarget model sampler)))) =
        maxNumLogprobs.map fun num => requests.flatMap (·.decodedLogprobs model sampler num) := by
  have htokens (r : SpecRequest) :
      greedyTokens r.drafts ((r.targetRows model).map sampler.argmax)
        (sampler.argmax (r.rowAfter model r.drafts.length)) = r.decoded (greedyTarget model sampler) :=
    r.greedyTokens_eq_decoded model sampler.argmax
  have hsample := rejectionSample_eq (fun r => (r.targetRows model).map sampler.argmax)
    (fun r => sampler.argmax (r.rowAfter model r.drafts.length))
    (fun r => by simp [SpecRequest.targetRows]) (fun r hr => drafts_le_maxSpecLen requests hr) horder
  simp only [htokens] at hsample
  have hlen : ∀ r ∈ requests, (r.decoded (greedyTarget model sampler)).length ≤ r.drafts.length + 1 := by
    intro r _
    rw [r.length_decoded]
    exact Nat.succ_le_succ (r.accepted_le _)
  have hbonus : (requests.map fun r => r.rowAfter model r.drafts.length).map sampler.argmax =
      requests.map fun r => sampler.argmax (r.rowAfter model r.drafts.length) := by
    rw [map_map]; rfl
  simp only [verifyDrafts, gather_bonusLogitsIndices, gather_targetLogitsIndices, Option.bind_eq_bind,
    Option.bind_some, map_flatMap, hbonus]
  rw [show (specDecodeMetadata requests).draftTokenIds = requests.flatMap (·.drafts) from rfl,
    show (specDecodeMetadata requests).numDraftTokens = requests.map (·.drafts.length) from rfl,
    show (specDecodeMetadata requests).cuNumDraftTokens = cumsum (requests.map (·.drafts.length)) from rfl,
    hsample]
  cases maxNumLogprobs with
  | none => exact ⟨none, rfl, rfl⟩
  | some num =>
    obtain ⟨rows, hrows, hcompress⟩ := getLogprobsTensors_eq model sampler num hlen
      fun r _ token htoken => mem_decoded hvocab r htoken
    refine ⟨some rows, ?_, ?_⟩
    · simp [hrows]
    · simp [hcompress, mapIdx_rowAfter]

end

variable (model sampler) in
/-- The rows of a batch, one request after the other, with where each request starts. -/
def decodedLists (requests : List SpecRequest) (num : ℕ) : LogprobsLists LogprobRow where
  rows := requests.flatMap (·.decodedLogprobs model sampler num)
  cuNumGeneratedTokens := 0 :: cumsum (requests.map fun r => (r.decoded (greedyTarget model sampler)).length)

lemma sliceRequest_decodedLists {i : ℕ} {r : SpecRequest} (hr : requests[i]? = some r) (num : ℕ) :
    (decodedLists model sampler requests num).sliceRequest i (r.decoded (greedyTarget model sampler)).length =
      r.decodedLogprobs model sampler num := by
  have hstart : load (decodedLists model sampler requests num).cuNumGeneratedTokens i =
      ((requests.take i).map fun r => (r.decodedLogprobs model sampler num).length).sum := by
    have hi : i < requests.length := lt_of_getElem? hr
    simp only [length_decodedLogprobs, decodedLists, load]
    cases i with
    | zero => simp
    | succ i =>
      rw [getD_cons_succ, getD_eq_getElem?_getD, cumsum, getElem?_cumsumFrom 0 (by simp; omega),
        Option.getD_some, Nat.zero_add, map_take]
  rw [LogprobsLists.sliceRequest, hstart, ← length_decodedLogprobs model sampler num]
  exact drop_take_flatMap (·.decodedLogprobs model sampler num) hr

/-- A step with drafts gives every request the tokens of decoding one token at a time: the longest prefix of
its drafts that agrees with these, and one token more. The programs of the kernel run in any order, and
requests whose prefill is partial are discarded. -/
theorem specDecodeStep_eq_sequential (vocabSize : ℕ)
    (hvocab : ∀ tokens, 0 ≤ greedyTarget model sampler tokens ∧ greedyTarget model sampler tokens < vocabSize)
    (requests : List SpecRequest) (order : List ℕ) (horder : order.Perm (List.range requests.length))
    (maxNumLogprobs : Option ℕ) (discard : List ℕ) :
    specDecodeStep model sampler vocabSize order maxNumLogprobs discard requests =
        some (requests.mapIdx fun i r => if i ∈ discard then [] else r.decoded (greedyTarget model sampler),
          maxNumLogprobs.map (decodedLists model sampler requests)) ∧
      (∀ r ∈ requests, r.decoded (greedyTarget model sampler) =
        r.drafts.take (r.accepted (greedyTarget model sampler)) ++
          [greedyTarget model sampler (r.context ++ r.drafts.take (r.accepted (greedyTarget model sampler)))]) ∧
      ∀ num i r, requests[i]? = some r →
        (decodedLists model sampler requests num).sliceRequest i (r.decoded (greedyTarget model sampler)).length =
          r.decodedLogprobs model sampler num := by
  refine ⟨?_, fun r _ => r.decoded_eq_append _, fun num i r hr => sliceRequest_decodedLists hr num⟩
  obtain ⟨tensors, hverify, htensors⟩ := verifyDrafts_eq hvocab horder maxNumLogprobs
  simp only [specDecodeStep, calcSpecDecodeMetadata_eq, gather_logitsIndices, hverify, Option.bind_eq_bind,
    Option.bind_some]
  rw [parseOutput_eq fun r _ token htoken => mem_decoded hvocab r htoken]
  have hlists : (tensors.map fun rows => LogprobsLists.mk
      (compress rows (requests.flatMap fun r =>
        rowMask (specDecodeMetadata requests).maxSpecLen (r.decoded (greedyTarget model sampler))))
      (0 :: cumsum (requests.map fun r => (r.decoded (greedyTarget model sampler)).length))) =
        maxNumLogprobs.map (decodedLists model sampler requests) := by
    have h := congrArg (Option.map fun rows => LogprobsLists.mk rows
      (0 :: cumsum (requests.map fun r => (r.decoded (greedyTarget model sampler)).length))) htensors
    rw [Option.map_map, Option.map_map] at h
    exact h
  rw [hlists]
  rfl

end Step

/-- A target model that counts the tokens before. -/
def countingModel (tokens : List DraftToken) : ℤ := tokens.length % 50

def countingSampler : Sampler ℤ (ℤ × DraftToken) where
  zeros := 0
  argmax row := row
  computeLogprobs row := row
  gatherLogprobs row _ token := (row, token)
  isLogitsLogprobsMode := true

def countedRequests : List SpecRequest :=
  [⟨[7], [7], [2, 3], by decide⟩, ⟨[], [7, 7], [], by decide⟩, ⟨[], [7], [1, 9, 3], by decide⟩]

theorem specDecodeStep_eq_sequential_countedRequests :
    specDecodeStep countingModel countingSampler 50 [2, 0, 1] (some 1) [1] countedRequests =
        some (countedRequests.mapIdx fun i r =>
            if i ∈ [1] then [] else r.decoded (greedyTarget countingModel countingSampler),
          (some 1).map (decodedLists countingModel countingSampler countedRequests)) ∧
      countedRequests.map (·.decoded (greedyTarget countingModel countingSampler)) =
        [[2, 3, 4], [2], [1, 2]] := by
  refine ⟨(specDecodeStep_eq_sequential 50 ?_ countedRequests [2, 0, 1] (by decide) (some 1) [1]).1, by decide⟩
  intro tokens
  exact ⟨Int.emod_nonneg _ (by decide), Int.emod_lt_of_pos _ (by decide)⟩

end VllmRuntime
