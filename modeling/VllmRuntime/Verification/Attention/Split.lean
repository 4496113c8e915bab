import VllmRuntime.Verification.Attention.Reorder

/-! # Where the decodes end

The split looks at the query lengths only: the decodes are the requests before the first one that is longer
than the threshold. -/

namespace VllmRuntime

open List Segments

variable {γ : Type} {ns : List ℕ}

/-- The metadata of a batch with these query lengths. -/
structure CommonAttentionMetadata.Describes (metadata : CommonAttentionMetadata) (queryLens : List ℕ) : Prop where
  queryStartLoc : metadata.queryStartLoc = 0 :: cumsum queryLens
  numReqs : metadata.numReqs = queryLens.length
  numActualTokens : metadata.numActualTokens = queryLens.sum
  maxQueryLen : metadata.maxQueryLen = queryLens.foldr max 0

/-- What the counts of a split are to be. -/
structure SplitsAt (queryLens : List ℕ) (decodeThreshold : ℕ) (counts : ℕ × ℕ × ℕ × ℕ) : Prop where
  total : counts.1 + counts.2.1 = queryLens.length
  decodes : ∀ q ∈ queryLens.take counts.1, q ≤ decodeThreshold
  prefills : ∀ (i q : ℕ), queryLens[i]? = some q → decodeThreshold < q → counts.1 ≤ i
  decodeTokens : counts.2.2.1 = (queryLens.take counts.1).sum
  prefillTokens : counts.2.2.2 = (queryLens.drop counts.1).sum

lemma zipWith_sub_cumsumFrom (base : ℕ) (ns : List ℕ) :
    List.zipWith (· - ·) (cumsumFrom base ns) (base :: cumsumFrom base ns) = ns := by
  induction ns generalizing base with
  | nil => rfl
  | cons n ns ih =>
    rw [cumsumFrom_cons, zipWith_cons_cons, ih, Nat.add_sub_cancel_left]

lemma getElem?_cons_cumsum {i : ℕ} (hi : i ≤ ns.length) :
    (0 :: cumsum ns)[i]? = some (ns.take i).sum := by
  cases i with
  | zero => simp
  | succ i =>
    rw [getElem?_cons_succ, cumsum, getElem?_cumsumFrom 0 hi, Nat.zero_add]

namespace SplitsAt

variable {queryLens : List ℕ} {decodeThreshold : ℕ}

/-- No request is longer than the threshold. -/
lemma all_decodes (h : ∀ q ∈ queryLens, q ≤ decodeThreshold) :
    SplitsAt queryLens decodeThreshold (queryLens.length, 0, queryLens.sum, 0) where
  total := rfl
  decodes q hq := h q (mem_of_mem_take hq)
  prefills i q hi hlt := by
    have hle := h q (mem_of_getElem? hi)
    omega
  decodeTokens := by rw [take_length]
  prefillTokens := by rw [drop_length, sum_nil]

/-- The first request is longer than the threshold. -/
lemma all_prefills : SplitsAt queryLens decodeThreshold (0, queryLens.length, 0, queryLens.sum) where
  total := Nat.zero_add _
  decodes q hq := by simp at hq
  prefills i q _ _ := Nat.zero_le i
  decodeTokens := rfl
  prefillTokens := rfl

end SplitsAt

lemma splitDecodesAndPrefills_splits {metadata : CommonAttentionMetadata} {queryLens : List ℕ}
    (h : metadata.Describes queryLens) (decodeThreshold : ℕ) :
    ∃ counts, splitDecodesAndPrefills metadata decodeThreshold false = .ok counts ∧
      SplitsAt queryLens decodeThreshold counts := by
  have hlens : List.zipWith (· - ·) metadata.queryStartLoc.tail metadata.queryStartLoc = queryLens := by
    rw [h.queryStartLoc]
    exact zipWith_sub_cumsumFrom 0 queryLens
  unfold splitDecodesAndPrefills
  rw [hlens]
  dsimp only
  rw [h.numReqs, h.numActualTokens, h.maxQueryLen]
  split
  · rename_i hmax
    exact ⟨_, rfl, .all_decodes fun q hq => (le_max_of_le' 0 hq le_rfl).trans hmax.1⟩
  · rename_i hmax
    cases hhead : queryLens.head? with
    | none =>
      rw [List.head?_eq_none_iff.mp hhead] at hmax
      simp at hmax
    | some first =>
      dsimp only
      split
      · exact ⟨_, rfl, .all_prefills⟩
      · simp only [Bool.false_and, Bool.false_eq_true, if_false]
        split
        · rename_i hany
          refine ⟨_, rfl, .all_decodes fun q hq => ?_⟩
          simpa using (by simpa using hany : ∀ q ∈ queryLens, q ≤ decodeThreshold) q hq
        · rename_i hany
          have hany : queryLens.any (fun q => decide (decodeThreshold < q)) = true := by simpa using hany
          -- The lengths before the first prefill are at most the threshold.
          have hbefore : ∀ (i q : ℕ), queryLens[i]? = some q →
              i < queryLens.findIdx (fun q => decide (decodeThreshold < q)) → q ≤ decodeThreshold := by
            intro i q hi hlt
            have hnot := not_of_lt_findIdx hlt
            obtain ⟨hbound, rfl⟩ := List.getElem?_eq_some_iff.mp hi
            simpa using hnot
          have hle : queryLens.findIdx (fun q => decide (decodeThreshold < q)) ≤ queryLens.length :=
            findIdx_le_length
          have hdecodes : ∀ q ∈ queryLens.take (queryLens.findIdx fun q => decide (decodeThreshold < q)),
              q ≤ decodeThreshold := by
            intro q hq
            obtain ⟨i, hi⟩ := mem_iff_getElem?.mp hq
            rw [getElem?_take] at hi
            split at hi
            · rename_i hlt
              exact hbefore i q hi hlt
            · cases hi
          have hassert : ((queryLens.take (queryLens.findIdx fun q => decide (decodeThreshold < q))).all
              fun q => decide (q ≤ decodeThreshold)) = true := by
            simpa using hdecodes
          rw [hassert, h.queryStartLoc, getElem?_cons_cumsum hle]
          have hsum := sum_take_add_sum_drop queryLens
            (queryLens.findIdx fun q => decide (decodeThreshold < q))
          refine ⟨_, rfl, ?_, hdecodes, fun i q hi hlt => ?_, rfl, ?_⟩
          · dsimp only
            omega
          · by_contra hnot
            have hshort := hbefore i q hi (Nat.lt_of_not_le hnot)
            omega
          · dsimp only
            omega

/-! ## Both functions -/

namespace InputBatch

variable {config : InputBatchConfig} {tables : List BlockTable} {requests : BatchRequests γ} {b : InputBatch γ}

/-- The batch is put in order, and the split of the batch that results is right. -/
theorem reorderBatch_splits (h : Rows config tables b requests) (hgapless : b.Gapless)
    (numScheduledTokens : OrderedDict String ℕ) (hscheduled : b.Scheduled numScheduledTokens)
    (decodeThreshold fuel : ℕ) (hfuel : b.reqIds.length < fuel) :
    ∃ modified b', reorderBatchToSplitDecodesAndPrefills fuel b numScheduledTokens decodeThreshold =
        .ok (some (modified, b')) ∧
      Reordered numScheduledTokens decodeThreshold b b' modified ∧
      ∀ metadata : CommonAttentionMetadata, metadata.Describes (b'.queryLens numScheduledTokens) →
        ∃ counts, splitDecodesAndPrefills metadata decodeThreshold false = .ok counts ∧
          SplitsAt (b'.queryLens numScheduledTokens) decodeThreshold counts := by
  obtain ⟨modified, b', hok, -, -, hreordered⟩ := reorderBatch_eq_ok h hgapless hscheduled hfuel
  exact ⟨modified, b', hok, hreordered, fun metadata hmetadata =>
    splitDecodesAndPrefills_splits hmetadata decodeThreshold⟩

/-- A prefill, an extend and a decode enter the batch in this order. -/
def mixedSteps : List (BatchStep ℕ) :=
  [{ added := [sampleRequest "a" 1 none, { sampleRequest "b" 2 none with numComputedTokens := 1 },
                { sampleRequest "c" 3 none with numComputedTokens := 1 }] }]

theorem reorderBatch_splits_mixedSteps : ∃ b b' : InputBatch ℕ,
    reorderBatchToSplitDecodesAndPrefills 4 b [("a", 1), ("b", 3), ("c", 1)] 1 = .ok (some (true, b')) ∧
      Reordered [("a", 1), ("b", 3), ("c", 1)] 1 b b' true ∧
      b'.reqIds = [some "c", some "b", some "a"] := by
  have hrun : (runChecked (BatchStep.run sampleConfig) (checkStep sampleConfig sampleTables) mixedSteps
      sampleStart).map (fun s => (s.batch.reqIds,
        (reorderBatchToSplitDecodesAndPrefills 4 s.batch [("a", 1), ("b", 3), ("c", 1)] 1).toOption.map
          fun result => result.map fun result => (result.1, result.2.reqIds))) =
        some ([some "a", some "b", some "c"], some (some (true, [some "c", some "b", some "a"]))) := by
    decide +kernel
  obtain ⟨s, hs, heq⟩ := Option.map_eq_some_iff.mp hrun
  obtain ⟨hids, hresult⟩ := Prod.mk.inj heq
  have hsettled : Settled sampleConfig sampleTables s.batch s.requests :=
    settled_of_reaches (Reaches.of_runChecked (fun _ _ => allowed_of_checkStep) .start hs)
  obtain ⟨modified, b', hok, hreordered, -⟩ := reorderBatch_splits hsettled.rows hsettled.gapless
    [("a", 1), ("b", 3), ("c", 1)] (by
      intro id hid
      rw [hids] at hid
      simp only [mem_cons, Option.some.injEq, not_mem_nil, or_false] at hid
      rcases hid with rfl | rfl | rfl <;> decide) 1 4 (by rw [hids]; decide)
  rw [hok] at hresult
  simp only [Except.toOption, Option.map_some, Option.some.injEq, Prod.mk.injEq] at hresult
  obtain ⟨rfl, hids'⟩ := hresult
  exact ⟨s.batch, b', hok, hreordered, hids'⟩

end InputBatch

end VllmRuntime
