import VllmRuntime.Verification.InputBatch.Slots

/-! # What the operations do to the rows -/

namespace VllmRuntime

open List Function

variable {γ : Type}

/-- The builder with a request that is added at an index. -/
def BatchUpdateBuilder.register (builder : BatchUpdateBuilder) (request : CachedRequestState γ) (idx : ℕ) :
    BatchUpdateBuilder :=
  { builder with
    batchChanged := true
    added := builder.added ++ [⟨idx, request.samplingParams, request.promptTokenIds, request.outputList⟩] }

namespace InputBatch

variable {config : InputBatchConfig} {b b' : InputBatch γ} {request : CachedRequestState γ} {i idx : ℕ}
  {id : String}

/-! ## Adding a request -/

/-- The batch after `add_request` at an index, for a row of the tokens and the block tables. -/
def entered (config : InputBatchConfig) (b : InputBatch γ) (builder : BatchUpdateBuilder)
    (request : CachedRequestState γ) (idx : ℕ) (tokenRow : ℕ → TokenId) (isRow : ℕ → Bool)
    (reqPromptEmbeds : OrderedDict ℕ (List Bytes)) (blockTable : List BlockTable) : InputBatch γ :=
  let b := enterId { b with batchUpdateBuilder := builder } request idx
  let b := { b with
    numPromptTokens := update b.numPromptTokens idx request.numPromptTokens
    tokenIdsCpu := update b.tokenIdsCpu idx tokenRow
    isTokenIds := update b.isTokenIds idx isRow
    reqPromptEmbeds
    numTokensNoSpec := update b.numTokensNoSpec idx request.numTokens
    numComputedTokensCpu := update b.numComputedTokensCpu idx request.numComputedTokens }
  let b := { b with blockTable }
  enterLora (enterSampling config b request idx) request idx

lemma registerAddRequest_eq_ok (h : b.registerAddRequest config request = .ok (idx, b')) :
    idx = b.batchUpdateBuilder.popRemoved.1.getD b.numReqs ∧
      b' = { b with batchUpdateBuilder := b.batchUpdateBuilder.popRemoved.2.register request idx } := by
  unfold registerAddRequest at h
  generalize b.batchUpdateBuilder.popRemoved = popped at h ⊢
  obtain ⟨-, -, h⟩ := bind_eq_ok h
  cases h
  exact ⟨rfl, rfl⟩

lemma addRequest_eq_ok (hfits : request.numTokens ≤ config.maxModelLen)
    (h : b.addRequest config request = .ok b') :
    ∃ idx tokenRow isRow reqPromptEmbeds blockTable,
      idx = b.batchUpdateBuilder.popRemoved.1.getD b.numReqs ∧
      ((range request.numTokens).map fun j =>
        if isRow j then some (tokenRow j) else none) = request.tokens ∧
      BlockTable.addRows b.blockTable request.blockIds idx = .ok blockTable ∧
      b' = entered config b (b.batchUpdateBuilder.popRemoved.2.register request idx) request idx tokenRow
        isRow reqPromptEmbeds blockTable := by
  unfold addRequest at h
  obtain ⟨⟨idx, b₁⟩, hregister, h⟩ := bind_eq_ok h
  obtain ⟨hidx, rfl⟩ := registerAddRequest_eq_ok hregister
  obtain ⟨b₂, htokens, h⟩ := bind_eq_ok h
  obtain ⟨blockTable, hrows, h⟩ := bind_eq_ok h
  obtain ⟨tokenRow, isRow, reqPromptEmbeds, rfl, hmap⟩ := enterTokens_eq_ok hfits htokens
  exact ⟨idx, tokenRow, isRow, reqPromptEmbeds, blockTable, hidx, hmap, hrows, (Except.ok.inj h).symm⟩

variable {builder : BatchUpdateBuilder} {tokenRow : ℕ → TokenId} {isRow : ℕ → Bool}
  {reqPromptEmbeds : OrderedDict ℕ (List Bytes)} {blockTable : List BlockTable}

lemma row_entered_self (hspec : (setOrAppend (idx = b.reqIds.length) b.specTokenIds idx [])[idx]? = some [])
    (hgenerator : b.generators.lookup idx = none) (hbadWords : b.badWordsTokenIds.lookup idx = none)
    (hmap : ((range request.numTokens).map fun j =>
      if isRow j then some (tokenRow j) else none) = request.tokens)
    (hblocks : blockTable.map (·.row idx) = zipWith mapToKernelBlocks
      (b.blockTable.map (·.blocksPerKvBlock)) request.blockIds) :
    (entered config b builder request idx tokenRow isRow reqPromptEmbeds blockTable).row idx =
      request.row config (b.blockTable.map (·.blocksPerKvBlock)) {} := by
  have hwords : (if request.samplingParams.badWordsTokenIds.isEmpty then b.badWordsTokenIds
      else dictSet b.badWordsTokenIds idx request.samplingParams.badWordsTokenIds).lookup idx =
        if request.samplingParams.badWordsTokenIds.isEmpty then none
        else some request.samplingParams.badWordsTokenIds := by
    split
    · exact hbadWords
    · rw [lookup_dictSet, if_pos rfl]
  simp only [row, tokens, CachedRequestState.row, entered, enterLora, enterSampling, enterId,
    update_self, hmap, hblocks, hspec, BatchRow.mk.injEq, true_and]
  refine ⟨?_, hwords⟩
  cases request.generator with
  | some generator => exact (lookup_dictSet ..).trans (if_pos rfl)
  | none => exact hgenerator

lemma lookup_entered_of_ne (hi : i ≠ idx) :
    (entered config b builder request idx tokenRow isRow reqPromptEmbeds blockTable).generators.lookup i =
        b.generators.lookup i ∧
      (entered config b builder request idx tokenRow isRow reqPromptEmbeds
        blockTable).badWordsTokenIds.lookup i = b.badWordsTokenIds.lookup i := by
  constructor
  · simp only [entered, enterLora, enterSampling, enterId]
    cases request.generator with
    | some generator => exact (lookup_dictSet ..).trans (if_neg hi)
    | none => rfl
  · change (if request.samplingParams.badWordsTokenIds.isEmpty then b.badWordsTokenIds
      else dictSet b.badWordsTokenIds idx request.samplingParams.badWordsTokenIds).lookup i = _
    split
    · rfl
    · rw [lookup_dictSet, if_neg hi]

lemma row_entered_of_ne (hi : i ≠ idx)
    (hspec : (setOrAppend (idx = b.reqIds.length) b.specTokenIds idx [])[i]? = b.specTokenIds[i]?)
    (hblocks : blockTable.map (·.row i) = b.blockTable.map (·.row i)) :
    (entered config b builder request idx tokenRow isRow reqPromptEmbeds blockTable).row i = b.row i := by
  have hlookups : (entered config b builder request idx tokenRow isRow reqPromptEmbeds
      blockTable).generators.lookup i = b.generators.lookup i ∧ _ := lookup_entered_of_ne hi
  simp only [row, hlookups]
  simp only [tokens, entered, enterLora, enterSampling, enterId, update_of_ne hi, hblocks, hspec]

/-! ## Draft tokens -/

lemma updateReqSpecTokenIds_eq_ok {spec : List TokenId} (hid : b.reqIdToIndex.lookup id = some idx)
    (hidx : idx < b.specTokenIds.length) (h : b.updateReqSpecTokenIds config id spec = .ok b') :
    ∃ tokenIdsCpu, b' = { b with
        tokenIdsCpu
        specTokenIds := b.specTokenIds.set idx spec } ∧
      b'.row idx = { b.row idx with specTokenIds := some spec } ∧
      ∀ i, i ≠ idx → b'.row i = b.row i := by
  unfold updateReqSpecTokenIds at h
  rw [hid] at h
  dsimp only at h
  split at h
  · rename_i hempty
    obtain rfl := isEmpty_iff.mp hempty
    cases h
    refine ⟨b.tokenIdsCpu, rfl, ?_, fun i hi => ?_⟩
    · simp [row, tokens, hidx]
    · simp [row, tokens, getElem?_set_ne (Ne.symm hi)]
  · obtain ⟨tokenRow, hrow, rfl⟩ := map_eq_ok h
    have hbelow : ∀ j, j < b.numTokensNoSpec idx → tokenRow j = b.tokenIdsCpu idx j := by
      intro j hj
      unfold assignSlice at hrow
      split at hrow
      · rw [← Except.ok.inj hrow, setSlice_of_lt hj]
      · split at hrow
        · rw [← Except.ok.inj hrow]
        · cases hrow
    refine ⟨_, by rw [set_set], ?_, fun i hi => ?_⟩
    · have htokens : ∀ j ∈ range (b.numTokensNoSpec idx),
          (if b.isTokenIds idx j then some (tokenRow j) else none) =
            if b.isTokenIds idx j then some (b.tokenIdsCpu idx j) else none := by
        intro j hj
        rw [hbelow j (mem_range.mp hj)]
      simp [row, tokens, hidx, map_congr_left htokens]
    · simp [row, tokens, getElem?_set_ne (Ne.symm hi), update_of_ne hi]

/-! ## Removing a request -/

/-- A request leaves the set of one adapter, and a set that gets empty is dropped. -/
structure LoraLeft (loraIds loraIds' : OrderedDict ℕ (Finset String)) (loraId : ℕ) (id : String) :
    Prop where
  mem : ∀ l x, x ∈ (loraIds'.lookup l).getD ∅ ↔ x ∈ (loraIds.lookup l).getD ∅ ∧ ¬(l = loraId ∧ x = id)
  nonempty : (∀ l, loraIds.lookup l ≠ some ∅) → ∀ l, loraIds'.lookup l ≠ some ∅

lemma leaveLora_eq_ok (h : b.leaveLora id idx = .ok b') :
    ∃ mapping loraIds loraRequests, b' = { b with
        requestLoraMapping := mapping
        loraIdToRequestIds := loraIds
        loraIdToLoraRequest := loraRequests } ∧
      (∀ i, i ≠ idx → mapping i = b.requestLoraMapping i) ∧
      (b.requestLoraMapping idx = 0 ∧ loraIds = b.loraIdToRequestIds ∨
        LoraLeft b.loraIdToRequestIds loraIds (b.requestLoraMapping idx) id) := by
  unfold leaveLora at h
  dsimp only at h
  split at h
  · rename_i hzero
    cases h
    exact ⟨_, _, _, rfl, fun _ _ => rfl, .inl ⟨hzero, rfl⟩⟩
  · split at h
    · cases h
    · rename_i loraReqIds hlookup
      split at h
      · rename_i hempty
        cases h
        refine ⟨_, _, _, rfl, fun i hi => update_of_ne hi _ _, .inr ⟨fun l x => ?_, fun hne l => ?_⟩⟩
        · rw [lookup_dictPop]
          by_cases hl : l = b.requestLoraMapping idx
          · subst hl
            have hx : x ∈ loraReqIds → x = id := by
              intro hx
              by_contra hne
              have := Finset.mem_erase.mpr ⟨hne, hx⟩
              rw [hempty] at this
              simp at this
            simp only [if_pos, hlookup, Option.getD_some, Option.getD_none, Finset.notMem_empty, true_and,
              false_iff]
            tauto
          · simp [hl]
        · rw [lookup_dictPop]
          split
          · simp
          · exact hne l
      · rename_i hnonempty
        cases h
        refine ⟨_, _, _, rfl, fun i hi => update_of_ne hi _ _, .inr ⟨fun l x => ?_, fun hne l => ?_⟩⟩
        · rw [lookup_dictSet]
          by_cases hl : l = b.requestLoraMapping idx
          · subst hl
            simp [hlookup, and_comm]
          · simp [hl]
        · rw [lookup_dictSet]
          split
          · exact fun heq => hnonempty (Option.some.inj heq)
          · exact hne l

/-- The batch after `remove_request`, for the tables of the adapters. -/
def left (b : InputBatch γ) (id : String) (idx : ℕ) (mapping : ℕ → ℕ)
    (loraIds : OrderedDict ℕ (Finset String)) (loraRequests : OrderedDict ℕ LoRARequest) : InputBatch γ :=
  leaveSampling { b with
    reqIdToIndex := dictPop b.reqIdToIndex id
    batchUpdateBuilder := { b.batchUpdateBuilder with
      removed := b.batchUpdateBuilder.removed ++ [idx]
      batchChanged := true }
    reqIds := b.reqIds.set idx none
    reqOutputTokenIds := b.reqOutputTokenIds.set idx none
    specTokenIds := b.specTokenIds.set idx []
    requestLoraMapping := mapping
    loraIdToRequestIds := loraIds
    loraIdToLoraRequest := loraRequests } id idx

lemma removeRequest_eq_ok (hid : b.reqIdToIndex.lookup id = some idx) (h : b.removeRequest id = .ok b') :
    ∃ mapping loraIds loraRequests, b' = b.left id idx mapping loraIds loraRequests ∧
      b.batchUpdateBuilder.isRemovedSorted = false ∧
      (∀ i, i ≠ idx → mapping i = b.requestLoraMapping i) ∧
      (b.requestLoraMapping idx = 0 ∧ loraIds = b.loraIdToRequestIds ∨
        LoraLeft b.loraIdToRequestIds loraIds (b.requestLoraMapping idx) id) := by
  unfold removeRequest at h
  rw [hid] at h
  dsimp only at h
  obtain ⟨builder, hbuilder, h⟩ := bind_eq_ok h
  obtain ⟨b₁, hlora, h⟩ := bind_eq_ok h
  obtain ⟨mapping, loraIds, loraRequests, rfl, hmapping, hleft⟩ := leaveLora_eq_ok hlora
  unfold BatchUpdateBuilder.removedAppend at hbuilder
  split at hbuilder
  · cases hbuilder
  · rename_i hflag
    cases hbuilder
    exact ⟨mapping, loraIds, loraRequests, (Except.ok.inj h).symm, by simpa using hflag, hmapping, hleft⟩

lemma row_left_of_ne {mapping : ℕ → ℕ} {loraIds : OrderedDict ℕ (Finset String)}
    {loraRequests : OrderedDict ℕ LoRARequest} (hi : i ≠ idx) (hmapping : mapping i = b.requestLoraMapping i) :
    (b.left id idx mapping loraIds loraRequests).row i = b.row i := by
  simp only [row, tokens, left, leaveSampling, getElem?_set_ne (Ne.symm hi), hmapping, lookup_dictPop,
    if_neg hi]
  rfl

/-! ## Swapping two requests -/

/-- The ids, the sizes of the tables and the features after a move are those before it. -/
structure SameRequests (b b' : InputBatch γ) : Prop where
  greedy : b'.greedyReqs = b.greedyReqs
  random : b'.randomReqs = b.randomReqs
  topP : b'.topPReqs = b.topPReqs
  topK : b'.topKReqs = b.topKReqs
  frequencyPenalties : b'.frequencyPenaltiesReqs = b.frequencyPenaltiesReqs
  presencePenalties : b'.presencePenaltiesReqs = b.presencePenaltiesReqs
  repetitionPenalties : b'.repetitionPenaltiesReqs = b.repetitionPenaltiesReqs
  allowedTokenIds : b'.hasAllowedTokenIds = b.hasAllowedTokenIds
  numLogprobs : b'.numLogprobs = b.numLogprobs
  lora : b'.loraIdToRequestIds = b.loraIdToRequestIds
  blocksPerKvBlock : b'.blockTable.map (·.blocksPerKvBlock) = b.blockTable.map (·.blocksPerKvBlock)
  maxNumBlocksPerReq : b'.blockTable.map (·.maxNumBlocksPerReq) = b.blockTable.map (·.maxNumBlocksPerReq)
  spec_length : b'.specTokenIds.length = b.specTokenIds.length

lemma swapStates_eq_ok {i1 i2 : ℕ} (hinverse : Inverse b.reqIds b.reqIdToIndex)
    (hspec : b.reqIds.length ≤ b.specTokenIds.length) (h : b.swapStates i1 i2 = .ok b') :
    ∃ id1 id2, b.reqIds[i1]? = some (some id1) ∧ b.reqIds[i2]? = some (some id2) ∧
      b'.reqIds = swapItems b.reqIds i1 i2 ∧
      b'.reqIdToIndex = dictSet (dictSet b.reqIdToIndex id1 i2) id2 i1 ∧
      b'.batchUpdateBuilder = { b.batchUpdateBuilder with
        moved := b.batchUpdateBuilder.moved ++ [(i1, i2, .swap)] } ∧
      SameRequests b b' ∧ ∀ i, b'.row i = b.row (Equiv.swap i1 i2 i) := by
  unfold swapStates at h
  split at h
  · rename_i id1 id2 h1 h2
    rw [(hinverse.lookup id1 i1).mpr h1, (hinverse.lookup id2 i2).mpr h2] at h
    cases h
    have hlt1 := lt_of_lt_of_le (lt_of_getElem? h1) hspec
    have hlt2 := lt_of_lt_of_le (lt_of_getElem? h2) hspec
    refine ⟨id1, id2, h1, h2, rfl, rfl, rfl, ?_, fun i => ?_⟩
    · constructor <;> first | rfl | simp [BlockTable.swapRow, comp_def]
    · simp [row, tokens, swapEntries_apply, lookup_swapDictValues, getElem?_swapItems hlt1 hlt2,
        BlockTable.row_swapRow, comp_def]
  · cases h
  · cases h

/-! ## Moving a request down -/

lemma moveDown_eq_ok {last empty : ℕ} (hlast : b.reqIds[last]? = some (some id)) (hne : last ≠ empty)
    (hlastSpec : last < b.specTokenIds.length) (hemptySpec : empty < b.specTokenIds.length)
    (hgenerator : b.generators.lookup empty = none) (hbadWords : b.badWordsTokenIds.lookup empty = none)
    (h : b.moveDown last empty = .ok b') :
    b'.reqIds = (b.reqIds.set empty (some id)).set last none ∧
      b'.reqIdToIndex = dictSet b.reqIdToIndex id empty ∧
      b'.batchUpdateBuilder = { b.batchUpdateBuilder with
        moved := b.batchUpdateBuilder.moved ++ [(last, empty, .unidirectional)] } ∧
      SameRequests b b' ∧ b'.row empty = b.row last ∧
      (b'.generators.lookup last = none ∧ b'.badWordsTokenIds.lookup last = none) ∧
      ∀ i, i ≠ last → i ≠ empty → b'.row i = b.row i := by
  unfold moveDown at h
  rw [hlast] at h
  cases h
  refine ⟨rfl, rfl, rfl, ?_, ?_, ?_, ?_⟩
  · constructor <;> first | rfl | simp [BlockTable.moveRow, comp_def]
  · have htokens : (range (b.numTokensNoSpec last)).map (fun j =>
        if copySlice b.isTokenIds last empty
            (b.numTokensNoSpec last + ((b.specTokenIds[last]?).getD []).length) empty j then
          some (copySlice b.tokenIdsCpu last empty
            (b.numTokensNoSpec last + ((b.specTokenIds[last]?).getD []).length) empty j)
        else none) = b.tokens last := by
      refine map_congr_left fun j hj => ?_
      have hlt : j < b.numTokensNoSpec last + ((b.specTokenIds[last]?).getD []).length :=
        Nat.lt_add_right _ (mem_range.mp hj)
      simp only [copySlice, update_self, if_pos hlt]
    simp only [row, tokens, BlockTable.row_moveRow_self, map_map, comp_def,
      lookup_moveDictValue hgenerator, lookup_moveDictValue hbadWords, getElem?_set_ne hne,
      getElem?_swapItems hlastSpec hemptySpec, update_self, Equiv.swap_apply_right, if_pos,
      BatchRow.mk.injEq, and_true]
    exact htokens
  · simp only [lookup_moveDictValue hgenerator, lookup_moveDictValue hbadWords, if_neg hne, if_pos, and_self]
  · intro i hil hie
    simp only [row, tokens, update_of_ne hie, copySlice, BlockTable.row_moveRow_of_ne _ _ hie,
      map_map, comp_def, lookup_moveDictValue hgenerator, lookup_moveDictValue hbadWords,
      if_neg hie, if_neg hil, getElem?_set_ne (Ne.symm hil),
      getElem?_swapItems hlastSpec hemptySpec, Equiv.swap_apply_of_ne_of_ne hil hie]

end InputBatch

end VllmRuntime
