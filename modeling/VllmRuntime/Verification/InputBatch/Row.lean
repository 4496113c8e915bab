import VllmRuntime.Model.InputBatch

/-! # Rows of the batch

What the arrays of the batch hold at an index is one record. Each operation on the batch moves whole
records: this is said once for each operation, and the rest of the proof does not look at the arrays. -/

namespace VllmRuntime

open List Function

variable {γ : Type}

/-! ## Slices -/

section Slices

variable {α : Type} {row : ℕ → α} {start : ℕ} {values : List α} {j stop : ℕ} {value : α}

lemma setSlice_of_lt (h : j < start) : setSlice row start values j = row j := by
  rw [setSlice, if_neg (by omega)]

lemma setSlice_of_mem (h : j < values.length) :
    setSlice row start values (start + j) = values.get ⟨j, h⟩ := by
  rw [setSlice, if_pos (Nat.le_add_right _ _), Nat.add_sub_cancel_left, getElem?_eq_getElem h]
  rfl

lemma fillSlice_of_mem (hstart : start ≤ j) (hstop : j < stop) :
    fillSlice row start stop value j = value :=
  if_pos ⟨hstart, hstop⟩

lemma fillSlice_of_lt (h : j < start) :
    fillSlice row start stop value j = row j :=
  if_neg fun hmem => absurd hmem.1 (by omega)

lemma assignSlice_of_le {width : ℕ} (h : start + values.length ≤ width) :
    assignSlice width row start values = .ok (setSlice row start values) := by
  rw [assignSlice, if_pos (by omega)]

/-- The entries of a slice that is assigned. -/
lemma map_setSlice (row : ℕ → α) (start : ℕ) (values : List α) :
    (range values.length).map (fun j => setSlice row start values (start + j)) = values := by
  refine ext_getElem (by simp) fun j hj hj' => ?_
  rw [getElem_map, getElem_range, setSlice_of_mem hj']
  rfl

lemma swapEntries_apply (array : ℕ → α) (i1 i2 i : ℕ) :
    swapEntries array i1 i2 i = array (Equiv.swap i1 i2 i) := by
  unfold swapEntries
  by_cases h2 : i = i2
  · subst h2
    rw [update_self, Equiv.swap_apply_right]
  · rw [update_of_ne h2]
    by_cases h1 : i = i1
    · subst h1
      rw [update_self, Equiv.swap_apply_left]
    · rw [update_of_ne h1, Equiv.swap_apply_of_ne_of_ne h1 h2]

end Slices

/-! ## Block tables -/

namespace BlockTable

variable {table table' : BlockTable} {i idx : ℕ} {blockIds : List ℕ}

/-- The blocks of a row. -/
def row (table : BlockTable) (i : ℕ) : List ℕ :=
  (List.range (table.numBlocksPerRow i)).map (table.blockTable i)

/-- A row that is added has the blocks; the other rows stay. -/
lemma addRow_eq_ok (hfits : (mapToKernelBlocks table.blocksPerKvBlock blockIds).length ≤
      table.maxNumBlocksPerReq) (h : table.addRow blockIds idx = .ok table') :
    table'.row idx = mapToKernelBlocks table.blocksPerKvBlock blockIds ∧
      (∀ i, i ≠ idx → table'.row i = table.row i) ∧
      table'.blocksPerKvBlock = table.blocksPerKvBlock ∧
      table'.maxNumBlocksPerReq = table.maxNumBlocksPerReq := by
  unfold addRow appendRow at h
  dsimp only at h
  split at h
  · rename_i hempty
    cases h
    have hnil : blockIds = [] := by simpa using hempty
    refine ⟨?_, fun i hi => ?_, rfl, rfl⟩
    · simp [row, hnil, mapToKernelBlocks]
    · simp [row, update_of_ne hi]
  · rw [update_self, assignSlice_of_le (by omega)] at h
    cases h
    refine ⟨?_, fun i hi => ?_, rfl, rfl⟩
    · have hentries := map_setSlice (table.blockTable idx) 0
        (mapToKernelBlocks table.blocksPerKvBlock blockIds)
      simp only [Nat.zero_add] at hentries
      simp only [row, update_self, Nat.zero_add]
      exact hentries
    · simp [row, update_of_ne hi]

lemma row_moveRow_self (table : BlockTable) (src tgt : ℕ) :
    (table.moveRow src tgt).row tgt = table.row src := by
  simp only [row, moveRow, copySlice, update_self]
  refine map_congr_left fun j hj => ?_
  rw [if_pos (mem_range.mp hj)]

lemma row_moveRow_of_ne (table : BlockTable) (src : ℕ) {tgt : ℕ} (h : i ≠ tgt) :
    (table.moveRow src tgt).row i = table.row i := by
  simp [row, moveRow, copySlice, update_of_ne h]

lemma row_swapRow (table : BlockTable) (i1 i2 i : ℕ) :
    (table.swapRow i1 i2).row i = table.row (Equiv.swap i1 i2 i) := by
  simp [row, swapRow, swapEntries_apply]

/-- The block ids fit in the rows of the tables. -/
def Fits (tables : List BlockTable) (blockIds : List (List ℕ)) : Prop :=
  ∀ pair ∈ tables.zip blockIds,
    (mapToKernelBlocks pair.1.blocksPerKvBlock pair.2).length ≤ pair.1.maxNumBlocksPerReq

lemma addRows_eq_ok {tables tables' : List BlockTable} {blockIds : List (List ℕ)}
    (hfits : Fits tables blockIds) (h : addRows tables blockIds idx = .ok tables') :
    tables'.map (·.row idx) = zipWith mapToKernelBlocks (tables.map (·.blocksPerKvBlock)) blockIds ∧
      (∀ i, i ≠ idx → tables'.map (·.row i) = tables.map (·.row i)) ∧
      tables'.map (·.blocksPerKvBlock) = tables.map (·.blocksPerKvBlock) ∧
      tables'.map (·.maxNumBlocksPerReq) = tables.map (·.maxNumBlocksPerReq) := by
  induction tables generalizing blockIds tables' with
  | nil =>
    cases h
    exact ⟨by simp, fun _ _ => rfl, rfl, rfl⟩
  | cons table tables ih =>
    cases blockIds with
    | nil => cases h
    | cons ids blockIds =>
      rw [addRows] at h
      obtain ⟨table', hrow, h⟩ := bind_eq_ok h
      obtain ⟨rest, hrows, rfl⟩ := map_eq_ok h
      have hfits' : ∀ pair ∈ (table, ids) :: tables.zip blockIds, _ := hfits
      rw [forall_mem_cons] at hfits'
      obtain ⟨hself, hother, hper, hwidth⟩ := addRow_eq_ok hfits'.1 hrow
      obtain ⟨hselfs, hothers, hpers, hwidths⟩ := ih hfits'.2 hrows
      refine ⟨?_, fun i hi => ?_, ?_, ?_⟩
      · simp [hself, hselfs]
      · simp [hother i hi, hothers i hi]
      · simp [hper, hpers]
      · simp [hwidth, hwidths]

end BlockTable

/-! ## Dictionaries and lists by index -/

namespace InputBatch

section Entries

variable {α : Type} {xs : List α} {idx i : ℕ}

lemma lookup_swapDictValues (d : OrderedDict ℕ α) (i1 i2 i : ℕ) :
    (swapDictValues d i1 i2).lookup i = d.lookup (Equiv.swap i1 i2 i) := by
  have hswap : (swapDictValues d i1 i2).lookup i =
      if i = i1 then d.lookup i2 else if i = i2 then d.lookup i1 else d.lookup i := by
    unfold swapDictValues
    cases h1 : d.lookup i1 <;> cases h2 : d.lookup i2 <;> simp only [lookup_dictSet, lookup_dictPop]
  rw [hswap]
  by_cases h1 : i = i1
  · rw [if_pos h1, h1, Equiv.swap_apply_left]
  · rw [if_neg h1]
    by_cases h2 : i = i2
    · rw [if_pos h2, h2, Equiv.swap_apply_right]
    · rw [if_neg h2, Equiv.swap_apply_of_ne_of_ne h1 h2]

lemma getElem?_swapItems {i1 i2 : ℕ} (h1 : i1 < xs.length) (h2 : i2 < xs.length) (i : ℕ) :
    (swapItems xs i1 i2)[i]? = xs[Equiv.swap i1 i2 i]? := by
  unfold swapItems
  rw [getElem?_eq_getElem h1, getElem?_eq_getElem h2]
  dsimp only
  by_cases hi2 : i2 = i
  · subst hi2
    rw [getElem?_set_self (by simpa using h2), Equiv.swap_apply_right,
      getElem?_eq_getElem h1]
  · rw [getElem?_set_ne hi2]
    by_cases hi1 : i1 = i
    · subst hi1
      rw [getElem?_set_self h1, Equiv.swap_apply_left, getElem?_eq_getElem h2]
    · rw [getElem?_set_ne hi1, Equiv.swap_apply_of_ne_of_ne (Ne.symm hi1) (Ne.symm hi2)]

@[simp] lemma length_swapItems (xs : List α) (i1 i2 : ℕ) : (swapItems xs i1 i2).length = xs.length := by
  unfold swapItems
  split <;> simp

lemma getElem?_setOrAppend_self (h : idx ≤ xs.length) (x : α) :
    (setOrAppend (idx = xs.length) xs idx x)[idx]? = some x := by
  unfold setOrAppend
  by_cases heq : idx = xs.length
  · simp [heq]
  · simp [heq, lt_of_le_of_ne h heq]

lemma getElem?_setOrAppend_of_lt (append : Bool) (hi : i ≠ idx) (hlt : i < xs.length) (x : α) :
    (setOrAppend append xs idx x)[i]? = xs[i]? := by
  unfold setOrAppend
  split
  · exact getElem?_append_left hlt
  · exact getElem?_set_ne (Ne.symm hi)

lemma getElem?_setOrAppend_of_ne (hi : i ≠ idx) (x : α) :
    (setOrAppend (idx = xs.length) xs idx x)[i]? = xs[i]? := by
  unfold setOrAppend
  by_cases heq : idx = xs.length
  · simp only [heq, decide_true, if_true, getElem?_append]
    split
    · rfl
    · rw [getElem?_eq_none (by simp; omega), getElem?_eq_none (by omega)]
  · simp [heq, getElem?_set_ne (Ne.symm hi)]

lemma length_setOrAppend (append : Bool) (xs : List α) (idx : ℕ) (x : α) :
    (setOrAppend append xs idx x).length = xs.length + append.toNat := by
  unfold setOrAppend
  cases append <;> simp

/-- A value moves to an index that has none. -/
lemma lookup_moveDictValue {d : OrderedDict ℕ α} {src tgt : ℕ}
    (htgt : d.lookup tgt = none) (i : ℕ) : (moveDictValue d src tgt).lookup i =
      if i = tgt then d.lookup src else if i = src then none else d.lookup i := by
  unfold moveDictValue
  cases hsrc : d.lookup src with
  | none =>
    dsimp only
    by_cases hi : i = tgt
    · rw [if_pos hi, hi, htgt]
    · rw [if_neg hi]
      by_cases hi' : i = src
      · rw [if_pos hi', hi', hsrc]
      · rw [if_neg hi']
  | some value =>
    dsimp only
    rw [lookup_dictSet, lookup_dictPop]

end Entries

end InputBatch

/-! ## The record at an index -/

/-- What the steps write for a request after it was added: its draft tokens, and how many of the tokens of the
last step were accepted. -/
structure RowUpdates where
  specTokenIds : List TokenId := []
  numAcceptedTokens : ℕ := 1

/-- What the batch holds for one request. A token is missing if it was given by an embedding. -/
structure BatchRow (γ : Type) where
  tokens : List (Option TokenId)
  numPromptTokens : ℕ
  numComputedTokens : ℕ
  specTokenIds : Option (List TokenId)
  blocks : List (List ℕ)
  loraId : ℕ
  temperature : ℚ
  topP : ℚ
  topK : ℤ
  frequencyPenalty : ℚ
  presencePenalty : ℚ
  repetitionPenalty : ℚ
  numAcceptedTokens : ℕ
  generator : Option γ
  badWords : Option (List (List ℕ))

namespace InputBatch

variable {config : InputBatchConfig} {b b' : InputBatch γ} {request : CachedRequestState γ} {i idx : ℕ}

/-- `token_ids_cpu[i, :num_tokens_no_spec[i]]`, where `is_token_ids` is true. -/
def tokens (b : InputBatch γ) (i : ℕ) : List (Option TokenId) :=
  (List.range (b.numTokensNoSpec i)).map fun j =>
    if b.isTokenIds i j then some (b.tokenIdsCpu i j) else none

def row (b : InputBatch γ) (i : ℕ) : BatchRow γ where
  tokens := b.tokens i
  numPromptTokens := b.numPromptTokens i
  numComputedTokens := b.numComputedTokensCpu i
  specTokenIds := b.specTokenIds[i]?
  blocks := b.blockTable.map (·.row i)
  loraId := b.requestLoraMapping i
  temperature := b.temperatureCpu i
  topP := b.topPCpu i
  topK := b.topKCpu i
  frequencyPenalty := b.frequencyPenaltiesCpu i
  presencePenalty := b.presencePenaltiesCpu i
  repetitionPenalty := b.repetitionPenaltiesCpu i
  numAcceptedTokens := b.numAcceptedTokensCpu i
  generator := b.generators.lookup i
  badWords := b.badWordsTokenIds.lookup i

end InputBatch

/-- The tokens of a request: those of the prompt, if it has ids, and those of the output. -/
def CachedRequestState.tokens (request : CachedRequestState γ) : List (Option TokenId) :=
  (match request.promptTokenIds with
    | some promptTokenIds => promptTokenIds.map some
    | none => List.replicate request.numPromptTokens none) ++ request.outputTokenIds.map some

/-- What the batch is to hold for a request for which this was written. -/
def CachedRequestState.row (config : InputBatchConfig) (blocksPerKvBlock : List ℕ)
    (request : CachedRequestState γ) (updates : RowUpdates) : BatchRow γ where
  tokens := request.tokens
  numPromptTokens := request.numPromptTokens
  numComputedTokens := request.numComputedTokens
  specTokenIds := some updates.specTokenIds
  blocks := List.zipWith mapToKernelBlocks blocksPerKvBlock request.blockIds
  loraId := (request.loraRequest.map (·.loraIntId)).getD 0
  temperature :=
    if request.samplingParams.samplingType = .greedy then 0
    else config.float32 request.samplingParams.temperature
  topP := config.float32 request.samplingParams.topP
  topK := InputBatch.storedTopK config request.samplingParams
  frequencyPenalty := config.float32 request.samplingParams.frequencyPenalty
  presencePenalty := config.float32 request.samplingParams.presencePenalty
  repetitionPenalty := config.float32 request.samplingParams.repetitionPenalty
  numAcceptedTokens := updates.numAcceptedTokens
  generator := request.generator
  badWords :=
    if request.samplingParams.badWordsTokenIds.isEmpty then none
    else some request.samplingParams.badWordsTokenIds

lemma CachedRequestState.length_promptTokenIds {request : CachedRequestState γ}
    {promptTokenIds : List TokenId} (h : request.promptTokenIds = some promptTokenIds) :
    promptTokenIds.length = request.numPromptTokens := by
  have heq := request.numPromptTokens_eq
  rw [h] at heq
  cases hembeds : request.promptEmbeds with
  | none =>
    rw [hembeds] at heq
    exact Except.ok.inj heq
  | some promptEmbeds =>
    rw [hembeds, lengthFromPromptTokenIdsOrEmbeds] at heq
    split at heq
    · cases heq
    · exact Except.ok.inj heq

/-- The request fits in the arrays, as its callers ensure. -/
structure CachedRequestState.Fits (config : InputBatchConfig) (tables : List BlockTable)
    (request : CachedRequestState γ) : Prop where
  tokens : request.numTokens ≤ config.maxModelLen
  blocks : BlockTable.Fits tables request.blockIds

namespace InputBatch

variable {config : InputBatchConfig} {b b' : InputBatch γ} {request : CachedRequestState γ} {i idx : ℕ}

/-- The tokens of the prompt and of the output, one after the other. -/
lemma map_entered_tokens (request : CachedRequestState γ) (row : ℕ → TokenId) (isRow : ℕ → Bool)
    (hrow : ∀ promptTokenIds, request.promptTokenIds = some promptTokenIds →
      ∀ j (hj : j < promptTokenIds.length), row j = promptTokenIds.get ⟨j, hj⟩)
    (hisRow : ∀ j, j < request.numPromptTokens → isRow j = request.promptTokenIds.isSome) :
    ((range request.numTokens).map fun j =>
      if fillSlice isRow request.numPromptTokens
        (request.numPromptTokens + request.outputTokenIds.length) true j then
        some (setSlice row request.numPromptTokens request.outputTokenIds j) else none) =
          request.tokens := by
  rw [CachedRequestState.numTokens, range_add, map_append, CachedRequestState.tokens]
  congr 1
  · have hprompt : ∀ j ∈ range request.numPromptTokens,
        (if fillSlice isRow request.numPromptTokens
          (request.numPromptTokens + request.outputTokenIds.length) true j then
          some (setSlice row request.numPromptTokens request.outputTokenIds j) else none) =
        if request.promptTokenIds.isSome then some (row j) else none := by
      intro j hj
      have hj := mem_range.mp hj
      rw [fillSlice_of_lt hj, hisRow j hj, setSlice_of_lt hj]
    rw [map_congr_left hprompt]
    cases hids : request.promptTokenIds with
    | none => simp
    | some promptTokenIds =>
      have hlength := CachedRequestState.length_promptTokenIds hids
      refine ext_getElem (by simp [hlength]) fun j hj hj' => ?_
      simp only [length_map] at hj'
      simp [hrow promptTokenIds hids j hj']
  · rw [map_map]
    have houtput : ∀ j ∈ range request.outputTokenIds.length,
        ((fun j => if fillSlice isRow request.numPromptTokens
          (request.numPromptTokens + request.outputTokenIds.length) true j then
          some (setSlice row request.numPromptTokens request.outputTokenIds j) else none) ∘
            (request.numPromptTokens + ·)) j =
        some (setSlice row request.numPromptTokens request.outputTokenIds
          (request.numPromptTokens + j)) := by
      intro j hj
      have hj := mem_range.mp hj
      simp only [comp]
      rw [fillSlice_of_mem (Nat.le_add_right _ _) (by omega), if_pos rfl]
    have hentries := congrArg (List.map some)
      (map_setSlice row request.numPromptTokens request.outputTokenIds)
    rw [map_map] at hentries
    rw [map_congr_left houtput]
    exact hentries

/-- What `add_request` leaves of the tokens. -/
lemma enterTokens_eq_ok (hfits : request.numTokens ≤ config.maxModelLen)
    (h : b.enterTokens config request idx = .ok b') :
    ∃ tokenRow isRow reqPromptEmbeds, b' = { b with
      numPromptTokens := update b.numPromptTokens idx request.numPromptTokens
      tokenIdsCpu := update b.tokenIdsCpu idx tokenRow
      isTokenIds := update b.isTokenIds idx isRow
      reqPromptEmbeds
      numTokensNoSpec := update b.numTokensNoSpec idx request.numTokens
      numComputedTokensCpu :=
        update b.numComputedTokensCpu idx request.numComputedTokens } ∧
      ((range request.numTokens).map fun j =>
        if isRow j then some (tokenRow j) else none) = request.tokens := by
  unfold enterTokens at h
  obtain ⟨numPromptTokens, hnum, h⟩ := bind_eq_ok h
  rw [request.numPromptTokens_eq] at hnum
  cases hnum
  obtain ⟨promptRow, hprompt, h⟩ := bind_eq_ok h
  obtain ⟨tokenRow, htokens, rfl⟩ := map_eq_ok h
  rw [CachedRequestState.numTokens] at hfits
  rw [assignSlice_of_le (by omega)] at htokens
  cases htokens
  refine ⟨_, _, _, rfl, map_entered_tokens request promptRow _ ?_ ?_⟩
  · intro promptTokenIds hids j hj
    rw [hids] at hprompt
    have hlength := CachedRequestState.length_promptTokenIds hids
    rw [enterPrompt, assignSlice_of_le (by omega)] at hprompt
    cases hprompt
    have hentry : setSlice (b.tokenIdsCpu idx) 0 promptTokenIds (0 + j) = promptTokenIds.get ⟨j, hj⟩ :=
      setSlice_of_mem hj
    rwa [Nat.zero_add] at hentry
  · intro j hj
    exact fillSlice_of_mem (Nat.zero_le _) hj

end InputBatch

end VllmRuntime
