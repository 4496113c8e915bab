import VllmRuntime.Verification.InputBatch.Moves

/-! # Which requests have a feature

The batch keeps the ids of the requests that use a sampling feature or an adapter. They change when a
request is added or removed and do not depend on the indices. -/

namespace VllmRuntime

open Function

variable {γ : Type}

/-- The requests of the batch, with what was written for them, by id. -/
abbrev BatchRequests (γ : Type) := String → Option (CachedRequestState γ × RowUpdates)

def BatchRequests.write (requests : BatchRequests γ) (f : String → RowUpdates → RowUpdates) : BatchRequests γ :=
  fun id => (requests id).map fun entry => (entry.1, f id entry.2)

def BatchRequests.draft (requests : BatchRequests γ) (id : String) (specTokenIds : List TokenId) : BatchRequests γ :=
  requests.write fun x updates => if x = id then { updates with specTokenIds } else updates

/-- The numbers are those of the requests at the indices 0, 1, ... -/
def BatchRequests.accept (requests : BatchRequests γ) (b : InputBatch γ) (numAcceptedTokens : List ℕ) :
    BatchRequests γ :=
  requests.write fun id updates => { updates with
    numAcceptedTokens := ((b.reqIdToIndex.lookup id).bind fun i => numAcceptedTokens[i]?).getD
      updates.numAcceptedTokens }

/-- The ids of a set are those of the requests with a property. -/
def Tracks (ids : Finset String) (requests : BatchRequests γ) (P : CachedRequestState γ → Prop) : Prop :=
  ∀ id, id ∈ ids ↔ ∃ request spec, requests id = some (request, spec) ∧ P request

section Tracks

variable {ids : Finset String} {requests : BatchRequests γ} {P : CachedRequestState γ → Prop}
  {request : CachedRequestState γ} {id : String} {spec : RowUpdates}

lemma Tracks.insertIf (h : Tracks ids requests P) (hnew : requests request.reqId = none) {c : Bool}
    (hc : c = true ↔ P request) :
    Tracks (InputBatch.insertIf ids c request.reqId)
      (update requests request.reqId (some (request, spec))) P := by
  intro x
  have hmem : x ∈ InputBatch.insertIf ids c request.reqId ↔ x = request.reqId ∧ P request ∨ x ∈ ids := by
    unfold InputBatch.insertIf
    split
    · rename_i h
      simp [hc.mp h]
    · rename_i h
      simp [mt hc.mpr h]
  rw [hmem]
  by_cases hx : x = request.reqId
  · subst hx
    rw [update_self, h]
    simp [hnew]
  · rw [update_of_ne hx, h]
    simp [hx]

lemma Tracks.erase (h : Tracks ids requests P) (id : String) :
    Tracks (ids.erase id) (update requests id none) P := by
  intro x
  rw [Finset.mem_erase]
  by_cases hx : x = id
  · subst hx
    simp
  · rw [update_of_ne hx, h]
    simp [hx]

/-- What is written does not matter. -/
lemma Tracks.write (h : Tracks ids requests P) (f : String → RowUpdates → RowUpdates) :
    Tracks ids (requests.write f) P := by
  intro id
  rw [h, BatchRequests.write]
  rcases requests id with _ | ⟨request, spec⟩ <;> simp

end Tracks

namespace InputBatch

variable {config : InputBatchConfig} {b b' : InputBatch γ} {requests : BatchRequests γ}
  {request : CachedRequestState γ}

/-- `num_logprobs` of a request. -/
def storedLogprobs (config : InputBatchConfig) (request : CachedRequestState γ) : Option ℤ :=
  request.samplingParams.logprobs.map fun logprobs => if logprobs = -1 then config.vocabSize else logprobs

/-- The sets of request ids and the sets of each adapter are exact. -/
structure Features (config : InputBatchConfig) (b : InputBatch γ) (requests : BatchRequests γ) : Prop where
  greedy : Tracks b.greedyReqs requests (·.samplingParams.samplingType = .greedy)
  random : Tracks b.randomReqs requests (·.samplingParams.samplingType ≠ .greedy)
  topP : Tracks b.topPReqs requests (·.samplingParams.topP < 1)
  topK : Tracks b.topKReqs requests fun request =>
    0 < request.samplingParams.topK ∧ request.samplingParams.topK < config.vocabSize
  frequencyPenalties : Tracks b.frequencyPenaltiesReqs requests (·.samplingParams.frequencyPenalty ≠ 0)
  presencePenalties : Tracks b.presencePenaltiesReqs requests (·.samplingParams.presencePenalty ≠ 0)
  repetitionPenalties : Tracks b.repetitionPenaltiesReqs requests (·.samplingParams.repetitionPenalty ≠ 1)
  allowedTokenIds : Tracks b.hasAllowedTokenIds requests (·.samplingParams.allowedTokenIds ≠ [])
  numLogprobs : ∀ id, b.numLogprobs.lookup id = (requests id).bind (storedLogprobs config ·.1)
  lora : ∀ loraId, Tracks ((b.loraIdToRequestIds.lookup loraId).getD ∅) requests
    (·.loraRequest.map (·.loraIntId) = some loraId)
  lora_nonempty : ∀ loraId, b.loraIdToRequestIds.lookup loraId ≠ some ∅

namespace Features

variable {id : String} {spec : RowUpdates} {idx : ℕ}

section

variable (h : Features config b requests)
include h

/-- The request ids do not depend on the indices. -/
lemma congr (hsame : SameRequests b b') :
    Features config b' requests := by
  constructor
  · exact hsame.greedy ▸ h.greedy
  · exact hsame.random ▸ h.random
  · exact hsame.topP ▸ h.topP
  · exact hsame.topK ▸ h.topK
  · exact hsame.frequencyPenalties ▸ h.frequencyPenalties
  · exact hsame.presencePenalties ▸ h.presencePenalties
  · exact hsame.repetitionPenalties ▸ h.repetitionPenalties
  · exact hsame.allowedTokenIds ▸ h.allowedTokenIds
  · exact hsame.numLogprobs ▸ h.numLogprobs
  · exact hsame.lora ▸ h.lora
  · exact hsame.lora ▸ h.lora_nonempty

lemma write (f : String → RowUpdates → RowUpdates) : Features config b (requests.write f) := by
  refine ⟨h.greedy.write f, h.random.write f, h.topP.write f, h.topK.write f,
    h.frequencyPenalties.write f, h.presencePenalties.write f, h.repetitionPenalties.write f,
    h.allowedTokenIds.write f, fun id => ?_, fun loraId => (h.lora loraId).write f, h.lora_nonempty⟩
  rw [h.numLogprobs, BatchRequests.write]
  cases requests id <;> rfl

lemma entered {builder : BatchUpdateBuilder} {tokenRow : ℕ → TokenId} {isRow : ℕ → Bool}
    {reqPromptEmbeds : OrderedDict ℕ (List Bytes)} {blockTable : List BlockTable}
    (hnew : requests request.reqId = none) :
    Features config (InputBatch.entered config b builder request idx tokenRow isRow reqPromptEmbeds blockTable)
      (update requests request.reqId (some (request, {}))) := by
  have hlogprobs : b.numLogprobs.lookup request.reqId = none := by
    rw [h.numLogprobs, hnew]
    rfl
  refine ⟨h.greedy.insertIf hnew (by simp), h.random.insertIf hnew (by simp),
    h.topP.insertIf hnew (by simp), h.topK.insertIf hnew (by simp),
    h.frequencyPenalties.insertIf hnew (by simp), h.presencePenalties.insertIf hnew (by simp),
    h.repetitionPenalties.insertIf hnew (by simp), h.allowedTokenIds.insertIf hnew (by simp),
    fun x => ?_, fun loraId => ?_, fun loraId => ?_⟩
  · simp only [InputBatch.entered, InputBatch.enterLora, InputBatch.enterSampling, InputBatch.enterId]
    by_cases hx : x = request.reqId
    · subst hx
      rw [update_self, Option.bind_some, storedLogprobs]
      cases request.samplingParams.logprobs with
      | none => exact hlogprobs
      | some logprobs => simp [lookup_dictSet]
    · rw [update_of_ne hx, ← h.numLogprobs]
      cases request.samplingParams.logprobs with
      | none => rfl
      | some logprobs => exact (lookup_dictSet ..).trans (if_neg hx)
  · have hinsert : Tracks (InputBatch.insertIf ((b.loraIdToRequestIds.lookup loraId).getD ∅)
        (decide (request.loraRequest.map (·.loraIntId) = some loraId)) request.reqId)
        (update requests request.reqId (some (request, {})))
        (·.loraRequest.map (·.loraIntId) = some loraId) :=
      (h.lora loraId).insertIf hnew decide_eq_true_iff
    have hset : ((InputBatch.entered config b builder request idx tokenRow isRow reqPromptEmbeds
        blockTable).loraIdToRequestIds.lookup loraId).getD ∅ =
          InputBatch.insertIf ((b.loraIdToRequestIds.lookup loraId).getD ∅)
            (decide (request.loraRequest.map (·.loraIntId) = some loraId)) request.reqId := by
      simp only [InputBatch.entered, InputBatch.enterLora, InputBatch.enterSampling, InputBatch.enterId]
      cases request.loraRequest with
      | none => simp [InputBatch.insertIf]
      | some lora =>
        dsimp only
        rw [lookup_dictSet]
        by_cases hid : loraId = lora.loraIntId
        · simp [InputBatch.insertIf, hid]
        · simp [InputBatch.insertIf, hid, Ne.symm hid]
    rwa [hset]
  · simp only [InputBatch.entered, InputBatch.enterLora, InputBatch.enterSampling, InputBatch.enterId]
    cases request.loraRequest with
    | none => exact h.lora_nonempty loraId
    | some lora =>
      dsimp only
      rw [lookup_dictSet]
      split
      · simp
      · exact h.lora_nonempty loraId

/-- A request leaves, with the adapter that the batch has for it. -/
lemma left {mapping : ℕ → ℕ} {loraIds : OrderedDict ℕ (Finset String)}
    {loraRequests : OrderedDict ℕ LoRARequest} (hid : requests id = some (request, spec))
    (hmapping : b.requestLoraMapping idx = (request.loraRequest.map (·.loraIntId)).getD 0)
    (hleft : b.requestLoraMapping idx = 0 ∧ loraIds = b.loraIdToRequestIds ∨
      LoraLeft b.loraIdToRequestIds loraIds (b.requestLoraMapping idx) id) :
    Features config (b.left id idx mapping loraIds loraRequests) (update requests id none) := by
  refine ⟨h.greedy.erase id, h.random.erase id, h.topP.erase id, h.topK.erase id,
    h.frequencyPenalties.erase id, h.presencePenalties.erase id, h.repetitionPenalties.erase id,
    h.allowedTokenIds.erase id, fun x => ?_, fun loraId x => ?_, ?_⟩
  · change (dictPop b.numLogprobs id).lookup x = _
    rw [lookup_dictPop]
    by_cases hx : x = id
    · simp [hx]
    · rw [if_neg hx, update_of_ne hx, h.numLogprobs]
  · change x ∈ (loraIds.lookup loraId).getD ∅ ↔ _
    by_cases hx : x = id
    · subst hx
      rw [update_self]
      simp only [reduceCtorEq, false_and, exists_false, iff_false]
      intro hmem
      have hof : x ∈ (b.loraIdToRequestIds.lookup loraId).getD ∅ → b.requestLoraMapping idx = loraId := by
        intro hmem
        obtain ⟨request', spec', hid', hlora⟩ := (h.lora loraId x).mp hmem
        rw [hid] at hid'
        cases hid'
        rw [hmapping, hlora]
        rfl
      rcases hleft with ⟨hzero, rfl⟩ | hleft
      · -- the id of an adapter is positive, so that a request without one is in no set
        obtain ⟨request', spec', hid', hlora⟩ := (h.lora loraId x).mp hmem
        obtain ⟨lora, hsome, hlora⟩ := Option.map_eq_some_iff.mp hlora
        have hpos := request'.loraIntId_pos lora hsome
        have := hof hmem
        omega
      · obtain ⟨hmem, hnot⟩ := (hleft.mem loraId x).mp hmem
        exact hnot ⟨(hof hmem).symm, rfl⟩
    · rw [update_of_ne hx, ← h.lora loraId x]
      rcases hleft with ⟨-, rfl⟩ | hleft
      · rfl
      · rw [hleft.mem]
        simp [hx]
  · rcases hleft with ⟨-, rfl⟩ | hleft
    · exact h.lora_nonempty
    · exact hleft.nonempty h.lora_nonempty

end

end Features

end InputBatch

end VllmRuntime
