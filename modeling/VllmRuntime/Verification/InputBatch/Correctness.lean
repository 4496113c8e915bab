import VllmRuntime.Verification.InputBatch.Condense

/-! # Runs of the batch

A step removes requests, adds requests, gives draft tokens, condenses, swaps and refreshes the
metadata. After the model has run, the numbers of accepted tokens are written. After every step the batch has
the row of each of its requests, without gaps. -/

namespace VllmRuntime

open List Function

variable {γ : Type}

/-- The operations of one step. -/
structure BatchStep (γ : Type) where
  removed : List String := []
  added : List (CachedRequestState γ) := []
  drafts : List (String × List TokenId) := []
  swaps : List (ℕ × ℕ) := []
  numAcceptedTokens : List ℕ := []

/-- The batch, with the requests that were added and not removed. -/
structure TrackedBatch (γ : Type) where
  batch : InputBatch γ
  requests : BatchRequests γ

namespace BatchStep

variable (config : InputBatchConfig)

/-- The operations before `refresh_metadata`. -/
def change (step : BatchStep γ) (b : InputBatch γ) : Except PyError (InputBatch γ) := do
  let b ← step.removed.foldlM InputBatch.removeRequest b
  let b ← step.added.foldlM (InputBatch.addRequest config) b
  let b ← step.drafts.foldlM (fun b draft => b.updateReqSpecTokenIds config draft.1 draft.2) b
  let b ← b.condense
  step.swaps.foldlM (fun b swap => b.swapStates swap.1 swap.2) b

def removeFrom (step : BatchStep γ) (requests : BatchRequests γ) : BatchRequests γ :=
  step.removed.foldl (fun requests id => update requests id none) requests

def addTo (step : BatchStep γ) (requests : BatchRequests γ) : BatchRequests γ :=
  step.added.foldl (fun requests request =>
    update requests request.reqId (some (request, {}))) requests

def draftTo (step : BatchStep γ) (requests : BatchRequests γ) : BatchRequests γ :=
  step.drafts.foldl (fun requests draft => requests.draft draft.1 draft.2) requests

/-- The requests before the model runs. -/
def requests (step : BatchStep γ) (requests : BatchRequests γ) : BatchRequests γ :=
  step.draftTo (step.addTo (step.removeFrom requests))

/-- The batch and the requests after the model has run. -/
def finish (step : BatchStep γ) (batch : InputBatch γ) (requests : BatchRequests γ) : TrackedBatch γ :=
  ⟨batch.refreshMetadata.setNumAcceptedTokens step.numAcceptedTokens,
    (step.requests requests).accept batch.refreshMetadata step.numAcceptedTokens⟩

def run (step : BatchStep γ) (s : TrackedBatch γ) : Except PyError (TrackedBatch γ) := do
  let batch ← step.change config s.batch
  return step.finish batch s.requests

/-- What the model runner ensures: it adds no request twice, and none that is still in the batch, and
the requests fit in the arrays. -/
structure Allowed (tables : List BlockTable) (s : TrackedBatch γ) (step : BatchStep γ) : Prop where
  nodup : (step.added.map (·.reqId)).Nodup
  absent : ∀ request ∈ step.added, step.removeFrom s.requests request.reqId = none
  fits : ∀ request ∈ step.added, request.Fits config tables

end BatchStep

namespace InputBatch

variable {config : InputBatchConfig} {tables : List BlockTable} {b b' : InputBatch γ}
  {requests : BatchRequests γ} {A : CachedRequestState γ → Prop} {s : TrackedBatch γ}

/-- `InputBatch.__init__`. The arrays of sampling parameters start with any content. -/
def new (config : InputBatchConfig) (tables : List BlockTable) (temperature topP frequencyPenalties
    presencePenalties repetitionPenalties : ℕ → ℚ) (topK : ℕ → ℤ) : InputBatch γ where
  blockTable := tables
  temperatureCpu := temperature
  topPCpu := topP
  topKCpu := topK
  frequencyPenaltiesCpu := frequencyPenalties
  presencePenaltiesCpu := presencePenalties
  repetitionPenaltiesCpu := repetitionPenalties
  specTokenIds := List.replicate config.maxNumReqs []

/-- The batch after a step. -/
structure Consistent (config : InputBatchConfig) (tables : List BlockTable) (b : InputBatch γ)
    (requests : BatchRequests γ) : Prop where
  all_some : ∀ id ∈ b.reqIds, id ≠ none
  length_eq : b.reqIds.length = b.numReqs
  inverse : ∀ id i, b.reqIdToIndex.lookup id = some i ↔ b.reqIds[i]? = some (some id)
  known : ∀ id, (requests id).isSome ↔ some id ∈ b.reqIds
  rows : ∀ i id, b.reqIds[i]? = some (some id) → ∃ request spec,
    requests id = some (request, spec) ∧ request.reqId = id ∧
      b.row i = request.row config (tables.map (·.blocksPerKvBlock)) spec
  features : Features config b requests

/-- The batch between two steps. -/
structure Settled (config : InputBatchConfig) (tables : List BlockTable) (b : InputBatch γ)
    (requests : BatchRequests γ) : Prop where
  rows : Rows config tables b requests
  gapless : b.Gapless
  removed : b.batchUpdateBuilder.removed = []
  unsorted : b.batchUpdateBuilder.isRemovedSorted = false
  moved : b.batchUpdateBuilder.moved = []
  added : b.batchUpdateBuilder.added = []

namespace Settled

lemma new (temperature topP frequencyPenalties presencePenalties repetitionPenalties : ℕ → ℚ)
    (topK : ℕ → ℤ) : Settled config tables (InputBatch.new config tables temperature topP
      frequencyPenalties presencePenalties repetitionPenalties topK : InputBatch γ) fun _ => none := by
  have htracks : ∀ P : CachedRequestState γ → Prop, Tracks ∅ (fun _ => none) P := by
    intro P id
    simp
  refine ⟨⟨⟨nodup_nil, fun id i => ?_⟩, fun id => ?_, fun id request spec h => ?_,
    fun i id request spec hi => ?_, fun i _ => ⟨rfl, rfl⟩, Nat.zero_le _, fun i _ => ?_, rfl, rfl, ?_⟩,
    fun i => ?_, rfl, rfl, rfl, rfl⟩
  · simp [InputBatch.new]
  · simp [InputBatch.new]
  · cases h
  · simp [InputBatch.new] at hi
  · simp only [InputBatch.new, getElem?_replicate]
    split <;> rfl
  · exact ⟨htracks _, htracks _, htracks _, htracks _, htracks _, htracks _, htracks _, htracks _,
      fun _ => rfl, fun _ => htracks _, fun _ => by simp [InputBatch.new]⟩
  · simp [InputBatch.new]

lemma opened (h : Settled config tables b requests) : Open config tables b requests := by
  refine ⟨h.rows, ⟨by simp [h.removed], fun i => ?_⟩, fun hsorted => ?_, h.moved⟩
  · rw [h.removed]
    have hgapless := h.gapless i
    cases hi : b.reqIds[i]? with
    | none => simp
    | some entry =>
      have hlt := lt_of_getElem? hi
      obtain ⟨id, hid⟩ := hgapless.mpr hlt
      rw [hi] at hid
      simp [Option.some.inj hid]
  · rw [h.unsorted] at hsorted
    cases hsorted

lemma consistent (h : Settled config tables b requests) : Consistent config tables b requests := by
  refine ⟨fun entry hentry => ?_, (h.rows.inverse.length_eq h.gapless).symm, h.rows.inverse.lookup,
    fun id => ?_, fun i id hi => ?_, h.rows.features⟩
  · obtain ⟨i, hlt, rfl⟩ := getElem_of_mem hentry
    obtain ⟨id, hid⟩ := (h.gapless i).mpr hlt
    rw [getElem?_eq_getElem hlt] at hid
    rw [Option.some.inj hid]
    simp
  · rw [h.rows.known, Option.isSome_iff_exists, mem_iff_getElem?]
    exact exists_congr fun i => h.rows.inverse.lookup id i
  · obtain ⟨request, spec, hrequest, hrow⟩ := h.rows.request_of_index hi
    exact ⟨request, spec, hrequest, h.rows.reqId id request spec hrequest, hrow⟩

end Settled

/-! ## The parts of a step -/

lemma Open.removals (h : Open config tables b requests) {ids : List String}
    (hrun : ids.foldlM removeRequest b = .ok b') :
    Open config tables b' (ids.foldl (fun requests id => update requests id none) requests) ∧
      Relation.ReflTransGen (SlotEvent A) (b.slots requests)
        (b'.slots (ids.foldl (fun requests id => update requests id none) requests)) := by
  induction ids generalizing b requests with
  | nil =>
    cases hrun
    exact ⟨h, .refl⟩
  | cons id ids ih =>
    rw [foldlM_cons] at hrun
    obtain ⟨b₁, hremove, hrun⟩ := bind_eq_ok hrun
    obtain ⟨hopen, hevents⟩ := h.remove id hremove
    obtain ⟨hopen', hevents'⟩ := ih hopen hrun
    exact ⟨hopen', hevents.trans hevents'⟩

lemma Open.additions (h : Open config tables b requests) {added : List (CachedRequestState γ)}
    (hnodup : (added.map (·.reqId)).Nodup) (habsent : ∀ request ∈ added, requests request.reqId = none)
    (hfits : ∀ request ∈ added, request.Fits config tables) (hadded : ∀ request ∈ added, A request)
    (hrun : added.foldlM (addRequest config) b = .ok b') :
    Open config tables b' (added.foldl (fun requests request =>
        update requests request.reqId (some (request, {}))) requests) ∧
      Relation.ReflTransGen (SlotEvent A) (b.slots requests) (b'.slots (added.foldl (fun requests request =>
        update requests request.reqId (some (request, {}))) requests)) := by
  induction added generalizing b requests with
  | nil =>
    cases hrun
    exact ⟨h, .refl⟩
  | cons request added ih =>
    rw [map_cons, nodup_cons] at hnodup
    rw [forall_mem_cons] at habsent hfits hadded
    rw [foldlM_cons] at hrun
    obtain ⟨b₁, hadd, hrun⟩ := bind_eq_ok hrun
    obtain ⟨hopen, hevents⟩ := h.add habsent.1 hfits.1 hadded.1 hadd
    have habsent' : ∀ other ∈ added,
        update requests request.reqId (some (request, {})) other.reqId = none := by
      intro other hother
      have hne : other.reqId ≠ request.reqId := by
        intro heq
        exact hnodup.1 (heq ▸ mem_map_of_mem hother)
      rw [update_of_ne hne]
      exact habsent.2 other hother
    obtain ⟨hopen', hevents'⟩ := ih hopen hnodup.2 habsent' hfits.2 hadded.2 hrun
    exact ⟨hopen', hevents.trans hevents'⟩

lemma Open.drafts (h : Open config tables b requests) {drafts : List (String × List TokenId)}
    (hrun : drafts.foldlM (fun b draft => b.updateReqSpecTokenIds config draft.1 draft.2) b = .ok b') :
    Open config tables b' (drafts.foldl (fun requests draft => requests.draft draft.1 draft.2) requests) ∧
      Relation.ReflTransGen (SlotEvent A) (b.slots requests)
        (b'.slots (drafts.foldl (fun requests draft => requests.draft draft.1 draft.2) requests)) := by
  induction drafts generalizing b requests with
  | nil =>
    cases hrun
    exact ⟨h, .refl⟩
  | cons draft drafts ih =>
    rw [foldlM_cons] at hrun
    obtain ⟨b₁, hdraft, hrun⟩ := bind_eq_ok hrun
    obtain ⟨hopen, hevents⟩ := h.draft hdraft
    obtain ⟨hopen', hevents'⟩ := ih hopen hrun
    exact ⟨hopen', hevents.trans hevents'⟩

lemma Rows.swaps (h : Rows config tables b requests) (hgapless : b.Gapless) {swaps : List (ℕ × ℕ)}
    (hrun : swaps.foldlM (fun b swap => b.swapStates swap.1 swap.2) b = .ok b') :
    Rows config tables b' requests ∧ b'.Gapless ∧
      Relation.ReflTransGen (SlotEvent A) (b.slots requests) (b'.slots requests) := by
  refine foldlM_invariant hrun ⟨h, hgapless, .refl⟩ ?_
  rintro swap - b₁ b₂ ⟨hrows₁, hgapless₁, hevents⟩ hswap
  obtain ⟨hrows, hids, ⟨id1, id2, h1, h2⟩, hbuilder⟩ := hrows₁.swap hswap
  have hlt1 := lt_of_getElem? h1
  have hlt2 := lt_of_getElem? h2
  refine ⟨hrows, fun i => ?_, hevents.tail ?_⟩
  · rw [hids, getElem?_swapItems hlt1 hlt2, length_swapItems, hgapless₁]
    by_cases hi1 : i = swap.1
    · rw [hi1, Equiv.swap_apply_left]
      omega
    · by_cases hi2 : i = swap.2
      · rw [hi2, Equiv.swap_apply_right]
        omega
      · rw [Equiv.swap_apply_of_ne_of_ne hi1 hi2]
  · rw [slots, slots, hids, hbuilder]
    exact .swap (s := b₁.slots requests) h1 h2

/-! ## Whole steps -/

/-- The metadata is refreshed after `condense` and the swaps. -/
lemma Settled.refresh (h : Rows config tables b requests) (hgapless : b.Gapless) :
    Settled config tables b.refreshMetadata requests := by
  refine ⟨h.withBuilder _, hgapless, ?_, ?_, ?_, ?_⟩
  all_goals
    simp only [refreshMetadata, BatchUpdateBuilder.getAndReset]
    split <;> simp_all

lemma Settled.accept (h : Settled config tables b requests) (numAcceptedTokens : List ℕ) :
    Settled config tables (b.setNumAcceptedTokens numAcceptedTokens) (requests.accept b numAcceptedTokens) :=
  ⟨h.rows.accept numAcceptedTokens, h.gapless, h.removed, h.unsorted, h.moved, h.added⟩

/-- A step is a sequence of events, after which the log is cleared. -/
lemma Settled.step {step : BatchStep γ} (h : Settled config tables b requests)
    (hallowed : step.Allowed config tables ⟨b, requests⟩) (hrun : step.change config b = .ok b') :
    Settled config tables b'.refreshMetadata (step.requests requests) ∧
      Relation.ReflTransGen (SlotEvent (· ∈ step.added)) (b.slots requests)
        (b'.slots (step.requests requests)) := by
  unfold BatchStep.change at hrun
  obtain ⟨b₁, hremove, hrun⟩ := bind_eq_ok hrun
  obtain ⟨b₂, hadd, hrun⟩ := bind_eq_ok hrun
  obtain ⟨b₃, hdraft, hrun⟩ := bind_eq_ok hrun
  obtain ⟨b₄, hcondense, hswap⟩ := bind_eq_ok hrun
  obtain ⟨hopen₁, hevents₁⟩ := h.opened.removals hremove
  obtain ⟨hopen₂, hevents₂⟩ := hopen₁.additions hallowed.nodup hallowed.absent hallowed.fits
    (fun _ hmem => hmem) hadd
  obtain ⟨hopen₃, hevents₃⟩ := hopen₂.drafts hdraft
  obtain ⟨hrows₄, hgapless₄, hevents₄⟩ := hopen₃.condense hcondense
  obtain ⟨hrows₅, hgapless₅, hevents₅⟩ := hrows₄.swaps hgapless₄ hswap
  exact ⟨.refresh hrows₅ hgapless₅,
    hevents₁.trans (hevents₂.trans (hevents₃.trans (hevents₄.trans hevents₅)))⟩

lemma settled_of_reaches {temperature topP frequencyPenalties presencePenalties repetitionPenalties : ℕ → ℚ}
    {topK : ℕ → ℤ} (h : Reaches (BatchStep.run config) (BatchStep.Allowed config tables)
      ⟨InputBatch.new config tables temperature topP frequencyPenalties presencePenalties
        repetitionPenalties topK, fun _ => none⟩ s) :
    Settled config tables s.batch s.requests := by
  refine h.invariant (P := fun s => Settled config tables s.batch s.requests)
    (Settled.new temperature topP frequencyPenalties presencePenalties repetitionPenalties topK)
    fun s step s' hsettled hallowed hrun => ?_
  obtain ⟨batch, hbatch, rfl⟩ := map_eq_ok hrun
  exact (hsettled.step hallowed hbatch).1.accept _

/-- In every run of the batch, after each step: the rows of the arrays are those of the requests, and
the sets of request ids are exact. -/
theorem consistent_of_reaches {temperature topP frequencyPenalties presencePenalties
    repetitionPenalties : ℕ → ℚ} {topK : ℕ → ℤ} {s : TrackedBatch γ}
    (h : Reaches (BatchStep.run config) (BatchStep.Allowed config tables)
      ⟨InputBatch.new config tables temperature topP frequencyPenalties presencePenalties
        repetitionPenalties topK, fun _ => none⟩ s) :
    Consistent config tables s.batch s.requests :=
  (settled_of_reaches h).consistent

/-! ## A run -/

/-- A request with a prompt of one token and one block. -/
def sampleRequest (reqId : String) (token : TokenId) (lora : Option ℕ) : CachedRequestState ℕ where
  reqId := reqId
  promptTokenIds := some [token]
  samplingParams := ⟨.greedy, 0, 1, 0, 0, 0, 1, none, [], [], 0, [], 0, []⟩
  generator := some token
  blockIds := [[token]]
  numComputedTokens := 0
  loraRequest := lora.map fun id => ⟨"adapter", id + 1⟩
  numPromptTokens := 1
  numPromptTokens_eq := rfl
  loraIntId_pos := by
    intro lora hlora
    obtain ⟨id, -, rfl⟩ := Option.map_eq_some_iff.mp hlora
    exact Nat.succ_pos id

def sampleConfig : InputBatchConfig where
  maxNumReqs := 4
  maxModelLen := 8
  vocabSize := 16
  float32 := id

def sampleTables : List BlockTable := [{ blocksPerKvBlock := 2, maxNumBlocksPerReq := 4 }]

/-- Three requests enter; the first leaves and the others are condensed and swapped. -/
def sampleSteps : List (BatchStep ℕ) :=
  [{ added := [sampleRequest "a" 1 none, sampleRequest "b" 2 (some 0), sampleRequest "c" 3 none] },
    { removed := ["a"], drafts := [("c", [7])], swaps := [(0, 1)], numAcceptedTokens := [1, 2] }]

def sampleStart : TrackedBatch ℕ :=
  ⟨InputBatch.new sampleConfig sampleTables (fun _ => 0) (fun _ => 0) (fun _ => 0) (fun _ => 0)
    (fun _ => 0) (fun _ => 0), fun _ => none⟩

/-- A check for what is allowed. -/
def checkStep (config : InputBatchConfig) (tables : List BlockTable) (s : TrackedBatch γ)
    (step : BatchStep γ) : Bool :=
  decide (step.added.map (·.reqId)).Nodup &&
    step.added.all fun request =>
      (step.removeFrom s.requests request.reqId).isNone &&
        decide (request.numTokens ≤ config.maxModelLen) &&
        (tables.zip request.blockIds).all fun pair =>
          (mapToKernelBlocks pair.1.blocksPerKvBlock pair.2).length ≤ pair.1.maxNumBlocksPerReq

lemma allowed_of_checkStep {step : BatchStep γ} (h : checkStep config tables s step = true) :
    step.Allowed config tables s := by
  unfold checkStep at h
  rw [Bool.and_eq_true, all_eq_true] at h
  refine ⟨of_decide_eq_true h.1, fun request hrequest => ?_, fun request hrequest => ?_⟩
  all_goals
    have hall := h.2 request hrequest
    rw [Bool.and_eq_true, Bool.and_eq_true, all_eq_true] at hall
  · exact Option.isNone_iff_eq_none.mp hall.1.1
  · exact ⟨of_decide_eq_true hall.1.2, fun pair hpair => of_decide_eq_true (hall.2 pair hpair)⟩

theorem consistent_of_reaches_sampleSteps : ∃ s : TrackedBatch ℕ,
    s.batch.reqIds = [some "b", some "c"] ∧ s.batch.specTokenIds = [[], [7]] ∧
      s.batch.numAcceptedTokensCpu 1 = 2 ∧ Consistent sampleConfig sampleTables s.batch s.requests := by
  have hrun : (runChecked (BatchStep.run sampleConfig) (checkStep sampleConfig sampleTables) sampleSteps
      sampleStart).map (fun s => (s.batch.reqIds, s.batch.specTokenIds, s.batch.numAcceptedTokensCpu 1)) =
        some ([some "b", some "c"], [[], [7]], 2) := by
    decide +kernel
  obtain ⟨s, hs, heq⟩ := Option.map_eq_some_iff.mp hrun
  simp only [Prod.mk.injEq] at heq
  obtain ⟨hids, hspec, hnum⟩ := heq
  exact ⟨s, hids, hspec, hnum, consistent_of_reaches
    (Reaches.of_runChecked (fun _ _ => allowed_of_checkStep) .start hs)⟩

end InputBatch

end VllmRuntime
