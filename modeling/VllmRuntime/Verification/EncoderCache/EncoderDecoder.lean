import VllmRuntime.Verification.EncoderCache.Runs
import VllmRuntime.Verification.Scheduler.Membership

/-! # The encoder cache of encoder-decoder models

`EncoderDecoderCacheManager` has one counter and no record of what is allocated. A run keeps this record
beside the manager. -/

namespace VllmRuntime

open List EncoderCacheManager

/-- An encoder input, by its request. -/
abbrev EncoderInput := RequestId × MultiModalFeatureSpec

/-- A run for an encoder-decoder model, with the inputs that are allocated and not yet released. -/
structure EncoderDecoderRun where
  run : EncoderCacheRun
  allocated : Multiset EncoderInput := 0

namespace EncoderDecoderRun

def start (cacheSize : ℕ) : EncoderDecoderRun where
  run := { manager := { isEncoderDecoder := true, cacheSize } }

/-- The inputs that a call allocates. -/
def allocates : EncoderCacheCall → EncoderCacheRun → Multiset EncoderInput
  | .allocate, run => ↑((run.pending.take 1).map (run.requestId, ·))
  | _, _ => 0

/-- The inputs that a call releases. -/
def releases : EncoderCacheCall → EncoderCacheRun → Multiset EncoderInput
  | .freeInputs requestId mmFeatures inputIds, _ =>
    ↑((inputIds.filterMap (mmFeatures[·]?)).map (requestId, ·))
  | .free requestId mmFeatures, _ => ↑(mmFeatures.map (requestId, ·))
  | _, _ => 0

def step (call : EncoderCacheCall) (s : EncoderDecoderRun) : Except PyError EncoderDecoderRun := do
  let run ← EncoderCacheRun.step call s.run
  return ⟨run, s.allocated + allocates call s.run - releases call s.run⟩

/-- The embeddings of some inputs. -/
def numEmbeds (inputs : Multiset EncoderInput) : ℕ := (inputs.map (·.2.numEmbeds)).sum

/-- The free slots are those that no allocated input takes. -/
def Accounted (s : EncoderDecoderRun) : Prop :=
  s.run.manager.numFreeSlots = s.run.manager.cacheSize - numEmbeds s.allocated

/-- A call releases only inputs that are allocated, or that have no embeddings. -/
def ReleasesAllocated (s : EncoderDecoderRun) (call : EncoderCacheCall) : Prop :=
  ∀ input ∈ releases call s.run - s.allocated, input.2.numEmbeds = 0

instance (s : EncoderDecoderRun) (call : EncoderCacheCall) : Decidable (s.ReleasesAllocated call) :=
  inferInstanceAs (Decidable (∀ input ∈ releases call s.run - s.allocated, input.2.numEmbeds = 0))

variable {cacheSize : ℕ} {s s' : EncoderDecoderRun} {call : EncoderCacheCall} {run run' : EncoderCacheRun}
  {m m' : EncoderCacheManager} {config : SchedulerConfig} {hasCacheItem : String → Bool}
  {request : SchedRequest} {r : RequestId} {feature : MultiModalFeatureSpec} {plan plan' : EncoderPlan}
  {numComputedTokens numNewTokens budget shiftComputedTokens : ℤ} {goesOn : Bool} {i : ℕ}

@[simp] lemma numEmbeds_zero : numEmbeds 0 = 0 := rfl

@[simp] lemma numEmbeds_add (inputs inputs' : Multiset EncoderInput) :
    numEmbeds (inputs + inputs') = numEmbeds inputs + numEmbeds inputs' := by
  simp [numEmbeds]

lemma numEmbeds_coe (r : RequestId) (features : List MultiModalFeatureSpec) :
    numEmbeds ↑(features.map (r, ·)) = (features.map (·.numEmbeds)).sum := by
  simp [numEmbeds, Function.comp_def]

lemma numEmbeds_eq_zero {inputs : Multiset EncoderInput} :
    numEmbeds inputs = 0 ↔ ∀ input ∈ inputs, input.2.numEmbeds = 0 := by
  rw [numEmbeds, Multiset.sum_eq_zero_iff, Multiset.forall_mem_map_iff]

/-! ## Plans leave the manager as it is -/

lemma addInput_manager (hm : plan.manager.isEncoderDecoder = true)
    (h : plan.addInput config hasCacheItem numComputedTokens shiftComputedTokens feature i =
      .ok (goesOn, plan')) : plan'.manager = plan.manager := by
  unfold EncoderPlan.addInput at h
  dsimp only at h
  split at h
  · cases h
    rfl
  · obtain ⟨⟨fits, manager⟩, hfits, h⟩ := bind_eq_ok h
    have hmanager : manager = plan.manager := by
      simp only [canAllocate, hm, if_true] at hfits
      split at hfits
      · exact (ok_pair_inj hfits).2.symm
      · exact (ok_pair_inj hfits).2.symm
    subst hmanager
    dsimp only at h
    split at h
    · cases h
      rfl
    · obtain ⟨⟨currEmbedsStart, currEmbedsEnd⟩, -, h⟩ := bind_eq_ok h
      dsimp only at h
      split at h
      · cases h
        rfl
      · split at h
        · cases h
          rfl
        · cases h
          rfl

lemma visit_manager (hm : plan.manager.isEncoderDecoder = true)
    (h : plan.visit config hasCacheItem r numComputedTokens shiftComputedTokens feature i =
      .ok (goesOn, plan')) : plan'.manager = plan.manager := by
  unfold EncoderPlan.visit at h
  dsimp only at h
  split at h
  · cases h
    rfl
  split at h
  · obtain ⟨-, -, h⟩ := bind_eq_ok h
    cases h
    rfl
  split at h
  · cases h
    rfl
  split at h
  · exact addInput_manager hm h
  split at h
  · cases h
    rfl
  · simp only [checkAndUpdateCache, hm, if_true] at h
    obtain ⟨⟨isCached, manager⟩, hcheck, h⟩ := bind_eq_ok h
    cases hcheck
    exact addInput_manager hm h

lemma visitAll_manager {features : List (MultiModalFeatureSpec × ℕ)}
    (hm : plan.manager.isEncoderDecoder = true)
    (h : EncoderPlan.visitAll config hasCacheItem r numComputedTokens shiftComputedTokens features plan =
      .ok plan') : plan'.manager = plan.manager := by
  induction features generalizing plan with
  | nil =>
    cases h
    rfl
  | cons entry features ih =>
    obtain ⟨⟨goesOn, plan₁⟩, hvisit, h⟩ := bind_eq_ok h
    have hmanager := visit_manager hm hvisit
    dsimp only at h
    split at h
    · rw [ih (hmanager ▸ hm) h, hmanager]
    · cases h
      exact hmanager

lemma tryScheduleEncoderInputs_manager (hm : m.isEncoderDecoder = true)
    (h : tryScheduleEncoderInputs config m hasCacheItem request numComputedTokens numNewTokens budget =
      .ok plan) : plan.manager = m := by
  unfold tryScheduleEncoderInputs at h
  dsimp only at h
  split at h
  · cases h
    rfl
  · exact visitAll_manager hm h

/-! ## What a call does to the counter -/

lemma foldl_freeEncoderInput (hm : m.isEncoderDecoder = true) (r : RequestId)
    (features : List MultiModalFeatureSpec) :
    features.foldl (fun m feature => m.freeEncoderInput r feature) m =
      { m with numFreeSlots := m.numFreeSlots + (features.map (·.numEmbeds)).sum } := by
  induction features generalizing m with
  | nil => simp
  | cons feature features ih =>
    have hfree : m.freeEncoderInput r feature =
        { m with numFreeSlots := m.numFreeSlots + feature.numEmbeds } := by
      rw [freeEncoderInput, if_pos hm]
    have hm' : (m.freeEncoderInput r feature).isEncoderDecoder = true := by
      rw [hfree]
      exact hm
    rw [foldl_cons, ih hm', hfree]
    simp [Int.add_assoc]

/-- `get_cached_input_ids` has all inputs. -/
lemma getCachedInputIds_filterMap (hm : m.isEncoderDecoder = true)
    (features : List MultiModalFeatureSpec) :
    (m.getCachedInputIds features).filterMap (features[·]?) = features := by
  simp only [getCachedInputIds, hm, Bool.true_or, filter_true, filterMap_map]
  have hentry : ∀ entry ∈ features.zipIdx, ((features[·]?) ∘ Prod.snd) entry = some entry.1 :=
    fun entry hentry => mem_zipIdx_iff_getElem?.mp hentry
  rw [filterMap_congr hentry, filterMap_eq_map', zipIdx_map_fst]

/-- The counter changes by what is allocated and what is released. -/
structure Counts (call : EncoderCacheCall) (run run' : EncoderCacheRun) : Prop where
  isEncoderDecoder : run'.manager.isEncoderDecoder = true
  cacheSize : run'.manager.cacheSize = run.manager.cacheSize
  numFreeSlots : run'.manager.numFreeSlots + numEmbeds (allocates call run) =
    run.manager.numFreeSlots + numEmbeds (releases call run)

lemma counts_of_step (hm : run.manager.isEncoderDecoder = true)
    (h : EncoderCacheRun.step call run = .ok run') : Counts call run run' := by
  cases call with
  | tryScheduleEncoderInputs config hasCacheItem request numComputedTokens numNewTokens budget =>
    obtain ⟨plan, hplan, rfl⟩ := map_eq_ok h
    have hmanager := tryScheduleEncoderInputs_manager hm hplan
    refine ⟨?_, ?_, ?_⟩ <;> simp [hmanager, hm, allocates, releases]
  | allocate =>
    simp only [EncoderCacheRun.step] at h
    split at h
    · rename_i hpending
      cases h
      exact ⟨hm, rfl, by simp [allocates, releases, hpending]⟩
    · rename_i feature pending hpending
      obtain ⟨manager, hallocate, rfl⟩ := map_eq_ok h
      rw [EncoderCacheManager.allocate, if_pos hm] at hallocate
      cases hallocate
      refine ⟨hm, rfl, ?_⟩
      simp [allocates, releases, hpending, numEmbeds]
  | freeInputs requestId mmFeatures inputIds =>
    cases h
    have hfree := foldl_freeEncoderInput hm requestId (inputIds.filterMap (mmFeatures[·]?))
    refine ⟨?_, ?_, ?_⟩ <;>
      simp [EncoderCacheManager.freeInputs, hfree, hm, allocates, releases, numEmbeds_coe]
  | free requestId mmFeatures =>
    cases h
    have hfree := foldl_freeEncoderInput hm requestId mmFeatures
    refine ⟨?_, ?_, ?_⟩ <;>
      simp [EncoderCacheManager.free, EncoderCacheManager.freeInputs, getCachedInputIds_filterMap hm,
        hfree, hm, allocates, releases, numEmbeds_coe]
  | getFreedMmHashes =>
    cases h
    refine ⟨?_, ?_, ?_⟩ <;> simp [EncoderCacheManager.getFreedMmHashes, hm, allocates, releases]

lemma allocates_or_releases (call : EncoderCacheCall) (run : EncoderCacheRun) :
    allocates call run = 0 ∨ releases call run = 0 := by
  cases call with
  | allocate => exact .inr rfl
  | tryScheduleEncoderInputs | freeInputs | free | getFreedMmHashes => exact .inl rfl

/-! ## Runs -/

/-- What is released beyond what is allocated is counted all the same. -/
lemma accounted_iff (hm : s.run.manager.isEncoderDecoder = true) (h : s.Accounted)
    (hstep : step call s = .ok s') : s'.Accounted ↔ s.ReleasesAllocated call := by
  obtain ⟨run', hrun, rfl⟩ := map_eq_ok hstep
  obtain ⟨-, hcache, hcount⟩ := counts_of_step hm hrun
  unfold Accounted at h ⊢
  unfold ReleasesAllocated
  dsimp only
  rw [← numEmbeds_eq_zero, hcache]
  rcases allocates_or_releases call s.run with hnone | hnone
  · have hallocated := congrArg numEmbeds (Multiset.sub_add_inter s.allocated (releases call s.run))
    have hreleased := congrArg numEmbeds (Multiset.sub_add_inter (releases call s.run) s.allocated)
    rw [Multiset.inter_comm] at hreleased
    rw [numEmbeds_add] at hallocated hreleased
    rw [hnone, numEmbeds_zero] at hcount
    rw [hnone, add_zero]
    omega
  · rw [hnone, numEmbeds_zero] at hcount
    rw [hnone, Multiset.sub_zero, numEmbeds_add, Multiset.zero_sub, numEmbeds_zero]
    omega

/-- In every run that releases only what is allocated, in every state the free slots are those that no
allocated input takes, and the next call keeps this if and only if it does so too. -/
theorem freeSlots_of_reaches (h : Reaches step ReleasesAllocated (start cacheSize) s) :
    s.run.manager.numFreeSlots = cacheSize - numEmbeds s.allocated ∧
      s.run.manager.numFreeSlots ≤ cacheSize ∧
      ∀ call s', step call s = .ok s' → (s'.Accounted ↔ s.ReleasesAllocated call) := by
  have hinv : s.run.manager.isEncoderDecoder = true ∧ s.run.manager.cacheSize = cacheSize ∧
      s.Accounted := by
    refine h.invariant (P := fun s => s.run.manager.isEncoderDecoder = true ∧
      s.run.manager.cacheSize = cacheSize ∧ s.Accounted) ⟨rfl, rfl, ?_⟩ ?_
    · simp [Accounted, start]
    · rintro s call s' ⟨hm, hcache, haccounted⟩ hreleases hstep
      obtain ⟨run', hrun, hret⟩ := bind_eq_ok hstep
      have hcounts := counts_of_step hm hrun
      have haccounted' := (accounted_iff hm haccounted hstep).mpr hreleases
      cases Except.ok.inj hret
      exact ⟨hcounts.isEncoderDecoder, hcounts.cacheSize.trans hcache, haccounted'⟩
  obtain ⟨hm, hcache, haccounted⟩ := hinv
  have hslots : s.run.manager.numFreeSlots = cacheSize - numEmbeds s.allocated := by
    rw [← hcache]
    exact haccounted
  refine ⟨hslots, ?_, fun call s' hstep => accounted_iff hm haccounted hstep⟩
  omega

/-! ### Speech -/

/-- A request with a text prompt and an encoder input of three embeddings. -/
def speechRequest : SchedRequest where
  base :=
    { requestId := 0
      promptTokenIds := some [1, 2]
      promptEmbeds := none
      mmFeatures := [⟨"audio", { offset := 0, length := 3 }⟩]
      loraRequest := none
      cacheSalt := none
      numPromptTokens := 2
      skipReadingPrefixCache := false
      allTokenIds := [1, 2] }
  samplingParams := some { maxTokens := 4 }
  maxTokens := 4

lemma speechRequest_isNew : speechRequest.IsNew none :=
  ⟨0, some [1, 2], none, [⟨"audio", { offset := 0, length := 3 }⟩], none, none, false, _,
    some { maxTokens := 4 }, false, none, 0, 0, false, false, rfl, rfl⟩

def speechConfig : SchedulerConfig where
  maxNumRunningReqs := 2
  maxNumScheduledTokens := 8
  maxModelLen := 8
  maxNumEncoderInputTokens := 4
  numEncoderMaxInputTokens := 4
  isEncoderDecoder := true
  cacheBlockSize := 1
  blockSize := 1

/-- The input is scheduled, allocated and released after the step. -/
def speechCalls : List EncoderCacheCall :=
  [.tryScheduleEncoderInputs speechConfig (fun _ => false) speechRequest 0 2 4, .allocate, .getFreedMmHashes,
    .freeInputs 0 speechRequest.mmFeatures [0]]

theorem freeSlots_of_reaches_speechCalls : ∃ s : EncoderDecoderRun,
    Reaches step ReleasesAllocated (start 4) s ∧ s.run.manager.toFree = ["audio"] ∧
      s.run.manager.numFreeSlots = (4 : ℕ) - numEmbeds s.allocated := by
  have heval : (runChecked step (fun s call => decide (s.ReleasesAllocated call)) speechCalls (start 4)).map
      (fun s => s.run.manager.toFree) = some ["audio"] := by
    decide +kernel
  obtain ⟨s, hrun, hfree⟩ := Option.map_eq_some_iff.mp heval
  have hreach : Reaches step ReleasesAllocated (start 4) s :=
    .of_runChecked (fun _ _ => of_decide_eq_true) .start hrun
  exact ⟨s, hreach, hfree, (freeSlots_of_reaches hreach).1⟩

/-- The request is scheduled for its prompt and for a generated token. -/
def speechEngineCalls : List EngineCall :=
  [.addRequest notDelayed speechRequest, .schedule {},
    .updateFromOutput notDelayed { sampledTokenIds := fun _ => [5] }, .schedule {}]

def speechEngine : Except PyError EngineCore := do
  let kvCacheManager ← KVCacheManager.new (oneGroup 8) 8 1 false false false false 1 1
  return EngineCore.new speechConfig none kvCacheManager 4 fun r => newRequest r [] 0 false

def speechCheck (e : EngineCore) : EngineCall → Bool
  | .addRequest _ request => e.scheduler.hasher.isNone && request = speechRequest
  | _ => true

lemma speechCheck_wellFormed (e : EngineCore) (call : EngineCall) (h : speechCheck e call = true) :
    call.WellFormed e := by
  cases call with
  | addRequest delayFreeBlocks request =>
    simp only [speechCheck, Bool.and_eq_true, Option.isNone_iff_eq_none, decide_eq_true_eq] at h
    rw [EngineCall.WellFormed, h.1, h.2]
    exact speechRequest_isNew
  | _ => trivial

/-- The scheduler releases the input a second time when it schedules the next token. -/
theorem freeSlots_exceed_cacheSize : ∃ kvCacheManager e,
    EngineCore.Reachable (fun e call => call.WellFormed e)
      (EngineCore.new speechConfig none kvCacheManager 4 fun r => newRequest r [] 0 false) e ∧
      e.scheduler.running = [0] ∧ e.scheduler.encoderCacheManager.cacheSize = 4 ∧
      e.scheduler.encoderCacheManager.numFreeSlots = 7 := by
  have heval : evalRun speechEngine speechCheck speechEngineCalls (fun e => (e.scheduler.running,
      e.scheduler.encoderCacheManager.cacheSize, e.scheduler.encoderCacheManager.numFreeSlots)) =
        some ([0], 4, 7) := by
    decide +kernel
  unfold evalRun speechEngine at heval
  cases hkv : KVCacheManager.new (oneGroup 8) 8 1 false false false false 1 1 with
  | error e =>
    rw [hkv] at heval
    cases heval
  | ok kv =>
    rw [hkv] at heval
    obtain ⟨e, hrun, hvals⟩ := Option.map_eq_some_iff.mp heval
    simp only [Prod.mk.injEq] at hvals
    exact ⟨kv, e, Reaches.of_runChecked speechCheck_wellFormed .start hrun, hvals⟩

end EncoderDecoderRun

end VllmRuntime
