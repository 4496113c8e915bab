import VllmRuntime.Verification.EncoderCache.Plans
import VllmRuntime.Shared.Runs

/-! # Runs of the encoder cache

The scheduler plans the encoder inputs of a request, may free those of requests that it preempts,
and allocates the planned inputs one after the other or drops them. -/

namespace VllmRuntime

open List EncoderCacheManager ScheduleState

/-- The manager and what was planned last and is not allocated yet. -/
structure EncoderCacheRun where
  manager : EncoderCacheManager
  requestId : RequestId := 0
  pending : List MultiModalFeatureSpec := []

/-- What `schedule` and the functions around it do with the manager. -/
inductive EncoderCacheCall where
  | tryScheduleEncoderInputs (config : SchedulerConfig) (hasCacheItem : String → Bool)
      (request : SchedRequest) (numComputedTokens numNewTokens budget : ℤ)
  | allocate
  | freeInputs (requestId : RequestId) (mmFeatures : List MultiModalFeatureSpec) (inputIds : List ℕ)
  | free (requestId : RequestId) (mmFeatures : List MultiModalFeatureSpec)
  | getFreedMmHashes

namespace EncoderCacheRun

def start (cacheSize : ℕ) : EncoderCacheRun := { manager := { cacheSize } }

/-- A new plan replaces what is pending. -/
def step : EncoderCacheCall → EncoderCacheRun → Except PyError EncoderCacheRun
  | .tryScheduleEncoderInputs config hasCacheItem request numComputedTokens numNewTokens budget, run => do
    let plan ← VllmRuntime.tryScheduleEncoderInputs config run.manager hasCacheItem request
      numComputedTokens numNewTokens budget
    return ⟨plan.manager, request.requestId, plan.planned request.mmFeatures⟩
  | .allocate, run =>
    match run.pending with
    | [] => .ok run
    | feature :: pending => do
      let manager ← run.manager.allocate run.requestId feature
      return { run with manager, pending }
  | .freeInputs requestId mmFeatures inputIds, run =>
    .ok { run with manager := run.manager.freeInputs requestId mmFeatures inputIds }
  | .free requestId mmFeatures, run =>
    .ok { run with manager := run.manager.free requestId mmFeatures }
  | .getFreedMmHashes, run => .ok { run with manager := run.manager.getFreedMmHashes.2 }

/-- The model is decoder-only, and all inputs have the number of embeddings of their hash. -/
def Allowed (embeds : String → ℕ) (_ : EncoderCacheRun) : EncoderCacheCall → Prop
  | .tryScheduleEncoderInputs config _ request _ _ _ =>
    config.isEncoderDecoder = false ∧ ∀ feature ∈ request.mmFeatures, feature.Proper embeds
  | .freeInputs _ mmFeatures _ | .free _ mmFeatures => ∀ feature ∈ mmFeatures, feature.Proper embeds
  | .allocate | .getFreedMmHashes => True

/-- The counters agree with the entries, and what is pending can be allocated. -/
structure Inv (embeds : String → ℕ) (run : EncoderCacheRun) : Prop where
  accounted : Accounted embeds run.manager
  fits : Fits embeds run.manager run.pending

variable {embeds : String → ℕ} {cacheSize : ℕ} {run run' : EncoderCacheRun} {call : EncoderCacheCall}
  {config : SchedulerConfig} {hasCacheItem : String → Bool} {request : SchedRequest}
  {numComputedTokens numNewTokens budget : ℤ} {plan : EncoderPlan} {manager : EncoderCacheManager}

lemma accounted_start (cacheSize : ℕ) : Accounted embeds { cacheSize } := by
  refine ⟨rfl, ?_, ?_, ?_, by simp, by simp, by simp⟩
  · exact Int.natCast_nonneg cacheSize
  · simp [cachedEmbeds]
  · simp [referencedEmbeds]

lemma sound_of_tryScheduleEncoderInputs (h : Accounted embeds manager)
    (hconfig : config.isEncoderDecoder = false)
    (hproper : ∀ feature ∈ request.mmFeatures, feature.Proper embeds)
    (hplan : VllmRuntime.tryScheduleEncoderInputs config manager hasCacheItem request numComputedTokens
      numNewTokens budget = .ok plan) :
    EncoderPlan.Sound embeds request.mmFeatures
      { manager, numNewTokens, encoderComputeBudget := budget } plan := by
  have hstart : EncoderPlan.Sound embeds request.mmFeatures
      { manager, numNewTokens, encoderComputeBudget := budget }
      { manager, numNewTokens, encoderComputeBudget := budget } := .start h rfl rfl rfl rfl
  unfold VllmRuntime.tryScheduleEncoderInputs at hplan
  dsimp only at hplan
  split at hplan
  · cases hplan
    exact hstart
  · refine hstart.visitAll hconfig hproper (fun entry hentry => ?_) hplan
    exact mem_zipIdx_iff_getElem?.mp hentry

lemma tryScheduleEncoderInputs_eq_error {e : PyError} (h : Accounted embeds manager)
    (hconfig : config.isEncoderDecoder = false)
    (hproper : ∀ feature ∈ request.mmFeatures, feature.Proper embeds)
    (hplan : VllmRuntime.tryScheduleEncoderInputs config manager hasCacheItem request numComputedTokens
      numNewTokens budget = .error e) : e = .indexError := by
  unfold VllmRuntime.tryScheduleEncoderInputs at hplan
  dsimp only at hplan
  split at hplan
  · cases hplan
  · refine (EncoderPlan.Sound.start h rfl rfl rfl rfl).visitAll_eq_error hconfig hproper (fun entry hentry => ?_) hplan
    exact mem_zipIdx_iff_getElem?.mp hentry

namespace Inv

/-- Allocating fails on no pending input. -/
lemma allocate (h : Inv embeds run) :
    ∃ run', EncoderCacheRun.step .allocate run = .ok run' ∧ Inv embeds run' := by
  have hfits := h.fits
  simp only [EncoderCacheRun.step]
  cases hpending : run.pending with
  | nil => exact ⟨run, rfl, h⟩
  | cons feature pending =>
    rw [hpending] at hfits
    obtain ⟨m, hok, haccounted, hrest⟩ := h.accounted.allocate_cons (r := run.requestId) hfits
    refine ⟨{ run with manager := m, pending }, ?_, haccounted, hrest⟩
    dsimp only
    rw [hok]
    rfl

lemma step (h : Inv embeds run) (hallowed : Allowed embeds run call)
    (hstep : EncoderCacheRun.step call run = .ok run') : Inv embeds run' := by
  cases call with
  | tryScheduleEncoderInputs config hasCacheItem request numComputedTokens numNewTokens budget =>
    obtain ⟨plan, hplan, rfl⟩ := map_eq_ok hstep
    have hsound := sound_of_tryScheduleEncoderInputs h.accounted hallowed.1 hallowed.2 hplan
    exact ⟨hsound.accounted, hsound.planned_fits hallowed.2⟩
  | allocate =>
    obtain ⟨run₁, hok, hinv⟩ := h.allocate
    cases hok.symm.trans hstep
    exact hinv
  | freeInputs requestId mmFeatures inputIds =>
    cases hstep
    obtain ⟨haccounted, hreleases⟩ := h.accounted.freeInputs (r := requestId)
      (fun feature hfeature => (hallowed feature hfeature).numEmbeds) inputIds
    exact ⟨haccounted, h.fits.releases hreleases⟩
  | free requestId mmFeatures =>
    cases hstep
    obtain ⟨haccounted, hreleases⟩ := h.accounted.free (r := requestId)
      (fun feature hfeature => (hallowed feature hfeature).numEmbeds)
    exact ⟨haccounted, h.fits.releases hreleases⟩
  | getFreedMmHashes =>
    cases hstep
    obtain ⟨haccounted, hreleases⟩ := h.accounted.getFreedMmHashes
    exact ⟨haccounted, h.fits.releases hreleases⟩

/-- A call can only fail when it looks up a mask. -/
lemma step_eq_error {e : PyError} (h : Inv embeds run) (hallowed : Allowed embeds run call)
    (hstep : EncoderCacheRun.step call run = .error e) : e = .indexError := by
  cases call with
  | tryScheduleEncoderInputs config hasCacheItem request numComputedTokens numNewTokens budget =>
    rcases bind_eq_error hstep with hplan | ⟨plan, -, hret⟩
    · exact tryScheduleEncoderInputs_eq_error h.accounted hallowed.1 hallowed.2 hplan
    · cases hret
  | allocate =>
    obtain ⟨run₁, hok, -⟩ := h.allocate
    cases hok.symm.trans hstep
  | freeInputs | free | getFreedMmHashes => cases hstep

end Inv

lemma inv_of_reaches (h : Reaches step (Allowed embeds) (start cacheSize) run) : Inv embeds run :=
  h.invariant ⟨accounted_start cacheSize, .nil (accounted_start cacheSize)⟩
    fun _ _ _ hinv hallowed hstep => hinv.step hallowed hstep

/-- In every state reached the counters are what is not cached and what is not referenced, `freeable`
has the entries without references, and no eviction and no assertion fails. -/
theorem accounted_of_reaches (h : Reaches step (Allowed embeds) (start cacheSize) run) :
    Accounted embeds run.manager ∧
      (∀ call e, Allowed embeds run call → step call run = .error e → e = .indexError) ∧
      ∃ run', step .allocate run = .ok run' := by
  have hinv := inv_of_reaches h
  obtain ⟨run', hok, -⟩ := hinv.allocate
  exact ⟨hinv.accounted, fun call e hallowed hstep => hinv.step_eq_error hallowed hstep, run', hok⟩

/-- A request with images, given by hash, offset and number of embeddings. -/
def imageRequest (requestId : RequestId) (images : List (String × ℕ × ℕ)) : SchedRequest where
  base :=
    { requestId
      promptTokenIds := some (List.replicate 8 0)
      numPromptTokens := 8
      allTokenIds := List.replicate 8 0
      mmFeatures := images.map fun (identifier, offset, length) => ⟨identifier, { offset, length }⟩ }
  samplingParams := some { maxTokens := 1 }
  maxTokens := 1

def imageConfig : SchedulerConfig where
  maxNumRunningReqs := 2
  maxNumScheduledTokens := 8
  maxModelLen := 16
  cacheBlockSize := 1
  blockSize := 1

/-- Images of two and of three embeddings. -/
def imageEmbeds (identifier : String) : ℕ := if identifier = "a" then 2 else 3

/-- Of two images only one fits; it is allocated and freed. -/
def imageCalls : List EncoderCacheCall :=
  [.tryScheduleEncoderInputs imageConfig (fun _ => false) (imageRequest 0 [("a", 0, 2), ("b", 3, 3)]) 0 8 8,
    .allocate, .free 0 (imageRequest 0 [("a", 0, 2), ("b", 3, 3)]).mmFeatures]

/-- The other image takes its place. -/
def replaceCalls : List EncoderCacheCall :=
  [.tryScheduleEncoderInputs imageConfig (fun _ => false) (imageRequest 1 [("b", 1, 3)]) 0 8 8, .allocate]

lemma imageCalls_allowed (run : EncoderCacheRun) :
    ∀ call ∈ imageCalls ++ replaceCalls, Allowed imageEmbeds run call := by
  have hproper (images : List (String × ℕ × ℕ)) (himages : ∀ e ∈ images, e.2.2 = imageEmbeds e.1)
      (r : RequestId) : ∀ feature ∈ (imageRequest r images).mmFeatures, feature.Proper imageEmbeds := by
    intro feature hfeature
    obtain ⟨e, he, rfl⟩ := mem_map.mp hfeature
    exact ⟨himages e he, by simp⟩
  intro call hcall
  simp only [imageCalls, replaceCalls, cons_append, nil_append, mem_cons, not_mem_nil,
    or_false] at hcall
  rcases hcall with rfl | rfl | rfl | rfl | rfl
  · exact ⟨rfl, hproper _ (by decide) 0⟩
  · trivial
  · exact hproper _ (by decide) 0
  · exact ⟨rfl, hproper _ (by decide) 1⟩
  · trivial

theorem accounted_of_reaches_imageCalls : ∃ run, Reaches step (Allowed imageEmbeds) (start 4) run ∧
    run.manager.cached.keys = ["b"] ∧ run.manager.freed = ["a"] ∧ Accounted imageEmbeds run.manager := by
  have heval : (runChecked step (fun _ _ => true) (imageCalls ++ replaceCalls) (start 4)).map
      (fun run => (run.manager.cached.keys, run.manager.freed)) = some (["b"], ["a"]) := by
    decide +kernel
  obtain ⟨run, hrun, hvals⟩ := Option.map_eq_some_iff.mp heval
  obtain ⟨hcached, hfreed⟩ := Prod.mk.inj hvals
  have hreach : Reaches step (Allowed imageEmbeds) (start 4) run :=
    .of_runChecked_mem (fun s call hcall _ => imageCalls_allowed s call hcall) .start hrun
  exact ⟨run, hreach, hcached, hfreed, (accounted_of_reaches hreach).1⟩

/-! ## A plan -/

/-- Whatever requests are preempted after a plan, its inputs are allocated. -/
lemma allocateAll_of_sound {plan₀ : EncoderPlan}
    (h : EncoderPlan.Sound embeds request.mmFeatures plan₀ plan)
    (hproper : ∀ feature ∈ request.mmFeatures, feature.Proper embeds) (victims : List SchedRequest)
    (hvictims : ∀ victim ∈ victims, ∀ feature ∈ victim.mmFeatures, feature.Proper embeds) :
    ∃ m₁ m₂, allocateAll request.requestId (inputFeatures request plan.encoderInputsToSchedule)
        (victims.foldl (fun m victim => m.free victim.requestId victim.mmFeatures) plan.manager) = .ok m₁ ∧
      allocateAll request.requestId (inputFeatures request plan.externalLoadEncoderInput) m₁ = .ok m₂ := by
  have hfits := h.planned_fits hproper
  have haccounted := h.accounted
  generalize plan.manager = m at hfits haccounted
  induction victims generalizing m with
  | nil =>
    obtain ⟨m₁, hok, haccounted₁, hrest⟩ := haccounted.allocateAll (r := request.requestId) hfits
    rw [← append_nil (plan.externalLoadEncoderInput.filterMap _)] at hrest
    obtain ⟨m₂, hok', -⟩ := haccounted₁.allocateAll (r := request.requestId) hrest
    exact ⟨m₁, m₂, hok, hok'⟩
  | cons victim victims ih =>
    rw [forall_mem_cons] at hvictims
    obtain ⟨haccounted', hreleases⟩ := haccounted.free (r := victim.requestId)
      (fun feature hfeature => (hvictims.1 feature hfeature).numEmbeds)
    exact ih hvictims.2 _ (hfits.releases hreleases) haccounted'

/-- What `_try_schedule_encoder_inputs` returns covers the range that it returns, within the budget and
the cache. -/
theorem tryScheduleEncoderInputs_covers (h : Reaches step (Allowed embeds) (start cacheSize) run)
    (hconfig : config.isEncoderDecoder = false) (hshift : config.useEagle = false)
    (hproper : ∀ feature ∈ request.mmFeatures, feature.Proper embeds)
    (hsorted : request.mmFeatures.Pairwise fun a b => a.mmPosition.offset ≤ b.mmPosition.offset)
    (hn : 0 ≤ numNewTokens)
    (hplan : VllmRuntime.tryScheduleEncoderInputs config run.manager hasCacheItem request numComputedTokens
      numNewTokens budget = .ok plan) :
    (0 ≤ plan.numNewTokens ∧ plan.numNewTokens ≤ numNewTokens) ∧
    (∀ feature ∈ request.mmFeatures, ∀ pos, numComputedTokens ≤ pos →
      pos < numComputedTokens + plan.numNewTokens → feature.HasEmbedAt pos →
        plan.manager.References request.requestId feature.identifier ∨
        ∃ other ∈ plan.planned request.mmFeatures, other.identifier = feature.identifier) ∧
    ((((inputFeatures request plan.encoderInputsToSchedule).map (·.numEmbeds)).sum : ℕ) =
        budget - plan.encoderComputeBudget ∧
      0 ≤ budget - plan.encoderComputeBudget ∧ (0 ≤ budget → 0 ≤ plan.encoderComputeBudget)) ∧
    (((plan.planned request.mmFeatures).map (·.numEmbeds)).sum : ℕ) ≤ plan.manager.numFreeSlots ∧
    ∀ victims : List SchedRequest,
      (∀ victim ∈ victims, ∀ feature ∈ victim.mmFeatures, feature.Proper embeds) →
      ∃ m₁ m₂, allocateAll request.requestId (inputFeatures request plan.encoderInputsToSchedule)
          (victims.foldl (fun m victim => m.free victim.requestId victim.mmFeatures) plan.manager) = .ok m₁ ∧
        allocateAll request.requestId (inputFeatures request plan.externalLoadEncoderInput) m₁ = .ok m₂ := by
  have haccounted := (inv_of_reaches h).accounted
  have hsound := sound_of_tryScheduleEncoderInputs haccounted hconfig hproper hplan
  have hcovers : (0 ≤ plan.numNewTokens ∧ plan.numNewTokens ≤ numNewTokens) ∧
      ∀ feature ∈ request.mmFeatures, EncoderPlan.Covers request.requestId numComputedTokens plan feature := by
    unfold VllmRuntime.tryScheduleEncoderInputs at hplan
    dsimp only at hplan
    split at hplan
    · rename_i hnone
      cases Except.ok.inj hplan
      refine ⟨⟨hn, le_rfl⟩, fun feature hfeature => EncoderPlan.covers_of_later (Or.inr ?_)⟩
      rw [Bool.or_eq_true, decide_eq_true_eq] at hnone
      refine hnone.resolve_right fun hempty => ?_
      simp only [SchedRequest.hasEncoderInputs, Bool.not_not, List.isEmpty_iff] at hempty
      simp [hempty] at hfeature
    · simp only [hshift, Bool.false_eq_true, if_false] at hplan
      rw [← List.zipIdx_map_fst 0 request.mmFeatures, List.pairwise_map] at hsorted
      obtain ⟨hnarrows, hall⟩ := EncoderPlan.visitAll_covers (.start haccounted rfl rfl rfl rfl) hconfig hproper
        (fun entry hentry => mem_zipIdx_iff_getElem?.mp hentry) hn hsorted hplan
      refine ⟨⟨hnarrows.nonneg, hnarrows.numNewTokens⟩, fun feature hfeature => ?_⟩
      obtain ⟨i, hi⟩ := getElem?_of_mem hfeature
      exact hall (feature, i) (mem_zipIdx_iff_getElem?.mpr hi)
  have hbudget := eq_sub_of_add_eq' hsound.budget
  dsimp only at hbudget
  refine ⟨hcovers.1, fun feature hfeature pos hpos hlt hembed => ?_, ⟨?_, ?_, hsound.nonneg⟩,
    (hsound.planned_fits hproper).fits, allocateAll_of_sound hsound hproper⟩
  · refine (hcovers.2 feature hfeature pos hpos hlt hembed).imp_right fun hmem => ?_
    exact List.mem_map.mp (hsound.hashes.mem_iff.mpr hmem)
  · exact hbudget
  · exact hbudget ▸ Int.natCast_nonneg _

theorem tryScheduleEncoderInputs_covers_imageCalls : ∃ run plan,
    Reaches step (Allowed imageEmbeds) (start 4) run ∧
    VllmRuntime.tryScheduleEncoderInputs imageConfig run.manager (fun _ => false)
      (imageRequest 1 [("b", 1, 3)]) 0 8 8 = .ok plan ∧ plan.encoderInputsToSchedule = [0] ∧
    ∃ m₁ m₂, allocateAll 1 (inputFeatures (imageRequest 1 [("b", 1, 3)]) plan.encoderInputsToSchedule)
        plan.manager = .ok m₁ ∧
      allocateAll 1 (inputFeatures (imageRequest 1 [("b", 1, 3)]) plan.externalLoadEncoderInput) m₁ = .ok m₂ := by
  have heval : ((runChecked step (fun _ _ => true) imageCalls (start 4)).bind fun run =>
      (VllmRuntime.tryScheduleEncoderInputs imageConfig run.manager (fun _ => false)
        (imageRequest 1 [("b", 1, 3)]) 0 8 8).toOption.map (·.encoderInputsToSchedule)) = some [0] := by
    decide +kernel
  obtain ⟨run, hrun, heval⟩ := Option.bind_eq_some_iff.mp heval
  obtain ⟨plan, hplan, hinputs⟩ := Option.map_eq_some_iff.mp heval
  have hplan : VllmRuntime.tryScheduleEncoderInputs imageConfig run.manager (fun _ => false)
      (imageRequest 1 [("b", 1, 3)]) 0 8 8 = .ok plan := by
    revert hplan
    cases VllmRuntime.tryScheduleEncoderInputs imageConfig run.manager (fun _ => false)
      (imageRequest 1 [("b", 1, 3)]) 0 8 8 <;> simp [Except.toOption]
  have hallowed (s : EncoderCacheRun) : ∀ call ∈ imageCalls, Allowed imageEmbeds s call :=
    fun call hcall => imageCalls_allowed s call (mem_append_left _ hcall)
  have hreach : Reaches step (Allowed imageEmbeds) (start 4) run :=
    .of_runChecked_mem (fun s call hcall _ => hallowed s call hcall) .start hrun
  have hproper := imageCalls_allowed run _ (mem_append_right imageCalls mem_cons_self)
  have hcovers := tryScheduleEncoderInputs_covers hreach hproper.1 rfl hproper.2 (by decide) (by decide) hplan
  exact ⟨run, plan, hreach, hplan, hinputs, hcovers.2.2.2.2 [] (by simp)⟩

end EncoderCacheRun

end VllmRuntime
