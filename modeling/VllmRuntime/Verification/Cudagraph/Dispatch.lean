import VllmRuntime.Verification.Cudagraph.Padding

/-! # Dispatching

With capture sizes that are multiples of the query length all keys can be made, and a batch is padded to the
least capture size that has room for its tokens and its requests. -/

namespace VllmRuntime.Cudagraph

open List

namespace CudagraphDispatcher

/-- A dispatcher with a table that pads to the least capture size. -/
structure Pads (d : CudagraphDispatcher) : Prop where
  sizes : d.compilationConfig.Sizes
  least : ∀ numTokens, 0 < numTokens → numTokens ≤ d.compilationConfig.maxCudagraphCaptureSize →
    ∃ size, d.bsToPaddedGraphSize[numTokens]? = some size ∧
      IsLeast {s | s ∈ d.compilationConfig.cudagraphCaptureSizes ∧ numTokens ≤ s} size
  multiple : ∀ size ∈ d.compilationConfig.cudagraphCaptureSizes, d.uniformDecodeQueryLen ∣ size

variable {d : CudagraphDispatcher} {mode : CUDAGraphMode} {numTokens : ℕ}

/-- A descriptor has the least capture size, and at least the requests of the batch. -/
lemma createPaddedBatchDescriptor_spec (h : d.Pads) (hpos : 0 < numTokens)
    (hmax : numTokens ≤ d.compilationConfig.maxCudagraphCaptureSize) (uniformDecode hasLora : Bool) :
    ∃ desc, d.createPaddedBatchDescriptor numTokens uniformDecode hasLora = .ok desc ∧
      IsLeast {s | s ∈ d.compilationConfig.cudagraphCaptureSizes ∧ numTokens ≤ s} desc.numTokens ∧
      ∃ numReqs, desc.numReqs = some numReqs ∧
        numReqs = if uniformDecode && d.cudagraphMode.hasFull then desc.numTokens / d.uniformDecodeQueryLen
          else min desc.numTokens d.maxNumSeqs := by
  obtain ⟨size, hsize, hleast⟩ := h.least numTokens hpos hmax
  have hmod : size % d.uniformDecodeQueryLen = 0 := Nat.mod_eq_zero_of_dvd (h.multiple size hleast.1.1)
  unfold createPaddedBatchDescriptor
  rw [hsize]
  cases huniform : uniformDecode && d.cudagraphMode.hasFull with
  | true =>
    dsimp only
    rw [if_pos rfl, if_pos hmod]
    exact ⟨_, rfl, hleast, _, rfl, rfl⟩
  | false => exact ⟨_, rfl, hleast, _, rfl, rfl⟩

/-! ## The keys -/

/-- Two dispatchers that may have different keys. -/
structure SameButKeys (d d' : CudagraphDispatcher) : Prop where
  config : d'.compilationConfig = d.compilationConfig
  maxNumSeqs : d'.maxNumSeqs = d.maxNumSeqs
  queryLen : d'.uniformDecodeQueryLen = d.uniformDecodeQueryLen
  mode : d'.cudagraphMode = d.cudagraphMode
  table : d'.bsToPaddedGraphSize = d.bsToPaddedGraphSize

lemma SameButKeys.refl (d : CudagraphDispatcher) : SameButKeys d d := ⟨rfl, rfl, rfl, rfl, rfl⟩

lemma SameButKeys.trans {d₁ d₂ d₃ : CudagraphDispatcher} (h : SameButKeys d₁ d₂) (h' : SameButKeys d₂ d₃) :
    SameButKeys d₁ d₃ :=
  ⟨h'.config.trans h.config, h'.maxNumSeqs.trans h.maxNumSeqs, h'.queryLen.trans h.queryLen,
    h'.mode.trans h.mode, h'.table.trans h.table⟩

lemma SameButKeys.pads {d' : CudagraphDispatcher} (h : SameButKeys d d') (hpads : d.Pads) : d'.Pads := by
  refine ⟨?_, ?_, ?_⟩
  · rw [h.config]
    exact hpads.sizes
  · rw [h.config, h.table]
    exact hpads.least
  · rw [h.config, h.queryLen]
    exact hpads.multiple

lemma addCudagraphKey_spec (hmode : mode = .piecewise ∨ mode = .full) (desc : BatchDescriptor) :
    ∃ d', d.addCudagraphKey mode desc = .ok d' ∧ SameButKeys d d' :=
  ⟨_, if_pos hmode, rfl, rfl, rfl, rfl, rfl⟩

/-- A loop over capture sizes that adds a key for each. -/
lemma foldlM_addKeys {cases : List (ℕ × Bool)} (uniformDecode : Bool)
    (relax : BatchDescriptor → BatchDescriptor) (hmode : mode = .piecewise ∨ mode = .full) (h : d.Pads)
    (hcases : ∀ case ∈ cases, case.1 ∈ d.compilationConfig.cudagraphCaptureSizes) :
    ∃ d', cases.foldlM (fun d case => do
        let desc ← d.createPaddedBatchDescriptor case.1 uniformDecode case.2
        d.addCudagraphKey mode (relax desc)) d = .ok d' ∧ SameButKeys d d' := by
  induction cases generalizing d with
  | nil => exact ⟨d, rfl, SameButKeys.refl d⟩
  | cons case cases ih =>
    rw [forall_mem_cons] at hcases
    obtain ⟨desc, hdesc, -⟩ := createPaddedBatchDescriptor_spec h (h.sizes.pos _ hcases.1)
      (h.sizes.le_max _ hcases.1) uniformDecode case.2
    obtain ⟨next, hnext, hsame⟩ := addCudagraphKey_spec (d := d) hmode (relax desc)
    obtain ⟨last, hlast, hsame'⟩ := ih (hsame.pads h) (by rw [hsame.config]; exact hcases.2)
    refine ⟨last, ?_, hsame.trans hsame'⟩
    rw [foldlM_cons, hdesc]
    change (d.addCudagraphKey mode (relax desc) >>= _) = _
    rw [hnext]
    exact hlast

lemma addMixedKeys_spec (h : d.Pads) (mode : CUDAGraphMode) :
    ∃ d', d.addMixedKeys mode = .ok d' ∧ SameButKeys d d' := by
  unfold addMixedKeys
  split
  · rename_i hmixed
    refine foldlM_addKeys false BatchDescriptor.relaxForMixedBatchCudagraphs ?_ h fun case hcase => ?_
    · cases mode <;> simp_all [CUDAGraphMode.mixedMode]
    · exact (List.pair_mem_product.mp hcase).1
  · exact ⟨d, rfl, SameButKeys.refl d⟩

lemma addDecodeKeys_spec (h : d.Pads) (mode : CUDAGraphMode) (uniformDecodeQueryLen : ℕ) :
    ∃ d', d.addDecodeKeys mode uniformDecodeQueryLen = .ok d' ∧ SameButKeys d d' := by
  unfold addDecodeKeys
  split
  · refine foldlM_addKeys true id (.inr rfl) h fun case hcase => ?_
    exact mem_of_mem_filter (List.pair_mem_product.mp hcase).1
  · exact ⟨d, rfl, SameButKeys.refl d⟩

/-! ## The start -/

/-- A check of the compile sizes fails with a value error. -/
lemma checkCompileSizes_no_assertion {table : List ℕ} {maxSize : ℕ} (sizes : List ℕ) (message : String) :
    sizes.forM (checkCompileSize table maxSize) ≠ .error (.assertionError message) := by
  induction sizes with
  | nil => exact fun h => by cases h
  | cons size sizes ih =>
    change (checkCompileSize table maxSize size >>= fun _ => sizes.forM (checkCompileSize table maxSize)) ≠ _
    cases hcheck : checkCompileSize table maxSize size with
    | ok => exact ih
    | error e =>
      rintro heq
      obtain rfl := Except.error.inj heq
      unfold checkCompileSize at hcheck
      split at hcheck
      · split at hcheck
        · cases hcheck
        · split at hcheck <;> cases hcheck
      · cases hcheck

/-- The table is computed, unless one of the compile sizes is refused. -/
lemma computePadding_spec (hsizes : d.compilationConfig.Sizes) (hmode : d.cudagraphMode ≠ .none)
    (hmultiple : ∀ size ∈ d.compilationConfig.cudagraphCaptureSizes, d.uniformDecodeQueryLen ∣ size) :
    (∃ e, d.computePadding = .error e ∧ ∀ message, e ≠ .assertionError message) ∨
    ∃ table, d.computePadding = .ok { d with bsToPaddedGraphSize := table } ∧
      Pads { d with bsToPaddedGraphSize := table } := by
  obtain ⟨table, htable, hleast⟩ := hsizes.table
  have heq : d.computePadding = (d.compilationConfig.compileSizes.forM
      (checkCompileSize table d.compilationConfig.maxCudagraphCaptureSize) >>= fun _ =>
        .ok { d with bsToPaddedGraphSize := table }) := by
    simp only [computePadding, htable, hmode, ne_eq, not_false_eq_true, if_true]
    rfl
  rw [heq]
  cases hcheck : d.compilationConfig.compileSizes.forM
      (checkCompileSize table d.compilationConfig.maxCudagraphCaptureSize) with
  | error e =>
    refine .inl ⟨e, rfl, fun message he => ?_⟩
    exact checkCompileSizes_no_assertion d.compilationConfig.compileSizes message (he ▸ hcheck)
  | ok => exact .inr ⟨table, rfl, hsizes, hleast, hmultiple⟩

/-- The start makes all keys, unless one of the compile sizes is refused. -/
lemma initializeCudagraphKeys_spec (hsizes : d.compilationConfig.Sizes)
    (hmultiple : ∀ size ∈ d.compilationConfig.cudagraphCaptureSizes, d.uniformDecodeQueryLen ∣ size)
    (hmode : mode ≠ .none) (uniformDecodeQueryLen : ℕ) :
    (∃ e, d.initializeCudagraphKeys mode uniformDecodeQueryLen = .error e ∧ ∀ message, e ≠ .assertionError message) ∨
    ∃ d', d.initializeCudagraphKeys mode uniformDecodeQueryLen = .ok d' ∧ d'.Pads ∧
      d'.compilationConfig = d.compilationConfig ∧ d'.maxNumSeqs = d.maxNumSeqs ∧
      d'.uniformDecodeQueryLen = d.uniformDecodeQueryLen := by
  unfold initializeCudagraphKeys
  dsimp only
  rw [if_neg hmode]
  rcases computePadding_spec (d := { d with cudagraphMode := mode }) hsizes hmode hmultiple with
    ⟨e, he, hno⟩ | ⟨table, htable, hpads⟩
  · exact .inl ⟨e, by rw [he]; rfl, hno⟩
  · right
    obtain ⟨d₁, hd₁⟩ : ∃ d₁ : CudagraphDispatcher,
      d₁ = { d with cudagraphMode := mode, bsToPaddedGraphSize := table } := ⟨_, rfl⟩
    dsimp only at htable hpads
    rw [← hd₁] at htable hpads
    obtain ⟨d₂, hd₂, hsame₂⟩ := addMixedKeys_spec hpads mode
    obtain ⟨d₃, hd₃, hsame₃⟩ := addDecodeKeys_spec (hsame₂.pads hpads) mode uniformDecodeQueryLen
    have hsame := hsame₂.trans hsame₃
    refine ⟨{ d₃ with keysInitialized := true }, ?_, ?_, ?_, ?_, ?_⟩
    · rw [htable]
      change (d₁.addMixedKeys mode >>= _) = _
      rw [hd₂]
      change (d₂.addDecodeKeys mode uniformDecodeQueryLen >>= _) = _
      rw [hd₃]
      rfl
    · obtain ⟨hsizes₃, hleast₃, hmultiple₃⟩ := hsame.pads hpads
      exact ⟨hsizes₃, hleast₃, hmultiple₃⟩
    · exact hsame.config.trans (by rw [hd₁])
    · exact hsame.maxNumSeqs.trans (by rw [hd₁])
    · exact hsame.queryLen.trans (by rw [hd₁])

/-! ## Dispatching -/

/-- What a dispatch is to answer for a batch with these query lengths: no graph and no padding, or a captured
graph of the least capture size with at least as many requests. -/
structure Dispatched (d : CudagraphDispatcher) (numTokens : ℕ) (queryLens : List ℕ)
    (answer : CUDAGraphMode × BatchDescriptor) : Prop where
  plain : answer.1 = .none → answer.2 = { numTokens }
  captured : answer.1 ≠ .none → answer.2 ∈ d.cudagraphKeys answer.1 ∧
    IsLeast {s | s ∈ d.compilationConfig.cudagraphCaptureSizes ∧ numTokens ≤ s} answer.2.numTokens ∧
    ∀ numReqs, answer.2.numReqs = some numReqs → queryLens.length ≤ numReqs

/-- A batch for `dispatch`: its tokens, maybe padded, and its requests. -/
structure Batch (d : CudagraphDispatcher) (numTokens : ℕ) (uniformDecode : Bool) (queryLens : List ℕ) : Prop where
  pos : 0 < numTokens
  lens_pos : ∀ len ∈ queryLens, 0 < len
  sum_le : queryLens.sum ≤ numTokens
  length_le : queryLens.length ≤ d.maxNumSeqs
  uniform : uniformDecode = true →
    d.uniformDecodeQueryLen ∣ numTokens ∧ ∀ len ∈ queryLens, len = d.uniformDecodeQueryLen

lemma dispatch_spec (h : d.Pads) (hquery : 0 < d.uniformDecodeQueryLen) {uniformDecode : Bool}
    {queryLens : List ℕ} (hbatch : Batch d numTokens uniformDecode queryLens) (hasLora disableFull : Bool) :
    ∃ answer, d.dispatch numTokens uniformDecode hasLora disableFull = .ok answer ∧
      Dispatched d numTokens queryLens answer := by
  have hplain : Dispatched d numTokens queryLens (.none, { numTokens }) :=
    ⟨fun _ => rfl, fun hne => absurd rfl hne⟩
  unfold dispatch
  split
  · exact ⟨_, rfl, hplain⟩
  · rename_i hgo
    push Not at hgo
    obtain ⟨desc, hdesc, hleast, numReqs, hnumReqs, heq⟩ :=
      createPaddedBatchDescriptor_spec h hbatch.pos hgo.2.2 uniformDecode hasLora
    have hfits : queryLens.length ≤ numReqs := by
      have hsum := length_le_sum_of_one_le queryLens hbatch.lens_pos
      have hpadded := hleast.1.2
      have hle := hbatch.sum_le
      rw [heq]
      split
      · rename_i huniform
        rw [Nat.le_div_iff_mul_le hquery]
        have hlens := (hbatch.uniform (by simp at huniform; exact huniform.1)).2
        rw [sum_eq_card_nsmul queryLens _ hlens, smul_eq_mul] at hle
        omega
      · exact le_min (by omega) hbatch.length_le
    have hcaptured {mode : CUDAGraphMode} {key : BatchDescriptor} (hmode : mode ≠ .none)
        (hkey : key ∈ d.cudagraphKeys mode) (htokens : key.numTokens = desc.numTokens)
        (hreqs : ∀ n, key.numReqs = some n → queryLens.length ≤ n) : Dispatched d numTokens queryLens (mode, key) := by
      refine ⟨fun hnone => absurd hnone hmode, fun _ => ⟨hkey, ?_, hreqs⟩⟩
      rw [htokens]
      exact hleast
    rw [hdesc]
    dsimp only [bind, Except.bind]
    split
    · rename_i hfull
      refine ⟨_, rfl, hcaptured (by decide) hfull.2 rfl fun n hn => ?_⟩
      rw [hnumReqs] at hn
      cases hn
      exact hfits
    · split
      · rename_i hfull
        exact ⟨_, rfl, hcaptured (by decide) hfull.2 rfl fun n hn => by cases hn⟩
      · split
        · rename_i hpiecewise
          exact ⟨_, rfl, hcaptured (by decide) hpiecewise rfl fun n hn => by cases hn⟩
        · exact ⟨_, rfl, hplain⟩

end CudagraphDispatcher

/-- For all capture sizes that are adjusted to the query length of speculative decoding. -/
theorem dispatch_padsToLeast {config adjusted : CompilationConfig} (hsizes : config.Sizes)
    {uniformDecodeQueryLen tensorParallelSize : ℕ} (hquery : 0 < uniformDecodeQueryLen)
    (hadjust : config.adjustCudagraphSizesForSpecDecode uniformDecodeQueryLen tensorParallelSize = .ok adjusted)
    (maxNumSeqs : ℕ) (loraConfig : Bool) (mode : CUDAGraphMode) :
    let d : CudagraphDispatcher := { compilationConfig := adjusted, maxNumSeqs, loraConfig, uniformDecodeQueryLen }
    (∀ message, d.initializeCudagraphKeys mode uniformDecodeQueryLen ≠ .error (.assertionError message)) ∧
    ∀ d', d.initializeCudagraphKeys mode uniformDecodeQueryLen = .ok d' →
      ∀ numTokens uniformDecode queryLens hasLora disableFull, d.Batch numTokens uniformDecode queryLens →
        ∃ answer, d'.dispatch numTokens uniformDecode hasLora disableFull = .ok answer ∧
          d'.Dispatched numTokens queryLens answer := by
  intro d
  obtain ⟨hadjusted, hmultiple⟩ := adjusted_sizes hsizes hquery hadjust
  by_cases hmode : mode = .none
  · subst hmode
    refine ⟨fun message h => (by cases h), fun d' hd' numTokens uniformDecode queryLens hasLora disableFull _ => ?_⟩
    cases hd'
    exact ⟨_, rfl, fun _ => rfl, fun hne => absurd rfl hne⟩
  · have hinit := CudagraphDispatcher.initializeCudagraphKeys_spec (d := d) hadjusted hmultiple hmode
      uniformDecodeQueryLen
    rcases hinit with ⟨e, he, hno⟩ | ⟨d', hd', hpads, -, hmax, hlen⟩
    · refine ⟨fun message h => ?_, fun d' hd' => ?_⟩
      · rw [he] at h
        exact hno message (Except.error.inj h)
      · rw [he] at hd'
        cases hd'
    · refine ⟨fun message h => ?_, fun d'' hd'' numTokens uniformDecode queryLens hasLora disableFull hbatch => ?_⟩
      · rw [hd'] at h
        cases h
      · rw [hd'] at hd''
        cases hd''
        refine CudagraphDispatcher.dispatch_spec hpads (by rw [hlen]; exact hquery) ⟨hbatch.pos, hbatch.lens_pos,
          hbatch.sum_le, ?_, ?_⟩ hasLora disableFull
        · rw [hmax]
          exact hbatch.length_le
        · rw [hlen]
          exact hbatch.uniform

/-- Four capture sizes, of which 3 and 6 are left with two draft tokens. -/
def fourSizes : CompilationConfig where
  cudagraphCaptureSizes := [1, 2, 4, 8]
  maxCudagraphCaptureSize := 8

theorem dispatch_padsToLeast_twoDrafts :
    let d : CudagraphDispatcher :=
      { compilationConfig := { fourSizes with cudagraphCaptureSizes := [3, 6], maxCudagraphCaptureSize := 6 }
        maxNumSeqs := 4, loraConfig := false, uniformDecodeQueryLen := 3 }
    ∃ d' answer, d.initializeCudagraphKeys .fullAndPiecewise 3 = .ok d' ∧
      d'.dispatch 6 true false false = .ok answer ∧ d'.Dispatched 6 [3, 3] answer := by
  intro d
  have hsizes : fourSizes.Sizes := ⟨by decide, by decide, rfl⟩
  have hbatch : d.Batch 6 true [3, 3] := ⟨by decide, by decide, by decide, by decide, fun _ => by decide⟩
  have hdispatch := (dispatch_padsToLeast hsizes (by decide : 0 < 3)
    (rfl : fourSizes.adjustCudagraphSizesForSpecDecode 3 1 = .ok _) 4 false .fullAndPiecewise).2
  cases hinit : d.initializeCudagraphKeys .fullAndPiecewise 3 with
  | error e =>
    have hok : (d.initializeCudagraphKeys .fullAndPiecewise 3).isOk = true := by decide +kernel
    rw [hinit] at hok
    cases hok
  | ok d' =>
    obtain ⟨answer, hanswer, hright⟩ := hdispatch d' hinit 6 true [3, 3] false false hbatch
    exact ⟨d', answer, rfl, hanswer, hright⟩

end VllmRuntime.Cudagraph
