import VllmRuntime.Model.KVCacheSpecMerge

/-! # Sizes of merged specs

Which layers `merge` puts into one group although their pages have different sizes: the head size of the
values is not compared for full attention, and nothing but the cache type for MLA. -/

namespace VllmRuntime

open List

/-- Every element has a value if `mapM` succeeds. -/
lemma exists_of_mapM {α β : Type} {f : α → Option β} {as : List α} {bs : List β}
    (h : as.mapM f = some bs) {a : α} (ha : a ∈ as) : ∃ b ∈ bs, f a = some b := by
  obtain ⟨i, hi⟩ := getElem?_of_mem ha
  obtain ⟨b, hb, hab⟩ := getElem?_of_forall₂ (mapM_eq_some h) hi
  exact ⟨b, mem_of_getElem? hb, hab⟩

/-- The paddings and the bytes without padding give the same page size, or both paddings are too small. -/
def SamePageSize (padded padded' : Option ℕ) (real real' : ℕ) : Prop :=
  match padded, padded' with
  | none, none => real' = real
  | none, some p' => p' = real ∧ real' ≤ p'
  | some p, none => real' = p ∧ real ≤ p
  | some p, some p' => (real' ≤ p' ↔ real ≤ p) ∧ (real ≤ p → p' = p)

lemma paddedPageSize_eq_iff {padded padded' : Option ℕ} {real real' : ℕ} {message : String} :
    paddedPageSize padded' real' message = paddedPageSize padded real message ↔
      SamePageSize padded padded' real real' := by
  have hsome (p n : ℕ) : paddedPageSize (some p) n message =
      if n ≤ p then .ok p else .error (.assertionError message) := by
    by_cases h : n ≤ p <;> simp [paddedPageSize, pyAssert, h]
  have hnone (n : ℕ) : paddedPageSize none n message = .ok n := rfl
  cases padded with
  | none =>
    cases padded' with
    | none => simp [hnone, SamePageSize]
    | some p' =>
      rw [hsome, hnone]
      by_cases h : real' ≤ p' <;> simp [SamePageSize, h]
  | some p =>
    cases padded' with
    | none =>
      rw [hsome, hnone]
      by_cases h : real ≤ p <;> simp [SamePageSize, h]
    | some p' =>
      rw [hsome, hsome]
      by_cases h : real ≤ p <;> by_cases h' : real' ≤ p' <;> simp [SamePageSize, h, h']

/-- The values take up the same space: without padding the head sizes of the values are the same (or no
bytes are needed), and with padding both fit or both do not. -/
def FullAttentionSpec.SameValueSize (a b : FullAttentionSpec) : Prop :=
  match a.pageSizePadded with
  | none => b.headSizeV = a.headSizeV ∨ a.blockSize * a.numKvHeads * a.dtype.itemsize = 0
  | some padded => b.realPageSizeBytes ≤ padded ↔ a.realPageSizeBytes ≤ padded

lemma FullAttentionSpec.pageSizeBytes_eq_iff {a b : FullAttentionSpec}
    (h : b.toAttentionSpec = a.toAttentionSpec) :
    b.pageSizeBytes = a.pageSizeBytes ↔ a.SameValueSize b := by
  have hpage (spec : FullAttentionSpec) : spec.pageSizeBytes =
      paddedPageSize spec.pageSizePadded spec.realPageSizeBytes "self.page_size_padded >= real_page_size" := rfl
  rw [hpage, hpage, paddedPageSize_eq_iff, h]
  unfold SamePageSize SameValueSize
  cases a.pageSizePadded with
  | none =>
    have hreal (spec : FullAttentionSpec) : spec.realPageSizeBytes =
        spec.blockSize * spec.numKvHeads * spec.dtype.itemsize * (spec.headSize + spec.headSizeV) := by
      rw [realPageSizeBytes]
      ring
    simp only [hreal, h, mul_eq_mul_left_iff, Nat.add_left_cancel_iff]
  | some padded => simp

namespace KVCacheSpec

/-- What `merge` does not compare agrees: for full attention the head sizes of the values, for MLA the
block sizes and the bytes in a block. -/
def SameSize : KVCacheSpec → KVCacheSpec → Prop
  | fullAttention a, spec | sinkFullAttention a _, spec =>
    ∀ b, spec.asFullAttention = some b → a.SameValueSize b
  | mlaAttention a cacheDtypeStr, spec =>
    ∀ b, spec.asMlaAttention = some (b, cacheDtypeStr) → b.blockSize = a.blockSize ∧
      SamePageSize a.pageSizePadded b.pageSizePadded (a.mlaPageSizeBytes cacheDtypeStr)
        (b.mlaPageSizeBytes cacheDtypeStr)
  | _, _ => True

/-- The spec takes up as much space as the merged one. -/
def HasSizeOf (merged spec : KVCacheSpec) : Prop :=
  spec.blockSize = merged.blockSize ∧ spec.pageSizeBytes = merged.pageSizeBytes

variable {layers : List (String × KVCacheSpec)} {specs : List KVCacheSpec} {first spec merged : KVCacheSpec}
  {b full a : FullAttentionSpec}

/-! ## Merged specs -/

lemma pageSizeBytes_of_asFullAttention (h : spec.asFullAttention = some b)
    (hmla : spec.isMlaAttention = false) :
    spec.blockSize = b.blockSize ∧ spec.pageSizeBytes = b.pageSizeBytes := by
  cases spec <;> cases h
  · exact ⟨rfl, rfl⟩
  · cases hmla
  · exact ⟨rfl, rfl⟩

/-- The fields that all full attention layers share. -/
lemma mergeFullAttention_eq_ok (h : mergeFullAttention specs = .ok full) :
    (∀ spec ∈ specs, spec.isMlaAttention = false ∧
      ∃ b, spec.asFullAttention = some b ∧ b.toAttentionSpec = full.toAttentionSpec) ∧
    ∀ first a, specs.head? = some first → first.asFullAttention = some a → full.headSizeV = a.headSizeV := by
  unfold mergeFullAttention at h
  cases hfull : specs.mapM asFullAttention with
  | none => simp [hfull] at h
  | some fullSpecs =>
    simp only [hfull] at h
    obtain ⟨_, hmla, h⟩ := bind_eq_ok h
    have hmla : specs.any isMlaAttention = false := by simpa [pyAssert_eq_ok] using hmla
    obtain ⟨b, rest, rfl⟩ : ∃ b rest, fullSpecs = b :: rest := by
      cases fullSpecs with
      | nil => cases h
      | cons b rest => exact ⟨b, rest, rfl⟩
    obtain ⟨slidingWindow, -, h⟩ := bind_eq_ok h
    obtain ⟨attentionChunkSize, -, h⟩ := bind_eq_ok h
    obtain ⟨_, hsame, h⟩ := bind_eq_ok h
    obtain ⟨_, -, rfl⟩ := map_eq_ok h
    have hsame : ∀ spec ∈ b :: rest, spec.toAttentionSpec = b.toAttentionSpec := by
      simpa [pyAssert_eq_ok] using hsame
    constructor
    · intro spec hspec
      obtain ⟨b', hb', hspec'⟩ := exists_of_mapM hfull hspec
      exact ⟨by simpa using List.any_eq_false.mp hmla spec hspec, b', hspec', hsame b' hb'⟩
    · intro first a hfirst ha
      cases specs with
      | nil => cases hfirst
      | cons first' specs =>
        cases hfirst
        simp only [mapM_cons, ha, Option.bind_eq_bind, Option.bind_some,
          Option.bind_eq_some_iff, Option.pure_def, Option.some.injEq, List.cons.injEq] at hfull
        obtain ⟨_, -, rfl, rfl⟩ := hfull
        rfl

/-- A merged full attention spec has the size of the first layer, and the other layers have it if their
values take up the same space. -/
lemma hasSizeOf_of_mergeFullAttention (h : mergeFullAttention specs = .ok full)
    (hfirst : specs.head? = some first) (ha : first.asFullAttention = some a) (hspec : spec ∈ specs)
    (hb : spec.asFullAttention = some b) (hblock : merged.blockSize = full.blockSize)
    (hpage : merged.pageSizeBytes = full.pageSizeBytes) :
    merged.HasSizeOf spec ↔ a.SameValueSize b := by
  obtain ⟨hsame, hvalues⟩ := mergeFullAttention_eq_ok h
  obtain ⟨-, a', ha', haf⟩ := hsame first (mem_of_mem_head? hfirst)
  obtain rfl : a' = a := by simpa [ha] using ha'.symm
  obtain ⟨hmla, b', hb', hbf⟩ := hsame spec hspec
  obtain rfl : b' = b := by simpa [hb] using hb'.symm
  have hfull : full.pageSizeBytes = a'.pageSizeBytes := by
    simp only [FullAttentionSpec.pageSizeBytes, FullAttentionSpec.realPageSizeBytes, haf,
      hvalues first a' hfirst ha]
  have hspecSize := pageSizeBytes_of_asFullAttention hb hmla
  simp only [HasSizeOf, hblock, hpage, hspecSize.1, hspecSize.2, hbf, hfull, true_and]
  exact FullAttentionSpec.pageSizeBytes_eq_iff (hbf.trans haf.symm)

/-- The layers of a merged MLA spec are MLA layers with the same cache type. -/
lemma mergeMlaAttention_eq_ok {cacheDtypeStr : Option String} (h : mergeMlaAttention specs = .ok merged)
    (hfirst : specs.head? = some (mlaAttention a cacheDtypeStr)) :
    merged = mlaAttention { toAttentionSpec := a.toAttentionSpec } cacheDtypeStr ∧
      ∀ spec ∈ specs, ∃ b, spec = mlaAttention b cacheDtypeStr := by
  unfold mergeMlaAttention at h
  cases specs with
  | nil => cases hfirst
  | cons first rest =>
    cases hfirst
    cases hmla : rest.mapM asMlaAttention with
    | none => simp [hmla, asMlaAttention] at h
    | some mlaSpecs =>
      simp only [mapM_cons, hmla, asMlaAttention, Option.bind_eq_bind, Option.bind_some,
        Option.pure_def] at h
      obtain ⟨_, hall, rfl⟩ := map_eq_ok h
      have hall : ∀ b ∈ mlaSpecs, b.2 = cacheDtypeStr := by
        simpa [pyAssert_eq_ok] using hall
      refine ⟨rfl, fun spec hspec => ?_⟩
      rcases List.mem_cons.mp hspec with rfl | hspec
      · exact ⟨a, rfl⟩
      · obtain ⟨b, hb, hspecb⟩ := exists_of_mapM hmla hspec
        cases spec with
        | mlaAttention b' _ =>
          cases hspecb
          exact ⟨b', congrArg _ (hall _ hb)⟩
        | _ => cases hspecb

/-- The merged spec takes up as much space as a layer if what is not compared agrees. -/
lemma hasSizeOf_iff (h : merge specs = .ok merged) (hfirst : specs.head? = some first)
    (hspec : spec ∈ specs) : merged.HasSizeOf spec ↔ first.SameSize spec := by
  cases specs with
  | nil => cases hfirst
  | cons first' rest =>
    obtain rfl : first' = first := by simpa using hfirst
    -- the classes that do not override `merge` have equal specs only
    have hequal (h : (do
        pyAssert (rest.all fun spec => spec = first')
          "All layers in the same KV cache group must be the same."
        return first') = Except.ok merged) (hsame : first'.SameSize spec) :
        merged.HasSizeOf spec ↔ first'.SameSize spec := by
      obtain ⟨_, hall, rfl⟩ := map_eq_ok h
      have hall : ∀ spec ∈ rest, spec = first' := by simpa [pyAssert_eq_ok] using hall
      have hspec : spec = first' := (List.mem_cons.mp hspec).elim id (hall spec)
      simp [hspec ▸ hsame, HasSizeOf, hspec]
    cases first' with
    | fullAttention a | sinkFullAttention a sinkLen =>
      obtain ⟨full, hfull, rfl⟩ := map_eq_ok h
      obtain ⟨-, b, hb, -⟩ := (mergeFullAttention_eq_ok hfull).1 spec hspec
      rw [hasSizeOf_of_mergeFullAttention hfull rfl rfl hspec hb rfl rfl]
      simp [SameSize, hb]
    | mlaAttention a cacheDtypeStr =>
      obtain ⟨rfl, hall⟩ := mergeMlaAttention_eq_ok h rfl
      obtain ⟨b, rfl⟩ := hall spec hspec
      simp only [HasSizeOf, SameSize, asMlaAttention, blockSize, pageSizeBytes, paddedPageSize_eq_iff,
        Option.some.injEq, Prod.mk.injEq, and_true, forall_eq']
      rfl
    | slidingWindow a window => exact hequal h trivial
    | chunkedLocalAttention a chunkSize => exact hequal h trivial
    | mamba a => exact hequal h trivial
    | crossAttention a => exact hequal h trivial

/-! ## Layers in one group -/

/-- The layers in a group take up as much space as the merged spec exactly when what `merge` does not compare
agrees with the first layer. -/
theorem merge_sizes_iff (h : merge (layers.map Prod.snd) = .ok merged) :
    ((∀ layer ∈ layers, merged.HasSizeOf layer.2) ∧
      (isKvCacheSpecUniform layers = .ok true →
        ∀ layer ∈ layers, ∀ layer' ∈ layers, layer.2.pageSizeBytes = layer'.2.pageSizeBytes)) ↔
    ∀ first, layers.head? = some first → ∀ layer ∈ layers, first.2.SameSize layer.2 := by
  have hiff : (∀ layer ∈ layers, merged.HasSizeOf layer.2) ↔
      ∀ first, layers.head? = some first → ∀ layer ∈ layers, first.2.SameSize layer.2 := by
    cases layers with
    | nil => simp
    | cons first rest =>
      have hlayer : ∀ layer ∈ first :: rest, merged.HasSizeOf layer.2 ↔ first.2.SameSize layer.2 :=
        fun layer hlayer => hasSizeOf_iff h rfl (mem_map_of_mem hlayer)
      simp only [head?_cons, Option.some.injEq, forall_eq']
      exact forall₂_congr hlayer
  rw [← hiff]
  constructor
  · exact And.left
  · intro hsize
    exact ⟨hsize, fun _ layer hlayer layer' hlayer' =>
      (hsize layer hlayer).2.trans (hsize layer' hlayer').2.symm⟩

/-- Two layers whose values have different head sizes. -/
def twoValueSizes : List (String × KVCacheSpec) :=
  let attention : AttentionSpec := ⟨16, 1, 64, ⟨"bfloat16", 2⟩, none⟩
  [("layers.0", fullAttention { toAttentionSpec := attention }),
    ("layers.1", fullAttention { toAttentionSpec := attention, headSizeV := 128 })]

/-- Three layers, one of them with a window, that agree in everything else. -/
def oneWindow : List (String × KVCacheSpec) :=
  let attention : AttentionSpec := ⟨16, 1, 64, ⟨"bfloat16", 2⟩, some 4096⟩
  [("layers.0", fullAttention { toAttentionSpec := attention }),
    ("layers.1", fullAttention { toAttentionSpec := attention, slidingWindow := some 32 }),
    ("layers.2", fullAttention { toAttentionSpec := attention })]

theorem merge_sizes_oneWindow : (∀ layer ∈ oneWindow, (fullAttention
      ⟨⟨16, 1, 64, ⟨"bfloat16", 2⟩, some 4096⟩, 64, some 32, none⟩).HasSizeOf layer.2) ∧
    (isKvCacheSpecUniform oneWindow = .ok true →
      ∀ layer ∈ oneWindow, ∀ layer' ∈ oneWindow, layer.2.pageSizeBytes = layer'.2.pageSizeBytes) :=
  (merge_sizes_iff (by decide)).mpr (by
    intro first hfirst layer hlayer
    cases hfirst
    simp only [oneWindow, mem_cons, not_mem_nil, or_false] at hlayer
    rcases hlayer with rfl | rfl | rfl <;> intro b hb <;> cases hb <;> exact Iff.rfl)

/-- Layers of two page sizes are merged into one group. -/
theorem merge_twoValueSizes : ∃ merged, merge (twoValueSizes.map Prod.snd) = .ok merged ∧
    isKvCacheSpecUniform twoValueSizes = .ok true ∧ merged.pageSizeBytes = .ok 4096 ∧
    twoValueSizes.map (fun layer => layer.2.pageSizeBytes) = [.ok 4096, .ok 6144] := by
  exact ⟨fullAttention ⟨⟨16, 1, 64, ⟨"bfloat16", 2⟩, none⟩, 64, none, none⟩, by decide, by decide,
    by decide, by decide⟩

end KVCacheSpec

end VllmRuntime
