import VllmRuntime.Model.CudagraphDispatcher

/-! The padding table has the least capture size for every number of tokens. -/

namespace VllmRuntime.Cudagraph

variable {sizes : List ℕ} {numTokens size : ℕ}

open List

lemma setSize_eq_ok {table : List ℕ} {bs : ℕ} (h : bs < table.length) (size : ℕ) :
    setSize table bs size = .ok (table.set bs size) := if_pos h

lemma foldlM_setSize (f : ℕ → ℕ) (n : ℕ) {first : ℕ} {table : List ℕ} (h : first + n ≤ table.length) :
    ∃ table', (range' first n).foldlM (fun table bs => setSize table bs (f bs)) table = .ok table' ∧
      table'.length = table.length ∧
      ∀ bs, table'[bs]? = if first ≤ bs ∧ bs < first + n then some (f bs) else table[bs]? := by
  induction n generalizing first table with
  | zero =>
    refine ⟨table, rfl, rfl, fun bs => ?_⟩
    rw [if_neg (by omega)]
  | succ n ih =>
    have hset := setSize_eq_ok (by omega : first < table.length) (f first)
    obtain ⟨table', hfold, hlength, hentries⟩ :=
      @ih (first + 1) (table.set first (f first)) (by rw [length_set]; omega)
    refine ⟨table', ?_, by rw [hlength, length_set], fun bs => ?_⟩
    · rw [range'_succ, foldlM_cons, hset]
      exact hfold
    · rw [hentries, getElem?_set]
      by_cases hfirst : bs = first
      · subst hfirst
        rw [if_neg (by omega), if_pos rfl, if_pos (by omega), if_pos (by omega)]
      · rw [if_neg (Ne.symm hfirst)]
        congr 1
        rw [eq_iff_iff]
        omega

lemma padRange_spec {table : List ℕ} (start : ℕ) {stop : ℕ} (h : stop ≤ table.length) :
    ∃ table', padRange table start stop = .ok table' ∧ table'.length = table.length ∧
      ∀ bs, table'[bs]? =
        if start ≤ bs ∧ bs < stop then some (if bs = start then start else stop) else table[bs]? := by
  by_cases hle : start ≤ stop
  · have hfold := foldlM_setSize (fun bs => if bs = start then start else stop) (stop - start)
      (by omega : start + (stop - start) ≤ table.length)
    rwa [Nat.add_sub_cancel' hle] at hfold
  · refine ⟨table, ?_, rfl, fun bs => ?_⟩
    · rw [padRange, Nat.sub_eq_zero_of_le (by omega)]
      rfl
    · rw [if_neg (by omega)]

/-- The least of the sizes in order that has room for so many tokens. -/
def leastSize (sizes : List ℕ) (numTokens : ℕ) : Option ℕ := sizes.find? (numTokens ≤ ·)

lemma leastSize_isLeast (hsorted : sizes.Pairwise (· < ·)) (h : leastSize sizes numTokens = some size) :
    IsLeast {s | s ∈ sizes ∧ numTokens ≤ s} size := by
  induction sizes with
  | nil => cases h
  | cons first sizes ih =>
    rw [pairwise_cons] at hsorted
    rw [leastSize, find?_cons] at h
    by_cases hfirst : numTokens ≤ first
    · rw [decide_eq_true hfirst] at h
      cases h
      refine ⟨⟨mem_cons_self, hfirst⟩, fun s hs => ?_⟩
      rcases mem_cons.mp hs.1 with rfl | hmem
      · exact le_refl _
      · exact (hsorted.1 s hmem).le
    · rw [decide_eq_false hfirst] at h
      obtain ⟨⟨hmem, hle⟩, hleast⟩ := ih hsorted.2 h
      refine ⟨⟨mem_cons_of_mem first hmem, hle⟩, fun s hs => ?_⟩
      rcases mem_cons.mp hs.1 with rfl | hmem'
      · exact absurd hs.2 hfirst
      · exact hleast ⟨hmem', hs.2⟩

/-- The rest of the loop, from a size on. -/
lemma foldlM_padRange {start maxSize : ℕ} (table : List ℕ) (hlength : table.length = maxSize + 1)
    (hsorted : (start :: sizes).Pairwise (· < ·)) (hle : ∀ s ∈ start :: sizes, s ≤ maxSize) :
    ∃ table', ((sizes ++ [maxSize + 1]).zip (start :: sizes)).foldlM
        (fun table range => padRange table range.2 range.1) table = .ok table' ∧
      table'.length = maxSize + 1 ∧
      ∀ bs ≤ maxSize, table'[bs]? =
        if bs < start then table[bs]? else if bs = start then some start
        else some ((leastSize sizes bs).getD (maxSize + 1)) := by
  induction sizes generalizing start table with
  | nil =>
    obtain ⟨table', hpad, hlength', hentries⟩ :=
      padRange_spec start (by omega : maxSize + 1 ≤ table.length)
    refine ⟨table', ?_, by omega, fun bs hbs => ?_⟩
    · simp [hpad]
    · rw [hentries]
      by_cases hlt : bs < start
      · rw [if_neg (by omega), if_pos hlt]
      · rw [if_pos (by omega), if_neg hlt]
        split <;> rfl
  | cons size sizes ih =>
    obtain ⟨hfirst, hrest⟩ := pairwise_cons.mp hsorted
    rw [forall_mem_cons] at hle
    have hstart := hfirst size mem_cons_self
    have hsize := hle.2 size mem_cons_self
    obtain ⟨table₁, hpad, hlength₁, hentries₁⟩ :=
      padRange_spec start (by omega : size ≤ table.length)
    obtain ⟨table', hfold, hlength', hentries⟩ := ih _ (hlength₁.trans hlength) hrest hle.2
    refine ⟨table', ?_, hlength', fun bs hbs => ?_⟩
    · rw [cons_append, zip_cons_cons, foldlM_cons, hpad]
      exact hfold
    · rw [hentries bs hbs, hentries₁, leastSize, leastSize, find?_cons]
      rcases Nat.lt_trichotomy bs size with hlt | rfl | hgt
      · rw [if_pos hlt, decide_eq_true hlt.le]
        by_cases hbefore : bs < start
        · rw [if_neg (by omega), if_pos hbefore]
        · rw [if_pos (by omega), if_neg hbefore]
          split <;> rfl
      · rw [if_neg (by omega), if_pos rfl, if_neg (by omega), if_neg (by omega), decide_eq_true (le_refl bs)]
        rfl
      · rw [if_neg (by omega), if_neg (by omega), if_neg (by omega), if_neg (by omega),
          decide_eq_false (by omega)]

/-- A configuration with capture sizes in order, the largest of which is the maximum. -/
structure CompilationConfig.Sizes (config : CompilationConfig) : Prop where
  sorted : config.cudagraphCaptureSizes.Pairwise (· < ·)
  pos : ∀ size ∈ config.cudagraphCaptureSizes, 0 < size
  last : config.cudagraphCaptureSizes.getLast? = some config.maxCudagraphCaptureSize

variable {config : CompilationConfig}

lemma CompilationConfig.Sizes.le_max (h : config.Sizes) :
    ∀ size ∈ config.cudagraphCaptureSizes, size ≤ config.maxCudagraphCaptureSize := by
  obtain ⟨front, hfront⟩ := getLast?_eq_some_iff.mp h.last
  have hsorted := h.sorted
  rw [hfront, pairwise_append] at hsorted
  intro size hsize
  rw [hfront, mem_append, mem_singleton] at hsize
  rcases hsize with hsize | rfl
  · exact (hsorted.2.2 size hsize _ (mem_singleton_self _)).le
  · exact le_refl _

lemma CompilationConfig.Sizes.max_mem (h : config.Sizes) :
    config.maxCudagraphCaptureSize ∈ config.cudagraphCaptureSizes := mem_of_getLast? h.last

lemma CompilationConfig.Sizes.leastSize_isSome (h : config.Sizes)
    (hle : numTokens ≤ config.maxCudagraphCaptureSize) :
    ∃ size, leastSize config.cudagraphCaptureSizes numTokens = some size := by
  rw [← Option.isSome_iff_exists, leastSize, find?_isSome]
  exact ⟨_, h.max_mem, by simpa using hle⟩

/-- The table is computed, and every number of tokens is padded to the least capture size. -/
lemma CompilationConfig.Sizes.table (h : config.Sizes) :
    ∃ table, computeBsToPaddedGraphSize config.cudagraphCaptureSizes config.maxCudagraphCaptureSize = .ok table ∧
      ∀ numTokens, 0 < numTokens → numTokens ≤ config.maxCudagraphCaptureSize →
        ∃ size, table[numTokens]? = some size ∧
          IsLeast {s | s ∈ config.cudagraphCaptureSizes ∧ numTokens ≤ s} size := by
  have hsorted : (0 :: config.cudagraphCaptureSizes).Pairwise (· < ·) :=
    pairwise_cons.mpr ⟨h.pos, h.sorted⟩
  have hle : ∀ s ∈ 0 :: config.cudagraphCaptureSizes, s ≤ config.maxCudagraphCaptureSize :=
    forall_mem_cons.mpr ⟨Nat.zero_le _, h.le_max⟩
  obtain ⟨table, htable, -, hentries⟩ := foldlM_padRange
    (List.replicate (config.maxCudagraphCaptureSize + 1) 0) length_replicate hsorted hle
  refine ⟨table, htable, fun numTokens hpos hmax => ?_⟩
  obtain ⟨size, hsize⟩ := h.leastSize_isSome hmax
  refine ⟨size, ?_, leastSize_isLeast h.sorted hsize⟩
  rw [hentries numTokens hmax, if_neg (by omega), if_neg (by omega), hsize]
  rfl

/-! ## Speculative decoding -/

lemma le_roundUp (size : ℕ) {multipleOf : ℕ} (hpos : 0 < multipleOf) : size ≤ roundUp size multipleOf :=
  le_cdiv_mul size hpos

lemma mem_sortedSet : size ∈ sortedSet sizes ↔ size ∈ sizes := by
  rw [sortedSet, mem_insertionSort, mem_dedup]

lemma sortedSet_sorted (sizes : List ℕ) : (sortedSet sizes).Pairwise (· < ·) := by
  have hle := pairwise_insertionSort (· ≤ ·) sizes.dedup
  have hnodup := (perm_insertionSort (· ≤ ·) sizes.dedup).nodup_iff.mpr sizes.nodup_dedup
  exact hle.imp₂ (fun _ _ => lt_of_le_of_ne) hnodup

/-- The sizes that are left are multiples of the query length. -/
lemma adjusted_sizes {uniformDecodeQueryLen tensorParallelSize : ℕ} {adjusted : CompilationConfig}
    (h : config.Sizes) (hquery : 0 < uniformDecodeQueryLen)
    (hadjust : config.adjustCudagraphSizesForSpecDecode uniformDecodeQueryLen tensorParallelSize = .ok adjusted) :
    adjusted.Sizes ∧ ∀ size ∈ adjusted.cudagraphCaptureSizes, uniformDecodeQueryLen ∣ size := by
  unfold CompilationConfig.adjustCudagraphSizesForSpecDecode at hadjust
  dsimp only at hadjust
  obtain ⟨multipleOf, hmultiple⟩ : ∃ multipleOf, multipleOf =
    if decide (1 < tensorParallelSize) && config.enableSp then max uniformDecodeQueryLen tensorParallelSize
    else uniformDecodeQueryLen := ⟨_, rfl⟩
  rw [← hmultiple] at hadjust
  have hle : uniformDecodeQueryLen ≤ multipleOf := by
    rw [hmultiple]
    split
    · exact le_max_left _ _
    · exact le_refl _
  split at hadjust
  · cases hadjust
  · rename_i hno
    have hdvd : uniformDecodeQueryLen ∣ multipleOf := by
      by_cases hparallel : (decide (1 < tensorParallelSize) && config.enableSp) = true
      · by_contra hnot
        exact hno ⟨hparallel, .inl fun hmod => hnot (Nat.dvd_of_mod_eq_zero hmod)⟩
      · rw [hmultiple, if_neg hparallel]
    split at hadjust
    · rename_i hkeep
      cases hadjust
      refine ⟨h, fun size _ => ?_⟩
      rcases hkeep with hnil | hone
      · have hlast := h.last
        rw [hnil] at hlast
        cases hlast
      · obtain rfl : uniformDecodeQueryLen = 1 := by omega
        exact one_dvd size
    · rename_i hround
      have hpos : 0 < multipleOf := by omega
      obtain ⟨rounded, hrounded⟩ : ∃ rounded, rounded =
        (config.cudagraphCaptureSizes.map (roundUp · multipleOf)).filter (· ≤ config.maxCudagraphCaptureSize) :=
        ⟨_, rfl⟩
      rw [← hrounded] at hadjust
      obtain ⟨sizes, hsizes⟩ : ∃ sizes, sizes =
        if sortedSet rounded = [] ∧ multipleOf ≤ config.maxCudagraphCaptureSize then [multipleOf]
        else sortedSet rounded := ⟨_, rfl⟩
      rw [← hsizes] at hadjust
      have hmultiples : ∀ size ∈ sizes, multipleOf ∣ size ∧ 0 < size := by
        intro size hsize
        rw [hsizes] at hsize
        split at hsize
        · rw [mem_singleton.mp hsize]
          exact ⟨dvd_refl _, hpos⟩
        · rw [mem_sortedSet, hrounded, mem_filter, mem_map] at hsize
          obtain ⟨⟨original, horiginal, rfl⟩, -⟩ := hsize
          have hle := le_roundUp original hpos
          have := h.pos original horiginal
          exact ⟨Nat.dvd_mul_left _ _, by omega⟩
      have hsorted : sizes.Pairwise (· < ·) := by
        rw [hsizes]
        split
        · exact pairwise_singleton _ _
        · exact sortedSet_sorted rounded
      cases hlast : sizes.getLast? with
      | none =>
        rw [hlast] at hadjust
        cases hadjust
      | some last =>
        rw [hlast] at hadjust
        cases hadjust
        exact ⟨⟨hsorted, fun size hsize => (hmultiples size hsize).2, hlast⟩,
          fun size hsize => hdvd.trans (hmultiples size hsize).1⟩

end VllmRuntime.Cudagraph
