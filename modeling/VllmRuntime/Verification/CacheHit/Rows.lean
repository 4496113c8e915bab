import VllmRuntime.Model.CacheHit

/-! # The rows each attention type finds

A scan returns at most the asked length, cut at an aligned position, and every row that later
attention steps read is a row of cached blocks. -/

namespace VllmRuntime

open List

/-! ## Alignment -/

lemma alignedLength_le (blockSize alignmentTokens n : ℕ) :
    alignedLength blockSize alignmentTokens n ≤ n := by
  induction n with
  | zero => simp [alignedLength]
  | succ n ih =>
    rw [alignedLength]
    split <;> omega

lemma dvd_alignedLength (blockSize alignmentTokens n : ℕ) :
    alignmentTokens ∣ alignedLength blockSize alignmentTokens n * blockSize := by
  induction n with
  | zero => simp [alignedLength]
  | succ n ih =>
    rw [alignedLength]
    split
    · exact ih
    · rename_i h
      rw [not_and_or, not_not, not_not] at h
      rcases h with h | h
      · exact h ▸ Dvd.intro_left (n + 1) rfl
      · exact Nat.dvd_of_mod_eq_zero h

lemma dvd_of_not_misaligned {blockSize alignmentTokens n : ℕ}
    (h : ¬ (blockSize ≠ alignmentTokens ∧ n * blockSize % alignmentTokens ≠ 0)) :
    alignmentTokens ∣ n * blockSize := by
  rw [not_and_or, not_not, not_not] at h
  rcases h with h | h
  · exact h ▸ Dvd.intro_left n rfl
  · exact Nat.dvd_of_mod_eq_zero h

namespace CacheHit

variable {pool : BlockPool} {blockHashes : List BlockHash} {kvCacheGroupIds : List ℕ}
  {rows : List BlockRow} {blockSize alignmentTokens maxLength i start n window : ℕ} {useEagle : Bool}
  {spec : KVCacheSpec} {count attentionChunkSize : ℕ}

/-- The rows from index `start` on are the cached ones. -/
def CachedFrom (pool : BlockPool) (blockHashes : List BlockHash) (kvCacheGroupIds : List ℕ)
    (start : ℕ) (rows : List BlockRow) : Prop :=
  ∀ i, start ≤ i → i < rows.length →
    ∃ row, rowAt pool blockHashes kvCacheGroupIds i = some row ∧ rows[i]? = some row

section

variable (h : CachedFrom pool blockHashes kvCacheGroupIds start rows)
include h

lemma CachedFrom.mono {start' : ℕ} (hle : start ≤ start') :
    CachedFrom pool blockHashes kvCacheGroupIds start' rows :=
  fun i hi hlt => h i (hle.trans hi) hlt

lemma CachedFrom.take (n : ℕ) :
    CachedFrom pool blockHashes kvCacheGroupIds start (rows.take n) := by
  intro i hi hlt
  rw [length_take, lt_min_iff] at hlt
  obtain ⟨row, hrow, hget⟩ := h i hi hlt.2
  exact ⟨row, hrow, by rw [getElem?_take_of_lt hlt.1, hget]⟩

lemma CachedFrom.dropLast :
    CachedFrom pool blockHashes kvCacheGroupIds start rows.dropLast := by
  rw [dropLast_eq_take]
  exact h.take _

end

/-! ## Full attention -/

lemma cachedPrefix_spec (pool : BlockPool) (kvCacheGroupIds : List ℕ) (hashes : List BlockHash) :
    (cachedPrefix pool kvCacheGroupIds hashes).length ≤ hashes.length ∧
      CachedFrom pool hashes kvCacheGroupIds 0 (cachedPrefix pool kvCacheGroupIds hashes) := by
  induction hashes with
  | nil => simp [cachedPrefix, CachedFrom]
  | cons hash hashes ih =>
    rw [cachedPrefix]
    cases hrow : pool.getCachedBlock hash kvCacheGroupIds with
    | none => simp [CachedFrom]
    | some row =>
      refine ⟨by simpa using ih.1, ?_⟩
      intro i _ hi
      cases i with
      | zero => exact ⟨row, by simpa [rowAt] using hrow, by simp⟩
      | succ i =>
        obtain ⟨row', hrow', hget⟩ := ih.2 i (Nat.zero_le _) (by simpa using hi)
        exact ⟨row', by simpa [rowAt] using hrow', by simpa using hget⟩

lemma CachedFrom.of_take (hn : rows.length ≤ n)
    (h : CachedFrom pool (blockHashes.take n) kvCacheGroupIds start rows) :
    CachedFrom pool blockHashes kvCacheGroupIds start rows := by
  intro i hi hlt
  obtain ⟨row, hrow, hget⟩ := h i hi hlt
  refine ⟨row, ?_, hget⟩
  rw [rowAt, getElem?_take_of_lt (by omega)] at hrow
  exact hrow

lemma aligned_take_length (blockSize alignmentTokens : ℕ) (rows : List BlockRow) :
    (rows.take (alignedLength blockSize alignmentTokens rows.length)).length =
      alignedLength blockSize alignmentTokens rows.length := by
  rw [length_take]
  exact Nat.min_eq_left (alignedLength_le _ _ _)

/-- What a scan up to `maxLength` returns; `needed` is the first index, given the number of
rows, that has to be cached. -/
structure Scanned (pool : BlockPool) (blockHashes : List BlockHash) (kvCacheGroupIds : List ℕ)
    (maxLength blockSize alignmentTokens : ℕ) (needed : ℕ → ℕ) (rows : List BlockRow) :
    Prop where
  le : rows.length * blockSize ≤ maxLength
  aligned : alignmentTokens ∣ rows.length * blockSize
  cached : CachedFrom pool blockHashes kvCacheGroupIds (needed rows.length) rows

/-- The rows of full attention are cached from the first one on. -/
lemma fullAttention_scanned (maxLength blockSize : ℕ) (useEagle : Bool) (alignmentTokens : ℕ) :
    Scanned pool blockHashes kvCacheGroupIds maxLength blockSize alignmentTokens (fun _ => 0)
      (fullAttention pool blockHashes kvCacheGroupIds maxLength blockSize useEagle
        alignmentTokens) := by
  obtain ⟨hlen, hcached⟩ := cachedPrefix_spec pool kvCacheGroupIds
    (blockHashes.take (maxLength / blockSize))
  rw [length_take] at hlen
  set found := cachedPrefix pool kvCacheGroupIds (blockHashes.take (maxLength / blockSize))
  replace hcached : CachedFrom pool blockHashes kvCacheGroupIds 0 found :=
    hcached.of_take (hlen.trans (min_le_left _ _))
  set kept := if useEagle then found.dropLast else found with hkept
  have hkeptLen : kept.length ≤ found.length := by
    rw [hkept]
    split <;> simp
  have hkeptCached : CachedFrom pool blockHashes kvCacheGroupIds 0 kept := by
    rw [hkept]
    split
    · exact hcached.dropLast
    · exact hcached
  change Scanned _ _ _ _ _ _ _ (kept.take (alignedLength blockSize alignmentTokens kept.length))
  refine ⟨?_, ?_, hkeptCached.take _⟩
  · rw [aligned_take_length]
    have hle := alignedLength_le blockSize alignmentTokens kept.length
    calc
      _ ≤ maxLength / blockSize * blockSize := Nat.mul_le_mul_right _ (by omega)
      _ ≤ maxLength := Nat.div_mul_le_self _ _
  · rw [aligned_take_length]
    exact dvd_alignedLength _ _ _

/-! ## Sliding window -/

/-- The rows `[i, i + numContiguousBlocks)` are cached and, if there are any, end at an aligned
position. -/
structure Contiguous (pool : BlockPool) (blockHashes : List BlockHash) (kvCacheGroupIds : List ℕ)
    (blockSize alignmentTokens i numContiguousBlocks : ℕ) (rows : List BlockRow) : Prop where
  bound : i + numContiguousBlocks ≤ rows.length
  aligned : 0 < numContiguousBlocks → alignmentTokens ∣ (i + numContiguousBlocks) * blockSize
  cached : ∀ j, i ≤ j → j < i + numContiguousBlocks →
    ∃ row, rowAt pool blockHashes kvCacheGroupIds j = some row ∧ rows[j]? = some row

lemma Contiguous.reset
    (h : Contiguous pool blockHashes kvCacheGroupIds blockSize alignmentTokens (i + 1) n rows) :
    Contiguous pool blockHashes kvCacheGroupIds blockSize alignmentTokens i 0 rows := by
  refine ⟨by have := h.bound; omega, by simp, ?_⟩
  intro j hj hlt
  omega

lemma Contiguous.extend {row : BlockRow}
    (h : Contiguous pool blockHashes kvCacheGroupIds blockSize alignmentTokens (i + 1) n rows)
    (hrow : rowAt pool blockHashes kvCacheGroupIds i = some row)
    (haligned : n = 0 → alignmentTokens ∣ (i + 1) * blockSize) :
    Contiguous pool blockHashes kvCacheGroupIds blockSize alignmentTokens i (n + 1)
      (rows.set i row) := by
  have hbound := h.bound
  refine ⟨by rw [length_set]; omega, ?_, ?_⟩
  · intro _
    rcases Nat.eq_zero_or_pos n with rfl | hpos
    · exact haligned rfl
    · have := h.aligned hpos
      rwa [show i + (n + 1) = i + 1 + n by omega]
  · intro j hj hlt
    rcases Nat.eq_or_lt_of_le hj with rfl | hij
    · exact ⟨row, hrow, by rw [getElem?_set_self (by omega)]⟩
    · obtain ⟨row', hrow', hget⟩ := h.cached j hij (by omega)
      exact ⟨row', hrow', by rw [getElem?_set_ne (by omega), hget]⟩

/-- The loop ends with enough contiguous rows, or with the contiguous rows at the front. -/
lemma slidingWindowLoop_spec (needed blockSize alignmentTokens i n : ℕ) (rows : List BlockRow)
    (h : Contiguous pool blockHashes kvCacheGroupIds blockSize alignmentTokens i n rows) :
    let result := slidingWindowLoop pool blockHashes kvCacheGroupIds needed blockSize
      alignmentTokens i n rows
    if result.2.2 then
      ∃ start found, 0 < found ∧ needed ≤ found ∧ result.1.length = start + found ∧
        Contiguous pool blockHashes kvCacheGroupIds blockSize alignmentTokens start found
          result.1 ∧ start + found ≤ rows.length
    else
      Contiguous pool blockHashes kvCacheGroupIds blockSize alignmentTokens 0 result.2.1
        result.1 ∧ result.1.length = rows.length := by
  induction i generalizing n rows with
  | zero => simpa [slidingWindowLoop] using h
  | succ i ih =>
    rw [slidingWindowLoop]
    cases hrow : rowAt pool blockHashes kvCacheGroupIds i with
    | none => exact ih 0 rows h.reset
    | some row =>
      dsimp only
      split
      · rename_i hskip
        rw [hskip.1]
        exact ih 0 rows h.reset
      · rename_i hskip
        have haligned : n = 0 → alignmentTokens ∣ (i + 1) * blockSize := by
          intro hn
          apply dvd_of_not_misaligned
          exact fun hmis => hskip ⟨hn, hmis⟩
        have hext := h.extend hrow haligned
        split
        · rename_i hfound
          have hbound := hext.bound
          rw [length_set] at hbound
          simp only [if_true]
          refine ⟨i, n + 1, Nat.succ_pos n, hfound, ?_, ⟨?_, hext.aligned, ?_⟩, hbound⟩
          · rw [length_take, length_set]
            omega
          · rw [length_take, length_set]
            omega
          · intro j hj hlt
            obtain ⟨row', hrow', hget⟩ := hext.cached j hj hlt
            exact ⟨row', hrow', by rw [getElem?_take_of_lt hlt, hget]⟩
        · have hrec := ih (n + 1) (rows.set i row) hext
          simpa only [length_set] using hrec

/-- The rows of the window end with enough cached ones, or are all cached. -/
lemma slidingWindowRows_scanned (pool : BlockPool) (blockHashes : List BlockHash)
    (kvCacheGroupIds : List ℕ) (maxNumBlocks blockSize window : ℕ)
    (useEagle : Bool) (alignmentTokens : ℕ) :
    Scanned pool blockHashes kvCacheGroupIds (maxNumBlocks * blockSize) blockSize alignmentTokens
      (fun n => n - (cdiv (window - 1) blockSize + if useEagle then 1 else 0))
      (slidingWindowRows pool blockHashes kvCacheGroupIds maxNumBlocks blockSize window useEagle
        alignmentTokens) := by
  set needed := cdiv (window - 1) blockSize + if useEagle then 1 else 0 with hneeded
  set start := List.replicate maxNumBlocks
    (List.replicate kvCacheGroupIds.length pool.nullBlock) with hstart
  have hinit : Contiguous pool blockHashes kvCacheGroupIds blockSize alignmentTokens
      maxNumBlocks 0 start := by
    refine ⟨by simp [hstart], by simp, ?_⟩
    intro j hj hlt
    omega
  have hloop := slidingWindowLoop_spec needed blockSize alignmentTokens maxNumBlocks 0 start hinit
  unfold slidingWindowRows
  simp only [← hneeded, ← hstart]
  set result := slidingWindowLoop pool blockHashes kvCacheGroupIds needed blockSize
    alignmentTokens maxNumBlocks 0 start
  have hlen : start.length = maxNumBlocks := by simp [hstart]
  by_cases hfound : result.2.2 = true
  · simp only [hfound, if_true] at hloop ⊢
    obtain ⟨first, found, hpos, henough, hrows, hcont, hbound⟩ := hloop
    refine ⟨?_, ?_, ?_⟩
    · exact Nat.mul_le_mul_right _ (by omega)
    · rw [hrows]
      exact hcont.aligned hpos
    · intro i hi hlt
      exact hcont.cached i (by omega) (by omega)
  · simp only [hfound, Bool.false_eq_true, if_false] at hloop ⊢
    obtain ⟨hcont, hrows⟩ := hloop
    have hbound := hcont.bound
    have htake : (result.1.take result.2.1).length = result.2.1 := by
      rw [length_take]
      omega
    have hall : CachedFrom pool blockHashes kvCacheGroupIds 0 (result.1.take result.2.1) := by
      intro i _ hlt
      rw [htake] at hlt
      obtain ⟨row, hrow, hget⟩ := hcont.cached i (Nat.zero_le _) (by omega)
      exact ⟨row, hrow, by rw [getElem?_take_of_lt hlt, hget]⟩
    refine ⟨?_, ?_, (hall.take _).mono (Nat.zero_le _)⟩
    · rw [aligned_take_length]
      have hle := alignedLength_le blockSize alignmentTokens (result.1.take result.2.1).length
      exact Nat.mul_le_mul_right _ (by omega)
    · rw [aligned_take_length]
      exact dvd_alignedLength _ _ _

lemma slidingWindow_scanned
    (h : slidingWindow pool blockHashes kvCacheGroupIds maxLength blockSize window useEagle
      alignmentTokens = .ok rows) :
    Scanned pool blockHashes kvCacheGroupIds maxLength blockSize alignmentTokens
      (fun n => n - cdiv (window - 1) blockSize) rows := by
  have hscan := slidingWindowRows_scanned pool blockHashes kvCacheGroupIds (maxLength / blockSize)
    blockSize window useEagle alignmentTokens
  unfold slidingWindow at h
  simp only at h
  split at h
  · cases h
  · set found := slidingWindowRows pool blockHashes kvCacheGroupIds (maxLength / blockSize)
      blockSize window useEagle alignmentTokens
    have hle : found.length * blockSize ≤ maxLength := hscan.le.trans (Nat.div_mul_le_self _ _)
    split at h
    · rename_i heagle
      obtain ⟨_, hassert, hret⟩ := bind_eq_ok h
      have hsize : blockSize = alignmentTokens := by simpa using pyAssert_eq_ok.mp hassert
      cases hret
      have hcached := hscan.cached
      simp only [heagle.1, if_true] at hcached
      refine ⟨?_, hsize ▸ Dvd.intro_left _ rfl, ?_⟩
      · refine le_trans (Nat.mul_le_mul_right _ ?_) hle
        simp
      · apply hcached.dropLast.mono
        rw [length_dropLast]
        omega
    · rename_i hnot
      obtain rfl := Except.ok.inj h
      refine ⟨hle, hscan.aligned, ?_⟩
      by_cases heagle : useEagle = true
      · have hnil : found = [] := by
          by_contra hne
          exact hnot ⟨heagle, hne⟩
        rw [hnil]
        intro i _ hlt
        simp at hlt
      · have hcached := hscan.cached
        simpa [heagle] using hcached

/-! ## Chunked local attention -/

lemma chunkedLocalLoop_spec (h : chunkedLocalLoop pool blockHashes kvCacheGroupIds count i = .ok rows) :
    rows.length ≤ count ∧
      (∀ j < rows.length, ∃ row, rowAt pool blockHashes kvCacheGroupIds (i + j) = some row ∧
        rows[j]? = some row) ∧
      (rows.length < count → rowAt pool blockHashes kvCacheGroupIds (i + rows.length) = none) := by
  induction count generalizing i rows with
  | zero =>
    cases h
    simp
  | succ count ih =>
    rw [chunkedLocalLoop] at h
    cases hhash : blockHashes[i]? with
    | none => simp [hhash] at h
    | some hash =>
      simp only [hhash] at h
      cases hrow : pool.getCachedBlock hash kvCacheGroupIds with
      | none =>
        simp only [hrow] at h
        cases h
        simp [rowAt, hhash, hrow]
      | some row =>
        simp only [hrow] at h
        obtain ⟨rest, hrest, rfl⟩ := map_eq_ok h
        obtain ⟨hle, hcached, hstop⟩ := ih hrest
        refine ⟨by simpa using hle, ?_, ?_⟩
        · intro j hj
          cases j with
          | zero => exact ⟨row, by simp [rowAt, hhash, hrow], by simp⟩
          | succ j =>
            obtain ⟨row', hrow', hget⟩ := hcached j (by simpa using hj)
            refine ⟨row', ?_, by simpa using hget⟩
            rw [show i + (j + 1) = i + 1 + j by omega]
            exact hrow'
        · intro hlt
          rw [length_cons, show i + (rest.length + 1) = i + 1 + rest.length by omega]
          exact hstop (by simpa using hlt)

/-- The block in which the chunk of the last of `maxLength` tokens starts. -/
def localAttentionStartBlockIdx (maxLength blockSize attentionChunkSize : ℕ) : ℕ :=
  maxLength / attentionChunkSize * attentionChunkSize / blockSize

/-- The rows are cached from the start of the chunk of `maxLength`, which is not always the
start of the chunk of the returned length. -/
lemma chunkedLocalAttention_spec
    (h : chunkedLocalAttention pool blockHashes kvCacheGroupIds maxLength blockSize
      attentionChunkSize alignmentTokens = .ok rows) :
    Scanned pool blockHashes kvCacheGroupIds maxLength blockSize alignmentTokens
        (fun _ => localAttentionStartBlockIdx maxLength blockSize attentionChunkSize) rows ∧
      blockSize = alignmentTokens ∧
      localAttentionStartBlockIdx maxLength blockSize attentionChunkSize ≤ rows.length ∧
      (∀ i < localAttentionStartBlockIdx maxLength blockSize attentionChunkSize,
        rows[i]? = some (List.replicate kvCacheGroupIds.length pool.nullBlock)) ∧
      (rows.length < maxLength / blockSize →
        rowAt pool blockHashes kvCacheGroupIds rows.length = none) := by
  unfold chunkedLocalAttention at h
  obtain ⟨_, hassert, hrest⟩ := bind_eq_ok h
  have hsize : blockSize = alignmentTokens := by simpa using pyAssert_eq_ok.mp hassert
  obtain ⟨rest, hloop, hret⟩ := bind_eq_ok hrest
  have hrows : rows = List.replicate
      (localAttentionStartBlockIdx maxLength blockSize attentionChunkSize)
      (List.replicate kvCacheGroupIds.length pool.nullBlock) ++ rest :=
    (Except.ok.inj hret).symm
  change chunkedLocalLoop pool blockHashes kvCacheGroupIds
    (maxLength / blockSize - localAttentionStartBlockIdx maxLength blockSize attentionChunkSize)
    (localAttentionStartBlockIdx maxLength blockSize attentionChunkSize) = .ok rest at hloop
  have hstart : localAttentionStartBlockIdx maxLength blockSize attentionChunkSize ≤
      maxLength / blockSize := Nat.div_le_div_right (Nat.div_mul_le_self _ _)
  set start := localAttentionStartBlockIdx maxLength blockSize attentionChunkSize
  obtain ⟨hle, hcached, hstop⟩ := chunkedLocalLoop_spec hloop
  have hlen : rows.length = start + rest.length := by simp [hrows]
  refine ⟨⟨?_, hsize ▸ Dvd.intro_left _ rfl, ?_⟩, hsize, by omega, ?_, ?_⟩
  · rw [hlen]
    calc
      _ ≤ maxLength / blockSize * blockSize := Nat.mul_le_mul_right _ (by omega)
      _ ≤ maxLength := Nat.div_mul_le_self _ _
  · intro i hi hlt
    rw [hlen] at hlt
    obtain ⟨row, hrow, hget⟩ := hcached (i - start) (by omega)
    rw [Nat.add_sub_of_le hi] at hrow
    refine ⟨row, hrow, ?_⟩
    rw [hrows, getElem?_append_right (by simpa using hi)]
    simpa using hget
  · intro i hi
    rw [hrows, getElem?_append_left (by simpa using hi)]
    simp [hi]
  · intro hlt
    rw [hlen] at hlt ⊢
    exact hstop (by omega)

/-! ## Mamba -/

/-- The last row is the cached state. -/
lemma mambaLoop_scanned (pool : BlockPool) (blockHashes : List BlockHash)
    (kvCacheGroupIds : List ℕ) (blockSize alignmentTokens n : ℕ) :
    Scanned pool blockHashes kvCacheGroupIds (n * blockSize) blockSize alignmentTokens
      (fun n => n - 1) (mambaLoop pool blockHashes kvCacheGroupIds blockSize alignmentTokens n) := by
  induction n with
  | zero => exact ⟨by simp [mambaLoop], by simp [mambaLoop], by simp [mambaLoop, CachedFrom]⟩
  | succ n ih =>
    have hskip : Scanned pool blockHashes kvCacheGroupIds ((n + 1) * blockSize) blockSize
        alignmentTokens (fun n => n - 1)
        (mambaLoop pool blockHashes kvCacheGroupIds blockSize alignmentTokens n) :=
      ⟨ih.le.trans (Nat.mul_le_mul_right _ (Nat.le_succ n)), ih.aligned, ih.cached⟩
    rw [mambaLoop]
    cases hrow : rowAt pool blockHashes kvCacheGroupIds n with
    | none => exact hskip
    | some row =>
      dsimp only
      split
      · exact hskip
      · rename_i haligned
        refine ⟨by simp, ?_, ?_⟩
        · simpa using dvd_of_not_misaligned haligned
        · intro i hi hlt
          simp only [length_append, length_replicate, length_singleton,
            Nat.add_sub_cancel] at hi hlt
          obtain rfl : i = n := by omega
          exact ⟨row, hrow, by rw [getElem?_append_right (by simp)]; simp⟩

lemma mamba_scanned
    (h : mamba pool blockHashes kvCacheGroupIds maxLength blockSize alignmentTokens = .ok rows) :
    Scanned pool blockHashes kvCacheGroupIds maxLength blockSize alignmentTokens
      (fun n => n - 1) rows := by
  unfold mamba at h
  simp only at h
  split at h
  · cases h
  · cases h
    have hscan := mambaLoop_scanned pool blockHashes kvCacheGroupIds blockSize alignmentTokens
      (maxLength / blockSize)
    exact ⟨hscan.le.trans (Nat.div_mul_le_self _ _), hscan.aligned, hscan.cached⟩

/-! ## All attention types -/

/-- The rows that a request with `hitLength` computed tokens still reads are cached. -/
def NeededCached (pool : BlockPool) (blockHashes : List BlockHash) (kvCacheGroupIds : List ℕ)
    (spec : KVCacheSpec) (hitLength : ℕ) (rows : List BlockRow) : Prop :=
  ∀ i : ℕ, spec.getNumSkippedTokens hitLength / spec.blockSize ≤ (i : ℤ) → i < rows.length →
    ∃ row, rowAt pool blockHashes kvCacheGroupIds i = some row ∧ rows[i]? = some row

lemma CachedFrom.neededCached {hitLength : ℕ}
    (h : CachedFrom pool blockHashes kvCacheGroupIds start rows)
    (hstart : ∀ i : ℕ, spec.getNumSkippedTokens hitLength / spec.blockSize ≤ (i : ℤ) →
      i < rows.length → start ≤ i) :
    NeededCached pool blockHashes kvCacheGroupIds spec hitLength rows :=
  fun i hi hlt => h i (hstart i hi hlt) hlt

lemma slidingWindow_first_needed (hsize : 0 < blockSize)
    (h : max 0 (((n * blockSize : ℕ) : ℤ) - window + 1) / (blockSize : ℤ) ≤ (i : ℤ)) :
    n - cdiv (window - 1) blockSize ≤ i := by
  have hlt := (le_max_right _ _).trans_lt
    ((Int.ediv_lt_iff_lt_mul (by exact_mod_cast hsize)).mp (Int.lt_add_one_of_le h))
  have hwindow := le_cdiv_mul (window - 1) hsize
  set k := cdiv (window - 1) blockSize
  have hlt' : n * blockSize < (k + (i + 1)) * blockSize := by
    have : (n * blockSize : ℕ) + 1 < (i + 1) * blockSize + window := by
      zify
      push_cast at hlt
      linarith
    rw [Nat.add_mul]
    omega
  have := Nat.lt_of_mul_lt_mul_right hlt'
  omega

lemma mamba_first_needed (hsize : 0 < blockSize)
    (h : (((n * blockSize : ℕ) : ℤ) - 1) / (blockSize : ℤ) ≤ (i : ℤ)) : n - 1 ≤ i := by
  have hlt := (Int.ediv_lt_iff_lt_mul (by exact_mod_cast hsize)).mp (Int.lt_add_one_of_le h)
  have hle : n * blockSize ≤ (i + 1) * blockSize := by
    zify
    push_cast at hlt
    linarith
  have := Nat.le_of_mul_le_mul_right hle hsize
  omega

/-- Chunked local attention, whose scan depends on the chunk of the asked length. -/
def isChunked : KVCacheSpec → Bool
  | .chunkedLocalAttention _ _ => true
  | _ => false

/-- What a group finds fits in the asked length, ends at an aligned position and has the rows
that are read; for chunked local attention this is so when the length is accepted. -/
lemma rows_spec (hsize : 0 < spec.blockSize)
    (h : CacheHit.rows pool blockHashes kvCacheGroupIds maxLength spec useEagle alignmentTokens 1 1
      = .ok rows) :
    rows.length * spec.blockSize ≤ maxLength ∧
      alignmentTokens ∣ rows.length * spec.blockSize ∧
      (spec.isFullAttention → CachedFrom pool blockHashes kvCacheGroupIds 0 rows) ∧
      ((isChunked spec → rows.length * spec.blockSize = maxLength) →
        NeededCached pool blockHashes kvCacheGroupIds spec (rows.length * spec.blockSize) rows) := by
  cases spec with
  | slidingWindow attention window =>
    obtain ⟨_, -, h⟩ := bind_eq_ok h
    obtain ⟨_, -, h⟩ := bind_eq_ok h
    have hscan := slidingWindow_scanned h
    refine ⟨hscan.le, hscan.aligned, by simp [KVCacheSpec.isFullAttention], fun _ => ?_⟩
    exact hscan.cached.neededCached fun i hi _ => slidingWindow_first_needed hsize hi
  | chunkedLocalAttention attention chunkSize =>
    obtain ⟨_, -, h⟩ := bind_eq_ok h
    obtain ⟨_, -, h⟩ := bind_eq_ok h
    obtain ⟨_, -, h⟩ := bind_eq_ok h
    obtain ⟨hscan, -, -, -, -⟩ := chunkedLocalAttention_spec h
    refine ⟨hscan.le, hscan.aligned, by simp [KVCacheSpec.isFullAttention], fun hacc => ?_⟩
    apply hscan.cached.neededCached
    intro i hi _
    rw [hacc rfl] at hi
    simp only [KVCacheSpec.getNumSkippedTokens, KVCacheSpec.blockSize] at hi
    exact_mod_cast hi
  | mamba mambaSpec =>
    obtain ⟨_, -, h⟩ := bind_eq_ok h
    obtain ⟨_, -, h⟩ := bind_eq_ok h
    have hscan := mamba_scanned h
    refine ⟨hscan.le, hscan.aligned, by simp [KVCacheSpec.isFullAttention], fun _ => ?_⟩
    exact hscan.cached.neededCached fun i hi _ => mamba_first_needed hsize hi
  | crossAttention attention => cases h
  | fullAttention attention | mlaAttention attention dtype | sinkFullAttention attention sinkLen =>
    obtain rfl := Except.ok.inj h
    have hscan : Scanned pool blockHashes kvCacheGroupIds maxLength attention.blockSize alignmentTokens (fun _ => 0) _ :=
      fullAttention_scanned maxLength attention.blockSize useEagle alignmentTokens
    exact ⟨hscan.le, hscan.aligned, fun _ => hscan.cached,
      fun _ => hscan.cached.neededCached fun _ _ _ => Nat.zero_le _⟩

/-! ## Supported combinations -/

/-- The combinations for which the scans raise nothing: no cross-attention, and the block sizes
and the eagle flag that sliding window and chunked local attention assert. -/
def Supported (useEagle : Bool) (alignmentTokens : ℕ) : KVCacheSpec → Prop
  | .slidingWindow attention _ => useEagle = true → attention.blockSize = alignmentTokens
  | .chunkedLocalAttention attention _ =>
    useEagle = false ∧ attention.blockSize = alignmentTokens
  | .crossAttention _ => False
  | _ => True

lemma chunkedLocalLoop_ok (h : i + count ≤ blockHashes.length) :
    ∃ rows, chunkedLocalLoop pool blockHashes kvCacheGroupIds count i = .ok rows := by
  induction count generalizing i with
  | zero => exact ⟨[], rfl⟩
  | succ count ih =>
    rw [chunkedLocalLoop, getElem?_eq_getElem (by omega)]
    dsimp only
    cases pool.getCachedBlock blockHashes[i] kvCacheGroupIds with
    | none => exact ⟨[], rfl⟩
    | some row =>
      obtain ⟨rest, hrest⟩ := ih (show i + 1 + count ≤ blockHashes.length by omega)
      exact ⟨row :: rest, by rw [hrest]; rfl⟩

lemma slidingWindow_ok (hsupp : useEagle = true → blockSize = alignmentTokens)
    (hcover : maxLength / blockSize ≤ blockHashes.length) :
    ∃ rows, slidingWindow pool blockHashes kvCacheGroupIds maxLength blockSize window useEagle
      alignmentTokens = .ok rows := by
  have hnot : ¬ maxLength / blockSize > blockHashes.length := by omega
  unfold slidingWindow
  simp only [if_neg hnot]
  split
  · rename_i heagle
    rw [show decide (blockSize = alignmentTokens) = true by simpa using hsupp heagle.1]
    exact ⟨_, rfl⟩
  · exact ⟨_, rfl⟩

lemma chunkedLocalAttention_ok (hcover : maxLength / blockSize ≤ blockHashes.length) :
    ∃ rows, chunkedLocalAttention pool blockHashes kvCacheGroupIds maxLength blockSize
      attentionChunkSize blockSize = .ok rows := by
  set start := maxLength / attentionChunkSize * attentionChunkSize / blockSize with hstart
  have hle : start ≤ maxLength / blockSize := Nat.div_le_div_right (Nat.div_mul_le_self _ _)
  have hbound : start + (maxLength / blockSize - start) ≤ blockHashes.length := by omega
  obtain ⟨rest, hrest⟩ : ∃ rows, chunkedLocalLoop pool blockHashes kvCacheGroupIds
      (maxLength / blockSize - start) start = .ok rows := chunkedLocalLoop_ok hbound
  unfold chunkedLocalAttention
  simp only [← hstart, hrest, decide_true]
  exact ⟨_, rfl⟩

lemma rows_ok (hsupp : Supported useEagle alignmentTokens spec)
    (hcover : maxLength / spec.blockSize ≤ blockHashes.length) :
    ∃ rows, CacheHit.rows pool blockHashes kvCacheGroupIds maxLength spec useEagle
      alignmentTokens 1 1 = .ok rows := by
  cases spec with
  | slidingWindow attention window => exact slidingWindow_ok hsupp hcover
  | chunkedLocalAttention attention chunkSize =>
    obtain ⟨rfl, rfl⟩ := hsupp
    exact chunkedLocalAttention_ok hcover
  | mamba mambaSpec =>
    simp only [KVCacheSpec.blockSize] at hcover
    have hnot : ¬ maxLength / mambaSpec.blockSize > blockHashes.length := by omega
    unfold CacheHit.rows mamba
    simp only [if_neg hnot]
    exact ⟨_, rfl⟩
  | crossAttention attention => exact hsupp.elim
  | fullAttention attention => exact ⟨_, rfl⟩
  | mlaAttention attention dtype => exact ⟨_, rfl⟩
  | sinkFullAttention attention sinkLen => exact ⟨_, rfl⟩

end CacheHit

end VllmRuntime
