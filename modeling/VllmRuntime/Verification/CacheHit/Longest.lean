import Mathlib.Order.Bounds.Basic
import VllmRuntime.Verification.CacheHit.Found

/-! # The longest cache hit

Each scan returns the greatest length up to the asked one whose needed blocks are all cached. Lengths are counted
in blocks first: the four scans differ in the first block that a length needs. -/

namespace VllmRuntime

open List

/-! ## Alignment -/

/-- An aligned length is not popped. -/
lemma le_alignedLength {blockSize alignmentTokens m n : ℕ} (hdvd : alignmentTokens ∣ m * blockSize) (hle : m ≤ n) :
    m ≤ alignedLength blockSize alignmentTokens n := by
  induction n with
  | zero => exact hle
  | succ n ih =>
    rw [alignedLength]
    split
    · rename_i hmisaligned
      refine ih (Nat.le_of_lt_succ (lt_of_le_of_ne hle ?_))
      rintro rfl
      exact hmisaligned.2 (Nat.mod_eq_zero_of_dvd hdvd)
    · exact hle

namespace CacheHit

variable (pool : BlockPool) (blockHashes : List BlockHash) (kvCacheGroupIds : List ℕ)

/-- The blocks in an interval are cached for all groups. -/
def CachedBetween (first last : ℕ) : Prop :=
  ∀ i, first ≤ i → i < last → (rowAt pool blockHashes kvCacheGroupIds i).isSome

/-- The numbers of blocks that are a hit, if `needed n` is the first block that `n` blocks need. -/
def hitBlocks (maxLength blockSize alignmentTokens : ℕ) (needed : ℕ → ℕ) : Set ℕ :=
  {n | n * blockSize ≤ maxLength ∧ alignmentTokens ∣ n * blockSize ∧
    CachedBetween pool blockHashes kvCacheGroupIds (needed n) n}

variable {pool blockHashes kvCacheGroupIds} {blockSize n window i : ℕ} {length chunkSize : ℕ}
  {attention : AttentionSpec}

lemma CachedFrom.between {start : ℕ} {rows : List BlockRow}
    (h : CachedFrom pool blockHashes kvCacheGroupIds start rows) :
    CachedBetween pool blockHashes kvCacheGroupIds start rows.length := by
  intro i hi hlt
  obtain ⟨row, hrow, -⟩ := h i hi hlt
  rw [hrow]
  rfl

lemma Scanned.mem_hitBlocks {maxLength alignmentTokens : ℕ} {needed : ℕ → ℕ} {rows : List BlockRow}
    (h : Scanned pool blockHashes kvCacheGroupIds maxLength blockSize alignmentTokens needed rows) :
    rows.length ∈ hitBlocks pool blockHashes kvCacheGroupIds maxLength blockSize alignmentTokens needed :=
  ⟨h.le, h.aligned, h.cached.between⟩

/-! ## Full attention -/

lemma le_length_cachedPrefix {hashes : List BlockHash}
    (h : CachedBetween pool hashes kvCacheGroupIds 0 n) :
    n ≤ (cachedPrefix pool kvCacheGroupIds hashes).length := by
  induction hashes generalizing n with
  | nil =>
    cases n with
    | zero => exact le_rfl
    | succ n => exact absurd (h 0 le_rfl (Nat.succ_pos n)) (by simp [rowAt])
  | cons hash hashes ih =>
    cases n with
    | zero => exact Nat.zero_le _
    | succ n =>
      have hfirst := h 0 le_rfl (Nat.succ_pos n)
      obtain ⟨row, hrow⟩ := Option.isSome_iff_exists.1 hfirst
      have hget : pool.getCachedBlock hash kvCacheGroupIds = some row := by simpa [rowAt] using hrow
      rw [cachedPrefix, hget, length_cons]
      refine Nat.succ_le_succ (ih ?_)
      intro i _ hi
      simpa [rowAt] using h (i + 1) (Nat.zero_le _) (Nat.succ_lt_succ hi)

lemma fullAttention_greatest {maxLength : ℕ} (hpos : 0 < blockSize) (alignmentTokens : ℕ) :
    IsGreatest (hitBlocks pool blockHashes kvCacheGroupIds maxLength blockSize alignmentTokens fun _ => 0)
      (fullAttention pool blockHashes kvCacheGroupIds maxLength blockSize false alignmentTokens).length := by
  refine ⟨(fullAttention_scanned maxLength blockSize false alignmentTokens).mem_hitBlocks, ?_⟩
  rintro n ⟨hle, hdvd, hcached⟩
  have hmax : n ≤ maxLength / blockSize := (Nat.le_div_iff_mul_le hpos).2 hle
  have htake : CachedBetween pool (blockHashes.take (maxLength / blockSize)) kvCacheGroupIds 0 n := by
    intro i hi hlt
    rw [rowAt, getElem?_take_of_lt (hlt.trans_le hmax)]
    exact hcached i hi hlt
  simp only [fullAttention, Bool.false_eq_true, if_false, aligned_take_length]
  exact le_alignedLength hdvd (le_length_cachedPrefix htake)

/-! ## Sliding window -/

/-- The blocks in the window at the end of a length. -/
def WindowCached (pool : BlockPool) (blockHashes : List BlockHash) (kvCacheGroupIds : List ℕ) (window last : ℕ) :
    Prop :=
  CachedBetween pool blockHashes kvCacheGroupIds (last - window) last

/-- No aligned length above the contiguous blocks has its window cached, and there are less of them than the
window has. -/
structure Passed (pool : BlockPool) (blockHashes : List BlockHash) (kvCacheGroupIds : List ℕ)
    (window blockSize alignmentTokens maxNumBlocks i numContiguousBlocks : ℕ) : Prop where
  short : numContiguousBlocks < window
  none_above : ∀ last, i + numContiguousBlocks < last → last ≤ maxNumBlocks → alignmentTokens ∣ last * blockSize →
    ¬ WindowCached pool blockHashes kvCacheGroupIds window last

/-- Scanning from right to left, the first window that is cached belongs to the greatest length. -/
lemma slidingWindowLoop_greatest {alignmentTokens maxNumBlocks : ℕ} (i n : ℕ) (rows : List BlockRow)
    (hlength : rows.length = maxNumBlocks) (hbound : i + n ≤ maxNumBlocks)
    (h : Passed pool blockHashes kvCacheGroupIds window blockSize alignmentTokens maxNumBlocks i n) :
    let result := slidingWindowLoop pool blockHashes kvCacheGroupIds window blockSize alignmentTokens i n rows
    ∀ last, (if result.2.2 then result.1.length else result.2.1) < last → last ≤ maxNumBlocks →
      alignmentTokens ∣ last * blockSize → ¬ WindowCached pool blockHashes kvCacheGroupIds window last := by
  induction i generalizing n rows with
  | zero => simpa [slidingWindowLoop] using h.none_above
  | succ i ih =>
    rw [slidingWindowLoop]
    cases hrow : rowAt pool blockHashes kvCacheGroupIds i with
    | none =>
      have hshort := h.short
      refine ih 0 rows hlength (by omega) ⟨by omega, ?_⟩
      intro last hlt hle hdvd hcached
      -- a length up to the contiguous blocks needs the block that is missing
      by_cases habove : i + 1 + n < last
      · exact h.none_above last habove hle hdvd hcached
      · have hsome := hcached i (by omega) (by omega)
        rw [hrow] at hsome
        exact absurd hsome Bool.false_ne_true
    | some row =>
      dsimp only
      split
      · rename_i hskip
        obtain ⟨rfl, hsize, hmisaligned⟩ := hskip
        refine ih 0 rows hlength (by omega) ⟨h.short, ?_⟩
        intro last hlt hle hdvd
        refine h.none_above last (lt_of_le_of_ne (by omega) ?_) hle hdvd
        rintro rfl
        exact hmisaligned (Nat.mod_eq_zero_of_dvd (by simpa using hdvd))
      · split
        · intro last hlt
          refine h.none_above last ?_
          simp only [if_true, length_take, length_set, hlength] at hlt
          omega
        · rename_i hfew
          refine ih (n + 1) (rows.set i row) (by rw [length_set, hlength]) (by omega) ⟨by omega, ?_⟩
          intro last hlt
          exact h.none_above last (by omega)

/-- Without a window the first cached block is taken, as for a window of one block. -/
lemma slidingWindowLoop_zero (blockSize alignmentTokens i n : ℕ) (rows : List BlockRow) :
    slidingWindowLoop pool blockHashes kvCacheGroupIds 0 blockSize alignmentTokens i n rows =
      slidingWindowLoop pool blockHashes kvCacheGroupIds 1 blockSize alignmentTokens i n rows := by
  induction i generalizing n rows with
  | zero => rfl
  | succ i ih =>
    rw [slidingWindowLoop, slidingWindowLoop]
    cases rowAt pool blockHashes kvCacheGroupIds i with
    | none => exact ih 0 rows
    | some row =>
      dsimp only
      rw [ih n rows, if_pos (Nat.zero_le _), if_pos (Nat.le_add_left 1 n)]

/-- The window that the scan looks for; it is never empty. -/
def scannedWindow (window blockSize : ℕ) : ℕ := max 1 (cdiv (window - 1) blockSize)

lemma slidingWindowLoop_scannedWindow (window blockSize alignmentTokens i n : ℕ) (rows : List BlockRow) :
    slidingWindowLoop pool blockHashes kvCacheGroupIds (cdiv (window - 1) blockSize) blockSize alignmentTokens i n
        rows =
      slidingWindowLoop pool blockHashes kvCacheGroupIds (scannedWindow window blockSize) blockSize alignmentTokens i n
        rows := by
  rw [scannedWindow]
  rcases Nat.eq_zero_or_pos (cdiv (window - 1) blockSize) with hzero | hpos
  · rw [hzero]
    exact slidingWindowLoop_zero _ _ _ _ _
  · rw [max_eq_right hpos]

/-- The result of the loop from the last block on. -/
def slidingWindowResult (pool : BlockPool) (blockHashes : List BlockHash) (kvCacheGroupIds : List ℕ)
    (maxNumBlocks blockSize window alignmentTokens : ℕ) : List BlockRow × ℕ × Bool :=
  slidingWindowLoop pool blockHashes kvCacheGroupIds (scannedWindow window blockSize) blockSize alignmentTokens
    maxNumBlocks 0 (List.replicate maxNumBlocks (List.replicate kvCacheGroupIds.length pool.nullBlock))

section Result

variable {maxNumBlocks blockSize window alignmentTokens : ℕ}

/-- The rows that are returned: a window that was found, or the blocks at the front. -/
lemma slidingWindowRows_length {result : List BlockRow × ℕ × Bool}
    (hresult : slidingWindowResult pool blockHashes kvCacheGroupIds maxNumBlocks blockSize window alignmentTokens =
      result) :
    (slidingWindowRows pool blockHashes kvCacheGroupIds maxNumBlocks blockSize window false alignmentTokens).length =
      if result.2.2 then result.1.length else result.2.1 := by
  have hinit : Contiguous pool blockHashes kvCacheGroupIds blockSize alignmentTokens maxNumBlocks 0
      (List.replicate maxNumBlocks (List.replicate kvCacheGroupIds.length pool.nullBlock)) :=
    ⟨by simp, by simp, fun j hj hlt => absurd hlt (by omega)⟩
  have hloop := slidingWindowLoop_spec (scannedWindow window blockSize) blockSize alignmentTokens maxNumBlocks 0 _ hinit
  rw [slidingWindowResult] at hresult
  simp only [hresult] at hloop
  simp only [slidingWindowRows, Bool.false_eq_true, if_false, Nat.add_zero, slidingWindowLoop_scannedWindow, hresult]
  split
  · rfl
  · rename_i hfound
    rw [if_neg hfound] at hloop
    obtain ⟨hfront, hlength⟩ := hloop
    have hbound := hfront.bound
    have htake : (result.1.take result.2.1).length = result.2.1 := by
      rw [length_take]
      omega
    rw [aligned_take_length, htake]
    -- the blocks at the front end at an aligned position
    refine le_antisymm (alignedLength_le _ _ _) (le_alignedLength ?_ le_rfl)
    rcases Nat.eq_zero_or_pos result.2.1 with hzero | hpos
    · simp [hzero]
    · simpa using hfront.aligned hpos

lemma slidingWindowRows_cached :
    CachedBetween pool blockHashes kvCacheGroupIds
      ((slidingWindowRows pool blockHashes kvCacheGroupIds maxNumBlocks blockSize window false
        alignmentTokens).length - scannedWindow window blockSize)
      (slidingWindowRows pool blockHashes kvCacheGroupIds maxNumBlocks blockSize window false
        alignmentTokens).length := by
  have hinit : Contiguous pool blockHashes kvCacheGroupIds blockSize alignmentTokens maxNumBlocks 0
      (List.replicate maxNumBlocks (List.replicate kvCacheGroupIds.length pool.nullBlock)) :=
    ⟨by simp, by simp, fun j hj hlt => absurd hlt (by omega)⟩
  have hloop := slidingWindowLoop_spec (scannedWindow window blockSize) blockSize alignmentTokens maxNumBlocks 0 _ hinit
  obtain ⟨result, hresult⟩ : ∃ result, slidingWindowResult pool blockHashes kvCacheGroupIds maxNumBlocks blockSize
      window alignmentTokens = result := ⟨_, rfl⟩
  rw [slidingWindowRows_length hresult]
  rw [slidingWindowResult] at hresult
  simp only [hresult] at hloop
  intro i hi hlt
  split at hloop
  · rename_i hfound
    obtain ⟨start, found, -, henough, hlength, hcont, -⟩ := hloop
    rw [if_pos hfound] at hi hlt
    obtain ⟨row, hrow, -⟩ := hcont.cached i (by omega) (by omega)
    exact Option.isSome_iff_exists.2 ⟨row, hrow⟩
  · rename_i hfound
    rw [if_neg hfound] at hlt
    obtain ⟨row, hrow, -⟩ := hloop.1.cached i (Nat.zero_le _) (by omega)
    exact Option.isSome_iff_exists.2 ⟨row, hrow⟩

lemma le_length_slidingWindowRows (hle : n ≤ maxNumBlocks) (hdvd : alignmentTokens ∣ n * blockSize)
    (hcached : WindowCached pool blockHashes kvCacheGroupIds (scannedWindow window blockSize) n) :
    n ≤ (slidingWindowRows pool blockHashes kvCacheGroupIds maxNumBlocks blockSize window false
      alignmentTokens).length := by
  have hstart : Passed pool blockHashes kvCacheGroupIds (scannedWindow window blockSize) blockSize alignmentTokens
      maxNumBlocks maxNumBlocks 0 :=
    ⟨lt_of_lt_of_le Nat.zero_lt_one (le_max_left _ _), fun last hlt hle => absurd hlt (by omega)⟩
  have hgreatest := slidingWindowLoop_greatest maxNumBlocks 0
    (List.replicate maxNumBlocks (List.replicate kvCacheGroupIds.length pool.nullBlock)) (by simp) le_rfl hstart
  rw [slidingWindowRows_length rfl]
  by_contra hlt
  exact hgreatest n (not_le.1 hlt) hle hdvd hcached

end Result

lemma slidingWindow_greatest {maxLength alignmentTokens : ℕ} (hpos : 0 < blockSize)
    {rows : List BlockRow}
    (h : slidingWindow pool blockHashes kvCacheGroupIds maxLength blockSize window false alignmentTokens = .ok rows) :
    IsGreatest (hitBlocks pool blockHashes kvCacheGroupIds maxLength blockSize alignmentTokens
      fun n => n - scannedWindow window blockSize) rows.length := by
  have hscanned := slidingWindow_scanned h
  have hrows : rows = slidingWindowRows pool blockHashes kvCacheGroupIds (maxLength / blockSize) blockSize window false
      alignmentTokens := by
    simp only [slidingWindow, Bool.false_eq_true, false_and, if_false] at h
    split at h
    · cases h
    · exact (Except.ok.inj h).symm
  refine ⟨⟨hscanned.le, hscanned.aligned, hrows ▸ slidingWindowRows_cached⟩, ?_⟩
  rintro n ⟨hle, hdvd, hcached⟩
  rw [hrows]
  exact le_length_slidingWindowRows ((Nat.le_div_iff_mul_le hpos).2 hle) hdvd hcached

/-! ## Chunked local attention -/

lemma chunkedLocalAttention_greatest {maxLength attentionChunkSize : ℕ} (hpos : 0 < blockSize)
    {alignmentTokens : ℕ} {rows : List BlockRow}
    (h : chunkedLocalAttention pool blockHashes kvCacheGroupIds maxLength blockSize attentionChunkSize
      alignmentTokens = .ok rows) (hle : n * blockSize ≤ maxLength)
    (hcached : CachedBetween pool blockHashes kvCacheGroupIds
      (localAttentionStartBlockIdx (n * blockSize) blockSize attentionChunkSize) n) :
    n ≤ rows.length := by
  obtain ⟨-, -, hstart, -, hstop⟩ := chunkedLocalAttention_spec h
  by_contra hlt
  rw [not_le] at hlt
  have hmax : n ≤ maxLength / blockSize := (Nat.le_div_iff_mul_le hpos).2 hle
  have hnone := hstop (hlt.trans_le hmax)
  have hfirst : localAttentionStartBlockIdx (n * blockSize) blockSize attentionChunkSize ≤ rows.length :=
    (Nat.div_le_div_right (Nat.mul_le_mul_right _ (Nat.div_le_div_right hle))).trans hstart
  have hsome := hcached rows.length hfirst hlt
  rw [hnone] at hsome
  exact Bool.false_ne_true hsome

/-! ## Mamba -/

lemma mambaLoop_greatest (blockSize alignmentTokens maxNumBlocks : ℕ) (hle : n ≤ maxNumBlocks)
    (hdvd : alignmentTokens ∣ n * blockSize)
    (hcached : CachedBetween pool blockHashes kvCacheGroupIds (n - 1) n) :
    n ≤ (mambaLoop pool blockHashes kvCacheGroupIds blockSize alignmentTokens maxNumBlocks).length := by
  induction maxNumBlocks with
  | zero => exact hle
  | succ i ih =>
    rw [mambaLoop]
    rcases Nat.eq_or_lt_of_le hle with rfl | hlt
    · obtain ⟨row, hrow⟩ := Option.isSome_iff_exists.1 (hcached i (by omega) (Nat.lt_succ_self i))
      rw [hrow]
      simp [Nat.mod_eq_zero_of_dvd hdvd]
    · cases rowAt pool blockHashes kvCacheGroupIds i with
      | none => exact ih (Nat.le_of_lt_succ hlt)
      | some row =>
        dsimp only
        split
        · exact ih (Nat.le_of_lt_succ hlt)
        · simp
          omega

/-! ## What a length needs -/

/-- The first block that `n` blocks need. -/
def firstNeeded (spec : KVCacheSpec) (blockSize n : ℕ) : ℕ :=
  match spec with
  | .slidingWindow _ window => n - cdiv (window - 1) blockSize
  | .chunkedLocalAttention _ chunkSize => localAttentionStartBlockIdx (n * blockSize) blockSize chunkSize
  | .mamba _ => n - 1
  | _ => 0

/-- A window of no earlier token is scanned as one that reaches back to the last block. -/
def scannedSpec : KVCacheSpec → KVCacheSpec
  | .slidingWindow attention window => .slidingWindow attention (max 2 window)
  | spec => spec

/-- The tokens that a sliding window of at least one token skips. -/
lemma slidingWindow_needed_iff (hpos : 0 < blockSize) (hwindow : 0 < window) :
    max 0 (((n * blockSize : ℕ) : ℤ) - window + 1) / (blockSize : ℤ) ≤ (i : ℤ) ↔
      n - cdiv (window - 1) blockSize ≤ i := by
  refine ⟨slidingWindow_first_needed hpos, fun hle => Int.le_of_lt_add_one ?_⟩
  refine Int.ediv_lt_of_lt_mul (by exact_mod_cast hpos) (max_lt (by positivity) ?_)
  have hblocks : n * blockSize ≤ i * blockSize + cdiv (window - 1) blockSize * blockSize := by
    rw [← Nat.add_mul]
    exact Nat.mul_le_mul_right _ (by omega)
  have hshort : cdiv (window - 1) blockSize * blockSize < window - 1 + blockSize := by
    have hdiv := Nat.div_mul_le_self (window - 1 + blockSize - 1) blockSize
    unfold cdiv
    omega
  zify [hwindow] at hshort hblocks
  push_cast
  rw [Int.add_mul, one_mul]
  omega

/-- The skipped tokens, in blocks. -/
lemma needed_iff (spec : KVCacheSpec) (hpos : 0 < blockSize) (hi : i < n) :
    (scannedSpec spec).getNumSkippedTokens (n * blockSize) / (blockSize : ℤ) ≤ (i : ℤ) ↔
      firstNeeded (scannedSpec spec) blockSize n ≤ i := by
  cases spec with
  | slidingWindow attention window => exact slidingWindow_needed_iff hpos (by omega)
  | chunkedLocalAttention attention chunkSize =>
    simp only [scannedSpec, KVCacheSpec.getNumSkippedTokens, firstNeeded, localAttentionStartBlockIdx]
    exact_mod_cast Iff.rfl
  | mamba mambaSpec =>
    refine ⟨mamba_first_needed hpos, fun hle => ?_⟩
    obtain rfl : i = n - 1 := by
      simp only [firstNeeded, scannedSpec] at hle
      omega
    refine Int.le_of_lt_add_one (Int.ediv_lt_of_lt_mul (by exact_mod_cast hpos) ?_)
    have hn : ((n - 1 : ℕ) : ℤ) + 1 = n := by omega
    simp only [scannedSpec, KVCacheSpec.getNumSkippedTokens]
    rw [hn]
    push_cast
    omega
  | fullAttention | mlaAttention | sinkFullAttention | crossAttention =>
    simp [scannedSpec, KVCacheSpec.getNumSkippedTokens, firstNeeded]

/-- Of a request with `length` computed tokens, the blocks that are still read are cached. -/
def Available (pool : BlockPool) (blockHashes : List BlockHash) (kvCacheGroupIds : List ℕ) (spec : KVCacheSpec)
    (blockSize length : ℕ) : Prop :=
  ∀ i : ℕ, spec.getNumSkippedTokens length / (blockSize : ℤ) ≤ (i : ℤ) → i < length / blockSize →
    (rowAt pool blockHashes kvCacheGroupIds i).isSome

/-- The lengths that can be a hit. -/
def hitLengths (pool : BlockPool) (blockHashes : List BlockHash) (kvCacheGroupIds : List ℕ) (spec : KVCacheSpec)
    (blockSize maxLength alignmentTokens : ℕ) : Set ℕ :=
  {length | length ≤ maxLength ∧ alignmentTokens ∣ length ∧
    Available pool blockHashes kvCacheGroupIds spec blockSize length}

lemma available_iff (spec : KVCacheSpec) (hpos : 0 < blockSize) (n : ℕ) :
    Available pool blockHashes kvCacheGroupIds (scannedSpec spec) blockSize (n * blockSize) ↔
      CachedBetween pool blockHashes kvCacheGroupIds (firstNeeded (scannedSpec spec) blockSize n) n := by
  rw [Available, CachedBetween, Nat.mul_div_cancel _ hpos]
  refine forall_congr' fun i => ⟨fun h hi hlt => ?_, fun h hi hlt => ?_⟩
  · exact h ((needed_iff spec hpos hlt).2 hi) hlt
  · exact h ((needed_iff spec hpos hlt).1 hi) hlt

/-- A larger window needs more. -/
lemma Available.of_scannedSpec {spec : KVCacheSpec} (hpos : 0 < blockSize)
    (h : Available pool blockHashes kvCacheGroupIds (scannedSpec spec) blockSize length) :
    Available pool blockHashes kvCacheGroupIds spec blockSize length := by
  cases spec with
  | slidingWindow attention window =>
    intro i hi
    refine h i (le_trans (Int.ediv_le_ediv (by exact_mod_cast hpos) (max_le_max le_rfl ?_)) hi)
    push_cast
    omega
  | _ => exact h

/-- The chunks of chunked local attention start at block boundaries. -/
def ChunksAligned : KVCacheSpec → Prop
  | .chunkedLocalAttention attention chunkSize => attention.blockSize ∣ chunkSize
  | _ => True

/-- The scan of a spec in blocks: its rows are a hit, and no longer hit is passed over. -/
structure LongestScan (pool : BlockPool) (blockHashes : List BlockHash) (kvCacheGroupIds : List ℕ)
    (spec : KVCacheSpec) (blockSize maxLength alignmentTokens : ℕ) (rows : List BlockRow) : Prop where
  le : rows.length * blockSize ≤ maxLength
  aligned : alignmentTokens ∣ rows.length * blockSize
  cached : (isChunked spec → ChunksAligned spec ∨ rows.length * blockSize = maxLength) →
    CachedBetween pool blockHashes kvCacheGroupIds (firstNeeded (scannedSpec spec) blockSize rows.length) rows.length
  holds : (isChunked spec → ChunksAligned spec ∨ rows.length * blockSize = maxLength) →
    CachedFrom pool blockHashes kvCacheGroupIds (firstNeeded spec blockSize rows.length) rows
  longest : ∀ n, n * blockSize ≤ maxLength → alignmentTokens ∣ n * blockSize →
    CachedBetween pool blockHashes kvCacheGroupIds (firstNeeded (scannedSpec spec) blockSize n) n → n ≤ rows.length

variable {maxLength alignmentTokens dcpWorldSize pcpWorldSize : ℕ} {spec : KVCacheSpec} {rows : List BlockRow}

lemma scannedWindow_eq (window : ℕ) (hpos : 0 < blockSize) :
    cdiv (max 2 window - 1) blockSize = scannedWindow window blockSize := by
  have hone : cdiv 1 blockSize = 1 := by
    refine le_antisymm ((cdiv_le_iff hpos).2 (by omega)) ((lt_cdiv_iff hpos).2 (by omega))
  rw [scannedWindow]
  rcases Nat.lt_or_ge window 2 with hsmall | hlarge
  · have hle := cdiv_mono blockSize (show window - 1 ≤ 1 by omega)
    rw [max_eq_left hsmall.le, max_eq_left (hle.trans hone.le)]
    exact hone
  · have hge := cdiv_mono blockSize (show 1 ≤ window - 1 by omega)
    rw [max_eq_right hlarge, max_eq_right (hone.ge.trans hge)]

/-- The chunk of a length is that of every length from its start on. -/
lemma localAttentionStartBlockIdx_eq {maxLength : ℕ} (hdvd : blockSize ∣ chunkSize)
    (hstart : localAttentionStartBlockIdx maxLength blockSize chunkSize ≤ n) (hle : n * blockSize ≤ maxLength) :
    localAttentionStartBlockIdx (n * blockSize) blockSize chunkSize =
      localAttentionStartBlockIdx maxLength blockSize chunkSize := by
  have haligned : blockSize ∣ maxLength / chunkSize * chunkSize := Dvd.dvd.mul_left hdvd _
  have hchunk : maxLength / chunkSize * chunkSize ≤ n * blockSize := by
    rw [localAttentionStartBlockIdx] at hstart
    calc maxLength / chunkSize * chunkSize
        = maxLength / chunkSize * chunkSize / blockSize * blockSize := (Nat.div_mul_cancel haligned).symm
      _ ≤ n * blockSize := Nat.mul_le_mul_right _ hstart
  rw [localAttentionStartBlockIdx, localAttentionStartBlockIdx, KVCacheCoordinator.chunk_start_eq hle hchunk]

lemma scanBlockSize_of_not_full (hspec : spec.isFullAttention = false) :
    scanBlockSize spec dcpWorldSize pcpWorldSize = spec.blockSize := by
  simp [scanBlockSize, hspec]

lemma scanBlockSize_pos (hpos : 0 < spec.blockSize) (hdcp : 0 < dcpWorldSize * pcpWorldSize) :
    0 < scanBlockSize spec dcpWorldSize pcpWorldSize := by
  unfold scanBlockSize
  split
  · exact Nat.mul_pos hpos hdcp
  · exact hpos

lemma longestScan_fullAttention (hpos : 0 < blockSize)
    (hneeded : ∀ n, firstNeeded spec blockSize n = 0) (hscanned : scannedSpec spec = spec) :
    LongestScan pool blockHashes kvCacheGroupIds spec blockSize maxLength alignmentTokens
      (fullAttention pool blockHashes kvCacheGroupIds maxLength blockSize false alignmentTokens) := by
  have hscan := @fullAttention_scanned pool blockHashes kvCacheGroupIds maxLength blockSize false alignmentTokens
  refine ⟨hscan.le, hscan.aligned, fun _ => ?_, fun _ => ?_, fun n hn hdvd hcached => ?_⟩
  · rw [hscanned, hneeded]
    exact hscan.cached.between
  · rw [hneeded]
    exact hscan.cached
  · rw [hscanned, hneeded] at hcached
    exact (fullAttention_greatest hpos alignmentTokens).2 ⟨hn, hdvd, hcached⟩

lemma longestScan_slidingWindow (hpos : 0 < attention.blockSize)
    (h : slidingWindow pool blockHashes kvCacheGroupIds maxLength attention.blockSize window false alignmentTokens =
      .ok rows) :
    LongestScan pool blockHashes kvCacheGroupIds (.slidingWindow attention window) attention.blockSize maxLength
      alignmentTokens rows := by
  have hscan := slidingWindow_scanned h
  have hgreatest := slidingWindow_greatest hpos h
  refine ⟨hscan.le, hscan.aligned, fun _ => ?_, fun _ => hscan.cached, fun n hn hdvd hcached => ?_⟩
  · simp only [scannedSpec, firstNeeded, scannedWindow_eq window hpos]
    exact hgreatest.1.2.2
  · simp only [scannedSpec, firstNeeded, scannedWindow_eq window hpos] at hcached
    exact hgreatest.2 ⟨hn, hdvd, hcached⟩

lemma longestScan_chunkedLocalAttention (hpos : 0 < attention.blockSize)
    (h : chunkedLocalAttention pool blockHashes kvCacheGroupIds maxLength attention.blockSize chunkSize
      alignmentTokens = .ok rows) :
    LongestScan pool blockHashes kvCacheGroupIds (.chunkedLocalAttention attention chunkSize) attention.blockSize
      maxLength alignmentTokens rows := by
  obtain ⟨hscan, -, hstart, -, -⟩ := chunkedLocalAttention_spec h
  have hfirst (hchunk : attention.blockSize ∣ chunkSize ∨ rows.length * attention.blockSize = maxLength) :
      localAttentionStartBlockIdx (rows.length * attention.blockSize) attention.blockSize chunkSize =
        localAttentionStartBlockIdx maxLength attention.blockSize chunkSize := by
    rcases hchunk with hdvd | heq
    · exact localAttentionStartBlockIdx_eq hdvd hstart hscan.le
    · rw [heq]
  refine ⟨hscan.le, hscan.aligned, fun hchunk => ?_, fun hchunk => ?_, fun n hn _ hcached => ?_⟩
  · have hfrom := hscan.cached.between
    rw [← hfirst (hchunk rfl)] at hfrom
    exact hfrom
  · rw [firstNeeded, hfirst (hchunk rfl)]
    exact hscan.cached
  · exact chunkedLocalAttention_greatest hpos h hn hcached

lemma longestScan_mamba {mambaSpec : MambaSpec} (hpos : 0 < mambaSpec.blockSize)
    (h : mamba pool blockHashes kvCacheGroupIds maxLength mambaSpec.blockSize alignmentTokens = .ok rows) :
    LongestScan pool blockHashes kvCacheGroupIds (.mamba mambaSpec) mambaSpec.blockSize maxLength alignmentTokens
      rows := by
  have hscan := mamba_scanned h
  refine ⟨hscan.le, hscan.aligned, fun _ => hscan.cached.between, fun _ => hscan.cached, fun n hn hdvd hcached => ?_⟩
  simp only [mamba] at h
  split at h
  · cases h
  · cases h
    exact mambaLoop_greatest _ _ _ ((Nat.le_div_iff_mul_le hpos).2 hn) hdvd hcached

/-- A scan that succeeds returns the longest hit. -/
lemma longestScan_of_rows (hpos : 0 < spec.blockSize) (hdcp : 0 < dcpWorldSize * pcpWorldSize)
    (h : CacheHit.rows pool blockHashes kvCacheGroupIds maxLength spec false alignmentTokens dcpWorldSize
      pcpWorldSize = .ok rows) :
    LongestScan pool blockHashes kvCacheGroupIds spec (scanBlockSize spec dcpWorldSize pcpWorldSize) maxLength
      alignmentTokens rows := by
  have hscan := scanBlockSize_pos hpos hdcp
  cases spec with
  | slidingWindow attention window =>
    obtain ⟨_, -, h⟩ := bind_eq_ok h
    obtain ⟨_, -, h⟩ := bind_eq_ok h
    exact longestScan_slidingWindow hpos h
  | chunkedLocalAttention attention chunkSize =>
    obtain ⟨_, -, h⟩ := bind_eq_ok h
    obtain ⟨_, -, h⟩ := bind_eq_ok h
    obtain ⟨_, -, h⟩ := bind_eq_ok h
    exact longestScan_chunkedLocalAttention hpos h
  | mamba mambaSpec =>
    obtain ⟨_, -, h⟩ := bind_eq_ok h
    obtain ⟨_, -, h⟩ := bind_eq_ok h
    exact longestScan_mamba hpos h
  | crossAttention attention => cases h
  | fullAttention attention | mlaAttention attention dtype | sinkFullAttention attention sinkLen =>
    cases h
    rw [← scanBlockSize_of_full rfl]
    exact longestScan_fullAttention hscan (fun _ => rfl) rfl

/-! ## One attention type -/

/-- The longest hit of the scan is one of a window that reaches back to the last block. -/
lemma LongestScan.isGreatest (hpos : 0 < blockSize) (hdvd : blockSize ∣ alignmentTokens)
    (h : LongestScan pool blockHashes kvCacheGroupIds spec blockSize maxLength alignmentTokens rows)
    (hchunk : isChunked spec → ChunksAligned spec ∨ rows.length * blockSize = maxLength) :
    IsGreatest (hitLengths pool blockHashes kvCacheGroupIds (scannedSpec spec) blockSize maxLength alignmentTokens)
      (rows.length * blockSize) := by
  refine ⟨⟨h.le, h.aligned, (available_iff spec hpos _).2 (h.cached hchunk)⟩, ?_⟩
  rintro length ⟨hle, haligned, havailable⟩
  obtain ⟨n, rfl⟩ := (hdvd.trans haligned)
  rw [Nat.mul_comm] at hle haligned havailable ⊢
  exact Nat.mul_le_mul_right _ (h.longest n hle haligned ((available_iff spec hpos n).1 havailable))

/-- The condition on a window of no earlier token: the last block is cached nevertheless. -/
def WindowEndCached (pool : BlockPool) (blockHashes : List BlockHash) (kvCacheGroupIds : List ℕ) (spec : KVCacheSpec)
    (length : ℕ) : Prop :=
  match spec with
  | .slidingWindow attention window =>
    1 < window ∨ length = 0 ∨ (rowAt pool blockHashes kvCacheGroupIds (length / attention.blockSize - 1)).isSome
  | _ => True

/-- A window of no earlier token needs no block. -/
lemma slidingWindow_available (pool : BlockPool) (blockHashes : List BlockHash)
    (kvCacheGroupIds : List ℕ) (attention : AttentionSpec) (hpos : 0 < attention.blockSize)
    (hwindow : window ≤ 1) (n : ℕ) :
    Available pool blockHashes kvCacheGroupIds (.slidingWindow attention window) attention.blockSize
      (n * attention.blockSize) := by
  intro i hi hlt
  have hfirst := slidingWindow_first_needed hpos hi
  have hzero : cdiv (window - 1) attention.blockSize ≤ 0 := (cdiv_le_iff hpos).2 (by omega)
  rw [Nat.mul_div_cancel _ hpos] at hlt
  omega

/-- What such a window needs beyond the blocks that are still read. -/
lemma available_scannedSpec_iff (hpos : 0 < blockSize) (hdvd : blockSize ∣ maxLength)
    (hsize : spec.isFullAttention = true ∨ blockSize = spec.blockSize) :
    Available pool blockHashes kvCacheGroupIds (scannedSpec spec) blockSize maxLength ↔
      Available pool blockHashes kvCacheGroupIds spec blockSize maxLength ∧
        WindowEndCached pool blockHashes kvCacheGroupIds spec maxLength := by
  cases spec with
  | slidingWindow attention window =>
    obtain rfl : blockSize = attention.blockSize := hsize.resolve_left (by simp [KVCacheSpec.isFullAttention])
    by_cases hwindow : 1 < window
    · have hsame : scannedSpec (.slidingWindow attention window) = .slidingWindow attention window := by
        rw [scannedSpec, max_eq_right hwindow]
      rw [hsame]
      exact (and_iff_left (.inl hwindow)).symm
    · obtain ⟨n, rfl⟩ := hdvd
      rw [Nat.mul_comm attention.blockSize n]
      have hneeded : firstNeeded (scannedSpec (.slidingWindow attention window)) attention.blockSize n = n - 1 := by
        have hone : cdiv (max 2 window - 1) attention.blockSize = 1 := by
          rw [scannedWindow_eq window hpos, scannedWindow]
          have hzero : cdiv (window - 1) attention.blockSize ≤ 0 := (cdiv_le_iff hpos).2 (by omega)
          omega
        simp only [scannedSpec, firstNeeded, hone]
      have hnothing := slidingWindow_available pool blockHashes kvCacheGroupIds attention hpos (not_lt.1 hwindow) n
      rw [available_iff _ hpos, hneeded]
      simp only [WindowEndCached, Nat.mul_div_cancel _ hpos, hnothing, true_and, hwindow, false_or]
      constructor
      · intro hcached
        rcases Nat.eq_zero_or_pos n with rfl | hn
        · exact .inl (Nat.zero_mul _)
        · exact .inr (hcached (n - 1) le_rfl (by omega))
      · rintro (hzero | hcached) i hi hlt
        · have hn : n = 0 := (Nat.mul_eq_zero.1 hzero).resolve_right hpos.ne'
          omega
        · obtain rfl : i = n - 1 := by omega
          exact hcached
  | _ => exact (and_iff_left trivial).symm

/-- A window reaches back to an earlier token, or it needs no block. -/
lemma windowEndCached_or_available (pool : BlockPool) (blockHashes : List BlockHash)
    (kvCacheGroupIds : List ℕ) {spec : KVCacheSpec} (hpos : 0 < blockSize)
    (hsize : spec.isFullAttention = true ∨ blockSize = spec.blockSize) :
    (∀ length, WindowEndCached pool blockHashes kvCacheGroupIds spec length) ∨
      ∀ length, blockSize ∣ length → Available pool blockHashes kvCacheGroupIds spec blockSize length := by
  cases spec with
  | slidingWindow attention window =>
    obtain rfl : blockSize = attention.blockSize := hsize.resolve_left (by simp [KVCacheSpec.isFullAttention])
    by_cases hwindow : 1 < window
    · exact .inl fun _ => .inl hwindow
    · right
      rintro _ ⟨n, rfl⟩
      rw [Nat.mul_comm]
      exact slidingWindow_available pool blockHashes kvCacheGroupIds attention hpos (not_lt.1 hwindow) n
  | _ => exact .inl fun _ => trivial

/-- The longest hit of a window that reaches back to the last block is the longest hit iff the last block is cached
when it is not needed. -/
lemma isGreatest_hitLengths_iff (hpos : 0 < blockSize) (hdvd : blockSize ∣ alignmentTokens)
    (hsize : spec.isFullAttention = true ∨ blockSize = spec.blockSize)
    (h : IsGreatest (hitLengths pool blockHashes kvCacheGroupIds (scannedSpec spec) blockSize maxLength
      alignmentTokens) length) :
    IsGreatest (hitLengths pool blockHashes kvCacheGroupIds spec blockSize maxLength alignmentTokens) length ↔
      WindowEndCached pool blockHashes kvCacheGroupIds spec (maxLength / alignmentTokens * alignmentTokens) := by
  have hlast : maxLength / alignmentTokens * alignmentTokens ≤ maxLength := Nat.div_mul_le_self _ _
  have hlastDvd : alignmentTokens ∣ maxLength / alignmentTokens * alignmentTokens := Dvd.intro_left _ rfl
  have hbound {length : ℕ} (hle : length ≤ maxLength) (haligned : alignmentTokens ∣ length) :
      length ≤ maxLength / alignmentTokens * alignmentTokens := by
    obtain ⟨n, rfl⟩ := haligned
    rcases Nat.eq_zero_or_pos alignmentTokens with rfl | hpos
    · simp
    · rw [Nat.mul_comm] at hle ⊢
      exact Nat.mul_le_mul_right _ ((Nat.le_div_iff_mul_le hpos).2 hle)
  have hmember : length ∈ hitLengths pool blockHashes kvCacheGroupIds spec blockSize maxLength alignmentTokens :=
    ⟨h.1.1, h.1.2.1, h.1.2.2.of_scannedSpec hpos⟩
  rcases windowEndCached_or_available pool blockHashes kvCacheGroupIds hpos hsize with hend | hall
  · refine iff_of_true ⟨hmember, ?_⟩ (hend _)
    rintro other ⟨hle, haligned, havailable⟩
    exact h.2 ⟨hle, haligned, (available_scannedSpec_iff hpos (hdvd.trans haligned) hsize).2 ⟨havailable, hend _⟩⟩
  · constructor
    · intro hgreatest
      have heq : length = maxLength / alignmentTokens * alignmentTokens :=
        le_antisymm (hbound h.1.1 h.1.2.1) (hgreatest.2 ⟨hlast, hlastDvd, hall _ (hdvd.trans hlastDvd)⟩)
      rw [← heq]
      exact ((available_scannedSpec_iff hpos (hdvd.trans h.1.2.1) hsize).1 h.1.2.2).2
    · intro hend
      have hge : maxLength / alignmentTokens * alignmentTokens ≤ length :=
        h.2 ⟨hlast, hlastDvd, (available_scannedSpec_iff hpos (hdvd.trans hlastDvd) hsize).2
          ⟨hall _ (hdvd.trans hlastDvd), hend⟩⟩
      exact ⟨hmember, fun other hother => (hbound hother.1 hother.2.1).trans hge⟩

/-- The blocks of all groups are a hit of `n` blocks, which is the longest one. -/
structure IsLongestHit (pool : BlockPool) (blockHashes : List BlockHash) (kvCacheGroupIds : List ℕ)
    (spec : KVCacheSpec) (blockSize maxLength alignmentTokens : ℕ) (blocks : List (List BlockRef)) (n : ℕ) :
    Prop where
  greatest : IsGreatest (hitLengths pool blockHashes kvCacheGroupIds spec blockSize maxLength alignmentTokens)
    (n * blockSize)
  groups : blocks.length = kvCacheGroupIds.length
  length : ∀ blks ∈ blocks, blks.length = n
  cached : ∀ (j groupId i : ℕ) (blks : List BlockRef), kvCacheGroupIds[j]? = some groupId → blocks[j]? = some blks →
    spec.getNumSkippedTokens (n * blockSize) / (blockSize : ℤ) ≤ (i : ℤ) → i < n →
      ∃ hash b, blockHashes[i]? = some hash ∧ blks[i]? = some b ∧
        pool.cachedBlockHashToBlock.getOneBlock (makeBlockHashWithGroupId hash groupId) = some b
  skipped : ∀ (j groupId : ℕ) (blks : List BlockRef), kvCacheGroupIds[j]? = some groupId → blocks[j]? = some blks →
    FoundUnder pool blockHashes groupId blks

lemma firstNeeded_le (spec : KVCacheSpec) (hpos : 0 < blockSize) (hi : i < n)
    (h : spec.getNumSkippedTokens (n * blockSize) / (blockSize : ℤ) ≤ (i : ℤ)) :
    firstNeeded spec blockSize n ≤ i := by
  cases spec with
  | slidingWindow attention window => exact slidingWindow_first_needed hpos h
  | chunkedLocalAttention attention chunkSize => exact (needed_iff (.chunkedLocalAttention attention chunkSize) hpos hi).1 h
  | mamba mambaSpec => exact (needed_iff (.mamba mambaSpec) hpos hi).1 h
  | _ => exact Nat.zero_le _

/-- The columns of the rows of a scan are a hit. -/
lemma LongestScan.isLongestHit_iff (hpos : 0 < blockSize) (hids : kvCacheGroupIds ≠ [])
    (h : LongestScan pool blockHashes kvCacheGroupIds spec blockSize maxLength alignmentTokens rows)
    (hchunk : isChunked spec → ChunksAligned spec)
    (honly : OnlyCached pool blockHashes kvCacheGroupIds rows) :
    (∃ n, IsLongestHit pool blockHashes kvCacheGroupIds spec blockSize maxLength alignmentTokens
        (columns pool.nullBlock kvCacheGroupIds.length rows) n) ↔
      IsGreatest (hitLengths pool blockHashes kvCacheGroupIds spec blockSize maxLength alignmentTokens)
        (rows.length * blockSize) := by
  have hcolumn (j : ℕ) (hj : j < kvCacheGroupIds.length) :=
    KVCacheCoordinator.columns_getElem? pool.nullBlock rows hj
  constructor
  · rintro ⟨n, hhit⟩
    have hlength := hhit.length _ (mem_of_getElem? (hcolumn 0 (length_pos_of_ne_nil hids)))
    rw [length_map] at hlength
    rw [hlength]
    exact hhit.greatest
  · intro hgreatest
    refine ⟨rows.length, hgreatest, by simp [columns], ?_, ?_, ?_⟩
    · intro blks hmem
      obtain ⟨j, -, rfl⟩ := List.mem_map.1 hmem
      exact length_map _
    · intro j groupId i blks hid hblks hskipped hi
      rw [hcolumn j (lt_of_getElem? hid)] at hblks
      cases hblks
      obtain ⟨row, hrow, hget⟩ := h.holds (fun hc => .inl (hchunk hc)) i (firstNeeded_le spec hpos hi hskipped) hi
      obtain ⟨hash, b, hhash, hb, hcached⟩ := KVCacheCoordinator.rowAt_getElem? hrow hid
      exact ⟨hash, b, hhash, by simp [hget, hb], hcached⟩
    · intro j groupId blks hid hblks
      rw [hcolumn j (lt_of_getElem? hid)] at hblks
      cases hblks
      exact foundUnder_column honly hid

lemma rows_ok_of_parallel {useEagle : Bool}
    (hparallel : spec.isFullAttention = true ∨ dcpWorldSize = 1 ∧ pcpWorldSize = 1)
    (hsupp : Supported useEagle alignmentTokens spec)
    (hcover : spec.isFullAttention = true ∨ maxLength / spec.blockSize ≤ blockHashes.length) :
    ∃ rows, CacheHit.rows pool blockHashes kvCacheGroupIds maxLength spec useEagle alignmentTokens dcpWorldSize
      pcpWorldSize = .ok rows := by
  by_cases hfull : spec.isFullAttention = true
  · cases spec with
    | fullAttention => exact ⟨_, rfl⟩
    | mlaAttention => exact ⟨_, rfl⟩
    | sinkFullAttention => exact ⟨_, rfl⟩
    | slidingWindow | chunkedLocalAttention | mamba => exact absurd hfull (by simp [KVCacheSpec.isFullAttention])
    | crossAttention => exact hsupp.elim
  · obtain ⟨rfl, rfl⟩ := hparallel.resolve_left hfull
    exact rows_ok hsupp (hcover.resolve_left hfull)

/-- `find_longest_cache_hit` of each manager class returns the longest hit, exactly when a sliding window of no
earlier token finds the last block in the cache. -/
theorem findLongestCacheHit_longest_iff (pool : BlockPool) (blockHashes : List BlockHash) (maxLength : ℕ)
    (kvCacheGroupIds : List ℕ) (spec : KVCacheSpec) (alignmentTokens dcpWorldSize pcpWorldSize : ℕ)
    (hids : kvCacheGroupIds ≠ []) (hpos : 0 < spec.blockSize) (hdcp : 0 < dcpWorldSize * pcpWorldSize)
    (hparallel : spec.isFullAttention = true ∨ dcpWorldSize = 1 ∧ pcpWorldSize = 1)
    (haligned : scanBlockSize spec dcpWorldSize pcpWorldSize ∣ alignmentTokens)
    (hsupp : Supported false alignmentTokens spec) (hchunk : ChunksAligned spec)
    (hcover : spec.isFullAttention = true ∨ maxLength / spec.blockSize ≤ blockHashes.length) :
    ∃ blocks, findLongestCacheHit pool blockHashes maxLength kvCacheGroupIds spec false alignmentTokens dcpWorldSize
        pcpWorldSize = .ok blocks ∧
      ((∃ n, IsLongestHit pool blockHashes kvCacheGroupIds spec (scanBlockSize spec dcpWorldSize pcpWorldSize)
          maxLength alignmentTokens blocks n) ↔
        WindowEndCached pool blockHashes kvCacheGroupIds spec (maxLength / alignmentTokens * alignmentTokens)) := by
  obtain ⟨rows, hrows⟩ : ∃ rows, CacheHit.rows pool blockHashes kvCacheGroupIds maxLength spec false alignmentTokens
      dcpWorldSize pcpWorldSize = .ok rows := rows_ok_of_parallel hparallel hsupp hcover
  have hscan := longestScan_of_rows hpos hdcp hrows
  have hblockSize := scanBlockSize_pos hpos hdcp
  have hsize : spec.isFullAttention = true ∨ scanBlockSize spec dcpWorldSize pcpWorldSize = spec.blockSize := by
    cases hfull : spec.isFullAttention with
    | true => exact .inl rfl
    | false => exact .inr (scanBlockSize_of_not_full hfull)
  refine ⟨_, by rw [findLongestCacheHit, hrows]; rfl, ?_⟩
  rw [hscan.isLongestHit_iff hblockSize hids (fun _ => hchunk) (rows_onlyCached hrows).1]
  exact isGreatest_hitLengths_iff hblockSize haligned hsize
    (hscan.isGreatest hblockSize haligned fun _ => .inl hchunk)

open KVCacheCoordinator in
/-- A window of two tokens finds the last of two blocks. -/
theorem findLongestCacheHit_longest_window :
    ∃ pool, BlockPool.new 4 true 1 false false = .ok pool ∧ ∃ blocks,
      VllmRuntime.findLongestCacheHit (poolCaching pool [8] [0]) [[7], [8]] 2 [0] (.slidingWindow (attentionWithHeads 1) 2)
        false 1 1 1 = .ok blocks ∧
      ∃ n, IsLongestHit (poolCaching pool [8] [0]) [[7], [8]] [0] (.slidingWindow (attentionWithHeads 1) 2) 1 2 1
        blocks n := by
  obtain ⟨pool, hpool⟩ : ∃ pool, BlockPool.new 4 true 1 false false = .ok pool := ⟨_, rfl⟩
  obtain ⟨blocks, hfind, hiff⟩ := findLongestCacheHit_longest_iff (poolCaching pool [8] [0]) [[7], [8]] 2 [0]
    (.slidingWindow (attentionWithHeads 1) 2) 1 1 1 (by decide) (by decide) (by decide) (.inr ⟨rfl, rfl⟩) (by decide)
    (fun h => absurd h Bool.false_ne_true) trivial (.inr (by decide))
  exact ⟨pool, hpool, blocks, hfind, hiff.2 (.inl (by decide))⟩

open KVCacheCoordinator in
/-- A window of the token itself needs no block, but an empty cache gives no hit. -/
theorem findLongestCacheHit_misses_window :
    ∃ pool, BlockPool.new 4 true 1 false false = .ok pool ∧
      VllmRuntime.findLongestCacheHit pool [[7]] 1 [0] (.slidingWindow (attentionWithHeads 1) 1) false 1 1 1 =
        .ok [[]] ∧
      ¬ ∃ n, IsLongestHit pool [[7]] [0] (.slidingWindow (attentionWithHeads 1) 1) 1 1 1 [[]] n := by
  refine ⟨_, rfl, by decide, ?_⟩
  rintro ⟨n, hhit⟩
  obtain rfl : 0 = n := hhit.length [] (by decide)
  have hone := hhit.greatest.2 ⟨le_rfl, dvd_rfl, slidingWindow_available _ _ _ _ (by decide) le_rfl 1⟩
  exact absurd hone (by decide)

end CacheHit

end VllmRuntime
