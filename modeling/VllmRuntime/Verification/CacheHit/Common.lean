import Mathlib.Order.SuccPred.Archimedean
import Mathlib.Algebra.Order.SuccPred
import VllmRuntime.Verification.CacheHit.Longest

/-! # The longest common hit

No attention type passes over a length that is a hit for it, so the candidate of the fixed-point search never falls
below a common hit. Where the search ends, all types accept the candidate. -/

namespace VllmRuntime.KVCacheCoordinator

open List CacheHit

/-- The lengths that are a hit for all attention groups. -/
def commonHits (c : KVCacheCoordinator) (blockHashes : List BlockHash) (groups : List AttentionGroup)
    (lcmBlockSize maxLength : ℕ) : Set ℕ :=
  {length | length ≤ maxLength ∧ lcmBlockSize ∣ length ∧ ∀ g ∈ groups,
    Available c.blockPool (c.blockHashesFor blockHashes g.spec) g.groupIds g.spec g.spec.blockSize length}

/-- The blocks that the scan of a group looks for at a length are cached. -/
def ScanAvailable (c : KVCacheCoordinator) (blockHashes : List BlockHash) (g : AttentionGroup) (length : ℕ) : Prop :=
  Available c.blockPool (c.blockHashesFor blockHashes g.spec) g.groupIds (scannedSpec g.spec) g.spec.blockSize length

variable {c : KVCacheCoordinator} {blockHashes : List BlockHash} {lcmBlockSize : ℕ}
  {groups : List AttentionGroup} {maxLength length hit : ℕ} {g : AttentionGroup} {hits hits' : HitBlocks}
  {hitLength : ℕ}

/-! ## No common hit is passed over -/

section

variable (heagle : c.useEagle = false)
include heagle

/-- The scan of one group up to a length. -/
lemma longestScan_acceptRows (h : LooksUp c blockHashes lcmBlockSize groups maxLength) (hg : g ∈ groups)
    (hle : length ≤ maxLength) :
    LongestScan c.blockPool (c.blockHashesFor blockHashes g.spec) g.groupIds g.spec g.spec.blockSize length lcmBlockSize
      (acceptRows c blockHashes lcmBlockSize g length) := by
  have hrows := (h g hg).2 length hle
  rw [heagle] at hrows
  have hscan := longestScan_of_rows (h g hg).1 (by decide) hrows
  rwa [show scanBlockSize g.spec 1 1 = g.spec.blockSize by simp [scanBlockSize]] at hscan

lemma le_accept (h : LooksUp c blockHashes lcmBlockSize groups maxLength)
    (hg : g ∈ groups) (hle : length ≤ maxLength) (hsize : g.spec.blockSize ∣ lcmBlockSize)
    (hdvd : lcmBlockSize ∣ hit) (hhit : hit ≤ length) (havailable : ScanAvailable c blockHashes g hit) :
    hit ≤ accept c blockHashes lcmBlockSize length g := by
  obtain ⟨n, rfl⟩ := hsize.trans hdvd
  rw [Nat.mul_comm] at hdvd hhit havailable ⊢
  exact Nat.mul_le_mul_right _ ((longestScan_acceptRows heagle h hg hle).longest n hhit hdvd
    ((available_iff _ (h g hg).1 n).1 havailable))

/-- A round of the search, also where blocks of an earlier round are reused. -/
lemma le_hybridPass {currHitLength : ℕ}
    (h : LooksUp c blockHashes lcmBlockSize groups maxLength) (hle : length ≤ maxLength)
    (hids : ∀ g ∈ groups, g.groupIds ≠ []) (hsize : ∀ g ∈ groups, g.spec.blockSize ∣ lcmBlockSize)
    (hdvd : lcmBlockSize ∣ hit) (hhit : hit ≤ length)
    (havailable : ∀ g ∈ groups, ScanAvailable c blockHashes g hit)
    (hpass : hybridPass c blockHashes lcmBlockSize groups length hits = .ok (currHitLength, hits')) :
    hit ≤ currHitLength ∧ currHitLength ≤ length := by
  induction groups generalizing length hits with
  | nil =>
    cases hpass
    exact ⟨hhit, le_rfl⟩
  | cons g groups ih =>
    have hrest {length' : ℕ} {hits'' : HitBlocks} (hle' : length' ≤ length) (hhit' : hit ≤ length')
        (hpass' : hybridPass c blockHashes lcmBlockSize groups length' hits'' = .ok (currHitLength, hits')) :
        hit ≤ currHitLength ∧ currHitLength ≤ length := by
      obtain ⟨hge, hbound⟩ := ih h.tail (hle'.trans hle) (fun g' hg' => hids g' (mem_cons_of_mem _ hg'))
        (fun g' hg' => hsize g' (mem_cons_of_mem _ hg')) hhit'
        (fun g' hg' => havailable g' (mem_cons_of_mem _ hg')) hpass'
      exact ⟨hge, hbound.trans hle'⟩
    have hfirst := le_accept heagle h mem_cons_self hle (hsize g mem_cons_self) hdvd hhit
      (havailable g mem_cons_self)
    by_cases hfresh : Fresh hits g
    · rw [hybridPass_cons_fresh h hle (hids g mem_cons_self) hfresh] at hpass
      exact hrest (accept_le h mem_cons_self hle) hfirst hpass
    · obtain ⟨hfull, hsome⟩ : g.spec.isFullAttention = true ∧ (hits.getD (g.groupIds.headD 0) none).isSome = true := by
        rw [Fresh, Classical.not_imp, Bool.not_eq_false] at hfresh
        exact hfresh
      rw [hybridPass] at hpass
      simp only [hfull, hsome, Bool.and_self, if_true] at hpass
      refine hrest (Nat.div_mul_le_self _ _) ?_ hpass
      obtain ⟨n, rfl⟩ := (hsize g mem_cons_self).trans hdvd
      rw [Nat.mul_comm] at hhit ⊢
      exact Nat.mul_le_mul_right _ ((Nat.le_div_iff_mul_le (h g mem_cons_self).1).2 hhit)

/-- The search as a whole. -/
lemma le_hybridLoop {isSimple : Bool} {fuel : ℕ}
    (h : LooksUp c blockHashes lcmBlockSize groups maxLength) (hle : length ≤ maxLength)
    (hids : ∀ g ∈ groups, g.groupIds ≠ []) (hsize : ∀ g ∈ groups, g.spec.blockSize ∣ lcmBlockSize)
    (hdvd : lcmBlockSize ∣ hit) (hhit : hit ≤ length)
    (havailable : ∀ g ∈ groups, ScanAvailable c blockHashes g hit)
    (hloop : hybridLoop c blockHashes groups lcmBlockSize isSimple fuel length hits = .ok (hitLength, hits')) :
    hit ≤ hitLength := by
  induction fuel generalizing length hits with
  | zero =>
    cases hloop
    exact hhit
  | succ fuel ih =>
    rw [hybridLoop] at hloop
    obtain ⟨⟨currHitLength, hits₁⟩, hpass, hloop⟩ := bind_eq_ok hloop
    obtain ⟨hge, hbound⟩ := le_hybridPass heagle h hle hids hsize hdvd hhit havailable hpass
    dsimp only at hloop
    split at hloop
    · cases hloop
      exact hhit
    · split at hloop
      · cases hloop
        exact hge
      · exact ih (hbound.trans hle) hge hloop

/-! ## All types accept the result -/

/-- A length up to what full attention accepts. -/
lemma scanAvailable_of_full (h : LooksUp c blockHashes lcmBlockSize groups maxLength) (hg : g ∈ groups)
    (hle : length ≤ maxLength) (hfull : g.spec.isFullAttention = true) (hdvd : g.spec.blockSize ∣ hit)
    (hhit : hit ≤ accept c blockHashes lcmBlockSize length g) : ScanAvailable c blockHashes g hit := by
  obtain ⟨n, rfl⟩ := hdvd
  have hpos := (h g hg).1
  have hfirst : ∀ n, firstNeeded (scannedSpec g.spec) g.spec.blockSize n = 0 := by
    intro n
    cases hspec : g.spec with
    | slidingWindow => rw [hspec] at hfull; cases hfull
    | chunkedLocalAttention => rw [hspec] at hfull; cases hfull
    | mamba => rw [hspec] at hfull; cases hfull
    | _ => rfl
  have hnot : isChunked g.spec = false := by
    cases hspec : g.spec with
    | chunkedLocalAttention => rw [hspec] at hfull; cases hfull
    | _ => rfl
  have hcached := (longestScan_acceptRows heagle h hg hle).cached (by simp [hnot])
  rw [hfirst] at hcached
  rw [accept, Nat.mul_comm] at hhit
  rw [ScanAvailable, Nat.mul_comm, available_iff _ hpos, hfirst]
  exact fun i hi hlt => hcached i hi (hlt.trans_le (Nat.le_of_mul_le_mul_right hhit hpos))

/-- A length that another type accepts; for chunked local attention, as a whole. -/
lemma scanAvailable_of_accepted (h : LooksUp c blockHashes lcmBlockSize groups maxLength) (hg : g ∈ groups)
    (hle : length ≤ maxLength)
    (hchunk : isChunked g.spec → accept c blockHashes lcmBlockSize length g = length) :
    ScanAvailable c blockHashes g (accept c blockHashes lcmBlockSize length g) :=
  (available_iff _ (h g hg).1 _).2 ((longestScan_acceptRows heagle h hg hle).cached fun hc => .inr (hchunk hc))

end

/-- Chunked local attention in the simple case: the block in which the chunk starts is cached, or not read. -/
def ChunkStartAvailable (c : KVCacheCoordinator) (blockHashes : List BlockHash) (g : AttentionGroup) (length : ℕ) :
    Prop :=
  match g.spec with
  | .chunkedLocalAttention attention chunkSize =>
    StartCached c.blockPool (c.blockHashesFor blockHashes g.spec) g.groupIds attention.blockSize chunkSize
        (length / chunkSize * chunkSize) ∨
      Available c.blockPool (c.blockHashesFor blockHashes g.spec) g.groupIds g.spec attention.blockSize
        (length / chunkSize * chunkSize / attention.blockSize * attention.blockSize)
  | _ => True

lemma chunked_available_iff {pool : BlockPool} {hashes : List BlockHash} {ids : List ℕ} {chunkSize : ℕ}
    {attention : AttentionSpec} {rows : List BlockRow} (hpos : 0 < attention.blockSize)
    (hdvd : attention.blockSize ∣ length) {alignmentTokens : ℕ}
    (h : chunkedLocalAttention pool hashes ids length attention.blockSize chunkSize alignmentTokens = .ok rows) :
    Available pool hashes ids (.chunkedLocalAttention attention chunkSize) attention.blockSize
        (rows.length * attention.blockSize) ↔
      StartCached pool hashes ids attention.blockSize chunkSize (length / chunkSize * chunkSize) ∨
        Available pool hashes ids (.chunkedLocalAttention attention chunkSize) attention.blockSize
          (length / chunkSize * chunkSize / attention.blockSize * attention.blockSize) := by
  have hneeded (hstart : StartCached pool hashes ids attention.blockSize chunkSize (length / chunkSize * chunkSize)) :
      Available pool hashes ids (.chunkedLocalAttention attention chunkSize) attention.blockSize
        (rows.length * attention.blockSize) := by
    intro i hi hlt
    rw [Nat.mul_div_cancel _ hpos] at hlt
    obtain ⟨row, hrow, -⟩ := chunked_neededCached hpos hdvd h hstart i hi hlt
    exact Option.isSome_iff_exists.2 ⟨row, hrow⟩
  obtain ⟨hscan, -, hfirst, -, -⟩ := chunkedLocalAttention_spec h
  rw [localAttentionStartBlockIdx] at hfirst
  rcases Nat.eq_or_lt_of_le hfirst with heq | hlt
  · rw [heq]
    exact ⟨.inr, fun hor => hor.elim hneeded id⟩
  · -- the block in which the chunk starts was found
    have hstart : StartCached pool hashes ids attention.blockSize chunkSize (length / chunkSize * chunkSize) := by
      obtain ⟨row, hrow, -⟩ := hscan.cached _ le_rfl hlt
      exact .inr (.inl (Option.isSome_iff_exists.2 ⟨row, hrow⟩))
    exact iff_of_true (hneeded hstart) (.inl hstart)

lemma scanAvailable_accept_iff (heagle : c.useEagle = false)
    (h : LooksUp c blockHashes lcmBlockSize groups maxLength) (hg : g ∈ groups)
    (hle : length ≤ maxLength) (hdvd : g.spec.blockSize ∣ length) :
    ScanAvailable c blockHashes g (accept c blockHashes lcmBlockSize length g) ↔
      ChunkStartAvailable c blockHashes g length := by
  cases hspec : g.spec with
  | chunkedLocalAttention attention chunkSize =>
    obtain ⟨hpos, hlooks⟩ := h g hg
    have hrows := hlooks length hle
    rw [hspec] at hpos hrows hdvd
    obtain ⟨_, -, hrows⟩ := bind_eq_ok hrows
    obtain ⟨_, -, hrows⟩ := bind_eq_ok hrows
    obtain ⟨_, -, hrows⟩ := bind_eq_ok hrows
    rw [ScanAvailable, ChunkStartAvailable, accept, hspec]
    exact chunked_available_iff hpos hdvd hrows
  | _ =>
    refine iff_of_true (scanAvailable_of_accepted heagle h hg hle ?_) ?_
    · simp [hspec, isChunked]
    · simp [ChunkStartAvailable, hspec]

/-! ## The longest common hit -/

/-- A candidate that all scans accept and that no common hit exceeds. -/
lemma isGreatest_commonHits_iff (hpos : ∀ g ∈ groups, 0 < g.spec.blockSize)
    (hsize : ∀ g ∈ groups, g.spec.blockSize ∣ lcmBlockSize) (hle : hitLength ≤ maxLength)
    (hdvd : lcmBlockSize ∣ hitLength) (havailable : ∀ g ∈ groups, ScanAvailable c blockHashes g hitLength)
    (hlongest : ∀ hit ≤ maxLength, lcmBlockSize ∣ hit → (∀ g ∈ groups, ScanAvailable c blockHashes g hit) →
      hit ≤ hitLength) :
    IsGreatest (commonHits c blockHashes groups lcmBlockSize maxLength) hitLength ↔
      ∀ length, IsGreatest (commonHits c blockHashes groups lcmBlockSize maxLength) length → ∀ g ∈ groups,
        WindowEndCached c.blockPool (c.blockHashesFor blockHashes g.spec) g.groupIds g.spec length := by
  have hiff (g : AttentionGroup) (hg : g ∈ groups) (length : ℕ) (hlength : lcmBlockSize ∣ length) :
      Available c.blockPool (c.blockHashesFor blockHashes g.spec) g.groupIds (scannedSpec g.spec) g.spec.blockSize
          length ↔
        Available c.blockPool (c.blockHashesFor blockHashes g.spec) g.groupIds g.spec g.spec.blockSize length ∧
          WindowEndCached c.blockPool (c.blockHashesFor blockHashes g.spec) g.groupIds g.spec length :=
    available_scannedSpec_iff (hpos g hg) ((hsize g hg).trans hlength) (.inr rfl)
  have hmember : hitLength ∈ commonHits c blockHashes groups lcmBlockSize maxLength :=
    ⟨hle, hdvd, fun g hg => ((hiff g hg _ hdvd).1 (havailable g hg)).1⟩
  constructor
  · intro hgreatest length hlength g hg
    rw [hlength.unique hgreatest]
    exact ((hiff g hg _ hdvd).1 (havailable g hg)).2
  · intro hend
    -- there is a longest common hit, and its windows end in cached blocks
    obtain ⟨length, hlength⟩ := BddAbove.exists_isGreatest_of_nonempty
      (⟨maxLength, fun _ h => h.1⟩ : BddAbove (commonHits c blockHashes groups lcmBlockSize maxLength)) ⟨_, hmember⟩
    have hge : length ≤ hitLength := hlongest length hlength.1.1 hlength.1.2.1 fun g hg =>
      (hiff g hg _ hlength.1.2.1).2 ⟨hlength.1.2.2 g hg, hend length hlength g hg⟩
    rw [le_antisymm hge (hlength.2 hmember)] at hlength
    exact hlength

/-- With one full attention type and one other, the other scans only once. -/
def SimpleChunkAvailable (c : KVCacheCoordinator) (blockHashes : List BlockHash) (lcmBlockSize maxLength : ℕ) :
    List AttentionGroup → Prop
  | [f, g] => f.spec.isFullAttention = true → ∀ length,
      IsGreatest (commonHits c blockHashes [f] lcmBlockSize maxLength) length →
        ChunkStartAvailable c blockHashes g length
  | _ => True

section Context

variable {specs : List KVCacheSpec} {maxLength : ℕ} {fulls others : List AttentionGroup}

lemma HybridContext.blockSize_pos (h : HybridContext c specs blockHashes lcmBlockSize maxLength fulls others) :
    ∀ g ∈ fulls ++ others, 0 < g.spec.blockSize :=
  fun g hg => (h.looksUp g hg).1

/-- Where the search goes on until no type lowers the candidate, all scans accept it. -/
lemma HybridContext.scanAvailable_found (heagle : c.useEagle = false)
    (h : HybridContext c specs blockHashes lcmBlockSize maxLength fulls others) (hle : hitLength ≤ maxLength)
    (hfound : Found c blockHashes lcmBlockSize fulls others maxLength hitLength hits) :
    ∀ g ∈ fulls ++ others, ScanAvailable c blockHashes g hitLength := by
  intro g hg
  rcases List.mem_append.1 hg with hf | ho
  · obtain ⟨front, back, hsplit⟩ := append_of_mem hf
    have hlooks := h.looksUp
    rw [hsplit, append_assoc, cons_append] at hlooks
    have hfrontLooks : LooksUp c blockHashes lcmBlockSize front maxLength :=
      fun g' hg' => hlooks g' (mem_append_left _ hg')
    have hrestLooks : LooksUp c blockHashes lcmBlockSize (back ++ others) maxLength :=
      fun g' hg' => hlooks g' (mem_append_right _ (mem_cons_of_mem _ hg'))
    have hfront : front.foldl (accept c blockHashes lcmBlockSize) maxLength ≤ maxLength :=
      foldl_accept_le hfrontLooks le_rfl
    have hacc : hitLength ≤ accept c blockHashes lcmBlockSize
        (front.foldl (accept c blockHashes lcmBlockSize) maxLength) g := by
      have hall := hfound.le
      rw [hsplit, append_assoc, cons_append, foldl_append, foldl_cons] at hall
      exact hall.trans (foldl_accept_le hrestLooks ((accept_le h.looksUp hg hfront).trans hfront))
    exact scanAvailable_of_full heagle h.looksUp hg hfront (h.fulls_full g hf) ((h.dvd g hg).trans hfound.dvd) hacc
  · have hacc := (hfound.accepted g ho).1
    have havailable := scanAvailable_of_accepted heagle h.looksUp hg hle fun _ => hacc
    rwa [hacc] at havailable

/-- In the simple case the first type's longest hit is where the other type looks. -/
lemma isGreatest_accept_full {f : AttentionGroup} (heagle : c.useEagle = false)
    (h : HybridContext c specs blockHashes lcmBlockSize maxLength fulls others)
    (hgroups : fulls ++ others = [f, g]) (hfull : f.spec.isFullAttention = true) :
    IsGreatest (commonHits c blockHashes [f] lcmBlockSize maxLength) (accept c blockHashes lcmBlockSize maxLength f) := by
  have hf : f ∈ fulls ++ others := by rw [hgroups]; exact mem_cons_self
  have hscan := longestScan_acceptRows heagle h.looksUp hf le_rfl
  have hsame : scannedSpec f.spec = f.spec := by
    cases hspec : f.spec with
    | slidingWindow => rw [hspec] at hfull; cases hfull
    | _ => rfl
  have hnot : isChunked f.spec = false := by
    cases hspec : f.spec with
    | chunkedLocalAttention => rw [hspec] at hfull; cases hfull
    | _ => rfl
  have hgreatest := hscan.isGreatest (h.blockSize_pos f hf) (h.dvd f hf) (by simp [hnot])
  rw [hsame] at hgreatest
  have hset : commonHits c blockHashes [f] lcmBlockSize maxLength = hitLengths c.blockPool
      (c.blockHashesFor blockHashes f.spec) f.groupIds f.spec f.spec.blockSize maxLength lcmBlockSize := by
    ext length
    simp [commonHits, hitLengths]
  rw [hset]
  exact hgreatest

/-- The length that the search returns, and when it is the longest common hit. -/
lemma HybridContext.longest_iff (heagle : c.useEagle = false)
    (h : HybridContext c specs blockHashes lcmBlockSize maxLength fulls others) :
    ∃ hitLength hits, (∀ fuel > maxLength,
        searchLoop c blockHashes (fulls ++ others) lcmBlockSize maxLength fuel = .ok (hitLength, hits)) ∧
      (IsGreatest (commonHits c blockHashes (fulls ++ others) lcmBlockSize maxLength) hitLength ↔
        (∀ length, IsGreatest (commonHits c blockHashes (fulls ++ others) lcmBlockSize maxLength) length →
          ∀ g ∈ fulls ++ others,
            WindowEndCached c.blockPool (c.blockHashesFor blockHashes g.spec) g.groupIds g.spec length) ∧
        SimpleChunkAvailable c blockHashes lcmBlockSize maxLength (fulls ++ others)) := by
  have hids : ∀ g ∈ fulls ++ others, g.groupIds ≠ [] := h.separate.ids_ne_nil
  have hlongest {hitLength : ℕ} {hits : HitBlocks} (hloop : searchLoop c blockHashes (fulls ++ others) lcmBlockSize
      maxLength (maxLength + 1) = .ok (hitLength, hits)) :
      ∀ hit ≤ maxLength, lcmBlockSize ∣ hit → (∀ g ∈ fulls ++ others, ScanAvailable c blockHashes g hit) →
        hit ≤ hitLength :=
    fun hit hhit hdvd havailable => le_hybridLoop heagle h.looksUp le_rfl hids h.dvd hdvd hhit havailable hloop
  rcases h.searchLoop_cases with ⟨f, g, hits, hgroups, hf, hloop, -, -⟩ |
    ⟨hsimple, hitLength, hits, hloop, hfound⟩
  · have hfull := h.fulls_full f hf
    have hfmem : f ∈ fulls ++ others := mem_append_left _ hf
    have hgmem : g ∈ fulls ++ others := by simp [hgroups]
    have hfle : accept c blockHashes lcmBlockSize maxLength f ≤ maxLength := accept_le h.looksUp hfmem le_rfl
    have hgle := accept_le h.looksUp hgmem hfle
    have hfdvd := dvd_accept h.looksUp hfmem le_rfl
    have hgdvd := dvd_accept h.looksUp hgmem hfle
    have hstart := scanAvailable_accept_iff heagle h.looksUp hgmem hfle ((h.dvd g hgmem).trans hfdvd)
    have hsimpleChunk : SimpleChunkAvailable c blockHashes lcmBlockSize maxLength (fulls ++ others) ↔
        ChunkStartAvailable c blockHashes g (accept c blockHashes lcmBlockSize maxLength f) := by
      have hfirst := isGreatest_accept_full heagle h hgroups hfull
      rw [hgroups]
      exact ⟨fun hall => hall hfull _ hfirst, fun hg _ length hlength => hlength.unique hfirst ▸ hg⟩
    refine ⟨_, hits, hloop, ?_⟩
    rw [hsimpleChunk]
    by_cases hchunk : ChunkStartAvailable c blockHashes g (accept c blockHashes lcmBlockSize maxLength f)
    · have havailable : ∀ g' ∈ fulls ++ others, ScanAvailable c blockHashes g'
          (accept c blockHashes lcmBlockSize (accept c blockHashes lcmBlockSize maxLength f) g) := by
        intro g' hg'
        rw [hgroups, mem_cons, mem_singleton] at hg'
        rcases hg' with rfl | rfl
        · exact scanAvailable_of_full heagle h.looksUp hfmem le_rfl hfull ((h.dvd _ hfmem).trans hgdvd) hgle
        · exact hstart.2 hchunk
      rw [isGreatest_commonHits_iff h.blockSize_pos h.dvd (hgle.trans hfle) hgdvd havailable
        (hlongest (hloop _ (Nat.lt_succ_self _)))]
      exact (and_iff_left hchunk).symm
    · refine iff_of_false (fun hgreatest => hchunk (hstart.1 ?_)) fun hboth => hchunk hboth.2
      -- chunked local attention needs what its scan looks for
      have hsame : scannedSpec g.spec = g.spec := by
        cases hspec : g.spec with
        | slidingWindow => exact absurd (by simp [ChunkStartAvailable, hspec]) hchunk
        | _ => rfl
      rw [ScanAvailable, hsame]
      exact hgreatest.1.2.2 g hgmem
  · have hnoChunk : SimpleChunkAvailable c blockHashes lcmBlockSize maxLength (fulls ++ others) := by
      unfold SimpleChunkAvailable
      split
      · rename_i f g hgroups
        intro hfull
        exact absurd (h.isSimpleHybrid_iff.mp (by simp [isSimpleHybrid, hgroups, hfull])) hsimple
      · trivial
    have hle : hitLength ≤ maxLength := hfound.le.trans (foldl_accept_le h.looksUp le_rfl)
    refine ⟨hitLength, hits, hloop, ?_⟩
    rw [isGreatest_commonHits_iff h.blockSize_pos h.dvd hle hfound.dvd (h.scanAvailable_found heagle hle hfound)
      (hlongest (hloop _ (Nat.lt_succ_self _)))]
    exact (and_iff_left hnoChunk).symm

end Context

/-- The search of a hybrid coordinator without eagle returns the longest common hit, exactly when the sliding windows
of no earlier token find the last block of that hit in the cache and, in the simple case, chunked local attention
finds the block in which its chunk starts. -/
theorem findLongestCacheHit_longestCommon_iff {config : KVCacheConfig} {maxModelLen : ℕ}
    {enableCaching enableKvCacheEvents useIntBlockHashes : Bool} {dcpWorldSize pcpWorldSize hashBlockSize : ℕ}
    {c₀ : KVCacheCoordinator} {groups : List AttentionGroup}
    (hnew : KVCacheCoordinator.new config maxModelLen false enableCaching enableKvCacheEvents useIntBlockHashes
      dcpWorldSize pcpWorldSize hashBlockSize = .ok c₀)
    (hkind : c₀.kind = .hybrid groups lcmBlockSize) (hsizes : ∀ spec ∈ config.kvCacheGroups, 0 < spec.blockSize)
    (hsupp : ∀ spec ∈ config.kvCacheGroups, Supported false lcmBlockSize spec) (pool : BlockPool)
    (maxCacheHitLength : ℕ) (hcover : maxCacheHitLength / hashBlockSize ≤ blockHashes.length) :
    ∃ blocks hitLength,
      findLongestCacheHit { c₀ with blockPool := pool } blockHashes maxCacheHitLength = .ok (blocks, hitLength) ∧
      (IsGreatest (commonHits { c₀ with blockPool := pool } blockHashes groups lcmBlockSize maxCacheHitLength)
          hitLength ↔
        (∀ length,
          IsGreatest (commonHits { c₀ with blockPool := pool } blockHashes groups lcmBlockSize maxCacheHitLength)
            length → ∀ g ∈ groups,
          WindowEndCached pool (({ c₀ with blockPool := pool } : KVCacheCoordinator).blockHashesFor blockHashes g.spec)
            g.groupIds g.spec length) ∧
        SimpleChunkAvailable { c₀ with blockPool := pool } blockHashes lcmBlockSize maxCacheHitLength groups) := by
  have heagle : ({ c₀ with blockPool := pool } : KVCacheCoordinator).useEagle = false := by
    obtain ⟨_, -, hrest⟩ := bind_eq_ok hnew
    obtain ⟨_, -, hrest⟩ := bind_eq_ok hrest
    obtain ⟨_, -, rfl⟩ := map_eq_ok hrest
    rfl
  obtain ⟨fulls, others, rfl, hctx⟩ := hybridContext_of_new hnew hkind hsizes hsupp pool hcover
  obtain ⟨hitLength, hits, hloop, hiff⟩ := hctx.longest_iff heagle
  exact ⟨_, hitLength, findLongestCacheHit_eq hctx.kind (hloop _ (Nat.lt_succ_self _)), hiff⟩

/-- Full attention and a window of two tokens have the block: the longest common hit is one token. -/
theorem findLongestCacheHit_longestCommon_fullAndWindow :
    ∃ c₀, KVCacheCoordinator.new fullAndWindow 4 false true false false 1 1 1 = .ok c₀ ∧ ∃ groups,
      c₀.kind = .hybrid groups 1 ∧ ∃ blocks hitLength,
        findLongestCacheHit { c₀ with blockPool := poolCaching c₀.blockPool [7] [0, 1] } [[7]] 1 =
          .ok (blocks, hitLength) ∧
        IsGreatest (commonHits { c₀ with blockPool := poolCaching c₀.blockPool [7] [0, 1] } [[7]] groups 1 1)
          hitLength := by
  obtain ⟨c₀, hnew, hkind⟩ : ∃ c₀, KVCacheCoordinator.new fullAndWindow 4 false true false false 1 1 1 = .ok c₀ ∧
      c₀.kind = .hybrid [⟨.fullAttention { attentionWithHeads 1 with }, [0]⟩,
        ⟨.slidingWindow (attentionWithHeads 1) 2, [1]⟩] 1 := ⟨_, rfl, by decide⟩
  have hsupp : ∀ spec ∈ fullAndWindow.kvCacheGroups, Supported false 1 spec := by
    intro spec hspec
    simp only [fullAndWindow, mem_cons, not_mem_nil, or_false] at hspec
    rcases hspec with rfl | rfl
    · trivial
    · exact fun h => absurd h Bool.false_ne_true
  obtain ⟨blocks, hitLength, hfind, hiff⟩ := findLongestCacheHit_longestCommon_iff hnew hkind (by decide) hsupp
    (poolCaching c₀.blockPool [7] [0, 1]) 1 (show 1 / 1 ≤ ([[7]] : List BlockHash).length by decide)
  refine ⟨c₀, hnew, _, hkind, blocks, hitLength, hfind, hiff.2 ⟨?_, fun _ _ _ => trivial⟩⟩
  intro length _ g hg
  simp only [mem_cons, not_mem_nil, or_false] at hg
  rcases hg with rfl | rfl
  · trivial
  · exact .inl (by decide)

def fullAndEmptyWindow : KVCacheConfig where
  numBlocks := 4
  kvCacheGroups := [.fullAttention { attentionWithHeads 1 with }, .slidingWindow (attentionWithHeads 1) 1]

/-- A window of the token itself needs no block, and full attention has the block; the search returns no hit. -/
theorem findLongestCacheHit_misses_common :
    ∃ c₀ groups, KVCacheCoordinator.new fullAndEmptyWindow 4 false true false false 1 1 1 = .ok c₀ ∧
      c₀.kind = .hybrid groups 1 ∧
      findLongestCacheHit { c₀ with blockPool := poolCaching c₀.blockPool [7] [0] } [[7]] 1 = .ok ([[], []], 0) ∧
      ¬ IsGreatest (commonHits { c₀ with blockPool := poolCaching c₀.blockPool [7] [0] } [[7]] groups 1 1) 0 := by
  refine ⟨_, [⟨.fullAttention { attentionWithHeads 1 with }, [0]⟩, ⟨.slidingWindow (attentionWithHeads 1) 1, [1]⟩],
    rfl, by decide, by decide, fun hgreatest => absurd (hgreatest.2 (?_ : 1 ∈ _)) (by decide)⟩
  refine ⟨le_rfl, dvd_rfl, ?_⟩
  intro g hg
  simp only [mem_cons, not_mem_nil, or_false] at hg
  rcases hg with rfl | rfl
  · intro i _ hi
    obtain rfl : i = 0 := Nat.lt_one_iff.1 hi
    decide
  · exact slidingWindow_available _ _ _ _ (by decide) le_rfl 1

end VllmRuntime.KVCacheCoordinator
