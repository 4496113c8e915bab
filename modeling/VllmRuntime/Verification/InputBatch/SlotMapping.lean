import VllmRuntime.Model.SlotMapping
import VllmRuntime.Shared.Interleave

/-! # Slots of the KV cache under context parallelism

The ranks share the positions of a sequence by interleaving. Each rank numbers its own positions and puts
them one after the other into the blocks of the sequence. -/

namespace VllmRuntime

open List Interleave

variable {pcp dcp I n : ℕ} {sizes : BlockTableSizes} {table : ℕ → ℕ → ℕ} {req p : ℕ}

/-! ## One slot -/

/-- The tables are wide enough for the longest sequence. -/
lemma BlockTableSizes.new_fits {blockSize kernelBlockSize maxModelLen totalCpWorldSize : ℕ}
    (hblock : 0 < blockSize) (hworld : 0 < totalCpWorldSize)
    (h : BlockTableSizes.new blockSize kernelBlockSize maxModelLen totalCpWorldSize = .ok sizes) :
    maxModelLen ≤ sizes.maxNumBlocksPerReq * (sizes.blockSize * totalCpWorldSize) := by
  have hle := le_cdiv_mul maxModelLen (Nat.mul_pos hblock hworld)
  unfold BlockTableSizes.new at h
  dsimp only at h
  split at h
  · cases h
    exact hle
  · split at h
    · cases h
    · rename_i hmod
      cases h
      have hdiv : blockSize / kernelBlockSize * kernelBlockSize = blockSize := by
        have := Nat.div_add_mod' blockSize kernelBlockSize
        omega
      calc maxModelLen ≤ cdiv maxModelLen (blockSize * totalCpWorldSize) * (blockSize * totalCpWorldSize) := hle
        _ = cdiv maxModelLen (blockSize * totalCpWorldSize) * (blockSize / kernelBlockSize) *
            (kernelBlockSize * totalCpWorldSize) := by
          nth_rewrite 2 [← hdiv]
          ring

lemma ravel_eq {width i j : ℕ} (h : j < width) : ravel width table (i * width + j) = table i j := by
  have hdiv : (i * width + j) / width = i := by
    rw [Nat.mul_comm, Nat.mul_add_div (by omega), Nat.div_eq_of_lt h, Nat.add_zero]
  have hmod : (i * width + j) % width = j := by
    rw [Nat.mul_comm, Nat.mul_add_mod, Nat.mod_eq_of_lt h]
  rw [ravel, hdiv, hmod]

lemma int32_of_lt {x : ℤ} (h0 : 0 ≤ x) (h : x < 2 ^ 31) : int32 x = x := by
  unfold int32
  exact Int.bmod_eq_of_le (by omega) (by omega)

lemma int32_lt (x : ℤ) : int32 x < 2 ^ 31 := by
  have := Int.bmod_lt (x := x) (m := 2 ^ 32) (by norm_num)
  unfold int32
  omega

/-- The slot in the words of the interleaved distribution, with or without context parallelism. -/
lemma slotOf_eq (hI : 0 < I) (cp : ContextParallel) (hworld : 0 < cp.totalCpWorldSize)
    (hrank : cp.totalCpRank < cp.totalCpWorldSize) (hinterleave : cp.cpKvCacheInterleaveSize = I)
    (hblock : I ∣ sizes.blockSize)
    (hfits : p / (sizes.blockSize * cp.totalCpWorldSize) < sizes.maxNumBlocksPerReq) :
    slotOf cp sizes table req p =
      if owner cp.totalCpWorldSize I p = cp.totalCpRank then
        int32 (table req (p / (sizes.blockSize * cp.totalCpWorldSize)) * sizes.blockSize) +
          localIndex cp.totalCpWorldSize I (p % (sizes.blockSize * cp.totalCpWorldSize))
      else -1 := by
  unfold slotOf
  dsimp only
  split
  · rw [ravel_eq hfits, hinterleave, ← owner_mod hI hblock p]
    rfl
  · have hone : cp.totalCpWorldSize = 1 := by omega
    have hzero : cp.totalCpRank = 0 := by omega
    have howner : owner 1 I p = 0 := Nat.mod_one _
    have hindex : localIndex 1 I (p % sizes.blockSize) = p % sizes.blockSize := by
      rw [localIndex, Nat.one_mul]
      exact Nat.div_add_mod' _ _
    rw [hone, Nat.mul_one] at hfits ⊢
    rw [ravel_eq hfits, hzero, if_pos howner, hindex]

/-! ## All slots of a sequence -/

/-- The workers of all ranks. -/
def workerOf (pcp dcp I : ℕ) (ranks : ℕ × ℕ) : ContextParallel := ⟨pcp, ranks.1, dcp, ranks.2, I⟩

/-- The positions of a sequence that get a slot on a rank, in order. -/
def localPositions (cp : ContextParallel) (sizes : BlockTableSizes) (table : ℕ → ℕ → ℕ) (req n : ℕ) :
    List ℕ :=
  (List.range n).filter fun p => slotOf cp sizes table req p ≠ -1

/-- What the slots of the sequences with these lengths are to be. -/
structure SlotsRight (pcp dcp I : ℕ) (sizes : BlockTableSizes) (table : ℕ → ℕ → ℕ) (lens : ℕ → ℕ) :
    Prop where
  entry : ∀ ranks (reqIndices positions : List ℕ) (t req p : ℕ),
    reqIndices[t]? = some req → positions[t]? = some p →
      (computeSlotMapping (workerOf pcp dcp I ranks) sizes table reqIndices positions)[t]? =
        some (slotOf (workerOf pcp dcp I ranks) sizes table req p)
  exactlyOne : ∀ req p, p < lens req → ∃! ranks : ℕ × ℕ, (ranks.1 < pcp ∧ ranks.2 < dcp) ∧
    slotOf (workerOf pcp dcp I ranks) sizes table req p ≠ -1
  inOrder : ∀ ranks : ℕ × ℕ, ranks.1 < pcp → ranks.2 < dcp → ∀ req k p,
    (localPositions (workerOf pcp dcp I ranks) sizes table req (lens req))[k]? = some p →
      slotOf (workerOf pcp dcp I ranks) sizes table req p =
        (table req (k / sizes.blockSize) * sizes.blockSize + k % sizes.blockSize : ℕ) ∧
      k % sizes.blockSize < sizes.blockSize
  apart : (∀ req req' j j', j * (sizes.blockSize * (pcp * dcp)) < lens req →
      j' * (sizes.blockSize * (pcp * dcp)) < lens req' → table req j = table req' j' → req = req' ∧ j = j') →
    ∀ ranks : ℕ × ℕ, ranks.1 < pcp → ranks.2 < dcp → ∀ req req' p p', p < lens req → p' < lens req' →
      slotOf (workerOf pcp dcp I ranks) sizes table req p ≠ -1 →
      slotOf (workerOf pcp dcp I ranks) sizes table req p =
        slotOf (workerOf pcp dcp I ranks) sizes table req' p' → req = req' ∧ p = p'
  lengths : pcp = 1 → ∀ req dcpRank, dcpRank < dcp →
    ((localPositions (workerOf pcp dcp I (0, dcpRank)) sizes table req (lens req)).length : ℤ) =
      getDcpLocalSeqLen (lens req) dcp dcpRank I
  total : pcp = 1 → ∀ req, ∑ dcpRank ∈ Finset.range dcp, getDcpLocalSeqLen (lens req) dcp dcpRank I = lens req

lemma getDcpLocalSeqLen_eq (seqLen dcpRank : ℕ) :
    getDcpLocalSeqLen seqLen dcp dcpRank I = localLength dcp I dcpRank seqLen := by
  have hdiv : seqLen / I / dcp = seqLen / (dcp * I) := by rw [Nat.div_div_eq_div_mul, Nat.mul_comm]
  have hmod := Nat.div_add_mod seqLen (dcp * I)
  unfold getDcpLocalSeqLen localLength
  dsimp only
  have hbase : (seqLen : ℤ) / I / dcp * I = ((seqLen / (dcp * I) * I : ℕ) : ℤ) := by
    rw [← hdiv]
    push_cast
    rfl
  have hrest : (seqLen : ℤ) - ((seqLen / (dcp * I) * I : ℕ) : ℤ) * dcp = ((seqLen % (dcp * I) : ℕ) : ℤ) := by
    have hcast : ((dcp * I * (seqLen / (dcp * I)) + seqLen % (dcp * I) : ℕ) : ℤ) = seqLen := by rw [hmod]
    push_cast at hcast ⊢
    linarith
  rw [hbase, hrest, ← Nat.cast_mul dcpRank I]
  generalize seqLen % (dcp * I) = rest
  generalize dcpRank * I = before
  generalize seqLen / (dcp * I) * I = base
  omega

section

variable {lens : ℕ → ℕ} {maxModelLen : ℕ}

/-- What is assumed of the sizes: the interleave size divides the block size, and the sequences fit in the
rows. -/
structure SlotSizes (pcp dcp I : ℕ) (sizes : BlockTableSizes) (lens : ℕ → ℕ) : Prop where
  pcp_pos : 0 < pcp
  dcp_pos : 0 < dcp
  interleave_pos : 0 < I
  block_pos : 0 < sizes.blockSize
  dvd : I ∣ sizes.blockSize
  fits : ∀ req, lens req ≤ sizes.maxNumBlocksPerReq * (sizes.blockSize * (pcp * dcp))

namespace SlotSizes

variable {ranks : ℕ × ℕ}

lemma world_pos (h : SlotSizes pcp dcp I sizes lens) : 0 < pcp * dcp := Nat.mul_pos h.pcp_pos h.dcp_pos

lemma rank_lt (h1 : ranks.1 < pcp) (h2 : ranks.2 < dcp) :
    ranks.1 * dcp + ranks.2 < pcp * dcp := by
  calc ranks.1 * dcp + ranks.2 < ranks.1 * dcp + dcp := Nat.add_lt_add_left h2 _
    _ = (ranks.1 + 1) * dcp := by ring
    _ ≤ pcp * dcp := Nat.mul_le_mul_right dcp h1

lemma block_lt (h : SlotSizes pcp dcp I sizes lens) (hp : p < lens req) :
    p / (sizes.blockSize * (pcp * dcp)) < sizes.maxNumBlocksPerReq := by
  rw [Nat.div_lt_iff_lt_mul (Nat.mul_pos h.block_pos h.world_pos)]
  exact lt_of_lt_of_le hp (h.fits req)

lemma slotOf_workerOf (h : SlotSizes pcp dcp I sizes lens) (h1 : ranks.1 < pcp) (h2 : ranks.2 < dcp)
    (hp : p < lens req) :
    slotOf (workerOf pcp dcp I ranks) sizes table req p =
      if owner (pcp * dcp) I p = ranks.1 * dcp + ranks.2 then
        int32 (table req (p / (sizes.blockSize * (pcp * dcp))) * sizes.blockSize) +
          localIndex (pcp * dcp) I (p % (sizes.blockSize * (pcp * dcp)))
      else -1 :=
  slotOf_eq h.interleave_pos (workerOf pcp dcp I ranks) h.world_pos (rank_lt h1 h2) rfl h.dvd
    (h.block_lt hp)

/-- No product of a block number of the sequences with the block size leaves the range of `int32`. -/
def Bounded (pcp dcp : ℕ) (sizes : BlockTableSizes) (table : ℕ → ℕ → ℕ) (lens : ℕ → ℕ) : Prop :=
  ∀ req j, j * (sizes.blockSize * (pcp * dcp)) < lens req → table req j * sizes.blockSize < 2 ^ 31

section

variable (h : SlotSizes pcp dcp I sizes lens)
include h

lemma slotOf_of_bound (h1 : ranks.1 < pcp) (h2 : ranks.2 < dcp)
    (hp : p < lens req) (hbound : table req (p / (sizes.blockSize * (pcp * dcp))) * sizes.blockSize < 2 ^ 31) :
    slotOf (workerOf pcp dcp I ranks) sizes table req p =
      if owner (pcp * dcp) I p = ranks.1 * dcp + ranks.2 then
        ((table req (p / (sizes.blockSize * (pcp * dcp))) * sizes.blockSize +
          localIndex (pcp * dcp) I (p % (sizes.blockSize * (pcp * dcp))) : ℕ) : ℤ)
      else -1 := by
  rw [h.slotOf_workerOf h1 h2 hp]
  split
  · rw [← Nat.cast_mul, int32_of_lt (Int.natCast_nonneg _) (by exact_mod_cast hbound), ← Nat.cast_add]
  · rfl

lemma slotOf_ne_iff (h1 : ranks.1 < pcp) (h2 : ranks.2 < dcp)
    (hp : p < lens req) (hbound : table req (p / (sizes.blockSize * (pcp * dcp))) * sizes.blockSize < 2 ^ 31) :
    slotOf (workerOf pcp dcp I ranks) sizes table req p ≠ -1 ↔
      owner (pcp * dcp) I p = ranks.1 * dcp + ranks.2 := by
  rw [h.slotOf_of_bound h1 h2 hp hbound]
  split
  · rename_i howner
    simp only [ne_eq, howner, iff_true]
    omega
  · rename_i howner
    simp [howner]

/-- The positions with a slot are those of the rank. -/
lemma localPositions_eq (ranks : ℕ × ℕ) (h1 : ranks.1 < pcp)
    (h2 : ranks.2 < dcp) (hn : n ≤ lens req)
    (hbound : ∀ j, j * (sizes.blockSize * (pcp * dcp)) < n → table req j * sizes.blockSize < 2 ^ 31) :
    localPositions (workerOf pcp dcp I ranks) sizes table req n =
      owned (pcp * dcp) I (ranks.1 * dcp + ranks.2) n := by
  refine filter_congr fun p hp => ?_
  have hp := List.mem_range.mp hp
  have hblock := hbound _ (lt_of_le_of_lt (Nat.div_mul_le_self p _) hp)
  simp only [h.slotOf_ne_iff h1 h2 (lt_of_lt_of_le hp hn) hblock]

/-- The index on the rank gives the block and the offset in it. -/
lemma localIndex_div (p : ℕ) :
    localIndex (pcp * dcp) I p / sizes.blockSize = p / (sizes.blockSize * (pcp * dcp)) ∧
      localIndex (pcp * dcp) I p % sizes.blockSize =
        localIndex (pcp * dcp) I (p % (sizes.blockSize * (pcp * dcp))) := by
  have hlt : localIndex (pcp * dcp) I (p % (sizes.blockSize * (pcp * dcp))) < sizes.blockSize :=
    localIndex_lt h.world_pos h.interleave_pos h.dvd (Nat.mod_lt _ (Nat.mul_pos h.block_pos h.world_pos))
  rw [localIndex_mod h.world_pos h.interleave_pos h.dvd, Nat.mul_comm]
  constructor
  · rw [Nat.mul_add_div h.block_pos, Nat.div_eq_of_lt hlt, Nat.add_zero]
  · rw [Nat.mul_add_mod, Nat.mod_eq_of_lt hlt]

/-- The index on the rank and the rank give the position. -/
lemma eq_of_localIndex {p' : ℕ}
    (howner : owner (pcp * dcp) I p = owner (pcp * dcp) I p')
    (hindex : localIndex (pcp * dcp) I p = localIndex (pcp * dcp) I p') : p = p' := by
  obtain ⟨a, b, c, rfl, hb, hc⟩ := exists_digits h.world_pos h.interleave_pos p
  obtain ⟨a', b', c', rfl, hb', hc'⟩ := exists_digits h.world_pos h.interleave_pos p'
  rw [owner_digits hb hc, owner_digits hb' hc'] at howner
  rw [localIndex_digits hb hc, localIndex_digits hb' hc'] at hindex
  have ha : a = a' := by
    have hdiv := congrArg (· / I) hindex
    simp only [Nat.mul_comm _ I, Nat.mul_add_div h.interleave_pos, Nat.div_eq_of_lt hc,
      Nat.div_eq_of_lt hc', Nat.add_zero] at hdiv
    exact hdiv
  subst ha howner
  have hc : c = c' := Nat.add_left_cancel hindex
  rw [hc]

end

end SlotSizes

/-! ## When the slots are right -/

lemma SlotSizes.Bounded.block (h : SlotSizes.Bounded pcp dcp sizes table lens) (hp : p < lens req) :
    table req (p / (sizes.blockSize * (pcp * dcp))) * sizes.blockSize < 2 ^ 31 :=
  h req _ (lt_of_le_of_lt (Nat.div_mul_le_self p _) hp)

namespace SlotsRight

variable (h : SlotSizes pcp dcp I sizes lens) (hbounded : SlotSizes.Bounded pcp dcp sizes table lens)
  {ranks : ℕ × ℕ}
include h hbounded

lemma exactlyOne_of_bounded (hp : p < lens req) : ∃! ranks : ℕ × ℕ, (ranks.1 < pcp ∧ ranks.2 < dcp) ∧
    slotOf (workerOf pcp dcp I ranks) sizes table req p ≠ -1 := by
  have howner : owner (pcp * dcp) I p < pcp * dcp := owner_lt h.world_pos p
  refine ⟨(owner (pcp * dcp) I p / dcp, owner (pcp * dcp) I p % dcp), ⟨⟨?_, Nat.mod_lt _ h.dcp_pos⟩, ?_⟩, ?_⟩
  · exact (Nat.div_lt_iff_lt_mul h.dcp_pos).mpr howner
  · rw [h.slotOf_ne_iff ((Nat.div_lt_iff_lt_mul h.dcp_pos).mpr howner) (Nat.mod_lt _ h.dcp_pos) hp
      (hbounded.block hp)]
    exact (Nat.div_add_mod' _ _).symm
  · rintro ⟨pcpRank, dcpRank⟩ ⟨⟨h1, h2⟩, hslot⟩
    rw [h.slotOf_ne_iff h1 h2 hp (hbounded.block hp)] at hslot
    have hdiv : (dcp * pcpRank + dcpRank) / dcp = pcpRank := by
      rw [Nat.mul_add_div h.dcp_pos, Nat.div_eq_of_lt h2, Nat.add_zero]
    have hmod : (dcp * pcpRank + dcpRank) % dcp = dcpRank := by
      rw [Nat.mul_add_mod, Nat.mod_eq_of_lt h2]
    rw [hslot, Nat.mul_comm pcpRank dcp, hdiv, hmod]

lemma inOrder_of_bounded (h1 : ranks.1 < pcp) (h2 : ranks.2 < dcp) {k : ℕ}
    (hk : (localPositions (workerOf pcp dcp I ranks) sizes table req (lens req))[k]? = some p) :
    slotOf (workerOf pcp dcp I ranks) sizes table req p =
      (table req (k / sizes.blockSize) * sizes.blockSize + k % sizes.blockSize : ℕ) := by
  rw [h.localPositions_eq ranks h1 h2 le_rfl (hbounded req)] at hk
  have hindex := localIndex_of_owned h.world_pos h.interleave_pos (SlotSizes.rank_lt h1 h2) hk
  have hmem := List.mem_filter.mp (mem_of_getElem? hk)
  have hp := List.mem_range.mp hmem.1
  obtain ⟨hdiv, hmod⟩ := h.localIndex_div p
  rw [h.slotOf_of_bound h1 h2 hp (hbounded.block hp), if_pos (of_decide_eq_true hmem.2), ← hdiv, ← hmod,
    hindex]

/-- Two positions with one slot are in one block, at one offset. -/
lemma apart_of_bounded (hblocks : ∀ req req' j j', j * (sizes.blockSize * (pcp * dcp)) < lens req →
      j' * (sizes.blockSize * (pcp * dcp)) < lens req' → table req j = table req' j' → req = req' ∧ j = j')
    (h1 : ranks.1 < pcp) (h2 : ranks.2 < dcp) {req' p' : ℕ} (hp : p < lens req) (hp' : p' < lens req')
    (hslot : slotOf (workerOf pcp dcp I ranks) sizes table req p ≠ -1)
    (hsame : slotOf (workerOf pcp dcp I ranks) sizes table req p =
      slotOf (workerOf pcp dcp I ranks) sizes table req' p') : req = req' ∧ p = p' := by
  have hbound := hbounded.block hp
  have hbound' := hbounded.block hp'
  have howner := (h.slotOf_ne_iff h1 h2 hp hbound).mp hslot
  have howner' := (h.slotOf_ne_iff h1 h2 hp' hbound').mp (hsame ▸ hslot)
  rw [h.slotOf_of_bound h1 h2 hp hbound, if_pos howner, h.slotOf_of_bound h1 h2 hp' hbound',
    if_pos howner', Nat.cast_inj] at hsame
  obtain ⟨hdiv, hmod⟩ := h.localIndex_div p
  obtain ⟨hdiv', hmod'⟩ := h.localIndex_div p'
  have hlt := Nat.mod_lt (localIndex (pcp * dcp) I p) h.block_pos
  have hlt' := Nat.mod_lt (localIndex (pcp * dcp) I p') h.block_pos
  rw [hmod] at hlt
  rw [hmod'] at hlt'
  have hblock := congrArg (· / sizes.blockSize) hsame
  have hoffset := congrArg (· % sizes.blockSize) hsame
  simp only [Nat.mul_comm _ sizes.blockSize, Nat.mul_add_div h.block_pos, Nat.mul_add_mod,
    Nat.div_eq_of_lt hlt, Nat.div_eq_of_lt hlt', Nat.mod_eq_of_lt hlt, Nat.mod_eq_of_lt hlt',
    Nat.add_zero] at hblock hoffset
  obtain ⟨rfl, hj⟩ := hblocks req req' _ _ (lt_of_le_of_lt (Nat.div_mul_le_self p _) hp)
    (lt_of_le_of_lt (Nat.div_mul_le_self p' _) hp') hblock
  refine ⟨rfl, h.eq_of_localIndex (howner.trans howner'.symm) ?_⟩
  rw [← Nat.div_add_mod (localIndex (pcp * dcp) I p) sizes.blockSize,
    ← Nat.div_add_mod (localIndex (pcp * dcp) I p') sizes.blockSize, hdiv, hdiv', hmod, hmod', hj, hoffset]

lemma of_bounded : SlotsRight pcp dcp I sizes table lens := by
  refine ⟨fun ranks reqIndices positions t req p hreq hp => ?_,
    fun req p hp => exactlyOne_of_bounded h hbounded hp, fun ranks h1 h2 req k p hk =>
    ⟨inOrder_of_bounded h hbounded h1 h2 hk, Nat.mod_lt _ h.block_pos⟩,
    fun hblocks ranks h1 h2 req req' p p' => apart_of_bounded h hbounded hblocks h1 h2,
    fun hpcp req dcpRank hrank => ?_, fun hpcp req => ?_⟩
  · rw [computeSlotMapping, getElem?_zipWith, hreq, hp]
  · subst hpcp
    rw [h.localPositions_eq (0, dcpRank) Nat.one_pos hrank le_rfl (hbounded req), getDcpLocalSeqLen_eq,
      length_owned h.world_pos h.interleave_pos (SlotSizes.rank_lt Nat.one_pos hrank), Nat.zero_mul,
      Nat.zero_add, Nat.one_mul]
  · simp only [getDcpLocalSeqLen_eq]
    exact_mod_cast sum_localLength h.dcp_pos h.interleave_pos (lens req)

end SlotsRight

/-- The first block whose product is too large gives a wrong slot to its first position. -/
lemma SlotsRight.bounded (h : SlotSizes pcp dcp I sizes lens)
    (hright : SlotsRight pcp dcp I sizes table lens) : SlotSizes.Bounded pcp dcp sizes table lens := by
  intro req j
  induction j using Nat.strong_induction_on with
  | _ j ih =>
    intro hj
    by_contra hlarge
    have hvirtual := Nat.mul_pos h.block_pos h.world_pos
    have hmod : j * (sizes.blockSize * (pcp * dcp)) % (sizes.blockSize * (pcp * dcp)) = 0 :=
      Nat.mul_mod_left _ _
    have hdiv : j * (sizes.blockSize * (pcp * dcp)) / (sizes.blockSize * (pcp * dcp)) = j :=
      Nat.mul_div_cancel _ hvirtual
    have howner : owner (pcp * dcp) I (j * (sizes.blockSize * (pcp * dcp))) = 0 := by
      rw [← owner_mod h.interleave_pos h.dvd, hmod]
      simp [owner]
    have hindex : localIndex (pcp * dcp) I 0 = 0 := by simp [localIndex]
    have hslot : slotOf (workerOf pcp dcp I (0, 0)) sizes table req (j * (sizes.blockSize * (pcp * dcp))) =
        int32 (table req j * sizes.blockSize) := by
      rw [h.slotOf_workerOf h.pcp_pos h.dcp_pos hj, if_pos (by simpa using howner), hmod, hdiv, hindex]
      simp
    -- the first position of the block is that of the first rank
    have hlocal : slotOf (workerOf pcp dcp I (0, 0)) sizes table req
        (j * (sizes.blockSize * (pcp * dcp))) ≠ -1 := by
      obtain ⟨⟨pcpRank, dcpRank⟩, ⟨⟨h1, h2⟩, hne⟩, -⟩ := hright.exactlyOne req _ hj
      rw [h.slotOf_workerOf h1 h2 hj, howner] at hne
      by_cases hzero : 0 = pcpRank * dcp + dcpRank
      · have hdcp : dcpRank = 0 := by omega
        have hpcp : pcpRank = 0 := by
          have hmul : pcpRank * dcp = 0 := by omega
          exact (Nat.mul_eq_zero.mp hmul).resolve_right h.dcp_pos.ne'
        rw [h.slotOf_workerOf h.pcp_pos h.dcp_pos hj, howner]
        rwa [hdcp, hpcp] at hne
      · rw [if_neg hzero] at hne
        exact absurd rfl hne
    -- and the positions before it are counted right, so that it has the first index of the block
    have hbefore := h.localPositions_eq (0, 0) h.pcp_pos h.dcp_pos hj.le fun i hi =>
      ih i (Nat.lt_of_mul_lt_mul_right hi) (hi.trans hj)
    have hlength : (localPositions (workerOf pcp dcp I (0, 0)) sizes table req
        (j * (sizes.blockSize * (pcp * dcp)))).length = j * sizes.blockSize := by
      rw [hbefore, length_owned h.world_pos h.interleave_pos (SlotSizes.rank_lt h.pcp_pos h.dcp_pos),
        Nat.zero_mul, Nat.zero_add, ← howner, ← localIndex_eq_localLength h.world_pos h.interleave_pos,
        localIndex_mod h.world_pos h.interleave_pos h.dvd, hmod, hdiv, hindex, Nat.add_zero]
    have hat : (localPositions (workerOf pcp dcp I (0, 0)) sizes table req (lens req))[j * sizes.blockSize]? =
        some (j * (sizes.blockSize * (pcp * dcp))) := by
      obtain ⟨m, hm⟩ := Nat.exists_eq_add_of_lt hj
      rw [← hlength, hm, Nat.add_assoc, localPositions, range_add, range_succ_eq_map, map_cons,
        filter_append, Nat.add_zero, filter_cons_of_pos (by simpa using hlocal)]
      rw [localPositions, getElem?_append_right le_rfl, Nat.sub_self]
      rfl
    have hvalue := (hright.inOrder (0, 0) h.pcp_pos h.dcp_pos req _ _ hat).1
    rw [hslot, Nat.mul_div_cancel _ h.block_pos, Nat.mul_mod_left, Nat.add_zero] at hvalue
    have hlt := int32_lt (table req j * sizes.blockSize)
    rw [hvalue] at hlt
    exact hlarge (by exact_mod_cast hlt)

lemma BlockTableSizes.new_blockSize_pos {blockSize kernelBlockSize totalCpWorldSize : ℕ}
    (hblock : 0 < blockSize)
    (h : BlockTableSizes.new blockSize kernelBlockSize maxModelLen totalCpWorldSize = .ok sizes) :
    0 < sizes.blockSize := by
  unfold BlockTableSizes.new at h
  dsimp only at h
  split at h
  · cases h
    exact hblock
  · split at h
    · cases h
    · rename_i hmod
      cases h
      refine Nat.pos_of_ne_zero fun hzero => hmod ?_
      dsimp only at hzero
      rw [hzero, Nat.mod_zero]
      exact hblock.ne'

/-- For every context-parallel configuration, table and lengths of sequences: the slots are right exactly
if no product of a block number with the block size leaves the range of `int32`. -/
theorem slotsRight_iff {blockSize kernelBlockSize : ℕ} (hpcp : 0 < pcp) (hdcp : 0 < dcp) (hI : 0 < I)
    (hblock : 0 < blockSize)
    (hnew : BlockTableSizes.new blockSize kernelBlockSize maxModelLen (pcp * dcp) = .ok sizes)
    (hdvd : I ∣ sizes.blockSize) (hlens : ∀ req, lens req ≤ maxModelLen) :
    SlotsRight pcp dcp I sizes table lens ↔ SlotSizes.Bounded pcp dcp sizes table lens := by
  have h : SlotSizes pcp dcp I sizes lens :=
    ⟨hpcp, hdcp, hI, BlockTableSizes.new_blockSize_pos hblock hnew, hdvd, fun req =>
      (hlens req).trans (BlockTableSizes.new_fits hblock (Nat.mul_pos hpcp hdcp) hnew)⟩
  exact ⟨SlotsRight.bounded h, SlotsRight.of_bounded h⟩

/-- Two prefill and two decode ranks, with groups of two positions in blocks of four. -/
theorem slotsRight_iff_fourRanks :
    SlotsRight 2 2 2 ⟨4, 2, 2⟩ (fun req j => 10 * req + j) (fun req => if req < 2 then 20 else 0) ∧
      slotOf (workerOf 2 2 2 (1, 0)) ⟨4, 2, 2⟩ (fun req j => 10 * req + j) 1 13 = 43 := by
  have hnew : BlockTableSizes.new 8 4 20 (2 * 2) = .ok ⟨4, 2, 2⟩ := by decide
  have hblock : 0 < 8 := by decide
  refine ⟨(slotsRight_iff (by decide) (by decide) (by decide) hblock hnew (by decide) fun req => ?_).mpr
    fun req j hj => ?_, by decide⟩
  · split <;> omega
  · dsimp only at hj ⊢
    split at hj <;> omega

/-- Block 2 ^ 27 of 16 slots starts at slot 2 ^ 31. -/
theorem slotOf_largeBlock :
    slotOf (workerOf 1 1 1 (0, 0)) ⟨16, 1, 1⟩ (fun _ _ => 2 ^ 27) 0 0 = -2 ^ 31 ∧
      ¬SlotsRight 1 1 1 ⟨16, 1, 1⟩ (fun _ _ => 2 ^ 27) (fun req => if req = 0 then 1 else 0) := by
  refine ⟨by decide, fun hright => ?_⟩
  have hslot := (hright.inOrder (0, 0) (by decide) (by decide) 0 0 0 (by decide)).1
  exact absurd hslot (by decide)

end

end VllmRuntime
