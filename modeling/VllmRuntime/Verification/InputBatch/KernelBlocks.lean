import VllmRuntime.Shared.Rows
import VllmRuntime.Verification.InputBatch.Row
import VllmRuntime.Verification.InputBatch.SlotMapping

/-! # Blocks that are split for the kernel

The KV cache manager hands out blocks of one size and the kernel's blocks are smaller. A row of the table
holds the kernel blocks, and the slots are to be those of the manager's blocks. -/

namespace VllmRuntime

open List Interleave Segments

/-- The table that the constructor makes with these sizes. -/
def BlockTableSizes.table (sizes : BlockTableSizes) : BlockTable :=
  { blocksPerKvBlock := sizes.blocksPerKvBlock, maxNumBlocksPerReq := sizes.maxNumBlocksPerReq }

namespace BlockTable

variable {table table' : BlockTable} {blockIds ids : List ℕ} {m row q : ℕ}

/-- Calls of `append_row`, each with the block ids and the row. -/
def appendRows (table : BlockTable) (appends : List (List ℕ × ℕ)) : Except PyError BlockTable :=
  appends.foldlM (fun table append => table.appendRow append.1 append.2) table

/-- The block ids that these calls append to a row. -/
def appendedTo (row : ℕ) (appends : List (List ℕ × ℕ)) : List ℕ :=
  (appends.filter (·.2 = row)).flatMap (·.1)

lemma mapToKernelBlocks_eq (m : ℕ) (ids : List ℕ) :
    mapToKernelBlocks m ids = rows (fun _ => m) (fun id k => id * m + k) ids := by
  unfold mapToKernelBlocks
  split
  · rename_i hone
    subst hone
    simp [rows]
  · rfl

lemma mapToKernelBlocks_append (m : ℕ) (ids ids' : List ℕ) :
    mapToKernelBlocks m (ids ++ ids') = mapToKernelBlocks m ids ++ mapToKernelBlocks m ids' := by
  simp only [mapToKernelBlocks_eq, rows, flatMap_append]

lemma length_mapToKernelBlocks (m : ℕ) (ids : List ℕ) : (mapToKernelBlocks m ids).length = ids.length * m := by
  rw [mapToKernelBlocks_eq, length_rows, map_const', sum_replicate, smul_eq_mul]

/-- Kernel block `q` is part of the manager's block `q / m`. -/
lemma getElem?_mapToKernelBlocks (hq : q < ids.length * m) :
    (mapToKernelBlocks m ids)[q]? = some (ids.getD (q / m) 0 * m + q % m) := by
  have hm : 0 < m := Nat.pos_of_ne_zero fun hzero => by simp [hzero] at hq
  have hblock : q / m < ids.length := (Nat.div_lt_iff_lt_mul hm).mpr hq
  have hget := getElem?_rows (fun _ : ℕ => m) (fun id k => id * m + k)
    (getElem?_eq_getElem hblock) (Nat.mod_lt q hm)
  rw [map_const', sum_replicate, smul_eq_mul, length_take, min_eq_left hblock.le,
    Nat.div_add_mod'] at hget
  rw [mapToKernelBlocks_eq, hget, getD_eq_getElem?_getD, getElem?_eq_getElem hblock, Option.getD_some]

/-- The other rows and the sizes stay. -/
lemma appendRow_frame (h : table.appendRow ids row = .ok table') :
    (∀ i, i ≠ row → table'.row i = table.row i) ∧ table'.blocksPerKvBlock = table.blocksPerKvBlock ∧
      table'.maxNumBlocksPerReq = table.maxNumBlocksPerReq := by
  unfold appendRow at h
  dsimp only at h
  split at h
  · cases h
    exact ⟨fun _ _ => rfl, rfl, rfl⟩
  · obtain ⟨entries, -, rfl⟩ := map_eq_ok h
    refine ⟨fun i hi => ?_, rfl, rfl⟩
    simp [BlockTable.row, Function.update_of_ne hi]

/-- The blocks are put after those of the row. -/
lemma appendRow_eq_ok (hfits : (table.row row).length + ids.length * table.blocksPerKvBlock ≤
      table.maxNumBlocksPerReq) (h : table.appendRow ids row = .ok table') :
    table'.row row = table.row row ++ mapToKernelBlocks table.blocksPerKvBlock ids := by
  unfold appendRow at h
  dsimp only at h
  split at h
  · rename_i hempty
    cases h
    have hnil : ids = [] := by simpa using hempty
    simp [hnil, mapToKernelBlocks]
  · rw [← length_mapToKernelBlocks] at hfits
    have hlen : (table.row row).length = table.numBlocksPerRow row := by simp [BlockTable.row]
    rw [hlen] at hfits
    rw [assignSlice_of_le hfits] at h
    cases h
    have hentries := map_setSlice (table.blockTable row) (table.numBlocksPerRow row)
      (mapToKernelBlocks table.blocksPerKvBlock ids)
    have hbefore : (List.range (table.numBlocksPerRow row)).map (setSlice (table.blockTable row)
        (table.numBlocksPerRow row) (mapToKernelBlocks table.blocksPerKvBlock ids)) = table.row row :=
      map_congr_left fun j hj => setSlice_of_lt (List.mem_range.mp hj)
    simp only [BlockTable.row, Function.update_self]
    rw [range_add, map_append, map_map, hbefore]
    exact congrArg (table.row row ++ ·) hentries

/-- Any appends that fit leave in the row the kernel blocks of the ids, in order. -/
lemma appendRows_row {appends : List (List ℕ × ℕ)}
    (hfits : (table.row row).length + (appendedTo row appends).length * table.blocksPerKvBlock ≤
      table.maxNumBlocksPerReq) (h : table.appendRows appends = .ok table') :
    table'.row row = table.row row ++ mapToKernelBlocks table.blocksPerKvBlock (appendedTo row appends) := by
  induction appends generalizing table with
  | nil =>
    cases h
    simp [appendedTo, mapToKernelBlocks]
  | cons append appends ih =>
    rw [appendRows, foldlM_cons] at h
    obtain ⟨table₁, happend, hrest⟩ := bind_eq_ok h
    obtain ⟨hother, hper, hmax⟩ := appendRow_frame happend
    by_cases hrow : append.2 = row
    · have hids : appendedTo row (append :: appends) = append.1 ++ appendedTo row appends := by
        simp [appendedTo, hrow]
      rw [hids, length_append, Nat.add_mul] at hfits
      rw [hrow] at happend
      have hnew := appendRow_eq_ok (by omega) happend
      have hlen := congrArg List.length hnew
      rw [length_append, length_mapToKernelBlocks] at hlen
      rw [ih (by rw [hper, hmax]; omega) hrest, hper, hnew, hids, mapToKernelBlocks_append, append_assoc]
    · have hids : appendedTo row (append :: appends) = appendedTo row appends := by
        simp [appendedTo, hrow]
      have hsame := hother row (Ne.symm hrow)
      rw [hids] at hfits ⊢
      rw [ih (by rw [hper, hmax, hsame]; exact hfits) hrest, hper, hsame]

end BlockTable

/-! ## Slots of the manager's blocks -/

/-- The slot of a position in the manager's blocks; -1 stands for a position that is not local. -/
def kvSlot (cp : ContextParallel) (kvBlockSize : ℕ) (kvBlockIds : List ℕ) (p : ℕ) : ℤ :=
  if cp.totalCpWorldSize = 1 then (kvBlockIds.getD (p / kvBlockSize) 0 * kvBlockSize + p % kvBlockSize : ℕ)
  else
    let virtual := kvBlockSize * cp.totalCpWorldSize
    if owner cp.totalCpWorldSize cp.cpKvCacheInterleaveSize (p % virtual) = cp.totalCpRank then
      (kvBlockIds.getD (p / virtual) 0 * kvBlockSize +
        localIndex cp.totalCpWorldSize cp.cpKvCacheInterleaveSize (p % virtual) : ℕ)
    else -1

lemma int32_le {x : ℤ} (h : 0 ≤ x) : int32 x ≤ x := by
  unfold int32 Int.bmod
  dsimp only
  split <;> omega

/-- The slots of a row of kernel blocks are those of the manager's blocks, on every rank, and lie inside
them. -/
structure SlotsAgree (pcp dcp I kvBlockSize : ℕ) (sizes : BlockTableSizes) (table : BlockTable)
    (kvBlockIds : List ℕ) (row : ℕ) : Prop where
  agree : ∀ ranks : ℕ × ℕ, ranks.1 < pcp → ranks.2 < dcp → ∀ (reqIndices positions : List ℕ) (t p : ℕ),
    reqIndices[t]? = some row → positions[t]? = some p → p < kvBlockIds.length * (kvBlockSize * (pcp * dcp)) →
      (computeSlotMapping (workerOf pcp dcp I ranks) sizes table.blockTable reqIndices positions)[t]? =
        some (kvSlot (workerOf pcp dcp I ranks) kvBlockSize kvBlockIds p)
  inside : ∀ ranks : ℕ × ℕ, ranks.1 < pcp → ranks.2 < dcp → ∀ p,
    p < kvBlockIds.length * (kvBlockSize * (pcp * dcp)) →
      slotOf (workerOf pcp dcp I ranks) sizes table.blockTable row p ≠ -1 →
        ∃ block, kvBlockIds[p / (kvBlockSize * (pcp * dcp))]? = some block ∧
          (block * kvBlockSize : ℕ) ≤ slotOf (workerOf pcp dcp I ranks) sizes table.blockTable row p ∧
          slotOf (workerOf pcp dcp I ranks) sizes table.blockTable row p < ((block + 1) * kvBlockSize : ℕ)

/-- What is known of the row of a request: its kernel blocks are those of the manager's blocks. -/
structure KernelRow (pcp dcp I kvBlockSize : ℕ) (sizes : BlockTableSizes) (table : BlockTable)
    (kvBlockIds : List ℕ) (row : ℕ) : Prop where
  pcp_pos : 0 < pcp
  dcp_pos : 0 < dcp
  interleave_pos : 0 < I
  kv_pos : 0 < kvBlockSize
  split : sizes.blockSize * sizes.blocksPerKvBlock = kvBlockSize
  fits : kvBlockIds.length * sizes.blocksPerKvBlock ≤ sizes.maxNumBlocksPerReq
  entries : ∀ q < kvBlockIds.length * sizes.blocksPerKvBlock, table.blockTable row q =
    kvBlockIds.getD (q / sizes.blocksPerKvBlock) 0 * sizes.blocksPerKvBlock + q % sizes.blocksPerKvBlock

namespace KernelRow

variable {pcp dcp I kv row p q : ℕ} {sizes : BlockTableSizes} {table : BlockTable} {ids : List ℕ}
  {ranks : ℕ × ℕ}

section

variable (h : KernelRow pcp dcp I kv sizes table ids row)
include h

lemma world_pos : 0 < pcp * dcp :=
  Nat.mul_pos h.pcp_pos h.dcp_pos

lemma block_pos : 0 < sizes.blockSize :=
  Nat.pos_of_ne_zero fun hzero => by
    have hsizes := h.split
    rw [hzero, Nat.zero_mul] at hsizes
    exact h.kv_pos.ne hsizes

lemma split_pos : 0 < sizes.blocksPerKvBlock :=
  Nat.pos_of_ne_zero fun hzero => by
    have hsizes := h.split
    rw [hzero, Nat.mul_zero] at hsizes
    exact h.kv_pos.ne hsizes

lemma virtual_eq :
    kv * (pcp * dcp) = sizes.blockSize * (pcp * dcp) * sizes.blocksPerKvBlock := by
  rw [← h.split]
  ring

/-- The kernel block of a position is one of the row. -/
lemma block_lt (hp : p < ids.length * (kv * (pcp * dcp))) :
    p / (sizes.blockSize * (pcp * dcp)) < ids.length * sizes.blocksPerKvBlock := by
  rw [Nat.div_lt_iff_lt_mul (Nat.mul_pos h.block_pos h.world_pos)]
  calc p < ids.length * (kv * (pcp * dcp)) := hp
    _ = ids.length * sizes.blocksPerKvBlock * (sizes.blockSize * (pcp * dcp)) := by
      rw [h.virtual_eq]
      ring

/-- The manager's block of a position. -/
lemma kvBlock_eq (p : ℕ) :
    p / (sizes.blockSize * (pcp * dcp)) / sizes.blocksPerKvBlock = p / (kv * (pcp * dcp)) := by
  rw [Nat.div_div_eq_div_mul, h.virtual_eq]

end

/-- The slot at which the kernel block of a position starts. -/
def blockStart (sizes : BlockTableSizes) (ids : List ℕ) (q : ℕ) : ℕ :=
  (ids.getD (q / sizes.blocksPerKvBlock) 0 * sizes.blocksPerKvBlock + q % sizes.blocksPerKvBlock) * sizes.blockSize

lemma blockStart_eq (h : KernelRow pcp dcp I kv sizes table ids row) (q : ℕ) :
    blockStart sizes ids q = ids.getD (q / sizes.blocksPerKvBlock) 0 * kv +
      q % sizes.blocksPerKvBlock * sizes.blockSize := by
  rw [blockStart, ← h.split]
  ring

/-- The slot of a position in the words of the interleaved distribution. -/
lemma slotOf_eq_blocks (h : KernelRow pcp dcp I kv sizes table ids row) (h1 : ranks.1 < pcp)
    (h2 : ranks.2 < dcp) (hp : p < ids.length * (kv * (pcp * dcp))) :
    slotOf (workerOf pcp dcp I ranks) sizes table.blockTable row p =
      if owner (pcp * dcp) I (p % (sizes.blockSize * (pcp * dcp))) = ranks.1 * dcp + ranks.2 then
        int32 (blockStart sizes ids (p / (sizes.blockSize * (pcp * dcp)))) +
          (localIndex (pcp * dcp) I (p % (sizes.blockSize * (pcp * dcp))) : ℕ)
      else -1 := by
  have hblock := h.block_lt hp
  unfold slotOf
  dsimp only
  split
  · change (if _ then int32 ((ravel _ _ (row * _ + p / (sizes.blockSize * (pcp * dcp))) : ℕ) * _) + _ else _) = _
    rw [ravel_eq (hblock.trans_le h.fits), h.entries _ hblock]
    norm_cast
  · rename_i hnot
    have hworld : pcp * dcp = 1 := by
      have hpos := h.world_pos
      change ¬1 < pcp * dcp at hnot
      omega
    have hzero : ranks.1 * dcp + ranks.2 = 0 := by
      have hlt := SlotSizes.rank_lt h1 h2
      omega
    have howner : owner 1 I (p % sizes.blockSize) = 0 := Nat.mod_one _
    rw [hworld, Nat.mul_one] at hblock ⊢
    rw [ravel_eq (hblock.trans_le h.fits), h.entries _ hblock, hzero, if_pos howner, localIndex_one]
    norm_cast

lemma kvSlot_eq_blocks (h1 : ranks.1 < pcp)
    (h2 : ranks.2 < dcp) (ids : List ℕ) (kv p : ℕ) :
    kvSlot (workerOf pcp dcp I ranks) kv ids p =
      if owner (pcp * dcp) I (p % (kv * (pcp * dcp))) = ranks.1 * dcp + ranks.2 then
        ((ids.getD (p / (kv * (pcp * dcp))) 0 * kv + localIndex (pcp * dcp) I (p % (kv * (pcp * dcp))) : ℕ) : ℤ)
      else -1 := by
  unfold kvSlot
  dsimp only
  split
  · rename_i hone
    have hworld : pcp * dcp = 1 := hone
    have hzero : ranks.1 * dcp + ranks.2 = 0 := by
      have hlt := SlotSizes.rank_lt h1 h2
      omega
    have howner : owner 1 I (p % kv) = 0 := Nat.mod_one _
    rw [hworld, Nat.mul_one, hzero, if_pos howner, localIndex_one]
  · rfl

/-! ## An interleave size that divides the kernel's blocks -/

lemma mod_virtual (h : KernelRow pcp dcp I kv sizes table ids row) (p : ℕ) :
    p % (kv * (pcp * dcp)) % (sizes.blockSize * (pcp * dcp)) = p % (sizes.blockSize * (pcp * dcp)) ∧
      p % (kv * (pcp * dcp)) / (sizes.blockSize * (pcp * dcp)) =
        p / (sizes.blockSize * (pcp * dcp)) % sizes.blocksPerKvBlock := by
  rw [h.virtual_eq]
  exact ⟨Nat.mod_mul_right_mod .., Nat.mod_mul_right_div_self ..⟩

/-- Both block sizes deal out the positions in the same way. -/
lemma dealt_same (h : KernelRow pcp dcp I kv sizes table ids row) (hdvd : pcp * dcp = 1 ∨ I ∣ sizes.blockSize)
    (p : ℕ) :
    owner (pcp * dcp) I (p % (sizes.blockSize * (pcp * dcp))) = owner (pcp * dcp) I (p % (kv * (pcp * dcp))) ∧
      localIndex (pcp * dcp) I (p % (kv * (pcp * dcp))) =
        p / (sizes.blockSize * (pcp * dcp)) % sizes.blocksPerKvBlock * sizes.blockSize +
          localIndex (pcp * dcp) I (p % (sizes.blockSize * (pcp * dcp))) := by
  obtain ⟨hmod, hdiv⟩ := h.mod_virtual p
  rcases hdvd with hone | hdvd
  · rw [hone, Nat.mul_one, Nat.mul_one] at hmod hdiv ⊢
    refine ⟨by simp [owner, Nat.mod_one], ?_⟩
    rw [localIndex_one, localIndex_one, ← hmod, ← hdiv, Nat.div_add_mod']
  · rw [← owner_mod h.interleave_pos hdvd (p % (kv * (pcp * dcp))),
      localIndex_mod h.world_pos h.interleave_pos hdvd (p % (kv * (pcp * dcp))), hmod, hdiv]
    exact ⟨rfl, rfl⟩

/-- The last kernel block of a block of the row is within the range of `int32`. -/
def Bounded (kv kernelBlockSize : ℕ) (ids : List ℕ) : Prop :=
  ∀ block ∈ ids, block * kv + (kv - kernelBlockSize) < 2 ^ 31

section

variable (h : KernelRow pcp dcp I kv sizes table ids row)
include h

lemma blockStart_lt (hbound : Bounded kv sizes.blockSize ids)
    (hq : q < ids.length * sizes.blocksPerKvBlock) : blockStart sizes ids q < 2 ^ 31 := by
  have hblock : q / sizes.blocksPerKvBlock < ids.length := (Nat.div_lt_iff_lt_mul h.split_pos).mpr hq
  have hlast : q % sizes.blocksPerKvBlock * sizes.blockSize + sizes.blockSize ≤ kv := by
    rw [← Nat.succ_mul, ← h.split, Nat.mul_comm sizes.blockSize]
    exact Nat.mul_le_mul_right _ (Nat.mod_lt q h.split_pos)
  have hlt := hbound _ (getElem_mem hblock)
  rw [h.blockStart_eq, getD_eq_getElem?_getD, getElem?_eq_getElem hblock, Option.getD_some]
  omega

lemma slotOf_eq_kvSlot
    (hdvd : pcp * dcp = 1 ∨ I ∣ sizes.blockSize) (hbound : Bounded kv sizes.blockSize ids) (h1 : ranks.1 < pcp)
    (h2 : ranks.2 < dcp) (hp : p < ids.length * (kv * (pcp * dcp))) :
    slotOf (workerOf pcp dcp I ranks) sizes table.blockTable row p = kvSlot (workerOf pcp dcp I ranks) kv ids p := by
  obtain ⟨howner, hindex⟩ := h.dealt_same hdvd p
  have hlt := h.blockStart_lt hbound (h.block_lt hp)
  rw [h.slotOf_eq_blocks h1 h2 hp, kvSlot_eq_blocks h1 h2, howner, hindex,
    int32_of_lt (Int.natCast_nonneg _) (by exact_mod_cast hlt), h.blockStart_eq, h.kvBlock_eq]
  split
  · push_cast
    ring
  · rfl

/-- The slot of a local position is inside the manager's block. -/
lemma kvSlot_inside (hdvd : pcp * dcp = 1 ∨ I ∣ sizes.blockSize) (h1 : ranks.1 < pcp) (h2 : ranks.2 < dcp)
    (hp : p < ids.length * (kv * (pcp * dcp))) (hlocal : kvSlot (workerOf pcp dcp I ranks) kv ids p ≠ -1) :
    ∃ block, ids[p / (kv * (pcp * dcp))]? = some block ∧
      (block * kv : ℕ) ≤ kvSlot (workerOf pcp dcp I ranks) kv ids p ∧
      kvSlot (workerOf pcp dcp I ranks) kv ids p < ((block + 1) * kv : ℕ) := by
  have hvirtual : 0 < kv * (pcp * dcp) := Nat.mul_pos h.kv_pos h.world_pos
  have hblock : p / (kv * (pcp * dcp)) < ids.length := (Nat.div_lt_iff_lt_mul hvirtual).mpr hp
  have hindex : localIndex (pcp * dcp) I (p % (kv * (pcp * dcp))) < kv := by
    rcases hdvd with hone | hdvd
    · rw [hone, localIndex_one, Nat.mul_one]
      exact Nat.mod_lt _ h.kv_pos
    · exact localIndex_lt h.world_pos h.interleave_pos (h.split ▸ hdvd.mul_right _) (Nat.mod_lt _ hvirtual)
  refine ⟨_, getElem?_eq_getElem hblock, ?_⟩
  rw [kvSlot_eq_blocks h1 h2] at hlocal ⊢
  split at hlocal
  · rename_i howner
    rw [if_pos howner, getD_eq_getElem?_getD, getElem?_eq_getElem hblock, Option.getD_some, Nat.succ_mul]
    constructor
    · exact_mod_cast Nat.le_add_right _ _
    · exact_mod_cast Nat.add_lt_add_left hindex _
  · exact absurd rfl hlocal

lemma slotsAgree (hdvd : pcp * dcp = 1 ∨ I ∣ sizes.blockSize) (hbound : Bounded kv sizes.blockSize ids) :
    SlotsAgree pcp dcp I kv sizes table ids row where
  agree ranks h1 h2 reqIndices positions t p hreq hpos hp := by
    rw [computeSlotMapping, getElem?_zipWith, hreq, hpos]
    exact congrArg some (h.slotOf_eq_kvSlot hdvd hbound h1 h2 hp)
  inside ranks h1 h2 p hp hlocal := by
    rw [h.slotOf_eq_kvSlot hdvd hbound h1 h2 hp] at hlocal ⊢
    exact h.kvSlot_inside hdvd h1 h2 hp hlocal

/-! ## What follows if the slots agree -/

lemma slotOf_eq_of_agree
    (hagree : SlotsAgree pcp dcp I kv sizes table ids row) (hp : p < ids.length * (kv * (pcp * dcp))) :
    slotOf (workerOf pcp dcp I (0, 0)) sizes table.blockTable row p =
      kvSlot (workerOf pcp dcp I (0, 0)) kv ids p := by
  have hentry := hagree.agree (0, 0) h.pcp_pos h.dcp_pos [row] [p] 0 p rfl rfl hp
  exact Option.some.inj hentry

/-- On the first rank, in the words of the interleaved distribution. -/
lemma first_rank (hagree : SlotsAgree pcp dcp I kv sizes table ids row) (hp : p < ids.length * (kv * (pcp * dcp)))
    (howner : owner (pcp * dcp) I (p % (sizes.blockSize * (pcp * dcp))) = 0) :
    int32 (blockStart sizes ids (p / (sizes.blockSize * (pcp * dcp)))) +
        (localIndex (pcp * dcp) I (p % (sizes.blockSize * (pcp * dcp))) : ℕ) =
      if owner (pcp * dcp) I (p % (kv * (pcp * dcp))) = 0 then
        ((ids.getD (p / (kv * (pcp * dcp))) 0 * kv + localIndex (pcp * dcp) I (p % (kv * (pcp * dcp))) : ℕ) : ℤ)
      else -1 := by
  have heq := h.slotOf_eq_of_agree hagree hp
  rw [h.slotOf_eq_blocks h.pcp_pos h.dcp_pos hp, kvSlot_eq_blocks h.pcp_pos h.dcp_pos] at heq
  simp only [Nat.zero_mul, Nat.add_zero] at heq
  rwa [if_pos howner] at heq

/-- The kernel blocks are within the range of `int32`, if the interleave size divides them. -/
lemma bounded_of_agree
    (hdvd : pcp * dcp = 1 ∨ I ∣ sizes.blockSize) (hagree : SlotsAgree pcp dcp I kv sizes table ids row) :
    Bounded kv sizes.blockSize ids := by
  intro block hblock
  obtain ⟨i, hi⟩ := mem_iff_getElem?.mp hblock
  have hlt := lt_of_getElem? hi
  have hsplit := h.split_pos
  -- The first position of the last kernel block of the block.
  generalize hq : i * sizes.blocksPerKvBlock + (sizes.blocksPerKvBlock - 1) = q
  have hqlt : q < ids.length * sizes.blocksPerKvBlock := by
    have hroom := Nat.mul_le_mul_right sizes.blocksPerKvBlock (Nat.succ_le_of_lt hlt)
    rw [Nat.succ_mul] at hroom
    omega
  have hqdiv : q / sizes.blocksPerKvBlock = i := by
    rw [← hq, Nat.mul_comm, Nat.mul_add_div hsplit, Nat.div_eq_of_lt (by omega), Nat.add_zero]
  have hqmod : q % sizes.blocksPerKvBlock = sizes.blocksPerKvBlock - 1 := by
    rw [← hq, Nat.mul_comm, Nat.mul_add_mod, Nat.mod_eq_of_lt (by omega)]
  have hvirtual : 0 < sizes.blockSize * (pcp * dcp) := Nat.mul_pos h.block_pos h.world_pos
  have hp : q * (sizes.blockSize * (pcp * dcp)) < ids.length * (kv * (pcp * dcp)) := by
    calc q * (sizes.blockSize * (pcp * dcp))
        < ids.length * sizes.blocksPerKvBlock * (sizes.blockSize * (pcp * dcp)) :=
          Nat.mul_lt_mul_of_pos_right hqlt hvirtual
      _ = ids.length * (kv * (pcp * dcp)) := by rw [h.virtual_eq]; ring
  have hdiv : q * (sizes.blockSize * (pcp * dcp)) / (sizes.blockSize * (pcp * dcp)) = q :=
    Nat.mul_div_cancel _ hvirtual
  have hmod : q * (sizes.blockSize * (pcp * dcp)) % (sizes.blockSize * (pcp * dcp)) = 0 := Nat.mul_mod_left ..
  obtain ⟨howner, hindex⟩ := h.dealt_same hdvd (q * (sizes.blockSize * (pcp * dcp)))
  have howner0 : owner (pcp * dcp) I 0 = 0 := by simp [owner]
  have hindex0 : localIndex (pcp * dcp) I 0 = 0 := by simp [localIndex]
  have hfirst := h.first_rank hagree hp (by rw [hmod, howner0])
  rw [hmod, howner0] at howner
  rw [hdiv, hmod, hindex0, Nat.add_zero] at hindex
  rw [if_pos howner.symm, hindex, hdiv, hmod, hindex0, ← h.kvBlock_eq, hdiv, hqdiv, hqmod,
    getD_eq_getElem?_getD, hi, Option.getD_some, Nat.cast_zero, add_zero] at hfirst
  have hrest : (sizes.blocksPerKvBlock - 1) * sizes.blockSize = kv - sizes.blockSize := by
    rw [Nat.sub_mul, Nat.one_mul, Nat.mul_comm, h.split]
  have hrange := int32_lt (blockStart sizes ids q)
  rw [hfirst, hrest] at hrange
  exact_mod_cast hrange

/-- Positions of the first kernel block and, below, of the second one are dealt out from zero on. -/
lemma first_block (hagree : SlotsAgree pcp dcp I kv sizes table ids row) (hids : ids ≠ []) {o : ℕ}
    (ho : o < sizes.blockSize * (pcp * dcp)) (hq : q < sizes.blocksPerKvBlock)
    (howner : owner (pcp * dcp) I o = 0) :
    int32 ((ids.getD 0 0 * kv + q * sizes.blockSize : ℕ)) + (localIndex (pcp * dcp) I o : ℕ) =
      if owner (pcp * dcp) I (q * (sizes.blockSize * (pcp * dcp)) + o) = 0 then
        ((ids.getD 0 0 * kv + localIndex (pcp * dcp) I (q * (sizes.blockSize * (pcp * dcp)) + o) : ℕ) : ℤ)
      else -1 := by
  have hvirtual : 0 < sizes.blockSize * (pcp * dcp) := Nat.mul_pos h.block_pos h.world_pos
  have hdiv : (q * (sizes.blockSize * (pcp * dcp)) + o) / (sizes.blockSize * (pcp * dcp)) = q := by
    rw [Nat.mul_comm, Nat.mul_add_div hvirtual, Nat.div_eq_of_lt ho, Nat.add_zero]
  have hmod : (q * (sizes.blockSize * (pcp * dcp)) + o) % (sizes.blockSize * (pcp * dcp)) = o := by
    rw [Nat.mul_comm, Nat.mul_add_mod, Nat.mod_eq_of_lt ho]
  have hin : q * (sizes.blockSize * (pcp * dcp)) + o < kv * (pcp * dcp) := by
    calc q * (sizes.blockSize * (pcp * dcp)) + o < (q + 1) * (sizes.blockSize * (pcp * dcp)) := by
          rw [Nat.succ_mul]
          omega
      _ ≤ sizes.blocksPerKvBlock * (sizes.blockSize * (pcp * dcp)) := Nat.mul_le_mul_right _ hq
      _ = kv * (pcp * dcp) := by rw [h.virtual_eq, Nat.mul_comm]
  have hp : q * (sizes.blockSize * (pcp * dcp)) + o < ids.length * (kv * (pcp * dcp)) :=
    hin.trans_le (Nat.le_mul_of_pos_left _ (length_pos_of_ne_nil hids))
  have hfirst := h.first_rank hagree hp (by rw [hmod, howner])
  rwa [hdiv, hmod, Nat.mod_eq_of_lt hin, Nat.div_eq_of_lt hin, h.blockStart_eq, Nat.div_eq_of_lt hq,
    Nat.mod_eq_of_lt hq] at hfirst

/-- With a single kernel block in each block, the first rank gets a position too many if the interleave
size does not divide the block size. -/
lemma dvd_of_whole (hagree : SlotsAgree pcp dcp I kv sizes table ids row) (hids : ids ≠ []) (hworld : 1 < pcp * dcp)
    (hwhole : sizes.blocksPerKvBlock = 1) : I ∣ sizes.blockSize := by
  by_contra hnot
  have hrest : 0 < sizes.blockSize % I := Nat.pos_of_ne_zero fun hzero => hnot (Nat.dvd_of_mod_eq_zero hzero)
  have hlt := Nat.mod_lt sizes.blockSize h.interleave_pos
  have hsplit := Nat.div_add_mod' sizes.blockSize I
  have hkv := h.split
  rw [hwhole, Nat.mul_one] at hkv
  generalize sizes.blockSize / I = a at hsplit
  generalize sizes.blockSize % I = c at hrest hlt hsplit
  -- The position after those of the first rank that fill the block.
  have howner : owner (pcp * dcp) I (a * (pcp * dcp * I) + (0 * I + c)) = 0 := owner_digits h.world_pos hlt
  have hindex : localIndex (pcp * dcp) I (a * (pcp * dcp * I) + (0 * I + c)) = a * I + c :=
    localIndex_digits h.world_pos hlt
  rw [Nat.zero_mul, Nat.zero_add] at howner hindex
  have ho : a * (pcp * dcp * I) + c < sizes.blockSize * (pcp * dcp) := by
    calc a * (pcp * dcp * I) + c < a * (pcp * dcp * I) + c * (pcp * dcp) :=
          Nat.add_lt_add_left ((Nat.lt_mul_iff_one_lt_right hrest).mpr hworld) _
      _ = sizes.blockSize * (pcp * dcp) := by rw [← hsplit]; ring
  have hp : a * (pcp * dcp * I) + c < ids.length * (kv * (pcp * dcp)) := by
    rw [← hkv]
    exact ho.trans_le (Nat.le_mul_of_pos_left _ (length_pos_of_ne_nil hids))
  have hslot : slotOf (workerOf pcp dcp I (0, 0)) sizes table.blockTable row (a * (pcp * dcp * I) + c) =
      ((ids.getD 0 0 * kv + kv : ℕ) : ℤ) := by
    rw [h.slotOf_eq_of_agree hagree hp, kvSlot_eq_blocks h.pcp_pos h.dcp_pos, ← hkv, Nat.mod_eq_of_lt ho,
      Nat.div_eq_of_lt ho, howner, hindex, hsplit, if_pos (by simp)]
  obtain ⟨block, hblock, -, hinside⟩ := hagree.inside (0, 0) h.pcp_pos h.dcp_pos _ hp (by rw [hslot]; omega)
  rw [← hkv, Nat.div_eq_of_lt ho] at hblock
  rw [hslot, getD_eq_getElem?_getD, hblock, Option.getD_some, Nat.succ_mul] at hinside
  exact absurd hinside (lt_irrefl _)

/-- With several kernel blocks in each block, the second one starts at another slot. -/
lemma dvd_of_split (hagree : SlotsAgree pcp dcp I kv sizes table ids row) (hids : ids ≠ []) (hworld : 1 < pcp * dcp)
    (hsplit : 1 < sizes.blocksPerKvBlock) : I ∣ sizes.blockSize := by
  by_contra hnot
  have hvirtual : 0 < sizes.blockSize * (pcp * dcp) := Nat.mul_pos h.block_pos h.world_pos
  have howner0 : owner (pcp * dcp) I 0 = 0 := by simp [owner]
  have hindex0 : localIndex (pcp * dcp) I 0 = 0 := by simp [localIndex]
  have hstart := h.first_block hagree hids hvirtual hsplit howner0
  rw [hindex0, Nat.cast_zero, add_zero, Nat.one_mul, Nat.add_zero, Nat.one_mul] at hstart
  split at hstart
  · -- The first rank has filled more than the first kernel block when the second one starts.
    rename_i howner
    have hover := lt_localIndex_of_first hworld h.interleave_pos hnot howner
    have hle := int32_le (Int.natCast_nonneg (ids.getD 0 0 * kv + sizes.blockSize))
    rw [hstart] at hle
    have hle : ids.getD 0 0 * kv + localIndex (pcp * dcp) I (sizes.blockSize * (pcp * dcp)) ≤
        ids.getD 0 0 * kv + sizes.blockSize := by exact_mod_cast hle
    omega
  · -- The second kernel block starts at slot -1, so that its second position has slot 0.
    have hI : 1 < I := by
      have hpos := h.interleave_pos
      have hne : I ≠ 1 := fun hone => hnot (hone ▸ Nat.one_dvd _)
      omega
    have howner1 : owner (pcp * dcp) I 1 = 0 := by
      rw [owner, Nat.div_eq_of_lt hI, Nat.zero_mod]
    have hindex1 : localIndex (pcp * dcp) I 1 = 1 := by
      have hround : 1 < pcp * dcp * I := by nlinarith
      rw [localIndex, Nat.div_eq_of_lt hround, Nat.mod_eq_of_lt hI, Nat.zero_mul, Nat.zero_add]
    have hone : 1 < sizes.blockSize * (pcp * dcp) := by
      have := Nat.le_mul_of_pos_left (pcp * dcp) h.block_pos
      omega
    have hsecond := h.first_block hagree hids hone hsplit howner1
    simp only [Nat.one_mul] at hsecond
    rw [hindex1, hstart] at hsecond
    split at hsecond
    · rename_i howner
      have hzero : localIndex (pcp * dcp) I (sizes.blockSize * (pcp * dcp) + 1) = 0 := by omega
      exact absurd (eq_zero_of_first h.world_pos h.interleave_pos howner hzero) (Nat.succ_ne_zero _)
    · omega

end

end KernelRow

/-! ## The exact condition -/

section

variable {pcp dcp I kvBlockSize kernelBlockSize maxModelLen row : ℕ} {sizes : BlockTableSizes}
  {table : BlockTable} {appends : List (List ℕ × ℕ)}

lemma BlockTableSizes.new_split {totalCpWorldSize : ℕ}
    (h : BlockTableSizes.new kvBlockSize kernelBlockSize maxModelLen totalCpWorldSize = .ok sizes) :
    sizes.blockSize = kernelBlockSize ∧ sizes.blockSize * sizes.blocksPerKvBlock = kvBlockSize := by
  unfold BlockTableSizes.new at h
  dsimp only at h
  split at h
  · rename_i heq
    cases h
    exact ⟨heq.symm, Nat.mul_one _⟩
  · split at h
    · cases h
    · rename_i hmod
      cases h
      exact ⟨rfl, Nat.mul_div_cancel' (Nat.dvd_of_mod_eq_zero (not_not.mp hmod))⟩

/-- The row of a new table after any appends. -/
lemma KernelRow.of_appendRows (hpcp : 0 < pcp) (hdcp : 0 < dcp) (hI : 0 < I) (hkv : 0 < kvBlockSize)
    (hnew : BlockTableSizes.new kvBlockSize kernelBlockSize maxModelLen (pcp * dcp) = .ok sizes)
    (happend : sizes.table.appendRows appends = .ok table)
    (hfits : (BlockTable.appendedTo row appends).length * sizes.blocksPerKvBlock ≤ sizes.maxNumBlocksPerReq) :
    KernelRow pcp dcp I kvBlockSize sizes table (BlockTable.appendedTo row appends) row := by
  refine ⟨hpcp, hdcp, hI, hkv, (BlockTableSizes.new_split hnew).2, hfits, fun q hq => ?_⟩
  have hempty : sizes.table.row row = [] := rfl
  have hrow := BlockTable.appendRows_row (by rw [hempty, length_nil, Nat.zero_add]; exact hfits) happend
  rw [hempty, nil_append] at hrow
  have hget := BlockTable.getElem?_mapToKernelBlocks hq
  have hper : sizes.table.blocksPerKvBlock = sizes.blocksPerKvBlock := rfl
  rw [hper] at hrow
  rw [← hrow, BlockTable.row, getElem?_map, Option.map_eq_some_iff] at hget
  obtain ⟨q', hq', hentry⟩ := hget
  rw [← hentry]
  congr 1
  rw [getElem?_range] at hq'
  · exact Option.some.inj hq'
  · exact (lt_of_getElem? hq') |>.trans_eq (by simp)

/-- The slots of the kernel's blocks are those of the manager's blocks exactly if there is no context
parallelism or the interleave size divides the kernel's block size, and no kernel block leaves the range of
`int32`. -/
theorem slotsAgree_iff (hpcp : 0 < pcp) (hdcp : 0 < dcp) (hI : 0 < I) (hkv : 0 < kvBlockSize)
    (hnew : BlockTableSizes.new kvBlockSize kernelBlockSize maxModelLen (pcp * dcp) = .ok sizes)
    (happend : sizes.table.appendRows appends = .ok table)
    (hfits : (BlockTable.appendedTo row appends).length * sizes.blocksPerKvBlock ≤ sizes.maxNumBlocksPerReq) :
    SlotsAgree pcp dcp I kvBlockSize sizes table (BlockTable.appendedTo row appends) row ↔
      (pcp * dcp = 1 ∨ I ∣ kernelBlockSize ∨ BlockTable.appendedTo row appends = []) ∧
        KernelRow.Bounded kvBlockSize kernelBlockSize (BlockTable.appendedTo row appends) := by
  have h := KernelRow.of_appendRows hpcp hdcp hI hkv hnew happend hfits
  rw [← (BlockTableSizes.new_split hnew).1]
  generalize BlockTable.appendedTo row appends = ids at h ⊢
  constructor
  · intro hagree
    by_cases hids : ids = []
    · subst hids
      exact ⟨.inr (.inr rfl), fun block hblock => absurd hblock not_mem_nil⟩
    · have hdvd : pcp * dcp = 1 ∨ I ∣ sizes.blockSize := by
        rcases Nat.lt_or_ge 1 (pcp * dcp) with hworld | hone
        · rcases Nat.lt_or_ge 1 sizes.blocksPerKvBlock with hsplit | hwhole
          · exact .inr (h.dvd_of_split hagree hids hworld hsplit)
          · exact .inr (h.dvd_of_whole hagree hids hworld (le_antisymm hwhole h.split_pos))
        · exact .inl (le_antisymm hone h.world_pos)
      exact ⟨hdvd.imp_right .inl, h.bounded_of_agree hdvd hagree⟩
  · rintro ⟨hone | hdvd | rfl, hbound⟩
    · exact h.slotsAgree (.inl hone) hbound
    · exact h.slotsAgree (.inr hdvd) hbound
    · exact ⟨fun _ _ _ _ _ _ _ _ _ hp => by simp at hp, fun _ _ _ _ hp => by simp at hp⟩

/-- Two ranks with groups of 16 positions, and blocks of 32 that are split in two. -/
theorem slotsAgree_iff_twoRanks : ∃ table,
    (BlockTableSizes.mk 16 2 4).table.appendRows [([3], 0), ([5], 0)] = .ok table ∧
      SlotsAgree 1 2 16 32 ⟨16, 2, 4⟩ table (BlockTable.appendedTo 0 [([3], 0), ([5], 0)]) 0 := by
  have hnew : BlockTableSizes.new 32 16 128 (1 * 2) = .ok ⟨16, 2, 4⟩ := by decide
  have hfits : (BlockTable.appendedTo 0 [([3], 0), ([5], 0)]).length * 2 ≤ 4 := by decide
  have hI : 0 < 16 := by decide
  have hkv : 0 < 32 := by decide
  refine ⟨_, rfl, (slotsAgree_iff Nat.one_pos Nat.two_pos hI hkv hnew rfl hfits).mpr ⟨?_, ?_⟩⟩
  · exact .inr (.inl (by decide))
  · intro block hblock
    have hcases : block = 3 ∨ block = 5 := by simpa [BlockTable.appendedTo] using hblock
    omega

/-- Groups of 128 positions in blocks of 128 that are split in two: on the first rank position 128, which
is one of the second rank, gets the slot of position 64. -/
theorem slots_collide_splitGroup : ∃ table, (BlockTableSizes.mk 64 2 2).table.appendRows [([0], 0)] = .ok table ∧
    BlockTableSizes.new 128 64 256 (1 * 2) = .ok ⟨64, 2, 2⟩ ∧
    slotOf (workerOf 1 2 128 (0, 0)) ⟨64, 2, 2⟩ table.blockTable 0 64 = 64 ∧
    slotOf (workerOf 1 2 128 (0, 0)) ⟨64, 2, 2⟩ table.blockTable 0 128 = 64 ∧
    kvSlot (workerOf 1 2 128 (0, 0)) 128 [0] 128 = -1 ∧ ¬SlotsAgree 1 2 128 128 ⟨64, 2, 2⟩ table [0] 0 := by
  refine ⟨_, rfl, by decide, by decide, by decide, by decide, fun hagree => ?_⟩
  have hentry := hagree.agree (0, 0) (by decide) (by decide) [0] [128] 0 128 rfl rfl (by decide)
  exact absurd hentry (by decide)

end

end VllmRuntime
