import VllmRuntime.Shared.Rows
import VllmRuntime.Verification.Connector.Descriptors

/-! # The blocks that a read pairs

The local blocks are split into blocks of the remote size and clipped at the end, the remote blocks are clipped
at the front. -/

namespace VllmRuntime.Nixl

open List Segments

namespace ReadWorker

variable {ratio s : ℕ} {ids localIds remoteIds : List ℕ}

/-! ## The two lists -/

lemma getMappedBlocks_eq (ids : List ℕ) (ratio : ℕ) :
    getMappedBlocks ids ratio = rows (fun _ : ℕ => ratio) (fun id k => id * ratio + k) ids := rfl

lemma length_getMappedBlocks (ids : List ℕ) (ratio : ℕ) :
    (getMappedBlocks ids ratio).length = ids.length * ratio := by
  rw [getMappedBlocks_eq, length_rows, map_const', sum_replicate, smul_eq_mul]

/-- The blocks of a local block are one after the other. -/
lemma getElem?_getMappedBlocks {q : ℕ} (hratio : 0 < ratio) :
    (getMappedBlocks ids ratio)[q]? = some s ↔ ∃ id, ids[q / ratio]? = some id ∧ s = id * ratio + q % ratio := by
  have hblock {id : ℕ} (hid : ids[q / ratio]? = some id) :
      (getMappedBlocks ids ratio)[q]? = some (id * ratio + q % ratio) := by
    have hget := getElem?_rows (fun _ : ℕ => ratio) (fun id k => id * ratio + k) hid (Nat.mod_lt q hratio)
    have hlen := lt_of_getElem? hid
    rwa [map_const', sum_replicate, smul_eq_mul, length_take, min_eq_left hlen.le,
      Nat.div_add_mod'] at hget
  constructor
  · intro hq
    have hlt := lt_of_getElem? hq
    rw [length_getMappedBlocks] at hlt
    have hid := getElem?_eq_getElem ((Nat.div_lt_iff_lt_mul hratio).mpr hlt)
    rw [hblock hid] at hq
    exact ⟨_, hid, (Option.some.inj hq).symm⟩
  · rintro ⟨id, hid, rfl⟩
    exact hblock hid

lemma getMappedBlocks_inj (hnodup : ids.Nodup) {i j : ℕ} (hratio : 0 < ratio)
    (hi : (getMappedBlocks ids ratio)[i]? = some s) (hj : (getMappedBlocks ids ratio)[j]? = some s) :
    i = j := by
  obtain ⟨id, hid, rfl⟩ := (getElem?_getMappedBlocks hratio).mp hi
  obtain ⟨id', hid', heq⟩ := (getElem?_getMappedBlocks hratio).mp hj
  have hblock := congrArg (· / ratio) heq
  have hrest := congrArg (· % ratio) heq
  simp only [Nat.mod_mod, Nat.mul_comm _ ratio, Nat.mul_add_div hratio,
    Nat.div_eq_of_lt (Nat.mod_lt _ hratio), Nat.add_zero, Nat.mul_add_mod] at hblock hrest
  subst hblock
  have hsame : i / ratio = j / ratio := by
    obtain ⟨hlt, hget⟩ := List.getElem?_eq_some_iff.mp hid
    obtain ⟨hlt', hget'⟩ := List.getElem?_eq_some_iff.mp hid'
    exact (hnodup.getElem_inj_iff).mp (hget.trans hget'.symm)
  rw [← Nat.div_add_mod i ratio, ← Nat.div_add_mod j ratio, hsame, hrest]

lemma clipLocalBlocks_eq (localIds remoteIds : List ℕ) (hratio : 0 < ratio)
    (hone : ratio = 1 → localIds.length ≤ remoteIds.length) :
    clipLocalBlocks localIds remoteIds ratio = (getMappedBlocks localIds ratio).take remoteIds.length := by
  unfold clipLocalBlocks
  split
  · dsimp only
    split
    · rfl
    · rw [take_of_length_le (by omega)]
  · obtain rfl : ratio = 1 := by omega
    have hsame : getMappedBlocks localIds 1 = localIds := by simp [getMappedBlocks]
    rw [hsame, take_of_length_le (hone rfl)]

lemma clipRemoteBlocks_eq (hne : localIds.length ≠ 0) :
    clipRemoteBlocks localIds remoteIds = remoteIds.drop (remoteIds.length - localIds.length) := by
  unfold clipRemoteBlocks pyLast
  rw [if_neg hne]
  split
  · rfl
  · rw [Nat.sub_eq_zero_of_le (by omega), drop_zero]

/-! ## The copies -/

/-- What a read copies: a remote block and the block of a local block that it is copied to. -/
def copies (localNum remoteNum ratio : ℕ) (read : BlockRead) : List (ℕ × ℕ) :=
  (read.remoteBlockDescsIds.zip read.localBlockDescsIds).map fun descs =>
    (descs.1 % remoteNum, descs.2 % (localNum * ratio))

variable {w : ReadWorker}

/-- Without windows block by block of the two lists, in every region. -/
lemma mem_copies {dst : EngineId} {localNum remoteNum b : ℕ} {read : BlockRead}
    (hlocal : w.dstNumBlocks w.engineId = some localNum) (hremote : w.dstNumBlocks dst = some remoteNum)
    (hglobal : w.blockWindowPerLayer = []) (hregions : 0 < w.numRegions)
    (hlength : localIds.length = remoteIds.length) (hlocalLt : ∀ id ∈ localIds, id < localNum * ratio)
    (hremoteLt : ∀ id ∈ remoteIds, id < remoteNum)
    (h : w.descsIds dst localIds remoteIds ratio = .ok (read.localBlockDescsIds, read.remoteBlockDescsIds)) :
    (b, s) ∈ copies localNum remoteNum ratio read ↔ ∃ i : ℕ, remoteIds[i]? = some b ∧ localIds[i]? = some s := by
  obtain ⟨hlocalDescs, hremoteDescs, -⟩ := descsIds_eq_ok hlocal hremote hlength h
  dsimp only at hlocalDescs hremoteDescs
  rw [if_pos hglobal] at hlocalDescs hremoteDescs
  rw [copies, hlocalDescs, hremoteDescs, planDescs, planDescs, zip_map', map_map, mem_map]
  have hplan {r i : ℕ} : (r, i) ∈ w.plan localIds.length ↔ r < w.numRegions ∧ i < localIds.length := by
    rw [plan, if_pos hglobal, pair_mem_product, mem_range, mem_range]
  have hget {xs : List ℕ} {num i : ℕ} (hlt : ∀ id ∈ xs, id < num) (hi : i < xs.length) (r : ℕ) :
      xs[i]? = some ((r * num + xs.getD i 0) % num) := by
    rw [getD_eq_getElem?_getD, getElem?_eq_getElem hi, Option.getD_some, Nat.mul_add_mod',
      Nat.mod_eq_of_lt (hlt _ (getElem_mem hi))]
  constructor
  · rintro ⟨⟨r, i⟩, hentry, heq⟩
    obtain ⟨-, hi⟩ := hplan.mp hentry
    cases heq
    exact ⟨i, hget hremoteLt (hlength ▸ hi) r, hget hlocalLt hi r⟩
  · rintro ⟨i, hb, hs⟩
    have hi := lt_of_getElem? hs
    refine ⟨(0, i), hplan.mpr ⟨hregions, hi⟩, ?_⟩
    rw [hget hremoteLt (hlength ▸ hi) 0] at hb
    rw [hget hlocalLt hi 0] at hs
    exact Prod.ext (Option.some.inj hb) (Option.some.inj hs)

end ReadWorker

open ReadWorker

/-- The blocks of a prompt: the producer has all of them, and the local list has those after the cached prefix. -/
structure PromptBlocks (w : ReadWorker) (dst : EngineId) (promptLen cached remoteSize ratio localNum remoteNum : ℕ)
    (localIds remoteIds : List ℕ) : Prop where
  ratio_pos : 0 < ratio
  remoteSize_pos : 0 < remoteSize
  remoteBlockSize : w.remoteBlockSize dst = some remoteSize
  blockSize : w.blockSize = ratio * remoteSize
  global : w.blockWindowPerLayer = []
  regions_pos : 0 < w.numRegions
  local_num : w.dstNumBlocks w.engineId = some localNum
  remote_num : w.dstNumBlocks dst = some remoteNum
  cached_le : cached * w.blockSize ≤ promptLen
  local_length : localIds.length = cdiv promptLen w.blockSize - cached
  remote_length : remoteIds.length = cdiv promptLen remoteSize
  local_nodup : localIds.Nodup
  remote_nodup : remoteIds.Nodup
  local_lt : ∀ id ∈ localIds, id < localNum
  remote_lt : ∀ id ∈ remoteIds, id < remoteNum

/-- The remote block of a position. -/
def RemoteCovers (remoteIds : List ℕ) (remoteSize b p : ℕ) : Prop := remoteIds[p / remoteSize]? = some b

/-- The part of a local block of a position. -/
def LocalCovers (localIds : List ℕ) (blockSize remoteSize ratio cached s p : ℕ) : Prop :=
  cached * blockSize ≤ p ∧ ∃ id, localIds[p / blockSize - cached]? = some id ∧
    s = id * ratio + p % blockSize / remoteSize

/-- What a read is to copy: every copy is of one and the same positions, and every position of the prompt that
is not cached is copied. -/
structure CopiesPrompt (w : ReadWorker) (promptLen cached remoteSize ratio localNum remoteNum : ℕ)
    (localIds remoteIds : List ℕ) (posted : Option BlockRead) : Prop where
  same : ∀ read, posted = some read → ∀ b s, (b, s) ∈ copies localNum remoteNum ratio read → ∀ p < promptLen,
    RemoteCovers remoteIds remoteSize b p ↔ LocalCovers localIds w.blockSize remoteSize ratio cached s p
  all : ∀ p < promptLen, cached * w.blockSize ≤ p → ∃ read, posted = some read ∧
    ∃ b s, (b, s) ∈ copies localNum remoteNum ratio read ∧ RemoteCovers remoteIds remoteSize b p ∧
      LocalCovers localIds w.blockSize remoteSize ratio cached s p

namespace PromptBlocks

variable {w : ReadWorker} {dst : EngineId} {promptLen cached remoteSize ratio localNum remoteNum : ℕ}
  {localIds remoteIds : List ℕ}

variable (h : PromptBlocks w dst promptLen cached remoteSize ratio localNum remoteNum localIds remoteIds)
include h

lemma ratio_eq : w.blockSizeRatioFromEngineId dst = .ok ratio := by
  unfold blockSizeRatioFromEngineId
  rw [h.remoteBlockSize, h.blockSize]
  dsimp only
  rw [if_pos (Nat.mul_mod_left _ _), Nat.mul_div_cancel _ h.remoteSize_pos]

lemma blockSize_pos : 0 < w.blockSize := by
  rw [h.blockSize]
  exact Nat.mul_pos h.ratio_pos h.remoteSize_pos

/-- The local blocks have room for the remote ones, by less than one local block more. -/
lemma remote_length_le : remoteIds.length ≤ cdiv promptLen w.blockSize * ratio ∧
    cdiv promptLen w.blockSize * ratio < remoteIds.length + ratio := by
  have hpos := h.blockSize_pos
  rw [h.remote_length]
  constructor
  · rw [cdiv_le_iff h.remoteSize_pos, Nat.mul_assoc, ← h.blockSize]
    exact le_cdiv_mul promptLen hpos
  · cases hblocks : cdiv promptLen w.blockSize with
    | zero =>
      have := h.ratio_pos
      omega
    | succ n =>
      have hlt : n * w.blockSize < promptLen := (lt_cdiv_iff hpos).mp (by omega)
      rw [h.blockSize, ← Nat.mul_assoc] at hlt
      have := (lt_cdiv_iff h.remoteSize_pos).mpr hlt
      rw [Nat.succ_mul]
      omega

lemma cached_le_blocks : cached ≤ cdiv promptLen w.blockSize :=
  ((Nat.le_div_iff_mul_le h.blockSize_pos).mpr h.cached_le).trans (div_le_cdiv _ _)

/-- A part of a local block is that of a position by the number of remote blocks before both. -/
lemma localCovers_iff {s p : ℕ} :
    LocalCovers localIds w.blockSize remoteSize ratio cached s p ↔
      cached * ratio ≤ p / remoteSize ∧
        (getMappedBlocks localIds ratio)[p / remoteSize - cached * ratio]? = some s := by
  have hle : cached * w.blockSize ≤ p ↔ cached * ratio ≤ p / remoteSize := by
    rw [Nat.le_div_iff_mul_le h.remoteSize_pos, h.blockSize, Nat.mul_assoc]
  unfold LocalCovers
  rw [hle]
  refine and_congr_right fun hcached => ?_
  obtain ⟨q, hq⟩ := Nat.exists_eq_add_of_le hcached
  have hdiv : p / w.blockSize - cached = q / ratio := by
    rw [h.blockSize, Nat.mul_comm ratio, ← Nat.div_div_eq_div_mul, hq, Nat.mul_comm cached,
      Nat.mul_add_div h.ratio_pos, Nat.add_sub_cancel_left]
  have hmod : p % w.blockSize / remoteSize = q % ratio := by
    rw [h.blockSize, Nat.mul_comm ratio, Nat.mod_mul_right_div_self, hq, Nat.mul_add_mod']
  rw [hdiv, hmod, hq, Nat.add_sub_cancel_left, getElem?_getMappedBlocks h.ratio_pos]

/-- How many remote blocks a read has. -/
lemma clipped_length : (clipLocalBlocks localIds remoteIds ratio).length =
    min (localIds.length * ratio) remoteIds.length ∧
      clipLocalBlocks localIds remoteIds ratio = (getMappedBlocks localIds ratio).take remoteIds.length := by
  have hclip := clipLocalBlocks_eq localIds remoteIds h.ratio_pos fun hone => by
    have hle := h.local_length
    rw [h.blockSize, hone, Nat.one_mul, ← h.remote_length] at hle
    omega
  refine ⟨?_, hclip⟩
  rw [hclip, length_take, length_getMappedBlocks, Nat.min_comm]

/-- A read is posted unless all is cached. -/
lemma readBlocks_some (hne : (clipLocalBlocks localIds remoteIds ratio).length ≠ 0) :
    ∃ read, w.readBlocks localIds remoteIds dst = .ok (some read) ∧
      ∀ b s, (b, s) ∈ copies localNum remoteNum ratio read ↔
        ∃ i : ℕ, remoteIds[remoteIds.length - (clipLocalBlocks localIds remoteIds ratio).length + i]? = some b ∧
          (clipLocalBlocks localIds remoteIds ratio)[i]? = some s := by
  obtain ⟨hlen, hclip⟩ := h.clipped_length
  have hle : (clipLocalBlocks localIds remoteIds ratio).length ≤ remoteIds.length := hlen ▸ min_le_right _ _
  have hsame : (clipLocalBlocks localIds remoteIds ratio).length =
      (clipRemoteBlocks (clipLocalBlocks localIds remoteIds ratio) remoteIds).length := by
    rw [clipRemoteBlocks_eq hne, length_drop]
    omega
  have hdescs : ∃ descs, w.descsIds dst (clipLocalBlocks localIds remoteIds ratio)
      (clipRemoteBlocks (clipLocalBlocks localIds remoteIds ratio) remoteIds) ratio = .ok descs := by
    unfold descsIds
    rw [if_pos h.global]
    unfold getBlockDescsIds
    rw [h.local_num, h.remote_num]
    exact ⟨_, rfl⟩
  obtain ⟨⟨localDescs, remoteDescs⟩, hdescs⟩ := hdescs
  obtain ⟨hlocalDescs, hremoteDescs, -⟩ := descsIds_eq_ok h.local_num h.remote_num hsame hdescs
  refine ⟨⟨localDescs, remoteDescs⟩, ?_, fun b s => ?_⟩
  · unfold readBlocks
    rw [h.ratio_eq]
    change (if (clipLocalBlocks localIds remoteIds ratio).length = 0 then _ else _) = _
    rw [if_neg hne, decide_eq_true hle]
    change (w.descsIds dst (clipLocalBlocks localIds remoteIds ratio)
      (clipRemoteBlocks (clipLocalBlocks localIds remoteIds ratio) remoteIds) ratio >>= _) = _
    rw [hdescs]
    change (pyAssert (decide (localDescs.length = remoteDescs.length)) "" >>= _) = _
    have hlengths : localDescs.length = remoteDescs.length := by
      dsimp only at hlocalDescs hremoteDescs
      rw [hlocalDescs, hremoteDescs, planDescs, planDescs, length_map, length_map]
    rw [decide_eq_true hlengths]
    rfl
  · rw [mem_copies h.local_num h.remote_num h.global h.regions_pos hsame ?_ ?_ hdescs, clipRemoteBlocks_eq hne]
    · simp only [getElem?_drop]
    · intro id hid
      rw [hclip] at hid
      obtain ⟨q, hq⟩ := mem_iff_getElem?.mp (mem_of_mem_take hid)
      obtain ⟨block, hblock, rfl⟩ := (getElem?_getMappedBlocks h.ratio_pos).mp hq
      have hlt := h.local_lt block (mem_of_getElem? hblock)
      have hmod := Nat.mod_lt q h.ratio_pos
      calc block * ratio + q % ratio < block * ratio + ratio := by omega
        _ = (block + 1) * ratio := by ring
        _ ≤ localNum * ratio := Nat.mul_le_mul_right _ hlt
    · intro id hid
      rw [clipRemoteBlocks_eq hne] at hid
      exact h.remote_lt id (mem_of_mem_drop hid)

/-- Without anything to read there is nothing after the cached prefix. -/
lemma all_cached (hnone : min (localIds.length * ratio) remoteIds.length = 0) :
    promptLen = cached * w.blockSize := by
  have hle : promptLen ≤ cached * w.blockSize := by
    rw [← cdiv_le_iff h.blockSize_pos]
    rcases Nat.min_eq_zero_iff.mp hnone with hlocal | hremote
    · have := h.local_length
      have := (Nat.mul_eq_zero.mp hlocal).resolve_right h.ratio_pos.ne'
      omega
    · have hprompt : promptLen ≤ 0 * remoteSize := by
        rw [← cdiv_le_iff h.remoteSize_pos, ← h.remote_length, hremote]
      rw [cdiv_le_iff h.blockSize_pos]
      omega
  exact hle.antisymm h.cached_le

/-- The read is right exactly if as many remote blocks are left out as are cached. -/
lemma copiesPrompt_iff {read : BlockRead} {n : ℕ} (hn : 0 < n)
    (hmin : n = min (localIds.length * ratio) remoteIds.length)
    (hcopies : ∀ b s, (b, s) ∈ copies localNum remoteNum ratio read ↔
      ∃ i < n, remoteIds[remoteIds.length - n + i]? = some b ∧ (getMappedBlocks localIds ratio)[i]? = some s) :
    CopiesPrompt w promptLen cached remoteSize ratio localNum remoteNum localIds remoteIds (some read) ↔
      remoteIds.length - n = cached * ratio := by
  have hblocks : ∀ i < n, ∃ b s, remoteIds[remoteIds.length - n + i]? = some b ∧
      (getMappedBlocks localIds ratio)[i]? = some s := by
    intro i hi
    have hlocal : i < (getMappedBlocks localIds ratio).length := by
      rw [length_getMappedBlocks]
      omega
    exact ⟨_, _, getElem?_eq_getElem (by omega), getElem?_eq_getElem hlocal⟩
  have hposition {p : ℕ} (hp : p < promptLen) : p / remoteSize < remoteIds.length := by
    rw [h.remote_length, lt_cdiv_iff h.remoteSize_pos]
    exact (Nat.div_mul_le_self p remoteSize).trans_lt hp
  constructor
  · intro hright
    by_contra hshift
    -- The first position that is not cached is copied from the first block of the read.
    obtain ⟨b, s, hb, hs⟩ := hblocks 0 hn
    have hfirst : cached * w.blockSize < promptLen := by
      rw [← lt_cdiv_iff h.blockSize_pos]
      have hlocal := h.local_length
      by_contra hle
      have hnone : localIds.length = 0 := by omega
      rw [hnone, Nat.zero_mul, Nat.zero_min] at hmin
      omega
    have hdiv : cached * w.blockSize / remoteSize = cached * ratio := by
      rw [h.blockSize, ← Nat.mul_assoc, Nat.mul_div_cancel _ h.remoteSize_pos]
    have hcovers := (hright.same read rfl b s ((hcopies b s).mpr ⟨0, hn, hb, hs⟩) _ hfirst).mpr
      (h.localCovers_iff.mpr (by rw [hdiv, Nat.sub_self]; exact ⟨le_refl _, hs⟩))
    rw [RemoteCovers, hdiv] at hcovers
    rw [Nat.add_zero] at hb
    have hlt := lt_of_getElem? hb
    exact hshift ((getElem?_inj hlt h.remote_nodup).mp (hb.trans hcovers.symm))
  · intro haligned
    constructor
    · rintro read' hread' b s hmem p hp
      cases hread'
      obtain ⟨i, hi, hb, hs⟩ := (hcopies b s).mp hmem
      rw [haligned] at hb
      rw [h.localCovers_iff, RemoteCovers]
      constructor
      · intro hcovers
        have hsame := (getElem?_inj (hposition hp) h.remote_nodup).mp (hcovers.trans hb.symm)
        rw [hsame, Nat.add_sub_cancel_left]
        exact ⟨Nat.le_add_right _ _, hs⟩
      · rintro ⟨hcached, hcovers⟩
        have hsame := getMappedBlocks_inj h.local_nodup h.ratio_pos hcovers hs
        rw [← hb]
        congr 1
        omega
    · intro p hp hcached
      have hlt := hposition hp
      have hle : cached * ratio ≤ p / remoteSize := by
        rw [Nat.le_div_iff_mul_le h.remoteSize_pos, Nat.mul_assoc, ← h.blockSize]
        exact hcached
      have hn' : n ≤ remoteIds.length := hmin ▸ min_le_right _ _
      obtain ⟨b, s, hb, hs⟩ := hblocks (p / remoteSize - cached * ratio) (by omega)
      refine ⟨read, rfl, b, s, (hcopies b s).mpr ⟨_, by omega, hb, hs⟩, ?_, h.localCovers_iff.mpr ⟨hle, hs⟩⟩
      rw [RemoteCovers, ← hb]
      congr 1
      omega

end PromptBlocks

/-- The remote blocks that are left out are those of the cached prefix. -/
lemma shift_eq_iff {blocks cached ratio remote : ℕ} (hcached : cached ≤ blocks) (hle : remote ≤ blocks * ratio)
    (hlt : blocks * ratio < remote + ratio) :
    remote - min ((blocks - cached) * ratio) remote = cached * ratio ↔ cached = 0 ∨ ratio ∣ remote := by
  have hmul : cached * ratio ≤ blocks * ratio := Nat.mul_le_mul_right _ hcached
  rw [Nat.sub_mul]
  constructor
  · intro hshift
    rcases Nat.eq_zero_or_pos (cached * ratio) with hzero | hpos
    · exact .inl ((Nat.mul_eq_zero.mp hzero).resolve_right (by omega))
    · have hall : remote = blocks * ratio := by omega
      exact .inr (hall ▸ Nat.dvd_mul_left _ _)
  · rintro (rfl | ⟨n, rfl⟩)
    · omega
    · have hall : ratio * n = blocks * ratio := by
        rw [Nat.mul_comm ratio] at hle hlt ⊢
        have hblocks : blocks < n + 1 := by
          rw [← Nat.succ_mul] at hlt
          exact Nat.lt_of_mul_lt_mul_right hlt
        have hn : n ≤ blocks := Nat.le_of_mul_le_mul_right hle (by omega)
        rw [show n = blocks by omega]
      omega

/-- For any ratio of the block sizes, prompt length and cached prefix. -/
theorem readBlocks_copiesPrompt_iff {w : ReadWorker} {dst : EngineId}
    {promptLen cached remoteSize ratio localNum remoteNum : ℕ} {localIds remoteIds : List ℕ}
    (h : PromptBlocks w dst promptLen cached remoteSize ratio localNum remoteNum localIds remoteIds) :
    ∃ posted, w.readBlocks localIds remoteIds dst = .ok posted ∧
      (CopiesPrompt w promptLen cached remoteSize ratio localNum remoteNum localIds remoteIds posted ↔
        cached = 0 ∨ ratio ∣ cdiv promptLen remoteSize) := by
  obtain ⟨hlen, hclip⟩ := h.clipped_length
  obtain ⟨hle, hlt⟩ := h.remote_length_le
  have hlocal := h.local_length
  have hcached := h.cached_le_blocks
  have hratio := h.ratio_pos
  rw [← h.remote_length]
  by_cases hnone : (clipLocalBlocks localIds remoteIds ratio).length = 0
  · refine ⟨none, ?_, ?_⟩
    · unfold readBlocks
      rw [h.ratio_eq]
      change (if (clipLocalBlocks localIds remoteIds ratio).length = 0 then _ else _) = _
      rw [if_pos hnone]
      rfl
    · have hall := h.all_cached (hlen.symm.trans hnone)
      constructor
      · intro _
        right
        rw [h.remote_length, hall, h.blockSize, ← Nat.mul_assoc, cdiv_mul_right _ h.remoteSize_pos]
        exact Nat.dvd_mul_left _ _
      · intro _
        constructor
        · intro _ hread
          cases hread
        · intro p hp hle
          omega
  · obtain ⟨read, hread, hcopies⟩ := h.readBlocks_some hnone
    refine ⟨some read, hread, ?_⟩
    rw [h.copiesPrompt_iff (Nat.pos_of_ne_zero hnone) hlen fun b s => ?_]
    · rw [hlen, hlocal]
      exact shift_eq_iff hcached hle hlt
    · rw [hcopies]
      refine exists_congr fun i => ?_
      rw [hlen, hclip, getElem?_take]
      constructor
      · rintro ⟨hb, hs⟩
        split at hs
        · rename_i hi
          have hlt := lt_of_getElem? hs
          rw [length_getMappedBlocks] at hlt
          exact ⟨lt_min hlt hi, hb, hs⟩
        · cases hs
      · rintro ⟨hi, hb, hs⟩
        rw [if_pos (hi.trans_le (min_le_right _ _))]
        exact ⟨hb, hs⟩

/-- Blocks of 32 tokens here and of 16 there, a prompt of 5 blocks there and 3 here. -/
def mixedWorker : ReadWorker where
  engineId := 0
  blockSize := 32
  numRegions := 1
  numLayers := 1
  dstNumBlocks engineId := if engineId = 0 then some 10 else some 20
  remoteBlockSize _ := some 16

theorem readBlocks_copiesPrompt_iff_uncached :
    ∃ posted, mixedWorker.readBlocks [0, 1, 2] [10, 11, 12, 13, 14] 1 = .ok posted ∧
      (CopiesPrompt mixedWorker 80 0 16 2 10 20 [0, 1, 2] [10, 11, 12, 13, 14] posted ↔
        0 = 0 ∨ 2 ∣ cdiv 80 16) :=
  readBlocks_copiesPrompt_iff
    { ratio_pos := by decide
      remoteSize_pos := by decide
      remoteBlockSize := rfl
      blockSize := rfl
      global := rfl
      regions_pos := by decide
      local_num := rfl
      remote_num := rfl
      cached_le := by decide
      local_length := by decide
      remote_length := by decide
      local_nodup := by decide
      remote_nodup := by decide
      local_lt := by decide
      remote_lt := by decide }

/-- With the first block cached, block 11 of the positions 16 to 31 goes where the positions 32 to 47 belong. -/
theorem readBlocks_shifted : ∃ read, mixedWorker.readBlocks [1, 2] [10, 11, 12, 13, 14] 1 = .ok (some read) ∧
    read = { localBlockDescsIds := [2, 3, 4, 5], remoteBlockDescsIds := [11, 12, 13, 14] } ∧
      ¬CopiesPrompt mixedWorker 80 1 16 2 10 20 [1, 2] [10, 11, 12, 13, 14] (some read) := by
  refine ⟨_, rfl, rfl, fun hright => ?_⟩
  have hcopied : (11, 2) ∈ copies 10 20 2
      { localBlockDescsIds := [2, 3, 4, 5], remoteBlockDescsIds := [11, 12, 13, 14] } := by decide
  obtain ⟨hcached, -⟩ := (hright.same _ rfl 11 2 hcopied 16 (by decide)).mp rfl
  exact absurd hcached (by decide)

end VllmRuntime.Nixl
