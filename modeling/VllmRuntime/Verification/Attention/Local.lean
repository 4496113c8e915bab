import VllmRuntime.Model.LocalAttention
import VllmRuntime.Shared.Rows
import VllmRuntime.Verification.Attention.Split

/-! # Virtual batches of local attention

The virtual batches of a request are the chunks that its query tokens touch. Chunk `j` of them starts at
`(context / c + j) * c`, and the vectors of the source are these starts, cut to the query and to the
sequence. -/

namespace VllmRuntime

open Segments

/-- A request of an attention batch: the query is the end of the sequence. -/
structure AttentionRequest where
  queryLen : ℕ
  seqLen : ℕ
  blocks : List ℕ
  query_pos : 0 < queryLen
  query_le : queryLen ≤ seqLen

namespace AttentionRequest

variable {c bs : ℕ} {r : AttentionRequest} {j : ℕ} {i : ℕ}

/-- The number of tokens before the query. -/
def context (r : AttentionRequest) : ℕ := r.seqLen - r.queryLen

/-- The position at which the virtual batch `j` of the request starts. -/
def chunkStart (r : AttentionRequest) (c j : ℕ) : ℕ := (r.context / c + j) * c

/-- The number of virtual batches. -/
def numChunks (r : AttentionRequest) (c : ℕ) : ℕ := cdiv r.seqLen c - r.context / c

/-- The number of query tokens before chunk `j`. -/
def reach (r : AttentionRequest) (c j : ℕ) : ℕ := min (r.chunkStart c j) r.seqLen - r.context

lemma context_lt (r : AttentionRequest) : r.context < r.seqLen := by
  have hpos := r.query_pos
  have hle := r.query_le
  unfold context
  omega

lemma context_add (r : AttentionRequest) : r.context + r.queryLen = r.seqLen :=
  Nat.sub_add_cancel r.query_le

lemma chunkStart_succ (r : AttentionRequest) (c j : ℕ) : r.chunkStart c (j + 1) = r.chunkStart c j + c := by
  rw [chunkStart, chunkStart, ← Nat.add_assoc, Nat.succ_mul]

lemma chunkStart_zero (r : AttentionRequest) (c : ℕ) : r.chunkStart c 0 + r.context % c = r.context := by
  rw [chunkStart, Nat.add_zero]
  exact Nat.div_add_mod' _ _

lemma chunkStart_one (r : AttentionRequest) (c : ℕ) : r.chunkStart c 1 = r.chunkStart c 0 + c :=
  r.chunkStart_succ c 0

lemma chunkStart_mono (r : AttentionRequest) (c : ℕ) (h : i ≤ j) : r.chunkStart c i ≤ r.chunkStart c j :=
  Nat.mul_le_mul_right c (Nat.add_le_add_left h _)

lemma numChunks_pos (hc : 0 < c) (r : AttentionRequest) : 0 < r.numChunks c := by
  have hlt : r.context / c < cdiv r.seqLen c := by
    rw [lt_cdiv_iff hc]
    exact (Nat.div_mul_le_self _ _).trans_lt r.context_lt
  unfold numChunks
  omega

/-- A chunk is one of the request's if it starts before the end of the sequence. -/
lemma lt_numChunks_iff (hc : 0 < c) : j < r.numChunks c ↔ r.chunkStart c j < r.seqLen := by
  rw [numChunks, chunkStart, ← lt_cdiv_iff hc]
  omega

lemma chunkStart_numChunks (hc : 0 < c) (r : AttentionRequest) : r.seqLen ≤ r.chunkStart c (r.numChunks c) := by
  rw [← not_lt, ← lt_numChunks_iff hc]
  exact lt_irrefl _

@[simp] lemma reach_zero (r : AttentionRequest) (c : ℕ) : r.reach c 0 = 0 := by
  have hstart := r.chunkStart_zero c
  unfold reach
  omega

lemma reach_mono (r : AttentionRequest) (c : ℕ) (h : i ≤ j) : r.reach c i ≤ r.reach c j := by
  have hstart := r.chunkStart_mono c h
  unfold reach
  omega

lemma reach_numChunks (hc : 0 < c) (r : AttentionRequest) : r.reach c (r.numChunks c) = r.queryLen := by
  have hend := r.chunkStart_numChunks hc
  have hle := r.query_le
  rw [reach, min_eq_right hend]
  unfold context
  omega

/-! ## The vectors of the source -/

lemma tokensInFirstBlock_eq (hc : 0 < c) (r : AttentionRequest) :
    min (c - r.context % c) r.queryLen = r.reach c 1 := by
  have hmod := Nat.mod_lt r.context hc
  have hstart := r.chunkStart_zero c
  have hsucc := r.chunkStart_one c
  have hadd := r.context_add
  unfold reach
  omega

lemma localBlocks_eq (hc : 0 < c) (r : AttentionRequest) :
    1 + cdiv (r.queryLen - r.reach c 1) c = r.numChunks c := by
  have hpos := r.numChunks_pos hc
  have hrest : cdiv (r.queryLen - r.reach c 1) c = r.numChunks c - 1 := by
    have hiff : ∀ n, n < cdiv (r.queryLen - r.reach c 1) c ↔ n < r.numChunks c - 1 := by
      intro n
      rw [lt_cdiv_iff hc]
      have hchunk : n < r.numChunks c - 1 ↔ r.chunkStart c (n + 1) < r.seqLen := by
        rw [← lt_numChunks_iff hc]
        omega
      rw [hchunk]
      have hsplit : r.chunkStart c (n + 1) = r.chunkStart c 1 + n * c := by
        unfold chunkStart
        ring
      have hstart := r.chunkStart_zero c
      have hsucc := r.chunkStart_one c
      have hmod := Nat.mod_lt r.context hc
      have hadd := r.context_add
      unfold reach
      omega
    have h1 := hiff (r.numChunks c - 1)
    have h2 := hiff (cdiv (r.queryLen - r.reach c 1) c)
    omega
  omega

lemma tokensInLastBlock_eq (hc : 0 < c) (r : AttentionRequest) :
    ((c : ℤ) + Int.fmod r.seqLen (-(c : ℤ))).toNat = r.seqLen - r.chunkStart c (r.numChunks c - 1) := by
  have hpos := r.numChunks_pos hc
  have hstart : r.chunkStart c (r.numChunks c - 1) = (cdiv r.seqLen c - 1) * c := by
    have hlast : r.context / c + (r.numChunks c - 1) = cdiv r.seqLen c - 1 := by
      unfold numChunks at hpos ⊢
      generalize r.context / c = first at hpos ⊢
      omega
    rw [chunkStart, hlast]
  have hdiv := Nat.div_add_mod' r.seqLen c
  have hmod := Nat.mod_lt r.seqLen hc
  have hfmod : (r.seqLen : ℤ) % -(c : ℤ) = ((r.seqLen % c : ℕ) : ℤ) := by
    rw [Int.emod_neg]
    rfl
  rw [hstart, Int.fmod_eq_emod, hfmod]
  by_cases hdvd : c ∣ r.seqLen
  · have hzero := Nat.mod_eq_zero_of_dvd hdvd
    have hcdiv : cdiv r.seqLen c = r.seqLen / c := by
      apply le_antisymm
      · rw [cdiv_le_iff hc]
        omega
      · exact Nat.div_le_div_right (by omega)
    have hone : 1 ≤ r.seqLen / c := Nat.div_pos (Nat.le_of_dvd (by have := r.context_lt; omega) hdvd) hc
    have hsplit : (r.seqLen / c - 1) * c + c = r.seqLen / c * c := by
      rw [← Nat.succ_mul]
      congr 1
      omega
    have hdvd' : -(c : ℤ) ∣ (r.seqLen : ℤ) := (Int.neg_dvd).mpr (Int.natCast_dvd_natCast.mpr hdvd)
    rw [if_pos (.inr hdvd'), hcdiv]
    omega
  · have hne : r.seqLen % c ≠ 0 := fun h => hdvd (Nat.dvd_of_mod_eq_zero h)
    have hcdiv : cdiv r.seqLen c = r.seqLen / c + 1 := by
      apply le_antisymm
      · rw [cdiv_le_iff hc, Nat.succ_mul]
        omega
      · rw [Nat.succ_le_iff, lt_cdiv_iff hc]
        omega
    have hnot : ¬(0 ≤ -(c : ℤ) ∨ -(c : ℤ) ∣ (r.seqLen : ℤ)) := by
      rintro (h | h)
      · omega
      · exact hdvd (Int.natCast_dvd_natCast.mp (Int.neg_dvd.mp h))
    rw [if_neg hnot, hcdiv, Nat.add_sub_cancel]
    omega

/-- The query tokens in a chunk after the first one. -/
lemma seqlensQLocal_eq (hc : 0 < c) (hj : j < r.numChunks c) :
    (if 0 < j then min ((if j = 0 then r.reach c 1 else r.queryLen - r.reach c 1) - c * (j - 1)) c
      else if j = 0 then r.reach c 1 else r.queryLen - r.reach c 1) = r.reach c (j + 1) - r.reach c j := by
  cases j with
  | zero => simp
  | succ j =>
    rw [if_pos (Nat.succ_pos j), if_neg (Nat.succ_ne_zero j), Nat.add_sub_cancel]
    rw [lt_numChunks_iff hc] at hj
    have hsplit : r.chunkStart c (j + 1) = r.chunkStart c 1 + c * j := by
      unfold chunkStart
      ring
    have hsucc := r.chunkStart_succ c (j + 1)
    have hstart := r.chunkStart_zero c
    have hfirst := r.chunkStart_one c
    have hmod := Nat.mod_lt r.context hc
    have hadd := r.context_add
    unfold reach
    omega

lemma seqlensKLocal_eq (hc : 0 < c) (hj : j < r.numChunks c) :
    (if j = r.numChunks c - 1 then r.seqLen - r.chunkStart c (r.numChunks c - 1) else c) =
      min (r.chunkStart c j + c) r.seqLen - r.chunkStart c j := by
  have hpos := r.numChunks_pos hc
  split
  · rename_i hlast
    have hend := r.chunkStart_numChunks hc
    rw [show r.numChunks c = j + 1 by omega, chunkStart_succ] at hend
    rw [← hlast]
    omega
  · have hnext := (lt_numChunks_iff (r := r) (j := j + 1) hc).mp (by omega)
    rw [chunkStart_succ] at hnext
    omega

lemma kSeqstarts_eq (hc : 0 < c) (hj : j < r.numChunks c) :
    r.seqLen - ((r.numChunks c - j - 1) * c + (r.seqLen - r.chunkStart c (r.numChunks c - 1))) =
      r.chunkStart c j := by
  have hpos := r.numChunks_pos hc
  have hlast := (lt_numChunks_iff (r := r) (j := r.numChunks c - 1) hc).mp (by omega)
  have hsplit : r.chunkStart c (r.numChunks c - 1) = r.chunkStart c j + (r.numChunks c - j - 1) * c := by
    unfold chunkStart
    rw [← Nat.add_mul]
    congr 1
    omega
  omega

end AttentionRequest

end VllmRuntime
