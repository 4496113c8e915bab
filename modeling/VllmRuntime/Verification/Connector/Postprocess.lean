import Mathlib.Data.List.GetD
import VllmRuntime.Model.KVPostprocess

/-! # Received KV cache blocks

A received block of the cache holds several remote blocks one after the other. Post-processing gives
every token, head and dimension of the local block its element of the remote blocks. -/

namespace VllmRuntime.KVPostprocess

open List Tensor

variable {α : Type} {cache blocks remoteBlocks permuted : Tensor α} {indices : List ℕ}
  {memory : ℕ → ℕ → α} {nb N H D n rN K : ℕ}

/-- The memory of a block is laid out heads, tokens, dims. -/
def HeadsFirst (cache : Tensor α) (nb N H D : ℕ) (memory : ℕ → ℕ → α) : Prop :=
  cache.shape = [nb, N, H, D] ∧ ∀ b < nb, ∀ t < N, ∀ h < H, ∀ d < D,
    cache.get [b, t, h, d] = memory b ((h * N + t) * D + d)

/-- The memory of a block is laid out tokens, heads, dims. -/
def TokensFirst (cache : Tensor α) (nb N H D : ℕ) (memory : ℕ → ℕ → α) : Prop :=
  cache.shape = [nb, N, H, D] ∧ ∀ b < nb, ∀ t < N, ∀ h < H, ∀ d < D,
    cache.get [b, t, h, d] = memory b ((t * H + h) * D + d)

/-- The memory of every listed block holds `n` remote blocks, each laid out heads, tokens, dims. -/
def HoldsRemote (memory : ℕ → ℕ → α) (indices : List ℕ) (n H rN D : ℕ)
    (remote : ℕ → ℕ → ℕ → ℕ → ℕ → α) : Prop :=
  ∀ b ∈ indices, ∀ r < n, ∀ h < H, ∀ t < rN, ∀ d < D,
    memory b (r * (H * rN * D) + ((h * rN + t) * D + d)) = remote b r t h d

/-- The call succeeds on blocks that have elements, every listed block has the elements of its remote
blocks, and the other blocks are unchanged. -/
def Received (cache : Tensor α) (indices : List ℕ) (N H D rN : ℕ)
    (remote : ℕ → ℕ → ℕ → ℕ → ℕ → α) (result : Except PyError (Tensor α)) : Prop :=
  (0 < N → 0 < H → 0 < D → ∃ cache', result = .ok cache') ∧
    ∀ cache', result = .ok cache' → cache'.shape = cache.shape ∧
      (∀ b ∈ indices, ∀ t < N, ∀ h < H, ∀ d < D,
        cache'.get [b, t, h, d] = remote b (t / rN) (t % rN) h d) ∧
      ∀ b ∉ indices, ∀ rest, cache'.get (b :: rest) = cache.get (b :: rest)

variable {remote : ℕ → ℕ → ℕ → ℕ → ℕ → α} {dims shape : List ℕ} {a b c d : ℕ}

/-! ## Reading the remote blocks -/

lemma permuteDims_eq (t : Tensor α) (rank : ℕ) (hrank : t.shape.length = rank)
    (h : dims.Perm (range rank)) : t.permuteDims dims = .ok (t.permute dims) :=
  if_pos (hrank ▸ h)

lemma shape_permute {t : Tensor α} (h : t.shape = [a, b, c, d]) :
    (t.permute [0, 2, 1, 3]).shape = [a, c, b, d] := by
  simp [permute, h]

lemma get_permute (t : Tensor α) (a b c d : ℕ) :
    (t.permute [0, 2, 1, 3]).get [a, b, c, d] = t.get [a, c, b, d] := rfl

lemma reshapeInfer_zero (t : Tensor α) (h : dims.prod = 0) : t.reshapeInfer dims =
    .error (.runtimeError "the unspecified dimension size -1 can be any value and is ambiguous") :=
  if_pos h

lemma reshapeInfer_eq (h : blocks.RowMajor K shape memory) (hdims : dims.prod = shape.prod)
    (hpos : dims.prod ≠ 0) : blocks.reshapeInfer dims = .ok (blocks.reshape (K :: dims)) := by
  have hprod : blocks.shape.prod = K * dims.prod := by rw [h.shape_eq, prod_cons, hdims]
  rw [reshapeInfer, if_neg hpos, hprod, Nat.mul_mod_left, if_pos rfl,
    Nat.mul_div_cancel _ (Nat.pos_of_ne_zero hpos)]

lemma get_remoteBlocks (h : blocks.RowMajor indices.length shape fun k => memory (indices.getD k 0))
    (hdims : [n, H, rN, D].prod = shape.prod) (hremote : HoldsRemote memory indices n H rN D remote) {k r t i : ℕ}
    (hk : k < indices.length) (hr : r < n) (hi : i < H) (ht : t < rN) (hd : d < D) :
    (blocks.reshape (indices.length :: [n, H, rN, D])).get [k, r, i, t, d] =
      remote indices[k] r t i d := by
  have hwithin : Forall₂ (· < ·) [r, i, t, d] [n, H, rN, D] :=
    .cons hr (.cons hi (.cons ht (.cons hd .nil)))
  have hoffset : offset [n, H, rN, D] [r, i, t, d] = r * (H * rN * D) + ((i * rN + t) * D + d) := by
    simp only [offset, prod_cons, prod_nil]
    ring
  rw [(h.reshape hdims).get_eq k hk _ hwithin, hoffset, getD_eq_getElem _ _ hk]
  exact hremote _ (getElem_mem hk) r hr i hi t ht d hd

/-- The selected blocks of a cache whose axes are permuted. -/
lemma received_indexCopy (hvalid : ∀ b ∈ indices, b < nb)
    (hshape : cache.shape = [nb, N, H, D]) (hpermuted : permuted.shape = [indices.length, N, H, D])
    (hget : ∀ k (hk : k < indices.length), ∀ t < N, ∀ h < H, ∀ d < D,
      permuted.get [k, t, h, d] = remote indices[k] (t / rN) (t % rN) h d) :
    Received cache indices N H D rN remote (cache.indexCopy indices permuted) := by
  have hall : indices.all (· < cache.shape.headD 0) = true := by simpa [hshape] using hvalid
  have hcopy : cache.indexCopy indices permuted = .ok ⟨cache.shape, fun index =>
      if index.headD 0 ∈ indices then permuted.get (indices.idxOf (index.headD 0) :: index.tail)
      else cache.get index⟩ := by
    rw [indexCopy, if_pos hall, if_pos (by rw [hpermuted, hshape, tail_cons])]
  refine ⟨fun _ _ _ => ⟨_, hcopy⟩, ?_⟩
  intro cache' h
  obtain rfl := Except.ok.inj (hcopy.symm.trans h)
  refine ⟨rfl, ?_, fun b hb rest => if_neg hb⟩
  intro b hb t ht i hi d hd
  have hk : indices.idxOf b < indices.length := idxOf_lt_length_of_mem hb
  calc (if b ∈ indices then permuted.get [indices.idxOf b, t, i, d] else cache.get [b, t, i, d])
      = permuted.get [indices.idxOf b, t, i, d] := if_pos hb
    _ = remote b (t / rN) (t % rN) i d := by rw [hget _ hk t ht i hi d hd, getElem_idxOf]

lemma received_error (e : PyError) (h : N * H * D = 0) :
    Received cache indices N H D rN remote (.error e) := by
  refine ⟨?_, fun cache' h => nomatch h⟩
  intro hN hH hD
  exact absurd h (Nat.mul_pos (Nat.mul_pos hN hH) hD).ne'

/-! ## Selected blocks -/

lemma indexSelect_eq (hvalid : ∀ b ∈ indices, b < nb) (hshape : cache.shape = [nb, N, H, D]) :
    cache.indexSelect indices = .ok ⟨[indices.length, N, H, D],
      fun index => cache.get (indices.getD (index.headD 0) 0 :: index.tail)⟩ := by
  have hall : indices.all (· < cache.shape.headD 0) = true := by simpa [hshape] using hvalid
  rw [indexSelect, if_pos hall, hshape, tail_cons]

lemma exists_of_forall₂_three {index : List ℕ} (h : Forall₂ (· < ·) index [a, b, c]) :
    ∃ i j k, index = [i, j, k] ∧ i < a ∧ j < b ∧ k < c := by
  obtain _ | ⟨hi, h⟩ := h
  obtain _ | ⟨hj, h⟩ := h
  obtain _ | ⟨hk, ⟨⟩⟩ := h
  exact ⟨_, _, _, rfl, hi, hj, hk⟩

lemma TokensFirst.rowMajor (h : TokensFirst cache nb N H D memory)
    (hvalid : ∀ b ∈ indices, b < nb) :
    RowMajor ⟨[indices.length, N, H, D],
      fun index => cache.get (indices.getD (index.headD 0) 0 :: index.tail)⟩ indices.length [N, H, D]
      fun k => memory (indices.getD k 0) := by
  refine ⟨rfl, ?_⟩
  intro k hk rest hrest
  obtain ⟨t, i, d, rfl, ht, hi, hd⟩ := exists_of_forall₂_three hrest
  have hb : indices.getD k 0 < nb := by
    rw [getD_eq_getElem _ _ hk]
    exact hvalid _ (getElem_mem hk)
  calc cache.get [indices.getD k 0, t, i, d]
      = memory (indices.getD k 0) ((t * H + i) * D + d) := h.2 _ hb t ht i hi d hd
    _ = memory (indices.getD k 0) (offset [N, H, D] [t, i, d]) := by
        simp only [offset, prod_cons, prod_nil]
        ring_nf

/-- The physical order of a heads-first cache. -/
lemma HeadsFirst.rowMajor (h : HeadsFirst cache nb N H D memory)
    (hvalid : ∀ b ∈ indices, b < nb) :
    (Tensor.permute ⟨[indices.length, N, H, D],
      fun index => cache.get (indices.getD (index.headD 0) 0 :: index.tail)⟩ [0, 2, 1, 3]).RowMajor
      indices.length [H, N, D] fun k => memory (indices.getD k 0) := by
  refine ⟨rfl, ?_⟩
  intro k hk rest hrest
  obtain ⟨i, t, d, rfl, hi, ht, hd⟩ := exists_of_forall₂_three hrest
  have hb : indices.getD k 0 < nb := by
    rw [getD_eq_getElem _ _ hk]
    exact hvalid _ (getElem_mem hk)
  calc cache.get [indices.getD k 0, t, i, d]
      = memory (indices.getD k 0) ((i * N + t) * D + d) := h.2 _ hb t ht i hi d hd
    _ = memory (indices.getD k 0) (offset [H, N, D] [i, t, d]) := by
        simp only [offset, prod_cons, prod_nil]
        ring_nf

/-! ## Merging the token axes -/

section Merge

variable {k t i d : ℕ} (hshape : remoteBlocks.shape = [K, n, H, rN, D])
  (hk : k < K) (ht : t < n * rN) (hi : i < H) (hd : d < D)

include hshape

lemma shape_mergeTokensFirst :
    ((remoteBlocks.permute [0, 1, 3, 2, 4]).flatten 1 2).shape = [K, n * rN, H, D] := by
  simp [Tensor.flatten, Tensor.reshape, permute, hshape]

lemma shape_mergeHeadsFirst :
    ((remoteBlocks.permute [0, 2, 1, 3, 4]).flatten 2 3).shape = [K, H, n * rN, D] := by
  simp [Tensor.flatten, Tensor.reshape, permute, hshape]

include hk ht hi hd

lemma get_mergeTokensFirst : ((remoteBlocks.permute [0, 1, 3, 2, 4]).flatten 1 2).get [k, t, i, d] =
    remoteBlocks.get [k, t / rN, i, t % rN, d] := by
  have hrN : 0 < rN := Nat.pos_of_mul_pos_left (Nat.zero_lt_of_lt ht)
  have hpermuted : (remoteBlocks.permute [0, 1, 3, 2, 4]).shape = [K, n, rN, H, D] := by
    simp [permute, hshape]
  have hwithin : Forall₂ (· < ·) [k, t / rN, t % rN, i, d] [K, n, rN, H, D] :=
    .cons hk (.cons (Nat.div_lt_of_lt_mul (by rwa [Nat.mul_comm])) (.cons (Nat.mod_lt t hrN)
      (.cons hi (.cons hd .nil))))
  refine get_reshape _ (hpermuted ▸ hwithin) ?_
  have ht' := Nat.div_add_mod t rN
  simp only [hpermuted, offset, take, drop, prod_cons, prod_nil, singleton_append, mul_one]
  generalize t / rN = q, t % rN = r at ht'
  rw [← ht']
  ring

lemma get_mergeHeadsFirst : ((remoteBlocks.permute [0, 2, 1, 3, 4]).flatten 2 3).get [k, i, t, d] =
    remoteBlocks.get [k, t / rN, i, t % rN, d] := by
  have hrN : 0 < rN := Nat.pos_of_mul_pos_left (Nat.zero_lt_of_lt ht)
  have hpermuted : (remoteBlocks.permute [0, 2, 1, 3, 4]).shape = [K, H, n, rN, D] := by
    simp [permute, hshape]
  have hwithin : Forall₂ (· < ·) [k, i, t / rN, t % rN, d] [K, H, n, rN, D] :=
    .cons hk (.cons hi (.cons (Nat.div_lt_of_lt_mul (by rwa [Nat.mul_comm])) (.cons (Nat.mod_lt t hrN)
      (.cons hd .nil))))
  refine get_reshape _ (hpermuted ▸ hwithin) ?_
  have ht' := Nat.div_add_mod t rN
  simp only [hpermuted, offset, take, drop, prod_cons, prod_nil, cons_append, nil_append, mul_one]
  generalize t / rN = q, t % rN = r at ht'
  rw [← ht']
  ring

end Merge

/-! ## The functions -/

section Functions

variable (hvalid : ∀ b ∈ indices, b < nb)

include hvalid

lemma received_layout (h : TokensFirst cache nb N H D memory)
    (hremote : HoldsRemote memory indices 1 H N D remote) :
    Received cache indices N H D N remote (kvPostprocessLayoutOnReceive cache indices) := by
  have hrows := h.rowMajor hvalid
  have hprod : [H, N, D].prod = [N, H, D].prod := by
    simp only [prod_cons, prod_nil]
    ring
  unfold kvPostprocessLayoutOnReceive
  rw [indexSelect_eq hvalid h.1]
  simp only [bind, Except.bind, lastSizes]
  by_cases hzero : [H, N, D].prod = 0
  · rw [reshapeInfer_zero _ hzero]
    refine received_error _ ?_
    simpa [hprod, Nat.mul_assoc] using hzero
  · rw [reshapeInfer_eq hrows hprod hzero]
    dsimp only
    rw [permuteDims_eq _ 4 rfl (by decide)]
    refine received_indexCopy hvalid h.1 rfl ?_
    intro k hk t ht i hi d hd
    have hget := hremote _ (getElem_mem hk) 0 Nat.one_pos i hi t ht d hd
    rw [Nat.zero_mul, Nat.zero_add] at hget
    have hoffset : offset [H, N, D] [i, t, d] = (i * N + t) * D + d := by
      simp only [offset, prod_cons, prod_nil]
      ring
    rw [Nat.div_eq_of_lt ht, Nat.mod_eq_of_lt ht, ← hget, ← hoffset, ← getD_eq_getElem _ 0 hk]
    exact (hrows.reshape hprod).get_eq k hk _ (.cons hi (.cons ht (.cons hd .nil)))

lemma received_blksizeAndLayout (hn : 0 < n) (h : TokensFirst cache nb (n * rN) H D memory)
    (hremote : HoldsRemote memory indices n H rN D remote) :
    Received cache indices (n * rN) H D rN remote
      (kvPostprocessBlksizeAndLayoutOnReceive cache indices n) := by
  have hrows := h.rowMajor hvalid
  have hprod : [n, H, rN, D].prod = [n * rN, H, D].prod := by
    simp only [prod_cons, prod_nil]
    ring
  unfold kvPostprocessBlksizeAndLayoutOnReceive
  rw [indexSelect_eq hvalid h.1]
  simp only [bind, Except.bind, lastSizes, divideBlockSize, if_neg hn.ne', Nat.mul_div_cancel_left _ hn]
  by_cases hzero : [n, H, rN, D].prod = 0
  · rw [reshapeInfer_zero _ hzero]
    refine received_error _ ?_
    simpa [hprod, Nat.mul_assoc] using hzero
  · rw [reshapeInfer_eq hrows hprod hzero]
    dsimp only
    rw [permuteDims_eq _ 5 rfl (by decide)]
    refine received_indexCopy hvalid h.1 (shape_mergeTokensFirst rfl) ?_
    intro k hk t ht i hi d hd
    have hrN : 0 < rN := Nat.pos_of_mul_pos_left (Nat.zero_lt_of_lt ht)
    rw [get_mergeTokensFirst rfl hk ht hi hd]
    exact get_remoteBlocks hrows hprod hremote hk (Nat.div_lt_of_lt_mul (by rwa [Nat.mul_comm])) hi
      (Nat.mod_lt t hrN) hd

lemma received_blksize (hn : 0 < n) (h : HeadsFirst cache nb (n * rN) H D memory)
    (hremote : HoldsRemote memory indices n H rN D remote) :
    Received cache indices (n * rN) H D rN remote (kvPostprocessBlksizeOnReceive cache indices n) := by
  have hrows := h.rowMajor hvalid
  have hprod : [n, H, rN, D].prod = [H, n * rN, D].prod := by
    simp only [prod_cons, prod_nil]
    ring
  unfold kvPostprocessBlksizeOnReceive
  rw [indexSelect_eq hvalid h.1]
  simp only [bind, Except.bind]
  rw [permuteDims_eq _ 4 rfl (by decide)]
  simp only [hrows.shape_eq, lastSizes, divideBlockSize, if_neg hn.ne', Nat.mul_div_cancel_left _ hn]
  by_cases hzero : [n, H, rN, D].prod = 0
  · rw [reshapeInfer_zero _ hzero]
    refine received_error _ ?_
    rw [← hzero, hprod]
    simp only [prod_cons, prod_nil]
    ring
  · rw [reshapeInfer_eq hrows hprod hzero]
    dsimp only
    rw [permuteDims_eq _ 5 rfl (by decide)]
    dsimp only
    rw [permuteDims_eq _ 4 (by rw [shape_mergeHeadsFirst rfl]; rfl) (by decide)]
    refine received_indexCopy hvalid h.1 (shape_permute (shape_mergeHeadsFirst rfl)) ?_
    intro k hk t ht i hi d hd
    have hrN : 0 < rN := Nat.pos_of_mul_pos_left (Nat.zero_lt_of_lt ht)
    rw [get_permute, get_mergeHeadsFirst rfl hk ht hi hd]
    exact get_remoteBlocks hrows hprod hremote hk (Nat.div_lt_of_lt_mul (by rwa [Nat.mul_comm])) hi
      (Nat.mod_lt t hrN) hd

/-- If the memory of each listed block holds `ratio` remote blocks, element `(t, h, d)` of the block becomes
that of its remote block `t / (N / ratio)`; the function that changes only the layout is the case of ratio one. -/
theorem received_of_holdsRemote (ratio : ℕ) (hratio : ratio ∣ N)
    (hremote : HoldsRemote memory indices ratio H (N / ratio) D remote) :
    (HeadsFirst cache nb N H D memory → Received cache indices N H D (N / ratio) remote
      (kvPostprocessBlksizeOnReceive cache indices ratio)) ∧
    (TokensFirst cache nb N H D memory → Received cache indices N H D (N / ratio) remote
      (kvPostprocessBlksizeAndLayoutOnReceive cache indices ratio)) ∧
    (TokensFirst cache nb N H D memory → ratio = 1 → Received cache indices N H D (N / ratio) remote
      (kvPostprocessLayoutOnReceive cache indices)) := by
  obtain ⟨rN, rfl⟩ := hratio
  rcases Nat.eq_zero_or_pos ratio with rfl | hpos
  · have hzero : 0 * rN * H * D = 0 := by simp
    refine ⟨fun h => ?_, fun h => ?_, fun _ h => absurd h Nat.zero_ne_one⟩
    · unfold kvPostprocessBlksizeOnReceive
      rw [indexSelect_eq hvalid h.1]
      simp only [bind, Except.bind]
      rw [permuteDims_eq _ 4 rfl (by decide)]
      exact received_error _ hzero
    · unfold kvPostprocessBlksizeAndLayoutOnReceive
      rw [indexSelect_eq hvalid h.1]
      exact received_error _ hzero
  rw [Nat.mul_div_cancel_left _ hpos] at hremote ⊢
  refine ⟨fun h => received_blksize hvalid hpos h hremote,
    fun h => received_blksizeAndLayout hvalid hpos h hremote, ?_⟩
  rintro h rfl
  rw [Nat.one_mul] at h ⊢
  exact received_layout hvalid h hremote

end Functions

/-- Two blocks of two tokens and two heads; the second one was received as two remote blocks. -/
def twoBlocks : Tensor ℕ :=
  ⟨[2, 2, 2, 1], fun index => 10 * index.getD 0 0 + (index.getD 2 0 * 2 + index.getD 1 0)⟩

theorem received_of_holdsRemote_twoBlocks : ∃ cache',
    kvPostprocessBlksizeOnReceive twoBlocks [1] 2 = .ok cache' ∧
      cache'.get [1, 0, 1, 0] = 11 ∧ cache'.get [1, 1, 0, 0] = 12 ∧ cache'.get [0, 1, 0, 0] = 1 := by
  have hfirst : HeadsFirst twoBlocks 2 2 2 1 fun b o => 10 * b + o := ⟨rfl, by decide⟩
  have hremote : HoldsRemote (fun b o => 10 * b + o) [1] 2 2 (2 / 2) 1
      fun b r _ h _ => 10 * b + (2 * r + h) := by
    unfold HoldsRemote
    decide
  obtain ⟨hok, hget⟩ := (received_of_holdsRemote (by decide) 2 (by decide) hremote).1 hfirst
  obtain ⟨cache', h⟩ := hok (by decide) (by decide) (by decide)
  obtain ⟨-, hlisted, hothers⟩ := hget cache' h
  exact ⟨cache', h, hlisted 1 (by decide) 0 (by decide) 1 (by decide) 0 (by decide),
    hlisted 1 (by decide) 1 (by decide) 0 (by decide) 0 (by decide), hothers 0 (by decide) [1, 0, 0]⟩

end VllmRuntime.KVPostprocess
