import Mathlib.Algebra.BigOperators.Group.Finset.Basic
import Mathlib.Data.Nat.Basic
import Mathlib.Tactic

/-! # Interleaved distribution

Positions are dealt out to ranks in groups of a fixed size, one rank after the other. Which rank has a
position, the index of the position there, and how many of the first positions a rank has are three
formulas that agree with each other. -/

namespace Interleave

open List

variable {W I r n : ℕ} {B p : ℕ}

/-- The rank that has a position. -/
def owner (W I p : ℕ) : ℕ := p / I % W

/-- The index of a position among those of its rank. -/
def localIndex (W I p : ℕ) : ℕ := p / (W * I) * I + p % I

/-- How many of the first `n` positions a rank has. -/
def localLength (W I r n : ℕ) : ℕ := n / (W * I) * I + min I (n % (W * I) - r * I)

/-- A single rank has all positions. -/
@[simp] lemma localIndex_one (I p : ℕ) : localIndex 1 I p = p := by
  rw [localIndex, Nat.one_mul]
  exact Nat.div_add_mod' p I

/-! ## Rounds, ranks and offsets -/

/-- A position is given by its round, its rank and its offset in the group. -/
lemma exists_digits (hW : 0 < W) (hI : 0 < I) (p : ℕ) :
    ∃ a b c, p = a * (W * I) + (b * I + c) ∧ b < W ∧ c < I := by
  refine ⟨p / I / W, p / I % W, p % I, ?_, Nat.mod_lt _ hW, Nat.mod_lt _ hI⟩
  calc p = p / I * I + p % I := (Nat.div_add_mod' p I).symm
    _ = (p / I / W * W + p / I % W) * I + p % I := by rw [Nat.div_add_mod' (p / I) W]
    _ = p / I / W * (W * I) + (p / I % W * I + p % I) := by ring

section Digits

variable {a b c : ℕ}

lemma group_lt (hb : b < W) (hc : c < I) : b * I + c < W * I := by
  calc b * I + c < b * I + I := Nat.add_lt_add_left hc _
    _ = (b + 1) * I := by ring
    _ ≤ W * I := Nat.mul_le_mul_right I hb

lemma digits_div (hb : b < W) (hc : c < I) : (a * (W * I) + (b * I + c)) / (W * I) = a := by
  have hlt := group_lt hb hc
  rw [Nat.mul_comm, Nat.mul_add_div (by omega), Nat.div_eq_of_lt hlt, Nat.add_zero]

lemma digits_mod (hb : b < W) (hc : c < I) : (a * (W * I) + (b * I + c)) % (W * I) = b * I + c := by
  rw [Nat.mul_comm, Nat.mul_add_mod, Nat.mod_eq_of_lt (group_lt hb hc)]

lemma owner_digits (hb : b < W) (hc : c < I) : owner W I (a * (W * I) + (b * I + c)) = b := by
  have hdiv : (a * (W * I) + (b * I + c)) / I = a * W + b := by
    rw [show a * (W * I) + (b * I + c) = I * (a * W + b) + c by ring,
      Nat.mul_add_div (by omega), Nat.div_eq_of_lt hc, Nat.add_zero]
  rw [owner, hdiv, Nat.mul_comm, Nat.mul_add_mod, Nat.mod_eq_of_lt hb]

lemma localIndex_digits (hb : b < W) (hc : c < I) :
    localIndex W I (a * (W * I) + (b * I + c)) = a * I + c := by
  have hmod : (a * (W * I) + (b * I + c)) % I = c := by
    rw [show a * (W * I) + (b * I + c) = I * (a * W + b) + c by ring, Nat.mul_add_mod, Nat.mod_eq_of_lt hc]
  rw [localIndex, digits_div hb hc, hmod]

lemma localLength_digits (hb : b < W) (hc : c < I) : localLength W I r (a * (W * I) + (b * I + c)) =
    a * I + if b < r then 0 else if b = r then c else I := by
  rw [localLength, digits_div hb hc, digits_mod hb hc]
  congr 1
  by_cases hlt : b < r
  · have hle : (b + 1) * I ≤ r * I := Nat.mul_le_mul_right I hlt
    rw [Nat.add_one_mul] at hle
    rw [if_pos hlt]
    omega
  · rw [if_neg hlt]
    by_cases heq : b = r
    · subst heq
      rw [if_pos rfl]
      omega
    · have hle : (r + 1) * I ≤ b * I := Nat.mul_le_mul_right I (by omega)
      rw [Nat.add_one_mul] at hle
      rw [if_neg heq]
      omega

end Digits

/-- The first position of the first rank is position 0. -/
lemma eq_zero_of_first (hW : 0 < W) (hI : 0 < I) (howner : owner W I p = 0) (hindex : localIndex W I p = 0) :
    p = 0 := by
  obtain ⟨a, b, c, rfl, hb, hc⟩ := exists_digits hW hI p
  rw [owner_digits hb hc] at howner
  rw [localIndex_digits hb hc] at hindex
  obtain ⟨ha, rfl⟩ := Nat.add_eq_zero_iff.mp hindex
  obtain rfl := (Nat.mul_eq_zero.mp ha).resolve_right hI.ne'
  subst howner
  simp

/-- Where a block of all ranks together ends, the first rank has more than one block, if it has that
position and the group size does not divide the block size. -/
lemma lt_localIndex_of_first (hW : 1 < W) (hI : 0 < I) (hB : ¬I ∣ B) (howner : owner W I (B * W) = 0) :
    B < localIndex W I (B * W) := by
  have hrest : 0 < B % I := Nat.pos_of_ne_zero fun hzero => hB (Nat.dvd_of_mod_eq_zero hzero)
  have hlt := Nat.mod_lt B hI
  have hdiv := Nat.div_add_mod' B I
  have hrank : B % I * W / I < W := by
    rw [Nat.div_lt_iff_lt_mul hI, Nat.mul_comm W]
    exact Nat.mul_lt_mul_of_pos_right hlt (by omega)
  have hdigits : B * W = B / I * (W * I) + (B % I * W / I * I + B % I * W % I) := by
    rw [Nat.div_add_mod' (B % I * W) I]
    nth_rewrite 1 [← hdiv]
    ring
  rw [hdigits] at howner ⊢
  rw [owner_digits hrank (Nat.mod_lt _ hI)] at howner
  have hsmall : B % I * W < I := (Nat.div_eq_zero_iff_lt hI).mp howner
  have hmore : B % I < B % I * W := (Nat.lt_mul_iff_one_lt_right hrest).mpr hW
  rw [localIndex_digits hrank (Nat.mod_lt _ hI), Nat.mod_eq_of_lt hsmall]
  omega

/-! ## The formulas agree -/

/-- The number of positions of a rank grows with each position that it has. -/
lemma localLength_succ (hW : 0 < W) (hI : 0 < I) (hr : r < W) (n : ℕ) :
    localLength W I r (n + 1) = localLength W I r n + if owner W I n = r then 1 else 0 := by
  obtain ⟨a, b, c, rfl, hb, hc⟩ := exists_digits hW hI n
  rw [localLength_digits hb hc, owner_digits hb hc]
  by_cases hc' : c + 1 < I
  · -- the next position is in the same group
    rw [show a * (W * I) + (b * I + c) + 1 = a * (W * I) + (b * I + (c + 1)) by ring,
      localLength_digits hb hc']
    split_ifs <;> omega
  · obtain rfl : I = c + 1 := by omega
    by_cases hb' : b + 1 < W
    · -- the next position starts the group of the next rank
      rw [show a * (W * (c + 1)) + (b * (c + 1) + c) + 1 =
          a * (W * (c + 1)) + ((b + 1) * (c + 1) + 0) by ring, localLength_digits hb' (by omega)]
      split_ifs <;> omega
    · -- the next position starts the next round
      obtain rfl : W = b + 1 := by omega
      rw [show a * ((b + 1) * (c + 1)) + (b * (c + 1) + c) + 1 =
          (a + 1) * ((b + 1) * (c + 1)) + (0 * (c + 1) + 0) by ring,
        localLength_digits (by omega) (by omega), Nat.add_one_mul a (c + 1)]
      split_ifs <;> omega

lemma localIndex_eq_localLength (hW : 0 < W) (hI : 0 < I) (n : ℕ) :
    localIndex W I n = localLength W I (owner W I n) n := by
  obtain ⟨a, b, c, rfl, hb, hc⟩ := exists_digits hW hI n
  rw [localLength_digits hb hc, owner_digits hb hc, localIndex_digits hb hc]
  simp

lemma owner_lt (hW : 0 < W) (p : ℕ) : owner W I p < W := Nat.mod_lt _ hW

/-- The positions of a rank, in order. -/
def owned (W I r n : ℕ) : List ℕ := (List.range n).filter fun p => owner W I p = r

lemma length_owned (hW : 0 < W) (hI : 0 < I) (hr : r < W) (n : ℕ) :
    (owned W I r n).length = localLength W I r n := by
  induction n with
  | zero => simp [owned, localLength]
  | succ n ih =>
    rw [localLength_succ hW hI hr, ← ih, owned, owned, range_succ, filter_append,
      length_append]
    by_cases hn : owner W I n = r <;> simp [hn]

/-- The position at an index of a rank has that index. -/
lemma localIndex_of_owned (hW : 0 < W) (hI : 0 < I) (hr : r < W) {k : ℕ} (h : (owned W I r n)[k]? = some p) :
    localIndex W I p = k := by
  induction n with
  | zero => simp [owned] at h
  | succ n ih =>
    have hsucc : owned W I r (n + 1) = owned W I r n ++ if owner W I n = r then [n] else [] := by
      rw [owned, owned, range_succ, filter_append]
      by_cases hn : owner W I n = r <;> simp [hn]
    rw [hsucc, getElem?_append] at h
    split at h
    · exact ih h
    · rename_i hlt
      split at h
      · rename_i hn
        obtain ⟨hk, rfl⟩ : k - (owned W I r n).length = 0 ∧ n = p := by
          cases hk : k - (owned W I r n).length with
          | zero =>
            rw [hk] at h
            exact ⟨rfl, Option.some.inj h⟩
          | succ j =>
            rw [hk] at h
            cases h
        rw [localIndex_eq_localLength hW hI, hn, ← length_owned hW hI hr]
        omega
      · cases h

/-- Together the ranks have all positions. -/
lemma sum_localLength (hW : 0 < W) (hI : 0 < I) (n : ℕ) :
    ∑ r ∈ Finset.range W, localLength W I r n = n := by
  induction n with
  | zero => simp [localLength]
  | succ n ih =>
    calc ∑ r ∈ Finset.range W, localLength W I r (n + 1)
        = ∑ r ∈ Finset.range W, (localLength W I r n + if owner W I n = r then 1 else 0) :=
          Finset.sum_congr rfl fun r hr => localLength_succ hW hI (Finset.mem_range.mp hr) n
      _ = n + 1 := by
          rw [Finset.sum_add_distrib, ih, Finset.sum_ite_eq, if_pos (Finset.mem_range.mpr (owner_lt hW n))]

/-- The index of a position in a block is that of its offset in a block of all ranks together. -/
lemma owner_mod (hI : 0 < I) (hB : I ∣ B) (p : ℕ) : owner W I (p % (B * W)) = owner W I p := by
  obtain ⟨m, rfl⟩ := hB
  have hp : p = I * (m * W * (p / (I * m * W))) + p % (I * m * W) := by
    have := Nat.div_add_mod p (I * m * W)
    calc p = I * m * W * (p / (I * m * W)) + p % (I * m * W) := this.symm
      _ = _ := by ring
  unfold owner
  conv_rhs => rw [hp, Nat.mul_add_div hI, show m * W * (p / (I * m * W)) = W * (m * (p / (I * m * W))) by ring,
    Nat.mul_add_mod]

lemma localIndex_mod (hW : 0 < W) (hI : 0 < I) (hB : I ∣ B) (p : ℕ) :
    localIndex W I p = p / (B * W) * B + localIndex W I (p % (B * W)) := by
  obtain ⟨m, rfl⟩ := hB
  have hp : p = W * I * (m * (p / (I * m * W))) + p % (I * m * W) := by
    have := Nat.div_add_mod p (I * m * W)
    calc p = I * m * W * (p / (I * m * W)) + p % (I * m * W) := this.symm
      _ = _ := by ring
  have hdiv : p / (W * I) = m * (p / (I * m * W)) + p % (I * m * W) / (W * I) := by
    conv_lhs => rw [hp, Nat.mul_add_div (Nat.mul_pos hW hI)]
  have hmod : p % I = p % (I * m * W) % I := by
    rw [Nat.mod_mod_of_dvd]
    exact ⟨m * W, by ring⟩
  unfold localIndex
  rw [hdiv, hmod]
  ring

/-- Inside a block the index stays below the size of the block. -/
lemma localIndex_lt (hW : 0 < W) (hI : 0 < I) (hB : I ∣ B) (hp : p < B * W) :
    localIndex W I p < B := by
  obtain ⟨m, rfl⟩ := hB
  have hm : p / (W * I) < m := by
    rw [Nat.div_lt_iff_lt_mul (Nat.mul_pos hW hI)]
    calc p < I * m * W := hp
      _ = m * (W * I) := by ring
  calc localIndex W I p < p / (W * I) * I + I := Nat.add_lt_add_left (Nat.mod_lt _ hI) _
    _ = (p / (W * I) + 1) * I := by ring
    _ ≤ m * I := Nat.mul_le_mul_right I hm
    _ = I * m := Nat.mul_comm m I

end Interleave
