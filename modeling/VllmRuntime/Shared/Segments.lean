import Mathlib.Data.List.Range
import Mathlib.Tactic

/-! # Flattened segments

Rows of different lengths are stored one after the other in a flat array. Running sums give where each
row starts, and an index into the flat array is the start of a row plus an index into the row. -/

namespace Segments

open List

variable {α β ρ : Type*} {xs ys vs : List α} {i : ℕ} {indices : List ℕ} {rs : List ρ} {r : ρ}

/-- The running sums of a list, from a base. -/
def cumsumFrom (base : ℕ) : List ℕ → List ℕ
  | [] => []
  | n :: ns => (base + n) :: cumsumFrom (base + n) ns

def cumsum (ns : List ℕ) : List ℕ := cumsumFrom 0 ns

/-- Each value as often as its count says. -/
def repeatEach (values counts : List ℕ) : List ℕ :=
  (List.zipWith (fun value count => List.replicate count value) values counts).flatten

/-- The elements at some indices; `none` where one of them is out of range. -/
def gather (xs : List α) (indices : List ℕ) : Option (List α) := indices.mapM (xs[·]?)

/-- Values are written to their indices one after the other. -/
def scatter (xs : List α) (indices : List ℕ) (values : List α) : List α :=
  (indices.zip values).foldl (fun xs write => xs.set write.1 write.2) xs

/-- The elements under a mask. -/
def compress (xs : List α) (mask : List Bool) : List α :=
  ((xs.zip mask).filter (·.2)).map (·.1)

/-- Values are written one after the other from an offset on. -/
def writeAt (xs : List α) (offset : ℕ) : List α → List α
  | [] => xs
  | v :: vs => writeAt (xs.set offset v) (offset + 1) vs

/-- The flat indices that a selection of indices of every row stands for. -/
def flatIndices (base : ℕ) (len : ρ → ℕ) (sel : ρ → List ℕ) : List ρ → List ℕ
  | [] => []
  | r :: rs => (sel r).map (base + ·) ++ flatIndices (base + len r) len sel rs

/-! ## Running sums -/

@[simp] lemma cumsumFrom_nil (base : ℕ) : cumsumFrom base [] = [] := rfl

@[simp] lemma cumsumFrom_cons (base n : ℕ) (ns : List ℕ) :
    cumsumFrom base (n :: ns) = (base + n) :: cumsumFrom (base + n) ns := rfl

@[simp] lemma length_cumsumFrom (base : ℕ) (ns : List ℕ) : (cumsumFrom base ns).length = ns.length := by
  induction ns generalizing base with
  | nil => rfl
  | cons n ns ih => simp [ih]

lemma getLastD_cumsumFrom (base : ℕ) (ns : List ℕ) : (cumsumFrom base ns).getLastD base = base + ns.sum := by
  induction ns generalizing base with
  | nil => simp
  | cons n ns ih =>
    rw [cumsumFrom_cons, getLastD_cons, ih, sum_cons, Nat.add_assoc]

lemma getElem?_cumsumFrom (base : ℕ) {ns : List ℕ} (hi : i < ns.length) :
    (cumsumFrom base ns)[i]? = some (base + (ns.take (i + 1)).sum) := by
  induction ns generalizing base i with
  | nil => simp at hi
  | cons n ns ih =>
    cases i with
    | zero => simp
    | succ i =>
      rw [cumsumFrom_cons, getElem?_cons_succ, ih _ (by simpa using hi), take_succ_cons,
        sum_cons, Nat.add_assoc]

/-! ## Repeated starts and counters -/

@[simp] lemma repeatEach_cons (v n : ℕ) (vs ns : List ℕ) :
    repeatEach (v :: vs) (n :: ns) = List.replicate n v ++ repeatEach vs ns := by
  simp [repeatEach]

@[simp] lemma repeatEach_nil (vs : List ℕ) : repeatEach vs [] = [] := by
  simp [repeatEach]

lemma zipWith_sub_replicate (base n : ℕ) :
    zipWith (· - ·) (range' base n) (List.replicate n base) = range n := by
  apply ext_getElem?
  intro i
  by_cases hi : i < n
  · simp [hi]
  · simp [Nat.le_of_not_lt hi]

/-- Subtracting the start of its row from every flat index leaves a counter for every row. -/
lemma arange_eq_flatMap (base : ℕ) (ns : List ℕ) :
    zipWith (· - ·) (range' base ns.sum)
        (repeatEach (zipWith (· - ·) (cumsumFrom base ns) ns) ns) =
      ns.flatMap range := by
  induction ns generalizing base with
  | nil => simp
  | cons n ns ih =>
    have hstart : base + n - n = base := Nat.add_sub_cancel base n
    rw [cumsumFrom_cons, zipWith_cons_cons, hstart, repeatEach_cons, sum_cons,
      ← range'_append_1, zipWith_append (by simp), zipWith_sub_replicate, ih,
      flatMap_cons]

/-! ## Flat indices -/

section FlatIndices

variable (base : ℕ) (len back n : ρ → ℕ) (sel : ρ → List ℕ) (rs : List ρ) {p : ℕ}

/-- A start for every row, moved back from the end of the row, plus a counter for every row. -/
lemma repeatEach_add_arange {rs : List ρ} (h : ∀ r ∈ rs, back r ≤ len r) :
    zipWith (· + ·)
        (repeatEach (zipWith (· - ·) (cumsumFrom base (rs.map len)) (rs.map back)) (rs.map n))
        ((rs.map n).flatMap range) =
      flatIndices base len (fun r => (range (n r)).map (len r - back r + ·)) rs := by
  induction rs generalizing base with
  | nil => rfl
  | cons r rs ih =>
    have hr : back r ≤ len r := h r mem_cons_self
    have hstart : base + len r - back r = base + (len r - back r) := by omega
    have hrow : zipWith (· + ·) (List.replicate (n r) (base + (len r - back r))) (range (n r)) =
        ((range (n r)).map (len r - back r + ·)).map (base + ·) := by
      apply ext_getElem?
      intro i
      by_cases hi : i < n r
      · simp [hi, Nat.add_assoc]
      · simp [Nat.le_of_not_lt hi]
    rw [map_cons, map_cons, map_cons, cumsumFrom_cons, zipWith_cons_cons, hstart,
      repeatEach_cons, flatMap_cons, zipWith_append (by simp), hrow,
      ih _ fun r' hr' => h r' (mem_cons_of_mem _ hr'), flatIndices]

/-- The last index of every row. -/
lemma map_pred_cumsumFrom {rs : List ρ} (h : ∀ r ∈ rs, 0 < len r) :
    (cumsumFrom base (rs.map len)).map (· - 1) = flatIndices base len (fun r => [len r - 1]) rs := by
  induction rs generalizing base with
  | nil => rfl
  | cons r rs ih =>
    have hr : 0 < len r := h r mem_cons_self
    have hlast : base + len r - 1 = base + (len r - 1) := by omega
    rw [map_cons, cumsumFrom_cons, map_cons, hlast,
      ih _ fun r' hr' => h r' (mem_cons_of_mem _ hr'), flatIndices]
    rfl

lemma map_succ_flatIndices :
    (flatIndices base len sel rs).map (· + 1) =
      flatIndices base len (fun r => (sel r).map (· + 1)) rs := by
  induction rs generalizing base with
  | nil => rfl
  | cons r rs ih =>
    rw [flatIndices, map_append, ih, flatIndices, map_map, map_map]
    rfl

lemma mem_flatIndices {base : ℕ} {len : ρ → ℕ} {sel : ρ → List ℕ} {rs : List ρ} :
    p ∈ flatIndices base len sel rs ↔
      ∃ i r k, rs[i]? = some r ∧ k ∈ sel r ∧ p = base + ((rs.take i).map len).sum + k := by
  induction rs generalizing base with
  | nil => simp [flatIndices]
  | cons r rs ih =>
    rw [flatIndices, mem_append, mem_map, ih]
    constructor
    · rintro (⟨k, hk, rfl⟩ | ⟨i, r', k, hr', hk, rfl⟩)
      · exact ⟨0, r, k, rfl, hk, by simp⟩
      · exact ⟨i + 1, r', k, hr', hk, by simp [Nat.add_assoc]⟩
    · rintro ⟨i, r', k, hr', hk, rfl⟩
      cases i with
      | zero =>
        obtain rfl : r = r' := by simpa using hr'
        exact .inl ⟨k, hk, by simp⟩
      | succ i => exact .inr ⟨i, r', k, hr', hk, by simp [Nat.add_assoc]⟩

/-- Every place of the flat array is one of a row. -/
lemma exists_of_lt_sum {len : ρ → ℕ} {rs : List ρ} (h : p < (rs.map len).sum) :
    ∃ i r k, rs[i]? = some r ∧ k < len r ∧ p = ((rs.take i).map len).sum + k := by
  induction rs generalizing p with
  | nil => simp at h
  | cons r rs ih =>
    by_cases hp : p < len r
    · exact ⟨0, r, p, rfl, hp, by simp⟩
    · rw [map_cons, sum_cons] at h
      obtain ⟨i, r', k, hr', hk, heq⟩ := ih (show p - len r < (rs.map len).sum by omega)
      refine ⟨i + 1, r', k, hr', hk, ?_⟩
      rw [take_succ_cons, map_cons, sum_cons]
      omega

lemma sum_take_add_lt (len : ρ → ℕ) {rs : List ρ} {k : ℕ} (hr : rs[i]? = some r) (hk : k < len r) :
    ((rs.take i).map len).sum + k < (rs.map len).sum := by
  induction rs generalizing i with
  | nil => simp at hr
  | cons r' rs ih =>
    cases i with
    | zero =>
      obtain rfl : r' = r := by simpa using hr
      simp only [take_zero, map_nil, sum_nil, map_cons, sum_cons]
      omega
    | succ i =>
      have h := ih (i := i) hr
      simp only [take_succ_cons, map_cons, sum_cons]
      omega

/-- The starts of the rows, each with a counter of one width. -/
lemma flatMap_starts (w : ℕ) :
    ((base :: cumsumFrom base (rs.map len)).dropLast).flatMap (fun start => (range w).map (start + ·)) =
      flatIndices base len (fun _ => range w) rs := by
  induction rs generalizing base with
  | nil => rfl
  | cons r rs ih =>
    rw [map_cons, cumsumFrom_cons, dropLast_cons_cons, flatMap_cons, ih, flatIndices]

end FlatIndices

/-! ## Reading and writing at indices -/

lemma gather_eq_some :
    gather xs indices = some ys ↔ indices.map (xs[·]?) = ys.map some := by
  unfold gather
  induction indices generalizing ys with
  | nil => cases ys <;> simp
  | cons i indices ih =>
    cases ys with
    | nil => simp [Option.bind_eq_some_iff]
    | cons y ys => simp [Option.bind_eq_some_iff, ih]

lemma gather_eq_map (h : ∀ p ∈ indices, p < xs.length) (d : α) :
    gather xs indices = some (indices.map (xs.getD · d)) := by
  rw [gather_eq_some, map_map]
  apply map_congr_left
  intro p hp
  simp [h p hp]

/-- What rows give at their own indices, the flat array gives at the flat indices. -/
lemma gather_flatIndices (seg pick : ρ → List α) (sel : ρ → List ℕ)
    (h : ∀ r ∈ rs, gather (seg r) (sel r) = some (pick r)) :
    gather (rs.flatMap seg) (flatIndices 0 (fun r => (seg r).length) sel rs) = some (rs.flatMap pick) := by
  suffices hgen : ∀ before : List α,
      gather (before ++ rs.flatMap seg) (flatIndices before.length (fun r => (seg r).length) sel rs) =
        some (rs.flatMap pick) from hgen []
  induction rs with
  | nil => intro before; rfl
  | cons r rs ih =>
    intro before
    have hr := gather_eq_some.1 (h r mem_cons_self)
    have hrs := gather_eq_some.1 (ih (fun r' hr' => h r' (mem_cons_of_mem _ hr')) (before ++ seg r))
    have hrow : ((sel r).map (before.length + ·)).map ((before ++ (seg r ++ rs.flatMap seg))[·]?) =
        (pick r).map some := by
      rw [← hr, map_map]
      apply map_congr_left
      intro k hk
      have hlt : k < (seg r).length := by
        have hmem : (seg r)[k]? ∈ (pick r).map some := hr ▸ mem_map_of_mem hk
        obtain ⟨y, -, hy⟩ := List.mem_map.1 hmem
        exact (List.getElem?_eq_some_iff.1 hy.symm).1
      simp only [Function.comp_apply]
      rw [getElem?_append_right (Nat.le_add_right _ _), Nat.add_sub_cancel_left,
        getElem?_append_left hlt]
    rw [gather_eq_some, flatIndices, flatMap_cons, flatMap_cons, map_append, hrow,
      map_append, ← hrs, append_assoc, length_append]

@[simp] lemma length_scatter (xs : List α) (indices : List ℕ) (values : List α) :
    (scatter xs indices values).length = xs.length := by
  unfold scatter
  generalize indices.zip values = writes
  induction writes generalizing xs with
  | nil => rfl
  | cons write writes ih => simp [ih]

/-- Writing what was read: the written indices have the elements that were read. -/
lemma getElem?_scatter_gather (hlen : xs.length = ys.length) (h : gather ys indices = some vs) (p : ℕ) :
    (scatter xs indices vs)[p]? = if p ∈ indices then ys[p]? else xs[p]? := by
  rw [gather_eq_some] at h
  induction indices generalizing xs vs with
  | nil => simp [scatter]
  | cons i indices ih =>
    cases vs with
    | nil => simp at h
    | cons v vs =>
      obtain ⟨hv, hvs⟩ : ys[i]? = some v ∧ indices.map (ys[·]?) = vs.map some := by simpa using h
      have hi : i < xs.length := hlen ▸ (List.getElem?_eq_some_iff.1 hv).1
      have hstep : scatter xs (i :: indices) (v :: vs) = scatter (xs.set i v) indices vs := rfl
      rw [hstep, ih (by simpa using hlen) hvs]
      by_cases hp : p ∈ indices
      · simp [hp]
      · by_cases hpi : p = i
        · subst hpi
          simp [hp, hi, hv]
        · rw [if_neg hp, if_neg (by simp [hp, hpi]), getElem?_set_ne (Ne.symm hpi)]

/-! ## Masks -/

lemma compress_append {mask : List Bool} (h : xs.length = mask.length) (ys : List α) (mask' : List Bool) :
    compress (xs ++ ys) (mask ++ mask') = compress xs mask ++ compress ys mask' := by
  simp [compress, zip_append h]

lemma compress_replicate_true (xs : List α) : compress xs (List.replicate xs.length true) = xs := by
  induction xs with
  | nil => rfl
  | cons x xs ih => simpa [compress, replicate_succ] using ih

lemma compress_replicate_false (xs : List α) (n : ℕ) : compress xs (List.replicate n false) = [] := by
  induction xs generalizing n with
  | nil => simp [compress]
  | cons x xs ih =>
    cases n with
    | zero => simp [compress]
    | succ n => simpa [compress, replicate_succ] using ih n

lemma compress_split (xs ys : List α) (n : ℕ) :
    compress (xs ++ ys) (List.replicate xs.length true ++ List.replicate n false) = xs := by
  rw [compress_append (by simp), compress_replicate_true, compress_replicate_false, append_nil]

lemma drop_take_flatMap (seg : ρ → List α) (hr : rs[i]? = some r) :
    ((rs.flatMap seg).drop ((rs.take i).map fun r => (seg r).length).sum).take (seg r).length = seg r := by
  induction rs generalizing i with
  | nil => simp at hr
  | cons r' rs ih =>
    cases i with
    | zero =>
      obtain rfl : r' = r := by simpa using hr
      simp
    | succ i =>
      rw [take_succ_cons, map_cons, sum_cons, flatMap_cons,
        drop_length_add_append]
      exact ih hr

/-- A row of the flat array starts after the rows before it. -/
lemma getElem?_flatMap (seg : ρ → List α) {k : ℕ} (hr : rs[i]? = some r) (hk : k < (seg r).length) :
    (rs.flatMap seg)[((rs.take i).map fun r => (seg r).length).sum + k]? = (seg r)[k]? := by
  rw [← getElem?_drop, ← getElem?_take_of_lt hk, drop_take_flatMap seg hr]

/-! ## Rows of one width -/

@[simp] lemma length_writeAt (xs : List α) (offset : ℕ) (vs : List α) :
    (writeAt xs offset vs).length = xs.length := by
  induction vs generalizing xs offset with
  | nil => rfl
  | cons v vs ih => simp [writeAt, ih]

lemma getElem?_writeAt {offset : ℕ} (h : offset + vs.length ≤ xs.length) (p : ℕ) :
    (writeAt xs offset vs)[p]? =
      if offset ≤ p ∧ p < offset + vs.length then vs[p - offset]? else xs[p]? := by
  induction vs generalizing xs offset with
  | nil =>
    have hnot : ¬(offset ≤ p ∧ p < offset + ([] : List α).length) := by simp
    rw [if_neg hnot, writeAt]
  | cons v vs ih =>
    simp only [length_cons] at h ⊢
    rw [writeAt, ih (by simp only [length_set]; omega)]
    rcases Nat.lt_trichotomy p offset with hp | rfl | hp
    · rw [if_neg (by omega), if_neg (by omega), getElem?_set_ne (by omega)]
    · rw [if_neg (by omega), if_pos (by omega), getElem?_set_self (by omega), Nat.sub_self]
      rfl
    · by_cases hlt : p < offset + (vs.length + 1)
      · rw [if_pos (by omega), if_pos (by omega), show p - offset = p - (offset + 1) + 1 by omega,
          getElem?_cons_succ]
      · rw [if_neg (by omega), if_neg (by omega), getElem?_set_ne (by omega)]

/-- Every row of an order is written from its own start, in any order. -/
lemma getElem?_foldl_writeAt {w j : ℕ} {vs : ℕ → List α} (hw : ∀ k, (vs k).length ≤ w) (hj : j < w)
    {order : List ℕ} (hxs : ∀ k ∈ order, k * w + w ≤ xs.length) :
    (order.foldl (fun xs k => writeAt xs (k * w) (vs k)) xs)[i * w + j]? =
      if i ∈ order ∧ j < (vs i).length then (vs i)[j]? else xs[i * w + j]? := by
  induction order generalizing xs with
  | nil => simp
  | cons k order ih =>
    have hk : k * w + w ≤ xs.length := hxs k mem_cons_self
    have hin : (k * w ≤ i * w + j ∧ i * w + j < k * w + (vs k).length) ↔ i = k ∧ j < (vs i).length := by
      constructor
      · rintro ⟨hle, hlt⟩
        have hkw := hw k
        have hik : i = k := by
          have hi : (i * w + j) / w = i := by
            rw [Nat.mul_comm, Nat.mul_add_div (by omega), Nat.div_eq_of_lt hj, Nat.add_zero]
          have hk' : (i * w + j) / w = k :=
            Nat.div_eq_of_lt_le hle (by rw [Nat.succ_mul]; omega)
          omega
        subst hik
        exact ⟨rfl, by omega⟩
      · rintro ⟨rfl, hlt⟩
        omega
    have hkle : k * w + (vs k).length ≤ xs.length := Nat.le_trans (Nat.add_le_add_left (hw k) _) hk
    rw [foldl_cons, ih fun k' hk' => by
      rw [length_writeAt]; exact hxs k' (mem_cons_of_mem _ hk'), getElem?_writeAt hkle]
    by_cases hmem : i ∈ order ∧ j < (vs i).length
    · rw [if_pos hmem, if_pos ⟨mem_cons_of_mem _ hmem.1, hmem.2⟩]
    · rw [if_neg hmem]
      by_cases hik : i = k ∧ j < (vs i).length
      · rw [if_pos (hin.2 hik), if_pos ⟨hik.1 ▸ mem_cons_self, hik.2⟩]
        obtain ⟨rfl, -⟩ := hik
        rw [Nat.add_sub_cancel_left]
      · rw [if_neg (mt hin.1 hik), if_neg]
        rintro ⟨hi, hlt⟩
        rcases mem_cons.1 hi with rfl | hi
        · exact hik ⟨rfl, hlt⟩
        · exact hmem ⟨hi, hlt⟩

end Segments
