import VllmRuntime.Shared.Segments

/-! # Rows of different lengths in one array

Whole-array operations on a flat array of rows, each of which has its own length, row by row. -/

namespace Segments

open List

variable {ρ α β δ : Type*}

/-- The flat array whose row for `r` has the length `len r` and the entries `f r`. -/
def rows (len : ρ → ℕ) (f : ρ → ℕ → α) (rs : List ρ) : List α :=
  rs.flatMap fun r => (List.range (len r)).map (f r)

variable {len : ρ → ℕ} {f : ρ → ℕ → α} {g : ρ → ℕ → β} {rs : List ρ} {p i j : ℕ} {r : ρ}

@[simp] lemma rows_nil : rows len f [] = [] := rfl

lemma rows_cons (r : ρ) : rows len f (r :: rs) = (range (len r)).map (f r) ++ rows len f rs :=
  flatMap_cons

@[simp] lemma length_rows : (rows len f rs).length = (rs.map len).sum := by
  simp [rows, length_flatMap]

lemma rows_congr {f' : ρ → ℕ → α} (h : ∀ r ∈ rs, ∀ j < len r, f r j = f' r j) : rows len f rs = rows len f' rs := by
  unfold rows
  refine flatMap_congr fun r hr => map_congr_left fun j hj => h r hr j (mem_range.mp hj)

lemma map_rows (h : α → β) : (rows len f rs).map h = rows len (fun r j => h (f r j)) rs := by
  simp [rows, map_flatMap, Function.comp_def]

lemma zipWith_rows (h : α → β → δ) :
    zipWith h (rows len f rs) (rows len g rs) = rows len (fun r j => h (f r j) (g r j)) rs := by
  induction rs with
  | nil => rfl
  | cons r rs ih =>
    rw [rows_cons, rows_cons, rows_cons, zipWith_append (by simp), ih]
    simp [zipWith_map_left, zipWith_map_right, zipWith_self]

lemma rows_map {σ : Type*} (g : σ → ρ) (ss : List σ) :
    rows len f (ss.map g) = rows (fun s => len (g s)) (fun s => f (g s)) ss := by
  unfold rows
  exact flatMap_map ..

lemma mapM_rows {F : α → Option β} (h : ∀ r ∈ rs, ∀ j < len r, F (f r j) = some (g r j)) :
    (rows len f rs).mapM F = some (rows len g rs) := by
  induction rs with
  | nil => rfl
  | cons r rs ih =>
    rw [forall_mem_cons] at h
    have hrow : ((range (len r)).map (f r)).mapM F = some ((range (len r)).map (g r)) := by
      have hrange : ∀ js : List ℕ, (∀ j ∈ js, j < len r) → (js.map (f r)).mapM F = some (js.map (g r)) := by
        intro js hjs
        induction js with
        | nil => rfl
        | cons j js ihj =>
          rw [forall_mem_cons] at hjs
          rw [map_cons, mapM_cons, h.1 j hjs.1, ihj hjs.2]
          rfl
      exact hrange _ fun j hj => mem_range.mp hj
    rw [rows_cons, rows_cons, mapM_append, hrow, ih h.2]
    rfl

/-- Every entry is replaced by `p` entries. -/
lemma flatMap_range (n : ℕ) (hp : 0 < p) (h : ℕ → ℕ → α) :
    ((range n).flatMap fun j => (range p).map (h j)) =
      (range (n * p)).map fun m => h (m / p) (m % p) := by
  induction n with
  | zero => simp
  | succ n ih =>
    rw [range_succ, flatMap_append, ih, Nat.succ_mul, range_add, map_append]
    congr 1
    rw [flatMap_cons, flatMap_nil, append_nil, map_map]
    refine map_congr_left fun k hk => ?_
    have hk := mem_range.mp hk
    rw [Function.comp_apply, Nat.mul_comm n p, Nat.mul_add_div hp, Nat.mul_add_mod, Nat.div_eq_of_lt hk,
      Nat.mod_eq_of_lt hk, Nat.add_zero]

lemma flatMap_rows (hp : 0 < p) (h : α → ℕ → β) :
    ((rows len f rs).flatMap fun a => (range p).map (h a)) =
      rows (fun r => len r * p) (fun r m => h (f r (m / p)) (m % p)) rs := by
  unfold rows
  rw [flatMap_assoc]
  refine flatMap_congr fun r _ => ?_
  rw [flatMap_map, flatMap_range _ hp fun j => h (f r j)]

/-- An entry of a row is after the rows before it. -/
lemma getElem?_rows (len : ρ → ℕ) (f : ρ → ℕ → α) (hr : rs[i]? = some r) (hj : j < len r) :
    (rows len f rs)[((rs.take i).map len).sum + j]? = some (f r j) := by
  have hflat := getElem?_flatMap (fun r => (range (len r)).map (f r)) hr (k := j) (by simpa using hj)
  simp only [length_map, length_range] at hflat
  rw [rows, hflat]
  simp [hj]

/-! ## Repeated values and counters -/

lemma repeatEach_rows (value : ρ → ℕ) :
    repeatEach (rs.map value) (rs.map len) = rows len (fun r _ => value r) rs := by
  induction rs with
  | nil => rfl
  | cons r rs ih =>
    rw [map_cons, map_cons, repeatEach_cons, ih, rows_cons]
    simp

lemma arange_rows :
    zipWith (· - ·) (range (rs.map len).sum)
        (repeatEach (zipWith (· - ·) (cumsum (rs.map len)) (rs.map len)) (rs.map len)) =
      rows len (fun _ j => j) rs := by
  have h := arange_eq_flatMap 0 (rs.map len)
  rw [← range_eq_range'] at h
  rw [cumsum, h, rows, flatMap_map]
  simp

/-! ## The last entry of each row -/

/-- Writing at the last index of each row. -/
lemma scatter_last (base : ℕ) (before : List α) (hbefore : before.length = base) (x : α) (value : ρ → α)
    (h : ∀ r ∈ rs, 0 < len r) :
    scatter (before ++ List.replicate (rs.map len).sum x) ((cumsumFrom base (rs.map len)).map (· - 1))
        (rs.map value) =
      before ++ rows len (fun r j => if j = len r - 1 then value r else x) rs := by
  induction rs generalizing base before with
  | nil => simp [scatter]
  | cons r rs ih =>
    rw [forall_mem_cons] at h
    have hrow : (List.replicate (len r) x).set (len r - 1) (value r) =
        (range (len r)).map fun j => if j = len r - 1 then value r else x := by
      refine ext_getElem (by rw [length_set, length_replicate]; simp) fun j hj _ => ?_
      have hlt := h.1
      simp only [getElem_set, getElem_replicate, getElem_map, getElem_range]
      split_ifs <;> first | rfl | omega
    have hset : (before ++ List.replicate ((r :: rs).map len).sum x).set (base + len r - 1) (value r) =
        (before ++ (range (len r)).map fun j => if j = len r - 1 then value r else x) ++
          List.replicate (rs.map len).sum x := by
      have hlt := h.1
      have hinside : base + len r - 1 < (before ++ List.replicate (len r) x).length := by
        rw [length_append, length_replicate]
        omega
      rw [map_cons, sum_cons, ← replicate_append_replicate, ← append_assoc,
        set_append_left _ _ hinside, set_append_right _ _ (by omega)]
      rw [show base + len r - 1 - before.length = len r - 1 by omega, hrow]
    have hlength : (before ++ (range (len r)).map fun j =>
        if j = len r - 1 then value r else x).length = base + len r := by
      rw [length_append, length_map, length_range, hbefore]
    have hrest := ih (base + len r) _ hlength h.2
    rw [map_cons, map_cons, cumsumFrom_cons, map_cons, rows_cons]
    have hstep : ∀ (xs : List α) (k : ℕ) (v : α) (ks : List ℕ) (vs : List α),
        scatter xs (k :: ks) (v :: vs) = scatter (xs.set k v) ks vs := fun _ _ _ _ _ => rfl
    rw [hstep, ← map_cons (f := len), hset, hrest, append_assoc]

lemma scatter_rows_last (x : α) (value : ρ → α) (h : ∀ r ∈ rs, 0 < len r) :
    scatter (List.replicate (rs.map len).sum x) ((cumsum (rs.map len)).map (· - 1)) (rs.map value) =
      rows len (fun r j => if j = len r - 1 then value r else x) rs :=
  scatter_last 0 [] rfl x value h

/-! ## Running sums -/

/-- The running sum before an entry of a row: that of the rows before and of the entries before. -/
lemma sum_take_rows {f : ρ → ℕ → ℕ} (hr : rs[i]? = some r) (hj : j ≤ len r) :
    ((rows len f rs).take (((rs.take i).map len).sum + j)).sum =
      ((rs.take i).map fun r => ((range (len r)).map (f r)).sum).sum + ((range j).map (f r)).sum := by
  induction rs generalizing i with
  | nil => simp at hr
  | cons r' rs ih =>
    cases i with
    | zero =>
      obtain rfl : r' = r := by simpa using hr
      rw [rows_cons, take_zero, map_nil, sum_nil, Nat.zero_add,
        take_append_of_le_length (by simpa using hj), ← map_take, take_range, min_eq_left hj]
      simp
    | succ i =>
      rw [rows_cons, take_succ_cons, map_cons, sum_cons, Nat.add_assoc, take_append,
        take_of_length_le (by simp), sum_append, length_map, length_range,
        Nat.add_sub_cancel_left, ih hr, map_cons, sum_cons, Nat.add_assoc]

end Segments
