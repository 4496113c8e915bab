import Mathlib.Data.List.Basic
import Mathlib.Order.Monotone.Basic
import Mathlib.Tactic.Linarith

/-! # The runs of a mask

A run is a longest stretch of set positions. The runs of a mask are found from its right end. -/

namespace MaskRuns

open List

/-- All positions from `first` to `last` are set, and those next to them are not. -/
structure IsRun (mask : List Bool) (first last : ℕ) : Prop where
  le : first ≤ last
  set : ∀ k, first ≤ k → k ≤ last → mask[k]? = some true
  before : ∀ k, k + 1 = first → mask[k]? ≠ some true
  after : mask[last + 1]? ≠ some true

/-- The list has every run of the mask once, from left to right. -/
structure Lists (mask : List Bool) (runs : List (ℕ × ℕ)) : Prop where
  ordered : runs.Pairwise fun run next => run.2 < next.1
  mem_iff : ∀ run, run ∈ runs ↔ IsRun mask run.1 run.2

def shift (run : ℕ × ℕ) : ℕ × ℕ := (run.1 + 1, run.2 + 1)

/-- The runs with one more position on the left. -/
def runs : List Bool → List (ℕ × ℕ)
  | [] => []
  | false :: mask => (runs mask).map shift
  | true :: mask =>
    match mask.head?, runs mask with
    | some true, run :: rest => (0, run.2 + 1) :: rest.map shift
    | _, rest => (0, 0) :: rest.map shift

variable {mask : List Bool} {b : Bool} {i j : ℕ} {rest : List (ℕ × ℕ)} {run : ℕ × ℕ}

/-- A run that does not start at the left end of the longer mask is one of the shorter mask. -/
lemma isRun_cons_succ : IsRun (b :: mask) (i + 1) (j + 1) ↔ IsRun mask i j ∧ (i = 0 → b = false) := by
  constructor
  · refine fun h => ⟨⟨by have := h.le; omega, fun k hi hj => ?_, fun k hk => ?_, ?_⟩, fun hi => ?_⟩
    · simpa using h.set (k + 1) (by omega) (by omega)
    · simpa using h.before (k + 1) (by omega)
    · simpa using h.after
    · simpa using h.before 0 (by omega)
  · rintro ⟨h, hb⟩
    refine ⟨by have := h.le; omega, fun k hi hj => ?_, fun k hk => ?_, by simpa using h.after⟩
    · obtain ⟨k, rfl⟩ : ∃ k', k = k' + 1 := ⟨k - 1, by omega⟩
      simpa using h.set k (by omega) (by omega)
    · cases k with
      | zero => simpa using hb (by omega)
      | succ k => simpa using h.before k (by omega)

/-- A run from the left end is alone there or extends the first run of the shorter mask. -/
lemma isRun_cons_zero : IsRun (b :: mask) 0 j ↔ b = true ∧
    (j = 0 ∧ mask.head? ≠ some true ∨ ∃ j', j = j' + 1 ∧ IsRun mask 0 j') := by
  constructor
  · refine fun h => ⟨by simpa using h.set 0 le_rfl (Nat.zero_le _), ?_⟩
    cases j with
    | zero => exact Or.inl ⟨rfl, by simpa [head?_eq_getElem?] using h.after⟩
    | succ j =>
      refine Or.inr ⟨j, rfl, Nat.zero_le _, fun k _ hk => ?_, fun k hk => by omega, by simpa using h.after⟩
      simpa using h.set (k + 1) (Nat.zero_le _) (by omega)
  · rintro ⟨rfl, ⟨rfl, hhead⟩ | ⟨j, rfl, h⟩⟩
    · refine ⟨le_rfl, fun k _ hk => ?_, fun k hk => by omega, ?_⟩
      · obtain rfl : k = 0 := by omega
        rfl
      · simpa [head?_eq_getElem?] using hhead
    · refine ⟨Nat.zero_le _, fun k _ hk => ?_, fun k hk => by omega, by simpa using h.after⟩
      cases k with
      | zero => rfl
      | succ k => simpa using h.set k (Nat.zero_le _) (by omega)

/-- A mask whose first position is set has a run there. -/
lemma runs_true (mask : List Bool) : ∃ last rest, runs (true :: mask) = (0, last) :: rest := by
  unfold runs
  split <;> exact ⟨_, _, rfl⟩

lemma runs_true_true {last : ℕ} (h : runs (true :: mask) = (0, last) :: rest) :
    runs (true :: true :: mask) = (0, last + 1) :: rest.map shift := by
  rw [runs, h]
  rfl

lemma runs_of_head_ne (h : mask.head? ≠ some true) :
    runs (true :: mask) = (0, 0) :: (runs mask).map shift := by
  rw [runs]
  split
  · contradiction
  · rfl

lemma IsRun.first_ne_zero (h : IsRun mask i j) (hj : mask.head? ≠ some true) : i ≠ 0 := by
  rintro rfl
  exact hj (by simpa [head?_eq_getElem?] using h.set 0 le_rfl (Nat.zero_le _))

lemma pairwise_shift (h : rest.Pairwise fun run next => run.2 < next.1) :
    (rest.map shift).Pairwise fun run next => run.2 < next.1 :=
  pairwise_map.mpr (h.imp fun hlt => Nat.succ_lt_succ hlt)

lemma mem_map_shift :
    run ∈ rest.map shift ↔ ∃ i j, run = (i + 1, j + 1) ∧ (i, j) ∈ rest := by
  constructor
  · intro h
    obtain ⟨⟨i, j⟩, hmem, rfl⟩ := mem_map.mp h
    exact ⟨i, j, rfl, hmem⟩
  · rintro ⟨i, j, rfl, hmem⟩
    exact mem_map.mpr ⟨(i, j), hmem, rfl⟩

/-- A run starts at the left end or is a shifted run. -/
lemma isRun_cons_iff : IsRun (b :: mask) run.1 run.2 ↔
    (∃ last, run = (0, last) ∧ IsRun (b :: mask) 0 last) ∨
      ∃ i j, run = (i + 1, j + 1) ∧ IsRun mask i j ∧ (i = 0 → b = false) := by
  constructor
  · intro h
    obtain ⟨first, last⟩ := run
    cases first with
    | zero => exact Or.inl ⟨last, rfl, h⟩
    | succ i =>
      obtain ⟨j, rfl⟩ : ∃ j, last = j + 1 := ⟨last - 1, by have := h.le; dsimp only at this; omega⟩
      exact Or.inr ⟨i, j, rfl, isRun_cons_succ.mp h⟩
  · rintro (⟨last, rfl, h⟩ | ⟨i, j, rfl, h⟩)
    · exact h
    · exact isRun_cons_succ.mpr h

/-- The induction is on the mask: one more position on the left opens a run, extends the first one, or
only shifts them all. -/
lemma lists_runs (mask : List Bool) : Lists mask (runs mask) := by
  induction mask with
  | nil =>
    refine ⟨.nil, fun run => ⟨fun h => absurd h not_mem_nil, fun h => ?_⟩⟩
    have := h.set run.1 le_rfl h.le
    simp at this
  | cons b mask ih =>
    cases b with
    | false =>
      refine ⟨pairwise_shift ih.ordered, fun run => ?_⟩
      rw [runs, mem_map_shift, isRun_cons_iff]
      constructor
      · rintro ⟨i, j, rfl, h⟩
        exact Or.inr ⟨i, j, rfl, (ih.mem_iff _).mp h, fun _ => rfl⟩
      · rintro (⟨last, -, h⟩ | ⟨i, j, rfl, h, -⟩)
        · cases (isRun_cons_zero.mp h).1
        · exact ⟨i, j, rfl, (ih.mem_iff (i, j)).mpr h⟩
    | true =>
      by_cases hhead : mask.head? = some true
      · obtain ⟨rest', rfl⟩ : ∃ rest', mask = true :: rest' := by
          obtain ⟨x, rest', rfl⟩ := exists_cons_of_ne_nil (l := mask) (by rintro rfl; cases hhead)
          exact ⟨rest', by rw [Option.some.inj hhead]⟩
        obtain ⟨last, rest, hruns⟩ := runs_true rest'
        rw [hruns] at ih
        obtain ⟨hfirst, hrest⟩ := pairwise_cons.mp ih.ordered
        have hpos : ∀ i j, (i, j) ∈ rest → i ≠ 0 := fun i j h hi => by
          have := hfirst _ h
          dsimp only at this
          omega
        rw [runs_true_true hruns]
        refine ⟨pairwise_cons.mpr ⟨fun next h => ?_, pairwise_shift hrest⟩, fun run => ?_⟩
        · obtain ⟨i, j, rfl, hmem⟩ := mem_map_shift.mp h
          exact Nat.succ_lt_succ (hfirst (i, j) hmem)
        rw [mem_cons, mem_map_shift, isRun_cons_iff]
        refine or_congr ⟨?_, ?_⟩ ⟨?_, ?_⟩
        · rintro rfl
          exact ⟨_, rfl, isRun_cons_zero.mpr
            ⟨rfl, Or.inr ⟨last, rfl, (ih.mem_iff (0, last)).mp mem_cons_self⟩⟩⟩
        · rintro ⟨j, rfl, h⟩
          obtain ⟨-, ⟨-, hnot⟩ | ⟨j', rfl, hrun⟩⟩ := isRun_cons_zero.mp h
          · exact absurd hhead hnot
          · rcases mem_cons.mp ((ih.mem_iff (0, j')).mpr hrun) with heq | hmem
            · cases heq
              rfl
            · exact absurd rfl (hpos 0 j' hmem)
        · rintro ⟨i, j, rfl, h⟩
          exact ⟨i, j, rfl, (ih.mem_iff (i, j)).mp (mem_cons_of_mem _ h),
            fun hi => absurd hi (hpos i j h)⟩
        · rintro ⟨i, j, rfl, h, hi⟩
          rcases mem_cons.mp ((ih.mem_iff (i, j)).mpr h) with heq | hmem
          · cases heq
            cases hi rfl
          · exact ⟨i, j, rfl, hmem⟩
      · rw [runs_of_head_ne hhead]
        refine ⟨pairwise_cons.mpr ⟨fun next h => ?_, pairwise_shift ih.ordered⟩, fun run => ?_⟩
        · obtain ⟨i, j, rfl, -⟩ := mem_map_shift.mp h
          exact Nat.succ_pos i
        rw [mem_cons, mem_map_shift, isRun_cons_iff]
        refine or_congr ⟨?_, ?_⟩ ⟨?_, ?_⟩
        · rintro rfl
          exact ⟨0, rfl, isRun_cons_zero.mpr ⟨rfl, Or.inl ⟨rfl, hhead⟩⟩⟩
        · rintro ⟨j, rfl, h⟩
          obtain ⟨-, ⟨rfl, -⟩ | ⟨j', rfl, hrun⟩⟩ := isRun_cons_zero.mp h
          · rfl
          · exact absurd rfl (hrun.first_ne_zero hhead)
        · rintro ⟨i, j, rfl, h⟩
          have hrun := (ih.mem_iff (i, j)).mp h
          exact ⟨i, j, rfl, hrun, fun hi => absurd hi (hrun.first_ne_zero hhead)⟩
        · rintro ⟨i, j, rfl, h, -⟩
          exact ⟨i, j, rfl, (ih.mem_iff (i, j)).mpr h⟩

/-! ## Slices between cuts -/

/-- Cuts in order split what a monotone count has counted: each item is in exactly one slice. -/
lemma existsUnique_slice {count : ℕ → ℕ} (hcount : Monotone count) {cuts : List ℕ}
    (hsorted : cuts.Pairwise (· ≤ ·)) (hne : cuts ≠ []) (hfirst : ∀ c ∈ cuts.head?, count c ≤ j)
    (hlast : ∀ c ∈ cuts.getLast?, j < count c) :
    ∃! i, ∃ s e, cuts[i]? = some s ∧ cuts[i + 1]? = some e ∧ count s ≤ j ∧ j < count e := by
  induction cuts with
  | nil => exact absurd rfl hne
  | cons s cuts ih =>
    have hs : count s ≤ j := hfirst s rfl
    obtain ⟨hle, hrest⟩ := pairwise_cons.mp hsorted
    cases cuts with
    | nil => exact absurd (hlast s rfl) (Nat.not_lt.mpr hs)
    | cons e cuts =>
      by_cases he : j < count e
      · refine ⟨0, ⟨s, e, rfl, rfl, hs, he⟩, ?_⟩
        rintro i ⟨s', e', hs', -, hj, -⟩
        cases i with
        | zero => rfl
        | succ i =>
          rw [getElem?_cons_succ] at hs'
          -- Every later cut is at least the second one.
          have hmem := mem_of_getElem? hs'
          have hge : e ≤ s' := by
            rcases mem_cons.mp hmem with rfl | hmem
            · exact le_rfl
            · exact (pairwise_cons.mp hrest).1 s' hmem
          exact absurd (he.trans_le (hcount hge)) (Nat.not_lt.mpr hj)
      · obtain ⟨i, ⟨s', e', hs', he', hj⟩, hunique⟩ := ih hrest (cons_ne_nil _ _)
          (fun c hc => by
            cases hc
            omega)
          (fun c hc => hlast c (by rwa [getLast?_cons_cons]))
        refine ⟨i + 1, ⟨s', e', hs', he', hj⟩, ?_⟩
        rintro i' ⟨s₁, e₁, hs₁, he₁, hj₁⟩
        cases i' with
        | zero =>
          rw [getElem?_cons_succ] at he₁
          cases he₁
          exact absurd hj₁.2 he
        | succ i' => exact congrArg (· + 1) (hunique i' ⟨s₁, e₁, hs₁, he₁, hj₁⟩)

end MaskRuns
