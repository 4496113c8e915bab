import VllmRuntime.Shared.MaskRuns
import VllmRuntime.Verification.EncoderCache.Plans

/-! # The embeddings of a placeholder

The positions of a placeholder that take an embedding are counted. A chunk of the prompt that ends at
the first position of the placeholder is given all embeddings instead of none. -/

namespace VllmRuntime.PlaceholderRange

open List MaskRuns Function

/-! ## Runs -/

/-- `is_embed.int()`. -/
def toInts (isEmbed : List Bool) : List ℤ := isEmbed.map fun embed => if embed then 1 else 0

variable {isEmbed : List Bool} {cuts : List ℕ} {k : ℕ}

lemma findIdxs_one (p : ℤ → Bool) (xs : List ℤ) : xs.findIdxs p 1 = (xs.findIdxs p).map (· + 1) :=
  findIdxs_start

lemma diff_cons_cons (x y : ℤ) (xs : List ℤ) : diff (x :: y :: xs) = (y - x) :: diff (y :: xs) := rfl

/-- After a position that is set, the stretch that goes on has no start. -/
lemma findIdxs_rises (isEmbed : List Bool) : (diff (1 :: toInts isEmbed)).findIdxs (· = 1) =
    if isEmbed.head? = some true then (embedStarts (toInts isEmbed)).tail
    else embedStarts (toInts isEmbed) := by
  cases isEmbed with
  | nil => rfl
  | cons b isEmbed =>
    cases b <;> simp [embedStarts, toInts, diff_cons_cons]

lemma embedStarts_eq (isEmbed : List Bool) :
    embedStarts (toInts isEmbed) = (runs isEmbed).map Prod.fst := by
  have hshift (rest : List (ℕ × ℕ)) : (rest.map shift).map Prod.fst = (rest.map Prod.fst).map (· + 1) := by
    simp [shift, comp_def]
  induction isEmbed with
  | nil => rfl
  | cons b isEmbed ih =>
    cases b with
    | false =>
      have hstarts : embedStarts (toInts (false :: isEmbed)) =
          (embedStarts (toInts isEmbed)).map (· + 1) := by
        simp [embedStarts, toInts, diff_cons_cons, findIdxs_one]
      rw [hstarts, ih, runs, hshift]
    | true =>
      have hstarts : embedStarts (toInts (true :: isEmbed)) =
          0 :: ((diff (1 :: toInts isEmbed)).findIdxs (· = 1)).map (· + 1) := by
        simp [embedStarts, toInts, diff_cons_cons, findIdxs_one]
      rw [hstarts, findIdxs_rises, ih]
      by_cases hhead : isEmbed.head? = some true
      · cases isEmbed with
        | nil => cases hhead
        | cons b isEmbed =>
          cases hhead
          obtain ⟨last, rest, hruns⟩ := runs_true isEmbed
          simp [runs_true_true hruns, hruns, shift, comp_def]
      · simp [runs_of_head_ne hhead, hhead, shift, comp_def]

lemma embedEnds_eq (isEmbed : List Bool) :
    embedEnds (toInts isEmbed) = (runs isEmbed).map Prod.snd := by
  induction isEmbed with
  | nil => rfl
  | cons b isEmbed ih =>
    have hends : embedEnds (toInts (b :: isEmbed)) =
        (if b = true ∧ isEmbed.head? ≠ some true then [0] else []) ++
          (embedEnds (toInts isEmbed)).map (· + 1) := by
      cases isEmbed with
      | nil => cases b <;> decide
      | cons b' isEmbed =>
        cases b <;> cases b' <;> simp [embedEnds, toInts, diff_cons_cons, findIdxs_one]
    rw [hends, ih]
    cases b with
    | false => simp [runs, shift, comp_def]
    | true =>
      by_cases hhead : isEmbed.head? = some true
      · cases isEmbed with
        | nil => cases hhead
        | cons b isEmbed =>
          cases hhead
          obtain ⟨last, rest, hruns⟩ := runs_true isEmbed
          simp [runs_true_true hruns, hruns, shift, comp_def]
      · simp [runs_of_head_ne hhead, hhead, shift, comp_def]

/-- The starts and ends that are stacked are those of the runs. -/
lemma extractEmbedsRange_eq {range : PlaceholderRange} (h : range.isEmbed = some isEmbed) :
    range.extractEmbedsRange =
      .ok ((runs isEmbed).map fun run => ((run.1 : ℤ) + range.offset, (run.2 : ℤ) + range.offset)) := by
  have hzip : ((runs isEmbed).map Prod.fst).zip ((runs isEmbed).map Prod.snd) = runs isEmbed := by
    rw [zip_map', map_id']
  unfold extractEmbedsRange
  rw [h]
  change (if (embedStarts (toInts isEmbed)).length = (embedEnds (toInts isEmbed)).length then
    Except.ok (((embedStarts (toInts isEmbed)).zip (embedEnds (toInts isEmbed))).map _) else _) = _
  rw [embedStarts_eq, embedEnds_eq, length_map, length_map, if_pos rfl, hzip]

/-! ## Slices -/

variable {range : PlaceholderRange} {s e : ℕ}

/-- How many of the first positions take an embedding. -/
def embedsBefore (range : PlaceholderRange) (k : ℕ) : ℕ :=
  match range.isEmbed with
  | none => k
  | some isEmbed => (isEmbed.take k).count true

lemma embedsBefore_mono (range : PlaceholderRange) : Monotone range.embedsBefore := by
  intro i j hij
  unfold embedsBefore
  split
  · exact hij
  · exact (take_sublist_take_left hij).count_le true

lemma embedsBefore_of_mask (h : range.isEmbed = some isEmbed) (k : ℕ) :
    range.embedsBefore k = (isEmbed.take k).count true := by
  rw [embedsBefore, h]

lemma getElem?_embedsCumsum (hk : k < isEmbed.length) :
    (embedsCumsum isEmbed)[k]? = some ((isEmbed.take (k + 1)).count true) := by
  simp [embedsCumsum, hk]

lemma length_embedsCumsum (isEmbed : List Bool) : (embedsCumsum isEmbed).length = isEmbed.length := by
  simp [embedsCumsum]

/-- The position before one that is not the first is in the tensor. -/
lemma entry_pred (hpos : 0 < k) (hk : k ≤ isEmbed.length) :
    (pyIndex (embedsCumsum isEmbed).length ((k : ℤ) - 1)).bind ((embedsCumsum isEmbed)[·]?) =
      some ((isEmbed.take k).count true) := by
  rw [length_embedsCumsum, pyIndex, if_pos (by omega), Option.bind_some,
    show ((k : ℤ) - 1).toNat = k - 1 by omega, getElem?_embedsCumsum (by omega), Nat.sub_add_cancel hpos]

/-- The position before the first one is the last one of the tensor. -/
lemma entry_neg_one (isEmbed : List Bool) :
    (pyIndex (embedsCumsum isEmbed).length (((0 : ℕ) : ℤ) - 1)).bind ((embedsCumsum isEmbed)[·]?) =
      if isEmbed = [] then none else some (isEmbed.count true) := by
  rw [length_embedsCumsum]
  cases isEmbed with
  | nil => rfl
  | cons b isEmbed =>
    rw [if_neg (cons_ne_nil _ _), pyIndex, if_neg (by omega), if_pos (by simp), Option.bind_some,
      getElem?_embedsCumsum (by simp)]
    congr 2
    exact take_of_length_le (by simp)

/-- The last entry is read for a chunk that ends at the first position. -/
lemma getEmbedsIndicesInRange_zero (h : range.isEmbed = some isEmbed) :
    range.getEmbedsIndicesInRange (0 : ℕ) (0 : ℕ) =
      if isEmbed = [] then .error .indexError else .ok (0, (isEmbed.count true : ℤ)) := by
  unfold getEmbedsIndicesInRange
  rw [h]
  dsimp only
  rw [if_neg (show ¬((0 : ℕ) : ℤ) > 0 by simp), entry_neg_one]
  by_cases hnil : isEmbed = []
  · simp only [hnil, if_true]
    rfl
  · simp only [hnil, if_false]
    rfl

lemma getEmbedsIndicesInRange_eq (hmask : ∀ isEmbed, range.isEmbed = some isEmbed →
    isEmbed.length = range.length) (hse : s ≤ e) (he : e ≤ range.length) (hpos : 0 < e) :
    range.getEmbedsIndicesInRange s e = .ok (range.embedsBefore s, range.embedsBefore e) := by
  unfold getEmbedsIndicesInRange embedsBefore
  cases h : range.isEmbed with
  | none => rfl
  | some isEmbed =>
    have hlength := hmask isEmbed h
    dsimp only
    rw [entry_pred hpos (by omega)]
    by_cases hs : 0 < s
    · rw [if_pos (by omega), entry_pred hs (by omega)]
      rfl
    · obtain rfl : s = 0 := by omega
      rfl

/-- Every chunk between two cuts is answered with the embeddings before it and before its end, and the
chunks take each embedding between the first and the last cut once. -/
structure Sliced (range : PlaceholderRange) (cuts : List ℕ) : Prop where
  answers : ∀ i (s e : ℕ), cuts[i]? = some s → cuts[i + 1]? = some e →
    range.getEmbedsIndicesInRange s e = .ok (range.embedsBefore s, range.embedsBefore e)
  once : ∀ first last, cuts.head? = some first → cuts.getLast? = some last →
    ∀ j, range.embedsBefore first ≤ j → j < range.embedsBefore last →
      ∃! i, ∃ (s e : ℕ) (slice : ℤ × ℤ), cuts[i]? = some s ∧ cuts[i + 1]? = some e ∧
        range.getEmbedsIndicesInRange s e = .ok slice ∧ slice.1 ≤ j ∧ j < slice.2

/-- Which positions take an embedding; without a mask these are all. -/
def HasMask (range : PlaceholderRange) (mask : List Bool) : Prop :=
  range.isEmbed = some mask ∨
    range.isEmbed = none ∧ 0 < range.length ∧ mask = List.replicate range.length true

/-- The runs of the mask are returned as positions of the prompt. -/
def RunsExtracted (range : PlaceholderRange) : Prop :=
  ∀ mask, range.HasMask mask → ∃ runs, Lists mask runs ∧ range.extractEmbedsRange =
    .ok (runs.map fun run => ((run.1 : ℤ) + range.offset, (run.2 : ℤ) + range.offset))

/-- A mask that is set everywhere has one run. -/
lemma lists_replicate {n : ℕ} (hn : 0 < n) : Lists (List.replicate n true) [(0, n - 1)] := by
  refine ⟨pairwise_singleton _ _, fun run => ?_⟩
  rw [mem_singleton]
  constructor
  · rintro rfl
    refine ⟨Nat.zero_le _, fun k _ hk => ?_, fun k hk => absurd hk (Nat.succ_ne_zero k), ?_⟩
    · rw [getElem?_replicate, if_pos (by dsimp only at hk; omega)]
    · rw [getElem?_replicate, if_neg (by dsimp only; omega)]
      simp
  · intro h
    have hlast := h.set run.2 h.le le_rfl
    have hafter := h.after
    rw [getElem?_replicate] at hlast hafter
    have hlt : run.2 < n := by
      by_contra hge
      rw [if_neg hge] at hlast
      cases hlast
    have hend : run.2 = n - 1 := by
      by_contra hne
      exact hafter (if_pos (by omega))
    refine Prod.ext ?_ hend
    by_contra hne
    refine h.before (run.1 - 1) (by dsimp only at hne; omega) ?_
    rw [getElem?_replicate, if_pos (by have := h.le; omega)]

lemma runsExtracted (range : PlaceholderRange) : range.RunsExtracted := by
  rintro mask (h | ⟨h, hpos, rfl⟩)
  · exact ⟨runs mask, lists_runs mask, extractEmbedsRange_eq h⟩
  · refine ⟨_, lists_replicate hpos, ?_⟩
    unfold extractEmbedsRange
    rw [h]
    simp only [map_cons, map_nil]
    congr 3
    · simp
    · push_cast [Nat.cast_sub hpos]
      ring

/-- With a mask, a chunk may end at the first position only where no position takes an embedding. -/
theorem sliced_and_runsExtracted_iff (range : PlaceholderRange) (hmask : ∀ isEmbed,
    range.isEmbed = some isEmbed → isEmbed.length = range.length) (cuts : List ℕ)
    (hsorted : cuts.Pairwise (· ≤ ·)) (hle : ∀ c ∈ cuts, c ≤ range.length) :
    (range.Sliced cuts ∧ range.RunsExtracted) ↔
      ((∃ isEmbed, range.isEmbed = some isEmbed ∧ (isEmbed = [] ∨ true ∈ isEmbed)) → 0 ∉ cuts.tail) := by
  have hpair : ∀ i (s e : ℕ), cuts[i]? = some s → cuts[i + 1]? = some e → s ≤ e := by
    intro i s e hs he
    obtain ⟨hi, rfl⟩ := List.getElem?_eq_some_iff.mp hs
    obtain ⟨hi', rfl⟩ := List.getElem?_eq_some_iff.mp he
    exact List.pairwise_iff_getElem.mp hsorted i (i + 1) hi hi' (Nat.lt_succ_self i)
  constructor
  · rintro ⟨hsliced, -⟩ ⟨isEmbed, h, hembed⟩ hzero
    obtain ⟨i, hi⟩ := getElem?_of_mem hzero
    rw [getElem?_tail] at hi
    have hlt := lt_of_getElem? hi
    have hs : cuts[i]? = some cuts[i] := getElem?_eq_getElem (by omega)
    have hstart := hpair i _ _ hs hi
    have hanswer := hsliced.answers i _ _ hs hi
    rw [Nat.le_zero.mp hstart, getEmbedsIndicesInRange_zero h, embedsBefore_of_mask h, take_zero,
      count_nil] at hanswer
    by_cases hnil : isEmbed = []
    · rw [if_pos hnil] at hanswer
      cases hanswer
    · rw [if_neg hnil] at hanswer
      have hcount : isEmbed.count true = 0 := Int.ofNat.inj (ok_pair_inj hanswer).2
      exact List.count_eq_zero.mp hcount (hembed.resolve_left hnil)
  · intro hcond
    have hanswers : ∀ i (s e : ℕ), cuts[i]? = some s → cuts[i + 1]? = some e →
        range.getEmbedsIndicesInRange s e = .ok (range.embedsBefore s, range.embedsBefore e) := by
      intro i s e hs he
      have hse := hpair i s e hs he
      by_cases hpos : 0 < e
      · exact getEmbedsIndicesInRange_eq hmask hse (hle e (mem_of_getElem? he)) hpos
      · -- The chunk is empty and before the placeholder.
        obtain rfl : e = 0 := by omega
        obtain rfl : s = 0 := by omega
        cases h : range.isEmbed with
        | none => rw [getEmbedsIndicesInRange, embedsBefore, h]
        | some isEmbed =>
          have hnot := mt hcond (not_not.mpr (mem_of_getElem?
            ((getElem?_tail (l := cuts) (i := i)).trans he)))
          have hembed : ¬(isEmbed = [] ∨ true ∈ isEmbed) := fun h' => hnot ⟨isEmbed, h, h'⟩
          rw [not_or] at hembed
          rw [getEmbedsIndicesInRange_zero h, if_neg hembed.1, embedsBefore_of_mask h,
            List.count_eq_zero.mpr hembed.2]
          rfl
    refine ⟨⟨hanswers, fun first last hfirst hlast j hj hj' => ?_⟩, runsExtracted range⟩
    obtain ⟨i, ⟨s, e, hs, he, hse⟩, hunique⟩ := existsUnique_slice (embedsBefore_mono range) hsorted
      (by rintro rfl; cases hfirst)
      (fun c hc => by rwa [Option.some.inj (hfirst.symm.trans hc)] at hj)
      (fun c hc => by rwa [Option.some.inj (hlast.symm.trans hc)] at hj')
    refine ⟨i, ⟨s, e, _, hs, he, hanswers i s e hs he, Int.ofNat_le.mpr hse.1,
      Int.ofNat_lt.mpr hse.2⟩, ?_⟩
    rintro i' ⟨s', e', slice, hs', he', hslice, hj₁, hj₂⟩
    rw [hanswers i' s' e' hs' he'] at hslice
    cases hslice
    exact hunique i' ⟨s', e', hs', he', Int.ofNat_le.mp hj₁, Int.ofNat_lt.mp hj₂⟩

/-- Three of five positions take an embedding. -/
def threeEmbeds : PlaceholderRange where
  offset := 2
  length := 5
  isEmbed := some [false, true, false, true, true]

theorem sliced_and_runsExtracted_threeEmbeds :
    threeEmbeds.Sliced [0, 3, 5] ∧ threeEmbeds.RunsExtracted :=
  (sliced_and_runsExtracted_iff threeEmbeds (by decide) [0, 3, 5] (by decide) (by decide)).mpr
    fun _ => by decide

/-- Before its first position the placeholder gives all embeddings. -/
theorem not_sliced_threeEmbeds : threeEmbeds.getEmbedsIndicesInRange 0 0 = .ok (0, 3) ∧
    ¬threeEmbeds.Sliced [0, 0, 5] := by
  refine ⟨by decide, fun h => ?_⟩
  have hanswer := h.answers 0 0 0 rfl rfl
  revert hanswer
  decide

end VllmRuntime.PlaceholderRange
