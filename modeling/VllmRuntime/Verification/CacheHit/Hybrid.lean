import VllmRuntime.Verification.CacheHit.Groups
import VllmRuntime.Verification.CacheHit.Rows

/-! # The fixed-point search of the hybrid coordinator

Each attention type lowers a candidate length to the length it accepts. A round of the search
is the fold of these steps; full attention types take part in the first round only. -/

namespace VllmRuntime.KVCacheCoordinator

variable {groupIds : List ℕ} {i : ℕ}

open List

/-! ## Recording hits -/

lemma length_setHitBlocks (hits : HitBlocks) (groupIds : List ℕ)
    (hitBlocks : List (List BlockRef)) :
    (setHitBlocks hits groupIds hitBlocks).length = hits.length := by
  unfold setHitBlocks
  induction groupIds.zip hitBlocks generalizing hits with
  | nil => rfl
  | cons p pairs ih => rw [foldl_cons, ih, length_set]

lemma setHitBlocks_of_not_mem (hits : HitBlocks) (hitBlocks : List (List BlockRef)) (h : i ∉ groupIds) :
    (setHitBlocks hits groupIds hitBlocks)[i]? = hits[i]? := by
  induction groupIds generalizing hits hitBlocks with
  | nil => rfl
  | cons id ids ih =>
    cases hitBlocks with
    | nil => rfl
    | cons blocks hitBlocks =>
      rw [mem_cons, not_or] at h
      have hrec := ih (hits.set id (some blocks)) hitBlocks h.2
      rw [getElem?_set_ne (Ne.symm h.1)] at hrec
      exact hrec

lemma setHitBlocks_of_mem {hits : HitBlocks} {hitBlocks : List (List BlockRef)} (hnodup : groupIds.Nodup)
    (hbound : ∀ i ∈ groupIds, i < hits.length) {j : ℕ} {blocks : List BlockRef} (hi : groupIds[j]? = some i)
    (hblocks : hitBlocks[j]? = some blocks) :
    (setHitBlocks hits groupIds hitBlocks)[i]? = some (some blocks) := by
  induction groupIds generalizing hits hitBlocks j with
  | nil => simp at hi
  | cons id ids ih =>
    cases hitBlocks with
    | nil => simp at hblocks
    | cons first hitBlocks =>
      rw [nodup_cons] at hnodup
      cases j with
      | zero =>
        obtain rfl : id = i := by simpa using hi
        obtain rfl : first = blocks := by simpa using hblocks
        have hkeep := setHitBlocks_of_not_mem (hits.set id (some first)) hitBlocks hnodup.1
        rw [getElem?_set_self (hbound id mem_cons_self)] at hkeep
        exact hkeep
      | succ j =>
        apply ih hnodup.2 _ (by simpa using hi) (by simpa using hblocks)
        intro k hk
        rw [length_set]
        exact hbound k (mem_cons_of_mem _ hk)

section Search

variable (c : KVCacheCoordinator) (blockHashes : List BlockHash) (lcmBlockSize : ℕ)

/-- The rows an attention type finds up to a length. -/
def acceptRows (g : AttentionGroup) (maxLength : ℕ) : List BlockRow :=
  match CacheHit.rows c.blockPool (c.blockHashesFor blockHashes g.spec) g.groupIds maxLength g.spec
    c.useEagle lcmBlockSize 1 1 with
  | .ok rows => rows
  | .error _ => []

/-- The length an attention type accepts. -/
def accept (maxLength : ℕ) (g : AttentionGroup) : ℕ :=
  (acceptRows c blockHashes lcmBlockSize g maxLength).length * g.spec.blockSize

/-- No lookup up to `maxLength` raises. -/
def LooksUp (groups : List AttentionGroup) (maxLength : ℕ) : Prop :=
  ∀ g ∈ groups, 0 < g.spec.blockSize ∧ ∀ length ≤ maxLength,
    CacheHit.rows c.blockPool (c.blockHashesFor blockHashes g.spec) g.groupIds length g.spec
      c.useEagle lcmBlockSize 1 1 = .ok (acceptRows c blockHashes lcmBlockSize g length)

/-- The columns of `rows` are the hits of the group. -/
def Recorded (hits : HitBlocks) (g : AttentionGroup) (rows : List BlockRow) : Prop :=
  ∀ j i, g.groupIds[j]? = some i →
    hits[i]? = some (some (rows.map fun row => row.getD j c.blockPool.nullBlock))

variable {c blockHashes lcmBlockSize} {groups others fulls : List AttentionGroup}
  {maxLength length numGroups : ℕ} {g : AttentionGroup} {hits : HitBlocks} {f : AttentionGroup}

lemma accept_le (h : LooksUp c blockHashes lcmBlockSize groups maxLength) (hg : g ∈ groups)
    (hle : length ≤ maxLength) : accept c blockHashes lcmBlockSize length g ≤ length :=
  (CacheHit.rows_spec (h g hg).1 ((h g hg).2 length hle)).1

lemma dvd_accept (h : LooksUp c blockHashes lcmBlockSize groups maxLength) (hg : g ∈ groups)
    (hle : length ≤ maxLength) : lcmBlockSize ∣ accept c blockHashes lcmBlockSize length g :=
  (CacheHit.rows_spec (h g hg).1 ((h g hg).2 length hle)).2.1

lemma LooksUp.tail (h : LooksUp c blockHashes lcmBlockSize (g :: groups) maxLength) :
    LooksUp c blockHashes lcmBlockSize groups maxLength :=
  fun g' hg' => h g' (mem_cons_of_mem _ hg')

section

variable (h : LooksUp c blockHashes lcmBlockSize groups maxLength)
include h

lemma foldl_accept_le (hle : length ≤ maxLength) :
    groups.foldl (accept c blockHashes lcmBlockSize) length ≤ length := by
  induction groups generalizing length with
  | nil => exact le_rfl
  | cons g groups ih =>
    have hfirst := accept_le h mem_cons_self hle
    exact (ih h.tail (hfirst.trans hle)).trans hfirst

lemma dvd_foldl_accept (hle : length ≤ maxLength) (hdvd : groups = [] → lcmBlockSize ∣ length) :
    lcmBlockSize ∣ groups.foldl (accept c blockHashes lcmBlockSize) length := by
  induction groups generalizing length with
  | nil => exact hdvd rfl
  | cons g groups ih =>
    have hfirst := accept_le h mem_cons_self hle
    exact ih h.tail (hfirst.trans hle) fun _ => dvd_accept h mem_cons_self hle

/-- A fold that does not lower the length means that every attention type accepts it. -/
lemma accept_eq_of_foldl
    (hle : length ≤ maxLength) (hfold : length ≤ groups.foldl (accept c blockHashes lcmBlockSize) length) :
    ∀ g ∈ groups, accept c blockHashes lcmBlockSize length g = length := by
  induction groups with
  | nil => simp
  | cons g groups ih =>
    have hfirst := accept_le h mem_cons_self hle
    rw [foldl_cons] at hfold
    have hrest := foldl_accept_le h.tail (hfirst.trans hle)
    have heq : accept c blockHashes lcmBlockSize length g = length :=
      le_antisymm hfirst (hfold.trans hrest)
    rw [heq] at hfold
    intro g' hg'
    rcases mem_cons.mp hg' with rfl | hmem
    · exact heq
    · exact ih h.tail hfold g' hmem

end

lemma foldl_accept_eq (h : ∀ g ∈ groups, accept c blockHashes lcmBlockSize length g = length) :
    groups.foldl (accept c blockHashes lcmBlockSize) length = length :=
  foldlRecOn (motive := (· = length)) _ _ rfl fun _ hlength g hg => hlength ▸ h g hg

/-! ## One round -/

lemma columns_getElem? (nullBlock : BlockRef) {j : ℕ} (rows : List BlockRow) (h : j < numGroups) :
    (columns nullBlock numGroups rows)[j]? = some (rows.map fun row => row.getD j nullBlock) := by
  simp [columns, h]

lemma length_head_columns (nullBlock : BlockRef) (rows : List BlockRow) (h : 0 < numGroups) :
    ((columns nullBlock numGroups rows).headD []).length = rows.length := by
  have hfirst := columns_getElem? nullBlock rows h
  rw [← head?_eq_getElem?] at hfirst
  simp [headD_eq_head?_getD, hfirst]

/-- The entry is looked up, not reused. -/
def Fresh (hits : HitBlocks) (g : AttentionGroup) : Prop :=
  g.spec.isFullAttention = true → (hits.getD (g.groupIds.headD 0) none).isSome = false

lemma hybridPass_cons_fresh (h : LooksUp c blockHashes lcmBlockSize (g :: groups) maxLength)
    (hle : length ≤ maxLength) (hids : g.groupIds ≠ []) (hfresh : Fresh hits g) :
    hybridPass c blockHashes lcmBlockSize (g :: groups) length hits =
      hybridPass c blockHashes lcmBlockSize groups (accept c blockHashes lcmBlockSize length g)
        (setHitBlocks hits g.groupIds (columns c.blockPool.nullBlock g.groupIds.length
          (acceptRows c blockHashes lcmBlockSize g length))) := by
  have hcond : ¬ (g.spec.isFullAttention && (hits.getD (g.groupIds.headD 0) none).isSome) = true := by
    rw [Bool.and_eq_true]
    intro hboth
    rw [hfresh hboth.1] at hboth
    exact Bool.false_ne_true hboth.2
  rw [hybridPass]
  simp only [if_neg hcond, VllmRuntime.findLongestCacheHit,
    (h g mem_cons_self).2 length hle]
  simp only [bind, Except.bind, pure, Except.pure]
  rw [length_head_columns _ _ (length_pos_iff.mpr hids)]
  rfl

lemma hybridPass_cons_reused (hfull : g.spec.isFullAttention = true)
    (hsome : (hits.getD (g.groupIds.headD 0) none).isSome = true) (hdvd : g.spec.blockSize ∣ length) :
    hybridPass c blockHashes lcmBlockSize (g :: groups) length hits =
      hybridPass c blockHashes lcmBlockSize groups length hits := by
  rw [hybridPass]
  simp only [hfull, hsome, Bool.and_self, if_true, Nat.div_mul_cancel hdvd]

lemma recorded_setHitBlocks (hnodup : g.groupIds.Nodup) (hbound : ∀ i ∈ g.groupIds, i < hits.length)
    (rows : List BlockRow) :
    Recorded c (setHitBlocks hits g.groupIds (columns c.blockPool.nullBlock g.groupIds.length rows))
      g rows := by
  intro j i hi
  have hj : j < g.groupIds.length := lt_of_getElem? hi
  exact setHitBlocks_of_mem hnodup hbound hi (columns_getElem? _ rows hj)

lemma Fresh.setHitBlocks_of_disjoint {g' : AttentionGroup} (h : Fresh hits g) (hids : g.groupIds ≠ [])
    (hdisj : ∀ i ∈ g'.groupIds, i ∉ g.groupIds) (hitBlocks : List (List BlockRef)) :
    Fresh (setHitBlocks hits g'.groupIds hitBlocks) g := by
  intro hfull
  have hmem : g.groupIds.headD 0 ∈ g.groupIds := by
    cases hg : g.groupIds with
    | nil => exact absurd hg hids
    | cons i ids => simp
  have hnot : g.groupIds.headD 0 ∉ g'.groupIds := fun hin => hdisj _ hin hmem
  rw [getD_eq_getElem?_getD, setHitBlocks_of_not_mem hits hitBlocks hnot,
    ← getD_eq_getElem?_getD]
  exact h hfull

/-- The entries are disjoint, nonempty, and within the bounds of the hits. -/
structure Separate (groups : List AttentionGroup) (numGroups : ℕ) : Prop where
  disjoint : groups.Pairwise fun a b => ∀ i ∈ a.groupIds, i ∉ b.groupIds
  ids_ne_nil : ∀ g ∈ groups, g.groupIds ≠ []
  ids_nodup : ∀ g ∈ groups, g.groupIds.Nodup
  bound : ∀ g ∈ groups, ∀ i ∈ g.groupIds, i < numGroups

lemma Separate.tail (h : Separate (g :: groups) numGroups) : Separate groups numGroups :=
  ⟨(pairwise_cons.mp h.disjoint).2, fun g' hg' => h.ids_ne_nil g' (mem_cons_of_mem _ hg'),
    fun g' hg' => h.ids_nodup g' (mem_cons_of_mem _ hg'),
    fun g' hg' => h.bound g' (mem_cons_of_mem _ hg')⟩

/-- A round of lookups lowers the length step by step and records the rows of each step. -/
lemma hybridPass_fresh (h : LooksUp c blockHashes lcmBlockSize groups maxLength)
    (hle : length ≤ maxLength) (hsep : Separate groups hits.length) (hfresh : ∀ g ∈ groups, Fresh hits g) :
    ∃ hits', hybridPass c blockHashes lcmBlockSize groups length hits =
        .ok (groups.foldl (accept c blockHashes lcmBlockSize) length, hits') ∧
      hits'.length = hits.length ∧
      (∀ i, (∀ g ∈ groups, i ∉ g.groupIds) → hits'[i]? = hits[i]?) ∧
      ∀ front g back, groups = front ++ g :: back →
        Recorded c hits' g (acceptRows c blockHashes lcmBlockSize g
          (front.foldl (accept c blockHashes lcmBlockSize) length)) := by
  induction groups generalizing length hits with
  | nil => exact ⟨hits, rfl, rfl, fun _ _ => rfl, by simp⟩
  | cons g groups ih =>
    have hids := hsep.ids_ne_nil g mem_cons_self
    set hits₁ := setHitBlocks hits g.groupIds (columns c.blockPool.nullBlock g.groupIds.length
      (acceptRows c blockHashes lcmBlockSize g length)) with hhits₁
    have hlen₁ : hits₁.length = hits.length := length_setHitBlocks _ _ _
    have hdisj := (pairwise_cons.mp hsep.disjoint).1
    have hfresh₁ : ∀ g' ∈ groups, Fresh hits₁ g' := fun g' hg' =>
      (hfresh g' (mem_cons_of_mem _ hg')).setHitBlocks_of_disjoint
        (hsep.ids_ne_nil g' (mem_cons_of_mem _ hg')) (hdisj g' hg') _
    have hfirst := accept_le h mem_cons_self hle
    obtain ⟨hits', hpass, hlen, hkeep, hrec⟩ :=
      ih h.tail (hfirst.trans hle) (hlen₁ ▸ hsep.tail) hfresh₁
    refine ⟨hits', ?_, hlen.trans hlen₁, ?_, ?_⟩
    · rw [hybridPass_cons_fresh h hle hids (hfresh g mem_cons_self), ← hhits₁, hpass]
      rfl
    · intro i hi
      rw [hkeep i fun g' hg' => hi g' (mem_cons_of_mem _ hg')]
      exact setHitBlocks_of_not_mem hits _ (hi g mem_cons_self)
    · intro front g' back heq
      cases front with
      | nil =>
        obtain ⟨rfl, rfl⟩ : g = g' ∧ groups = back := by simpa using heq
        -- The later entries leave the hits of the first one alone.
        have hrec₁ : Recorded c hits₁ g (acceptRows c blockHashes lcmBlockSize g length) :=
          recorded_setHitBlocks (hsep.ids_nodup g mem_cons_self)
            (hsep.bound g mem_cons_self) _
        intro j i hi
        rw [hkeep i fun g' hg' => hdisj g' hg' i (mem_of_getElem? hi)]
        exact hrec₁ j i hi
      | cons g₀ front =>
        obtain ⟨rfl, hgroups⟩ : g = g₀ ∧ groups = front ++ g' :: back := by simpa using heq
        exact hrec front g' back hgroups

/-- When a round accepts the length, the rows of every step are those of the length itself. -/
lemma recorded_of_accepted (h : LooksUp c blockHashes lcmBlockSize groups maxLength)
    (hle : length ≤ maxLength) (hfold : length ≤ groups.foldl (accept c blockHashes lcmBlockSize) length)
    (hrec : ∀ front g back, groups = front ++ g :: back →
      Recorded c hits g (acceptRows c blockHashes lcmBlockSize g
        (front.foldl (accept c blockHashes lcmBlockSize) length))) :
    ∀ g ∈ groups, accept c blockHashes lcmBlockSize length g = length ∧
      Recorded c hits g (acceptRows c blockHashes lcmBlockSize g length) := by
  intro g hg
  have hall := accept_eq_of_foldl h hle hfold
  obtain ⟨front, back, hgroups⟩ := append_of_mem hg
  have hfront : front.foldl (accept c blockHashes lcmBlockSize) length = length :=
    foldl_accept_eq fun g' hg' => hall g' (by rw [hgroups]; exact mem_append_left _ hg')
  have hg' := hrec front g back hgroups
  rw [hfront] at hg'
  exact ⟨hall g hg, hg'⟩

/-! ## The rounds after the first -/

/-- The entry is a full attention type that has been looked up. -/
def Reusable (hits : HitBlocks) (g : AttentionGroup) : Prop :=
  g.spec.isFullAttention = true ∧ (hits.getD (g.groupIds.headD 0) none).isSome = true

lemma hybridPass_reused (hreuse : ∀ g ∈ fulls, Reusable hits g)
    (hdvd : ∀ g ∈ fulls, g.spec.blockSize ∣ length) :
    hybridPass c blockHashes lcmBlockSize (fulls ++ others) length hits =
      hybridPass c blockHashes lcmBlockSize others length hits := by
  induction fulls with
  | nil => rfl
  | cons g fulls ih =>
    have hg := hreuse g mem_cons_self
    rw [cons_append, hybridPass_cons_reused hg.1 hg.2 (hdvd g mem_cons_self)]
    exact ih (fun g' hg' => hreuse g' (mem_cons_of_mem _ hg'))
      fun g' hg' => hdvd g' (mem_cons_of_mem _ hg')

lemma headD_mem (h : g.groupIds ≠ []) : g.groupIds.headD 0 ∈ g.groupIds := by
  cases hg : g.groupIds with
  | nil => exact absurd hg h
  | cons i ids => simp

/-- Where the search ends after a round that left `length` tokens. -/
structure Settled (c : KVCacheCoordinator) (blockHashes : List BlockHash) (lcmBlockSize : ℕ)
    (others : List AttentionGroup) (length : ℕ) (hits : HitBlocks) (hitLength : ℕ)
    (hits' : HitBlocks) : Prop where
  le : hitLength ≤ length
  dvd : lcmBlockSize ∣ hitLength
  length_eq : hits'.length = hits.length
  keeps : ∀ i, (∀ g ∈ others, i ∉ g.groupIds) → hits'[i]? = hits[i]?
  accepted : ∀ g ∈ others, accept c blockHashes lcmBlockSize hitLength g = hitLength ∧
    Recorded c hits' g (acceptRows c blockHashes lcmBlockSize g hitLength)
  stays : (∀ g ∈ others, accept c blockHashes lcmBlockSize length g = length) → hitLength = length

lemma Reusable.of_keeps {hits' : HitBlocks} (h : Reusable hits f) (hids : f.groupIds ≠ [])
    (hdisj : ∀ g ∈ others, ∀ i ∈ f.groupIds, i ∉ g.groupIds)
    (hkeep : ∀ i, (∀ g ∈ others, i ∉ g.groupIds) → hits'[i]? = hits[i]?) :
    Reusable hits' f := by
  refine ⟨h.1, ?_⟩
  rw [getD_eq_getElem?_getD, hkeep _ fun g hg => hdisj g hg _ (headD_mem hids),
    ← getD_eq_getElem?_getD]
  exact h.2

/-- The loop ends, whatever the fuel above the length, at a length that all types accept. -/
lemma hybridLoop_settles (h : LooksUp c blockHashes lcmBlockSize others maxLength)
    (hnotfull : ∀ g ∈ others, g.spec.isFullAttention = false)
    (hfulls : ∀ g ∈ fulls, g.spec.blockSize ∣ lcmBlockSize ∧ g.groupIds ≠ [])
    (hdisj : ∀ f ∈ fulls, ∀ g ∈ others, ∀ i ∈ f.groupIds, i ∉ g.groupIds) (length : ℕ) (hits : HitBlocks)
    (hle : length ≤ maxLength) (hdvd : lcmBlockSize ∣ length) (hsep : Separate others hits.length)
    (hreuse : ∀ g ∈ fulls, Reusable hits g) :
    ∃ hitLength hits', (∀ fuel > length,
        hybridLoop c blockHashes (fulls ++ others) lcmBlockSize false fuel length hits =
          .ok (hitLength, hits')) ∧
      Settled c blockHashes lcmBlockSize others length hits hitLength hits' := by
  induction length using Nat.strong_induction_on generalizing hits with
  | _ length ih =>
    have hfresh : ∀ g ∈ others, Fresh hits g := by
      intro g hg hfull
      rw [hnotfull g hg] at hfull
      exact absurd hfull Bool.false_ne_true
    obtain ⟨hits₁, hpass, hlen, hkeep, hrec⟩ := hybridPass_fresh h hle hsep hfresh
    have hpass' : hybridPass c blockHashes lcmBlockSize (fulls ++ others) length hits =
        .ok (others.foldl (accept c blockHashes lcmBlockSize) length, hits₁) := by
      rw [hybridPass_reused hreuse fun g hg => (hfulls g hg).1.trans hdvd, hpass]
    set curr := others.foldl (accept c blockHashes lcmBlockSize) length with hcurr
    by_cases hdone : curr ≥ length
    · refine ⟨length, hits₁, ?_, le_rfl, hdvd, hlen, hkeep,
        recorded_of_accepted h hle hdone hrec, fun _ => rfl⟩
      intro fuel hfuel
      obtain ⟨fuel, rfl⟩ := Nat.exists_eq_add_of_lt hfuel
      rw [hybridLoop, hpass']
      simp [bind, Except.bind, pure, Except.pure, hdone]
    · have hlt : curr < length := by omega
      have hdvd₁ : lcmBlockSize ∣ curr := dvd_foldl_accept h hle fun _ => hdvd
      have hreuse₁ : ∀ f ∈ fulls, Reusable hits₁ f := fun f hf =>
        (hreuse f hf).of_keeps (hfulls f hf).2 (hdisj f hf) hkeep
      obtain ⟨hitLength, hits', hloop, hsettled⟩ :=
        ih curr hlt hits₁ (by omega) hdvd₁ (hlen ▸ hsep) hreuse₁
      refine ⟨hitLength, hits', ?_, ?_⟩
      · intro fuel hfuel
        obtain ⟨fuel, rfl⟩ := Nat.exists_eq_add_of_lt hfuel
        rw [hybridLoop, hpass']
        simp only [bind, Except.bind, if_neg hdone, Bool.false_eq_true, if_false]
        exact hloop _ (by omega)
      · refine ⟨hsettled.le.trans hlt.le, hsettled.dvd, hsettled.length_eq.trans hlen, ?_,
          hsettled.accepted, ?_⟩
        · intro i hi
          rw [hsettled.keeps i hi, hkeep i hi]
        · intro hall
          have := foldl_accept_eq hall
          omega

/-! ## The whole search -/

lemma fresh_none (numGroups : ℕ) (g : AttentionGroup) :
    Fresh (List.replicate numGroups none) g := by
  intro _
  rw [getD_eq_getElem?_getD, getElem?_replicate]
  split <;> rfl

lemma Recorded.reusable {rows : List BlockRow} (h : Recorded c hits g rows)
    (hfull : g.spec.isFullAttention = true) (hids : g.groupIds ≠ []) : Reusable hits g := by
  refine ⟨hfull, ?_⟩
  cases hg : g.groupIds with
  | nil => exact absurd hg hids
  | cons i ids =>
    have hfirst := h 0 i (by simp [hg])
    simp [getD_eq_getElem?_getD, hfirst]

/-- The result of the search when the first round has to be followed by others. -/
structure Found (c : KVCacheCoordinator) (blockHashes : List BlockHash) (lcmBlockSize : ℕ)
    (fulls others : List AttentionGroup) (maxLength hitLength : ℕ) (hits : HitBlocks) : Prop where
  le : hitLength ≤ (fulls ++ others).foldl (accept c blockHashes lcmBlockSize) maxLength
  dvd : lcmBlockSize ∣ hitLength
  fulls_recorded : ∀ front f back, fulls = front ++ f :: back →
    Recorded c hits f (acceptRows c blockHashes lcmBlockSize f
      (front.foldl (accept c blockHashes lcmBlockSize) maxLength))
  accepted : ∀ g ∈ others, accept c blockHashes lcmBlockSize hitLength g = hitLength ∧
    Recorded c hits g (acceptRows c blockHashes lcmBlockSize g hitLength)
  stays : ∀ length, (fulls ++ others).foldl (accept c blockHashes lcmBlockSize) maxLength = length →
    (∀ g ∈ others, accept c blockHashes lcmBlockSize length g = length) → hitLength = length

lemma hybridLoop_found (h : LooksUp c blockHashes lcmBlockSize (fulls ++ others) maxLength)
    (hne : fulls ++ others ≠ [])
    (hfull : ∀ g ∈ fulls, g.spec.isFullAttention = true ∧ g.spec.blockSize ∣ lcmBlockSize)
    (hnotfull : ∀ g ∈ others, g.spec.isFullAttention = false)
    (hsep : Separate (fulls ++ others) numGroups) :
    ∃ hitLength hits, (∀ fuel > maxLength,
        hybridLoop c blockHashes (fulls ++ others) lcmBlockSize false fuel maxLength
          (List.replicate numGroups none) = .ok (hitLength, hits)) ∧
      hits.length = numGroups ∧
      Found c blockHashes lcmBlockSize fulls others maxLength hitLength hits := by
  set start : HitBlocks := List.replicate numGroups none with hstart
  have hstartLen : start.length = numGroups := by simp [hstart]
  have hsepStart : Separate (fulls ++ others) start.length := by rwa [hstartLen]
  obtain ⟨hits₁, hpass, hlen, -, hrec⟩ := hybridPass_fresh h le_rfl hsepStart
    fun g _ => fresh_none numGroups g
  rw [hstartLen] at hlen
  set curr := (fulls ++ others).foldl (accept c blockHashes lcmBlockSize) maxLength with hcurr
  have hcurrle : curr ≤ maxLength := foldl_accept_le h le_rfl
  have hdvd : lcmBlockSize ∣ curr := dvd_foldl_accept h le_rfl fun he => absurd he hne
  have hfullsRec : ∀ front f back, fulls = front ++ f :: back →
      Recorded c hits₁ f (acceptRows c blockHashes lcmBlockSize f
        (front.foldl (accept c blockHashes lcmBlockSize) maxLength)) := by
    intro front f back hsplit
    exact hrec front f (back ++ others) (by rw [hsplit]; simp)
  have hothers : LooksUp c blockHashes lcmBlockSize others maxLength :=
    fun g hg => h g (mem_append_right _ hg)
  have hdisj : ∀ f ∈ fulls, ∀ g ∈ others, ∀ i ∈ f.groupIds, i ∉ g.groupIds :=
    fun f hf g hg => (pairwise_append.mp hsep.disjoint).2.2 f hf g hg
  have hsepOthers : Separate others numGroups :=
    ⟨(pairwise_append.mp hsep.disjoint).2.1,
      fun g hg => hsep.ids_ne_nil g (mem_append_right _ hg),
      fun g hg => hsep.ids_nodup g (mem_append_right _ hg),
      fun g hg => hsep.bound g (mem_append_right _ hg)⟩
  by_cases hdone : curr ≥ maxLength
  · have hcurrEq : curr = maxLength := le_antisymm hcurrle hdone
    refine ⟨maxLength, hits₁, ?_, hlen, ?_, ?_, hfullsRec, ?_, ?_⟩
    · intro fuel hfuel
      obtain ⟨fuel, rfl⟩ := Nat.exists_eq_add_of_lt hfuel
      rw [hybridLoop, hpass]
      simp [bind, Except.bind, pure, Except.pure, hdone]
    · exact hdone
    · exact hcurrEq ▸ hdvd
    · intro g hg
      exact recorded_of_accepted h le_rfl hdone hrec g (mem_append_right _ hg)
    · intro length hlength _
      omega
  · have hfulls : ∀ g ∈ fulls, g.spec.blockSize ∣ lcmBlockSize ∧ g.groupIds ≠ [] :=
      fun g hg => ⟨(hfull g hg).2, hsep.ids_ne_nil g (mem_append_left _ hg)⟩
    have hreuse : ∀ f ∈ fulls, Reusable hits₁ f := by
      intro f hf
      obtain ⟨front, back, hsplit⟩ := append_of_mem hf
      exact (hfullsRec front f back hsplit).reusable (hfull f hf).1 (hfulls f hf).2
    obtain ⟨hitLength, hits', hloop, hsettled⟩ := hybridLoop_settles hothers hnotfull hfulls hdisj
      curr hits₁ hcurrle hdvd (hlen.symm ▸ hsepOthers) hreuse
    refine ⟨hitLength, hits', ?_, hsettled.length_eq.trans hlen, hsettled.le, hsettled.dvd, ?_,
      hsettled.accepted, ?_⟩
    · intro fuel hfuel
      obtain ⟨fuel, rfl⟩ := Nat.exists_eq_add_of_lt hfuel
      rw [hybridLoop, hpass]
      simp only [bind, Except.bind, if_neg hdone, Bool.false_eq_true, if_false]
      exact hloop _ (by omega)
    · intro front f back hsplit j i hi
      have hf : f ∈ fulls := by simp [hsplit]
      rw [hsettled.keeps i fun g hg => hdisj f hf g hg i (mem_of_getElem? hi)]
      exact hfullsRec front f back hsplit j i hi
    · intro length hlength hall
      rw [← hcurr] at hlength
      subst hlength
      exact hsettled.stays hall

/-- One full attention type and another type: a single round. -/
lemma hybridLoop_simple (h : LooksUp c blockHashes lcmBlockSize [f, g] maxLength)
    (hsep : Separate [f, g] numGroups) :
    ∃ hits, (∀ fuel > 0,
        hybridLoop c blockHashes [f, g] lcmBlockSize true fuel maxLength
          (List.replicate numGroups none) =
          .ok (accept c blockHashes lcmBlockSize (accept c blockHashes lcmBlockSize maxLength f) g,
            hits)) ∧
      hits.length = numGroups ∧
      Recorded c hits f (acceptRows c blockHashes lcmBlockSize f maxLength) ∧
      Recorded c hits g (acceptRows c blockHashes lcmBlockSize g
        (accept c blockHashes lcmBlockSize maxLength f)) := by
  set start : HitBlocks := List.replicate numGroups none with hstart
  have hstartLen : start.length = numGroups := by simp [hstart]
  have hsepStart : Separate [f, g] start.length := by rwa [hstartLen]
  obtain ⟨hits, hpass, hlen, -, hrec⟩ := hybridPass_fresh h le_rfl hsepStart
    fun g _ => fresh_none numGroups g
  have hle : accept c blockHashes lcmBlockSize (accept c blockHashes lcmBlockSize maxLength f) g ≤
      maxLength := foldl_accept_le h le_rfl
  refine ⟨hits, ?_, hlen.trans hstartLen, hrec [] f [g] rfl, hrec [f] g [] rfl⟩
  intro fuel hfuel
  obtain ⟨fuel, rfl⟩ := Nat.exists_eq_add_of_lt hfuel
  rw [hybridLoop, hpass]
  simp only [bind, Except.bind, pure, Except.pure, foldl_cons, foldl_nil, if_true]
  split
  · rename_i hdone
    rw [le_antisymm hle hdone]
  · rfl

end Search

end VllmRuntime.KVCacheCoordinator
