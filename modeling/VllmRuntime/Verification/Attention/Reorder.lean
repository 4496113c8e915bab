import VllmRuntime.Verification.Attention.Cycles

/-! # Decodes before extends before prefills

The misplaced requests, sorted by region, go to the misplaced indices in ascending order. -/

namespace VllmRuntime

open Segments
open List

variable {γ : Type}

/-! ## Regions and their ranges -/

section Regions

variable {regions : List ℕ} {i : ℕ}

lemma length_eq_count (h : ∀ r ∈ regions, r ≤ 2) :
    regions.length = regions.count 0 + regions.count 1 + regions.count 2 := by
  induction regions with
  | nil => rfl
  | cons r regions ih =>
    rw [forall_mem_cons] at h
    have hrest := ih h.2
    obtain rfl | rfl | rfl : r = 0 ∨ r = 1 ∨ r = 2 := by omega
    all_goals
      simp
      omega

/-- The target regions are the regions of the requests in ascending order. -/
lemma map_targetRegion_perm (h : ∀ r ∈ regions, r ≤ 2) :
    (range regions.length).map (targetRegion (regions.count 0) (regions.count 1)) ~ regions := by
  have hlen := length_eq_count h
  have hblocks : (range regions.length).map (targetRegion (regions.count 0) (regions.count 1)) =
      List.replicate (regions.count 0) 0 ++ (List.replicate (regions.count 1) 1 ++
        List.replicate (regions.count 2) 2) := by
    refine ext_getElem (by simp; omega) fun i hi _ => ?_
    simp only [getElem_map, getElem_range, getElem_append, length_replicate,
      getElem_replicate, targetRegion]
    split_ifs <;> first | rfl | omega
  rw [hblocks, perm_iff_count]
  intro r
  by_cases hr : r ∈ regions
  · have hle := h r hr
    obtain rfl | rfl | rfl : r = 0 ∨ r = 1 ∨ r = 2 := by omega
    all_goals simp [count_append, count_replicate]
  · rw [count_eq_zero.mpr hr, count_eq_zero]
    simp only [mem_append, mem_replicate, not_or, not_and]
    refine ⟨?_, ?_, ?_⟩
    all_goals
      rintro hpos rfl
      exact hpos (count_eq_zero.mpr hr)

lemma targetRegion_mono (numDecodes numExtends : ℕ) {j : ℕ} (h : i ≤ j) :
    targetRegion numDecodes numExtends i ≤ targetRegion numDecodes numExtends j := by
  unfold targetRegion
  split_ifs <;> omega

/-- The index is in the range of the region: after the requests of the lower regions, before those of the
higher ones. -/
def InRange (regions : List ℕ) (r i : ℕ) : Prop :=
  regions.countP (· < r) ≤ i ∧ i < regions.countP (· ≤ r)

lemma targetRegion_of_inRange {r : ℕ} (h : ∀ r ∈ regions, r ≤ 2) (hr : r ≤ 2) (hrange : InRange regions r i) :
    targetRegion (regions.count 0) (regions.count 1) i = r := by
  have hcounts : regions.countP (· < 1) = regions.count 0 ∧
      regions.countP (· < 2) = regions.count 0 + regions.count 1 ∧
      regions.countP (· ≤ 0) = regions.count 0 ∧
      regions.countP (· ≤ 1) = regions.count 0 + regions.count 1 := by
    clear hrange
    induction regions with
    | nil => simp
    | cons x regions ih =>
      rw [forall_mem_cons] at h
      obtain ⟨h1, h2, h3, h4⟩ := ih h.2
      obtain rfl | rfl | rfl : x = 0 ∨ x = 1 ∨ x = 2 := by omega
      all_goals
        simp only [countP_cons, count_cons, h1, h2, h3, h4]
        simp <;> omega
  obtain ⟨h1, h2, h3, h4⟩ := hcounts
  obtain ⟨hlow, hhigh⟩ := hrange
  unfold targetRegion
  obtain rfl | rfl | rfl : r = 0 ∨ r = 1 ∨ r = 2 := by omega
  · rw [h3] at hhigh
    rw [if_neg (by omega), if_neg (by omega)]
  · rw [h1] at hlow
    rw [h4] at hhigh
    rw [if_neg (by omega), if_pos hlow]
  · rw [h2] at hlow
    rw [if_pos hlow]

end Regions

lemma pairwise_insertionSort_key (f : ℕ → ℕ) (l : List ℕ) :
    (l.insertionSort fun i j => f i ≤ f j).Pairwise fun i j => f i ≤ f j := by
  have htotal : Std.Total fun i j => f i ≤ f j := ⟨fun i j => le_total (f i) (f j)⟩
  have htrans : IsTrans ℕ fun i j => f i ≤ f j := ⟨fun _ _ _ => le_trans⟩
  exact pairwise_insertionSort _ l

/-- The misplaced requests, sorted by region, have the target regions of the misplaced indices. -/
lemma map_sorted_eq {n : ℕ} {region target : ℕ → ℕ} {srcs : List ℕ}
    (hperm : (range n).map region ~ (range n).map target)
    (hmono : ∀ i j, i ≤ j → target i ≤ target j)
    (hsrcs : srcs ~ (range n).filter fun i => region i ≠ target i)
    (hsorted : srcs.Pairwise fun i j => region i ≤ region j) :
    srcs.map region = ((range n).filter fun i => region i ≠ target i).map target := by
  let misplaced := (range n).filter fun i => region i ≠ target i
  let placed := (range n).filter fun i => !decide (region i ≠ target i)
  have hsplit : misplaced ++ placed ~ range n := filter_append_perm _ _
  have hplaced : placed.map region = placed.map target := by
    refine map_congr_left fun i hi => ?_
    have hi := (mem_filter.mp hi).2
    simpa using hi
  have hmisplaced : misplaced.map region ~ misplaced.map target := by
    have hall : (misplaced ++ placed).map region ~ (misplaced ++ placed).map target :=
      ((hsplit.map region).trans hperm).trans (hsplit.map target).symm
    rw [map_append, map_append, hplaced] at hall
    exact (perm_append_right_iff _).mp hall
  have hleft : (srcs.map region).Pairwise (· ≤ ·) := pairwise_map.mpr hsorted
  have hright : (misplaced.map target).Pairwise (· ≤ ·) := by
    rw [pairwise_map]
    have hrange : (range n).Pairwise (· < ·) := pairwise_lt_range
    exact (hrange.filter _).imp fun hlt => hmono _ _ hlt.le
  exact List.Perm.eq_of_pairwise (fun _ _ _ _ => le_antisymm) hleft hright ((hsrcs.map region).trans hmisplaced)

/-! ## The batch -/

/-- The number of scheduled tokens of the request with an id. -/
def scheduledOf (numScheduledTokens : OrderedDict String ℕ) (reqId : Option String) : ℕ :=
  (reqId.bind fun id => numScheduledTokens.lookup id).getD 0

/-- The region of the request with this id and row. -/
def entryRegion (numScheduledTokens : OrderedDict String ℕ) (decodeThreshold : ℕ)
    (entry : Option (Option String) × BatchRow γ) : ℕ :=
  reqRegion decodeThreshold (scheduledOf numScheduledTokens entry.1.join) entry.2.numComputedTokens

lemma entryRegion_le (d : OrderedDict String ℕ) (decodeThreshold : ℕ)
    (entry : Option (Option String) × BatchRow γ) : entryRegion d decodeThreshold entry ≤ 2 := by
  unfold entryRegion reqRegion
  split_ifs <;> omega

lemma decide_entryRegion (d : OrderedDict String ℕ) (decodeThreshold : ℕ)
    (entry : Option (Option String) × BatchRow γ) :
    isDecode decodeThreshold (scheduledOf d entry.1.join) entry.2.numComputedTokens =
        decide (entryRegion d decodeThreshold entry = 0) ∧
      isExtend decodeThreshold (scheduledOf d entry.1.join) entry.2.numComputedTokens =
        decide (entryRegion d decodeThreshold entry = 1) := by
  unfold entryRegion reqRegion isDecode isExtend
  cases isPrefill entry.2.numComputedTokens with
  | true => simp
  | false =>
    by_cases hlt : decodeThreshold < scheduledOf d entry.1.join
    · simp [hlt]
    · simp [hlt, Nat.not_lt.mp hlt]

namespace InputBatch

variable {config : InputBatchConfig} {tables : List BlockTable} {requests : BatchRequests γ}
  {b b' : InputBatch γ} {d : OrderedDict String ℕ} {decodeThreshold : ℕ} {i : ℕ} {π : Equiv.Perm ℕ}

/-- The query lengths of the requests of the batch, in order. -/
def queryLens (b : InputBatch γ) (numScheduledTokens : OrderedDict String ℕ) : List ℕ :=
  b.reqIds.map (scheduledOf numScheduledTokens)

/-- The regions of the requests of the batch, in order: 0 for decodes, 1 for extends and 2 for prefills. -/
def regions (b : InputBatch γ) (numScheduledTokens : OrderedDict String ℕ) (decodeThreshold : ℕ) : List ℕ :=
  (List.range b.reqIds.length).map fun i => entryRegion numScheduledTokens decodeThreshold (b.entry i)

@[simp] lemma length_regions (b : InputBatch γ) (d : OrderedDict String ℕ) (decodeThreshold : ℕ) :
    (b.regions d decodeThreshold).length = b.reqIds.length := by
  simp [regions]

lemma regions_le (b : InputBatch γ) (d : OrderedDict String ℕ) (decodeThreshold : ℕ) :
    ∀ r ∈ b.regions d decodeThreshold, r ≤ 2 := by
  intro r hr
  obtain ⟨i, -, rfl⟩ := mem_map.mp hr
  exact entryRegion_le d decodeThreshold _

lemma getElem?_regions (h : i < b.reqIds.length) :
    (b.regions d decodeThreshold)[i]? = some (entryRegion d decodeThreshold (b.entry i)) := by
  simp [regions, h]

/-- All requests of the batch are scheduled. -/
def Scheduled (b : InputBatch γ) (numScheduledTokens : OrderedDict String ℕ) : Prop :=
  ∀ id, some id ∈ b.reqIds → (numScheduledTokens.lookup id).isSome

lemma numScheduledTokens_eq (hgapless : b.Gapless) (hscheduled : b.Scheduled d) :
    b.numScheduledTokens d = .ok (b.queryLens d) := by
  have hmap (f : Option String → Except PyError ℕ) (reqIds : List (Option String))
      (h : ∀ x ∈ reqIds, f x = .ok (scheduledOf d x)) :
      reqIds.mapM f = .ok (reqIds.map (scheduledOf d)) := by
    induction reqIds with
    | nil => rfl
    | cons x reqIds ih =>
      rw [forall_mem_cons] at h
      rw [mapM_cons, h.1, ih h.2]
      rfl
  refine hmap _ b.reqIds fun x hx => ?_
  obtain ⟨i, hi⟩ := mem_iff_getElem?.mp hx
  obtain ⟨id, hid⟩ := (hgapless i).mpr (lt_of_getElem? hi)
  rw [hid] at hi
  cases hi
  obtain ⟨n, hn⟩ := Option.isSome_iff_exists.mp (hscheduled id hx)
  simp [scheduledOf, hn]

/-- What is computed from the scheduled and the computed tokens of the requests, entry by entry. -/
lemma zipWith_queryLens {α : Type} (f : ℕ → ℕ → α) (b : InputBatch γ) :
    zipWith f (b.queryLens d) ((range b.reqIds.length).map b.numComputedTokensCpu) =
      (range b.reqIds.length).map fun i =>
        f (scheduledOf d (b.entry i).1.join) (b.entry i).2.numComputedTokens := by
  refine ext_getElem (by simp [queryLens]) fun i hi _ => ?_
  have hlt : i < b.reqIds.length := by simpa [queryLens] using hi
  simp [queryLens, entry, row, hlt]

lemma count_regions (b : InputBatch γ) (d : OrderedDict String ℕ) (decodeThreshold : ℕ) :
    (zipWith (isDecode decodeThreshold) (b.queryLens d)
        ((range b.reqIds.length).map b.numComputedTokensCpu)).count true =
          (b.regions d decodeThreshold).count 0 ∧
      (zipWith (isExtend decodeThreshold) (b.queryLens d)
        ((range b.reqIds.length).map b.numComputedTokensCpu)).count true =
          (b.regions d decodeThreshold).count 1 := by
  rw [zipWith_queryLens, zipWith_queryLens, regions]
  simp only [List.count, countP_map]
  constructor
  · refine countP_congr fun i _ => ?_
    simp [(decide_entryRegion d decodeThreshold (b.entry i)).1]
  · refine countP_congr fun i _ => ?_
    simp [(decide_entryRegion d decodeThreshold (b.entry i)).2]

/-! ## The reordered batch -/

/-- What holds of the batch after it was reordered: the requests have changed places, with their rows; the
regions are in order; who was in the range of its region is still there. -/
structure Reordered (numScheduledTokens : OrderedDict String ℕ) (decodeThreshold : ℕ) (b b' : InputBatch γ)
    (modified : Bool) : Prop where
  perm : ∃ π : Equiv.Perm ℕ, ∀ i, b'.reqIds[π i]? = b.reqIds[i]? ∧ b'.row (π i) = b.row i
  inOrder : (b'.regions numScheduledTokens decodeThreshold).Pairwise (· ≤ ·)
  stays : ∀ i r, (b.regions numScheduledTokens decodeThreshold)[i]? = some r →
    InRange (b.regions numScheduledTokens decodeThreshold) r i → b'.reqIds[i]? = b.reqIds[i]?
  modified_iff : modified = false ↔ b'.reqIds = b.reqIds

/-- The target region of an index. -/
def target (b : InputBatch γ) (numScheduledTokens : OrderedDict String ℕ) (decodeThreshold i : ℕ) : ℕ :=
  targetRegion ((b.regions numScheduledTokens decodeThreshold).count 0)
    ((b.regions numScheduledTokens decodeThreshold).count 1) i

lemma target_pairwise (b : InputBatch γ) (n : ℕ) :
    ((range n).map (b.target d decodeThreshold)).Pairwise (· ≤ ·) := by
  rw [pairwise_map]
  exact pairwise_lt_range.imp fun hlt => targetRegion_mono _ _ hlt.le

lemma regions_perm_target (b : InputBatch γ) :
    (range b.reqIds.length).map (fun i => entryRegion d decodeThreshold (b.entry i)) ~
      (range b.reqIds.length).map (b.target d decodeThreshold) := by
  have hperm := map_targetRegion_perm (b.regions_le d decodeThreshold)
  rw [length_regions] at hperm
  exact hperm.symm

/-- Where each request of the batch is in the range of its region, nothing moves. -/
lemma Reordered.refl (hplaced : ∀ i < b.reqIds.length,
      entryRegion d decodeThreshold (b.entry i) = b.target d decodeThreshold i) :
    Reordered d decodeThreshold b b false where
  perm := ⟨1, fun _ => ⟨rfl, rfl⟩⟩
  inOrder := by
    have heq : b.regions d decodeThreshold = (range b.reqIds.length).map (b.target d decodeThreshold) :=
      map_congr_left fun i hi => hplaced i (mem_range.mp hi)
    rw [heq]
    exact b.target_pairwise _
  stays _ _ _ _ := rfl
  modified_iff := ⟨fun _ => rfl, fun _ => rfl⟩

/-- Where the requests have gone to the misplaced indices by region, all regions are the target regions. -/
lemma entryRegion_target {srcs dests : List ℕ}
    (hdests : dests = (List.range b.reqIds.length).filter fun i =>
      entryRegion d decodeThreshold (b.entry i) ≠ b.target d decodeThreshold i)
    (hregions : srcs.map (fun i => entryRegion d decodeThreshold (b.entry i)) =
      dests.map (b.target d decodeThreshold)) (hlength : srcs.length = dests.length)
    (hmoves : ∀ k src : ℕ, srcs[k]? = some src → dests[k]? = some (π src)) (hstays : ∀ i, i ∉ srcs → π i = i)
    (hsrcs : ∀ i, i ∈ srcs ↔ i ∈ dests) (hentry : ∀ i, b'.entry (π i) = b.entry i) (hi : i < b.reqIds.length) :
    entryRegion d decodeThreshold (b'.entry i) = b.target d decodeThreshold i := by
  by_cases hmem : i ∈ dests
  · obtain ⟨k, hk⟩ := mem_iff_getElem?.mp hmem
    obtain ⟨src, hsrc⟩ : ∃ src, srcs[k]? = some src := by
      have hlt := lt_of_getElem? hk
      exact ⟨srcs[k], getElem?_eq_getElem (by omega)⟩
    have hpi : π src = i := Option.some.inj ((hmoves k src hsrc).symm.trans hk)
    have hregion := congrArg (·[k]?) hregions
    simp only [getElem?_map, hsrc, hk, Option.map_some, Option.some.injEq] at hregion
    rw [← hpi, hentry, hregion, hpi]
  · have hpi : π i = i := hstays i fun h => hmem ((hsrcs i).mp h)
    have hplaced : entryRegion d decodeThreshold (b.entry i) = b.target d decodeThreshold i := by
      by_contra hne
      rw [hdests, mem_filter, mem_range] at hmem
      exact hmem ⟨hi, by simpa using hne⟩
    have hsame := hentry i
    rw [hpi] at hsame
    rw [hsame, hplaced]

/-- A request that is not in the range of its region moves, and the result is in order. -/
lemma Reordered.of_moves (h : Rows config tables b requests) (hlen : b'.reqIds.length = b.reqIds.length)
    (hgapless : b.Gapless) (hentry : ∀ i, b'.entry (π i) = b.entry i)
    (hstays : ∀ i, entryRegion d decodeThreshold (b.entry i) = b.target d decodeThreshold i → π i = i)
    (htarget : ∀ i < b.reqIds.length, entryRegion d decodeThreshold (b'.entry i) = b.target d decodeThreshold i)
    (hmisplaced : ∃ i < b.reqIds.length,
      entryRegion d decodeThreshold (b.entry i) ≠ b.target d decodeThreshold i) :
    Reordered d decodeThreshold b b' true where
  perm := ⟨π, fun i => ⟨congrArg Prod.fst (hentry i), congrArg Prod.snd (hentry i)⟩⟩
  inOrder := by
    have heq : b'.regions d decodeThreshold = (List.range b.reqIds.length).map (b.target d decodeThreshold) := by
      rw [regions, hlen]
      exact map_congr_left fun i hi => htarget i (List.mem_range.mp hi)
    rw [heq]
    exact b.target_pairwise _
  stays i r hr hrange := by
    have hi : i < b.reqIds.length := by
      rw [← b.length_regions d decodeThreshold]
      exact lt_of_getElem? hr
    rw [getElem?_regions hi] at hr
    cases hr
    have hfixed := hstays i (targetRegion_of_inRange (b.regions_le _ _) (entryRegion_le _ _ _) hrange).symm
    have hsame := congrArg Prod.fst (hentry i)
    rwa [hfixed] at hsame
  modified_iff := by
    refine ⟨Bool.noConfusion, fun hsame => ?_⟩
    obtain ⟨i, hi, hne⟩ := hmisplaced
    -- The request that is at `i` now came from an index with another region, so it has another id.
    have hfrom : b'.entry i = b.entry (π.symm i) := by
      rw [← hentry, Equiv.apply_symm_apply]
    have hids : b'.reqIds[i]? = b.reqIds[π.symm i]? := congrArg Prod.fst hfrom
    obtain ⟨id, hid⟩ := (hgapless i).mpr hi
    rw [hsame, hid] at hids
    have hindex := (h.inverse.lookup id (π.symm i)).mpr hids.symm
    rw [(h.inverse.lookup id i).mpr hid] at hindex
    have hregion := htarget i hi
    rw [hfrom, ← Option.some.inj hindex] at hregion
    exact absurd hregion hne

lemma reorderBatch_eq_ok (h : Rows config tables b requests) (hgapless : b.Gapless)
    (hscheduled : b.Scheduled d) {fuel : ℕ} (hfuel : b.reqIds.length < fuel) :
    ∃ modified b', reorderBatchToSplitDecodesAndPrefills fuel b d decodeThreshold = .ok (some (modified, b')) ∧
      Rows config tables b' requests ∧ b'.Gapless ∧ Reordered d decodeThreshold b b' modified := by
  obtain ⟨hdecodes, hextends⟩ := b.count_regions d decodeThreshold
  have hzip : List.zipWith (reqRegion decodeThreshold) (b.queryLens d)
      ((List.range b.reqIds.length).map b.numComputedTokensCpu) = b.regions d decodeThreshold :=
    zipWith_queryLens _ b
  unfold reorderBatchToSplitDecodesAndPrefills
  rw [numScheduledTokens_eq hgapless hscheduled]
  simp only [bind, Except.bind, hzip, hdecodes, hextends]
  have hregion : ∀ i < b.reqIds.length, (b.regions d decodeThreshold).getD i 0 =
      entryRegion d decodeThreshold (b.entry i) := by
    intro i hi
    rw [getD_eq_getElem?_getD, getElem?_regions hi]
    rfl
  have hmisplaced : (List.range b.reqIds.length).filter (fun i =>
        decide ((b.regions d decodeThreshold).getD i 0 ≠ targetRegion
          ((b.regions d decodeThreshold).count 0) ((b.regions d decodeThreshold).count 1) i)) =
      (List.range b.reqIds.length).filter fun i =>
        entryRegion d decodeThreshold (b.entry i) ≠ b.target d decodeThreshold i :=
    filter_congr fun i hi => by
      rw [hregion i (List.mem_range.mp hi)]
      rfl
  rw [hmisplaced]
  generalize hdests : (List.range b.reqIds.length).filter (fun i =>
    decide (entryRegion d decodeThreshold (b.entry i) ≠ b.target d decodeThreshold i)) = dests
  generalize hsrcs : dests.insertionSort (fun i j =>
    (b.regions d decodeThreshold).getD i 0 ≤ (b.regions d decodeThreshold).getD j 0) = srcs
  have hmem : ∀ i, i ∈ dests ↔ i < b.reqIds.length ∧
      entryRegion d decodeThreshold (b.entry i) ≠ b.target d decodeThreshold i := by
    intro i
    rw [← hdests, mem_filter, mem_range]
    simp
  split
  · rename_i hempty
    refine ⟨false, b, rfl, h, hgapless, .refl fun i hi => ?_⟩
    by_contra hne
    have hin := (hmem i).mpr ⟨hi, hne⟩
    rw [List.isEmpty_iff.mp hempty] at hin
    exact not_mem_nil hin
  · rename_i hsome
    have hperm : srcs ~ dests := hsrcs ▸ perm_insertionSort _ _
    have hnodup : dests.Nodup := hdests ▸ List.nodup_range.filter _
    have hnodup' : srcs.Nodup := hperm.nodup_iff.mpr hnodup
    obtain ⟨π, hπ⟩ := Cycles.exists_perm hnodup' hperm
    have hkeys : (srcs.zip dests).map Prod.fst = srcs := map_fst_zip hperm.length_eq.le
    have hoff : ∀ x, x ∉ srcs → π x = x := by
      intro x hx
      have hnone : (srcs.zip dests).lookup x = none := by
        rw [lookup_eq_none, hkeys]
        exact hx
      rw [hπ, hnone]
      rfl
    have hlt : ∀ k ∈ srcs, k < b.reqIds.length := fun k hk => ((hmem k).mp (hperm.mem_iff.mp hk)).1
    have hfew : srcs.length < fuel := by
      have hle : dests.length ≤ b.reqIds.length := by
        rw [← hdests]
        exact (length_filter_le _ _).trans_eq length_range
      rw [hperm.length_eq]
      omega
    have hleft : Left config tables requests (fun i => b.entry (π.symm i)) b.reqIds.length srcs [] []
        (srcs.zip dests) π b :=
      ⟨h, hgapless, rfl, fun i => by simp, hkeys, hlt, fun x _ => (hπ x).symm, hoff, fun x hx => by simp at hx⟩
    obtain ⟨b', hok, hrows, hgapless', hlength, hentry⟩ :=
      hleft.followCycles (fun k hk => ⟨hk, not_mem_nil⟩) hnodup' (fun k hk => .inr hk) hfew
    rw [hok]
    refine ⟨true, b', rfl, hrows, hgapless', ?_⟩
    have hentry' : ∀ i, b'.entry (π i) = b.entry i := by
      intro i
      rw [hentry, Equiv.symm_apply_apply]
    have hmoves : ∀ k src : ℕ, srcs[k]? = some src → dests[k]? = some (π src) := by
      intro k src hk
      have hlt : k < dests.length := hperm.length_eq ▸ (lt_of_getElem? hk)
      have hdest : dests[k]? = some dests[k] := getElem?_eq_getElem hlt
      have hpair : (src, dests[k]) ∈ srcs.zip dests :=
        mem_iff_getElem?.mpr ⟨k, List.getElem?_zip_eq_some.mpr ⟨hk, hdest⟩⟩
      rw [hπ, lookup_of_mem (hkeys.symm ▸ hnodup') hpair, hdest]
      rfl
    have hsorted : srcs.Pairwise fun i j =>
        entryRegion d decodeThreshold (b.entry i) ≤ entryRegion d decodeThreshold (b.entry j) := by
      have hpairwise := pairwise_insertionSort_key (fun i => (b.regions d decodeThreshold).getD i 0) dests
      rw [hsrcs] at hpairwise
      refine hpairwise.imp_of_mem fun hi hj hle => ?_
      rwa [hregion _ (hlt _ hi), hregion _ (hlt _ hj)] at hle
    have hregions : srcs.map (fun i => entryRegion d decodeThreshold (b.entry i)) =
        dests.map (b.target d decodeThreshold) := by
      rw [← hdests] at hperm ⊢
      exact map_sorted_eq b.regions_perm_target (fun _ _ hle => targetRegion_mono _ _ hle) hperm hsorted
    refine .of_moves h hlength hgapless hentry' (fun i hplaced => hoff i fun hi => ?_) (fun i hi => ?_) ?_
    · exact ((hmem i).mp (hperm.mem_iff.mp hi)).2 hplaced
    · exact entryRegion_target hdests.symm hregions hperm.length_eq hmoves hoff (fun _ => hperm.mem_iff) hentry' hi
    · obtain ⟨i, hi⟩ := exists_mem_of_ne_nil dests (by simpa using hsome)
      exact ⟨i, (hmem i).mp hi⟩

end InputBatch

end VllmRuntime
