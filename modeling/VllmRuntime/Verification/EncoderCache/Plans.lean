import VllmRuntime.Verification.EncoderCache.Accounting
import VllmRuntime.Verification.Scheduler.Steps

/-! # Planning encoder inputs

What `_try_schedule_encoder_inputs` promises: what it accepts fits in the cache, and every item
with an embedding in the range it returns is in the cache or accepted. -/

namespace VllmRuntime

open List EncoderCacheManager

/-- The position of the prompt takes an embedding of the item. -/
def MultiModalFeatureSpec.HasEmbedAt (feature : MultiModalFeatureSpec) (pos : ℤ) : Prop :=
  ∃ k < feature.mmPosition.length, pos = feature.mmPosition.offset + k ∧
    ∀ isEmbed, feature.mmPosition.isEmbed = some isEmbed → isEmbed[k]? = some true

namespace EncoderPlan

variable {embeds : String → ℕ} {config : SchedulerConfig} {hasCacheItem : String → Bool} {r : RequestId}
  {numComputedTokens shiftComputedTokens : ℤ} {feature : MultiModalFeatureSpec} {i : ℕ}
  {features : List MultiModalFeatureSpec} {entries : List (MultiModalFeatureSpec × ℕ)}
  {plan₀ plan plan' : EncoderPlan} {goesOn : Bool} {n : ℕ} {range : PlaceholderRange} {startIdx endIdx : ℤ}
  {e : PyError}

/-! ## What the loop body does -/

/-- The outcomes of the loop body for decoder-only models. -/
inductive Visits (config : SchedulerConfig) (hasCacheItem : String → Bool) (r : RequestId)
    (numComputedTokens shiftComputedTokens : ℤ) (feature : MultiModalFeatureSpec) (i : ℕ)
    (plan : EncoderPlan) : Bool → EncoderPlan → Prop
  | later (h : numComputedTokens + plan.numNewTokens + shiftComputedTokens ≤ feature.mmPosition.offset) :
      Visits config hasCacheItem r numComputedTokens shiftComputedTokens feature i plan false plan
  | computed (h : (feature.mmPosition.stop : ℤ) ≤ numComputedTokens) :
      Visits config hasCacheItem r numComputedTokens shiftComputedTokens feature i plan true plan
  | duplicate (h : feature.identifier ∈ plan.mmHashesToSchedule) :
      Visits config hasCacheItem r numComputedTokens shiftComputedTokens feature i plan true plan
  | cached {manager : EncoderCacheManager}
      (h : plan.manager.checkAndUpdateCache r feature = .ok (true, manager)) :
      Visits config hasCacheItem r numComputedTokens shiftComputedTokens feature i plan true
        { plan with manager }
  | notChunked {manager : EncoderCacheManager}
      (h : plan.manager.checkAndUpdateCache r feature = .ok (false, manager))
      (hstart : numComputedTokens < feature.mmPosition.offset)
      (hstop : numComputedTokens + plan.numNewTokens < feature.mmPosition.stop)
      (hrange : feature.mmPosition.offset < numComputedTokens + plan.numNewTokens + shiftComputedTokens) :
      Visits config hasCacheItem r numComputedTokens shiftComputedTokens feature i plan false
        { plan with manager, numNewTokens := feature.mmPosition.offset - numComputedTokens }
  | full {manager manager' : EncoderCacheManager}
      (h : plan.manager.checkAndUpdateCache r feature = .ok (false, manager))
      (hfull : manager.canAllocate feature plan.encoderComputeBudget plan.numEmbedsToSchedule =
        .ok (false, manager'))
      (hrange : feature.mmPosition.offset < numComputedTokens + plan.numNewTokens + shiftComputedTokens) :
      Visits config hasCacheItem r numComputedTokens shiftComputedTokens feature i plan false
        { plan with
          manager := manager'
          numNewTokens := if numComputedTokens + shiftComputedTokens < feature.mmPosition.offset then
            feature.mmPosition.offset - (numComputedTokens + shiftComputedTokens) else 0 }
  | noEmbeds {manager manager' : EncoderCacheManager} {first last : ℤ}
      (h : plan.manager.checkAndUpdateCache r feature = .ok (false, manager))
      (hfits : manager.canAllocate feature plan.encoderComputeBudget plan.numEmbedsToSchedule =
        .ok (true, manager'))
      (hrange : feature.mmPosition.offset < numComputedTokens + plan.numNewTokens + shiftComputedTokens)
      (hstop : numComputedTokens < feature.mmPosition.stop)
      (hembeds : feature.mmPosition.getEmbedsIndicesInRange
        (max 0 (numComputedTokens - feature.mmPosition.offset))
        (min feature.mmPosition.length (numComputedTokens + plan.numNewTokens - feature.mmPosition.offset)) =
          .ok (first, last)) (hzero : last - first = 0) :
      Visits config hasCacheItem r numComputedTokens shiftComputedTokens feature i plan true
        { plan with manager := manager' }
  | external {manager manager' : EncoderCacheManager}
      (hnew : feature.identifier ∉ plan.mmHashesToSchedule)
      (h : plan.manager.checkAndUpdateCache r feature = .ok (false, manager))
      (hfits : manager.canAllocate feature plan.encoderComputeBudget plan.numEmbedsToSchedule =
        .ok (true, manager')) :
      Visits config hasCacheItem r numComputedTokens shiftComputedTokens feature i plan true
        { plan with
          manager := manager'
          mmHashesToSchedule := plan.mmHashesToSchedule ++ [feature.identifier]
          numEmbedsToSchedule := plan.numEmbedsToSchedule + feature.numEmbeds
          externalLoadEncoderInput := plan.externalLoadEncoderInput ++ [i] }
  | input {manager manager' : EncoderCacheManager}
      (hnew : feature.identifier ∉ plan.mmHashesToSchedule)
      (h : plan.manager.checkAndUpdateCache r feature = .ok (false, manager))
      (hfits : manager.canAllocate feature plan.encoderComputeBudget plan.numEmbedsToSchedule =
        .ok (true, manager')) :
      Visits config hasCacheItem r numComputedTokens shiftComputedTokens feature i plan true
        { plan with
          manager := manager'
          mmHashesToSchedule := plan.mmHashesToSchedule ++ [feature.identifier]
          numEmbedsToSchedule := plan.numEmbedsToSchedule + feature.numEmbeds
          encoderComputeBudget := plan.encoderComputeBudget - feature.numEmbeds
          encoderInputsToSchedule := plan.encoderInputsToSchedule ++ [i] }

lemma visits_of_visit (hconfig : config.isEncoderDecoder = false)
    (h : plan.visit config hasCacheItem r numComputedTokens shiftComputedTokens feature i =
      .ok (goesOn, plan')) :
    Visits config hasCacheItem r numComputedTokens shiftComputedTokens feature i plan goesOn plan' := by
  unfold visit at h
  simp only [hconfig, Bool.false_and, Bool.false_eq_true, if_false] at h
  split at h
  · rename_i hlater
    cases h
    exact .later hlater
  rename_i hrange
  rw [ge_iff_le, not_le] at hrange
  split at h
  · rename_i hcomputed
    cases h
    exact .computed (by rw [PlaceholderRange.stop]; exact_mod_cast hcomputed)
  rename_i hstop
  have hstop : numComputedTokens < feature.mmPosition.stop := by
    rw [PlaceholderRange.stop]
    push_cast
    omega
  split at h
  · rename_i hduplicate
    cases h
    exact .duplicate hduplicate
  rename_i hnew
  obtain ⟨⟨isCached, manager⟩, hcheck, h⟩ := bind_eq_ok h
  cases isCached with
  | true =>
    cases h
    exact .cached hcheck
  | false =>
    simp only [Bool.false_eq_true, if_false, addInput, Bool.and_eq_true, decide_eq_true_eq] at h
    split at h
    · rename_i hchunk
      cases h
      refine .notChunked hcheck hchunk.1.2 ?_ hrange
      rw [PlaceholderRange.stop]
      exact_mod_cast hchunk.2
    obtain ⟨⟨fits, manager'⟩, hallocate, h⟩ := bind_eq_ok h
    cases fits with
    | false =>
      cases h
      exact .full hcheck hallocate hrange
    | true =>
      obtain ⟨⟨first, last⟩, hembeds, h⟩ := bind_eq_ok h
      dsimp only at h
      split at h
      · rename_i hzero
        cases h
        exact .noEmbeds hcheck hallocate hrange hstop hembeds hzero
      split at h
      · cases h
        exact .external hnew hcheck hallocate
      · cases h
        exact .input hnew hcheck hallocate

/-- Before an input is accepted it was not found, and room was made for it. -/
lemma canAllocate_of_check {manager manager' : EncoderCacheManager} {fits : Bool} {budget : ℤ}
    (h : Accounted embeds plan.manager)
    (hcheck : plan.manager.checkAndUpdateCache r feature = .ok (false, manager))
    (hallocate : manager.canAllocate feature budget n = .ok (fits, manager')) :
    Accounted embeds manager' ∧ Evicts plan.manager manager' ∧ feature.identifier ∉ manager'.cached ∧
      (fits = true → (feature.numEmbeds : ℤ) ≤ budget ∧ feature.numEmbeds + n ≤ manager'.numFreeSlots) := by
  obtain ⟨isCached, m₁, hok, -, -, -, habsent⟩ := h.checkAndUpdateCache r feature
  cases hok.symm.trans hcheck
  obtain ⟨hnew, rfl⟩ := habsent rfl
  obtain ⟨_, m₂, hok', haccounted, hevicts, hfits⟩ := h.canAllocate feature budget n
  cases hok'.symm.trans hallocate
  exact ⟨haccounted, hevicts, fun hmem => hnew (hevicts.cached _ hmem), hfits⟩

/-- An entry of `embeds_cumsum` counts the embeddings up to its position. -/
lemma cumsum_getElem? {isEmbed : List Bool} {j : ℕ}
    (h : (PlaceholderRange.embedsCumsum isEmbed)[j]? = some n) : n = (isEmbed.take (j + 1)).count true := by
  rw [PlaceholderRange.embedsCumsum, getElem?_map, Option.map_eq_some_iff] at h
  obtain ⟨k, hk, rfl⟩ := h
  obtain ⟨hlt, rfl⟩ := List.getElem?_eq_some_iff.mp hk
  rw [getElem_range]

lemma getEmbedsIndicesInRange_eq_error (h : range.getEmbedsIndicesInRange startIdx endIdx = .error e) :
    e = .indexError := by
  unfold PlaceholderRange.getEmbedsIndicesInRange at h
  split at h
  · cases h
  extract_lets cumsum entry at h
  have hentry {idx : ℤ} {e' : PyError} (h' : entry idx = .error e') : e' = .indexError := by
    unfold entry at h'
    split at h' <;> cases h'
    rfl
  split at h
  · rcases bind_eq_error h with hfirst | ⟨first, -, h⟩
    · exact hentry hfirst
    · rcases bind_eq_error h with hlast | ⟨last, -, h⟩
      · exact hentry hlast
      · cases h
  · rcases bind_eq_error h with hlast | ⟨last, -, h⟩
    · exact hentry hlast
    · cases h

/-- Without embeddings in the range no position of it takes one. -/
lemma getEmbedsIndicesInRange_lt {first last : ℤ} {k : ℕ}
    (h : range.getEmbedsIndicesInRange startIdx endIdx = .ok (first, last))
    (hk : startIdx ≤ k ∧ (k : ℤ) < endIdx)
    (hembed : ∀ isEmbed, range.isEmbed = some isEmbed → isEmbed[k]? = some true) : first < last := by
  unfold PlaceholderRange.getEmbedsIndicesInRange at h
  split at h
  · cases h
    omega
  rename_i isEmbed hmask
  extract_lets cumsum entry at h
  have hmono {i j : ℕ} (hij : i ≤ j) : (isEmbed.take i).count true ≤ (isEmbed.take j).count true :=
    (take_sublist_take_left hij).count_le true
  have hcount : (isEmbed.take (k + 1)).count true = (isEmbed.take k).count true + 1 := by
    rw [take_add_one, hembed isEmbed hmask]
    simp
  have hentry {idx n : ℤ} (hidx : 0 ≤ idx) (h' : entry idx = .ok n) :
      n = (isEmbed.take (idx.toNat + 1)).count true := by
    unfold entry at h'
    split at h'
    · cases h'
    · rename_i n' hn
      cases h'
      rw [pyIndex] at hn
      split at hn
      · exact congrArg Nat.cast (cumsum_getElem? hn)
      · rw [if_neg (by omega)] at hn
        cases hn
  split at h
  · rename_i hstart
    obtain ⟨first', hfirst, h⟩ := bind_eq_ok h
    obtain ⟨last', hlast, h⟩ := bind_eq_ok h
    cases h
    rw [hentry (by omega) hfirst, hentry (by omega) hlast]
    have h₁ := hmono (show (startIdx - 1).toNat + 1 ≤ k by omega)
    have h₂ := hmono (show k + 1 ≤ (endIdx - 1).toNat + 1 by omega)
    omega
  · obtain ⟨last', hlast, h⟩ := bind_eq_ok h
    cases h
    rw [hentry (by omega) hlast]
    have h₂ := hmono (show k + 1 ≤ (endIdx - 1).toNat + 1 by omega)
    omega

/-- Only looking up the mask can fail. -/
lemma visit_eq_error (hconfig : config.isEncoderDecoder = false)
    (haccounted : Accounted embeds plan.manager)
    (h : plan.visit config hasCacheItem r numComputedTokens shiftComputedTokens feature i = .error e) :
    e = .indexError := by
  unfold visit at h
  simp only [hconfig, Bool.false_and, Bool.false_eq_true, if_false] at h
  split at h
  · cases h
  split at h
  · cases h
  split at h
  · cases h
  obtain ⟨isCached, m₁, hcheck, haccounted₁, -⟩ :=
    haccounted.checkAndUpdateCache r feature
  rw [hcheck] at h
  cases isCached with
  | true => cases h
  | false =>
    simp only [bind, Except.bind, Bool.false_eq_true, if_false, addInput] at h
    split at h
    · cases h
    obtain ⟨fits, m₂, hallocate, -⟩ := haccounted₁.canAllocate feature
      plan.encoderComputeBudget plan.numEmbedsToSchedule
    rw [hallocate] at h
    cases fits with
    | false => cases h
    | true =>
      simp only [Bool.not_true, Bool.false_eq_true, if_false] at h
      split at h
      · rename_i hembeds
        cases h
        exact getEmbedsIndicesInRange_eq_error hembeds
      · split at h
        · cases h
        · split at h <;> cases h

/-! ## What is accepted -/

/-- The accepted inputs: those to compute, then those to load. -/
def planned (features : List MultiModalFeatureSpec) (plan : EncoderPlan) : List MultiModalFeatureSpec :=
  plan.encoderInputsToSchedule.filterMap (features[·]?) ++
    plan.externalLoadEncoderInput.filterMap (features[·]?)

/-- The accepted inputs are new and different, and there is room for all of them. -/
structure Sound (embeds : String → ℕ) (features : List MultiModalFeatureSpec)
    (plan₀ plan : EncoderPlan) : Prop where
  accounted : Accounted embeds plan.manager
  evicts : Evicts plan₀.manager plan.manager
  hashes : ((plan.planned features).map (·.identifier)).Perm plan.mmHashesToSchedule
  nodup : plan.mmHashesToSchedule.Nodup
  new : ∀ mmHash ∈ plan.mmHashesToSchedule, mmHash ∉ plan.manager.cached
  total : plan.numEmbedsToSchedule = (plan.mmHashesToSchedule.map embeds).sum
  fits : (plan.numEmbedsToSchedule : ℤ) ≤ plan.manager.numFreeSlots
  budget : plan.encoderComputeBudget +
    (((plan.encoderInputsToSchedule.filterMap (features[·]?)).map (·.numEmbeds)).sum : ℕ) =
      plan₀.encoderComputeBudget
  nonneg : 0 ≤ plan₀.encoderComputeBudget → 0 ≤ plan.encoderComputeBudget

namespace Sound

lemma start (h : Accounted embeds plan.manager) (hinputs : plan.encoderInputsToSchedule = [])
    (hexternal : plan.externalLoadEncoderInput = []) (hhashes : plan.mmHashesToSchedule = [])
    (htotal : plan.numEmbedsToSchedule = 0) : Sound embeds features plan plan := by
  refine ⟨h, .refl _, ?_, ?_, ?_, ?_, ?_, ?_, id⟩
  · simp [planned, hinputs, hexternal, hhashes]
  · simp [hhashes]
  · simp [hhashes]
  · simp [hhashes, htotal]
  · simpa [htotal] using h.nonneg
  · simp [hinputs]

section

variable (h : Sound embeds features plan₀ plan)
include h

/-- Entries are evicted or referenced, and the range may change. -/
lemma setManager {manager : EncoderCacheManager} {n : ℤ}
    (haccounted : Accounted embeds manager) (hevicts : Evicts plan.manager manager) :
    Sound embeds features plan₀ { plan with manager, numNewTokens := n } :=
  ⟨haccounted, h.evicts.trans hevicts, h.hashes, h.nodup,
    fun x hx hmem => h.new x hx (hevicts.cached x hmem), h.total,
    h.fits.trans hevicts.numFreeSlots, h.budget, h.nonneg⟩

lemma visits (hfeature : feature.Proper embeds)
    (hi : features[i]? = some feature)
    (hvisit : Visits config hasCacheItem r numComputedTokens shiftComputedTokens feature i plan goesOn plan') :
    Sound embeds features plan₀ plan' := by
  cases hvisit with
  | later | computed | duplicate => exact h
  | cached hcheck | notChunked hcheck =>
    obtain ⟨_, m, hok, haccounted, hevicts, -⟩ :=
      h.accounted.checkAndUpdateCache r feature
    cases hok.symm.trans hcheck
    exact h.setManager haccounted hevicts
  | full hcheck hallocate | noEmbeds hcheck hallocate =>
    obtain ⟨haccounted, hevicts, -⟩ := canAllocate_of_check h.accounted hcheck hallocate
    exact h.setManager haccounted hevicts
  | external hnew hcheck hallocate =>
    obtain ⟨haccounted, hevicts, habsent, hfits⟩ := canAllocate_of_check h.accounted hcheck hallocate
    obtain ⟨hbudget, hfits⟩ := hfits rfl
    refine ⟨haccounted, h.evicts.trans hevicts, ?_, ?_, ?_, ?_, ?_, h.budget, h.nonneg⟩
    · have hhashes := h.hashes
      simp only [planned, map_append] at hhashes ⊢
      simp only [filterMap_append, filterMap_cons, hi, filterMap_nil, map_append,
        map_cons, map_nil]
      rw [← append_assoc]
      exact hhashes.append_right _
    · exact h.nodup.append (nodup_singleton _) (disjoint_singleton.mpr hnew)
    · intro x hx hmem
      rcases mem_append.mp hx with hx | hx
      · exact h.new x hx (hevicts.cached x hmem)
      · exact habsent (mem_singleton.mp hx ▸ hmem)
    · simp [h.total, hfeature.numEmbeds]
    · push_cast
      omega
  | input hnew hcheck hallocate =>
    obtain ⟨haccounted, hevicts, habsent, hfits⟩ := canAllocate_of_check h.accounted hcheck hallocate
    obtain ⟨hbudget, hfits⟩ := hfits rfl
    refine ⟨haccounted, h.evicts.trans hevicts, ?_, ?_, ?_, ?_, ?_, ?_, ?_⟩
    · have hhashes := h.hashes
      simp only [planned, map_append] at hhashes ⊢
      simp only [filterMap_append, filterMap_cons, hi, filterMap_nil, map_append,
        map_cons, map_nil]
      refine List.Perm.trans ?_ (hhashes.append_right _)
      rw [append_assoc, append_assoc]
      exact perm_append_comm.append_left _
    · exact h.nodup.append (nodup_singleton _) (disjoint_singleton.mpr hnew)
    · intro x hx hmem
      rcases mem_append.mp hx with hx | hx
      · exact h.new x hx (hevicts.cached x hmem)
      · exact habsent (mem_singleton.mp hx ▸ hmem)
    · simp [h.total, hfeature.numEmbeds]
    · push_cast
      omega
    · have hold := h.budget
      simp only [filterMap_append, filterMap_cons, hi, filterMap_nil, map_append,
        map_cons, map_nil, sum_append, sum_singleton]
      push_cast at hold ⊢
      omega
    · intro _
      dsimp only
      omega

section

variable (hconfig : config.isEncoderDecoder = false) (hproper : ∀ feature ∈ features, feature.Proper embeds)
  (hentries : ∀ entry ∈ entries, features[entry.2]? = some entry.1)
include hconfig hproper hentries

lemma visitAll (hvisit : plan.visitAll config hasCacheItem r numComputedTokens shiftComputedTokens entries = .ok plan') :
    Sound embeds features plan₀ plan' := by
  induction entries generalizing plan with
  | nil =>
    cases hvisit
    exact h
  | cons entry entries ih =>
    obtain ⟨feature, i⟩ := entry
    rw [forall_mem_cons] at hentries
    rw [EncoderPlan.visitAll] at hvisit
    obtain ⟨⟨goesOn, plan₁⟩, hfirst, hrest⟩ := bind_eq_ok hvisit
    have hsound := h.visits (hproper feature (mem_of_getElem? hentries.1)) hentries.1
      (visits_of_visit hconfig hfirst)
    cases goesOn with
    | true => exact ih hsound hentries.2 hrest
    | false =>
      cases hrest
      exact hsound

lemma visitAll_eq_error
    (hvisit : plan.visitAll config hasCacheItem r numComputedTokens shiftComputedTokens entries = .error e) :
    e = .indexError := by
  induction entries generalizing plan with
  | nil => cases hvisit
  | cons entry entries ih =>
    obtain ⟨feature, i⟩ := entry
    rw [forall_mem_cons] at hentries
    rw [EncoderPlan.visitAll] at hvisit
    cases hfirst : plan.visit config hasCacheItem r numComputedTokens shiftComputedTokens feature i with
    | error e' =>
      rw [hfirst] at hvisit
      cases hvisit
      exact visit_eq_error hconfig h.accounted hfirst
    | ok result =>
      obtain ⟨goesOn, plan₁⟩ := result
      rw [hfirst] at hvisit
      have hsound := h.visits (hproper feature (mem_of_getElem? hentries.1)) hentries.1
        (visits_of_visit hconfig hfirst)
      cases goesOn with
      | true => exact ih hsound hentries.2 hvisit
      | false => cases hvisit

end

/-- Allocating the accepted inputs succeeds. -/
lemma planned_fits (hproper : ∀ feature ∈ features, feature.Proper embeds) :
    Fits embeds plan.manager (plan.planned features) := by
  have hmem : ∀ feature ∈ plan.planned features, feature ∈ features := by
    intro feature hfeature
    rcases mem_append.mp hfeature with hfeature | hfeature
    all_goals
      obtain ⟨i, -, hi⟩ := mem_filterMap.mp hfeature
      exact mem_of_getElem? hi
  have hembeds : (plan.planned features).map (·.numEmbeds) =
      ((plan.planned features).map (·.identifier)).map embeds := by
    rw [map_map]
    exact map_congr_left fun feature hfeature => (hproper feature (hmem feature hfeature)).numEmbeds
  refine ⟨fun feature hfeature => hproper feature (hmem feature hfeature), h.hashes.nodup_iff.mpr h.nodup,
    fun feature hfeature => ?_, ?_⟩
  · exact h.new _ (h.hashes.mem_iff.mp (mem_map.mpr ⟨feature, hfeature, rfl⟩))
  · rw [hembeds, (h.hashes.map embeds).sum_eq, ← h.total]
    exact h.fits

end

end Sound

/-! ## What is covered -/

/-- The item is cached for the request or accepted, if the range needs an embedding of it. -/
def Covers (r : RequestId) (numComputedTokens : ℤ) (plan : EncoderPlan)
    (feature : MultiModalFeatureSpec) : Prop :=
  ∀ pos, numComputedTokens ≤ pos → pos < numComputedTokens + plan.numNewTokens → feature.HasEmbedAt pos →
    plan.manager.References r feature.identifier ∨ feature.identifier ∈ plan.mmHashesToSchedule

/-- The range gets shorter, and what was referenced or accepted still is. -/
structure Narrows (r : RequestId) (plan plan' : EncoderPlan) : Prop where
  nonneg : 0 ≤ plan'.numNewTokens
  numNewTokens : plan'.numNewTokens ≤ plan.numNewTokens
  references : ∀ mmHash, plan.manager.References r mmHash → plan'.manager.References r mmHash
  mmHashesToSchedule : ∀ mmHash ∈ plan.mmHashesToSchedule, mmHash ∈ plan'.mmHashesToSchedule

lemma Narrows.trans {plan'' : EncoderPlan} (h : Narrows r plan plan') (h' : Narrows r plan' plan'') :
    Narrows r plan plan'' :=
  ⟨h'.nonneg, h'.numNewTokens.trans h.numNewTokens, fun x hx => h'.references x (h.references x hx),
    fun x hx => h'.mmHashesToSchedule x (h.mmHashesToSchedule x hx)⟩

lemma Covers.narrows (h : Covers r numComputedTokens plan feature) (hnarrows : Narrows r plan plan') :
    Covers r numComputedTokens plan' feature := by
  intro pos hpos hlt hembed
  have hn := hnarrows.numNewTokens
  exact (h pos hpos (by omega) hembed).imp (hnarrows.references _) (hnarrows.mmHashesToSchedule _)

/-- An item behind the range is not needed. -/
lemma covers_of_later (h : numComputedTokens + plan.numNewTokens ≤ feature.mmPosition.offset ∨
    plan.numNewTokens = 0) : Covers r numComputedTokens plan feature := by
  rintro pos hpos hlt ⟨k, -, rfl, -⟩
  omega

/-- The loop body covers the item, and stops only when the range ends before it. -/
lemma Visits.covers (haccounted : Accounted embeds plan.manager) (hn : 0 ≤ plan.numNewTokens)
    (h : Visits config hasCacheItem r numComputedTokens 0 feature i plan goesOn plan') :
    Narrows r plan plan' ∧ Covers r numComputedTokens plan' feature ∧
      (goesOn = false →
        numComputedTokens + plan'.numNewTokens ≤ feature.mmPosition.offset ∨ plan'.numNewTokens = 0) := by
  have hrefl : Narrows r plan plan := ⟨hn, le_rfl, fun _ hx => hx, fun _ hx => hx⟩
  cases h with
  | later h =>
    rw [add_zero] at h
    exact ⟨hrefl, covers_of_later (Or.inl h), fun _ => Or.inl h⟩
  | computed h =>
    refine ⟨hrefl, ?_, by simp⟩
    rintro pos hpos - ⟨k, hk, rfl, -⟩
    rw [PlaceholderRange.stop] at h
    push_cast at h
    omega
  | duplicate h => exact ⟨hrefl, fun _ _ _ _ => Or.inr h, by simp⟩
  | cached hcheck =>
    obtain ⟨_, m, hok, -, hevicts, hreferences, -⟩ :=
      haccounted.checkAndUpdateCache r feature
    cases hok.symm.trans hcheck
    exact ⟨⟨hn, le_rfl, hevicts.references r, fun _ hx => hx⟩, fun _ _ _ _ => Or.inl (hreferences rfl),
      by simp⟩
  | notChunked hcheck hstart hstop hrange =>
    obtain ⟨_, m, hok, -, hevicts, -⟩ := haccounted.checkAndUpdateCache r feature
    cases hok.symm.trans hcheck
    have hends : numComputedTokens + (feature.mmPosition.offset - numComputedTokens) ≤
        feature.mmPosition.offset := by omega
    refine ⟨⟨?_, ?_, hevicts.references r, fun _ hx => hx⟩, covers_of_later (Or.inl hends),
      fun _ => Or.inl hends⟩
    all_goals
      dsimp only
      omega
  | full hcheck hallocate hrange =>
    obtain ⟨-, hevicts, -⟩ := canAllocate_of_check haccounted hcheck hallocate
    generalize hn' : (if numComputedTokens + 0 < feature.mmPosition.offset then
      feature.mmPosition.offset - (numComputedTokens + 0) else 0 : ℤ) = n'
    have hends : numComputedTokens + n' ≤ feature.mmPosition.offset ∨ n' = 0 := by
      rw [← hn']
      split <;> omega
    refine ⟨⟨?_, ?_, hevicts.references r, fun _ hx => hx⟩, covers_of_later hends, fun _ => hends⟩
    all_goals
      rw [← hn']
      dsimp only
      split <;> omega
  | noEmbeds hcheck hallocate hrange hstop hembeds hzero =>
    obtain ⟨-, hevicts, -⟩ := canAllocate_of_check haccounted hcheck hallocate
    refine ⟨⟨hn, le_rfl, hevicts.references r, fun _ hx => hx⟩, ?_, by simp⟩
    rintro pos hpos hlt ⟨k, hk, rfl, hembed⟩
    have hsome := getEmbedsIndicesInRange_lt hembeds (k := k) (by dsimp only at hlt; omega) hembed
    omega
  | external hnew hcheck hallocate | input hnew hcheck hallocate =>
    obtain ⟨-, hevicts, -⟩ := canAllocate_of_check haccounted hcheck hallocate
    exact ⟨⟨hn, le_rfl, hevicts.references r, fun _ hx => mem_append_left _ hx⟩,
      fun _ _ _ _ => Or.inr (by simp), by simp⟩

/-- Sorted items are covered. -/
lemma visitAll_covers (h : Sound embeds features plan₀ plan) (hconfig : config.isEncoderDecoder = false)
    (hproper : ∀ feature ∈ features, feature.Proper embeds)
    (hentries : ∀ entry ∈ entries, features[entry.2]? = some entry.1) (hn : 0 ≤ plan.numNewTokens)
    (hsorted : entries.Pairwise fun a b => a.1.mmPosition.offset ≤ b.1.mmPosition.offset)
    (hvisit : plan.visitAll config hasCacheItem r numComputedTokens 0 entries = .ok plan') :
    Narrows r plan plan' ∧ ∀ entry ∈ entries, Covers r numComputedTokens plan' entry.1 := by
  induction entries generalizing plan with
  | nil =>
    cases hvisit
    exact ⟨⟨hn, le_rfl, fun _ hx => hx, fun _ hx => hx⟩, by simp⟩
  | cons entry entries ih =>
    obtain ⟨feature, i⟩ := entry
    rw [forall_mem_cons] at hentries
    rw [pairwise_cons] at hsorted
    rw [visitAll] at hvisit
    obtain ⟨⟨goesOn, plan₁⟩, hfirst, hrest⟩ := bind_eq_ok hvisit
    have hvisits := visits_of_visit hconfig hfirst
    have hsound := h.visits (hproper feature (mem_of_getElem? hentries.1)) hentries.1 hvisits
    obtain ⟨hnarrows, hcovers, hends⟩ := hvisits.covers h.accounted hn
    cases goesOn with
    | true =>
      obtain ⟨hnarrows', hcovers'⟩ := ih hsound hentries.2 hnarrows.nonneg hsorted.2 hrest
      refine ⟨hnarrows.trans hnarrows', ?_⟩
      rw [forall_mem_cons]
      exact ⟨hcovers.narrows hnarrows', hcovers'⟩
    | false =>
      cases hrest
      refine ⟨hnarrows, ?_⟩
      rw [forall_mem_cons]
      refine ⟨hcovers, fun other hother => covers_of_later ?_⟩
      have hle := hsorted.1 other hother
      have hends := hends rfl
      dsimp only at hle
      omega

end EncoderPlan

end VllmRuntime
