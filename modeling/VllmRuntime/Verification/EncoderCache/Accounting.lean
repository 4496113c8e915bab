import VllmRuntime.Model.EncoderCache
import VllmRuntime.Shared.DictSum

/-! # The counters of the encoder cache

`num_free_slots` counts what no entry takes, `num_freeable_slots` what no referenced entry takes, and
`freeable` lists the entries in between. Every operation of the manager keeps this. -/

namespace VllmRuntime

open List

/-- The number of embeddings is determined by the identifier, and a mask is not empty. -/
structure MultiModalFeatureSpec.Proper (embeds : String → ℕ) (feature : MultiModalFeatureSpec) : Prop where
  numEmbeds : feature.numEmbeds = embeds feature.identifier
  isEmbed : feature.mmPosition.isEmbed ≠ some []

namespace EncoderCacheManager

variable {embeds : String → ℕ} {m m' m'' : EncoderCacheManager} {r : RequestId} {mmHash : String}
  {feature : MultiModalFeatureSpec} {ids : Finset RequestId}
  {features mmFeatures : List MultiModalFeatureSpec} {freeable : OrderedDict String ℕ}

/-- The embeddings of all entries. -/
def cachedEmbeds (embeds : String → ℕ) (m : EncoderCacheManager) : ℕ :=
  dictSum (fun mmHash _ => embeds mmHash) m.cached

/-- The embeddings of the entries that some request references. -/
def referencedEmbeds (embeds : String → ℕ) (m : EncoderCacheManager) : ℕ :=
  dictSum (fun mmHash ids => if ids = ∅ then 0 else embeds mmHash) m.cached

/-- The counters of an `EncoderCacheManager` and `freeable` agree with `cached`. -/
structure Accounted (embeds : String → ℕ) (m : EncoderCacheManager) : Prop where
  notEncoderDecoder : m.isEncoderDecoder = false
  nonneg : 0 ≤ m.numFreeSlots
  numFreeSlots : m.numFreeSlots = m.cacheSize - m.cachedEmbeds embeds
  numFreeableSlots : m.numFreeableSlots = m.cacheSize - m.referencedEmbeds embeds
  nodup : (m.freeable.map Prod.fst).Nodup
  mem_freeable : ∀ mmHash n, (mmHash, n) ∈ m.freeable ↔ m.cached.lookup mmHash = some ∅ ∧ n = embeds mmHash
  reclaimable : m.numFreeableSlots = m.numFreeSlots + (m.freeable.map Prod.snd).sum

/-- The request references the entry. -/
def References (m : EncoderCacheManager) (r : RequestId) (mmHash : String) : Prop :=
  ∃ ids, m.cached.lookup mmHash = some ids ∧ r ∈ ids

/-- Entries may have been evicted, but no referenced ones. -/
structure Evicts (m m' : EncoderCacheManager) : Prop where
  cached : ∀ mmHash, mmHash ∈ m'.cached → mmHash ∈ m.cached
  numFreeSlots : m.numFreeSlots ≤ m'.numFreeSlots
  references : ∀ r mmHash, m.References r mmHash → m'.References r mmHash

lemma Evicts.refl (m : EncoderCacheManager) : Evicts m m :=
  ⟨fun _ h => h, le_rfl, fun _ _ h => h⟩

lemma Evicts.trans (h : Evicts m m') (h' : Evicts m' m'') : Evicts m m'' :=
  ⟨fun x hx => h.cached x (h'.cached x hx), h.numFreeSlots.trans h'.numFreeSlots,
    fun r x hx => h'.references r x (h.references r x hx)⟩

/-! ## The sums over the entries -/

lemma cachedEmbeds_insert (embeds : String → ℕ) (hlook : m.cached.lookup mmHash = some ids) (ids' : Finset RequestId) :
    dictSum (fun x _ => embeds x) (m.cached.insert mmHash ids') = m.cachedEmbeds embeds := by
  rw [cachedEmbeds, dictSum_insert, dictSum_eq_add_erase _ m.cached mmHash, hlook, Option.elim_some]

lemma cachedEmbeds_insert_new (embeds : String → ℕ) (hnew : m.cached.lookup mmHash = none) (ids : Finset RequestId) :
    dictSum (fun x _ => embeds x) (m.cached.insert mmHash ids) = embeds mmHash + m.cachedEmbeds embeds := by
  rw [cachedEmbeds, dictSum_insert, dictSum_eq_add_erase _ m.cached mmHash, hnew, Option.elim_none, Nat.zero_add]

lemma cachedEmbeds_erase (hlook : m.cached.lookup mmHash = some ids) :
    m.cachedEmbeds embeds = embeds mmHash + dictSum (fun x _ => embeds x) (m.cached.erase mmHash) := by
  rw [cachedEmbeds, dictSum_eq_add_erase _ m.cached mmHash, hlook, Option.elim_some]

/-- The referenced embeddings without those of one entry. -/
def otherEmbeds (embeds : String → ℕ) (m : EncoderCacheManager) (mmHash : String) : ℕ :=
  dictSum (fun mmHash ids => if ids = ∅ then 0 else embeds mmHash) (m.cached.erase mmHash)

lemma referencedEmbeds_insert (embeds : String → ℕ) (m : EncoderCacheManager) (mmHash : String)
    (ids' : Finset RequestId) :
    dictSum (fun x ids => if ids = ∅ then 0 else embeds x) (m.cached.insert mmHash ids') =
      (if ids' = ∅ then 0 else embeds mmHash) + m.otherEmbeds embeds mmHash := by
  rw [dictSum_insert, otherEmbeds]

lemma referencedEmbeds_eq (embeds : String → ℕ) (m : EncoderCacheManager) (mmHash : String) :
    m.referencedEmbeds embeds =
    (m.cached.lookup mmHash).elim 0 (fun ids => if ids = ∅ then 0 else embeds mmHash) +
      m.otherEmbeds embeds mmHash :=
  dictSum_eq_add_erase _ m.cached mmHash

/-! ## One entry changes -/

section

variable (h : Accounted embeds m)
include h

lemma Accounted.not_mem_freeable (hne : m.cached.lookup mmHash ≠ some ∅) :
    mmHash ∉ m.freeable.map Prod.fst := by
  rw [mem_map]
  rintro ⟨⟨x, n⟩, hmem, rfl⟩
  exact hne ((h.mem_freeable x n).mp hmem).1

lemma Accounted.lookup_freeable (hempty : m.cached.lookup mmHash = some ∅) :
    m.freeable.lookup mmHash = some (embeds mmHash) :=
  lookup_of_mem h.nodup ((h.mem_freeable mmHash _).mpr ⟨hempty, rfl⟩)

/-- The references of an entry change, and `freeable` and its counter with them. -/
lemma Accounted.setEntry (hlook : m.cached.lookup mmHash = some ids)
    (ids' : Finset RequestId) {numFreeableSlots : ℤ} (hnodup : (freeable.map Prod.fst).Nodup)
    (hmem : ∀ x n, (x, n) ∈ freeable ↔
      if x = mmHash then ids' = ∅ ∧ n = embeds x else (x, n) ∈ m.freeable)
    (hcount : numFreeableSlots + (if ids = ∅ then embeds mmHash else 0 : ℕ) =
      m.numFreeableSlots + (if ids' = ∅ then embeds mmHash else 0 : ℕ))
    (hsum : (freeable.map Prod.snd).sum + (if ids = ∅ then embeds mmHash else 0) =
      (m.freeable.map Prod.snd).sum + (if ids' = ∅ then embeds mmHash else 0)) :
    Accounted embeds { m with
      cached := m.cached.insert mmHash ids', freeable, numFreeableSlots } := by
  have hcached := cachedEmbeds_insert embeds hlook ids'
  have hother := referencedEmbeds_insert embeds m mmHash ids'
  have hreferenced := referencedEmbeds_eq embeds m mmHash
  have hold := h.numFreeableSlots
  have hreclaimable := h.reclaimable
  rw [hlook, Option.elim_some] at hreferenced
  refine ⟨h.notEncoderDecoder, h.nonneg, ?_, ?_, hnodup, ?_, ?_⟩
  · simp only [cachedEmbeds, hcached]
    exact h.numFreeSlots
  · simp only [referencedEmbeds, hother]
    split at hcount <;> split at hcount <;> simp_all <;> omega
  · intro x n
    rw [hmem]
    by_cases hx : x = mmHash
    · subst hx
      simp
    · simp [hx, h.mem_freeable]
  · dsimp only
    omega

/-- An entry without references is evicted. -/
lemma Accounted.evict {n : ℕ} (hfree : m.freeable = (mmHash, n) :: freeable) :
    mmHash ∈ m.cached ∧ n = embeds mmHash ∧
      Accounted embeds { m with
        freeable
        cached := m.cached.erase mmHash
        freed := m.freed ++ [mmHash]
        numFreeSlots := m.numFreeSlots + n } ∧
      Evicts m { m with
        freeable
        cached := m.cached.erase mmHash
        freed := m.freed ++ [mmHash]
        numFreeSlots := m.numFreeSlots + n } := by
  have hmem : (mmHash, n) ∈ m.freeable := by simp [hfree]
  obtain ⟨hlook, rfl⟩ := (h.mem_freeable mmHash n).mp hmem
  have hnodup := h.nodup
  rw [hfree, map_cons, nodup_cons] at hnodup
  have hslots := h.numFreeSlots
  have hfreeable := h.numFreeableSlots
  have hreclaimable := h.reclaimable
  rw [cachedEmbeds_erase hlook] at hslots
  rw [referencedEmbeds_eq embeds m mmHash, hlook, Option.elim_some, if_pos rfl] at hfreeable
  rw [hfree, map_cons, sum_cons] at hreclaimable
  refine ⟨AList.lookup_isSome.mp (by simp [hlook]), rfl, ⟨h.notEncoderDecoder, ?_, ?_, ?_, hnodup.2, ?_, ?_⟩,
    ⟨fun x hx => ?_, ?_, ?_⟩⟩
  · exact h.nonneg.trans (Int.le_add_of_nonneg_right (Int.natCast_nonneg _))
  · simp only [cachedEmbeds]
    push_cast at hslots
    omega
  · simp only [referencedEmbeds]
    simpa [otherEmbeds] using hfreeable
  · intro x k
    have hold := h.mem_freeable x k
    rw [hfree, mem_cons] at hold
    by_cases hx : x = mmHash
    · subst hx
      have hnot : (x, k) ∉ freeable := fun hin => hnodup.1 (mem_map.mpr ⟨_, hin, rfl⟩)
      simp [hnot]
    · rw [AList.lookup_erase_ne hx, ← hold]
      simp [hx]
  · dsimp only
    rw [hreclaimable, Nat.cast_add, add_assoc]
  · exact (AList.mem_erase.mp hx).2
  · dsimp only
    omega
  · rintro r x ⟨ids, hids, hr⟩
    refine ⟨ids, ?_, hr⟩
    rw [AList.lookup_erase_ne]
    · exact hids
    · rintro rfl
      rw [hlook] at hids
      cases hids
      simp at hr

/-! ## The operations -/

/-- `check_and_update_cache` adds a reference to an entry, or there is none. -/
lemma Accounted.checkAndUpdateCache (r : RequestId)
    (feature : MultiModalFeatureSpec) :
    ∃ isCached m', m.checkAndUpdateCache r feature = .ok (isCached, m') ∧ Accounted embeds m' ∧
      Evicts m m' ∧ (isCached = true → m'.References r feature.identifier) ∧
      (isCached = false → feature.identifier ∉ m.cached ∧ m' = m) := by
  unfold EncoderCacheManager.checkAndUpdateCache
  rw [if_neg (by simp [h.notEncoderDecoder])]
  cases hlook : m.cached.lookup feature.identifier with
  | none => exact ⟨false, m, rfl, h, .refl m, by simp, fun _ => ⟨AList.lookup_eq_none.mp hlook, rfl⟩⟩
  | some ids =>
    have hinsert : insert r ids ≠ ∅ := Finset.insert_ne_empty r ids
    have hevicts {freeable : OrderedDict String ℕ} {numFreeableSlots : ℤ} : Evicts m { m with
        cached := m.cached.insert feature.identifier (insert r ids), freeable, numFreeableSlots } := by
      refine ⟨fun x hx => ?_, le_rfl, ?_⟩
      · rcases (AList.mem_insert _).mp hx with rfl | hx
        · exact AList.lookup_isSome.mp (by simp [hlook])
        · exact hx
      · rintro q x ⟨ids', hids', hq⟩
        by_cases hx : x = feature.identifier
        · subst hx
          rw [hlook] at hids'
          cases hids'
          exact ⟨_, AList.lookup_insert _, Finset.mem_insert_of_mem hq⟩
        · exact ⟨ids', (AList.lookup_insert_ne hx).trans hids', hq⟩
    have hreferences {freeable : OrderedDict String ℕ} {numFreeableSlots : ℤ} :
        References { m with
          cached := m.cached.insert feature.identifier (insert r ids), freeable, numFreeableSlots }
          r feature.identifier :=
      ⟨_, AList.lookup_insert _, Finset.mem_insert_self r ids⟩
    unfold reclaim
    by_cases hempty : ids = ∅
    · have hlookup := h.lookup_freeable (hempty ▸ hlook)
      have hperm := perm_dictPop h.nodup hlookup
      have hsum := (hperm.map Prod.snd).sum_eq
      rw [map_cons, sum_cons] at hsum
      simp only [hempty, ne_eq, not_true_eq_false, if_false, hlookup]
      refine ⟨true, _, rfl, ?_, ?_, ?_, by simp⟩
      · refine h.setEntry (hempty ▸ hlook) _ (nodup_dictPop h.nodup) (fun x n => ?_) ?_ ?_
        · rw [mem_dictPop]
          by_cases hx : x = feature.identifier <;> simp [hx]
        · simp
        · simp
          omega
      · exact hempty ▸ hevicts
      · exact fun _ => hempty ▸ hreferences
    · simp only [hempty, ne_eq, not_false_eq_true, if_true]
      refine ⟨true, _, rfl, ?_, hevicts, fun _ => hreferences, by simp⟩
      refine h.setEntry hlook _ h.nodup (fun x n => ?_) (by simp [hempty]) (by simp [hempty])
      by_cases hx : x = feature.identifier
      · subst hx
        simp only [if_true, hinsert, false_and, iff_false]
        refine fun hmem => h.not_mem_freeable ?_ (mem_map_of_mem (f := Prod.fst) hmem)
        simpa [hlook] using hempty
      · rw [if_neg hx]

/-- While more could be freed, the loop finds something to evict. -/
lemma Accounted.evictLoop {numEmbeds fuel : ℕ}
    (hfits : numEmbeds ≤ m.numFreeableSlots) (hfuel : m.freeable.length ≤ fuel) :
    ∃ m', evictLoop numEmbeds fuel m = .ok m' ∧ Accounted embeds m' ∧ Evicts m m' ∧
      numEmbeds ≤ m'.numFreeSlots := by
  induction fuel generalizing m with
  | zero =>
    have hnil : m.freeable = [] := length_eq_zero_iff.mp (Nat.le_zero.mp hfuel)
    have hreclaimable := h.reclaimable
    simp only [hnil, map_nil, sum_nil, Nat.cast_zero, add_zero] at hreclaimable
    rw [hreclaimable] at hfits
    refine ⟨m, ?_, h, .refl m, hfits⟩
    simp [EncoderCacheManager.evictLoop, hfits]
  | succ fuel ih =>
    rw [EncoderCacheManager.evictLoop]
    by_cases hfree : numEmbeds ≤ m.numFreeSlots
    · rw [if_neg (by simpa using hfree)]
      exact ⟨m, rfl, h, .refl m, hfree⟩
    · rw [if_pos (by simpa using hfree)]
      cases hpop : m.freeable with
      | nil =>
        have hreclaimable := h.reclaimable
        simp only [hpop, map_nil, sum_nil, Nat.cast_zero, add_zero] at hreclaimable
        exact absurd (hreclaimable ▸ hfits) hfree
      | cons entry freeable =>
        obtain ⟨x, n⟩ := entry
        obtain ⟨hmem, -, haccounted, hevicts⟩ := h.evict hpop
        rw [hpop, length_cons] at hfuel
        obtain ⟨m', hok, haccounted', hevicts', hfits'⟩ :=
          ih haccounted hfits (Nat.le_of_succ_le_succ hfuel)
        refine ⟨m', ?_, haccounted', hevicts.trans hevicts', hfits'⟩
        simpa [hmem] using hok

/-- `can_allocate` fails on no input, and says yes only when the embeddings fit. -/
lemma Accounted.canAllocate (feature : MultiModalFeatureSpec)
    (budget : ℤ) (n : ℕ) :
    ∃ fits m', m.canAllocate feature budget n = .ok (fits, m') ∧ Accounted embeds m' ∧ Evicts m m' ∧
      (fits = true → (feature.numEmbeds : ℤ) ≤ budget ∧ feature.numEmbeds + n ≤ m'.numFreeSlots) := by
  unfold EncoderCacheManager.canAllocate
  by_cases hbudget : (feature.numEmbeds : ℤ) ≤ budget
  · rw [if_neg (by simpa using hbudget)]
    simp only [h.notEncoderDecoder, Bool.false_eq_true, if_false]
    by_cases hfree : ((feature.numEmbeds + n : ℕ) : ℤ) ≤ m.numFreeSlots
    · rw [if_pos hfree]
      exact ⟨true, m, rfl, h, .refl m, fun _ => ⟨hbudget, by exact_mod_cast hfree⟩⟩
    · rw [if_neg hfree]
      by_cases hfits : ((feature.numEmbeds + n : ℕ) : ℤ) ≤ m.numFreeableSlots
      · rw [if_neg (by simpa using hfits)]
        obtain ⟨m', hok, haccounted, hevicts, hfits'⟩ := h.evictLoop hfits le_rfl
        refine ⟨true, m', ?_, haccounted, hevicts, fun _ => ⟨hbudget, by exact_mod_cast hfits'⟩⟩
        rw [hok]
        rfl
      · rw [if_pos (by simpa using hfits)]
        exact ⟨false, m, rfl, h, .refl m, by simp⟩
  · rw [if_pos (by simpa using hbudget)]
    exact ⟨false, m, rfl, h, .refl m, by simp⟩

/-- A new entry that fits is allocated. -/
lemma Accounted.allocate (hembeds : feature.numEmbeds = embeds feature.identifier)
    (hnew : feature.identifier ∉ m.cached) (hfits : (feature.numEmbeds : ℤ) ≤ m.numFreeSlots) :
    ∃ m', m.allocate r feature = .ok m' ∧ Accounted embeds m' ∧
      (∀ x, x ∈ m'.cached ↔ x = feature.identifier ∨ x ∈ m.cached) ∧
      m'.numFreeSlots = m.numFreeSlots - feature.numEmbeds := by
  have hlook : m.cached.lookup feature.identifier = none := AList.lookup_eq_none.mpr hnew
  have hslots := h.numFreeSlots
  have hfreeable := h.numFreeableSlots
  have hreclaimable := h.reclaimable
  have hcached := cachedEmbeds_insert_new embeds hlook {r}
  have hother := referencedEmbeds_insert embeds m feature.identifier {r}
  have hreferenced := referencedEmbeds_eq embeds m feature.identifier
  rw [hlook, Option.elim_none, Nat.zero_add] at hreferenced
  rw [if_neg (Finset.singleton_ne_empty r)] at hother
  have hge : m.numFreeableSlots ≥ feature.numEmbeds := by omega
  unfold EncoderCacheManager.allocate
  rw [if_neg (by simp [h.notEncoderDecoder])]
  simp only [hlook, Option.getD_none, insert_empty_eq]
  refine ⟨{ m with
    cached := m.cached.insert feature.identifier {r}
    numFreeSlots := m.numFreeSlots - feature.numEmbeds
    numFreeableSlots := m.numFreeableSlots - feature.numEmbeds }, ?_,
    ⟨h.notEncoderDecoder, Int.sub_nonneg_of_le hfits, ?_, ?_, h.nodup, ?_, ?_⟩,
    fun x => AList.mem_insert _, rfl⟩
  · rw [pyAssert, if_pos (by simpa using hfits), pyAssert, if_pos (by simpa using hge)]
    rfl
  · change m.numFreeSlots - feature.numEmbeds = m.cacheSize - (dictSum (fun x _ => embeds x) _ : ℕ)
    rw [hcached, hslots, hembeds]
    push_cast
    omega
  · change m.numFreeableSlots - feature.numEmbeds = m.cacheSize -
      (dictSum (fun x ids => if ids = ∅ then 0 else embeds x) _ : ℕ)
    rw [hother, hfreeable, hreferenced, hembeds]
    push_cast
    omega
  · intro x n
    by_cases hx : x = feature.identifier
    · subst hx
      have hnot : (feature.identifier, n) ∉ m.freeable := fun hmem => by
        have hcontra := ((h.mem_freeable _ n).mp hmem).1
        simp [hlook] at hcontra
      simp [hnot]
    · rw [AList.lookup_insert_ne hx]
      exact h.mem_freeable x n
  · dsimp only
    omega

end

/-! ## Freeing -/

/-- References were given up, and nothing else changed. -/
structure Releases (m m' : EncoderCacheManager) : Prop where
  cached : ∀ mmHash, mmHash ∈ m'.cached ↔ mmHash ∈ m.cached
  numFreeSlots : m'.numFreeSlots = m.numFreeSlots

lemma Releases.refl (m : EncoderCacheManager) : Releases m m :=
  ⟨fun _ => Iff.rfl, rfl⟩

lemma Releases.trans (h : Releases m m') (h' : Releases m' m'') : Releases m m'' :=
  ⟨fun x => (h'.cached x).trans (h.cached x), h'.numFreeSlots.trans h.numFreeSlots⟩

lemma Accounted.freeEncoderInput (h : Accounted embeds m)
    (hembeds : feature.numEmbeds = embeds feature.identifier) :
    Accounted embeds (m.freeEncoderInput r feature) ∧ Releases m (m.freeEncoderInput r feature) := by
  unfold EncoderCacheManager.freeEncoderInput
  rw [if_neg (by simp [h.notEncoderDecoder])]
  cases hlook : m.cached.lookup feature.identifier with
  | none => exact ⟨h, .refl m⟩
  | some ids =>
    have hcached (ids' : Finset RequestId) (x : String) :
        x ∈ m.cached.insert feature.identifier ids' ↔ x ∈ m.cached := by
      rw [AList.mem_insert]
      refine or_iff_right_of_imp ?_
      rintro rfl
      exact AList.lookup_isSome.mp (by simp [hlook])
    dsimp only
    by_cases hempty : ids = ∅
    · rw [if_pos hempty]
      exact ⟨h, .refl m⟩
    · have hnot : feature.identifier ∉ m.freeable.map Prod.fst :=
        h.not_mem_freeable (by simpa [hlook] using hempty)
      simp only [if_neg hempty]
      by_cases hlast : ids.erase r = ∅
      · rw [if_pos hlast]
        refine ⟨?_, hcached _, rfl⟩
        refine h.setEntry hlook _ (nodup_dictSet h.nodup) (fun x n => ?_) ?_ ?_
        · rw [mem_dictSet]
          split
          · rename_i hx
            subst hx
            simp [hlast, hembeds]
          · rfl
        · simp [hempty, hlast, hembeds]
        · simp [hempty, hlast, hembeds, dictSet_of_not_mem hnot]
      · rw [if_neg hlast]
        refine ⟨?_, hcached _, rfl⟩
        refine h.setEntry hlook _ h.nodup (fun x n => ?_) (by simp [hempty, hlast])
          (by simp [hempty, hlast])
        split
        · rename_i hx
          subst hx
          simp only [hlast, false_and, iff_false]
          exact fun hmem => hnot (mem_map.mpr ⟨_, hmem, rfl⟩)
        · rfl

lemma Accounted.freeInputs (h : Accounted embeds m)
    (hembeds : ∀ feature ∈ mmFeatures, feature.numEmbeds = embeds feature.identifier) (inputIds : List ℕ) :
    Accounted embeds (m.freeInputs r mmFeatures inputIds) ∧
      Releases m (m.freeInputs r mmFeatures inputIds) := by
  have hmem : ∀ feature ∈ inputIds.filterMap (mmFeatures[·]?), feature.numEmbeds = embeds feature.identifier := by
    intro feature hfeature
    obtain ⟨i, -, hi⟩ := mem_filterMap.mp hfeature
    exact hembeds feature (mem_of_getElem? hi)
  unfold EncoderCacheManager.freeInputs
  generalize inputIds.filterMap (mmFeatures[·]?) = features at hmem ⊢
  induction features generalizing m with
  | nil => exact ⟨h, .refl m⟩
  | cons feature features ih =>
    rw [forall_mem_cons] at hmem
    obtain ⟨haccounted, hreleases⟩ := h.freeEncoderInput (r := r) hmem.1
    obtain ⟨haccounted', hreleases'⟩ := ih haccounted hmem.2
    exact ⟨haccounted', hreleases.trans hreleases'⟩

lemma Accounted.free (h : Accounted embeds m)
    (hembeds : ∀ feature ∈ mmFeatures, feature.numEmbeds = embeds feature.identifier) :
    Accounted embeds (m.free r mmFeatures) ∧ Releases m (m.free r mmFeatures) :=
  h.freeInputs hembeds _

lemma Accounted.getFreedMmHashes (h : Accounted embeds m) :
    Accounted embeds m.getFreedMmHashes.2 ∧ Releases m m.getFreedMmHashes.2 := by
  unfold EncoderCacheManager.getFreedMmHashes
  rw [if_neg (by simp [h.notEncoderDecoder])]
  exact ⟨⟨h.notEncoderDecoder, h.nonneg, h.numFreeSlots, h.numFreeableSlots, h.nodup, h.mem_freeable, h.reclaimable⟩,
    fun _ => Iff.rfl, rfl⟩

/-! ## Allocating several inputs -/

/-- The inputs are new and different, and there is room for all of them. -/
structure Fits (embeds : String → ℕ) (m : EncoderCacheManager) (features : List MultiModalFeatureSpec) :
    Prop where
  proper : ∀ feature ∈ features, feature.Proper embeds
  nodup : (features.map (·.identifier)).Nodup
  new : ∀ feature ∈ features, feature.identifier ∉ m.cached
  fits : ((features.map (·.numEmbeds)).sum : ℕ) ≤ m.numFreeSlots

lemma Fits.releases (h : Fits embeds m features) (hreleases : Releases m m') : Fits embeds m' features :=
  ⟨h.proper, h.nodup, fun feature hfeature hmem => h.new feature hfeature ((hreleases.cached _).mp hmem),
    hreleases.numFreeSlots ▸ h.fits⟩

lemma Fits.nil (h : Accounted embeds m) : Fits embeds m [] :=
  ⟨by simp, by simp, by simp, by simpa using h.nonneg⟩

/-- The first of them is allocated, and the others still fit. -/
lemma Accounted.allocate_cons (h : Accounted embeds m) (hfits : Fits embeds m (feature :: features)) :
    ∃ m', m.allocate r feature = .ok m' ∧ Accounted embeds m' ∧ Fits embeds m' features := by
  have hproper := forall_mem_cons.mp hfits.proper
  have hnodup := hfits.nodup
  have hnew := forall_mem_cons.mp hfits.new
  have hroom := hfits.fits
  rw [map_cons, nodup_cons] at hnodup
  rw [map_cons, sum_cons, Nat.cast_add] at hroom
  obtain ⟨m', hok, haccounted, hcached, hslots⟩ :=
    h.allocate (r := r) hproper.1.numEmbeds hnew.1 (by omega)
  refine ⟨m', hok, haccounted, hproper.2, hnodup.2, fun other hother hmem => ?_, by omega⟩
  rcases (hcached _).mp hmem with heq | hmem
  · exact hnodup.1 (mem_map.mpr ⟨other, hother, heq⟩)
  · exact hnew.2 other hother hmem

lemma Accounted.allocateAll {rest : List MultiModalFeatureSpec} (h : Accounted embeds m)
    (hfits : Fits embeds m (features ++ rest)) :
    ∃ m', features.foldlM (fun m feature => m.allocate r feature) m = .ok m' ∧ Accounted embeds m' ∧
      Fits embeds m' rest := by
  induction features generalizing m with
  | nil => exact ⟨m, rfl, h, hfits⟩
  | cons feature features ih =>
    obtain ⟨m₁, hok, haccounted, hrest⟩ := h.allocate_cons (r := r) hfits
    obtain ⟨m', hok', haccounted', hfits'⟩ := ih haccounted hrest
    refine ⟨m', ?_, haccounted', hfits'⟩
    rw [foldlM_cons, hok]
    exact hok'

end EncoderCacheManager

end VllmRuntime
