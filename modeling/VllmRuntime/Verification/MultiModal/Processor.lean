import VllmRuntime.Verification.MultiModal.LRUCache

/-! # What P0 sends

`Sends` follows the items through the sender cache in the order of `mm_hashes`. The request that
`process_inputs` returns holds what was sent, in the order of the positions. -/

namespace VllmRuntime

open List Effect LRUCache

/-! ## Items by modality and index -/

section Items

variable {γ γ' : Type} {items : OrderedDict String (List γ)} {modality : String} {idx : ℕ}

/-- The pairs of a modality and an index, in the order of the dictionary. -/
def mmIndices (items : OrderedDict String (List γ)) : List (String × ℕ) :=
  items.flatMap fun entry => (List.range entry.2.length).map (entry.1, ·)

lemma mem_mmIndices (hnodup : (items.map Prod.fst).Nodup) :
    (modality, idx) ∈ mmIndices items ↔ idx < ((items.lookup modality).getD []).length := by
  rw [mmIndices, mem_flatMap]
  constructor
  · rintro ⟨entry, hentry, hmem⟩
    obtain ⟨i, hi, heq⟩ := mem_map.mp hmem
    cases heq
    rw [lookup_of_mem hnodup hentry]
    exact mem_range.mp hi
  · intro hidx
    cases hlookup : items.lookup modality with
    | none => simp [hlookup] at hidx
    | some list =>
      rw [hlookup] at hidx
      exact ⟨(modality, list), mem_of_lookup hlookup,
        mem_map.mpr ⟨idx, mem_range.mpr hidx, rfl⟩⟩

lemma nodup_mmIndices (hnodup : (items.map Prod.fst).Nodup) : (mmIndices items).Nodup := by
  rw [mmIndices, nodup_flatMap]
  constructor
  · intro entry _
    exact nodup_range.map fun i j hij => (Prod.mk.inj hij).2
  · refine (pairwise_map.mp hnodup).imp ?_
    intro a b hne x hxa hxb
    obtain ⟨i, -, rfl⟩ := mem_map.mp hxa
    obtain ⟨j, -, heq⟩ := mem_map.mp hxb
    exact hne (Prod.mk.inj heq).1.symm

lemma flatItems_map_index (items : OrderedDict String (List γ)) :
    (flatItems items).map (fun item => (item.1, item.2.1)) = mmIndices items := by
  rw [flatItems, mmIndices, map_flatMap]
  refine flatMap_congr fun entry _ => ?_
  rw [map_map]
  apply ext_getElem
  · simp
  · simp

/-- The entry of an index, if there is one. -/
def entryAt (items : OrderedDict String (List γ)) (index : String × ℕ) : Option γ :=
  ((items.lookup index.1).getD [])[index.2]?

lemma itemAt_eq_ok {item : γ} :
    itemAt items modality idx = .ok item ↔ entryAt items (modality, idx) = some item := by
  unfold itemAt entryAt
  cases items.lookup modality with
  | none => simp
  | some list => cases h : list[idx]? <;> simp [h]

lemma entryAt_of_mem_flatItems (hnodup : (items.map Prod.fst).Nodup) {item : String × ℕ × γ}
    (h : item ∈ flatItems items) : entryAt items (item.1, item.2.1) = some item.2.2 := by
  obtain ⟨entry, hentry, hmem⟩ := mem_flatMap.mp h
  obtain ⟨⟨x, i⟩, hx, rfl⟩ := mem_map.mp hmem
  rw [entryAt, lookup_of_mem hnodup hentry]
  exact mem_zipIdx_iff_getElem?.mp hx

end Items

variable {α δ υ : Type} {base : Cachetools String (MultiModalProcessorCacheItemMetadata υ)}
  {getItemSize : δ → ℕ} {c c' : SenderCache υ} {kwargs : OrderedDict String (List (Option δ))}
  {processor : InputProcessor} {features : List (MultiModalFeature δ)}
  {placeholders : OrderedDict String (List PlaceholderRange)}
  {mmHashes : OrderedDict String (List (String × Bool))} {recompute : υ → ℕ → υ}

/-! ## The items that are sent -/

/-- The cache is updated with items one after the other, and these are the results. -/
inductive Sends (base : Cachetools String (MultiModalProcessorCacheItemMetadata υ))
    (getItemSize : δ → ℕ) : SenderCache υ → List (String × Option δ) → SenderCache υ → Prop where
  | nil (c : SenderCache υ) : Sends base getItemSize c [] c
  | cons {c c₁ c₂ : SenderCache υ} {mmItem mmHash data updates sent} :
      MultiModalProcessorSenderCache.getAndUpdateItem base getItemSize mmItem mmHash c =
        some (.ok (data, updates), c₁) →
      Sends base getItemSize c₁ sent c₂ → Sends base getItemSize c ((mmHash, data) :: sent) c₂

lemma Sends.append {c₁ c₂ : SenderCache υ} {sent sent' : List (String × Option δ)}
    (h : Sends base getItemSize c sent c₁) (h' : Sends base getItemSize c₁ sent' c₂) :
    Sends base getItemSize c (sent ++ sent') c₂ := by
  induction h with
  | nil => exact h'
  | cons hitem _ ih => exact .cons hitem (ih h')

lemma mergeItems_sends {missingKwargs : List δ} {missingPromptUpdates : List (List υ)}
    {hashes : List (String × Bool)} {itemIdx missingNextIdx : ℕ} {kwargs : List (Option δ)}
    {updates : List (List υ)}
    (h : mergeItems base getItemSize recompute missingKwargs missingPromptUpdates hashes itemIdx
      missingNextIdx c = some (.ok (kwargs, updates), c')) :
    kwargs.length = hashes.length ∧ Sends base getItemSize c ((hashes.map Prod.fst).zip kwargs) c' := by
  induction hashes generalizing itemIdx missingNextIdx kwargs updates c with
  | nil =>
    rw [mergeItems] at h
    obtain ⟨heq, rfl⟩ := pure_eq_some.mp h
    cases heq
    exact ⟨rfl, .nil _⟩
  | cons item hashes ih =>
    obtain ⟨itemHash, isCached⟩ := item
    cases isCached with
    | true =>
      rw [mergeItems] at h
      obtain ⟨⟨data, itemUpdates⟩, c₁, hitem, h⟩ := Effect.bind_eq_ok h
      obtain ⟨⟨restKwargs, restUpdates⟩, c₂, hrest, h⟩ := Effect.bind_eq_ok h
      obtain ⟨heq, rfl⟩ := pure_eq_some.mp h
      cases heq
      obtain ⟨hlen, hsends⟩ := ih hrest
      exact ⟨congrArg Nat.succ hlen, .cons hitem hsends⟩
    | false =>
      rw [mergeItems] at h
      have hmissing : (∃ item updates, missingKwargs[missingNextIdx]? = some item ∧
          missingPromptUpdates[missingNextIdx]? = some updates) ∨
          (throw .indexError : Effect PyError (SenderCache υ) (List (Option δ) × List (List υ))) c =
            some (.ok (kwargs, updates), c') := by
        revert h
        cases missingKwargs[missingNextIdx]? <;> cases missingPromptUpdates[missingNextIdx]? <;>
          simp
      rcases hmissing with ⟨item, itemUpdates, hitem, hupdates⟩ | h
      · simp only [hitem, hupdates] at h
        obtain ⟨⟨data, itemUpdates⟩, c₁, hitem, h⟩ := Effect.bind_eq_ok h
        obtain ⟨⟨restKwargs, restUpdates⟩, c₂, hrest, h⟩ := Effect.bind_eq_ok h
        obtain ⟨heq, rfl⟩ := pure_eq_some.mp h
        cases heq
        obtain ⟨hlen, hsends⟩ := ih hrest
        exact ⟨congrArg Nat.succ hlen, .cons hitem hsends⟩
      · obtain ⟨heq, -⟩ := throw_eq_some.mp h
        cases heq

/-- The hashes of a dictionary with what is sent for each. -/
def sentItems (mmHashes : OrderedDict String (List (String × Bool)))
    (kwargs : OrderedDict String (List (Option δ))) : List (String × Option δ) :=
  mmHashes.flatMap fun entry => (entry.2.map Prod.fst).zip ((kwargs.lookup entry.1).getD [])

lemma map_fst_sentItems
    (hlen : ∀ entry ∈ mmHashes, ((kwargs.lookup entry.1).getD []).length = entry.2.length) :
    (sentItems mmHashes kwargs).map Prod.fst = (mmHashes.flatMap (·.2)).map Prod.fst := by
  rw [sentItems, map_flatMap, map_flatMap]
  refine flatMap_congr fun entry hentry => ?_
  exact map_fst_zip (by rw [hlen entry hentry, length_map])

lemma mergeModalities_sends {missing : HFProcessorOutput δ υ} {updates : OrderedDict String (List (List υ))}
    (hnodup : (mmHashes.map Prod.fst).Nodup)
    (h : mergeModalities base getItemSize recompute missing mmHashes c =
      some (.ok (kwargs, updates), c')) :
    (∀ modality ∈ kwargs.map Prod.fst, modality ∈ mmHashes.map Prod.fst) ∧
      (∀ entry ∈ mmHashes, ((kwargs.lookup entry.1).getD []).length = entry.2.length) ∧
      Sends base getItemSize c (sentItems mmHashes kwargs) c' := by
  induction mmHashes generalizing kwargs updates c c' with
  | nil =>
    rw [mergeModalities] at h
    obtain ⟨heq, rfl⟩ := pure_eq_some.mp h
    cases heq
    exact ⟨by simp, by simp, .nil _⟩
  | cons entry mmHashes ih =>
    obtain ⟨modality, hashes⟩ := entry
    rw [mergeModalities] at h
    obtain ⟨⟨itemKwargs, itemUpdates⟩, c₁, hitems, h⟩ := Effect.bind_eq_ok h
    obtain ⟨⟨restKwargs, restUpdates⟩, c₂, hrest, h⟩ := Effect.bind_eq_ok h
    rw [map_cons, nodup_cons] at hnodup
    obtain ⟨hmem, hlen, hsends⟩ := ih hnodup.2 hrest
    obtain ⟨hitemLen, hitemSends⟩ := mergeItems_sends hitems
    have hnew : modality ∉ restKwargs.map Prod.fst := fun h => hnodup.1 (hmem modality h)
    have hne : ∀ entry ∈ mmHashes, entry.1 ≠ modality := by
      intro entry hentry heq
      exact hnodup.1 (mem_map.mpr ⟨entry, hentry, heq⟩)
    -- a modality without items has no entry, and then nothing is sent for it
    have hlookup : (kwargs.lookup modality).getD [] = itemKwargs ∧
        (∀ x, x ≠ modality → kwargs.lookup x = restKwargs.lookup x) ∧ c' = c₂ ∧
        ∀ x ∈ kwargs.map Prod.fst, x = modality ∨ x ∈ restKwargs.map Prod.fst := by
      cases hashes with
      | nil =>
        obtain ⟨heq, rfl⟩ := pure_eq_some.mp h
        cases heq
        obtain rfl := length_eq_zero_iff.mp hitemLen
        exact ⟨by rw [lookup_eq_none.mpr hnew]; rfl, fun _ _ => rfl, rfl, fun _ hx => Or.inr hx⟩
      | cons item hashes =>
        obtain ⟨heq, rfl⟩ := pure_eq_some.mp h
        cases heq
        refine ⟨by simp, fun x hx => ?_, rfl, by simp⟩
        rw [lookup_cons, beq_false_of_ne hx]
    obtain ⟨hself, hother, rfl, hkeys⟩ := hlookup
    have hrestSent : sentItems mmHashes kwargs = sentItems mmHashes restKwargs := by
      refine flatMap_congr fun entry hentry => ?_
      rw [hother _ (hne entry hentry)]
    refine ⟨?_, ?_, ?_⟩
    · intro x hx
      rcases hkeys x hx with rfl | hx
      · exact mem_cons_self
      · exact mem_cons_of_mem _ (hmem x hx)
    · intro entry hentry
      rcases mem_cons.mp hentry with rfl | hentry
      · rw [hself, hitemLen]
      · rw [hother _ (hne entry hentry), hlen entry hentry]
    · rw [sentItems, flatMap_cons, hself]
      exact hitemSends.append (by rwa [← sentItems, hrestSent])

/-- The items that are sent, by modality and index. -/
lemma sentItems_eq_map (hnodup : (mmHashes.map Prod.fst).Nodup)
    (hlen : ∀ entry ∈ mmHashes, ((kwargs.lookup entry.1).getD []).length = entry.2.length) :
    sentItems mmHashes kwargs = (mmIndices mmHashes).map fun index =>
      (((entryAt mmHashes index).map Prod.fst).getD "", (entryAt kwargs index).getD none) := by
  rw [sentItems, mmIndices, map_flatMap]
  refine flatMap_congr fun entry hentry => ?_
  have hlookup := lookup_of_mem hnodup hentry
  have hentryLen := hlen entry hentry
  apply ext_getElem
  · simp [hentryLen]
  · intro i hi hi'
    have hi₁ : i < entry.2.length := by simpa using hi'
    have hi₂ : i < ((kwargs.lookup entry.1).getD []).length := by rw [hentryLen]; exact hi₁
    simp [entryAt, hlookup, hi₁, getElem?_eq_getElem hi₂]

/-! ## The request -/

namespace ProcessInputsCall

variable {call : ProcessInputsCall α δ υ}

/-- The hashes of the request in the order in which P0 takes them. -/
def hashList (call : ProcessInputsCall α δ υ) : List String := call.mmItems.flatMap fun entry => entry.2.map (·.1)

/-- The items, taken modality by modality in the order of `mm_hashes`, stand in the prompt one after
the other. -/
def InPromptOrder (call : ProcessInputsCall α δ υ) : Prop :=
  ∀ promptIds updates isUpdateApplied promptIds' mmPlaceholders,
    call.applyPromptUpdates promptIds updates isUpdateApplied = .ok (promptIds', mmPlaceholders) →
    (mmIndices call.mmItems).Pairwise fun a b => ∀ p q, entryAt mmPlaceholders a = some p →
      entryAt mmPlaceholders b = some q → p.offset < q.offset

end ProcessInputsCall

lemma lookup_mmHashes (call : ProcessInputsCall α δ υ) (modality : String) :
    call.mmHashes.lookup modality = (call.mmItems.lookup modality).map fun items => items.map (·.1) :=
  lookup_map_snd call.mmItems (fun _ items => items.map Prod.fst) modality

lemma lt_length_of_entryAt_mmHashes {call : ProcessInputsCall α δ υ} {index : String × ℕ}
    {mmHash : String} (h : entryAt call.mmHashes index = some mmHash) :
    index.2 < ((call.mmItems.lookup index.1).getD []).length := by
  rw [entryAt, lookup_mmHashes] at h
  cases hlookup : call.mmItems.lookup index.1 with
  | none => simp [hlookup] at h
  | some items =>
    rw [hlookup] at h
    have hlt := lt_of_getElem? h
    simpa using hlt

lemma validateCounts_eq_ok {γ : Type} {found : OrderedDict String (List γ)}
    {message : String → ℕ → ℕ → String} {counts : OrderedDict String ℕ} {u : Unit}
    (h : validateCounts found message counts = .ok u) :
    ∀ entry ∈ counts, ((found.lookup entry.1).getD []).length = entry.2 := by
  unfold validateCounts at h
  induction counts with
  | nil => simp
  | cons entry counts ih =>
    rw [forM_cons] at h
    obtain ⟨_, hentry, hrest⟩ := VllmRuntime.bind_eq_ok h
    have hcount : ((found.lookup entry.1).getD []).length = entry.2 := by
      by_contra hne
      simp [hne] at hentry
    intro x hx
    rcases mem_cons.mp hx with rfl | hx
    · exact hcount
    · exact ih hrest x hx

/-- The features of a request, as `argsort_mm_positions` orders them. -/
lemma flattenFeatures_eq_ok {call : ProcessInputsCall α δ υ}
    (h : flattenFeatures processor call kwargs placeholders = .ok features) :
    List.Forall₂ (fun item feature => entryAt call.mmHashes (item.1, item.2.1) = some feature.mmHash ∧
        entryAt kwargs (item.1, item.2.1) = some feature.data ∧
        feature.identifier = processor.getMmIdentifier feature.mmHash call.loraName)
      (argsortMmPositions placeholders) features := by
  refine (mapM_eq_ok h).imp fun item feature hfeature => ?_
  obtain ⟨mmHash, hhash, hfeature⟩ := VllmRuntime.bind_eq_ok hfeature
  obtain ⟨data, hdata, hfeature⟩ := VllmRuntime.bind_eq_ok hfeature
  cases hfeature
  exact ⟨itemAt_eq_ok.mp hhash, itemAt_eq_ok.mp hdata, rfl⟩

/-- Sorting by position leaves the items in place if they are in the order of the prompt. -/
lemma argsortMmPositions_eq {indices : List (String × ℕ)} (hnodup : (placeholders.map Prod.fst).Nodup)
    (hperm : ((argsortMmPositions placeholders).map fun item => (item.1, item.2.1)).Perm indices)
    (horder : indices.Pairwise fun a b => ∀ p q, entryAt placeholders a = some p →
      entryAt placeholders b = some q → p.offset < q.offset) :
    (argsortMmPositions placeholders).map (fun item => (item.1, item.2.1)) = indices := by
  have hentry : ∀ item ∈ argsortMmPositions placeholders,
      entryAt placeholders (item.1, item.2.1) = some item.2.2 := by
    intro item hitem
    exact entryAt_of_mem_flatItems hnodup ((perm_insertionSort _ _).mem_iff.mp hitem)
  have hsorted : ((argsortMmPositions placeholders).map fun item => (item.1, item.2.1)).Pairwise
      fun a b => ∀ p q, entryAt placeholders a = some p → entryAt placeholders b = some q →
        p.offset ≤ q.offset := by
    have hsort : (argsortMmPositions placeholders).Pairwise fun a b => a.2.2.offset ≤ b.2.2.offset :=
      pairwise_insertionSort _ _
    rw [pairwise_map]
    refine hsort.imp_of_mem fun {a b} ha hb hab p q hp hq => ?_
    cases (hentry a ha).symm.trans hp
    cases (hentry b hb).symm.trans hq
    exact hab
  have hle : indices.Pairwise fun a b => ∀ p q, entryAt placeholders a = some p →
      entryAt placeholders b = some q → p.offset ≤ q.offset :=
    horder.imp fun hab p q hp hq => (hab p q hp hq).le
  have hne : ∀ ⦃a⦄, a ∈ indices → ∀ ⦃b⦄, b ∈ indices → a ≠ b → ∀ p q, entryAt placeholders a = some p →
      entryAt placeholders b = some q → p.offset ≠ q.offset := by
    have hsymm : Std.Symm fun a b => ∀ p q, entryAt placeholders a = some p →
        entryAt placeholders b = some q → p.offset ≠ q.offset :=
      ⟨fun a b hab p q hp hq => (hab q p hq hp).symm⟩
    refine List.Pairwise.forall ?_
    exact horder.imp fun hab p q hp hq => (hab p q hp hq).ne
  refine List.Perm.eq_of_pairwise ?_ hsorted hle hperm
  intro a b ha hb hab hba
  have position : ∀ index ∈ indices, ∃ p, entryAt placeholders index = some p := by
    intro index hindex
    obtain ⟨item, hitem, rfl⟩ := mem_map.mp (hperm.mem_iff.mpr hindex)
    exact ⟨_, hentry item hitem⟩
  obtain ⟨p, hp⟩ := position a (hperm.mem_iff.mp ha)
  obtain ⟨q, hq⟩ := position b hb
  by_contra hdiff
  exact hne (hperm.mem_iff.mp ha) hb hdiff p q hp hq (le_antisymm (hab p q hp hq) (hba q p hq hp))

/-- The indices of the placeholders are those of the items, if their numbers are. -/
lemma argsortMmPositions_perm {call : ProcessInputsCall α δ υ}
    (hnodup : (placeholders.map Prod.fst).Nodup) (hcounts : ∀ entry ∈ call.mmItems,
      ((placeholders.lookup entry.1).getD []).length = entry.2.length)
    (h : flattenFeatures processor call kwargs placeholders = .ok features) :
    ((argsortMmPositions placeholders).map fun item => (item.1, item.2.1)).Perm
      (mmIndices call.mmItems) := by
  have hperm : ((argsortMmPositions placeholders).map fun item => (item.1, item.2.1)).Perm
      (mmIndices placeholders) := by
    rw [← flatItems_map_index]
    exact (perm_insertionSort _ _).map _
  refine hperm.trans ?_
  rw [perm_ext_iff_of_nodup (nodup_mmIndices hnodup) (nodup_mmIndices call.nodup_mmItems)]
  rintro ⟨modality, idx⟩
  constructor
  · intro hindex
    obtain ⟨item, hitem, heq⟩ := mem_map.mp (hperm.mem_iff.mpr hindex)
    obtain ⟨feature, -, hhash, -⟩ := exists_of_forall₂ (flattenFeatures_eq_ok h).flip hitem
    cases heq
    rw [mem_mmIndices call.nodup_mmItems]
    exact lt_length_of_entryAt_mmHashes hhash
  · rw [mem_mmIndices call.nodup_mmItems, mem_mmIndices hnodup]
    intro hidx
    cases hlookup : call.mmItems.lookup modality with
    | none => simp [hlookup] at hidx
    | some items =>
      rw [hcounts _ (mem_of_lookup hlookup)]
      rwa [hlookup] at hidx

/-! ## What is sent -/

/-- The hashes with the flags that the cache lookup found. -/
def flaggedHashes (call : ProcessInputsCall α δ υ) (isCached : String → Bool) :
    OrderedDict String (List (String × Bool)) :=
  call.mmHashes.map fun entry => (entry.1, entry.2.map fun mmHash => (mmHash, isCached mmHash))

variable {call : ProcessInputsCall α δ υ} {isCached : String → Bool}

lemma lookup_flaggedHashes (modality : String) : (flaggedHashes call isCached).lookup modality =
    (call.mmHashes.lookup modality).map fun hashes => hashes.map fun h => (h, isCached h) :=
  lookup_map_snd call.mmHashes (fun _ hashes => hashes.map fun h => (h, isCached h)) modality

lemma entryAt_flaggedHashes (index : String × ℕ) :
    (entryAt (flaggedHashes call isCached) index).map Prod.fst = entryAt call.mmHashes index := by
  rw [entryAt, entryAt, lookup_flaggedHashes]
  cases call.mmHashes.lookup index.1 with
  | none => simp
  | some hashes =>
    cases h : hashes[index.2]? <;> simp [h]

lemma map_fst_flaggedHashes :
    (flaggedHashes call isCached).map Prod.fst = call.mmItems.map Prod.fst := by
  simp [flaggedHashes, ProcessInputsCall.mmHashes, Function.comp_def]

lemma mmIndices_flaggedHashes : mmIndices (flaggedHashes call isCached) = mmIndices call.mmItems := by
  simp [mmIndices, flaggedHashes, ProcessInputsCall.mmHashes, flatMap_map]

lemma flatMap_flaggedHashes :
    ((flaggedHashes call isCached).flatMap (·.2)).map Prod.fst = call.hashList := by
  simp [flaggedHashes, ProcessInputsCall.mmHashes, ProcessInputsCall.hashList, flatMap_map,
    map_flatMap, Function.comp_def]

lemma cachedApplyHfProcessor_eq_ok (hpass : call.passthrough = false) {result}
    (h : cachedApplyHfProcessor base getItemSize call c = some (.ok result, c')) :
    ∃ missing, mergeMmKwargs base getItemSize call.recomputeCachedPromptUpdate
      (flaggedHashes call c.contains) missing c = some (.ok (result.2.1, result.2.2.1), c') := by
  rw [cachedApplyHfProcessor, hpass] at h
  obtain ⟨isCached, c₁, hread, h⟩ := Effect.bind_eq_ok h
  cases hread
  obtain ⟨missingItems, -, h⟩ := lift_bind_eq_ok h
  obtain ⟨missing, -, h⟩ := lift_bind_eq_ok h
  obtain ⟨⟨kwargs, updates⟩, c₄, hmerge, h⟩ := Effect.bind_eq_ok h
  obtain ⟨hresult, rfl⟩ := pure_eq_some.mp h
  cases hresult
  exact ⟨missing, hmerge⟩

/-- What `apply` returns has passed the checks of the numbers of items. -/
lemma applyProcessor_eq_ok {result}
    (h : applyProcessor base getItemSize call c = some (.ok result, c')) :
    ∃ output, cachedApplyHfProcessor base getItemSize call c = some (.ok output, c') ∧
      output.2.1 = result.2.1 ∧
      (∃ promptIds, call.applyPromptUpdates output.1 output.2.2.1 output.2.2.2 =
        .ok (promptIds, result.2.2)) ∧
      ∀ entry ∈ call.mmItems, ((result.2.2.lookup entry.1).getD []).length = entry.2.length := by
  rw [applyProcessor] at h
  obtain ⟨⟨promptIds, kwargs, updates, isUpdateApplied⟩, c₁, houtput, h⟩ := Effect.bind_eq_ok h
  obtain ⟨_, -, h⟩ := lift_bind_eq_ok h
  obtain ⟨_, -, h⟩ := lift_bind_eq_ok h
  obtain ⟨⟨promptIds', placeholders⟩, happly, h⟩ := lift_bind_eq_ok h
  obtain ⟨_, hcounts, h⟩ := lift_bind_eq_ok h
  obtain ⟨hresult, rfl⟩ := pure_eq_some.mp h
  cases hresult
  refine ⟨_, houtput, rfl, ⟨promptIds', happly⟩, fun entry hentry => ?_⟩
  exact validateCounts_eq_ok hcounts (entry.1, entry.2.length)
    (mem_map.mpr ⟨entry, hentry, rfl⟩)

lemma processInputs_eq_ok
    (h : processInputs base getItemSize processor call c = some (.ok features, c')) :
    ∃ result, applyProcessor base getItemSize call c = some (.ok result, c') ∧
      flattenFeatures processor call result.2.1 result.2.2 = .ok features := by
  rw [processInputs] at h
  obtain ⟨⟨promptIds, kwargs, placeholders⟩, c₁, happly, h⟩ := Effect.bind_eq_ok h
  obtain ⟨_, -, h⟩ := lift_bind_eq_ok h
  obtain ⟨_, -, h⟩ := lift_bind_eq_ok h
  obtain ⟨hfeatures, rfl⟩ := lift_eq_some.mp h
  exact ⟨_, happly, hfeatures.symm⟩

/-- A feature is sent with the hash and the data of its item. -/
lemma map_features (h : flattenFeatures processor call kwargs placeholders = .ok features) :
    features.map (fun feature => (feature.mmHash, feature.data)) =
      ((argsortMmPositions placeholders).map fun item => (item.1, item.2.1)).map fun index =>
        ((entryAt call.mmHashes index).getD "", (entryAt kwargs index).getD none) := by
  rw [map_map]
  have hfeatures := flattenFeatures_eq_ok h
  clear h
  generalize argsortMmPositions placeholders = items at hfeatures ⊢
  induction hfeatures with
  | nil => rfl
  | cons hfeature _ ih =>
    obtain ⟨hhash, hdata, -⟩ := hfeature
    rw [map_cons, map_cons, ih]
    simp [hhash, hdata]

/-- The request holds what was sent, and in the same order if the items are in the order of the
prompt. -/
lemma processInputs_sends (hpass : call.passthrough = false)
    (h : processInputs base getItemSize processor call c = some (.ok features, c')) :
    ∃ sent, Sends base getItemSize (call.hashList.foldl LRUCache.touch c) sent c' ∧
      sent.map Prod.fst = call.hashList ∧
      (features.map fun feature => (feature.mmHash, feature.data)).Perm sent ∧
      (call.InPromptOrder → features.map (fun feature => (feature.mmHash, feature.data)) = sent) ∧
      ∀ feature ∈ features,
        feature.identifier = processor.getMmIdentifier feature.mmHash call.loraName := by
  obtain ⟨⟨promptIds, kwargs, placeholders⟩, happly, hflatten⟩ := processInputs_eq_ok h
  obtain ⟨output, hcached, rfl, ⟨promptIds', hupdates⟩, hcounts⟩ := applyProcessor_eq_ok happly
  obtain ⟨missing, hmerge⟩ := cachedApplyHfProcessor_eq_ok hpass hcached
  have hnodup : ((flaggedHashes call c.contains).map Prod.fst).Nodup := by
    rw [map_fst_flaggedHashes]
    exact call.nodup_mmItems
  rw [mergeMmKwargs] at hmerge
  obtain ⟨_, c₁, htouch, hmerge⟩ := Effect.bind_eq_ok hmerge
  cases htouch
  obtain ⟨-, hlen, hsends⟩ := mergeModalities_sends hnodup hmerge
  have hsent := sentItems_eq_map hnodup hlen
  simp only [entryAt_flaggedHashes, mmIndices_flaggedHashes] at hsent
  have hperm := argsortMmPositions_perm (call.nodup_placeholders _ _ _ _ hupdates) hcounts hflatten
  have hpairs := map_features hflatten
  refine ⟨sentItems (flaggedHashes call c.contains) output.2.1, ?_, ?_, ?_, ?_, ?_⟩
  · rwa [← flatMap_flaggedHashes, foldl_map]
  · rw [map_fst_sentItems hlen, flatMap_flaggedHashes]
  · rw [hpairs, hsent]
    exact hperm.map _
  · intro horder
    rw [hpairs, hsent, argsortMmPositions_eq (call.nodup_placeholders _ _ _ _ hupdates) hperm
      (horder _ _ _ _ _ hupdates)]
  · intro feature hfeature
    obtain ⟨item, -, -, -, hidentifier⟩ := exists_of_forall₂ (flattenFeatures_eq_ok hflatten) hfeature
    exact hidentifier

end VllmRuntime
