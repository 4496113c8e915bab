import VllmRuntime.Verification.MultiModal.Processor
import VllmRuntime.Verification.MultiModal.Reference

/-! # The caches of P0 and P1

P0 takes the items of a request modality by modality, P1 takes them in the order of their positions.
When the two orders agree the caches stay the same, and P1 has every item that P0 does not send. -/

namespace VllmRuntime

open List Effect LRUCache Cachetools.Documented

variable {α δ υ : Type} {base : Cachetools String (MultiModalProcessorCacheItemMetadata υ)}
  {base' : Cachetools String δ} {getItemSize : δ → ℕ} {c c₁ : SenderCache υ} {c' : ReceiverCache δ}

lemma LRUCache.Mirrors.foldl_touch {κ ν ν' : Type} [DecidableEq κ] {c : LRUCache κ ν}
    {c' : LRUCache κ ν'} (h : c.Mirrors c') (keys : List κ) :
    (keys.foldl LRUCache.touch c).Mirrors (keys.foldl LRUCache.touch c') := by
  induction keys generalizing c c' with
  | nil => exact h
  | cons key keys ih => exact ih (h.touch key)

section Lockstep

variable (hbase : base.Documented (·.itemSize)) (hbase' : base'.Documented getItemSize)
  {features : List (MultiModalFeature δ)} {processor : InputProcessor}

include hbase hbase'

/-- P1 takes what P0 sends for an item: it has the item if P0 sends none, and stores it in the same
way if P0 sends it. -/
lemma mirrors_getAndUpdateItem {mmItem : Option (δ × List υ)} {mmHash : String} {data : Option δ}
    {updates : List υ} (hmirrors : c.Mirrors c')
    (h : MultiModalProcessorSenderCache.getAndUpdateItem base getItemSize mmItem mmHash c =
      some (.ok (data, updates), c₁)) :
    ∃ item c₁', MultiModalReceiverCache.getAndUpdateItem base' data mmHash c' =
      some (.ok item, c₁') ∧ c₁.Mirrors c₁' := by
  unfold MultiModalProcessorSenderCache.getAndUpdateItem at h
  unfold MultiModalReceiverCache.getAndUpdateItem
  obtain ⟨found, c₂, hget, h⟩ := Effect.bind_eq_ok h
  obtain ⟨found', c₂', hget', hsome, hmirrors₂⟩ :=
    simulates_get hbase hbase' mmHash c c' found c₂ hmirrors hget
  rw [bind_of_ok hget']
  rcases hbase.get_cases c mmHash with ⟨hmissing, hcase⟩ | ⟨value, size, -, hcase⟩ <;>
    rw [hcase] at hget <;> cases hget
  · -- the item is new: P0 has stored its size and sends its data
    obtain rfl : found' = none := by simpa using hsome.symm
    cases mmItem with
    | none =>
      obtain ⟨hresult, -⟩ := throw_eq_some.mp h
      cases hresult
    | some mmItem =>
      obtain ⟨item, itemUpdates⟩ := mmItem
      obtain ⟨_, c₃, hset, h⟩ := Effect.bind_eq_ok h
      obtain ⟨hresult, rfl⟩ := pure_eq_some.mp h
      cases hresult
      obtain ⟨c₃', hset', hmirrors₃⟩ := simulates_setitem hbase hbase' item rfl hmirrors₂ hmissing hset
      exact ⟨item, c₃', bind_of_ok hset', hmirrors₃⟩
  · obtain ⟨item, rfl⟩ := Option.isSome_iff_exists.mp hsome.symm
    obtain ⟨hresult, rfl⟩ := pure_eq_some.mp h
    cases hresult
    exact ⟨item, c₂', rfl, hmirrors₂⟩

/-- P1 goes through the features as P0 went through the items. -/
lemma mirrors_sends {sent : List (String × Option δ)} (hmirrors : c.Mirrors c')
    (h : Sends base getItemSize c sent c₁)
    (hfeatures : features.map (fun feature => (feature.cacheKey, feature.data)) = sent) :
    ∃ received c₁', features.mapM (MultiModalReceiverCache.updateFeature base') c' =
      some (.ok received, c₁') ∧ c₁.Mirrors c₁' := by
  induction h generalizing c' features with
  | nil =>
    obtain rfl := List.map_eq_nil_iff.mp hfeatures
    exact ⟨[], c', rfl, hmirrors⟩
  | @cons c c₁ c₂ mmItem mmHash data updates sent hitem _ ih =>
    obtain ⟨feature, features, rfl, hhead, hrestFeatures⟩ := List.map_eq_cons_iff.mp hfeatures
    cases hhead
    obtain ⟨item, c₁', hitem', hmirrors₁⟩ := mirrors_getAndUpdateItem hbase hbase' hmirrors hitem
    obtain ⟨received, c₂', hrest, hmirrors₂⟩ := ih hmirrors₁ hrestFeatures
    have hfeature : MultiModalReceiverCache.updateFeature base' feature c' =
        some (.ok { feature with data := some item }, c₁') := bind_of_ok hitem'
    refine ⟨{ feature with data := some item } :: received, c₂', ?_, hmirrors₂⟩
    rw [mapM_cons, bind_of_ok hfeature, bind_of_ok hrest]
    rfl

/-- An item is known to P1 under its hash: the empty string is replaced by the identifier, and is
the hash itself unless the identifier carries the name of a LoRA. -/
def ProcessInputsCall.KeyedByHash (processor : InputProcessor) (call : ProcessInputsCall α δ υ) : Prop :=
  "" ∈ call.hashList → processor.getMmIdentifier "" call.loraName = ""

lemma mirrors_request {call : ProcessInputsCall α δ υ} (hmirrors : c.Mirrors c')
    (hpass : call.passthrough = false) (horder : call.InPromptOrder) (hkeys : call.KeyedByHash processor)
    (h : processInputs base getItemSize processor call c = some (.ok features, c₁)) :
    ∃ received c₁', MultiModalReceiverCache.getAndUpdateFeatures base' features c' =
      some (.ok received, c₁') ∧ c₁.Mirrors c₁' := by
  obtain ⟨sent, hsends, hhashes, -, hsent, hidentifier⟩ := processInputs_sends hpass h
  have hsent := hsent horder
  have hcacheKey : ∀ feature ∈ features, feature.cacheKey = feature.mmHash := by
    intro feature hfeature
    have hmem : feature.mmHash ∈ call.hashList := by
      rw [← hhashes, ← hsent, map_map]
      exact mem_map_of_mem hfeature
    unfold MultiModalFeature.cacheKey
    split
    · rename_i hempty
      rw [hidentifier feature hfeature, hempty, hkeys (hempty ▸ hmem)]
    · rfl
  have hpairs : features.map (fun feature => (feature.cacheKey, feature.data)) = sent := by
    rw [← hsent]
    refine map_congr_left fun feature hfeature => ?_
    rw [hcacheKey feature hfeature]
  have htouched : features.map (·.cacheKey) = call.hashList := by
    rw [← hhashes, ← hpairs, map_map]
    rfl
  have htouch : features.foldl (fun cache feature => cache.touch feature.cacheKey) c' =
      call.hashList.foldl LRUCache.touch c' := by
    rw [← htouched, foldl_map]
  obtain ⟨received, c₁', hreceived, hmirrors₁⟩ :=
    mirrors_sends hbase hbase' (hmirrors.foldl_touch call.hashList) hsends hpairs
  refine ⟨received, c₁', ?_, hmirrors₁⟩
  rw [← htouch] at hreceived
  exact hreceived

lemma mirrors_requests {calls : List (ProcessInputsCall α δ υ)} {sent : List (List (MultiModalFeature δ))}
    (hmirrors : c.Mirrors c') (hpass : ∀ call ∈ calls, call.passthrough = false)
    (horder : ∀ call ∈ calls, call.InPromptOrder) (hkeys : ∀ call ∈ calls, call.KeyedByHash processor)
    (h : calls.mapM (processInputs base getItemSize processor) c = some (.ok sent, c₁)) :
    ∃ received c₁', sent.mapM (MultiModalReceiverCache.getAndUpdateFeatures base') c' =
      some (.ok received, c₁') ∧ c₁.Mirrors c₁' := by
  induction calls generalizing c c' sent with
  | nil =>
    obtain ⟨hsent, rfl⟩ := pure_eq_some.mp h
    cases hsent
    exact ⟨[], c', rfl, hmirrors⟩
  | cons call calls ih =>
    rw [mapM_cons] at h
    obtain ⟨features, c₂, hcall, h⟩ := Effect.bind_eq_ok h
    obtain ⟨rest, c₃, hrest, h⟩ := Effect.bind_eq_ok h
    obtain ⟨hsent, rfl⟩ := pure_eq_some.mp h
    cases hsent
    rw [forall_mem_cons] at hpass horder hkeys
    obtain ⟨received, c₂', hreceived, hmirrors₂⟩ :=
      mirrors_request hbase hbase' hmirrors hpass.1 horder.1 hkeys.1 hcall
    obtain ⟨receivedRest, c₃', hreceivedRest, hmirrors₃⟩ :=
      ih hmirrors₂ hpass.2 horder.2 hkeys.2 hrest
    refine ⟨received :: receivedRest, c₃', ?_, hmirrors₃⟩
    rw [mapM_cons, bind_of_ok hreceived, bind_of_ok hreceivedRest]
    rfl

end Lockstep

/-- Two caches of the same capacity stay the same over every sequence of accepted requests whose items
are in the order of the prompt, and P1 has every item that it is not sent. -/
theorem mirrored_of_inPromptOrder (base : Cachetools String (MultiModalProcessorCacheItemMetadata υ))
    (base' : Cachetools String δ) (getItemSize : δ → ℕ) (hbase : base.Documented (·.itemSize))
    (hbase' : base'.Documented getItemSize) (processor : InputProcessor) (capacity : ℚ)
    (calls : List (ProcessInputsCall α δ υ)) (sent : List (List (MultiModalFeature δ)))
    (c₁ : SenderCache υ) (hpass : ∀ call ∈ calls, call.passthrough = false)
    (horder : ∀ call ∈ calls, call.InPromptOrder) (hkeys : ∀ call ∈ calls, call.KeyedByHash processor)
    (h : calls.mapM (processInputs base getItemSize processor) { maxsize := capacity } =
      some (.ok sent, c₁)) :
    ∃ received c₁', sent.mapM (MultiModalReceiverCache.getAndUpdateFeatures base')
        { maxsize := capacity } = some (.ok received, c₁') ∧
      c₁.keys = c₁'.keys ∧ c₁.order = c₁'.order := by
  have hstart : ({ maxsize := capacity } : SenderCache υ).Mirrors
      ({ maxsize := capacity } : ReceiverCache δ) := ⟨rfl, rfl, rfl, rfl, rfl⟩
  obtain ⟨received, c₁', hreceived, hmirrors⟩ :=
    mirrors_requests hbase hbase' hstart hpass horder hkeys h
  exact ⟨received, c₁', hreceived, hmirrors.keys_eq, hmirrors.order⟩

/-! ## Items out of order -/

/-- A request for a model that takes each item as it is: the data is the size of the item, and
`positions` are the offsets of the items by modality. -/
def simpleCall (mmItems : OrderedDict String (List (String × Option ℕ)))
    (positions : OrderedDict String (List PlaceholderRange)) (promptIds : List TokenId)
    (hitems : (mmItems.map Prod.fst).Nodup) (hpositions : (positions.map Prod.fst).Nodup) :
    ProcessInputsCall ℕ ℕ Unit where
  mmItems
  applyHfProcessorMain items := .ok {
    promptIds
    kwargs := items.map fun entry => (entry.1, entry.2.reduceOption)
    promptUpdates := items.map fun entry => (entry.1, entry.2.map fun _ => [()])
    isUpdateApplied := true }
  recomputeCachedPromptUpdate update _ := update
  applyPromptUpdates promptIds _ _ := .ok (promptIds, positions)
  nodup_mmItems := hitems
  nodup_placeholders := by
    rintro _ _ _ _ h
    cases h
    exact hpositions

def demoProcessor : InputProcessor where
  maxModelLen := 8
  vocabSize := 100
  tokenizerMaxTokenId := some 99

/-- An image after a video in the prompt, given before it. -/
def imageAfterVideo : ProcessInputsCall ℕ ℕ Unit :=
  simpleCall [("image", [("a", some 1)]), ("video", [("b", some 1)])]
    [("video", [⟨0, 1, none⟩]), ("image", [⟨1, 1, none⟩])] [7, 7] (by decide) (by decide)

lemma nodup_oneImage (mmHash : String) :
    (([("image", [(mmHash, some 1)])] : OrderedDict String (List (String × Option ℕ))).map Prod.fst).Nodup :=
  nodup_singleton _

lemma nodup_onePosition :
    (([("image", [⟨0, 1, none⟩])] : OrderedDict String (List PlaceholderRange)).map Prod.fst).Nodup :=
  nodup_singleton _

def oneImage (mmHash : String) : ProcessInputsCall ℕ ℕ Unit :=
  simpleCall [("image", [(mmHash, some 1)])] [("image", [⟨0, 1, none⟩])] [7] (nodup_oneImage mmHash)
    nodup_onePosition

def outOfOrderCalls : List (ProcessInputsCall ℕ ℕ Unit) :=
  [imageAfterVideo, oneImage "c", oneImage "b"]

/-- P0 accepts the requests, and P1 takes what it is sent. -/
def exchange (capacity : ℚ) (calls : List (ProcessInputsCall ℕ ℕ Unit)) :
    Option (Except PyError (List (List (MultiModalFeature ℕ))) × SenderCache Unit × ReceiverCache ℕ) :=
  match calls.mapM (processInputs (Cachetools.reference (·.itemSize)) id demoProcessor)
      { maxsize := capacity } with
  | some (.ok sent, c) =>
    (sent.mapM (MultiModalReceiverCache.getAndUpdateFeatures (Cachetools.reference id))
      { maxsize := capacity }).map fun result => (result.1, c, result.2)
  | _ => none

/-- After a request with an image given before a video and standing after it, the caches evict in
different orders. The next image replaces the first image in P0 and the video in P1, and the engine
raises at the next request for the video. -/
theorem exchange_outOfOrderCalls_raises :
    ((exchange 2 [imageAfterVideo]).map fun result => (result.2.1.order, result.2.2.order)) =
        some (["a", "b"], ["b", "a"]) ∧
      ((exchange 2 outOfOrderCalls).map fun result => match result.1 with
        | .error e => some e
        | .ok _ => none) = some (some (expectedCachedItem "b")) := by
  decide +kernel

/-- An image before a video in the prompt, given before it; then two more images. -/
def imageBeforeVideo : ProcessInputsCall ℕ ℕ Unit :=
  simpleCall [("image", [("a", some 1)]), ("video", [("b", some 1)])]
    [("image", [⟨0, 1, none⟩]), ("video", [⟨1, 1, none⟩])] [7, 7] (by decide) (by decide)

def inOrderCalls : List (ProcessInputsCall ℕ ℕ Unit) := [imageBeforeVideo, oneImage "c", oneImage "b"]

lemma exists_of_accepted {ε σ β : Type} {x : Option (Except ε β × σ)}
    (h : (x.bind fun result => result.1.toOption).isSome = true) : ∃ b s, x = some (.ok b, s) := by
  match x, h with
  | some (.ok b, s), _ => exact ⟨b, s, rfl⟩

theorem mirrored_of_inPromptOrder_inOrderCalls :
    ∃ sent c₁, inOrderCalls.mapM (processInputs (Cachetools.reference (·.itemSize)) id demoProcessor)
        { maxsize := 2 } = some (.ok sent, c₁) ∧
      ∃ received c₁', sent.mapM (MultiModalReceiverCache.getAndUpdateFeatures (Cachetools.reference id))
          { maxsize := 2 } = some (.ok received, c₁') ∧
        c₁.keys = c₁'.keys ∧ c₁.order = c₁'.order := by
  obtain ⟨sent, c₁, h⟩ := exists_of_accepted (x := inOrderCalls.mapM
    (processInputs (Cachetools.reference (·.itemSize)) id demoProcessor) { maxsize := 2 })
    (by decide +kernel)
  refine ⟨sent, c₁, h, mirrored_of_inPromptOrder _ _ id Cachetools.documented_reference
    Cachetools.documented_reference demoProcessor 2 inOrderCalls sent c₁ ?_ ?_ ?_ h⟩
  · decide
  · intro call hcall promptIds updates isUpdateApplied promptIds' mmPlaceholders hplaceholders
    simp only [inOrderCalls, mem_cons, not_mem_nil, or_false] at hcall
    rcases hcall with rfl | rfl | rfl <;> cases hplaceholders <;>
      simp [imageBeforeVideo, oneImage, simpleCall, mmIndices, entryAt, List.lookup_cons]
  · intro call hcall _
    simp only [inOrderCalls, mem_cons, not_mem_nil, or_false] at hcall
    rcases hcall with rfl | rfl | rfl <;> rfl

end VllmRuntime
