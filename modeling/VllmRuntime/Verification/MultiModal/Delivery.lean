import VllmRuntime.Verification.MultiModal.Mirror
import VllmRuntime.Shared.Runs

/-! # Items that P1 was sent

Over any sequence of accepted and rejected requests, P0 can leave out an item only if it is in its cache,
and so the keys of the cache should be among the items that P1 was sent. A request that is rejected after
the merge breaks this, unless all its items were sent before. -/

namespace VllmRuntime

open Effect LRUCache Cachetools.Documented

variable {α δ υ : Type} {base : Cachetools String (MultiModalProcessorCacheItemMetadata υ)}
  {getItemSize : δ → ℕ} {processor : InputProcessor} {call : ProcessInputsCall α δ υ}
  {c c' : SenderCache υ}

/-! ## The keys of the sender cache -/

lemma LRUCache.keys_foldl_touch {κ ν β : Type} [DecidableEq κ] (f : β → κ) (c : LRUCache κ ν)
    (xs : List β) : (xs.foldl (fun c x => c.touch (f x)) c).keys = c.keys := by
  induction xs generalizing c with
  | nil => rfl
  | cons x xs ih => exact ih (c.touch (f x))

section Keys

variable (hbase : base.Documented (·.itemSize)) {mmHash : String}

include hbase

/-- Either the item is cached and nothing is sent, or the item is sent and its key is the only new
one. -/
lemma getAndUpdateItem_eq_ok {mmItem : Option (δ × List υ)} {data : Option δ} {updates : List υ}
    (h : MultiModalProcessorSenderCache.getAndUpdateItem base getItemSize mmItem mmHash c =
      some (.ok (data, updates), c')) :
    (data = none ∧ mmHash ∈ c.keys ∧ c'.KeysIn {x | x ∈ c.keys}) ∨
      (data.isSome = true ∧ c'.KeysIn {x | x ∈ c.keys ∨ x = mmHash}) := by
  unfold MultiModalProcessorSenderCache.getAndUpdateItem at h
  obtain ⟨found, c₁, hget, h⟩ := Effect.bind_eq_ok h
  rcases hbase.get_cases c mmHash with ⟨hmissing, hcase⟩ | ⟨value, size, hlookup, hcase⟩ <;>
    rw [hcase] at hget <;> cases hget
  · cases mmItem with
    | none =>
      obtain ⟨hresult, -⟩ := throw_eq_some.mp h
      cases hresult
    | some mmItem =>
      obtain ⟨_, c₂, hset, h⟩ := Effect.bind_eq_ok h
      obtain ⟨hresult, rfl⟩ := pure_eq_some.mp h
      cases hresult
      exact Or.inr ⟨rfl, hbase.keysIn_setitem (Or.inr rfl) (fun x hx => Or.inl hx) hmissing hset⟩
  · obtain ⟨hresult, rfl⟩ := pure_eq_some.mp h
    cases hresult
    exact Or.inl ⟨rfl, key_mem_of_lookup hlookup, fun x hx => hx⟩

/-- The keys after a request are old, or were sent with it; and what is left out is old, or is sent
with it. -/
lemma Sends.keys {sent : List (String × Option δ)} (h : Sends base getItemSize c sent c') :
    c'.KeysIn {x | x ∈ c.keys ∨ ∃ item, (x, some item) ∈ sent} ∧
      ∀ x, (x, none) ∈ sent → x ∈ c.keys ∨ ∃ item, (x, some item) ∈ sent := by
  induction h with
  | nil c => exact ⟨fun x hx => Or.inl hx, by simp⟩
  | @cons c c₁ c₂ mmItem mmHash data updates sent hitem _ ih =>
    obtain ⟨hkeys, hnone⟩ := ih
    -- a key of the cache after the first item is old or was sent with it
    have hold : ∀ x ∈ c₁.keys, x ∈ c.keys ∨ ∃ item, (x, some item) ∈ (mmHash, data) :: sent := by
      intro x hx
      rcases getAndUpdateItem_eq_ok hbase hitem with ⟨-, -, hkeys₁⟩ | ⟨hdata, hkeys₁⟩
      · exact Or.inl (hkeys₁ x hx)
      · rcases hkeys₁ x hx with hx | rfl
        · exact Or.inl hx
        · obtain ⟨item, rfl⟩ := Option.isSome_iff_exists.mp hdata
          exact Or.inr ⟨item, List.mem_cons_self⟩
    have hlift : ∀ x, (x ∈ c₁.keys ∨ ∃ item, (x, some item) ∈ sent) →
        x ∈ c.keys ∨ ∃ item, (x, some item) ∈ (mmHash, data) :: sent := by
      rintro x (hx | ⟨item, hx⟩)
      · exact hold x hx
      · exact Or.inr ⟨item, List.mem_cons_of_mem _ hx⟩
    refine ⟨fun x hx => hlift x (hkeys x hx), fun x hx => ?_⟩
    rcases List.mem_cons.mp hx with heq | hx
    · cases heq
      rcases getAndUpdateItem_eq_ok hbase hitem with ⟨-, hmem, -⟩ | ⟨hdata, -⟩
      · exact Or.inl hmem
      · cases hdata
    · exact hlift x (hnone x hx)

variable {S : Set String}

lemma keeps_keysIn_getAndUpdateItem (hmem : mmHash ∈ S) (mmItem : Option (δ × List υ)) : Keeps (KeysIn S)
      (MultiModalProcessorSenderCache.getAndUpdateItem base getItemSize mmItem mmHash) := by
  intro c out c' hc h
  unfold MultiModalProcessorSenderCache.getAndUpdateItem at h
  rcases hbase.get_cases c mmHash with ⟨hmissing, hcase⟩ | ⟨value, size, -, hcase⟩ <;>
    rw [bind_of_ok hcase] at h
  · cases mmItem with
    | none =>
      obtain ⟨-, rfl⟩ := throw_eq_some.mp h
      exact hc
    | some mmItem =>
      rcases bind_eq_some h with ⟨_, c₁, hset, h⟩ | ⟨e, hset, -⟩
      · obtain ⟨-, rfl⟩ := pure_eq_some.mp h
        exact hbase.keysIn_setitem hmem hc hmissing hset
      · exact hbase.keysIn_setitem hmem hc hmissing hset
  · obtain ⟨-, rfl⟩ := pure_eq_some.mp h
    exact hc

lemma keeps_keysIn_mergeItems (recompute : υ → ℕ → υ) (missingKwargs : List δ)
    (missingPromptUpdates : List (List υ)) {hashes : List (String × Bool)} (itemIdx missingNextIdx : ℕ)
    (hmem : ∀ item ∈ hashes, item.1 ∈ S) : Keeps (KeysIn S) (mergeItems base getItemSize recompute
      missingKwargs missingPromptUpdates hashes itemIdx missingNextIdx) := by
  induction hashes generalizing itemIdx missingNextIdx with
  | nil =>
    rw [mergeItems]
    exact Keeps.pure _
  | cons item hashes ih =>
    rw [List.forall_mem_cons] at hmem
    obtain ⟨itemHash, isCached⟩ := item
    have hitem : ∀ mmItem, Keeps (KeysIn S)
        (MultiModalProcessorSenderCache.getAndUpdateItem base getItemSize mmItem itemHash) :=
      keeps_keysIn_getAndUpdateItem hbase hmem.1
    cases isCached with
    | true =>
      rw [mergeItems]
      exact (hitem none).bind fun _ => (ih _ _ hmem.2).bind fun _ => Keeps.pure _
    | false =>
      rw [mergeItems]
      cases missingKwargs[missingNextIdx]? with
      | none => exact Keeps.throw _
      | some kwargsItem =>
        cases missingPromptUpdates[missingNextIdx]? with
        | none => exact Keeps.throw _
        | some updatesItem =>
          exact (hitem _).bind fun _ => (ih _ _ hmem.2).bind fun _ => Keeps.pure _

lemma keeps_keysIn_mergeModalities (recompute : υ → ℕ → υ) (missing : HFProcessorOutput δ υ)
    {mmHashes : OrderedDict String (List (String × Bool))}
    (hmem : ∀ entry ∈ mmHashes, ∀ item ∈ entry.2, item.1 ∈ S) :
    Keeps (KeysIn S) (mergeModalities base getItemSize recompute missing mmHashes) := by
  induction mmHashes with
  | nil =>
    rw [mergeModalities]
    exact Keeps.pure _
  | cons entry mmHashes ih =>
    rw [List.forall_mem_cons] at hmem
    rw [mergeModalities]
    refine (keeps_keysIn_mergeItems hbase _ _ _ _ _ hmem.1).bind fun _ => (ih hmem.2).bind fun _ => ?_
    dsimp only
    split
    · exact Keeps.pure _
    · exact Keeps.pure _

/-- Whichever way the preprocessing ends, the new keys are hashes of the request. -/
lemma keysIn_cachedApplyHfProcessor {out}
    (h : cachedApplyHfProcessor base getItemSize call c = some (out, c')) :
    c'.KeysIn {x | x ∈ c.keys ∨ x ∈ call.hashList} := by
  have hkeeps : Keeps (KeysIn {x | x ∈ c.keys ∨ x ∈ call.hashList})
      (cachedApplyHfProcessor base getItemSize call) := by
    unfold cachedApplyHfProcessor
    split
    · exact (Keeps.lift _).bind fun _ => Keeps.pure _
    · refine (Keeps.read _).bind fun isCached => (Keeps.lift _).bind fun _ => (Keeps.lift _).bind fun _ => ?_
      refine Keeps.bind ?_ fun _ => Keeps.pure _
      refine Keeps.bind ?_ fun _ => ?_
      · intro c₁ out c₂ hc h
        cases h
        intro x hx
        exact hc x (keys_foldl_touch Prod.fst c₁ _ ▸ hx)
      · apply keeps_keysIn_mergeModalities hbase
        intro entry hentry item hitem
        have hmem : item.1 ∈ call.hashList := by
          have hlist : ((flaggedHashes call isCached).flatMap (·.2)).map Prod.fst = call.hashList :=
            flatMap_flaggedHashes
          rw [← hlist]
          exact List.mem_map_of_mem (List.mem_flatMap.mpr ⟨entry, hentry, hitem⟩)
        exact Or.inr hmem
  exact hkeeps c out c' (fun x hx => Or.inl hx) h

end Keys

/-- The checks after the preprocessing do not change the cache. -/
lemma exists_cachedApplyHfProcessor {out}
    (h : processInputs base getItemSize processor call c = some (out, c')) :
    ∃ output, cachedApplyHfProcessor base getItemSize call c = some (output, c') := by
  have happly : ∃ output, applyProcessor base getItemSize call c = some (output, c') := by
    rw [processInputs] at h
    rcases bind_eq_some h with ⟨result, c₁, happly, h⟩ | ⟨e, happly, -⟩
    · have hkeeps : Keeps (· = c₁) (do
          Effect.lift call.validateRequest
          Effect.lift (processor.validateModelInputs result.1 call.decoderPrompt)
          Effect.lift (flattenFeatures processor call result.2.1 result.2.2)) :=
        (Keeps.lift _).bind fun _ => (Keeps.lift _).bind fun _ => Keeps.lift _
      obtain rfl := hkeeps c₁ _ c' rfl h
      exact ⟨_, happly⟩
    · exact ⟨_, happly⟩
  obtain ⟨output, happly⟩ := happly
  rw [applyProcessor] at happly
  rcases bind_eq_some happly with ⟨result, c₁, hcached, h⟩ | ⟨e, hcached, -⟩
  · have hkeeps : Keeps (· = c₁) (do
        let mmItemCounts := call.mmItems.map fun entry => (entry.1, entry.2.length)
        Effect.lift (validateMmKwargs result.2.1 mmItemCounts)
        Effect.lift (validateMmUpdates result.2.2.1 mmItemCounts)
        let applied ← Effect.lift (call.applyPromptUpdates result.1 result.2.2.1 result.2.2.2)
        Effect.lift (validateMmPlaceholders applied.2 mmItemCounts)
        return (applied.1, result.2.1, applied.2)) :=
      (Keeps.lift _).bind fun _ => (Keeps.lift _).bind fun _ => (Keeps.lift _).bind fun _ =>
        (Keeps.lift _).bind fun _ => Keeps.pure _
    obtain rfl := hkeeps c₁ _ c' rfl h
    exact ⟨_, hcached⟩
  · exact ⟨_, hcached⟩

/-! ## Rejected requests -/

/-- The request goes past the cache, or an item is missing, or the HF processor raises: the cache is not
changed. -/
def ProcessInputsCall.RaisesBeforeMerge (call : ProcessInputsCall α δ υ) (c : SenderCache υ) : Prop :=
  call.passthrough = true ∨
    ∃ e, (call.getCacheMissingItems c.contains >>= call.applyHfProcessorMain) = .error e

lemma eq_of_raisesBeforeMerge {out} (hraises : call.RaisesBeforeMerge c)
    (h : processInputs base getItemSize processor call c = some (out, c')) : c' = c := by
  obtain ⟨output, h⟩ := exists_cachedApplyHfProcessor h
  by_cases hpass : call.passthrough = true
  · rw [cachedApplyHfProcessor, if_pos hpass] at h
    exact Keeps.bind (P := (· = c)) (Keeps.lift _) (fun _ => Keeps.pure _) c _ c' rfl h
  · obtain ⟨e, hraises⟩ := hraises.resolve_left hpass
    rw [cachedApplyHfProcessor, if_neg hpass,
      bind_of_ok (show Effect.read (fun cache mmHash => contains cache mmHash) c = _ from rfl)] at h
    cases hmissing : call.getCacheMissingItems c.contains with
    | error e' =>
      rw [hmissing, bind_of_error (show Effect.lift (.error e') c = _ from rfl)] at h
      cases h
      rfl
    | ok missing =>
      have hprocessor : call.applyHfProcessorMain missing = .error e := by
        rw [hmissing] at hraises
        exact hraises
      rw [hmissing, bind_of_ok (show Effect.lift (.ok missing) c = _ from rfl), hprocessor,
        bind_of_error (show Effect.lift (.error e) c = _ from rfl)] at h
      cases h
      rfl

/-- Items that go past the cache are sent with their data. -/
lemma data_isSome_of_passthrough {features : List (MultiModalFeature δ)}
    (hpass : call.passthrough = true)
    (h : processInputs base getItemSize processor call c = some (.ok features, c')) :
    ∀ feature ∈ features, feature.data.isSome = true := by
  obtain ⟨result, happly, hflatten⟩ := processInputs_eq_ok h
  obtain ⟨output, hcached, hkwargs, -⟩ := applyProcessor_eq_ok happly
  rw [cachedApplyHfProcessor, if_pos hpass] at hcached
  obtain ⟨missing, -, hcached⟩ := lift_bind_eq_ok hcached
  obtain ⟨houtput, -⟩ := pure_eq_some.mp hcached
  cases houtput
  intro feature hfeature
  obtain ⟨item, -, -, hdata, -⟩ := exists_of_forall₂ (flattenFeatures_eq_ok hflatten) hfeature
  rw [← hkwargs, entryAt] at hdata
  have hmem := List.mem_of_getElem? hdata
  cases hlookup : (missing.kwargs.map fun entry => (entry.1, entry.2.map some)).lookup item.1 with
  | none =>
    rw [hlookup] at hmem
    exact absurd hmem List.not_mem_nil
  | some items =>
    rw [hlookup] at hmem
    obtain ⟨entry, -, heq⟩ := List.mem_map.mp (mem_of_lookup hlookup)
    obtain ⟨-, rfl⟩ := Prod.mk.inj heq
    obtain ⟨x, -, hx⟩ := List.mem_map.mp hmem
    rw [← hx]
    rfl

/-! ## Runs -/

/-- The front end: its cache and the requests it has sent to P1, the first one first. -/
structure FrontEnd (δ υ : Type) where
  cache : SenderCache υ
  sent : List (List (MultiModalFeature δ)) := []

/-- P1 was sent the item of this hash with its data. -/
def Delivered (sent : List (List (MultiModalFeature δ))) (mmHash : String) : Prop :=
  ∃ features ∈ sent, ∃ feature ∈ features, feature.mmHash = mmHash ∧ feature.data.isSome = true

namespace FrontEnd

/-- A call of `process_inputs`: the request is sent if the call returns one. -/
def run (base : Cachetools String (MultiModalProcessorCacheItemMetadata υ)) (getItemSize : δ → ℕ)
    (processor : InputProcessor) (call : ProcessInputsCall α δ υ) (s : FrontEnd δ υ) :
    Except Unit (FrontEnd δ υ) :=
  match processInputs base getItemSize processor call s.cache with
  | none => .error ()
  | some (.error _, cache) => .ok { s with cache }
  | some (.ok features, cache) => .ok { cache, sent := s.sent ++ [features] }

/-- A call that raises after the merge has only items that are cached, or that P1 was sent. -/
def KnownIfRaised (base : Cachetools String (MultiModalProcessorCacheItemMetadata υ))
    (getItemSize : δ → ℕ) (processor : InputProcessor) (s : FrontEnd δ υ)
    (call : ProcessInputsCall α δ υ) : Prop :=
  ∀ e cache, processInputs base getItemSize processor call s.cache = some (.error e, cache) →
    call.RaisesBeforeMerge s.cache ∨
      ∀ mmHash ∈ call.hashList, mmHash ∈ s.cache.keys ∨ Delivered s.sent mmHash

/-- P1 was sent every item of the cache, and every item that was left out of a request was sent with
an earlier one or with the same one. -/
structure Sound (s : FrontEnd δ υ) : Prop where
  keys : ∀ mmHash ∈ s.cache.keys, Delivered s.sent mmHash
  leftOut : ∀ before features after, s.sent = before ++ features :: after → ∀ feature ∈ features,
    feature.data = none → Delivered (before ++ [features]) feature.mmHash

end FrontEnd

lemma Delivered.append {sent sent' : List (List (MultiModalFeature δ))} {mmHash : String}
    (h : Delivered sent mmHash) : Delivered (sent ++ sent') mmHash := by
  obtain ⟨features, hfeatures, hmem⟩ := h
  exact ⟨features, List.mem_append_left _ hfeatures, hmem⟩

namespace FrontEnd

variable {s s' : FrontEnd δ υ}

/-- What a request leaves out, and what it leaves in the cache. -/
lemma processInputs_delivers (hbase : base.Documented (·.itemSize))
    {features : List (MultiModalFeature δ)}
    (h : processInputs base getItemSize processor call c = some (.ok features, c')) :
    (∀ x ∈ c'.keys, x ∈ c.keys ∨ ∃ feature ∈ features, feature.mmHash = x ∧ feature.data.isSome) ∧
      ∀ feature ∈ features, feature.data = none → feature.mmHash ∈ c.keys ∨
        ∃ other ∈ features, other.mmHash = feature.mmHash ∧ other.data.isSome := by
  by_cases hpass : call.passthrough = true
  · obtain rfl := eq_of_raisesBeforeMerge (Or.inl hpass) h
    refine ⟨fun x hx => Or.inl hx, fun feature hfeature hnone => ?_⟩
    have hsome := data_isSome_of_passthrough hpass h feature hfeature
    rw [hnone] at hsome
    cases hsome
  · obtain ⟨sent, hsends, -, hperm, -⟩ := processInputs_sends (Bool.eq_false_iff.mpr hpass) h
    obtain ⟨hkeys, hnone⟩ := hsends.keys hbase
    have hsent : ∀ x, (∃ item, (x, some item) ∈ sent) →
        ∃ feature ∈ features, feature.mmHash = x ∧ feature.data.isSome := by
      rintro x ⟨item, hitem⟩
      obtain ⟨feature, hfeature, heq⟩ := List.mem_map.mp (hperm.mem_iff.mpr hitem)
      obtain ⟨hhash, hdata⟩ := Prod.mk.inj heq
      exact ⟨feature, hfeature, hhash, by rw [hdata]; rfl⟩
    have htouch : (call.hashList.foldl LRUCache.touch c).keys = c.keys :=
      keys_foldl_touch id c call.hashList
    rw [htouch] at hkeys hnone
    refine ⟨fun x hx => (hkeys x hx).imp_right (hsent x), fun feature hfeature hdata => ?_⟩
    have hmem : (feature.mmHash, none) ∈ sent := by
      rw [← hperm.mem_iff, ← hdata]
      exact List.mem_map.mpr ⟨feature, hfeature, rfl⟩
    exact (hnone _ hmem).imp_right (hsent _)

lemma Sound.run (hbase : base.Documented (·.itemSize)) (hs : s.Sound)
    (hknown : s.KnownIfRaised base getItemSize processor call)
    (h : s.run base getItemSize processor call = .ok s') : s'.Sound := by
  unfold FrontEnd.run at h
  split at h
  · cases h
  · rename_i e cache hcall
    cases h
    refine ⟨fun mmHash hmem => ?_, hs.leftOut⟩
    rcases hknown e cache hcall with hraises | hdelivered
    · obtain rfl := eq_of_raisesBeforeMerge hraises hcall
      exact hs.keys mmHash hmem
    · obtain ⟨output, hcached⟩ := exists_cachedApplyHfProcessor hcall
      rcases keysIn_cachedApplyHfProcessor hbase hcached mmHash hmem with hold | hnew
      · exact hs.keys mmHash hold
      · exact (hdelivered mmHash hnew).elim (hs.keys mmHash) id
  · rename_i features cache hcall
    cases h
    obtain ⟨hkeys, hleft⟩ := processInputs_delivers hbase hcall
    have hsame : ∀ x, (x ∈ s.cache.keys ∨ ∃ feature ∈ features, feature.mmHash = x ∧
        feature.data.isSome) → Delivered (s.sent ++ [features]) x := by
      rintro x (hx | ⟨feature, hfeature, hx⟩)
      · exact (hs.keys x hx).append
      · exact ⟨features, by simp, feature, hfeature, hx⟩
    refine ⟨fun x hx => hsame x (hkeys x hx), fun before new after hsent feature hfeature hdata => ?_⟩
    -- the request is an earlier one, or the one that was just sent
    rcases List.eq_nil_or_concat after with rfl | ⟨after, last, rfl⟩
    · obtain ⟨rfl, hnew⟩ := List.append_inj' hsent rfl
      obtain rfl := List.singleton_inj.mp hnew
      exact hsame _ (hleft feature hfeature hdata)
    · rw [List.concat_eq_append, ← List.cons_append, ← List.append_assoc] at hsent
      obtain ⟨hsent, -⟩ := List.append_inj' hsent rfl
      exact hs.leftOut before new after hsent feature hfeature hdata

/-- In every run in which a call that raises after the merge has only items that are cached or that P1
was sent, P1 was sent every item that is in the cache or that was left out of a request. -/
theorem sound_of_reaches (base : Cachetools String (MultiModalProcessorCacheItemMetadata υ))
    (getItemSize : δ → ℕ) (hbase : base.Documented (·.itemSize)) (processor : InputProcessor)
    (capacity : ℚ) (s : FrontEnd δ υ)
    (h : Reaches (run (α := α) base getItemSize processor) (KnownIfRaised base getItemSize processor)
      { cache := { maxsize := capacity } } s) : s.Sound := by
  refine h.invariant ?_ fun s call s' hs hknown hrun => hs.run hbase hknown hrun
  exact ⟨fun x hx => absurd hx List.not_mem_nil, by simp⟩

/-! ## A prompt that is too long -/

/-- A prompt of nine tokens with one image, for a model of length eight. -/
def tooLongCall (mmHash : String) : ProcessInputsCall ℕ ℕ Unit :=
  simpleCall [("image", [(mmHash, some 1)])] [("image", [⟨0, 1, none⟩])] (List.replicate 9 7)
    (nodup_oneImage mmHash) nodup_onePosition

def demoRun : ProcessInputsCall ℕ ℕ Unit → FrontEnd ℕ Unit → Except Unit (FrontEnd ℕ Unit) :=
  run (Cachetools.reference (·.itemSize)) id demoProcessor

/-- The image of a rejected request stays in the cache, and is left out of the next request although P1
was sent nothing. -/
theorem tooLongCall_not_sound : ∃ s, [tooLongCall "a", oneImage "a"].foldlM (fun s call => demoRun call s)
    { cache := { maxsize := 2 } } = .ok s ∧
      s.sent.map (·.map fun feature => (feature.mmHash, feature.data)) = [[("a", none)]] ∧ ¬ s.Sound := by
  have heval : (([tooLongCall "a", oneImage "a"].foldlM (fun s call => demoRun call s)
      { cache := { maxsize := 2 } }).toOption.map fun s =>
        s.sent.map (·.map fun feature => (feature.mmHash, feature.data))) = some [[("a", none)]] := by
    decide +kernel
  cases hrun : [tooLongCall "a", oneImage "a"].foldlM (fun s call => demoRun call s)
      { cache := { maxsize := 2 } } with
  | error e =>
    rw [hrun] at heval
    cases heval
  | ok s =>
    rw [hrun] at heval
    have hsent := Option.some.inj heval
    refine ⟨s, rfl, hsent, fun hs => ?_⟩
    obtain ⟨features, hfeatures, hdata⟩ := List.map_eq_singleton_iff.mp hsent
    obtain ⟨feature, rfl, hfeature⟩ := List.map_eq_singleton_iff.mp hdata
    obtain ⟨hhash, hnone⟩ := Prod.mk.inj hfeature
    obtain ⟨other, hother, x, hx, -, hsome⟩ :=
      hs.leftOut [] [feature] [] hfeatures feature List.mem_cons_self hnone
    obtain rfl := List.mem_singleton.mp hother
    obtain rfl := List.mem_singleton.mp hx
    rw [hnone] at hsome
    cases hsome

/-- The items of a call that raises are all cached. -/
def cachedIfRaised (s : FrontEnd ℕ Unit) (call : ProcessInputsCall ℕ ℕ Unit) : Bool :=
  match processInputs (Cachetools.reference (·.itemSize)) id demoProcessor call s.cache with
  | some (.error _, _) => call.hashList.all s.cache.contains
  | _ => true

lemma knownIfRaised_of_cachedIfRaised (s : FrontEnd ℕ Unit) (call : ProcessInputsCall ℕ ℕ Unit)
    (h : cachedIfRaised s call = true) :
    s.KnownIfRaised (Cachetools.reference (·.itemSize)) id demoProcessor call := by
  intro e cache hcall
  rw [cachedIfRaised, hcall] at h
  exact Or.inr fun mmHash hmem => Or.inl (contains_eq_true.mp (List.all_eq_true.mp h mmHash hmem))

theorem sound_of_reaches_acceptedFirst :
    ∃ s, runChecked demoRun cachedIfRaised [oneImage "a", tooLongCall "a", oneImage "a"]
      { cache := { maxsize := 2 } } = some s ∧ s.Sound := by
  have heval : (runChecked demoRun cachedIfRaised [oneImage "a", tooLongCall "a", oneImage "a"]
      { cache := { maxsize := 2 } }).isSome = true := by
    decide +kernel
  obtain ⟨s, hs⟩ := Option.isSome_iff_exists.mp heval
  exact ⟨s, hs, sound_of_reaches _ id Cachetools.documented_reference demoProcessor 2 s
    (Reaches.of_runChecked knownIfRaised_of_cachedIfRaised .start hs)⟩

end FrontEnd

end VllmRuntime
