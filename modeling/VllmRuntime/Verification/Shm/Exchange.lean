import VllmRuntime.Verification.Shm.Balance

/-! # Runs of a writer and its readers

Every step keeps the balance of the counts, if the readers skip the right touches. Then no chunk is freed
that is still to be read, and in the end every chunk is free. -/

namespace VllmRuntime

open List

variable {ω υ : Type}

namespace ShmExchange

variable {s : ShmExchange ω υ} {address id : ℕ} {key : String} {s' : ShmExchange ω υ} {mmHash : String}
  {toUpdate : List (String × Option (ω × υ))} {feature : ShmFeature ω} {reader : ℕ}

/-! ## Steps of the writer -/

/-- The writer counts one more for a chunk, and owes the readers one more. -/
lemma Inv.countOnce (h : s.Inv) (hlookup : s.storage.keyIndex.lookup key = some (address, id))
    {request : MergingRequest ω υ} (hrequest : request.Inv s.storage)
    (hself : (request.features.map (featureWeight (address, id))).sum + request.held.count key =
      s.owed (address, id) key + 1)
    (hother : ∀ address' id' key', id' ≠ id → key' ≠ key →
      (request.features.map (featureWeight (address', id'))).sum + request.held.count key' =
        s.owed (address', id') key') :
    ({ s with
      sender := { s.sender with storage := s.storage.incrementWriterFlag id }
      merging := some request } : ShmExchange ω υ).Inv := by
  obtain ⟨hmem, hkey⟩ := h.storage.indexed.key key address id hlookup
  obtain ⟨-, flag, -, -, hflag⟩ := h.storage.indexed.chunk id address hmem
  refine ⟨h.storage.incrementWriterFlag hmem, h.readers, h.readers_pos, h.p0Cache, h.objects, ?_, h.matched,
    h.holds, ?_⟩
  · intro id' address' chunk flag' key' hmem' hchunk hflag' hkey'
    have hflag' := (lookup_dictSet s.storage.writerFlag id id'
      ((s.storage.writerFlag.lookup id).getD 0 + 1)).symm.trans hflag'
    by_cases hid : id' = id
    · subst hid
      obtain ⟨rfl, rfl⟩ := h.storage.key_unique hlookup hmem' hkey'
      rw [if_pos rfl, hflag] at hflag'
      cases hflag'
      have hbalance := h.balance id' address' chunk flag key' hmem hchunk hflag hkey
      change chunk.readerCount + _ + s.storage.nReaders *
        ((request.features.map (featureWeight (address', id'))).sum + request.held.count key') =
          s.storage.nReaders * (flag + 1)
      rw [hself, Nat.mul_add, Nat.mul_add]
      dsimp only
      omega
    · rw [if_neg hid] at hflag'
      have hkeyNe : key' ≠ key := by
        rintro rfl
        have hlookup' := h.storage.keyIndex_of_idIndex hmem' hkey'
        rw [hlookup] at hlookup'
        exact hid (Prod.mk.inj (Option.some.inj hlookup')).2.symm
      change chunk.readerCount + _ + s.storage.nReaders *
        ((request.features.map (featureWeight (address', id'))).sum + request.held.count key') = _
      rw [hother address' id' key' hid hkeyNe]
      exact h.balance id' address' chunk flag' key' hmem' hchunk hflag' hkey'
  · intro request' heq
    cases heq
    exact ⟨hrequest.touchFirst, hrequest.missing, hrequest.held, hrequest.known, hrequest.features⟩

/-- The request changes, and the writer owes what it owed. -/
lemma Inv.setMerging (h : s.Inv) {request : MergingRequest ω υ} (hrequest : request.Inv s.storage)
    (howed : ∀ location key, (request.features.map (featureWeight location)).sum + request.held.count key =
      s.owed location key) :
    ({ s with merging := some request } : ShmExchange ω υ).Inv := by
  refine ⟨h.storage, h.readers, h.readers_pos, h.p0Cache, h.objects, ?_, h.matched, h.holds, ?_⟩
  · intro id address chunk flag key hmem hchunk hflag hkey
    have hbalance := h.balance id address chunk flag key hmem hchunk hflag hkey
    rw [← howed] at hbalance
    exact hbalance
  · intro request' heq
    cases heq
    exact hrequest

lemma Inv.request {items : List (String × ω × υ)} (h : s.Inv) (hrun : s.request items = .ok s') :
    s'.Inv := by
  unfold ShmExchange.request at hrun
  cases hmerging : s.merging with
  | some request =>
    rw [hmerging] at hrun
    cases hrun
  | none =>
    rw [hmerging] at hrun
    cases hrun
    refine h.setMerging ⟨fun _ => rfl, fun _ _ => rfl, ?_, ?_, fun _ hmem => absurd hmem not_mem_nil⟩ ?_
    · intro key address id hlookup
      have hmap : (items.map fun item =>
          (item.1, if s.storage.isCached item.1 then none else some item.2)).map Prod.fst =
            items.map (·.1) := by
        rw [map_map]
        rfl
      change 0 + (items.map (·.1)).count key = (_ : List String).count key
      rw [hmap, Nat.zero_add]
    · intro key hmem
      obtain ⟨item, -, heq⟩ := mem_map.mp hmem
      obtain ⟨rfl, hnone⟩ := Prod.mk.inj heq
      by_contra hnot
      rw [if_neg hnot] at hnone
      cases hnone
    · intro location key
      rw [owed, hmerging]
      rfl

lemma Inv.touch (h : s.Inv) (hrun : s.touch = .ok s') : s'.Inv := by
  unfold ShmExchange.touch at hrun
  cases hmerging : s.merging with
  | none =>
    rw [hmerging] at hrun
    cases hrun
  | some request =>
    rw [hmerging] at hrun
    dsimp only at hrun
    have hrequest := h.merging request hmerging
    cases htouch : request.toTouch with
    | nil =>
      rw [htouch] at hrun
      cases hrun
    | cons mmHash toTouch =>
      rw [htouch] at hrun
      have hfeatures : request.features = [] := hrequest.touchFirst (by rw [htouch]; exact cons_ne_nil _ _)
      have hstores : ∀ address id, request.stores address id = false := by
        intro address id
        rw [MergingRequest.stores, hfeatures]
        rfl
      have hcount := hrequest.held
      simp only [htouch, hstores, Bool.false_eq_true, if_false] at hcount
      cases hrun
      unfold ShmStorage.touch
      cases hlookup : s.storage.keyIndex.lookup mmHash with
      | none =>
        have hnew : s.storage.isCached mmHash = false := by
          rw [ShmStorage.isCached, hlookup]
          rfl
        rw [hnew]
        refine h.setMerging ⟨fun _ => hfeatures, hrequest.missing, ?_, hrequest.known,
          hrequest.features⟩ fun location key => ?_
        · intro key address id hkey
          have hne : mmHash ≠ key := by
            rintro rfl
            rw [hlookup] at hkey
            cases hkey
          have hcount := hcount key address id hkey
          rw [count_cons_of_ne hne] at hcount
          change request.held.count key + toTouch.count key = if request.stores address id then 0 else _
          rw [hstores, if_neg Bool.false_ne_true]
          exact hcount
        · rw [owed, hmerging]
          rfl
      | some location =>
        obtain ⟨address, id⟩ := location
        have hcached : s.storage.isCached mmHash = true :=
          ShmStorage.isCached_iff.mpr ⟨address, id, hlookup⟩
        rw [hcached, if_pos rfl]
        refine h.countOnce hlookup ⟨fun _ => hfeatures, ?_, ?_, hrequest.known, hrequest.features⟩ ?_ ?_
        · intro key hnew
          have hne : mmHash ≠ key := by
            rintro rfl
            rw [hcached] at hnew
            cases hnew
          rw [count_cons_of_ne hne]
          exact hrequest.missing key hnew
        · intro key address' id' hkey
          have hcount := hcount key address' id' hkey
          change (mmHash :: request.held).count key + toTouch.count key =
            if request.stores address' id' then 0 else _
          rw [hstores, if_neg Bool.false_ne_true, ← hcount, count_cons, count_cons]
          omega
        · rw [owed, hmerging, count_cons_self]
          rfl
        · intro address' id' key' _ hkeyNe
          rw [owed, hmerging, count_cons_of_ne hkeyNe.symm]

/-- The request after the update of its next item. -/
def afterUpdate (request : MergingRequest ω υ) (mmHash : String)
    (toUpdate : List (String × Option (ω × υ))) (feature : ShmFeature ω) : MergingRequest ω υ :=
  { request with
    toUpdate
    held := request.held.erase mmHash
    features := request.features ++ [feature] }

lemma stores_afterUpdate {request : MergingRequest ω υ} :
    (afterUpdate request mmHash toUpdate feature).stores address id =
      (request.stores address id || (feature.data.isAt address id && feature.fresh)) := by
  simp [MergingRequest.stores, afterUpdate]

lemma sum_featureWeight_afterUpdate {request : MergingRequest ω υ} {location : ℕ × ℕ} :
    ((afterUpdate request mmHash toUpdate feature).features.map (featureWeight location)).sum =
      (request.features.map (featureWeight location)).sum + featureWeight location feature := by
  simp [afterUpdate]

lemma isAt_address_of_ne {a i : ℕ} (h : id ≠ i) :
    (ShmItem.address a i : ShmItem ω).isAt address id = false := by
  simp [ShmItem.isAt, h.symm]

section Update

variable {request : MergingRequest ω υ} {mmItem : Option (ω × υ)}
  {toUpdate : List (String × Option (ω × υ))} {storage' storage : ShmStorage ω} {value : ω} {location : ℕ × ℕ}
  {feature : ShmFeature ω}

/-- The next item is cached: its chunk is handed out once more. -/
lemma Inv.updateCached (h : s.Inv) (hmerging : s.merging = some request)
    (hphase : request.toTouch = []) (hupdate : request.toUpdate = (key, mmItem) :: toUpdate)
    (hlookup : s.storage.keyIndex.lookup key = some (address, id)) :
    ({ s with
      sender := { s.sender with storage := s.storage.incrementWriterFlag id }
      merging := some (afterUpdate request key toUpdate
        (newFeature request s.ring true key (.address address id))) } : ShmExchange ω υ).Inv := by
  obtain ⟨hmem, hkey⟩ := h.storage.indexed.key key address id hlookup
  obtain ⟨chunk, hchunk, -⟩ := h.storage.ring.accessBuf hmem
  have hrequest := h.merging request hmerging
  have hfresh : (newFeature request s.ring true key (.address address id)).fresh =
      request.stores address id := rfl
  have hself : (newFeature request s.ring true key (.address address id)).data.isAt address id = true :=
    isAt_iff.mpr rfl
  have hheld := hrequest.held key address id hlookup
  rw [hphase, hupdate, map_cons, count_nil, count_cons_self] at hheld
  have herase : (request.held.erase key).count key = request.held.count key - 1 :=
    count_erase_self
  refine h.countOnce hlookup ⟨fun hne => absurd hphase hne, ?_, ?_, ?_, ?_⟩ ?_ ?_
  · intro key' hnew
    have hle : (request.held.erase key).count key' ≤ request.held.count key' :=
      (erase_sublist).count_le key'
    have hzero := hrequest.missing key' hnew
    change (request.held.erase key).count key' = 0
    omega
  · intro key' address' id' hlookup'
    change (request.held.erase key).count key' + request.toTouch.count key' = _
    rw [stores_afterUpdate, hphase, count_nil]
    by_cases hne : key' = key
    · subst hne
      rw [hlookup] at hlookup'
      cases hlookup'
      rw [hself, hfresh, Bool.true_and, Bool.or_self, herase]
      split at hheld
      · rw [if_pos ‹_›]
        omega
      · rw [if_neg ‹_›]
        change _ = (toUpdate.map Prod.fst).count key'
        omega
    · have hid : id' ≠ id := by
        rintro rfl
        obtain ⟨hmem', hkey'⟩ := h.storage.indexed.key key' address' id' hlookup'
        exact hne (h.storage.key_unique hlookup hmem' hkey').2
      have hother := hrequest.held key' address' id' hlookup'
      rw [hphase, hupdate, map_cons, count_cons_of_ne (Ne.symm hne), count_nil] at hother
      have hat : (newFeature request s.ring true key (.address address id)).data.isAt address' id' =
        false := isAt_address_of_ne hid
      rw [hat, Bool.false_and, Bool.or_false, count_erase_of_ne hne]
      exact hother
  · intro key' hknown
    exact hrequest.known key' (by rw [hupdate]; exact mem_cons_of_mem _ hknown)
  · intro feature hfeature
    rcases mem_append.mp hfeature with hfeature | hfeature
    · exact hrequest.features feature hfeature
    · obtain rfl := mem_singleton.mp hfeature
      intro address' id' hdata
      obtain ⟨rfl, rfl⟩ := ShmItem.address.inj hdata
      obtain ⟨object, hobject⟩ := Option.isSome_iff_exists.mp (h.objects id address chunk hmem hchunk)
      refine ⟨hmem, chunk, object, hchunk, hobject, ?_⟩
      change (s.ring.accessBuf address).bind (·.object) = some object
      rw [hchunk]
      exact hobject
  · rw [sum_featureWeight_afterUpdate, owed, hmerging, featureWeight, if_pos hself, hfresh]
    change _ + (request.held.erase key).count key = _
    rw [herase]
    dsimp only
    split at hheld
    · rw [if_pos ‹_›]
      omega
    · rw [if_neg ‹_›]
      omega
  · intro address' id' key' hid hne
    rw [sum_featureWeight_afterUpdate, owed, hmerging,
      featureWeight_eq_zero (isAt_address_of_ne hid)]
    change _ + (request.held.erase key).count key' = _
    rw [count_erase_of_ne hne]
    rfl

/-- The next item is sent itself. -/
lemma Inv.updateInline (h : s.Inv) (hmerging : s.merging = some request)
    (hphase : request.toTouch = []) (hupdate : request.toUpdate = (key, mmItem) :: toUpdate)
    (hnew : s.storage.isCached key = false) (item : ω) :
    ({ s with merging := some (afterUpdate request key toUpdate
      (newFeature request s.ring false key (.item item))) } : ShmExchange ω υ).Inv := by
  have hrequest := h.merging request hmerging
  have herase : request.held.erase key = request.held :=
    erase_of_not_mem (count_eq_zero.mp (hrequest.missing key hnew))
  refine h.setMerging ⟨fun hne => absurd hphase hne, ?_, ?_, ?_, ?_⟩ ?_
  · intro key' hnew'
    change (request.held.erase key).count key' = 0
    rw [herase]
    exact hrequest.missing key' hnew'
  · intro key' address id hlookup
    have hne : key' ≠ key := by
      rintro rfl
      rw [ShmStorage.isCached_iff.mpr ⟨address, id, hlookup⟩] at hnew
      cases hnew
    have hheld := hrequest.held key' address id hlookup
    rw [hupdate, map_cons, count_cons_of_ne (Ne.symm hne)] at hheld
    change (request.held.erase key).count key' + request.toTouch.count key' = _
    rw [stores_afterUpdate, herase]
    change _ = if request.stores address id || (false && true) then 0 else _
    rw [Bool.false_and, Bool.or_false]
    exact hheld
  · intro key' hknown
    exact hrequest.known key' (by rw [hupdate]; exact mem_cons_of_mem _ hknown)
  · intro feature hfeature
    rcases mem_append.mp hfeature with hfeature | hfeature
    · exact hrequest.features feature hfeature
    · obtain rfl := mem_singleton.mp hfeature
      intro address id hdata
      cases hdata
  · intro location key'
    rw [sum_featureWeight_afterUpdate, owed, hmerging]
    change _ + 0 + (request.held.erase key).count key' = _
    rw [herase]
    rfl

/-- The chunks of the features are still stored when a chunk is added. -/
lemma Holds.adds (h : Holds storage.ring feature) (hadds : storage.Adds key value location storage') :
    Holds storage'.ring feature := by
  intro address id hdata
  obtain ⟨hmem, chunk, object, hchunk, hobject⟩ := h address id hdata
  obtain ⟨-, haccess, -, -⟩ := hadds.old id address hmem
  exact ⟨by rw [hadds.metadata]; exact mem_append_left _ hmem, chunk, object,
    haccess.trans hchunk, hobject⟩

/-- No feature is at the location of a new chunk. -/
lemma isAt_new (h : Holds storage.ring feature) (hadds : storage.Adds key value location storage') :
    feature.data.isAt location.1 location.2 = false := by
  by_contra hat
  rw [Bool.not_eq_false, isAt_iff] at hat
  obtain ⟨hmem, -⟩ := h location.1 location.2 hat
  exact (hadds.old location.2 location.1 hmem).1 rfl

lemma isCached_adds (hadds : storage.Adds key value location storage') (key' : String) :
    storage'.isCached key' = true ↔ key' = key ∨ storage.isCached key' = true := by
  unfold ShmStorage.isCached
  rw [hadds.keyIndex key']
  by_cases hne : key' = key
  · simp [hne]
  · simp [hne]

/-- The next item is stored in a new chunk. -/
lemma Inv.updateStored (h : s.Inv) (hmerging : s.merging = some request) (hphase : request.toTouch = [])
    (hupdate : request.toUpdate = (key, mmItem) :: toUpdate) (hnew : s.storage.isCached key = false)
    (hadds : s.storage.Adds key value (address, id) storage') {p0Cache : OrderedDict String υ}
    (hp0Cache : ∀ key', storage'.isCached key' = true → (p0Cache.lookup key').isSome = true) :
    ({ s with
      sender := { storage := storage', p0Cache }
      merging := some (afterUpdate request key toUpdate
        (newFeature request storage'.ring false key (.address address id))) } : ShmExchange ω υ).Inv := by
  have hrequest := h.merging request hmerging
  have herase : request.held.erase key = request.held :=
    erase_of_not_mem (count_eq_zero.mp (hrequest.missing key hnew))
  have hmem : ∀ id' address', (id', address') ∈ storage'.ring.metadata →
      (id', address') ∈ s.ring.metadata ∨ id' = id ∧ address' = address := by
    intro id' address' hmem
    rw [hadds.metadata] at hmem
    refine (mem_append.mp hmem).imp_right fun hlast => ?_
    exact Prod.mk.inj (mem_singleton.mp hlast)
  obtain ⟨newChunk, hnewChunk, hcount, hobject⟩ := hadds.chunk
  refine ⟨hadds.inv, h.readers.trans hadds.nReaders.symm, hadds.nReaders.symm ▸ h.readers_pos, hp0Cache,
    ?_, ?_, h.matched, fun queue hqueue op hop => Holds.adds (h.holds queue hqueue op hop) hadds, ?_⟩
  · intro id' address' chunk hmem' hchunk
    rcases hmem id' address' hmem' with hold | ⟨rfl, rfl⟩
    · exact h.objects id' address' chunk hold ((hadds.old id' address' hold).2.1.symm.trans hchunk)
    · cases hnewChunk.symm.trans hchunk
      rw [hobject]
      rfl
  · intro id' address' chunk flag' key' hmem' hchunk hflag hkey
    change chunk.readerCount + (s.queues.map (pending (address', id'))).sum + storage'.nReaders *
      (((afterUpdate request key toUpdate (newFeature request storage'.ring false key
        (.address address id))).features.map (featureWeight (address', id'))).sum +
          (request.held.erase key).count key') = storage'.nReaders * flag'
    rw [sum_featureWeight_afterUpdate, herase, hadds.nReaders]
    rcases hmem id' address' hmem' with hold | ⟨rfl, rfl⟩
    · obtain ⟨hid, haccess, hidIndex, hwriterFlag⟩ := hadds.old id' address' hold
      rw [featureWeight_eq_zero (isAt_address_of_ne hid), Nat.add_zero]
      have hbalance := h.balance id' address' chunk flag' key' hold (haccess.symm.trans hchunk)
        (hwriterFlag.symm.trans hflag) (hidIndex.symm.trans hkey)
      rw [owed, hmerging] at hbalance
      exact hbalance
    · -- nothing was counted for the new chunk but its own feature
      cases hnewChunk.symm.trans hchunk
      cases hadds.newFlag.symm.trans hflag
      cases hadds.newId.symm.trans hkey
      have hqueues : (s.queues.map (pending (address', id'))).sum = 0 := by
        refine sum_eq_zero fun n hn => ?_
        obtain ⟨queue, hqueue, rfl⟩ := mem_map.mp hn
        exact pending_eq_zero fun op hop => isAt_new (h.holds queue hqueue op hop) hadds
      have hfeatures : (request.features.map (featureWeight (address', id'))).sum = 0 := by
        refine sum_eq_zero fun n hn => ?_
        obtain ⟨feature, hfeature, rfl⟩ := mem_map.mp hn
        exact featureWeight_eq_zero (isAt_new (hrequest.features feature hfeature) hadds)
      have hself : featureWeight (address', id') (newFeature request storage'.ring false key
          (.address address' id')) = 1 :=
        if_pos (isAt_iff.mpr rfl)
      rw [hqueues, hfeatures, hself, hrequest.missing key hnew, hcount]
      omega
  · intro request' heq
    cases heq
    refine ⟨fun hne => absurd hphase hne, ?_, ?_, ?_, ?_⟩
    · intro key' hmissing
      change (request.held.erase key).count key' = 0
      rw [herase]
      refine hrequest.missing key' ?_
      by_contra hcached
      rw [(isCached_adds hadds key').mpr (Or.inr (by simpa using hcached))] at hmissing
      cases hmissing
    · intro key' address' id' hlookup
      change (request.held.erase key).count key' + request.toTouch.count key' = _
      rw [stores_afterUpdate, herase]
      rw [hadds.keyIndex] at hlookup
      split at hlookup
      · rename_i heq
        subst heq
        cases hlookup
        have hself : (newFeature request storage'.ring false key' (.address address id)).data.isAt
            address id = true := isAt_iff.mpr rfl
        rw [hself, hrequest.missing key' hnew, hphase]
        change 0 = if request.stores address id || (true && true) then 0 else _
        rw [Bool.and_self, Bool.or_true, if_pos rfl]
      · rename_i hne
        have hold := (h.storage.indexed.key key' address' id' hlookup).1
        have hat : (newFeature request storage'.ring false key (.address address id)).data.isAt address' id' =
          false := isAt_address_of_ne (hadds.old id' address' hold).1
        have hheld := hrequest.held key' address' id' hlookup
        rw [hupdate, map_cons, count_cons_of_ne (Ne.symm hne)] at hheld
        rw [hat, Bool.false_and, Bool.or_false]
        exact hheld
    · intro key' hknown
      exact (isCached_adds hadds key').mpr (Or.inr
        (hrequest.known key' (by rw [hupdate]; exact mem_cons_of_mem _ hknown)))
    · intro feature hfeature
      rcases mem_append.mp hfeature with hfeature | hfeature
      · exact Holds.adds (hrequest.features feature hfeature) hadds
      · obtain rfl := mem_singleton.mp hfeature
        intro address' id' hdata
        obtain ⟨rfl, rfl⟩ := ShmItem.address.inj hdata
        refine ⟨by rw [hadds.metadata]; simp, newChunk, value, hnewChunk, hobject, ?_⟩
        change (storage'.ring.accessBuf address).bind (·.object) = some value
        rw [hnewChunk]
        exact hobject

/-- The sender's own entries, when an item is stored. -/
lemma p0Cache_stored {sender : ShmSender ω υ} (h : ∀ key', key' ≠ key → storage'.isCached key' = true →
      (sender.p0Cache.lookup key').isSome = true) (dangling : Prop) [Decidable dangling] (updates : υ)
    (key' : String) (hcached : storage'.isCached key' = true) :
    ((dictSet (if dangling then { sender with storage := storage' }.removeDanglingItems
      else { sender with storage := storage' }).p0Cache key updates).lookup key').isSome = true := by
  rw [lookup_dictSet]
  by_cases hne : key' = key
  · rw [if_pos hne]
    rfl
  · rw [if_neg hne]
    split
    · change ((sender.p0Cache.filter fun entry => storage'.isCached entry.1).lookup key').isSome = true
      rw [lookup_filter_fst, hcached]
      exact h key' hne hcached
    · exact h key' hne hcached

lemma Inv.update (serializedSize : ω → ℕ) (h : s.Inv) (hfew : s.ring.metadata.length + 1 < ShmRing.idMax)
    (hrun : s.update serializedSize = .ok s') :
    s'.Inv := by
  unfold ShmExchange.update at hrun
  cases hmerging : s.merging with
  | none =>
    rw [hmerging] at hrun
    cases hrun
  | some request =>
    rw [hmerging] at hrun
    dsimp only at hrun
    split at hrun
    case h_2 => cases hrun
    rename_i mmHash mmItem toUpdate hphase hupdate
    have hphase' : ∀ request, s.merging = some request → request.toTouch = [] := by
      intro request' hrequest'
      rw [hmerging] at hrequest'
      rwa [← Option.some.inj hrequest']
    unfold ShmSender.getAndUpdateItem at hrun
    cases hcached : s.sender.storage.isCached mmHash with
    | true =>
      obtain ⟨address, id, hlookup⟩ := ShmStorage.isCached_iff.mp hcached
      have hget : s.sender.storage.getCached mmHash =
          (.ok (address, id), s.sender.storage.incrementWriterFlag id) := by
        rw [ShmStorage.getCached, hlookup]
      obtain ⟨updates, hupdates⟩ := Option.isSome_iff_exists.mp (h.p0Cache mmHash hcached)
      rw [hcached, if_pos rfl, hget] at hrun
      dsimp only at hrun
      rw [hupdates] at hrun
      cases hrun
      exact h.updateCached hmerging hphase hupdate hlookup
    | false =>
      rw [hcached, if_neg Bool.false_ne_true] at hrun
      cases mmItem with
      | none => cases hrun
      | some pair =>
        obtain ⟨item, updates⟩ := pair
        dsimp only at hrun
        rcases ShmStorage.put_spec serializedSize h.storage hcached hfew item with
          ⟨e, storage', hput, hraised⟩ | ⟨⟨address, id⟩, storage₁, storage', hput, hshrinks, hnew, hadds⟩
        · rw [hput] at hrun
          have hinline : ∀ {s' : ShmExchange ω υ}, s.storage.Shrinks storage' →
              s' = { s with
                sender := { s.sender with storage := storage' }
                merging := some (afterUpdate request mmHash toUpdate
                  (newFeature request storage'.ring false mmHash (.item item))) } → s'.Inv := by
            rintro - hshrinks rfl
            exact (h.shrinks hshrinks hphase').updateInline hmerging hphase hupdate
              (hshrinks.isCached h.storage hcached) item
          cases e with
          | valueError message | memoryError message =>
            exact hinline (hraised.resolve_right (by simp)) (Except.ok.inj hrun).symm
          | _ => cases hrun
        · rw [hput] at hrun
          dsimp only at hrun
          cases hrun
          have hp0Cache : ∀ key', key' ≠ mmHash → storage'.isCached key' = true →
              (s.sender.p0Cache.lookup key').isSome = true := by
            intro key' hne hstored
            have hleft := ((isCached_adds hadds key').mp hstored).resolve_left hne
            exact (h.shrinks hshrinks hphase').p0Cache key' hleft
          have hinv := (h.shrinks hshrinks hphase').updateStored hmerging hphase hupdate hnew hadds
            (p0Cache_stored hp0Cache (2 * storage'.keyIndex.length ≤ s.sender.p0Cache.length) updates)
          split
          · rw [if_pos ‹_›] at hinv
            exact hinv
          · rw [if_neg ‹_›] at hinv
            exact hinv

end Update

/-- The request goes to the readers, who have to count what the writer has counted. -/
lemma Inv.send (h : s.Inv) (hrun : s.send = .ok s') : s'.Inv := by
  unfold ShmExchange.send at hrun
  cases hmerging : s.merging with
  | none =>
    rw [hmerging] at hrun
    cases hrun
  | some request =>
    rw [hmerging] at hrun
    dsimp only at hrun
    split at hrun
    case isFalse => cases hrun
    rename_i hdone
    cases hrun
    obtain ⟨htouch, hupdate⟩ := hdone
    rw [List.isEmpty_iff] at htouch hupdate
    have hrequest := h.merging request hmerging
    refine ⟨h.storage, by simpa using h.readers, h.readers_pos, h.p0Cache, h.objects, ?_, ?_, ?_,
      fun _ hnone => by cases hnone⟩
    · intro id address chunk flag key hmem hchunk hflag hkey
      have hheld := hrequest.held key address id (h.storage.keyIndex_of_idIndex hmem hkey)
      rw [htouch, hupdate] at hheld
      have hzero : request.held.count key = 0 := by
        simpa using hheld
      have hbalance := h.balance id address chunk flag key hmem hchunk hflag hkey
      rw [owed, hmerging] at hbalance
      dsimp only at hbalance
      rw [hzero, Nat.add_zero] at hbalance
      change chunk.readerCount + ((s.queues.map (· ++ readerOps request.features)).map
        (pending (address, id))).sum + s.storage.nReaders * 0 = _
      rw [← hbalance, sum_pending_append, pending_readerOps, h.readers]
      omega
    · intro queue hqueue
      obtain ⟨queue, hmem, rfl⟩ := List.mem_map.mp hqueue
      exact (h.matched queue hmem).append matched_readerOps
    · intro queue hqueue op hop
      obtain ⟨queue, hmem, rfl⟩ := List.mem_map.mp hqueue
      rcases List.mem_append.mp hop with hop | hop
      · exact h.holds queue hmem op hop
      · exact hrequest.features op.feature (feature_mem_of_readerOps hop)

/-! ## Steps of the readers -/

/-- The count of a chunk grows by what the reader's step is to add. -/
structure Reads (ring : ShmRing ω) (op : ReaderOp ω) (ring' : ShmRing ω) : Prop where
  wellFormed : ring'.WellFormed
  metadata : ring'.metadata = ring.metadata
  chunk : ∀ id address chunk, (id, address) ∈ ring.metadata → ring.accessBuf address = some chunk →
    ring'.accessBuf address =
      some { chunk with readerCount := chunk.readerCount + opWeight (address, id) op }

variable {ring ring' : ShmRing ω} {op : ReaderOp ω}

lemma Reads.skip (h : ring.WellFormed) (hzero : ∀ location, opWeight location op = 0) :
    Reads ring op ring := by
  refine ⟨h, rfl, fun id address chunk _ hchunk => ?_⟩
  rw [hzero, hchunk]
  rfl

lemma Reads.count (h : ring.WellFormed) (hmem : (id, address) ∈ ring.metadata)
    (hdata : op.feature.data = .address address id) (hone : opWeight (address, id) op = 1) :
    Reads ring op { ring with
      memory := ring.memory.modifyChunk (address % ring.dataBufferSize) fun chunk =>
        { chunk with readerCount := chunk.readerCount + 1 } } := by
  refine ⟨h.modifyChunk _ fun _ => ⟨rfl, rfl⟩, rfl, fun id' address' chunk hmem' hchunk => ?_⟩
  rw [ShmRing.accessBuf] at hchunk ⊢
  rw [ShmMemory.lookup_modifyChunk, hchunk, Option.map_some]
  by_cases hplace : address' % ring.dataBufferSize = address % ring.dataBufferSize
  · obtain ⟨rfl, rfl⟩ := h.eq_of_mod_eq hmem' hmem hplace
    rw [if_pos rfl, hone]
  · have hne : address' ≠ address := by
      rintro rfl
      exact hplace rfl
    have hat : op.feature.data.isAt address' id' = false := by
      rw [hdata]
      simp [ShmItem.isAt, hne.symm]
    rw [if_neg hplace, opWeight_eq_zero hat]
    rfl

/-- What a reader is about to do is counted as it should be: its touch is counted just if the chunk is
older than the request, and the count does not overflow. -/
def CountsRightly (nReaders : ℕ) (ring : ShmRing ω) (op : ReaderOp ω) : Prop :=
  ∀ address id chunk, op.feature.data = .address address id → ring.accessBuf address = some chunk →
    chunk.readerCount + 1 < ShmRing.idMax ∧
      ∀ feature, op = .touch feature → (nReaders ≤ chunk.readerCount ↔ feature.fresh = false)

/-- A reader's step does not raise, and a `get` returns the object of the feature. -/
lemma readOp_spec {nReaders : ℕ} (h : ring.WellFormed) (hholds : Holds ring op.feature)
    (hright : CountsRightly nReaders ring op) :
    ∃ result ring', readOp nReaders ring op = .ok (result, ring') ∧ Reads ring op ring' ∧
      ∀ feature address id, op = .get feature → feature.data = .address address id →
        result = feature.object := by
  cases hdata : op.feature.data with
  | item item =>
    have hzero : ∀ location, opWeight location op = 0 := fun location =>
      opWeight_eq_zero (by rw [hdata]; rfl)
    cases op with
    | touch feature =>
      have hdata' : feature.data = .item item := hdata
      refine ⟨none, ring, by rw [readOp, hdata'], .skip h hzero, ?_⟩
      rintro _ _ _ ⟨⟩
    | get feature =>
      have hdata' : feature.data = .item item := hdata
      refine ⟨some item, ring, by rw [readOp, hdata'], .skip h hzero, ?_⟩
      rintro _ address id ⟨rfl⟩ haddress
      rw [hdata'] at haddress
      cases haddress
  | address address id =>
    obtain ⟨hmem, chunk, object, hchunk, hobject, hfeature⟩ := hholds address id hdata
    obtain ⟨hfits, htouch⟩ := hright address id chunk hdata hchunk
    have hfits' : ShmRing.fitsInt (chunk.readerCount + 1) = true := by
      simpa [ShmRing.fitsInt] using hfits
    have hat : op.feature.data.isAt address id = true := isAt_iff.mpr hdata
    cases op with
    | touch feature =>
      have hdata' : feature.data = .address address id := hdata
      have htouch := htouch feature rfl
      cases hfresh : feature.fresh with
      | true =>
        have hlow : ¬nReaders ≤ chunk.readerCount := by simp [htouch, hfresh]
        refine ⟨none, ring, ?_, .skip h fun location => ?_, ?_⟩
        · rw [readOp, hdata']
          simp [ShmStorage.readerTouch, hchunk, hlow]
        · simp [opWeight, hfresh]
        · rintro _ _ _ ⟨⟩
      | false =>
        have hhigh : nReaders ≤ chunk.readerCount := htouch.mpr hfresh
        refine ⟨none, _, ?_, .count h hmem hdata (if_pos ⟨hat, hfresh⟩), ?_⟩
        · rw [readOp, hdata']
          simp [ShmStorage.readerTouch, hchunk, hhigh, ShmStorage.incrementReaderFlag, hfits']
        · rintro _ _ _ ⟨⟩
    | get feature =>
      have hdata' : feature.data = .address address id := hdata
      obtain ⟨chunk', hchunk', hid⟩ := h.accessBuf hmem
      cases hchunk.symm.trans hchunk'
      refine ⟨some object, _, ?_, .count h hmem hdata (if_pos hat), ?_⟩
      · rw [readOp, hdata']
        simp [ShmStorage.readerGet, hchunk, hid, hobject, ShmStorage.incrementReaderFlag, hfits']
      · rintro _ _ _ ⟨rfl⟩ -
        exact hfeature.symm

/-- A reader's step counts what it was to count. -/
lemma Inv.reads {ops : List (ReaderOp ω)} (h : s.Inv) (hqueue : s.queues[reader]? = some (op :: ops))
    (hreads : Reads s.ring op ring') :
    ({ s with
      sender := { s.sender with storage := { s.storage with ring := ring' } }
      queues := s.queues.set reader ops } : ShmExchange ω υ).Inv := by
  have hmember : op :: ops ∈ s.queues := mem_of_getElem? hqueue
  have hchunks : ∀ id address chunk', (id, address) ∈ ring'.metadata →
      ring'.accessBuf address = some chunk' → (id, address) ∈ s.ring.metadata ∧
        ∃ chunk, s.ring.accessBuf address = some chunk ∧ chunk'.object = chunk.object ∧
          chunk'.readerCount = chunk.readerCount + opWeight (address, id) op := by
    intro id address chunk' hmem hchunk'
    rw [hreads.metadata] at hmem
    obtain ⟨chunk, hchunk, -⟩ := h.storage.ring.accessBuf hmem
    rw [hreads.chunk id address chunk hmem hchunk] at hchunk'
    cases hchunk'
    exact ⟨hmem, chunk, hchunk, rfl, rfl⟩
  have hholds : ∀ feature, Holds s.ring feature → Holds ring' feature := by
    intro feature hfeature address id hdata
    obtain ⟨hmem, chunk, object, hchunk, hobject⟩ := hfeature address id hdata
    exact ⟨hreads.metadata.symm ▸ hmem, _, object, hreads.chunk id address chunk hmem hchunk, hobject⟩
  have hqueues : ∀ queue ∈ s.queues.set reader ops, queue ∈ s.queues ∨ queue = ops :=
    fun queue hmem => mem_or_eq_of_mem_set hmem
  have hindexed := h.storage.indexed
  refine ⟨⟨hreads.wellFormed, ?_⟩, by simpa using h.readers, h.readers_pos, h.p0Cache, ?_, ?_, ?_, ?_, ?_⟩
  · change ShmStorage.Indexed ring'.metadata _
    rw [hreads.metadata]
    exact ⟨hindexed.nodup, hindexed.chunk, hindexed.key, hindexed.flag⟩
  · intro id address chunk' hmem hchunk'
    obtain ⟨hmem, chunk, hchunk, hobject, -⟩ := hchunks id address chunk' hmem hchunk'
    rw [hobject]
    exact h.objects id address chunk hmem hchunk
  · intro id address chunk' flag key hmem hchunk' hflag hkey
    obtain ⟨hmem, chunk, hchunk, -, hcount⟩ := hchunks id address chunk' hmem hchunk'
    have hbalance := h.balance id address chunk flag key hmem hchunk hflag hkey
    have hsum : ((s.queues.set reader ops).map (pending (address, id))).sum + opWeight (address, id) op =
        (s.queues.map (pending (address, id))).sum := sum_pending_set hqueue
    rw [hcount]
    change _ + ((s.queues.set reader ops).map (pending (address, id))).sum +
      s.storage.nReaders * s.owed (address, id) key = s.storage.nReaders * flag
    omega
  · intro queue hmem
    rcases hqueues queue hmem with hmem | rfl
    · exact h.matched queue hmem
    · exact (h.matched _ hmember).tail
  · intro queue hmem op' hop
    rcases hqueues queue hmem with hmem | rfl
    · exact hholds _ (h.holds queue hmem op' hop)
    · exact hholds _ (h.holds _ hmember op' (mem_cons_of_mem _ hop))
  · intro request hmerging
    have hrequest := h.merging request hmerging
    exact ⟨hrequest.touchFirst, hrequest.missing, hrequest.held, hrequest.known,
      fun feature hfeature => hholds feature (hrequest.features feature hfeature)⟩

lemma Inv.read (h : s.Inv)
    (hright : ∀ op ops, s.queues[reader]? = some (op :: ops) → CountsRightly s.storage.nReaders s.ring op)
    (hrun : s.read reader = .ok s') : s'.Inv := by
  unfold ShmExchange.read at hrun
  split at hrun
  case h_2 => cases hrun
  rename_i op ops hqueue
  obtain ⟨result, ring', hread, hreads, -⟩ := readOp_spec h.storage.ring
    (h.holds _ (mem_of_getElem? hqueue) op mem_cons_self) (hright op ops hqueue)
  rw [hread] at hrun
  cases hrun
  exact h.reads hqueue hreads

/-! ## Runs -/

/-- The writer and `n` readers, before the first request. -/
def initial (n maxObjectSize dataBufferSize : ℕ) : ShmExchange ω υ where
  sender := { storage := { maxObjectSize, nReaders := n, ring := { dataBufferSize } } }
  queues := List.replicate n []

lemma inv_initial {n maxObjectSize dataBufferSize : ℕ} (hn : 0 < n) (hsize : 0 < dataBufferSize) :
    (initial n maxObjectSize dataBufferSize : ShmExchange ω υ).Inv where
  storage :=
    { ring := ⟨[], hsize, rfl, ⟨rfl, le_rfl⟩, Nat.zero_le _, by decide, Nat.two_pow_pos 31, .nil, by simp⟩
      indexed := ⟨.nil, fun _ _ hmem => absurd hmem not_mem_nil,
        fun _ _ _ hlookup => (by cases hlookup), fun _ _ hlookup => (by cases hlookup)⟩ }
  readers := length_replicate
  readers_pos := hn
  p0Cache := fun _ hcached => by cases hcached
  objects := fun _ _ _ hmem => absurd hmem not_mem_nil
  balance := fun _ _ _ _ _ hmem => absurd hmem not_mem_nil
  matched := fun queue hqueue => by
    rw [eq_of_mem_replicate hqueue]
    trivial
  holds := fun queue hqueue op hop => by
    rw [eq_of_mem_replicate hqueue] at hop
    cases hop
  merging := fun _ hmerging => by cases hmerging

/-- The step keeps the readers' counts in line with the writer's. -/
def Synced (s : ShmExchange ω υ) : ShmCall ω υ → Prop
  | .update => s.ring.metadata.length + 1 < ShmRing.idMax
  | .read reader => ∀ op ops, s.queues[reader]? = some (op :: ops) →
      CountsRightly s.storage.nReaders s.ring op
  | _ => True

/-- A feature that was handed out and that some reader still has to read. -/
def Unread (s : ShmExchange ω υ) (feature : ShmFeature ω) : Prop :=
  (∃ request, s.merging = some request ∧ feature ∈ request.features) ∨
    ∃ queue ∈ s.queues, ∃ op ∈ queue, op.feature = feature

/-- No chunk is freed that is still to be read, a `get` returns the object that was handed out, and
every chunk is free when all readers have read all requests. -/
structure Sound (s : ShmExchange ω υ) : Prop where
  kept : ∀ feature address id, s.Unread feature → feature.data = .address address id →
    (id, address) ∈ s.ring.metadata
  returned : ∀ reader feature address id ops, s.queues[reader]? = some (.get feature :: ops) →
    feature.data = .address address id → s.Synced (.read reader) →
      ∃ object ring, ShmStorage.readerGet s.ring address id = .ok (object, ring) ∧
        feature.object = some object
  free : s.merging = none → (∀ queue ∈ s.queues, queue = []) →
    ∀ id address, (id, address) ∈ s.ring.metadata → ∃ chunk, s.ring.accessBuf address = some chunk ∧
      s.storage.defaultIsFreeCheck id chunk = .ok true

lemma Inv.sound (h : s.Inv) : s.Sound := by
  refine ⟨?_, ?_, ?_⟩
  · rintro feature address id (⟨request, hmerging, hfeature⟩ | ⟨queue, hqueue, op, hop, rfl⟩) hdata
    · exact ((h.merging request hmerging).features feature hfeature address id hdata).1
    · exact (h.holds queue hqueue op hop address id hdata).1
  · intro reader feature address id ops hqueue hdata hsynced
    obtain ⟨result, ring', hread, -, hresult⟩ := readOp_spec h.storage.ring
      (h.holds _ (mem_of_getElem? hqueue) _ mem_cons_self) (hsynced _ _ hqueue)
    rw [readOp, hdata] at hread
    obtain ⟨⟨object, ring⟩, hget, hpure⟩ := bind_eq_ok hread
    obtain ⟨rfl, rfl⟩ := ok_pair_inj hpure
    exact ⟨object, ring, hget, (hresult feature address id rfl hdata).symm⟩
  · intro hmerging hempty id address hmem
    obtain ⟨chunk, hchunk, -⟩ := h.storage.ring.accessBuf hmem
    obtain ⟨key, flag, hkey, -, hflag⟩ := h.storage.indexed.chunk id address hmem
    have hbalance := h.balance id address chunk flag key hmem hchunk hflag hkey
    have hnone : (s.queues.map (pending (address, id))).sum = 0 := by
      refine sum_eq_zero fun n hn => ?_
      obtain ⟨queue, hqueue, rfl⟩ := mem_map.mp hn
      rw [hempty queue hqueue]
      rfl
    rw [hnone, owed, hmerging, Nat.mul_zero, Nat.add_zero, Nat.mul_comm] at hbalance
    refine ⟨chunk, hchunk, ?_⟩
    rw [ShmStorage.defaultIsFreeCheck, hflag, hbalance]
    simp

lemma Inv.run (serializedSize : ω → ℕ) {call : ShmCall ω υ} (h : s.Inv) (hsynced : s.Synced call)
    (hrun : run serializedSize call s = .ok s') : s'.Inv := by
  cases call with
  | request items => exact h.request hrun
  | touch => exact h.touch hrun
  | update => exact h.update serializedSize hsynced hrun
  | send => exact h.send hrun
  | read reader => exact h.read hsynced hrun

/-- In every run whose steps are synced. -/
theorem sound_of_synced (serializedSize : ω → ℕ) {n maxObjectSize dataBufferSize : ℕ} (hn : 0 < n)
    (hsize : 0 < dataBufferSize) (s : ShmExchange ω υ)
    (h : Reaches (run serializedSize) Synced (initial n maxObjectSize dataBufferSize) s) : s.Sound :=
  (h.invariant (inv_initial hn hsize)
    fun _ _ _ hinv hsynced hrun => hinv.run serializedSize hsynced hrun).sound

/-- The objects take eight bytes each. -/
def demoRun : ShmCall ℕ Unit → ShmExchange ℕ Unit → Except ShmFailure (ShmExchange ℕ Unit) :=
  run fun _ => 8

/-- One request has the same new item twice. The second reader's touches are counted, since the first
reader has already read the item twice; then the writer needs the space for another item. -/
def repeatedItem : List (ShmCall ℕ Unit) :=
  [.request [("a", 1, ()), ("a", 1, ())], .touch, .touch, .update, .update, .send,
    .read 0, .read 0, .read 0, .read 0, .read 1, .read 1,
    .request [("b", 2, ())], .touch, .update]

/-- The second reader has not read the item yet, its chunk is freed, and its `get` raises. -/
theorem repeatedItem_not_sound : ∃ s, repeatedItem.foldlM (fun s call => demoRun call s) (initial 2 12 20) =
    .ok s ∧ demoRun (.read 1) s = .error (.raised (.valueError
      "Data for address:id '0:0' has been modified or is invalid.")) ∧ ¬ s.Sound := by
  have heval : ((repeatedItem.foldlM (fun s call => demoRun call s) (initial 2 12 20)).toOption.map
      fun s => (s.ring.metadata, s.queues, match demoRun (.read 1) s with
        | .error e => some e
        | .ok _ => none)) =
      some ([(1, 0)], [[], List.replicate 2 (.get ⟨"a", .address 0 0, true, some 1⟩)],
        some (.raised (.valueError "Data for address:id '0:0' has been modified or is invalid."))) := by
    decide +kernel
  cases hrun : repeatedItem.foldlM (fun s call => demoRun call s) (initial 2 12 20) with
  | error e =>
    rw [hrun] at heval
    cases heval
  | ok s =>
    rw [hrun] at heval
    obtain ⟨hmetadata, hrest⟩ := Prod.mk.inj (Option.some.inj heval)
    obtain ⟨hqueues, hread⟩ := Prod.mk.inj hrest
    refine ⟨s, rfl, ?_, fun hs => ?_⟩
    · split at hread
      · rename_i e he
        rw [he, Option.some.inj hread]
      · cases hread
    · have hkept := hs.kept ⟨"a", .address 0 0, true, some 1⟩ 0 0
        (Or.inr ⟨_, hqueues ▸ mem_cons_of_mem _ mem_cons_self, _, mem_cons_self, rfl⟩) rfl
      rw [hmetadata] at hkept
      exact absurd hkept (by decide)

/-- A check for the steps that are synced. -/
def isSynced (s : ShmExchange ℕ Unit) : ShmCall ℕ Unit → Bool
  | .update => s.ring.metadata.length + 1 < ShmRing.idMax
  | .read reader =>
    match s.queues[reader]? with
    | some (op :: _) =>
      match op.feature.data with
      | .item _ => true
      | .address address _ =>
        match s.ring.accessBuf address with
        | none => true
        | some chunk => decide (chunk.readerCount + 1 < ShmRing.idMax) &&
            match op with
            | .touch feature =>
              decide (s.storage.nReaders ≤ chunk.readerCount ↔ feature.fresh = false)
            | .get _ => true
    | _ => true
  | _ => true

lemma synced_of_isSynced (s : ShmExchange ℕ Unit) (call : ShmCall ℕ Unit)
    (h : isSynced s call = true) : s.Synced call := by
  cases call with
  | update =>
    rw [isSynced, decide_eq_true_iff] at h
    exact h
  | read reader =>
    intro op ops hqueue address id chunk hdata hchunk
    rw [isSynced, hqueue] at h
    dsimp only at h
    rw [hdata] at h
    dsimp only at h
    rw [hchunk, Bool.and_eq_true_iff] at h
    refine ⟨of_decide_eq_true h.1, ?_⟩
    rintro feature rfl
    exact of_decide_eq_true h.2
  | _ => trivial

/-- The readers take a request that stores an item, one that finds it, and one that needs its space. -/
def inTurn : List (ShmCall ℕ Unit) :=
  [.request [("a", 1, ())], .touch, .update, .send, .read 0, .read 1, .read 1, .read 0,
    .request [("a", 1, ())], .touch, .update, .send, .read 1, .read 0, .read 0, .read 1,
    .request [("b", 2, ())], .touch, .update, .send, .read 0]

theorem sound_of_synced_inTurn :
    ∃ s, runChecked demoRun isSynced inTurn (initial 2 12 20) = some s ∧ s.Sound := by
  have heval : (runChecked demoRun isSynced inTurn (initial 2 12 20)).isSome = true := by
    decide +kernel
  obtain ⟨s, hs⟩ := Option.isSome_iff_exists.mp heval
  exact ⟨s, hs, sound_of_synced (fun _ => 8) (by decide) (by decide) s
    (Reaches.of_runChecked synced_of_isSynced .start hs)⟩

end ShmExchange

end VllmRuntime
