import VllmRuntime.Verification.Shm.Ring

/-! # The indices of the storage

The key index, the id index and the writer's flags are about the chunks of the metadata, and `put` keeps
them so. -/

namespace VllmRuntime

open List

variable {ω : Type}

namespace ShmStorage

/-- The indices are about these chunks. -/
structure Indexed (metadata : OrderedDict ℕ ℕ) (s : ShmStorage ω) : Prop where
  nodup : (metadata.map Prod.fst).Nodup
  chunk : ∀ id address, (id, address) ∈ metadata → ∃ key flag, s.idIndex.lookup id = some key ∧
    s.keyIndex.lookup key = some (address, id) ∧ s.writerFlag.lookup id = some flag
  key : ∀ key address id, s.keyIndex.lookup key = some (address, id) →
    (id, address) ∈ metadata ∧ s.idIndex.lookup id = some key
  flag : ∀ id flag, s.writerFlag.lookup id = some flag → id ∈ metadata.map Prod.fst

variable {s s' : ShmStorage ω} {metadata : OrderedDict ℕ ℕ} {id address : ℕ} {key : String}

lemma isCached_iff : s.isCached key = true ↔ ∃ address id, s.keyIndex.lookup key = some (address, id) := by
  rw [isCached, Option.isSome_iff_exists]
  exact ⟨fun ⟨location, h⟩ => ⟨location.1, location.2, h⟩, fun ⟨address, id, h⟩ => ⟨(address, id), h⟩⟩

/-- The other chunks keep their keys and their flags. -/
structure SameIndices (s s' : ShmStorage ω) (ids : List ℕ) : Prop where
  ring : s'.ring = s.ring
  nReaders : s'.nReaders = s.nReaders
  maxObjectSize : s'.maxObjectSize = s.maxObjectSize
  idIndex : ∀ x, x ∉ ids → s'.idIndex.lookup x = s.idIndex.lookup x
  writerFlag : ∀ x, x ∉ ids → s'.writerFlag.lookup x = s.writerFlag.lookup x

lemma Indexed.forget (h : s.Indexed ((id, address) :: metadata)) :
    ∃ s', s.forget id = .ok s' ∧ s'.Indexed metadata ∧ SameIndices s s' [id] := by
  obtain ⟨key, flag, hid, hkey, hflag⟩ := h.chunk id address mem_cons_self
  have hnodup := h.nodup
  rw [map_cons, nodup_cons] at hnodup
  have hne : ∀ x a, (x, a) ∈ metadata → x ≠ id := by
    rintro x a hx rfl
    exact hnodup.1 (mem_map.mpr ⟨_, hx, rfl⟩)
  unfold ShmStorage.forget
  rw [hid]
  dsimp only
  rw [hkey, hflag]
  refine ⟨_, if_neg (by simp), ⟨hnodup.2, ?_, ?_, ?_⟩, rfl, rfl, rfl, ?_, ?_⟩
  · intro x a hx
    obtain ⟨key', flag', hid', hkey', hflag'⟩ := h.chunk x a (mem_cons_of_mem _ hx)
    have hkeyNe : key' ≠ key := by
      rintro rfl
      rw [hkey] at hkey'
      exact hne x a hx (Prod.mk.inj (Option.some.inj hkey')).2.symm
    refine ⟨key', flag', ?_, ?_, ?_⟩
    · rw [lookup_dictPop, if_neg (hne x a hx), hid']
    · rw [lookup_dictPop, if_neg hkeyNe, hkey']
    · rw [lookup_dictPop, if_neg (hne x a hx), hflag']
  · intro key' a x hlookup
    rw [lookup_dictPop] at hlookup
    split at hlookup
    · cases hlookup
    · rename_i hkeyNe
      obtain ⟨hmem, hid'⟩ := h.key key' a x hlookup
      have hxid : x ≠ id := by
        rintro rfl
        rw [hid] at hid'
        exact hkeyNe (Option.some.inj hid').symm
      rcases mem_cons.mp hmem with heq | hmem
      · exact absurd (Prod.mk.inj heq).1 hxid
      · exact ⟨hmem, by rw [lookup_dictPop, if_neg hxid, hid']⟩
  · intro x flag' hlookup
    rw [lookup_dictPop] at hlookup
    split at hlookup
    · cases hlookup
    · rename_i hxid
      have hmem := h.flag x flag' hlookup
      rw [map_cons, mem_cons] at hmem
      exact hmem.resolve_left hxid
  · intro x hx
    rw [lookup_dictPop, if_neg (by simpa using hx)]
  · intro x hx
    rw [lookup_dictPop, if_neg (by simpa using hx)]

/-- The chunks that are freed are forgotten. -/
lemma Indexed.forgetAll {freed : OrderedDict ℕ ℕ} (h : s.Indexed (freed ++ metadata)) :
    ∃ s', s.forgetAll (freed.map Prod.fst) = (.ok (), s') ∧ s'.Indexed metadata ∧
      SameIndices s s' (freed.map Prod.fst) := by
  induction freed generalizing s with
  | nil => exact ⟨s, rfl, h, rfl, rfl, rfl, fun _ _ => rfl, fun _ _ => rfl⟩
  | cons entry freed ih =>
    obtain ⟨s₁, hforget, hindexed, hsame⟩ := Indexed.forget h
    obtain ⟨s', hall, hindexed', hsame'⟩ := ih hindexed
    refine ⟨s', ?_, hindexed', hsame'.ring.trans hsame.ring, hsame'.nReaders.trans hsame.nReaders,
      hsame'.maxObjectSize.trans hsame.maxObjectSize, ?_, ?_⟩
    · rw [map_cons, ShmStorage.forgetAll, hforget]
      exact hall
    · intro x hx
      rw [map_cons, mem_cons, not_or] at hx
      rw [hsame'.idIndex x hx.2, hsame.idIndex x (by simpa using hx.1)]
    · intro x hx
      rw [map_cons, mem_cons, not_or] at hx
      rw [hsame'.writerFlag x hx.2, hsame.writerFlag x (by simpa using hx.1)]

/-! ## Freeing -/

/-- The ring is well formed and the indices are about its chunks. -/
structure Inv (s : ShmStorage ω) : Prop where
  ring : s.ring.WellFormed
  indexed : s.Indexed s.ring.metadata

/-- Chunks that all readers have read are gone; the others stay as they are. -/
structure Shrinks (s s' : ShmStorage ω) : Prop where
  inv : s'.Inv
  dataBufferSize : s'.ring.dataBufferSize = s.ring.dataBufferSize
  memory : s'.ring.memory = s.ring.memory
  nReaders : s'.nReaders = s.nReaders
  freed : ∃ freed, s.ring.metadata = freed ++ s'.ring.metadata ∧ ∀ id address, (id, address) ∈ freed →
    ∃ chunk flag, s.ring.accessBuf address = some chunk ∧ s.writerFlag.lookup id = some flag ∧
      flag * s.nReaders ≤ chunk.readerCount
  idIndex : ∀ id ∈ s'.ring.metadata.map Prod.fst, s'.idIndex.lookup id = s.idIndex.lookup id
  writerFlag : ∀ id ∈ s'.ring.metadata.map Prod.fst, s'.writerFlag.lookup id = s.writerFlag.lookup id

lemma Shrinks.refl (h : s.Inv) : Shrinks s s :=
  ⟨h, rfl, rfl, rfl, ⟨[], rfl, by simp⟩, fun _ _ => rfl, fun _ _ => rfl⟩

lemma Shrinks.accessBuf (h : Shrinks s s') (address : ℕ) :
    s'.ring.accessBuf address = s.ring.accessBuf address := by
  rw [ShmRing.accessBuf, ShmRing.accessBuf, h.memory, h.dataBufferSize]

lemma defaultIsFreeCheck_eq_true {chunk : ShmChunk ω} (h : s.defaultIsFreeCheck id chunk = .ok true) :
    ∃ flag, s.writerFlag.lookup id = some flag ∧ flag * s.nReaders ≤ chunk.readerCount := by
  unfold defaultIsFreeCheck at h
  cases hflag : s.writerFlag.lookup id with
  | none =>
    rw [hflag] at h
    cases h
  | some flag =>
    rw [hflag] at h
    exact ⟨flag, rfl, by simpa using Except.ok.inj h⟩

lemma freeUnused_spec (h : s.Inv) : ∃ s', s.freeUnused = (.ok (), s') ∧ Shrinks s s' := by
  unfold freeUnused
  cases hfree : s.ring.freeBuf s.defaultIsFreeCheck (2 * s.maxObjectSize) with
  | mk out ring' =>
    obtain ⟨hring, hsize, hmemory, freed, hmetadata, hfreed, hids, herror⟩ :=
      ShmRing.freeBuf_spec h.ring hfree
    cases out with
    | error e =>
      -- every chunk has a flag
      obtain ⟨⟨id, address⟩, hmem, chunk, -, hraise⟩ := herror e rfl
      obtain ⟨key, flag, -, -, hflag⟩ := h.indexed.chunk id address hmem
      rw [defaultIsFreeCheck, hflag] at hraise
      cases hraise
    | ok ids =>
      obtain rfl := hids ids rfl
      have hindexed : ({ s with ring := ring' } : ShmStorage ω).Indexed (freed ++ ring'.metadata) := by
        rw [← hmetadata]
        exact ⟨h.indexed.nodup, h.indexed.chunk, h.indexed.key, h.indexed.flag⟩
      obtain ⟨s', hforget, hindexed', hsame⟩ := hindexed.forgetAll
      have hnodup := hindexed.nodup
      rw [map_append, nodup_append] at hnodup
      have hring' : s'.ring = ring' := hsame.ring
      refine ⟨s', hforget, ⟨by rwa [hring'], by rwa [hring']⟩, by rw [hring', hsize],
        by rw [hring', hmemory], hsame.nReaders, ⟨freed, by rw [hring', hmetadata], ?_⟩, ?_, ?_⟩
      · intro id address hmem
        obtain ⟨chunk, hchunk, hcheck⟩ := hfreed (id, address) hmem
        obtain ⟨flag, hflag, hle⟩ := defaultIsFreeCheck_eq_true hcheck
        exact ⟨chunk, flag, hchunk, hflag, hle⟩
      · intro id hid
        rw [hring'] at hid
        exact hsame.idIndex id fun hmem => hnodup.2.2 id hmem id hid rfl
      · intro id hid
        rw [hring'] at hid
        exact hsame.writerFlag id fun hmem => hnodup.2.2 id hmem id hid rfl

/-! ## Storing -/

/-- A new chunk holds the value under the key; the others stay as they are. -/
structure Adds (s : ShmStorage ω) (key : String) (value : ω) (location : ℕ × ℕ) (s' : ShmStorage ω) :
    Prop where
  inv : s'.Inv
  dataBufferSize : s'.ring.dataBufferSize = s.ring.dataBufferSize
  nReaders : s'.nReaders = s.nReaders
  metadata : s'.ring.metadata = s.ring.metadata ++ [(location.2, location.1)]
  chunk : ∃ chunk, s'.ring.accessBuf location.1 = some chunk ∧ chunk.readerCount = 0 ∧
    chunk.object = some value
  newFlag : s'.writerFlag.lookup location.2 = some 1
  newId : s'.idIndex.lookup location.2 = some key
  keyIndex : ∀ x, s'.keyIndex.lookup x = if x = key then some location else s.keyIndex.lookup x
  old : ∀ id address, (id, address) ∈ s.ring.metadata → id ≠ location.2 ∧
    s'.ring.accessBuf address = s.ring.accessBuf address ∧
    s'.idIndex.lookup id = s.idIndex.lookup id ∧ s'.writerFlag.lookup id = s.writerFlag.lookup id

lemma enter_adds (h : s.Inv) (hnew : s.isCached key = false)
    (hfew : s.ring.metadata.length + 1 < ShmRing.idMax) {size : ℕ} {location : ℕ × ℕ} {ring' : ShmRing ω}
    (halloc : s.ring.allocateBuf size = (.ok location, ring')) (value : ω) :
    Adds s key value location (({ s with ring := ring' } : ShmStorage ω).enter key value location) := by
  obtain ⟨hring, hsize, hmetadata, hid, ⟨chunk, hchunk⟩, hold⟩ :=
    ShmRing.allocateBuf_eq_ok h.ring hfew halloc
  have hwell := hring.modifyChunk (location.1 % ring'.dataBufferSize)
    (f := fun chunk => { chunk with readerCount := 0, object := some value }) fun _ => ⟨rfl, rfl⟩
  have hflagNone : s.writerFlag.lookup location.2 = none := by
    by_contra hsome
    obtain ⟨flag, hflag⟩ := Option.ne_none_iff_exists'.mp hsome
    exact hid (h.indexed.flag location.2 flag hflag)
  have hne : ∀ x a, (x, a) ∈ s.ring.metadata → x ≠ location.2 := by
    rintro x a hx rfl
    exact hid (mem_map.mpr ⟨_, hx, rfl⟩)
  have hkeyNone : s.keyIndex.lookup key = none := by
    simpa [isCached] using hnew
  have hkeyIndex : ∀ x, (dictSet s.keyIndex key location).lookup x =
      if x = key then some location else s.keyIndex.lookup x := fun x => lookup_dictSet _ _ _ _
  have hidIndex : ∀ x, (dictSet s.idIndex location.2 key).lookup x =
      if x = location.2 then some key else s.idIndex.lookup x := fun x => lookup_dictSet _ _ _ _
  have hwriterFlag : ∀ x, (dictSet s.writerFlag location.2
      ((s.writerFlag.lookup location.2).getD 0 + 1)).lookup x =
        if x = location.2 then some 1 else s.writerFlag.lookup x := by
    intro x
    rw [lookup_dictSet, hflagNone]
    rfl
  have haccess : ∀ address, (({ s with ring := ring' } : ShmStorage ω).enter key value
      location).ring.accessBuf address = (ring'.accessBuf address).map fun chunk =>
        if address % ring'.dataBufferSize = location.1 % ring'.dataBufferSize then
          { chunk with readerCount := 0, object := some value } else chunk := by
    intro address
    change (ring'.memory.modifyChunk (location.1 % ring'.dataBufferSize) fun chunk =>
      { chunk with readerCount := 0, object := some value }).lookup (address % ring'.dataBufferSize) = _
    rw [ShmMemory.lookup_modifyChunk, ShmRing.accessBuf]
  refine ⟨⟨hwell, ?_⟩, hsize, rfl, hmetadata, ?_, ?_, ?_, hkeyIndex, ?_⟩
  · refine ⟨hring.nodup_ids, ?_, ?_, ?_⟩
    · intro x a hmem
      rcases mem_append.mp (hmetadata ▸ hmem) with hx | hx
      · obtain ⟨key', flag', hid', hkey', hflag'⟩ := h.indexed.chunk x a hx
        have hkeyNe : key' ≠ key := by
          rintro rfl
          rw [hkeyNone] at hkey'
          cases hkey'
        exact ⟨key', flag', (hidIndex x).trans (by rw [if_neg (hne x a hx), hid']),
          (hkeyIndex key').trans (by rw [if_neg hkeyNe, hkey']),
          (hwriterFlag x).trans (by rw [if_neg (hne x a hx), hflag'])⟩
      · cases mem_singleton.mp hx
        exact ⟨key, 1, (hidIndex _).trans (if_pos rfl), (hkeyIndex key).trans (if_pos rfl),
          (hwriterFlag _).trans (if_pos rfl)⟩
    · intro key' a x hlookup
      have hlookup := (hkeyIndex key').symm.trans hlookup
      change (x, a) ∈ ring'.metadata ∧ (dictSet s.idIndex location.2 key).lookup x = some key'
      rw [hmetadata, hidIndex]
      split at hlookup
      · rename_i heq
        cases hlookup
        exact ⟨by simp, by rw [if_pos rfl, heq]⟩
      · obtain ⟨hmem, hid'⟩ := h.indexed.key key' a x hlookup
        exact ⟨mem_append_left _ hmem, by rw [if_neg (hne x a hmem), hid']⟩
    · intro x flag' hlookup
      have hlookup := (hwriterFlag x).symm.trans hlookup
      change x ∈ ring'.metadata.map Prod.fst
      rw [hmetadata, map_append, mem_append]
      split at hlookup
      · rename_i heq
        exact Or.inr (by simp [heq])
      · exact Or.inl (h.indexed.flag x flag' hlookup)
  · refine ⟨_, (haccess location.1).trans (by rw [hchunk, Option.map_some, if_pos rfl]), rfl, rfl⟩
  · exact (hwriterFlag _).trans (if_pos rfl)
  · exact (hidIndex _).trans (if_pos rfl)
  · intro x a hmem
    obtain ⟨hplace, hsame⟩ := hold x a hmem
    refine ⟨hne x a hmem, (haccess a).trans ?_, (hidIndex x).trans (if_neg (hne x a hmem)),
      (hwriterFlag x).trans (if_neg (hne x a hmem))⟩
    rw [hsame]
    cases s.ring.accessBuf a with
    | none => rfl
    | some chunk => rw [Option.map_some, hsize, if_neg hplace]

lemma Shrinks.mem_metadata (h : Shrinks s s') (hmem : (id, address) ∈ s'.ring.metadata) :
    (id, address) ∈ s.ring.metadata := by
  obtain ⟨freed, hmetadata, -⟩ := h.freed
  rw [hmetadata]
  exact mem_append_right _ hmem

/-- The keys that are left are those of the chunks that are left. -/
lemma Shrinks.keyIndex_iff (h : Shrinks s s') (hs : s.Inv) :
    s'.keyIndex.lookup key = some (address, id) ↔
      s.keyIndex.lookup key = some (address, id) ∧ (id, address) ∈ s'.ring.metadata := by
  constructor
  · intro hlookup
    obtain ⟨hmem, hid⟩ := h.inv.indexed.key key address id hlookup
    obtain ⟨key', flag, hid', hkey', -⟩ := hs.indexed.chunk id address (h.mem_metadata hmem)
    rw [h.idIndex id (mem_map.mpr ⟨_, hmem, rfl⟩), hid'] at hid
    cases hid
    exact ⟨hkey', hmem⟩
  · rintro ⟨hlookup, hmem⟩
    obtain ⟨key', flag, hid', hkey', -⟩ := h.inv.indexed.chunk id address hmem
    rw [h.idIndex id (mem_map.mpr ⟨_, hmem, rfl⟩),
      (hs.indexed.key key address id hlookup).2] at hid'
    cases hid'
    exact hkey'

/-- A key that is not stored is not stored after chunks are freed. -/
lemma Shrinks.isCached (h : Shrinks s s') (hs : s.Inv) (hnew : s.isCached key = false) :
    s'.isCached key = false := by
  by_contra hcached
  rw [Bool.not_eq_false, isCached_iff] at hcached
  obtain ⟨address, id, hlookup⟩ := hcached
  rw [isCached_iff.mpr ⟨address, id, ((h.keyIndex_iff hs).mp hlookup).1⟩] at hnew
  cases hnew

/-- One more is counted for a chunk. -/
lemma Inv.incrementWriterFlag (h : s.Inv) (hmem : (id, address) ∈ s.ring.metadata) :
    (s.incrementWriterFlag id).Inv := by
  have hflags : ∀ x, (s.incrementWriterFlag id).writerFlag.lookup x =
      if x = id then some ((s.writerFlag.lookup id).getD 0 + 1) else s.writerFlag.lookup x :=
    fun x => lookup_dictSet _ _ _ _
  refine ⟨h.ring, h.indexed.nodup, ?_, h.indexed.key, ?_⟩
  · intro x a hx
    obtain ⟨key, flag, hid, hkey, hflag⟩ := h.indexed.chunk x a hx
    by_cases hxid : x = id
    · exact ⟨key, _, hid, hkey, (hflags x).trans (if_pos hxid)⟩
    · exact ⟨key, flag, hid, hkey, (hflags x).trans ((if_neg hxid).trans hflag)⟩
  · intro x flag hflag
    by_cases hxid : x = id
    · rw [hxid]
      exact mem_map.mpr ⟨_, hmem, rfl⟩
    · exact h.indexed.flag x flag (((hflags x).trans (if_neg hxid)).symm.trans hflag)

/-- A chunk has one key. -/
lemma Inv.key_unique (h : s.Inv) (hlookup : s.keyIndex.lookup key = some (address, id))
    {address' : ℕ} {key' : String} (hmem : (id, address') ∈ s.ring.metadata)
    (hkey : s.idIndex.lookup id = some key') : address' = address ∧ key' = key := by
  obtain ⟨hmem', hkey'⟩ := h.indexed.key key address id hlookup
  rw [hkey'] at hkey
  have heq := inj_on_of_nodup_map h.indexed.nodup hmem hmem' rfl
  exact ⟨(Prod.mk.inj heq).2, (Option.some.inj hkey).symm⟩

lemma Inv.keyIndex_of_idIndex (h : s.Inv) (hmem : (id, address) ∈ s.ring.metadata)
    (hkey : s.idIndex.lookup id = some key) : s.keyIndex.lookup key = some (address, id) := by
  obtain ⟨key', flag, hid, hkey', -⟩ := h.indexed.chunk id address hmem
  rw [hkey] at hid
  cases hid
  exact hkey'

/-- `put` of a new key: it may free chunks that all readers have read, and then stores the value or
raises. -/
lemma put_spec (serializedSize : ω → ℕ) (h : s.Inv) (hnew : s.isCached key = false)
    (hfew : s.ring.metadata.length + 1 < ShmRing.idMax) (value : ω) :
    (∃ e s', s.put serializedSize key value = (.error e, s') ∧ (Shrinks s s' ∨ e = .overflowError)) ∨
      ∃ location s₁ s', s.put serializedSize key value = (.ok location, s') ∧ Shrinks s s₁ ∧
        s₁.isCached key = false ∧ Adds s₁ key value location s' := by
  unfold put
  rw [hnew, if_neg (by simp)]
  dsimp only
  split
  · exact Or.inl ⟨_, s, rfl, Or.inl (.refl h)⟩
  cases halloc : s.ring.allocateBuf (flagBytes + serializedSize value) with
  | mk out ring' =>
    cases out with
    | ok location =>
      exact Or.inr ⟨location, s, _, rfl, .refl h, hnew, enter_adds h hnew hfew halloc value⟩
    | error e =>
      have hraised := ShmRing.allocateBuf_eq_error h.ring halloc
      cases e with
      | memoryError message =>
        obtain rfl := hraised.resolve_right (by simp)
        obtain ⟨s₁, hfree, hshrinks⟩ := freeUnused_spec h
        have hnew₁ := hshrinks.isCached h hnew
        have hfew₁ : s₁.ring.metadata.length + 1 < ShmRing.idMax := by
          obtain ⟨freed, hmetadata, -⟩ := hshrinks.freed
          rw [hmetadata, length_append] at hfew
          omega
        dsimp only
        rw [hfree]
        dsimp only
        cases halloc₁ : s₁.ring.allocateBuf (flagBytes + serializedSize value) with
        | mk out ring₁ =>
          cases out with
          | ok location =>
            exact Or.inr ⟨location, s₁, _, rfl, hshrinks, hnew₁,
              enter_adds hshrinks.inv hnew₁ hfew₁ halloc₁ value⟩
          | error e =>
            refine Or.inl ⟨e, _, rfl, ?_⟩
            rcases ShmRing.allocateBuf_eq_error hshrinks.inv.ring halloc₁ with rfl | rfl
            · exact Or.inl hshrinks
            · exact Or.inr rfl
      | _ =>
        rcases hraised with rfl | he
        · exact Or.inl ⟨_, s, rfl, Or.inl (.refl h)⟩
        · exact Or.inl ⟨_, _, rfl, Or.inr he⟩

end ShmStorage

end VllmRuntime
