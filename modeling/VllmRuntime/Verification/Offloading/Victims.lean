import VllmRuntime.Verification.Offloading.Arc

/-! # The order of evictions

Both managers evict the first blocks of a list that is fixed before the first eviction: the LRU manager the
unused blocks, the ARC manager the unused blocks of `t1` until `t1` is shorter than its target, and then
those of `t2`. -/

namespace VllmRuntime

open List

/-! ## Unused blocks -/

/-- The blocks that are not in use, the oldest first. -/
def unused (t : OrderedDict BlockHash CPUBlockStatus) : List BlockHash :=
  (t.filter fun e => e.2.refCnt = 0).map Prod.fst

section Unused

variable {t : OrderedDict BlockHash CPUBlockStatus} {blockHash : BlockHash} {block : CPUBlockStatus}

lemma unused_cons (e : BlockHash × CPUBlockStatus) (t : OrderedDict BlockHash CPUBlockStatus) :
    unused (e :: t) = if e.2.refCnt = 0 then e.1 :: unused t else unused t := by
  by_cases h : e.2.refCnt = 0
  · rw [if_pos h, unused, filter_cons_of_pos (by simpa using h)]
    rfl
  · rw [if_neg h, unused, filter_cons_of_neg (by simpa using h)]
    rfl

lemma unused_sublist : (unused t).Sublist (t.map Prod.fst) := List.filter_sublist.map Prod.fst

lemma oldestUnused_eq_none : ARCOffloadingManager.oldestUnused t = none ↔ unused t = [] := by
  rw [ARCOffloadingManager.oldestUnused, find?_eq_none, unused, map_eq_nil_iff, filter_eq_nil_iff]

/-- The oldest unused block is the first one. -/
lemma unused_eq_cons (hnodup : (t.map Prod.fst).Nodup)
    (h : ARCOffloadingManager.oldestUnused t = some (blockHash, block)) :
    unused t = blockHash :: unused (dictPop t blockHash) := by
  induction t with
  | nil => cases h
  | cons e t ih =>
    rw [map_cons, nodup_cons] at hnodup
    by_cases hunused : e.2.refCnt = 0
    · have hfind : ARCOffloadingManager.oldestUnused (e :: t) = some e := by
        rw [ARCOffloadingManager.oldestUnused, find?_cons_of_pos (by simpa using hunused)]
      cases hfind.symm.trans h
      have hpop : dictPop ((blockHash, block) :: t) blockHash = t := by
        rw [dictPop, filter_cons_of_neg (by simp)]
        exact dictPop_of_not_mem hnodup.1
      rw [hpop, unused_cons, if_pos hunused]
    · have hfind : ARCOffloadingManager.oldestUnused t = some (blockHash, block) := by
        rwa [ARCOffloadingManager.oldestUnused, find?_cons_of_neg (by simpa using hunused)] at h
      have hmem : blockHash ∈ t.map Prod.fst :=
        mem_map_of_mem (f := Prod.fst) (mem_of_find?_eq_some hfind)
      have hne : e.1 ≠ blockHash := fun heq => hnodup.1 (heq ▸ hmem)
      have hpop : dictPop (e :: t) blockHash = e :: dictPop t blockHash := by
        rw [dictPop, filter_cons_of_pos (by simpa using hne)]
        rfl
      rw [hpop, unused_cons, if_neg hunused, unused_cons, if_neg hunused]
      exact ih hnodup.2 hfind

end Unused

lemma CPUBackend.allocateBlocks_allocated {backend backend' : CPUBackend} {blockHashes : List BlockHash}
    {blocks : List CPUBlockStatus} (hallocated : backend.numAllocatedBlocks ≤ backend.numBlocks)
    (h : backend.allocateBlocks blockHashes = .ok (blocks, backend')) :
    backend'.numAllocatedBlocks ≤ backend'.numBlocks := by
  obtain ⟨_, -, hret⟩ := bind_eq_ok h
  cases hret
  dsimp only
  omega

/-- The blocks that were evicted are in a new event, if events are recorded. -/
def Reported (events events' : Option (List OffloadingEvent)) (evicted : List BlockHash) : Prop :=
  ∃ backend : CPUBackend, events' = backend.recordEvent events evicted true

/-! ## The LRU manager -/

namespace LRUOffloadingManager

variable {m m' : LRUOffloadingManager} {blockHashes : List BlockHash}

lemma toEvict_eq (blocks : OrderedDict BlockHash CPUBlockStatus) (n : ℕ) :
    toEvict blocks n = if n ≤ (unused blocks).length then some ((unused blocks).take n) else none := by
  induction blocks generalizing n with
  | nil => cases n <;> simp [toEvict, unused]
  | cons e blocks ih =>
    cases n with
    | zero => simp [toEvict]
    | succ n =>
      rw [toEvict]
      rw [unused_cons]
      by_cases hunused : e.2.refCnt = 0
      · rw [if_pos hunused, if_pos hunused, ih]
        by_cases hn : n ≤ (unused blocks).length <;> simp [hn]
      · rw [if_neg hunused, if_neg hunused, ih]

/-- What every state satisfies: no hash has two blocks, and the backend has not allocated more blocks than
there are. -/
structure WellFormed (m : LRUOffloadingManager) : Prop where
  nodup : (m.blocks.map Prod.fst).Nodup
  allocated : m.backend.numAllocatedBlocks ≤ m.backend.numBlocks

/-- The loop that evicts the chosen blocks. -/
lemma foldlM_evictBlock_isOk {evicted : List BlockHash} (h : m.WellFormed) (hnodup : evicted.Nodup)
    (hstored : ∀ x ∈ evicted, x ∈ m.blocks.map Prod.fst) :
    ∃ m', evicted.foldlM evictBlock m = .ok m' ∧ m'.WellFormed ∧ m'.events = m.events ∧
      m'.backend.getNumFreeBlocks = m.backend.getNumFreeBlocks + evicted.length ∧
      m'.blocks = m.blocks.filter fun e => e.1 ∉ evicted := by
  induction evicted generalizing m with
  | nil => exact ⟨m, rfl, h, rfl, by simp, by simp⟩
  | cons blockHash evicted ih =>
    rw [nodup_cons] at hnodup
    rw [forall_mem_cons] at hstored
    obtain ⟨block, hblock⟩ := Option.isSome_iff_exists.mp (lookup_isSome.mpr hstored.1)
    have hevict : m.evictBlock blockHash = .ok { m with
        backend := m.backend.free block
        blocks := dictPop m.blocks blockHash } := by
      rw [evictBlock, hblock]
    obtain ⟨m', hm', hwell, hevents, hfree, hblocks⟩ := ih (m := { m with
        backend := m.backend.free block
        blocks := dictPop m.blocks blockHash }) ⟨nodup_dictPop h.nodup, h.allocated⟩ hnodup.2 (by
      intro x hx
      exact mem_map_fst_dictPop.mpr ⟨hstored.2 x hx, fun heq => hnodup.1 (heq ▸ hx)⟩)
    refine ⟨m', ?_, hwell, hevents, ?_, ?_⟩
    · rw [foldlM_cons, hevict]
      exact hm'
    · rw [hfree, CPUBackend.getNumFreeBlocks_free, length_cons]
      push_cast
      ring
    · rw [hblocks, dictPop, filter_filter]
      simp only [mem_cons, not_or, Bool.decide_and, Bool.and_comm]

attribute [local instance] lawfulBEq_blockHash in
/-- The blocks that a store makes room for. -/
def numBlocksToEvict (m : LRUOffloadingManager) (blockHashes : List BlockHash) : ℕ :=
  ((blockHashes.filter fun x => x ∉ m.blocks.map Prod.fst).length - m.backend.getNumFreeBlocks).toNat

/-- The blocks that a store evicts if there are enough that are not in use. -/
def victims (m : LRUOffloadingManager) (blockHashes : List BlockHash) : List BlockHash :=
  (unused m.blocks).take (m.numBlocksToEvict blockHashes)

lemma prepareStore_of_lt (h : (unused m.blocks).length < m.numBlocksToEvict blockHashes) :
    m.prepareStore blockHashes = .ok (none, m) := by
  have hnone : toEvict m.blocks (m.numBlocksToEvict blockHashes) = none := by
    rw [toEvict_eq, if_neg (not_le.mpr h)]
  rw [prepareStore]
  dsimp only
  rw [numBlocksToEvict] at hnone
  rw [hnone]

/-- A store with enough room evicts the oldest unused blocks, reports them, and keeps the others. -/
lemma prepareStore_of_le (hm : m.WellFormed) (hdistinct : blockHashes.Nodup)
    (h : m.numBlocksToEvict blockHashes ≤ (unused m.blocks).length) :
    ∃ output m', m.prepareStore blockHashes = .ok (some output, m') ∧ m'.WellFormed ∧
      output.blockHashesEvicted = m.victims blockHashes ∧
      Reported m.events m'.events (m.victims blockHashes) ∧
      ∀ x, x ∈ m'.blocks.map Prod.fst ↔ x ∈ blockHashes ∧ x ∉ m.blocks.map Prod.fst ∨
        x ∈ m.blocks.map Prod.fst ∧ x ∉ m.victims blockHashes := by
  have hvictims : toEvict m.blocks (m.numBlocksToEvict blockHashes) = some (m.victims blockHashes) := by
    rw [toEvict_eq, if_pos h, victims]
  have hsublist : (m.victims blockHashes).Sublist (m.blocks.map Prod.fst) :=
    (take_sublist ..).trans unused_sublist
  obtain ⟨m₁, hevict, hwell, hevents, hfree, hblocks⟩ :=
    foldlM_evictBlock_isOk hm (hm.nodup.sublist hsublist) fun x hx => hsublist.subset hx
  have hkeys (x : BlockHash) : x ∈ m₁.blocks.map Prod.fst ↔
      x ∈ m.blocks.map Prod.fst ∧ x ∉ m.victims blockHashes := by
    rw [hblocks]
    simp
  have hlength : (m.victims blockHashes).length = m.numBlocksToEvict blockHashes :=
    length_take_of_le h
  rw [numBlocksToEvict] at hvictims hlength
  generalize hnew : (blockHashes.filter fun x => x ∉ m.blocks.map Prod.fst) = new at hvictims hlength
  have henough : (new.length : ℤ) ≤ m₁.backend.getNumFreeBlocks := by
    rw [hfree, hlength]
    omega
  obtain ⟨blocks, backend, hallocate⟩ := CPUBackend.allocateBlocks_isOk hwell.allocated henough
  have hblocksLength := (CPUBackend.allocateBlocks_eq_ok hallocate).2.1
  have hfst : (new.zip blocks).map Prod.fst = new := map_fst_zip (le_of_eq hblocksLength.symm)
  have hnodup : new.Nodup := hnew ▸ hdistinct.filter _
  have hmem (x : BlockHash) : x ∈ new ↔ x ∈ blockHashes ∧ x ∉ m.blocks.map Prod.fst := by
    rw [← hnew, mem_filter, decide_eq_true_eq]
  have happend := foldl_dictSet_eq_append (d := m₁.blocks) (l := new.zip blocks) (by rwa [hfst]) (by
    rw [hfst]
    exact fun x hx hmem₁ => ((hmem x).mp hx).2 ((hkeys x).mp hmem₁).1)
  have hstore : m.prepareStore blockHashes = .ok (some ⟨new, blocks.map (·.blockId), m.victims blockHashes⟩,
      { backend
        blocks := m₁.blocks ++ new.zip blocks
        events := m₁.backend.recordEvent m₁.events (m.victims blockHashes) true }) := by
    rw [prepareStore]
    dsimp only
    rw [hnew, hvictims]
    dsimp only
    rw [hevict]
    simp only [bind, Except.bind, pure, Except.pure]
    rw [hallocate]
    simp only [hblocksLength, decide_true, pyAssert_true, happend]
  refine ⟨_, _, hstore, ⟨?_, CPUBackend.allocateBlocks_allocated hwell.allocated hallocate⟩, rfl,
    ⟨m₁.backend, by rw [hevents]⟩, fun x => ?_⟩
  · rw [map_append, hfst]
    exact hwell.nodup.append hnodup fun x hx hx' => ((hmem x).mp hx').2 ((hkeys x).mp hx).1
  · rw [map_append, hfst, mem_append, hkeys, hmem, or_comm]

end LRUOffloadingManager

/-! ## The ARC manager -/

namespace ARCOffloadingManager

variable {m m' : ARCOffloadingManager} {blockHashes : List BlockHash} {fromT1 : Bool} {blockHash : BlockHash}
  {block : CPUBlockStatus}

/-- The part of `t1` that can be evicted before it is shorter than its target. -/
def evictableT1 (m : ARCOffloadingManager) : List BlockHash :=
  (unused m.t1).take (m.t1.length - pyInt m.targetT1Size + 1).toNat

/-- The blocks that can be evicted, in the order in which they are evicted. -/
def evictable (m : ARCOffloadingManager) : List BlockHash :=
  (unused m.t1).take (m.t1.length - pyInt m.targetT1Size + 1).toNat ++ unused m.t2

lemma evictable_sublist : m.evictable.Sublist (m.resident.map Prod.fst) := by
  rw [evictable, resident, map_append]
  exact ((take_sublist ..).trans unused_sublist).append unused_sublist

lemma blockToEvict_eq_none (h : m.blockToEvict = none) : m.evictable = [] := by
  unfold blockToEvict at h
  split at h
  · cases h
  · rename_i ht1
    rw [Option.map_eq_none_iff, oldestUnused_eq_none] at h
    rw [evictable, h, append_nil]
    split at ht1
    · rw [oldestUnused_eq_none.mp ht1, take_nil]
    · rename_i hlt
      rw [Int.toNat_of_nonpos (by omega), take_zero]

/-- The block to evict is the first one of its part. -/
lemma evictable_parts (hm : m.WellFormed) (h : m.blockToEvict = some (fromT1, blockHash, block)) :
    (fromT1 = true ∧ m.t1.lookup blockHash = some block ∧
        m.evictableT1 = blockHash :: (m.evictBlock true blockHash block).evictableT1) ∨
      fromT1 = false ∧ m.t2.lookup blockHash = some block ∧ m.evictableT1 = [] ∧
        unused m.t2 = blockHash :: unused (dictPop m.t2 blockHash) := by
  unfold blockToEvict at h
  split at h
  · rename_i e ht1
    cases h
    split at ht1
    · rename_i hle
      have hlookup := (oldestUnused_eq_some hm.nodup_t1 ht1).1
      have hlength := (perm_dictPop hm.nodup_t1 hlookup).length_eq
      rw [length_cons] at hlength
      obtain ⟨n, hn⟩ : ∃ n : ℕ, (m.t1.length : ℤ) - pyInt m.targetT1Size = n :=
        Int.eq_ofNat_of_zero_le (by omega)
      have htake : ((m.t1.length : ℤ) - pyInt m.targetT1Size + 1).toNat = n + 1 := by omega
      have htake' : (((dictPop m.t1 blockHash).length : ℤ) - pyInt m.targetT1Size + 1).toNat = n := by omega
      refine Or.inl ⟨rfl, hlookup, ?_⟩
      rw [evictableT1, unused_eq_cons hm.nodup_t1 ht1, htake, take_succ_cons, evictableT1]
      simp only [evictBlock, if_true, htake']
    · cases ht1
  · rename_i ht1
    obtain ⟨e, ht2, heq⟩ := Option.map_eq_some_iff.mp h
    cases heq
    refine Or.inr ⟨rfl, (oldestUnused_eq_some hm.nodup_t2 ht2).1, ?_, unused_eq_cons hm.nodup_t2 ht2⟩
    rw [evictableT1]
    split at ht1
    · rw [oldestUnused_eq_none.mp ht1, take_nil]
    · rename_i hlt
      rw [Int.toNat_of_nonpos (by omega), take_zero]

/-- The block to evict is the first one that can be evicted, and leaves the others. -/
lemma evictable_eq_cons (hm : m.WellFormed) (h : m.blockToEvict = some (fromT1, blockHash, block)) :
    m.evictable = blockHash :: (m.evictBlock fromT1 blockHash block).evictable ∧
      (m.evictBlock fromT1 blockHash block).resident = dictPop m.resident blockHash := by
  rw [resident, resident, dictPop_append]
  obtain ⟨rfl, hlookup, hcons⟩ | ⟨rfl, hlookup, hnil, hcons⟩ := evictable_parts hm h
  · rw [dictPop_of_not_mem (hm.not_mem_t2 (key_mem_of_lookup hlookup))]
    exact ⟨congrArg (· ++ unused m.t2) hcons, rfl⟩
  · rw [dictPop_of_not_mem fun hmem => hm.not_mem_t2 hmem (key_mem_of_lookup hlookup)]
    refine ⟨?_, rfl⟩
    change m.evictableT1 ++ unused m.t2 = blockHash :: (m.evictableT1 ++ unused (dictPop m.t2 blockHash))
    rw [hnil, hcons]
    rfl

/-- What the eviction loop leaves. -/
structure EvictsFirst (n : ℕ) (m m' : ARCOffloadingManager) : Prop where
  wellFormed : m'.WellFormed
  free : m'.backend.getNumFreeBlocks = m.backend.getNumFreeBlocks + min n m.evictable.length
  events : m'.events = m.events
  keys : ∀ x, x ∈ m'.resident.map Prod.fst ↔ x ∈ m.resident.map Prod.fst ∧ x ∉ m.evictable.take n

lemma WellFormed.evictBlock (hm : m.WellFormed) (h : m.blockToEvict = some (fromT1, blockHash, block)) :
    (m.evictBlock fromT1 blockHash block).WellFormed := by
  constructor
  · rw [(evictable_eq_cons hm h).2]
    exact nodup_dictPop hm.nodup
  · cases fromT1 <;> exact hm.allocated

/-- The loop evicts the first blocks that can be evicted, and gives up if there are not enough. -/
lemma evictLoop_spec (hm : m.WellFormed) (n : ℕ) :
    (evictLoop n m).1 = (if n ≤ m.evictable.length then some (m.evictable.take n) else none) ∧
      EvictsFirst n m (evictLoop n m).2 := by
  induction n generalizing m with
  | zero => exact ⟨by simp [evictLoop], hm, by simp [evictLoop], rfl, by simp [evictLoop]⟩
  | succ n ih =>
    rw [evictLoop]
    cases hblock : m.blockToEvict with
    | none =>
      have hnil := blockToEvict_eq_none hblock
      exact ⟨by simp [hnil], hm, by simp [hnil], rfl, by simp [hnil]⟩
    | some e =>
      obtain ⟨fromT1, blockHash, block⟩ := e
      obtain ⟨hcons, hresident⟩ := evictable_eq_cons hm hblock
      obtain ⟨hevicted, hevicts⟩ := ih (hm.evictBlock hblock)
      have hbackend : (m.evictBlock fromT1 blockHash block).backend = m.backend.free block := by
        cases fromT1 <;> rfl
      have hevents : (m.evictBlock fromT1 blockHash block).events = m.events := by
        cases fromT1 <;> rfl
      refine ⟨?_, hevicts.wellFormed, ?_, hevicts.events.trans hevents, fun x => ?_⟩
      · dsimp only
        rw [hevicted, hcons, length_cons, take_succ_cons]
        by_cases hn : n ≤ (m.evictBlock fromT1 blockHash block).evictable.length <;> simp [hn]
      · dsimp only
        rw [hevicts.free, hbackend, CPUBackend.getNumFreeBlocks_free, hcons, length_cons]
        omega
      · dsimp only
        rw [hevicts.keys, hresident, mem_map_fst_dictPop, hcons, take_succ_cons, mem_cons, not_or,
          and_assoc]

/-- The blocks that a store makes room for. -/
def numBlocksToEvict (m : ARCOffloadingManager) (blockHashes : List BlockHash) : ℕ :=
  ((m.newHashes blockHashes).length - m.backend.getNumFreeBlocks).toNat

/-- The blocks that a store evicts if enough can be evicted. -/
def victims (m : ARCOffloadingManager) (blockHashes : List BlockHash) : List BlockHash :=
  m.evictable.take (m.numBlocksToEvict blockHashes)

lemma mem_newHashes {x : BlockHash} :
    x ∈ m.newHashes blockHashes ↔ x ∈ blockHashes ∧ x ∉ m.resident.map Prod.fst := by
  rw [newHashes, mem_filter, decide_eq_true_eq, resident, map_append, mem_append, not_or]

lemma numBlocksToEvict_of_nil (hm : m.WellFormed) (h : m.newHashes blockHashes = []) :
    m.numBlocksToEvict blockHashes = 0 := by
  have hallocated := hm.allocated
  rw [numBlocksToEvict, h, CPUBackend.getNumFreeBlocks, length_nil]
  omega

/-- A store without enough room evicts all the same, and reports nothing. -/
lemma prepareStore_of_lt (hm : m.WellFormed) (h : m.evictable.length < m.numBlocksToEvict blockHashes) :
    m.prepareStore blockHashes = .ok (none, (evictLoop (m.numBlocksToEvict blockHashes) m).2) := by
  have hnew : m.newHashes blockHashes ≠ [] := by
    intro hnil
    rw [numBlocksToEvict_of_nil hm hnil] at h
    exact Nat.not_lt_zero _ h
  have hnone : (evictLoop (m.numBlocksToEvict blockHashes) m).1 = none := by
    rw [(evictLoop_spec hm _).1, if_neg (not_le.mpr h)]
  rw [prepareStore]
  dsimp only
  rw [← newHashes, ← numBlocksToEvict, if_neg (by simpa using hnew)]
  cases hloop : evictLoop (m.numBlocksToEvict blockHashes) m with
  | mk evicted m₁ =>
    rw [hloop] at hnone
    obtain rfl : evicted = none := hnone
    rfl

/-- A store with enough room reports what it evicts, and keeps the other blocks. -/
lemma prepareStore_of_le (hm : m.WellFormed) (hdistinct : blockHashes.Nodup)
    (h : m.numBlocksToEvict blockHashes ≤ m.evictable.length) :
    ∃ output m', m.prepareStore blockHashes = .ok (some output, m') ∧ m'.WellFormed ∧
      output.blockHashesEvicted = m.victims blockHashes ∧
      Reported m.events m'.events (m.victims blockHashes) ∧
      ∀ x, x ∈ m'.resident.map Prod.fst ↔ x ∈ blockHashes ∧ x ∉ m.resident.map Prod.fst ∨
        x ∈ m.resident.map Prod.fst ∧ x ∉ m.victims blockHashes := by
  by_cases hnil : m.newHashes blockHashes = []
  · have hvictims : m.victims blockHashes = [] := by
      rw [victims, numBlocksToEvict_of_nil hm hnil, take_zero]
    have hstore : m.prepareStore blockHashes = .ok (some ⟨[], [], []⟩, m) := by
      rw [prepareStore]
      dsimp only
      rw [← newHashes, hnil]
      rfl
    refine ⟨_, m, hstore, hm, hvictims.symm, ⟨m.backend, by rw [hvictims]; rfl⟩, fun x => ?_⟩
    have hx : x ∈ m.newHashes blockHashes ↔ _ := mem_newHashes
    rw [hnil] at hx
    rw [← hx, hvictims]
    simp
  · obtain ⟨hevicted, hevicts⟩ := evictLoop_spec hm (m.numBlocksToEvict blockHashes)
    rw [if_pos h, ← victims] at hevicted
    have hkeys := hevicts.keys
    have hfree := hevicts.free
    rw [min_eq_left h] at hfree
    rw [← victims] at hkeys
    cases hloop : evictLoop (m.numBlocksToEvict blockHashes) m with
    | mk evicted m₁ =>
      simp only [hloop] at hevicted hkeys hfree
      subst hevicted
      have hwell : m₁.WellFormed := by simpa only [hloop] using hevicts.wellFormed
      have hevents : m₁.events = m.events := by simpa only [hloop] using hevicts.events
      have henough : ((m.newHashes blockHashes).length : ℤ) ≤ m₁.backend.getNumFreeBlocks := by
        rw [hfree, numBlocksToEvict]
        omega
      obtain ⟨blocks, backend, hallocate⟩ := CPUBackend.allocateBlocks_isOk hwell.allocated henough
      have hlength := (CPUBackend.allocateBlocks_eq_ok hallocate).2.1
      have hfst : ((m.newHashes blockHashes).zip blocks).map Prod.fst = m.newHashes blockHashes :=
        map_fst_zip (le_of_eq hlength.symm)
      have hnodup : (m.newHashes blockHashes).Nodup := hdistinct.filter _
      have hnew : ∀ x ∈ m.newHashes blockHashes, x ∉ m₁.resident.map Prod.fst := fun x hx hmem =>
        (mem_newHashes.mp hx).2 ((hkeys x).mp hmem).1
      have hinsert := foldl_insertBlock (m := { m₁ with
          b1 := m₁.trimGhosts m₁.b1
          b2 := m₁.trimGhosts m₁.b2
          backend
          events := m₁.backend.recordEvent m₁.events (m.victims blockHashes) true })
        ((m.newHashes blockHashes).zip blocks) (by rwa [hfst]) (by
          rw [hfst]
          intro x hx hmem
          refine hnew x hx ?_
          rw [resident, map_append]
          exact mem_append_left _ hmem)
      have hstore : m.prepareStore blockHashes = .ok (some ⟨m.newHashes blockHashes,
          blocks.map (·.blockId), m.victims blockHashes⟩, ((m.newHashes blockHashes).zip blocks).foldl insertBlock
            { m₁ with
              b1 := m₁.trimGhosts m₁.b1
              b2 := m₁.trimGhosts m₁.b2
              backend
              events := m₁.backend.recordEvent m₁.events (m.victims blockHashes) true }) := by
        rw [prepareStore]
        dsimp only
        rw [← newHashes, ← numBlocksToEvict, if_neg (by simpa using hnil), hloop]
        dsimp only
        rw [hallocate]
        simp only [bind, Except.bind, pure, Except.pure, hlength, decide_true, pyAssert_true]
      rw [hinsert] at hstore
      have hperm : (m₁.t1 ++ (m.newHashes blockHashes).zip blocks ++ m₁.t2).map Prod.fst ~
          m₁.resident.map Prod.fst ++ m.newHashes blockHashes := by
        rw [resident, map_append, map_append, map_append, hfst, append_assoc,
          append_assoc]
        exact List.perm_append_comm.append_left _
      refine ⟨_, _, hstore, ⟨hperm.nodup_iff.mpr ?_,
        CPUBackend.allocateBlocks_allocated hwell.allocated hallocate⟩, rfl,
        ⟨m₁.backend, by rw [hevents]⟩, fun x => ?_⟩
      · exact hwell.nodup.append hnodup fun x hx hx' => hnew x hx' hx
      · refine hperm.mem_iff.trans ?_
        rw [mem_append, hkeys, mem_newHashes, or_comm]

end ARCOffloadingManager

end VllmRuntime
