import VllmRuntime.Model.SingleTypeManager
import VllmRuntime.Shared.DictSum
import VllmRuntime.Verification.KVCache.Table

/-! # The managers keep the invariant

Every operation of a manager changes the table of one request, by a sequence of the changes
that keep the invariant of that table. -/

namespace VllmRuntime.SingleTypeKVCacheManager

open List

variable {numTokens totalComputedTokens numTokensMainModel n i : ℕ}
  {hits table newBlocks : List BlockRef} {nullBlock : BlockRef}
  {newComputedBlocks table' removed : List BlockRef} {num idx : ℤ} {spec : KVCacheSpec}
  {total numExternal length : ℕ} {request : Request}

/-- The positions in the tables of `m` that hold `b`. -/
def holds (m : SingleTypeKVCacheManager) (b : BlockRef) : ℕ :=
  dictSum (fun _ blocks => blocks.count b) m.reqToBlocks

/-- The positions in the tables of all requests but one. -/
def holdsElsewhere (m : SingleTypeKVCacheManager) (requestId : RequestId) (b : BlockRef) : ℕ :=
  dictSum (fun _ blocks => blocks.count b) (m.reqToBlocks.erase requestId)

lemma holds_eq (m : SingleTypeKVCacheManager) (requestId : RequestId) (b : BlockRef) :
    m.holds b = (m.blocksOf requestId).count b + m.holdsElsewhere requestId b :=
  dictSum_eq_getD_add_erase _ _ _ (by simp)

/-- The positions that hold `b` and have not been cached. -/
def fresh (m : SingleTypeKVCacheManager) (b : BlockRef) : ℕ :=
  dictSum (fun r blocks => (blocks.drop (m.numCached r)).count b) m.reqToBlocks

def freshElsewhere (m : SingleTypeKVCacheManager) (requestId : RequestId) (b : BlockRef) : ℕ :=
  dictSum (fun r blocks => (blocks.drop (m.numCached r)).count b) (m.reqToBlocks.erase requestId)

lemma fresh_eq (m : SingleTypeKVCacheManager) (requestId : RequestId) (b : BlockRef) :
    m.fresh b = ((m.blocksOf requestId).drop (m.numCached requestId)).count b +
      m.freshElsewhere requestId b :=
  dictSum_eq_getD_add_erase (fun r (blocks : List BlockRef) => (blocks.drop (m.numCached r)).count b)
    _ _ (by simp)

lemma freshElsewhere_le (m : SingleTypeKVCacheManager) (requestId : RequestId) (b : BlockRef) :
    m.freshElsewhere requestId b ≤ m.holdsElsewhere requestId b :=
  dictSum_mono (fun _ blocks => (drop_sublist _ blocks).count_le b) _

lemma fresh_le_holds (m : SingleTypeKVCacheManager) (b : BlockRef) : m.fresh b ≤ m.holds b :=
  dictSum_mono (fun _ blocks => (drop_sublist _ blocks).count_le b) _

/-! ## Tables after an update -/

variable {m m' : SingleTypeKVCacheManager} {r : RequestId}

@[simp] lemma blocksOf_setBlocks (m : SingleTypeKVCacheManager) (r : RequestId)
    (blocks : List BlockRef) : (m.setBlocks r blocks).blocksOf r = blocks := by
  simp [blocksOf, setBlocks]

/-- Only the entries of request `r` have changed. -/
structure Changes (m m' : SingleTypeKVCacheManager) (r : RequestId) : Prop where
  spec : m'.kvCacheSpec = m.kvCacheSpec
  enableCaching : m'.enableCaching = m.enableCaching
  groupId : m'.kvCacheGroupId = m.kvCacheGroupId
  blockSize : m'.blockSize = m.blockSize
  blocksOf : ∀ r', r' ≠ r → m'.blocksOf r' = m.blocksOf r'
  numCached : ∀ r', r' ≠ r → m'.numCached r' = m.numCached r'
  allocated : ∀ r', r' ≠ r → (r' ∈ m'.allocatedBlockReqs ↔ r' ∈ m.allocatedBlockReqs)
  elsewhere : ∀ f : RequestId → List BlockRef → ℕ,
    dictSum f (m'.reqToBlocks.erase r) = dictSum f (m.reqToBlocks.erase r)

lemma Changes.refl (m : SingleTypeKVCacheManager) (r : RequestId) : Changes m m r :=
  ⟨rfl, rfl, rfl, rfl, fun _ _ => rfl, fun _ _ => rfl, fun _ _ => Iff.rfl, fun _ => rfl⟩

lemma Changes.trans {m'' : SingleTypeKVCacheManager} (h : Changes m m' r)
    (h' : Changes m' m'' r) : Changes m m'' r where
  spec := h'.spec.trans h.spec
  enableCaching := h'.enableCaching.trans h.enableCaching
  groupId := h'.groupId.trans h.groupId
  blockSize := h'.blockSize.trans h.blockSize
  blocksOf r' hne := (h'.blocksOf r' hne).trans (h.blocksOf r' hne)
  numCached r' hne := (h'.numCached r' hne).trans (h.numCached r' hne)
  allocated r' hne := (h'.allocated r' hne).trans (h.allocated r' hne)
  elsewhere f := (h'.elsewhere f).trans (h.elsewhere f)

lemma Changes.holdsElsewhere (h : Changes m m' r) (b : BlockRef) :
    m'.holdsElsewhere r b = m.holdsElsewhere r b := h.elsewhere _

lemma Changes.freshElsewhere (h : Changes m m' r) (b : BlockRef) :
    m'.freshElsewhere r b = m.freshElsewhere r b := by
  unfold SingleTypeKVCacheManager.freshElsewhere
  rw [h.elsewhere]
  apply dictSum_erase_congr
  intro r' hne blocks
  rw [h.numCached r' hne]

lemma changes_setBlocks (m : SingleTypeKVCacheManager) (r : RequestId)
    (blocks : List BlockRef) : Changes m (m.setBlocks r blocks) r where
  spec := rfl
  enableCaching := rfl
  groupId := rfl
  blockSize := rfl
  blocksOf r' hne := by simp [SingleTypeKVCacheManager.blocksOf, setBlocks, AList.lookup_insert_ne hne]
  numCached _ _ := rfl
  allocated _ _ := Iff.rfl
  elsewhere f := dictSum_erase_insert f m.reqToBlocks r blocks

lemma changes_numCachedBlock (m : SingleTypeKVCacheManager) (r : RequestId) (n : ℕ) :
    Changes m { m with numCachedBlock := m.numCachedBlock.insert r n } r where
  spec := rfl
  enableCaching := rfl
  groupId := rfl
  blockSize := rfl
  blocksOf _ _ := rfl
  numCached r' hne := by simp [SingleTypeKVCacheManager.numCached, AList.lookup_insert_ne hne]
  allocated _ _ := Iff.rfl
  elsewhere _ := rfl

lemma changes_states (m : SingleTypeKVCacheManager) (r : RequestId) (idx : Dict RequestId ℤ)
    (allocated : Finset RequestId)
    (h : ∀ r', r' ≠ r → (r' ∈ allocated ↔ r' ∈ m.allocatedBlockReqs)) :
    Changes m { m with lastStateBlockIdx := idx, allocatedBlockReqs := allocated } r where
  spec := rfl
  enableCaching := rfl
  groupId := rfl
  blockSize := rfl
  blocksOf _ _ := rfl
  numCached _ _ := rfl
  allocated := h
  elsewhere _ := rfl

lemma changes_erase (m : SingleTypeKVCacheManager) (r : RequestId) :
    Changes m { m with
      reqToBlocks := m.reqToBlocks.erase r
      numCachedBlock := m.numCachedBlock.erase r } r where
  spec := rfl
  enableCaching := rfl
  groupId := rfl
  blockSize := rfl
  blocksOf r' hne := by simp [SingleTypeKVCacheManager.blocksOf, AList.lookup_erase_ne hne]
  numCached r' hne := by simp [SingleTypeKVCacheManager.numCached, AList.lookup_erase_ne hne]
  allocated _ _ := Iff.rfl
  elsewhere f := dictSum_erase_erase f m.reqToBlocks r

variable {tracked : Prop} {reserved : List BlockRef} {others fresh : BlockRef → ℕ} {pool pool' : BlockPool}

/-- The table after the computed blocks: skipped blocks first, then the needed hits. -/
lemma length_computed_table (m : SingleTypeKVCacheManager) (newComputedBlocks : List BlockRef)
    (total : ℕ) :
    (m.numSkippedBlocks total).toNat + (m.neededBlocks newComputedBlocks total).length =
      max (m.numSkippedBlocks total).toNat newComputedBlocks.length := by
  unfold neededBlocks
  split
  · rw [length_drop]
    omega
  · omega

/-! ## What the operations do -/

lemma changes_addComputedBlocks (m : SingleTypeKVCacheManager) (nullBlock : BlockRef) (r : RequestId)
    (hits : List BlockRef) (n : ℕ) : Changes m (m.addComputedBlocks nullBlock r hits n) r :=
  (changes_setBlocks m r _).trans (changes_numCachedBlock _ r _)

/-- A request without blocks is given its hits, which are touched, and then `ret` for external tokens. -/
structure GivesComputed (r : RequestId) (hits : List BlockRef) (total numExternal : ℕ) (m : SingleTypeKVCacheManager)
    (pool pool₁ : BlockPool) (ret : List BlockRef) (m' : SingleTypeKVCacheManager) (pool' : BlockPool) : Prop where
  cross : m.kvCacheSpec.isCrossAttention = false
  empty : m.blocksOf r = []
  touch : pool.touch (m.neededBlocks hits total) = .ok pool₁
  external : m.neededExternalTokens total numExternal > 0 ∧ pool₁.getNewBlocks ((cdiv total m.blockSize : ℤ) -
        (max (m.numSkippedBlocks total).toNat hits.length : ℕ)) = .ok (ret, pool') ∨
      ¬ m.neededExternalTokens total numExternal > 0 ∧ ret = [] ∧ pool' = pool₁
  changes : Changes m m' r
  blocks : m'.blocksOf r =
    List.replicate (m.numSkippedBlocks total).toNat pool.nullBlock ++ m.neededBlocks hits total ++ ret
  numCached : m'.numCached r = max (m.numSkippedBlocks total).toNat hits.length
  allocated : m'.allocatedBlockReqs = m.allocatedBlockReqs

lemma allocateNewComputedBlocks_eq_ok {numLocal : ℕ}
    (h : m.allocateNewComputedBlocks pool r hits numLocal numExternal = .ok (m', pool')) :
    (m' = m ∧ pool' = pool ∧ hits = [] ∧ (m.kvCacheSpec.isCrossAttention = true ∨ r ∈ m.numCachedBlock)) ∨
      ∃ pool₁ ret, GivesComputed r hits (numLocal + numExternal) numExternal m pool pool₁ ret m' pool' := by
  unfold allocateNewComputedBlocks at h
  split at h
  · rename_i hcross
    obtain ⟨_, hempty, hret⟩ := bind_eq_ok h
    cases hret
    exact .inl ⟨rfl, rfl, by simpa using pyAssert_eq_ok.mp hempty, .inl hcross⟩
  · rename_i hcross
    unfold baseAllocateNewComputedBlocks at h
    split at h
    · rename_i hcached
      obtain ⟨_, hempty, hret⟩ := bind_eq_ok h
      cases hret
      exact .inl ⟨rfl, rfl, by simpa using pyAssert_eq_ok.mp hempty, .inr hcached⟩
    · obtain ⟨_, hempty, h⟩ := bind_eq_ok h
      obtain ⟨pool₁, htouch, h⟩ := bind_eq_ok h
      set total := numLocal + numExternal
      have htouch : pool.touch (m.neededBlocks hits total) = .ok pool₁ := by
        unfold touchComputedBlocks at htouch
        split at htouch
        · exact htouch
        · obtain ⟨_, hassert, rfl⟩ := map_eq_ok htouch
          rw [show m.neededBlocks hits total = [] by simpa using pyAssert_eq_ok.mp hassert]
          rfl
      rw [(BlockPool.touch_spec htouch).1.nullBlock] at h
      have hlength := length_computed_table m hits total
      have hblocks : (m.addComputedBlocks pool.nullBlock r (m.neededBlocks hits total)
          (m.numSkippedBlocks total).toNat).blocksOf r =
          List.replicate (m.numSkippedBlocks total).toNat pool.nullBlock ++ m.neededBlocks hits total := by
        simp [addComputedBlocks, blocksOf, setBlocks]
      have hcached : (m.addComputedBlocks pool.nullBlock r (m.neededBlocks hits total)
          (m.numSkippedBlocks total).toNat).numCached r = max (m.numSkippedBlocks total).toNat hits.length := by
        simp [addComputedBlocks, numCached, hlength]
      have hnil : m.blocksOf r = [] := by simpa using pyAssert_eq_ok.mp hempty
      have hadded := changes_addComputedBlocks m pool.nullBlock r (m.neededBlocks hits total)
        (m.numSkippedBlocks total).toNat
      unfold allocateExternalBlocks at h
      dsimp only at h
      split at h
      · rename_i hpos
        obtain ⟨⟨ret, pool₂⟩, hget, hret⟩ := bind_eq_ok h
        cases hret
        rw [hblocks, length_append, length_replicate, hlength] at hget
        exact .inr ⟨pool₁, ret, by simpa using hcross, hnil, htouch, .inl ⟨hpos, hget⟩,
          hadded.trans (changes_setBlocks _ r _), by rw [blocksOf_setBlocks, hblocks], hcached, rfl⟩
      · rename_i hpos
        cases h
        exact .inr ⟨_, [], by simpa using hcross, hnil, htouch, .inr ⟨hpos, rfl, rfl⟩, hadded,
          by simpa using hblocks, hcached, rfl⟩

/-- New blocks from the pool are put behind `table`, up to `numRequired` blocks. -/
structure AddsNew (r : RequestId) (numRequired : ℕ) (table ret : List BlockRef) (m : SingleTypeKVCacheManager)
    (pool : BlockPool) (m' : SingleTypeKVCacheManager) (pool' : BlockPool) : Prop where
  get : pool.getNewBlocks ((numRequired : ℤ) - table.length) = .ok (ret, pool')
  changes : Changes m m' r
  blocks : m'.blocksOf r = table ++ ret
  numCached : m'.numCached r = m.numCached r

lemma baseAllocateNewBlocks_eq_ok (h : m.baseAllocateNewBlocks pool r numTokens = .ok (newBlocks, m', pool')) :
    m' = m.setBlocks r (m.blocksOf r) ∧ pool' = pool ∨ (m.blocksOf r).length < cdiv numTokens m.blockSize ∧
      AddsNew r (cdiv numTokens m.blockSize) (m.blocksOf r) newBlocks m pool m' pool' := by
  unfold baseAllocateNewBlocks at h
  dsimp only at h
  split at h
  · cases h
    exact .inl ⟨rfl, rfl⟩
  · obtain ⟨⟨ret, pool₁⟩, hget, hret⟩ := bind_eq_ok h
    cases hret
    exact .inr ⟨by omega, hget, changes_setBlocks m r _, blocksOf_setBlocks _ _ _, rfl⟩

lemma alignAllocateNewBlocks_eq_ok
    (h : m.alignAllocateNewBlocks pool r numTokensMainModel = .ok (newBlocks, m', pool')) :
    ∃ numRequired, numRequired = cdiv numTokensMainModel m.blockSize + m.kvCacheSpec.numSpeculativeBlocks ∧
      (numRequired = (m.blocksOf r).length ∧ m' = m.setBlocks r (m.blocksOf r) ∧ pool' = pool ∨
        ∃ table ret, (m.blocksOf r).length < numRequired ∧ m.alignExtendBlocks pool.nullBlock r
            ((numRequired : ℤ) - m.kvCacheSpec.numSpeculativeBlocks - 1) = .ok table ∧
          AddsNew r numRequired table ret m pool m' pool') := by
  refine ⟨_, rfl, ?_⟩
  unfold alignAllocateNewBlocks at h
  dsimp only at h
  split at h
  · rename_i heq
    cases h
    exact .inl ⟨heq, rfl, rfl⟩
  · obtain ⟨_, hgt, h⟩ := bind_eq_ok h
    obtain ⟨table, htable, h⟩ := bind_eq_ok h
    obtain ⟨_, -, h⟩ := bind_eq_ok h
    obtain ⟨⟨ret, pool₁⟩, hget, hret⟩ := bind_eq_ok h
    cases hret
    refine .inr ⟨table, ret, of_decide_eq_true (pyAssert_eq_ok.mp hgt), htable, hget,
      (changes_setBlocks m r (table ++ ret)).trans (changes_states _ r _ _ fun r' hne => ?_), ?_, rfl⟩
    · simp [setBlocks, hne]
    · simp [blocksOf, setBlocks]

lemma isMambaAlign_eq_true :
    spec.isMambaAlign = true ↔ ∃ mamba, spec = .mamba mamba ∧ mamba.mambaCacheMode = .align := by
  cases spec <;> simp [KVCacheSpec.isMambaAlign]

lemma allocateNewBlocks_of_align (halign : m.kvCacheSpec.isMambaAlign = true)
    (numTokens numTokensMainModel : ℕ) :
    m.allocateNewBlocks pool r numTokens numTokensMainModel =
      m.alignAllocateNewBlocks pool r numTokensMainModel := by
  obtain ⟨mamba, hspec, hmode⟩ := isMambaAlign_eq_true.mp halign
  unfold allocateNewBlocks
  rw [hspec]
  simp [hmode]

lemma allocateNewBlocks_of_not_align (hmode : ¬ m.kvCacheSpec.isMambaAlign = true)
    (h : m.allocateNewBlocks pool r numTokens numTokensMainModel = .ok (newBlocks, m', pool')) :
    ∃ n, m.baseAllocateNewBlocks pool r n = .ok (newBlocks, m', pool') := by
  unfold allocateNewBlocks at h
  split at h
  · rename_i mamba hspec
    rw [if_neg fun halign => hmode (isMambaAlign_eq_true.mpr ⟨mamba, hspec, halign⟩)] at h
    exact ⟨_, h⟩
  · exact ⟨_, h⟩

/-- The pool changes only by new blocks that are taken from it. -/
lemma allocateNewBlocks_eq_ok
    (h : m.allocateNewBlocks pool r numTokens numTokensMainModel = .ok (newBlocks, m', pool')) :
    Changes m m' r ∧ (pool' = pool ∨ ∃ n ret, pool.getNewBlocks n = .ok (ret, pool')) := by
  by_cases hmode : m.kvCacheSpec.isMambaAlign = true
  · rw [allocateNewBlocks_of_align hmode] at h
    obtain ⟨_, -, ⟨-, rfl, rfl⟩ | ⟨table, ret, -, -, hadds⟩⟩ := alignAllocateNewBlocks_eq_ok h
    · exact ⟨changes_setBlocks m r _, .inl rfl⟩
    · exact ⟨hadds.changes, .inr ⟨_, _, hadds.get⟩⟩
  · obtain ⟨n, h⟩ := allocateNewBlocks_of_not_align hmode h
    obtain ⟨rfl, rfl⟩ | ⟨-, hadds⟩ := baseAllocateNewBlocks_eq_ok h
    · exact ⟨changes_setBlocks m r _, .inl rfl⟩
    · exact ⟨hadds.changes, .inr ⟨_, _, hadds.get⟩⟩

/-- Caching changes no table. -/
lemma cacheBlocks_eq_ok (h : m.cacheBlocks pool request numTokens = .ok (m', pool')) :
    (Changes m m' request.requestId ∧ m'.blocksOf request.requestId = m.blocksOf request.requestId ∧
      m'.allocatedBlockReqs = m.allocatedBlockReqs) ∧
      (numTokens / m.blockSize ≤ m.numCached request.requestId ∧ m' = m ∧ pool' = pool ∨
        m.numCached request.requestId < numTokens / m.blockSize ∧
          m'.numCached request.requestId = numTokens / m.blockSize ∧
          pool.cacheFullBlocks request (m.blocksOf request.requestId) (m.numCached request.requestId)
            (numTokens / m.blockSize) m.blockSize m.kvCacheGroupId = .ok pool') := by
  unfold cacheBlocks at h
  split at h
  · cases h
  · dsimp only at h
    split at h
    · rename_i hge
      cases h
      exact ⟨⟨Changes.refl m _, rfl, rfl⟩, .inl ⟨hge, rfl, rfl⟩⟩
    · rename_i hlt
      obtain ⟨pool₁, hcache, hret⟩ := bind_eq_ok h
      cases hret
      refine ⟨⟨(changes_setBlocks m request.requestId _).trans (changes_numCachedBlock _ request.requestId _),
        blocksOf_setBlocks _ _ _, rfl⟩, .inr ⟨not_le.mp hlt, ?_, hcache⟩⟩
      simp [numCached]

lemma changes_forgetStates (m : SingleTypeKVCacheManager) (r : RequestId) :
    Changes m (m.forgetStates r) r := by
  unfold forgetStates
  split
  · apply changes_states
    intro r' hne
    simp [hne]
  · exact Changes.refl m r

lemma blocksOf_forgetStates (m : SingleTypeKVCacheManager) (r r' : RequestId) :
    (m.forgetStates r).blocksOf r' = m.blocksOf r' := by
  unfold forgetStates
  split <;> rfl

lemma free_eq_ok (h : m.free pool r = .ok (m', pool')) :
    pool.freeBlocks (m.blocksOf r).reverse = .ok pool' ∧ Changes m m' r ∧ m'.blocksOf r = [] ∧
      m'.numCached r = 0 ∧ (m.kvCacheSpec.isMambaAlign = true → r ∉ m'.allocatedBlockReqs) := by
  obtain ⟨pool₁, hfree, hret⟩ := bind_eq_ok h
  cases hret
  rw [blocksOf_forgetStates] at hfree
  refine ⟨hfree, (changes_forgetStates m r).trans (changes_erase _ r), by simp [blocksOf], by simp [numCached],
    fun hmode => ?_⟩
  simp [forgetStates, hmode]

/-- Some positions of the table have been given the null block. -/
structure Blanked (nullBlock : BlockRef) (table table' removed : List BlockRef) : Prop where
  count : ∀ b, b ≠ nullBlock → table.count b = table'.count b + removed.count b
  subset : ∀ b ∈ removed, b ∈ table
  drop : ∀ n b, b ≠ nullBlock → (table'.drop n).count b ≤ (table.drop n).count b
  length : table'.length = table.length

lemma Blanked.refl (nullBlock : BlockRef) (table : List BlockRef) :
    Blanked nullBlock table table [] :=
  ⟨by simp, by simp, fun _ _ _ => le_rfl, rfl⟩

lemma count_set_null {c : BlockRef} (hne : c ≠ nullBlock) (hi : i < table.length) :
    table.count c = (table.set i nullBlock).count c + [table[i]].count c := by
  have hnull : (nullBlock == c) = false := by simpa using fun he => hne he.symm
  have hpos : (table[i] == c) = true → 0 < table.count c := by
    intro he
    rw [beq_iff_eq] at he
    exact count_pos_iff.mpr (he ▸ getElem_mem hi)
  rw [count_set hi, hnull, count_cons, count_nil]
  by_cases hb : (table[i] == c) = true
  · have := hpos hb
    simp only [hb, if_true, Bool.false_eq_true, if_false]
    omega
  · simp [hb]

lemma blanked_set {b : BlockRef} (hi : table[i]? = some b) :
    Blanked nullBlock table (table.set i nullBlock) [b] := by
  obtain ⟨hlt, rfl⟩ := List.getElem?_eq_some_iff.mp hi
  refine ⟨fun c hne => count_set_null hne hlt, ?_, ?_, by simp⟩
  · intro c hc
    rw [mem_singleton] at hc
    exact hc ▸ mem_of_getElem? hi
  · intro n c hne
    rw [drop_set]
    split
    · exact le_rfl
    · have hcount := count_set_null hne (show i - n < (table.drop n).length by simp; omega)
      omega

lemma Blanked.trans {table'' removed' : List BlockRef} (h : Blanked nullBlock table table' removed)
    (hreal : ∀ b ∈ removed', b ≠ nullBlock) (h' : Blanked nullBlock table' table'' removed') :
    Blanked nullBlock table table'' (removed ++ removed') := by
  refine ⟨?_, ?_, ?_, h'.length.trans h.length⟩
  · intro b hne
    rw [h.count b hne, h'.count b hne, count_append]
    omega
  · intro b hb
    rcases mem_append.mp hb with hb | hb
    · exact h.subset b hb
    · have hcount := h.count b (hreal b hb)
      have hpos := count_pos_iff.mpr (h'.subset b hb)
      exact count_pos_iff.mp (by omega)
  · intro n b hne
    exact (h'.drop n b hne).trans (h.drop n b hne)

lemma removeSkippedBlocksLoop_blanked (nullBlock : BlockRef) (n : ℕ) (table : List BlockRef)
    (hn : n ≤ table.length) :
    Blanked nullBlock table (removeSkippedBlocksLoop nullBlock n table).2
        (removeSkippedBlocksLoop nullBlock n table).1 ∧
      ∀ b ∈ (removeSkippedBlocksLoop nullBlock n table).1, b ≠ nullBlock := by
  induction n generalizing table with
  | zero => exact ⟨Blanked.refl _ _, by simp [removeSkippedBlocksLoop]⟩
  | succ i ih =>
    rw [removeSkippedBlocksLoop]
    simp only
    have hget : table[i]? = some (table.getD i nullBlock) := by
      rw [getD_eq_getElem?_getD, getElem?_eq_getElem (by omega)]
      rfl
    split
    · exact ⟨Blanked.refl _ _, by simp⟩
    · rename_i hne
      obtain ⟨hrest, hreal⟩ := ih (table.set i nullBlock) (by simp; omega)
      refine ⟨(blanked_set hget).trans hreal hrest, ?_⟩
      intro b hb
      rcases mem_cons.mp hb with rfl | hb
      · exact hne
      · exact hreal b hb

lemma pyIndex_lt (h : pyIndex length idx = some i) : i < length := by
  unfold pyIndex at h
  split at h
  · have := Option.some.inj h
    omega
  · split at h
    · have := Option.some.inj h
      omega
    · cases h

/-- Positions of the table have been given the null block, and the blocks that stood there are freed. Full
attention skips nothing. -/
structure Skips (r : RequestId) (removed : List BlockRef) (m : SingleTypeKVCacheManager) (pool : BlockPool)
    (m' : SingleTypeKVCacheManager) (pool' : BlockPool) : Prop where
  changes : Changes m m' r
  blanked : Blanked pool.nullBlock (m.blocksOf r) (m'.blocksOf r) removed
  free : pool.freeBlocks removed = .ok pool'
  numCachedBlock : m'.numCachedBlock = m.numCachedBlock
  allocated : m'.allocatedBlockReqs = m.allocatedBlockReqs
  full : m.kvCacheSpec.isFullAttention = true → m'.blocksOf r = m.blocksOf r

lemma Skips.numCached (h : Skips r removed m pool m' pool') : m'.numCached r = m.numCached r := by
  rw [SingleTypeKVCacheManager.numCached, h.numCachedBlock]
  rfl

lemma Skips.refl (r : RequestId) (m : SingleTypeKVCacheManager) (pool : BlockPool) : Skips r [] m pool m pool :=
  ⟨Changes.refl m r, Blanked.refl _ _, rfl, rfl, rfl, fun _ => rfl⟩

lemma skips_setBlocks (hblank : Blanked pool.nullBlock (m.blocksOf r) table removed)
    (hfree : pool.freeBlocks removed = .ok pool') (hfull : ¬ m.kvCacheSpec.isFullAttention = true) :
    Skips r removed m pool (m.setBlocks r table) pool' :=
  ⟨changes_setBlocks m r table, by rwa [blocksOf_setBlocks], hfree, rfl, rfl, fun h => absurd h hfull⟩

lemma baseRemoveSkippedBlocks_eq_ok
    (h : m.baseRemoveSkippedBlocks pool r totalComputedTokens = .ok (m', pool')) :
    ∃ removed, Skips r removed m pool m' pool' := by
  unfold baseRemoveSkippedBlocks at h
  dsimp only at h
  split at h
  · cases h
    exact ⟨[], Skips.refl r m pool⟩
  · rename_i hskip
    obtain ⟨pool₁, hfree, hret⟩ := bind_eq_ok h
    cases hret
    refine ⟨_, skips_setBlocks (removeSkippedBlocksLoop_blanked pool.nullBlock _ (m.blocksOf r)
      (Nat.min_le_right _ _)).1 hfree fun hfull => hskip ?_⟩
    unfold getNumSkippedTokens KVCacheSpec.getNumSkippedTokens
    cases hspec : m.kvCacheSpec <;> simp [hspec, KVCacheSpec.isFullAttention] at hfull ⊢

lemma not_full_of_align (hmode : spec.isMambaAlign = true) : ¬ spec.isFullAttention = true := by
  obtain ⟨mamba, rfl, -⟩ := isMambaAlign_eq_true.mp hmode
  exact Bool.false_ne_true

lemma alignRemoveSkippedBlocks_eq_ok {numComputedTokens : ℕ} (hmode : m.kvCacheSpec.isMambaAlign = true)
    (h : m.alignRemoveSkippedBlocks pool r numComputedTokens = .ok (m', pool')) :
    ∃ removed, Skips r removed m pool m' pool' := by
  unfold alignRemoveSkippedBlocks at h
  split at h
  · cases h
    exact ⟨[], Skips.refl r m pool⟩
  · split at h
    · dsimp only at h
      split at h
      · cases h
      · rename_i i hi
        have hget : (m.blocksOf r)[i]? = some ((m.blocksOf r).getD i pool.nullBlock) := by
          rw [getD_eq_getElem?_getD, getElem?_eq_getElem (pyIndex_lt hi)]
          rfl
        split at h
        · obtain ⟨pool₁, hfree, hret⟩ := bind_eq_ok h
          cases hret
          rw [(BlockPool.freeBlocks_spec hfree).1.nullBlock]
          exact ⟨_, skips_setBlocks (blanked_set hget) hfree (not_full_of_align hmode)⟩
        · cases h
          exact ⟨[], skips_setBlocks (Blanked.refl _ _) rfl (not_full_of_align hmode)⟩
    · cases h
      exact ⟨[], Skips.refl r m pool⟩

/-- Skipped blocks, and then the state of the step before in mode `align`. -/
lemma removeSkippedBlocks_eq_ok (h : m.removeSkippedBlocks pool r totalComputedTokens = .ok (m', pool')) :
    ∃ m₁ pool₁ removed removed', Skips r removed m pool m₁ pool₁ ∧ Skips r removed' m₁ pool₁ m' pool' := by
  obtain ⟨⟨m₁, pool₁⟩, hbase, h⟩ := bind_eq_ok h
  obtain ⟨removed, hskips⟩ := baseRemoveSkippedBlocks_eq_ok hbase
  dsimp only at h
  split at h
  · rename_i hmode
    obtain ⟨removed', hskips'⟩ := alignRemoveSkippedBlocks_eq_ok hmode h
    exact ⟨m₁, pool₁, removed, removed', hskips, hskips'⟩
  · cases h
    exact ⟨_, _, removed, [], hskips, Skips.refl r _ _⟩

/-! ## Steps -/

/-- A step for request `r` from `(m, pool)` to `(m', pool')`, next to other tables. -/
structure TableStep (tracked : Prop) (reserved : List BlockRef) (others fresh : BlockRef → ℕ)
    (r : RequestId) (m : SingleTypeKVCacheManager) (pool : BlockPool)
    (m' : SingleTypeKVCacheManager) (pool' : BlockPool) : Prop where
  config : BlockPool.SameConfig pool pool'
  changes : Changes m m' r
  inv : TableInv tracked reserved others fresh (m'.blocksOf r) (m'.numCached r) pool'

lemma TableStep.trans {m₁ m₂ : SingleTypeKVCacheManager} {pool₁ pool₂ : BlockPool}
    (h : TableStep tracked reserved others fresh r m pool m₁ pool₁)
    (h' : TableStep tracked reserved others fresh r m₁ pool₁ m₂ pool₂) :
    TableStep tracked reserved others fresh r m pool m₂ pool₂ :=
  ⟨h.config.trans h'.config, h.changes.trans h'.changes, h'.inv⟩

lemma tableStep_refl (h : TableInv tracked reserved others fresh (m.blocksOf r) (m.numCached r) pool) :
    TableStep tracked reserved others fresh r m pool m pool :=
  ⟨BlockPool.SameConfig.refl _, Changes.refl m r, h⟩

lemma tableStep_setBlocks {blocks : List BlockRef} (hconfig : BlockPool.SameConfig pool pool')
    (h : TableInv tracked reserved others fresh blocks (m.numCached r) pool') :
    TableStep tracked reserved others fresh r m pool (m.setBlocks r blocks) pool' :=
  ⟨hconfig, changes_setBlocks m r blocks, by rwa [blocksOf_setBlocks]⟩

/-! ## Estimating -/

lemma getNumBlocksToAllocate_eq
    (h : m.getNumBlocksToAllocate pool r numTokens newComputedBlocks totalComputedTokens
      numTokensMainModel = .ok (num, m')) :
    m' = m ∨ m' = m.setBlocks r (m.blocksOf r) := by
  unfold getNumBlocksToAllocate at h
  split at h
  · split at h
    · cases h
      exact Or.inr rfl
    · obtain ⟨_, -, hret⟩ := bind_eq_ok h
      cases hret
      exact Or.inl rfl
  · obtain ⟨_, -, hret⟩ := bind_eq_ok h
    cases hret
    exact Or.inl rfl

lemma getNumBlocksToAllocate_step
    (hinv : TableInv tracked reserved others fresh (m.blocksOf r) (m.numCached r) pool)
    (h : m.getNumBlocksToAllocate pool r numTokens newComputedBlocks totalComputedTokens
      numTokensMainModel = .ok (num, m')) :
    TableStep tracked reserved others fresh r m pool m' pool := by
  rcases getNumBlocksToAllocate_eq h with rfl | rfl
  · exact tableStep_refl hinv
  · exact tableStep_setBlocks (BlockPool.SameConfig.refl _) hinv

/-! ## Computed blocks -/

/-- Hits that `allocate_new_computed_blocks` may be given: blocks of the pool, each at most
once, and null blocks. -/
structure Hits (pool : BlockPool) (reserved hits : List BlockRef) : Prop where
  real : ∀ b ∈ hits, pool.IsBlock b ∧ b ∉ reserved
  once : ∀ b, b ≠ pool.nullBlock → hits.count b ≤ 1

lemma Hits.congr (h : Hits pool reserved hits) (hconfig : BlockPool.SameConfig pool pool') :
    Hits pool' reserved hits := by
  refine ⟨fun b hb => ?_, ?_⟩
  · rw [hconfig.isBlock_iff]
    exact h.real b hb
  · rw [hconfig.nullBlock]
    exact h.once

lemma Hits.drop (h : Hits pool reserved hits) (n : ℕ) : Hits pool reserved (hits.drop n) :=
  ⟨fun b hb => h.real b (mem_of_mem_drop hb),
    fun b hne => ((drop_sublist n hits).count_le b).trans (h.once b hne)⟩

/-- A window and a chunk have at least one token. -/
def ValidSpec : KVCacheSpec → Prop
  | .slidingWindow attention window => 0 < attention.blockSize ∧ 0 < window
  | .chunkedLocalAttention attention chunkSize => 0 < attention.blockSize ∧ 0 < chunkSize
  | spec => 0 < spec.blockSize

lemma ValidSpec.blockSize_pos (h : ValidSpec spec) : 0 < spec.blockSize := by
  cases spec <;> first | exact h.1 | exact h

/-- The block size of a manager: the block size of its spec, scaled by context parallelism. -/
lemma blockSize_pos (h : ValidSpec m.kvCacheSpec) : 0 < m.blockSize := by
  unfold blockSize
  split
  · exact Nat.mul_pos h.blockSize_pos (by omega)
  · exact h.blockSize_pos

lemma getNumSkippedTokens_le (h : ValidSpec m.kvCacheSpec) (n : ℕ) :
    m.getNumSkippedTokens n ≤ n := by
  unfold getNumSkippedTokens KVCacheSpec.getNumSkippedTokens
  split
  · rename_i hspec
    rw [hspec] at h
    have := h.2
    omega
  · exact_mod_cast Nat.div_mul_le_self _ _
  · omega
  · omega

lemma numSkippedBlocks_le (h : ValidSpec m.kvCacheSpec) (n : ℕ) :
    m.numSkippedBlocks n ≤ cdiv n m.blockSize := by
  calc
    m.numSkippedBlocks n ≤ (n : ℤ) / m.blockSize :=
      Int.ediv_le_ediv (by exact_mod_cast blockSize_pos h) (getNumSkippedTokens_le h n)
    _ ≤ cdiv n m.blockSize := by exact_mod_cast div_le_cdiv n m.blockSize

lemma Hits.neededBlocks (h : Hits pool reserved hits) (m : SingleTypeKVCacheManager) (total : ℕ) :
    Hits pool reserved (m.neededBlocks hits total) := by
  unfold SingleTypeKVCacheManager.neededBlocks
  split
  · exact h.drop _
  · exact h

lemma neededExternalTokens_pos (h : m.neededExternalTokens total numExternal > 0) : numExternal > 0 := by
  unfold neededExternalTokens at h
  split at h <;> omega

lemma allocateNewComputedBlocks_step {numLocal : ℕ} (hspec : ValidSpec m.kvCacheSpec)
    (hhits : Hits pool reserved hits) (hlen : m.kvCacheSpec.isCrossAttention = false → numExternal > 0 →
      hits.length ≤ cdiv (numLocal + numExternal) m.blockSize)
    (hinv : TableInv tracked reserved others fresh (m.blocksOf r) (m.numCached r) pool)
    (h : m.allocateNewComputedBlocks pool r hits numLocal numExternal = .ok (m', pool')) :
    TableStep tracked reserved others fresh r m pool m' pool' := by
  obtain ⟨rfl, rfl, -⟩ | ⟨pool₁, ret, hgives⟩ := allocateNewComputedBlocks_eq_ok h
  · exact tableStep_refl hinv
  · have hsame := (BlockPool.touch_spec hgives.touch).1
    have hneeded := hhits.neededBlocks m (numLocal + numExternal)
    have htable := (hgives.empty ▸ hinv).touch hneeded.real hneeded.once (m.numSkippedBlocks (numLocal + numExternal)).toNat
      hgives.touch
    rw [hsame.nullBlock, length_computed_table] at htable
    obtain ⟨hpos, hget⟩ | ⟨-, hnil, rfl⟩ := hgives.external
    · have hskip := numSkippedBlocks_le hspec (numLocal + numExternal)
      have hfit := hlen hgives.cross (neededExternalTokens_pos hpos)
      have hn : 0 ≤ (cdiv (numLocal + numExternal) m.blockSize : ℤ) -
          (max (m.numSkippedBlocks (numLocal + numExternal)).toNat hits.length : ℕ) := by omega
      obtain ⟨l, hfree⟩ := htable.free
      have htaken := (hfree.getNewBlocks_eq_ok htable.agrees hn hget).2.2.2
      refine ⟨hsame.toSameConfig.trans htaken.config, hgives.changes, ?_⟩
      rw [hgives.blocks, hgives.numCached]
      exact htable.take hn hget
    · refine ⟨hsame.toSameConfig, hgives.changes, ?_⟩
      rw [hgives.blocks, hgives.numCached, hnil, append_nil]
      exact htable

/-! ## New blocks -/

lemma AddsNew.step {numRequired : ℕ} (h : AddsNew r numRequired table newBlocks m pool m' pool')
    (hinv : TableInv tracked reserved others fresh table (m.numCached r) pool) (hle : table.length ≤ numRequired) :
    TableStep tracked reserved others fresh r m pool m' pool' ∧ (m'.blocksOf r).length = numRequired := by
  obtain ⟨l, hfree⟩ := hinv.free
  have hn : 0 ≤ (numRequired : ℤ) - table.length := by omega
  obtain ⟨hlength, -, -, htaken⟩ := hfree.getNewBlocks_eq_ok hinv.agrees hn h.get
  refine ⟨⟨htaken.config, h.changes, ?_⟩, ?_⟩
  · rw [h.blocks, h.numCached]
    exact hinv.take hn h.get
  · rw [h.blocks, length_append]
    omega

lemma pyIndex_of_nonneg (hidx : 0 ≤ idx) (hlt : idx < length) :
    pyIndex length idx = some idx.toNat := by
  rw [pyIndex, if_pos ⟨hidx, hlt⟩]

/-- Reusing speculative blocks moves blocks to the end and leaves null blocks behind. -/
structure Moved (nullBlock : BlockRef) (first : ℕ) (table table' : List BlockRef) : Prop where
  count : ∀ b, b ≠ nullBlock → table'.count b = table.count b
  drop : ∀ n ≤ first, ∀ b, b ≠ nullBlock → (table'.drop n).count b ≤ (table.drop n).count b

lemma moved_one {x : BlockRef} (front back : List BlockRef) :
    Moved nullBlock front.length (front ++ x :: back) (front ++ nullBlock :: back ++ [x]) where
  count b hne := by
    have hnull : ¬ nullBlock = b := fun he => hne he.symm
    simp only [count_append, count_cons, count_nil, beq_iff_eq, hnull, if_false]
    omega
  drop n hn b hne := by
    have hnull : ¬ nullBlock = b := fun he => hne he.symm
    rw [append_assoc, drop_append_of_le_length hn, drop_append_of_le_length hn]
    simp only [cons_append, count_append, count_cons, count_nil, beq_iff_eq,
      hnull, if_false]
    omega

lemma reuseSpeculativeBlocks_moved {numSkippedBlocks : ℤ} {count : ℕ} {blockIdx : ℤ} (hidx : 0 ≤ blockIdx)
    (hlt : count > 0 → blockIdx < table.length)
    (h : reuseSpeculativeBlocks nullBlock numSkippedBlocks count blockIdx table = .ok table') :
    Moved nullBlock blockIdx.toNat table table' ∧
      (table'.length : ℤ) = table.length + min (count : ℤ) (max 0 (numSkippedBlocks - blockIdx)) := by
  induction count generalizing blockIdx table with
  | zero =>
    cases h
    exact ⟨⟨fun _ _ => rfl, fun _ _ _ _ => le_rfl⟩, by simp⟩
  | succ count ih =>
    rw [reuseSpeculativeBlocks] at h
    by_cases hskip : blockIdx < numSkippedBlocks
    · have hbound := hlt (Nat.succ_pos _)
      set i := blockIdx.toNat with hi
      have hilt : i < table.length := by omega
      obtain ⟨front, x, back, hsplit, hfront⟩ :
          ∃ front x back, table = front ++ x :: back ∧ front.length = i :=
        ⟨table.take i, table.get ⟨i, hilt⟩, table.drop (i + 1),
          by simp [take_append_drop], by simp; omega⟩
      have hget : table.getD i nullBlock = x := by
        rw [hsplit, getD_eq_getElem?_getD, getElem?_append_right (by omega)]
        simp [hfront]
      have hset : (table ++ [x]).set i nullBlock = front ++ nullBlock :: back ++ [x] := by
        rw [hsplit, append_assoc, set_append_right _ _ (by omega)]
        simp [hfront]
      have hlen : (front ++ nullBlock :: back ++ [x]).length = table.length + 1 := by
        rw [hsplit]
        simp
        omega
      have hlen' : (table ++ [x]).length = table.length + 1 := by simp
      simp only [if_pos hskip, pyIndex_of_nonneg hidx hbound, ← hi, hget, hlen',
        pyIndex_of_nonneg hidx (show blockIdx < ((table.length + 1 : ℕ) : ℤ) by omega), hset] at h
      obtain ⟨hmoved, hlength⟩ := ih (by omega) (by intro _; rw [hlen]; omega) h
      have hone : Moved nullBlock front.length table (front ++ nullBlock :: back ++ [x]) := by
        rw [hsplit]
        exact moved_one front back
      refine ⟨⟨?_, ?_⟩, ?_⟩
      · intro b hne
        rw [hmoved.count b hne, hone.count b hne]
      · intro n hn b hne
        exact (hmoved.drop n (by omega) b hne).trans (hone.drop n (by omega) b hne)
      · rw [hlength, hlen]
        push_cast
        omega
    · simp only [if_neg hskip] at h
      cases h
      refine ⟨⟨fun _ _ => rfl, fun _ _ _ _ => le_rfl⟩, ?_⟩
      omega

/-- What `mamba_cache_mode` `align` keeps: a request with allocated blocks has its running state
and the speculative blocks at the end of its table, and these are not cached. The cached hits of
a request that is about to get its first blocks number at most `n`. -/
structure AlignState (tracked : Prop) (n : ℕ) (m : SingleTypeKVCacheManager) (r : RequestId) :
    Prop where
  length : r ∈ m.allocatedBlockReqs →
    m.kvCacheSpec.numSpeculativeBlocks + 1 ≤ (m.blocksOf r).length
  cached : tracked → m.numCached r + m.kvCacheSpec.numSpeculativeBlocks ≤ (m.blocksOf r).length ∨
    r ∉ m.allocatedBlockReqs ∧ m.numCached r ≤ n

lemma alignExtendBlocks_spec {numRequired : ℕ}
    (hinv : TableInv tracked reserved others fresh (m.blocksOf r) (m.numCached r) pool)
    (halign : AlignState tracked n m r) (hlt : (m.blocksOf r).length < numRequired)
    (h : m.alignExtendBlocks pool.nullBlock r
      ((numRequired : ℤ) - m.kvCacheSpec.numSpeculativeBlocks - 1) = .ok table) :
    TableInv tracked reserved others fresh table (m.numCached r) pool ∧ table.length < numRequired := by
  have hpad := hinv.pad ((numRequired : ℤ) - m.kvCacheSpec.numSpeculativeBlocks - 1 -
    (m.blocksOf r).length).toNat
  unfold alignExtendBlocks at h
  simp only at h
  split at h
  · rename_i halloc
    have hlen := halign.length halloc
    obtain ⟨hmoved, hlength⟩ := reuseSpeculativeBlocks_moved (by omega) (by simp; omega) h
    rw [length_append, length_replicate] at hlength
    refine ⟨hpad.rearrange hmoved.count ?_, by omega⟩
    intro ht b hne
    have hcached := (halign.cached ht).resolve_right fun hnot => hnot.1 halloc
    exact hmoved.drop _ (by omega) b hne
  · cases h
    refine ⟨hpad, ?_⟩
    rw [length_append, length_replicate]
    omega

lemma alignAllocateNewBlocks_step
    (hinv : TableInv tracked reserved others fresh (m.blocksOf r) (m.numCached r) pool)
    (halign : AlignState tracked n m r)
    (h : m.alignAllocateNewBlocks pool r numTokensMainModel = .ok (newBlocks, m', pool')) :
    TableStep tracked reserved others fresh r m pool m' pool' ∧
      (m'.blocksOf r).length =
        cdiv numTokensMainModel m.blockSize + m.kvCacheSpec.numSpeculativeBlocks ∧
      (m.blocksOf r).length ≤ (m'.blocksOf r).length ∧ m'.numCached r = m.numCached r := by
  obtain ⟨numRequired, rfl, ⟨heq, rfl, rfl⟩ | ⟨table, ret, hlt, htable, hadds⟩⟩ := alignAllocateNewBlocks_eq_ok h
  · refine ⟨tableStep_setBlocks (BlockPool.SameConfig.refl _) hinv, by simpa using heq.symm, ?_, rfl⟩
    rw [blocksOf_setBlocks]
  · obtain ⟨hext, hextlt⟩ := alignExtendBlocks_spec hinv halign hlt htable
    obtain ⟨hstep, hlength⟩ := hadds.step hext hextlt.le
    exact ⟨hstep, hlength, hlength ▸ hlt.le, hadds.numCached⟩

lemma allocateNewBlocks_step
    (hinv : TableInv tracked reserved others fresh (m.blocksOf r) (m.numCached r) pool)
    (halign : m.kvCacheSpec.isMambaAlign = true → AlignState tracked n m r)
    (h : m.allocateNewBlocks pool r numTokens numTokensMainModel = .ok (newBlocks, m', pool')) :
    TableStep tracked reserved others fresh r m pool m' pool' := by
  by_cases hmode : m.kvCacheSpec.isMambaAlign = true
  · rw [allocateNewBlocks_of_align hmode] at h
    exact (alignAllocateNewBlocks_step hinv (halign hmode) h).1
  · obtain ⟨k, h⟩ := allocateNewBlocks_of_not_align hmode h
    obtain ⟨rfl, rfl⟩ | ⟨hlt, hadds⟩ := baseAllocateNewBlocks_eq_ok h
    · exact tableStep_setBlocks (BlockPool.SameConfig.refl _) hinv
    · exact (hadds.step hinv hlt.le).1

/-! ## Caching -/

lemma cacheBlocks_step (hinv : TableInv tracked reserved others fresh (m.blocksOf request.requestId)
      (m.numCached request.requestId) pool) (h : m.cacheBlocks pool request numTokens = .ok (m', pool')) :
    TableStep tracked reserved others fresh request.requestId m pool m' pool' ∧
      m'.blocksOf request.requestId = m.blocksOf request.requestId ∧
      m'.numCached request.requestId =
        max (m.numCached request.requestId) (numTokens / m.blockSize) := by
  obtain ⟨⟨hchanges, hblocks, -⟩, ⟨hge, rfl, rfl⟩ | ⟨hlt, hnum, hcache⟩⟩ := cacheBlocks_eq_ok h
  · exact ⟨tableStep_refl hinv, rfl, by omega⟩
  · obtain ⟨_, -, hcached⟩ := BlockPool.cacheFullBlocks_cached hinv.agrees (fun b hb => (hinv.real b hb).1) hlt hcache
    refine ⟨⟨hcached.config, hchanges, ?_⟩, hblocks, by omega⟩
    rw [hblocks, hnum]
    exact hinv.cache hlt hcache

lemma cacheBlocks_noHashAssertion (ht : tracked)
    (hinv : TableInv tracked reserved others fresh (m.blocksOf request.requestId)
      (m.numCached request.requestId) pool) :
    BlockPool.NoHashAssertion (m.cacheBlocks pool request numTokens) := by
  unfold cacheBlocks
  split
  · exact fun _ h => by cases h
  · simp only
    split
    · exact BlockPool.noHashAssertion_ok _
    · exact (hinv.cache_noHashAssertion ht _ _ _ _).bind fun _ _ => BlockPool.noHashAssertion_ok _

/-! ## Freeing -/

lemma free_step (hinv : TableInv tracked reserved others fresh (m.blocksOf r) (m.numCached r) pool)
    (h : m.free pool r = .ok (m', pool')) :
    TableStep tracked reserved others fresh r m pool m' pool' ∧ m'.blocksOf r = [] ∧ m'.numCached r = 0 := by
  obtain ⟨hfree, hchanges, hblocks, hnum, -⟩ := free_eq_ok h
  refine ⟨⟨(BlockPool.freeBlocks_spec hfree).1.toSameConfig, hchanges, ?_⟩, hblocks, hnum⟩
  rw [hblocks, hnum]
  apply hinv.release _ _ _ hfree
  · intro b _
    simp
  · intro b hb
    exact hinv.real b (mem_reverse.mp hb)
  · intro _ b _
    simp

/-! ## Skipped blocks -/

/-- Skipping blocks leaves the length and the cached part of the table as they are. -/
structure SkipStep (tracked : Prop) (reserved : List BlockRef) (others fresh : BlockRef → ℕ)
    (r : RequestId) (m : SingleTypeKVCacheManager) (pool : BlockPool)
    (m' : SingleTypeKVCacheManager) (pool' : BlockPool) : Prop
    extends TableStep tracked reserved others fresh r m pool m' pool' where
  length : (m'.blocksOf r).length = (m.blocksOf r).length
  sameCached : m'.numCached r = m.numCached r
  sameAllocated : m'.allocatedBlockReqs = m.allocatedBlockReqs

lemma Skips.step (h : Skips r removed m pool m' pool')
    (hinv : TableInv tracked reserved others fresh (m.blocksOf r) (m.numCached r) pool) :
    TableStep tracked reserved others fresh r m pool m' pool' := by
  refine ⟨(BlockPool.freeBlocks_spec h.free).1.toSameConfig, h.changes, ?_⟩
  rw [h.numCached]
  exact hinv.release h.blanked.count (fun b hb => hinv.real b (h.blanked.subset b hb))
    (fun _ b hne => h.blanked.drop _ b hne) h.free

lemma removeSkippedBlocks_step
    (hinv : TableInv tracked reserved others fresh (m.blocksOf r) (m.numCached r) pool)
    (h : m.removeSkippedBlocks pool r totalComputedTokens = .ok (m', pool')) :
    SkipStep tracked reserved others fresh r m pool m' pool' := by
  obtain ⟨m₁, pool₁, removed, removed', hskips, hskips'⟩ := removeSkippedBlocks_eq_ok h
  have hstep := hskips.step hinv
  exact ⟨hstep.trans (hskips'.step hstep.inv), hskips'.blanked.length.trans hskips.blanked.length,
    hskips'.numCached.trans hskips.numCached, hskips'.allocated.trans hskips.allocated⟩

end VllmRuntime.SingleTypeKVCacheManager
