import VllmRuntime.Verification.BlockPool.Places
import VllmRuntime.Verification.KVCache.Managers

/-! # The places of held blocks

A block that some table holds stands in the tables of one group only, and in the tables of full
attention at one index only. What follows needs nothing of the free queue: a block that nobody
holds and that is not cached may be given any place. -/

namespace VllmRuntime

open List

/-- `place` is a place for `b` at index `i` of a table of the group. -/
def StandsAt (full : ℕ → Prop) (place : BlockRef → ℕ × ℕ) (groupId i : ℕ) (b : BlockRef) : Prop :=
  (place b).1 = groupId ∧ (full groupId → (place b).2 = i)

/-- One table of a group, next to other tables that hold block `b` at `others b` positions. -/
structure TablePlaced (indexed : BlockHash → ℕ → Prop) (full : ℕ → Prop) (place : BlockRef → ℕ × ℕ)
    (others : BlockRef → ℕ) (groupId : ℕ) (table : List BlockRef) (pool : BlockPool) : Prop where
  placed : pool.Placed indexed full place
  refCnt : ∀ b, b ≠ pool.nullBlock → pool.refCnt b = others b + table.count b
  held : ∀ (i : ℕ) (b : BlockRef), table[i]? = some b → b ≠ pool.nullBlock → StandsAt full place groupId i b
  real : full groupId → pool.nullBlock ∉ table

namespace TablePlaced

variable {indexed : BlockHash → ℕ → Prop} {full : ℕ → Prop} {place : BlockRef → ℕ × ℕ}
  {others : BlockRef → ℕ} {groupId : ℕ} {table table' : List BlockRef} {pool pool' : BlockPool}

section

variable (h : TablePlaced indexed full place others groupId table pool)
include h

/-- Blocks may leave the table, and move in it where the index does not count. -/
lemma of_kept (hconfig : BlockPool.SameConfig pool pool') (hplaced : pool'.Placed indexed full place)
    (hrefs : ∀ b, b ≠ pool.nullBlock → pool'.refCnt b = others b + table'.count b)
    (hsubset : ∀ b ∈ table', b ≠ pool.nullBlock → b ∈ table) (hsame : full groupId → table' = table) :
    TablePlaced indexed full place others groupId table' pool' where
  placed := hplaced
  refCnt := by
    rw [hconfig.nullBlock]
    exact hrefs
  held i b hi hne := by
    rw [hconfig.nullBlock] at hne
    obtain ⟨j, hj⟩ := getElem?_of_mem (hsubset b (mem_of_getElem? hi) hne)
    refine ⟨(h.held j b hj hne).1, fun hfull => ?_⟩
    rw [hsame hfull] at hi
    exact (h.held i b hi hne).2 hfull
  real hfull := by
    rw [hconfig.nullBlock, hsame hfull]
    exact h.real hfull

/-- The pool may change where it is not looked at. -/
lemma of_pool (hconfig : BlockPool.SameConfig pool pool') (hplaced : pool'.Placed indexed full place)
    (hrefs : pool'.refCnt = pool.refCnt) : TablePlaced indexed full place others groupId table pool' := by
  apply h.of_kept hconfig hplaced _ (fun _ hb _ => hb) (fun _ => rfl)
  intro b hne
  rw [hrefs]
  exact h.refCnt b hne

/-- Null blocks at the end of a table in which the index does not count. -/
lemma pad (hfull : ¬ full groupId) (n : ℕ) :
    TablePlaced indexed full place others groupId (table ++ List.replicate n pool.nullBlock) pool := by
  apply h.of_kept (BlockPool.SameConfig.refl _) h.placed
  · intro b hne
    rw [count_append, TableInv.count_replicate_null hne, Nat.add_zero]
    exact h.refCnt b hne
  · intro b hb hne
    rcases mem_append.mp hb with hb | hb
    · exact hb
    · exact absurd (eq_of_mem_replicate hb) hne
  · exact fun hf => absurd hf hfull

/-- Freed positions. -/
lemma release {removed : List BlockRef}
    (hcount : ∀ b, b ≠ pool.nullBlock → table.count b = table'.count b + removed.count b)
    (hfull : full groupId → table' = table ∨ table' = []) (hfree : pool.freeBlocks removed = .ok pool') :
    TablePlaced indexed full place others groupId table' pool' := by
  obtain ⟨hsame, hrefs⟩ := BlockPool.freeBlocks_spec hfree
  have hplaced := h.placed.freeBlocks hfree
  have hcounts : ∀ b, b ≠ pool.nullBlock → pool'.refCnt b = others b + table'.count b := by
    intro b hne
    rw [hrefs, h.refCnt b hne, hcount b hne]
    push_cast
    ring
  have hmem : ∀ b ∈ table', b ≠ pool.nullBlock → b ∈ table := by
    intro b hb hne
    have hpos := count_pos_iff.mpr hb
    have hsum := hcount b hne
    exact count_pos_iff.mp (by omega)
  refine ⟨hplaced, ?_, ?_, ?_⟩
  · rw [hsame.nullBlock]
    exact hcounts
  · intro i b hi hne
    rw [hsame.nullBlock] at hne
    obtain ⟨j, hj⟩ := getElem?_of_mem (hmem b (mem_of_getElem? hi) hne)
    refine ⟨(h.held j b hj hne).1, fun hf => ?_⟩
    rcases hfull hf with he | he
    · rw [he] at hi
      exact (h.held i b hi hne).2 hf
    · simp [he] at hi
  · intro hf
    rw [hsame.nullBlock]
    rcases hfull hf with he | he
    · exact he ▸ h.real hf
    · simp [he]

end

/-- A table that starts with touched hits at their places. -/
lemma touch (h : TablePlaced indexed full place others groupId [] pool) {hits : List BlockRef} {n : ℕ}
    (hplaces : ∀ (i : ℕ) (b : BlockRef), hits[i]? = some b → b ≠ pool.nullBlock →
      StandsAt full place groupId (n + i) b)
    (hreal : full groupId → n = 0 ∧ pool.nullBlock ∉ hits) (htouch : pool.touch hits = .ok pool') :
    TablePlaced indexed full place others groupId (List.replicate n pool'.nullBlock ++ hits) pool' := by
  obtain ⟨hsame, hrefs⟩ := BlockPool.touch_spec htouch
  rw [hsame.nullBlock]
  refine ⟨h.placed.touch htouch, ?_, ?_, ?_⟩
  · rw [hsame.nullBlock]
    intro b hne
    rw [hrefs, h.refCnt b hne, count_append, TableInv.count_replicate_null hne]
    simp
  · intro i b hi hne
    rw [hsame.nullBlock] at hne
    rw [getElem?_append] at hi
    split at hi
    · exact absurd (eq_of_mem_replicate (mem_of_getElem? hi)) hne
    · rename_i hge
      rw [length_replicate] at hge hi
      have hplace := hplaces (i - n) b hi hne
      rwa [Nat.add_sub_of_le (Nat.le_of_not_lt hge)] at hplace
  · intro hf
    obtain ⟨rfl, hnot⟩ := hreal hf
    rw [hsame.nullBlock]
    simpa using hnot

/-- The places when `ret` is appended to a table of length `length`. -/
def placeNew (place : BlockRef → ℕ × ℕ) (groupId length : ℕ) (ret : List BlockRef) (b : BlockRef) : ℕ × ℕ :=
  if b ∈ ret then (groupId, length + ret.idxOf b) else place b

/-- New blocks at the end of the table get their places there. -/
lemma append (h : TablePlaced indexed full place others groupId table pool) {ret : List BlockRef}
    (hnew : BlockPool.TakesNew indexed full place pool pool' ret) :
    TablePlaced indexed full (placeNew place groupId table.length ret) others groupId (table ++ ret) pool' ∧
      ∀ b, b ≠ pool.nullBlock → (0 < others b ∨ pool'.IsCached b) →
        placeNew place groupId table.length ret b = place b := by
  have hunheld : ∀ b ∈ ret, others b = 0 ∧ b ∉ table := by
    intro b hb
    have hzero := hnew.unused b hb
    have hrefs := h.refCnt b fun he => hnew.not_null (he ▸ hb)
    rw [← count_eq_zero]
    omega
  have hold : ∀ b, b ∉ ret → placeNew place groupId table.length ret b = place b :=
    fun b hb => if_neg hb
  refine ⟨⟨?_, ?_, ?_, ?_⟩, ?_⟩
  · exact hnew.placed.congr fun b hb => hold b fun hmem => hnew.not_cached b hmem hb
  · intro b hne
    rw [hnew.config.nullBlock] at hne
    rw [hnew.refCnt, h.refCnt b hne, count_append]
    push_cast
    ring
  · intro i b hi hne
    rw [hnew.config.nullBlock] at hne
    rw [getElem?_append] at hi
    split at hi
    · have hmem : b ∉ ret := fun hb => (hunheld b hb).2 (mem_of_getElem? hi)
      rw [StandsAt, hold b hmem]
      exact h.held i b hi hne
    · rename_i hge
      have hmem := mem_of_getElem? hi
      obtain ⟨hlt, hget⟩ := List.getElem?_eq_some_iff.mp hi
      have hidx : ret.idxOf b = i - table.length := by
        rw [← hget]
        exact hnew.nodup.idxOf_getElem _ hlt
      rw [StandsAt, placeNew, if_pos hmem, hidx]
      exact ⟨rfl, fun _ => by omega⟩
  · intro hfull
    rw [hnew.config.nullBlock, mem_append, not_or]
    exact ⟨h.real hfull, hnew.not_null⟩
  · intro b _ hkeep
    apply hold
    intro hmem
    rcases hkeep with hpos | hcached
    · rw [(hunheld b hmem).1] at hpos
      exact Nat.lt_irrefl 0 hpos
    · exact hnew.not_cached b hmem hcached

end TablePlaced

namespace SingleTypeKVCacheManager

/-- A step of the table of `r` after which the blocks have the places `place'`. Blocks that other
tables hold or that are still cached stay where they are. -/
structure PlaceStep (indexed : BlockHash → ℕ → Prop) (full : ℕ → Prop) (place : BlockRef → ℕ × ℕ)
    (others : BlockRef → ℕ) (r : RequestId) (m : SingleTypeKVCacheManager) (pool : BlockPool)
    (place' : BlockRef → ℕ × ℕ) (m' : SingleTypeKVCacheManager) (pool' : BlockPool) : Prop where
  config : BlockPool.SameConfig pool pool'
  changes : Changes m m' r
  table : TablePlaced indexed full place' others m.kvCacheGroupId (m'.blocksOf r) pool'
  keeps : ∀ b, b ≠ pool.nullBlock → (0 < others b ∨ pool'.IsCached b) → place' b = place b

variable {indexed : BlockHash → ℕ → Prop} {full : ℕ → Prop} {place place' place'' : BlockRef → ℕ × ℕ}
  {others : BlockRef → ℕ} {m m' m'' : SingleTypeKVCacheManager} {r : RequestId} {pool pool' pool'' : BlockPool}
  {n numTokens numTokensMainModel totalComputedTokens : ℕ} {newBlocks table : List BlockRef}

lemma placeStep_of_table (hconfig : BlockPool.SameConfig pool pool') (hchanges : Changes m m' r)
    (h : TablePlaced indexed full place others m.kvCacheGroupId (m'.blocksOf r) pool') :
    PlaceStep indexed full place others r m pool place m' pool' :=
  ⟨hconfig, hchanges, h, fun _ _ _ => rfl⟩

lemma placeStep_refl (h : TablePlaced indexed full place others m.kvCacheGroupId (m.blocksOf r) pool) :
    PlaceStep indexed full place others r m pool place m pool :=
  placeStep_of_table (BlockPool.SameConfig.refl _) (Changes.refl m r) h

lemma placeStep_setBlocks {blocks : List BlockRef} (hconfig : BlockPool.SameConfig pool pool')
    (h : TablePlaced indexed full place others m.kvCacheGroupId blocks pool') :
    PlaceStep indexed full place others r m pool place (m.setBlocks r blocks) pool' :=
  placeStep_of_table hconfig (changes_setBlocks m r blocks) (by simpa using h)

/-- A step that keeps the places, before one that does not. -/
lemma PlaceStep.before (h : PlaceStep indexed full place others r m pool place m' pool')
    (h' : PlaceStep indexed full place others r m' pool' place' m'' pool'') :
    PlaceStep indexed full place others r m pool place' m'' pool'' where
  config := h.config.trans h'.config
  changes := h.changes.trans h'.changes
  table := h.changes.groupId ▸ h'.table
  keeps b hne hkeep := h'.keeps b (by rwa [h.config.nullBlock]) hkeep

/-! ## Allocating -/

lemma numSkippedBlocks_of_full (h : m.kvCacheSpec.isFullAttention = true) (n : ℕ) :
    m.numSkippedBlocks n = 0 := by
  unfold numSkippedBlocks getNumSkippedTokens KVCacheSpec.getNumSkippedTokens
  cases hspec : m.kvCacheSpec <;> simp [hspec, KVCacheSpec.isFullAttention] at h ⊢

/-- New blocks get their places behind the table. -/
lemma AddsNew.placeStep {numRequired : ℕ} (hadds : AddsNew r numRequired table newBlocks m pool m' pool')
    (h : TablePlaced indexed full place others m.kvCacheGroupId table pool) :
    ∃ place', PlaceStep indexed full place others r m pool place' m' pool' := by
  obtain ⟨hnew, -⟩ := h.placed.getNewBlocks hadds.get
  obtain ⟨htable, hkeeps⟩ := h.append hnew
  exact ⟨_, hnew.config, hadds.changes, hadds.blocks ▸ htable, hkeeps⟩

section

variable (h : TablePlaced indexed full place others m.kvCacheGroupId (m.blocksOf r) pool)
include h

lemma allocateNewComputedBlocks_place {hits : List BlockRef} {numLocal numExternal : ℕ}
    (hfull : full m.kvCacheGroupId → m.kvCacheSpec.isFullAttention = true)
    (hhits : ∀ (i : ℕ) (b : BlockRef), hits[i]? = some b → b ≠ pool.nullBlock →
      b ∈ m.neededBlocks hits (numLocal + numExternal) → StandsAt full place m.kvCacheGroupId i b)
    (hreal : full m.kvCacheGroupId → pool.nullBlock ∉ hits)
    (hrun : m.allocateNewComputedBlocks pool r hits numLocal numExternal = .ok (m', pool')) :
    (∃ place', PlaceStep indexed full place others r m pool place' m' pool') ∧
      ∀ b, pool'.IsCached b → pool.IsCached b := by
  obtain ⟨rfl, rfl, -⟩ | ⟨pool₁, ret, hgives⟩ := allocateNewComputedBlocks_eq_ok hrun
  · exact ⟨⟨place, placeStep_refl h⟩, fun _ hb => hb⟩
  · have hsame := (BlockPool.touch_spec hgives.touch).1
    have hcached : ∀ b, pool₁.IsCached b → pool.IsCached b := by
      rintro b ⟨key, hin⟩
      rw [hsame.cache] at hin
      exact ⟨key, hin⟩
    have htable := (hgives.empty ▸ h).touch (n := (m.numSkippedBlocks (numLocal + numExternal)).toNat)
      (fun i b hi hne => ?places) (fun hf => ?real) hgives.touch
    case places =>
      -- The needed hits keep their indices behind the null blocks.
      apply hhits _ b _ hne (mem_of_getElem? hi)
      rw [SingleTypeKVCacheManager.neededBlocks] at hi
      split at hi
      · rwa [getElem?_drop] at hi
      · rwa [show (m.numSkippedBlocks (numLocal + numExternal)).toNat = 0 by omega, Nat.zero_add]
    case real =>
      have hzero := numSkippedBlocks_of_full (hfull hf) (numLocal + numExternal)
      rw [SingleTypeKVCacheManager.neededBlocks, if_neg (by omega)]
      exact ⟨by omega, hreal hf⟩
    rw [hsame.nullBlock] at htable
    obtain ⟨-, hget⟩ | ⟨-, hnil, rfl⟩ := hgives.external
    · obtain ⟨hnew, -⟩ := htable.placed.getNewBlocks hget
      obtain ⟨htable', hkeeps⟩ := htable.append hnew
      exact ⟨⟨_, hsame.toSameConfig.trans hnew.config, hgives.changes, hgives.blocks ▸ htable',
        hsame.nullBlock ▸ hkeeps⟩, fun b hb => hcached b (hnew.cached b hb)⟩
    · refine ⟨⟨place, placeStep_of_table hsame.toSameConfig hgives.changes ?_⟩, hcached⟩
      rw [hgives.blocks, hnil, append_nil]
      exact htable

/-- The table of mode `align` before new blocks are taken. -/
lemma alignExtendBlocks_place {numRequired : ℕ} (hfull : ¬ full m.kvCacheGroupId) (halign : AlignState False n m r)
    (hlt : (m.blocksOf r).length < numRequired) (hrun : m.alignExtendBlocks pool.nullBlock r
      ((numRequired : ℤ) - m.kvCacheSpec.numSpeculativeBlocks - 1) = .ok table) :
    TablePlaced indexed full place others m.kvCacheGroupId table pool ∧ table.length < numRequired := by
  have hpad := h.pad hfull ((numRequired : ℤ) - m.kvCacheSpec.numSpeculativeBlocks - 1 -
    (m.blocksOf r).length).toNat
  unfold alignExtendBlocks at hrun
  dsimp only at hrun
  split at hrun
  · rename_i halloc
    have hlen := halign.length halloc
    obtain ⟨hmoved, hlength⟩ := reuseSpeculativeBlocks_moved (by omega) (by simp; omega) hrun
    rw [length_append, length_replicate] at hlength
    refine ⟨?_, by omega⟩
    apply hpad.of_kept (BlockPool.SameConfig.refl _) h.placed
    · intro b hne
      rw [hmoved.count b hne]
      exact hpad.refCnt b hne
    · intro b hb hne
      rw [← count_pos_iff, ← hmoved.count b hne]
      exact count_pos_iff.mpr hb
    · exact fun hf => absurd hf hfull
  · cases hrun
    refine ⟨hpad, ?_⟩
    rw [length_append, length_replicate]
    omega

lemma alignAllocateNewBlocks_place (hfull : ¬ full m.kvCacheGroupId) (halign : AlignState False n m r)
    (hmain : 0 < cdiv numTokensMainModel m.blockSize)
    (hrun : m.alignAllocateNewBlocks pool r numTokensMainModel = .ok (newBlocks, m', pool')) :
    (∃ place', PlaceStep indexed full place others r m pool place' m' pool') ∧ AlignState False 0 m' r := by
  obtain ⟨numRequired, rfl, ⟨-, rfl, rfl⟩ | ⟨table, ret, hlt, htable, hadds⟩⟩ := alignAllocateNewBlocks_eq_ok hrun
  · refine ⟨⟨place, placeStep_setBlocks (BlockPool.SameConfig.refl _) h⟩, ?_, False.elim⟩
    rw [blocksOf_setBlocks]
    exact halign.length
  · obtain ⟨hext, hextlt⟩ := alignExtendBlocks_place h hfull halign hlt htable
    obtain ⟨hnew, hlength⟩ := hext.placed.getNewBlocks hadds.get
    refine ⟨hadds.placeStep hext, fun _ => ?_, False.elim⟩
    rw [hadds.blocks, hadds.changes.spec, length_append]
    omega

lemma allocateNewBlocks_place (hfull : full m.kvCacheGroupId → m.kvCacheSpec.isFullAttention = true)
    (halign : m.kvCacheSpec.isMambaAlign = true → AlignState False n m r)
    (hmain : 0 < cdiv numTokensMainModel m.blockSize)
    (hrun : m.allocateNewBlocks pool r numTokens numTokensMainModel = .ok (newBlocks, m', pool')) :
    (∃ place', PlaceStep indexed full place others r m pool place' m' pool') ∧
      (m.kvCacheSpec.isMambaAlign = true → AlignState False 0 m' r) := by
  by_cases hmode : m.kvCacheSpec.isMambaAlign = true
  · rw [allocateNewBlocks_of_align hmode] at hrun
    obtain ⟨hstep, halign'⟩ := alignAllocateNewBlocks_place h (fun hf => not_full_of_align hmode (hfull hf))
      (halign hmode) hmain hrun
    exact ⟨hstep, fun _ => halign'⟩
  · refine ⟨?_, fun hm => absurd hm hmode⟩
    obtain ⟨k, hrun⟩ := allocateNewBlocks_of_not_align hmode hrun
    obtain ⟨rfl, rfl⟩ | ⟨-, hadds⟩ := baseAllocateNewBlocks_eq_ok hrun
    · exact ⟨place, placeStep_setBlocks (BlockPool.SameConfig.refl _) h⟩
    · exact hadds.placeStep h

end

/-- Without tracking, only the length of the table and the requests with states matter. -/
lemma AlignState.of_length {n' : ℕ} (h : AlignState False n m r) (hspec : m'.kvCacheSpec = m.kvCacheSpec)
    (hlength : (m'.blocksOf r).length = (m.blocksOf r).length)
    (hallocated : m'.allocatedBlockReqs = m.allocatedBlockReqs) : AlignState False n' m' r := by
  refine ⟨?_, False.elim⟩
  rw [hspec, hlength, hallocated]
  exact h.length

/-! ## Caching and freeing -/

lemma cacheBlocks_place {request : Request}
    (h : TablePlaced indexed full place others m.kvCacheGroupId (m.blocksOf request.requestId) pool)
    (hid : m.kvCacheGroupId < 2 ^ 32) (hhashes : ∀ (blockHashes : List BlockHash) (i : ℕ) (hash : BlockHash),
      pool.requestBlockHashes request m.blockSize = .ok blockHashes → blockHashes[i]? = some hash → indexed hash i)
    (hrun : m.cacheBlocks pool request numTokens = .ok (m', pool')) :
    PlaceStep indexed full place others request.requestId m pool place m' pool' ∧
      m'.blocksOf request.requestId = m.blocksOf request.requestId ∧
      m'.allocatedBlockReqs = m.allocatedBlockReqs := by
  obtain ⟨⟨hchanges, hblocks, hallocated⟩, ⟨-, rfl, rfl⟩ | ⟨-, -, hcache⟩⟩ := cacheBlocks_eq_ok hrun
  · exact ⟨placeStep_refl h, rfl, rfl⟩
  · obtain ⟨hplaced, hsame⟩ := h.placed.cacheFullBlocks hid h.held hhashes hcache
    refine ⟨placeStep_of_table hsame.toSameConfig hchanges ?_, hblocks, hallocated⟩
    rw [hblocks]
    exact h.of_pool hsame.toSameConfig hplaced hsame.refCnt

lemma free_place (h : TablePlaced indexed full place others m.kvCacheGroupId (m.blocksOf r) pool)
    (hrun : m.free pool r = .ok (m', pool')) :
    PlaceStep indexed full place others r m pool place m' pool' ∧ m'.blocksOf r = [] := by
  obtain ⟨hfree, hchanges, hblocks, -⟩ := free_eq_ok hrun
  refine ⟨placeStep_of_table (BlockPool.freeBlocks_spec hfree).1.toSameConfig hchanges ?_, hblocks⟩
  rw [hblocks]
  exact h.release (fun b _ => by simp) (fun _ => Or.inr rfl) hfree

lemma Skips.placeStep {removed : List BlockRef} (hskips : Skips r removed m pool m' pool')
    (h : TablePlaced indexed full place others m.kvCacheGroupId (m.blocksOf r) pool)
    (hfull : full m.kvCacheGroupId → m.kvCacheSpec.isFullAttention = true) :
    PlaceStep indexed full place others r m pool place m' pool' :=
  placeStep_of_table (BlockPool.freeBlocks_spec hskips.free).1.toSameConfig hskips.changes
    (h.release hskips.blanked.count (fun hf => .inl (hskips.full (hfull hf))) hskips.free)

/-- The length of the table and the requests with states are as before. -/
structure SkipPlaceStep (indexed : BlockHash → ℕ → Prop) (full : ℕ → Prop) (place : BlockRef → ℕ × ℕ)
    (others : BlockRef → ℕ) (r : RequestId) (m : SingleTypeKVCacheManager) (pool : BlockPool)
    (m' : SingleTypeKVCacheManager) (pool' : BlockPool) : Prop
    extends PlaceStep indexed full place others r m pool place m' pool' where
  length : (m'.blocksOf r).length = (m.blocksOf r).length
  sameAllocated : m'.allocatedBlockReqs = m.allocatedBlockReqs

lemma removeSkippedBlocks_place (h : TablePlaced indexed full place others m.kvCacheGroupId (m.blocksOf r) pool)
    (hfull : full m.kvCacheGroupId → m.kvCacheSpec.isFullAttention = true)
    (hrun : m.removeSkippedBlocks pool r totalComputedTokens = .ok (m', pool')) :
    SkipPlaceStep indexed full place others r m pool m' pool' := by
  obtain ⟨m₁, pool₁, removed, removed', hskips, hskips'⟩ := removeSkippedBlocks_eq_ok hrun
  have hstep := hskips.placeStep h hfull
  have hstep' := hskips'.placeStep (hstep.changes.groupId.symm ▸ hstep.table)
    (by rwa [hstep.changes.groupId, hstep.changes.spec])
  exact ⟨hstep.before hstep', hskips'.blanked.length.trans hskips.blanked.length,
    hskips'.allocated.trans hskips.allocated⟩

end SingleTypeKVCacheManager

end VllmRuntime
