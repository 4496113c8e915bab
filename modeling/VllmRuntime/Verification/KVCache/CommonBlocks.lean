import VllmRuntime.Shared.Runs
import VllmRuntime.Verification.KVCache.Places
import VllmRuntime.Verification.KVCache.Runs

/-! # Common blocks

Full attention counts how many leading blocks of a request are held by as many requests as have
blocks at all. As long as every block stands at one place these requests hold them at the same
indices. A block loses its place when the external tokens of one group take a block that a later
group has as a hit. -/

namespace VllmRuntime

open List

variable {enableCaching : Bool} {dcpWorldSize pcpWorldSize : ℕ} {hashBlockSize i g g' : ℕ}
  {enableKvCacheEvents useIntBlockHashes : Bool} {nullBlock : BlockRef} {hash : BlockHash}
  {kv : KVCacheManager}

open BlockHash SingleTypeKVCacheManager

/-! ## Construction -/

/-- The null block is taken out of the queue at once. -/
lemma BlockPool.new_avoids {numGpuBlocks : ℕ} {pool : BlockPool}
    (h : BlockPool.new numGpuBlocks enableCaching hashBlockSize enableKvCacheEvents useIntBlockHashes = .ok pool) :
    pool.nullBlock = .block 0 ∧ pool.freeBlockQueue.links.Avoids pool.nullBlock := by
  obtain ⟨_, hpos, h⟩ := bind_eq_ok h
  obtain ⟨⟨nullBlock, queue⟩, hpop, hret⟩ := bind_eq_ok h
  cases hret
  obtain ⟨n, rfl⟩ : ∃ n, numGpuBlocks = n + 1 :=
    Nat.exists_eq_succ_of_ne_zero (Nat.ne_of_gt (by simpa using pyAssert_eq_ok.mp hpos))
  have hinj : Function.Injective BlockRef.block := fun a b hab => by simpa using hab
  have hsplit : (range (n + 1)).map BlockRef.block =
      .block 0 :: (range n).map fun i => .block (i + 1) := by
    rw [range_succ_eq_map]
    simp
  have hqueue := FreeKVCacheBlockQueue.new_isQueue (nodup_range.map hinj : ((range (n + 1)).map _).Nodup)
    (by simp) (by simp)
  rw [hsplit] at hqueue hpop
  obtain ⟨queue', hpop', -⟩ := FreeKVCacheBlockQueue.popleft_isQueue hqueue
  cases hpop.symm.trans hpop'
  refine ⟨rfl, FreeKVCacheBlockQueue.popleft_avoids (by simp) (fun b hb => ?_) hpop⟩
  -- Only the head of the list led to its first block.
  change (Links.connectAll (Links.connect _ .fakeHead (.block 0)) _).next b ≠ _
  refine Links.connectAll_next_ne ?_ (by simp)
  rw [Links.connect_next_of_ne _ hb]
  simp

lemma SingleTypeKVCacheManager.new_avoids {spec : KVCacheSpec} {pool pool' : BlockPool} {kvCacheGroupId : ℕ}
    {m : SingleTypeKVCacheManager} (hlinks : pool.freeBlockQueue.links.Avoids nullBlock)
    (h : SingleTypeKVCacheManager.new spec pool enableCaching kvCacheGroupId dcpWorldSize pcpWorldSize =
      .ok (m, pool')) : pool'.freeBlockQueue.links.Avoids nullBlock := by
  unfold SingleTypeKVCacheManager.new at h
  split at h
  · dsimp only at h
    split at h
    · cases h
    · obtain ⟨_, -, h⟩ := bind_eq_ok h
      obtain ⟨⟨sinks, queue⟩, hpop, hret⟩ := bind_eq_ok h
      cases hret
      exact (FreeKVCacheBlockQueue.popleftN_avoids hlinks hpop).2.1
  · cases h
    exact hlinks

lemma newManagers_avoids {specs : List KVCacheSpec} {pool pool' : BlockPool}
    {ms : List SingleTypeKVCacheManager} (hlinks : pool.freeBlockQueue.links.Avoids nullBlock)
    (h : newManagers enableCaching dcpWorldSize pcpWorldSize i specs pool = .ok (ms, pool')) :
    pool'.freeBlockQueue.links.Avoids nullBlock := by
  induction specs generalizing i pool ms with
  | nil =>
    cases h
    exact hlinks
  | cons spec specs ih =>
    rw [newManagers] at h
    obtain ⟨⟨m, pool₁⟩, hm, h⟩ := bind_eq_ok h
    obtain ⟨⟨ms₁, pool₂⟩, hrest, hret⟩ := bind_eq_ok h
    cases hret
    exact ih (SingleTypeKVCacheManager.new_avoids hlinks hm) hrest

/-! ## All tables -/

/-- The groups of full attention. -/
def FullGroup (specs : List KVCacheSpec) (groupId : ℕ) : Prop :=
  ∃ spec, specs[groupId]? = some spec ∧ spec.isFullAttention = true

/-- Every block that a table holds stands at its place. -/
structure TablesPlaced (indexed : BlockHash → ℕ → Prop) (full : ℕ → Prop) (place : BlockRef → ℕ × ℕ)
    (ms : List SingleTypeKVCacheManager) (pool : BlockPool) : Prop where
  placed : pool.Placed indexed full place
  refCnt : ∀ b, b ≠ pool.nullBlock → pool.refCnt b = numPositions ms b
  held : ∀ m ∈ ms, ∀ (r : RequestId) (i : ℕ) (b : BlockRef), (m.blocksOf r)[i]? = some b → b ≠ pool.nullBlock →
    StandsAt full place m.kvCacheGroupId i b
  real : ∀ m ∈ ms, full m.kvCacheGroupId → ∀ r, pool.nullBlock ∉ m.blocksOf r

variable {indexed : BlockHash → ℕ → Prop} {full : ℕ → Prop} {place place' : BlockRef → ℕ × ℕ}
  {front back ms : List SingleTypeKVCacheManager} {m m' : SingleTypeKVCacheManager} {r : RequestId}
  {pool pool' : BlockPool}

/-- A block in another table of the same group is held elsewhere. -/
lemma holdsElsewhere_pos {r' : RequestId} {b : BlockRef} (hne : r' ≠ r) (hb : b ∈ m.blocksOf r') :
    0 < m.holdsElsewhere r b := by
  unfold SingleTypeKVCacheManager.blocksOf at hb
  cases hlook : m.reqToBlocks.lookup r' with
  | none => simp [hlook] at hb
  | some blocks =>
    rw [hlook] at hb
    have hin : (m.reqToBlocks.erase r).lookup r' = some blocks := by
      rw [AList.lookup_erase_ne hne, hlook]
    exact lt_of_lt_of_le (count_pos_iff.mpr hb)
      (le_dictSum (fun (_ : RequestId) (blocks : List BlockRef) => blocks.count b) hin)

namespace TablesPlaced

variable {b : BlockRef}

lemma focus (h : TablesPlaced indexed full place (front ++ m :: back) pool) (r : RequestId) :
    TablePlaced indexed full place (CacheInv.frame front back m r) m.kvCacheGroupId (m.blocksOf r) pool where
  placed := h.placed
  refCnt b hne := by
    rw [h.refCnt b hne, CacheInv.numPositions_frame front back m r b]
    push_cast
    rfl
  held := h.held m (by simp) r
  real hf := h.real m (by simp) hf r

lemma step (h : TablesPlaced indexed full place (front ++ m :: back) pool)
    (hstep : PlaceStep indexed full place (CacheInv.frame front back m r) r m pool place' m' pool') :
    TablesPlaced indexed full place' (front ++ m' :: back) pool' := by
  have hnull := hstep.config.nullBlock
  have hframe : ∀ b, CacheInv.frame front back m' r b = CacheInv.frame front back m r b := by
    intro b
    unfold CacheInv.frame
    rw [hstep.changes.holdsElsewhere]
  -- A table is the changed one or an old one in the frame.
  have htables : ∀ m₁ ∈ front ++ m' :: back, ∀ r₁,
      (m₁.blocksOf r₁ = m'.blocksOf r ∧ m₁.kvCacheGroupId = m.kvCacheGroupId) ∨
      ∃ m₂ ∈ front ++ m :: back, m₁.blocksOf r₁ = m₂.blocksOf r₁ ∧ m₁.kvCacheGroupId = m₂.kvCacheGroupId ∧
        ∀ b ∈ m₂.blocksOf r₁, 0 < CacheInv.frame front back m r b := by
    intro m₁ hm₁ r₁
    rw [mem_append, mem_cons] at hm₁
    rcases hm₁ with hm₁ | rfl | hm₁
    · refine Or.inr ⟨m₁, by simp [hm₁], rfl, rfl, fun b hb => ?_⟩
      have hpos := numPositions_pos hm₁ hb
      unfold CacheInv.frame
      omega
    · by_cases hr : r₁ = r
      · exact Or.inl ⟨by rw [hr], hstep.changes.groupId⟩
      · refine Or.inr ⟨m, by simp, hstep.changes.blocksOf r₁ hr, hstep.changes.groupId, fun b hb => ?_⟩
        have hpos := holdsElsewhere_pos hr hb
        unfold CacheInv.frame
        omega
    · refine Or.inr ⟨m₁, by simp [hm₁], rfl, rfl, fun b hb => ?_⟩
      have hpos := numPositions_pos hm₁ hb
      unfold CacheInv.frame
      omega
  refine ⟨hstep.table.placed, ?_, ?_, ?_⟩
  · intro b hne
    rw [hstep.table.refCnt b hne, CacheInv.numPositions_frame front back m' r b, hframe]
    push_cast
    rfl
  · intro m₁ hm₁ r₁ i b hi hne
    rcases htables m₁ hm₁ r₁ with ⟨hblocks, hid⟩ | ⟨m₂, hm₂, hblocks, hid, hpos⟩
    · rw [hid]
      exact hstep.table.held i b (hblocks ▸ hi) hne
    · rw [hnull] at hne
      rw [hblocks] at hi
      rw [StandsAt, hstep.keeps b hne (Or.inl (hpos b (mem_of_getElem? hi))), hid]
      exact h.held m₂ hm₂ r₁ i b hi hne
  · intro m₁ hm₁ hf r₁
    rcases htables m₁ hm₁ r₁ with ⟨hblocks, hid⟩ | ⟨m₂, hm₂, hblocks, hid, -⟩
    · rw [hblocks]
      exact hstep.table.real (hid ▸ hf)
    · rw [hnull, hblocks]
      exact h.real m₂ hm₂ (hid ▸ hf) r₁

/-- The pool may change where the tables do not look. -/
lemma of_shrinks (h : TablesPlaced indexed full place ms pool) (hs : BlockPool.Shrinks pool pool') :
    TablesPlaced indexed full place ms pool' := by
  have hnull := hs.config.nullBlock
  refine ⟨h.placed.shrinks hs, ?_, ?_, ?_⟩
  · rw [hs.refCnt, hnull]
    exact h.refCnt
  · rw [hnull]
    exact h.held
  · rw [hnull]
    exact h.real

/-- A table of full attention holds a block at one index at most. -/
lemma count_le_one (h : TablesPlaced indexed full place ms pool) (hm : m ∈ ms)
    (hf : full m.kvCacheGroupId) (hb : b ≠ pool.nullBlock) (r : RequestId) :
    (m.blocksOf r).count b ≤ 1 := by
  by_contra hcount
  obtain ⟨i, j, hlt, hi, hj⟩ := List.duplicate_iff_exists_distinct_get.mp
    (List.duplicate_iff_two_le_count.mpr (by omega : 2 ≤ (m.blocksOf r).count b))
  have hindex : ∀ i : Fin (m.blocksOf r).length, b = (m.blocksOf r).get i → (place b).2 = i := by
    intro i hi
    exact (h.held m hm r i b (List.getElem?_eq_some_iff.mpr ⟨i.2, hi.symm⟩) hb).2 hf
  have hi := hindex i hi
  have hj := hindex j hj
  omega

/-- Only the tables of its group hold a block. -/
lemma numPositions_eq (h : TablesPlaced indexed full place (front ++ m :: back) pool)
    (hids : ∀ m' ∈ front ++ back, m'.kvCacheGroupId ≠ m.kvCacheGroupId) (hb : b ≠ pool.nullBlock)
    (hmem : b ∈ m.blocksOf r) : numPositions (front ++ m :: back) b = m.holds b := by
  have hgroup : ∀ m' ∈ front ++ m :: back, ∀ r', b ∈ m'.blocksOf r' → (place b).1 = m'.kvCacheGroupId := by
    intro m' hm' r' hb'
    obtain ⟨i, hi⟩ := getElem?_of_mem hb'
    exact (h.held m' hm' r' i b hi hb).1
  have hnone : ∀ ms', (∀ m' ∈ ms', m' ∈ front ++ back) → numPositions ms' b = 0 := by
    intro ms' hsub
    refine numPositions_eq_zero fun m' hm' r' hb' => hids m' (hsub m' hm') ?_
    have hin : m' ∈ front ++ m :: back := by
      have hm' := hsub m' hm'
      rw [mem_append] at hm'
      rw [mem_append, mem_cons]
      tauto
    rw [← hgroup m' hin r' hb', ← hgroup m (by simp) r hmem]
  have hsplit : numPositions (front ++ m :: back) b = numPositions front b + (m.holds b + numPositions back b) := by
    simp [numPositions]
  rw [hsplit, hnone front fun _ => mem_append_left back, hnone back fun _ => mem_append_right front]
  omega

/-- A block of full attention that as many requests hold as have tables stands in all tables at one index. -/
lemma shared (h : TablesPlaced indexed full place (front ++ m :: back) pool)
    (hids : ∀ m' ∈ front ++ back, m'.kvCacheGroupId ≠ m.kvCacheGroupId) (hf : full m.kvCacheGroupId)
    {i : ℕ} (hi : (m.blocksOf r)[i]? = some b) (hcount : pool.refCnt b = m.reqToBlocks.keys.length)
    {q : RequestId} (hq : q ∈ m.reqToBlocks) : (m.blocksOf q)[i]? = some b := by
  have hm : m ∈ front ++ m :: back := by simp
  have hmem := mem_of_getElem? hi
  have hb : b ≠ pool.nullBlock := fun he => h.real m hm hf r (he ▸ hmem)
  have hall : m.reqToBlocks.keys.length = m.holds b := by
    rw [h.refCnt b hb, h.numPositions_eq hids hb hmem] at hcount
    exact_mod_cast hcount.symm
  -- Every table holds the block once, so that of `q` does.
  obtain ⟨blocks, hlook⟩ := Option.isSome_iff_exists.mp (AList.lookup_isSome.mpr hq)
  have hblocks : ∀ {q blocks}, m.reqToBlocks.lookup q = some blocks → m.blocksOf q = blocks := by
    intro q blocks hlook
    rw [SingleTypeKVCacheManager.blocksOf, hlook, Option.getD_some]
  have hone : blocks.count b = 1 :=
    eq_one_of_length_le_dictSum (fun q' blocks' hlook' => hblocks hlook' ▸ h.count_le_one hm hf hb q') hall.le hlook
  rw [← hblocks hlook] at hone
  obtain ⟨j, hj⟩ := getElem?_of_mem (count_pos_iff.mp (by omega : 0 < (m.blocksOf q).count b))
  have hindex := (h.held m hm q j b hj hb).2 hf
  rw [(h.held m hm r i b hi hb).2 hf] at hindex
  rw [hindex, hj]

end TablesPlaced

namespace KVCacheCoordinator

variable {α : Type} {numTokens : ℕ}
  {f : ℕ → SingleTypeKVCacheManager → BlockPool → Except PyError (α × SingleTypeKVCacheManager × BlockPool)}
  {as : List α} {i numEncoderTokens numTokensMainModel : ℕ}

/-! ## The loops over the managers -/

/-- A loop in which every round is a step of the table of `r`. What the rounds to come need of the
places and of the pool is passed along. -/
lemma forManagers_placed (need : ℕ → List SingleTypeKVCacheManager → (BlockRef → ℕ × ℕ) → BlockPool → Prop)
    (done : SingleTypeKVCacheManager → SingleTypeKVCacheManager → Prop)
    (hf : ∀ {i m ms pool a m' pool' place others}, need i (m :: ms) place pool →
      TablePlaced indexed full place others m.kvCacheGroupId (m.blocksOf r) pool →
      f i m pool = .ok (a, m', pool') →
      ∃ place', PlaceStep indexed full place others r m pool place' m' pool' ∧ done m m' ∧
        need (i + 1) ms place' pool') {ms' : List SingleTypeKVCacheManager}
    (hinv : TablesPlaced indexed full place (front ++ ms) pool) (hneed : need i ms place pool)
    (h : forManagers f i ms pool = .ok (as, ms', pool')) :
    ∃ place', TablesPlaced indexed full place' (front ++ ms') pool' ∧ BlockPool.SameConfig pool pool' ∧
      need (i + ms.length) [] place' pool' ∧ List.Forall₂ (fun m m' => Changes m m' r ∧ done m m') ms ms' := by
  induction ms generalizing front i place pool as ms' with
  | nil =>
    simp only [forManagers, Except.ok.injEq, Prod.mk.injEq] at h
    obtain ⟨-, rfl, rfl⟩ := h
    exact ⟨place, hinv, BlockPool.SameConfig.refl _, hneed, .nil⟩
  | cons m ms ih =>
    obtain ⟨⟨a, m₁, pool₁⟩, hm, h⟩ := bind_eq_ok h
    obtain ⟨⟨as₁, ms₁, pool₂⟩, hrest, h⟩ := bind_eq_ok h
    cases h
    obtain ⟨place₁, hstep, hdone, hneed₁⟩ := hf hneed (hinv.focus r) hm
    have hinv₁ := hinv.step hstep
    rw [append_cons] at hinv₁
    obtain ⟨place', hinv₂, hconfig, hneed', hall⟩ := ih hinv₁ hneed₁ hrest
    rw [← append_cons] at hinv₂
    refine ⟨place', hinv₂, hstep.config.trans hconfig, ?_, .cons ⟨hstep.changes, hdone⟩ hall⟩
    rwa [length_cons, show i + (ms.length + 1) = i + 1 + ms.length by omega]

variable {hashFunction : HashInput → BlockHash} {noneHash : BlockHash} {c c' : KVCacheCoordinator}

/-- The invariant of the coordinator, with `place` for the places of the blocks. -/
structure PlacedAt (hashFunction : HashInput → BlockHash) (noneHash : BlockHash) (place : BlockRef → ℕ × ℕ)
    (c : KVCacheCoordinator) : Prop where
  setUp : c.SetUp
  numGroups : c.singleTypeManagers.length ≤ 2 ^ 32
  tables : TablesPlaced (HashIndex hashFunction noneHash) (FullGroup (c.singleTypeManagers.map kvCacheSpec)) place
    c.singleTypeManagers c.blockPool
  align : ∀ m ∈ c.singleTypeManagers, m.kvCacheSpec.isMambaAlign = true → ∀ r, AlignState False 0 m r

/-- What a round may use of its manager. -/
structure Ready (full : ℕ → Prop) (r : RequestId) (i : ℕ) (m : SingleTypeKVCacheManager) : Prop where
  spec : ValidSpec m.kvCacheSpec
  groupId : m.kvCacheGroupId = i
  lt : i < 2 ^ 32
  full : full m.kvCacheGroupId → m.kvCacheSpec.isFullAttention = true
  align : m.kvCacheSpec.isMambaAlign = true → AlignState False 0 m r

lemma PlacedAt.ready (h : c.PlacedAt hashFunction noneHash place) (r : RequestId)
    (hm : c.singleTypeManagers[i]? = some m) :
    Ready (FullGroup (c.singleTypeManagers.map kvCacheSpec)) r i m where
  spec := h.setUp.specs m (mem_of_getElem? hm)
  groupId := h.setUp.groupId i m hm
  lt := lt_of_lt_of_le (lt_of_getElem? hm) h.numGroups
  full := by
    rintro ⟨spec, hspec, hfull⟩
    rw [h.setUp.groupId i m hm, getElem?_map, hm] at hspec
    rwa [Option.some.inj hspec]
  align hmode := h.align m (mem_of_getElem? hm) hmode r

lemma overManagers_placed (need : ℕ → List SingleTypeKVCacheManager → (BlockRef → ℕ × ℕ) → BlockPool → Prop)
    (hinv : c.PlacedAt hashFunction noneHash place) (hneed : need 0 c.singleTypeManagers place c.blockPool)
    (hf : ∀ {i m ms pool a m' pool' place others}, need i (m :: ms) place pool →
      Ready (FullGroup (c.singleTypeManagers.map kvCacheSpec)) r i m →
      TablePlaced (HashIndex hashFunction noneHash) (FullGroup (c.singleTypeManagers.map kvCacheSpec)) place others
        m.kvCacheGroupId (m.blocksOf r) pool →
      f i m pool = .ok (a, m', pool') →
      ∃ place', PlaceStep (HashIndex hashFunction noneHash) (FullGroup (c.singleTypeManagers.map kvCacheSpec)) place
          others r m pool place' m' pool' ∧
        (m.kvCacheSpec.isMambaAlign = true → AlignState False 0 m' r) ∧ need (i + 1) ms place' pool')
    (h : c.overManagers f = .ok (as, c')) :
    ∃ place', c'.PlacedAt hashFunction noneHash place' ∧ SameSetUp c c' ∧
      need c.singleTypeManagers.length [] place' c'.blockPool := by
  obtain ⟨⟨as', ms', pool'⟩, hloop, hret⟩ := bind_eq_ok h
  cases hret
  obtain ⟨place', htables, hconfig, hneed', hall⟩ := forManagers_placed
    (fun i ms place pool => need i ms place pool ∧
      ∀ j m, ms[j]? = some m → Ready (FullGroup (c.singleTypeManagers.map kvCacheSpec)) r (i + j) m)
    (fun m m' => m.kvCacheSpec.isMambaAlign = true → AlignState False 0 m' r)
    (fun hneed htable hrun => by
      obtain ⟨hneed, hready⟩ := hneed
      obtain ⟨place', hstep, hdone, hneed'⟩ := hf hneed (hready 0 _ rfl) htable hrun
      refine ⟨place', hstep, hdone, hneed', fun j m hj => ?_⟩
      have hnext := hready (j + 1) m hj
      rwa [Nat.add_comm j 1, ← Nat.add_assoc] at hnext)
    (show TablesPlaced _ _ place ([] ++ c.singleTypeManagers) c.blockPool from hinv.tables)
    ⟨hneed, fun j m hj => (Nat.zero_add j).symm ▸ hinv.ready r hj⟩ hloop
  rw [nil_append] at htables
  rw [Nat.zero_add] at hneed'
  have hsame : SameSetUp c { c with singleTypeManagers := ms', blockPool := pool' } :=
    ⟨rfl, rfl, rfl, rfl, rfl, rfl, rfl, hconfig, hall.imp fun _ _ hm =>
      ⟨hm.1.spec, hm.1.enableCaching, hm.1.groupId, hm.1.blockSize⟩⟩
  refine ⟨place', ⟨hinv.setUp.of_same hsame, hall.length_eq ▸ hinv.numGroups, ?_, ?_⟩, hsame, hneed'.1⟩
  · rw [hsame.specs]
    exact htables
  · intro m' hm' hmode r'
    obtain ⟨i, hi, rfl⟩ := mem_iff_getElem.mp hm'
    obtain ⟨hlen, hget⟩ := forall₂_iff_get.mp hall
    have hi' : i < c.singleTypeManagers.length := hlen ▸ hi
    obtain ⟨hchanges, hdone⟩ := hget i hi' hi
    rw [get_eq_getElem, get_eq_getElem] at hchanges hdone
    rw [hchanges.spec] at hmode
    by_cases hr : r' = r
    · exact hr ▸ hdone hmode
    · exact (hinv.align _ (getElem_mem hi') hmode r').of_changes hchanges hr

/-! ## The operations -/

section

variable (hinv : c.PlacedAt hashFunction noneHash place)
include hinv

/-- A loop whose rounds keep the places. -/
lemma overManagers_samePlace (hf : ∀ {i m pool a m' pool' others}, BlockPool.SameConfig c.blockPool pool →
      Ready (FullGroup (c.singleTypeManagers.map kvCacheSpec)) r i m →
      TablePlaced (HashIndex hashFunction noneHash) (FullGroup (c.singleTypeManagers.map kvCacheSpec)) place others
        m.kvCacheGroupId (m.blocksOf r) pool →
      f i m pool = .ok (a, m', pool') →
      PlaceStep (HashIndex hashFunction noneHash) (FullGroup (c.singleTypeManagers.map kvCacheSpec)) place
          others r m pool place m' pool' ∧
        (m.kvCacheSpec.isMambaAlign = true → AlignState False 0 m' r)) (h : c.overManagers f = .ok (as, c')) :
    c'.PlacedAt hashFunction noneHash place ∧ SameSetUp c c' := by
  obtain ⟨place', hinv', hsame, rfl, -⟩ := overManagers_placed (r := r)
    (fun _ _ place' pool => place' = place ∧ BlockPool.SameConfig c.blockPool pool) hinv
    ⟨rfl, BlockPool.SameConfig.refl _⟩ (by
      rintro i m ms pool a m' pool' _ others ⟨rfl, hconfig⟩ hready htable hrun
      obtain ⟨hstep, halign⟩ := hf hconfig hready htable hrun
      exact ⟨_, hstep, halign, rfl, hconfig.trans hstep.config⟩) h
  exact ⟨hinv', hsame⟩

lemma removeSkippedBlocks_placed {n : ℕ}
    (h : c.removeSkippedBlocks r n = .ok c') : c'.PlacedAt hashFunction noneHash place ∧ SameSetUp c c' := by
  obtain ⟨⟨as, c₁⟩, hloop, hret⟩ := bind_eq_ok h
  cases hret
  refine overManagers_samePlace (r := r) hinv ?_ hloop
  intro i m pool a m' pool' others _ hready htable hrun
  have hstep := removeSkippedBlocks_place htable hready.full (round_eq_ok hrun)
  exact ⟨hstep.toPlaceStep, fun hmode =>
    (hready.align hmode).of_length hstep.changes.spec hstep.length hstep.sameAllocated⟩

lemma getNumBlocksToAllocate_placed {newComputedBlocks : List (List BlockRef)} {totalComputedTokens : ℕ}
    {num : ℤ} (h : c.getNumBlocksToAllocate r numTokens newComputedBlocks numEncoderTokens
      totalComputedTokens numTokensMainModel = .ok (num, c')) :
    c'.PlacedAt hashFunction noneHash place ∧ SameSetUp c c' := by
  obtain ⟨⟨nums, c₁⟩, hloop, hret⟩ := bind_eq_ok h
  cases hret
  refine overManagers_samePlace (r := r) hinv ?_ hloop
  intro i m pool a m' pool' others _ hready htable hrun
  obtain ⟨⟨num₁, m₁⟩, hest, hret⟩ := bind_eq_ok hrun
  simp only [pure, Except.pure, Except.ok.injEq, Prod.mk.injEq] at hret
  obtain ⟨-, rfl, rfl⟩ := hret
  obtain rfl | rfl : m₁ = m ∨ m₁ = m.setBlocks r (m.blocksOf r) := by
    unfold SingleTypeKVCacheManager.estimate at hest
    split at hest
    · exact getNumBlocksToAllocate_eq hest
    · exact getNumBlocksToAllocate_eq hest
  · exact ⟨placeStep_refl htable, hready.align⟩
  · refine ⟨placeStep_setBlocks (BlockPool.SameConfig.refl _) htable, fun hmode => ?_⟩
    exact (hready.align hmode).congr rfl (by rw [blocksOf_setBlocks]) rfl Iff.rfl

lemma cacheBlocks_placed {request : Request}
    (hhashed : request.HashedBy hashFunction noneHash) (h : c.cacheBlocks request numTokens = .ok c') :
    c'.PlacedAt hashFunction noneHash place ∧ SameSetUp c c' := by
  obtain ⟨⟨as, c₁⟩, hloop, hret⟩ := bind_eq_ok h
  cases hret
  refine overManagers_samePlace (r := request.requestId) hinv ?_ hloop
  intro i m pool a m' pool' others _ hready htable hrun
  obtain ⟨hstep, hblocks, hallocated⟩ := cacheBlocks_place htable (hready.groupId ▸ hready.lt) (by
    intro blockHashes i hash hlist hhash
    obtain ⟨inputs, hinputs⟩ := hhashed
    unfold BlockPool.requestBlockHashes at hlist
    split at hlist
    · cases hlist
      rw [hinputs] at hhash
      exact hashIndex_chain hhash
    · obtain ⟨_, -, rfl⟩ := map_eq_ok hlist
      rw [hinputs] at hhash
      exact hashIndex_blockHashList hhash) (round_eq_ok hrun)
  exact ⟨hstep, fun hmode => (hready.align hmode).of_length hstep.changes.spec (by rw [hblocks]) hallocated⟩

lemma free_placed (h : c.free r = .ok c') :
    c'.PlacedAt hashFunction noneHash place ∧ SameSetUp c c' := by
  obtain ⟨⟨as, c₁⟩, hloop, hret⟩ := bind_eq_ok h
  cases hret
  refine overManagers_samePlace (r := r) hinv ?_ hloop
  intro i m pool a m' pool' others _ _ htable hrun
  exact ⟨(free_place htable (round_eq_ok hrun)).1, fun hmode => (free_align hmode (round_eq_ok hrun))⟩

end

/-- When a group takes its hits in `allocate_new_computed_blocks`, they are still cached: no group before it has
taken one of them for external tokens. -/
def HitsKept (requestId : RequestId) (hits : List (List BlockRef)) (numLocalComputedTokens : ℕ)
    (numExternalComputedTokens : ℕ) : ℕ → List SingleTypeKVCacheManager → BlockPool → Prop
  | _, [], _ => True
  | i, m :: ms, pool =>
    (∀ b ∈ m.neededBlocks (hits.getD i []) (numLocalComputedTokens + numExternalComputedTokens),
      b ≠ pool.nullBlock → pool.IsCached b) ∧
    ∀ m' pool', m.allocateNewComputedBlocks pool requestId (hits.getD i []) numLocalComputedTokens
        numExternalComputedTokens = .ok (m', pool') →
      HitsKept requestId hits numLocalComputedTokens numExternalComputedTokens (i + 1) ms pool'

/-- The hits of the groups stand at their places, and full attention has no null blocks among them. -/
structure HitsPlaced (full : ℕ → Prop) (place : BlockRef → ℕ × ℕ) (nullBlock : BlockRef)
    (hits : List (List BlockRef)) : Prop where
  stands : ∀ (i k : ℕ) (b : BlockRef), i < 2 ^ 32 → (hits.getD i [])[k]? = some b → b ≠ nullBlock →
    StandsAt full place i k b
  real : ∀ i, full i → nullBlock ∉ hits.getD i []

section

variable (hinv : c.PlacedAt hashFunction noneHash place)
include hinv

lemma allocateNewComputedBlocks_placed {hits : List (List BlockRef)} {numLocal numExternal : ℕ}
    (hhits : HitsPlaced (FullGroup (c.singleTypeManagers.map kvCacheSpec)) place c.blockPool.nullBlock hits)
    (hkept : HitsKept r hits numLocal numExternal 0 c.singleTypeManagers c.blockPool)
    (h : c.allocateNewComputedBlocks r hits numLocal numExternal = .ok c') :
    (∃ place', c'.PlacedAt hashFunction noneHash place') ∧ SameSetUp c c' := by
  obtain ⟨⟨as, c₁⟩, hloop, hret⟩ := bind_eq_ok h
  cases hret
  -- A hit that is still cached has kept its place.
  obtain ⟨place', hinv', hsame, -⟩ := overManagers_placed (r := r)
    (fun i ms place' pool => HitsKept r hits numLocal numExternal i ms pool ∧
      BlockPool.SameConfig c.blockPool pool ∧ ∀ b, b ≠ pool.nullBlock → pool.IsCached b → place' b = place b) hinv
    ⟨hkept, BlockPool.SameConfig.refl _, fun _ _ _ => rfl⟩ (by
      rintro i m ms pool a m' pool' place₁ others ⟨⟨hcached, hkept⟩, hconfig, hsame⟩ hready htable hrun
      have hrun := round_eq_ok hrun
      have hnull := hconfig.nullBlock
      obtain ⟨⟨place', hstep⟩, hshrinks⟩ := allocateNewComputedBlocks_place htable hready.full (by
        intro k b hk hne hneeded
        have hplace := hsame b hne (hcached b hneeded hne)
        rw [hnull] at hne
        rw [StandsAt, hplace, hready.groupId]
        exact hhits.stands i k b hready.lt hk hne) (by
        intro hfull
        rw [hnull]
        exact hhits.real i (hready.groupId ▸ hfull)) hrun
      refine ⟨place', hstep, fun hmode => ?_, hkept m' pool' hrun, hconfig.trans hstep.config, ?_⟩
      · exact (allocateNewComputedBlocks_align hready.spec hmode False.elim (hready.align hmode) hstep.changes
          hrun).of_length rfl rfl rfl
      · intro b hne hb
        rw [hstep.config.nullBlock] at hne
        rw [hstep.keeps b hne (Or.inr hb)]
        exact hsame b hne (hshrinks b hb)) hloop
  exact ⟨⟨place', hinv'⟩, hsame⟩

lemma allocateNewBlocks_placed {newBlocks : List (List BlockRef)} (hpos : 0 < numTokensMainModel)
    (h : c.allocateNewBlocks r numTokens numTokensMainModel numEncoderTokens = .ok (newBlocks, c')) :
    (∃ place', c'.PlacedAt hashFunction noneHash place') ∧ SameSetUp c c' := by
  obtain ⟨place', hinv', hsame, -⟩ := overManagers_placed (r := r) (fun _ _ _ _ => True) hinv trivial (by
    intro i m ms pool a m' pool' place₁ others _ hready htable hrun
    have hmain : 0 < cdiv numTokensMainModel m.blockSize :=
      (lt_cdiv_iff (blockSize_pos hready.spec)).mpr (by simpa using hpos)
    obtain ⟨⟨place', hstep⟩, halign⟩ := allocateNewBlocks_place htable hready.full hready.align hmain hrun
    exact ⟨place', hstep, halign, trivial⟩) h
  exact ⟨⟨place', hinv'⟩, hsame⟩

lemma PlacedAt.of_shrinks (hs : BlockPool.Shrinks c.blockPool pool') :
    KVCacheCoordinator.PlacedAt hashFunction noneHash place { c with blockPool := pool' } ∧
      SameSetUp c { c with blockPool := pool' } := by
  have hsame : SameSetUp c { c with blockPool := pool' } :=
    ⟨rfl, rfl, rfl, rfl, rfl, rfl, rfl, hs.config, forall₂_same.mpr fun _ _ => ⟨rfl, rfl, rfl, rfl⟩⟩
  exact ⟨⟨hinv.setUp.of_same hsame, hinv.numGroups, hinv.tables.of_shrinks hs, hinv.align⟩, hsame⟩

end

end KVCacheCoordinator

/-! ## Hits -/

lemma groupIdBytes_inj (hg : g < 2 ^ 32) (hg' : g' < 2 ^ 32) (h : groupIdBytes g = groupIdBytes g') :
    g = g' := by
  simp only [groupIdBytes, cons.injEq, and_true] at h
  obtain ⟨h24, h16, h8, h0⟩ := h
  have hmod : ∀ {a b : ℕ}, UInt8.ofNat a = UInt8.ofNat b → a % 256 = b % 256 := by
    intro a b hab
    have hnat := congrArg UInt8.toNat hab
    simpa using hnat
  have h24 := hmod h24
  have h16 := hmod h16
  have h8 := hmod h8
  have h0 := hmod h0
  omega

/-- The key tells the hash and the group. -/
lemma makeBlockHashWithGroupId_inj {hash' : BlockHash} (hg : g < 2 ^ 32) (hg' : g' < 2 ^ 32)
    (h : makeBlockHashWithGroupId hash g = makeBlockHashWithGroupId hash' g') : hash = hash' ∧ g = g' := by
  obtain ⟨hhash, hbytes⟩ := append_inj' h rfl
  exact ⟨hhash, groupIdBytes_inj hg hg' hbytes⟩

variable {hashFunction : HashInput → BlockHash} {noneHash : BlockHash}

/-- The hashes with which a request is looked up have their indices. -/
lemma Request.HashedBy.hashIndex {request : Request} (h : request.HashedBy hashFunction noneHash)
    {c : KVCacheCoordinator} {hashes : List BlockHash}
    (hhashes : hashes = request.blockHashes ∨ ∃ spec, hashes = c.blockHashesFor request.blockHashes spec)
    (hi : hashes[i]? = some hash) : HashIndex hashFunction noneHash hash i := by
  obtain ⟨inputs, hinputs⟩ := h
  rcases hhashes with rfl | ⟨spec, rfl⟩
  · rw [hinputs] at hi
    exact hashIndex_chain hi
  · unfold KVCacheCoordinator.blockHashesFor at hi
    rw [hinputs] at hi
    split at hi
    · exact hashIndex_chain hi
    · exact hashIndex_blockHashList hi

namespace KVCacheManager

open KVCacheCoordinator

variable {kv kv' : KVCacheManager} {c c' : KVCacheCoordinator} {request : Request} {hits : List (List BlockRef)}
  {args : AllocateArgs}

/-- What a lookup finds stands at its place. -/
lemma getComputedBlocks_placed {n : ℕ} (hinv : kv.coordinator.PlacedAt hashFunction noneHash place)
    (hfree : CollisionFree hashFunction noneHash) (hhashed : request.HashedBy hashFunction noneHash)
    (h : kv.getComputedBlocks request = .ok (hits, n)) :
    HitsPlaced (FullGroup (kv.coordinator.singleTypeManagers.map kvCacheSpec)) place kv.blockPool.nullBlock hits := by
  have hstored := hinv.tables.placed.stored
  refine ⟨?_, ?_⟩
  · intro i k b hi hk hne
    rcases (getComputedBlocks_result hinv.setUp h).found i with hnil | ⟨hashes, hhashes, hfound⟩
    · rw [hnil] at hk
      simp at hk
    · obtain ⟨hash, hhash, hget⟩ := (hfound k b hk).resolve_left hne
      obtain ⟨-, -, hlt, hash', hkey, hindex⟩ := hstored _ b (BlockHashToBlockMap.stored_of_getOneBlock hget)
      obtain ⟨rfl, hgroup⟩ := makeBlockHashWithGroupId_inj hi hlt hkey
      refine ⟨hgroup.symm, fun hfull => ?_⟩
      exact (hindex (hgroup ▸ hfull)).unique hfree (hhashed.hashIndex hhashes hhash)
  · rintro i ⟨spec, hspec, hfull⟩ hmem
    rw [getElem?_map, Option.map_eq_some_iff] at hspec
    obtain ⟨m, hm, rfl⟩ := hspec
    obtain ⟨key, hget⟩ := getComputedBlocks_cachedInFull hinv.setUp h i m hm hfull _ hmem
    exact (hstored key _ (BlockHashToBlockMap.stored_of_getOneBlock hget)).1 rfl

lemma prepareAllocation_placed {num : ℤ} (hinv : kv.coordinator.PlacedAt hashFunction noneHash place)
    (h : kv.prepareAllocation request hits args = .ok (num, c)) :
    c.PlacedAt hashFunction noneHash place ∧ SameSetUp kv.coordinator c := by
  obtain ⟨c₁, hskip, hnum⟩ := bind_eq_ok h
  obtain ⟨hinv₁, hsame₁⟩ := removeSkippedBlocks_placed hinv hskip
  obtain ⟨hinv₂, hsame₂⟩ := getNumBlocksToAllocate_placed hinv₁ hnum
  exact ⟨hinv₂, hsame₁.trans hsame₂⟩

/-- When `allocate_slots` gives each group its hits, they are still cached. -/
def HitsKeptFor (c : KVCacheCoordinator) (request : Request) (hits : List (List BlockRef)) (args : AllocateArgs) :
    Prop :=
  HitsKept request.requestId hits (args.numLocalComputedTokens request) args.numExternalComputedTokens 0
    c.singleTypeManagers c.blockPool

lemma takeBlocks_placed {newBlocks : List (List BlockRef)} (hinv : c.PlacedAt hashFunction noneHash place)
    (hlen : 0 < c.maxModelLen) (hpos : ¬ (args.numNewTokens = 0 ∧ args.numExternalComputedTokens = 0))
    (hhits : HitsPlaced (FullGroup (c.singleTypeManagers.map kvCacheSpec)) place c.blockPool.nullBlock hits)
    (hkept : HitsKeptFor c request hits args) (h : takeBlocks c request hits args = .ok (newBlocks, c')) :
    (∃ place', c'.PlacedAt hashFunction noneHash place') ∧ SameSetUp c c' := by
  obtain ⟨c₁, hadd, hnew⟩ := bind_eq_ok h
  obtain ⟨⟨place₁, hinv₁⟩, hsame₁⟩ :
      (∃ place', c₁.PlacedAt hashFunction noneHash place') ∧ SameSetUp c c₁ := by
    unfold addComputedBlocks at hadd
    split at hadd
    · exact allocateNewComputedBlocks_placed hinv hhits hkept hadd
    · cases hadd
      exact ⟨⟨place, hinv⟩, SameSetUp.refl c⟩
  obtain ⟨hinv₂, hsame₂⟩ := allocateNewBlocks_placed hinv₁
    (numTokensMainModel_pos (hsame₁.maxModelLen ▸ hlen) hpos) hnew
  exact ⟨hinv₂, hsame₁.trans hsame₂⟩

lemma allocateSlots_placed {result : Option (List (List BlockRef))}
    (hinv : kv.coordinator.PlacedAt hashFunction noneHash place) (hlen : 0 < kv.coordinator.maxModelLen)
    (hhashed : request.HashedBy hashFunction noneHash)
    (hhits : HitsPlaced (FullGroup (kv.coordinator.singleTypeManagers.map kvCacheSpec)) place
      kv.blockPool.nullBlock hits)
    (hkept : ∀ num c, kv.prepareAllocation request hits args = .ok (num, c) →
      num ≤ c.blockPool.getNumFreeBlocks → HitsKeptFor c request hits args)
    (h : kv.allocateSlots request hits args = .ok (result, kv')) :
    (∃ place', kv'.coordinator.PlacedAt hashFunction noneHash place') ∧
      SameSetUp kv.coordinator kv'.coordinator := by
  obtain ⟨hpos, num, c₁, hprep, hcases⟩ := allocateSlots_eq_ok h
  obtain ⟨hinv₁, hsame₁⟩ := prepareAllocation_placed hinv hprep
  obtain ⟨-, rfl⟩ | ⟨henough, newBlocks, c₂, c₃, htake, hcommit, -, rfl⟩ := hcases
  · exact ⟨⟨place, hinv₁⟩, hsame₁⟩
  · obtain ⟨⟨place₂, hinv₂⟩, hsame₂⟩ := takeBlocks_placed hinv₁ (hsame₁.maxModelLen ▸ hlen) hpos (by
      rw [hsame₁.specs, hsame₁.pool.nullBlock]
      exact hhits) (hkept num c₁ hprep henough) htake
    unfold commitBlocks at hcommit
    split at hcommit
    · cases hcommit
      exact ⟨⟨place₂, hinv₂⟩, hsame₁.trans hsame₂⟩
    · obtain ⟨hinv₃, hsame₃⟩ := cacheBlocks_placed hinv₂ hhashed hcommit
      exact ⟨⟨place₂, hinv₃⟩, (hsame₁.trans hsame₂).trans hsame₃⟩

end KVCacheManager

/-! ## Runs -/

open KVCacheManager KVCacheCoordinator

/-- At the start nothing is held or cached. The ids of the groups fit into the keys. -/
lemma KVCacheManager.new_placed {config : KVCacheConfig} {maxModelLen : ℕ} {useEagle : Bool}
    (hconfig : ValidConfig config maxModelLen dcpWorldSize pcpWorldSize)
    (hgroups : config.kvCacheGroups.length ≤ 2 ^ 32) (place : BlockRef → ℕ × ℕ)
    (h : KVCacheManager.new config maxModelLen hashBlockSize true useEagle enableKvCacheEvents useIntBlockHashes
      dcpWorldSize pcpWorldSize = .ok kv) :
    kv.coordinator.PlacedAt hashFunction noneHash place ∧ 0 < kv.coordinator.maxModelLen := by
  obtain ⟨reserved, hinv, -, hlen, hspecs⟩ := KVCacheManager.new_inv hconfig (fun _ : True => rfl) h
  refine ⟨⟨hinv.setUp, ?_, ?_, fun m hm hmode r => ⟨(hinv.align m hm hmode r).length, False.elim⟩⟩,
    hlen ▸ hconfig.maxModelLen⟩
  · rwa [← hspecs, length_map] at hgroups
  obtain ⟨c, hc, rfl⟩ := map_eq_ok h
  obtain ⟨pool₀, hpool, hc⟩ := bind_eq_ok hc
  obtain ⟨⟨ms, pool⟩, hms, hc⟩ := bind_eq_ok hc
  obtain ⟨kind, -, rfl⟩ := map_eq_ok hc
  obtain ⟨hunused₀, hcaching, -⟩ := BlockPool.new_unused hpool
  obtain ⟨hnull, havoids⟩ := BlockPool.new_avoids hpool
  obtain ⟨-, hsame, hall, sinks, hunused, -⟩ := newManagers_unused hunused₀ hms
  have hempty : ∀ m ∈ ms, m.Unused := by
    intro m hm
    obtain ⟨j, hj⟩ := getElem?_of_mem hm
    exact (hall j m hj).1
  refine ⟨⟨hsame.enableCaching.trans hcaching, ?_, ?_, hunused.agrees.nodup, ?_⟩, ?_, ?_, ?_⟩
  · rw [hsame.nullBlock, hnull]
    simp
  · rw [hsame.nullBlock]
    exact newManagers_avoids havoids hms
  · intro key b hstored
    rw [hunused.cache] at hstored
    exact absurd hstored (BlockHashToBlockMap.not_stored_empty key b)
  · intro b _
    rw [hunused.refCnt b, show numPositions ms b = 0 from
      sum_eq_zero (forall_mem_map.mpr fun m hm => (hempty m hm).holds b)]
    rfl
  · intro m hm r i b hi
    rw [(hempty m hm).blocksOf r] at hi
    simp at hi
  · intro m hm _ r
    rw [(hempty m hm).blocksOf r]
    exact not_mem_nil

namespace KVCacheCall

variable {kv kv' : KVCacheManager}

/-- Every request of a call carries the hashes that the block hasher gave it. -/
def AllHashed (hashFunction : HashInput → BlockHash) (noneHash : BlockHash) : KVCacheCall → Prop
  | allocateNew request _ => request.HashedBy hashFunction noneHash
  | allocateRunning request _ => request.HashedBy hashFunction noneHash
  | cacheBlocks request _ => request.HashedBy hashFunction noneHash
  | _ => True

/-- No group takes, for external tokens, a block that a later group has as a hit. -/
def HitsKept (kv : KVCacheManager) : KVCacheCall → Prop
  | allocateNew request args => ∀ hits n num c, kv.getComputedBlocks request = .ok (hits, n) →
      kv.prepareAllocation request hits { args with numNewComputedTokens := n } = .ok (num, c) →
      num ≤ c.blockPool.getNumFreeBlocks →
      HitsKeptFor c request hits { args with numNewComputedTokens := n }
  | _ => True

lemma hitsPlaced_empty (full : ℕ → Prop) (place : BlockRef → ℕ × ℕ) (nullBlock : BlockRef) (kv : KVCacheManager) :
    HitsPlaced full place nullBlock kv.emptyKvCacheBlocks := by
  have hempty : ∀ i, kv.emptyKvCacheBlocks.getD i [] = [] := getD_map_nil _
  refine ⟨fun i k b _ hk _ => ?_, fun i _ hmem => ?_⟩
  · rw [hempty] at hk
    simp at hk
  · rw [hempty] at hmem
    simp at hmem

lemma neededBlocks_nil (m : SingleTypeKVCacheManager) (n : ℕ) : m.neededBlocks [] n = [] := by
  unfold SingleTypeKVCacheManager.neededBlocks
  split <;> simp

lemma hitsKept_empty (r : RequestId) (kv : KVCacheManager) (numLocal numExternal i : ℕ)
    (ms : List SingleTypeKVCacheManager) (pool : BlockPool) :
    KVCacheCoordinator.HitsKept r kv.emptyKvCacheBlocks numLocal numExternal i ms pool := by
  have hempty : ∀ i, kv.emptyKvCacheBlocks.getD i [] = [] := getD_map_nil _
  induction ms generalizing i pool with
  | nil => trivial
  | cons m ms ih =>
    refine ⟨?_, fun m' pool' _ => ih _ _⟩
    rw [hempty, neededBlocks_nil]
    simp

lemma run_placed {call : KVCacheCall} (hinv : kv.coordinator.PlacedAt hashFunction noneHash place)
    (hlen : 0 < kv.coordinator.maxModelLen) (hfree : CollisionFree hashFunction noneHash)
    (hhashed : call.AllHashed hashFunction noneHash) (hkept : call.HitsKept kv) (h : call.run kv = .ok kv') :
    (∃ place', kv'.coordinator.PlacedAt hashFunction noneHash place') ∧
      SameSetUp kv.coordinator kv'.coordinator := by
  cases call with
  | allocateNew request args =>
    obtain ⟨⟨hits, n⟩, hlook, h⟩ := bind_eq_ok h
    obtain ⟨⟨result, kv₁⟩, hslots, hret⟩ := bind_eq_ok h
    cases hret
    exact allocateSlots_placed hinv hlen hhashed (getComputedBlocks_placed hinv hfree hhashed hlook)
      (fun num c hprep henough => hkept hits n num c hlook hprep henough) hslots
  | allocateRunning request args =>
    obtain ⟨⟨result, kv₁⟩, hslots, hret⟩ := bind_eq_ok h
    cases hret
    exact allocateSlots_placed hinv hlen hhashed (hitsPlaced_empty _ _ _ kv)
      (fun num c _ _ => hitsKept_empty _ kv _ _ _ _ _) hslots
  | cacheBlocks request numComputedTokens =>
    change kv.cacheBlocks request numComputedTokens = .ok kv' at h
    unfold KVCacheManager.cacheBlocks at h
    split at h
    · obtain ⟨c, hcache, rfl⟩ := map_eq_ok h
      obtain ⟨hinv', hsame⟩ := cacheBlocks_placed hinv hhashed hcache
      exact ⟨⟨place, hinv'⟩, hsame⟩
    · cases h
      exact ⟨⟨place, hinv⟩, SameSetUp.refl _⟩
  | removeSkippedBlocks requestId totalComputedTokens =>
    obtain ⟨c, hskip, rfl⟩ := map_eq_ok h
    obtain ⟨hinv', hsame⟩ := removeSkippedBlocks_placed hinv hskip
    exact ⟨⟨place, hinv'⟩, hsame⟩
  | free request =>
    obtain ⟨c, hcall, rfl⟩ := map_eq_ok h
    obtain ⟨hinv', hsame⟩ := free_placed hinv hcall
    exact ⟨⟨place, hinv'⟩, hsame⟩
  | evictBlocks blockIds =>
    obtain ⟨pool, hevict, rfl⟩ := map_eq_ok h
    obtain ⟨hinv', hsame⟩ := hinv.of_shrinks (hinv.tables.placed.evictBlocks hevict)
    exact ⟨⟨place, hinv'⟩, hsame⟩
  | resetPrefixCache =>
    cases h
    obtain ⟨hinv', hsame⟩ := hinv.of_shrinks (BlockPool.resetPrefixCache_shrinks kv.coordinator.blockPool)
    exact ⟨⟨place, hinv'⟩, hsame⟩

end KVCacheCall

/-- A call of a run in which blocks keep their places. -/
def KVCacheCall.Shares (hashFunction : HashInput → BlockHash) (noneHash : BlockHash) (kv : KVCacheManager)
    (call : KVCacheCall) : Prop :=
  call.AllHashed hashFunction noneHash ∧ call.HitsKept kv

lemma placed_of_reaches {start : KVCacheManager} (hfree : CollisionFree hashFunction noneHash)
    (hinv : ∃ place, start.coordinator.PlacedAt hashFunction noneHash place)
    (hlen : 0 < start.coordinator.maxModelLen)
    (h : Reaches (fun call kv => KVCacheCall.run kv call) (KVCacheCall.Shares hashFunction noneHash) start kv) :
    ∃ place, kv.coordinator.PlacedAt hashFunction noneHash place := by
  refine (h.invariant (P := fun kv => (∃ place, kv.coordinator.PlacedAt hashFunction noneHash place) ∧
    0 < kv.coordinator.maxModelLen) ⟨hinv, hlen⟩ ?_).1
  rintro kv call kv' ⟨⟨place, hinv⟩, hlen⟩ ⟨hhashed, hkept⟩ hrun
  obtain ⟨hinv', hsame⟩ := KVCacheCall.run_placed hinv hlen hfree hhashed hkept hrun
  exact ⟨hinv', hsame.maxModelLen ▸ hlen⟩

end VllmRuntime
