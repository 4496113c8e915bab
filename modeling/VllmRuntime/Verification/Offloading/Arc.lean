import VllmRuntime.Verification.Offloading.Lru

/-! # Blocks of the ARC manager

The four lists of `ARCOffloadingManager` stay disjoint, and each CPU block belongs to one hash or is free. -/

namespace VllmRuntime

open List Function

/-! ## Reference counts -/

/-- The block is not ready and not read, or its counter is the number of its loads. -/
def CPUBlockStatus.Counts (block : CPUBlockStatus) (numLoads : ℕ) : Prop :=
  (block.refCnt = -1 ∧ numLoads = 0) ∨ block.refCnt.toInt = numLoads

namespace CPUBlockStatus.Counts

variable {block : CPUBlockStatus} {n : ℕ}

lemma of_ready (h : block.Counts n) (hready : block.isReady = true) : block.refCnt.toInt = n := by
  rcases h with ⟨hpending, -⟩ | h
  · rw [isReady, hpending] at hready
    cases hready
  · exact h

lemma of_pending (h : block.Counts n) (hready : block.isReady = false) : n = 0 := by
  rcases h with ⟨-, hn⟩ | h
  · exact hn
  · simp only [isReady, decide_eq_false_iff_not] at hready
    omega

lemma of_unused (h : block.Counts n) (hunused : block.refCnt = 0) : n = 0 := by
  rcases h with ⟨-, hn⟩ | h
  · exact hn
  · rw [hunused] at h
    simpa using h.symm

lemma load (h : block.Counts n) (hready : block.isReady = true) (hn : n + 1 < 2 ^ 31) :
    block.refCnt.toInt = n ∧ Counts { block with refCnt := block.refCnt + 1 } (n + 1) := by
  have hcount := h.of_ready hready
  refine ⟨hcount, Or.inr ?_⟩
  dsimp only
  rw [BitVec.toInt_add, hcount]
  have hone : (1 : BitVec 32).toInt = 1 := rfl
  rw [hone, Int.bmod_def]
  push_cast
  omega

lemma unload (h : block.Counts (n + 1)) :
    0 < block.refCnt.toInt ∧ Counts { block with refCnt := block.refCnt - 1 } n := by
  have hcount : block.refCnt.toInt = (n + 1 : ℕ) := h.resolve_left fun hzero => by omega
  have hbound := BitVec.toInt_lt (x := block.refCnt)
  refine ⟨by omega, Or.inr ?_⟩
  dsimp only
  rw [BitVec.toInt_sub, hcount]
  have hone : (1 : BitVec 32).toInt = 1 := rfl
  rw [hone, Int.bmod_def]
  push_cast
  omega

end CPUBlockStatus.Counts

namespace ARCOffloadingManager

variable {m m' : ARCOffloadingManager} {numBlocks : ℕ} {loads : BlockHash → ℕ} {blockHash : BlockHash}
  {block : CPUBlockStatus} {blockHashes : List BlockHash} {n : ℕ} {fromT1 : Bool}

/-- The blocks that are kept: those of `t1` and of `t2`. -/
def resident (m : ARCOffloadingManager) : OrderedDict BlockHash CPUBlockStatus := m.t1 ++ m.t2

lemma getBlock_eq (m : ARCOffloadingManager) (blockHash : BlockHash) :
    m.getBlock blockHash = m.resident.lookup blockHash :=
  lookup_append.symm

/-- All hashes that the manager knows. -/
def hashes (m : ARCOffloadingManager) : List BlockHash :=
  m.resident.map Prod.fst ++ (m.b1.map Prod.fst ++ m.b2.map Prod.fst)

/-- What every state satisfies: no hash has two blocks, and the backend has not allocated more blocks than
there are. -/
structure WellFormed (m : ARCOffloadingManager) : Prop where
  nodup : (m.resident.map Prod.fst).Nodup
  allocated : m.backend.numAllocatedBlocks ≤ m.backend.numBlocks

namespace WellFormed

lemma nodup_t1 (h : m.WellFormed) : (m.t1.map Prod.fst).Nodup := by
  have hnodup := h.nodup
  rw [resident, map_append] at hnodup
  exact (nodup_append.mp hnodup).1

lemma nodup_t2 (h : m.WellFormed) : (m.t2.map Prod.fst).Nodup := by
  have hnodup := h.nodup
  rw [resident, map_append] at hnodup
  exact (nodup_append.mp hnodup).2.1

lemma not_mem_t2 (h : m.WellFormed) (ht1 : blockHash ∈ m.t1.map Prod.fst) :
    blockHash ∉ m.t2.map Prod.fst := by
  have hnodup := h.nodup
  rw [resident, map_append] at hnodup
  exact fun ht2 => (nodup_append.mp hnodup).2.2 _ ht1 _ ht2 rfl

end WellFormed

/-- The lists are disjoint and each block belongs to one hash or is free. The counters agree with the
loads in flight. -/
structure Inv (numBlocks : ℕ) (loads : BlockHash → ℕ) (m : ARCOffloadingManager) : Prop where
  total : m.backend.numBlocks = numBlocks
  capacity : m.cacheCapacity = numBlocks
  nodup : m.hashes.Nodup
  partitions : m.backend.Partitions (m.resident.map fun e => e.2.blockId)
  counts : ∀ blockHash, (m.resident.lookup blockHash).elim (loads blockHash = 0)
    (·.Counts (loads blockHash))

/-- The ghost lists are not longer than the capacity. -/
def Bounded (m : ARCOffloadingManager) : Prop :=
  m.b1.length ≤ m.cacheCapacity ∧ m.b2.length ≤ m.cacheCapacity

namespace Inv

lemma nodup_resident (h : m.Inv numBlocks loads) : (m.resident.map Prod.fst).Nodup :=
  (nodup_append.mp h.nodup).1

lemma wellFormed (h : m.Inv numBlocks loads) : m.WellFormed := ⟨h.nodup_resident, h.partitions.allocated⟩

lemma nodup_ghosts (h : m.Inv numBlocks loads) :
    (m.b1.map Prod.fst).Nodup ∧ (m.b2.map Prod.fst).Nodup := by
  have hnodup := (nodup_append.mp h.nodup).2.1
  exact ⟨(nodup_append.mp hnodup).1, (nodup_append.mp hnodup).2.1⟩

lemma counts_of_lookup (h : m.Inv numBlocks loads) (hblock : m.resident.lookup blockHash = some block) :
    block.Counts (loads blockHash) := by
  have hcounts := h.counts blockHash
  rwa [hblock] at hcounts

end Inv

/-- The lists keep their entries, up to the order, and the blocks their places. -/
structure Keeps (m m' : ARCOffloadingManager) : Prop where
  backend : m'.backend = m.backend
  capacity : m'.cacheCapacity = m.cacheCapacity
  placement : placement m'.resident ~ placement m.resident
  b1 : m'.b1 ~ m.b1
  b2 : m'.b2 ~ m.b2

namespace Keeps

lemma refl (m : ARCOffloadingManager) : Keeps m m := ⟨rfl, rfl, .refl _, .refl _, .refl _⟩

lemma trans {m₂ : ARCOffloadingManager} (h : Keeps m m') (h' : Keeps m' m₂) : Keeps m m₂ :=
  ⟨h'.backend.trans h.backend, h'.capacity.trans h.capacity, h'.placement.trans h.placement,
    h'.b1.trans h.b1, h'.b2.trans h.b2⟩

lemma inv {loads' : BlockHash → ℕ} (hinv : m.Inv numBlocks loads) (h : Keeps m m')
    (hcounts : ∀ blockHash, (m'.resident.lookup blockHash).elim (loads' blockHash = 0)
      (·.Counts (loads' blockHash))) : m'.Inv numBlocks loads' := by
  have hkeys := h.placement.map Prod.fst
  have hids := h.placement.map Prod.snd
  rw [map_fst_placement, map_fst_placement] at hkeys
  rw [map_snd_placement, map_snd_placement] at hids
  refine ⟨by rw [h.backend]; exact hinv.total, h.capacity.trans hinv.capacity, ?_, ?_, hcounts⟩
  · exact (hkeys.append ((h.b1.map _).append (h.b2.map _))).nodup_iff.mpr hinv.nodup
  · rw [h.backend]
    exact hinv.partitions.of_perm hids

lemma bounded (hbounded : m.Bounded) (h : Keeps m m') : m'.Bounded := by
  unfold Bounded
  rw [h.b1.length_eq, h.b2.length_eq, h.capacity]
  exact hbounded

lemma lookup (hinv : m.Inv numBlocks loads) (h : Keeps m m') (blockHash : BlockHash) :
    (m'.resident.lookup blockHash).map (·.blockId) =
      (m.resident.lookup blockHash).map (·.blockId) := by
  rw [← lookup_placement, ← lookup_placement]
  refine lookup_perm ?_ h.placement blockHash
  rw [map_fst_placement]
  exact hinv.nodup_resident

end Keeps

/-! ## Loads -/

lemma resident_setBlock (hinv : m.Inv numBlocks loads) (blockHash : BlockHash)
    (block : CPUBlockStatus) :
    (m.setBlock blockHash block).resident = dictSet m.resident blockHash block := by
  unfold setBlock resident
  split
  · rename_i ht1
    exact (dictSet_append_left ht1 (hinv.wellFormed.not_mem_t2 ht1)).symm
  · rename_i ht1
    exact (dictSet_append_right ht1).symm

lemma setBlock_eq (m : ARCOffloadingManager) (blockHash : BlockHash) (block : CPUBlockStatus) :
    ∃ t1 t2, m.setBlock blockHash block = { m with t1, t2 } := by
  unfold setBlock
  split
  · exact ⟨_, m.t2, rfl⟩
  · exact ⟨m.t1, _, rfl⟩

/-- The status of a block is changed, with the number of its loads. -/
lemma setBlock_keeps {refCnt : BitVec 32} (hinv : m.Inv numBlocks loads)
    (hblock : m.resident.lookup blockHash = some block)
    (hcounts : CPUBlockStatus.Counts { block with refCnt } n) :
    Keeps m (m.setBlock blockHash { block with refCnt }) ∧
      (m.setBlock blockHash { block with refCnt }).Inv numBlocks
        (update loads blockHash n) := by
  have hresident := resident_setBlock hinv blockHash { block with refCnt }
  have hkeeps : Keeps m (m.setBlock blockHash { block with refCnt }) := by
    have hplace : placement (m.setBlock blockHash { block with refCnt }).resident ~
        placement m.resident := by
      rw [hresident]
      exact .of_eq (placement_dictSet hinv.nodup_resident hblock refCnt)
    obtain ⟨t1, t2, heq⟩ := setBlock_eq m blockHash { block with refCnt }
    exact ⟨by rw [heq], by rw [heq], hplace, by rw [heq], by rw [heq]⟩
  refine ⟨hkeeps, hkeeps.inv hinv fun x => ?_⟩
  rw [hresident, lookup_dictSet]
  by_cases hx : x = blockHash
  · subst hx
    simpa using hcounts
  · simpa [hx] using hinv.counts x

lemma prepareLoad_isOk (hinv : m.Inv numBlocks loads)
    (hready : ∀ x ∈ blockHashes, ∃ block, m.resident.lookup x = some block ∧ block.isReady = true)
    (hbound : ∀ x, loads x + blockHashes.count x < 2 ^ 31) :
    ∃ blockIds m', m.prepareLoad blockHashes = .ok (blockIds, m') ∧ Keeps m m' ∧
      m'.Inv numBlocks fun x => loads x + blockHashes.count x := by
  induction blockHashes generalizing m loads with
  | nil => exact ⟨[], m, rfl, .refl m, by simpa using hinv⟩
  | cons blockHash blockHashes ih =>
    obtain ⟨block, hblock, hisReady⟩ := hready blockHash mem_cons_self
    have hone := hbound blockHash
    rw [count_cons_self] at hone
    obtain ⟨hcount, hload⟩ := (hinv.counts_of_lookup hblock).load hisReady (by omega)
    obtain ⟨hkeeps, hinv₁⟩ := setBlock_keeps hinv hblock hload
    have hready₁ : ∀ x ∈ blockHashes, ∃ block₁,
        (m.setBlock blockHash { block with refCnt := block.refCnt + 1 }).resident.lookup x =
          some block₁ ∧ block₁.isReady = true := by
      intro x hx
      rw [resident_setBlock hinv, lookup_dictSet]
      by_cases hxh : x = blockHash
      · have hnext := hload.resolve_left fun h => by omega
        refine ⟨_, if_pos hxh, ?_⟩
        simp only [CPUBlockStatus.isReady, decide_eq_true_eq]
        rw [hnext]
        exact Nat.cast_nonneg _
      · rw [if_neg hxh]
        exact hready x (mem_cons_of_mem _ hx)
    have hbound₁ (x : BlockHash) :
        update loads blockHash (loads blockHash + 1) x + blockHashes.count x =
          loads x + (blockHash :: blockHashes).count x := by
      by_cases hx : x = blockHash
      · subst hx
        rw [update_self, count_cons_self]
        omega
      · rw [update_of_ne hx, count_cons_of_ne (Ne.symm hx)]
    obtain ⟨blockIds, m₂, hm₂, hkeeps₂, hinv₂⟩ := ih hinv₁ hready₁
      fun x => (hbound₁ x).symm ▸ hbound x
    refine ⟨block.blockId :: blockIds, m₂, ?_, hkeeps.trans hkeeps₂, ?_⟩
    · rw [prepareLoad, loadBlock, getBlock_eq, hblock]
      simp only [hisReady, pyAssert_true, bind, Except.bind, pure, Except.pure]
      rw [hm₂]
    · rwa [funext hbound₁] at hinv₂

lemma completeLoad_isOk (hinv : m.Inv numBlocks loads) (hloads : ∀ x, blockHashes.count x ≤ loads x) :
    ∃ m', m.completeLoad blockHashes = .ok m' ∧ Keeps m m' ∧
      m'.Inv numBlocks fun x => loads x - blockHashes.count x := by
  induction blockHashes generalizing m loads with
  | nil => exact ⟨m, rfl, .refl m, by simpa using hinv⟩
  | cons blockHash blockHashes ih =>
    have hone := hloads blockHash
    rw [count_cons_self] at hone
    obtain ⟨block, hblock⟩ : ∃ block, m.resident.lookup blockHash = some block := by
      cases hlookup : m.resident.lookup blockHash with
      | none =>
        have hcounts := hinv.counts blockHash
        rw [hlookup, Option.elim_none] at hcounts
        omega
      | some block => exact ⟨block, rfl⟩
    obtain ⟨n, hn⟩ : ∃ n, loads blockHash = n + 1 := ⟨loads blockHash - 1, by omega⟩
    have hcounts := hinv.counts_of_lookup hblock
    rw [hn] at hcounts
    obtain ⟨hpos, hunload⟩ := hcounts.unload
    obtain ⟨hkeeps, hinv₁⟩ := setBlock_keeps hinv hblock hunload
    have hloads₁ (x : BlockHash) : update loads blockHash n x - blockHashes.count x =
        loads x - (blockHash :: blockHashes).count x := by
      by_cases hx : x = blockHash
      · subst hx
        rw [update_self, count_cons_self]
        omega
      · rw [update_of_ne hx, count_cons_of_ne (Ne.symm hx)]
    have hle (x : BlockHash) : blockHashes.count x ≤ update loads blockHash n x := by
      by_cases hx : x = blockHash
      · subst hx
        rw [update_self]
        omega
      · rw [update_of_ne hx]
        have := hloads x
        rwa [count_cons_of_ne (Ne.symm hx)] at this
    obtain ⟨m₂, hm₂, hkeeps₂, hinv₂⟩ := ih hinv₁ hle
    refine ⟨m₂, ?_, hkeeps.trans hkeeps₂, ?_⟩
    · rw [completeLoad, foldlM_cons, unloadBlock, getBlock_eq, hblock]
      simp only [hpos, decide_true, pyAssert_true, bind, Except.bind, pure, Except.pure]
      exact hm₂
    · rwa [funext hloads₁] at hinv₂

/-! ## Touches -/

/-- A hash whose block is ready is touched. -/
lemma touchBlock_isOk (round : ℚ → ℚ) (hinv : m.Inv numBlocks loads)
    (hready : ∀ block, m.t1.lookup blockHash = some block → block.isReady = true) :
    ∃ m', m.touchBlock round blockHash = .ok m' ∧ Keeps m m' ∧ m'.resident ~ m.resident ∧
      ∀ x, m'.t1.lookup x = m.t1.lookup x ∨ m'.t1.lookup x = none := by
  unfold touchBlock
  cases ht1 : m.t1.lookup blockHash with
  | some block =>
    have hready := hready block ht1
    have hnew : blockHash ∉ m.t2.map Prod.fst := hinv.wellFormed.not_mem_t2 (key_mem_of_lookup ht1)
    have hperm : (dictPop m.t1 blockHash ++ dictSet m.t2 blockHash block) ~ m.t1 ++ m.t2 := by
      rw [dictSet_of_not_mem hnew, ← append_assoc]
      refine (perm_append_singleton ..).trans ?_
      exact ((perm_dictPop hinv.wellFormed.nodup_t1 ht1).append_right m.t2).symm
    simp only [hready, Bool.not_true, Bool.false_eq_true, if_false]
    refine ⟨_, rfl, ⟨rfl, rfl, hperm.map _, .refl _, .refl _⟩, hperm, fun x => ?_⟩
    dsimp only
    rw [lookup_dictPop]
    split
    · exact Or.inr rfl
    · exact Or.inl rfl
  | none =>
    dsimp only
    cases ht2 : dictMoveToEnd m.t2 blockHash with
    | some t2 =>
      have hperm : (m.t1 ++ t2) ~ m.t1 ++ m.t2 :=
        (dictMoveToEnd_perm hinv.wellFormed.nodup_t2 ht2).append_left m.t1
      exact ⟨_, rfl, ⟨rfl, rfl, hperm.map _, .refl _, .refl _⟩, hperm, fun _ => Or.inl rfl⟩
    | none =>
      dsimp only
      cases hb1 : dictMoveToEnd m.b1 blockHash with
      | some b1 =>
        have hperm := dictMoveToEnd_perm hinv.nodup_ghosts.1 hb1
        exact ⟨_, rfl, ⟨rfl, rfl, .refl _, hperm, .refl _⟩, .refl _, fun _ => Or.inl rfl⟩
      | none =>
        dsimp only
        cases hb2 : dictMoveToEnd m.b2 blockHash with
        | some b2 =>
          have hperm := dictMoveToEnd_perm hinv.nodup_ghosts.2 hb2
          exact ⟨_, rfl, ⟨rfl, rfl, .refl _, .refl _, hperm⟩, .refl _, fun _ => Or.inl rfl⟩
        | none => exact ⟨_, rfl, .refl m, .refl _, fun _ => Or.inl rfl⟩

lemma touch_isOk (round : ℚ → ℚ) (hinv : m.Inv numBlocks loads)
    (hready : ∀ x ∈ blockHashes, ∀ block, m.t1.lookup x = some block → block.isReady = true) :
    ∃ m', m.touch round blockHashes = .ok m' ∧ Keeps m m' ∧ m'.Inv numBlocks loads := by
  unfold touch
  replace hready : ∀ x ∈ blockHashes.reverse, ∀ block, m.t1.lookup x = some block →
      block.isReady = true := fun x hx => hready x (mem_reverse.mp hx)
  generalize blockHashes.reverse = blockHashes at hready ⊢
  induction blockHashes generalizing m with
  | nil => exact ⟨m, rfl, .refl m, hinv⟩
  | cons blockHash rest ih =>
    rw [forall_mem_cons] at hready
    obtain ⟨m₁, hm₁, hkeeps, hperm, ht1⟩ := touchBlock_isOk round hinv hready.1
    have hinv₁ : m₁.Inv numBlocks loads := hkeeps.inv hinv fun x => by
      rw [lookup_perm hinv.nodup_resident hperm]
      exact hinv.counts x
    have hready₁ : ∀ x ∈ rest, ∀ block, m₁.t1.lookup x = some block → block.isReady = true := by
      intro x hx block hblock
      rcases ht1 x with heq | heq
      · exact hready.2 x hx block (heq.symm.trans hblock)
      · cases heq.symm.trans hblock
    obtain ⟨m₂, hm₂, hkeeps₂, hinv₂⟩ := ih hinv₁ hready₁
    refine ⟨m₂, ?_, hkeeps.trans hkeeps₂, hinv₂⟩
    rw [foldlM_cons, hm₁]
    exact hm₂

/-! ## Stores -/

lemma oldestUnused_eq_some {t : OrderedDict BlockHash CPUBlockStatus} (hnodup : (t.map Prod.fst).Nodup)
    (h : oldestUnused t = some (blockHash, block)) :
    t.lookup blockHash = some block ∧ block.refCnt = 0 :=
  ⟨lookup_of_mem hnodup (mem_of_find?_eq_some h), by simpa using find?_some h⟩

/-- The block to evict is not in use. -/
lemma blockToEvict_eq_some (hinv : m.Inv numBlocks loads)
    (h : m.blockToEvict = some (fromT1, blockHash, block)) :
    (if fromT1 then m.t1 else m.t2).lookup blockHash = some block ∧ block.refCnt = 0 := by
  unfold blockToEvict at h
  split at h
  · rename_i e he
    cases h
    split at he
    · exact oldestUnused_eq_some hinv.wellFormed.nodup_t1 he
    · cases he
  · obtain ⟨e, he, heq⟩ := Option.map_eq_some_iff.mp h
    cases heq
    exact oldestUnused_eq_some hinv.wellFormed.nodup_t2 he

/-- What evictions leave: blocks that are in use, and the counts of the others. -/
structure Evicts (numBlocks : ℕ) (loads : BlockHash → ℕ) (m m' : ARCOffloadingManager) : Prop where
  inv : m'.Inv numBlocks loads
  keys : ∀ x ∈ m'.resident.map Prod.fst, x ∈ m.resident.map Prod.fst
  used : ∀ x block, m.resident.lookup x = some block → block.refCnt ≠ 0 →
    m'.resident.lookup x = some block

lemma evictBlock_evicts (hinv : m.Inv numBlocks loads)
    (h : m.blockToEvict = some (fromT1, blockHash, block)) :
    Evicts numBlocks loads m (m.evictBlock fromT1 blockHash block) := by
  obtain ⟨hblock, hunused⟩ := blockToEvict_eq_some hinv h
  -- The block leaves one of the two caches.
  have hresident : (m.evictBlock fromT1 blockHash block).resident = dictPop m.resident blockHash ∧
      m.resident.lookup blockHash = some block := by
    rw [resident, resident, dictPop_append, lookup_append]
    cases fromT1 with
    | true =>
      rw [if_pos rfl] at hblock
      have hnot := hinv.wellFormed.not_mem_t2 (key_mem_of_lookup hblock)
      rw [dictPop_of_not_mem hnot, hblock]
      exact ⟨rfl, rfl⟩
    | false =>
      have hblock : m.t2.lookup blockHash = some block := hblock
      have hnot : blockHash ∉ m.t1.map Prod.fst :=
        fun ht1 => hinv.wellFormed.not_mem_t2 ht1 (key_mem_of_lookup hblock)
      rw [dictPop_of_not_mem hnot, lookup_eq_none.mpr hnot, hblock]
      exact ⟨rfl, rfl⟩
  obtain ⟨hresident, hlookup⟩ := hresident
  have hperm := perm_dictPop hinv.nodup_resident hlookup
  have hghost : blockHash ∉ m.b1.map Prod.fst ++ m.b2.map Prod.fst := fun hmem =>
    (nodup_append.mp hinv.nodup).2.2 _ (key_mem_of_lookup hlookup) _ hmem rfl
  rw [mem_append, not_or] at hghost
  refine ⟨⟨?_, ?_, ?_, ?_, fun x => ?_⟩, fun x hx => ?_, fun x block' hx hused => ?_⟩
  · cases fromT1 <;> exact hinv.total
  · cases fromT1 <;> exact hinv.capacity
  · refine List.Perm.nodup_iff ?_ |>.mpr hinv.nodup
    have hkeys := hperm.map Prod.fst
    rw [hashes, hashes, hresident, perm_iff_count]
    intro x
    have hcount := hkeys.count_eq x
    rw [map_cons, count_cons] at hcount
    dsimp only at hcount
    cases fromT1 with
    | true =>
      have hb1 : (m.evictBlock true blockHash block).b1 = m.b1 ++ [(blockHash, ())] :=
        dictSet_of_not_mem hghost.1
      have hb2 : (m.evictBlock true blockHash block).b2 = m.b2 := rfl
      rw [hb1, hb2]
      simp only [map_append, map_cons, map_nil, count_append,
        count_singleton]
      omega
    | false =>
      have hb1 : (m.evictBlock false blockHash block).b1 = m.b1 := rfl
      have hb2 : (m.evictBlock false blockHash block).b2 = m.b2 ++ [(blockHash, ())] :=
        dictSet_of_not_mem hghost.2
      rw [hb1, hb2]
      simp only [map_append, map_cons, map_nil, count_append,
        count_singleton]
      omega
  · have hids := hperm.map fun e => e.2.blockId
    rw [hresident]
    have hpart := (hinv.partitions.of_perm hids.symm).free
    cases fromT1 <;> exact hpart
  · rw [hresident, lookup_dictPop]
    split
    · rename_i hxh
      subst hxh
      exact (hinv.counts_of_lookup hlookup).of_unused hunused
    · exact hinv.counts x
  · rw [hresident] at hx
    exact (mem_map_fst_dictPop.mp hx).1
  · have hne : x ≠ blockHash := by
      rintro rfl
      cases hx.symm.trans hlookup
      exact hused hunused
    rw [hresident, lookup_dictPop, if_neg hne, hx]

lemma Evicts.trans {m₂ : ARCOffloadingManager} (h : Evicts numBlocks loads m m')
    (h' : Evicts numBlocks loads m' m₂) : Evicts numBlocks loads m m₂ :=
  ⟨h'.inv, fun x hx => h.keys x (h'.keys x hx),
    fun x block hx hused => h'.used x block (h.used x block hx hused) hused⟩

/-- The loop frees as many blocks as it is asked for, unless it gives up. -/
lemma evictLoop_evicts {evicted : Option (List BlockHash)} (hinv : m.Inv numBlocks loads)
    (h : evictLoop n m = (evicted, m')) :
    Evicts numBlocks loads m m' ∧
      (evicted.isSome → m'.backend.getNumFreeBlocks = m.backend.getNumFreeBlocks + n) := by
  induction n generalizing m evicted with
  | zero =>
    cases h
    exact ⟨⟨hinv, fun _ hx => hx, fun _ _ hx _ => hx⟩, fun _ => by simp⟩
  | succ n ih =>
    rw [evictLoop] at h
    split at h
    · cases h
      exact ⟨⟨hinv, fun _ hx => hx, fun _ _ hx _ => hx⟩, fun hsome => by cases hsome⟩
    · rename_i fromT1 blockHash block hblock
      have hevicts := evictBlock_evicts hinv hblock
      cases hloop : evictLoop n (m.evictBlock fromT1 blockHash block) with
      | mk rest m₁ =>
        rw [hloop] at h
        cases h
        obtain ⟨hrest, hfree⟩ := ih hevicts.inv hloop
        refine ⟨hevicts.trans hrest, fun hsome => ?_⟩
        have hone : (m.evictBlock fromT1 blockHash block).backend = m.backend.free block := by
          cases fromT1 <;> rfl
        rw [hfree (by simpa using hsome), hone, CPUBackend.getNumFreeBlocks_free]
        push_cast
        ring

/-- New blocks are appended to `t1`, and their hashes leave the ghost lists. -/
lemma foldl_insertBlock (blocks : List (BlockHash × CPUBlockStatus))
    (hnodup : (blocks.map Prod.fst).Nodup)
    (hnew : ∀ x ∈ blocks.map Prod.fst, x ∉ m.t1.map Prod.fst) :
    blocks.foldl insertBlock m = { m with
      t1 := m.t1 ++ blocks
      b1 := m.b1.filter fun e => e.1 ∉ blocks.map Prod.fst
      b2 := m.b2.filter fun e => e.1 ∉ blocks.map Prod.fst } := by
  induction blocks generalizing m with
  | nil => simp
  | cons e blocks ih =>
    rw [map_cons, nodup_cons] at hnodup
    rw [map_cons, forall_mem_cons] at hnew
    have hnext : ∀ x ∈ blocks.map Prod.fst, x ∉ (m.insertBlock e).t1.map Prod.fst := by
      intro x hx
      rw [insertBlock, dictSet_of_not_mem hnew.1, map_append]
      refine not_mem_append (hnew.2 x hx) ?_
      rw [map_singleton, mem_singleton]
      rintro rfl
      exact hnodup.1 hx
    rw [foldl_cons, ih hnodup.2 hnext]
    simp only [insertBlock, dictSet_of_not_mem hnew.1, dictPop, filter_filter,
      append_assoc, singleton_append, map_cons, mem_cons, not_or,
      Bool.decide_and, Bool.and_comm]

/-- Blocks for new hashes are allocated and inserted. -/
lemma Inv.insert {toStore : List BlockHash} {blocks : List CPUBlockStatus} {backend : CPUBackend}
    (events : Option (List OffloadingEvent)) (hinv : m.Inv numBlocks loads)
    (hallocate : m.backend.allocateBlocks toStore = .ok (blocks, backend)) (hnodup : toStore.Nodup)
    (hnew : ∀ x ∈ toStore, x ∉ m.resident.map Prod.fst) :
    ((toStore.zip blocks).foldl insertBlock { m with backend, events }).Inv numBlocks loads ∧
      (toStore.zip blocks).foldl insertBlock { m with backend, events } = { m with
        backend, events
        t1 := m.t1 ++ toStore.zip blocks
        b1 := m.b1.filter fun e => e.1 ∉ toStore
        b2 := m.b2.filter fun e => e.1 ∉ toStore } := by
  obtain ⟨hnum, hlength, hpending, hpart⟩ := CPUBackend.allocateBlocks_eq_ok hallocate
  have hfst : (toStore.zip blocks).map Prod.fst = toStore :=
    map_fst_zip (le_of_eq hlength.symm)
  have hsnd : (toStore.zip blocks).map Prod.snd = blocks := map_snd_zip (le_of_eq hlength)
  have heq := foldl_insertBlock (m := { m with backend, events }) (toStore.zip blocks)
    (by rwa [hfst]) (by
      rw [hfst]
      intro x hx ht1
      refine hnew x hx ?_
      rw [resident, map_append]
      exact mem_append_left _ ht1)
  rw [hfst] at heq
  refine ⟨?_, heq⟩
  rw [heq]
  have hresident : m.t1 ++ toStore.zip blocks ++ m.t2 ~ m.resident ++ toStore.zip blocks := by
    rw [resident, append_assoc, append_assoc]
    exact List.perm_append_comm.append_left m.t1
  have hnodup' : ((m.resident ++ toStore.zip blocks).map Prod.fst).Nodup := by
    rw [map_append, hfst]
    exact hinv.nodup_resident.append hnodup fun x hx hx' => hnew x hx' hx
  refine ⟨hnum.trans hinv.total, hinv.capacity, ?_, ?_, fun x => ?_⟩
  · have hghosts : ((m.b1.filter fun e => e.1 ∉ toStore).map Prod.fst ++
        (m.b2.filter fun e => e.1 ∉ toStore).map Prod.fst).Sublist
          (m.b1.map Prod.fst ++ m.b2.map Prod.fst) :=
      (List.filter_sublist.map Prod.fst).append (List.filter_sublist.map Prod.fst)
    obtain ⟨-, hold, hdisjoint⟩ := List.nodup_append.mp hinv.nodup
    refine ((hresident.map Prod.fst).nodup_iff.mpr hnodup').append (hold.sublist hghosts) ?_
    intro x hx hx'
    rw [(hresident.map Prod.fst).mem_iff, map_append, hfst, mem_append] at hx
    rcases hx with hx | hx
    · exact hdisjoint x hx x (hghosts.subset hx') rfl
    · simp only [mem_append, mem_map, mem_filter, decide_eq_true_eq] at hx'
      rcases hx' with ⟨e, ⟨-, he⟩, rfl⟩ | ⟨e, ⟨-, he⟩, rfl⟩
      · exact he hx
      · exact he hx
  · refine (hpart _ hinv.partitions).of_perm ?_
    have hids : ((toStore.zip blocks).map fun e => e.2.blockId) = blocks.map (·.blockId) := by
      conv_rhs => rw [← hsnd, map_map]
      rfl
    rw [← hids, ← map_append]
    exact hresident.map _
  · have hlookup := lookup_perm hnodup' hresident x
    change (List.lookup x (m.t1 ++ toStore.zip blocks ++ m.t2)).elim _ _
    rw [hlookup, lookup_append]
    cases hold : m.resident.lookup x with
    | some block => exact hinv.counts_of_lookup hold
    | none =>
      have hzero := hinv.counts x
      rw [hold] at hzero
      cases hzip : (toStore.zip blocks).lookup x with
      | none => exact hzero
      | some block =>
        have hmem := mem_of_lookup hzip
        exact Or.inl ⟨hpending block (of_mem_zip hmem).2, hzero⟩

lemma length_trimGhosts_le (hcapacity : 0 ≤ m.cacheCapacity) (b : OrderedDict BlockHash Unit) :
    (m.trimGhosts b).length ≤ m.cacheCapacity := by
  rw [trimGhosts, length_drop]
  omega

/-- The manager after the ghost lists were trimmed. -/
lemma Inv.trim (hinv : m.Inv numBlocks loads) :
    Inv numBlocks loads { m with b1 := m.trimGhosts m.b1, b2 := m.trimGhosts m.b2 } := by
  refine ⟨hinv.total, hinv.capacity, hinv.nodup.sublist ?_, hinv.partitions, hinv.counts⟩
  exact (List.Sublist.refl _).append
    (((drop_sublist ..).map Prod.fst).append ((drop_sublist ..).map Prod.fst))

attribute [local instance] lawfulBEq_blockHash in
/-- The new hashes of a call. -/
def newHashes (m : ARCOffloadingManager) (blockHashes : List BlockHash) : List BlockHash :=
  blockHashes.filter fun blockHash =>
    blockHash ∉ m.t1.map Prod.fst ∧ blockHash ∉ m.t2.map Prod.fst

lemma storeBlock_keeps (hinv : m.Inv numBlocks loads) (blockHash : BlockHash) :
    Keeps m (m.storeBlock blockHash) ∧ (m.storeBlock blockHash).Inv numBlocks loads := by
  unfold storeBlock
  rw [getBlock_eq]
  split
  · exact ⟨.refl m, hinv⟩
  · rename_i block hblock
    split
    · exact ⟨.refl m, hinv⟩
    · rename_i hready
      have hzero := (hinv.counts_of_lookup hblock).of_pending (by simpa using hready)
      have hcounts : CPUBlockStatus.Counts { block with refCnt := 0 } 0 := Or.inr rfl
      obtain ⟨hkeeps, hinv'⟩ := setBlock_keeps hinv hblock hcounts
      rw [← hzero, update_eq_self] at hinv'
      exact ⟨hkeeps, hinv'⟩

lemma storeBlocks_keeps (hinv : m.Inv numBlocks loads) (blockHashes : List BlockHash) :
    Keeps m (m.storeBlocks blockHashes).2 ∧ (m.storeBlocks blockHashes).2.Inv numBlocks loads := by
  induction blockHashes generalizing m with
  | nil => exact ⟨.refl m, hinv⟩
  | cons blockHash blockHashes ih =>
    obtain ⟨hkeeps, hinv₁⟩ := storeBlock_keeps hinv blockHash
    obtain ⟨hkeeps₂, hinv₂⟩ := ih hinv₁
    exact ⟨hkeeps.trans hkeeps₂, hinv₂⟩

/-- A failed store takes its hash out of both caches. -/
lemma dropBlock_eq (hm : m.WellFormed) (blockHash : BlockHash) : m.dropBlock blockHash = { m with
    t1 := dictPop m.t1 blockHash
    t2 := dictPop m.t2 blockHash
    backend := (m.resident.lookup blockHash).elim m.backend fun block =>
      if block.isReady then m.backend else m.backend.free block } := by
  have hpop : (if blockHash ∈ m.t1.map Prod.fst then { m with t1 := dictPop m.t1 blockHash }
      else { m with t2 := dictPop m.t2 blockHash }) = { m with
        t1 := dictPop m.t1 blockHash
        t2 := dictPop m.t2 blockHash } := by
    split
    · rename_i ht1
      rw [dictPop_of_not_mem (hm.not_mem_t2 ht1)]
    · rename_i ht1
      rw [dictPop_of_not_mem ht1]
  unfold dropBlock
  rw [getBlock_eq, hpop]
  dsimp only
  split
  · rename_i hnone
    rw [hnone, Option.elim_none]
  · rename_i block hblock
    rw [hblock, Option.elim_some]
    split <;> rfl

/-- The hash is removed whether its block is ready or not. -/
lemma dropBlock_resident (hm : m.WellFormed) (blockHash : BlockHash) :
    (m.dropBlock blockHash).WellFormed ∧ (m.dropBlock blockHash).resident = dictPop m.resident blockHash := by
  have hresident : (m.dropBlock blockHash).resident = dictPop m.resident blockHash := by
    rw [dropBlock_eq hm]
    exact (dictPop_append ..).symm
  refine ⟨⟨by rw [hresident]; exact nodup_dictPop hm.nodup, ?_⟩, hresident⟩
  rw [dropBlock_eq hm]
  dsimp only
  cases m.resident.lookup blockHash with
  | none => exact hm.allocated
  | some block =>
    rw [Option.elim_some]
    split <;> exact hm.allocated

/-- A block whose store failed is removed and freed. -/
lemma dropBlock_pending (hinv : m.Inv numBlocks loads)
    (hpending : ∀ block, m.resident.lookup blockHash = some block → block.isReady = false) :
    (m.dropBlock blockHash).Inv numBlocks loads ∧
      (m.dropBlock blockHash).resident = dictPop m.resident blockHash ∧
      (m.dropBlock blockHash).b1 = m.b1 ∧ (m.dropBlock blockHash).b2 = m.b2 ∧
      (m.dropBlock blockHash).cacheCapacity = m.cacheCapacity := by
  have hresident := (dropBlock_resident hinv.wellFormed blockHash).2
  have hdrop := dropBlock_eq hinv.wellFormed blockHash
  have hb1 : (m.dropBlock blockHash).b1 = m.b1 := by rw [hdrop]
  have hb2 : (m.dropBlock blockHash).b2 = m.b2 := by rw [hdrop]
  have hcapacity : (m.dropBlock blockHash).cacheCapacity = m.cacheCapacity := by rw [hdrop]
  have hbackend : (m.dropBlock blockHash).backend =
      (m.resident.lookup blockHash).elim m.backend m.backend.free := by
    rw [hdrop]
    cases hblock : m.resident.lookup blockHash with
    | none => rfl
    | some block => exact if_neg (by simp [hpending block hblock])
  refine ⟨⟨?_, hcapacity.trans hinv.capacity, ?_, ?_, fun x => ?_⟩, hresident, hb1, hb2, hcapacity⟩
  · rw [hbackend]
    cases m.resident.lookup blockHash <;> exact hinv.total
  · rw [hashes, hresident, hb1, hb2]
    exact hinv.nodup.sublist ((filter_sublist.map Prod.fst).append (.refl _))
  · rw [hresident, hbackend]
    cases hblock : m.resident.lookup blockHash with
    | none =>
      rw [dictPop_of_not_mem (lookup_eq_none.mp hblock)]
      exact hinv.partitions
    | some block =>
      have hids := (perm_dictPop hinv.nodup_resident hblock).map fun e => e.2.blockId
      exact (hinv.partitions.of_perm hids.symm).free
  · have hcounts := hinv.counts x
    rw [hresident, lookup_dictPop]
    split
    · rename_i hx
      subst hx
      cases hblock : m.resident.lookup x with
      | none => rwa [hblock] at hcounts
      | some block => exact (hinv.counts_of_lookup hblock).of_pending (hpending block hblock)
    · exact hcounts

/-- A failed store removes blocks that are not ready. -/
lemma foldl_dropBlock (blockHashes : List BlockHash) (hinv : m.Inv numBlocks loads)
    (hpending : ∀ x ∈ blockHashes, ∀ block, m.resident.lookup x = some block →
      block.isReady = false) :
    (blockHashes.foldl dropBlock m).Inv numBlocks loads ∧
      (m.Bounded → (blockHashes.foldl dropBlock m).Bounded) ∧
      ∀ x block, m.resident.lookup x = some block → block.isReady = true →
        (blockHashes.foldl dropBlock m).resident.lookup x = some block := by
  induction blockHashes generalizing m with
  | nil => exact ⟨hinv, fun hbounded => hbounded, fun _ _ hx _ => hx⟩
  | cons blockHash blockHashes ih =>
    rw [forall_mem_cons] at hpending
    obtain ⟨hinv₁, hresident, hb1, hb2, hcapacity⟩ := dropBlock_pending hinv hpending.1
    obtain ⟨hinv₂, hbounded, hready⟩ := ih hinv₁ fun x hx block hblock => by
      rw [hresident, lookup_dictPop] at hblock
      split at hblock
      · cases hblock
      · exact hpending.2 x hx block hblock
    refine ⟨hinv₂, fun h => hbounded ?_, fun x block hx hisReady => hready x block ?_ hisReady⟩
    · unfold Bounded
      rw [hb1, hb2, hcapacity]
      exact h
    · have hne : x ≠ blockHash := by
        rintro rfl
        exact Bool.false_ne_true ((hpending.1 block hx).symm.trans hisReady)
      rw [hresident, lookup_dictPop, if_neg hne, hx]

end ARCOffloadingManager

end VllmRuntime
