import VllmRuntime.Verification.Offloading.Backend

/-! # Blocks of the LRU manager

Every CPU block is in use for one hash or free, and a block that is in use by a transfer is not
evicted. -/

namespace VllmRuntime

open List

/-- The hashes to store are distinct. -/
def OffloadingCall.Distinct : OffloadingCall → Prop
  | prepareStore blockHashes => blockHashes.Nodup
  | _ => True

namespace LRUOffloadingManager

variable {m m' : LRUOffloadingManager} {numBlocks : ℕ} {blockHashes evicted : List BlockHash}
  {blockHash : BlockHash} {call : OffloadingCall}

/-- The blocks of the hashes, the free list and the ids that were never allocated are all ids, each
of them once. -/
def Partitioned (numBlocks : ℕ) (m : LRUOffloadingManager) : Prop :=
  ((m.blocks.map fun e => e.2.blockId) ++ m.backend.allocatedBlocksFreeList ++
    List.range' m.backend.numAllocatedBlocks (numBlocks - m.backend.numAllocatedBlocks)) ~
      List.range numBlocks

structure Inv (numBlocks : ℕ) (m : LRUOffloadingManager) : Prop where
  numBlocks : m.backend.numBlocks = numBlocks
  nodup : (m.blocks.map Prod.fst).Nodup
  partitions : m.backend.Partitions (m.blocks.map fun e => e.2.blockId)

lemma Inv.partitioned (h : m.Inv numBlocks) : m.Partitioned numBlocks := by
  obtain ⟨rfl, -, hpart⟩ := h
  rw [Partitioned, append_assoc]
  exact hpart.perm

/-- The entries keep their blocks, up to their order. -/
structure Keeps (m m' : LRUOffloadingManager) : Prop where
  backend : m'.backend = m.backend
  placement : placement m'.blocks ~ placement m.blocks

namespace Keeps

variable {blockHash : BlockHash} {block : CPUBlockStatus}

lemma refl (m : LRUOffloadingManager) : Keeps m m := ⟨rfl, .refl _⟩

lemma trans {m₂ : LRUOffloadingManager} (h : Keeps m m') (h' : Keeps m' m₂) : Keeps m m₂ :=
  ⟨h'.backend.trans h.backend, h'.placement.trans h.placement⟩

lemma keys (h : Keeps m m') : m'.blocks.map Prod.fst ~ m.blocks.map Prod.fst := by
  have hkeys := h.placement.map Prod.fst
  rwa [map_fst_placement, map_fst_placement] at hkeys

lemma nodup (h : Keeps m m') (hnodup : (m.blocks.map Prod.fst).Nodup) : (m'.blocks.map Prod.fst).Nodup :=
  h.keys.nodup_iff.mpr hnodup

lemma isSome (h : Keeps m m') (hblock : m.blocks.lookup blockHash = some block) :
    (m'.blocks.lookup blockHash).isSome := by
  rw [lookup_isSome, h.keys.mem_iff]
  exact key_mem_of_lookup hblock

lemma inv (hinv : m.Inv numBlocks) (h : Keeps m m') : m'.Inv numBlocks := by
  have hids := h.placement.map Prod.snd
  rw [map_snd_placement, map_snd_placement] at hids
  refine ⟨by rw [h.backend]; exact hinv.numBlocks, h.nodup hinv.nodup, ?_⟩
  rw [h.backend]
  exact hinv.partitions.of_perm hids

lemma lookup (hinv : m.Inv numBlocks) (h : Keeps m m') (blockHash : BlockHash) :
    (m'.blocks.lookup blockHash).map (·.blockId) = (m.blocks.lookup blockHash).map (·.blockId) := by
  rw [← lookup_placement, ← lookup_placement]
  refine lookup_perm ?_ h.placement blockHash
  rw [map_fst_placement]
  exact hinv.nodup

/-- The status of a block is changed. -/
lemma dictSet (hnodup : (m.blocks.map Prod.fst).Nodup) (h : m.blocks.lookup blockHash = some block)
    (refCnt : BitVec 32) :
    Keeps m { m with blocks := dictSet m.blocks blockHash { block with refCnt } } :=
  ⟨rfl, .of_eq (placement_dictSet hnodup h refCnt)⟩

end Keeps

/-! ## Loads and touches -/

section

variable (hnodup : (m.blocks.map Prod.fst).Nodup)
include hnodup

lemma prepareLoad_keeps {blockIds : List ℕ} (h : m.prepareLoad blockHashes = .ok (blockIds, m')) : Keeps m m' := by
  induction blockHashes generalizing m blockIds with
  | nil =>
    cases h
    exact .refl _
  | cons blockHash blockHashes ih =>
    rw [prepareLoad] at h
    obtain ⟨⟨blockId, m₁⟩, hm₁, h⟩ := bind_eq_ok h
    obtain ⟨⟨rest, m₂⟩, hm₂, hret⟩ := bind_eq_ok h
    cases hret
    have hkeeps : Keeps m m₁ := by
      unfold loadBlock at hm₁
      split at hm₁
      · cases hm₁
      · rename_i block hblock
        obtain ⟨_, -, hret⟩ := bind_eq_ok hm₁
        cases hret
        exact .dictSet hnodup hblock _
    exact hkeeps.trans (ih (hkeeps.nodup hnodup) hm₂)

lemma completeLoad_keeps (h : m.completeLoad blockHashes = .ok m') : Keeps m m' := by
  refine foldlM_invariant h (.refl m) fun blockHash _ m₁ m₂ hkeeps hm₂ => hkeeps.trans ?_
  unfold unloadBlock at hm₂
  split at hm₂
  · cases hm₂
  · rename_i block hblock
    obtain ⟨_, -, rfl⟩ := map_eq_ok hm₂
    exact .dictSet (hkeeps.nodup hnodup) hblock _

lemma touch_keeps (blockHashes : List BlockHash) : Keeps m (m.touch blockHashes) := by
  refine foldlRecOn (motive := Keeps m) _ _ (.refl m) fun m₁ hkeeps blockHash _ => hkeeps.trans ⟨rfl, ?_⟩
  unfold touchBlock
  cases hmove : dictMoveToEnd m₁.blocks blockHash with
  | none => exact .refl _
  | some blocks => exact (dictMoveToEnd_perm (hkeeps.nodup hnodup) hmove).map _

/-! ## Stores -/

lemma storeBlocks_keeps {stored : List BlockHash}
    (h : m.storeBlocks blockHashes = .ok (stored, m')) : Keeps m m' := by
  induction blockHashes generalizing m stored with
  | nil =>
    cases h
    exact .refl _
  | cons blockHash blockHashes ih =>
    rw [storeBlocks] at h
    obtain ⟨⟨now, m₁⟩, hm₁, h⟩ := bind_eq_ok h
    obtain ⟨⟨rest, m₂⟩, hm₂, hret⟩ := bind_eq_ok h
    cases hret
    have hkeeps : Keeps m m₁ := by
      unfold storeBlock at hm₁
      split at hm₁
      · cases hm₁
      · rename_i block hblock
        split at hm₁
        · cases hm₁
          exact .refl m
        · cases hm₁
          exact .dictSet hnodup hblock _
    exact hkeeps.trans (ih (hkeeps.nodup hnodup) hm₂)

end

/-- A block is freed and its entry removed. -/
lemma Inv.remove {block : CPUBlockStatus} (hinv : m.Inv numBlocks)
    (h : m.blocks.lookup blockHash = some block) :
    Inv numBlocks { m with
      backend := m.backend.free block
      blocks := dictPop m.blocks blockHash } := by
  refine ⟨hinv.numBlocks, nodup_dictPop hinv.nodup, ?_⟩
  have hperm := (perm_dictPop hinv.nodup h).map fun e => e.2.blockId
  exact (hinv.partitions.of_perm hperm.symm).free

lemma evictBlock_eq_ok (h : m.evictBlock blockHash = .ok m') :
    ∃ block, m.blocks.lookup blockHash = some block ∧ m' = { m with
      backend := m.backend.free block
      blocks := dictPop m.blocks blockHash } := by
  unfold evictBlock at h
  split at h
  · cases h
  · rename_i block hblock
    cases h
    exact ⟨block, hblock, rfl⟩

lemma foldlM_evictBlock (hinv : m.Inv numBlocks) (h : evicted.foldlM evictBlock m = .ok m') :
    m'.Inv numBlocks ∧
      (∀ x ∈ m'.blocks.map Prod.fst, x ∈ m.blocks.map Prod.fst) ∧
      ∀ x, x ∉ evicted → m'.blocks.lookup x = m.blocks.lookup x := by
  refine foldlM_invariant h ⟨hinv, fun _ hx => hx, fun _ _ => rfl⟩ ?_
  rintro blockHash hmem m₁ m₂ ⟨hinv₁, hkeys, hlookup⟩ hm₂
  obtain ⟨block, hblock, rfl⟩ := evictBlock_eq_ok hm₂
  refine ⟨hinv₁.remove hblock, fun x hx => hkeys x (mem_map_fst_dictPop.mp hx).1, fun x hx => ?_⟩
  have hne : x ≠ blockHash := fun heq => hx (heq ▸ hmem)
  rw [lookup_dictPop, if_neg hne, hlookup x hx]

/-- The blocks to evict are not in use. -/
lemma toEvict_unused {blocks : OrderedDict BlockHash CPUBlockStatus} {n : ℕ}
    (h : toEvict blocks n = some evicted) :
    ∀ x ∈ evicted, ∃ block, (x, block) ∈ blocks ∧ block.refCnt = 0 := by
  induction blocks generalizing n evicted with
  | nil =>
    cases n with
    | zero =>
      cases h
      simp
    | succ n => cases h
  | cons e blocks ih =>
    obtain ⟨blockHash, block⟩ := e
    cases n with
    | zero =>
      cases h
      simp
    | succ n =>
      rw [toEvict] at h
      intro x hx
      split at h
      · rename_i hunused
        obtain ⟨rest, hrest, rfl⟩ := Option.map_eq_some_iff.mp h
        rcases List.mem_cons.mp hx with rfl | hx
        · exact ⟨block, mem_cons_self, hunused⟩
        · obtain ⟨block', hmem, hunused'⟩ := ih hrest x hx
          exact ⟨block', mem_cons_of_mem _ hmem, hunused'⟩
      · obtain ⟨block', hmem, hunused'⟩ := ih h x hx
        exact ⟨block', mem_cons_of_mem _ hmem, hunused'⟩

/-- `prepare_store` gives each new hash a block of its own, and keeps the blocks that are in use. -/
lemma prepareStore_eq_ok {output : Option PrepareStoreOutput} (hinv : m.Inv numBlocks)
    (hdistinct : blockHashes.Nodup) (h : m.prepareStore blockHashes = .ok (output, m')) : m'.Inv numBlocks ∧
      ∀ x block, m.blocks.lookup x = some block → block.refCnt ≠ 0 →
        m'.blocks.lookup x = some block := by
  unfold prepareStore at h
  dsimp only at h
  split at h
  · cases h
    exact ⟨hinv, fun _ _ hx _ => hx⟩
  · rename_i evicted hevicted
    obtain ⟨m₁, hm₁, h⟩ := bind_eq_ok h
    obtain ⟨hinv₁, hkeys, hlookup⟩ := foldlM_evictBlock hinv hm₁
    obtain ⟨⟨blocks, backend⟩, hallocate, h⟩ := bind_eq_ok h
    obtain ⟨hnum, hlength, -, hpart⟩ := CPUBackend.allocateBlocks_eq_ok hallocate
    obtain ⟨_, -, hret⟩ := bind_eq_ok h
    cases hret
    generalize hstore : (blockHashes.filter fun x => decide (x ∉ m.blocks.map Prod.fst)) = toStore
      at hlength hpart
    have hfst : (toStore.zip blocks).map Prod.fst = toStore :=
      map_fst_zip (le_of_eq hlength.symm)
    have hsnd : (toStore.zip blocks).map Prod.snd = blocks := map_snd_zip (le_of_eq hlength)
    have hnodup : toStore.Nodup := hstore ▸ hdistinct.filter _
    have hnew : ∀ x ∈ toStore, x ∉ m₁.blocks.map Prod.fst := by
      intro x hx hmem
      rw [← hstore, mem_filter] at hx
      exact of_decide_eq_true hx.2 (hkeys x hmem)
    have happend := foldl_dictSet_eq_append (d := m₁.blocks) (l := toStore.zip blocks)
      (by rwa [hfst]) (by rwa [hfst])
    rw [hstore] at *
    refine ⟨⟨hnum.trans hinv₁.numBlocks, ?_, ?_⟩, fun x block hx hused => ?_⟩
    · dsimp only
      rw [happend, map_append, hfst]
      exact hinv₁.nodup.append hnodup fun x hx hx' => hnew x hx' hx
    · dsimp only
      rw [happend, map_append]
      have hids : ((toStore.zip blocks).map fun e => e.2.blockId) = blocks.map (·.blockId) := by
        conv_rhs => rw [← hsnd, map_map]
        rfl
      rw [hids]
      exact hpart _ hinv₁.partitions
    · have hkept : x ∉ evicted := by
        intro hx'
        obtain ⟨block', hmem, hunused⟩ := toEvict_unused hevicted x hx'
        cases (lookup_of_mem hinv.nodup hmem).symm.trans hx
        exact hused hunused
      dsimp only
      rw [happend, lookup_append, hlookup x hkept, hx]
      rfl

lemma dropBlock_eq_ok (h : m.dropBlock blockHash = .ok m') :
    ∃ block, m.blocks.lookup blockHash = some block ∧ (m' = m ∨ ¬block.isReady = true ∧ m' = { m with
      backend := m.backend.free block
      blocks := dictPop m.blocks blockHash }) := by
  unfold dropBlock at h
  split at h
  · cases h
  · rename_i block hblock
    refine ⟨block, hblock, ?_⟩
    split at h
    · exact .inl (Except.ok.inj h).symm
    · rename_i hready
      exact .inr ⟨hready, (Except.ok.inj h).symm⟩

/-- A failed store removes entries that are not ready. -/
lemma foldlM_dropBlock (hinv : m.Inv numBlocks) (h : blockHashes.foldlM dropBlock m = .ok m') :
    m'.Inv numBlocks ∧
      ∀ x block, m.blocks.lookup x = some block → x ∉ blockHashes ∨ block.isReady = true →
        m'.blocks.lookup x = some block := by
  refine foldlM_invariant h ⟨hinv, fun _ _ hx _ => hx⟩ ?_
  rintro blockHash hmem m₁ m₂ ⟨hinv₁, hlookup⟩ hm₂
  obtain ⟨block, hblock, rfl | ⟨hready, rfl⟩⟩ := dropBlock_eq_ok hm₂
  · exact ⟨hinv₁, hlookup⟩
  · refine ⟨hinv₁.remove hblock, fun x block' hx hkeep => ?_⟩
    have hx₁ := hlookup x block' hx hkeep
    have hne : x ≠ blockHash := by
      rintro rfl
      cases hblock.symm.trans hx₁
      exact hkeep.elim (fun hnot => hnot hmem) hready
    rw [lookup_dictPop, if_neg hne, hx₁]

/-! ## Runs -/

/-- The call removes no entry that is in use, unless its store failed. -/
def KeepsUsed (call : OffloadingCall) (m m' : LRUOffloadingManager) : Prop :=
  ∀ blockHash block, m.blocks.lookup blockHash = some block → block.refCnt ≠ 0 →
    (m'.blocks.lookup blockHash).map (·.blockId) = some block.blockId ∨
    ∃ blockHashes, call = .completeStore blockHashes false ∧ blockHash ∈ blockHashes ∧
      block.isReady = false

lemma Keeps.keepsUsed (hinv : m.Inv numBlocks) (h : Keeps m m') :
    KeepsUsed call m m' := by
  intro blockHash block hblock _
  rw [h.lookup hinv, hblock]
  exact Or.inl rfl

lemma Inv.run (hinv : m.Inv numBlocks) (hdistinct : call.Distinct) (h : run call m = .ok m') :
    m'.Inv numBlocks ∧ KeepsUsed call m m' := by
  cases call with
  | lookup blockHashes =>
    cases h
    exact ⟨hinv, (Keeps.refl _).keepsUsed hinv⟩
  | prepareLoad blockHashes =>
    obtain ⟨⟨blockIds, m₁⟩, hm₁, hret⟩ := bind_eq_ok h
    cases hret
    have hkeeps := prepareLoad_keeps hinv.nodup hm₁
    exact ⟨hkeeps.inv hinv, hkeeps.keepsUsed hinv⟩
  | touch blockHashes =>
    cases h
    have hkeeps := touch_keeps hinv.nodup blockHashes
    exact ⟨hkeeps.inv hinv, hkeeps.keepsUsed hinv⟩
  | completeLoad blockHashes =>
    have hkeeps := completeLoad_keeps hinv.nodup h
    exact ⟨hkeeps.inv hinv, hkeeps.keepsUsed hinv⟩
  | prepareStore blockHashes =>
    obtain ⟨⟨output, m₁⟩, hm₁, hret⟩ := bind_eq_ok h
    cases hret
    obtain ⟨hinv', hused⟩ := prepareStore_eq_ok hinv hdistinct hm₁
    refine ⟨hinv', fun blockHash block hblock href => Or.inl ?_⟩
    rw [hused blockHash block hblock href]
    rfl
  | completeStore blockHashes success =>
    rw [LRUOffloadingManager.run] at h
    unfold completeStore at h
    cases success with
    | true =>
      obtain ⟨⟨stored, m₁⟩, hm₁, hret⟩ := bind_eq_ok h
      cases hret
      have hkeeps := storeBlocks_keeps hinv.nodup hm₁
      have hkeeps : Keeps m { m₁ with
        events := m₁.backend.recordEvent m₁.events stored false } := ⟨hkeeps.1, hkeeps.2⟩
      exact ⟨hkeeps.inv hinv, hkeeps.keepsUsed hinv⟩
    | false =>
      obtain ⟨hinv', hlookup⟩ := foldlM_dropBlock hinv h
      refine ⟨hinv', fun blockHash block hblock _ => ?_⟩
      by_cases hkeep : blockHash ∉ blockHashes ∨ block.isReady = true
      · rw [hlookup blockHash block hblock hkeep]
        exact Or.inl rfl
      · rw [not_or, not_not, Bool.not_eq_true] at hkeep
        exact Or.inr ⟨blockHashes, rfl, hkeep⟩
  | takeEvents =>
    cases h
    have hkeeps : Keeps m m.takeEvents.2 := ⟨rfl, .refl _⟩
    exact ⟨hkeeps.inv hinv, hkeeps.keepsUsed hinv⟩

lemma Inv.new (blockSize numBlocks : ℕ) (events : Option (List OffloadingEvent)) :
    Inv numBlocks { backend := { blockSize, numBlocks }, events } :=
  ⟨rfl, nodup_nil, CPUBackend.Partitions.new blockSize numBlocks⟩

/-- In every run of the manager each block belongs to one hash or is free, and no call evicts a block
that is in use. -/
theorem partitioned_of_run {blockSize numBlocks : ℕ} {events : Option (List OffloadingEvent)}
    {m : LRUOffloadingManager}
    (h : Reaches run (fun _ call => call.Distinct)
      { backend := { blockSize, numBlocks }, events } m) :
    m.Partitioned numBlocks ∧ ∀ call m', call.Distinct → run call m = .ok m' →
      KeepsUsed call m m' := by
  have hinv : m.Inv numBlocks := h.invariant (.new blockSize numBlocks events)
    fun _ _ _ hinv hdistinct hrun => (hinv.run hdistinct hrun).1
  exact ⟨hinv.partitioned, fun _ _ hdistinct hrun => (hinv.run hdistinct hrun).2⟩

/-- A block is stored and read, and two more are stored while there is room for one of them. -/
def crowdedCalls : List OffloadingCall :=
  [.prepareStore [[0], [1]], .completeStore [[0], [1]] true, .prepareLoad [[0]],
    .prepareStore [[2]]]

theorem partitioned_of_run_crowdedCalls : ∃ m,
    Reaches run (fun _ call => call.Distinct)
      { backend := { blockSize := 1, numBlocks := 2 }, events := none } m ∧
    m.Partitioned 2 ∧ m.blocks.map Prod.fst = [[0], [2]] := by
  have hcheck : ∀ (m : LRUOffloadingManager) (call : OffloadingCall),
      decide (call ∈ crowdedCalls) = true → call.Distinct := by
    intro m call hcall
    have hcall : call ∈ crowdedCalls := of_decide_eq_true hcall
    simp only [crowdedCalls, mem_cons, not_mem_nil, or_false] at hcall
    rcases hcall with rfl | rfl | rfl | rfl <;> simp [OffloadingCall.Distinct]
  have hrun : (runChecked run (fun _ call => decide (call ∈ crowdedCalls)) crowdedCalls
      { backend := { blockSize := 1, numBlocks := 2 }, events := none }).map
        (fun m => m.blocks.map Prod.fst) = some [[0], [2]] := by decide +kernel
  obtain ⟨m, hm, hkeys⟩ := Option.map_eq_some_iff.mp hrun
  have hreaches := Reaches.of_runChecked hcheck .start hm
  exact ⟨m, hreaches, (partitioned_of_run hreaches).1, hkeys⟩

end LRUOffloadingManager

end VllmRuntime
