import VllmRuntime.Model.Offloading

/-! # Block ids of the CPU backend

The ids that the backend can still hand out, and how allocating and freeing move ids between them and
the blocks in use. -/

namespace VllmRuntime

open List

lemma lawfulBEq_blockHash : LawfulBEq BlockHash := inferInstance

/-- Where the blocks are: their hashes and ids. -/
def placement (blocks : OrderedDict BlockHash CPUBlockStatus) : OrderedDict BlockHash ℕ :=
  blocks.map fun e => (e.1, e.2.blockId)

@[simp] lemma map_fst_placement (blocks : OrderedDict BlockHash CPUBlockStatus) :
    (placement blocks).map Prod.fst = blocks.map Prod.fst := by
  simp [placement, Function.comp_def]

@[simp] lemma map_snd_placement (blocks : OrderedDict BlockHash CPUBlockStatus) :
    (placement blocks).map Prod.snd = blocks.map fun e => e.2.blockId := by
  simp [placement, Function.comp_def]

lemma lookup_placement (blocks : OrderedDict BlockHash CPUBlockStatus) (blockHash : BlockHash) :
    (placement blocks).lookup blockHash = (blocks.lookup blockHash).map (·.blockId) :=
  lookup_map_snd blocks (fun _ => CPUBlockStatus.blockId) blockHash

/-- A change of the reference count does not move the block. -/
lemma placement_dictSet {blocks : OrderedDict BlockHash CPUBlockStatus} {blockHash : BlockHash}
    {block : CPUBlockStatus} (hnodup : (blocks.map Prod.fst).Nodup)
    (h : blocks.lookup blockHash = some block) (refCnt : BitVec 32) :
    placement (dictSet blocks blockHash { block with refCnt }) = placement blocks :=
  map_dictSet hnodup h rfl

namespace CPUBackend

variable {backend backend' : CPUBackend} {blockHashes : List BlockHash}

/-- The ids of the blocks that are not in use: those that were freed, and those that were never
allocated. -/
def freeIds (backend : CPUBackend) : List ℕ :=
  backend.allocatedBlocksFreeList ++
    List.range' backend.numAllocatedBlocks (backend.numBlocks - backend.numAllocatedBlocks)

/-- Each id is used once or free. -/
structure Partitions (backend : CPUBackend) (blockIds : List ℕ) : Prop where
  allocated : backend.numAllocatedBlocks ≤ backend.numBlocks
  perm : (blockIds ++ backend.freeIds) ~ List.range backend.numBlocks

namespace Partitions

variable {blockIds blockIds' : List ℕ}

lemma of_perm (h : backend.Partitions blockIds) (hperm : blockIds' ~ blockIds) :
    backend.Partitions blockIds' :=
  ⟨h.allocated, (hperm.append_right _).trans h.perm⟩

lemma new (blockSize numBlocks : ℕ) : Partitions { blockSize, numBlocks } [] := by
  refine ⟨Nat.zero_le _, ?_⟩
  rw [nil_append, freeIds, nil_append, Nat.sub_zero, range_eq_range']

/-- A block that is freed can be used again. -/
lemma free {block : CPUBlockStatus} (h : backend.Partitions (block.blockId :: blockIds)) :
    (backend.free block).Partitions blockIds := by
  refine ⟨h.allocated, .trans ?_ h.perm⟩
  unfold freeIds CPUBackend.free
  rw [append_assoc, ← append_assoc]
  exact perm_middle.trans (by rw [append_assoc]; rfl)

end Partitions

/-- `allocate_blocks` hands out a free block for each hash; none of them is ready. -/
lemma allocateBlocks_eq_ok {blocks : List CPUBlockStatus}
    (h : backend.allocateBlocks blockHashes = .ok (blocks, backend')) :
    backend'.numBlocks = backend.numBlocks ∧ blocks.length = blockHashes.length ∧
      (∀ block ∈ blocks, block.refCnt = -1) ∧
      ∀ blockIds, backend.Partitions blockIds →
        backend'.Partitions (blockIds ++ blocks.map (·.blockId)) := by
  obtain ⟨_, hassert, hret⟩ := bind_eq_ok h
  have hreused : blockHashes.length - min blockHashes.length
      (backend.numBlocks - backend.numAllocatedBlocks) ≤ backend.allocatedBlocksFreeList.length := by
    simpa using pyAssert_eq_ok.mp hassert
  cases hret
  refine ⟨rfl, ?_, ?_, fun blockIds hpart => ⟨?_, .trans ?_ hpart.perm⟩⟩
  · simp only [length_map, length_append, length_range', length_reverse,
      length_drop]
    omega
  · intro block hblock
    obtain ⟨id, -, rfl⟩ := mem_map.mp hblock
    rfl
  · have := hpart.allocated
    dsimp only
    omega
  · -- Both sides have the same ids: count them.
    have hsplit := take_append_drop (backend.allocatedBlocksFreeList.length -
      (blockHashes.length - min blockHashes.length
        (backend.numBlocks - backend.numAllocatedBlocks))) backend.allocatedBlocksFreeList
    have hrange := range'_append_1 (s := backend.numAllocatedBlocks)
      (m := min blockHashes.length (backend.numBlocks - backend.numAllocatedBlocks))
      (n := backend.numBlocks - backend.numAllocatedBlocks -
        min blockHashes.length (backend.numBlocks - backend.numAllocatedBlocks))
    rw [Nat.add_sub_cancel' (Nat.min_le_right _ _)] at hrange
    rw [perm_iff_count]
    intro id
    have hsplit := congrArg (List.count id) hsplit
    have hrange := congrArg (List.count id) hrange
    rw [count_append] at hsplit hrange
    simp only [freeIds, map_map, Function.comp_def, map_id', count_append,
      count_reverse, Nat.sub_add_eq]
    omega

lemma getNumFreeBlocks_free (backend : CPUBackend) (block : CPUBlockStatus) :
    (backend.free block).getNumFreeBlocks = backend.getNumFreeBlocks + 1 := by
  simp only [getNumFreeBlocks, free, length_append, length_singleton, Nat.cast_add,
    Nat.cast_one]
  omega

/-- `allocate_blocks` does not fail if there are enough free blocks. -/
lemma allocateBlocks_isOk (hallocated : backend.numAllocatedBlocks ≤ backend.numBlocks)
    (h : blockHashes.length ≤ backend.getNumFreeBlocks) :
    ∃ blocks backend', backend.allocateBlocks blockHashes = .ok (blocks, backend') := by
  have hassert : decide (backend.allocatedBlocksFreeList.length ≥ blockHashes.length -
      min blockHashes.length (backend.numBlocks - backend.numAllocatedBlocks)) = true := by
    rw [decide_eq_true_eq]
    unfold getNumFreeBlocks at h
    omega
  unfold allocateBlocks
  dsimp only
  rw [hassert]
  exact ⟨_, _, rfl⟩

end CPUBackend

end VllmRuntime
