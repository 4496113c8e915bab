import VllmRuntime.Model.KVCacheManager
import VllmRuntime.Verification.BlockHash.Positions
import VllmRuntime.Verification.CacheHit.Found
import VllmRuntime.Verification.KVCache.Coordinator

/-! # The hits of a request

The blocks that `get_computed_blocks` returns can be given to `allocate_slots`: without hash
collisions a group finds no block twice, and outside full attention no group finds more than
the returned number of tokens. -/

namespace VllmRuntime

open List BlockHash SingleTypeKVCacheManager

/-! ## The hashes of a request -/

/-- The hashes of the request are chained digests of some inputs, as the block hasher leaves
them. -/
def Request.HashedBy (hashFunction : HashInput → BlockHash) (noneHash : BlockHash)
    (request : Request) : Prop :=
  ∃ inputs, request.blockHashes = HashChain.chain (hashStep hashFunction noneHash) none inputs

variable {hashFunction : HashInput → BlockHash} {noneHash : BlockHash} {hashes : List BlockHash}

/-- Runs of hashes are told apart by their first hash. -/
lemma blockHashListWithBlockSize_nodup (hnodup : hashes.Nodup)
    (hfree : ∀ a ∈ hashes, ∀ b ∈ hashes, a <+: b → a = b) (hashBlockSize targetBlockSize : ℕ) :
    (blockHashListWithBlockSize hashes hashBlockSize targetBlockSize).Nodup := by
  unfold blockHashListWithBlockSize
  dsimp only
  generalize targetBlockSize / hashBlockSize = scale
  apply List.Nodup.map_on _ nodup_range
  intro i hi j hj heq
  rw [mem_range] at hi hj
  have hscale : 0 < scale := by
    rcases Nat.eq_zero_or_pos scale with rfl | hpos
    · simp at hi
    · exact hpos
  have hstart : ∀ k < hashes.length / scale, k * scale < hashes.length := by
    intro k hk
    calc
      k * scale < hashes.length / scale * scale := Nat.mul_lt_mul_of_pos_right hk hscale
      _ ≤ hashes.length := Nat.div_mul_le_self _ _
  -- The first hash of a run is where the run starts.
  have hfirst : ∀ k (hk : k * scale < hashes.length),
      hashes[k * scale] <+: ((hashes.drop (k * scale)).take scale).flatten := by
    intro k hk
    obtain ⟨n, rfl⟩ : ∃ n, scale = n + 1 := ⟨scale - 1, by omega⟩
    rw [drop_eq_getElem_cons hk, take_succ_cons, flatten_cons]
    exact prefix_append _ _
  have hilt := hstart i hi
  have hjlt := hstart j hj
  have hij := hfirst i hilt
  rw [heq] at hij
  have hsame : hashes[i * scale] = hashes[j * scale] := by
    rcases prefix_or_prefix_of_prefix hij (hfirst j hjlt) with hpre | hpre
    · exact hfree _ (getElem_mem _) _ (getElem_mem _) hpre
    · exact (hfree _ (getElem_mem _) _ (getElem_mem _) hpre).symm
  have hindex := (List.Nodup.getElem_inj_iff hnodup).mp hsame
  exact Nat.eq_of_mul_eq_mul_right hscale hindex

lemma blockHashesFor_nodup {c : KVCacheCoordinator} {request : Request}
    (hfree : CollisionFree hashFunction noneHash) (h : request.HashedBy hashFunction noneHash)
    (spec : KVCacheSpec) : (c.blockHashesFor request.blockHashes spec).Nodup := by
  obtain ⟨inputs, hinputs⟩ := h
  have hnodup : request.blockHashes.Nodup := hinputs ▸ hfree.chain_nodup inputs
  unfold KVCacheCoordinator.blockHashesFor
  split
  · exact hnodup
  · apply blockHashListWithBlockSize_nodup hnodup
    intro a ha b hb hpre
    rw [hinputs] at ha hb
    obtain ⟨input, rfl⟩ := mem_chain ha
    obtain ⟨input', rfl⟩ := mem_chain hb
    exact hfree.prefixFree input input' hpre

/-! ## Blocks found under different hashes -/

lemma FoundUnder.hits {pool : BlockPool} {reserved : List BlockRef} {groupId : ℕ} {blocks : List BlockRef}
    (h : FoundUnder pool hashes groupId blocks) (hagrees : pool.CacheAgrees)
    (hnull : pool.IsBlock pool.nullBlock ∧ pool.nullBlock ∉ reserved)
    (hreserved : ∀ b ∈ reserved, pool.blockHash b = none) (hnodup : hashes.Nodup) :
    Hits pool reserved blocks := by
  refine ⟨?_, ?_⟩
  · intro b hb
    obtain ⟨i, hi⟩ := getElem?_of_mem hb
    rcases h i b hi with rfl | ⟨hash, -, hget⟩
    · exact hnull
    · obtain ⟨hblock, -, hkey⟩ := hagrees.getOneBlock hget
      refine ⟨hblock, fun hmem => ?_⟩
      rw [hreserved b hmem] at hkey
      cases hkey
  · intro b hne
    by_contra hcount
    obtain ⟨i, j, hij, hi, hj⟩ : ∃ i j : ℕ, i < j ∧ blocks[i]? = some b ∧ blocks[j]? = some b := by
      have hdup : List.Duplicate b blocks := List.duplicate_iff_two_le_count.mpr (by omega)
      obtain ⟨i, j, hij, hbi, hbj⟩ := List.duplicate_iff_exists_distinct_get.mp hdup
      refine ⟨i, j, hij, ?_, ?_⟩
      · rw [getElem?_eq_getElem i.2, hbi, get_eq_getElem]
      · rw [getElem?_eq_getElem j.2, hbj, get_eq_getElem]
    obtain ⟨hash, hhash, hget⟩ := (h i b hi).resolve_left hne
    obtain ⟨hash', hhash', hget'⟩ := (h j b hj).resolve_left hne
    have hkey := (hagrees.getOneBlock hget).2.2
    have hkey' := (hagrees.getOneBlock hget').2.2
    rw [hkey] at hkey'
    obtain rfl : hash = hash' := append_cancel_right (Option.some.inj hkey')
    obtain ⟨hilt, hgi⟩ := List.getElem?_eq_some_iff.mp hhash
    obtain ⟨hjlt, hgj⟩ := List.getElem?_eq_some_iff.mp hhash'
    have hidx := (List.Nodup.getElem_inj_iff hnodup).mp (hgi.trans hgj.symm)
    omega

/-! ## The search of the coordinator -/

namespace KVCacheCoordinator

variable {lcmBlockSize dcpWorldSize pcpWorldSize hashBlockSize : ℕ} {groups : List AttentionGroup}
  {enableCaching : Bool} {spec : KVCacheSpec} {specs : List KVCacheSpec}

lemma coordinatorKind_singleton_ne_hybrid :
    coordinatorKind [spec] enableCaching dcpWorldSize pcpWorldSize hashBlockSize ≠
      .ok (.hybrid groups lcmBlockSize) := by
  intro h
  cases enableCaching with
  | false => cases h
  | true =>
    obtain ⟨_, -, h⟩ := bind_eq_ok h
    cases h

lemma coordinatorKind_unitary
    (h : coordinatorKind specs enableCaching dcpWorldSize pcpWorldSize hashBlockSize =
      .ok (.unitary spec)) : specs = [spec] := by
  unfold coordinatorKind at h
  split at h
  · cases h
  · obtain ⟨_, -, h⟩ := bind_eq_ok h
    obtain rfl := CoordinatorKind.unitary.inj (Except.ok.inj h)
    rfl
  · obtain ⟨_, -, h⟩ := bind_eq_ok h
    obtain ⟨_, -, h⟩ := bind_eq_ok h
    obtain ⟨_, -, h⟩ := bind_eq_ok h
    obtain ⟨_, -, h⟩ := bind_eq_ok h
    cases h

lemma coordinatorKind_hybrid_worldSizes
    (h : coordinatorKind specs enableCaching dcpWorldSize pcpWorldSize hashBlockSize =
      .ok (.hybrid groups lcmBlockSize)) : dcpWorldSize = 1 ∧ pcpWorldSize = 1 := by
  unfold coordinatorKind at h
  split at h
  · cases h
  · obtain ⟨_, -, h⟩ := bind_eq_ok h
    cases h
  · obtain ⟨_, -, h⟩ := bind_eq_ok h
    obtain ⟨_, hdcp, h⟩ := bind_eq_ok h
    obtain ⟨_, hpcp, h⟩ := bind_eq_ok h
    exact ⟨by simpa using pyAssert_eq_ok.mp hdcp, by simpa using pyAssert_eq_ok.mp hpcp⟩

variable {c : KVCacheCoordinator} {blockHashes : List BlockHash} {maxLength n : ℕ}
  {hits : List (List BlockRef)}

lemma getD_map_nil (ms : List SingleTypeKVCacheManager) (i : ℕ) :
    (ms.map fun _ => ([] : List BlockRef)).getD i [] = [] := by
  rw [getD_eq_getElem?_getD, getElem?_map]
  cases ms[i]? <;> rfl

/-- What a successful search gives to the groups. -/
structure SearchResult (c : KVCacheCoordinator) (blockHashes : List BlockHash) (maxLength : ℕ)
    (hits : List (List BlockRef)) (n : ℕ) : Prop where
  le : n ≤ maxLength
  found : ∀ i, hits.getD i [] = [] ∨ ∃ hashes,
    (hashes = blockHashes ∨ ∃ spec, hashes = c.blockHashesFor blockHashes spec) ∧
      FoundUnder c.blockPool hashes i (hits.getD i [])
  short : ∀ (i : ℕ) (m : SingleTypeKVCacheManager), c.singleTypeManagers[i]? = some m →
    m.kvCacheSpec.isFullAttention = false ∨ c.singleTypeManagers.length = 1 →
    (hits.getD i []).length * m.blockSize ≤ n

/-- The hybrid coordinator has one type for each spec of its managers. -/
lemma SetUp.splits (hsetUp : c.SetUp) (hkind : c.kind = .hybrid groups lcmBlockSize) :
    Splits (c.singleTypeManagers.map kvCacheSpec) c.singleTypeManagers.length groups := by
  have hk := hsetUp.kind
  rw [hkind] at hk
  obtain ⟨hgroups, -, -, -⟩ := coordinatorKind_hybrid hk
  have hold := splitKvCacheGroups_splits (c.singleTypeManagers.map kvCacheSpec)
  rw [length_map] at hold
  exact hgroups ▸ hold.perm (fullAttentionFirst_perm _)

lemma getD_hitBlocks (hits : HitBlocks) (i : ℕ) :
    (hits.map (Option.getD · [])).getD i [] = (hits[i]?.getD none).getD [] := by
  rw [getD_eq_getElem?_getD, getElem?_map]
  cases hits[i]? <;> rfl

lemma hybridFindLongestCacheHit_result (hsetUp : c.SetUp)
    (hkind : c.kind = .hybrid groups lcmBlockSize)
    (h : c.hybridFindLongestCacheHit groups lcmBlockSize blockHashes maxLength = .ok (hits, n)) :
    SearchResult c blockHashes maxLength hits n := by
  have hk := hsetUp.kind
  rw [hkind] at hk
  obtain ⟨hdcp, hpcp⟩ := coordinatorKind_hybrid_worldSizes hk
  have hsplits := hsetUp.splits hkind
  obtain ⟨⟨hitLength, found⟩, hloop, hret⟩ := bind_eq_ok h
  obtain ⟨rfl, rfl⟩ := ok_pair_inj hret
  have hsep : Separate groups
      (List.replicate c.singleTypeManagers.length (none : Option (List BlockRef))).length := by
    rw [length_replicate]
    exact ⟨hsplits.disjoint, hsplits.ids_ne_nil, hsplits.ids_nodup,
      fun g hg i hi => (hsplits.spec_eq g hg i hi).1⟩
  obtain ⟨hall, hshort, hle⟩ := hybridLoop_hits hsep (Nat.lt_succ_self _) (by
    intro i blocks hi
    rw [getElem?_replicate] at hi
    split at hi <;> cases hi) hloop
  have hget := getD_hitBlocks (truncateFullAttention groups hitLength found)
  refine ⟨hle, ?_, ?_⟩
  · intro i
    rw [hget]
    cases hi : (truncateFullAttention groups hitLength found)[i]?.getD none with
    | none => exact Or.inl rfl
    | some blocks =>
      have hentry := (Option.getD_eq_iff.mp hi).resolve_right (by simp)
      obtain ⟨spec, hfound⟩ := hall.truncate hitLength i blocks hentry
      exact Or.inr ⟨_, Or.inr ⟨spec, rfl⟩, hfound⟩
  · intro i m hm hshorter
    have hnot : m.kvCacheSpec.isFullAttention = false := by
      refine hshorter.resolve_right fun hone => ?_
      rw [length_eq_one_iff] at hone
      obtain ⟨m₀, hm₀⟩ := hone
      rw [hm₀] at hk
      exact coordinatorKind_singleton_ne_hybrid hk
    rw [hget]
    have hilt : i < c.singleTypeManagers.length := lt_of_getElem? hm
    obtain ⟨g, hg, hi⟩ := hsplits.covers i hilt
    have hspec : g.spec = m.kvCacheSpec := by
      have := (hsplits.spec_eq g hg i hi).2
      rw [getElem?_map, hm] at this
      exact (Option.some.inj this).symm
    -- Only the first full attention type is truncated.
    have hsame : (truncateFullAttention groups hitLength found)[i]? = found[i]? := by
      apply truncateFullAttention_of_not_mem
      intro f rest hf hfull hmem
      have hfspec := (hsplits.spec_eq f (by simp [hf]) i hmem).2
      rw [getElem?_map, hm] at hfspec
      have : m.kvCacheSpec = f.spec := Option.some.inj hfspec
      rw [this, hfull] at hnot
      cases hnot
    rw [hsame]
    have hsize : m.blockSize = g.spec.blockSize := by
      rw [hsetUp.blockSize m (mem_of_getElem? hm), hdcp, hpcp, hspec]
      simp [unitaryBlockSize]
    cases hentry : found[i]?.getD none with
    | none => simp
    | some blocks =>
      have hfound := (Option.getD_eq_iff.mp hentry).resolve_right (by simp)
      rw [hsize]
      exact hshort g hg (hspec ▸ hnot) i hi blocks hfound

lemma findLongestCacheHit_result (hsetUp : c.SetUp)
    (h : c.findLongestCacheHit blockHashes maxLength = .ok (hits, n)) :
    SearchResult c blockHashes maxLength hits n := by
  unfold findLongestCacheHit at h
  split at h
  · cases h
    refine ⟨Nat.zero_le _, fun i => Or.inl (getD_map_nil _ i), fun i _ _ _ => ?_⟩
    rw [getD_map_nil]
    simp
  · rename_i spec hkind
    have hk := hsetUp.kind
    rw [hkind] at hk
    have hspecs := coordinatorKind_unitary hk
    obtain ⟨hitBlocks, hlook, hret⟩ := bind_eq_ok h
    obtain ⟨rfl, rfl⟩ := ok_pair_inj hret
    obtain ⟨k, hle, hlen, hhead, hcols⟩ := findLongestCacheHit_found hlook
    obtain ⟨rows, hrows, -⟩ := bind_eq_ok hlook
    rw [CacheHit.rows_scanBlockSize hsetUp.worldSizes.1 hsetUp.worldSizes.2 hrows] at hle
    rw [hhead (by simp)]
    -- There is one group, and the search returns one list.
    obtain ⟨blocks, rfl⟩ : ∃ blocks, hitBlocks = [blocks] := by
      rw [length_singleton, length_eq_one_iff] at hlen
      exact hlen
    obtain ⟨hblocks, hfound⟩ := hcols 0 blocks rfl
    refine ⟨hle, ?_, ?_⟩
    · intro i
      cases i with
      | zero => exact Or.inr ⟨blockHashes, Or.inl rfl, hfound 0 rfl⟩
      | succ i => exact Or.inl rfl
    · intro i m hm hnot
      cases i with
      | zero =>
        have hspec : m.kvCacheSpec = spec := by
          have hget : (c.singleTypeManagers.map kvCacheSpec)[0]? = some m.kvCacheSpec := by
            rw [getElem?_map, hm]
            rfl
          rw [hspecs] at hget
          exact (Option.some.inj hget).symm
        rw [hsetUp.blockSize m (mem_of_getElem? hm), hspec]
        exact (congrArg (· * _) hblocks).le
      | succ i => simp
  · rename_i groups lcmBlockSize hkind
    exact hybridFindLongestCacheHit_result hsetUp hkind h

/-- The blocks that the lookups of full attention groups find. -/
def CachedInFull (c : KVCacheCoordinator) (i : ℕ) (blocks : List BlockRef) : Prop :=
  ∀ m, c.singleTypeManagers[i]? = some m → m.kvCacheSpec.isFullAttention = true →
    ∀ b ∈ blocks, ∃ key, c.blockPool.cachedBlockHashToBlock.getOneBlock key = some b

lemma cachedInFull_nil (c : KVCacheCoordinator) (i : ℕ) : CachedInFull c i [] := by
  intro m _ _ b hb
  simp at hb

lemma hybridFindLongestCacheHit_full (hsetUp : c.SetUp) (hkind : c.kind = .hybrid groups lcmBlockSize)
    (h : c.hybridFindLongestCacheHit groups lcmBlockSize blockHashes maxLength = .ok (hits, n)) (i : ℕ) :
    CachedInFull c i (hits.getD i []) := by
  have hsplits := hsetUp.splits hkind
  obtain ⟨⟨hitLength, found⟩, hloop, hret⟩ := bind_eq_ok h
  obtain ⟨rfl, rfl⟩ := ok_pair_inj hret
  have hlooks : LooksUpAll c blockHashes lcmBlockSize groups (CachedInFull c) := by
    intro g hg length hitBlocks hlook j i blocks hj hblocks m hm hfull
    have hspec := (hsplits.spec_eq g hg i (mem_of_getElem? hj)).2
    rw [getElem?_map, hm] at hspec
    rw [Option.some.inj hspec] at hfull
    exact findLongestCacheHit_full hfull hlook hj hblocks
  have hall := hybridLoop_all hlooks (by
    intro i blocks hi
    rw [getElem?_replicate] at hi
    split at hi <;> cases hi) hloop
  have htruncated := hall.truncate (fun i blocks k hblocks m hm hfull b hb =>
    hblocks m hm hfull b (mem_of_mem_take hb)) groups hitLength
  rw [getD_hitBlocks]
  cases hi : (truncateFullAttention groups hitLength found)[i]?.getD none with
  | none => exact cachedInFull_nil c i
  | some blocks => exact htruncated i blocks ((Option.getD_eq_iff.mp hi).resolve_right (by simp))

lemma findLongestCacheHit_cachedInFull (hsetUp : c.SetUp)
    (h : c.findLongestCacheHit blockHashes maxLength = .ok (hits, n)) (i : ℕ) :
    CachedInFull c i (hits.getD i []) := by
  unfold findLongestCacheHit at h
  split at h
  · cases h
    rw [getD_map_nil]
    exact cachedInFull_nil c i
  · rename_i spec hkind
    have hk := hsetUp.kind
    rw [hkind] at hk
    have hspecs := coordinatorKind_unitary hk
    obtain ⟨hitBlocks, hlook, hret⟩ := bind_eq_ok h
    obtain ⟨rfl, -⟩ := ok_pair_inj hret
    intro m hm hfull
    have hspec : (c.singleTypeManagers.map kvCacheSpec)[i]? = some m.kvCacheSpec := by
      rw [getElem?_map, hm]
      rfl
    rw [hspecs] at hspec
    cases i with
    | zero =>
      cases hspec
      cases hblocks : hitBlocks[0]? with
      | none => simp [getD_eq_getElem?_getD, hblocks]
      | some blocks =>
        rw [getD_eq_getElem?_getD, hblocks]
        exact findLongestCacheHit_full hfull hlook rfl hblocks
    | succ i => simp at hspec
  · rename_i groups lcmBlockSize hkind
    exact hybridFindLongestCacheHit_full hsetUp hkind h i

end KVCacheCoordinator

/-! ## The computed blocks of a request -/

namespace KVCacheManager

variable {kv : KVCacheManager} {request : Request} {hits : List (List BlockRef)} {n : ℕ}

lemma getComputedBlocks_result (hsetUp : kv.coordinator.SetUp)
    (h : kv.getComputedBlocks request = .ok (hits, n)) :
    KVCacheCoordinator.SearchResult kv.coordinator request.blockHashes (request.numTokens - 1) hits
      n := by
  unfold getComputedBlocks at h
  split at h
  · cases h
    refine ⟨Nat.zero_le _, fun i => Or.inl (KVCacheCoordinator.getD_map_nil _ i), fun i _ _ _ => ?_⟩
    rw [emptyKvCacheBlocks, KVCacheCoordinator.getD_map_nil]
    simp
  · exact KVCacheCoordinator.findLongestCacheHit_result hsetUp h

/-- A full attention group finds cached blocks only. -/
lemma getComputedBlocks_cachedInFull (hsetUp : kv.coordinator.SetUp)
    (h : kv.getComputedBlocks request = .ok (hits, n)) (i : ℕ) :
    KVCacheCoordinator.CachedInFull kv.coordinator i (hits.getD i []) := by
  unfold getComputedBlocks at h
  split at h
  · cases h
    rw [emptyKvCacheBlocks, KVCacheCoordinator.getD_map_nil]
    exact KVCacheCoordinator.cachedInFull_nil _ i
  · exact KVCacheCoordinator.findLongestCacheHit_cachedInFull hsetUp h i

/-- Each group finds blocks of the pool, none of them twice. -/
lemma getComputedBlocks_hits {tracked : Prop} {reserved : List BlockRef}
    {tokens : RequestId → ℕ} (hinv : kv.coordinator.Invariant tracked reserved tokens)
    (hfree : CollisionFree hashFunction noneHash) (hreq : request.HashedBy hashFunction noneHash)
    (h : kv.getComputedBlocks request = .ok (hits, n)) (i : ℕ) :
    Hits kv.blockPool reserved (hits.getD i []) := by
  rcases (getComputedBlocks_result hinv.setUp h).found i with hnil | ⟨hashes, hhashes, hfound⟩
  · rw [hnil]
    exact ⟨by simp, by simp⟩
  · apply hfound.hits hinv.cache.agrees hinv.cache.null hinv.cache.reserved_hash
    rcases hhashes with rfl | ⟨spec, rfl⟩
    · obtain ⟨inputs, hinputs⟩ := hreq
      exact hinputs ▸ hfree.chain_nodup inputs
    · exact blockHashesFor_nodup hfree hreq spec

end KVCacheManager

end VllmRuntime
