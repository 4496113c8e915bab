import VllmRuntime.Verification.BlockHash.CollisionFree
import VllmRuntime.Verification.BlockPool.Agreement
import VllmRuntime.Verification.CacheHit.Correctness

/-! # Hits are cached blocks

Whatever the lengths, a successful search returns, at each index of a group, the null block or
the block that is cached under the hash of that index. -/

namespace VllmRuntime

open List

variable {pool : BlockPool} {hashes : List BlockHash} {groupId : ℕ} {ids : List ℕ} {blocks : List BlockRef}
  {j maxLength alignmentTokens dcpWorldSize pcpWorldSize : ℕ} {spec : KVCacheSpec} {useEagle : Bool}
  {hitBlocks : List (List BlockRef)}

/-! ## Rows -/

namespace CacheHit

variable {pool : BlockPool} {blockHashes : List BlockHash} {kvCacheGroupIds : List ℕ}
  {rows : List BlockRow} {maxLength alignmentTokens dcpWorldSize pcpWorldSize : ℕ} {useEagle : Bool}
  {spec : KVCacheSpec}

/-- Every row is the null row or the cached row of its index. -/
def OnlyCached (pool : BlockPool) (blockHashes : List BlockHash) (kvCacheGroupIds : List ℕ)
    (rows : List BlockRow) : Prop :=
  ∀ i row, rows[i]? = some row → row = List.replicate kvCacheGroupIds.length pool.nullBlock ∨
    rowAt pool blockHashes kvCacheGroupIds i = some row

lemma CachedFrom.onlyCached {start : ℕ} (h : CachedFrom pool blockHashes kvCacheGroupIds start rows)
    (hnull : ∀ i < start, ∀ row, rows[i]? = some row →
      row = List.replicate kvCacheGroupIds.length pool.nullBlock) :
    OnlyCached pool blockHashes kvCacheGroupIds rows := by
  intro i row hi
  obtain ⟨hlt, -⟩ := List.getElem?_eq_some_iff.mp hi
  by_cases hstart : i < start
  · exact Or.inl (hnull i hstart row hi)
  · obtain ⟨row', hrow', hget⟩ := h i (by omega) hlt
    rw [hi] at hget
    exact Or.inr (Option.some.inj hget ▸ hrow')

lemma onlyCached_replicate (n : ℕ) : OnlyCached pool blockHashes kvCacheGroupIds
    (List.replicate n (List.replicate kvCacheGroupIds.length pool.nullBlock)) :=
  fun _ _ hi => Or.inl (eq_of_mem_replicate (mem_of_getElem? hi))

lemma OnlyCached.take (h : OnlyCached pool blockHashes kvCacheGroupIds rows) (n : ℕ) :
    OnlyCached pool blockHashes kvCacheGroupIds (rows.take n) := by
  intro i row hi
  apply h i row
  rw [getElem?_take] at hi
  split at hi
  · exact hi
  · cases hi

lemma OnlyCached.set {i : ℕ} {row : BlockRow} (h : OnlyCached pool blockHashes kvCacheGroupIds rows)
    (hrow : rowAt pool blockHashes kvCacheGroupIds i = some row) :
    OnlyCached pool blockHashes kvCacheGroupIds (rows.set i row) := by
  intro j row' hj
  rw [getElem?_set] at hj
  split at hj
  · rename_i hij
    split at hj
    · exact Or.inr (by rw [← hij, hrow, hj])
    · cases hj
  · exact h j row' hj

lemma slidingWindowLoop_onlyCached (needed blockSize alignmentTokens i n : ℕ)
    (h : OnlyCached pool blockHashes kvCacheGroupIds rows) :
    OnlyCached pool blockHashes kvCacheGroupIds
      (slidingWindowLoop pool blockHashes kvCacheGroupIds needed blockSize alignmentTokens i n
        rows).1 := by
  induction i generalizing n rows with
  | zero => exact h
  | succ i ih =>
    rw [slidingWindowLoop]
    cases hrow : rowAt pool blockHashes kvCacheGroupIds i with
    | none => exact ih 0 h
    | some row =>
      dsimp only
      split
      · exact ih n h
      · split
        · exact (h.set hrow).take _
        · exact ih (n + 1) (h.set hrow)

lemma slidingWindow_onlyCached {blockSize window : ℕ}
    (h : slidingWindow pool blockHashes kvCacheGroupIds maxLength blockSize window useEagle
      alignmentTokens = .ok rows) : OnlyCached pool blockHashes kvCacheGroupIds rows := by
  have hloop : OnlyCached pool blockHashes kvCacheGroupIds
      (slidingWindowRows pool blockHashes kvCacheGroupIds (maxLength / blockSize) blockSize window
        useEagle alignmentTokens) := by
    unfold slidingWindowRows
    dsimp only
    generalize (cdiv (window - 1) blockSize + if useEagle = true then 1 else 0) = needed
    split
    · exact slidingWindowLoop_onlyCached _ _ _ _ _ (onlyCached_replicate _)
    · exact ((slidingWindowLoop_onlyCached _ _ _ _ _ (onlyCached_replicate _)).take _).take _
  unfold slidingWindow at h
  dsimp only at h
  split at h
  · cases h
  · split at h
    · obtain ⟨_, -, rfl⟩ := map_eq_ok h
      rw [dropLast_eq_take]
      exact hloop.take _
    · cases h
      exact hloop

lemma mambaLoop_onlyCached (blockSize alignmentTokens n : ℕ) :
    OnlyCached pool blockHashes kvCacheGroupIds
      (mambaLoop pool blockHashes kvCacheGroupIds blockSize alignmentTokens n) := by
  induction n with
  | zero =>
    intro i row hi
    simp [mambaLoop] at hi
  | succ n ih =>
    rw [mambaLoop]
    cases hrow : rowAt pool blockHashes kvCacheGroupIds n with
    | none => exact ih
    | some row =>
      dsimp only
      split
      · exact ih
      · intro i row' hi
        rw [getElem?_append] at hi
        split at hi
        · exact onlyCached_replicate n i row' hi
        · rename_i hge
          rw [length_replicate] at hge hi
          rw [getElem?_singleton] at hi
          split at hi
          · rename_i hzero
            obtain rfl : i = n := by omega
            exact Or.inr (hrow.trans hi)
          · cases hi

lemma fullAttention_onlyCached (maxLength blockSize : ℕ) (useEagle : Bool)
    (alignmentTokens : ℕ) :
    OnlyCached pool blockHashes kvCacheGroupIds (fullAttention pool blockHashes kvCacheGroupIds
      maxLength blockSize useEagle alignmentTokens) :=
  (fullAttention_scanned maxLength blockSize useEagle alignmentTokens).cached.onlyCached
    (fun i hi => absurd hi (Nat.not_lt_zero i))

/-- The block size at which the scan of a spec counts. -/
def scanBlockSize (spec : KVCacheSpec) (dcpWorldSize pcpWorldSize : ℕ) : ℕ :=
  if spec.isFullAttention ∧ dcpWorldSize * pcpWorldSize > 1 then
    spec.blockSize * (dcpWorldSize * pcpWorldSize)
  else
    spec.blockSize

lemma scanBlockSize_of_full (h : spec.isFullAttention = true) : scanBlockSize spec dcpWorldSize pcpWorldSize =
    if dcpWorldSize * pcpWorldSize > 1 then spec.blockSize * (dcpWorldSize * pcpWorldSize) else spec.blockSize := by
  simp [scanBlockSize, h]

lemma rows_onlyCached
    (h : CacheHit.rows pool blockHashes kvCacheGroupIds maxLength spec useEagle alignmentTokens
      dcpWorldSize pcpWorldSize = .ok rows) :
    OnlyCached pool blockHashes kvCacheGroupIds rows ∧
      rows.length * scanBlockSize spec dcpWorldSize pcpWorldSize ≤ maxLength := by
  cases spec with
  | slidingWindow attention window =>
    obtain ⟨_, -, h⟩ := bind_eq_ok h
    obtain ⟨_, -, h⟩ := bind_eq_ok h
    exact ⟨slidingWindow_onlyCached h, (slidingWindow_scanned h).le⟩
  | chunkedLocalAttention attention chunkSize =>
    obtain ⟨_, -, h⟩ := bind_eq_ok h
    obtain ⟨_, -, h⟩ := bind_eq_ok h
    obtain ⟨_, -, h⟩ := bind_eq_ok h
    obtain ⟨hscan, -, -, hnull, -⟩ := chunkedLocalAttention_spec h
    refine ⟨hscan.cached.onlyCached fun i hi row hrow => ?_, hscan.le⟩
    rw [hnull i hi] at hrow
    exact (Option.some.inj hrow).symm
  | mamba mambaSpec =>
    obtain ⟨_, -, h⟩ := bind_eq_ok h
    obtain ⟨_, -, h⟩ := bind_eq_ok h
    refine ⟨?_, (mamba_scanned h).le⟩
    unfold mamba at h
    dsimp only at h
    split at h
    · cases h
    · cases h
      exact mambaLoop_onlyCached _ _ _
  | crossAttention attention => cases h
  | fullAttention attention | mlaAttention attention dtype | sinkFullAttention attention sinkLen =>
    cases h
    rw [scanBlockSize_of_full rfl]
    exact ⟨fullAttention_onlyCached maxLength _ useEagle alignmentTokens,
      (fullAttention_scanned maxLength _ useEagle alignmentTokens).le⟩

/-- The block size of the unitary coordinator is the one scaled by context parallelism. -/
lemma unitaryBlockSize_eq (spec : KVCacheSpec) (hdcp : 0 < dcpWorldSize) (hpcp : 0 < pcpWorldSize) :
    unitaryBlockSize spec dcpWorldSize pcpWorldSize =
      if dcpWorldSize * pcpWorldSize > 1 then spec.blockSize * (dcpWorldSize * pcpWorldSize)
      else spec.blockSize := by
  unfold unitaryBlockSize
  rcases Nat.eq_or_lt_of_le hdcp with rfl | hdcp'
  · rcases Nat.eq_or_lt_of_le hpcp with rfl | hpcp'
    · simp
    · simp [show 1 < pcpWorldSize from hpcp']
  · have hd : 1 < dcpWorldSize := hdcp'
    rcases Nat.eq_or_lt_of_le hpcp with rfl | hpcp'
    · simp [hd]
    · have hp : 1 < pcpWorldSize := hpcp'
      have hmul : 1 < dcpWorldSize * pcpWorldSize :=
        lt_of_lt_of_le hd (Nat.le_mul_of_pos_right _ hpcp)
      simp [hmul, hd, hp, Nat.mul_assoc]

/-- A scan that raises nothing counts in blocks of the unitary coordinator. -/
lemma rows_scanBlockSize (hdcp : 0 < dcpWorldSize) (hpcp : 0 < pcpWorldSize)
    (h : CacheHit.rows pool blockHashes kvCacheGroupIds maxLength spec useEagle alignmentTokens
      dcpWorldSize pcpWorldSize = .ok rows) :
    scanBlockSize spec dcpWorldSize pcpWorldSize =
      unitaryBlockSize spec dcpWorldSize pcpWorldSize := by
  by_cases hfull : spec.isFullAttention = true
  · rw [unitaryBlockSize_eq spec hdcp hpcp]
    simp [scanBlockSize, hfull]
  · -- The other types assert that there is no context parallelism.
    obtain ⟨rfl, rfl⟩ : dcpWorldSize = 1 ∧ pcpWorldSize = 1 := by
      cases spec with
      | slidingWindow attention window | mamba mambaSpec =>
        obtain ⟨_, hd, h⟩ := bind_eq_ok h
        obtain ⟨_, hp, h⟩ := bind_eq_ok h
        exact ⟨by simpa using pyAssert_eq_ok.mp hd, by simpa using pyAssert_eq_ok.mp hp⟩
      | chunkedLocalAttention attention chunkSize =>
        obtain ⟨_, -, h⟩ := bind_eq_ok h
        obtain ⟨_, hd, h⟩ := bind_eq_ok h
        obtain ⟨_, hp, h⟩ := bind_eq_ok h
        exact ⟨by simpa using pyAssert_eq_ok.mp hd, by simpa using pyAssert_eq_ok.mp hp⟩
      | crossAttention attention => cases h
      | fullAttention attention => exact absurd rfl hfull
      | mlaAttention attention dtype => exact absurd rfl hfull
      | sinkFullAttention attention sinkLen => exact absurd rfl hfull
    simp [scanBlockSize, unitaryBlockSize]

end CacheHit

/-! ## Blocks -/

open CacheHit

/-- The block at each index is the null block or the one cached for the group under the hash of
that index. -/
def FoundUnder (pool : BlockPool) (hashes : List BlockHash) (groupId : ℕ)
    (blocks : List BlockRef) : Prop :=
  ∀ (i : ℕ) (b : BlockRef), blocks[i]? = some b → b = pool.nullBlock ∨ ∃ hash, hashes[i]? = some hash ∧
    pool.cachedBlockHashToBlock.getOneBlock (makeBlockHashWithGroupId hash groupId) = some b

lemma FoundUnder.take (h : FoundUnder pool hashes groupId blocks) (n : ℕ) :
    FoundUnder pool hashes groupId (blocks.take n) := by
  intro i b hi
  apply h i b
  rw [getElem?_take] at hi
  split at hi
  · exact hi
  · cases hi

lemma foundUnder_column {rows : List BlockRow} (h : OnlyCached pool hashes ids rows)
    (hj : ids[j]? = some groupId) :
    FoundUnder pool hashes groupId (rows.map fun row => row.getD j pool.nullBlock) := by
  intro i b hi
  rw [getElem?_map] at hi
  obtain ⟨row, hrow, rfl⟩ := Option.map_eq_some_iff.mp hi
  rcases h i row hrow with rfl | hcached
  · left
    rw [getD_eq_getElem?_getD, getElem?_replicate]
    split <;> rfl
  · obtain ⟨hash, b, hhash, hb, hget⟩ := KVCacheCoordinator.rowAt_getElem? hcached hj
    exact Or.inr ⟨hash, hhash, by rw [getD_eq_getElem?_getD, hb]; exact hget⟩

/-- The lookup of one spec gives each of its groups the same number of blocks. -/
lemma findLongestCacheHit_found
    (h : findLongestCacheHit pool hashes maxLength ids spec useEagle alignmentTokens dcpWorldSize
      pcpWorldSize = .ok hitBlocks) :
    ∃ n, n * scanBlockSize spec dcpWorldSize pcpWorldSize ≤ maxLength ∧
      hitBlocks.length = ids.length ∧ (ids ≠ [] → (hitBlocks.headD []).length = n) ∧
      ∀ (j : ℕ) (blocks : List BlockRef), hitBlocks[j]? = some blocks →
        blocks.length = n ∧ ∀ groupId, ids[j]? = some groupId →
          FoundUnder pool hashes groupId blocks := by
  obtain ⟨rows, hrows, rfl⟩ := map_eq_ok h
  obtain ⟨honly, hle⟩ := rows_onlyCached hrows
  refine ⟨rows.length, hle, by simp [columns], fun hids => ?_, ?_⟩
  · exact KVCacheCoordinator.length_head_columns _ rows (List.length_pos_iff.mpr hids)
  · intro j blocks hj
    have hlt : j < ids.length := by
      obtain ⟨hlt, -⟩ := List.getElem?_eq_some_iff.mp hj
      simpa [columns] using hlt
    rw [KVCacheCoordinator.columns_getElem? _ rows hlt] at hj
    cases hj
    exact ⟨by simp, fun groupId hid => foundUnder_column honly hid⟩

/-- A full attention type finds cached blocks only. -/
lemma findLongestCacheHit_full (hspec : spec.isFullAttention = true)
    (h : findLongestCacheHit pool hashes maxLength ids spec useEagle alignmentTokens dcpWorldSize pcpWorldSize =
      .ok hitBlocks) (hj : ids[j]? = some groupId) (hblocks : hitBlocks[j]? = some blocks) :
    ∀ b ∈ blocks, ∃ key, pool.cachedBlockHashToBlock.getOneBlock key = some b := by
  obtain ⟨rows, hrows, rfl⟩ := map_eq_ok h
  obtain ⟨blockSize, rfl⟩ : ∃ blockSize, rows =
      fullAttention pool hashes ids maxLength blockSize useEagle alignmentTokens := by
    cases spec with
    | fullAttention attention => exact ⟨_, (Except.ok.inj hrows).symm⟩
    | mlaAttention attention dtype => exact ⟨_, (Except.ok.inj hrows).symm⟩
    | sinkFullAttention attention sinkLen => exact ⟨_, (Except.ok.inj hrows).symm⟩
    | _ => cases hspec
  have hscanned : Scanned pool hashes ids maxLength blockSize alignmentTokens (fun _ => 0)
      (fullAttention pool hashes ids maxLength blockSize useEagle alignmentTokens) :=
    fullAttention_scanned maxLength blockSize useEagle alignmentTokens
  have hcached := hscanned.cached
  rw [KVCacheCoordinator.columns_getElem? _ _ (lt_of_getElem? hj)] at hblocks
  cases hblocks
  intro b hb
  obtain ⟨row, hrow, rfl⟩ := List.mem_map.mp hb
  obtain ⟨i, hi, rfl⟩ := List.mem_iff_getElem.mp hrow
  obtain ⟨row, hat, hget⟩ := hcached i (Nat.zero_le i) hi
  rw [getElem?_eq_getElem hi] at hget
  cases hget
  obtain ⟨hash, b, -, hbrow, hone⟩ := KVCacheCoordinator.rowAt_getElem? hat hj
  exact ⟨_, by rw [getD_eq_getElem?_getD, hbrow]; exact hone⟩

/-! ## The hybrid search -/

namespace KVCacheCoordinator

variable {c : KVCacheCoordinator} {blockHashes : List BlockHash} {lcmBlockSize : ℕ}
  {hits hits' : HitBlocks} {groups : List AttentionGroup} {length length' : ℕ}

/-- Every recorded list is found under the hashes of some spec. -/
def AllFound (c : KVCacheCoordinator) (blockHashes : List BlockHash) (hits : HitBlocks) : Prop :=
  ∀ (i : ℕ) (blocks : List BlockRef), hits[i]? = some (some blocks) →
    ∃ spec, FoundUnder c.blockPool (c.blockHashesFor blockHashes spec) i blocks

lemma setHitBlocks_getElem? {groupIds : List ℕ} {hitBlocks : List (List BlockRef)} {i : ℕ}
    {x : Option (List BlockRef)} (h : (setHitBlocks hits groupIds hitBlocks)[i]? = some x) :
    hits[i]? = some x ∨ ∃ (j : ℕ) (blocks : List BlockRef), groupIds[j]? = some i ∧
      hitBlocks[j]? = some blocks ∧ x = some blocks := by
  induction groupIds generalizing hits hitBlocks with
  | nil => exact Or.inl h
  | cons id ids ih =>
    cases hitBlocks with
    | nil => exact Or.inl h
    | cons first hitBlocks =>
      rcases @ih (hits.set id (some first)) hitBlocks h with hold | ⟨j, blocks, hj, hb, hx⟩
      · rw [getElem?_set] at hold
        split at hold
        · rename_i hid
          split at hold
          · exact Or.inr ⟨0, first, by simp [hid], by simp, (Option.some.inj hold).symm⟩
          · cases hold
        · exact Or.inl hold
      · exact Or.inr ⟨j + 1, blocks, by simpa using hj, by simpa using hb, hx⟩

section All

variable {P : ℕ → List BlockRef → Prop} {groups : List AttentionGroup} {hits hits' : HitBlocks}

/-- `P` holds of the recorded list of each group. -/
def AllHits (P : ℕ → List BlockRef → Prop) (hits : HitBlocks) : Prop :=
  ∀ (i : ℕ) (blocks : List BlockRef), hits[i]? = some (some blocks) → P i blocks

/-- `P` holds of what the lookups of the types find. -/
def LooksUpAll (c : KVCacheCoordinator) (blockHashes : List BlockHash) (lcmBlockSize : ℕ)
    (groups : List AttentionGroup) (P : ℕ → List BlockRef → Prop) : Prop :=
  ∀ g ∈ groups, ∀ length hitBlocks, VllmRuntime.findLongestCacheHit c.blockPool
      (c.blockHashesFor blockHashes g.spec) length g.groupIds g.spec c.useEagle lcmBlockSize 1 1 = .ok hitBlocks →
    ∀ (j i : ℕ) (blocks : List BlockRef), g.groupIds[j]? = some i → hitBlocks[j]? = some blocks → P i blocks

lemma hybridPass_all (hlooks : LooksUpAll c blockHashes lcmBlockSize groups P) (hall : AllHits P hits)
    (h : hybridPass c blockHashes lcmBlockSize groups length hits = .ok (length', hits')) :
    AllHits P hits' := by
  induction groups generalizing length hits with
  | nil =>
    cases h
    exact hall
  | cons g groups ih =>
    have htail : LooksUpAll c blockHashes lcmBlockSize groups P :=
      fun g' hg' => hlooks g' (mem_cons_of_mem _ hg')
    rw [hybridPass] at h
    split at h
    · exact ih htail hall h
    · obtain ⟨hitBlocks, hlook, hrest⟩ := bind_eq_ok h
      refine ih htail ?_ hrest
      intro i blocks hi
      rcases setHitBlocks_getElem? hi with hold | ⟨j, blocks', hj, hb, hx⟩
      · exact hall i blocks hold
      · cases hx
        exact hlooks g mem_cons_self length hitBlocks hlook j i blocks hj hb

lemma hybridLoop_all {isSimple : Bool} {fuel : ℕ} (hlooks : LooksUpAll c blockHashes lcmBlockSize groups P)
    (hall : AllHits P hits)
    (h : hybridLoop c blockHashes groups lcmBlockSize isSimple fuel length hits = .ok (length', hits')) :
    AllHits P hits' := by
  induction fuel generalizing length hits with
  | zero =>
    cases h
    exact hall
  | succ fuel ih =>
    obtain ⟨⟨curr, hits₁⟩, hpass, h⟩ := bind_eq_ok h
    have hall₁ := hybridPass_all hlooks hall hpass
    dsimp only at h
    split at h
    · cases h
      exact hall₁
    · split at h
      · cases h
        exact hall₁
      · exact ih hall₁ h

lemma AllHits.truncate (htake : ∀ i blocks n, P i blocks → P i (blocks.take n)) (hall : AllHits P hits)
    (groups : List AttentionGroup) (length : ℕ) : AllHits P (truncateFullAttention groups length hits) := by
  have hmodify : ∀ {hits : HitBlocks}, AllHits P hits → ∀ groupId n,
      AllHits P (hits.modify groupId (Option.map (List.take n))) := by
    intro hits hall groupId n i blocks hi
    rw [getElem?_modify] at hi
    split at hi
    · obtain ⟨old, hold, hmap⟩ := Option.map_eq_some_iff.mp hi
      obtain ⟨blocks', rfl, rfl⟩ := Option.map_eq_some_iff.mp hmap
      exact htake i blocks' n (hall i blocks' hold)
    · obtain ⟨old, hold, hmap⟩ := Option.map_eq_some_iff.mp hi
      exact hall i blocks (by rw [hold, ← hmap])
  unfold truncateFullAttention
  split
  · exact hall
  · rename_i g rest
    split
    · generalize g.groupIds = ids
      induction ids generalizing hits with
      | nil => exact hall
      | cons id ids ih => exact ih (hmodify hall id _)
    · exact hall

end All

/-- What one round of the search does to the hits of the groups that are not full attention. -/
structure PassFound (c : KVCacheCoordinator) (blockHashes : List BlockHash)
    (groups : List AttentionGroup) (length length' : ℕ) (hits hits' : HitBlocks) : Prop where
  le : length' ≤ length
  size : hits'.length = hits.length
  found : AllFound c blockHashes hits → AllFound c blockHashes hits'
  kept : ∀ i, (∀ g ∈ groups, i ∉ g.groupIds) → hits'[i]? = hits[i]?
  short : ∀ g ∈ groups, g.spec.isFullAttention = false → ∀ i ∈ g.groupIds, ∀ blocks,
    hits'[i]? = some (some blocks) → blocks.length * g.spec.blockSize ≤ length
  last : ∀ g, groups.getLast? = some g → g.spec.isFullAttention = false → ∀ i ∈ g.groupIds,
    ∀ blocks, hits'[i]? = some (some blocks) → blocks.length * g.spec.blockSize ≤ length'

lemma scanBlockSize_one (spec : KVCacheSpec) : scanBlockSize spec 1 1 = spec.blockSize := by
  simp [scanBlockSize]

lemma hybridPass_found (hsep : Separate groups hits.length)
    (h : hybridPass c blockHashes lcmBlockSize groups length hits = .ok (length', hits')) :
    PassFound c blockHashes groups length length' hits hits' := by
  induction groups generalizing length hits with
  | nil =>
    cases h
    exact ⟨le_rfl, rfl, id, fun _ _ => rfl, by simp, by simp⟩
  | cons g groups ih =>
    rw [hybridPass] at h
    split at h
    · -- A full attention type that has been looked up before.
      rename_i hreuse
      have hrest := ih hsep.tail h
      have hfull : g.spec.isFullAttention = true := (Bool.and_eq_true_iff.mp hreuse).1
      have hle : length / g.spec.blockSize * g.spec.blockSize ≤ length := Nat.div_mul_le_self _ _
      refine ⟨hrest.le.trans hle, hrest.size, hrest.found, ?_, ?_, ?_⟩
      · intro i hi
        exact hrest.kept i fun g' hg' => hi g' (mem_cons_of_mem _ hg')
      · intro g' hg' hnot i hi blocks hblocks
        rcases List.mem_cons.mp hg' with rfl | hmem
        · rw [hfull] at hnot
          cases hnot
        · exact (hrest.short g' hmem hnot i hi blocks hblocks).trans hle
      · intro g' hlast hnot
        cases groups with
        | nil =>
          obtain rfl : g = g' := by simpa using hlast
          rw [hfull] at hnot
          cases hnot
        | cons next groups =>
          rw [getLast?_cons_cons] at hlast
          exact hrest.last g' hlast hnot
    · obtain ⟨hitBlocks, hlook, hrest⟩ := bind_eq_ok h
      obtain ⟨n, hn, hlen, hhead, hcols⟩ := findLongestCacheHit_found hlook
      rw [scanBlockSize_one] at hn
      rw [hhead (hsep.ids_ne_nil g mem_cons_self)] at hrest
      have hsize : (setHitBlocks hits g.groupIds hitBlocks).length = hits.length :=
        length_setHitBlocks _ _ _
      have hpass := ih (hsize.symm ▸ hsep.tail) hrest
      -- The entries of this type have `n` blocks after the round.
      have hown : ∀ i ∈ g.groupIds, ∀ blocks, hits'[i]? = some (some blocks) →
          blocks.length = n := by
        intro i hi blocks hblocks
        have hkept := hpass.kept i fun g' hg' =>
          (List.pairwise_cons.mp hsep.disjoint).1 g' hg' i hi
        obtain ⟨j, hj⟩ := getElem?_of_mem hi
        have hjlt : j < hitBlocks.length := by
          rw [hlen]
          exact lt_of_getElem? hj
        have hset := setHitBlocks_of_mem (hsep.ids_nodup g mem_cons_self)
          (hsep.bound g mem_cons_self) hj (getElem?_eq_getElem hjlt)
        rw [hkept, hset] at hblocks
        obtain rfl := Option.some.inj (Option.some.inj hblocks)
        exact (hcols j _ (getElem?_eq_getElem hjlt)).1
      refine ⟨hpass.le.trans hn, hpass.size.trans hsize, ?_, ?_, ?_, ?_⟩
      · intro hfound
        apply hpass.found
        intro i blocks hi
        rcases setHitBlocks_getElem? hi with hold | ⟨j, blocks', hj, hb, hx⟩
        · exact hfound i blocks hold
        · cases hx
          exact ⟨g.spec, (hcols j blocks hb).2 i hj⟩
      · intro i hi
        rw [hpass.kept i fun g' hg' => hi g' (mem_cons_of_mem _ hg')]
        exact setHitBlocks_of_not_mem _ _ (hi g mem_cons_self)
      · intro g' hg' hnot i hi blocks hblocks
        rcases List.mem_cons.mp hg' with rfl | hmem
        · rw [hown i hi blocks hblocks]
          exact hn
        · exact (hpass.short g' hmem hnot i hi blocks hblocks).trans hn
      · intro g' hlast hnot
        cases groups with
        | nil =>
          obtain rfl : g = g' := by simpa using hlast
          cases hrest
          intro i hi blocks hblocks
          rw [hown i hi blocks hblocks]
        | cons next groups =>
          rw [getLast?_cons_cons] at hlast
          exact hpass.last g' hlast hnot

/-- The hits of the groups that are not full attention fit in `length`. -/
def ShortHits (groups : List AttentionGroup) (length : ℕ) (hits : HitBlocks) : Prop :=
  ∀ g ∈ groups, g.spec.isFullAttention = false → ∀ i ∈ g.groupIds, ∀ blocks,
    hits[i]? = some (some blocks) → blocks.length * g.spec.blockSize ≤ length

lemma PassFound.short_of_simple (h : PassFound c blockHashes groups length length' hits hits')
    (hsimple : isSimpleHybrid groups = true) : ShortHits groups length' hits' := by
  intro g hg hnot
  rw [isSimpleHybrid, Bool.and_eq_true, decide_eq_true_eq] at hsimple
  obtain ⟨first, second, rfl⟩ := length_eq_two.mp hsimple.1
  have hfull : first.spec.isFullAttention = true := by simpa using hsimple.2
  apply h.last g _ hnot
  rcases mem_cons.mp hg with rfl | hmem
  · rw [hfull] at hnot
    cases hnot
  · rw [mem_singleton] at hmem
    simp [hmem]

lemma hybridLoop_hits {fuel : ℕ} (hsep : Separate groups hits.length) (hfuel : length < fuel)
    (hfound : AllFound c blockHashes hits)
    (h : hybridLoop c blockHashes groups lcmBlockSize (isSimpleHybrid groups) fuel length hits =
      .ok (length', hits')) :
    AllFound c blockHashes hits' ∧ ShortHits groups length' hits' ∧ length' ≤ length := by
  induction fuel generalizing length hits with
  | zero => omega
  | succ fuel ih =>
    rw [hybridLoop] at h
    obtain ⟨⟨curr, hits₁⟩, hpass, h⟩ := bind_eq_ok h
    have hround := hybridPass_found hsep hpass
    simp only at h
    split at h
    · cases h
      exact ⟨hround.found hfound, hround.short, le_rfl⟩
    · split at h
      · rename_i hsimple
        cases h
        exact ⟨hround.found hfound, hround.short_of_simple hsimple, hround.le⟩
      · obtain ⟨hall, hshort, hle⟩ := ih (hround.size.symm ▸ hsep) (by omega)
          (hround.found hfound) h
        exact ⟨hall, hshort, by omega⟩

lemma AllFound.truncate (h : AllFound c blockHashes hits) (length : ℕ) :
    AllFound c blockHashes (truncateFullAttention groups length hits) :=
  AllHits.truncate (fun _ _ n ⟨spec, hspec⟩ => ⟨spec, hspec.take n⟩) h groups length

end KVCacheCoordinator

end VllmRuntime
