import VllmRuntime.Verification.KVCache.Invariant

/-! # The coordinator keeps the invariant

The loops of the coordinator over its managers, and what they do to the tables of a Mamba group
in mode `align`, whose last blocks move from step to step. -/

namespace VllmRuntime

open List SingleTypeKVCacheManager

/-! ## Tables of mode `align` -/

namespace SingleTypeKVCacheManager

variable {tracked : Prop} {reserved : List BlockRef} {others fresh : BlockRef → ℕ}
  {m m' : SingleTypeKVCacheManager} {r : RequestId} {pool pool' : BlockPool} {n : ℕ} {numTokens : ℕ}

lemma AlignState.congr (h : AlignState tracked n m r) (hspec : m'.kvCacheSpec = m.kvCacheSpec)
    (hlength : (m'.blocksOf r).length = (m.blocksOf r).length)
    (hcached : m'.numCached r = m.numCached r)
    (hallocated : r ∈ m'.allocatedBlockReqs ↔ r ∈ m.allocatedBlockReqs) :
    AlignState tracked n m' r := by
  refine ⟨?_, ?_⟩
  · rw [hallocated, hspec, hlength]
    exact h.length
  · rw [hallocated, hspec, hlength, hcached]
    exact h.cached

lemma AlignState.of_changes {r' : RequestId} (h : AlignState tracked n m r')
    (hchanges : Changes m m' r) (hne : r' ≠ r) : AlignState tracked n m' r' :=
  h.congr hchanges.spec (by rw [hchanges.blocksOf r' hne]) (hchanges.numCached r' hne)
    (hchanges.allocated r' hne)

lemma AlignState.mono {n' : ℕ} (h : AlignState tracked n m r) (hle : n ≤ n') :
    AlignState tracked n' m r :=
  ⟨h.length, fun ht => (h.cached ht).imp_right fun hnot => ⟨hnot.1, hnot.2.trans hle⟩⟩

lemma allocateNewBlocks_align {numTokensMainModel : ℕ} {newBlocks : List BlockRef}
    (hmode : m.kvCacheSpec.isMambaAlign = true) (hmain : 0 < cdiv numTokensMainModel m.blockSize)
    (hn : n ≤ cdiv numTokensMainModel m.blockSize)
    (hinv : TableInv tracked reserved others fresh (m.blocksOf r) (m.numCached r) pool)
    (halign : AlignState tracked n m r)
    (h : m.allocateNewBlocks pool r numTokens numTokensMainModel = .ok (newBlocks, m', pool')) :
    AlignState tracked 0 m' r ∧ (m'.blocksOf r).length =
      cdiv numTokensMainModel m'.blockSize + m'.kvCacheSpec.numSpeculativeBlocks := by
  rw [allocateNewBlocks_of_align hmode] at h
  obtain ⟨hstep, hlength, hgrows, hcached⟩ := alignAllocateNewBlocks_step hinv halign h
  rw [hstep.changes.blockSize, hstep.changes.spec]
  refine ⟨⟨?_, ?_⟩, hlength⟩
  · intro _
    rw [hlength, hstep.changes.spec]
    omega
  · intro ht
    left
    rw [hcached, hstep.changes.spec]
    rcases halign.cached ht with hle | ⟨-, hle⟩
    · omega
    · omega

/-- A request with allocated blocks gets no hits; one without has them all cached. -/
lemma allocateNewComputedBlocks_align {hits : List BlockRef} {numLocal numExternal : ℕ}
    (hspec : ValidSpec m.kvCacheSpec) (hmode : m.kvCacheSpec.isMambaAlign = true)
    (hlen : tracked → hits.length ≤ cdiv (numLocal + numExternal) m.blockSize)
    (halign : AlignState tracked 0 m r) (hchanges : Changes m m' r)
    (h : m.allocateNewComputedBlocks pool r hits numLocal numExternal = .ok (m', pool')) :
    AlignState tracked (cdiv (numLocal + numExternal) m'.blockSize) m' r := by
  obtain ⟨rfl, -⟩ | ⟨pool₁, ret, hgives⟩ := allocateNewComputedBlocks_eq_ok h
  · exact halign.mono (Nat.zero_le _)
  · have hnot : r ∉ m'.allocatedBlockReqs := by
      intro hmem
      have hlength := halign.length (hgives.allocated ▸ hmem)
      simp [hgives.empty] at hlength
    refine ⟨fun hmem => absurd hmem hnot, fun ht => Or.inr ⟨hnot, ?_⟩⟩
    have hskip := numSkippedBlocks_le hspec (numLocal + numExternal)
    have hhits := hlen ht
    rw [hgives.numCached, hgives.changes.blockSize]
    omega

lemma cacheBlocks_align {request : Request}
    (hinv : TableInv tracked reserved others fresh (m.blocksOf request.requestId)
      (m.numCached request.requestId) pool)
    (hfits : tracked → numTokens / m.blockSize + m.kvCacheSpec.numSpeculativeBlocks ≤
      (m.blocksOf request.requestId).length) (halign : AlignState tracked 0 m request.requestId)
    (h : m.cacheBlocks pool request numTokens = .ok (m', pool')) :
    AlignState tracked 0 m' request.requestId := by
  obtain ⟨hstep, hblocks, hnum⟩ := cacheBlocks_step hinv h
  obtain ⟨⟨-, -, hallocated⟩, -⟩ := cacheBlocks_eq_ok h
  refine ⟨?_, ?_⟩
  · rw [hallocated, hblocks, hstep.changes.spec]
    exact halign.length
  · intro ht
    have hfit := hfits ht
    left
    rw [hblocks, hstep.changes.spec, hnum]
    generalize numTokens / m.blockSize = numFullBlocks at hfit ⊢
    rcases halign.cached ht with hle | ⟨-, hle⟩ <;> omega

lemma free_align (hmode : m.kvCacheSpec.isMambaAlign = true)
    (h : m.free pool r = .ok (m', pool')) : AlignState tracked 0 m' r := by
  obtain ⟨-, -, -, hnum, hnot⟩ := free_eq_ok h
  exact ⟨fun hmem => absurd hmem (hnot hmode), fun _ => Or.inr ⟨hnot hmode, hnum.le⟩⟩

end SingleTypeKVCacheManager

/-! ## The coordinator -/

namespace KVCacheCoordinator

/-- The coordinator has the managers and the kind that its groups call for. -/
structure SetUp (c : KVCacheCoordinator) : Prop where
  kind : coordinatorKind (c.singleTypeManagers.map kvCacheSpec) c.enableCaching c.dcpWorldSize
    c.pcpWorldSize c.hashBlockSize = .ok c.kind
  specs : ∀ m ∈ c.singleTypeManagers, ValidSpec m.kvCacheSpec
  enableCaching : ∀ m ∈ c.singleTypeManagers, m.enableCaching = c.enableCaching
  groupId : ∀ (i : ℕ) (m : SingleTypeKVCacheManager), c.singleTypeManagers[i]? = some m →
    m.kvCacheGroupId = i
  blockSize : ∀ m ∈ c.singleTypeManagers,
    m.blockSize = unitaryBlockSize m.kvCacheSpec c.dcpWorldSize c.pcpWorldSize
  worldSizes : 0 < c.dcpWorldSize ∧ 0 < c.pcpWorldSize
  poolCaching : c.blockPool.enableCaching = c.enableCaching
  poolHashBlockSize : c.blockPool.hashBlockSize = c.hashBlockSize

/-- The invariant while a call for some request is under way: the requests in `tokens` may have
hits for that many tokens in their tables and no blocks of their own yet. -/
structure Invariant (tracked : Prop) (reserved : List BlockRef) (tokens : RequestId → ℕ)
    (c : KVCacheCoordinator) : Prop where
  setUp : c.SetUp
  cache : CacheInv tracked reserved c.singleTypeManagers c.blockPool
  align : ∀ m ∈ c.singleTypeManagers, m.kvCacheSpec.isMambaAlign = true →
    ∀ r, AlignState tracked (cdiv (tokens r) m.blockSize) m r

/-- The parameters of the coordinator are the same. -/
structure SameSetUp (c c' : KVCacheCoordinator) : Prop where
  kind : c'.kind = c.kind
  maxModelLen : c'.maxModelLen = c.maxModelLen
  useEagle : c'.useEagle = c.useEagle
  enableCaching : c'.enableCaching = c.enableCaching
  dcpWorldSize : c'.dcpWorldSize = c.dcpWorldSize
  pcpWorldSize : c'.pcpWorldSize = c.pcpWorldSize
  hashBlockSize : c'.hashBlockSize = c.hashBlockSize
  pool : BlockPool.SameConfig c.blockPool c'.blockPool
  managers : List.Forall₂ (fun m m' => m'.kvCacheSpec = m.kvCacheSpec ∧
      m'.enableCaching = m.enableCaching ∧ m'.kvCacheGroupId = m.kvCacheGroupId ∧
      m'.blockSize = m.blockSize) c.singleTypeManagers c'.singleTypeManagers

variable {tracked : Prop} {reserved : List BlockRef} {tokens tokens' : RequestId → ℕ}
  {c c' c'' : KVCacheCoordinator} {r : RequestId}
  {numTokens numEncoderTokens numTokensMainModel numLocal numExternal : ℕ} {m' : SingleTypeKVCacheManager}
  {pool' : BlockPool} {hits : List (List BlockRef)}

lemma SameSetUp.refl (c : KVCacheCoordinator) : SameSetUp c c :=
  ⟨rfl, rfl, rfl, rfl, rfl, rfl, rfl, BlockPool.SameConfig.refl _,
    forall₂_same.mpr fun _ _ => ⟨rfl, rfl, rfl, rfl⟩⟩

lemma SameSetUp.trans (h : SameSetUp c c') (h' : SameSetUp c' c'') : SameSetUp c c'' := by
  refine ⟨h'.kind.trans h.kind, h'.maxModelLen.trans h.maxModelLen, h'.useEagle.trans h.useEagle,
    h'.enableCaching.trans h.enableCaching, h'.dcpWorldSize.trans h.dcpWorldSize,
    h'.pcpWorldSize.trans h.pcpWorldSize, h'.hashBlockSize.trans h.hashBlockSize,
    h.pool.trans h'.pool, ?_⟩
  apply forall₂_iff_get.mpr
  obtain ⟨hlen, hget⟩ := forall₂_iff_get.mp h.managers
  obtain ⟨hlen', hget'⟩ := forall₂_iff_get.mp h'.managers
  refine ⟨hlen.trans hlen', fun i hi hi'' => ?_⟩
  obtain ⟨h1, h2, h3, h4⟩ := hget i hi (by omega)
  obtain ⟨h1', h2', h3', h4'⟩ := hget' i (by omega) hi''
  exact ⟨h1'.trans h1, h2'.trans h2, h3'.trans h3, h4'.trans h4⟩

/-- The manager of a group before a step that keeps the parameters. -/
lemma SameSetUp.getElem? (h : SameSetUp c c') {i : ℕ} (hm' : c'.singleTypeManagers[i]? = some m') :
    ∃ m, c.singleTypeManagers[i]? = some m ∧ m'.kvCacheSpec = m.kvCacheSpec ∧
      m'.enableCaching = m.enableCaching ∧ m'.kvCacheGroupId = m.kvCacheGroupId ∧
      m'.blockSize = m.blockSize := by
  obtain ⟨hlen, hget⟩ := List.forall₂_iff_get.mp h.managers
  obtain ⟨hi, rfl⟩ := List.getElem?_eq_some_iff.mp hm'
  have hi' : i < c.singleTypeManagers.length := by omega
  exact ⟨c.singleTypeManagers[i], getElem?_eq_getElem hi', hget i hi' hi⟩

lemma SameSetUp.specs (h : SameSetUp c c') :
    c'.singleTypeManagers.map kvCacheSpec = c.singleTypeManagers.map kvCacheSpec := by
  apply ext_getElem?
  intro i
  rw [getElem?_map, getElem?_map]
  cases hm' : c'.singleTypeManagers[i]? with
  | some m' =>
    obtain ⟨m, hm, hspec, -⟩ := h.getElem? hm'
    simp [hm, hspec]
  | none =>
    have hlen := h.managers.length_eq
    rw [getElem?_eq_none_iff] at hm'
    rw [getElem?_eq_none_iff.mpr (by omega)]

lemma SetUp.of_same (h : c.SetUp) (hs : SameSetUp c c') : c'.SetUp := by
  have hmem : ∀ m' ∈ c'.singleTypeManagers, ∃ m ∈ c.singleTypeManagers,
      m'.kvCacheSpec = m.kvCacheSpec ∧ m'.enableCaching = m.enableCaching ∧
      m'.blockSize = m.blockSize := by
    intro m' hm'
    obtain ⟨i, hi⟩ := getElem?_of_mem hm'
    obtain ⟨m, hm, hspec, hcaching, -, hsize⟩ := hs.getElem? hi
    exact ⟨m, mem_of_getElem? hm, hspec, hcaching, hsize⟩
  refine ⟨?_, ?_, ?_, ?_, ?_, ?_, ?_, ?_⟩
  · rw [hs.specs, hs.enableCaching, hs.dcpWorldSize, hs.pcpWorldSize, hs.hashBlockSize, hs.kind]
    exact h.kind
  · intro m' hm'
    obtain ⟨m, hm, hspec, -⟩ := hmem m' hm'
    exact hspec ▸ h.specs m hm
  · intro m' hm'
    obtain ⟨m, hm, -, hcaching, -⟩ := hmem m' hm'
    rw [hcaching, hs.enableCaching]
    exact h.enableCaching m hm
  · intro i m' hi
    obtain ⟨m, hm, -, -, hid, -⟩ := hs.getElem? hi
    exact hid.trans (h.groupId i m hm)
  · intro m' hm'
    obtain ⟨m, hm, hspec, -, hsize⟩ := hmem m' hm'
    rw [hsize, hspec, hs.dcpWorldSize, hs.pcpWorldSize]
    exact h.blockSize m hm
  · rw [hs.dcpWorldSize, hs.pcpWorldSize]
    exact h.worldSizes
  · rw [hs.pool.enableCaching, hs.enableCaching]
    exact h.poolCaching
  · rw [hs.pool.hashBlockSize, hs.hashBlockSize]
    exact h.poolHashBlockSize

/-- A loop over the managers in which every round is a step of the table of `r`. -/
lemma overManagers_inv {α : Type} {f : ℕ → SingleTypeKVCacheManager → BlockPool →
      Except PyError (α × SingleTypeKVCacheManager × BlockPool)} {as : List α}
    (good : ℕ → SingleTypeKVCacheManager → Prop) (post : SingleTypeKVCacheManager → Prop)
    (hinv : c.Invariant tracked reserved tokens) (htokens : ∀ r', r' ≠ r → tokens' r' = tokens r')
    (hgood : ∀ i m, c.singleTypeManagers[i]? = some m → good i m)
    (hf : ∀ {i m pool a m' pool' others fresh}, BlockPool.SameConfig c.blockPool pool → good i m →
      ValidSpec m.kvCacheSpec →
      (m.kvCacheSpec.isMambaAlign = true → AlignState tracked (cdiv (tokens r) m.blockSize) m r) →
      TableInv tracked reserved others fresh (m.blocksOf r) (m.numCached r) pool →
      f i m pool = .ok (a, m', pool') →
      TableStep tracked reserved others fresh r m pool m' pool' ∧
        (m.kvCacheSpec.isMambaAlign = true →
          AlignState tracked (cdiv (tokens' r) m'.blockSize) m' r) ∧ post m')
    (h : c.overManagers f = .ok (as, c')) :
    c'.Invariant tracked reserved tokens' ∧ SameSetUp c c' ∧
      ∀ m ∈ c'.singleTypeManagers, post m := by
  obtain ⟨⟨as', ms', pool'⟩, hloop, hret⟩ := bind_eq_ok h
  cases hret
  obtain ⟨hcache, hconfig, hall⟩ := forManagers_inv
    (fun i m => good i m ∧ ValidSpec m.kvCacheSpec ∧
      (m.kvCacheSpec.isMambaAlign = true → AlignState tracked (cdiv (tokens r) m.blockSize) m r))
    (fun m m' => (m.kvCacheSpec.isMambaAlign = true →
      AlignState tracked (cdiv (tokens' r) m'.blockSize) m' r) ∧ post m')
    (fun hpool hg htable hrun => by
      obtain ⟨hstep, hdone⟩ := hf hpool hg.1 hg.2.1 hg.2.2 htable hrun
      exact ⟨hstep, hdone⟩)
    (BlockPool.SameConfig.refl _)
    (show CacheInv tracked reserved ([] ++ c.singleTypeManagers) c.blockPool from hinv.cache) (by
      intro j m hj
      have hmem := mem_of_getElem? hj
      exact ⟨(zero_add j).symm ▸ hgood j m hj, hinv.setUp.specs m hmem,
        fun hmode => hinv.align m hmem hmode r⟩) hloop
  have hsame : SameSetUp c { c with singleTypeManagers := ms', blockPool := pool' } :=
    ⟨rfl, rfl, rfl, rfl, rfl, rfl, rfl, hconfig, hall.imp fun _ _ hm =>
      ⟨hm.1.spec, hm.1.enableCaching, hm.1.groupId, hm.1.blockSize⟩⟩
  obtain ⟨hlen, hget⟩ := forall₂_iff_get.mp hall
  -- Each manager comes from an old one by changes to request `r`.
  have hold : ∀ m' ∈ ms', ∃ m ∈ c.singleTypeManagers, Changes m m' r ∧
      (m.kvCacheSpec.isMambaAlign = true →
        AlignState tracked (cdiv (tokens' r) m'.blockSize) m' r) ∧ post m' := by
    intro m' hm'
    obtain ⟨i, hi, rfl⟩ := mem_iff_getElem.mp hm'
    have hi' : i < c.singleTypeManagers.length := by omega
    exact ⟨_, getElem_mem hi', hget i hi' hi⟩
  refine ⟨⟨hinv.setUp.of_same hsame, hcache, ?_⟩, hsame, ?_⟩
  · intro m' hm' hmode r'
    obtain ⟨m, hm, hchanges, halign, -⟩ := hold m' hm'
    rw [hchanges.spec] at hmode
    by_cases hr : r' = r
    · exact hr ▸ halign hmode
    · rw [htokens r' hr, hchanges.blockSize]
      exact (hinv.align m hm hmode r').of_changes hchanges hr
  · intro m' hm'
    obtain ⟨m, -, -, -, hpost⟩ := hold m' hm'
    exact hpost

/-! ## The operations -/

lemma round_eq_ok {x : Except PyError (SingleTypeKVCacheManager × BlockPool)} {a : Unit} (h : (do
      let (m, pool) ← x
      return ((), m, pool)) = .ok (a, m', pool')) : x = .ok (m', pool') := by
  obtain ⟨⟨m, pool⟩, hx, hret⟩ := bind_eq_ok h
  obtain ⟨-, hrest⟩ := ok_pair_inj hret
  cases hrest
  exact hx

lemma removeSkippedBlocks_inv {n : ℕ} (hinv : c.Invariant tracked reserved tokens)
    (h : c.removeSkippedBlocks r n = .ok c') :
    c'.Invariant tracked reserved tokens ∧ SameSetUp c c' := by
  obtain ⟨⟨as, c₁⟩, hloop, hret⟩ := bind_eq_ok h
  cases hret
  obtain ⟨hinv', hsame, -⟩ := overManagers_inv (fun _ _ => True) (fun _ => True) hinv
    (fun _ _ => rfl) (fun _ _ _ => trivial) (r := r) (by
      intro i m pool a m' pool' others fresh _ _ _ halign htable hrun
      have hstep := removeSkippedBlocks_step htable (round_eq_ok hrun)
      refine ⟨hstep.toTableStep, fun hmode => ?_, trivial⟩
      rw [hstep.changes.blockSize]
      exact (halign hmode).congr hstep.changes.spec hstep.length hstep.sameCached
        (by rw [hstep.sameAllocated])) hloop
  exact ⟨hinv', hsame⟩

lemma getNumBlocksToAllocate_inv {newComputedBlocks : List (List BlockRef)} {totalComputedTokens : ℕ}
    {num : ℤ} (hinv : c.Invariant tracked reserved tokens)
    (h : c.getNumBlocksToAllocate r numTokens newComputedBlocks numEncoderTokens
      totalComputedTokens numTokensMainModel = .ok (num, c')) :
    c'.Invariant tracked reserved tokens ∧ SameSetUp c c' := by
  obtain ⟨⟨nums, c₁⟩, hloop, hret⟩ := bind_eq_ok h
  cases hret
  obtain ⟨hinv', hsame, -⟩ := overManagers_inv (fun _ _ => True) (fun _ => True) hinv
    (fun _ _ => rfl) (fun _ _ _ => trivial) (r := r) (by
      intro i m pool a m' pool' others fresh _ _ _ halign htable hrun
      obtain ⟨⟨num₁, m₁⟩, hest, hret⟩ := bind_eq_ok hrun
      obtain ⟨-, hrest⟩ := ok_pair_inj hret
      obtain ⟨rfl, rfl⟩ := Prod.mk.inj hrest
      obtain ⟨numTokens', hits', total', main', hnum⟩ : ∃ numTokens' hits' total' main',
          m.getNumBlocksToAllocate pool r numTokens' hits' total' main' = .ok (num₁, m₁) := by
        unfold SingleTypeKVCacheManager.estimate at hest
        split at hest
        · exact ⟨_, _, _, _, hest⟩
        · exact ⟨_, _, _, _, hest⟩
      refine ⟨getNumBlocksToAllocate_step htable hnum, fun hmode => ?_, trivial⟩
      rcases getNumBlocksToAllocate_eq hnum with rfl | rfl
      · exact halign hmode
      · exact (halign hmode).congr rfl (by rw [blocksOf_setBlocks]) rfl Iff.rfl) hloop
  exact ⟨hinv', hsame⟩

/-- What the loop over the managers needs to know about the hits of a request. -/
structure HitsFit (tracked : Prop) (reserved : List BlockRef) (c : KVCacheCoordinator)
    (newComputedBlocks : List (List BlockRef)) (numLocal numExternal : ℕ) : Prop where
  hits : ∀ (i : ℕ) (m : SingleTypeKVCacheManager), c.singleTypeManagers[i]? = some m →
    Hits c.blockPool reserved (newComputedBlocks.getD i [])
  short : ∀ (i : ℕ) (m : SingleTypeKVCacheManager), c.singleTypeManagers[i]? = some m →
    m.kvCacheSpec.isCrossAttention = false → numExternal > 0 →
    (newComputedBlocks.getD i []).length ≤ cdiv (numLocal + numExternal) m.blockSize
  aligned : tracked → ∀ (i : ℕ) (m : SingleTypeKVCacheManager),
    c.singleTypeManagers[i]? = some m → m.kvCacheSpec.isMambaAlign = true →
    (newComputedBlocks.getD i []).length ≤ cdiv (numLocal + numExternal) m.blockSize

lemma HitsFit.of_same (h : HitsFit tracked reserved c hits numLocal numExternal) (hs : SameSetUp c c') :
    HitsFit tracked reserved c' hits numLocal numExternal := by
  refine ⟨?_, ?_, ?_⟩
  · intro i m' hm'
    obtain ⟨m, hm, -⟩ := hs.getElem? hm'
    exact (h.hits i m hm).congr hs.pool
  · intro i m' hm' hcross hext
    obtain ⟨m, hm, hspec, -, -, hsize⟩ := hs.getElem? hm'
    rw [hsize]
    exact h.short i m hm (hspec ▸ hcross) hext
  · intro ht i m' hm' hmode
    obtain ⟨m, hm, hspec, -, -, hsize⟩ := hs.getElem? hm'
    rw [hsize]
    exact h.aligned ht i m hm (hspec ▸ hmode)

lemma zero_align {m : SingleTypeKVCacheManager} (hspec : ValidSpec m.kvCacheSpec)
    (h : AlignState tracked (cdiv ((0 : RequestId → ℕ) r) m.blockSize) m r) :
    AlignState tracked 0 m r := by
  have hzero : cdiv ((0 : RequestId → ℕ) r) m.blockSize = 0 :=
    Nat.le_zero.mp ((cdiv_le_iff (blockSize_pos hspec)).mpr (by simp))
  exact hzero ▸ h

lemma allocateNewComputedBlocks_inv (hinv : c.Invariant tracked reserved 0)
    (hhits : HitsFit tracked reserved c hits numLocal numExternal)
    (h : c.allocateNewComputedBlocks r hits numLocal numExternal = .ok c') :
    c'.Invariant tracked reserved (Pi.single r (numLocal + numExternal)) ∧ SameSetUp c c' := by
  obtain ⟨⟨as, c₁⟩, hloop, hret⟩ := bind_eq_ok h
  cases hret
  have htokens : ∀ r', r' ≠ r →
      (Pi.single r (numLocal + numExternal) : RequestId → ℕ) r' = (0 : RequestId → ℕ) r' :=
    fun r' hne => Pi.single_eq_of_ne hne _
  obtain ⟨hinv', hsame, -⟩ := overManagers_inv
    (fun i m => Hits c.blockPool reserved (hits.getD i []) ∧
      (m.kvCacheSpec.isCrossAttention = false → numExternal > 0 →
        (hits.getD i []).length ≤ cdiv (numLocal + numExternal) m.blockSize) ∧
      (tracked → m.kvCacheSpec.isMambaAlign = true →
        (hits.getD i []).length ≤ cdiv (numLocal + numExternal) m.blockSize))
    (fun _ => True) hinv htokens
    (fun i m hm => ⟨hhits.hits i m hm, hhits.short i m hm, fun ht => hhits.aligned ht i m hm⟩)
    (by
      intro i m pool a m' pool' others fresh hconfig hgood hspec halign htable hrun
      obtain ⟨hmhits, hshort, haligned⟩ := hgood
      have hstep := allocateNewComputedBlocks_step hspec (hmhits.congr hconfig) hshort htable
        (round_eq_ok hrun)
      refine ⟨hstep, fun hmode => ?_, trivial⟩
      rw [Pi.single_eq_same]
      exact allocateNewComputedBlocks_align hspec hmode (fun ht => haligned ht hmode)
        (zero_align hspec (halign hmode)) hstep.changes (round_eq_ok hrun)) hloop
  exact ⟨hinv', hsame⟩

lemma allocateNewBlocks_inv {newBlocks : List (List BlockRef)} (hinv : c.Invariant tracked reserved tokens)
    (hother : ∀ r', r' ≠ r → tokens r' = 0) (hle : tokens r ≤ numTokensMainModel)
    (hpos : 0 < numTokensMainModel) (h : c.allocateNewBlocks r numTokens numTokensMainModel numEncoderTokens =
      .ok (newBlocks, c')) :
    c'.Invariant tracked reserved 0 ∧ SameSetUp c c' ∧
      ∀ m ∈ c'.singleTypeManagers, m.kvCacheSpec.isMambaAlign = true → (m.blocksOf r).length =
        cdiv numTokensMainModel m.blockSize + m.kvCacheSpec.numSpeculativeBlocks := by
  apply overManagers_inv (fun _ _ => True) (fun m => m.kvCacheSpec.isMambaAlign = true →
    (m.blocksOf r).length =
      cdiv numTokensMainModel m.blockSize + m.kvCacheSpec.numSpeculativeBlocks) hinv
    (fun r' hne => (hother r' hne).symm) (fun _ _ _ => trivial) _ h
  intro i m pool a m' pool' others fresh _ _ hspec halign htable hrun
  have hstep := allocateNewBlocks_step htable halign hrun
  have hsize := blockSize_pos hspec
  have hmain : 0 < cdiv numTokensMainModel m.blockSize :=
    (lt_cdiv_iff hsize).mpr (by simpa using hpos)
  have hresult : m.kvCacheSpec.isMambaAlign = true → AlignState tracked 0 m' r ∧
      (m'.blocksOf r).length =
        cdiv numTokensMainModel m'.blockSize + m'.kvCacheSpec.numSpeculativeBlocks :=
    fun hmode => allocateNewBlocks_align hmode hmain (cdiv_mono _ hle) htable (halign hmode) hrun
  refine ⟨hstep, fun hmode => (hresult hmode).1.mono (Nat.zero_le _), fun hmode => ?_⟩
  rw [hstep.changes.spec] at hmode
  exact (hresult hmode).2

lemma cacheBlocks_inv {request : Request} (hinv : c.Invariant tracked reserved 0)
    (hfits : tracked → ∀ m ∈ c.singleTypeManagers, m.kvCacheSpec.isMambaAlign = true →
      numTokens / m.blockSize + m.kvCacheSpec.numSpeculativeBlocks ≤
        (m.blocksOf request.requestId).length) (h : c.cacheBlocks request numTokens = .ok c') :
    c'.Invariant tracked reserved 0 ∧ SameSetUp c c' := by
  obtain ⟨⟨as, c₁⟩, hloop, hret⟩ := bind_eq_ok h
  cases hret
  obtain ⟨hinv', hsame, -⟩ := overManagers_inv
    (fun _ m => tracked → m.kvCacheSpec.isMambaAlign = true →
      numTokens / m.blockSize + m.kvCacheSpec.numSpeculativeBlocks ≤
        (m.blocksOf request.requestId).length) (fun _ => True) hinv
    (fun _ _ => rfl) (fun i m hm ht => hfits ht m (mem_of_getElem? hm))
    (r := request.requestId) (by
      intro i m pool a m' pool' others fresh _ hgood hspec halign htable hrun
      obtain ⟨hstep, -, -⟩ := cacheBlocks_step htable (round_eq_ok hrun)
      refine ⟨hstep, fun hmode => ?_, trivial⟩
      exact (cacheBlocks_align htable (fun ht => hgood ht hmode) (zero_align hspec (halign hmode))
        (round_eq_ok hrun)).mono (Nat.zero_le _)) hloop
  exact ⟨hinv', hsame⟩

lemma free_inv (hinv : c.Invariant tracked reserved 0) (h : c.free r = .ok c') :
    c'.Invariant tracked reserved 0 ∧ SameSetUp c c' := by
  obtain ⟨⟨as, c₁⟩, hloop, hret⟩ := bind_eq_ok h
  cases hret
  obtain ⟨hinv', hsame, -⟩ := overManagers_inv (fun _ _ => True) (fun _ => True) hinv
    (fun _ _ => rfl) (fun _ _ _ => trivial) (r := r) (by
      intro i m pool a m' pool' others fresh _ _ _ _ htable hrun
      obtain ⟨hstep, -, -⟩ := free_step htable (round_eq_ok hrun)
      exact ⟨hstep, fun hmode => (free_align hmode (round_eq_ok hrun)).mono (Nat.zero_le _),
        trivial⟩) hloop
  exact ⟨hinv', hsame⟩

lemma evict_inv {reset : BlockRef → Prop} (hinv : c.Invariant tracked reserved tokens)
    (hevict : BlockPool.Evicted c.blockPool pool' reset) :
    KVCacheCoordinator.Invariant tracked reserved tokens { c with blockPool := pool' } ∧
      SameSetUp c { c with blockPool := pool' } := by
  have hsame : SameSetUp c { c with blockPool := pool' } :=
    ⟨rfl, rfl, rfl, rfl, rfl, rfl, rfl, hevict.config,
      forall₂_same.mpr fun _ _ => ⟨rfl, rfl, rfl, rfl⟩⟩
  exact ⟨⟨hinv.setUp.of_same hsame, hinv.cache.evict hevict, hinv.align⟩, hsame⟩

end KVCacheCoordinator

end VllmRuntime
