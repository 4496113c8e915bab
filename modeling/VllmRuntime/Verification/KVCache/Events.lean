import VllmRuntime.Verification.BlockPool.Events
import VllmRuntime.Verification.KVCache.RefCounts

/-! # The event stream

Along every run of a manager with one group, the events replay to the hashes of the cached
blocks. A stored event describes its blocks, slice by slice, unless null blocks were among the
blocks that became full: their hashes are left out, their tokens are not. -/

namespace VllmRuntime

open List BlockHash BlockPool KVCacheManager KVCacheCoordinator

variable {good : KVCacheEvent → Prop} {useInt : Bool} {taken : List KVCacheEvent}
  {pool pool' : BlockPool} {kv : KVCacheManager} {hashFunction : HashInput → BlockHash}
  {noneHash : BlockHash} {enableCaching : Bool} {dcpWorldSize pcpWorldSize size n k : ℕ} {request : Request}
  {reserved : List BlockRef}

/-! ## The managers -/

namespace SingleTypeKVCacheManager

variable {m m' : SingleTypeKVCacheManager} {r : RequestId} {numTokens : ℕ} {newBlocks : List BlockRef}

section

variable (h : EventsAgree good useInt taken pool)
include h

lemma allocateNewComputedBlocks_events {hits : List BlockRef} {numLocal numExternal : ℕ}
    (hremoved : ∀ hashes, good (.blockRemoved hashes))
    (hrun : m.allocateNewComputedBlocks pool r hits numLocal numExternal = .ok (m', pool')) :
    EventsAgree good useInt taken pool' := by
  obtain ⟨-, rfl, -⟩ | ⟨pool₁, ret, hgives⟩ := allocateNewComputedBlocks_eq_ok hrun
  · exact h
  · have h₁ := h.touch hgives.touch
    obtain ⟨-, hget⟩ | ⟨-, -, rfl⟩ := hgives.external
    · exact h₁.getNewBlocks hremoved hget
    · exact h₁

lemma allocateNewBlocks_events {main : ℕ} (hremoved : ∀ hashes, good (.blockRemoved hashes))
    (hrun : m.allocateNewBlocks pool r numTokens main = .ok (newBlocks, m', pool')) :
    EventsAgree good useInt taken pool' := by
  obtain ⟨-, rfl | ⟨n, ret, hget⟩⟩ := allocateNewBlocks_eq_ok hrun
  · exact h
  · exact h.getNewBlocks hremoved hget

lemma removeSkippedBlocks_events {total : ℕ} (hrun : m.removeSkippedBlocks pool r total = .ok (m', pool')) :
    EventsAgree good useInt taken pool' := by
  obtain ⟨m₁, pool₁, removed, removed', hskips, hskips'⟩ := removeSkippedBlocks_eq_ok hrun
  exact (h.freeBlocks hskips.free).freeBlocks hskips'.free

end

/-- The blocks that become full with `numTokens` tokens are all there, and none is null. -/
def CachesWhole (m : SingleTypeKVCacheManager) (pool : BlockPool) (request : Request)
    (numTokens : ℕ) : Prop :=
  let blocks := m.blocksOf request.requestId
  let numFullBlocks := numTokens / m.blockSize
  numFullBlocks ≤ blocks.length ∧
    pool.nullBlock ∉ (blocks.take numFullBlocks).drop (m.numCached request.requestId)

end SingleTypeKVCacheManager

/-! ## The coordinator -/

namespace KVCacheCoordinator

variable {c c' : KVCacheCoordinator} {r : RequestId} {numTokens : ℕ} {α : Type} {P : BlockPool → Prop}
  {total numEncoderTokens main : ℕ} {hits : List (List BlockRef)}
  {f : ℕ → SingleTypeKVCacheManager → BlockPool → Except PyError (α × SingleTypeKVCacheManager × BlockPool)}
  {as : List α}

/-- What every round keeps of the pool, the loop keeps. -/
lemma overManagers_pool (hf : ∀ i m pool a m' pool', m ∈ c.singleTypeManagers → P pool →
      f i m pool = .ok (a, m', pool') → P pool') (hpool : P c.blockPool) (h : c.overManagers f = .ok (as, c')) :
    P c'.blockPool :=
  (overManagers_keeps P (fun _ _ => True) (fun i m pool a m' pool' hm hp hround =>
    ⟨hf i m pool a m' pool' hm hp hround, trivial⟩) hpool h).1

section

variable (h : EventsAgree good useInt taken c.blockPool)
include h

lemma removeSkippedBlocks_events (hrun : c.removeSkippedBlocks r total = .ok c') :
    EventsAgree good useInt taken c'.blockPool := by
  obtain ⟨⟨as, c₁⟩, hloop, hret⟩ := bind_eq_ok hrun
  cases hret
  exact overManagers_pool (fun _ _ _ _ _ _ _ hpool hround =>
    SingleTypeKVCacheManager.removeSkippedBlocks_events hpool (round_eq_ok hround)) h hloop

lemma getNumBlocksToAllocate_events {num : ℤ}
    (hrun : c.getNumBlocksToAllocate r numTokens hits numEncoderTokens total main = .ok (num, c')) :
    EventsAgree good useInt taken c'.blockPool := by
  obtain ⟨⟨nums, c₁⟩, hloop, hret⟩ := bind_eq_ok hrun
  cases hret
  refine overManagers_pool (fun _ _ _ _ _ _ _ hpool hround => ?_) h hloop
  obtain ⟨⟨num', m'⟩, -, hret⟩ := bind_eq_ok hround
  simp only [pure, Except.pure, Except.ok.injEq, Prod.mk.injEq] at hret
  exact hret.2.2 ▸ hpool

lemma allocateNewComputedBlocks_events {numLocal numExternal : ℕ} (hremoved : ∀ hashes, good (.blockRemoved hashes))
    (hrun : c.allocateNewComputedBlocks r hits numLocal numExternal = .ok c') :
    EventsAgree good useInt taken c'.blockPool := by
  obtain ⟨⟨as, c₁⟩, hloop, hret⟩ := bind_eq_ok hrun
  cases hret
  exact overManagers_pool (fun _ _ _ _ _ _ _ hpool hround =>
    SingleTypeKVCacheManager.allocateNewComputedBlocks_events hpool hremoved (round_eq_ok hround))
    h hloop

lemma allocateNewBlocks_events {newBlocks : List (List BlockRef)} (hremoved : ∀ hashes, good (.blockRemoved hashes))
    (hrun : c.allocateNewBlocks r numTokens main numEncoderTokens = .ok (newBlocks, c')) :
    EventsAgree good useInt taken c'.blockPool :=
  overManagers_pool (fun _ _ _ _ _ _ _ hpool hround =>
    SingleTypeKVCacheManager.allocateNewBlocks_events hpool hremoved hround) h hrun

lemma free_events (hrun : c.free r = .ok c') :
    EventsAgree good useInt taken c'.blockPool := by
  obtain ⟨⟨as, c₁⟩, hloop, hret⟩ := bind_eq_ok hrun
  cases hret
  exact overManagers_pool (fun _ _ _ _ _ _ _ hpool hround =>
    hpool.freeBlocks (SingleTypeKVCacheManager.free_eq_ok (round_eq_ok hround)).1)
    h hloop

/-- Caching keeps the agreement if the events of all managers are good. -/
lemma cacheBlocks_events (hagrees : CacheAgrees c.blockPool)
    (hreal : ∀ m ∈ c.singleTypeManagers, ∀ r, ∀ b ∈ m.blocksOf r,
      c.blockPool.IsBlock b ∧ b ∉ reserved)
    (hgood : ∀ m ∈ c.singleTypeManagers, ∀ pool, SameConfig c.blockPool pool →
      pool.useIntBlockHashes = useInt → StoresGood good pool request (m.blocksOf request.requestId)
        (m.numCached request.requestId) (numTokens / m.blockSize) m.blockSize)
    (hrun : c.cacheBlocks request numTokens = .ok c') :
    EventsAgree good useInt taken c'.blockPool := by
  obtain ⟨⟨as, c₁⟩, hloop, hret⟩ := bind_eq_ok hrun
  cases hret
  have hall := overManagers_pool
    (P := fun pool => EventsAgree good useInt taken pool ∧ CacheAgrees pool ∧
      SameConfig c.blockPool pool) (by
      rintro i m pool a m' pool' hm ⟨hpool, hcache, hsame⟩ hround
      obtain ⟨-, ⟨-, rfl, rfl⟩ | ⟨hlt, -, hfull⟩⟩ :=
        SingleTypeKVCacheManager.cacheBlocks_eq_ok (round_eq_ok hround)
      · exact ⟨hpool, hcache, hsame⟩
      · have hblocks : ∀ b ∈ m.blocksOf request.requestId, pool.IsBlock b := by
          intro b hb
          rw [hsame.isBlock_iff]
          exact (hreal m hm _ b hb).1
        obtain ⟨hashes, -, hcached⟩ := cacheFullBlocks_cached hcache hblocks hlt hfull
        exact ⟨hpool.cacheFullBlocks hblocks (hgood m hm pool hsame hpool.useInt) hfull, hcached.agrees,
          hsame.trans hcached.config⟩)
    ⟨h, hagrees, SameConfig.refl _⟩ hloop
  exact hall.1

end

end KVCacheCoordinator

/-! ## What a stored event describes -/

/-- Block `j` of some tokens. -/
def tokenSlice (tokens : List TokenId) (blockSize j : ℕ) : List TokenId :=
  (tokens.drop (j * blockSize)).take blockSize

/-- The hashes of the request are those of its tokens, block by block. -/
def Request.HashesTokens (hashFunction : HashInput → BlockHash) (noneHash : BlockHash)
    (blockSize : ℕ) (request : Request) : Prop :=
  ∃ inputs : List BlockInput,
    request.blockHashes = HashChain.chain (hashStep hashFunction noneHash) none inputs ∧
    inputs.length * blockSize ≤ request.allTokenIds.length ∧
    ∀ i input, inputs[i]? = some input → input.1 = tokenSlice request.allTokenIds blockSize i

/-- An event says which blocks of which tokens were stored: the blocks in `inputs`, after those in
`before`, each hashed on top of the one before it. -/
structure DescribesBlocks (hashFunction : HashInput → BlockHash) (noneHash : BlockHash)
    (useInt : Bool) (blockHashes : List ExternalBlockHash)
    (parentBlockHash : Option ExternalBlockHash) (tokenIds : List TokenId) (blockSize : ℕ)
    (tokens : List TokenId) (before inputs : List BlockInput) : Prop where
  earlier : ∀ i input, before[i]? = some input → input.1 = tokenSlice tokens blockSize i
  range : tokenIds = (tokens.drop (before.length * blockSize)).take (inputs.length * blockSize)
  length : tokenIds.length = blockHashes.length * blockSize
  slices : ∀ j input, inputs[j]? = some input → input.1 = tokenSlice tokenIds blockSize j
  hashes : blockHashes = (HashChain.chain (hashStep hashFunction noneHash)
    (HashChain.chain (hashStep hashFunction noneHash) none before).getLast? inputs).map
      (maybeConvertBlockHash useInt)
  parent : parentBlockHash =
    (HashChain.chain (hashStep hashFunction noneHash) none before).getLast?.map
      (maybeConvertBlockHash useInt)

def KVCacheEvent.Describes (hashFunction : HashInput → BlockHash) (noneHash : BlockHash)
    (useInt : Bool) : KVCacheEvent → Prop
  | blockStored blockHashes parentBlockHash tokenIds blockSize _ _ => ∃ tokens before inputs,
      DescribesBlocks hashFunction noneHash useInt blockHashes parentBlockHash tokenIds blockSize
        tokens before inputs
  | _ => True

lemma tokenSlice_drop_take (tokens : List TokenId) {j : ℕ} (hj : j < k) :
    tokenSlice ((tokens.drop (n * size)).take (k * size)) size j = tokenSlice tokens size (n + j) := by
  have hle : j * size + size ≤ k * size := by
    calc
      j * size + size = (j + 1) * size := by ring
      _ ≤ k * size := Nat.mul_le_mul_right size hj
  rw [tokenSlice, tokenSlice, drop_take, drop_drop, take_take,
    Nat.min_eq_left (by omega), Nat.add_mul]

/-- Without null blocks, the event describes the blocks that became full. -/
lemma storesGood_describes {blocks : List BlockRef} (hint : pool.useIntBlockHashes = useInt)
    (hsize : size = pool.hashBlockSize) (hhashes : request.HashesTokens hashFunction noneHash size)
    (hlen : k ≤ blocks.length) (hnull : pool.nullBlock ∉ (blocks.take k).drop n) :
    StoresGood (KVCacheEvent.Describes hashFunction noneHash useInt) pool request blocks n k
      size := by
  obtain ⟨inputs, hchain, hlong, hslices⟩ := hhashes
  intro blockHashes parent hblockHashes hparent hlt newFullBlocks newBlockHashes newHashes hnew
  obtain ⟨hle, rfl⟩ := hnew hnull
  have hsame : blockHashes = HashChain.chain (hashStep hashFunction noneHash) none inputs := by
    rw [requestBlockHashes, if_pos hsize] at hblockHashes
    exact (Except.ok.inj hblockHashes).symm.trans hchain
  have hblocks : newFullBlocks.length = k - n := by
    simp only [newFullBlocks, length_drop, length_take]
    omega
  have hinputs : k ≤ inputs.length := by
    have hlength : blockHashes.length = inputs.length := by
      rw [hsame, HashChain.chain_length]
    simp only [hblocks, newBlockHashes, length_drop] at hle
    omega
  have htokens : k * size ≤ request.allTokenIds.length :=
    (Nat.mul_le_mul_right size hinputs).trans hlong
  have hcount : ((inputs.take k).drop n).length = k - n := by
    rw [length_drop, length_take]
    omega
  have hbefore : (inputs.take n).length = n := by
    rw [length_take]
    omega
  have hslice : (request.allTokenIds.take (k * size)).drop (n * size) =
      (request.allTokenIds.drop (n * size)).take ((k - n) * size) := by
    rw [drop_take, Nat.sub_mul]
  have hhashes : newBlockHashes.take newFullBlocks.length =
      HashChain.chain (hashStep hashFunction noneHash)
        (HashChain.chain (hashStep hashFunction noneHash) none (inputs.take n)).getLast?
        ((inputs.take k).drop n) := by
    rw [hblocks, ← HashChain.chain_slice _ _ hlt.le hinputs, drop_take, ← hsame]
  refine ⟨request.allTokenIds, inputs.take n, (inputs.take k).drop n, ?_, ?_, ?_, ?_, ?_, ?_⟩
  · intro i input hi
    rw [getElem?_take] at hi
    split at hi
    · exact hslices i input hi
    · cases hi
  · rw [hbefore, hcount, hslice]
  · rw [length_map, hhashes, HashChain.chain_length, hcount, hslice, length_take,
      length_drop]
    have hsub : (k - n) * size = k * size - n * size := Nat.sub_mul k n size
    omega
  · intro j input hj
    have hjlt : j < k - n := hcount ▸ (lt_of_getElem? hj)
    rw [getElem?_drop, getElem?_take_of_lt (by omega)] at hj
    rw [hslices (n + j) input hj, hslice, tokenSlice_drop_take _ hjlt]
  · rw [hhashes, hint]
  · unfold parentBlockHash at hparent
    split at hparent
    · rename_i hzero
      cases hparent
      simp [hzero]
    · rename_i hpos
      split at hparent
      · cases hparent
      · rename_i hash hhash
        cases hparent
        rw [HashChain.getLast?_chain_take _ _ (by omega) (by omega), ← hsame, hhash, hint]
        rfl

/-! ## Calls -/

/-- `P` holds when `allocate_slots` caches the tokens of the request, in the state after it has
taken its blocks. -/
def AllocationCaches (P : KVCacheCoordinator → Request → ℕ → Prop) (kv : KVCacheManager)
    (request : Request) (hits : List (List BlockRef)) (args : AllocateArgs) : Prop :=
  ∀ num c newBlocks c', kv.prepareAllocation request hits args = .ok (num, c) →
    takeBlocks c request hits args = .ok (newBlocks, c') → c'.enableCaching = true →
    args.delayCacheBlocks = false →
    P c' request (min (args.numTokensMainModel request c'.maxModelLen) request.numTokens)

/-- `P` holds when the call caches tokens of a request. -/
def KVCacheCall.Caches (P : KVCacheCoordinator → Request → ℕ → Prop) (kv : KVCacheManager) :
    KVCacheCall → Prop
  | allocateNew request args => ∀ hits n, kv.getComputedBlocks request = .ok (hits, n) →
      AllocationCaches P kv request hits { args with numNewComputedTokens := n }
  | allocateRunning request args => AllocationCaches P kv request kv.emptyKvCacheBlocks
      { args with numNewComputedTokens := 0, numExternalComputedTokens := 0 }
  | cacheBlocks request numComputedTokens => kv.coordinator.enableCaching = true →
      P kv.coordinator request numComputedTokens
  | _ => True

lemma KVCacheCall.Caches.imp {P Q : KVCacheCoordinator → Request → ℕ → Prop} {call : KVCacheCall}
    (h : call.Caches P kv)
    (himp : ∀ c request numTokens, c.enableCaching = true → P c request numTokens →
      Q c request numTokens) : call.Caches Q kv := by
  cases call with
  | allocateNew request args =>
    intro hits n hlook num c newBlocks c' hprep htake hcaching hdelay
    exact himp _ _ _ hcaching (h hits n hlook num c newBlocks c' hprep htake hcaching hdelay)
  | allocateRunning request args =>
    intro num c newBlocks c' hprep htake hcaching hdelay
    exact himp _ _ _ hcaching (h num c newBlocks c' hprep htake hcaching hdelay)
  | cacheBlocks request numComputedTokens => exact fun hcaching => himp _ _ _ hcaching (h hcaching)
  | _ => trivial

/-- The events of caching tokens of the request are good. -/
def CachingGood (good : KVCacheEvent → Prop) (useInt : Bool) (c : KVCacheCoordinator)
    (request : Request) (numTokens : ℕ) : Prop :=
  ∀ m ∈ c.singleTypeManagers, ∀ pool, SameConfig c.blockPool pool →
    pool.useIntBlockHashes = useInt → StoresGood good pool request (m.blocksOf request.requestId)
      (m.numCached request.requestId) (numTokens / m.blockSize) m.blockSize

section Calls

variable {tracked : Prop} {reserved : List BlockRef} {kv kv' : KVCacheManager}

lemma allocateSlots_events {hits : List (List BlockRef)} {args : AllocateArgs}
    {result : Option (List (List BlockRef))} (hinv : kv.coordinator.Invariant tracked reserved 0)
    (hlen : 0 < kv.coordinator.maxModelLen)
    (hfit : HitsFit tracked reserved kv.coordinator hits (args.numLocalComputedTokens request)
      args.numExternalComputedTokens)
    (htotal : tracked → TotalFits kv.coordinator.maxModelLen request hits args)
    (h : EventsAgree good useInt taken kv.blockPool) (hremoved : ∀ hashes, good (.blockRemoved hashes))
    (hgood : AllocationCaches (fun c request numTokens => c.SetUp →
      SameSetUp kv.coordinator c → CachingGood good useInt c request numTokens) kv request hits args)
    (hrun : kv.allocateSlots request hits args = .ok (result, kv')) :
    EventsAgree good useInt taken kv'.blockPool := by
  obtain ⟨hpos, num, c₁, hprep, hcases⟩ := allocateSlots_eq_ok hrun
  obtain ⟨hinv₁, hsame₁⟩ := prepareAllocation_inv hinv hprep
  have h₁ : EventsAgree good useInt taken c₁.blockPool := by
    obtain ⟨c₀, hskip, hnum⟩ := bind_eq_ok hprep
    exact getNumBlocksToAllocate_events (removeSkippedBlocks_events h hskip) hnum
  obtain ⟨-, rfl⟩ | ⟨-, newBlocks, c₂, c₃, htake, hcommit, -, rfl⟩ := hcases
  · exact h₁
  · obtain ⟨hinv₂, hsame₂, -⟩ := takeBlocks_inv hinv₁ (hsame₁.maxModelLen ▸ hlen) hpos
      (hfit.of_same hsame₁) (hsame₁.maxModelLen ▸ htotal) htake
    have h₂ : EventsAgree good useInt taken c₂.blockPool := by
      obtain ⟨c₀, hadd, hnew⟩ := bind_eq_ok htake
      refine allocateNewBlocks_events ?_ hremoved hnew
      unfold KVCacheManager.addComputedBlocks at hadd
      split at hadd
      · exact allocateNewComputedBlocks_events h₁ hremoved hadd
      · cases hadd
        exact h₁
    unfold commitBlocks at hcommit
    split at hcommit
    · cases hcommit
      exact h₂
    · rename_i hcaches
      simp only [Bool.or_eq_true, Bool.not_eq_true', not_or, Bool.not_eq_false,
        Bool.not_eq_true] at hcaches
      exact cacheBlocks_events h₂ hinv₂.cache.agrees hinv₂.cache.real
        (hgood num c₁ newBlocks c₂ hprep htake hcaches.1 hcaches.2 hinv₂.setUp
          (hsame₁.trans hsame₂)) hcommit

lemma KVCacheCall.run_events {call : KVCacheCall} (hinv : kv.coordinator.Invariant False reserved 0)
    (hlen : 0 < kv.coordinator.maxModelLen) (hfree : CollisionFree hashFunction noneHash)
    (hhashed : call.Hashed hashFunction noneHash) (hcovered : call.HitsCovered kv)
    (h : EventsAgree good useInt taken kv.blockPool) (hremoved : ∀ hashes, good (.blockRemoved hashes))
    (hcleared : good .allBlocksCleared)
    (hgood : call.Caches (fun c request numTokens => c.SetUp → SameSetUp kv.coordinator c →
      CachingGood good useInt c request numTokens) kv) (hrun : call.run kv = .ok kv') :
    EventsAgree good useInt taken kv'.blockPool := by
  cases call with
  | allocateNew request args =>
    obtain ⟨⟨hits, n⟩, hlook, hrun⟩ := bind_eq_ok hrun
    obtain ⟨⟨result, kv₁⟩, hslots, hret⟩ := bind_eq_ok hrun
    cases hret
    exact allocateSlots_events hinv hlen (hitsFit_of_lookup hinv hfree hhashed hcovered hlook)
      False.elim h hremoved (hgood hits n hlook) hslots
  | allocateRunning request args =>
    obtain ⟨⟨result, kv₁⟩, hslots, hret⟩ := bind_eq_ok hrun
    cases hret
    exact allocateSlots_events hinv hlen (hitsFit_empty kv _) False.elim h hremoved hgood hslots
  | cacheBlocks request numComputedTokens =>
    rw [run, KVCacheManager.cacheBlocks] at hrun
    split at hrun
    · rename_i hcaching
      obtain ⟨c, hcache, rfl⟩ := map_eq_ok hrun
      exact cacheBlocks_events h hinv.cache.agrees hinv.cache.real
        (hgood hcaching hinv.setUp (SameSetUp.refl _)) hcache
    · cases hrun
      exact h
  | removeSkippedBlocks requestId totalComputedTokens =>
    obtain ⟨c, hskip, rfl⟩ := map_eq_ok hrun
    exact removeSkippedBlocks_events h hskip
  | free request =>
    obtain ⟨c, hcall, rfl⟩ := map_eq_ok hrun
    exact free_events h hcall
  | evictBlocks blockIds =>
    obtain ⟨pool, hevict, rfl⟩ := map_eq_ok hrun
    exact h.evictBlocks hremoved hevict
  | resetPrefixCache =>
    cases hrun
    exact h.resetPrefixCache hcleared

end Calls

/-! ## Runs -/

/-- The states that calls reach while the events are taken from time to time, with the events
taken so far. -/
inductive Streamed (allowed : KVCacheManager → KVCacheCall → Prop) (start : KVCacheManager) :
    List KVCacheEvent → KVCacheManager → Prop where
  | start : Streamed allowed start [] start
  | call {taken : List KVCacheEvent} {kv kv' : KVCacheManager} {call : KVCacheCall} :
      Streamed allowed start taken kv → allowed kv call → call.run kv = .ok kv' →
      Streamed allowed start taken kv'
  | take {taken : List KVCacheEvent} {kv : KVCacheManager} : Streamed allowed start taken kv →
      Streamed allowed start (taken ++ kv.takeEvents.1) kv.takeEvents.2

lemma takeEvents_inv {tracked : Prop} (hinv : kv.coordinator.Invariant tracked reserved 0) :
    kv.takeEvents.2.coordinator.Invariant tracked reserved 0 ∧
      SameSetUp kv.coordinator kv.takeEvents.2.coordinator := by
  have hagrees := hinv.cache.agrees
  refine evict_inv hinv
    (?_ : Evicted kv.blockPool kv.blockPool.takeEvents.2 fun _ => False)
  unfold BlockPool.takeEvents
  split
  · exact ⟨⟨rfl, rfl, rfl, rfl⟩, rfl, rfl, ⟨hagrees.nodup, hagrees.stored_iff, hagrees.null_hash⟩,
      fun _ => False.elim, fun _ _ => rfl⟩
  · exact ⟨SameConfig.refl _, rfl, rfl, hagrees, fun _ => False.elim, fun _ _ => rfl⟩

/-- A group on its own finds no more blocks than the tokens it reports. -/
lemma KVCacheCall.hitsCovered_of_single (hsetUp : kv.coordinator.SetUp)
    (hsingle : kv.coordinator.singleTypeManagers.length = 1) (call : KVCacheCall) :
    call.HitsCovered kv := by
  cases call with
  | allocateNew request args =>
    intro hits n hlook _ i m hm _
    have hsize : 0 < m.blockSize :=
      SingleTypeKVCacheManager.blockSize_pos (hsetUp.specs m (mem_of_getElem? hm))
    have hshort := (getComputedBlocks_result hsetUp hlook).short i m hm (Or.inr hsingle)
    calc
      (hits.getD i []).length = cdiv ((hits.getD i []).length * m.blockSize) m.blockSize :=
        (cdiv_mul_right _ hsize).symm
      _ ≤ _ := by
        apply cdiv_mono
        omega
  | _ => trivial

lemma Streamed.inv {allowed : KVCacheManager → KVCacheCall → Prop} {start : KVCacheManager}
    (hfree : CollisionFree hashFunction noneHash) (hremoved : ∀ hashes, good (.blockRemoved hashes))
    (hcleared : good .allBlocksCleared) (hsingle : start.coordinator.singleTypeManagers.length = 1)
    (hallowed : ∀ kv call, allowed kv call → SameSetUp start.coordinator kv.coordinator →
      call.Hashed hashFunction noneHash ∧ call.Caches (fun c request numTokens => c.SetUp →
        SameSetUp kv.coordinator c → CachingGood good useInt c request numTokens) kv)
    (hinv : start.coordinator.Invariant False reserved 0) (hlen : 0 < start.coordinator.maxModelLen)
    (hevents : EventsAgree good useInt [] start.blockPool) (h : Streamed allowed start taken kv) :
    kv.coordinator.Invariant False reserved 0 ∧ SameSetUp start.coordinator kv.coordinator ∧
      EventsAgree good useInt taken kv.blockPool := by
  induction h with
  | start => exact ⟨hinv, SameSetUp.refl _, hevents⟩
  | @call taken kv kv' call _ hcall hrun ih =>
    obtain ⟨hinv₁, hsame, hevents₁⟩ := ih
    obtain ⟨hhashed, hcaches⟩ := hallowed kv call hcall hsame
    have hlen₁ : 0 < kv.coordinator.maxModelLen := hsame.maxModelLen ▸ hlen
    have hcovered : call.HitsCovered kv :=
      KVCacheCall.hitsCovered_of_single hinv₁.setUp (hsame.managers.length_eq ▸ hsingle) call
    obtain ⟨hinv₂, hsame₂⟩ := KVCacheCall.run_inv hinv₁ hlen₁ hfree hhashed hcovered False.elim
      hrun
    exact ⟨hinv₂, hsame.trans hsame₂, KVCacheCall.run_events hinv₁ hlen₁ hfree hhashed hcovered
      hevents₁ hremoved hcleared hcaches hrun⟩
  | take _ ih =>
    obtain ⟨hinv₁, hsame, hevents₁⟩ := ih
    obtain ⟨hinv₂, hsame₂⟩ := takeEvents_inv hinv₁
    exact ⟨hinv₂, hsame.trans hsame₂, hevents₁.takeEvents⟩

lemma newManagers_sameEvents {i : ℕ} {specs : List KVCacheSpec} {ms : List SingleTypeKVCacheManager}
    (h : newManagers enableCaching dcpWorldSize pcpWorldSize i specs pool = .ok (ms, pool')) :
    SameEvents pool pool' := by
  induction specs generalizing i pool ms with
  | nil =>
    cases h
    exact SameEvents.refl _
  | cons spec specs ih =>
    rw [newManagers] at h
    obtain ⟨⟨m, pool₁⟩, hm, h⟩ := bind_eq_ok h
    obtain ⟨⟨ms₁, pool₂⟩, hms, hret⟩ := bind_eq_ok h
    cases hret
    refine SameEvents.trans ?_ (ih hms)
    unfold SingleTypeKVCacheManager.new at hm
    dsimp only at hm
    split at hm
    · split at hm
      · cases hm
      · obtain ⟨_, -, hm⟩ := bind_eq_ok hm
        obtain ⟨⟨sinks, queue⟩, -, hret⟩ := bind_eq_ok hm
        cases hret
        exact SameEvents.withQueue pool queue
    · cases hm
      exact SameEvents.refl _

lemma KVCacheManager.new_events {config : KVCacheConfig} {maxModelLen hashBlockSize : ℕ} {useEagle : Bool}
    (h : KVCacheManager.new config maxModelLen hashBlockSize enableCaching useEagle true useInt
      dcpWorldSize pcpWorldSize = .ok kv) : EventsAgree good useInt [] kv.blockPool := by
  obtain ⟨c, hc, rfl⟩ := map_eq_ok h
  obtain ⟨pool₀, hpool, hc⟩ := bind_eq_ok hc
  obtain ⟨⟨ms, pool⟩, hms, hc⟩ := bind_eq_ok hc
  obtain ⟨kind, hkind, rfl⟩ := map_eq_ok hc
  obtain ⟨_, -, hpool⟩ := bind_eq_ok hpool
  obtain ⟨⟨nullBlock, queue⟩, -, hret⟩ := bind_eq_ok hpool
  cases hret
  refine EventsAgree.congr ⟨rfl, rfl, fun b hb => absurd rfl hb, ?_, by simp⟩
    (newManagers_sameEvents hms)
  symm
  apply Finset.sum_eq_zero
  intro id _
  exact cachedHash_of_none rfl

/-- The tokens that are cached belong to whole blocks, hashed as the tokens of the request. -/
def WholeBlocks (hashFunction : HashInput → BlockHash) (noneHash : BlockHash)
    (c : KVCacheCoordinator) (request : Request) (numTokens : ℕ) : Prop :=
  request.HashesTokens hashFunction noneHash c.hashBlockSize ∧
    ∀ m ∈ c.singleTypeManagers, m.CachesWhole c.blockPool request numTokens

/-- In a coordinator of one group, caching whole blocks stores events that describe them. -/
lemma cachingGood_of_wholeBlocks {c : KVCacheCoordinator} {numTokens : ℕ} (hsetUp : c.SetUp)
    (hsingle : c.singleTypeManagers.length = 1) (hcaching : c.enableCaching = true)
    (h : WholeBlocks hashFunction noneHash c request numTokens) :
    CachingGood (KVCacheEvent.Describes hashFunction noneHash useInt) useInt c request numTokens := by
  intro m hm pool hsame hint
  obtain ⟨m₀, hms⟩ := length_eq_one_iff.mp hsingle
  have hkind := hsetUp.kind
  rw [hms, hcaching] at hkind
  obtain ⟨_, hassert, -⟩ := bind_eq_ok hkind
  have hsize : m.blockSize = c.hashBlockSize := by
    rw [hsetUp.blockSize m hm]
    obtain rfl : m = m₀ := by simpa [hms] using hm
    simpa [eq_comm] using pyAssert_eq_ok.mp hassert
  obtain ⟨hlen, hnull⟩ := h.2 m hm
  apply storesGood_describes hint
  · rw [hsame.hashBlockSize, hsetUp.poolHashBlockSize, hsize]
  · rw [hsize]
    exact h.1
  · exact hlen
  · rw [hsame.nullBlock]
    exact hnull

/-- The stream tells what is cached, and every stored event which blocks it is about. -/
structure EventsTell (hashFunction : HashInput → BlockHash) (noneHash : BlockHash) (useInt : Bool)
    (stream : List KVCacheEvent) (kv : KVCacheManager) : Prop where
  cached : ∀ key b, kv.blockPool.cachedBlockHashToBlock.Stored key b ↔
    kv.blockPool.IsBlock b ∧ b ≠ kv.blockPool.nullBlock ∧ kv.blockPool.blockHash b = some key
  replay : replay stream = kv.blockPool.cachedHashes
  stored : ∀ event ∈ stream, event.Describes hashFunction noneHash useInt

/-- In a run of one group that caches whole blocks only, the stream replays to the cached hashes
and describes all blocks it stores. -/
theorem events_tell_of_wholeBlocks {config : KVCacheConfig} {spec : KVCacheSpec}
    {maxModelLen hashBlockSize : ℕ} {enableCaching useEagle : Bool}
    {dcpWorldSize pcpWorldSize : ℕ} {hashFunction : HashInput → BlockHash} {noneHash : BlockHash}
    {start kv : KVCacheManager} (hconfig : ValidConfig config maxModelLen dcpWorldSize pcpWorldSize)
    (hsingle : config.kvCacheGroups = [spec]) (hfree : CollisionFree hashFunction noneHash)
    (hnew : KVCacheManager.new config maxModelLen hashBlockSize enableCaching useEagle true useInt
      dcpWorldSize pcpWorldSize = .ok start)
    (hrun : Streamed (fun kv call => call.Hashed hashFunction noneHash ∧
      call.Caches (WholeBlocks hashFunction noneHash) kv) start taken kv) :
    EventsTell hashFunction noneHash useInt (taken ++ kv.takeEvents.1) kv := by
  obtain ⟨reserved, hinv, -, hlen, hspecs⟩ := KVCacheManager.new_inv hconfig
    (fun h : False => h.elim) hnew
  have hone : start.coordinator.singleTypeManagers.length = 1 := by
    rw [← length_map, hspecs, hsingle]
    rfl
  have hremoved : ∀ hashes, KVCacheEvent.Describes hashFunction noneHash useInt
      (.blockRemoved hashes) := fun _ => trivial
  obtain ⟨hinv', -, hevents⟩ := hrun.inv hfree hremoved trivial hone (by
      rintro kv call ⟨hhashed, hwhole⟩ hsame
      refine ⟨hhashed, hwhole.imp ?_⟩
      intro c request numTokens hcaching hblocks hsetUp hsame'
      have hlength : c.singleTypeManagers.length = 1 := by
        rw [← hsame'.managers.length_eq, ← hsame.managers.length_eq, hone]
      exact cachingGood_of_wholeBlocks hsetUp hlength hcaching hblocks)
    hinv (hlen ▸ hconfig.maxModelLen) (KVCacheManager.new_events hnew)
  have htake : kv.takeEvents.1 = kv.blockPool.kvEventQueue := by
    change kv.blockPool.takeEvents.1 = _
    rw [BlockPool.takeEvents, if_pos hevents.enabled]
  rw [htake]
  exact ⟨hinv'.cache.agrees.stored_iff, hevents.replay, hevents.good⟩

/-! ## One group of full attention, one group of states -/

lemma hashedRequest_hashesTokens (requestId : RequestId) (tokens : List TokenId) :
    (hashedRequest requestId tokens).HashesTokens serialize serializeSeed 1 := by
  refine ⟨tokens.map fun token => ([token], none), rfl, by simp [hashedRequest], ?_⟩
  intro i input hi
  rw [getElem?_map, Option.map_eq_some_iff] at hi
  obtain ⟨token, htoken, rfl⟩ := hi
  obtain ⟨hlt, rfl⟩ := List.getElem?_eq_some_iff.mp htoken
  rw [tokenSlice, Nat.mul_one]
  change _ = List.take 1 (List.drop i tokens)
  rw [drop_eq_getElem_cons hlt]
  rfl

def fullConfig : KVCacheConfig where
  numBlocks := 10
  kvCacheGroups := [.fullAttention { KVCacheCoordinator.attentionWithHeads 1 with }]

def fullManager : Except PyError KVCacheManager :=
  KVCacheManager.new fullConfig 10 1 true false true false 1 1

instance decidableAllocationCaches {P : KVCacheCoordinator → Request → ℕ → Prop}
    [∀ c request numTokens, Decidable (P c request numTokens)] (kv : KVCacheManager) (request : Request)
    (hits : List (List BlockRef)) (args : AllocateArgs) : Decidable (AllocationCaches P kv request hits args) :=
  decidable_of_iff (∀ num c, kv.prepareAllocation request hits args = .ok (num, c) →
      ∀ newBlocks c', takeBlocks c request hits args = .ok (newBlocks, c') → c'.enableCaching = true →
        args.delayCacheBlocks = false →
        P c' request (min (args.numTokensMainModel request c'.maxModelLen) request.numTokens))
    ⟨fun h num c newBlocks c' hprep => h num c hprep newBlocks c',
      fun h num c hprep newBlocks c' => h num c newBlocks c' hprep⟩

instance KVCacheCall.decidableCaches {P : KVCacheCoordinator → Request → ℕ → Prop}
    [∀ c request numTokens, Decidable (P c request numTokens)] (kv : KVCacheManager) (call : KVCacheCall) :
    Decidable (call.Caches P kv) :=
  match call with
  | .allocateNew request _ => decidableForallOk (kv.getComputedBlocks request)
  | .allocateRunning _ _ => decidableAllocationCaches _ _ _ _
  | .cacheBlocks _ _ => inferInstanceAs (Decidable (_ → _))
  | .removeSkippedBlocks _ _ | .free _ | .evictBlocks _ | .resetPrefixCache => .isTrue trivial

/-- `WholeBlocks` for one request with hashes. -/
def CachesHashed (c : KVCacheCoordinator) (request : Request) (numTokens : ℕ) : Prop :=
  request = hashedRequest 0 [0, 0, 0] ∧ c.hashBlockSize = 1 ∧
    ∀ m ∈ c.singleTypeManagers, m.CachesWhole c.blockPool request numTokens

instance decidableCachesHashed (c : KVCacheCoordinator) (request : Request) (numTokens : ℕ) :
    Decidable (CachesHashed c request numTokens) :=
  inferInstanceAs (Decidable (_ ∧ _ ∧ ∀ m ∈ c.singleTypeManagers, _ ∧ _))

lemma Streamed.of_reachable {allowed : KVCacheManager → KVCacheCall → Prop} {start : KVCacheManager}
    (h : Reachable allowed start kv) :
    Streamed allowed start [] kv := by
  induction h with
  | start => exact .start
  | step _ hcall hrun ih => exact ih.call hcall hrun

theorem events_tell_fullConfig :
    ∃ start kv, fullManager = .ok start ∧
      Streamed (fun kv call => call.Hashed serialize serializeSeed ∧
        call.Caches (WholeBlocks serialize serializeSeed) kv) start [] kv ∧
      kv.takeEvents.1.length = 2 ∧
      EventsTell serialize serializeSeed false ([] ++ kv.takeEvents.1) kv := by
  have heval : (runCheckedFrom fullManager (fun call kv => KVCacheCall.run kv call)
      (fun kv call => decide (call.Caches CachesHashed kv))
      [.allocateNew (hashedRequest 0 [0, 0, 0]) { numNewTokens := 3 }, .evictBlocks [3]]).map
        (fun p => p.2.takeEvents.1.length) = some 2 := by
    decide +kernel
  obtain ⟨start, kv, hstart, hreach, htaken⟩ := reachable_of_map_runCheckedFrom (fun kv call hcall hcheck => And.intro (by
    rcases List.mem_pair.mp hcall with rfl | rfl
    · exact hashedRequest_hashed _ _ _
    · trivial) (KVCacheCall.Caches.imp (of_decide_eq_true hcheck) fun c request numTokens _ hcaches =>
      show WholeBlocks serialize serializeSeed c request numTokens from ⟨by
        rw [hcaches.1, hcaches.2.1]
        exact hashedRequest_hashesTokens 0 [0, 0, 0], hcaches.2.2⟩)) heval
  have hstream := Streamed.of_reachable hreach
  refine ⟨start, kv, hstart, hstream, htaken, events_tell_of_wholeBlocks ?_ rfl
    serialize_collisionFree hstart hstream⟩
  refine ⟨?_, by decide, by decide, by decide⟩
  intro spec hspec
  obtain rfl := List.mem_singleton.mp hspec
  exact Nat.one_pos

def alignSpec : MambaSpec where
  blockSize := 1
  shapes := [[1]]
  dtypes := [⟨"float16", 2⟩]
  mambaCacheMode := .align

/-- A group of states in mode `align`, with ten blocks of one token. -/
def alignConfig : KVCacheConfig where
  numBlocks := 10
  kvCacheGroups := [.mamba alignSpec]

/-- Two of the three blocks are null: the event has one hash and three tokens. -/
theorem events_not_tell_alignConfig :
    ∃ start kv, KVCacheManager.new alignConfig 10 1 true false true false 1 1 = .ok start ∧
      Streamed (fun _ call => call.Hashed serialize serializeSeed ∧
        call = .allocateNew (hashedRequest 0 [0, 0, 0]) { numNewTokens := 3 }) start [] kv ∧
      ¬ EventsTell serialize serializeSeed false ([] ++ kv.takeEvents.1) kv := by
  have heval : (runCheckedFrom (KVCacheManager.new alignConfig 10 1 true false true false 1 1)
      (fun call kv => KVCacheCall.run kv call) (fun _ _ => true)
      [.allocateNew (hashedRequest 0 [0, 0, 0]) { numNewTokens := 3 }]).map (fun p =>
        p.2.takeEvents.1.map fun event => match event with
          | .blockStored hashes _ tokens blockSize _ _ => (hashes.length, tokens.length, blockSize)
          | _ => (0, 0, 0)) = some [(1, 3, 1)] := by
    decide +kernel
  obtain ⟨start, kv, hstart, hreach, hvals⟩ := reachable_of_map_runCheckedFrom (fun _ call hcall _ => And.intro
    ((mem_singleton.mp hcall).symm ▸ hashedRequest_hashed _ _ _ : call.Hashed serialize serializeSeed)
    (mem_singleton.mp hcall)) heval
  refine ⟨start, kv, hstart, .of_reachable hreach, ?_⟩
  intro h
  obtain ⟨event, hevent, hview⟩ := List.map_eq_singleton_iff.mp hvals
  have hdescribes := h.stored event (by simp [hevent])
  cases event with
  | blockStored hashes parent tokens blockSize loraId loraName =>
    obtain ⟨_, _, _, hblocks⟩ := hdescribes
    have hlength := hblocks.length
    simp only [Prod.mk.injEq] at hview
    obtain ⟨hhashes, htokens, rfl⟩ := hview
    rw [hhashes, htokens] at hlength
    cases hlength
  | blockRemoved hashes => simp at hview
  | allBlocksCleared => simp at hview

end VllmRuntime
