import VllmRuntime.Verification.KVCache.Runs
import VllmRuntime.Shared.Runs

/-! # Reference counts

In every state that a run reaches, the reference count of a block is the number of table
positions that hold it, and the free queue is the list of the blocks with count zero, as long as
no call has more hits in a group than the computed tokens have blocks. -/

namespace VllmRuntime

variable {kv start : KVCacheManager} {calls : List KVCacheCall}

open List BlockHash KVCacheManager

/-- The counts of the blocks account for all table positions, and the linked list of the free
queue, the same in both directions, has each unreferenced block once and nothing else. -/
structure RefCountsAgree (kv : KVCacheManager) : Prop where
  refCnt : ∀ b, kv.blockPool.IsBlock b → b ≠ kv.blockPool.nullBlock →
    kv.blockPool.refCnt b = numPositions kv.coordinator.singleTypeManagers b
  queue : ∃ l, kv.blockPool.freeBlockQueue.IsQueue l ∧ kv.blockPool.nullBlock ∉ l ∧
    ∀ b, kv.blockPool.IsBlock b → b ≠ kv.blockPool.nullBlock →
      l.count b = if kv.blockPool.refCnt b = 0 then 1 else 0

lemma refCountsAgree_of_inv {tracked : Prop} {tokens : RequestId → ℕ}
    (h : kv.coordinator.Invariant tracked [] tokens) : RefCountsAgree kv := by
  obtain ⟨l, hfree⟩ := h.cache.free
  refine ⟨fun b _ hne => h.cache.refCnt b hne, l, hfree.isQueue, ?_, ?_⟩
  · intro hmem
    exact ((hfree.mem_iff _).mp hmem).2.1 rfl
  · intro b hb hne
    have hmem := hfree.mem_iff b
    have hblock : kv.coordinator.blockPool.IsBlock b := hb
    split
    · rename_i hzero
      exact count_eq_one_of_mem hfree.isQueue.nodup_blocks
        (hmem.mpr ⟨⟨hb, by simp⟩, hne, hzero⟩)
    · rename_i hpos
      exact count_eq_zero_of_not_mem fun hin => hpos (hmem.mp hin).2.2

/-- In a run whose lookups never find more blocks than they have computed tokens for, every
state has matching counts. -/
theorem refCounts_agree_of_hitsCovered {config : KVCacheConfig} {maxModelLen hashBlockSize : ℕ}
    {enableCaching useEagle enableKvCacheEvents useIntBlockHashes : Bool}
    {dcpWorldSize pcpWorldSize : ℕ} {hashFunction : HashInput → BlockHash} {noneHash : BlockHash}
    {start kv : KVCacheManager}
    (hconfig : ValidConfig config maxModelLen dcpWorldSize pcpWorldSize)
    (hsinks : ∀ spec ∈ config.kvCacheGroups, spec.isSinkFullAttention = false)
    (hfree : CollisionFree hashFunction noneHash)
    (hnew : KVCacheManager.new config maxModelLen hashBlockSize enableCaching useEagle
      enableKvCacheEvents useIntBlockHashes dcpWorldSize pcpWorldSize = .ok start)
    (hrun : Reachable (fun kv call => call.Hashed hashFunction noneHash ∧ call.HitsCovered kv)
      start kv) :
    RefCountsAgree kv := by
  obtain ⟨reserved, hinv, hreserved, hlen, -⟩ := KVCacheManager.new_inv hconfig
    (fun h : False => h.elim) hnew
  obtain rfl := hreserved hsinks
  obtain ⟨hinv', -⟩ := hrun.inv hfree (fun kv call hcall => ⟨hcall.1, hcall.2, False.elim⟩) hinv
    (hlen ▸ hconfig.maxModelLen)
  exact refCountsAgree_of_inv hinv'

/-! ## Runs of fixed calls -/

instance decidableForallOk {α β : Type} {P : α → β → Prop} [∀ a b, Decidable (P a b)]
    (x : Except PyError (α × β)) : Decidable (∀ a b, x = .ok (a, b) → P a b) :=
  match x with
  | .error _ => .isTrue (by simp)
  | .ok (a, b) => decidable_of_iff (P a b) (by simp)

instance KVCacheCall.decidableHitsCovered (kv : KVCacheManager) (call : KVCacheCall) :
    Decidable (call.HitsCovered kv) :=
  match call with
  | .allocateNew request args => decidable_of_iff
      (∀ hits n, kv.getComputedBlocks request = .ok (hits, n) → args.numExternalComputedTokens > 0 →
        ∀ p ∈ kv.coordinator.singleTypeManagers.zipIdx, p.1.kvCacheSpec.isCrossAttention = false →
          (hits.getD p.2 []).length ≤
            cdiv (request.numComputedTokens + n + args.numExternalComputedTokens) p.1.blockSize)
      ⟨fun h hits n hlook hpos i m hm => h hits n hlook hpos (m, i) (mem_zipIdx_iff_getElem?.mpr hm),
        fun h hits n hlook hpos p hp => h hits n hlook hpos p.2 p.1 (mem_zipIdx_iff_getElem?.mp hp)⟩
  | .allocateRunning _ _ | .cacheBlocks _ _ | .removeSkippedBlocks _ _ | .free _
  | .evictBlocks _ | .resetPrefixCache => .isTrue trivial

lemma reachable_of_map_runCheckedFrom {allowed : KVCacheManager → KVCacheCall → Prop}
    {check : KVCacheManager → KVCacheCall → Bool} {manager : Except PyError KVCacheManager} {β : Type}
    {f : KVCacheManager × KVCacheManager → β} {values : β}
    (hcheck : ∀ kv, ∀ call ∈ calls, check kv call = true → allowed kv call)
    (h : (runCheckedFrom manager (fun call kv => call.run kv) check calls).map f = some values) :
    ∃ start kv, manager = .ok start ∧ Reachable allowed start kv ∧ f (start, kv) = values := by
  obtain ⟨start, kv, hstart, hreach, hvals⟩ := reaches_of_map_runCheckedFrom hcheck h
  exact ⟨start, kv, hstart, hreach.invariant .start fun _ _ _ hreach hcall hstep => hreach.step hcall hstep, hvals⟩

/-- A request for `tokens` with a block hash for each of them. -/
def hashedRequest (requestId : RequestId) (tokens : List TokenId) : Request where
  requestId := requestId
  promptTokenIds := some tokens
  numPromptTokens := tokens.length
  allTokenIds := tokens
  blockHashes := HashChain.chain (hashStep serialize serializeSeed) none
    (tokens.map fun token => ([token], none))

lemma hashedRequest_hashed (requestId : RequestId) (tokens : List TokenId) (args : AllocateArgs) :
    (KVCacheCall.allocateNew (hashedRequest requestId tokens) args).Hashed serialize serializeSeed :=
  ⟨_, rfl⟩

/-- A full attention group and a sliding window, with ten blocks of one token. -/
def windowConfig : KVCacheConfig where
  numBlocks := 10
  kvCacheGroups := [.fullAttention { KVCacheCoordinator.attentionWithHeads 1 with },
    .slidingWindow (KVCacheCoordinator.attentionWithHeads 1) 2]

def windowManager : Except PyError KVCacheManager :=
  KVCacheManager.new windowConfig 10 1 true false false false 1 1

/-- A request fills three blocks in each group and leaves. -/
def fillCalls : List KVCacheCall :=
  [.allocateNew (hashedRequest 0 [0, 0, 0]) { numNewTokens := 3 },
    .free (hashedRequest 0 [0, 0, 0])]

/-- The next request finds two of the three tokens and loads the third from elsewhere. -/
def loadCall : KVCacheCall :=
  .allocateNew (hashedRequest 1 [0, 0, 0]) { numNewTokens := 0, numExternalComputedTokens := 1 }

lemma loadCalls_hashed : ∀ call ∈ fillCalls ++ [loadCall], call.Hashed serialize serializeSeed := by
  intro call hcall
  simp only [fillCalls, loadCall, mem_append, mem_cons, not_mem_nil, or_false] at hcall
  rcases hcall with (rfl | rfl) | rfl
  · exact hashedRequest_hashed _ _ _
  · trivial
  · exact hashedRequest_hashed _ _ _

lemma windowConfig_valid : ValidConfig windowConfig 10 1 1 := by
  refine ⟨?_, by decide, by decide, by decide⟩
  intro spec hspec
  simp only [windowConfig, mem_cons, not_mem_nil, or_false] at hspec
  rcases hspec with rfl | rfl
  · exact Nat.one_pos
  · exact ⟨Nat.one_pos, Nat.two_pos⟩

theorem refCounts_agree_windowConfig :
    ∃ start kv, windowManager = .ok start ∧
      Reachable (fun kv call => call.Hashed serialize serializeSeed ∧ call.HitsCovered kv)
        start kv ∧
      kv.coordinator.getBlocks 1 =
        [[.block 1, .block 2, .block 7], [.block 0, .block 0, .block 8]] ∧
      RefCountsAgree kv := by
  have heval : (runCheckedFrom windowManager (fun call kv => call.run kv)
      (fun kv call => decide (call.HitsCovered kv)) (fillCalls ++ [loadCall])).map
        (fun p => p.2.coordinator.getBlocks 1) =
      some [[.block 1, .block 2, .block 7], [.block 0, .block 0, .block 8]] := by
    decide +kernel
  obtain ⟨start, kv, hstart, hreach, hblocks⟩ := reachable_of_map_runCheckedFrom
    (fun kv call hcall hcovered => And.intro (loadCalls_hashed call hcall) (of_decide_eq_true hcovered)) heval
  exact ⟨start, kv, hstart, hreach, hblocks, refCounts_agree_of_hitsCovered windowConfig_valid
    (by decide) serialize_collisionFree hstart hreach⟩

/-! ## More hits than computed tokens -/

/-- The nodes reached from `x` by at most `n` next links. -/
def nextNodes (links : Links BlockRef) : ℕ → BlockRef → List BlockRef
  | 0, _ => []
  | n + 1, x =>
    match links.next x with
    | none => []
    | some y => y :: nextNodes links n y

lemma nextNodes_of_linked {links : Links BlockRef} {x : BlockRef} {nodes : List BlockRef}
    (h : links.Linked (x :: nodes)) : nextNodes links nodes.length x = nodes := by
  induction nodes generalizing x with
  | nil => rfl
  | cons y nodes ih =>
    rw [Links.linked_cons_cons] at h
    rw [length_cons, nextNodes, h.1.1]
    simp only [ih h.2]

def twoFullConfig : KVCacheConfig where
  numBlocks := 10
  kvCacheGroups := KVCacheCoordinator.twoFullAndWindow.kvCacheGroups

/-- The blocks of the sliding window are evicted, so that a second request has no hits, but the
second full attention group keeps the blocks it found. -/
def longHitsCalls : List KVCacheCall :=
  fillCalls ++ [.evictBlocks [7, 8, 9], .allocateNew (hashedRequest 1 [0, 0, 0])
    { numNewTokens := 0, numExternalComputedTokens := 1, delayCacheBlocks := true }]

lemma longHitsCalls_hashed : ∀ call ∈ longHitsCalls, call.Hashed serialize serializeSeed := by
  intro call hcall
  simp only [longHitsCalls, fillCalls, mem_append, mem_cons, not_mem_nil,
    or_false] at hcall
  rcases hcall with (rfl | rfl) | rfl | rfl
  · exact hashedRequest_hashed _ _ _
  · trivial
  · trivial
  · exact hashedRequest_hashed _ _ _

/-- A negative number of blocks is asked for: the queue counts six blocks and has five. -/
theorem refCounts_disagree_twoFullConfig :
    ∃ start kv, KVCacheManager.new twoFullConfig 10 1 true false false false 1 1 = .ok start ∧
      Reachable (fun _ call => call.Hashed serialize serializeSeed) start kv ∧
      ¬ RefCountsAgree kv := by
  have heval : (runCheckedFrom (KVCacheManager.new twoFullConfig 10 1 true false false false 1 1)
      (fun call kv => call.run kv) (fun _ _ => true) longHitsCalls).map (fun p =>
        (p.2.blockPool.freeBlockQueue.numFreeBlocks,
          (nextNodes p.2.blockPool.freeBlockQueue.links 7 .fakeHead).length)) = some (6, 6) := by
    decide +kernel
  obtain ⟨start, kv, hstart, hreach, hvals⟩ :=
    reachable_of_map_runCheckedFrom (fun _ call hcall _ => longHitsCalls_hashed call hcall) heval
  obtain ⟨hcount, hnodes⟩ := Prod.mk.inj hvals
  refine ⟨start, kv, hstart, hreach, ?_⟩
  · intro h
    obtain ⟨l, hqueue, -, -⟩ := h.queue
    have hlength := hqueue.count
    have hlinked : nextNodes kv.blockPool.freeBlockQueue.links
        (l ++ [BlockRef.fakeTail]).length .fakeHead = l ++ [.fakeTail] :=
      nextNodes_of_linked hqueue.linked
    simp only at hcount hnodes
    rw [hcount] at hlength
    have hseven : (l ++ [BlockRef.fakeTail]).length = 7 := by
      simp
      omega
    rw [hseven] at hlinked
    rw [hlinked, hseven] at hnodes
    omega

end VllmRuntime
