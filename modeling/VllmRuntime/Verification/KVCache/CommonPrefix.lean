import VllmRuntime.Verification.KVCache.CommonBlocks
import VllmRuntime.Verification.KVCache.RefCounts

/-! # Common prefix blocks

What full attention reports as the common prefix of all requests is one, as long as no group takes
the hits of a later one. -/

namespace VllmRuntime

open List BlockHash SingleTypeKVCacheManager KVCacheCoordinator KVCacheManager

namespace KVCacheCoordinator

variable {hashFunction : HashInput → BlockHash} {noneHash : BlockHash} {place : BlockRef → ℕ × ℕ}
  {c : KVCacheCoordinator} {m : SingleTypeKVCacheManager} {r q : RequestId}

/-- No two managers have one group. -/
lemma SetUp.groupIds_nodup (h : c.SetUp) : (c.singleTypeManagers.map kvCacheGroupId).Nodup := by
  have hrange : c.singleTypeManagers.map kvCacheGroupId = List.range c.singleTypeManagers.length := by
    apply ext_getElem (by simp)
    intro i hi _
    rw [length_map] at hi
    rw [getElem_map, getElem_range]
    exact h.groupId i _ (getElem?_eq_getElem hi)
  rw [hrange]
  exact nodup_range

lemma PlacedAt.shared (h : c.PlacedAt hashFunction noneHash place) (hm : m ∈ c.singleTypeManagers)
    (hfull : m.kvCacheSpec.isFullAttention = true) {i : ℕ} {b : BlockRef} (hi : (m.blocksOf r)[i]? = some b)
    (hcount : c.blockPool.refCnt b = m.reqToBlocks.keys.length) (hq : q ∈ m.reqToBlocks) :
    (m.blocksOf q)[i]? = some b := by
  have hids := h.setUp.groupIds_nodup
  have hgroup : FullGroup (c.singleTypeManagers.map kvCacheSpec) m.kvCacheGroupId := by
    obtain ⟨n, hn⟩ := getElem?_of_mem hm
    rw [h.setUp.groupId n m hn]
    exact ⟨m.kvCacheSpec, by simp [hn], hfull⟩
  have htables := h.tables
  obtain ⟨front, back, hsplit⟩ := List.mem_iff_append.mp hm
  rw [hsplit] at hids htables hgroup
  refine htables.shared (fun m' hm' he => ?_) hgroup hi hcount hq
  rw [map_append, map_cons, nodup_middle, nodup_cons, ← map_append] at hids
  exact hids.1 (List.mem_map.mpr ⟨m', hm', he⟩)

/-- Looking up a list that is not empty creates none. -/
lemma length_keys_setBlocks (h : m.blocksOf r ≠ []) :
    (m.setBlocks r (m.blocksOf r)).reqToBlocks.keys.length = m.reqToBlocks.keys.length := by
  have hmem : r ∈ m.reqToBlocks.keys := by
    by_contra hnot
    have hnone : m.reqToBlocks.lookup r = none := AList.lookup_eq_none.mpr hnot
    exact h (by simp [SingleTypeKVCacheManager.blocksOf, hnone])
  rw [SingleTypeKVCacheManager.setBlocks, AList.keys_insert, length_cons, length_erase_add_one hmem]

/-- The blocks that are counted stand in every table at the indices they have in that of `r`. -/
lemma PlacedAt.take_eq (h : c.PlacedAt hashFunction noneHash place) (hm : m ∈ c.singleTypeManagers)
    (r : RequestId) (hq : q ∈ m.reqToBlocks) :
    (m.blocksOf q).take (m.getNumCommonPrefixBlocks c.blockPool r).1 =
      (m.blocksOf r).take (m.getNumCommonPrefixBlocks c.blockPool r).1 := by
  unfold SingleTypeKVCacheManager.getNumCommonPrefixBlocks
  split
  · rename_i hfull
    apply ext_getElem?
    intro i
    rw [getElem?_take, getElem?_take]
    split
    · rename_i hlt
      -- The block at this index is one of those that are counted.
      set counts : BlockRef → Bool := fun block =>
        decide (c.blockPool.refCnt block = (m.setBlocks r (m.blocksOf r)).reqToBlocks.keys.length)
      have hget := (List.takeWhile_prefix counts (l := m.blocksOf r)).getElem hlt
      have hcount := mem_takeWhile_imp (getElem_mem hlt)
      rw [hget] at hcount
      have hi := getElem?_eq_getElem (hlt.trans_le (List.takeWhile_prefix counts).length_le)
      have hne : m.blocksOf r ≠ [] := ne_nil_of_mem (mem_of_getElem? hi)
      have hcount := of_decide_eq_true hcount
      rw [length_keys_setBlocks hne] at hcount
      rw [hi]
      exact h.shared hm hfull hi hcount hq
    · rfl
  · rfl

end KVCacheCoordinator

/-- What full attention counts is a common prefix of all tables, in every run in which no group takes the
hits of a later one. -/
theorem commonPrefix_shared {hashFunction : HashInput → BlockHash} {noneHash : BlockHash}
    (hfree : CollisionFree hashFunction noneHash) {config : KVCacheConfig} {maxModelLen hashBlockSize : ℕ}
    {useEagle enableKvCacheEvents useIntBlockHashes : Bool} {dcpWorldSize pcpWorldSize : ℕ}
    {start kv : KVCacheManager} (hconfig : ValidConfig config maxModelLen dcpWorldSize pcpWorldSize)
    (hgroups : config.kvCacheGroups.length ≤ 2 ^ 32)
    (hnew : KVCacheManager.new config maxModelLen hashBlockSize true useEagle enableKvCacheEvents
      useIntBlockHashes dcpWorldSize pcpWorldSize = .ok start)
    (hrun : Reaches (fun call kv => KVCacheCall.run kv call) (KVCacheCall.Shares hashFunction noneHash) start kv) :
    ∀ m ∈ kv.coordinator.singleTypeManagers, ∀ (r : RequestId), ∀ q ∈ m.reqToBlocks,
      (m.blocksOf q).take (m.getNumCommonPrefixBlocks kv.blockPool r).1 =
        (m.blocksOf r).take (m.getNumCommonPrefixBlocks kv.blockPool r).1 := by
  intro m hm r q hq
  obtain ⟨hinv, hlen⟩ :
      start.coordinator.PlacedAt hashFunction noneHash (fun _ => (0, 0)) ∧ 0 < start.coordinator.maxModelLen :=
    KVCacheManager.new_placed hconfig hgroups _ hnew
  obtain ⟨place, hplaced⟩ := placed_of_reaches hfree ⟨_, hinv⟩ hlen hrun
  exact hplaced.take_eq hm r hq

/-! ## Runs -/

/-- A full attention group and a sliding window of three tokens, with twelve blocks of one token. -/
def wideWindowConfig : KVCacheConfig where
  numBlocks := 13
  kvCacheGroups := [.fullAttention { KVCacheCoordinator.attentionWithHeads 1 with },
    .slidingWindow (KVCacheCoordinator.attentionWithHeads 1) 3]

def wideWindowManager : Except PyError KVCacheManager :=
  KVCacheManager.new wideWindowConfig 10 1 true false false false 1 1

/-- Request 0 runs past its window, so that the window's block of the first token is free; request 2
leaves its blocks behind that one. Then request 1 finds the tokens it has in common with request 0 and
loads one from elsewhere. -/
def commonCalls (tokens : List TokenId) : List KVCacheCall :=
  [.allocateNew (hashedRequest 2 [7, 8]) { numNewTokens := 2 },
    .allocateNew (hashedRequest 0 [0, 0, 0, 0]) { numNewTokens := 3 },
    .allocateRunning { hashedRequest 0 [0, 0, 0, 0] with numComputedTokens := 3 } { numNewTokens := 1 },
    .free (hashedRequest 2 [7, 8]),
    .allocateNew (hashedRequest 1 tokens) { numNewTokens := 1, numExternalComputedTokens := 1 }]

lemma commonCalls_hashed (tokens : List TokenId) :
    ∀ call ∈ commonCalls tokens, call.AllHashed serialize serializeSeed := by
  intro call hcall
  simp only [commonCalls, mem_cons, not_mem_nil, or_false] at hcall
  rcases hcall with rfl | rfl | rfl | rfl | rfl
  · exact ⟨_, rfl⟩
  · exact ⟨_, rfl⟩
  · exact ⟨_, rfl⟩
  · trivial
  · exact ⟨_, rfl⟩

/-! ## Checking the condition -/

instance BlockPool.decidableIsCached (pool : BlockPool) (b : BlockRef) : Decidable (pool.IsCached b) :=
  decidable_of_iff (∃ e ∈ pool.cachedBlockHashToBlock.entries, b ∈ e.2.toList) (by
    constructor
    · rintro ⟨⟨key, entry⟩, he, hb⟩
      exact ⟨key, entry, AList.mem_lookup_iff.mpr he, hb⟩
    · rintro ⟨key, entry, hlook, hb⟩
      exact ⟨⟨key, entry⟩, AList.mem_lookup_iff.mp hlook, hb⟩)

instance KVCacheCoordinator.decidableHitsKept (r : RequestId) (hits : List (List BlockRef)) (numLocal numExternal : ℕ) :
    ∀ i ms pool, Decidable (HitsKept r hits numLocal numExternal i ms pool)
  | _, [], _ => .isTrue trivial
  | i, _ :: ms, _ =>
    have := decidableHitsKept r hits numLocal numExternal (i + 1) ms
    inferInstanceAs (Decidable (_ ∧ _))

instance KVCacheManager.decidableHitsKeptFor (c : KVCacheCoordinator) (request : Request)
    (hits : List (List BlockRef)) (args : AllocateArgs) : Decidable (HitsKeptFor c request hits args) :=
  KVCacheCoordinator.decidableHitsKept _ _ _ _ _ _ _

instance KVCacheCall.decidableHitsKept (kv : KVCacheManager) (call : KVCacheCall) : Decidable (call.HitsKept kv) :=
  match call with
  | .allocateNew request args => decidable_of_iff
      (∀ hits n, kv.getComputedBlocks request = .ok (hits, n) →
        ∀ num c, kv.prepareAllocation request hits { args with numNewComputedTokens := n } = .ok (num, c) →
          num ≤ c.blockPool.getNumFreeBlocks → HitsKeptFor c request hits { args with numNewComputedTokens := n })
      ⟨fun h hits n num c hlook hprep => h hits n hlook num c hprep,
        fun h hits n hlook num c hprep => h hits n num c hlook hprep⟩
  | .allocateRunning _ _ | .cacheBlocks _ _ | .removeSkippedBlocks _ _ | .free _
  | .evictBlocks _ | .resetPrefixCache => .isTrue trivial

lemma wideWindowConfig_valid : ValidConfig wideWindowConfig 10 1 1 := by
  refine ⟨?_, by decide, by decide, by decide⟩
  intro spec hspec
  simp only [wideWindowConfig, mem_cons, not_mem_nil, or_false] at hspec
  rcases hspec with rfl | rfl
  · exact Nat.one_pos
  · exact ⟨Nat.one_pos, Nat.succ_pos 2⟩

/-- With two tokens in common the external token takes no hit. -/
theorem commonPrefix_shared_wideWindowConfig :
    ∃ start kv, wideWindowManager = .ok start ∧
      Reaches (fun call kv => KVCacheCall.run kv call) (KVCacheCall.Shares serialize serializeSeed) start kv ∧
      ∃ m ∈ kv.coordinator.singleTypeManagers, 0 ∈ m.reqToBlocks ∧
        (m.getNumCommonPrefixBlocks kv.blockPool 1).1 = 2 ∧ (m.blocksOf 0).take 2 = (m.blocksOf 1).take 2 := by
  have heval : (runCheckedFrom wideWindowManager (fun call kv => KVCacheCall.run kv call)
      (fun kv call => decide (call.HitsKept kv)) (commonCalls [0, 0, 9, 9])).map (fun p => decide (
        ∃ m ∈ p.2.coordinator.singleTypeManagers,
        0 ∈ m.reqToBlocks ∧ (m.getNumCommonPrefixBlocks p.2.blockPool 1).1 = 2)) = some true := by
    decide +kernel
  obtain ⟨start, kv, hstart, hreach, hvals⟩ := reaches_of_map_runCheckedFrom
    (fun _ call hcall hkept => And.intro (commonCalls_hashed _ call hcall) (of_decide_eq_true hkept)) heval
  obtain ⟨m, hm, hq, hcount⟩ := of_decide_eq_true hvals
  have hshared := commonPrefix_shared serialize_collisionFree wideWindowConfig_valid (by decide) hstart hreach
    m hm 1 0 hq
  rw [hcount] at hshared
  exact ⟨start, kv, hstart, hreach, m, hm, hq, hcount, hshared⟩

/-- Request 1 has one token in common with request 0. Its external token takes block 8, which its window
then takes as a hit: two requests hold anything, and block 8 is held twice, by request 1 alone. -/
theorem commonPrefix_not_shared :
    ∃ start kv, wideWindowManager = .ok start ∧
      Reaches (fun call kv => KVCacheCall.run kv call) (fun _ call => call.AllHashed serialize serializeSeed)
        start kv ∧
      ∃ m ∈ kv.coordinator.singleTypeManagers, m.kvCacheSpec.isFullAttention = true ∧ 0 ∈ m.reqToBlocks ∧
        (m.getNumCommonPrefixBlocks kv.blockPool 1).1 = 2 ∧
        (m.blocksOf 0).take 2 = [.block 5, .block 6] ∧ (m.blocksOf 1).take 2 = [.block 5, .block 8] := by
  have heval : (runCheckedFrom wideWindowManager (fun call kv => KVCacheCall.run kv call) (fun _ _ => true)
      (commonCalls [0, 9, 9])).map (fun p => decide
      (∃ m ∈ p.2.coordinator.singleTypeManagers, m.kvCacheSpec.isFullAttention = true ∧ 0 ∈ m.reqToBlocks ∧
        (m.getNumCommonPrefixBlocks p.2.blockPool 1).1 = 2 ∧
        (m.blocksOf 0).take 2 = [.block 5, .block 6] ∧ (m.blocksOf 1).take 2 = [.block 5, .block 8])) =
      some true := by
    decide +kernel
  obtain ⟨start, kv, hstart, hreach, hvals⟩ :=
    reaches_of_map_runCheckedFrom (fun _ call hcall _ => commonCalls_hashed _ call hcall) heval
  exact ⟨start, kv, hstart, hreach, of_decide_eq_true hvals⟩

end VllmRuntime
