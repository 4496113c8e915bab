import VllmRuntime.Verification.Offloading.Victims

/-! # What is reported of evictions

The LRU manager evicts nothing for a store that it refuses, and reports everything else that it evicts. The
ARC manager evicts while it searches: what it evicted before it gives up is lost without a report. Neither
spares the hashes of the store itself that are already there. -/

namespace VllmRuntime

open List

/-! ## The interface -/

/-- What the callers of an `OffloadingManager` see: the blocks that are kept, the pending events, and the
calls. -/
structure OffloadingManager (σ : Type) where
  getBlock : σ → BlockHash → Option CPUBlockStatus
  events : σ → Option (List OffloadingEvent)
  prepareStore : σ → List BlockHash → Except PyError (Option PrepareStoreOutput × σ)
  run : OffloadingCall → σ → Except PyError σ

namespace OffloadingManager

variable {σ : Type} (manager : OffloadingManager σ)

/-- A store that is refused changes nothing. -/
def RefusesUnchanged (s : σ) (blockHashes : List BlockHash) : Prop :=
  ∃ output s', manager.prepareStore s blockHashes = .ok (output, s') ∧ (output = none → s' = s)

/-- What a call evicts is in the output of `prepare_store`, and in an event. -/
def ReportsEvictions (s : σ) (call : OffloadingCall) : Prop :=
  ∀ s', manager.run call s = .ok s' → ∀ blockHash block, manager.getBlock s blockHash = some block →
    block.isReady = true → manager.getBlock s' blockHash = none →
    ∃ blockHashes output, call = .prepareStore blockHashes ∧
      manager.prepareStore s blockHashes = .ok (some output, s') ∧ blockHash ∈ output.blockHashesEvicted ∧
      ∀ events, manager.events s = some events → ∃ event, manager.events s' = some (events ++ [event]) ∧
        event.removed = true ∧ blockHash ∈ event.blockHashes

structure Accounts (s : σ) (call : OffloadingCall) : Prop where
  refuses : ∀ blockHashes, call = .prepareStore blockHashes → manager.RefusesUnchanged s blockHashes
  reports : manager.ReportsEvictions s call

/-- All hashes of a store that succeeds are there afterwards. -/
def KeepsStored (s : σ) (blockHashes : List BlockHash) : Prop :=
  ∀ output s', manager.prepareStore s blockHashes = .ok (some output, s') →
    ∀ blockHash ∈ blockHashes, (manager.getBlock s' blockHash).isSome

variable {manager} {s : σ} {call : OffloadingCall}

/-- Nothing is evicted. -/
lemma ReportsEvictions.of_kept (h : ∀ s', manager.run call s = .ok s' → ∀ blockHash block,
    manager.getBlock s blockHash = some block → block.isReady = true → (manager.getBlock s' blockHash).isSome) :
    manager.ReportsEvictions s call := by
  intro s' hrun blockHash block hblock hready hnone
  have hsome := h s' hrun blockHash block hblock hready
  rw [hnone] at hsome
  cases hsome

/-- A call that is not a store has no output to report in. -/
lemma Accounts.of_kept (hcall : ∀ blockHashes, call ≠ .prepareStore blockHashes)
    (h : ∀ s', manager.run call s = .ok s' → ∀ blockHash block, manager.getBlock s blockHash = some block →
      block.isReady = true → (manager.getBlock s' blockHash).isSome) : manager.Accounts s call :=
  ⟨fun blockHashes heq => absurd heq (hcall blockHashes), .of_kept h⟩

end OffloadingManager

lemma Reported.event {events events' : Option (List OffloadingEvent)} {evicted : List BlockHash}
    {blockHash : BlockHash} (h : Reported events events' evicted) (hmem : blockHash ∈ evicted)
    {pending : List OffloadingEvent} (hpending : events = some pending) :
    ∃ event, events' = some (pending ++ [event]) ∧ event.removed = true ∧ blockHash ∈ event.blockHashes := by
  obtain ⟨backend, rfl⟩ := h
  have hne : evicted.isEmpty = false := by
    cases evicted with
    | nil => cases hmem
    | cons x evicted => rfl
  rw [CPUBackend.recordEvent, hne, hpending]
  exact ⟨_, rfl, rfl, hmem⟩

/-! ## The LRU manager -/

namespace LRUOffloadingManager

variable {m m' : LRUOffloadingManager} {blockHash : BlockHash} {blockHashes : List BlockHash}

def offloading : OffloadingManager LRUOffloadingManager where
  getBlock m blockHash := m.blocks.lookup blockHash
  events := events
  prepareStore := prepareStore
  run := run

/-- A failed store keeps what is ready. -/
lemma foldlM_dropBlock_ready (hm : m.WellFormed) (h : blockHashes.foldlM dropBlock m = .ok m') :
    m'.WellFormed ∧ ∀ x block, m.blocks.lookup x = some block → block.isReady = true →
      m'.blocks.lookup x = some block := by
  refine foldlM_invariant h ⟨hm, fun _ _ hx _ => hx⟩ ?_
  rintro blockHash - m₁ m₂ ⟨hm₁, hlookup⟩ hm₂
  obtain ⟨block, hblock, rfl | ⟨hpending, rfl⟩⟩ := dropBlock_eq_ok hm₂
  · exact ⟨hm₁, hlookup⟩
  · refine ⟨⟨nodup_dictPop hm₁.nodup, hm₁.allocated⟩, fun x block' hx hready => ?_⟩
    have hx₁ := hlookup x block' hx hready
    have hne : x ≠ blockHash := by
      rintro rfl
      cases hblock.symm.trans hx₁
      exact hpending hready
    rw [lookup_dictPop, if_neg hne, hx₁]

/-- Every call accounts for what it evicts. -/
lemma accounts {call : OffloadingCall} (hm : m.WellFormed) (hdistinct : call.Distinct) :
    offloading.Accounts m call := by
  cases call with
  | lookup blockHashes | takeEvents =>
    refine .of_kept nofun fun m' h x block hblock _ => ?_
    cases h
    exact Option.isSome_iff_exists.mpr ⟨block, hblock⟩
  | prepareLoad blockHashes =>
    refine .of_kept nofun fun m' h x block hblock _ => ?_
    obtain ⟨⟨blockIds, m₁⟩, hm₁, hret⟩ := bind_eq_ok h
    cases hret
    exact (prepareLoad_keeps hm.nodup hm₁).isSome hblock
  | touch blockHashes =>
    refine .of_kept nofun fun m' h x block hblock _ => ?_
    cases h
    exact (touch_keeps hm.nodup blockHashes).isSome hblock
  | completeLoad blockHashes =>
    exact .of_kept nofun fun m' h x block hblock _ => (completeLoad_keeps hm.nodup h).isSome hblock
  | prepareStore blockHashes =>
    by_cases hle : m.numBlocksToEvict blockHashes ≤ (unused m.blocks).length
    · obtain ⟨output, m₁, hstore, -, hevicted, hreported, hkeys⟩ := prepareStore_of_le hm hdistinct hle
      refine ⟨?_, fun m' h x block hblock hready hnone => ?_⟩
      · rintro _ ⟨⟩
        exact ⟨some output, m₁, hstore, fun hnone => by cases hnone⟩
      · obtain ⟨⟨output', m₂⟩, hm₂, hret⟩ := bind_eq_ok h
        cases hret
        cases hm₂.symm.trans hstore
        have hgone : x ∈ m.victims blockHashes := by
          by_contra hkept
          exact lookup_eq_none.mp hnone ((hkeys x).mpr (Or.inr ⟨key_mem_of_lookup hblock, hkept⟩))
        exact ⟨blockHashes, output, rfl, hstore, hevicted ▸ hgone, fun _ => hreported.event hgone⟩
    · have hstore := prepareStore_of_lt (not_le.mp hle)
      refine ⟨?_, .of_kept fun m' h x block hblock _ => ?_⟩
      · rintro _ ⟨⟩
        exact ⟨none, m, hstore, fun _ => rfl⟩
      · obtain ⟨⟨output', m₂⟩, hm₂, hret⟩ := bind_eq_ok h
        cases hret
        cases hm₂.symm.trans hstore
        exact Option.isSome_iff_exists.mpr ⟨block, hblock⟩
  | completeStore blockHashes success =>
    refine .of_kept nofun fun m' h x block hblock hready => ?_
    cases success with
    | true =>
      obtain ⟨⟨stored, m₁⟩, hm₁, hret⟩ := bind_eq_ok h
      cases hret
      exact (storeBlocks_keeps hm.nodup hm₁).isSome hblock
    | false =>
      exact Option.isSome_iff_exists.mpr ⟨block, (foldlM_dropBlock_ready hm h).2 x block hblock hready⟩

/-- A store keeps its hashes exactly when it is refused or none of them is among the oldest unused blocks that
make room. -/
lemma keepsStored_iff (hm : m.WellFormed) (hdistinct : blockHashes.Nodup) :
    offloading.KeepsStored m blockHashes ↔ (m.numBlocksToEvict blockHashes ≤ (unused m.blocks).length →
      ∀ x ∈ blockHashes, x ∉ m.victims blockHashes) := by
  by_cases hle : m.numBlocksToEvict blockHashes ≤ (unused m.blocks).length
  · obtain ⟨output, m', hstore, -, -, -, hkeys⟩ := prepareStore_of_le hm hdistinct hle
    constructor
    · intro hkeeps _ x hx hgone
      rcases (hkeys x).mp (lookup_isSome.mp (hkeeps output m' hstore x hx)) with ⟨-, hnew⟩ | ⟨-, hkept⟩
      · exact hnew (unused_sublist.subset (mem_of_mem_take hgone))
      · exact hkept hgone
    · intro hkept output' m₂ hstore' x hx
      cases hstore.symm.trans hstore'
      refine lookup_isSome.mpr ((hkeys x).mpr ?_)
      by_cases hold : x ∈ m.blocks.map Prod.fst
      · exact Or.inr ⟨hold, hkept hle x hx⟩
      · exact Or.inl ⟨hx, hold⟩
  · refine iff_of_true ?_ fun h => absurd h hle
    intro output m' hstore
    cases hstore.symm.trans (prepareStore_of_lt (not_le.mp hle))

end LRUOffloadingManager

/-! ## The ARC manager -/

namespace ARCOffloadingManager

variable {m m' : ARCOffloadingManager} {blockHash : BlockHash} {blockHashes : List BlockHash} {round : ℚ → ℚ}

def offloading (round : ℚ → ℚ) : OffloadingManager ARCOffloadingManager where
  getBlock := getBlock
  events := events
  prepareStore := prepareStore
  run := run round

/-- The manager keeps its hashes, up to their order. -/
def KeepsHashes (m m' : ARCOffloadingManager) : Prop :=
  m.WellFormed → m'.backend = m.backend ∧ m'.resident.map Prod.fst ~ m.resident.map Prod.fst

lemma isSome_getBlock : (m.getBlock blockHash).isSome ↔ blockHash ∈ m.resident.map Prod.fst := by
  rw [getBlock_eq, lookup_isSome]

lemma mem_of_getBlock {block : CPUBlockStatus} (h : m.getBlock blockHash = some block) :
    blockHash ∈ m.resident.map Prod.fst :=
  isSome_getBlock.mp (Option.isSome_iff_exists.mpr ⟨block, h⟩)

namespace KeepsHashes

lemma refl (m : ARCOffloadingManager) : KeepsHashes m m := fun _ => ⟨rfl, .refl _⟩

lemma wellFormed (h : KeepsHashes m m') (hm : m.WellFormed) : m'.WellFormed := by
  obtain ⟨hbackend, hperm⟩ := h hm
  exact ⟨hperm.nodup_iff.mpr hm.nodup, by rw [hbackend]; exact hm.allocated⟩

lemma trans {m₂ : ARCOffloadingManager} (h : KeepsHashes m m') (h' : KeepsHashes m' m₂) : KeepsHashes m m₂ := by
  intro hm
  obtain ⟨hbackend, hperm⟩ := h hm
  obtain ⟨hbackend', hperm'⟩ := h' (h.wellFormed hm)
  exact ⟨hbackend'.trans hbackend, hperm'.trans hperm⟩

lemma isSome (h : KeepsHashes m m') (hm : m.WellFormed) {block : CPUBlockStatus}
    (hblock : m.getBlock blockHash = some block) : (m'.getBlock blockHash).isSome := by
  rw [isSome_getBlock, (h hm).2.mem_iff]
  exact mem_of_getBlock hblock

lemma setBlock {block block' : CPUBlockStatus} (h : m.getBlock blockHash = some block) :
    KeepsHashes m (m.setBlock blockHash block') := by
  intro _
  have hmem := mem_of_getBlock h
  rw [resident, map_append, mem_append] at hmem
  unfold ARCOffloadingManager.setBlock
  split
  · rename_i ht1
    refine ⟨rfl, .of_eq ?_⟩
    rw [resident, resident, map_append, map_append, map_fst_dictSet, if_pos ht1]
  · rename_i ht1
    refine ⟨rfl, .of_eq ?_⟩
    rw [resident, resident, map_append, map_append, map_fst_dictSet, if_pos (hmem.resolve_left ht1)]

end KeepsHashes

lemma keepsHashes_prepareLoad {blockIds : List ℕ} (h : m.prepareLoad blockHashes = .ok (blockIds, m')) :
    KeepsHashes m m' := by
  induction blockHashes generalizing m blockIds with
  | nil =>
    cases h
    exact .refl _
  | cons blockHash blockHashes ih =>
    rw [prepareLoad] at h
    obtain ⟨⟨blockId, m₁⟩, hm₁, h⟩ := bind_eq_ok h
    obtain ⟨⟨rest, m₂⟩, hm₂, hret⟩ := bind_eq_ok h
    cases hret
    refine KeepsHashes.trans ?_ (ih hm₂)
    unfold loadBlock at hm₁
    split at hm₁
    · cases hm₁
    · rename_i block hblock
      obtain ⟨_, -, hret⟩ := bind_eq_ok hm₁
      cases hret
      exact .setBlock hblock

lemma keepsHashes_completeLoad (h : m.completeLoad blockHashes = .ok m') : KeepsHashes m m' := by
  refine foldlM_invariant h (.refl m) fun blockHash _ m₁ m₂ hkeeps hm₂ => hkeeps.trans ?_
  unfold unloadBlock at hm₂
  split at hm₂
  · cases hm₂
  · rename_i block hblock
    obtain ⟨_, -, rfl⟩ := map_eq_ok hm₂
    exact .setBlock hblock

/-- A touch moves hashes from `t1` to `t2`, and to the end. -/
lemma keepsHashes_touchBlock (h : m.touchBlock round blockHash = .ok m') : KeepsHashes m m' := by
  intro hm
  unfold touchBlock at h
  split at h
  · rename_i block ht1
    split at h
    · -- the block was popped, so it is not there to be moved
      dsimp only at h
      split at h
      · cases h
      · rename_i t1 hmove
        obtain ⟨value, hvalue, -⟩ := dictMoveToEnd_eq_some hmove
        rw [lookup_dictPop, if_pos rfl] at hvalue
        cases hvalue
    · cases h
      have hnew : blockHash ∉ m.t2.map Prod.fst := hm.not_mem_t2 (key_mem_of_lookup ht1)
      have hperm : (dictPop m.t1 blockHash ++ dictSet m.t2 blockHash block) ~ m.t1 ++ m.t2 := by
        rw [dictSet_of_not_mem hnew, ← append_assoc]
        refine (perm_append_singleton ..).trans ?_
        exact ((perm_dictPop hm.nodup_t1 ht1).append_right m.t2).symm
      exact ⟨rfl, hperm.map _⟩
  · split at h
    · rename_i t2 ht2
      cases h
      exact ⟨rfl, ((dictMoveToEnd_perm hm.nodup_t2 ht2).append_left m.t1).map _⟩
    · split at h
      · cases h
        exact ⟨rfl, .refl _⟩
      · split at h
        · cases h
          exact ⟨rfl, .refl _⟩
        · cases h
          exact ⟨rfl, .refl _⟩

lemma keepsHashes_touch (h : m.touch round blockHashes = .ok m') : KeepsHashes m m' :=
  foldlM_invariant h (.refl m) fun _ _ _ _ hkeeps hm₂ => hkeeps.trans (keepsHashes_touchBlock hm₂)

lemma keepsHashes_storeBlocks (blockHashes : List BlockHash) : KeepsHashes m (m.storeBlocks blockHashes).2 := by
  induction blockHashes generalizing m with
  | nil => exact .refl m
  | cons blockHash blockHashes ih =>
    have hstep : KeepsHashes m (m.storeBlock blockHash) := by
      unfold storeBlock
      split
      · exact .refl m
      · rename_i block hblock
        split
        · exact .refl m
        · exact .setBlock hblock
    exact hstep.trans ih

lemma foldl_dropBlock_resident (hm : m.WellFormed) (blockHashes : List BlockHash) :
    (blockHashes.foldl dropBlock m).WellFormed ∧
      ∀ x, (blockHashes.foldl dropBlock m).getBlock x = if x ∈ blockHashes then none else m.getBlock x := by
  induction blockHashes generalizing m with
  | nil => exact ⟨hm, fun x => by simp⟩
  | cons blockHash blockHashes ih =>
    obtain ⟨hwell, hresident⟩ := dropBlock_resident hm blockHash
    obtain ⟨hwell', hget⟩ := ih hwell
    refine ⟨hwell', fun x => ?_⟩
    rw [foldl_cons, hget, getBlock_eq, hresident, lookup_dictPop, getBlock_eq]
    by_cases hx : x = blockHash <;> by_cases hmem : x ∈ blockHashes <;> simp [hx, hmem]

/-- The calls that evict nothing in silence: a store for which enough blocks can be evicted, or none, and a
failed store of blocks that are not ready. -/
def Quiet (m : ARCOffloadingManager) : OffloadingCall → Prop
  | .prepareStore blockHashes => m.numBlocksToEvict blockHashes ≤ m.evictable.length ∨ m.evictable = []
  | .completeStore blockHashes false => ∀ x ∈ blockHashes, ∀ block, m.getBlock x = some block →
      block.isReady = false
  | _ => True

/-- When nothing can be evicted, the loop changes nothing. -/
lemma evictLoop_of_nil (hm : m.WellFormed) (h : m.evictable = []) (n : ℕ) : (evictLoop n m).2 = m := by
  cases n with
  | zero => rfl
  | succ n =>
    rw [evictLoop]
    cases hblock : m.blockToEvict with
    | none => rfl
    | some e =>
      obtain ⟨fromT1, blockHash, block⟩ := e
      have hcons := (evictable_eq_cons hm hblock).1
      rw [h] at hcons
      cases hcons

lemma refusesUnchanged_iff (hm : m.WellFormed) (hdistinct : blockHashes.Nodup) :
    (offloading round).RefusesUnchanged m blockHashes ↔ m.Quiet (.prepareStore blockHashes) := by
  by_cases hle : m.numBlocksToEvict blockHashes ≤ m.evictable.length
  · obtain ⟨output, m', hstore, -⟩ := prepareStore_of_le hm hdistinct hle
    exact iff_of_true ⟨some output, m', hstore, fun hnone => by cases hnone⟩ (Or.inl hle)
  · have hstore := prepareStore_of_lt hm (not_le.mp hle)
    constructor
    · rintro ⟨output, m', hstore', hunchanged⟩
      cases hstore.symm.trans hstore'
      have hfree := (evictLoop_spec hm (m.numBlocksToEvict blockHashes)).2.free
      rw [hunchanged rfl] at hfree
      exact Or.inr (List.length_eq_zero_iff.mp (by omega))
    · intro hquiet
      have hnil := hquiet.resolve_left hle
      exact ⟨none, _, hstore, fun _ => evictLoop_of_nil hm hnil _⟩

/-- A call accounts for what it evicts exactly when it is quiet. -/
lemma accounts_iff {call : OffloadingCall} (hm : m.WellFormed) (hdistinct : call.Distinct) :
    (offloading round).Accounts m call ↔ m.Quiet call := by
  cases call with
  | lookup blockHashes | takeEvents =>
    refine iff_of_true (.of_kept nofun fun m' h x block hblock _ => ?_) trivial
    cases h
    exact Option.isSome_iff_exists.mpr ⟨block, hblock⟩
  | prepareLoad blockHashes =>
    refine iff_of_true (.of_kept nofun fun m' h x block hblock _ => ?_) trivial
    obtain ⟨⟨blockIds, m₁⟩, hm₁, hret⟩ := bind_eq_ok h
    cases hret
    exact (keepsHashes_prepareLoad hm₁).isSome hm hblock
  | touch blockHashes =>
    refine iff_of_true (.of_kept nofun fun m' h x block hblock _ => ?_) trivial
    exact (keepsHashes_touch h).isSome hm hblock
  | completeLoad blockHashes =>
    refine iff_of_true (.of_kept nofun fun m' h x block hblock _ => ?_) trivial
    exact (keepsHashes_completeLoad h).isSome hm hblock
  | prepareStore blockHashes =>
    constructor
    · intro haccounts
      exact (refusesUnchanged_iff hm hdistinct).mp (haccounts.refuses blockHashes rfl)
    · intro hquiet
      refine ⟨?_, ?_⟩
      · rintro _ ⟨⟩
        exact (refusesUnchanged_iff hm hdistinct).mpr hquiet
      · intro m' h x block hblock hready hnone
        obtain ⟨⟨output, m₁⟩, hm₁, hret⟩ := bind_eq_ok h
        cases hret
        by_cases hle : m.numBlocksToEvict blockHashes ≤ m.evictable.length
        · obtain ⟨output', m₂, hstore, -, hevicted, hreported, hkeys⟩ := prepareStore_of_le hm hdistinct hle
          cases hm₁.symm.trans hstore
          have hgone : x ∈ m.victims blockHashes := by
            by_contra hkept
            exact Option.not_isSome_iff_eq_none.mpr hnone
              (isSome_getBlock.mpr ((hkeys x).mpr (Or.inr ⟨mem_of_getBlock hblock, hkept⟩)))
          exact ⟨blockHashes, output', rfl, hstore, hevicted ▸ hgone, fun _ => hreported.event hgone⟩
        · have hnil := hquiet.resolve_left hle
          cases hm₁.symm.trans (prepareStore_of_lt hm (not_le.mp hle))
          rw [evictLoop_of_nil hm hnil] at hnone
          cases hnone.symm.trans hblock
  | completeStore blockHashes success =>
    cases success with
    | true =>
      refine iff_of_true (.of_kept nofun fun m' h x block hblock _ => ?_) trivial
      cases h
      exact (keepsHashes_storeBlocks blockHashes).isSome hm hblock
    | false =>
      have hget := (foldl_dropBlock_resident hm blockHashes).2
      constructor
      · intro haccounts x hx block hblock
        by_contra hready
        obtain ⟨_, _, hcall, -⟩ := haccounts.reports _ rfl x block hblock (by simpa using hready)
          ((hget x).trans (if_pos hx))
        cases hcall
      · intro hquiet
        refine .of_kept nofun fun m' h x block hblock hready => ?_
        cases h
        have hnot : x ∉ blockHashes := by
          intro hx
          exact Bool.false_ne_true ((hquiet x hx block hblock).symm.trans hready)
        exact Option.isSome_iff_exists.mpr ⟨block, (hget x).trans ((if_neg hnot).trans hblock)⟩

/-- A store keeps its hashes exactly when it is refused or none of them is among the blocks that make room. -/
lemma keepsStored_iff (hm : m.WellFormed) (hdistinct : blockHashes.Nodup) :
    (offloading round).KeepsStored m blockHashes ↔ (m.numBlocksToEvict blockHashes ≤ m.evictable.length →
      ∀ x ∈ blockHashes, x ∉ m.victims blockHashes) := by
  by_cases hle : m.numBlocksToEvict blockHashes ≤ m.evictable.length
  · obtain ⟨output, m', hstore, -, -, -, hkeys⟩ := prepareStore_of_le hm hdistinct hle
    constructor
    · intro hkeeps _ x hx hgone
      rcases (hkeys x).mp (isSome_getBlock.mp (hkeeps output m' hstore x hx)) with ⟨-, hnew⟩ | ⟨-, hkept⟩
      · exact hnew (evictable_sublist.subset (mem_of_mem_take hgone))
      · exact hkept hgone
    · intro hkept output' m₂ hstore' x hx
      cases hstore.symm.trans hstore'
      refine isSome_getBlock.mpr ((hkeys x).mpr ?_)
      by_cases hold : x ∈ m.resident.map Prod.fst
      · exact Or.inr ⟨hold, hkept hle x hx⟩
      · exact Or.inl ⟨hx, hold⟩
  · refine iff_of_true ?_ fun h => absurd h hle
    intro output m' hstore
    cases hstore.symm.trans (prepareStore_of_lt hm (not_le.mp hle))

end ARCOffloadingManager

/-! ## Both managers -/

section Both

variable {round : ℚ → ℚ} {call : OffloadingCall} {blockHashes : List BlockHash}

/-- The LRU manager accounts for all evictions, the ARC manager for those of quiet calls. -/
theorem offloading_accounts (hdistinct : call.Distinct) :
    (∀ m : LRUOffloadingManager, m.WellFormed → LRUOffloadingManager.offloading.Accounts m call) ∧
      ∀ m : ARCOffloadingManager, m.WellFormed →
        ((ARCOffloadingManager.offloading round).Accounts m call ↔ m.Quiet call) :=
  ⟨fun _ hm => LRUOffloadingManager.accounts hm hdistinct,
    fun _ hm => ARCOffloadingManager.accounts_iff hm hdistinct⟩

/-- A store keeps its hashes exactly when it is refused or evicts none of them. -/
theorem offloading_keepsStored (hdistinct : blockHashes.Nodup) :
    (∀ m : LRUOffloadingManager, m.WellFormed → (LRUOffloadingManager.offloading.KeepsStored m blockHashes ↔
        (m.numBlocksToEvict blockHashes ≤ (unused m.blocks).length →
          ∀ x ∈ blockHashes, x ∉ m.victims blockHashes))) ∧
      ∀ m : ARCOffloadingManager, m.WellFormed →
        ((ARCOffloadingManager.offloading round).KeepsStored m blockHashes ↔
          (m.numBlocksToEvict blockHashes ≤ m.evictable.length →
            ∀ x ∈ blockHashes, x ∉ m.victims blockHashes)) :=
  ⟨fun _ hm => LRUOffloadingManager.keepsStored_iff hm hdistinct,
    fun _ hm => ARCOffloadingManager.keepsStored_iff hm hdistinct⟩

/-! ## Examples -/

/-- Two blocks, of which the older one is read. -/
def lruReading : LRUOffloadingManager where
  backend := { blockSize := 1, numBlocks := 2, numAllocatedBlocks := 2 }
  blocks := [([0], ⟨1, 0⟩), ([1], ⟨0, 1⟩)]
  events := some [⟨[[0], [1]], 1, "CPU", false⟩]

def arcReading : ARCOffloadingManager where
  backend := { blockSize := 1, numBlocks := 2, numAllocatedBlocks := 2 }
  t1 := [([0], ⟨1, 0⟩), ([1], ⟨0, 1⟩)]
  events := some [⟨[[0], [1]], 1, "CPU", false⟩]
  cacheCapacity := 2

def readingCalls : List OffloadingCall :=
  [.prepareStore [[0], [1]], .completeStore [[0], [1]] true, .prepareLoad [[0]]]

lemma distinct_readingCalls : ∀ call ∈ readingCalls, call.Distinct := by
  simp [readingCalls, OffloadingCall.Distinct]

lemma reaches_lruReading : Reaches LRUOffloadingManager.run (fun _ call => call.Distinct)
    { backend := { blockSize := 1, numBlocks := 2 }, events := some [] } lruReading := by
  have hrun : runChecked LRUOffloadingManager.run (fun _ _ => true) readingCalls
      { backend := { blockSize := 1, numBlocks := 2 }, events := some [] } = some lruReading := by
    decide +kernel
  exact .of_runChecked_mem (fun _ call hcall _ => distinct_readingCalls call hcall) .start hrun

lemma reaches_arcReading : Reaches (ARCOffloadingManager.run id) (fun _ call => call.Distinct)
    (.new { blockSize := 1, numBlocks := 2 } true) arcReading := by
  have hrun : runChecked (ARCOffloadingManager.run id) (fun _ _ => true) readingCalls
      (.new { blockSize := 1, numBlocks := 2 } true) = some arcReading := by
    decide +kernel
  exact .of_runChecked_mem (fun _ call hcall _ => distinct_readingCalls call hcall) .start hrun

/-- There is room for one more block. -/
theorem offloading_accounts_reading :
    LRUOffloadingManager.offloading.Accounts lruReading (.prepareStore [[2]]) ∧
      (ARCOffloadingManager.offloading id).Accounts arcReading (.prepareStore [[2]]) :=
  ⟨(@offloading_accounts id _ (by simp [OffloadingCall.Distinct])).1 lruReading ⟨by decide, by decide⟩,
    ((offloading_accounts (by simp [OffloadingCall.Distinct])).2 arcReading ⟨by decide, by decide⟩).mpr
      (Or.inl (by decide +kernel))⟩

/-- There is no room for two more blocks, but one block is evicted. -/
theorem prepareStore_evicts_silently :
    Reaches (ARCOffloadingManager.run id) (fun _ call => call.Distinct)
      (.new { blockSize := 1, numBlocks := 2 } true) arcReading ∧
    ((arcReading.prepareStore [[2], [3]]).map fun out => (out.1, out.2.t1.map Prod.fst, out.2.events)) =
      .ok (none, [[0]], arcReading.events) ∧
    ¬ (ARCOffloadingManager.offloading id).Accounts arcReading (.prepareStore [[2], [3]]) := by
  refine ⟨reaches_arcReading, by decide +kernel, fun haccounts => ?_⟩
  obtain ⟨output, m', hstore, hunchanged⟩ := haccounts.refuses _ rfl
  have hprepare : arcReading.prepareStore [[2], [3]] = .ok (none, { arcReading with
      backend := { arcReading.backend with allocatedBlocksFreeList := [1] }
      t1 := [([0], ⟨1, 0⟩)]
      b1 := [([1], ())] }) := by
    decide +kernel
  cases hprepare.symm.trans hstore
  exact absurd (congrArg (fun m => m.b1.length) (hunchanged rfl)) (by decide)

/-- The block that makes room is not one that is to be stored. -/
theorem offloading_keepsStored_reading :
    LRUOffloadingManager.offloading.KeepsStored lruReading [[0], [2]] ∧
      (ARCOffloadingManager.offloading id).KeepsStored arcReading [[0], [2]] :=
  ⟨((@offloading_keepsStored id _ (by decide)).1 lruReading ⟨by decide, by decide⟩).mpr
      fun _ => by decide +kernel,
    ((offloading_keepsStored (by decide)).2 arcReading ⟨by decide, by decide⟩).mpr fun _ => by decide +kernel⟩

/-- A block that is to be stored and is already there is evicted to make room for the other one. -/
theorem prepareStore_evicts_own_block :
    Reaches LRUOffloadingManager.run (fun _ call => call.Distinct)
      { backend := { blockSize := 1, numBlocks := 2 }, events := some [] } lruReading ∧
    ((lruReading.prepareStore [[1], [2]]).map fun out => (out.1, out.2.blocks.map Prod.fst)) =
      .ok (some ⟨[[2]], [1], [[1]]⟩, [[0], [2]]) ∧
    Reaches (ARCOffloadingManager.run id) (fun _ call => call.Distinct)
      (.new { blockSize := 1, numBlocks := 2 } true) arcReading ∧
    ((arcReading.prepareStore [[1], [2]]).map fun out => (out.1, out.2.resident.map Prod.fst)) =
      .ok (some ⟨[[2]], [1], [[1]]⟩, [[0], [2]]) :=
  ⟨reaches_lruReading, by decide +kernel, reaches_arcReading, by decide +kernel⟩

end Both

end VllmRuntime
