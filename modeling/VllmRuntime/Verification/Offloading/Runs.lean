import VllmRuntime.Verification.Offloading.Victims

/-! # Runs of the ARC manager

The lists stay disjoint, the blocks are partitioned and the ghost lists bounded, unless a hash is touched whose
store is pending, a store of blocks that are ready fails, or a store gives up when the ghost lists have no room
for the blocks that it has evicted. -/

namespace VllmRuntime

open List

namespace ARCOffloadingManager

variable {m : ARCOffloadingManager} {numBlocks : ℕ} {loads : BlockHash → ℕ} {blockHash : BlockHash}
  {block : CPUBlockStatus} {blockHashes : List BlockHash} {fromT1 : Bool}

/-! ## Ghost lists -/

/-- The ghost lists have room for all blocks that can be evicted. -/
def GhostRoom (m : ARCOffloadingManager) : Prop :=
  m.b1.length + m.evictableT1.length ≤ m.cacheCapacity ∧ m.b2.length + (unused m.t2).length ≤ m.cacheCapacity

namespace GhostRoom

lemma bounded (h : m.GhostRoom) : m.Bounded := by
  obtain ⟨h1, h2⟩ := h
  exact ⟨by omega, by omega⟩

/-- What a ghost list gains, the blocks that can be evicted lose. -/
lemma evictBlock (h : m.GhostRoom) (hm : m.WellFormed)
    (hblock : m.blockToEvict = some (fromT1, blockHash, block)) :
    (m.evictBlock fromT1 blockHash block).GhostRoom := by
  obtain ⟨h1, h2⟩ := h
  have hle (b : OrderedDict BlockHash Unit) : (dictSet b blockHash ()).length ≤ b.length + 1 := by
    rw [← length_map Prod.fst, map_fst_dictSet]
    split <;> simp
  have hle1 := hle m.b1
  have hle2 := hle m.b2
  obtain ⟨rfl, -, hcons⟩ | ⟨rfl, -, hnil, hcons⟩ := evictable_parts hm hblock
  · rw [hcons, length_cons] at h1
    refine ⟨?_, h2⟩
    change ((dictSet m.b1 blockHash ()).length : ℤ) + _ ≤ m.cacheCapacity
    omega
  · rw [hcons, length_cons] at h2
    refine ⟨h1, ?_⟩
    change ((dictSet m.b2 blockHash ()).length : ℤ) + (unused (dictPop m.t2 blockHash)).length ≤ m.cacheCapacity
    omega

lemma evictLoop (h : m.GhostRoom) (hm : m.WellFormed) (n : ℕ) : (evictLoop n m).2.GhostRoom := by
  induction n generalizing m with
  | zero => exact h
  | succ n ih =>
    rw [ARCOffloadingManager.evictLoop]
    cases hblock : m.blockToEvict with
    | none => exact h
    | some e => exact ih (h.evictBlock hm hblock) (hm.evictBlock hblock)

end GhostRoom

/-- `prepare_store` gives each new hash a block of its own, and keeps the blocks that are in use. -/
lemma prepareStore_isOk (hinv : m.Inv numBlocks loads) (hdistinct : blockHashes.Nodup) :
    ∃ output m', m.prepareStore blockHashes = .ok (output, m') ∧ m'.Inv numBlocks loads ∧
      (m.Bounded → (m.evictable.length < m.numBlocksToEvict blockHashes → m.GhostRoom) → m'.Bounded) ∧
      ∀ x block, m.resident.lookup x = some block → block.refCnt ≠ 0 →
        m'.resident.lookup x = some block := by
  have hnodup : (m.newHashes blockHashes).Nodup := hdistinct.filter _
  have hnew : ∀ x ∈ m.newHashes blockHashes, x ∉ m.resident.map Prod.fst := by
    intro x hx
    rw [newHashes, mem_filter, decide_eq_true_eq] at hx
    rw [resident, map_append]
    exact not_mem_append hx.2.1 hx.2.2
  unfold prepareStore
  dsimp only
  rw [← newHashes, ← numBlocksToEvict]
  split
  · exact ⟨_, m, rfl, hinv, fun hbounded _ => hbounded, fun _ _ hx _ => hx⟩
  · cases hloop : evictLoop (m.numBlocksToEvict blockHashes) m with
    | mk evicted m₁ =>
      obtain ⟨hevicts, hfree⟩ := evictLoop_evicts hinv hloop
      cases evicted with
      | none =>
        refine ⟨none, m₁, rfl, hevicts.inv, fun _ hgives => ?_, hevicts.used⟩
        have hlt : m.evictable.length < m.numBlocksToEvict blockHashes := by
          by_contra hle
          have hsome := (evictLoop_spec hinv.wellFormed (m.numBlocksToEvict blockHashes)).1
          rw [hloop, if_pos (not_lt.mp hle)] at hsome
          cases hsome
        have hroom := (hgives hlt).evictLoop hinv.wellFormed (m.numBlocksToEvict blockHashes)
        rw [hloop] at hroom
        exact hroom.bounded
      | some evicted =>
        have hfree := hfree rfl
        have htrim := hevicts.inv.trim
        have henough : ((m.newHashes blockHashes).length : ℤ) ≤ m₁.backend.getNumFreeBlocks := by
          rw [hfree, numBlocksToEvict]
          omega
        obtain ⟨blocks, backend, hallocate⟩ := CPUBackend.allocateBlocks_isOk
          hevicts.inv.partitions.allocated henough
        have hlength := (CPUBackend.allocateBlocks_eq_ok hallocate).2.1
        obtain ⟨hinv', heq⟩ := htrim.insert (m₁.backend.recordEvent m₁.events evicted true) hallocate
          hnodup
          (fun x hx hmem => hnew x hx (hevicts.keys x hmem))
        dsimp only
        rw [hallocate]
        simp only [bind, Except.bind, pure, Except.pure, hlength, decide_true, pyAssert_true]
        refine ⟨_, _, rfl, hinv', fun _ _ => ?_, fun x block hx hused => ?_⟩
        · have hcapacity : 0 ≤ m₁.cacheCapacity := by
            rw [hevicts.inv.capacity]
            exact Nat.cast_nonneg _
          rw [heq]
          have hb1 := length_trimGhosts_le hcapacity m₁.b1
          have hb2 := length_trimGhosts_le hcapacity m₁.b2
          have hle (b : OrderedDict BlockHash Unit) :
              (b.filter fun e => e.1 ∉ m.newHashes blockHashes).length ≤ b.length :=
            length_filter_le ..
          have hle1 := hle (m₁.trimGhosts m₁.b1)
          have hle2 := hle (m₁.trimGhosts m₁.b2)
          constructor
          · dsimp only
            omega
          · dsimp only
            omega
        · have hkept := hevicts.used x block hx hused
          rw [heq, resident]
          rw [resident, lookup_append] at hkept
          dsimp only
          rw [lookup_append, lookup_append]
          cases ht1 : m₁.t1.lookup x with
          | some block' =>
            rw [ht1] at hkept
            exact hkept
          | none =>
            rw [ht1, Option.none_or] at hkept
            have hout : (List.zip (m.newHashes blockHashes) blocks).lookup x = none := by
              rw [lookup_eq_none, map_fst_zip (le_of_eq hlength.symm)]
              exact fun hmem => hnew x hmem (key_mem_of_lookup hx)
            rw [hout, hkept]
            rfl

/-! ## Runs -/

/-- The four lists are disjoint, the block ids of `t1` and `t2` and the free ones are all ids, each of
them once, and the ghost lists are within the capacity. -/
structure Sound (numBlocks : ℕ) (m : ARCOffloadingManager) : Prop where
  disjoint : [m.t1.map Prod.fst, m.t2.map Prod.fst, m.b1.map Prod.fst,
    m.b2.map Prod.fst].Pairwise List.Disjoint
  partition : ((m.t1.map fun e => e.2.blockId) ++ (m.t2.map fun e => e.2.blockId) ++
    m.backend.freeIds) ~ List.range numBlocks
  ghosts : m.Bounded

lemma Inv.sound (h : m.Inv numBlocks loads) (hbounded : m.Bounded) : m.Sound numBlocks := by
  refine ⟨?_, ?_, hbounded⟩
  · have hnodup := h.nodup
    rw [hashes, resident, map_append, append_assoc, nodup_append] at hnodup
    obtain ⟨-, hrest, h1⟩ := hnodup
    obtain ⟨-, hrest, h2⟩ := nodup_append.mp hrest
    obtain ⟨-, -, h3⟩ := nodup_append.mp hrest
    simp only [mem_append] at h1 h2
    simp only [pairwise_cons, mem_cons, not_mem_nil, or_false, forall_eq_or_imp,
      forall_eq, List.Pairwise.nil, and_true, false_imp_iff, implies_true]
    refine ⟨⟨?_, ?_, ?_⟩, ⟨?_, ?_⟩, ?_⟩
    · exact fun x hx hx' => h1 x hx x (Or.inl hx') rfl
    · exact fun x hx hx' => h1 x hx x (Or.inr (Or.inl hx')) rfl
    · exact fun x hx hx' => h1 x hx x (Or.inr (Or.inr hx')) rfl
    · exact fun x hx hx' => h2 x hx x (Or.inl hx') rfl
    · exact fun x hx hx' => h2 x hx x (Or.inr hx') rfl
    · exact fun x hx hx' => h3 x hx x hx' rfl
  · have hpart := h.partitions.perm
    rwa [h.total, resident, map_append] at hpart

end ARCOffloadingManager

/-- The manager with the number of loads of each hash that are in flight. -/
structure ARCRun where
  manager : ARCOffloadingManager
  loads : BlockHash → ℕ := fun _ => 0

namespace ARCRun

open ARCOffloadingManager

/-- The loads in flight after a call. -/
def loadsAfter (loads : BlockHash → ℕ) : OffloadingCall → BlockHash → ℕ
  | .prepareLoad blockHashes => fun x => loads x + blockHashes.count x
  | .completeLoad blockHashes => fun x => loads x - blockHashes.count x
  | _ => loads

def run (round : ℚ → ℚ) (call : OffloadingCall) (s : ARCRun) : Except PyError ARCRun := do
  let manager ← ARCOffloadingManager.run round call s.manager
  return { manager, loads := loadsAfter s.loads call }

/-- What is documented: blocks to load are offloaded and ready, loads that complete were prepared, and
the hashes to store are distinct. -/
def Documented (s : ARCRun) : OffloadingCall → Prop
  | .prepareLoad blockHashes => ∀ x ∈ blockHashes, ∃ block,
      s.manager.getBlock x = some block ∧ block.isReady = true
  | .completeLoad blockHashes => ∀ x, blockHashes.count x ≤ s.loads x
  | .prepareStore blockHashes => blockHashes.Nodup
  | _ => True

/-- The calls that go wrong: a hash is touched whose store is pending, a store fails of blocks that
are ready, a store for which not enough blocks can be evicted would make a ghost list too long, and the counter
of a block overflows. -/
def HitsDefect (s : ARCRun) : OffloadingCall → Prop
  | .touch blockHashes => ∃ x ∈ blockHashes, ∃ block,
      s.manager.t1.lookup x = some block ∧ block.isReady = false
  | .completeStore blockHashes success => success = false ∧ ∃ x ∈ blockHashes, ∃ block,
      s.manager.getBlock x = some block ∧ block.isReady = true
  | .prepareStore blockHashes => s.manager.evictable.length < s.manager.numBlocksToEvict blockHashes ∧
      ¬ s.manager.GhostRoom
  | .prepareLoad blockHashes => ∃ x, 2 ^ 31 ≤ s.loads x + blockHashes.count x
  | _ => False

/-- The call returns, and a block that was ready is still there unless it was evicted, which happens
to blocks that are not in use. -/
def Returns (round : ℚ → ℚ) (s : ARCRun) (call : OffloadingCall) : Prop :=
  ∃ m', ARCOffloadingManager.run round call s.manager = .ok m' ∧
    ∀ x block, s.manager.getBlock x = some block → block.isReady = true →
      (m'.getBlock x).isSome ∨ block.refCnt = 0 ∧ ∃ blockHashes, call = .prepareStore blockHashes

variable {s s' : ARCRun} {round : ℚ → ℚ} {numBlocks : ℕ}

lemma isSome_of_keeps {m' : ARCOffloadingManager} (hinv : s.manager.Inv numBlocks s.loads)
    (h : Keeps s.manager m') {x : BlockHash} {block : CPUBlockStatus}
    (hx : s.manager.getBlock x = some block) : (m'.getBlock x).isSome := by
  rw [getBlock_eq] at hx ⊢
  have hlookup := h.lookup hinv x
  rw [hx] at hlookup
  obtain ⟨block', hblock', -⟩ := Option.map_eq_some_iff.mp hlookup
  rw [hblock']
  rfl

/-- A call that does not go wrong returns, and keeps the invariant. -/
lemma step (round : ℚ → ℚ) {call : OffloadingCall} (hinv : s.manager.Inv numBlocks s.loads)
    (hbounded : s.manager.Bounded) (hdoc : s.Documented call) (hok : ¬ s.HitsDefect call) :
    ∃ m', ARCOffloadingManager.run round call s.manager = .ok m' ∧
      m'.Inv numBlocks (loadsAfter s.loads call) ∧ m'.Bounded ∧
      ∀ x block, s.manager.getBlock x = some block → block.isReady = true →
        (m'.getBlock x).isSome ∨ block.refCnt = 0 ∧ ∃ blockHashes, call = .prepareStore blockHashes := by
  cases call with
  | lookup blockHashes =>
    exact ⟨s.manager, rfl, hinv, hbounded, fun x block hx _ => Or.inl (by rw [hx]; rfl)⟩
  | prepareLoad blockHashes =>
    obtain ⟨blockIds, m', hm', hkeeps, hinv'⟩ := prepareLoad_isOk hinv
      (fun x hx => by simpa only [getBlock_eq] using hdoc x hx)
      (fun x => not_le.mp fun hle => hok ⟨x, hle⟩)
    refine ⟨m', ?_, hinv', hkeeps.bounded hbounded,
      fun x block hx _ => Or.inl (isSome_of_keeps hinv hkeeps hx)⟩
    rw [ARCOffloadingManager.run, hm']
    rfl
  | touch blockHashes =>
    obtain ⟨m', hm', hkeeps, hinv'⟩ := touch_isOk round hinv
      fun x hx block hblock => by
        by_contra hready
        exact hok ⟨x, hx, block, hblock, by simpa using hready⟩
    exact ⟨m', hm', hinv', hkeeps.bounded hbounded,
      fun x block hx _ => Or.inl (isSome_of_keeps hinv hkeeps hx)⟩
  | completeLoad blockHashes =>
    obtain ⟨m', hm', hkeeps, hinv'⟩ := completeLoad_isOk hinv hdoc
    exact ⟨m', hm', hinv', hkeeps.bounded hbounded,
      fun x block hx _ => Or.inl (isSome_of_keeps hinv hkeeps hx)⟩
  | prepareStore blockHashes =>
    obtain ⟨output, m', hm', hinv', hbounded', hused⟩ := prepareStore_isOk hinv hdoc
    refine ⟨m', ?_, hinv', hbounded' hbounded fun hlt => ?_, fun x block hx _ => ?_⟩
    · rw [ARCOffloadingManager.run, hm']
      rfl
    · by_contra hroom
      exact hok ⟨hlt, hroom⟩
    · by_cases hunused : block.refCnt = 0
      · exact Or.inr ⟨hunused, blockHashes, rfl⟩
      · rw [getBlock_eq] at hx ⊢
        rw [hused x block hx hunused]
        exact Or.inl rfl
  | completeStore blockHashes success =>
    cases success with
    | true =>
      obtain ⟨hkeeps, hinv'⟩ := storeBlocks_keeps hinv blockHashes
      have hkeeps : Keeps s.manager (s.manager.completeStore blockHashes true) :=
        ⟨hkeeps.backend, hkeeps.capacity, hkeeps.placement, hkeeps.b1, hkeeps.b2⟩
      exact ⟨_, rfl, ⟨hinv'.total, hinv'.capacity, hinv'.nodup, hinv'.partitions, hinv'.counts⟩,
        hkeeps.bounded hbounded, fun x block hx _ => Or.inl (isSome_of_keeps hinv hkeeps hx)⟩
    | false =>
      obtain ⟨hinv', hbounded', hready⟩ := foldl_dropBlock blockHashes hinv
        fun x hx block hblock => by
          by_contra hready
          exact hok ⟨rfl, x, hx, block, by rwa [getBlock_eq], by simpa using hready⟩
      refine ⟨_, rfl, hinv', hbounded' hbounded, fun x block hx hisReady => Or.inl ?_⟩
      rw [getBlock_eq] at hx ⊢
      have hkept := hready x block hx hisReady
      rw [← Option.isSome_iff_exists.mpr ⟨block, hkept⟩]
      rfl
  | takeEvents =>
    exact ⟨_, rfl, ⟨hinv.total, hinv.capacity, hinv.nodup, hinv.partitions, hinv.counts⟩, hbounded,
      fun x block hx _ => Or.inl (Option.isSome_iff_exists.mpr ⟨block, hx⟩)⟩

/-- The manager before the first call. -/
def new (blockSize numBlocks : ℕ) (enableEvents : Bool) : ARCRun where
  manager := .new { blockSize, numBlocks } enableEvents

lemma inv_new (blockSize numBlocks : ℕ) (enableEvents : Bool) :
    (new blockSize numBlocks enableEvents).manager.Inv numBlocks fun _ => 0 := by
  refine ⟨rfl, ?_, nodup_nil, .new blockSize numBlocks, fun x => rfl⟩
  simp [new, ARCOffloadingManager.new, CPUBackend.getNumFreeBlocks]

/-- In every run without a call that goes wrong, the manager is sound and every documented call that
does not go wrong returns. -/
theorem sound_of_noDefect {blockSize numBlocks : ℕ} {enableEvents : Bool}
    (h : Reaches (run round) (fun s call => s.Documented call ∧ ¬ s.HitsDefect call)
      (new blockSize numBlocks enableEvents) s) :
    s.manager.Sound numBlocks ∧
      ∀ call, s.Documented call → ¬ s.HitsDefect call → Returns round s call := by
  have hinv : s.manager.Inv numBlocks s.loads ∧ s.manager.Bounded := by
    refine h.invariant (P := fun s => s.manager.Inv numBlocks s.loads ∧ s.manager.Bounded)
      ⟨inv_new blockSize numBlocks enableEvents, ?_⟩ fun s call s' hs hcall hrun => ?_
    · simp [Bounded, new, ARCOffloadingManager.new, CPUBackend.getNumFreeBlocks]
    · obtain ⟨m', hm', hinv', hbounded', -⟩ := step round hs.1 hs.2 hcall.1 hcall.2
      rw [run, hm'] at hrun
      cases Except.ok.inj hrun
      exact ⟨hinv', hbounded'⟩
  refine ⟨hinv.1.sound hinv.2, fun call hdoc hok => ?_⟩
  obtain ⟨m', hm', -, -, hready⟩ := step round hinv.1 hinv.2 hdoc hok
  exact ⟨m', hm', hready⟩

/-- Stores succeed, and what is touched is ready. -/
def calmCheck (s : ARCRun) : OffloadingCall → Bool
  | .lookup _ | .takeEvents => true
  | .prepareStore blockHashes => blockHashes.Nodup &&
      s.manager.numBlocksToEvict blockHashes ≤ s.manager.evictable.length
  | .completeStore _ success => success
  | .touch blockHashes => blockHashes.all fun x => (s.manager.t1.lookup x).all (·.isReady)
  | .prepareLoad _ | .completeLoad _ => false

lemma calmCheck_allowed (s : ARCRun) (call : OffloadingCall) (h : calmCheck s call = true) :
    s.Documented call ∧ ¬ s.HitsDefect call := by
  cases call with
  | lookup => exact ⟨trivial, fun h => h⟩
  | takeEvents => exact ⟨trivial, fun h => h⟩
  | prepareLoad => cases h
  | completeLoad => cases h
  | prepareStore blockHashes =>
    simp only [calmCheck, Bool.and_eq_true, decide_eq_true_eq] at h
    exact ⟨h.1, fun hdefect => absurd hdefect.1 (not_lt.mpr h.2)⟩
  | completeStore blockHashes success =>
    exact ⟨trivial, fun hdefect => Bool.false_ne_true (hdefect.1.symm.trans h)⟩
  | touch blockHashes =>
    refine ⟨trivial, fun ⟨x, hx, block, hblock, hready⟩ => ?_⟩
    have hall := all_eq_true.mp h x hx
    rw [hblock, Option.all_some, hready] at hall
    cases hall

/-- A block is touched twice, and evicted for another one. -/
def calmCalls : List OffloadingCall :=
  [.prepareStore [[0]], .completeStore [[0]] true, .touch [[0], [0]], .prepareStore [[1]]]

theorem sound_of_noDefect_calmCalls : ∃ s,
    Reaches (run id) (fun s call => s.Documented call ∧ ¬ s.HitsDefect call) (new 1 1 false) s ∧
    s.manager.Sound 1 ∧ s.manager.t1.map Prod.fst = [[1]] ∧ s.manager.b2.map Prod.fst = [[0]] := by
  have hrun : (runChecked (run id) calmCheck calmCalls (new 1 1 false)).map (fun s =>
      (s.manager.t1.map Prod.fst, s.manager.b2.map Prod.fst)) = some ([[1]], [[0]]) := by
    decide +kernel
  obtain ⟨s, hs, hlists⟩ := Option.map_eq_some_iff.mp hrun
  have hreaches := Reaches.of_runChecked calmCheck_allowed .start hs
  exact ⟨s, hreaches, (sound_of_noDefect hreaches).1, (Prod.mk.inj hlists).1, (Prod.mk.inj hlists).2⟩

/-- Touching a hash whose store is pending takes it out of `t1` and then looks for it there. -/
theorem touch_pending_raises : ∃ s,
    Reaches (run id) (fun s call => s.Documented call) (new 1 1 false) s ∧
    s.Documented (.touch [[0]]) ∧
    ARCOffloadingManager.run id (.touch [[0]]) s.manager = .error .keyError := by
  have hrun : (runChecked (run id) calmCheck [.prepareStore [[0]]] (new 1 1 false)).map (fun s =>
      ARCOffloadingManager.run id (.touch [[0]]) s.manager) = some (.error .keyError) := by
    decide +kernel
  obtain ⟨s, hs, herror⟩ := Option.map_eq_some_iff.mp hrun
  exact ⟨s, .of_runChecked (fun s call h => (calmCheck_allowed s call h).1) .start hs, trivial, herror⟩

end ARCRun

end VllmRuntime
