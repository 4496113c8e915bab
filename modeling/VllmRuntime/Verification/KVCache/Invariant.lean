import VllmRuntime.Model.Coordinator
import VllmRuntime.Verification.KVCache.Managers

/-! # The invariant of all block tables

The tables of all groups together account for every reference to a block. A step for one
request in one group is a step of one table; the others are a frame around it. -/

namespace VllmRuntime

variable {b : BlockRef} {m : SingleTypeKVCacheManager} {r : RequestId} {ms : List SingleTypeKVCacheManager}

open List SingleTypeKVCacheManager

/-- The number of positions (manager, request, index) that hold `b`. -/
def numPositions (ms : List SingleTypeKVCacheManager) (b : BlockRef) : ℕ :=
  (ms.map fun m => m.holds b).sum

/-- The positions that hold `b` and have not been cached. -/
def numFresh (ms : List SingleTypeKVCacheManager) (b : BlockRef) : ℕ :=
  (ms.map fun m => m.fresh b).sum

lemma numFresh_le (ms : List SingleTypeKVCacheManager) (b : BlockRef) :
    numFresh ms b ≤ numPositions ms b :=
  sum_le_sum fun m _ => m.fresh_le_holds b

lemma holds_pos (hb : b ∈ m.blocksOf r) : 0 < m.holds b := by
  rw [m.holds_eq r b]
  exact Nat.add_pos_left (List.count_pos_iff.mpr hb) _

lemma numPositions_pos (hm : m ∈ ms) (hb : b ∈ m.blocksOf r) : 0 < numPositions ms b :=
  lt_of_lt_of_le (holds_pos hb) (single_le_sum (fun _ _ => Nat.zero_le _) _ (mem_map_of_mem hm))

lemma holds_eq_zero (h : ∀ r, b ∉ m.blocksOf r) : m.holds b = 0 := by
  apply dictSum_eq_zero
  intro r blocks hlook
  have hnot := h r
  rw [SingleTypeKVCacheManager.blocksOf, hlook, Option.getD_some] at hnot
  exact List.count_eq_zero.mpr hnot

lemma numPositions_eq_zero (h : ∀ m ∈ ms, ∀ r, b ∉ m.blocksOf r) : numPositions ms b = 0 :=
  sum_eq_zero (List.forall_mem_map.mpr fun m hm => holds_eq_zero (h m hm))

/-- The tables of the managers and the pool. The state of the blocks that wait to be cached is
only tracked where it is needed. -/
structure CacheInv (tracked : Prop) (reserved : List BlockRef)
    (ms : List SingleTypeKVCacheManager) (pool : BlockPool) : Prop where
  null : pool.IsBlock pool.nullBlock ∧ pool.nullBlock ∉ reserved
  free : ∃ l, pool.FreeList reserved l
  agrees : pool.CacheAgrees
  reserved_hash : ∀ b ∈ reserved, pool.blockHash b = none
  real : ∀ m ∈ ms, ∀ r, ∀ b ∈ m.blocksOf r, pool.IsBlock b ∧ b ∉ reserved
  once : ∀ m ∈ ms, ∀ r b, b ≠ pool.nullBlock → (m.blocksOf r).count b ≤ 1
  refCnt : ∀ b, b ≠ pool.nullBlock → pool.refCnt b = numPositions ms b
  caching : tracked → pool.enableCaching = true
  fresh_once : tracked → ∀ b, b ≠ pool.nullBlock → numFresh ms b ≤ 1
  fresh_hash : tracked → ∀ b, b ≠ pool.nullBlock → 0 < numFresh ms b → pool.blockHash b = none

namespace CacheInv

variable {tracked : Prop} {reserved : List BlockRef} {front back ms : List SingleTypeKVCacheManager}
  {m m' : SingleTypeKVCacheManager} {r : RequestId} {pool pool' : BlockPool}

/-! ## One table in the frame of the others -/

/-- The positions outside the table of request `r` in `m`. -/
def frame (front back : List SingleTypeKVCacheManager) (m : SingleTypeKVCacheManager)
    (r : RequestId) (b : BlockRef) : ℕ :=
  numPositions front b + m.holdsElsewhere r b + numPositions back b

def freshFrame (front back : List SingleTypeKVCacheManager) (m : SingleTypeKVCacheManager)
    (r : RequestId) (b : BlockRef) : ℕ :=
  numFresh front b + m.freshElsewhere r b + numFresh back b

lemma numPositions_frame (front back : List SingleTypeKVCacheManager)
    (m : SingleTypeKVCacheManager) (r : RequestId) (b : BlockRef) :
    numPositions (front ++ m :: back) b = frame front back m r b + (m.blocksOf r).count b := by
  have h := m.holds_eq r b
  simp only [numPositions, frame, map_append, map_cons, sum_append, sum_cons]
  omega

lemma numFresh_frame (front back : List SingleTypeKVCacheManager)
    (m : SingleTypeKVCacheManager) (r : RequestId) (b : BlockRef) :
    numFresh (front ++ m :: back) b =
      freshFrame front back m r b + ((m.blocksOf r).drop (m.numCached r)).count b := by
  have h := m.fresh_eq r b
  simp only [numFresh, freshFrame, map_append, map_cons, sum_append, sum_cons]
  omega

lemma focus (h : CacheInv tracked reserved (front ++ m :: back) pool) (r : RequestId) :
    TableInv tracked reserved (frame front back m r) (freshFrame front back m r) (m.blocksOf r)
      (m.numCached r) pool where
  null := h.null
  free := h.free
  agrees := h.agrees
  reserved_hash := h.reserved_hash
  real := h.real m (by simp) r
  once := h.once m (by simp) r
  refCnt b hne := by
    rw [h.refCnt b hne, numPositions_frame front back m r b]
    push_cast
    rfl
  caching := h.caching
  fresh_le b := by
    have hm := m.freshElsewhere_le r b
    have hfront := numFresh_le front b
    have hback := numFresh_le back b
    unfold frame freshFrame
    omega
  fresh_once ht b hne := numFresh_frame front back m r b ▸ h.fresh_once ht b hne
  fresh_hash ht b hne := numFresh_frame front back m r b ▸ h.fresh_hash ht b hne

/-- The tables of the other requests and groups survive a step of one table. -/
lemma step (h : CacheInv tracked reserved (front ++ m :: back) pool)
    (hstep : TableStep tracked reserved (frame front back m r) (freshFrame front back m r) r m pool
      m' pool') : CacheInv tracked reserved (front ++ m' :: back) pool' := by
  have hconfig := hstep.config
  have hframe : ∀ b, frame front back m' r b = frame front back m r b := by
    intro b
    unfold frame
    rw [hstep.changes.holdsElsewhere]
  have hfresh : ∀ b, freshFrame front back m' r b = freshFrame front back m r b := by
    intro b
    unfold freshFrame
    rw [hstep.changes.freshElsewhere]
  -- A table is the changed one or an old one.
  have htables : ∀ m₁ ∈ front ++ m' :: back, ∀ r₁, m₁.blocksOf r₁ = m'.blocksOf r ∨
      ∃ m₂ ∈ front ++ m :: back, m₁.blocksOf r₁ = m₂.blocksOf r₁ := by
    intro m₁ hm₁ r₁
    rw [mem_append, mem_cons] at hm₁
    rcases hm₁ with hm₁ | rfl | hm₁
    · exact Or.inr ⟨m₁, by simp [hm₁], rfl⟩
    · by_cases hr : r₁ = r
      · exact Or.inl (by rw [hr])
      · exact Or.inr ⟨m, by simp, hstep.changes.blocksOf r₁ hr⟩
    · exact Or.inr ⟨m₁, by simp [hm₁], rfl⟩
  refine ⟨hstep.inv.null, hstep.inv.free, hstep.inv.agrees, hstep.inv.reserved_hash, ?_, ?_, ?_,
    hstep.inv.caching, ?_, ?_⟩
  · intro m₁ hm₁ r₁ b hb
    rcases htables m₁ hm₁ r₁ with heq | ⟨m₂, hm₂, heq⟩
    · exact hstep.inv.real b (heq ▸ hb)
    · rw [hconfig.isBlock_iff]
      exact h.real m₂ hm₂ r₁ b (heq ▸ hb)
  · intro m₁ hm₁ r₁ b hne
    rcases htables m₁ hm₁ r₁ with heq | ⟨m₂, hm₂, heq⟩
    · exact heq ▸ hstep.inv.once b hne
    · exact heq ▸ h.once m₂ hm₂ r₁ b (by rwa [← hconfig.nullBlock])
  · intro b hne
    rw [numPositions_frame front back m' r b, hframe, hstep.inv.refCnt b hne]
    push_cast
    rfl
  · intro ht b hne
    rw [numFresh_frame front back m' r b, hfresh]
    exact hstep.inv.fresh_once ht b hne
  · intro ht b hne
    rw [numFresh_frame front back m' r b, hfresh]
    exact hstep.inv.fresh_hash ht b hne

/-- Hashes are reset. -/
lemma evict (h : CacheInv tracked reserved ms pool) {reset : BlockRef → Prop}
    (hevict : BlockPool.Evicted pool pool' reset) : CacheInv tracked reserved ms pool' := by
  have hhash : ∀ b, pool.blockHash b = none → pool'.blockHash b = none := by
    intro b hnone
    by_cases hb : reset b
    · exact hevict.hash_reset b hb
    · rw [hevict.hash_kept b hb, hnone]
  obtain ⟨l, hfree⟩ := h.free
  have hnull := hevict.config.nullBlock
  refine ⟨?_, ⟨l, hfree.congr hevict.config hevict.queue hevict.refCnt⟩, hevict.agrees,
    fun b hb => hhash b (h.reserved_hash b hb), ?_, ?_, ?_, ?_, ?_, ?_⟩
  · rw [hevict.config.isBlock_iff, hnull]
    exact h.null
  · intro m hm r b hb
    rw [hevict.config.isBlock_iff]
    exact h.real m hm r b hb
  · rw [hnull]
    exact h.once
  · rw [hnull, hevict.refCnt]
    exact h.refCnt
  · rw [hevict.config.enableCaching]
    exact h.caching
  · rw [hnull]
    exact h.fresh_once
  · intro ht b hne hpos
    exact hhash b (h.fresh_hash ht b (by rwa [← hnull]) hpos)

end CacheInv

/-! ## Loops over the managers -/

namespace KVCacheCoordinator

variable {tracked : Prop} {reserved : List BlockRef}

/-- A loop in which every round is a step of the table of `r` keeps the invariant. What a round
needs may depend on the index and the manager, and on the pool up to its contents. -/
lemma forManagers_inv {α : Type} {f : ℕ → SingleTypeKVCacheManager → BlockPool →
      Except PyError (α × SingleTypeKVCacheManager × BlockPool)}
    (good : ℕ → SingleTypeKVCacheManager → Prop)
    (done : SingleTypeKVCacheManager → SingleTypeKVCacheManager → Prop) {r : RequestId}
    {pool₀ : BlockPool}
    (hf : ∀ {i m pool a m' pool' others fresh}, BlockPool.SameConfig pool₀ pool → good i m →
      TableInv tracked reserved others fresh (m.blocksOf r) (m.numCached r) pool →
      f i m pool = .ok (a, m', pool') →
      TableStep tracked reserved others fresh r m pool m' pool' ∧ done m m')
    {front ms ms' : List SingleTypeKVCacheManager} {i : ℕ} {pool pool' : BlockPool} {as : List α}
    (hconfig : BlockPool.SameConfig pool₀ pool)
    (hinv : CacheInv tracked reserved (front ++ ms) pool)
    (hgood : ∀ j m, ms[j]? = some m → good (i + j) m)
    (h : forManagers f i ms pool = .ok (as, ms', pool')) :
    CacheInv tracked reserved (front ++ ms') pool' ∧ BlockPool.SameConfig pool pool' ∧
      List.Forall₂ (fun m m' => Changes m m' r ∧ done m m') ms ms' := by
  induction ms generalizing front i pool as ms' with
  | nil =>
    obtain ⟨-, rfl, rfl⟩ : as = [] ∧ ms' = [] ∧ pool = pool' := by
      simpa [forManagers, eq_comm] using h
    exact ⟨hinv, BlockPool.SameConfig.refl _, .nil⟩
  | cons m ms ih =>
    rw [forManagers] at h
    obtain ⟨⟨a, m₁, pool₁⟩, hm, h⟩ := bind_eq_ok h
    obtain ⟨⟨as₁, ms₁, pool₂⟩, hrest, h⟩ := bind_eq_ok h
    obtain ⟨-, rfl, rfl⟩ : a :: as₁ = as ∧ m₁ :: ms₁ = ms' ∧ pool₂ = pool' := by
      simpa using Except.ok.inj h
    obtain ⟨hstep, hdone⟩ := hf hconfig (hgood 0 m rfl) (hinv.focus r) hm
    have hinv₁ := hinv.step hstep
    rw [append_cons] at hinv₁
    obtain ⟨hinv₂, hconfig₂, hall⟩ := ih (hconfig.trans hstep.config) hinv₁ (by
      intro j m' hj
      have := hgood (j + 1) m' (by simpa using hj)
      rwa [show i + (j + 1) = i + 1 + j by omega] at this) hrest
    rw [← append_cons] at hinv₂
    exact ⟨hinv₂, hstep.config.trans hconfig₂, .cons ⟨hstep.changes, hdone⟩ hall⟩

lemma forall_of_forall₂ {P : SingleTypeKVCacheManager → Prop} {ms ms' : List SingleTypeKVCacheManager}
    (h : List.Forall₂ (fun _ m' => P m') ms ms') : ∀ m ∈ ms', P m := by
  induction h with
  | nil => simp
  | cons hm _ ih => exact forall_mem_cons.mpr ⟨hm, ih⟩

/-- What every round keeps of the pool, the loop keeps, and what every round does to its manager. -/
lemma forManagers_keeps {α : Type} {f : ℕ → SingleTypeKVCacheManager → BlockPool →
      Except PyError (α × SingleTypeKVCacheManager × BlockPool)} {ms ms' : List SingleTypeKVCacheManager} {i : ℕ}
    {pool pool' : BlockPool} {as : List α} (P : BlockPool → Prop)
    (done : SingleTypeKVCacheManager → SingleTypeKVCacheManager → Prop)
    (hf : ∀ i m pool a m' pool', m ∈ ms → P pool → f i m pool = .ok (a, m', pool') → P pool' ∧ done m m')
    (hpool : P pool) (h : forManagers f i ms pool = .ok (as, ms', pool')) :
    P pool' ∧ List.Forall₂ done ms ms' := by
  induction ms generalizing i pool as ms' with
  | nil =>
    cases h
    exact ⟨hpool, .nil⟩
  | cons m ms ih =>
    obtain ⟨⟨a, m₁, pool₁⟩, hm, h⟩ := bind_eq_ok h
    obtain ⟨⟨as₁, ms₁, pool₂⟩, hrest, h⟩ := bind_eq_ok h
    cases h
    obtain ⟨hpool₁, hdone⟩ := hf i m pool a m₁ pool₁ mem_cons_self hpool hm
    obtain ⟨hpool₂, hall⟩ := ih (fun i m pool a m' pool' hmem => hf i m pool a m' pool' (mem_cons_of_mem _ hmem))
      hpool₁ hrest
    exact ⟨hpool₂, .cons hdone hall⟩

lemma overManagers_keeps {α : Type} {f : ℕ → SingleTypeKVCacheManager → BlockPool →
      Except PyError (α × SingleTypeKVCacheManager × BlockPool)} {c c' : KVCacheCoordinator} {as : List α}
    (P : BlockPool → Prop) (done : SingleTypeKVCacheManager → SingleTypeKVCacheManager → Prop)
    (hf : ∀ i m pool a m' pool', m ∈ c.singleTypeManagers → P pool → f i m pool = .ok (a, m', pool') →
      P pool' ∧ done m m') (hpool : P c.blockPool) (h : c.overManagers f = .ok (as, c')) :
    P c'.blockPool ∧ List.Forall₂ done c.singleTypeManagers c'.singleTypeManagers := by
  obtain ⟨⟨as', ms', pool'⟩, hloop, hret⟩ := bind_eq_ok h
  cases hret
  exact forManagers_keeps P done hf hpool hloop

end KVCacheCoordinator

end VllmRuntime
