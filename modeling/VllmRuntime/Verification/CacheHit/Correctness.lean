import VllmRuntime.Verification.BlockPool.Cache
import VllmRuntime.Verification.CacheHit.Hybrid

/-! # The hit of the hybrid coordinator

The hit lists of all groups agree with the returned length exactly when the types after the
second full attention type accept what the first two accept: only the first full attention
type is truncated. With one full attention type the single round of the simple case relies on
the chunk of chunked local attention. -/

namespace VllmRuntime.KVCacheCoordinator

open List

variable {i maxLength hitLength dcpWorldSize pcpWorldSize j : ℕ} {specs : List KVCacheSpec}
  {groups fulls others : List AttentionGroup} {enableCaching : Bool} {hits : HitBlocks}
  {g : AttentionGroup} {hashBlockSize : ℕ} {ids groupIds : List ℕ} {row : BlockRow} {pool : BlockPool}
  {blocks : List BlockRef} {f : AttentionGroup}

open CacheHit

/-! ## The specification -/

/-- The blocks of group `groupId` are a hit of `hitLength` tokens: as many as the length says,
and each that is still read is the cached block of the hash at its index. -/
structure GroupHit (c : KVCacheCoordinator) (blockHashes : List BlockHash) (groupId : ℕ)
    (spec : KVCacheSpec) (hitLength : ℕ) (blocks : List BlockRef) : Prop where
  length : blocks.length = hitLength / spec.blockSize
  cached : ∀ idx : ℕ, spec.getNumSkippedTokens hitLength / spec.blockSize ≤ (idx : ℤ) →
    idx < blocks.length → ∃ hash b, (c.blockHashesFor blockHashes spec)[idx]? = some hash ∧
      blocks[idx]? = some b ∧ c.blockPool.cachedBlockHashToBlock.getOneBlock
        (makeBlockHashWithGroupId hash groupId) = some b

/-- What `find_longest_cache_hit` should return for the groups `specs`. -/
structure IsCacheHit (c : KVCacheCoordinator) (specs : List KVCacheSpec) (lcmBlockSize : ℕ)
    (blockHashes : List BlockHash) (maxCacheHitLength : ℕ) (blocks : List (List BlockRef))
    (hitLength : ℕ) : Prop where
  dvd : lcmBlockSize ∣ hitLength
  le : hitLength ≤ maxCacheHitLength
  groups : ∀ i spec, specs[i]? = some spec →
    ∃ blks, blocks[i]? = some blks ∧ GroupHit c blockHashes i spec hitLength blks

/-- The token `start` is at a block boundary, in a cached block, or in a block that starts at a
chunk boundary too. -/
def StartCached (pool : BlockPool) (hashes : List BlockHash) (ids : List ℕ)
    (blockSize chunkSize start : ℕ) : Prop :=
  start % blockSize = 0 ∨ (rowAt pool hashes ids (start / blockSize)).isSome ∨
    start / blockSize * blockSize % chunkSize = 0

/-- For chunked local attention, the start of the chunk that the scan looks up. -/
def ChunkStartCached (c : KVCacheCoordinator) (blockHashes : List BlockHash) (g : AttentionGroup)
    (length : ℕ) : Prop :=
  match g.spec with
  | .chunkedLocalAttention attention chunkSize =>
    StartCached c.blockPool (c.blockHashesFor blockHashes g.spec) g.groupIds attention.blockSize
      chunkSize (length / chunkSize * chunkSize)
  | _ => True

/-- The condition on the attention groups under which the hit lists agree with the length. -/
def LengthsAgree (c : KVCacheCoordinator) (blockHashes : List BlockHash) (lcmBlockSize : ℕ)
    (maxLength : ℕ) : List AttentionGroup → Prop
  | [f, g] => f.spec.isFullAttention = true →
      ChunkStartCached c blockHashes g (accept c blockHashes lcmBlockSize maxLength f)
  | f :: g :: rest => f.spec.isFullAttention = true → g.spec.isFullAttention = true →
      ∀ g' ∈ rest, accept c blockHashes lcmBlockSize
        (accept c blockHashes lcmBlockSize (accept c blockHashes lcmBlockSize maxLength f) g) g' =
          accept c blockHashes lcmBlockSize (accept c blockHashes lcmBlockSize maxLength f) g
  | _ => True

/-! ## From rows to blocks -/

lemma rowAt_getElem? {hashes : List BlockHash} {idx : ℕ} (h : rowAt pool hashes ids idx = some row)
    (hi : ids[j]? = some i) :
    ∃ hash b, hashes[idx]? = some hash ∧ row[j]? = some b ∧
      pool.cachedBlockHashToBlock.getOneBlock (makeBlockHashWithGroupId hash i) = some b := by
  obtain ⟨hash, hhash, hrow⟩ := Option.bind_eq_some_iff.mp h
  obtain ⟨b, hb, hget⟩ := getElem?_of_forall₂ (mapM_eq_some hrow) hi
  exact ⟨hash, b, hhash, hb, hget⟩

variable {c : KVCacheCoordinator} {blockHashes : List BlockHash} {lcmBlockSize : ℕ}

/-- The recorded columns of rows are hits if the rows that are read are cached. -/
lemma groupHit_of_rows {rows : List BlockRow} (hlen : rows.length = hitLength / g.spec.blockSize)
    (hneeded : NeededCached c.blockPool (c.blockHashesFor blockHashes g.spec) g.groupIds g.spec
      hitLength rows) (hi : g.groupIds[j]? = some i) :
    GroupHit c blockHashes i g.spec hitLength
      (rows.map fun row => row.getD j c.blockPool.nullBlock) := by
  refine ⟨by simpa using hlen, ?_⟩
  intro idx hidx hlt
  rw [length_map] at hlt
  obtain ⟨row, hrow, hget⟩ := hneeded idx hidx hlt
  obtain ⟨hash, b, hhash, hb, hcached⟩ := rowAt_getElem? hrow hi
  refine ⟨hash, b, hhash, ?_, hcached⟩
  simp [hget, hb]

/-! ## Truncation -/

lemma foldl_modify_of_not_mem (n : ℕ) (hits : HitBlocks) (h : i ∉ groupIds) :
    (groupIds.foldl (fun hits groupId => hits.modify groupId (Option.map (List.take n)))
      hits)[i]? = hits[i]? :=
  foldlRecOn (motive := fun hits' => hits'[i]? = hits[i]?) _ _ rfl fun _ heq _ hid =>
    (getElem?_modify_ne _ _ (ne_of_mem_of_not_mem hid h)).trans heq

lemma foldl_modify_of_mem (hnodup : groupIds.Nodup) (n : ℕ) (hits : HitBlocks) (h : i ∈ groupIds)
    (hblocks : hits[i]? = some (some blocks)) :
    (groupIds.foldl (fun hits groupId => hits.modify groupId (Option.map (List.take n)))
      hits)[i]? = some (some (blocks.take n)) := by
  induction groupIds generalizing hits with
  | nil => simp at h
  | cons id ids ih =>
    rw [nodup_cons] at hnodup
    rw [foldl_cons]
    by_cases hid : i = id
    · subst hid
      rw [foldl_modify_of_not_mem n _ hnodup.1, getElem?_modify_eq, hblocks]
      rfl
    · have hmem : i ∈ ids := (mem_cons.mp h).resolve_left hid
      apply ih hnodup.2 _ hmem
      rw [getElem?_modify_ne _ _ (Ne.symm hid), hblocks]

/-! ## Construction of the coordinator -/

lemma newManagers_length {pool' : BlockPool} {ms : List SingleTypeKVCacheManager}
    (h : newManagers enableCaching dcpWorldSize pcpWorldSize i specs pool = .ok (ms, pool')) :
    ms.length = specs.length := by
  induction specs generalizing i pool pool' ms with
  | nil =>
    rw [newManagers] at h
    cases h
    rfl
  | cons spec specs ih =>
    rw [newManagers] at h
    obtain ⟨⟨m, pool₁⟩, -, h⟩ := bind_eq_ok h
    obtain ⟨⟨ms', pool₂⟩, hrest, hret⟩ := bind_eq_ok h
    cases hret
    simpa using ih hrest

lemma coordinatorKind_hybrid
    (h : coordinatorKind specs enableCaching dcpWorldSize pcpWorldSize hashBlockSize =
      .ok (.hybrid groups lcmBlockSize)) :
    groups = fullAttentionFirst (splitKvCacheGroups specs) ∧
      lcmBlockSize = VllmRuntime.lcmBlockSize (splitKvCacheGroups specs) ∧
      1 < (splitKvCacheGroups specs).length ∧ ∀ spec ∈ specs, hashBlockSize ∣ spec.blockSize := by
  unfold coordinatorKind at h
  split at h
  · cases h
  · obtain ⟨_, -, h⟩ := bind_eq_ok h
    cases h
  · obtain ⟨_, hall, h⟩ := bind_eq_ok h
    obtain ⟨_, -, h⟩ := bind_eq_ok h
    obtain ⟨_, -, h⟩ := bind_eq_ok h
    obtain ⟨_, hmany, h⟩ := bind_eq_ok h
    obtain ⟨rfl, rfl⟩ := CoordinatorKind.hybrid.inj (Except.ok.inj h)
    refine ⟨rfl, rfl, by simpa using pyAssert_eq_ok.mp hmany, ?_⟩
    have hdvd := all_eq_true.mp (pyAssert_eq_ok.mp hall)
    intro spec hspec
    exact Nat.dvd_of_mod_eq_zero (by simpa using hdvd spec hspec)

lemma length_blockHashListWithBlockSize (hashes : List BlockHash)
    (hashBlockSize targetBlockSize : ℕ) :
    (blockHashListWithBlockSize hashes hashBlockSize targetBlockSize).length =
      hashes.length / (targetBlockSize / hashBlockSize) := by
  simp [blockHashListWithBlockSize]

/-- Hashes that cover the length at the hash granularity cover it for every group. -/
lemma blockHashesFor_covers {spec : KVCacheSpec} (hdvd : c.hashBlockSize ∣ spec.blockSize)
    (hcover : maxLength / c.hashBlockSize ≤ blockHashes.length) :
    maxLength / spec.blockSize ≤ (c.blockHashesFor blockHashes spec).length := by
  unfold blockHashesFor
  split
  · rename_i heq
    rwa [heq]
  · rw [length_blockHashListWithBlockSize]
    have hmul : c.hashBlockSize * (spec.blockSize / c.hashBlockSize) = spec.blockSize :=
      Nat.mul_div_cancel' hdvd
    calc
      maxLength / spec.blockSize =
          maxLength / c.hashBlockSize / (spec.blockSize / c.hashBlockSize) := by
        rw [Nat.div_div_eq_div_mul, hmul]
      _ ≤ blockHashes.length / (spec.blockSize / c.hashBlockSize) := Nat.div_le_div_right hcover

/-- What the search relies on: the entries partition the groups, full attention first, and no
lookup raises. -/
structure HybridContext (c : KVCacheCoordinator) (specs : List KVCacheSpec)
    (blockHashes : List BlockHash) (lcmBlockSize maxLength : ℕ)
    (fulls others : List AttentionGroup) : Prop where
  kind : c.kind = .hybrid (fulls ++ others) lcmBlockSize
  splits : Splits specs specs.length (fulls ++ others)
  many : 1 < (fulls ++ others).length
  fulls_full : ∀ g ∈ fulls, g.spec.isFullAttention = true
  others_not_full : ∀ g ∈ others, g.spec.isFullAttention = false
  dvd : ∀ g ∈ fulls ++ others, g.spec.blockSize ∣ lcmBlockSize
  managers : c.singleTypeManagers.length = specs.length
  looksUp : LooksUp c blockHashes lcmBlockSize (fulls ++ others) maxLength

lemma HybridContext.separate
    (h : HybridContext c specs blockHashes lcmBlockSize maxLength fulls others) :
    Separate (fulls ++ others) specs.length :=
  ⟨h.splits.disjoint, h.splits.ids_ne_nil, h.splits.ids_nodup,
    fun g hg i hi => (h.splits.spec_eq g hg i hi).1⟩

lemma Splits.spec_mem (h : Splits specs specs.length groups) (hg : g ∈ groups) :
    g.spec ∈ specs := by
  have hi := headD_mem (h.ids_ne_nil g hg)
  exact mem_of_getElem? (h.spec_eq g hg _ hi).2

lemma looksUp_of_supported (hsplits : Splits specs specs.length groups)
    (hsizes : ∀ spec ∈ specs, 0 < spec.blockSize)
    (hsupp : ∀ spec ∈ specs, Supported c.useEagle lcmBlockSize spec)
    (hdvd : ∀ spec ∈ specs, c.hashBlockSize ∣ spec.blockSize)
    (hcover : maxLength / c.hashBlockSize ≤ blockHashes.length) :
    LooksUp c blockHashes lcmBlockSize groups maxLength := by
  intro g hg
  have hspec := Splits.spec_mem hsplits hg
  refine ⟨hsizes _ hspec, ?_⟩
  intro length hle
  have hcov := blockHashesFor_covers (hdvd _ hspec)
    ((Nat.div_le_div_right hle).trans hcover)
  obtain ⟨rows, hrows⟩ : ∃ rows, CacheHit.rows c.blockPool (c.blockHashesFor blockHashes g.spec)
      g.groupIds length g.spec c.useEagle lcmBlockSize 1 1 = .ok rows :=
    rows_ok (hsupp _ hspec) hcov
  rw [acceptRows, hrows]

lemma truncateFullAttention_of_mem {rest : List AttentionGroup} (hfull : f.spec.isFullAttention = true)
    (hnodup : f.groupIds.Nodup) (hi : i ∈ f.groupIds) (hblocks : hits[i]? = some (some blocks)) :
    (truncateFullAttention (f :: rest) hitLength hits)[i]? =
      some (some (blocks.take (hitLength / f.spec.blockSize))) := by
  simp only [truncateFullAttention, hfull, if_true]
  exact foldl_modify_of_mem hnodup _ hits hi hblocks

lemma truncateFullAttention_of_not_mem
    (h : ∀ f rest, groups = f :: rest → f.spec.isFullAttention = true →
      i ∉ f.groupIds) : (truncateFullAttention groups hitLength hits)[i]? = hits[i]? := by
  cases groups with
  | nil => rfl
  | cons f rest =>
    simp only [truncateFullAttention]
    split
    · rename_i hfull
      exact foldl_modify_of_not_mem _ hits (h f rest rfl hfull)
    · rfl

/-! ## The rows of one attention type -/

section Rows

variable {specs : List KVCacheSpec} {maxLength : ℕ} {fulls others : List AttentionGroup}
  {hitLength length i : ℕ} {g : AttentionGroup} {hits : HitBlocks}

section

variable (h : HybridContext c specs blockHashes lcmBlockSize maxLength fulls others)
include h

lemma HybridContext.rows_spec (hg : g ∈ fulls ++ others) (hle : length ≤ maxLength) :
    (g.spec.isFullAttention → CachedFrom c.blockPool (c.blockHashesFor blockHashes g.spec)
        g.groupIds 0 (acceptRows c blockHashes lcmBlockSize g length)) ∧
      ((isChunked g.spec → accept c blockHashes lcmBlockSize length g = length) →
        NeededCached c.blockPool (c.blockHashesFor blockHashes g.spec) g.groupIds g.spec
          (accept c blockHashes lcmBlockSize length g)
          (acceptRows c blockHashes lcmBlockSize g length)) :=
  (CacheHit.rows_spec (h.looksUp g hg).1 ((h.looksUp g hg).2 length hle)).2.2

/-- A length that was accepted is the number of rows times the block size. -/
lemma HybridContext.rows_length
    (hg : g ∈ fulls ++ others) (hacc : accept c blockHashes lcmBlockSize length g = hitLength) :
    (acceptRows c blockHashes lcmBlockSize g length).length = hitLength / g.spec.blockSize := by
  rw [← hacc, accept, Nat.mul_div_cancel _ (h.looksUp g hg).1]

/-- The first full attention type, cut at a length it accepts. -/
lemma HybridContext.groupHit_of_full (hf : f ∈ fulls)
    (hle : length ≤ maxLength) (hacc : hitLength ≤ accept c blockHashes lcmBlockSize length f)
    (hi : f.groupIds[j]? = some i) :
    GroupHit c blockHashes i f.spec hitLength
      (((acceptRows c blockHashes lcmBlockSize f length).map fun row =>
        row.getD j c.blockPool.nullBlock).take (hitLength / f.spec.blockSize)) := by
  have hmem : f ∈ fulls ++ others := mem_append_left _ hf
  have hcached := (h.rows_spec hmem hle).1 (h.fulls_full f hf)
  rw [← map_take]
  apply groupHit_of_rows _ _ hi
  · rw [length_take]
    apply Nat.min_eq_left
    have hrows : (acceptRows c blockHashes lcmBlockSize f length).length = _ :=
      h.rows_length hmem rfl
    rw [hrows]
    exact Nat.div_le_div_right hacc
  · exact (hcached.take _).neededCached fun _ _ _ => Nat.zero_le _

/-- An attention type that accepts the length as a whole. -/
lemma HybridContext.groupHit_of_accepted (hg : g ∈ fulls ++ others)
    (hle : length ≤ maxLength) (hacc : accept c blockHashes lcmBlockSize length g = hitLength)
    (hchunk : isChunked g.spec → hitLength = length) (hi : g.groupIds[j]? = some i) :
    GroupHit c blockHashes i g.spec hitLength
      ((acceptRows c blockHashes lcmBlockSize g length).map fun row =>
        row.getD j c.blockPool.nullBlock) := by
  have hneeded := (h.rows_spec hg hle).2 fun hc => hacc.trans (hchunk hc)
  rw [hacc] at hneeded
  exact groupHit_of_rows (h.rows_length hg hacc) hneeded hi

end

lemma getElem?_hitBlocks (h : hits[i]? = some (some blocks)) :
    (hits.map (Option.getD · []))[i]? = some blocks := by
  simp [h]

/-- A later full attention type keeps the blocks of its own length. -/
lemma HybridContext.isCacheHit_found_iff
    (h : HybridContext c specs blockHashes lcmBlockSize maxLength fulls others)
    (hfound : Found c blockHashes lcmBlockSize fulls others maxLength hitLength
      hits) :
    IsCacheHit c specs lcmBlockSize blockHashes maxLength
        ((truncateFullAttention (fulls ++ others) hitLength hits).map (Option.getD · [])) hitLength ↔
      ∀ first front f back, fulls = first :: front ++ f :: back →
        accept c blockHashes lcmBlockSize
          ((first :: front).foldl (accept c blockHashes lcmBlockSize) maxLength) f = hitLength := by
  have hlemax : hitLength ≤ maxLength := hfound.le.trans (foldl_accept_le h.looksUp le_rfl)
  have hfulls : LooksUp c blockHashes lcmBlockSize fulls maxLength :=
    fun g hg => h.looksUp g (mem_append_left _ hg)
  -- Only the first full attention type is truncated.
  have huntouched : ∀ front g back, fulls ++ others = front ++ g :: back →
      (front = [] → g.spec.isFullAttention = false) → ∀ i ∈ g.groupIds,
        (truncateFullAttention (fulls ++ others) hitLength hits)[i]? = hits[i]? := by
    intro front g back hsplit hfirst i hi
    apply truncateFullAttention_of_not_mem
    intro f rest hcons hfull hmem
    cases front with
    | nil =>
      obtain ⟨rfl, -⟩ : g = f ∧ back = rest := by simpa [hsplit] using hcons
      rw [hfirst rfl] at hfull
      exact Bool.false_ne_true hfull
    | cons f' front =>
      obtain ⟨rfl, -⟩ : f' = f ∧ front ++ g :: back = rest := by simpa [hsplit] using hcons
      have hdisj := h.splits.disjoint
      rw [hsplit, cons_append, pairwise_cons] at hdisj
      exact hdisj.1 g (by simp) i hmem hi
  constructor
  · intro hhit first front f back hsplit
    have hf : f ∈ fulls ++ others := by simp [hsplit]
    obtain ⟨i, ids, hids⟩ := exists_cons_of_ne_nil (h.splits.ids_ne_nil f hf)
    have hi : f.groupIds[0]? = some i := by simp [hids]
    have hmem : i ∈ f.groupIds := by simp [hids]
    obtain ⟨blks, hblks, hgroup⟩ := hhit.groups i f.spec (h.splits.spec_eq f hf i hmem).2
    have hrec := hfound.fulls_recorded (first :: front) f back hsplit 0 i hi
    have hsame := huntouched (first :: front) f (back ++ others) (by simp [hsplit]) (by simp) i hmem
    rw [hrec] at hsame
    rw [getElem?_hitBlocks hsame] at hblks
    have hlen := hgroup.length
    rw [← Option.some.inj hblks, length_map] at hlen
    rw [accept, hlen]
    exact Nat.div_mul_cancel ((h.dvd f hf).trans hfound.dvd)
  · intro hagree
    refine ⟨hfound.dvd, hlemax, ?_⟩
    intro i spec hspec
    obtain ⟨g, hg, hmem⟩ := h.splits.covers i (lt_of_getElem? hspec)
    obtain ⟨j, hj⟩ := getElem?_of_mem hmem
    obtain rfl : spec = g.spec :=
      Option.some.inj (hspec.symm.trans (h.splits.spec_eq g hg i hmem).2)
    rcases List.mem_append.mp hg with hfull | hother
    · obtain ⟨front, back, hsplit⟩ := append_of_mem hfull
      have hrec := hfound.fulls_recorded front g back hsplit j i hj
      cases front with
      | nil =>
        have hfirst : fulls ++ others = g :: (back ++ others) := by simp [hsplit]
        rw [hfirst]
        refine ⟨_, getElem?_hitBlocks (truncateFullAttention_of_mem (h.fulls_full g hfull)
          (h.splits.ids_nodup g hg) hmem hrec), ?_⟩
        apply h.groupHit_of_full hfull le_rfl _ hj
        have htail : LooksUp c blockHashes lcmBlockSize (back ++ others) maxLength :=
          (hfirst ▸ h.looksUp : LooksUp c blockHashes lcmBlockSize (g :: (back ++ others)) _).tail
        have hle := hfound.le
        rw [hfirst, foldl_cons] at hle
        exact hle.trans (foldl_accept_le htail (accept_le h.looksUp hg le_rfl))
      | cons first front =>
        have hsame := huntouched (first :: front) g (back ++ others) (by simp [hsplit]) (by simp)
          i hmem
        rw [hrec] at hsame
        refine ⟨_, getElem?_hitBlocks hsame, ?_⟩
        have hfront : LooksUp c blockHashes lcmBlockSize (first :: front) maxLength :=
          fun g' hg' => hfulls g' (by rw [hsplit]; exact mem_append_left _ hg')
        have hle := foldl_accept_le hfront le_rfl
        refine h.groupHit_of_accepted hg hle (hagree first front g back hsplit) ?_ hj
        intro hchunk
        have := h.fulls_full g hfull
        cases hspec' : g.spec <;> simp_all [isChunked, KVCacheSpec.isFullAttention]
    · obtain ⟨hacc, hrec⟩ := hfound.accepted g hother
      obtain ⟨front, back, hsplit⟩ := append_of_mem hg
      have hsame := huntouched front g back hsplit (fun _ => h.others_not_full g hother) i hmem
      rw [hrec j i hj] at hsame
      exact ⟨_, getElem?_hitBlocks hsame, h.groupHit_of_accepted hg hlemax hacc (fun _ => rfl) hj⟩

/-- The later full attention types agree with the length exactly when everything after the
second one accepts what the second one accepts. -/
lemma HybridContext.found_agree_iff
    (h : HybridContext c specs blockHashes lcmBlockSize maxLength fulls others)
    (hfound : Found c blockHashes lcmBlockSize fulls others maxLength hitLength
      hits) (hnotsimple : ¬ ((fulls ++ others).length = 2 ∧ fulls ≠ [])) :
    (∀ first front f back, fulls = first :: front ++ f :: back →
        accept c blockHashes lcmBlockSize
          ((first :: front).foldl (accept c blockHashes lcmBlockSize) maxLength) f = hitLength) ↔
      LengthsAgree c blockHashes lcmBlockSize maxLength (fulls ++ others) := by
  match fulls, h, hfound, hnotsimple with
  | [], h, _, _ =>
    have hleft : ∀ first front (f : AttentionGroup) back,
        ([] : List AttentionGroup) ≠ first :: front ++ f :: back := by simp
    refine iff_of_true (fun first front f back hsplit => absurd hsplit (hleft _ _ _ _)) ?_
    match others, h with
    | [], _ => trivial
    | [_], _ => trivial
    | [f, g], h =>
      intro hfull
      rw [h.others_not_full f (by simp)] at hfull
      exact absurd hfull Bool.false_ne_true
    | f :: g :: _ :: _, h =>
      intro hfull
      rw [h.others_not_full f (by simp)] at hfull
      exact absurd hfull Bool.false_ne_true
  | [f], h, _, hnotsimple =>
    refine iff_of_true (fun first front f' back hsplit => ?_) ?_
    · have := congrArg List.length hsplit
      simp at this
    · match others, h with
      | [], h => exact absurd h.many (by simp)
      | [_], _ => exact absurd ⟨rfl, by simp⟩ hnotsimple
      | g :: _ :: _, h =>
        intro _ hfull
        rw [h.others_not_full g (by simp)] at hfull
        exact absurd hfull Bool.false_ne_true
  | f :: g :: more, h, hfound, hnotsimple =>
    have hrest : more ++ others ≠ [] := by
      intro hnil
      obtain ⟨rfl, rfl⟩ := append_eq_nil_iff.mp hnil
      exact hnotsimple ⟨rfl, by simp⟩
    set second := accept c blockHashes lcmBlockSize
      (accept c blockHashes lcmBlockSize maxLength f) g with hsecond
    have hlooks : LooksUp c blockHashes lcmBlockSize (more ++ others) maxLength :=
      h.looksUp.tail.tail
    have hf := accept_le h.looksUp mem_cons_self le_rfl
    have hsecondle : second ≤ maxLength :=
      (accept_le h.looksUp (mem_cons_of_mem _ mem_cons_self) hf).trans hf
    have hle : hitLength ≤ (more ++ others).foldl (accept c blockHashes lcmBlockSize) second :=
      hfound.le
    have hagree : LengthsAgree c blockHashes lcmBlockSize maxLength (f :: g :: more ++ others) ↔
        ∀ g' ∈ more ++ others, accept c blockHashes lcmBlockSize second g' = second := by
      obtain ⟨g₀, rest, hcons⟩ := exists_cons_of_ne_nil hrest
      rw [cons_append, cons_append, hcons]
      constructor
      · intro hall
        exact hall (h.fulls_full f (by simp)) (h.fulls_full g (by simp))
      · intro hall _ _
        exact hall
    rw [hagree]
    constructor
    · intro hall
      have hsecondEq : second = hitLength := hall f [] g more rfl
      exact accept_eq_of_foldl hlooks hsecondle (hsecondEq ▸ hle)
    · intro hall
      have hsecondEq : hitLength = second :=
        hfound.stays second (foldl_accept_eq hall)
          fun g' hg' => hall g' (mem_append_right _ hg')
      intro first front f' back hsplit
      rw [hsecondEq]
      cases front with
      | nil =>
        obtain ⟨rfl, rfl, rfl⟩ : f = first ∧ g = f' ∧ more = back := by simpa using hsplit
        rfl
      | cons g₁ front =>
        obtain ⟨rfl, rfl, rfl⟩ : f = first ∧ g = g₁ ∧ more = front ++ f' :: back := by
          simpa using hsplit
        have hfront : front.foldl (accept c blockHashes lcmBlockSize) second = second :=
          foldl_accept_eq fun g' hg' => hall g' (by simp [hg'])
        rw [foldl_cons, foldl_cons, hfront]
        exact hall f' (by simp)

end Rows

/-! ## The simple case -/

/-- A length between the start of the chunk of `length` and `length` has the same chunk. -/
lemma chunk_start_eq {length chunkSize : ℕ} (hle : hitLength ≤ length)
    (hstart : length / chunkSize * chunkSize ≤ hitLength) :
    hitLength / chunkSize * chunkSize = length / chunkSize * chunkSize := by
  rcases Nat.eq_zero_or_pos chunkSize with rfl | hpos
  · simp
  · have hge : length / chunkSize ≤ hitLength / chunkSize :=
      (Nat.le_div_iff_mul_le hpos).mpr hstart
    rw [le_antisymm (Nat.div_le_div_right hle) hge]

section Chunked

variable {pool : BlockPool} {hashes : List BlockHash} {ids : List ℕ}
  {length chunkSize alignmentTokens : ℕ} {attention : AttentionSpec} {rows : List BlockRow}

/-- Chunked local attention below a length that is a multiple of the block size. -/
lemma chunked_neededCached (hpos : 0 < attention.blockSize) (hdvd : attention.blockSize ∣ length)
    (h : chunkedLocalAttention pool hashes ids length attention.blockSize chunkSize
      alignmentTokens = .ok rows) :
    StartCached pool hashes ids attention.blockSize chunkSize (length / chunkSize * chunkSize) →
      NeededCached pool hashes ids (.chunkedLocalAttention attention chunkSize)
        (rows.length * attention.blockSize) rows := by
  obtain ⟨hscan, -, hstartle, -, hstop⟩ := chunkedLocalAttention_spec h
  unfold localAttentionStartBlockIdx at *
  set start := length / chunkSize * chunkSize with hstart
  set first := start / attention.blockSize with hfirst
  have hle := hscan.le
  have hfloor : first * attention.blockSize ≤ start := Nat.div_mul_le_self _ _
  have hceil : start < (first + 1) * attention.blockSize := by
    rw [Nat.mul_comm]
    exact Nat.lt_mul_div_succ _ hpos
  -- Past the start of the chunk the rows that are read are the ones that were looked up.
  have hpast : start ≤ rows.length * attention.blockSize →
      NeededCached pool hashes ids (.chunkedLocalAttention attention chunkSize)
        (rows.length * attention.blockSize) rows := by
    intro hreach
    apply hscan.cached.neededCached
    intro i hi _
    simp only [KVCacheSpec.getNumSkippedTokens, KVCacheSpec.blockSize,
      chunk_start_eq hle hreach, ← hstart] at hi
    exact_mod_cast hi
  rintro (hboundary | hsome | hchunk)
  · apply hpast
    have hexact : first * attention.blockSize = start :=
      Nat.div_mul_cancel (Nat.dvd_of_mod_eq_zero hboundary)
    calc
      start = first * attention.blockSize := hexact.symm
      _ ≤ rows.length * attention.blockSize := Nat.mul_le_mul_right _ hstartle
  · apply hpast
    rcases Nat.lt_or_ge first rows.length with hmore | hless
    · exact hceil.le.trans (Nat.mul_le_mul_right _ hmore)
    · -- Nothing was found, so nothing was looked for.
      have hlen : rows.length = first := le_antisymm hless hstartle
      have hend : ¬ rows.length < length / attention.blockSize := by
        intro hlt
        have hnone := hstop hlt
        rw [hlen] at hnone
        rw [hnone] at hsome
        exact absurd hsome (by simp)
      calc
        start ≤ length := Nat.div_mul_le_self _ _
        _ = length / attention.blockSize * attention.blockSize := (Nat.div_mul_cancel hdvd).symm
        _ ≤ rows.length * attention.blockSize := Nat.mul_le_mul_right _ (by omega)
  · by_cases hreach : start ≤ rows.length * attention.blockSize
    · exact hpast hreach
    · have hlen : rows.length = first := by
        apply le_antisymm _ hstartle
        by_contra hmore
        have : (first + 1) * attention.blockSize ≤ rows.length * attention.blockSize :=
          Nat.mul_le_mul_right _ (by omega)
        omega
      intro i hi hlt
      have hskip : rows.length * attention.blockSize / chunkSize * chunkSize =
          rows.length * attention.blockSize := by
        rw [hlen]
        exact Nat.div_mul_cancel (Nat.dvd_of_mod_eq_zero hchunk)
      simp only [KVCacheSpec.getNumSkippedTokens, KVCacheSpec.blockSize, hskip] at hi
      have hge : rows.length * attention.blockSize / attention.blockSize ≤ i := by
        exact_mod_cast hi
      rw [Nat.mul_div_cancel _ hpos] at hge
      omega

/-- Otherwise a row of null blocks is read. -/
lemma chunked_null_row (hpos : 0 < attention.blockSize)
    (h : chunkedLocalAttention pool hashes ids length attention.blockSize chunkSize
      alignmentTokens = .ok rows)
    (hnot : ¬ StartCached pool hashes ids attention.blockSize chunkSize
      (length / chunkSize * chunkSize)) :
    ∃ idx : ℕ, KVCacheSpec.getNumSkippedTokens (.chunkedLocalAttention attention chunkSize)
        (rows.length * attention.blockSize) / attention.blockSize ≤ (idx : ℤ) ∧
      idx < rows.length ∧ rows[idx]? = some (List.replicate ids.length pool.nullBlock) := by
  obtain ⟨hscan, -, hstartle, hnulls, -⟩ := chunkedLocalAttention_spec h
  unfold localAttentionStartBlockIdx at *
  simp only [StartCached, not_or, Bool.not_eq_true, Option.isSome_eq_false_iff,
    Option.isNone_iff_eq_none] at hnot
  obtain ⟨-, hrow, hchunk⟩ := hnot
  set first := length / chunkSize * chunkSize / attention.blockSize with hfirst
  have hlen : rows.length = first := by
    by_contra hne
    obtain ⟨row, hsome, -⟩ := hscan.cached first le_rfl (by omega)
    rw [hrow] at hsome
    cases hsome
  set skipped := first * attention.blockSize / chunkSize * chunkSize with hskipped
  have hlt : skipped < first * attention.blockSize := by
    have hle' : skipped ≤ first * attention.blockSize := Nat.div_mul_le_self _ _
    refine lt_of_le_of_ne hle' fun heq => hchunk ?_
    rw [← heq, hskipped]
    exact Nat.mul_mod_left _ _
  have hidx : skipped / attention.blockSize < first := (Nat.div_lt_iff_lt_mul hpos).mpr hlt
  refine ⟨skipped / attention.blockSize, ?_, by omega, hnulls _ hidx⟩
  simp only [KVCacheSpec.getNumSkippedTokens, hlen, ← hskipped]
  exact_mod_cast le_rfl

end Chunked

/-- Of one full attention type and another type, only the chunk can go wrong. -/
lemma HybridContext.isCacheHit_simple_iff
    (h : HybridContext c specs blockHashes lcmBlockSize maxLength fulls others)
    (hgroups : fulls ++ others = [f, g]) (hf : f ∈ fulls)
    (hnull : ∀ hash id, c.blockPool.cachedBlockHashToBlock.getOneBlock
      (makeBlockHashWithGroupId hash id) ≠ some c.blockPool.nullBlock)
    (hfrec : Recorded c hits f (acceptRows c blockHashes lcmBlockSize f maxLength))
    (hgrec : Recorded c hits g (acceptRows c blockHashes lcmBlockSize g
      (accept c blockHashes lcmBlockSize maxLength f))) :
    IsCacheHit c specs lcmBlockSize blockHashes maxLength
        ((truncateFullAttention [f, g] (accept c blockHashes lcmBlockSize
          (accept c blockHashes lcmBlockSize maxLength f) g) hits).map (Option.getD · []))
        (accept c blockHashes lcmBlockSize (accept c blockHashes lcmBlockSize maxLength f) g) ↔
      ChunkStartCached c blockHashes g (accept c blockHashes lcmBlockSize maxLength f) := by
  have hfg : f ∈ fulls ++ others := by simp [hgroups]
  have hgg : g ∈ fulls ++ others := by simp [hgroups]
  have hfle := accept_le h.looksUp hfg le_rfl
  have hgle := accept_le h.looksUp hgg hfle
  have hdvdLength := (h.dvd g hgg).trans (dvd_accept h.looksUp hfg le_rfl)
  have hrows := (h.looksUp g hgg).2 _ hfle
  set length := accept c blockHashes lcmBlockSize maxLength f with hlength
  have hfnot : ∀ i ∈ g.groupIds,
      (truncateFullAttention [f, g] (accept c blockHashes lcmBlockSize length g) hits)[i]? =
        hits[i]? := by
    intro i hi
    apply truncateFullAttention_of_not_mem
    intro f' rest hcons _ hmem
    obtain ⟨rfl, -⟩ : f = f' ∧ [g] = rest := by simpa using hcons
    have hdisj := h.splits.disjoint
    rw [hgroups, pairwise_cons] at hdisj
    exact hdisj.1 g (by simp) i hmem hi
  constructor
  · intro hhit
    unfold ChunkStartCached
    split
    · rename_i attention chunkSize hspec
      by_contra hnot
      obtain ⟨i, ids, hids⟩ := exists_cons_of_ne_nil (h.splits.ids_ne_nil g hgg)
      have hi : g.groupIds[0]? = some i := by simp [hids]
      have hmem : i ∈ g.groupIds := by simp [hids]
      obtain ⟨blks, hblks, hgroup⟩ := hhit.groups i g.spec (h.splits.spec_eq g hgg i hmem).2
      rw [getElem?_hitBlocks ((hfnot i hmem).trans (hgrec 0 i hi))] at hblks
      cases hblks
      have hpos := (h.looksUp g hgg).1
      have hsize : g.spec.blockSize = attention.blockSize := by rw [hspec]; rfl
      rw [hspec] at hrows hnot
      obtain ⟨_, -, hrows⟩ := bind_eq_ok hrows
      obtain ⟨_, -, hrows⟩ := bind_eq_ok hrows
      obtain ⟨_, -, hrows⟩ := bind_eq_ok hrows
      obtain ⟨idx, hneeded, hlt, hrow⟩ := chunked_null_row (hsize ▸ hpos) hrows hnot
      obtain ⟨hash, b, -, hb, hcached⟩ := hgroup.cached idx
        (by rw [hspec, accept, hspec]; exact hneeded) (by simpa using hlt)
      have hbnull : c.blockPool.nullBlock = b := by
        simpa [hrow, hids] using hb
      exact hnull hash i (hbnull ▸ hcached)
    · trivial
  · intro hchunk
    refine ⟨dvd_accept h.looksUp hgg hfle, hgle.trans hfle, ?_⟩
    intro i spec hspec
    obtain ⟨g', hg', hmem⟩ := h.splits.covers i (lt_of_getElem? hspec)
    obtain ⟨j, hj⟩ := getElem?_of_mem hmem
    obtain rfl : spec = g'.spec :=
      Option.some.inj (hspec.symm.trans (h.splits.spec_eq g' hg' i hmem).2)
    rw [hgroups, mem_cons, mem_singleton] at hg'
    rcases hg' with rfl | rfl
    · refine ⟨_, getElem?_hitBlocks (truncateFullAttention_of_mem (h.fulls_full g' hf)
        (h.splits.ids_nodup g' hfg) hmem (hfrec j i hj)), ?_⟩
      exact h.groupHit_of_full hf le_rfl hgle hj
    · refine ⟨_, getElem?_hitBlocks ((hfnot i hmem).trans (hgrec j i hj)), ?_⟩
      unfold ChunkStartCached at hchunk
      split at hchunk
      · rename_i attention chunkSize hspec'
        have hsize : g'.spec.blockSize = attention.blockSize := by rw [hspec']; rfl
        apply groupHit_of_rows (h.rows_length hgg rfl) _ hj
        rw [hspec'] at hrows hdvdLength
        obtain ⟨_, -, hrows⟩ := bind_eq_ok hrows
        obtain ⟨_, -, hrows⟩ := bind_eq_ok hrows
        obtain ⟨_, -, hrows⟩ := bind_eq_ok hrows
        have hneeded := chunked_neededCached (hsize ▸ (h.looksUp g' hgg).1) hdvdLength hrows
          (hspec' ▸ hchunk)
        rw [accept, hspec']
        exact hneeded
      · rename_i hnotchunk
        refine h.groupHit_of_accepted hgg hfle rfl ?_ hj
        intro hischunk
        cases hspec' : g'.spec with
        | chunkedLocalAttention attention chunkSize => exact absurd hspec' (hnotchunk _ _)
        | _ => simp [hspec', isChunked] at hischunk

/-! ## The search as a whole -/

lemma hybridContext_of_new {config : KVCacheConfig} {maxModelLen : ℕ}
    {useEagle enableKvCacheEvents useIntBlockHashes : Bool} {c₀ : KVCacheCoordinator}
    (hnew : KVCacheCoordinator.new config maxModelLen useEagle enableCaching enableKvCacheEvents
      useIntBlockHashes dcpWorldSize pcpWorldSize hashBlockSize = .ok c₀)
    (hkind : c₀.kind = .hybrid groups lcmBlockSize)
    (hsizes : ∀ spec ∈ config.kvCacheGroups, 0 < spec.blockSize)
    (hsupp : ∀ spec ∈ config.kvCacheGroups, Supported useEagle lcmBlockSize spec) (pool : BlockPool)
    (hcover : maxLength / hashBlockSize ≤ blockHashes.length) :
    ∃ fulls others, groups = fulls ++ others ∧
      HybridContext { c₀ with blockPool := pool } config.kvCacheGroups blockHashes lcmBlockSize
        maxLength fulls others := by
  obtain ⟨pool₀, -, hnew⟩ := bind_eq_ok hnew
  obtain ⟨⟨ms, pool₁⟩, hms, hnew⟩ := bind_eq_ok hnew
  obtain ⟨kind, hk, rfl⟩ := map_eq_ok hnew
  obtain rfl : kind = .hybrid groups lcmBlockSize := hkind
  obtain ⟨rfl, rfl, hmany, hdvd⟩ := coordinatorKind_hybrid hk
  have hperm := fullAttentionFirst_perm (splitKvCacheGroups config.kvCacheGroups)
  have hsplits := (splitKvCacheGroups_splits config.kvCacheGroups).perm hperm
  refine ⟨_, _, rfl, rfl, hsplits, ?_, ?_, ?_, ?_, newManagers_length hms, ?_⟩
  · change 1 < (fullAttentionFirst _).length
    rw [hperm.length_eq]
    exact hmany
  · intro g hg
    exact (mem_filter.mp hg).2
  · intro g hg
    simpa using (mem_filter.mp hg).2
  · intro g hg
    exact blockSize_dvd_lcmBlockSize (hperm.mem_iff.mp hg)
  · exact looksUp_of_supported hsplits hsizes hsupp hdvd hcover

/-- The simple case is the case of two entries with a full attention type. -/
lemma HybridContext.isSimpleHybrid_iff
    (h : HybridContext c specs blockHashes lcmBlockSize maxLength fulls others) :
    isSimpleHybrid (fulls ++ others) = true ↔ (fulls ++ others).length = 2 ∧ fulls ≠ [] := by
  rw [isSimpleHybrid, Bool.and_eq_true, decide_eq_true_eq]
  refine and_congr_right fun _ => ?_
  cases hfulls : fulls with
  | cons f rest =>
    have hfull := h.fulls_full f (by simp [hfulls])
    simp [hfull]
  | nil =>
    cases hothers : others with
    | nil => simp
    | cons g rest =>
      have hnot := h.others_not_full g (by simp [hothers])
      simp [hnot]

/-- The `while` loop of the search, run for a number of rounds. -/
def searchLoop (c : KVCacheCoordinator) (blockHashes : List BlockHash)
    (groups : List AttentionGroup) (lcmBlockSize maxLength fuel : ℕ) :
    Except PyError (ℕ × HitBlocks) :=
  hybridLoop c blockHashes groups lcmBlockSize (isSimpleHybrid groups) fuel maxLength
    (List.replicate c.singleTypeManagers.length none)

lemma findLongestCacheHit_eq (hkind : c.kind = .hybrid groups lcmBlockSize)
    (h : searchLoop c blockHashes groups lcmBlockSize maxLength (maxLength + 1) =
      .ok (hitLength, hits)) :
    c.findLongestCacheHit blockHashes maxLength =
      .ok ((truncateFullAttention groups hitLength hits).map (Option.getD · []), hitLength) := by
  simp only [findLongestCacheHit, hkind]
  unfold hybridFindLongestCacheHit
  unfold searchLoop at h
  rw [h]
  rfl

/-- Two groups of which one is full attention are each looked at once, other groups in a loop that ends. -/
lemma HybridContext.searchLoop_cases
    (h : HybridContext c specs blockHashes lcmBlockSize maxLength fulls others) :
    (∃ f g hits, fulls ++ others = [f, g] ∧ f ∈ fulls ∧
      (∀ fuel > maxLength, searchLoop c blockHashes (fulls ++ others) lcmBlockSize maxLength fuel =
        .ok (accept c blockHashes lcmBlockSize (accept c blockHashes lcmBlockSize maxLength f) g, hits)) ∧
      Recorded c hits f (acceptRows c blockHashes lcmBlockSize f maxLength) ∧
      Recorded c hits g (acceptRows c blockHashes lcmBlockSize g
        (accept c blockHashes lcmBlockSize maxLength f))) ∨
    ¬ ((fulls ++ others).length = 2 ∧ fulls ≠ []) ∧ ∃ hitLength hits,
      (∀ fuel > maxLength, searchLoop c blockHashes (fulls ++ others) lcmBlockSize maxLength fuel =
        .ok (hitLength, hits)) ∧
      Found c blockHashes lcmBlockSize fulls others maxLength hitLength hits := by
  unfold searchLoop
  rw [h.managers]
  by_cases hsimple : (fulls ++ others).length = 2 ∧ fulls ≠ []
  · obtain ⟨f, g, hgroups⟩ := length_eq_two.mp hsimple.1
    have hf : f ∈ fulls := by
      obtain ⟨f', rest, hcons⟩ := exists_cons_of_ne_nil hsimple.2
      obtain ⟨rfl, -⟩ : f' = f ∧ rest ++ others = [g] := by simpa [hcons] using hgroups
      simp [hcons]
    have hlooks := h.looksUp
    have hsep := h.separate
    rw [h.isSimpleHybrid_iff.mpr hsimple]
    rw [hgroups] at hlooks hsep ⊢
    obtain ⟨hits, hloop, -, hfrec, hgrec⟩ := hybridLoop_simple hlooks hsep
    exact .inl ⟨f, g, hits, rfl, hf, fun fuel hfuel => hloop fuel (by omega), hfrec, hgrec⟩
  · rw [Bool.eq_false_iff.mpr fun hflag => hsimple (h.isSimpleHybrid_iff.mp hflag)]
    have hne : fulls ++ others ≠ [] := length_pos_iff.mp (by have := h.many; omega)
    obtain ⟨hitLength, hits, hloop, -, hfound⟩ := hybridLoop_found h.looksUp hne
      (fun g hg => ⟨h.fulls_full g hg, h.dvd g (mem_append_left _ hg)⟩) h.others_not_full h.separate
    exact .inr ⟨hsimple, hitLength, hits, hloop, hfound⟩

lemma HybridContext.search_iff
    (h : HybridContext c specs blockHashes lcmBlockSize maxLength fulls others)
    (hnull : ∀ hash id, c.blockPool.cachedBlockHashToBlock.getOneBlock
      (makeBlockHashWithGroupId hash id) ≠ some c.blockPool.nullBlock) :
    ∃ hitLength hits, (∀ fuel > maxLength,
        searchLoop c blockHashes (fulls ++ others) lcmBlockSize maxLength fuel =
          .ok (hitLength, hits)) ∧
      (IsCacheHit c specs lcmBlockSize blockHashes maxLength
          ((truncateFullAttention (fulls ++ others) hitLength hits).map (Option.getD · []))
          hitLength ↔
        LengthsAgree c blockHashes lcmBlockSize maxLength (fulls ++ others)) := by
  rcases h.searchLoop_cases with ⟨f, g, hits, hgroups, hf, hloop, hfrec, hgrec⟩ |
    ⟨hsimple, hitLength, hits, hloop, hfound⟩
  · refine ⟨_, hits, hloop, ?_⟩
    rw [hgroups, h.isCacheHit_simple_iff hgroups hf hnull hfrec hgrec]
    exact ⟨fun hc _ => hc, fun hc => hc (h.fulls_full f hf)⟩
  · refine ⟨hitLength, hits, hloop, ?_⟩
    rw [h.isCacheHit_found_iff hfound, h.found_agree_iff hfound hsimple]

/-- The search of a hybrid coordinator ends for every cache content, and its result is a hit of
the returned length in every group exactly when the attention types agree on the length. -/
theorem findLongestCacheHit_isCacheHit_iff {config : KVCacheConfig} {maxModelLen : ℕ}
    {useEagle enableCaching enableKvCacheEvents useIntBlockHashes : Bool}
    {dcpWorldSize pcpWorldSize hashBlockSize : ℕ} {c₀ : KVCacheCoordinator}
    {groups : List AttentionGroup}
    (hnew : KVCacheCoordinator.new config maxModelLen useEagle enableCaching enableKvCacheEvents
      useIntBlockHashes dcpWorldSize pcpWorldSize hashBlockSize = .ok c₀)
    (hkind : c₀.kind = .hybrid groups lcmBlockSize)
    (hsizes : ∀ spec ∈ config.kvCacheGroups, 0 < spec.blockSize)
    (hsupp : ∀ spec ∈ config.kvCacheGroups, Supported useEagle lcmBlockSize spec)
    (pool : BlockPool)
    (hnull : ∀ key, ¬ pool.cachedBlockHashToBlock.Stored key pool.nullBlock)
    (maxCacheHitLength : ℕ) (hcover : maxCacheHitLength / hashBlockSize ≤ blockHashes.length) :
    (∃ result, ∀ fuel > maxCacheHitLength,
        searchLoop { c₀ with blockPool := pool } blockHashes groups lcmBlockSize
          maxCacheHitLength fuel = .ok result) ∧
      ((∃ blocks hitLength,
          findLongestCacheHit { c₀ with blockPool := pool } blockHashes maxCacheHitLength =
            .ok (blocks, hitLength) ∧
          IsCacheHit { c₀ with blockPool := pool } config.kvCacheGroups lcmBlockSize blockHashes
            maxCacheHitLength blocks hitLength) ↔
        LengthsAgree { c₀ with blockPool := pool } blockHashes lcmBlockSize maxCacheHitLength
          groups) := by
  obtain ⟨fulls, others, rfl, hctx⟩ :=
    hybridContext_of_new hnew hkind hsizes hsupp pool hcover
  have hnull' : ∀ hash id, pool.cachedBlockHashToBlock.getOneBlock
      (makeBlockHashWithGroupId hash id) ≠ some pool.nullBlock := by
    intro hash id hget
    exact hnull _ (BlockHashToBlockMap.stored_of_getOneBlock hget)
  obtain ⟨hitLength, hits, hloop, hiff⟩ := hctx.search_iff hnull'
  refine ⟨⟨_, hloop⟩, ?_⟩
  have hresult := findLongestCacheHit_eq hctx.kind (hloop (maxCacheHitLength + 1) (by omega))
  rw [← hiff, hresult]
  constructor
  · rintro ⟨blocks, length, heq, hhit⟩
    cases heq
    exact hhit
  · intro hhit
    exact ⟨_, _, rfl, hhit⟩

/-! ## Two configurations -/

/-- A group of blocks of one token. -/
def attentionWithHeads (numKvHeads : ℕ) : AttentionSpec :=
  { blockSize := 1, numKvHeads, headSize := 1, dtype := ⟨"float16", 2⟩ }

/-- The pool with one hash cached for the groups `ids`, in the blocks from `1` on. -/
def poolCaching (pool : BlockPool) (hash : BlockHash) (ids : List ℕ) : BlockPool :=
  ids.zipIdx.foldl (fun pool p =>
    let key := makeBlockHashWithGroupId hash p.1
    { pool with
      cachedBlockHashToBlock := pool.cachedBlockHashToBlock.insert key (.block (p.2 + 1))
      blocks := Function.update pool.blocks (.block (p.2 + 1)) { blockHash := key } }) pool

def fullAndWindow : KVCacheConfig where
  numBlocks := 4
  kvCacheGroups := [.fullAttention { attentionWithHeads 1 with },
    .slidingWindow (attentionWithHeads 1) 2]

/-- Both groups have the block: a hit of one token. -/
theorem findLongestCacheHit_isCacheHit_fullAndWindow :
    ∃ c₀, KVCacheCoordinator.new fullAndWindow 4 false true false false 1 1 1 = .ok c₀ ∧
      ∃ blocks hitLength,
        findLongestCacheHit { c₀ with blockPool := poolCaching c₀.blockPool [7] [0, 1] } [[7]] 1 =
          .ok (blocks, hitLength) ∧
        IsCacheHit { c₀ with blockPool := poolCaching c₀.blockPool [7] [0, 1] }
          fullAndWindow.kvCacheGroups 1 [[7]] 1 blocks hitLength := by
  obtain ⟨c₀, hnew, hkind, hcache, hnull⟩ : ∃ c₀,
      KVCacheCoordinator.new fullAndWindow 4 false true false false 1 1 1 = .ok c₀ ∧
      c₀.kind = .hybrid [⟨.fullAttention { attentionWithHeads 1 with }, [0]⟩,
        ⟨.slidingWindow (attentionWithHeads 1) 2, [1]⟩] 1 ∧
      c₀.blockPool.cachedBlockHashToBlock = ∅ ∧ c₀.blockPool.nullBlock = .block 0 :=
    ⟨_, rfl, by decide, rfl, rfl⟩
  refine ⟨c₀, hnew, (findLongestCacheHit_isCacheHit_iff hnew hkind (by decide) ?_ _ ?_ 1
    (by decide)).2.mpr ?_⟩
  · intro spec hspec
    simp only [fullAndWindow, mem_cons, not_mem_nil, or_false] at hspec
    rcases hspec with rfl | rfl
    · trivial
    · intro _
      rfl
  · intro key
    simp [poolCaching, BlockHashToBlockMap.stored_insert, hcache, hnull,
      BlockHashToBlockMap.not_stored_empty]
  · intro _
    trivial

def twoFullAndWindow : KVCacheConfig where
  numBlocks := 4
  kvCacheGroups := [.fullAttention { attentionWithHeads 1 with },
    .fullAttention { attentionWithHeads 2 with }, .slidingWindow (attentionWithHeads 1) 2]

/-- The sliding window lacks the block: the hit has no tokens, but the second full attention
group keeps its block. -/
theorem findLongestCacheHit_keeps_second_full :
    ∃ c₀, KVCacheCoordinator.new twoFullAndWindow 4 false true false false 1 1 1 = .ok c₀ ∧
      findLongestCacheHit { c₀ with blockPool := poolCaching c₀.blockPool [7] [0, 1] } [[7]] 1 =
        .ok ([[], [.block 2], []], 0) ∧
      ¬ ∃ blocks hitLength,
        findLongestCacheHit { c₀ with blockPool := poolCaching c₀.blockPool [7] [0, 1] } [[7]] 1 =
          .ok (blocks, hitLength) ∧
        IsCacheHit { c₀ with blockPool := poolCaching c₀.blockPool [7] [0, 1] }
          twoFullAndWindow.kvCacheGroups 1 [[7]] 1 blocks hitLength := by
  have htoolong : ∀ c : KVCacheCoordinator,
      c.findLongestCacheHit [[7]] 1 = .ok ([[], [.block 2], []], 0) →
      ¬ ∃ blocks hitLength, c.findLongestCacheHit [[7]] 1 = .ok (blocks, hitLength) ∧
        IsCacheHit c twoFullAndWindow.kvCacheGroups 1 [[7]] 1 blocks hitLength := by
    rintro c hfind ⟨blocks, hitLength, heq, hhit⟩
    rw [hfind] at heq
    cases heq
    obtain ⟨blks, hblks, hgroup⟩ := hhit.groups 1 _ rfl
    cases hblks
    exact absurd hgroup.length (by decide)
  refine ⟨_, rfl, by decide, htoolong _ (by decide)⟩

end VllmRuntime.KVCacheCoordinator
