import VllmRuntime.Model.OffloadingConnector
import VllmRuntime.Verification.Scheduler.Steps
import VllmRuntime.Verification.Scheduler.Updates

/-! # The blocks that are stored

`_next_stored_block_idx` moves on with the number of tokens, whether the blocks up to there have hashes or
not. When they always have, each block is passed to `prepare_store` once. -/

namespace VllmRuntime

variable {α : Type} {n : ℕ}

open List

/-! ## One request with its connector entries -/

/-- `_update_request_with_output` of the two schedulers, for one request. -/
def SchedRequest.updateWithOutput (config : SchedulerConfig) (hasher : Option (Request → List BlockHash))
    (request : SchedRequest) (newTokenIds : List TokenId) : Except PyError SchedRequest := do
  let (appended, _, updated) ← appendOutput hasher config.maxModelLen newTokenIds request
  if config.asyncScheduling then do
    pyAssert (updated.numOutputPlaceholders - appended.length ≥ 0) "request.num_output_placeholders >= 0"
    return { updated with numOutputPlaceholders := updated.numOutputPlaceholders - appended.length }
  else
    return updated

/-- A call of `prepare_store`, with the index of the first block. -/
structure StoreCall where
  startBlockIdx : ℕ
  blockHashes : List BlockHash
  deriving DecidableEq, Repr

structure OffloadingRun where
  request : SchedRequest
  connector : OffloadedRequest := {}
  /-- The drafts of the steps whose outputs are still to come. -/
  inFlight : List (List ℤ) := []
  /-- The calls of `prepare_store`. -/
  stores : List StoreCall := []
  /-- The index after the blocks that were loaded. -/
  numLoaded : ℕ := 0
  deriving DecidableEq, Repr

/-- What happens to a request: it waits for blocks to be loaded, is scheduled, gets its output and new
drafts. -/
inductive OffloadingStep where
  | load (blockIds : List ℕ) (numComputedGpuBlocks numExternalTokens : ℕ)
  | scheduleWaiting (numComputedTokens : ℕ) (numNewTokens : ℤ) (newBlockIds : List ℕ)
      (prepareStore : List BlockHash → Option PrepareStoreOutput)
  | scheduleRunning (numNewTokens : ℤ) (newBlockIds : List ℕ)
      (prepareStore : List BlockHash → Option PrepareStoreOutput)
  | output (sampledTokenIds : List TokenId)
  | drafts (draftTokenIds : List ℤ)

namespace OffloadingRun

/-- The connector and the request in a step that schedules it. -/
def schedule (spec : OffloadingSpec) (config : SchedulerConfig) (s : OffloadingRun) (numNewTokens : ℤ)
    (newBlockIds : List ℕ) (prepareStore : List BlockHash → Option PrepareStoreOutput) (specTokens : List ℤ) :
    Except PyError OffloadingRun := do
  let (stored, _, connector) ← s.connector.getReqToStore spec prepareStore s.request numNewTokens newBlockIds false
  return { s with
    connector
    stores := s.stores ++ (stored.map fun blockHashes => ⟨s.connector.startBlockIdx, blockHashes⟩).toList
    request := { s.request with specTokenIds := [] }.afterSchedule config numNewTokens specTokens.length
    inFlight := s.inFlight ++ [specTokens] }

def run (spec : OffloadingSpec) (config : SchedulerConfig) (hasher : Option (Request → List BlockHash)) :
    OffloadingStep → OffloadingRun → Except PyError OffloadingRun
  | .load blockIds numComputedGpuBlocks numExternalTokens, s => do
    let (_, connector) ← s.connector.updateStateAfterAlloc spec s.request.base.blockHashes blockIds
      numComputedGpuBlocks numExternalTokens
    return { s with connector, numLoaded := connector.startBlockIdx }
  | .scheduleWaiting numComputedTokens numNewTokens newBlockIds prepareStore, s => do
    let (_, connector) ← s.connector.updateStateAfterAlloc spec s.request.base.blockHashes [] 0 0
    { s with
      connector
      request := { s.request with status := .running, numComputedTokens } }.schedule spec config numNewTokens
        newBlockIds prepareStore []
  | .scheduleRunning numNewTokens newBlockIds prepareStore, s =>
    s.schedule spec config numNewTokens newBlockIds prepareStore
      (ScheduleState.scheduledSpecTokens s.request numNewTokens)
  | .output sampledTokenIds, s =>
    match s.inFlight with
    | [] => .error .indexError
    | specTokens :: inFlight => do
      let request := s.request.rejectDrafts specTokens sampledTokenIds
      let request ← if sampledTokenIds.isEmpty then pure request
        else request.updateWithOutput config hasher sampledTokenIds
      return { s with request, inFlight }
  | .drafts draftTokenIds, s => .ok { s with request := { s.request with specTokenIds := draftTokenIds } }

/-- The steps in the order in which the schedulers take them, for a request that is not preempted. -/
def InOrder (config : SchedulerConfig) (s : OffloadingRun) : OffloadingStep → Prop
  | .load _ _ _ => s.request.status = .waiting ∧ s.stores = [] ∧ s.request.numComputedTokens = 0
  | .scheduleWaiting numComputedTokens numNewTokens _ _ =>
    s.request.status = .waiting ∧ s.inFlight = [] ∧ 0 < numNewTokens ∧
      numComputedTokens + numNewTokens ≤ s.request.numTokens
  | .scheduleRunning numNewTokens _ _ =>
    s.request.status = .running ∧ (config.asyncScheduling ∨ s.inFlight = []) ∧ 0 < numNewTokens ∧
      s.request.numComputedTokens + numNewTokens ≤
        s.request.numTokensWithSpec + s.request.numOutputPlaceholders
  | .output sampledTokenIds => s.request.status = .running ∧
      ∀ specTokens ∈ s.inFlight.head?, sampledTokenIds.length ≤ specTokens.length + 1
  | .drafts _ => s.request.status = .running

instance (config : SchedulerConfig) (s : OffloadingRun) (step : OffloadingStep) :
    Decidable (s.InOrder config step) := by
  cases step <;> dsimp only [InOrder] <;> infer_instance

/-- In a step that moves the cursor, the blocks up to its new place have their hashes. -/
def HashesCover (spec : OffloadingSpec) (s : OffloadingRun) : OffloadingStep → Prop
  | .scheduleWaiting numComputedTokens numNewTokens _ _ =>
    let numBlocks := (numComputedTokens + numNewTokens) / spec.offloadedBlockSize
    s.connector.startBlockIdx < numBlocks →
      spec.blockSizeFactor * numBlocks ≤ s.request.base.blockHashes.length
  | .scheduleRunning numNewTokens _ _ =>
    let numBlocks := (s.request.numComputedTokens + numNewTokens) / spec.offloadedBlockSize
    s.connector.startBlockIdx < numBlocks →
      spec.blockSizeFactor * numBlocks ≤ s.request.base.blockHashes.length
  | _ => True

instance (spec : OffloadingSpec) (s : OffloadingRun) (step : OffloadingStep) :
    Decidable (s.HashesCover spec step) := by
  cases step <;> dsimp only [HashesCover] <;> infer_instance

end OffloadingRun

/-- `prepare_store` does not return `None`. -/
def OffloadingStep.NeverRefused : OffloadingStep → Prop
  | .scheduleWaiting _ _ _ prepareStore => ∀ hashes, prepareStore hashes ≠ none
  | .scheduleRunning _ _ prepareStore => ∀ hashes, prepareStore hashes ≠ none
  | _ => True

/-- The block with this index and this hash was passed in the call. -/
def StoreCall.Passes (call : StoreCall) (idx : ℕ) (blockHash : BlockHash) : Prop :=
  call.startBlockIdx ≤ idx ∧ call.blockHashes[idx - call.startBlockIdx]? = some blockHash

instance (call : StoreCall) (idx : ℕ) (blockHash : BlockHash) : Decidable (call.Passes idx blockHash) :=
  inferInstanceAs (Decidable (_ ∧ _))

/-- The hash of an offloaded block: that of the last GPU block in it. -/
def OffloadingSpec.blockHash (spec : OffloadingSpec) (blockHashes : List BlockHash) (idx : ℕ) : Option BlockHash :=
  blockHashes[spec.blockSizeFactor * idx + spec.blockSizeFactor - 1]?

/-! ## Slices -/

lemma getElem?_filterMap_range {f : ℕ → Option α} (h : ∀ k < n, (f k).isSome) (k : ℕ) :
    ((range n).filterMap f)[k]? = if k < n then f k else none := by
  have hmap : ((range n).filterMap f).map some = (range n).map f := by
    rw [map_filterMap_some_eq_filter_map_isSome, filter_eq_self]
    intro b hb
    obtain ⟨k, hk, rfl⟩ := mem_map.mp hb
    exact h k (mem_range.mp hk)
  have hget := congrArg (·[k]?) hmap
  simp only [getElem?_map] at hget
  split
  · rename_i hk
    rw [getElem?_range hk] at hget
    obtain ⟨a, ha, heq⟩ := Option.map_eq_some_iff.mp hget
    rw [ha, heq]
  · rename_i hk
    have hnone : (range n)[k]? = none := getElem?_eq_none (by simpa using hk)
    rw [hnone] at hget
    exact Option.map_eq_none_iff.mp hget

/-- A slice has the elements at the indices before its end. -/
lemma getElem?_islice (l : List α) {start stop step : ℕ} (hstop : stop ≤ l.length)
    (hn : ∀ k, k < n ↔ start + k * step < stop) (hlength : n ≤ l.length) (k : ℕ) :
    (islice l start (some stop) step)[k]? = if k < n then l[start + k * step]? else none := by
  have hslice : islice l start (some stop) step = (range n).filterMap fun k => l[start + k * step]? := by
    obtain ⟨m, hm⟩ := Nat.exists_eq_add_of_le hlength
    have hrest : ((range m).map (n + ·)).filterMap (fun k =>
        if start + k * step < stop then l[start + k * step]? else none) = [] := by
      simp [← hn]
    simp only [islice, Option.all_some, decide_eq_true_eq]
    rw [hm, range_add, filterMap_append, hrest, append_nil]
    refine filterMap_congr fun k hk => if_pos ?_
    exact (hn k).mp (mem_range.mp hk)
  rw [hslice]
  refine getElem?_filterMap_range (fun k hk => ?_) k
  rw [getElem?_eq_getElem (lt_of_lt_of_le ((hn k).mp hk) hstop)]
  rfl

namespace OffloadingSpec

variable {spec : OffloadingSpec} {hashes : List BlockHash} {start n : ℕ}

lemma Valid.blockSizeFactor_pos (hspec : spec.Valid) : 0 < spec.blockSizeFactor := by
  have hdvd := Nat.dvd_of_mod_eq_zero hspec.dvd
  exact Nat.div_pos (Nat.le_of_dvd hspec.pos hdvd) (Nat.pos_of_dvd_of_pos hdvd hspec.pos)

/-- The hashes of a range of blocks that all have one. -/
lemma getElem?_getBlockHashes (hspec : spec.Valid) (hstart : start < n)
    (hcover : spec.blockSizeFactor * n ≤ hashes.length) (k : ℕ) :
    (spec.getBlockHashes hashes start (some n))[k]? =
      if start + k < n then spec.blockHash hashes (start + k) else none := by
  have hpos := hspec.blockSizeFactor_pos
  have hn : ∀ k, k < n - start ↔ spec.blockSizeFactor * start + spec.blockSizeFactor - 1 +
      k * spec.blockSizeFactor < spec.blockSizeFactor * n := by
    intro k
    have hk : spec.blockSizeFactor * (start + k + 1) ≤ spec.blockSizeFactor * n ↔ start + k + 1 ≤ n :=
      Nat.mul_le_mul_left_iff hpos
    rw [Nat.mul_comm k]
    rw [Nat.mul_add, Nat.mul_add, Nat.mul_one] at hk
    omega
  have hlength : n - start ≤ hashes.length := by
    have hle := Nat.le_mul_of_pos_left n hpos
    omega
  have hindex : spec.blockSizeFactor * start + spec.blockSizeFactor - 1 + k * spec.blockSizeFactor =
      spec.blockSizeFactor * (start + k) + spec.blockSizeFactor - 1 := by
    rw [Nat.mul_comm k, Nat.mul_add]
    omega
  have hstop : (some n).filter (· ≠ 0) = some n := Option.filter_some_pos (by simpa using by omega)
  rw [getBlockHashes, hstop, Option.map_some, getElem?_islice hashes hcover hn hlength, hindex]
  simp [blockHash, Nat.lt_sub_iff_add_lt']

/-- A call with such a range passes exactly the blocks in it. -/
lemma passes_getBlockHashes (hspec : spec.Valid) (hstart : start < n)
    (hcover : spec.blockSizeFactor * n ≤ hashes.length) (idx : ℕ) (blockHash : BlockHash) :
    (StoreCall.mk start (spec.getBlockHashes hashes start (some n))).Passes idx blockHash ↔
      start ≤ idx ∧ idx < n ∧ spec.blockHash hashes idx = some blockHash := by
  refine and_congr_right fun hle => ?_
  rw [getElem?_getBlockHashes hspec hstart hcover, Nat.add_sub_cancel' hle]
  by_cases hidx : idx < n <;> simp [hidx]

/-- More hashes do not change the ones that are there. -/
lemma blockHash_of_isPrefix {hashes' : List BlockHash} (hpre : hashes <+: hashes') {idx : ℕ}
    {blockHash : BlockHash} (h : spec.blockHash hashes idx = some blockHash) :
    spec.blockHash hashes' idx = some blockHash := by
  obtain ⟨rest, rfl⟩ := hpre
  have hlt := lt_of_getElem? h
  rw [OffloadingSpec.blockHash, getElem?_append_left hlt]
  exact h

end OffloadingSpec

/-! ## The functions of the connector and the schedulers -/

namespace OffloadedRequest

variable {spec : OffloadingSpec} {c c' : OffloadedRequest}

@[simp] lemma startBlockIdx_addBlockIds (newBlockIds : List ℕ) (preempted : Bool) :
    (c.addBlockIds newBlockIds preempted).startBlockIdx = c.startBlockIdx := rfl

/-- The cursor goes to the number of blocks, and what it passes over goes to `prepare_store`. -/
lemma getReqToStore_eq_ok {prepareStore : List BlockHash → Option PrepareStoreOutput} {request : SchedRequest}
    {newTokens : ℤ} {newBlockIds : List ℕ} {preempted : Bool} {stored : Option (List BlockHash)}
    {transfer : Option TransferSpec} (hstore : ∀ hashes, prepareStore hashes ≠ none)
    (h : c.getReqToStore spec prepareStore request newTokens newBlockIds preempted = .ok (stored, transfer, c')) :
    (numBlocks spec request newTokens ≤ c.startBlockIdx ∧ stored = none ∧ c'.startBlockIdx = c.startBlockIdx) ∨
      ∃ n : ℕ, numBlocks spec request newTokens = n ∧ c.startBlockIdx < n ∧ c'.startBlockIdx = n ∧
        stored = some (spec.getBlockHashes request.base.blockHashes c.startBlockIdx (some n)) := by
  unfold getReqToStore at h
  dsimp only at h
  split at h
  · rename_i hle
    cases h
    exact Or.inl ⟨by simpa using hle, rfl, rfl⟩
  · rename_i hlt
    obtain ⟨n, hn⟩ := Int.eq_ofNat_of_zero_le (show 0 ≤ numBlocks spec request newTokens by
      simp at hlt
      omega)
    rw [hn] at h hlt
    refine Or.inr ⟨n, hn, by simpa using hlt, ?_⟩
    split at h
    · rename_i hnone
      exact absurd hnone (hstore _)
    · split at h
      · cases h
        exact ⟨rfl, rfl⟩
      · obtain ⟨src, -, hret⟩ := bind_eq_ok h
        cases hret
        exact ⟨rfl, rfl⟩

lemma updateStateAfterAlloc_zero (blockHashes : List BlockHash) (blockIds : List ℕ) (n : ℕ) :
    c.updateStateAfterAlloc spec blockHashes blockIds n 0 = .ok (none, { c with requestBlockIds := [] }) := rfl

end OffloadedRequest

/-- The hashes of a request only grow. -/
lemma blockHashes_appendOutput {hasher : Option (Request → List BlockHash)} {maxModelLen : ℕ}
    {tokenIds appended : List TokenId} {request request' : SchedRequest} {stopped : Bool}
    (h : appendOutput hasher maxModelLen tokenIds request = .ok (appended, stopped, request')) :
    request.base.blockHashes <+: request'.base.blockHashes := by
  induction tokenIds generalizing request appended with
  | nil =>
    cases h
    exact prefix_rfl
  | cons tokenId tokenIds ih =>
    have hgrow : request.base.blockHashes <+:
        (request.base.appendOutputTokenIds hasher [tokenId]).blockHashes := by
      cases hasher with
      | none => exact prefix_rfl
      | some hash => exact prefix_append _ _
    rw [appendOutput] at h
    obtain ⟨⟨stop, request₁⟩, hcheck, h⟩ := bind_eq_ok h
    obtain ⟨rfl, rfl⟩ | ⟨rfl, status, stopReason, rfl, -⟩ := checkStop_eq_ok hcheck
    · obtain ⟨⟨rest, stop, request₂⟩, hrest, hret⟩ := bind_eq_ok h
      cases hret
      exact hgrow.trans (ih hrest)
    · cases h
      exact hgrow

namespace SchedRequest

variable {config : SchedulerConfig} {hasher : Option (Request → List BlockHash)} {request request' : SchedRequest}
  {tokenIds : List TokenId}

/-- Output tokens do not change the number of computed tokens. -/
lemma updateWithOutput_eq_ok (h : request.updateWithOutput config hasher tokenIds = .ok request') :
    request'.numComputedTokens = request.numComputedTokens ∧
      request.base.blockHashes <+: request'.base.blockHashes := by
  obtain ⟨⟨appended, stopped, updated⟩, happend, h⟩ := bind_eq_ok h
  have hgrow := blockHashes_appendOutput happend
  obtain ⟨base, status, stopReason, rfl, -⟩ := appendOutput_eq_ok happend
  dsimp only at h
  split at h
  · obtain ⟨_, -, rfl⟩ := map_eq_ok h
    exact ⟨rfl, hgrow⟩
  · cases h
    exact ⟨rfl, hgrow⟩

lemma numComputedTokens_afterSchedule (n : ℤ) (numSpec : ℕ) :
    (request.afterSchedule config n numSpec).numComputedTokens = request.numComputedTokens + n := by
  obtain ⟨_, _, h⟩ := afterSchedule_eq config request n numSpec
  rw [h]

lemma base_afterSchedule (n : ℤ) (numSpec : ℕ) :
    (request.afterSchedule config n numSpec).base = request.base := by
  obtain ⟨_, _, h⟩ := afterSchedule_eq config request n numSpec
  rw [h]

/-- Rejected drafts are no longer computed. -/
lemma numComputedTokens_rejectDrafts {specTokens : List ℤ} (h : tokenIds.length ≤ specTokens.length + 1) :
    (request.rejectDrafts specTokens tokenIds).numComputedTokens ≤ request.numComputedTokens := by
  unfold rejectDrafts
  split
  · rfl
  · dsimp only
    split <;> omega

lemma base_rejectDrafts (specTokens : List ℤ) (tokenIds : List TokenId) :
    (request.rejectDrafts specTokens tokenIds).base = request.base := by
  obtain ⟨_, _, h⟩ := rejectDrafts_eq request specTokens tokenIds
  rw [h]
  rfl

end SchedRequest

/-! ## Runs -/

namespace OffloadingRun

/-- The blocks between those that were loaded and the cursor have hashes, and the calls passed each of them
once and no other block. -/
structure Stored (spec : OffloadingSpec) (s : OffloadingRun) : Prop where
  loaded : s.numLoaded ≤ s.connector.startBlockIdx
  hashed : ∀ idx, s.numLoaded ≤ idx → idx < s.connector.startBlockIdx →
    (spec.blockHash s.request.base.blockHashes idx).isSome
  passed : ∀ idx blockHash, s.stores.countP (·.Passes idx blockHash) =
    if s.numLoaded ≤ idx ∧ idx < s.connector.startBlockIdx ∧
      spec.blockHash s.request.base.blockHashes idx = some blockHash then 1 else 0

/-- The cursor is also after all computed blocks. -/
structure Tracked (spec : OffloadingSpec) (s : OffloadingRun) : Prop extends s.Stored spec where
  reached : s.request.numComputedTokens < (s.connector.startBlockIdx + 1) * spec.offloadedBlockSize

variable {spec : OffloadingSpec} {config : SchedulerConfig} {hasher : Option (Request → List BlockHash)}
  {s s' : OffloadingRun}

/-- Nothing was passed before the request is loaded or scheduled. -/
lemma Stored.of_stores_eq_nil (hstores : s.stores = []) (hloaded : s.numLoaded = s.connector.startBlockIdx) :
    s.Stored spec where
  loaded := hloaded.le
  hashed idx hle hlt := absurd (hloaded ▸ hle) (not_le.mpr hlt)
  passed idx blockHash := by
    rw [hstores, if_neg fun h => not_le.mpr h.2.1 (hloaded ▸ h.1)]
    rfl

/-- This depends on the cursor, the hashes and the calls. -/
lemma Stored.congr (hs : s.Stored spec) (hstart : s'.connector.startBlockIdx = s.connector.startBlockIdx)
    (hhashes : s'.request.base.blockHashes = s.request.base.blockHashes) (hstores : s'.stores = s.stores)
    (hloaded : s'.numLoaded = s.numLoaded) : s'.Stored spec where
  loaded := by
    rw [hstart, hloaded]
    exact hs.loaded
  hashed := by
    rw [hstart, hloaded, hhashes]
    exact hs.hashed
  passed := by
    rw [hstart, hloaded, hhashes, hstores]
    exact hs.passed

/-- New hashes of the request are those of blocks after the cursor. -/
lemma Stored.setRequest (hs : s.Stored spec) {request : SchedRequest} (inFlight : List (List ℤ))
    (hgrow : s.request.base.blockHashes <+: request.base.blockHashes) :
    ({ s with request, inFlight } : OffloadingRun).Stored spec where
  loaded := hs.loaded
  hashed idx hle hlt := by
    obtain ⟨blockHash, hhash⟩ := Option.isSome_iff_exists.mp (hs.hashed idx hle hlt)
    simp [OffloadingSpec.blockHash_of_isPrefix hgrow hhash]
  passed idx blockHash := by
    refine (hs.passed idx blockHash).trans (if_congr ?_ rfl rfl)
    refine and_congr_right fun hle => and_congr_right fun hlt => ?_
    obtain ⟨h, hhash⟩ := Option.isSome_iff_exists.mp (hs.hashed idx hle hlt)
    rw [hhash, OffloadingSpec.blockHash_of_isPrefix hgrow hhash]

/-- The cursor passes over blocks that have hashes. -/
lemma Stored.append (hspec : spec.Valid) (hs : s.Stored spec) (hlt : s.connector.startBlockIdx < n)
    (hcover : spec.blockSizeFactor * n ≤ s.request.base.blockHashes.length) {connector : OffloadedRequest}
    (hstart : connector.startBlockIdx = n) :
    ({ s with
      connector
      stores := s.stores ++ [⟨s.connector.startBlockIdx,
        spec.getBlockHashes s.request.base.blockHashes s.connector.startBlockIdx (some n)⟩] } :
      OffloadingRun).Stored spec where
  loaded := hs.loaded.trans (hstart ▸ hlt.le)
  hashed idx _ hidx := by
    have hpos := hspec.blockSizeFactor_pos
    have hle : spec.blockSizeFactor * (idx + 1) ≤ spec.blockSizeFactor * n :=
      Nat.mul_le_mul_left _ (by rw [← hstart]; exact hidx)
    have hlast : spec.blockSizeFactor * idx + spec.blockSizeFactor - 1 < s.request.base.blockHashes.length := by
      rw [Nat.mul_add] at hle
      omega
    rw [OffloadingSpec.blockHash, getElem?_eq_getElem hlast]
    rfl
  passed idx blockHash := by
    have hold := hs.passed idx blockHash
    have hnew := OffloadingSpec.passes_getBlockHashes hspec hlt hcover idx blockHash
    have hloaded := hs.loaded
    simp only [countP_append, countP_singleton, decide_eq_true_eq, hold, hnew, hstart]
    by_cases hidx : idx < s.connector.startBlockIdx
    · simp [hidx, not_le.mpr hidx, hidx.trans hlt]
    · simp [hidx, not_lt.mp hidx, hloaded.trans (not_lt.mp hidx)]

/-- A step that schedules the request, if the blocks that the cursor passes over have their hashes. -/
lemma Stored.schedule (hspec : spec.Valid) (hs : s.Stored spec) {numNewTokens : ℤ} {newBlockIds : List ℕ}
    {prepareStore : List BlockHash → Option PrepareStoreOutput} {specTokens : List ℤ}
    (hstore : ∀ hashes, prepareStore hashes ≠ none)
    (hcover : s.connector.startBlockIdx < OffloadedRequest.numBlocks spec s.request numNewTokens →
      spec.blockSizeFactor * OffloadedRequest.numBlocks spec s.request numNewTokens ≤
        s.request.base.blockHashes.length)
    (h : s.schedule spec config numNewTokens newBlockIds prepareStore specTokens = .ok s') : s'.Tracked spec := by
  obtain ⟨⟨stored, transfer, connector⟩, hget, hret⟩ := bind_eq_ok h
  cases hret
  have hpos : (0 : ℤ) < spec.offloadedBlockSize := by exact_mod_cast hspec.pos
  have hafter : ∀ n : ℤ, OffloadedRequest.numBlocks spec s.request numNewTokens ≤ n →
      s.request.numComputedTokens + numNewTokens < (n + 1) * spec.offloadedBlockSize := by
    intro n hle
    exact (Int.ediv_lt_iff_lt_mul hpos).mp (Int.lt_add_one_of_le hle)
  have hbase : ({ s.request with specTokenIds := [] }.afterSchedule config numNewTokens specTokens.length).base =
      s.request.base := SchedRequest.base_afterSchedule numNewTokens specTokens.length
  rcases OffloadedRequest.getReqToStore_eq_ok hstore hget with ⟨hle, rfl, hstart⟩ | ⟨n, hn, hlt, hstart, rfl⟩
  · refine ⟨hs.congr hstart (congrArg Request.blockHashes hbase) (append_nil _) rfl, ?_⟩
    rw [SchedRequest.numComputedTokens_afterSchedule, hstart]
    exact hafter _ hle
  · rw [hn] at hcover
    have happended := hs.append hspec hlt (by exact_mod_cast hcover (by exact_mod_cast hlt)) hstart
    refine ⟨happended.congr rfl (congrArg Request.blockHashes hbase) rfl rfl, ?_⟩
    rw [SchedRequest.numComputedTokens_afterSchedule, hstart]
    exact hafter _ hn.le

/-- Each step keeps track of the blocks, as long as the cursor only passes over blocks that have hashes. -/
lemma Tracked.run (hspec : spec.Valid) (hs : s.Tracked spec) {step : OffloadingStep} (horder : s.InOrder config step)
    (hstore : step.NeverRefused) (hcover : s.HashesCover spec step)
    (h : OffloadingRun.run spec config hasher step s = .ok s') :
    s'.Tracked spec := by
  cases step with
  | load blockIds numComputedGpuBlocks numExternalTokens =>
    obtain ⟨-, hstores, hcomputed⟩ := horder
    obtain ⟨⟨load, connector⟩, -, hret⟩ := bind_eq_ok h
    cases hret
    refine ⟨.of_stores_eq_nil hstores rfl, ?_⟩
    have hpos : (0 : ℤ) < spec.offloadedBlockSize := by exact_mod_cast hspec.pos
    rw [hcomputed]
    positivity
  | scheduleWaiting numComputedTokens numNewTokens newBlockIds prepareStore =>
    obtain ⟨⟨load, connector⟩, halloc, hschedule⟩ := bind_eq_ok h
    rw [OffloadedRequest.updateStateAfterAlloc_zero] at halloc
    cases halloc
    have hstored : ({ s with
        connector := { s.connector with requestBlockIds := [] }
        request := { s.request with status := .running, numComputedTokens } } : OffloadingRun).Stored spec :=
      hs.toStored.congr rfl rfl rfl rfl
    exact hstored.schedule hspec hstore hcover hschedule
  | scheduleRunning numNewTokens newBlockIds prepareStore =>
    exact hs.toStored.schedule hspec hstore hcover h
  | output sampledTokenIds =>
    obtain ⟨-, hnum⟩ := horder
    cases hflight : s.inFlight with
    | nil =>
      rw [OffloadingRun.run, hflight] at h
      cases h
    | cons specTokens inFlight =>
      rw [OffloadingRun.run, hflight] at h
      have hle : (s.request.rejectDrafts specTokens sampledTokenIds).numComputedTokens ≤
          s.request.numComputedTokens :=
        SchedRequest.numComputedTokens_rejectDrafts (hnum specTokens (by simp [hflight]))
      have hbase := s.request.base_rejectDrafts specTokens sampledTokenIds
      dsimp only at h
      split at h
      · cases h
        exact ⟨hs.toStored.setRequest inFlight (by rw [hbase]), lt_of_le_of_lt hle hs.reached⟩
      · obtain ⟨request, hupdate, rfl⟩ := map_eq_ok h
        obtain ⟨hcomputed, hgrow⟩ := SchedRequest.updateWithOutput_eq_ok hupdate
        rw [hbase] at hgrow
        exact ⟨hs.toStored.setRequest inFlight hgrow, lt_of_le_of_lt (hcomputed.trans_le hle) hs.reached⟩
  | drafts draftTokenIds =>
    cases h
    exact ⟨hs.toStored.congr rfl rfl rfl rfl, hs.reached⟩

/-- A request that was neither loaded nor scheduled. -/
structure Fresh (s : OffloadingRun) : Prop where
  computed : s.request.numComputedTokens = 0
  connector : s.connector = {}
  stores : s.stores = []
  numLoaded : s.numLoaded = 0

lemma Fresh.tracked (hspec : spec.Valid) (hs : s.Fresh) : s.Tracked spec := by
  have hstart : s.connector.startBlockIdx = 0 := by
    rw [hs.connector]
    rfl
  refine ⟨.of_stores_eq_nil hs.stores (hs.numLoaded.trans hstart.symm), ?_⟩
  have hpos := hspec.pos
  rw [hs.computed, hstart]
  omega

/-- A block that is computed and hashed was passed to `prepare_store` in one step, or was loaded, as long as
the cursor only passes over blocks that have hashes. -/
theorem passedOnce_of_reaches (hspec : spec.Valid) {start : OffloadingRun} (hstart : start.Fresh)
    (hreach : Reaches (OffloadingRun.run spec config hasher)
      (fun s step => s.InOrder config step ∧ step.NeverRefused ∧ s.HashesCover spec step) start s)
    {idx : ℕ} {blockHash : BlockHash} (hcomputed : (idx + 1) * spec.offloadedBlockSize ≤ s.request.numComputedTokens)
    (hhash : spec.blockHash s.request.base.blockHashes idx = some blockHash) :
    s.stores.countP (·.Passes idx blockHash) = if s.numLoaded ≤ idx then 1 else 0 := by
  have htracked := hreach.invariant (hstart.tracked hspec) fun _ _ _ hs hallowed hrun =>
    hs.run hspec hallowed.1 hallowed.2.1 hallowed.2.2 hrun
  have hlt : idx < s.connector.startBlockIdx := by
    have hpos : (0 : ℤ) < spec.offloadedBlockSize := by exact_mod_cast hspec.pos
    have hle := lt_of_le_of_lt hcomputed htracked.reached
    have hidx := lt_of_mul_lt_mul_right hle hpos.le
    omega
  simp [htracked.passed, hlt, hhash]

/-! ## Examples -/

/-- Blocks of two tokens, one to a block that is stored. -/
def pairSpec : OffloadingSpec := ⟨2, 2⟩

def pairConfig (asyncScheduling : Bool) : SchedulerConfig where
  maxNumRunningReqs := 1
  maxNumScheduledTokens := 8
  maxModelLen := 8
  cacheBlockSize := 2
  blockSize := 2
  hasConnector := true
  asyncScheduling

/-- A hash is the tokens of its block. -/
def pairHasher : Option (Request → List BlockHash) :=
  some (requestBlockHasher (fun input => input.currBlockTokenIds.map UInt8.ofNat) [] 2)

/-- A request that has one token. -/
def shortPrompt : OffloadingRun where
  request := {
    base := { requestId := 0, promptTokenIds := some [7], numPromptTokens := 1, allTokenIds := [7] }
    samplingParams := some { maxTokens := 4 }
    maxTokens := 4 }

/-- All blocks are stored. -/
def storesAll (hashes : List BlockHash) : Option PrepareStoreOutput :=
  some ⟨hashes, List.range hashes.length, []⟩

lemma neverRefused_storesAll (hashes : List BlockHash) : storesAll hashes ≠ none := nofun

/-- The request gets its second token, of which the next step computes the block. -/
def secondToken : List OffloadingStep :=
  [.scheduleWaiting 0 1 [0] storesAll, .output [8], .scheduleRunning 1 [] storesAll, .output [9]]

/-- The same, but the second step is scheduled before the output of the first one is known. -/
def secondTokenAhead : List OffloadingStep :=
  [.scheduleWaiting 0 1 [0] storesAll, .scheduleRunning 1 [] storesAll, .output [8], .output [9]]

/-- The request after these steps. -/
def afterSecondToken (stores : List StoreCall) : OffloadingRun where
  request := { shortPrompt.request with
    base := { shortPrompt.request.base with
      outputTokenIds := [8, 9], allTokenIds := [7, 8, 9], blockHashes := [[7, 8]] }
    status := .running
    numComputedTokens := 2 }
  connector := ⟨[0], some 1⟩
  stores

theorem passedOnce_of_reaches_secondToken :
    (afterSecondToken [⟨0, [[7, 8]]⟩]).stores.countP (·.Passes 0 [7, 8]) = if 0 ≤ 0 then 1 else 0 := by
  have hrun : runChecked (run pairSpec (pairConfig false) pairHasher)
      (fun s step => s.InOrder (pairConfig false) step ∧ s.HashesCover pairSpec step) secondToken shortPrompt =
        some (afterSecondToken [⟨0, [[7, 8]]⟩]) := by
    decide +kernel
  have hrefused : ∀ step ∈ secondToken, step.NeverRefused := by
    simp [secondToken, OffloadingStep.NeverRefused, neverRefused_storesAll]
  have hreach : Reaches (run pairSpec (pairConfig false) pairHasher)
      (fun s step => s.InOrder (pairConfig false) step ∧ step.NeverRefused ∧ s.HashesCover pairSpec step)
      shortPrompt (afterSecondToken [⟨0, [[7, 8]]⟩]) :=
    .of_runChecked_mem (fun s step hmem hcheck =>
      have hcheck := of_decide_eq_true hcheck
      ⟨hcheck.1, hrefused step hmem, hcheck.2⟩) .start hrun
  exact passedOnce_of_reaches ⟨by decide, rfl⟩ ⟨rfl, rfl, rfl, rfl⟩ hreach (by decide) (by decide)

/-- The cursor passes over the block before its hash is known, and the block is never stored. -/
theorem skips_secondToken :
    Reaches (run pairSpec (pairConfig true) pairHasher)
      (fun s step => s.InOrder (pairConfig true) step ∧ step.NeverRefused) shortPrompt (afterSecondToken [⟨0, []⟩]) ∧
    (0 + 1) * pairSpec.offloadedBlockSize ≤ (afterSecondToken [⟨0, []⟩]).request.numComputedTokens ∧
    pairSpec.blockHash (afterSecondToken [⟨0, []⟩]).request.base.blockHashes 0 = some [7, 8] ∧
    (afterSecondToken [⟨0, []⟩]).numLoaded = 0 ∧
    (afterSecondToken [⟨0, []⟩]).stores.countP (·.Passes 0 [7, 8]) = 0 := by
  have hrun : runChecked (run pairSpec (pairConfig true) pairHasher) (fun s step => s.InOrder (pairConfig true) step)
      secondTokenAhead shortPrompt = some (afterSecondToken [⟨0, []⟩]) := by
    decide +kernel
  have hrefused : ∀ step ∈ secondTokenAhead, step.NeverRefused := by
    simp [secondTokenAhead, OffloadingStep.NeverRefused, neverRefused_storesAll]
  refine ⟨?_, by decide, by decide, rfl, by decide⟩
  exact .of_runChecked_mem (fun s step hmem hcheck => ⟨of_decide_eq_true hcheck, hrefused step hmem⟩) .start hrun

end OffloadingRun

end VllmRuntime
