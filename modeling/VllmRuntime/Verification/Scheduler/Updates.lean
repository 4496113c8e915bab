import VllmRuntime.Model.SchedulerUpdate

/-! # What outputs do to a request

One lemma for each function that `update_from_output`, `finish_requests` and `add_request` call: what
it changes when it does not fail. -/

namespace VllmRuntime

open List

variable {stopped : Bool} {request request' : SchedRequest} {tokenIds appended : List TokenId}
  {maxModelLen : ℕ} {r : RequestId}

/-! ## Freeing -/

namespace Scheduler

variable {s s' : Scheduler} {r : RequestId} {delayFreeBlocks : RequestId → Bool}

lemma freeBlocks_eq_ok (h : s.freeBlocks r = .ok s') :
    (s.request r).isFinished = true ∧ ∃ kvCacheManager,
      s' = { s with kvCacheManager, requests := s.requests.erase r } := by
  obtain ⟨_, hfinished, h⟩ := bind_eq_ok h
  obtain ⟨kv, -, h⟩ := bind_eq_ok h
  refine ⟨pyAssert_eq_ok.mp hfinished, kv, ?_⟩
  split at h
  · exact (Except.ok.inj h).symm
  · cases h

lemma connectorFinished_eq_ok {delay : Bool}
    (h : s.connectorFinished delayFreeBlocks r = .ok (delay, s')) :
    ∃ kvCacheManager, s' = { s with kvCacheManager } := by
  unfold connectorFinished at h
  split at h
  · cases h
    exact ⟨s.kvCacheManager, rfl⟩
  · obtain ⟨kv, -, h⟩ := bind_eq_ok h
    obtain ⟨_, -, hret⟩ := bind_eq_ok h
    cases hret
    exact ⟨kv, rfl⟩

/-- A finished request is forgotten, or kept for the connector. -/
lemma freeRequest_eq_ok (h : s.freeRequest delayFreeBlocks r = .ok s') :
    (s.request r).isFinished = true ∧
      ∃ kvCacheManager encoderCacheManager finishedReqIds requests, s' = { s with
        kvCacheManager, encoderCacheManager, finishedReqIds, requests } ∧
      (requests = s.requests ∨ requests = s.requests.erase r) := by
  obtain ⟨_, hfinished, h⟩ := bind_eq_ok h
  obtain ⟨⟨delay, s₁⟩, hconnector, h⟩ := bind_eq_ok h
  obtain ⟨kv, rfl⟩ := connectorFinished_eq_ok hconnector
  refine ⟨pyAssert_eq_ok.mp hfinished, ?_⟩
  dsimp only at h
  split at h
  · cases h
    exact ⟨kv, _, _, s.requests, rfl, Or.inl rfl⟩
  · obtain ⟨-, kv', rfl⟩ := freeBlocks_eq_ok h
    exact ⟨kv', _, _, s.requests.erase r, rfl, Or.inr rfl⟩

end Scheduler

/-! ## Stopping -/

/-- A request that stops gets a finished status. -/
lemma checkStop_eq_ok (h : checkStop request maxModelLen = .ok (stopped, request')) :
    (stopped = false ∧ request' = request) ∨
    (stopped = true ∧ ∃ status stopReason, request' = { request with status, stopReason } ∧
      status.isFinished = true) := by
  obtain ⟨_, -, h⟩ := bind_eq_ok h
  split at h
  · cases h
  · split at h
    · cases h
      exact Or.inl ⟨rfl, rfl⟩
    · split at h
      · cases h
        exact Or.inr ⟨rfl, .finishedStopped, request.stopReason, rfl, rfl⟩
      · split at h
        · cases h
          exact Or.inr ⟨rfl, .finishedStopped, _, rfl, rfl⟩
        · split at h
          · cases h
            exact Or.inr ⟨rfl, .finishedLengthCapped, request.stopReason, rfl, rfl⟩
          · cases h
            exact Or.inl ⟨rfl, rfl⟩

@[simp] lemma Request.numTokens_appendOutputTokenIds (hasher : Option (Request → List BlockHash))
    (request : Request) (tokenIds : List TokenId) :
    (request.appendOutputTokenIds hasher tokenIds).numTokens =
      request.numTokens + tokenIds.length := by
  unfold appendOutputTokenIds extendBlockHashes numTokens
  split <;> simp

/-- Tokens are appended until the request stops. -/
lemma appendOutput_eq_ok {hasher : Option (Request → List BlockHash)}
    (h : appendOutput hasher maxModelLen tokenIds request = .ok (appended, stopped, request')) :
    ∃ base status stopReason, request' = { request with base, status, stopReason } ∧
      base.numTokens = request.base.numTokens + appended.length ∧
      appended <+: tokenIds ∧
      (stopped = false → status = request.status ∧ appended = tokenIds) ∧
      (stopped = true → status.isFinished = true ∧ appended ≠ []) := by
  induction tokenIds generalizing request appended with
  | nil =>
    cases h
    exact ⟨_, _, _, rfl, rfl, prefix_rfl, fun _ => ⟨rfl, rfl⟩,
      fun h => absurd h Bool.false_ne_true⟩
  | cons tokenId tokenIds ih =>
    rw [appendOutput] at h
    obtain ⟨⟨stop, request₁⟩, hcheck, h⟩ := bind_eq_ok h
    obtain ⟨rfl, rfl⟩ | ⟨rfl, status, stopReason, rfl, hfinished⟩ := checkStop_eq_ok hcheck
    · obtain ⟨⟨rest, stop, request₂⟩, hrest, hret⟩ := bind_eq_ok h
      cases hret
      obtain ⟨base, status, stopReason, rfl, hnum, hpre, hgo, hstop⟩ := ih hrest
      refine ⟨base, status, stopReason, rfl, ?_, List.cons_prefix_cons.mpr ⟨rfl, hpre⟩, ?_, ?_⟩
      · simp at hnum
        rw [hnum, length_cons]
        omega
      · intro hfalse
        obtain ⟨hstatus, rfl⟩ := hgo hfalse
        exact ⟨hstatus, rfl⟩
      · exact fun htrue => ⟨(hstop htrue).1, cons_ne_nil _ _⟩
    · cases h
      refine ⟨_, status, stopReason, rfl, by simp, ?_, fun h => absurd h.symm Bool.false_ne_true,
        fun _ => ⟨hfinished, cons_ne_nil _ _⟩⟩
      simp

namespace Scheduler

variable {s s' : Scheduler} {r : RequestId} {tokenIds appended : List TokenId} {stopped : Bool}

/-- The output of a step is discarded if the request was reset while the step ran. -/
def discards (config : SchedulerConfig) (request : SchedRequest) : Bool :=
  config.asyncScheduling && request.discardLatestAsyncTokens

/-- Output tokens change one request and the blocks it has in the cache. -/
lemma updateRequestWithOutput_eq_ok
    (h : s.updateRequestWithOutput r tokenIds = .ok (appended, stopped, s')) :
    (discards s.config (s.request r) = true ∧ appended = [] ∧ stopped = false ∧
      s' = s.setRequest r { s.request r with discardLatestAsyncTokens := false }) ∨
    (discards s.config (s.request r) = false ∧ ∃ kvCacheManager request,
      appendOutput s.hasher s.config.maxModelLen tokenIds (s.request r) =
        .ok (appended, stopped, request) ∧
      (s.config.asyncScheduling = true → 0 ≤ request.numOutputPlaceholders - appended.length) ∧
      s' = { s with
        kvCacheManager
        request := Function.update s.request r { request with
          numOutputPlaceholders := if s.config.asyncScheduling then
            request.numOutputPlaceholders - appended.length else request.numOutputPlaceholders } }) := by
  unfold updateRequestWithOutput at h
  dsimp only at h
  split at h
  · rename_i hdiscard
    cases h
    exact Or.inl ⟨hdiscard, rfl, rfl, rfl⟩
  · rename_i hdiscard
    obtain ⟨⟨appended', stopped', request⟩, happend, h⟩ := bind_eq_ok h
    refine Or.inr ⟨by simpa [discards] using hdiscard, ?_⟩
    dsimp only at h
    split at h
    · rename_i hasync
      have hasync : s.config.asyncScheduling = false := by simpa using hasync
      cases h
      exact ⟨s.kvCacheManager, request, happend, by simp [hasync], by simp [hasync, setRequest]⟩
    · rename_i hasync
      have hasync : s.config.asyncScheduling = true := by simpa using hasync
      obtain ⟨_, hpos, h⟩ := bind_eq_ok h
      have hpos := pyAssert_eq_ok.mp hpos
      split at h
      · obtain ⟨kv, -, hret⟩ := bind_eq_ok h
        cases hret
        refine ⟨kv, request, happend, fun _ => by simpa using hpos, ?_⟩
        simp [hasync, setRequest]
      · cases h
        refine ⟨s.kvCacheManager, request, happend, fun _ => by simpa using hpos, ?_⟩
        simp [hasync, setRequest]

end Scheduler

/-- The request stops when it gets these tokens and this pooler output. -/
def SchedRequest.stops (config : SchedulerConfig) (hasher : Option (Request → List BlockHash))
    (request : SchedRequest) (tokenIds : List TokenId) (hasPoolerOutput : Bool) : Bool :=
  if tokenIds = [] then
    request.isPooling && hasPoolerOutput
  else
    !Scheduler.discards config request &&
      (appendOutput hasher config.maxModelLen tokenIds request).toOption.any (·.2.1)

/-- A request gets the tokens of a step, of which some are appended. It keeps its session, and its
status unless it stops. -/
structure SchedRequest.Receives (config : SchedulerConfig) (request : SchedRequest)
    (tokenIds appended : List TokenId) (stopped : Bool) (request' : SchedRequest) : Prop where
  eq : ∃ base status stopReason, request' = { request with
    base, status, stopReason
    numOutputPlaceholders := if config.asyncScheduling then
      request.numOutputPlaceholders - appended.length else request.numOutputPlaceholders
    discardLatestAsyncTokens := request.discardLatestAsyncTokens &&
      !(config.asyncScheduling && !tokenIds.isEmpty) }
  numTokens : request'.numTokens = request.numTokens + appended.length
  initial : appended <+: tokenIds
  discarded : Scheduler.discards config request = true → appended = []
  all : Scheduler.discards config request = false → stopped = false → appended = tokenIds
  nonneg : config.asyncScheduling = true → tokenIds ≠ [] →
    Scheduler.discards config request = false → 0 ≤ request'.numOutputPlaceholders
  status : stopped = false → request'.status = request.status
  finished : stopped = true → request'.status.isFinished = true

/-- The tokens of a step change one request. -/
lemma UpdateState.appendTokens_eq_ok {s s' : Scheduler} {hasPoolerOutput : Bool}
    (h : appendTokens s r tokenIds hasPoolerOutput = .ok (appended, stopped, s')) :
    stopped = (s.request r).stops s.config s.hasher tokenIds hasPoolerOutput ∧
    ∃ kvCacheManager request,
      s' = { s with kvCacheManager, request := Function.update s.request r request } ∧
      (s.request r).Receives s.config tokenIds appended stopped request := by
  unfold appendTokens at h
  split at h
  · rename_i htokens
    have htokens : tokenIds ≠ [] := by simpa using htokens
    obtain ⟨hdiscard, rfl, rfl, rfl⟩ | ⟨hdiscard, kv, request, happend, hpos, rfl⟩ :=
      Scheduler.updateRequestWithOutput_eq_ok h
    · refine ⟨by simp [SchedRequest.stops, htokens, hdiscard], s.kvCacheManager, _, rfl, ?_, rfl,
        by simp, fun _ => rfl, fun h => absurd (hdiscard.symm.trans h) (by simp),
        fun _ _ h => absurd (hdiscard.symm.trans h) (by simp), fun _ => rfl,
        fun h => absurd h Bool.false_ne_true⟩
      have hasync : s.config.asyncScheduling = true := by
        simp only [Scheduler.discards, Bool.and_eq_true] at hdiscard
        exact hdiscard.1
      exact ⟨(s.request r).base, (s.request r).status, (s.request r).stopReason,
        by simp [hasync, htokens]⟩
    · obtain ⟨base, status, stopReason, rfl, hnum, hinitial, hgo, hstop⟩ :=
        appendOutput_eq_ok happend
      refine ⟨by simp [SchedRequest.stops, htokens, hdiscard, happend, Except.toOption], kv, _, rfl,
        ⟨base, status, stopReason, ?_⟩, hnum, hinitial,
        fun h => absurd (hdiscard.symm.trans h) (by simp), fun _ h => (hgo h).2,
        fun hasync _ _ => by simpa [hasync] using hpos hasync, fun h => (hgo h).1,
        fun h => (hstop h).1⟩
      -- Outputs that are not discarded leave the flag as it is, and it is not set.
      cases hasync : s.config.asyncScheduling with
      | false => simp
      | true =>
        have hflag : (s.request r).discardLatestAsyncTokens = false := by
          simpa [Scheduler.discards, hasync] using hdiscard
        simp [hflag]
  · rename_i htokens
    have htokens : tokenIds = [] := by simpa using htokens
    subst htokens
    split at h
    · rename_i hpool
      cases h
      exact ⟨by simp [SchedRequest.stops, hpool], s.kvCacheManager, _, rfl,
        ⟨(s.request r).base, .finishedStopped, (s.request r).stopReason, by simp⟩, rfl, by simp,
        fun _ => rfl, fun _ _ => rfl, fun _ h => absurd rfl h,
        fun h => absurd h.symm Bool.false_ne_true, fun _ => rfl⟩
    · rename_i hpool
      cases h
      refine ⟨by simpa [SchedRequest.stops] using hpool, s.kvCacheManager, s.request r, ?_,
        ⟨(s.request r).base, (s.request r).status, (s.request r).stopReason, by simp⟩, rfl, by simp,
        fun _ => rfl, fun _ _ => rfl, fun _ h => absurd rfl h, fun _ => rfl,
        fun h => absurd h Bool.false_ne_true⟩
      rw [Function.update_eq_self]

lemma SchedRequest.Receives.session {config : SchedulerConfig}
    (h : request.Receives config tokenIds appended stopped request') :
    request'.resumable = request.resumable ∧ request'.streamingQueue = request.streamingQueue := by
  obtain ⟨base, status, stopReason, rfl⟩ := h.eq
  exact ⟨rfl, rfl⟩

/-- The request with other counters. -/
def SchedRequest.withCounters (request : SchedRequest)
    (numComputedTokens numOutputPlaceholders numExternalComputedTokens : ℤ) : SchedRequest :=
  { request with numComputedTokens, numOutputPlaceholders, numExternalComputedTokens }

lemma SchedRequest.rejectDrafts_eq (request : SchedRequest) (specTokenIds : List ℤ)
    (tokenIds : List TokenId) : ∃ numComputedTokens numOutputPlaceholders,
      request.rejectDrafts specTokenIds tokenIds = request.withCounters numComputedTokens
        numOutputPlaceholders request.numExternalComputedTokens := by
  unfold rejectDrafts
  split
  · exact ⟨request.numComputedTokens, request.numOutputPlaceholders, rfl⟩
  · exact ⟨_, _, rfl⟩

lemma checkStop_withCounters (request : SchedRequest) (maxModelLen : ℕ) (a b c : ℤ) :
    checkStop (request.withCounters a b c) maxModelLen =
      (checkStop request maxModelLen).map fun p => (p.1, p.2.withCounters a b c) := by
  obtain ⟨base, _, _, samplingParams, isPooling⟩ := request
  unfold checkStop SchedRequest.withCounters
  cases isPooling with
  | true => rfl
  | false =>
    cases samplingParams with
    | none => rfl
    | some params =>
      simp only [Bool.not_false, pyAssert_true, bind, Except.bind]
      rw [apply_ite (Except.map _), apply_ite (Except.map _), apply_ite (Except.map _),
        apply_ite (Except.map _)]
      rfl

lemma appendOutput_withCounters (hasher : Option (Request → List BlockHash)) (maxModelLen : ℕ)
    (tokenIds : List TokenId) (request : SchedRequest) (a b c : ℤ) :
    appendOutput hasher maxModelLen tokenIds (request.withCounters a b c) =
      (appendOutput hasher maxModelLen tokenIds request).map fun p =>
        (p.1, p.2.1, p.2.2.withCounters a b c) := by
  induction tokenIds generalizing request with
  | nil => rfl
  | cons tokenId tokenIds ih =>
    have hcheck := checkStop_withCounters
      { request with base := request.base.appendOutputTokenIds hasher [tokenId] } maxModelLen a b c
    rw [appendOutput, appendOutput]
    have happend : { request.withCounters a b c with
          base := (request.withCounters a b c).base.appendOutputTokenIds hasher [tokenId] } =
        SchedRequest.withCounters { request with
          base := request.base.appendOutputTokenIds hasher [tokenId] } a b c := rfl
    rw [happend, hcheck]
    cases checkStop { request with base := request.base.appendOutputTokenIds hasher [tokenId] }
      maxModelLen with
    | error e => rfl
    | ok p =>
      obtain ⟨stopped, request₁⟩ := p
      cases stopped with
      | true => rfl
      | false =>
        dsimp only [Except.map, bind, Except.bind]
        rw [if_neg Bool.false_ne_true, if_neg Bool.false_ne_true, ih]
        cases appendOutput hasher maxModelLen tokenIds request₁ <;> rfl

/-- Whether a request stops does not depend on its counters. -/
lemma SchedRequest.stops_withCounters (config : SchedulerConfig)
    (hasher : Option (Request → List BlockHash)) (request : SchedRequest) (tokenIds : List TokenId)
    (hasPoolerOutput : Bool) (a b c : ℤ) :
    (request.withCounters a b c).stops config hasher tokenIds hasPoolerOutput =
      request.stops config hasher tokenIds hasPoolerOutput := by
  unfold stops
  rw [appendOutput_withCounters]
  cases appendOutput hasher config.maxModelLen tokenIds request <;> rfl

/-! ## Sessions -/

namespace Scheduler

variable {s s' : Scheduler} {r : RequestId}

lemma updateSession_eq_ok {update : QueuedUpdate} (h : s.updateSession r update = .ok s') :
    ∃ base, updateRequestAsSession s.hasher (s.request r).kvRequest update.toStreamingUpdate =
        .ok base ∧ s' = { s with
      request := Function.update s.request r { s.request r with
        base
        arrivalTime := update.arrivalTime
        samplingParams := update.samplingParams
        status := .waiting }
      numWaitingForStreamingInput :=
        if (s.request r).status = RequestStatus.waitingForStreamingReq then
          s.numWaitingForStreamingInput - 1 else s.numWaitingForStreamingInput } := by
  obtain ⟨base, hbase, hret⟩ := bind_eq_ok h
  exact ⟨base, hbase, (Except.ok.inj hret).symm⟩

/-- The session of the request is over: no more input will come. -/
def sessionEnds (request : SchedRequest) : Bool :=
  !request.resumable || (request.streamingQueue.getD []).head? = some none

/-- A stopped request is finished, or gets the next input of its session, or waits for it. -/
lemma handleStoppedRequest_eq_ok {finished : Bool}
    (h : s.handleStoppedRequest r = .ok (finished, s')) :
    (sessionEnds (s.request r) = true ∧ finished = true ∧ ∃ streamingQueue,
      s' = s.setRequest r { s.request r with streamingQueue }) ∨
    (sessionEnds (s.request r) = false ∧ finished = false ∧
      ∃ s₁, s' = s₁.requeue r ∧
        ((∃ update streamingQueue,
          (s.setRequest r { s.request r with
            streamingQueue := some streamingQueue }).updateSession r update = .ok s₁) ∨
        ((s.request r).streamingQueue.getD [] = [] ∧
          s₁ = { s.setRequest r { s.request r with status := .waitingForStreamingReq } with
            numWaitingForStreamingInput := s.numWaitingForStreamingInput + 1 }))) := by
  unfold handleStoppedRequest at h
  dsimp only at h
  split at h
  · rename_i hresumable
    cases h
    have hresumable : (s.request r).resumable = false := by simpa using hresumable
    refine Or.inl ⟨by simp [sessionEnds, hresumable], rfl, (s.request r).streamingQueue, ?_⟩
    rw [setRequest, Function.update_eq_self]
  · rename_i hresumable
    have hresumable : (s.request r).resumable = true := by simpa using hresumable
    split at h
    · rename_i update streamingQueue hqueue
      split at h
      · cases h
        exact Or.inl ⟨by simp [sessionEnds, hqueue], rfl, some streamingQueue, rfl⟩
      · rename_i update
        obtain ⟨s₁, hs₁, hret⟩ := bind_eq_ok h
        cases hret
        exact Or.inr ⟨by simp [sessionEnds, hresumable, hqueue], rfl, s₁, rfl,
          Or.inl ⟨update, streamingQueue, hs₁⟩⟩
    · rename_i hqueue
      cases h
      have hempty : (s.request r).streamingQueue.getD [] = [] := by
        cases hq : (s.request r).streamingQueue with
        | none => rfl
        | some queue =>
          cases queue with
          | nil => rfl
          | cons update rest => exact absurd hq (hqueue update rest)
      exact Or.inr ⟨by simp [sessionEnds, hresumable, hempty], rfl, _, rfl, Or.inr ⟨hempty, rfl⟩⟩

end Scheduler

/-- The loop body of `update_from_output`: the request gets its tokens, and if it stops it is
finished or its session goes on. -/
lemma UpdateState.processRequest_eq_ok {u u' : UpdateState} {delayFreeBlocks : RequestId → Bool}
    {output : SchedulerOutput} {modelRunnerOutput : ModelRunnerOutput}
    (h : u.processRequest delayFreeBlocks output modelRunnerOutput r = .ok u') :
    ∃ kvCacheManager request appended stopped,
      stopped = (u.scheduler.request r).stops u.scheduler.config u.scheduler.hasher
        (modelRunnerOutput.sampledTokenIds r) (modelRunnerOutput.poolerOutput r) ∧
      ((u.scheduler.request r).rejectDrafts ((output.scheduledSpecDecodeTokens.lookup r).getD [])
        (modelRunnerOutput.sampledTokenIds r)).Receives u.scheduler.config
        (modelRunnerOutput.sampledTokenIds r) appended stopped request ∧
      ((stopped = false ∧ u'.scheduler = { u.scheduler with
          kvCacheManager, request := Function.update u.scheduler.request r request } ∧
        u'.stoppedRunningReqs = u.stoppedRunningReqs ∧
        u'.stoppedPreemptedReqs = u.stoppedPreemptedReqs) ∨
      (stopped = true ∧ handleStopped delayFreeBlocks { u.scheduler with
          kvCacheManager, request := Function.update u.scheduler.request r request } r =
            .ok u'.scheduler ∧
        u'.stoppedRunningReqs = (if (u.scheduler.request r).status = .running then
          u.stoppedRunningReqs ++ [r] else u.stoppedRunningReqs) ∧
        u'.stoppedPreemptedReqs = if (u.scheduler.request r).status = .running then
          u.stoppedPreemptedReqs else u.stoppedPreemptedReqs ++ [r])) := by
  obtain ⟨⟨appended, stopped, s₁⟩, happend, h⟩ := bind_eq_ok h
  obtain ⟨a, b, hreject⟩ := (u.scheduler.request r).rejectDrafts_eq
    ((output.scheduledSpecDecodeTokens.lookup r).getD []) (modelRunnerOutput.sampledTokenIds r)
  obtain ⟨hstopped, kv, request, rfl, hreceives⟩ := appendTokens_eq_ok happend
  rw [Scheduler.setRequest_request_self] at hstopped hreceives
  rw [hreject, SchedRequest.stops_withCounters] at hstopped
  refine ⟨kv, request, appended, stopped, hstopped, hreceives, ?_⟩
  dsimp only [Scheduler.setRequest] at h
  rw [Function.update_idem] at h
  cases stopped with
  | false =>
    cases h
    exact Or.inl ⟨rfl, rfl, rfl, rfl⟩
  | true =>
    rw [if_pos rfl] at h
    obtain ⟨s₂, hs₂, rfl⟩ := map_eq_ok h
    rw [hreject]
    exact Or.inr ⟨rfl, hs₂, rfl, rfl⟩

/-! ## Invalid blocks -/

/-- Only the counters of computed tokens differ. -/
def SchedRequest.SameButComputed (request request' : SchedRequest) : Prop :=
  ∃ numComputedTokens numExternalComputedTokens, request' = request.withCounters numComputedTokens
    request.numOutputPlaceholders numExternalComputedTokens

namespace SchedRequest.SameButComputed

lemma refl (request : SchedRequest) : SameButComputed request request := ⟨_, _, rfl⟩

lemma trans {a b c : SchedRequest} (h : SameButComputed a b) (h' : SameButComputed b c) :
    SameButComputed a c := by
  obtain ⟨n, m, rfl⟩ := h
  obtain ⟨n', m', rfl⟩ := h'
  exact ⟨n', m', rfl⟩

end SchedRequest.SameButComputed

lemma BlockScan.visitAll_request (blockSize : ℕ) (invalid : List BlockRef) (evictBlocks : Bool)
    (reqBlocks : List BlockRef) (n : ℤ) (blocks : List (BlockRef × ℕ)) (scan : BlockScan) :
    scan.request.SameButComputed
      (visitAll blockSize invalid evictBlocks reqBlocks n blocks scan).request := by
  induction blocks generalizing scan with
  | nil => exact .refl _
  | cons entry blocks ih =>
    obtain ⟨block, idx⟩ := entry
    rw [visitAll]
    dsimp only
    split
    · exact ih scan
    · split
      · exact ih _
      · split
        · exact ih _
        · exact SchedRequest.SameButComputed.trans ⟨_, _, rfl⟩ (ih _)

namespace Scheduler

variable {s s' : Scheduler}

lemma updateRequestsWithInvalidBlocks_eq_ok {invalid marked : List BlockRef} {evictBlocks : Bool}
    {reqs : List RequestId} {result result' : InvalidBlocksResult}
    (h : updateRequestsWithInvalidBlocks invalid evictBlocks reqs marked result s =
      .ok (result', s')) :
    ∃ request, s' = { s with request } ∧ ∀ x, (s.request x).SameButComputed (request x) := by
  induction reqs generalizing s marked result with
  | nil =>
    cases h
    exact ⟨_, rfl, fun x => .refl _⟩
  | cons r reqs ih =>
    rw [updateRequestsWithInvalidBlocks] at h
    split at h
    · rename_i reqBlocks _
      obtain ⟨request, rfl, hrequest⟩ := ih h
      refine ⟨request, rfl, fun x => ?_⟩
      refine SchedRequest.SameButComputed.trans ?_ (hrequest x)
      by_cases hx : x = r
      · subst hx
        have hscan := BlockScan.visitAll_request s.config.blockSize invalid evictBlocks reqBlocks
          (s.reqNumComputedTokens x reqBlocks)
          (reqBlocks.take ((s.reqNumComputedTokens x reqBlocks + s.config.blockSize - 1) /
            s.config.blockSize).toNat).zipIdx
          { request := s.request x
            markedInvalidBlocks := marked
            totalAffectedTokens := result.totalAffectedTokens
            blocksToEvict := result.blocksToEvict }
        simp only [setRequest, Function.update_self]
        split
        · exact hscan.trans ⟨_, _, rfl⟩
        · exact hscan
      · simp only [setRequest, Function.update_of_ne hx]
        exact .refl _
    · cases h

lemma evictInvalidBlocks_eq_ok {blocksToEvict : List BlockRef}
    (h : s.evictInvalidBlocks blocksToEvict = .ok s') :
    ∃ kvCacheManager, s' = { s with kvCacheManager } := by
  unfold evictInvalidBlocks at h
  split at h
  · cases h
    exact ⟨s.kvCacheManager, rfl⟩
  · obtain ⟨kv, -, rfl⟩ := map_eq_ok h
    exact ⟨kv, rfl⟩

/-- Invalid blocks change the counters of requests; blocks are evicted or loads marked as failed. -/
lemma handleKvLoadFailures_eq_ok {kvConnectorOutput : Option KVConnectorOutput}
    {failedReqIds : List RequestId}
    (h : s.handleKvLoadFailures kvConnectorOutput = .ok (failedReqIds, s')) :
    ∃ kvCacheManager failedRecvingKvReqIds request, s' = { s with
        kvCacheManager, failedRecvingKvReqIds, request } ∧
      ∀ x, (s.request x).SameButComputed (request x) := by
  unfold handleKvLoadFailures at h
  dsimp only at h
  split at h
  · cases h
    exact ⟨s.kvCacheManager, s.failedRecvingKvReqIds, s.request, rfl, fun _ => .refl _⟩
  · obtain ⟨⟨asyncResult, s₁⟩, hasync, h⟩ := bind_eq_ok h
    obtain ⟨⟨syncResult, s₂⟩, hsync, h⟩ := bind_eq_ok h
    obtain ⟨request₁, rfl, hrequest₁⟩ := updateRequestsWithInvalidBlocks_eq_ok hasync
    obtain ⟨request₂, rfl, hrequest₂⟩ := updateRequestsWithInvalidBlocks_eq_ok hsync
    have hrequest (x : RequestId) := (hrequest₁ x).trans (hrequest₂ x)
    dsimp only at h
    split at h
    · cases h
      exact ⟨s.kvCacheManager, s.failedRecvingKvReqIds, request₂, rfl, hrequest⟩
    · obtain ⟨s₃, hevict, h⟩ := bind_eq_ok h
      obtain ⟨kv, rfl⟩ := evictInvalidBlocks_eq_ok hevict
      split at h
      · cases h
        exact ⟨kv, s.failedRecvingKvReqIds, request₂, rfl, hrequest⟩
      · cases h
        exact ⟨kv, _, request₂, rfl, hrequest⟩

/-- The failed requests are finished, or nothing changes. -/
lemma finishFailed_eq_ok {outputs : List EngineCoreOutput} {failedReqIds : List RequestId}
    (h : s.finishFailed delayFreeBlocks failedReqIds = .ok (outputs, s')) :
    s' = s ∨ s.finishRequests delayFreeBlocks failedReqIds .finishedError = .ok s' := by
  unfold finishFailed at h
  split at h
  · cases h
    exact Or.inl rfl
  · split at h
    · cases h
    · obtain ⟨s₁, hs₁, hret⟩ := bind_eq_ok h
      cases hret
      exact Or.inr hs₁

/-- What freeing the blocks of a request preserves, the last part of `update_from_output` preserves. -/
lemma updateFromKvConnector_preserves {P : Scheduler → Prop} {output : Option KVConnectorOutput}
    (hset : ∀ s finishedRecvingKvReqIds kvCacheManager, P s →
      P { s with finishedRecvingKvReqIds, kvCacheManager })
    (hfree : ∀ s r s', P s → s.freeBlocks r = .ok s' → P s') (h : P s)
    (hupdate : s.updateFromKvConnector output = .ok s') : P s' := by
  cases output with
  | none =>
    cases hupdate
    exact hset s _ _ h
  | some output =>
    obtain ⟨s₁, hs₁, rfl⟩ := map_eq_ok hupdate
    refine hset s₁ _ _ (foldlM_invariant hs₁ (hset s _ s.kvCacheManager h) fun r _ s s₂ hs hs₂ => ?_)
    obtain ⟨_, -, hs₂⟩ := bind_eq_ok hs₂
    exact hfree _ _ _ hs hs₂

end Scheduler

end VllmRuntime
