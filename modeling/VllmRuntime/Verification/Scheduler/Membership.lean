import VllmRuntime.Model.EngineCore
import VllmRuntime.Verification.CacheHit.Correctness
import VllmRuntime.Verification.Scheduler.Queues
import VllmRuntime.Verification.Scheduler.Updates

/-! # Every unfinished request is in one queue

The calls of the engine keep the queues and `num_waiting_for_streaming_input` in step with the
statuses of the requests, unless a resumable request stops while it is not running. -/

namespace VllmRuntime

variable {e : EngineCore}

open List

namespace Scheduler

variable {all : Prop} {s s' : Scheduler} {r : RequestId} {leaving running waiting : List RequestId}
  {delayFreeBlocks : RequestId → Bool} {finishedStatus : RequestStatus}

/-! ## Finishing -/

lemma not_isRunning_of_finished (h : (s.request r).isFinished = true) : ¬ s.IsRunning r := by
  intro hr
  rw [SchedRequest.isFinished, hr.2] at h
  cases h

lemma not_isWaiting_of_finished (h : (s.request r).isFinished = true) : ¬ s.IsWaiting r :=
  fun hr => Bool.false_ne_true (hr.2.2.symm.trans h)

/-- Forgetting a request, or keeping it for the connector, changes no other request. -/
lemma onlyChanges_freeRequest (h : s.freeRequest delayFreeBlocks r = .ok s') :
    OnlyChanges s s' r ∧ s'.request = s.request ∧ s'.running = s.running ∧ s'.waiting = s.waiting ∧
      s'.numWaitingForStreamingInput = s.numWaitingForStreamingInput ∧ s'.config = s.config ∧
      s'.hasher = s.hasher := by
  obtain ⟨-, kv, m, finished, requests, rfl, hrequests⟩ := freeRequest_eq_ok h
  refine ⟨⟨fun x hx => ?_, fun _ _ => rfl⟩, rfl, rfl, rfl, rfl, rfl, rfl⟩
  obtain rfl | rfl := hrequests
  · rfl
  · exact mem_erase_of_ne hx

lemma Queued.finishAll (hstatus : finishedStatus.isFinished = true)
    (h : s.Queued all leaving running waiting)
    (hfinish : finishAll delayFreeBlocks finishedStatus leaving s = .ok s') :
    s'.Queued all [] running waiting ∧ s'.running = s.running ∧ s'.waiting = s.waiting := by
  induction leaving generalizing s with
  | nil =>
    cases hfinish
    exact ⟨h, rfl, rfl⟩
  | cons r leaving ih =>
    rw [Scheduler.finishAll] at hfinish
    obtain ⟨s₁, hfree, hfinish⟩ := bind_eq_ok hfinish
    obtain ⟨hchange, hrequest, hrunning, hwaiting, hnum, -, -⟩ := onlyChanges_freeRequest hfree
    have hfinished : (s₁.request r).isFinished = true := by
      rw [hrequest]
      simpa [setRequest, SchedRequest.isFinished] using hstatus
    have hchange : OnlyChanges s s₁ r := by
      refine ⟨hchange.requests, fun x hx => ?_⟩
      rw [hchange.request x hx, setRequest_request_of_ne _ _ hx]
    obtain ⟨hqueued, hrunning', hwaiting'⟩ := ih (h.left hchange
      (not_isRunning_of_finished hfinished) (not_isWaiting_of_finished hfinished) hnum) hfinish
    exact ⟨hqueued, hrunning'.trans hrunning, hwaiting'.trans hwaiting⟩

lemma InQueues.finishRequests {requestIds : List RequestId} (h : s.InQueues all)
    (hfinish : s.finishRequests delayFreeBlocks requestIds finishedStatus = .ok s') :
    s'.InQueues all := by
  obtain ⟨_, hstatus, hfinish⟩ := bind_eq_ok hfinish
  have hstatus : finishedStatus.isFinished = true := pyAssert_eq_ok.mp hstatus
  dsimp only at hfinish
  set valid := requestIds.dedup.filter fun r => r ∈ s.requests ∧ !(s.request r).isFinished with hvalid
  have hnodup : valid.Nodup := (nodup_dedup requestIds).filter _
  have hmem {x : RequestId} (hx : x ∈ valid) :
      x ∈ s.requests ∧ (s.request x).isFinished = false := by
    simpa using (mem_filter.mp hx).2
  set runningRequests := valid.filter fun r => (s.request r).status = .running
  set waitingRequests := valid.filter fun r => (s.request r).status ≠ .running
  have hrunning : Enumerates True (removeAll s.running runningRequests)
      fun r => r ∉ valid ∧ s.IsRunning r := by
    rw [removeAll_eq_filter h.inRunning.nodup]
    refine h.inRunning.filter fun x => ?_
    simp only [runningRequests, mem_filter, decide_eq_true_eq, not_mem_nil,
      not_false_eq_true, true_and, not_and]
    exact ⟨fun hx => ⟨hx.2, fun hv => absurd hv hx.1⟩, fun hx => ⟨fun hv => hx.2 hv hx.1.2, hx.1⟩⟩
  have hwaiting : Enumerates all (s.waiting.filter fun r => r ∉ waitingRequests)
      fun r => r ∉ valid ∧ s.IsWaiting r := by
    refine h.inWaiting.filter fun x => ?_
    simp only [waitingRequests, mem_filter, decide_eq_true_eq, not_mem_nil,
      not_false_eq_true, true_and, not_and, not_not]
    exact ⟨fun hx => ⟨hx.2, fun hv => absurd hv hx.1⟩,
      fun hx => ⟨fun hv => hx.1.2.1 (hx.2 hv), hx.1⟩⟩
  have hcount (hall : all) := countP_filter_not_mem (p := s.isStreaming) h.inWaiting.nodup
    (hnodup.filter fun r => (s.request r).status ≠ .running) fun x hx => by
      obtain ⟨hx, hne⟩ := mem_filter.mp hx
      exact h.inWaiting.complete hall x
        ⟨not_mem_nil, (hmem hx).1, by simpa using hne, (hmem hx).2⟩
  have hqueued : Scheduler.Queued { s with
      numWaitingForStreamingInput := s.numWaitingForStreamingInput -
        waitingRequests.countP fun r => (s.request r).status = .waitingForStreamingReq
      running := removeAll s.running runningRequests
      waiting := if waitingRequests.isEmpty then s.waiting
        else RequestQueue.removeRequests s.config.policy s.lt s.waiting waitingRequests }
      all valid (removeAll s.running runningRequests) (s.waiting.filter fun r => r ∉ waitingRequests) := by
    refine ⟨hrunning, hwaiting, fun hall => ?_,
      fun hall x hx => h.awaits hall x (mem_filter.mp hx).1⟩
    change s.numWaitingForStreamingInput - (waitingRequests.countP s.isStreaming : ℤ) =
      ((s.waiting.filter fun r => r ∉ waitingRequests).countP s.isStreaming : ℕ)
    rw [h.streaming hall, ← hcount hall]
    push_cast
    exact add_sub_cancel_right _ _
  obtain ⟨hfinal, hrunning', hwaiting'⟩ := hqueued.finishAll hstatus hfinish
  rw [InQueues, hrunning', hwaiting']
  refine Queued.perm (.refl _) ?_ hfinal
  dsimp only
  split
  · rename_i hempty
    rw [isEmpty_iff.mp hempty]
    simp
  · exact RequestQueue.removeRequests_perm _ _

/-! ## Adding -/

end Scheduler

/-- The request is the result of `Request.__init__`. -/
def SchedRequest.IsNew (hasher : Option (Request → List BlockHash)) (request : SchedRequest) : Prop :=
  ∃ requestId promptTokenIds promptEmbeds mmFeatures loraRequest cacheSalt skipReadingPrefixCache
    base samplingParams isPooling eosTokenId arrivalTime priority useStructuredOutput resumable,
    Request.new hasher requestId promptTokenIds promptEmbeds mmFeatures loraRequest cacheSalt
      skipReadingPrefixCache = .ok base ∧
    SchedRequest.new base samplingParams isPooling eosTokenId arrivalTime priority
      useStructuredOutput resumable = .ok request

lemma SchedRequest.IsNew.status {hasher : Option (Request → List BlockHash)}
    {request : SchedRequest} (h : request.IsNew hasher) :
    request.status = .waiting ∨ request.status = .waitingForFsm := by
  obtain ⟨_, _, _, _, _, _, _, base, samplingParams, isPooling, _, _, _, structured, _, -, hnew⟩ := h
  unfold SchedRequest.new at hnew
  dsimp only at hnew
  split at hnew
  · cases hnew
    exact Or.inl rfl
  · split at hnew
    · cases hnew
    · cases hnew
      cases structured with
      | true => exact Or.inr rfl
      | false => exact Or.inl rfl

namespace Scheduler

variable {all : Prop} {s s' : Scheduler} {r : RequestId} {leaving running waiting : List RequestId}
  {delayFreeBlocks : RequestId → Bool} {s₂ s₁ : Scheduler}

/-- A request that waits for input gets it. -/
lemma Queued.updateSession {update : QueuedUpdate} (h : s.Queued all [] running waiting)
    (hr : r ∈ s.requests) (hstreaming : (s.request r).status = .waitingForStreamingReq)
    (hupdate : s.updateSession r update = .ok s') : s'.Queued all [] running waiting := by
  obtain ⟨base, -, rfl⟩ := updateSession_eq_ok hupdate
  have hwaits : s.IsWaiting r := by
    refine ⟨hr, ?_, ?_⟩ <;> simp [hstreaming, SchedRequest.isFinished, RequestStatus.isFinished]
  refine h.stayWaiting (r := r) (onlyChanges_update rfl rfl) hwaits ⟨hr, ?_, ?_⟩
    not_mem_nil ?_ ?_
  · simp
  · simp [SchedRequest.isFinished, RequestStatus.isFinished]
  · simp [isStreaming, hstreaming]
  · simp [AwaitsInput, isStreaming]

lemma InQueues.addRequest {request : SchedRequest} (h : s.InQueues all)
    (hnew : request.IsNew s.hasher) (hadd : s.addRequest delayFreeBlocks request = .ok s') :
    s'.InQueues all := by
  unfold Scheduler.addRequest at hadd
  dsimp only at hadd
  set r := request.requestId
  split at hadd
  · rename_i hr
    split at hadd
    · rename_i hstatus
      split at hadd
      · cases hadd
      · rename_i queue hqueue
        cases hadd
        refine h.of_sameStatus ⟨rfl, fun x => ?_, fun x hx => ?_, rfl⟩
        · by_cases hxr : x = r
          · rw [hxr, setRequest_request_self]
          · rw [setRequest_request_of_ne _ _ hxr]
        · by_cases hxr : x = r
          · subst hxr
            simp [AwaitsInput, isStreaming, hstatus]
          · rw [AwaitsInput, isStreaming, setRequest_request_of_ne _ _ hxr]
            exact hx
    · rename_i hstatus
      split at hadd
      · have hnext := Queued.updateSession h hr (not_not.mp hstatus) hadd
        obtain ⟨base, -, rfl⟩ := updateSession_eq_ok hadd
        exact hnext
      · exact h.finishRequests hadd
  · rename_i hr
    cases hadd
    have hrunning : r ∉ s.running := h.not_mem_running fun hrun => hr hrun.1
    have hstatus : request.status ≠ .running ∧ request.isFinished = false ∧
        request.status ≠ .waitingForStreamingReq := by
      rcases hnew.status with hstatus | hstatus <;>
        simp [hstatus, SchedRequest.isFinished, RequestStatus.isFinished]
    have hsame : (if request.resumable then { request with streamingQueue := some [] }
        else request).status = request.status := by
      split <;> rfl
    refine Queued.perm ?_ (RequestQueue.addRequest_perm s.waiting r)
      (h.toWaiting (r := r) ⟨fun x hx => ?_, fun x hx => ?_⟩ not_mem_nil
        (fun hw => hr hw.1) ⟨?_, ?_, ?_⟩ ?_ ?_)
    · rw [erase_of_not_mem hrunning]
      exact .refl _
    · simp [requeue, setRequest, hx]
    · simp [requeue, setRequest, hx]
    · simp [requeue, setRequest]
    · simpa [requeue, hsame] using hstatus.1
    · simpa [requeue, SchedRequest.isFinished, hsame] using hstatus.2.1
    · simp [requeue, isStreaming, hsame, hstatus.2.2]
      rfl
    · simp [AwaitsInput, requeue, isStreaming, hsame, hstatus.2.2]

/-! ## Resetting -/

lemma InQueues.preemptAll {rs : List RequestId} (h : s.InQueues all) (hrs : s.running.reverse = rs)
    (hpreempt : preemptAll rs s = .ok s') : s'.InQueues all := by
  induction rs generalizing s with
  | nil =>
    cases hpreempt
    exact h
  | cons r rs ih =>
    rw [Scheduler.preemptAll] at hpreempt
    obtain ⟨s₁, hs₁, hpreempt⟩ := bind_eq_ok hpreempt
    have hsplit : s.running = rs.reverse ++ [r] := by
      rw [← reverse_cons, ← hrs, reverse_reverse]
    have hmem : r ∈ s.running := by rw [hsplit]; simp
    have hlast : s.running.dropLast = s.running.erase r := by
      have hnot : r ∉ rs.reverse := by
        intro hin
        have hnodup := h.inRunning.nodup
        rw [hsplit] at hnodup
        exact disjoint_of_nodup_append hnodup hin mem_cons_self
      rw [hsplit, dropLast_concat, erase_append_right _ hnot, erase_cons_head,
        append_nil]
    have hstart : Queued { s with running := s.running.dropLast } all [] s.running
        (s.waiting ++ []) := by
      refine Queued.perm (.refl _) (.of_eq (append_nil _))
        (h.of_sameStatus (.of_eq rfl rfl rfl))
    have hnext := hstart.preemptRequest not_mem_nil
      (h.inRunning.sound r hmem).2.1 hs₁
    rw [append_nil, ← hlast] at hnext
    obtain ⟨-, kv, -, hs₁⟩ := preemptRequest_eq_ok hs₁
    have hrunning : s₁.running = s.running.dropLast := by rw [hs₁]
    rw [← hrunning] at hnext
    refine ih ?_ ?_ hpreempt
    · exact hnext.of_sameStatus (.update rfl rfl rfl rfl rfl rfl)
    · change s₁.running.reverse = rs
      rw [hrunning, hsplit, dropLast_concat, reverse_reverse]

lemma InQueues.resetPrefixCache {resetRunningRequests resetSuccessful : Bool} (h : s.InQueues all)
    (hreset : s.resetPrefixCache resetRunningRequests = .ok (resetSuccessful, s')) :
    s'.InQueues all := by
  unfold Scheduler.resetPrefixCache at hreset
  split at hreset
  · obtain ⟨s₁, hs₁, hreset⟩ := bind_eq_ok hreset
    obtain ⟨s₂, hpreempt, rfl⟩ := map_eq_ok hs₁
    dsimp only at hreset
    split at hreset
    · cases hreset
      exact (h.preemptAll rfl hpreempt).of_sameStatus (.of_eq rfl rfl rfl)
    · cases hreset
  · cases hreset
    exact h.of_sameStatus (.of_eq rfl rfl rfl)

lemma InQueues.updateDraftTokenIds (h : s.InQueues all) (drafts : List (RequestId × List ℤ)) :
    (s.updateDraftTokenIds drafts).InQueues all := by
  unfold Scheduler.updateDraftTokenIds
  refine foldlRecOn (motive := (InQueues · all)) _ _ h fun s' hs' draft _ => ?_
  split
  · exact hs'
  · exact hs'.of_sameStatus (.update rfl rfl rfl rfl rfl rfl)

/-! ## Outputs -/

lemma OnlyChanges.trans (h : OnlyChanges s s' r) (h' : OnlyChanges s' s₂ r) :
    OnlyChanges s s₂ r :=
  ⟨fun x hx => (h'.requests x hx).trans (h.requests x hx),
    fun x hx => (h'.request x hx).trans (h.request x hx)⟩

/-- A request whose session ends is finished, and the queues lose it. -/
lemma Queued.finishStopped (h : s.Queued all [] running waiting)
    (hfree : s₁.freeRequest delayFreeBlocks r = .ok s₂) (hr : r ∈ s.requests) (hchange : OnlyChanges s s₁ r)
    (hnum : s₁.numWaitingForStreamingInput = s.numWaitingForStreamingInput)
    (hends : sessionEnds (s.request r) = true) (hfinished : (s₁.request r).isFinished = true) :
    OnlyChanges s s₂ r ∧ s₂.Queued all [] (running.erase r) (waiting.erase r) := by
  obtain ⟨hchange', hrequest, -, -, hnum', -⟩ := onlyChanges_freeRequest hfree
  have hchange₂ := hchange.trans hchange'
  have hfinished : (s₂.request r).isFinished = true := by rwa [hrequest]
  have hstreaming (hall : all) : s.isStreaming r = false := by
    by_contra hstreaming
    have hstatus : (s.request r).status = .waitingForStreamingReq := by
      simpa [isStreaming] using hstreaming
    have hwaits : s.IsWaiting r := by
      refine ⟨hr, ?_, ?_⟩ <;> simp [hstatus, SchedRequest.isFinished, RequestStatus.isFinished]
    obtain ⟨hresumable, hqueue⟩ := h.awaits hall r
      (h.inWaiting.complete hall r ⟨not_mem_nil, hwaits⟩) (Bool.not_eq_false _ ▸ hstreaming)
    simp [sessionEnds, hresumable, hqueue] at hends
  exact ⟨hchange₂, h.leave hchange₂ (not_isRunning_of_finished hfinished)
    (fun _ => not_isWaiting_of_finished hfinished) hstreaming fun _ => hnum'.trans hnum⟩

/-- The session of a stopped request goes on: the request is put into `waiting`. -/
structure Continues (s s' : Scheduler) (r : RequestId) : Prop where
  change : OnlyChanges s s' r
  requests : s'.requests = s.requests
  status : (s'.request r).status = .waiting ∨ (s'.request r).status = .waitingForStreamingReq
  streaming : s'.numWaitingForStreamingInput =
    s.numWaitingForStreamingInput + if s'.isStreaming r then 1 else 0
  awaits : s'.AwaitsInput r
  waiting : s'.waiting.Perm (r :: s.waiting)
  running : s'.running = s.running
  config : s'.config = s.config
  hasher : s'.hasher = s.hasher

lemma handleStoppedRequest_continues (hfinished : (s.request r).isFinished = true)
    (h : s.handleStoppedRequest r = .ok (false, s')) : Continues s s' r := by
  obtain ⟨-, hfalse, -⟩ | ⟨hends, -, s₁, rfl, hcase⟩ := handleStoppedRequest_eq_ok h
  · cases hfalse
  · have hwaiting : (s₁.requeue r).waiting.Perm (r :: s₁.waiting) :=
      RequestQueue.addRequest_perm _ r
    obtain ⟨update, queue, hupdate⟩ | ⟨hempty, rfl⟩ := hcase
    · obtain ⟨base, -, rfl⟩ := updateSession_eq_ok hupdate
      have hstatus : (s.request r).status ≠ .waitingForStreamingReq := by
        intro hstatus
        rw [SchedRequest.isFinished, hstatus] at hfinished
        cases hfinished
      refine ⟨⟨fun _ _ => Iff.rfl, fun x hx => ?_⟩, rfl, Or.inl ?_, ?_, ?_, hwaiting, rfl, rfl, rfl⟩
      · simp [requeue, hx]
      · simp [requeue]
      · simp [requeue, isStreaming, setRequest, hstatus]
      · simp [AwaitsInput, isStreaming, requeue]
    · have hresumable : (s.request r).resumable = true := by
        simp only [sessionEnds, Bool.or_eq_false_iff] at hends
        simpa using hends.1
      refine ⟨⟨fun _ _ => Iff.rfl, fun x hx => ?_⟩, rfl, Or.inr ?_, ?_, fun _ => ?_, hwaiting, rfl,
        rfl, rfl⟩
      · simp [requeue, setRequest, hx]
      · simp [requeue, setRequest]
      · simp [requeue, isStreaming, setRequest]
      · simpa [requeue, setRequest] using ⟨hresumable, hempty⟩

/-- A running request whose session goes on is moved to `waiting`. -/
lemma Queued.continueStopped (h : s.Queued all [] running waiting) (hr : s.IsRunning r)
    (hchange : OnlyChanges s s₁ r) (hrequests : s₁.requests = s.requests)
    (hnum : s₁.numWaitingForStreamingInput = s.numWaitingForStreamingInput) (hcontinues : Continues s₁ s₂ r) :
    OnlyChanges s s₂ r ∧ s₂.Queued all [] (running.erase r) (r :: waiting) := by
  have hnot : ¬ s.IsWaiting r := fun hw => hw.not_isRunning hr
  have hchange₂ := hchange.trans hcontinues.change
  refine ⟨hchange₂, h.toWaiting hchange₂ not_mem_nil hnot ⟨?_, ?_, ?_⟩ ?_ hcontinues.awaits⟩
  · rw [hcontinues.requests, hrequests]
    exact hr.1
  · rcases hcontinues.status with hstatus | hstatus <;> simp [hstatus]
  · rcases hcontinues.status with hstatus | hstatus <;>
      simp [SchedRequest.isFinished, hstatus, RequestStatus.isFinished]
  · rw [hcontinues.streaming, hnum]

end Scheduler

namespace UpdateState

open Scheduler

variable {all : Prop} {u u' : UpdateState} {r : RequestId} {delayFreeBlocks : RequestId → Bool}

/-- The queues without the requests that have stopped. -/
def Queued (u : UpdateState) (all : Prop) : Prop :=
  u.scheduler.running.Nodup ∧ u.scheduler.Queued all []
    (u.scheduler.running.filter fun r => r ∉ u.stoppedRunningReqs)
    (u.scheduler.waiting.filter fun r => r ∉ u.stoppedPreemptedReqs)

lemma filter_not_mem_append {l stopped : List RequestId}
    (hnodup : (l.filter fun x => x ∉ stopped).Nodup) (r : RequestId) :
    (l.filter fun x => x ∉ stopped ++ [r]) = (l.filter fun x => x ∉ stopped).erase r := by
  rw [hnodup.erase_eq_filter, filter_filter]
  refine filter_congr fun x _ => ?_
  rw [Bool.eq_iff_iff]
  simp [and_comm]

/-- A request that is not running stops while its session goes on. -/
def losesRequest (s : Scheduler) (modelRunnerOutput : ModelRunnerOutput) (r : RequestId) : Prop :=
  (s.request r).status ≠ .running ∧ sessionEnds (s.request r) = false ∧
    (s.request r).stops s.config s.hasher (modelRunnerOutput.sampledTokenIds r)
      (modelRunnerOutput.poolerOutput r) = true

/-- What the loop leaves as it is when it has looked at one request. -/
structure Processed (u u' : UpdateState) (r : RequestId) : Prop where
  config : u'.scheduler.config = u.scheduler.config
  hasher : u'.scheduler.hasher = u.scheduler.hasher
  change : OnlyChanges u.scheduler u'.scheduler r
  stopped : ∀ x ∈ u'.stoppedPreemptedReqs, x ∈ u.stoppedPreemptedReqs ∨ x = r

variable {output : SchedulerOutput} {modelRunnerOutput : ModelRunnerOutput}

/-- A request of `running` or `waiting` has stopped; `s₁` is the scheduler with its finished status. -/
lemma Queued.handleStopped {s₁ s₂ : Scheduler} (h : u.Queued all)
    (hstop : handleStopped delayFreeBlocks s₁ r = .ok s₂) (hr : r ∈ u.scheduler.requests)
    (hfresh : r ∉ u.stoppedPreemptedReqs) (hchange : OnlyChanges u.scheduler s₁ r)
    (hrequests : s₁.requests = u.scheduler.requests) (hrunning : s₁.running = u.scheduler.running)
    (hwaiting : s₁.waiting = u.scheduler.waiting)
    (hnum : s₁.numWaitingForStreamingInput = u.scheduler.numWaitingForStreamingInput)
    (hsession : sessionEnds (s₁.request r) = sessionEnds (u.scheduler.request r))
    (hfinished : (s₁.request r).isFinished = true)
    (hgoes : all → (u.scheduler.request r).status ≠ .running →
      sessionEnds (u.scheduler.request r) = true) :
    OnlyChanges u.scheduler s₂ r ∧ s₂.running = s₁.running ∧ s₂.config = s₁.config ∧
      s₂.hasher = s₁.hasher ∧ s₂.Queued all []
        (s₂.running.filter fun x => x ∉ if (u.scheduler.request r).status = .running then
          u.stoppedRunningReqs ++ [r] else u.stoppedRunningReqs)
        (s₂.waiting.filter fun x => x ∉ if (u.scheduler.request r).status = .running then
          u.stoppedPreemptedReqs else u.stoppedPreemptedReqs ++ [r]) := by
  obtain ⟨-, hqueued⟩ := h
  have hfilter := filter_not_mem_append hqueued.inRunning.nodup r
  have hfilter' := filter_not_mem_append hqueued.inWaiting.nodup r
  obtain ⟨⟨finished, s₃⟩, hs₃, hstop⟩ := bind_eq_ok hstop
  dsimp only at hstop
  split at hstop
  · rename_i htrue
    subst htrue
    obtain ⟨hends, -, queue, rfl⟩ | ⟨-, hfalse, -⟩ := handleStoppedRequest_eq_ok hs₃
    · obtain ⟨hchange₂, hleft⟩ := hqueued.finishStopped hstop hr
        (hchange.trans (onlyChanges_update rfl rfl)) hnum (hsession ▸ hends)
        (by simpa [SchedRequest.isFinished] using hfinished)
      obtain ⟨-, -, hrunning₂, hwaiting₂, -, hconfig, hhasher⟩ := onlyChanges_freeRequest hstop
      refine ⟨hchange₂, hrunning₂, hconfig, hhasher, ?_⟩
      rw [hrunning₂, hwaiting₂]
      change s₂.Queued all [] (s₁.running.filter _) (s₁.waiting.filter _)
      rw [hrunning, hwaiting]
      split
      · rename_i hstatus
        rw [hfilter]
        rwa [erase_of_not_mem
          (hqueued.not_mem_waiting fun hw => hw.2.1 hstatus)] at hleft
      · rename_i hstatus
        rw [hfilter']
        rwa [erase_of_not_mem (hqueued.not_mem_running fun hrun => hstatus hrun.2)] at hleft
    · cases hfalse
  · rename_i hfalse
    have hfalse : finished = false := by simpa using hfalse
    subst hfalse
    cases hstop
    have hcontinues := handleStoppedRequest_continues hfinished hs₃
    have hends : sessionEnds (u.scheduler.request r) = false := by
      obtain ⟨-, hfalse, -⟩ | ⟨hends, -⟩ := handleStoppedRequest_eq_ok hs₃
      · cases hfalse
      · rwa [← hsession]
    by_cases hstatus : (u.scheduler.request r).status = .running
    · obtain ⟨hchange₂, hmoved⟩ := hqueued.continueStopped ⟨hr, hstatus⟩ hchange hrequests hnum
        hcontinues
      refine ⟨hchange₂, hcontinues.running, hcontinues.config, hcontinues.hasher, ?_⟩
      rw [if_pos hstatus, if_pos hstatus, hcontinues.running, hrunning, hfilter]
      refine Scheduler.Queued.perm (.refl _) ?_ hmoved
      have hperm := hcontinues.waiting.filter fun x => x ∉ u.stoppedPreemptedReqs
      rwa [hwaiting, filter_cons_of_pos (by simpa using hfresh)] at hperm
    · -- The request was just put into `waiting`, but all its occurrences are going to be removed.
      have hnot : ¬ all := fun hall => Bool.false_ne_true (hends.symm.trans (hgoes hall hstatus))
      have hchange₂ := hchange.trans hcontinues.change
      refine ⟨hchange₂, hcontinues.running, hcontinues.config, hcontinues.hasher, ?_⟩
      have hleft := hqueued.leave hchange₂
        (fun hrun => by
          rcases hcontinues.status with hnew | hnew <;> cases hnew.symm.trans hrun.2)
        (fun hall => absurd hall hnot) (fun hall => absurd hall hnot) (fun hall => absurd hall hnot)
      rw [if_neg hstatus, if_neg hstatus, hcontinues.running, hrunning]
      rw [erase_of_not_mem (hqueued.not_mem_running fun hrun => hstatus hrun.2),
        ← hfilter'] at hleft
      refine Scheduler.Queued.perm (.refl _) ?_ hleft
      have hperm := hcontinues.waiting.filter fun x => x ∉ u.stoppedPreemptedReqs ++ [r]
      rwa [hwaiting, filter_cons_of_neg (by simp)] at hperm

lemma Queued.processRequest (h : u.Queued all) (hr : r ∈ u.scheduler.requests)
    (hfresh : r ∉ u.stoppedPreemptedReqs)
    (hloses : all → ¬ losesRequest u.scheduler modelRunnerOutput r)
    (hprocess : u.processRequest delayFreeBlocks output modelRunnerOutput r = .ok u') :
    u'.Queued all ∧ Processed u u' r := by
  obtain ⟨hnodup, hqueued⟩ := h
  obtain ⟨kv, request, appended, stopped, hstopped, hreceives, hcase⟩ :=
    processRequest_eq_ok hprocess
  obtain ⟨a, b, hreject⟩ := (u.scheduler.request r).rejectDrafts_eq
    ((output.scheduledSpecDecodeTokens.lookup r).getD []) (modelRunnerOutput.sampledTokenIds r)
  rw [hreject] at hreceives
  obtain ⟨hresumable, hqueue⟩ := hreceives.session
  obtain ⟨rfl, hscheduler, hrunning, hpreempted⟩ | ⟨rfl, hstop, hrunning, hpreempted⟩ := hcase
  · refine ⟨⟨?_, ?_⟩, by rw [hscheduler], by rw [hscheduler], ?_, fun x hx => Or.inl ?_⟩
    · rw [hscheduler]
      exact hnodup
    · rw [hrunning, hpreempted, hscheduler]
      exact hqueued.of_sameStatus (.update rfl rfl rfl (hreceives.status rfl) hresumable hqueue)
    · rw [hscheduler]
      exact onlyChanges_update rfl rfl
    · rwa [← hpreempted]
  · have hgoes : all → (u.scheduler.request r).status ≠ .running →
        sessionEnds (u.scheduler.request r) = true := by
      intro hall hne
      by_contra hends
      exact hloses hall ⟨hne, by simpa using hends, hstopped.symm⟩
    obtain ⟨hchange, hrunning', hconfig, hhasher, hnext⟩ := Queued.handleStopped ⟨hnodup, hqueued⟩
      hstop hr hfresh (onlyChanges_update rfl rfl) rfl rfl rfl rfl
      (by simp [sessionEnds, hresumable, hqueue, SchedRequest.withCounters])
      (by simpa [SchedRequest.isFinished] using hreceives.finished rfl) hgoes
    refine ⟨⟨?_, ?_⟩, hconfig, hhasher, hchange, fun x hx => ?_⟩
    · rw [hrunning']
      exact hnodup
    · rw [hrunning, hpreempted]
      exact hnext
    · rw [hpreempted] at hx
      split at hx
      · exact Or.inl hx
      · simpa using hx

lemma Queued.processAll {failedReqIds : List RequestId} {entries : OrderedDict RequestId ℤ}
    (h : u.Queued all) (hnodup : (entries.map Prod.fst).Nodup)
    (hfresh : ∀ r ∈ entries.map Prod.fst, r ∉ u.stoppedPreemptedReqs)
    (hloses : all → ∀ r ∈ entries.map Prod.fst, r ∉ failedReqIds → r ∈ u.scheduler.requests →
      ¬ losesRequest u.scheduler modelRunnerOutput r)
    (hprocess : processAll delayFreeBlocks output modelRunnerOutput failedReqIds entries u =
      .ok u') : u'.Queued all := by
  induction entries generalizing u with
  | nil =>
    cases hprocess
    exact h
  | cons entry entries ih =>
    obtain ⟨r, n⟩ := entry
    rw [UpdateState.processAll] at hprocess
    obtain ⟨_, -, hprocess⟩ := bind_eq_ok hprocess
    rw [map_cons, nodup_cons] at hnodup
    simp only [map_cons, forall_mem_cons] at hfresh hloses
    split at hprocess
    · exact ih h hnodup.2 hfresh.2 (fun hall => (hloses hall).2) hprocess
    · rename_i hskip
      rw [not_or, not_not] at hskip
      obtain ⟨u₁, hu₁, hprocess⟩ := bind_eq_ok hprocess
      obtain ⟨hqueued, hdone⟩ := h.processRequest hskip.2 hfresh.1
        (fun hall => (hloses hall).1 hskip.1 hskip.2) hu₁
      have hne {x : RequestId} (hx : x ∈ entries.map Prod.fst) : x ≠ r :=
        fun hxr => hnodup.1 (hxr ▸ hx)
      refine ih hqueued hnodup.2 (fun x hx hin => ?_) (fun hall x hx hfail hmem hlose => ?_) hprocess
      · rcases hdone.stopped x hin with hin | hxr
        · exact hfresh.2 x hx hin
        · exact hne hx hxr
      · rw [losesRequest, hdone.config, hdone.hasher, hdone.change.request x (hne hx)] at hlose
        exact (hloses hall).2 x hx hfail ((hdone.change.requests x (hne hx)).mp hmem) hlose

lemma Queued.removeStopped (h : u.Queued all) : u.removeStopped.InQueues all := by
  obtain ⟨hnodup, hqueued⟩ := h
  refine Scheduler.Queued.perm ?_ ?_ (hqueued.of_sameStatus (.of_eq rfl rfl rfl))
  · exact .of_eq (removeAll_eq_filter hnodup)
  · unfold UpdateState.removeStopped
    dsimp only
    split
    · rename_i hempty
      rw [isEmpty_iff.mp hempty]
      simp
    · exact RequestQueue.removeRequests_perm _ _

end UpdateState

namespace Scheduler

variable {all : Prop} {s s' : Scheduler} {delayFreeBlocks : RequestId → Bool}
  {outputs : List EngineCoreOutput}

lemma InQueues.freeBlocks {r : RequestId} (h : s.InQueues all) (hfree : s.freeBlocks r = .ok s') :
    s'.InQueues all := by
  obtain ⟨hfinished, kv, rfl⟩ := freeBlocks_eq_ok hfree
  have hleft : Queued { s with kvCacheManager := kv, requests := s.requests.erase r }
      all [] (s.running.erase r) (s.waiting.erase r) := by
    refine Queued.leave (r := r) h ⟨fun x hx => mem_erase_of_ne hx, fun _ _ => rfl⟩
      (not_isRunning_of_finished hfinished) (fun _ => not_isWaiting_of_finished hfinished)
      (fun _ => ?_) fun _ => rfl
    rw [isStreaming, decide_eq_false_iff_not]
    intro hstatus
    rw [SchedRequest.isFinished, hstatus] at hfinished
    cases hfinished
  rwa [erase_of_not_mem (h.not_mem_running (not_isRunning_of_finished hfinished)),
    erase_of_not_mem (h.not_mem_waiting (not_isWaiting_of_finished hfinished))] at hleft

lemma InQueues.handleKvLoadFailures {kvConnectorOutput : Option KVConnectorOutput}
    {failedReqIds : List RequestId} (h : s.InQueues all)
    (hfailures : s.handleKvLoadFailures kvConnectorOutput = .ok (failedReqIds, s')) :
    UpdateState.Queued { scheduler := s' } all := by
  obtain ⟨kv, failed, request, rfl, hrequest⟩ := handleKvLoadFailures_eq_ok hfailures
  have hsession (x : RequestId) : (request x).status = (s.request x).status ∧
      (request x).resumable = (s.request x).resumable ∧
      (request x).streamingQueue = (s.request x).streamingQueue := by
    obtain ⟨_, _, heq⟩ := hrequest x
    rw [heq]
    exact ⟨rfl, rfl, rfl⟩
  refine ⟨h.inRunning.nodup, Queued.perm ?_ ?_ (h.of_sameStatus (.of_session rfl hsession rfl))⟩
  · simp
  · simp

/-- An output loses a request: it stops a request that is not running and whose session goes on. -/
def LosesRequest (s : Scheduler) (output : SchedulerOutput) (modelRunnerOutput : ModelRunnerOutput) :
    Prop :=
  ∃ r ∈ output.numScheduledTokens.map Prod.fst, r ∈ s.requests ∧
    (∀ failedReqIds s', s.handleKvLoadFailures modelRunnerOutput.kvConnectorOutput =
      .ok (failedReqIds, s') → r ∉ failedReqIds) ∧
    UpdateState.losesRequest s modelRunnerOutput r

lemma InQueues.updateFromOutput {output : SchedulerOutput} {modelRunnerOutput : ModelRunnerOutput}
    (h : s.InQueues all) (hnodup : (output.numScheduledTokens.map Prod.fst).Nodup)
    (hloses : all → ¬ s.LosesRequest output modelRunnerOutput)
    (hupdate : s.updateFromOutput delayFreeBlocks output modelRunnerOutput = .ok (outputs, s')) :
    s'.InQueues all := by
  obtain ⟨⟨failedReqIds, s₁⟩, hfailures, hupdate⟩ := bind_eq_ok hupdate
  obtain ⟨u, hu, hupdate⟩ := bind_eq_ok hupdate
  obtain ⟨⟨failedOutputs, s₂⟩, hfailed, hupdate⟩ := bind_eq_ok hupdate
  obtain ⟨s₃, hs₃, hret⟩ := bind_eq_ok hupdate
  cases hret
  have hstart := h.handleKvLoadFailures hfailures
  obtain ⟨kv, failed, request, rfl, hrequest⟩ := handleKvLoadFailures_eq_ok hfailures
  have hloop : u.Queued all := by
    refine hstart.processAll hnodup (fun _ _ => not_mem_nil)
      (fun hall r hr hfail hmem hlose => ?_) hu
    refine hloses hall ⟨r, hr, hmem, fun failedReqIds' s' hok => ?_, ?_⟩
    · cases hfailures.symm.trans hok
      exact hfail
    · obtain ⟨hne, hends, hstops⟩ := hlose
      obtain ⟨_, _, heq⟩ := hrequest r
      dsimp only at hne hends hstops
      rw [heq] at hne hends hstops
      rw [SchedRequest.stops_withCounters] at hstops
      exact ⟨hne, hends, hstops⟩
  refine updateFromKvConnector_preserves (P := (·.InQueues all))
    (fun _ _ _ h => h.of_sameStatus (.of_eq rfl rfl rfl)) (fun _ _ _ h => h.freeBlocks) ?_ hs₃
  obtain rfl | hs₂ := finishFailed_eq_ok hfailed
  · exact hloop.removeStopped
  · exact InQueues.finishRequests hloop.removeStopped hs₂

end Scheduler

/-! ## Runs -/

/-- The requests that are added are new ones. -/
def EngineCall.WellFormed (e : EngineCore) : EngineCall → Prop
  | addRequest _ request => request.IsNew e.scheduler.hasher
  | _ => True

/-- The call processes an output that loses a request. -/
def EngineCall.LosesRequest (e : EngineCore) : EngineCall → Prop
  | updateFromOutput _ modelRunnerOutput => ∃ output ∈ e.batchQueue.head?,
      e.scheduler.LosesRequest output modelRunnerOutput
  | _ => False

/-- The queues hold the unfinished requests, and no batch has a request twice. -/
structure EngineCore.InQueues (e : EngineCore) (all : Prop) : Prop where
  scheduler : e.scheduler.InQueues all
  batches : ∀ output ∈ e.batchQueue, (output.numScheduledTokens.map Prod.fst).Nodup

lemma EngineCore.InQueues.run {all : Prop} {e' : EngineCore} {call : EngineCall} (h : e.InQueues all)
    (hwell : call.WellFormed e) (hloses : all → ¬ call.LosesRequest e) (hrun : call.run e = .ok e') :
    e'.InQueues all := by
  cases call with
  | addRequest delayFreeBlocks request =>
    obtain ⟨s, hs, rfl⟩ := map_eq_ok hrun
    exact ⟨h.scheduler.addRequest hwell hs, h.batches⟩
  | finishRequests delayFreeBlocks requestIds finishedStatus =>
    obtain ⟨s, hs, rfl⟩ := map_eq_ok hrun
    exact ⟨h.scheduler.finishRequests hs, h.batches⟩
  | resetPrefixCache resetRunningRequests =>
    obtain ⟨⟨_, s⟩, hs, hret⟩ := bind_eq_ok hrun
    cases hret
    exact ⟨h.scheduler.resetPrefixCache hs, h.batches⟩
  | updateDraftTokenIds draftTokenIds =>
    cases hrun
    exact ⟨h.scheduler.updateDraftTokenIds draftTokenIds, h.batches⟩
  | schedule env =>
    obtain ⟨⟨output, s⟩, hs, hret⟩ := bind_eq_ok hrun
    cases hret
    refine ⟨h.scheduler.schedule hs, fun batch hbatch => ?_⟩
    rcases mem_append.mp hbatch with hold | hnew
    · exact h.batches batch hold
    · obtain rfl := mem_singleton.mp hnew
      obtain ⟨st, -, -, hloops, -⟩ := Scheduler.schedule_eq_ok hs
      have hnodup := h.scheduler.inRunning.nodup
      obtain ⟨-, hnum, -⟩ := Scheduler.schedule_after_loops hnodup hloops hs
      rw [hnum]
      exact ScheduleState.loops_nodup hnodup hloops
  | updateFromOutput delayFreeBlocks modelRunnerOutput =>
    obtain ⟨scheduler, batchQueue⟩ := e
    cases batchQueue with
    | nil => cases hrun
    | cons output batchQueue =>
      obtain ⟨⟨outputs, s⟩, hs, hret⟩ := bind_eq_ok hrun
      cases hret
      have hlost : all → ¬ scheduler.LosesRequest output modelRunnerOutput :=
        fun hall hlost => hloses hall ⟨output, rfl, hlost⟩
      exact ⟨h.scheduler.updateFromOutput (h.batches output mem_cons_self) hlost hs,
        fun batch hbatch => h.batches batch (mem_cons_of_mem _ hbatch)⟩

lemma EngineCore.InQueues.new (config : SchedulerConfig)
    (hasher : Option (Request → List BlockHash)) (kvCacheManager : KVCacheManager)
    (encoderCacheSize : ℕ) (request : RequestId → SchedRequest) (all : Prop) :
    (EngineCore.new config hasher kvCacheManager encoderCacheSize request).InQueues all where
  scheduler := by
    refine ⟨⟨nodup_nil, fun r hr => ?_, fun _ r hr => ?_⟩,
      ⟨nodup_nil, fun r hr => ?_, fun _ r hr => ?_⟩, fun _ => rfl, fun _ r hr => ?_⟩
    · exact absurd hr not_mem_nil
    · exact absurd hr.2.1 not_mem_nil
    · exact absurd hr not_mem_nil
    · exact absurd hr.2.1 not_mem_nil
    · exact absurd hr not_mem_nil
  batches := fun _ h => absurd h not_mem_nil

/-- Every unfinished request is once in the two queues, in `running` if and only if it is running;
the sessions without input are counted. -/
structure Scheduler.QueuesAgree (s : Scheduler) : Prop where
  once : ∀ r ∈ s.requests, (s.request r).isFinished = false → (s.running ++ s.waiting).count r = 1
  running : ∀ r ∈ s.requests, (s.request r).isFinished = false →
    (r ∈ s.running ↔ (s.request r).status = .running)
  streaming : s.numWaitingForStreamingInput =
    s.waiting.countP fun r => (s.request r).status = .waitingForStreamingReq
  unfinished : 0 ≤ s.getNumUnfinishedRequests

lemma Scheduler.InQueues.queuesAgree {s : Scheduler} (h : s.InQueues True) : s.QueuesAgree where
  once := fun r hr hfinished => by
    refine h.inRunning.count_append h.inWaiting (fun x hx hx' => hx'.2.not_isRunning hx.2) ?_
    by_cases hstatus : (s.request r).status = .running
    · exact Or.inl ⟨not_mem_nil, hr, hstatus⟩
    · exact Or.inr ⟨not_mem_nil, hr, hstatus, hfinished⟩
  running := fun r hr _ => by
    rw [h.inRunning.mem_iff]
    exact ⟨fun h => h.2.2, fun h => ⟨not_mem_nil, hr, h⟩⟩
  streaming := h.streaming trivial
  unfinished := by
    have hcount : s.waiting.countP s.isStreaming ≤ s.waiting.length := countP_le_length
    rw [Scheduler.getNumUnfinishedRequests, h.streaming trivial]
    omega

/-- In every run in which no output loses a request, the queues agree with the statuses. -/
theorem queuesAgree_of_notLost {config : SchedulerConfig}
    {hasher : Option (Request → List BlockHash)} {kvCacheManager : KVCacheManager}
    {encoderCacheSize : ℕ} {request : RequestId → SchedRequest} {e : EngineCore}
    (h : EngineCore.Reachable (fun e call => call.WellFormed e ∧ ¬ call.LosesRequest e)
      (EngineCore.new config hasher kvCacheManager encoderCacheSize request) e) :
    e.scheduler.QueuesAgree := by
  have hinv : e.InQueues True := h.invariant
    (EngineCore.InQueues.new config hasher kvCacheManager encoderCacheSize request True)
    fun _ _ _ hinv hcall hrun => EngineCore.InQueues.run hinv hcall.1 (fun _ => hcall.2) hrun
  exact hinv.scheduler.queuesAgree

/-! ### A request is lost -/

/-- `Request.__init__` for a prompt of text. -/
def newRequest (requestId : RequestId) (promptTokenIds : List TokenId) (maxTokens : ℕ)
    (resumable : Bool) : SchedRequest where
  base :=
    { requestId
      promptTokenIds := some promptTokenIds
      promptEmbeds := none
      mmFeatures := []
      loraRequest := none
      cacheSalt := none
      numPromptTokens := promptTokenIds.length
      skipReadingPrefixCache := false
      allTokenIds := promptTokenIds }
  samplingParams := some { maxTokens }
  maxTokens
  resumable

lemma newRequest_isNew (requestId : RequestId) (promptTokenIds : List TokenId) (maxTokens : ℕ)
    (resumable : Bool) : (newRequest requestId promptTokenIds maxTokens resumable).IsNew none :=
  ⟨requestId, some promptTokenIds, none, [], none, none, false, _, some { maxTokens }, false, none,
    0, 0, false, resumable, rfl, rfl⟩

/-- One group of full attention, with one token in a block. -/
def oneGroup (numBlocks : ℕ) : KVCacheConfig where
  numBlocks := numBlocks
  kvCacheGroups := [.fullAttention { KVCacheCoordinator.attentionWithHeads 1 with }]

/-- An engine for text without prefix caching. -/
def engineWith (config : SchedulerConfig) (numBlocks : ℕ) : Except PyError EngineCore := do
  let kvCacheManager ← KVCacheManager.new (oneGroup numBlocks) config.maxModelLen 1 false false
    false false 1 1
  return EngineCore.new config none kvCacheManager 0 fun r => newRequest r [] 0 false

/-- Evaluates a property of the state after a run, if each call of it passes the check. -/
def evalRun {α : Type} (engine : Except PyError EngineCore) (check : EngineCore → EngineCall → Bool)
    (calls : List EngineCall) (f : EngineCore → α) : Option α :=
  engine.toOption.bind fun e => (runChecked EngineCall.run check calls e).map f

lemma reachable_of_evalRun {α : Type} {config : SchedulerConfig} {numBlocks : ℕ}
    {check : EngineCore → EngineCall → Bool} {allowed : EngineCore → EngineCall → Prop}
    (hcheck : ∀ e call, check e call = true → allowed e call) {calls : List EngineCall}
    {f : EngineCore → α} {a : α} (h : evalRun (engineWith config numBlocks) check calls f = some a) :
    ∃ kvCacheManager e, EngineCore.Reachable allowed
        (EngineCore.new config none kvCacheManager 0 fun r => newRequest r [] 0 false) e ∧
      f e = a := by
  unfold evalRun engineWith at h
  cases hkv : KVCacheManager.new (oneGroup numBlocks) config.maxModelLen 1 false false false false
    1 1 with
  | error e =>
    rw [hkv] at h
    cases h
  | ok kv =>
    rw [hkv] at h
    obtain ⟨e, hrun, hf⟩ := Option.map_eq_some_iff.mp h
    exact ⟨kv, e, Reaches.of_runChecked hcheck .start hrun, hf⟩

def lostConfig : SchedulerConfig where
  maxNumRunningReqs := 4
  maxNumScheduledTokens := 8
  maxModelLen := 10
  longPrefillTokenThreshold := 2
  usePp := true
  cacheBlockSize := 1
  blockSize := 1

/-- The second request is a session; both fill the cache. -/
def lostRequests : List SchedRequest := [newRequest 0 [1, 2, 3, 4] 5 false, newRequest 1 [1, 2] 1 true]

/-- Only these requests are added. -/
def lostCheck (e : EngineCore) : EngineCall → Bool
  | .addRequest _ request => e.scheduler.hasher.isNone && request ∈ lostRequests
  | _ => true

lemma lostCheck_wellFormed (e : EngineCore) (call : EngineCall) (h : lostCheck e call = true) :
    call.WellFormed e := by
  cases call with
  | addRequest delayFreeBlocks request =>
    simp only [lostCheck, lostRequests, Bool.and_eq_true, Option.isNone_iff_eq_none,
      decide_eq_true_eq, mem_cons, not_mem_nil, or_false] at h
    rw [EngineCall.WellFormed, h.1]
    rcases h.2 with rfl | rfl
    · exact newRequest_isNew _ _ _ _
    · exact newRequest_isNew _ _ _ _
  | _ => trivial

/-- The next sampled token of request 1. -/
def tokenOfOne : ModelRunnerOutput where
  sampledTokenIds := fun r => if r = 1 then [5] else []

def notDelayed : RequestId → Bool := fun _ => false

/-- Outputs arrive for running requests. -/
def runningCheck (e : EngineCore) : Bool :=
  e.batchQueue.head?.all fun output => output.numScheduledTokens.all fun entry =>
    (e.scheduler.request entry.1).status = .running

lemma runningCheck_keeps (h : runningCheck e = true) (call : EngineCall) :
    ¬ call.LosesRequest e := by
  intro hlost
  cases call with
  | updateFromOutput delayFreeBlocks modelRunnerOutput =>
    obtain ⟨output, houtput, r, hr, -, -, hstatus, -⟩ := hlost
    obtain ⟨entry, hentry, rfl⟩ := mem_map.mp hr
    rw [runningCheck, houtput] at h
    exact hstatus (by simpa using all_eq_true.mp h entry hentry)
  | _ => exact hlost

/-- The session stops while it runs, and waits for input. -/
def continuedCalls : List EngineCall :=
  [.addRequest notDelayed (newRequest 1 [1, 2] 1 true), .schedule {},
    .updateFromOutput notDelayed tokenOfOne]

theorem queuesAgree_of_notLost_session : ∃ kvCacheManager e,
    EngineCore.Reachable (fun e call => call.WellFormed e ∧ ¬ call.LosesRequest e)
      (EngineCore.new lostConfig none kvCacheManager 0 fun r => newRequest r [] 0 false) e ∧
    e.scheduler.QueuesAgree ∧ e.scheduler.waiting = [1] ∧
    e.scheduler.numWaitingForStreamingInput = 1 := by
  have heval : evalRun (engineWith lostConfig 5) (fun e call => lostCheck e call && runningCheck e)
      continuedCalls (fun e => (e.scheduler.waiting, e.scheduler.numWaitingForStreamingInput)) =
      some ([1], 1) := by
    decide +kernel
  have hcheck (e : EngineCore) (call : EngineCall)
      (h : (lostCheck e call && runningCheck e) = true) :
      call.WellFormed e ∧ ¬ call.LosesRequest e := by
    rw [Bool.and_eq_true] at h
    exact ⟨lostCheck_wellFormed e call h.1, runningCheck_keeps h.2 call⟩
  obtain ⟨kv, e, hreach, hvals⟩ := reachable_of_evalRun hcheck heval
  obtain ⟨hwaiting, hnum⟩ := Prod.mk.inj hvals
  exact ⟨kv, e, hreach, queuesAgree_of_notLost hreach, hwaiting, hnum⟩

/-- The session is preempted while its last token is sampled. When the token arrives, it is put into
`waiting` and taken out again. -/
def lostCalls : List EngineCall :=
  lostRequests.map (.addRequest notDelayed) ++
    [.schedule {}, .schedule {}, .updateFromOutput notDelayed tokenOfOne]

theorem queuesDisagree_lostCalls : ∃ kvCacheManager e,
    EngineCore.Reachable (fun e call => call.WellFormed e)
      (EngineCore.new lostConfig none kvCacheManager 0 fun r => newRequest r [] 0 false) e ∧
    ¬ e.scheduler.QueuesAgree := by
  have heval : evalRun (engineWith lostConfig 5) lostCheck lostCalls (fun e =>
      (e.scheduler.running ++ e.scheduler.waiting, e.scheduler.requests,
        (e.scheduler.request 1).status)) = some ([0], [0, 1], .waitingForStreamingReq) := by
    decide +kernel
  obtain ⟨kv, e, hreach, hvals⟩ := reachable_of_evalRun lostCheck_wellFormed heval
  refine ⟨kv, e, hreach, fun h => ?_⟩
  simp only [Prod.mk.injEq] at hvals
  obtain ⟨hqueues, hrequests, hstatus⟩ := hvals
  have hone := h.once 1 (by rw [hrequests]; simp) (by rw [SchedRequest.isFinished, hstatus]; rfl)
  rw [hqueues] at hone
  exact absurd hone (by decide)

end VllmRuntime
