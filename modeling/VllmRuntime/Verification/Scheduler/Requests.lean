import VllmRuntime.Model.EngineCore
import VllmRuntime.Verification.Scheduler.Queues
import VllmRuntime.Verification.Scheduler.Updates

/-! # What the calls of the engine do to a request

`schedule` changes what is computed of a request. The other calls say which requests they forget or add,
and how they change the others. -/

namespace VllmRuntime

open Function

/-! ## The loops of `schedule` -/

/-- The loops of `schedule` change the status of a request, what is computed of it and its drafts. -/
def SchedRequest.Rescheduled (request request' : SchedRequest) : Prop :=
  ∃ status numComputedTokens specTokenIds numCachedTokens numPreemptions numExternalComputedTokens,
    request' = { request with
      status, numComputedTokens, specTokenIds, numCachedTokens, numPreemptions,
      numExternalComputedTokens } ∧
    (specTokenIds = request.specTokenIds ∨ specTokenIds = []) ∧
    (status = .waitingForStreamingReq ↔ request.status = .waitingForStreamingReq)

namespace SchedRequest.Rescheduled

lemma refl (request : SchedRequest) : Rescheduled request request :=
  ⟨_, _, _, _, _, _, rfl, Or.inl rfl, Iff.rfl⟩

lemma update {s : RequestId → SchedRequest} {r : RequestId} {request : SchedRequest}
    (h : Rescheduled (s r) request) (x : RequestId) :
    Rescheduled (s x) (update s r request x) := by
  by_cases hx : x = r
  · subst hx
    rwa [update_self]
  · rw [update_of_ne hx]
    exact refl _

end SchedRequest.Rescheduled

namespace ScheduleState

variable {env : ScheduleEnv} {st st' : ScheduleState} {r : RequestId}

lemma RunningStep.rescheduled (hstep : RunningStep env st st') (x : RequestId) :
    (st.request x).Rescheduled (st'.request x) := by
  cases hstep with
  | plan hr hplan => exact .refl _
  | allocate hr hkv => exact .refl _
  | preempt hscheduled hpreempt =>
    obtain ⟨st₁, s', hpop, hs, rfl⟩ := preempt_eq_ok hpreempt
    obtain ⟨hstatus, kv, -, rfl⟩ := Scheduler.preemptRequest_eq_ok hs
    have hsame : st₁.scheduler.request = st.scheduler.request := by
      obtain ⟨-, -, -, rfl⟩ | ⟨-, -, -, -, rfl⟩ | ⟨-, -, -, -, rfl⟩ := popPreempted_cases hpop <;> rfl
    change (st.scheduler.request x).Rescheduled (update st₁.scheduler.request _ _ x)
    rw [hsame] at hstatus ⊢
    refine .update ⟨_, _, _, _, _, _, rfl, Or.inr rfl, ?_⟩ x
    simp [hstatus]
  | schedule hr hnew hrequest hconfig hwaits hplan hn hschedule =>
    obtain ⟨m₁, m₂, -, -, rfl⟩ := scheduleEncoderInputs_eq_ok hschedule
    exact .update ⟨_, _, _, _, _, _, rfl, Or.inr rfl, Iff.rfl⟩ x

lemma WaitingStep.rescheduled (hstep : WaitingStep env st st') (x : RequestId) :
    (st.request x).Rescheduled (st'.request x) := by
  cases hstep with
  | status hr hstatus =>
    obtain ⟨kv, finished, failed, numComputedTokens, status, rfl, -, hcase⟩ :=
      Scheduler.updateWaitingStatus_eq_ok hstatus
    refine .update ⟨_, _, _, _, _, _, rfl, Or.inl rfl, ?_⟩ x
    obtain rfl | ⟨rfl | rfl, hold | hold⟩ := hcase
    · rfl
    all_goals simp [request, hold]
  | skip hskip =>
    obtain ⟨r, waiting, -, rfl⟩ := skipWaiting_eq_ok hskip
    exact .refl _
  | lookup hr hlookup =>
    obtain ⟨numExternal, rfl⟩ := lookupComputed_eq_ok hlookup
    exact .update ⟨_, _, _, _, _, _, rfl, Or.inl rfl, Iff.rfl⟩ x
  | plan hr hplan => exact .refl _
  | allocate hr hkv => exact .refl _
  | release hr => exact .refl _
  | load hr hready hload =>
    obtain ⟨st₁, hskip, hret⟩ := bind_eq_ok hload
    obtain ⟨_, waiting, -, rfl⟩ := skipWaiting_eq_ok hskip
    cases hret
    refine .update ⟨_, _, _, _, _, _, rfl, Or.inl rfl, ?_⟩ x
    refine iff_of_false (by simp) fun hstreaming => ?_
    rw [hstreaming] at hready
    cases hready
  | moveToRunning hr _ _ _ _ _ _ hstart =>
    obtain ⟨⟨y, waiting⟩, -, hstart⟩ := bind_eq_ok hstart
    obtain ⟨⟨newReqs, resumedReqs⟩, hrecord, hstart⟩ := bind_eq_ok hstart
    obtain ⟨m₁, m₂, -, -, rfl⟩ := scheduleEncoderInputs_eq_ok hstart
    refine .update ⟨_, _, _, _, _, _, rfl, Or.inl rfl, ?_⟩ x
    refine iff_of_false (by simp) fun hstreaming => ?_
    rw [show (st.scheduler.request _).status = .waitingForStreamingReq from hstreaming] at hrecord
    cases hrecord

end ScheduleState

namespace Scheduler

variable {s s' : Scheduler} {r : RequestId} {delayFreeBlocks : RequestId → Bool}

/-! ## Finishing -/

/-- Requests may be finished and forgotten; nothing else about them changes. -/
structure Finishes (s s' : Scheduler) : Prop where
  config : s'.config = s.config
  hasher : s'.hasher = s.hasher
  requests : ∀ r ∈ s'.requests, r ∈ s.requests
  request : ∀ r, s'.request r = s.request r ∨
    ∃ status, status.isFinished = true ∧ s'.request r = { s.request r with status }

namespace Finishes

lemma refl (s : Scheduler) : Finishes s s := ⟨rfl, rfl, fun _ h => h, fun _ => Or.inl rfl⟩

lemma trans {s₂ : Scheduler} (h : Finishes s s') (h' : Finishes s' s₂) : Finishes s s₂ where
  config := h'.config.trans h.config
  hasher := h'.hasher.trans h.hasher
  requests := fun r hr => h.requests r (h'.requests r hr)
  request := fun r => by
    rcases h.request r with heq | ⟨status, hfinished, heq⟩
    · rw [← heq]
      exact h'.request r
    · rcases h'.request r with heq' | ⟨status', hfinished', heq'⟩
      · exact Or.inr ⟨status, hfinished, heq'.trans heq⟩
      · exact Or.inr ⟨status', hfinished', by rw [heq', heq]⟩

end Finishes

lemma freeRequest_finishes (h : s.freeRequest delayFreeBlocks r = .ok s') : Finishes s s' := by
  obtain ⟨-, kv, ecm, finished, requests, rfl, hrequests⟩ := freeRequest_eq_ok h
  refine ⟨rfl, rfl, fun x hx => ?_, fun _ => Or.inl rfl⟩
  rcases hrequests with rfl | rfl
  · exact hx
  · exact List.mem_of_mem_erase hx

lemma finishAll_finishes {finishedStatus : RequestStatus} {rs : List RequestId}
    (hstatus : finishedStatus.isFinished = true)
    (h : finishAll delayFreeBlocks finishedStatus rs s = .ok s') : Finishes s s' := by
  induction rs generalizing s with
  | nil =>
    cases h
    exact .refl _
  | cons r rs ih =>
    rw [finishAll] at h
    obtain ⟨s₁, hs₁, h⟩ := bind_eq_ok h
    have hset : Finishes s (s.setRequest r { s.request r with status := finishedStatus }) := by
      refine ⟨rfl, rfl, fun _ hx => hx, fun x => ?_⟩
      by_cases hx : x = r
      · subst hx
        exact Or.inr ⟨finishedStatus, hstatus, setRequest_request_self ..⟩
      · exact Or.inl (setRequest_request_of_ne _ _ hx)
    exact (hset.trans (freeRequest_finishes hs₁)).trans (ih h)

/-! ## Outputs -/

/-- A request that stopped is finished, or its session goes on. -/
lemma handleStopped_eq_ok (h : UpdateState.handleStopped delayFreeBlocks s r = .ok s') :
    OnlyChanges s s' r ∧ s'.config = s.config ∧ s'.hasher = s.hasher ∧
      (∀ x ∈ s'.requests, x ∈ s.requests) ∧
      ∃ base status arrivalTime samplingParams streamingQueue, s'.request r = { s.request r with
        base, status, arrivalTime, samplingParams, streamingQueue } ∧
      (sessionEnds (s.request r) = true → base = (s.request r).base ∧
        status = (s.request r).status) := by
  obtain ⟨⟨finished, s₁⟩, hs₁, h⟩ := bind_eq_ok h
  obtain ⟨hends, rfl, queue, rfl⟩ | ⟨hends, rfl, s₂, rfl, hnext⟩ := handleStoppedRequest_eq_ok hs₁
  · obtain ⟨-, kv, ecm, finished, requests, rfl, hrequests⟩ := freeRequest_eq_ok h
    refine ⟨⟨fun x hx => ?_, fun x hx => setRequest_request_of_ne _ _ hx⟩, rfl, rfl, fun x hx => ?_,
      _, _, _, _, queue, setRequest_request_self .., fun _ => ⟨rfl, rfl⟩⟩
    · rcases hrequests with rfl | rfl
      · exact Iff.rfl
      · exact List.mem_erase_of_ne hx
    · rcases hrequests with rfl | rfl
      · exact hx
      · exact List.mem_of_mem_erase hx
  · cases h
    obtain ⟨update, queue, hupdate⟩ | ⟨-, rfl⟩ := hnext
    · obtain ⟨base, -, rfl⟩ := updateSession_eq_ok hupdate
      refine ⟨⟨fun x hx => Iff.rfl, fun x hx => ?_⟩, rfl, rfl, fun x hx => hx, base, .waiting,
        update.arrivalTime, update.samplingParams, some queue, ?_, fun h => ?_⟩
      · simp [requeue, setRequest, hx]
      · simp [requeue, setRequest]
      · exact absurd (hends.symm.trans h) Bool.false_ne_true
    · refine ⟨⟨fun x hx => Iff.rfl, fun x hx => ?_⟩, rfl, rfl, fun x hx => hx,
        (s.request r).base, .waitingForStreamingReq, (s.request r).arrivalTime,
        (s.request r).samplingParams, (s.request r).streamingQueue, ?_, fun h => ?_⟩
      · simp [requeue, setRequest, hx]
      · simp [requeue, setRequest]
      · exact absurd (hends.symm.trans h) Bool.false_ne_true

end Scheduler

end VllmRuntime
