import VllmRuntime.Shared.Enumerates
import VllmRuntime.Verification.Scheduler.Steps

/-! # The queues of the scheduler

`running` holds the requests with the status `RUNNING` and `waiting` the other unfinished ones. This
module follows the two queues through the calls that move a single request or a few of them. -/

namespace VllmRuntime

open List Function

/-! ## Queues up to their order -/

namespace RequestQueue

variable {policy : SchedulingPolicy} {lt : RequestId → RequestId → Bool}

lemma addRequest_perm (queue : List RequestId) (r : RequestId) :
    (addRequest policy lt queue r).Perm (r :: queue) := by
  cases policy with
  | fcfs => exact perm_append_singleton r queue
  | priority => exact Heapq.heappush_perm lt queue r

lemma prependRequest_perm (queue : List RequestId) (r : RequestId) :
    (prependRequest policy lt queue r).Perm (r :: queue) := by
  cases policy with
  | fcfs => exact .refl _
  | priority =>
    have hperm : (addRequest .priority lt queue r).Perm (r :: queue) := addRequest_perm queue r
    exact hperm

lemma popRequest_eq_ok {queue rest : List RequestId} {r : RequestId}
    (h : popRequest policy lt queue = .ok (r, rest)) :
    queue.head? = some r ∧ queue.Perm (r :: rest) := by
  cases policy with
  | fcfs =>
    cases queue with
    | nil => cases h
    | cons first queue =>
      cases h
      exact ⟨rfl, .refl _⟩
  | priority =>
    unfold popRequest at h
    dsimp only at h
    split at h
    · cases h
    · rename_i popped hpop
      cases h
      exact Heapq.heappop_perm lt hpop

lemma toList_perm (queue : List RequestId) : (toList policy lt queue).Perm queue := by
  cases policy with
  | fcfs => exact .refl _
  | priority => exact Heapq.drain_perm lt le_rfl

lemma prependRequests_perm (queue requests : List RequestId) :
    (prependRequests policy lt queue requests).Perm (requests ++ queue) := by
  cases policy with
  | fcfs => exact (reverse_perm requests).append_right queue
  | priority =>
    have hfold (items queue : List RequestId) :
        (items.foldl (addRequest .priority lt) queue).Perm (items ++ queue) := by
      induction items generalizing queue with
      | nil => exact .refl _
      | cons item items ih =>
        calc items.foldl (addRequest .priority lt) (addRequest .priority lt queue item)
          _ ~ items ++ addRequest .priority lt queue item := ih _
          _ ~ items ++ item :: queue := (addRequest_perm queue item).append_left items
          _ ~ item :: items ++ queue := perm_middle
    exact (hfold _ queue).trans ((toList_perm requests).append_right queue)

lemma removeRequests_perm (queue requests : List RequestId) :
    (removeRequests policy lt queue requests).Perm (queue.filter fun r => r ∉ requests) := by
  cases policy with
  | fcfs => exact .refl _
  | priority => exact Heapq.heapify_perm lt _

end RequestQueue

lemma removeAll_eq_filter {lst itemsToRemove : List RequestId} (h : lst.Nodup) :
    removeAll lst itemsToRemove = lst.filter fun r => r ∉ itemsToRemove := by
  unfold removeAll
  split
  · simp
  · rename_i item
    rw [h.erase_eq_filter]
    refine filter_congr fun x _ => ?_
    rw [Bool.eq_iff_iff]
    simp
  · rfl

/-! ## The invariant -/

namespace Scheduler

/-- The request belongs to `running`. -/
def IsRunning (s : Scheduler) (r : RequestId) : Prop :=
  r ∈ s.requests ∧ (s.request r).status = .running

/-- The request belongs to `waiting`. -/
def IsWaiting (s : Scheduler) (r : RequestId) : Prop :=
  r ∈ s.requests ∧ (s.request r).status ≠ .running ∧ (s.request r).isFinished = false

/-- The request waits for the next input of its session. -/
def isStreaming (s : Scheduler) (r : RequestId) : Bool :=
  (s.request r).status = .waitingForStreamingReq

/-- A request that waits for input belongs to a session that has none. -/
def AwaitsInput (s : Scheduler) (r : RequestId) : Prop :=
  s.isStreaming r = true →
    (s.request r).resumable = true ∧ (s.request r).streamingQueue.getD [] = []

/-- The two lists hold the unfinished requests but those that are about to leave. If not `all` holds,
then waiting requests may be missing. -/
structure Queued (s : Scheduler) (all : Prop) (leaving running waiting : List RequestId) : Prop where
  inRunning : Enumerates True running fun r => r ∉ leaving ∧ s.IsRunning r
  inWaiting : Enumerates all waiting fun r => r ∉ leaving ∧ s.IsWaiting r
  streaming : all → s.numWaitingForStreamingInput = waiting.countP s.isStreaming
  awaits : all → ∀ r ∈ waiting, s.AwaitsInput r

variable {all : Prop} {s s' : Scheduler} {leaving running running' waiting waiting' : List RequestId}
  {r : RequestId} {x : RequestId} {request : SchedRequest}

lemma IsWaiting.not_isRunning (h : s.IsWaiting r) : ¬ s.IsRunning r := fun hr => h.2.1 hr.2

/-- A change that touches neither a status nor the keys of `requests`. -/
structure SameStatus (s s' : Scheduler) : Prop where
  requests : s'.requests = s.requests
  status : ∀ r, (s'.request r).status = (s.request r).status
  awaits : ∀ r, s.AwaitsInput r → s'.AwaitsInput r
  streaming : s'.numWaitingForStreamingInput = s.numWaitingForStreamingInput

/-- The requests are as they were. -/
lemma SameStatus.of_eq (hrequests : s'.requests = s.requests) (hrequest : s'.request = s.request)
    (hstreaming : s'.numWaitingForStreamingInput = s.numWaitingForStreamingInput) :
    SameStatus s s' :=
  ⟨hrequests, fun _ => by rw [hrequest],
    fun _ h => by rwa [AwaitsInput, isStreaming, hrequest], hstreaming⟩

/-- The requests keep their statuses and their sessions. -/
lemma SameStatus.of_session (hrequests : s'.requests = s.requests)
    (hrequest : ∀ r, (s'.request r).status = (s.request r).status ∧
      (s'.request r).resumable = (s.request r).resumable ∧
      (s'.request r).streamingQueue = (s.request r).streamingQueue)
    (hstreaming : s'.numWaitingForStreamingInput = s.numWaitingForStreamingInput) :
    SameStatus s s' := by
  refine ⟨hrequests, fun r => (hrequest r).1, fun r h => ?_, hstreaming⟩
  rwa [AwaitsInput, isStreaming, (hrequest r).1, (hrequest r).2.1, (hrequest r).2.2]

/-- One request is changed, but neither its status nor its session. -/
lemma SameStatus.update (hrequests : s'.requests = s.requests)
    (hrequest : s'.request = update s.request r request)
    (hstreaming : s'.numWaitingForStreamingInput = s.numWaitingForStreamingInput)
    (hstatus : request.status = (s.request r).status)
    (hresumable : request.resumable = (s.request r).resumable)
    (hqueue : request.streamingQueue = (s.request r).streamingQueue) : SameStatus s s' := by
  refine .of_session hrequests (fun x => ?_) hstreaming
  rw [hrequest]
  by_cases hx : x = r
  · subst hx
    rw [update_self]
    exact ⟨hstatus, hresumable, hqueue⟩
  · rw [update_of_ne hx]
    exact ⟨rfl, rfl, rfl⟩

lemma SameStatus.isRunning (h : SameStatus s s') (r : RequestId) :
    s'.IsRunning r ↔ s.IsRunning r := by
  rw [IsRunning, IsRunning, h.requests, h.status]

lemma SameStatus.isWaiting (h : SameStatus s s') (r : RequestId) :
    s'.IsWaiting r ↔ s.IsWaiting r := by
  rw [IsWaiting, IsWaiting, h.requests, SchedRequest.isFinished, SchedRequest.isFinished, h.status]

lemma SameStatus.isStreaming (h : SameStatus s s') : s'.isStreaming = s.isStreaming := by
  funext r
  rw [Scheduler.isStreaming, Scheduler.isStreaming, h.status]

/-- A change of a single request. -/
structure OnlyChanges (s s' : Scheduler) (r : RequestId) : Prop where
  requests : ∀ x, x ≠ r → (x ∈ s'.requests ↔ x ∈ s.requests)
  request : ∀ x, x ≠ r → s'.request x = s.request x

lemma onlyChanges_update (hrequests : s'.requests = s.requests)
    (hrequest : s'.request = update s.request r request) : OnlyChanges s s' r := by
  refine ⟨fun x _ => by rw [hrequests], fun x hx => ?_⟩
  rw [hrequest, update_of_ne hx]

lemma OnlyChanges.isRunning (h : OnlyChanges s s' r) (hx : x ≠ r) :
    s'.IsRunning x ↔ s.IsRunning x := by
  rw [IsRunning, IsRunning, h.requests x hx, h.request x hx]

lemma OnlyChanges.isWaiting (h : OnlyChanges s s' r) (hx : x ≠ r) :
    s'.IsWaiting x ↔ s.IsWaiting x := by
  rw [IsWaiting, IsWaiting, h.requests x hx, h.request x hx]

lemma OnlyChanges.isStreaming (h : OnlyChanges s s' r) (hx : x ≠ r) :
    s'.isStreaming x = s.isStreaming x := by
  rw [Scheduler.isStreaming, Scheduler.isStreaming, h.request x hx]

lemma OnlyChanges.awaitsInput (h : OnlyChanges s s' r) (hx : x ≠ r) :
    s'.AwaitsInput x ↔ s.AwaitsInput x := by
  rw [AwaitsInput, AwaitsInput, h.isStreaming hx, h.request x hx]

namespace Queued

lemma of_sameStatus (h : s.Queued all leaving running waiting) (hsame : SameStatus s s') :
    s'.Queued all leaving running waiting where
  inRunning := h.inRunning.congr fun r => and_congr_right' (hsame.isRunning r)
  inWaiting := h.inWaiting.congr fun r => and_congr_right' (hsame.isWaiting r)
  streaming := fun hall => by rw [hsame.streaming, hsame.isStreaming, h.streaming hall]
  awaits := fun hall r hr => hsame.awaits r (h.awaits hall r hr)

lemma perm (hrunning : running'.Perm running) (hwaiting : waiting'.Perm waiting)
    (h : s.Queued all leaving running waiting) : s.Queued all leaving running' waiting' where
  inRunning := h.inRunning.perm hrunning
  inWaiting := h.inWaiting.perm hwaiting
  streaming := fun hall => by rw [h.streaming hall, hwaiting.countP_eq]
  awaits := fun hall r hr => h.awaits hall r (hwaiting.mem_iff.mp hr)

section

variable (h : s.Queued all leaving running waiting)
include h

lemma not_mem_waiting (hr : ¬ s.IsWaiting r) :
    r ∉ waiting := fun hmem => hr (h.inWaiting.sound r hmem).2

lemma not_mem_running (hr : ¬ s.IsRunning r) :
    r ∉ running := fun hmem => hr (h.inRunning.sound r hmem).2

/-- A request that was not in `waiting` enters it. -/
lemma toWaiting (hchange : OnlyChanges s s' r)
    (hleaving : r ∉ leaving) (hr : ¬ s.IsWaiting r) (hr' : s'.IsWaiting r)
    (hnum : s'.numWaitingForStreamingInput =
      s.numWaitingForStreamingInput + if s'.isStreaming r then 1 else 0)
    (hawaits : s'.AwaitsInput r) : s'.Queued all leaving (running.erase r) (r :: waiting) where
  inRunning := h.inRunning.erase (fun _ hx => hr'.not_isRunning hx.2)
    fun _ hx => and_congr_right' (hchange.isRunning hx)
  inWaiting := h.inWaiting.cons (h.not_mem_waiting hr) ⟨hleaving, hr'⟩
    fun _ hx => and_congr_right' (hchange.isWaiting hx)
  streaming := fun hall => by
    rw [countP_cons, countP_congr_of_ne (fun _ hx => hchange.isStreaming hx)
      (h.not_mem_waiting hr), hnum, h.streaming hall]
    push_cast
    rfl
  awaits := fun hall x hx => by
    rcases List.mem_cons.mp hx with rfl | hx
    · exact hawaits
    · have hne : x ≠ r := fun hxr => h.not_mem_waiting hr (hxr ▸ hx)
      exact (hchange.awaitsInput hne).mpr (h.awaits hall x hx)

lemma awaits_erase (hchange : OnlyChanges s s' r) :
    all → ∀ x ∈ waiting.erase r, s'.AwaitsInput x := by
  intro hall x hx
  obtain ⟨hne, hmem⟩ := h.inWaiting.nodup.mem_erase_iff.mp hx
  exact (hchange.awaitsInput hne).mpr (h.awaits hall x hmem)

/-- A request is moved from `waiting` to `running`. -/
lemma toRunning (hchange : OnlyChanges s s' r)
    (hleaving : r ∉ leaving) (hr : s.IsWaiting r) (hstreaming : s.isStreaming r = false)
    (hr' : s'.IsRunning r)
    (hnum : s'.numWaitingForStreamingInput = s.numWaitingForStreamingInput) :
    s'.Queued all leaving (r :: running) (waiting.erase r) where
  inRunning := h.inRunning.cons (h.not_mem_running hr.not_isRunning) ⟨hleaving, hr'⟩
    fun _ hx => and_congr_right' (hchange.isRunning hx)
  inWaiting := h.inWaiting.erase (fun _ hx => hx.2.not_isRunning hr')
    fun _ hx => and_congr_right' (hchange.isWaiting hx)
  streaming := fun hall => by
    have hmem : r ∈ waiting := h.inWaiting.complete hall r ⟨hleaving, hr⟩
    rw [countP_congr_of_ne (fun _ hx => hchange.isStreaming hx) h.inWaiting.nodup.not_mem_erase,
      hnum, h.streaming hall, countP_eq_erase hmem, hstreaming]
    simp
  awaits := h.awaits_erase hchange

/-- A request of `waiting` gets another status. -/
lemma stayWaiting (hchange : OnlyChanges s s' r)
    (hr : s.IsWaiting r) (hr' : s'.IsWaiting r) (hleaving : r ∉ leaving)
    (hnum : s'.numWaitingForStreamingInput = s.numWaitingForStreamingInput -
      (if s.isStreaming r then 1 else 0) + if s'.isStreaming r then 1 else 0)
    (hawaits : s'.AwaitsInput r) : s'.Queued all leaving running waiting := by
  have hother {x : RequestId} : s'.IsRunning x ↔ s.IsRunning x := by
    by_cases hx : x = r
    · subst hx
      exact iff_of_false hr'.not_isRunning hr.not_isRunning
    · exact hchange.isRunning hx
  have hother' {x : RequestId} : s'.IsWaiting x ↔ s.IsWaiting x := by
    by_cases hx : x = r
    · subst hx
      exact iff_of_true hr' hr
    · exact hchange.isWaiting hx
  have hrest : (waiting.erase r).countP s'.isStreaming = (waiting.erase r).countP s.isStreaming :=
    countP_congr_of_ne (fun _ hx => hchange.isStreaming hx) h.inWaiting.nodup.not_mem_erase
  refine ⟨h.inRunning.congr fun x => and_congr_right' hother,
    h.inWaiting.congr fun x => and_congr_right' hother', fun hall => ?_, fun hall x hx => ?_⟩
  · have hmem : r ∈ waiting := h.inWaiting.complete hall r ⟨hleaving, hr⟩
    rw [countP_eq_erase hmem, hrest, hnum, h.streaming hall, countP_eq_erase hmem]
    push_cast
    omega
  · by_cases hne : x = r
    · exact hne ▸ hawaits
    · exact (hchange.awaitsInput hne).mpr (h.awaits hall x hx)

/-- A request leaves the queues: it is finished, or lost. -/
lemma leave (hchange : OnlyChanges s s' r)
    (hrunning : ¬ s'.IsRunning r) (hwaiting : all → ¬ s'.IsWaiting r)
    (hstreaming : all → s.isStreaming r = false)
    (hnum : all → s'.numWaitingForStreamingInput = s.numWaitingForStreamingInput) :
    s'.Queued all leaving (running.erase r) (waiting.erase r) where
  inRunning := h.inRunning.erase (fun _ hx => hrunning hx.2)
    fun _ hx => and_congr_right' (hchange.isRunning hx)
  inWaiting := h.inWaiting.erase (fun hall hx => hwaiting hall hx.2)
    fun _ hx => and_congr_right' (hchange.isWaiting hx)
  streaming := fun hall => by
    rw [countP_congr_of_ne (fun _ hx => hchange.isStreaming hx) h.inWaiting.nodup.not_mem_erase,
      hnum hall, h.streaming hall]
    by_cases hmem : r ∈ waiting
    · rw [countP_eq_erase hmem, hstreaming hall]
      simp
    · rw [erase_of_not_mem hmem]
  awaits := h.awaits_erase hchange

end

/-- A request that was taken out of the queues before is finished. -/
lemma left (h : s.Queued all (r :: leaving) running waiting) (hchange : OnlyChanges s s' r)
    (hrunning : ¬ s'.IsRunning r) (hwaiting : ¬ s'.IsWaiting r)
    (hnum : s'.numWaitingForStreamingInput = s.numWaitingForStreamingInput) :
    s'.Queued all leaving running waiting := by
  have hnot : r ∉ waiting := fun hr => (h.inWaiting.sound r hr).1 mem_cons_self
  refine ⟨h.inRunning.congr fun x => ?_, h.inWaiting.congr fun x => ?_, fun hall => ?_,
    fun hall x hx => ?_⟩
  · by_cases hx : x = r
    · subst hx
      exact iff_of_false (fun h => hrunning h.2) (fun h => h.1 mem_cons_self)
    · rw [hchange.isRunning hx, mem_cons, not_or, and_iff_right hx]
  · by_cases hx : x = r
    · subst hx
      exact iff_of_false (fun h => hwaiting h.2) (fun h => h.1 mem_cons_self)
    · rw [hchange.isWaiting hx, mem_cons, not_or, and_iff_right hx]
  · rw [countP_congr_of_ne (fun _ hx => hchange.isStreaming hx) hnot, hnum, h.streaming hall]
  · exact (hchange.awaitsInput fun hxr => hnot (hxr ▸ hx)).mpr (h.awaits hall x hx)

end Queued

end Scheduler

/-! ## Scheduling -/

namespace Scheduler

variable {all : Prop} {s s' : Scheduler} {r : RequestId} {leaving running rest : List RequestId}

lemma Queued.preemptRequest
    (h : s.Queued all leaving running (s.waiting ++ rest)) (hleaving : r ∉ leaving)
    (hr : r ∈ s.requests) (hpreempt : s.preemptRequest r = .ok s') :
    s'.Queued all leaving (running.erase r) (s'.waiting ++ rest) := by
  obtain ⟨hstatus, kv, -, rfl⟩ := preemptRequest_eq_ok hpreempt
  refine Queued.perm (.refl _) ?_ (h.toWaiting (r := r) (onlyChanges_update rfl rfl) hleaving
    (fun hw => hw.2.1 hstatus) ⟨hr, ?_, ?_⟩ ?_ ?_)
  · exact (RequestQueue.prependRequest_perm s.waiting r).append_right rest
  · simp [SchedRequest.preempted]
  · simp [SchedRequest.preempted, SchedRequest.isFinished, RequestStatus.isFinished]
  · simp [isStreaming, SchedRequest.preempted]
  · simp [AwaitsInput, isStreaming, SchedRequest.preempted]

/-- The status checks of the waiting loop keep a request in `waiting`. -/
lemma Queued.updateWaitingStatus {env : ScheduleEnv} {isReady : Bool} {waiting : List RequestId}
    (h : s.Queued all [] running waiting) (hr : r ∈ waiting)
    (hstatus : s.updateWaitingStatus env r = .ok (isReady, s')) : s'.Queued all [] running waiting := by
  obtain ⟨kv, finished, failed, numComputedTokens, status, rfl, -, hcase⟩ :=
    updateWaitingStatus_eq_ok hstatus
  have hwaits : s.IsWaiting r := (h.inWaiting.sound r hr).2
  rcases hcase with rfl | ⟨hnew, hold⟩
  · exact h.of_sameStatus (.update rfl rfl rfl rfl rfl rfl)
  · refine h.stayWaiting (r := r) (onlyChanges_update rfl rfl) hwaits ⟨hwaits.1, ?_, ?_⟩
      not_mem_nil ?_ ?_
    · rcases hnew with rfl | rfl <;> simp
    · rcases hnew with rfl | rfl <;> simp [SchedRequest.isFinished, RequestStatus.isFinished]
    · rcases hnew with rfl | rfl <;> rcases hold with hold | hold <;> simp [isStreaming, hold]
    · rcases hnew with rfl | rfl <;> simp [AwaitsInput, isStreaming]

end Scheduler

namespace ScheduleState

open Scheduler

variable {all : Prop} {env : ScheduleEnv} {st st' : ScheduleState} {r : RequestId}

/-- Requests that are skipped still belong to `waiting`. -/
def Queued (st : ScheduleState) (all : Prop) : Prop :=
  st.scheduler.Queued all [] st.scheduler.running (st.scheduler.waiting ++ st.skippedWaitingRequests)

section

variable (h : st.Queued all)
include h

lemma Queued.preempt {i j : ℕ} {victim : RequestId}
    (hpreempt : st.preempt i = .ok (victim, st', j)) : st'.Queued all := by
  have hmem := (preempt_preempts hpreempt).mem
  have hwas : st.scheduler.IsRunning victim := (h.inRunning.sound victim hmem).2
  obtain ⟨hskipped, hs⟩ := preempt_scheduler h.inRunning.nodup hpreempt
  have hsame : SameStatus st.scheduler
      { st.scheduler with running := st.scheduler.running.erase victim } :=
    .of_eq rfl rfl rfl
  have hmoved := (h.of_sameStatus hsame).preemptRequest not_mem_nil hwas.1 hs
  have hrunning := (preempt_preempts hpreempt).running h.inRunning.nodup
  rw [Queued, hskipped, hrunning]
  exact hmoved

lemma Queued.skipWaiting (hskip : st.skipWaiting = .ok st') : st'.Queued all := by
  obtain ⟨r, waiting, hpop, rfl⟩ := skipWaiting_eq_ok hskip
  obtain ⟨-, hperm⟩ := RequestQueue.popRequest_eq_ok hpop
  refine Queued.perm (.refl _) ?_ (h.of_sameStatus (.of_eq rfl rfl rfl))
  calc waiting ++ RequestQueue.prependRequest _ _ st.skippedWaitingRequests r
    _ ~ waiting ++ r :: st.skippedWaitingRequests :=
        (RequestQueue.prependRequest_perm st.skippedWaitingRequests r).append_left waiting
    _ ~ r :: waiting ++ st.skippedWaitingRequests := perm_middle
    _ ~ st.scheduler.waiting ++ st.skippedWaitingRequests :=
        hperm.symm.append_right st.skippedWaitingRequests

lemma Queued.isWaiting_of_head (hr : st.scheduler.waiting.head? = some r) :
    st.scheduler.IsWaiting r :=
  (h.inWaiting.sound r (mem_append_left _ (mem_of_head? hr))).2

lemma Queued.startLoading (hr : st.scheduler.waiting.head? = some r)
    (hready : (st.request r).status.isReady = true) (hload : st.startLoading r = .ok st') :
    st'.Queued all := by
  obtain ⟨st₁, hskip, rfl⟩ := map_eq_ok hload
  have hskipped := h.skipWaiting hskip
  have hwaits : st₁.scheduler.IsWaiting r := by
    obtain ⟨x, waiting, -, rfl⟩ := skipWaiting_eq_ok hskip
    exact h.isWaiting_of_head hr
  have hstatus : (st₁.scheduler.request r).status = (st.request r).status := by
    obtain ⟨x, waiting, -, rfl⟩ := skipWaiting_eq_ok hskip
    rfl
  refine Scheduler.Queued.stayWaiting (r := r) hskipped (onlyChanges_update rfl rfl) hwaits
    ⟨hwaits.1, ?_, ?_⟩ not_mem_nil ?_ ?_
  · simp [setRequest]
  · simp [setRequest, SchedRequest.isFinished, RequestStatus.isFinished]
  · have hold : (st.request r).status ≠ .waitingForStreamingReq := by
      intro hstreaming
      rw [hstreaming] at hready
      cases hready
    simp [isStreaming, setRequest, hstatus, hold]
  · simp [AwaitsInput, isStreaming, setRequest]

lemma Queued.moveToRunning {lookup : CacheLookup} {plan : EncoderPlan}
    (hr : st.scheduler.waiting.head? = some r) (hstart : st.moveToRunning r lookup plan = .ok st') :
    st'.Queued all := by
  have hwaits := h.isWaiting_of_head hr
  obtain ⟨⟨x, waiting⟩, hpop, hstart⟩ := bind_eq_ok hstart
  obtain ⟨⟨newReqs, resumedReqs⟩, hrecord, hstart⟩ := bind_eq_ok hstart
  obtain ⟨m₁, m₂, -, -, rfl⟩ := scheduleEncoderInputs_eq_ok hstart
  obtain ⟨hhead, hperm⟩ := RequestQueue.popRequest_eq_ok hpop
  cases hr.symm.trans hhead
  have hstreaming : st.scheduler.isStreaming r = false := by
    by_contra hstreaming
    have hstatus : (st.scheduler.request r).status = .waitingForStreamingReq := by
      simpa [isStreaming] using hstreaming
    rw [hstatus] at hrecord
    cases hrecord
  refine Scheduler.Queued.perm (perm_append_singleton r st.scheduler.running) ?_
    (h.toRunning (r := r) (onlyChanges_update rfl rfl) not_mem_nil hwaits hstreaming
      ⟨hwaits.1, ?_⟩ ?_)
  · have herase := (hperm.append_right st.skippedWaitingRequests).erase r
    rw [cons_append, erase_cons_head] at herase
    exact herase.symm
  · simp [setRequest]
  · rfl

lemma Queued.runningStep (hstep : RunningStep env st st') : st'.Queued all := by
  cases hstep with
  | plan hr hplan => exact h.of_sameStatus (.of_eq rfl rfl rfl)
  | allocate hr hkv => exact h.of_sameStatus (.of_eq rfl rfl rfl)
  | preempt hscheduled hpreempt => exact h.preempt hpreempt
  | schedule hr hnew hrequest hconfig hwaits hplan hn hschedule =>
    obtain ⟨m₁, m₂, -, -, rfl⟩ := scheduleEncoderInputs_eq_ok hschedule
    exact h.of_sameStatus (.update rfl rfl rfl rfl rfl rfl)

lemma Queued.waitingStep (hstep : WaitingStep env st st') : st'.Queued all := by
  cases hstep with
  | status hr hstatus =>
    have hmem := mem_append_left st.skippedWaitingRequests (mem_of_head? hr)
    have hnext := Scheduler.Queued.updateWaitingStatus h hmem hstatus
    obtain ⟨kv, finished, failed, numComputedTokens, status, rfl, -, -⟩ :=
      updateWaitingStatus_eq_ok hstatus
    exact hnext
  | skip hskip => exact h.skipWaiting hskip
  | lookup hr hlookup =>
    obtain ⟨numExternal, rfl⟩ := lookupComputed_eq_ok hlookup
    exact h.of_sameStatus (.update rfl rfl rfl rfl rfl rfl)
  | plan hr hplan => exact h.of_sameStatus (.of_eq rfl rfl rfl)
  | allocate hr hkv => exact h.of_sameStatus (.of_eq rfl rfl rfl)
  | release hr => exact h.of_sameStatus (.of_eq rfl rfl rfl)
  | load hr hready hload => exact h.startLoading hr hready hload
  | moveToRunning hr _ _ _ _ _ _ hstart => exact h.moveToRunning hr hstart

end

end ScheduleState

namespace Scheduler

variable {all : Prop} {s s' : Scheduler}

/-- The queues hold the unfinished requests. -/
def InQueues (s : Scheduler) (all : Prop) : Prop := s.Queued all [] s.running s.waiting

lemma InQueues.schedule {env : ScheduleEnv} {output : SchedulerOutput} (h : s.InQueues all)
    (hschedule : s.schedule env = .ok (output, s')) : s'.InQueues all := by
  obtain ⟨st, -, -, hloops, -, -⟩ := schedule_eq_ok hschedule
  have hstart : (ScheduleState.start s).Queued all := by
    refine Queued.perm (.refl _) ?_ (h.of_sameStatus (.of_eq rfl rfl rfl))
    exact .of_eq (append_nil s.waiting)
  obtain ⟨st₁, hst₁, rfl, -⟩ := ScheduleState.loops_invariant h.inRunning.nodup hloops hstart
    (fun _ _ => ScheduleState.Queued.runningStep)
    (fun _ _ hst => hst.of_sameStatus (.of_eq rfl rfl rfl))
    (fun _ _ => ScheduleState.Queued.waitingStep)
  have hback : st₁.putBackSkipped.scheduler.InQueues all := by
    unfold ScheduleState.putBackSkipped
    split
    · rename_i hempty
      rw [List.isEmpty_iff] at hempty
      have hst₁ : st₁.scheduler.Queued all [] st₁.scheduler.running
        (st₁.scheduler.waiting ++ st₁.skippedWaitingRequests) := hst₁
      rwa [hempty, append_nil] at hst₁
    · refine Queued.perm (.refl _) ?_ (hst₁.of_sameStatus (.of_eq rfl rfl rfl))
      exact (RequestQueue.prependRequests_perm _ _).trans perm_append_comm
  obtain ⟨⟨m, request, rfl, hrequest⟩, -⟩ :=
    schedule_after_loops h.inRunning.nodup hloops hschedule
  have hsame (x : RequestId) : (request x).status = (st₁.putBackSkipped.request x).status ∧
      (request x).resumable = (st₁.putBackSkipped.request x).resumable ∧
      (request x).streamingQueue = (st₁.putBackSkipped.request x).streamingQueue := by
    rw [hrequest]
    cases st₁.putBackSkipped.numScheduledTokens.lookup x with
    | none => exact ⟨rfl, rfl, rfl⟩
    | some n =>
      obtain ⟨_, _, heq⟩ := SchedRequest.afterSchedule_eq st₁.putBackSkipped.config
        (st₁.putBackSkipped.request x) n
        ((st₁.putBackSkipped.scheduledSpecDecodeTokens.lookup x).getD []).length
      rw [Option.elim_some, heq]
      exact ⟨rfl, rfl, rfl⟩
  exact hback.of_sameStatus (.of_session rfl hsame rfl)

end Scheduler

end VllmRuntime
