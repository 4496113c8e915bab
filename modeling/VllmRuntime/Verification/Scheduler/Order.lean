import VllmRuntime.Shared.HeapOrder
import VllmRuntime.Verification.Scheduler.Membership
import VllmRuntime.Verification.Scheduler.Requests

/-! # The order of the waiting requests

Under the priority policy `waiting` is a heap, and under the policy `fcfs` a call of `schedule` does not
change the order of the requests that it leaves in `waiting`. -/

namespace VllmRuntime

variable {hasher : Option (Request → List BlockHash)} {request request' : SchedRequest}
  {before left : List RequestId} {s : Scheduler}

open List Function

/-! ## Keys -/

/-- What requests are compared by: priority, arrival time and id. -/
def SchedRequest.key (request : SchedRequest) : ℤ ×ₗ ℕ ×ₗ RequestId :=
  toLex (request.priority, toLex (request.arrivalTime, request.requestId))

namespace SchedRequest

lemma lt_iff_key (a b : SchedRequest) : a.lt b = true ↔ a.key < b.key := by
  unfold lt key
  rw [Prod.Lex.toLex_lt_toLex, Prod.Lex.toLex_lt_toLex]
  split
  · rename_i hne
    simp [hne]
  · rename_i heq
    rw [not_not] at heq
    split
    · rename_i hne
      simp [heq, hne]
    · rename_i heq'
      rw [not_not] at heq'
      simp [heq, heq']

lemma lt_eq_false_iff_key (a b : SchedRequest) : a.lt b = false ↔ b.key ≤ a.key := by
  rw [← Bool.not_eq_true, lt_iff_key, not_lt]

lemma lt_congr {a a' b b' : SchedRequest} (ha : a'.key = a.key) (hb : b'.key = b.key) : a'.lt b' = a.lt b := by
  rw [Bool.eq_iff_iff, lt_iff_key, lt_iff_key, ha, hb]

lemma lt_ranks (request : RequestId → SchedRequest) : Heapq.Ranks fun a b => (request a).lt (request b) where
  asymm a b h := by
    rw [lt_iff_key] at h
    rw [lt_eq_false_iff_key]
    exact h.le
  trans a b c hba hcb := by
    rw [lt_eq_false_iff_key] at hba hcb ⊢
    exact hba.trans hcb

lemma key_update {request : RequestId → SchedRequest} {r : RequestId} (h : request'.key = (request r).key)
    (x : RequestId) :
    (update request r request' x).key = (request x).key := by
  by_cases hx : x = r
  · subst hx
    rwa [update_self]
  · rw [update_of_ne hx]

end SchedRequest

/-! ## Queues -/

namespace RequestQueue

variable {policy : SchedulingPolicy} {lt : RequestId → RequestId → Bool} {queue : List RequestId}

/-- The queue of the priority policy is a heap. -/
def InOrder (policy : SchedulingPolicy) (lt : RequestId → RequestId → Bool) (queue : List RequestId) : Prop :=
  policy = .priority → Heapq.IsHeap lt queue

namespace InOrder

lemma addRequest (h : InOrder policy lt queue) (hlt : Heapq.Ranks lt) (r : RequestId) :
    InOrder policy lt (addRequest policy lt queue r) := by
  rintro rfl
  exact (h rfl).heappush hlt r

lemma prependRequest (h : InOrder policy lt queue) (hlt : Heapq.Ranks lt) (r : RequestId) :
    InOrder policy lt (prependRequest policy lt queue r) := by
  rintro rfl
  exact (h rfl).heappush hlt r

lemma popRequest (h : InOrder policy lt queue) (hlt : Heapq.Ranks lt) {r : RequestId} {rest : List RequestId}
    (hpop : popRequest policy lt queue = .ok (r, rest)) : InOrder policy lt rest := by
  rintro rfl
  unfold RequestQueue.popRequest at hpop
  dsimp only at hpop
  split at hpop
  · cases hpop
  · rename_i popped hheap
    cases hpop
    exact (h rfl).heappop hlt hheap

lemma prependRequests (h : InOrder policy lt queue) (hlt : Heapq.Ranks lt) (requests : List RequestId) :
    InOrder policy lt (prependRequests policy lt queue requests) := by
  rintro rfl
  unfold RequestQueue.prependRequests
  dsimp only
  generalize toList .priority lt requests = items
  induction items generalizing queue with
  | nil => exact h rfl
  | cons item items ih => exact ih (h.addRequest hlt item)

lemma removeRequests (hlt : Heapq.Ranks lt) (queue requests : List RequestId) :
    InOrder policy lt (removeRequests policy lt queue requests) := by
  rintro rfl
  exact Heapq.heapify_isHeap hlt _

end InOrder

end RequestQueue

namespace Scheduler

variable {s s' : Scheduler} {r : RequestId}

/-- Under the priority policy `waiting` is a heap. -/
def InOrder (s : Scheduler) : Prop := RequestQueue.InOrder s.config.policy s.lt s.waiting

lemma lt_ranks (s : Scheduler) : Heapq.Ranks s.lt := SchedRequest.lt_ranks s.request

/-- The order of a queue stays if the keys of its requests do. -/
lemma inOrder_of_key (s' : Scheduler) {waiting : List RequestId}
    (h : RequestQueue.InOrder s.config.policy s.lt waiting) (hpolicy : s'.config.policy = s.config.policy)
    (hkeys : ∀ x ∈ waiting, (s'.request x).key = (s.request x).key) :
    RequestQueue.InOrder s'.config.policy s'.lt waiting := by
  intro hpriority
  refine (h (hpolicy.symm.trans hpriority)).congr ?_
  intro a ha b hb
  exact SchedRequest.lt_congr (hkeys a ha) (hkeys b hb)

lemma InOrder.of_key (h : s.InOrder) (hpolicy : s'.config.policy = s.config.policy)
    (hwaiting : s'.waiting = s.waiting) (hkeys : ∀ x ∈ s.waiting, (s'.request x).key = (s.request x).key) :
    s'.InOrder := by
  rw [InOrder, hwaiting]
  exact inOrder_of_key s' h hpolicy hkeys

/-- The first request of the queue is a least one. -/
lemma InOrder.peek_least (h : s.InOrder) (hpolicy : s.config.policy = .priority) {x : RequestId}
    (hpeek : RequestQueue.peekRequest s.waiting = .ok r) (hx : x ∈ s.waiting) : s.lt x r = false := by
  refine (h hpolicy).head_least s.lt_ranks ?_ hx
  unfold RequestQueue.peekRequest at hpeek
  split at hpeek
  · cases hpeek
  · rename_i hwaiting
    rw [hwaiting, Except.ok.inj hpeek]
    rfl

lemma InOrder.preemptRequest (h : s.InOrder) (hpreempt : s.preemptRequest r = .ok s') : s'.InOrder := by
  obtain ⟨-, kv, -, rfl⟩ := preemptRequest_eq_ok hpreempt
  have hkey : (s.request r).preempted.key = (s.request r).key := rfl
  have hstart : Scheduler.InOrder { s with request := update s.request r (s.request r).preempted } :=
    h.of_key rfl rfl fun x _ => SchedRequest.key_update hkey x
  exact RequestQueue.InOrder.prependRequest hstart (SchedRequest.lt_ranks _) r

end Scheduler

/-! ## The priority policy -/

lemma SchedRequest.Rescheduled.key_eq (h : request.Rescheduled request') :
    request'.key = request.key := by
  obtain ⟨_, _, _, _, _, _, rfl, -, -⟩ := h
  rfl

namespace ScheduleState

variable {env : ScheduleEnv} {st st' : ScheduleState} {r : RequestId}

lemma skipWaiting_inOrder (h : st.scheduler.InOrder) (hskip : st.skipWaiting = .ok st') :
    st'.scheduler.InOrder := by
  obtain ⟨r, waiting, hpop, rfl⟩ := skipWaiting_eq_ok hskip
  exact RequestQueue.InOrder.popRequest h st.scheduler.lt_ranks hpop

lemma RunningStep.inOrder (hstep : RunningStep env st st') (h : st.scheduler.InOrder) :
    st'.scheduler.InOrder := by
  have hkey (x : RequestId) : (st'.request x).key = (st.request x).key := (hstep.rescheduled x).key_eq
  cases hstep with
  | plan hr hplan => exact h
  | allocate hr hkv => exact h
  | preempt hscheduled hpreempt =>
    obtain ⟨st₁, s', hpop, hs, rfl⟩ := preempt_eq_ok hpreempt
    refine Scheduler.InOrder.preemptRequest (s := st₁.scheduler) ?_ hs
    obtain ⟨-, -, -, rfl⟩ | ⟨-, -, -, -, rfl⟩ | ⟨-, -, -, -, rfl⟩ := popPreempted_cases hpop <;> exact h
  | schedule hr hnew hrequest hconfig hwaits hplan hn hschedule =>
    obtain ⟨m₁, m₂, -, -, rfl⟩ := scheduleEncoderInputs_eq_ok hschedule
    exact h.of_key rfl rfl fun x _ => hkey x

lemma WaitingStep.inOrder (hstep : WaitingStep env st st') (h : st.scheduler.InOrder) :
    st'.scheduler.InOrder := by
  have hkey (x : RequestId) : (st'.request x).key = (st.request x).key := (hstep.rescheduled x).key_eq
  cases hstep with
  | status hr hstatus =>
    obtain ⟨kv, finished, failed, numComputedTokens, status, rfl, -⟩ :=
      Scheduler.updateWaitingStatus_eq_ok hstatus
    exact h.of_key rfl rfl fun x _ => hkey x
  | skip hskip => exact skipWaiting_inOrder h hskip
  | lookup hr hlookup =>
    obtain ⟨numExternal, rfl⟩ := lookupComputed_eq_ok hlookup
    exact h.of_key rfl rfl fun x _ => hkey x
  | plan hr hplan => exact h
  | allocate hr hkv => exact h
  | release hr => exact h
  | load hr hready hload =>
    obtain ⟨st₁, hskip, hret⟩ := bind_eq_ok hload
    have hskipped := skipWaiting_inOrder h hskip
    obtain ⟨_, waiting, -, rfl⟩ := skipWaiting_eq_ok hskip
    cases hret
    exact hskipped.of_key rfl rfl fun x _ => hkey x
  | moveToRunning hr _ _ _ _ _ _ hstart =>
    obtain ⟨⟨y, waiting⟩, hpop, hstart⟩ := bind_eq_ok hstart
    obtain ⟨⟨newReqs, resumedReqs⟩, -, hstart⟩ := bind_eq_ok hstart
    obtain ⟨m₁, m₂, -, -, rfl⟩ := scheduleEncoderInputs_eq_ok hstart
    have hrest := RequestQueue.InOrder.popRequest h st.scheduler.lt_ranks hpop
    exact Scheduler.inOrder_of_key _ hrest rfl fun x _ => hkey x

end ScheduleState

/-! ### The ids of requests -/

@[simp] lemma Request.requestId_appendOutputTokenIds (hasher : Option (Request → List BlockHash))
    (request : Request) (tokenIds : List TokenId) :
    (request.appendOutputTokenIds hasher tokenIds).requestId = request.requestId := by
  unfold appendOutputTokenIds extendBlockHashes
  split <;> rfl

lemma requestId_updateRequestAsSession {session base : Request} {update : StreamingUpdate}
    (h : updateRequestAsSession hasher session update = .ok base) :
    base.requestId = session.requestId := by
  unfold updateRequestAsSession at h
  dsimp only at h
  split at h
  · cases h
  · cases h
    unfold Request.extendBlockHashes
    split <;> rfl

lemma key_appendOutput {maxModelLen : ℕ} {tokenIds appended : List TokenId} {stopped : Bool}
    (h : appendOutput hasher maxModelLen tokenIds request = .ok (appended, stopped, request')) :
    request'.key = request.key := by
  induction tokenIds generalizing request appended with
  | nil =>
    cases h
    rfl
  | cons tokenId tokenIds ih =>
    rw [appendOutput] at h
    obtain ⟨⟨stop, request₁⟩, hcheck, h⟩ := bind_eq_ok h
    have happend : request₁.key = request.key := by
      obtain ⟨-, rfl⟩ | ⟨-, status, stopReason, rfl, -⟩ := checkStop_eq_ok hcheck <;>
        simp [SchedRequest.key, SchedRequest.requestId]
    cases stop with
    | true =>
      cases h
      exact happend
    | false =>
      obtain ⟨⟨rest, stop, request₂⟩, hrest, hret⟩ := bind_eq_ok h
      cases hret
      exact (ih hrest).trans happend

namespace Scheduler

variable {s s' : Scheduler} {r : RequestId} {delayFreeBlocks : RequestId → Bool} {request : SchedRequest}
  {finishedStatus : RequestStatus} {rs : List RequestId}

lemma InOrder.schedule {env : ScheduleEnv} {output : SchedulerOutput} (h : s.InOrder)
    (hnodup : s.running.Nodup) (hschedule : s.schedule env = .ok (output, s')) : s'.InOrder := by
  obtain ⟨st, -, -, hloops, -, -⟩ := schedule_eq_ok hschedule
  have hstart : (ScheduleState.start s).scheduler.InOrder := h
  obtain ⟨st₁, hst₁, rfl, -⟩ := ScheduleState.loops_invariant hnodup hloops hstart
    (fun _ _ hst hstep => hstep.inOrder hst) (fun _ _ hst => hst) (fun _ _ hst hstep => hstep.inOrder hst)
  have hback : st₁.putBackSkipped.scheduler.InOrder := by
    unfold ScheduleState.putBackSkipped
    split
    · exact hst₁
    · exact RequestQueue.InOrder.prependRequests hst₁ st₁.scheduler.lt_ranks _
  obtain ⟨⟨m, request, rfl, hrequest⟩, -⟩ := schedule_after_loops hnodup hloops hschedule
  refine hback.of_key rfl rfl fun x _ => ?_
  change (request x).key = _
  rw [hrequest]
  cases st₁.putBackSkipped.numScheduledTokens.lookup x with
  | none => rfl
  | some n =>
    obtain ⟨_, _, heq⟩ := SchedRequest.afterSchedule_eq st₁.putBackSkipped.config
      (st₁.putBackSkipped.request x) n ((st₁.putBackSkipped.scheduledSpecDecodeTokens.lookup x).getD []).length
    rw [Option.elim_some, heq]
    rfl

lemma Finishes.key_eq (h : Finishes s s') (x : RequestId) : (s'.request x).key = (s.request x).key := by
  rcases h.request x with heq | ⟨status, -, heq⟩
  · rw [heq]
  · rw [heq]
    rfl

lemma InOrder.setRequest (h : s.InOrder) (hkey : request.key = (s.request r).key) :
    (s.setRequest r request).InOrder :=
  h.of_key rfl rfl fun x _ => SchedRequest.key_update hkey x

lemma finishAll_waiting (h : finishAll delayFreeBlocks finishedStatus rs s = .ok s') :
    s'.waiting = s.waiting := by
  induction rs generalizing s with
  | nil =>
    cases h
    rfl
  | cons r rs ih =>
    rw [finishAll] at h
    obtain ⟨s₁, hfree, h⟩ := bind_eq_ok h
    obtain ⟨-, -, -, hwaiting, -, -, -⟩ := onlyChanges_freeRequest hfree
    exact (ih h).trans hwaiting

lemma InOrder.finishRequests {requestIds : List RequestId} (h : s.InOrder)
    (hfinish : s.finishRequests delayFreeBlocks requestIds finishedStatus = .ok s') : s'.InOrder := by
  obtain ⟨_, hstatus, hfinish⟩ := bind_eq_ok hfinish
  have hfinishes := finishAll_finishes (pyAssert_eq_ok.mp hstatus) hfinish
  have hwaiting := finishAll_waiting hfinish
  refine of_key ?_ (congrArg (·.policy) hfinishes.config) hwaiting fun x _ => hfinishes.key_eq x
  unfold InOrder
  dsimp only
  split
  · exact h
  · exact RequestQueue.InOrder.removeRequests s.lt_ranks _ _

/-- A session whose input comes keeps its place in the queue. -/
lemma InOrder.updateSession {update : QueuedUpdate}
    (h : Scheduler.InOrder (s.setRequest r { s.request r with arrivalTime := update.arrivalTime }))
    (hupdate : s.updateSession r update = .ok s') : s'.InOrder := by
  obtain ⟨base, hbase, rfl⟩ := updateSession_eq_ok hupdate
  refine h.of_key rfl rfl fun x _ => ?_
  by_cases hx : x = r
  · subst hx
    have hid : base.requestId = (s.request x).kvRequest.requestId := requestId_updateRequestAsSession hbase
    simp [SchedRequest.key, SchedRequest.requestId, hid, SchedRequest.kvRequest]
  · simp [hx]

/-- Where a session waits for input in the queue, the queue is still in order with the arrival time of the
input. -/
def KeepsOrder (s : Scheduler) (request : SchedRequest) : Prop :=
  request.requestId ∈ s.requests → (s.request request.requestId).status = .waitingForStreamingReq →
    request.resumable = true →
      Scheduler.InOrder (s.setRequest request.requestId { s.request request.requestId with
        arrivalTime := request.arrivalTime })

lemma InOrder.addRequest (h : s.InOrder) (hqueues : s.InQueues False) (hkeeps : s.KeepsOrder request)
    (hadd : s.addRequest delayFreeBlocks request = .ok s') : s'.InOrder := by
  unfold Scheduler.addRequest at hadd
  dsimp only at hadd
  split at hadd
  · rename_i hmem
    split at hadd
    · split at hadd
      · cases hadd
      · cases hadd
        refine h.setRequest ?_
        rfl
    · rename_i hstatus
      rw [not_not] at hstatus
      split at hadd
      · rename_i update hupdate
        unfold SchedRequest.toUpdate at hupdate
        split at hupdate
        · rename_i hresumable
          cases hupdate
          exact InOrder.updateSession (hkeeps hmem hstatus hresumable) hadd
        · cases hupdate
      · exact h.finishRequests hadd
  · -- The request is in no queue yet, so its key is none of those that were compared.
    rename_i hmem
    cases hadd
    refine RequestQueue.InOrder.addRequest ?_ (SchedRequest.lt_ranks _) request.requestId
    refine inOrder_of_key (s.setRequest request.requestId _) h rfl fun x hx => ?_
    have hne : x ≠ request.requestId := fun heq => hmem (heq ▸ (hqueues.inWaiting.sound x hx).2.1)
    rw [setRequest_request_of_ne _ _ hne]

lemma InOrder.preemptAll (h : s.InOrder) (hpreempt : preemptAll rs s = .ok s') :
    s'.InOrder := by
  induction rs generalizing s with
  | nil =>
    cases hpreempt
    exact h
  | cons r rs ih =>
    rw [Scheduler.preemptAll] at hpreempt
    obtain ⟨s₁, hs₁, hpreempt⟩ := bind_eq_ok hpreempt
    have hnext := InOrder.preemptRequest (s := { s with running := s.running.dropLast }) h hs₁
    refine ih (hnext.setRequest ?_) hpreempt
    rfl

lemma InOrder.resetPrefixCache {resetRunningRequests resetSuccessful : Bool} (h : s.InOrder)
    (hreset : s.resetPrefixCache resetRunningRequests = .ok (resetSuccessful, s')) : s'.InOrder := by
  unfold Scheduler.resetPrefixCache at hreset
  split at hreset
  · obtain ⟨s₁, hs₁, hreset⟩ := bind_eq_ok hreset
    obtain ⟨s₂, hpreempt, rfl⟩ := map_eq_ok hs₁
    dsimp only at hreset
    split at hreset
    · cases hreset
      have hpreempted : s₂.InOrder := h.preemptAll hpreempt
      exact hpreempted
    · cases hreset
  · cases hreset
    exact h

lemma InOrder.updateDraftTokenIds (h : s.InOrder) (drafts : List (RequestId × List ℤ)) :
    (s.updateDraftTokenIds drafts).InOrder := by
  unfold Scheduler.updateDraftTokenIds
  refine foldlRecOn (motive := InOrder) _ _ h fun s' hs' draft _ => ?_
  split
  · exact hs'
  · exact hs'.setRequest rfl

/-- A stopped request leaves `waiting` as it is, or is put into it. -/
lemma handleStopped_waiting (h : UpdateState.handleStopped delayFreeBlocks s r = .ok s') :
    s'.waiting = s.waiting ∨ s'.waiting = RequestQueue.addRequest s'.config.policy s'.lt s.waiting r := by
  obtain ⟨⟨finished, s₁⟩, hs₁, h⟩ := bind_eq_ok h
  obtain ⟨-, rfl, queue, rfl⟩ | ⟨-, rfl, s₂, rfl, hnext⟩ := handleStoppedRequest_eq_ok hs₁
  · obtain ⟨-, -, -, hwaiting, -, -, -⟩ := onlyChanges_freeRequest h
    exact Or.inl hwaiting
  · cases h
    refine Or.inr ?_
    obtain ⟨update, queue, hupdate⟩ | ⟨-, rfl⟩ := hnext
    · obtain ⟨base, -, rfl⟩ := updateSession_eq_ok hupdate
      rfl
    · rfl

end Scheduler

/-! ### Outputs -/

namespace UpdateState

open Scheduler

variable {u u' : UpdateState} {r : RequestId} {delayFreeBlocks : RequestId → Bool}
  {output : SchedulerOutput} {modelRunnerOutput : ModelRunnerOutput}

lemma appendTokens_key {s' : Scheduler} {tokenIds appended : List TokenId} {stopped hasPoolerOutput : Bool}
    (h : appendTokens s r tokenIds hasPoolerOutput = .ok (appended, stopped, s')) :
    s'.config = s.config ∧ s'.waiting = s.waiting ∧ ∀ x, (s'.request x).key = (s.request x).key := by
  unfold appendTokens at h
  split at h
  · obtain ⟨-, -, -, rfl⟩ | ⟨-, kv, request, happend, -, rfl⟩ := updateRequestWithOutput_eq_ok h
    · refine ⟨rfl, rfl, SchedRequest.key_update ?_⟩
      rfl
    · have hkey : request.key = (s.request r).key := key_appendOutput happend
      exact ⟨rfl, rfl, SchedRequest.key_update hkey⟩
  · split at h
    · cases h
      refine ⟨rfl, rfl, SchedRequest.key_update ?_⟩
      rfl
    · cases h
      exact ⟨rfl, rfl, fun _ => rfl⟩

/-- An output keeps the order of `waiting`, unless its request stops while it is not running. -/
lemma processRequest_inOrder (h : u.scheduler.InOrder) (hqueued : u.Queued False)
    (hprocess : u.processRequest delayFreeBlocks output modelRunnerOutput r = .ok u')
    (hstopped : u'.stoppedPreemptedReqs = []) : u'.scheduler.InOrder := by
  obtain ⟨⟨appended, stopped, s₁⟩, happend, hprocess⟩ := bind_eq_ok hprocess
  obtain ⟨a, b, hreject⟩ := (u.scheduler.request r).rejectDrafts_eq
    ((output.scheduledSpecDecodeTokens.lookup r).getD []) (modelRunnerOutput.sampledTokenIds r)
  rw [hreject] at happend hprocess
  obtain ⟨hconfig, hwaiting, hkey⟩ := appendTokens_key happend
  have hs₁ : s₁.InOrder := by
    refine (h.setRequest ?_).of_key (congrArg (·.policy) hconfig) hwaiting fun x _ => hkey x
    rfl
  dsimp only at hprocess
  cases stopped with
  | false =>
    cases hprocess
    exact hs₁
  | true =>
    rw [if_pos rfl] at hprocess
    obtain ⟨s₂, hs₂, rfl⟩ := map_eq_ok hprocess
    dsimp only at hstopped
    split at hstopped
    · -- A running request is not in the queue, so the input that it gets changes no key there.
      rename_i hstatus
      have hnot : r ∉ s₁.waiting := by
        rw [hwaiting]
        intro hmem
        have hmem' : r ∈ u.scheduler.waiting := hmem
        have hwaits := hqueued.2.inWaiting.sound r (by simpa [hstopped] using hmem')
        exact hwaits.2.2.1 hstatus
      obtain ⟨hchange, hconfig₂, -⟩ := handleStopped_eq_ok hs₂
      have hmembers := inOrder_of_key s₂ hs₁ (congrArg (·.policy) hconfig₂) fun x hx => by
        rw [hchange.request x fun heq => hnot (heq ▸ hx)]
      rw [Scheduler.InOrder]
      rcases handleStopped_waiting hs₂ with hsame | hadded
      · rwa [hsame]
      · rw [hadded]
        exact hmembers.addRequest s₂.lt_ranks r
    · simp at hstopped

lemma stoppedPreemptedReqs_of_processRequest
    (hprocess : u.processRequest delayFreeBlocks output modelRunnerOutput r = .ok u')
    (hstopped : u'.stoppedPreemptedReqs = []) : u.stoppedPreemptedReqs = [] := by
  obtain ⟨-, -, -, -, -, -, ⟨-, -, -, hsame⟩ | ⟨-, -, -, hsame⟩⟩ := processRequest_eq_ok hprocess
  · rwa [← hsame]
  · rw [hsame] at hstopped
    split at hstopped
    · exact hstopped
    · simp at hstopped

/-- The loop keeps the order of `waiting` as long as no request has stopped that was not running. -/
lemma processAll_inOrder {failedReqIds : List RequestId} {entries : OrderedDict RequestId ℤ}
    (h : u.stoppedPreemptedReqs = [] → u.scheduler.InOrder) (hqueued : u.Queued False)
    (hnodup : (entries.map Prod.fst).Nodup)
    (hfresh : ∀ r ∈ entries.map Prod.fst, r ∉ u.stoppedPreemptedReqs)
    (hprocess : processAll delayFreeBlocks output modelRunnerOutput failedReqIds entries u = .ok u') :
    u'.stoppedPreemptedReqs = [] → u'.scheduler.InOrder := by
  induction entries generalizing u with
  | nil =>
    cases hprocess
    exact h
  | cons entry entries ih =>
    obtain ⟨r, n⟩ := entry
    rw [UpdateState.processAll] at hprocess
    obtain ⟨_, -, hprocess⟩ := bind_eq_ok hprocess
    rw [map_cons, nodup_cons] at hnodup
    simp only [map_cons, forall_mem_cons] at hfresh
    split at hprocess
    · exact ih h hqueued hnodup.2 hfresh.2 hprocess
    · rename_i hskip
      rw [not_or, not_not] at hskip
      obtain ⟨u₁, hu₁, hprocess⟩ := bind_eq_ok hprocess
      obtain ⟨hqueued₁, hdone⟩ := hqueued.processRequest hskip.2 hfresh.1 False.elim hu₁
      refine ih (fun hnone => ?_) hqueued₁ hnodup.2 (fun x hx hin => ?_) hprocess
      · exact processRequest_inOrder (h (stoppedPreemptedReqs_of_processRequest hu₁ hnone)) hqueued hu₁ hnone
      · rcases hdone.stopped x hin with hin | hxr
        · exact hfresh.2 x hx hin
        · exact hnodup.1 (hxr ▸ hx)

/-- Requests that have stopped without running are taken out of `waiting`, which orders it anew. -/
lemma removeStopped_inOrder (h : u.stoppedPreemptedReqs = [] → u.scheduler.InOrder) : u.removeStopped.InOrder := by
  unfold UpdateState.removeStopped Scheduler.InOrder
  dsimp only
  split
  · rename_i hempty
    exact h (List.isEmpty_iff.mp hempty)
  · exact RequestQueue.InOrder.removeRequests (SchedRequest.lt_ranks u.scheduler.request) _ _

end UpdateState

namespace Scheduler

variable {s s' : Scheduler} {delayFreeBlocks : RequestId → Bool} {outputs : List EngineCoreOutput}

lemma InOrder.updateFromOutput {output : SchedulerOutput} {modelRunnerOutput : ModelRunnerOutput}
    (h : s.InOrder) (hqueues : s.InQueues False) (hnodup : (output.numScheduledTokens.map Prod.fst).Nodup)
    (hupdate : s.updateFromOutput delayFreeBlocks output modelRunnerOutput = .ok (outputs, s')) :
    s'.InOrder := by
  obtain ⟨⟨failedReqIds, s₁⟩, hfailures, hupdate⟩ := bind_eq_ok hupdate
  obtain ⟨u, hu, hupdate⟩ := bind_eq_ok hupdate
  obtain ⟨⟨failedOutputs, s₂⟩, hfailed, hupdate⟩ := bind_eq_ok hupdate
  obtain ⟨s₃, hs₃, hret⟩ := bind_eq_ok hupdate
  cases hret
  have hstart := hqueues.handleKvLoadFailures hfailures
  obtain ⟨kv, failed, request, rfl, hrequest⟩ := handleKvLoadFailures_eq_ok hfailures
  have hkey (x : RequestId) : (request x).key = (s.request x).key := by
    obtain ⟨_, _, heq⟩ := hrequest x
    rw [heq]
    rfl
  have hloop : u.stoppedPreemptedReqs = [] → u.scheduler.InOrder :=
    UpdateState.processAll_inOrder (fun _ => h.of_key rfl rfl fun x _ => hkey x) hstart hnodup
      (fun _ _ => not_mem_nil) hu
  refine updateFromKvConnector_preserves (P := InOrder) (fun _ _ _ h => h) (fun s r s' h hfree => ?_) ?_ hs₃
  · obtain ⟨-, kv, rfl⟩ := freeBlocks_eq_ok hfree
    exact h
  · obtain rfl | hs₂ := finishFailed_eq_ok hfailed
    · exact UpdateState.removeStopped_inOrder hloop
    · exact (UpdateState.removeStopped_inOrder hloop).finishRequests hs₂

end Scheduler

/-! ## First come, first served -/

namespace ScheduleState

variable {env : ScheduleEnv} {s : Scheduler} {st st' : ScheduleState}

/-- Under `fcfs` the loop over the running requests puts those that it preempts before the waiting ones. -/
structure PutsPreemptedFirst (s : Scheduler) (st : ScheduleState) : Prop where
  policy : st.scheduler.config.policy = .fcfs
  running : ∀ x ∈ st.scheduler.running, x ∈ s.running
  preempted : ∀ x ∈ st.preemptedReqs, x ∈ s.running
  waiting : st.scheduler.waiting = st.preemptedReqs.reverse ++ s.waiting
  skipped : st.skippedWaitingRequests = []

lemma PutsPreemptedFirst.step (h : PutsPreemptedFirst s st) (hstep : RunningStep env st st') :
    PutsPreemptedFirst s st' := by
  cases hstep with
  | plan hr hplan | allocate hr hkv => exact ⟨h.policy, h.running, h.preempted, h.waiting, h.skipped⟩
  | preempt hscheduled hpreempt =>
    obtain ⟨st₁, s', hpop, hs, rfl⟩ := preempt_eq_ok hpreempt
    obtain ⟨-, kv, -, rfl⟩ := Scheduler.preemptRequest_eq_ok hs
    obtain ⟨-, hlast, -, rfl⟩ | ⟨hpolicy, -⟩ | ⟨hpolicy, -⟩ := popPreempted_cases hpop
    · refine ⟨h.policy, fun x hx => h.running x (mem_of_mem_dropLast hx), fun x hx => ?_, ?_, h.skipped⟩
      · rcases List.mem_append.mp hx with hx | hx
        · exact h.preempted x hx
        · obtain rfl := List.mem_singleton.mp hx
          exact h.running x (mem_of_getLast? hlast)
      · simp [h.policy, h.waiting, RequestQueue.prependRequest]
    · cases hpolicy.symm.trans h.policy
    · cases hpolicy.symm.trans h.policy
  | schedule hr hnew hrequest hconfig hwaits hplan hn hschedule =>
    obtain ⟨m₁, m₂, -, -, rfl⟩ := scheduleEncoderInputs_eq_ok hschedule
    exact ⟨h.policy, h.running, h.preempted, h.waiting, h.skipped⟩

/-- Under `fcfs` the loop over the waiting requests only takes requests away from them: those that it skips,
turned round, and those that it has not come to are in the order in which they were. -/
structure TakesFromFront (waiting : List RequestId) (st : ScheduleState) : Prop where
  policy : st.scheduler.config.policy = .fcfs
  sublist : (st.skippedWaitingRequests.reverse ++ st.scheduler.waiting).Sublist waiting

variable {waiting : List RequestId}

lemma popRequest_fcfs {lt : RequestId → RequestId → Bool} {queue rest : List RequestId} {r : RequestId}
    (h : RequestQueue.popRequest .fcfs lt queue = .ok (r, rest)) : queue = r :: rest := by
  cases queue with
  | nil => cases h
  | cons first queue =>
    cases h
    rfl

lemma TakesFromFront.skipWaiting (h : TakesFromFront waiting st) (hskip : st.skipWaiting = .ok st') :
    TakesFromFront waiting st' := by
  obtain ⟨r, rest, hpop, rfl⟩ := skipWaiting_eq_ok hskip
  rw [h.policy] at hpop
  refine ⟨h.policy, ?_⟩
  have hsublist := h.sublist
  rw [popRequest_fcfs hpop] at hsublist
  simpa [h.policy, RequestQueue.prependRequest] using hsublist

lemma TakesFromFront.step (h : TakesFromFront waiting st) (hstep : WaitingStep env st st') :
    TakesFromFront waiting st' := by
  cases hstep with
  | status hr hstatus =>
    obtain ⟨kv, finished, failed, numComputedTokens, status, rfl, -⟩ :=
      Scheduler.updateWaitingStatus_eq_ok hstatus
    exact ⟨h.policy, h.sublist⟩
  | skip hskip => exact h.skipWaiting hskip
  | lookup hr hlookup =>
    obtain ⟨numExternal, rfl⟩ := lookupComputed_eq_ok hlookup
    exact ⟨h.policy, h.sublist⟩
  | plan hr hplan => exact ⟨h.policy, h.sublist⟩
  | allocate hr hkv => exact ⟨h.policy, h.sublist⟩
  | release hr => exact ⟨h.policy, h.sublist⟩
  | load hr hready hload =>
    obtain ⟨st₁, hskip, rfl⟩ := map_eq_ok hload
    have hskipped := h.skipWaiting hskip
    exact ⟨hskipped.policy, hskipped.sublist⟩
  | moveToRunning hr _ _ _ _ _ _ hstart =>
    obtain ⟨⟨y, rest⟩, hpop, hstart⟩ := bind_eq_ok hstart
    obtain ⟨⟨newReqs, resumedReqs⟩, -, hstart⟩ := bind_eq_ok hstart
    obtain ⟨m₁, m₂, -, -, rfl⟩ := scheduleEncoderInputs_eq_ok hstart
    refine ⟨h.policy, List.Sublist.trans ?_ h.sublist⟩
    rw [h.policy] at hpop
    rw [popRequest_fcfs hpop]
    exact (sublist_cons_self y rest).append_left _

lemma TakesFromFront.putBackSkipped (h : TakesFromFront waiting st) :
    st.putBackSkipped.scheduler.waiting.Sublist waiting := by
  unfold ScheduleState.putBackSkipped
  split
  · rename_i hempty
    simpa [List.isEmpty_iff.mp hempty] using h.sublist
  · simpa [h.policy, RequestQueue.prependRequests, RequestQueue.toList] using h.sublist

end ScheduleState

lemma filter_mem_of_sublist (hnodup : before.Nodup) (hleft : left.Sublist before) :
    before.filter (· ∈ left) = left := by
  have hsub : left.Sublist (before.filter (· ∈ left)) := by
    have hfilter := hleft.filter (· ∈ left)
    rwa [filter_eq_self.mpr fun x hx => decide_eq_true hx] at hfilter
  have hperm : (before.filter (· ∈ left)).Subperm left :=
    (hnodup.filter _).subperm fun x hx => of_decide_eq_true (mem_filter.mp hx).2
  exact (hsub.eq_of_length_le hperm.length_le).symm

/-- Two lists have what they share in the same order if one of them is, but for requests that are not in the
other, a part of it. -/
lemma filter_mem_eq_of_sublist {added : List RequestId} (hnodup : before.Nodup)
    (hadded : ∀ x ∈ added, x ∉ before) (hleft : left.Sublist before) :
    (added ++ left).filter (· ∈ before) = before.filter (· ∈ added ++ left) := by
  have hfirst : added.filter (· ∈ before) = [] := by
    simpa [filter_eq_nil_iff] using hadded
  have hsecond : left.filter (· ∈ before) = left := by
    simpa [filter_eq_self] using fun x hx => hleft.subset hx
  have hsame : before.filter (· ∈ added ++ left) = before.filter (· ∈ left) := by
    refine filter_congr fun x hx => ?_
    have hnot : x ∉ added := fun h => hadded x h hx
    simp [hnot]
  rw [filter_append, hfirst, hsecond, nil_append, hsame, filter_mem_of_sublist hnodup hleft]

/-- Under `fcfs` a call of `schedule` puts the requests that it preempts before those that still wait. -/
lemma Scheduler.schedule_waiting_fcfs {s' : Scheduler} {env : ScheduleEnv} {output : SchedulerOutput}
    (hfcfs : s.config.policy = .fcfs) (hnodup : s.running.Nodup)
    (hschedule : s.schedule env = .ok (output, s')) :
    ∃ preempted left, s'.waiting = preempted ++ left ∧ (∀ x ∈ preempted, x ∈ s.running) ∧
      left.Sublist s.waiting := by
  obtain ⟨st, -, -, hloops, -, -⟩ := schedule_eq_ok hschedule
  obtain ⟨⟨m, request, rfl, -⟩, -⟩ := schedule_after_loops hnodup hloops hschedule
  obtain ⟨st₁, st₂, st₃, hfirst, hrecord, hsecond, hends, rfl, -⟩ := ScheduleState.loops_eq_ok hnodup hloops
  have hrunning : ScheduleState.PutsPreemptedFirst s st₁ := by
    clear hrecord hends
    induction hfirst with
    | refl => exact ⟨hfcfs, fun _ hx => hx, fun _ hx => absurd hx not_mem_nil, rfl, rfl⟩
    | tail _ hstep ih => exact ih.step hstep
  obtain ⟨loras, rfl⟩ := ScheduleState.recordLoras_eq_ok hrecord
  rcases hends with hnone | rfl
  · -- No request was preempted, so the second loop started with the waiting requests as they were.
    have hwaiting : ScheduleState.TakesFromFront s.waiting st₃ := by
      clear hloops hschedule
      induction hsecond with
      | refl =>
        refine ⟨hrunning.policy, ?_⟩
        simp [hrunning.skipped, hrunning.waiting, hnone]
      | tail _ hstep ih => exact ih.step hstep
    exact ⟨[], st₃.putBackSkipped.scheduler.waiting, rfl, fun _ hx => absurd hx not_mem_nil,
      hwaiting.putBackSkipped⟩
  · refine ⟨st₁.preemptedReqs.reverse, s.waiting, ?_, fun x hx => ?_, .refl _⟩
    · simpa [ScheduleState.putBackSkipped, hrunning.skipped] using hrunning.waiting
    · exact hrunning.preempted x (List.mem_reverse.mp hx)

/-! ## Runs -/

/-- The call leaves the heap in order if it gives a waiting session its input. -/
def EngineCall.KeepsOrder (e : EngineCore) : EngineCall → Prop
  | addRequest _ request => e.scheduler.KeepsOrder request
  | _ => True

lemma EngineCore.inOrder_run {e e' : EngineCore} {call : EngineCall} (h : e.scheduler.InOrder)
    (hqueues : e.InQueues False) (hkeeps : call.KeepsOrder e) (hrun : call.run e = .ok e') :
    e'.scheduler.InOrder := by
  cases call with
  | addRequest delayFreeBlocks request =>
    obtain ⟨s, hs, rfl⟩ := map_eq_ok hrun
    exact h.addRequest hqueues.scheduler hkeeps hs
  | finishRequests delayFreeBlocks requestIds finishedStatus =>
    obtain ⟨s, hs, rfl⟩ := map_eq_ok hrun
    exact h.finishRequests hs
  | resetPrefixCache resetRunningRequests =>
    obtain ⟨⟨_, s⟩, hs, hret⟩ := bind_eq_ok hrun
    cases hret
    exact h.resetPrefixCache hs
  | updateDraftTokenIds draftTokenIds =>
    cases hrun
    exact h.updateDraftTokenIds draftTokenIds
  | schedule env =>
    obtain ⟨⟨output, s⟩, hs, hret⟩ := bind_eq_ok hrun
    cases hret
    exact h.schedule hqueues.scheduler.inRunning.nodup hs
  | updateFromOutput delayFreeBlocks modelRunnerOutput =>
    obtain ⟨scheduler, batchQueue⟩ := e
    cases batchQueue with
    | nil => cases hrun
    | cons output batchQueue =>
      obtain ⟨⟨outputs, s⟩, hs, hret⟩ := bind_eq_ok hrun
      cases hret
      exact Scheduler.InOrder.updateFromOutput h hqueues.scheduler (hqueues.batches output mem_cons_self) hs

/-- The order of the waiting requests: under the priority policy the first one is a least one, and under
`fcfs` a call of `schedule` leaves those that wait before and after it in their order. -/
structure Scheduler.WaitsInOrder (s : Scheduler) : Prop where
  least : s.config.policy = .priority → ∀ r, RequestQueue.peekRequest s.waiting = .ok r →
    ∀ x ∈ s.waiting, s.lt x r = false
  kept : s.config.policy = .fcfs → ∀ env output s', s.schedule env = .ok (output, s') →
    s'.waiting.filter (· ∈ s.waiting) = s.waiting.filter (· ∈ s'.waiting)

lemma Scheduler.InOrder.waitsInOrder (h : s.InOrder) (hqueues : s.InQueues False) :
    s.WaitsInOrder where
  least hpriority _ hpeek _ hx := h.peek_least hpriority hpeek hx
  kept hfcfs _ _ _ hschedule := by
    obtain ⟨preempted, left, hwaiting, hpreempted, hleft⟩ :=
      schedule_waiting_fcfs hfcfs hqueues.inRunning.nodup hschedule
    rw [hwaiting]
    refine filter_mem_eq_of_sublist hqueues.inWaiting.nodup (fun x hx hin => ?_) hleft
    -- A running request is not in `waiting`.
    have hruns := hqueues.inRunning.sound x (hpreempted x hx)
    have hwaits := hqueues.inWaiting.sound x hin
    exact hwaits.2.not_isRunning hruns.2

lemma EngineCore.inOrder_of_keepsOrder {config : SchedulerConfig} {hasher : Option (Request → List BlockHash)}
    {kvCacheManager : KVCacheManager} {encoderCacheSize : ℕ} {request : RequestId → SchedRequest} {e : EngineCore}
    (h : Reachable (fun e call => call.WellFormed e ∧ call.KeepsOrder e)
      (new config hasher kvCacheManager encoderCacheSize request) e) : e.InQueues False ∧ e.scheduler.InOrder := by
  refine h.invariant (P := fun e => e.InQueues False ∧ e.scheduler.InOrder)
    ⟨.new config hasher kvCacheManager encoderCacheSize request False, fun _ => ?_⟩ fun _ _ _ hinv hcall hrun => ?_
  · exact Heapq.IsHeap.nil
  · exact ⟨hinv.1.run hcall.1 (fun h => h.elim) hrun, inOrder_run hinv.2 hinv.1 hcall.2 hrun⟩

/-- In every run in which input for a waiting session leaves the heap in order, the requests wait in order. -/
theorem waitsInOrder_of_keepsOrder {config : SchedulerConfig} {hasher : Option (Request → List BlockHash)}
    {kvCacheManager : KVCacheManager} {encoderCacheSize : ℕ} {request : RequestId → SchedRequest} {e : EngineCore}
    (h : EngineCore.Reachable (fun e call => call.WellFormed e ∧ call.KeepsOrder e)
      (EngineCore.new config hasher kvCacheManager encoderCacheSize request) e) : e.scheduler.WaitsInOrder := by
  have hinv := EngineCore.inOrder_of_keepsOrder h
  exact hinv.2.waitsInOrder hinv.1.scheduler

/-! ### A session that waits in the heap -/

def priorityConfig : SchedulerConfig := { lostConfig with policy := .priority }

/-- `newRequest` with an arrival time. -/
def arriving (arrivalTime : ℕ) (requestId : RequestId) (promptTokenIds : List TokenId) (resumable : Bool) :
    SchedRequest :=
  { newRequest requestId promptTokenIds 1 resumable with arrivalTime }

lemma arriving_isNew (arrivalTime : ℕ) (requestId : RequestId) (promptTokenIds : List TokenId)
    (resumable : Bool) : (arriving arrivalTime requestId promptTokenIds resumable).IsNew none :=
  ⟨requestId, some promptTokenIds, none, [], none, none, false, _, some { maxTokens := 1 }, false, none,
    arrivalTime, 0, false, resumable, rfl, rfl⟩

/-- A session waits for its input when another request arrives; then the input comes. -/
def sessionCalls (arrivalTime : ℕ) : List EngineCall :=
  [.addRequest notDelayed (arriving 1 1 [1, 2] true), .schedule {}, .updateFromOutput notDelayed tokenOfOne,
    .addRequest notDelayed (arriving 5 2 [1, 2] false), .addRequest notDelayed (arriving arrivalTime 1 [3] true)]

/-- Only requests of the run are added. -/
def arrivalCheck (arrivalTime : ℕ) (e : EngineCore) : EngineCall → Bool
  | .addRequest _ request => e.scheduler.hasher.isNone &&
      request ∈ [arriving 1 1 [1, 2] true, arriving 5 2 [1, 2] false, arriving arrivalTime 1 [3] true]
  | _ => true

lemma arrivalCheck_wellFormed (arrivalTime : ℕ) (e : EngineCore) (call : EngineCall)
    (h : arrivalCheck arrivalTime e call = true) : call.WellFormed e := by
  cases call with
  | addRequest delayFreeBlocks request =>
    simp only [arrivalCheck, Bool.and_eq_true, Option.isNone_iff_eq_none, decide_eq_true_eq, mem_cons,
      not_mem_nil, or_false] at h
    rw [EngineCall.WellFormed, h.1]
    rcases h.2 with rfl | rfl | rfl <;> exact arriving_isNew _ _ _ _
  | _ => trivial

/-- The heap as it is with the arrival time of the request. -/
def heapCheck (e : EngineCore) : EngineCall → Bool
  | .addRequest _ request => Heapq.IsHeap (e.scheduler.setRequest request.requestId
      { e.scheduler.request request.requestId with arrivalTime := request.arrivalTime }).lt e.scheduler.waiting
  | _ => true

lemma heapCheck_keepsOrder (e : EngineCore) (call : EngineCall) (h : heapCheck e call = true) :
    call.KeepsOrder e := by
  cases call with
  | addRequest delayFreeBlocks request =>
    intro _ _ _ _
    exact of_decide_eq_true h
  | _ => trivial

lemma checks_keepsOrder (e : EngineCore) (call : EngineCall)
    (h : (arrivalCheck 3 e call && heapCheck e call) = true) : call.WellFormed e ∧ call.KeepsOrder e := by
  rw [Bool.and_eq_true] at h
  exact ⟨arrivalCheck_wellFormed 3 e call h.1, heapCheck_keepsOrder e call h.2⟩

theorem waitsInOrder_of_keepsOrder_sessionCalls : ∃ kvCacheManager e,
    EngineCore.Reachable (fun e call => call.WellFormed e ∧ call.KeepsOrder e)
      (EngineCore.new priorityConfig none kvCacheManager 0 fun r => newRequest r [] 0 false) e ∧
    e.scheduler.WaitsInOrder ∧ e.scheduler.waiting = [1, 2] ∧ (e.scheduler.request 1).arrivalTime = 3 := by
  have heval : evalRun (engineWith priorityConfig 5) (fun e call => arrivalCheck 3 e call && heapCheck e call)
      (sessionCalls 3) (fun e => (e.scheduler.waiting, (e.scheduler.request 1).arrivalTime)) =
      some ([1, 2], 3) := by
    decide +kernel
  obtain ⟨kv, e, hreach, hvals⟩ := reachable_of_evalRun checks_keepsOrder heval
  obtain ⟨hwaiting, harrival⟩ := Prod.mk.inj hvals
  exact ⟨kv, e, hreach, waitsInOrder_of_keepsOrder hreach, hwaiting, harrival⟩

/-- With the later arrival time of its input, the session is still first. -/
theorem waitsDisordered_sessionCalls : ∃ kvCacheManager e,
    EngineCore.Reachable (fun e call => call.WellFormed e)
      (EngineCore.new priorityConfig none kvCacheManager 0 fun r => newRequest r [] 0 false) e ∧
    e.scheduler.config.policy = .priority ∧ RequestQueue.peekRequest e.scheduler.waiting = .ok 1 ∧
    2 ∈ e.scheduler.waiting ∧ e.scheduler.lt 2 1 = true ∧ ¬ e.scheduler.WaitsInOrder := by
  have heval : evalRun (engineWith priorityConfig 5) (arrivalCheck 9) (sessionCalls 9)
      (fun e => (e.scheduler.config.policy, e.scheduler.waiting, e.scheduler.lt 2 1)) =
      some (.priority, [1, 2], true) := by
    decide +kernel
  obtain ⟨kv, e, hreach, hvals⟩ := reachable_of_evalRun (arrivalCheck_wellFormed 9) heval
  simp only [Prod.mk.injEq] at hvals
  obtain ⟨hpolicy, hwaiting, hlt⟩ := hvals
  have hpeek : RequestQueue.peekRequest e.scheduler.waiting = .ok 1 := by
    rw [hwaiting]
    rfl
  have hmem : 2 ∈ e.scheduler.waiting := by
    rw [hwaiting]
    decide
  refine ⟨kv, e, hreach, hpolicy, hpeek, hmem, hlt, fun h => ?_⟩
  have hleast := h.least hpolicy 1 hpeek 2 hmem
  rw [hlt] at hleast
  cases hleast

/-! ### Iterating over the heap -/

/-- Iterating over the waiting requests gives all of them, the most urgent ones first. -/
def Scheduler.IteratesInOrder (s : Scheduler) : Prop :=
  let order := RequestQueue.toList .priority s.lt s.waiting
  order.Perm s.waiting ∧ order.Pairwise fun a b => s.lt b a = false

theorem iteratesInOrder_of_keepsOrder {config : SchedulerConfig} {hasher : Option (Request → List BlockHash)}
    {kvCacheManager : KVCacheManager} {encoderCacheSize : ℕ} {request : RequestId → SchedRequest} {e : EngineCore}
    (h : EngineCore.Reachable (fun e call => call.WellFormed e ∧ call.KeepsOrder e)
      (EngineCore.new config hasher kvCacheManager encoderCacheSize request) e)
    (hpolicy : e.scheduler.config.policy = .priority) : e.scheduler.IteratesInOrder := by
  have hinv := EngineCore.inOrder_of_keepsOrder h
  exact ⟨RequestQueue.toList_perm _, (hinv.2 hpolicy).drain_pairwise e.scheduler.lt_ranks le_rfl⟩

theorem iteratesInOrder_of_keepsOrder_sessionCalls : ∃ kvCacheManager e,
    EngineCore.Reachable (fun e call => call.WellFormed e ∧ call.KeepsOrder e)
      (EngineCore.new priorityConfig none kvCacheManager 0 fun r => newRequest r [] 0 false) e ∧
    e.scheduler.waiting = [1, 2] ∧ e.scheduler.IteratesInOrder := by
  have heval : evalRun (engineWith priorityConfig 5) (fun e call => arrivalCheck 3 e call && heapCheck e call)
      (sessionCalls 3) (fun e => (e.scheduler.config.policy, e.scheduler.waiting)) = some (.priority, [1, 2]) := by
    decide +kernel
  obtain ⟨kv, e, hreach, hvals⟩ := reachable_of_evalRun checks_keepsOrder heval
  obtain ⟨hpolicy, hwaiting⟩ := Prod.mk.inj hvals
  exact ⟨kv, e, hreach, hwaiting, iteratesInOrder_of_keepsOrder hreach hpolicy⟩

end VllmRuntime
