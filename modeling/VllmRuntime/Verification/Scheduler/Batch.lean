import VllmRuntime.Verification.Scheduler.Membership

/-! # The batch of one step

Every request of a batch is running and stands in one of the lists of the output. Both queues are sound in every
state, also when requests get lost. -/

namespace VllmRuntime

open List

namespace ScheduleState

variable {env : ScheduleEnv} {st st' : ScheduleState} {s : Scheduler} {r victim : RequestId} {n : ℤ}

/-- The requests that are scheduled in this step. -/
def batch (st : ScheduleState) : List RequestId :=
  st.scheduledNewReqs ++ st.scheduledResumedReqs ++ st.scheduledRunningReqs

/-- The requests with scheduled tokens are those of the lists, once each, and they are running. -/
structure Ledger (st : ScheduleState) : Prop where
  batch : (st.numScheduledTokens.map Prod.fst).Perm st.batch
  nodup : st.batch.Nodup
  running : ∀ x ∈ st.batch, x ∈ st.scheduler.running

namespace Ledger

lemma add (h : st.Ledger) (hnew : r ∉ st.batch)
    (hnum : st'.numScheduledTokens = dictSet st.numScheduledTokens r n)
    (hbatch : st'.batch.Perm (r :: st.batch))
    (hrunning : ∀ x ∈ r :: st.scheduler.running, x ∈ st'.scheduler.running) : st'.Ledger := by
  have hkey : r ∉ st.numScheduledTokens.map Prod.fst := fun hmem => hnew (h.batch.mem_iff.mp hmem)
  refine ⟨?_, hbatch.nodup_iff.mpr (nodup_cons.mpr ⟨hnew, h.nodup⟩), fun x hx => hrunning x ?_⟩
  · rw [hnum, dictSet_of_not_mem hkey, map_append]
    exact (perm_append_singleton r _).trans ((h.batch.cons r).trans hbatch.symm)
  · rcases mem_cons.mp (hbatch.mem_iff.mp hx) with rfl | hx
    · exact mem_cons_self
    · exact mem_cons_of_mem _ (h.running x hx)

lemma remove (h : st.Ledger) (hmem : victim ∈ st.batch)
    (hnum : st'.numScheduledTokens = dictPop st.numScheduledTokens victim)
    (hbatch : st'.batch = st.batch.erase victim)
    (hrunning : st'.scheduler.running = st.scheduler.running.erase victim) : st'.Ledger := by
  obtain ⟨n, hn⟩ := Option.isSome_iff_exists.mp (lookup_isSome.mpr (h.batch.mem_iff.mpr hmem))
  have hperm := perm_dictPop (h.batch.nodup_iff.mpr h.nodup) hn
  refine ⟨?_, hbatch ▸ h.nodup.erase victim, fun x hx => ?_⟩
  · have herase := ((hperm.map Prod.fst).symm.trans h.batch).erase victim
    rw [map_cons, erase_cons_head] at herase
    rwa [hnum, hbatch]
  · rw [hbatch] at hx
    obtain ⟨hne, hx⟩ := h.nodup.mem_erase_iff.mp hx
    rw [hrunning]
    exact (mem_erase_of_ne hne).mpr (h.running x hx)

lemma runningStep (h : st.Ledger) (hnodup : st.scheduler.running.Nodup)
    (hempty : st.scheduledNewReqs ++ st.scheduledResumedReqs = []) (hstep : RunningStep env st st') :
    st'.Ledger ∧ st'.scheduledNewReqs ++ st'.scheduledResumedReqs = [] := by
  have hbatch : st.batch = st.scheduledRunningReqs := by rw [ScheduleState.batch, hempty, nil_append]
  cases hstep with
  | plan | allocate => exact ⟨⟨h.batch, h.nodup, h.running⟩, hempty⟩
  | @preempt _ _ victim _ _ hscheduled hpreempt =>
    have hrunning := (preempt_preempts hpreempt).running hnodup
    have hkept (hnot : victim ∉ st.scheduledRunningReqs) :
        ∀ x ∈ st.batch, x ∈ st.scheduler.running.erase victim := by
      intro x hx
      refine (mem_erase_of_ne fun hxv => hnot ?_).mpr (h.running x hx)
      rwa [← hxv, ← hbatch]
    obtain ⟨st₁, s', hpop, hs, rfl⟩ := preempt_eq_ok hpreempt
    obtain ⟨-, kv, -, rfl⟩ := Scheduler.preemptRequest_eq_ok hs
    obtain ⟨hpolicy, -, -, rfl⟩ | ⟨-, -, hnot, -, rfl⟩ | ⟨-, -, hmem, -, rfl⟩ := popPreempted_cases hpop
    · have hnot : victim ∉ st.scheduledRunningReqs := fun hmem => by cases hpolicy.symm.trans (hscheduled hmem)
      exact ⟨⟨h.batch, h.nodup, fun x hx => hrunning ▸ hkept hnot x hx⟩, hempty⟩
    · exact ⟨⟨h.batch, h.nodup, hkept hnot⟩, hempty⟩
    · refine ⟨h.remove (hbatch ▸ hmem) rfl ?_ hrunning, hempty⟩
      rw [hbatch]
      change st.scheduledNewReqs ++ st.scheduledResumedReqs ++ st.scheduledRunningReqs.erase victim = _
      rw [hempty, nil_append]
  | schedule hr hnew hrequest hconfig hwaits hplan hn hschedule =>
    obtain ⟨m₁, m₂, -, -, rfl⟩ := scheduleEncoderInputs_eq_ok hschedule
    refine ⟨h.add (hbatch ▸ hnew) rfl ?_ (forall_mem_cons.mpr ⟨hr, fun _ hx => hx⟩), hempty⟩
    rw [ScheduleState.batch, ← append_assoc]
    exact perm_append_singleton _ _

lemma waitingStep (h : st.Ledger) (hqueued : st.Queued False) (hstep : WaitingStep env st st') : st'.Ledger := by
  cases hstep with
  | status hr hstatus =>
    obtain ⟨kv, finished, failed, numComputedTokens, status, rfl, -⟩ :=
      Scheduler.updateWaitingStatus_eq_ok hstatus
    exact ⟨h.batch, h.nodup, h.running⟩
  | skip hskip =>
    obtain ⟨x, waiting, -, rfl⟩ := skipWaiting_eq_ok hskip
    exact ⟨h.batch, h.nodup, h.running⟩
  | lookup hr hlookup =>
    obtain ⟨numExternal, rfl⟩ := lookupComputed_eq_ok hlookup
    exact ⟨h.batch, h.nodup, h.running⟩
  | load hr hready hload =>
    obtain ⟨st₁, hskip, rfl⟩ := map_eq_ok hload
    obtain ⟨x, waiting, -, rfl⟩ := skipWaiting_eq_ok hskip
    exact ⟨h.batch, h.nodup, h.running⟩
  | @moveToRunning _ _ _ r _ plan hr _ _ _ _ _ _ hstart =>
    have hnew : r ∉ st.batch := fun hmem =>
      (hqueued.isWaiting_of_head hr).not_isRunning (hqueued.inRunning.sound r (h.running r hmem)).2
    obtain ⟨⟨x, waiting⟩, -, hstart⟩ := bind_eq_ok hstart
    obtain ⟨⟨newReqs, resumedReqs⟩, hrecord, hstart⟩ := bind_eq_ok hstart
    obtain ⟨m₁, m₂, -, -, rfl⟩ := scheduleEncoderInputs_eq_ok hstart
    have hlists : (newReqs ++ resumedReqs).Perm (r :: (st.scheduledNewReqs ++ st.scheduledResumedReqs)) := by
      unfold recordScheduled at hrecord
      split at hrecord
      · cases hrecord
        rw [append_assoc]
        exact perm_middle
      · cases hrecord
        rw [← append_assoc]
        exact perm_append_singleton _ _
      · cases hrecord
    exact h.add hnew rfl (hlists.append_right st.scheduledRunningReqs) fun x hx =>
      (perm_append_singleton r _).mem_iff.mpr hx
  | _ => exact ⟨h.batch, h.nodup, h.running⟩

lemma loops (hqueues : s.InQueues False) (h : loops env s = .ok st) : st.Ledger := by
  have hstart : (start s).Queued False :=
    Scheduler.Queued.perm (.refl _) (.of_eq (append_nil s.waiting)) (hqueues.of_sameStatus (.of_eq rfl rfl rfl))
  have hledger : (start s).Ledger := ⟨.refl _, nodup_nil, fun _ hx => absurd hx not_mem_nil⟩
  obtain ⟨st₁, ⟨-, hst₁⟩, rfl, -⟩ := loops_invariant
    (P := fun st => st.Queued False ∧ st.Ledger ∧ st.scheduledNewReqs ++ st.scheduledResumedReqs = [])
    (Q := fun st => st.Queued False ∧ st.Ledger) hqueues.inRunning.nodup h ⟨hstart, hledger, rfl⟩
    (fun _ _ hst hstep => ⟨hst.1.runningStep hstep, hst.2.1.runningStep hst.1.inRunning.nodup hst.2.2 hstep⟩)
    (fun _ _ hst => ⟨hst.1.of_sameStatus (.of_eq rfl rfl rfl), hst.2.1.batch, hst.2.1.nodup,
      hst.2.1.running⟩)
    (fun _ _ hst hstep => ⟨hst.1.waitingStep hstep, hst.2.waitingStep hst.1 hstep⟩)
  unfold putBackSkipped
  split
  · exact hst₁
  · exact ⟨hst₁.batch, hst₁.nodup, hst₁.running⟩

end Ledger

lemma cachedRequestData_reqIds {isResumed : Bool} {rs : List RequestId} {rows : List CachedRequestData}
    (h : rs.mapM (st.cachedRequestData isResumed) = .ok rows) : rows.map (·.reqId) = rs := by
  have hrows := mapM_eq_ok h
  clear h
  induction hrows with
  | nil => rfl
  | cons hrow _ ih =>
    obtain ⟨_, -, hret⟩ := bind_eq_ok hrow
    cases hret
    rw [map_cons, ih]

/-- The rows of the output are those of the scheduled requests. -/
lemma makeOutput_reqIds {output : SchedulerOutput} (h : st.makeOutput = .ok (output, s)) :
    (output.scheduledNewReqs.map (·.reqId) ++ output.scheduledCachedReqs.map (·.reqId)).Perm st.batch := by
  obtain ⟨running, hrunning, h⟩ := bind_eq_ok h
  obtain ⟨resumed, hresumed, hret⟩ := bind_eq_ok h
  cases hret
  have hnew (rs : List RequestId) : (rs.map st.newRequestData).map (·.reqId) = rs := by
    rw [map_map]
    exact map_id rs
  rw [map_append, hnew, cachedRequestData_reqIds hrunning, cachedRequestData_reqIds hresumed, batch]
  split
  · rw [append_nil]
  · rw [append_assoc]
    exact perm_append_comm.append_left _

end ScheduleState

variable {config : SchedulerConfig} {hasher : Option (Request → List BlockHash)} {kvCacheManager : KVCacheManager}
  {encoderCacheSize : ℕ} {request : RequestId → SchedRequest} {env : ScheduleEnv} {output : SchedulerOutput}
  {e : EngineCore} {s : Scheduler}

/-- Each request of the batch is running and has one row; the batch fits into the budget. -/
structure SchedulerOutput.Fits (output : SchedulerOutput) (s : Scheduler) : Prop where
  nodup : (output.numScheduledTokens.map Prod.fst).Nodup
  rows : (output.scheduledNewReqs.map (·.reqId) ++ output.scheduledCachedReqs.map (·.reqId)).Perm
    (output.numScheduledTokens.map Prod.fst)
  running : ∀ r ∈ output.numScheduledTokens.map Prod.fst, r ∈ s.running ∧ (s.request r).status = .running
  total : output.totalNumScheduledTokens ≤ s.config.maxNumScheduledTokens
  numRunning : s.running.length ≤ s.config.maxNumRunningReqs

lemma EngineCore.inQueues_of_reachable (h : EngineCore.Reachable (fun e call => call.WellFormed e)
    (EngineCore.new config hasher kvCacheManager encoderCacheSize request) e) : e.InQueues False :=
  h.invariant (EngineCore.InQueues.new config hasher kvCacheManager encoderCacheSize request False)
    fun _ _ _ hinv hcall hrun => EngineCore.InQueues.run hinv hcall False.elim hrun

/-- Every batch that is scheduled in a run fits. -/
theorem schedule_fits (h : EngineCore.Reachable (fun e call => call.WellFormed e)
      (EngineCore.new config hasher kvCacheManager encoderCacheSize request) e)
    (hschedule : e.scheduler.schedule env = .ok (output, s)) : output.Fits s := by
  have hqueues := (EngineCore.inQueues_of_reachable h).scheduler
  have hnext := hqueues.schedule hschedule
  have hnodup := hqueues.inRunning.nodup
  obtain ⟨st, s₁, output₁, hloops, hmake, hupdate⟩ := Scheduler.schedule_eq_ok hschedule
  have hledger := ScheduleState.Ledger.loops hqueues hloops
  have hkeys := ScheduleState.loops_nodup hnodup hloops
  obtain ⟨-, hnum, -⟩ := Scheduler.makeOutput_eq_ok hmake
  obtain ⟨-, b, b', rfl⟩ := Scheduler.updateAfterSchedule_eq (hnum.symm ▸ hkeys) hupdate
  obtain ⟨⟨m, request', rfl, -⟩, -⟩ := Scheduler.schedule_after_loops hnodup hloops hschedule
  obtain ⟨st₁, st₂, st₃, -, -, -, -, hback, hcheck⟩ := ScheduleState.loops_eq_ok hnodup hloops
  rw [← hback] at hcheck
  obtain ⟨_, htotal, hcheck⟩ := bind_eq_ok hcheck
  obtain ⟨_, -, hcheck⟩ := bind_eq_ok hcheck
  obtain ⟨_, hlength, -⟩ := bind_eq_ok hcheck
  refine ⟨hnum ▸ hkeys, ?_, fun r hr => ?_, ?_, of_decide_eq_true (pyAssert_eq_ok.mp hlength)⟩
  · exact (ScheduleState.makeOutput_reqIds hmake).trans (hnum ▸ hledger.batch).symm
  · have hmem := hledger.running r (hledger.batch.mem_iff.mp (hnum ▸ hr))
    exact ⟨hmem, (hnext.inRunning.sound r hmem).2.2⟩
  · rw [SchedulerOutput.totalNumScheduledTokens, hnum]
    exact of_decide_eq_true (pyAssert_eq_ok.mp htotal)

/-- Request 1 is preempted to make room for request 0. -/
theorem schedule_fits_lostRequests : ∃ kvCacheManager e output s,
    EngineCore.Reachable (fun e call => call.WellFormed e)
      (EngineCore.new lostConfig none kvCacheManager 0 fun r => newRequest r [] 0 false) e ∧
    e.scheduler.schedule {} = .ok (output, s) ∧ output.numScheduledTokens = [(0, 2)] ∧
    output.preemptedReqIds = [1] ∧ output.Fits s := by
  have heval : evalRun (engineWith lostConfig 5) lostCheck
      (lostRequests.map (.addRequest notDelayed) ++ [.schedule {}]) (fun e =>
        (e.scheduler.schedule {}).toOption.map fun p => (p.1.numScheduledTokens, p.1.preemptedReqIds)) =
      some (some ([(0, 2)], [1])) := by
    decide +kernel
  obtain ⟨kv, e, hreach, hvals⟩ := reachable_of_evalRun lostCheck_wellFormed heval
  cases hschedule : e.scheduler.schedule {} with
  | error _ =>
    rw [hschedule] at hvals
    cases hvals
  | ok p =>
    rw [hschedule] at hvals
    obtain ⟨hnum, hpreempted⟩ := Prod.mk.inj (Option.some.inj hvals)
    exact ⟨kv, e, p.1, p.2, hreach, hschedule, hnum, hpreempted, schedule_fits hreach hschedule⟩

/-! ## The queues -/

/-- The queues are right about the requests that they hold. -/
structure Scheduler.QueuesSound (s : Scheduler) : Prop where
  nodup : (s.running ++ s.waiting).Nodup
  running : ∀ r, r ∈ s.running ↔ r ∈ s.requests ∧ (s.request r).status = .running
  waiting : ∀ r ∈ s.waiting, r ∈ s.requests ∧ (s.request r).status ≠ .running ∧ (s.request r).isFinished = false

/-- The queues are sound in every state, also when a request was lost. -/
theorem queues_sound_of_reachable (h : EngineCore.Reachable (fun e call => call.WellFormed e)
    (EngineCore.new config hasher kvCacheManager encoderCacheSize request) e) : e.scheduler.QueuesSound := by
  have hqueues := (EngineCore.inQueues_of_reachable h).scheduler
  refine ⟨hqueues.inRunning.nodup.append hqueues.inWaiting.nodup fun r hr hw => ?_, fun r => ?_, fun r hr => ?_⟩
  · exact (hqueues.inWaiting.sound r hw).2.not_isRunning (hqueues.inRunning.sound r hr).2
  · exact ⟨fun hr => (hqueues.inRunning.sound r hr).2, fun hr => hqueues.inRunning.complete trivial r ⟨not_mem_nil, hr⟩⟩
  · exact (hqueues.inWaiting.sound r hr).2

/-- Request 1 is in no queue, though it is not finished. -/
theorem queues_sound_of_reachable_lostCalls : ∃ kvCacheManager e,
    EngineCore.Reachable (fun e call => call.WellFormed e)
      (EngineCore.new lostConfig none kvCacheManager 0 fun r => newRequest r [] 0 false) e ∧
    e.scheduler.running = [0] ∧ e.scheduler.waiting = [] ∧ e.scheduler.QueuesSound := by
  have heval : evalRun (engineWith lostConfig 5) lostCheck lostCalls
      (fun e => (e.scheduler.running, e.scheduler.waiting)) = some ([0], []) := by
    decide +kernel
  obtain ⟨kv, e, hreach, hvals⟩ := reachable_of_evalRun lostCheck_wellFormed heval
  obtain ⟨hrunning, hwaiting⟩ := Prod.mk.inj hvals
  exact ⟨kv, e, hreach, hrunning, hwaiting, queues_sound_of_reachable hreach⟩

end VllmRuntime
