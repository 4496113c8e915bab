import VllmRuntime.Model.Schedule
import Mathlib.Logic.Relation

/-! # Steps of the scheduling loops

`schedule` is a sequence of small steps: a plan for a request, an attempt to allocate its slots, a
preemption, and so on. The rules say what each step knows when it is taken; an invariant of
`schedule` is an invariant of the steps. -/

namespace VllmRuntime

open List Function

namespace ScheduleState

variable {env : ScheduleEnv} {st st' : ScheduleState} {r victim : RequestId} {i j : ℕ} {α : Type*} {n : ℕ}

/-! ## Preemption -/

lemma mem_take_pred_erase [DecidableEq α] {l : List α} {x v : α} (hx : x ∈ l.take n) (hv : v ∈ l.take n)
    (hne : x ≠ v) : x ∈ (l.erase v).take (n - 1) := by
  have hlength : ((l.take n).erase v).length ≤ n - 1 := by
    rw [length_erase_of_mem hv]
    exact Nat.sub_le_sub_right (length_take_le _ _) 1
  rw [← take_append_drop n l, erase_append_left _ hv]
  exact (prefix_take_iff.mpr ⟨prefix_append _ _, hlength⟩).subset ((mem_erase_of_ne hne).mpr hx)

lemma mem_take_erase [DecidableEq α] {l : List α} {x v : α} (hx : x ∈ l.take n) (hne : x ≠ v) :
    x ∈ (l.erase v).take n := by
  by_cases hv : v ∈ l.take n
  · exact take_subset_take_left _ (Nat.sub_le n 1) (mem_take_pred_erase hx hv hne)
  · rw [← take_append_drop n l, erase_append_right _ hv]
    exact (prefix_take_iff.mpr ⟨prefix_append _ _, length_take_le _ _⟩).subset hx

lemma lowestPriority_mem {request : RequestId → SchedRequest} {running : List RequestId}
    (h : lowestPriority request running = some r) : r ∈ running := by
  cases running with
  | nil => cases h
  | cons first rest =>
    obtain rfl := Option.some.inj h
    refine foldlRecOn rest _ mem_cons_self fun worst hworst second hsecond => ?_
    split
    · exact mem_cons_of_mem _ hsecond
    · exact hworst

/-- Which request is taken out of `running`, and what happens to the local variables. -/
lemma popPreempted_cases (h : st.popPreempted i = .ok (victim, st', j)) :
    (st.config.policy = .fcfs ∧ st.scheduler.running.getLast? = some victim ∧ j = i ∧
      st' = { st with
        scheduler := { st.scheduler with running := st.scheduler.running.dropLast } }) ∨
    (st.config.policy = .priority ∧ lowestPriority st.request st.scheduler.running = some victim ∧
      victim ∉ st.scheduledRunningReqs ∧ j = i ∧
      st' = { st with
        scheduler := { st.scheduler with running := st.scheduler.running.erase victim } }) ∨
    (st.config.policy = .priority ∧ lowestPriority st.request st.scheduler.running = some victim ∧
      victim ∈ st.scheduledRunningReqs ∧ j = i - 1 ∧
      st' = ({ st with
        scheduler := { st.scheduler with
          running := st.scheduler.running.erase victim } } : ScheduleState).unschedule victim) := by
  unfold popPreempted at h
  split at h
  · rename_i hpolicy
    split at h
    · cases h
    · rename_i v hv
      dsimp only at h
      split at h
      · rename_i hmem
        cases h
        exact Or.inr (Or.inr ⟨hpolicy, hv, hmem, rfl, rfl⟩)
      · rename_i hmem
        cases h
        exact Or.inr (Or.inl ⟨hpolicy, hv, hmem, rfl, rfl⟩)
  · rename_i hpolicy
    split at h
    · cases h
    · rename_i v hv
      cases h
      exact Or.inl ⟨hpolicy, hv, rfl, rfl⟩

end ScheduleState

/-- The request of `_preempt_request` afterwards. -/
def SchedRequest.preempted (request : SchedRequest) : SchedRequest :=
  { request with
    status := .preempted
    numComputedTokens := 0
    specTokenIds := []
    numPreemptions := request.numPreemptions + 1 }

lemma Scheduler.preemptRequest_eq_ok {s s' : Scheduler} {r : RequestId}
    (h : s.preemptRequest r = .ok s') :
    (s.request r).status = .running ∧ ∃ kv,
      s.kvCacheManager.free (s.request r).kvRequest = .ok kv ∧
      s' = { s with
        kvCacheManager := kv
        encoderCacheManager := s.encoderCacheManager.free r (s.request r).mmFeatures
        request := update s.request r (s.request r).preempted
        waiting := RequestQueue.prependRequest s.config.policy
          (fun a b => (update s.request r (s.request r).preempted a).lt
            (update s.request r (s.request r).preempted b)) s.waiting r } := by
  obtain ⟨_, hstatus, h⟩ := bind_eq_ok h
  obtain ⟨kv, hkv, hret⟩ := bind_eq_ok h
  refine ⟨by simpa using pyAssert_eq_ok.mp hstatus, kv, hkv, ?_⟩
  exact (Except.ok.inj hret).symm

namespace ScheduleState

variable {env : ScheduleEnv} {st st' : ScheduleState} {r victim : RequestId} {i j : ℕ} {fuel : ℕ}

lemma preempt_eq_ok (h : st.preempt i = .ok (victim, st', j)) :
    ∃ st₁ s', st.popPreempted i = .ok (victim, st₁, j) ∧
      st₁.scheduler.preemptRequest victim = .ok s' ∧
      st' = { st₁ with scheduler := s', preemptedReqs := st₁.preemptedReqs ++ [victim] } := by
  obtain ⟨⟨v, st₁, k⟩, hpop, h⟩ := bind_eq_ok h
  obtain ⟨s', hs, hret⟩ := bind_eq_ok h
  cases hret
  exact ⟨st₁, s', hpop, hs, rfl⟩

/-- What a preemption leaves as it is, and what it takes out. -/
structure Preempts (st : ScheduleState) (victim : RequestId) (st' : ScheduleState) : Prop where
  mem : victim ∈ st.scheduler.running
  config : st'.config = st.config
  request : ∀ x, x ≠ victim → st'.request x = st.request x
  running : st.scheduler.running.Nodup →
    st'.scheduler.running = st.scheduler.running.erase victim
  scheduled : ∀ x ∈ st'.scheduledRunningReqs, x ∈ st.scheduledRunningReqs

lemma popPreempted_preempts (h : st.popPreempted i = .ok (victim, st', j)) :
    Preempts st victim st' := by
  obtain ⟨-, hlast, -, rfl⟩ | ⟨-, hlow, -, -, rfl⟩ | ⟨-, hlow, -, -, rfl⟩ := popPreempted_cases h
  · have hmem := mem_of_getLast? hlast
    refine ⟨hmem, rfl, fun _ _ => rfl, fun hnodup => ?_, fun _ hx => hx⟩
    change st.scheduler.running.dropLast = _
    have hsplit := dropLast_append_getLast? victim hlast
    have hnot : victim ∉ st.scheduler.running.dropLast := by
      intro hin
      rw [← hsplit] at hnodup
      exact disjoint_of_nodup_append hnodup hin mem_cons_self
    conv_rhs => rw [← hsplit]
    rw [erase_append_right _ hnot, erase_cons_head, append_nil]
  · exact ⟨lowestPriority_mem hlow, rfl, fun _ _ => rfl, fun _ => rfl, fun _ hx => hx⟩
  · exact ⟨lowestPriority_mem hlow, rfl, fun _ _ => rfl, fun _ => rfl,
      fun _ hx => mem_of_mem_erase hx⟩

lemma popPreempted_scheduler (hnodup : st.scheduler.running.Nodup)
    (h : st.popPreempted i = .ok (victim, st', j)) :
    st'.scheduler = { st.scheduler with running := st.scheduler.running.erase victim } ∧
      st'.skippedWaitingRequests = st.skippedWaitingRequests := by
  have hrunning := (popPreempted_preempts h).running hnodup
  obtain ⟨-, -, -, rfl⟩ | ⟨-, -, -, -, rfl⟩ | ⟨-, -, -, -, rfl⟩ := popPreempted_cases h
  · exact ⟨by rw [← hrunning], rfl⟩
  · exact ⟨rfl, rfl⟩
  · exact ⟨rfl, rfl⟩

/-- The scheduler after a preemption. -/
lemma preempt_scheduler (hnodup : st.scheduler.running.Nodup)
    (h : st.preempt i = .ok (victim, st', j)) :
    st'.skippedWaitingRequests = st.skippedWaitingRequests ∧
      ({ st.scheduler with running := st.scheduler.running.erase victim } :
        Scheduler).preemptRequest victim = .ok st'.scheduler := by
  obtain ⟨st₁, s', hpop, hs, rfl⟩ := preempt_eq_ok h
  obtain ⟨hscheduler, hskipped⟩ := popPreempted_scheduler hnodup hpop
  rw [hscheduler] at hs
  exact ⟨hskipped, hs⟩

lemma preempt_preempts (h : st.preempt i = .ok (victim, st', j)) : Preempts st victim st' := by
  obtain ⟨st₁, s', hpop, hs, rfl⟩ := preempt_eq_ok h
  have hpre := popPreempted_preempts hpop
  obtain ⟨-, kv, -, rfl⟩ := Scheduler.preemptRequest_eq_ok hs
  refine ⟨hpre.mem, hpre.config, fun x hx => ?_, hpre.running, hpre.scheduled⟩
  rw [← hpre.request x hx]
  exact update_of_ne hx _ _

/-! ## The loop over the running requests -/

/-- What can happen in the loop over the running requests. A request is scheduled by the plan that
was made for it before its slots were allocated. -/
inductive RunningStep (env : ScheduleEnv) : ScheduleState → ScheduleState → Prop where
  | plan {st : ScheduleState} {r : RequestId} {plan : EncoderPlan}
      (hr : r ∈ st.scheduler.running) (hplan : st.planRunning env (st.request r) = .ok plan) :
      RunningStep env st (st.setEncoderCacheManager plan.manager)
  | allocate {st : ScheduleState} {r : RequestId} {n : ℤ} {blocks : Option (List (List BlockRef))}
      {kv : KVCacheManager} (hr : r ∈ st.scheduler.running)
      (hkv : st.scheduler.kvCacheManager.allocateRunningSlots (st.request r) n
        st.config.numLookaheadTokens = .ok (blocks, kv)) :
      RunningStep env st (st.setKvCacheManager kv)
  | preempt {st st' : ScheduleState} {victim : RequestId} {i j : ℕ}
      (hscheduled : victim ∈ st.scheduledRunningReqs → st.config.policy = .priority)
      (h : st.preempt i = .ok (victim, st', j)) : RunningStep env st st'
  | schedule {st₀ st st' : ScheduleState} {r : RequestId} {plan : EncoderPlan}
      {blocks : List (List BlockRef)} (hr : r ∈ st.scheduler.running)
      (hnew : r ∉ st.scheduledRunningReqs) (hrequest : st₀.request r = st.request r)
      (hconfig : st₀.config = st.config)
      (hwaits : waitsForOutput st.config (st.request r) = false)
      (hplan : st₀.planRunning env (st₀.request r) = .ok plan) (hn : plan.numNewTokens ≠ 0)
      (h : st.scheduleRunning r plan blocks = .ok st') : RunningStep env st st'

/-- Where the loop stands: the requests before `req_index` may have been scheduled, and `r` is the
next one. Preempting a request that was skipped moves the others closer to the front than `req_index`
says. -/
structure AtRequest (st : ScheduleState) (r : RequestId) (i : ℕ) : Prop where
  nodup : st.scheduler.running.Nodup
  before : ∀ x ∈ st.scheduledRunningReqs, x ∈ st.scheduler.running.take i
  here : r ∈ st.scheduler.running.take (i + 1)
  fresh : r ∉ st.scheduledRunningReqs
  scheduledOnce : st.scheduledRunningReqs.Nodup
  fcfs : st.config.policy = .fcfs → st.scheduler.running[i]? = some r

lemma AtRequest.mem (h : AtRequest st r i) : r ∈ st.scheduler.running := mem_of_mem_take h.here

/-- Under FCFS the request that is preempted is not before `req_index`, so it was not scheduled. -/
lemma AtRequest.victim_scheduled (h : AtRequest st r i)
    (hpreempt : st.preempt i = .ok (victim, st', j)) (hmem : victim ∈ st.scheduledRunningReqs) :
    st.config.policy = .priority := by
  obtain ⟨st₁, s', hpop, -, -⟩ := preempt_eq_ok hpreempt
  obtain ⟨hpolicy, hlast, -, -⟩ | ⟨hpolicy, -⟩ | ⟨hpolicy, -⟩ := popPreempted_cases hpop
  · have hlt := (List.getElem?_eq_some_iff.mp (h.fcfs hpolicy)).1
    rw [getLast?_eq_getElem?] at hlast
    obtain ⟨hlen, hlast⟩ := List.getElem?_eq_some_iff.mp hlast
    obtain ⟨k, hk, hkv⟩ := getElem_of_mem (h.before victim hmem)
    rw [getElem_take] at hkv
    rw [length_take] at hk
    have := (List.Nodup.getElem_inj_iff h.nodup).mp (hkv.trans hlast.symm)
    omega
  · exact hpolicy
  · exact hpolicy

lemma AtRequest.preempt (h : AtRequest st r i) (hpreempt : st.preempt i = .ok (victim, st', j))
    (hne : r ≠ victim) : AtRequest st' r j := by
  have hpre := preempt_preempts hpreempt
  have hrunning := hpre.running h.nodup
  have hnodup : st'.scheduler.running.Nodup := hrunning ▸ h.nodup.erase victim
  have hfresh : r ∉ st'.scheduledRunningReqs := fun hr => h.fresh (hpre.scheduled r hr)
  obtain ⟨st₁, s', hpop, hs, rfl⟩ := preempt_eq_ok hpreempt
  obtain ⟨-, kv, -, rfl⟩ := Scheduler.preemptRequest_eq_ok hs
  obtain ⟨hpolicy, hlast, rfl, rfl⟩ | ⟨hpolicy, -, hmem, rfl, rfl⟩ | ⟨hpolicy, -, hmem, rfl, rfl⟩ :=
    popPreempted_cases hpop
  · -- The last request is after `r`, hence after all that are scheduled.
    have hj := h.fcfs hpolicy
    have hlt := lt_of_getElem? hj
    have hlen : j + 1 < st.scheduler.running.length := by
      by_contra hge
      have hend : st.scheduler.running.length - 1 = j := by omega
      rw [getLast?_eq_getElem?, hend, hj] at hlast
      exact hne (Option.some.inj hlast)
    have htake (n : ℕ) (hn : n < st.scheduler.running.length) :
        st.scheduler.running.dropLast.take n = st.scheduler.running.take n := by
      rw [dropLast_eq_take, take_take, min_eq_left (by omega)]
    refine ⟨hnodup, fun x hx => ?_, ?_, hfresh, h.scheduledOnce, fun _ => ?_⟩
    · change x ∈ st.scheduler.running.dropLast.take j
      rw [htake j hlt]
      exact h.before x hx
    · change r ∈ st.scheduler.running.dropLast.take (j + 1)
      rw [htake (j + 1) hlen]
      exact h.here
    · change st.scheduler.running.dropLast[j]? = some r
      rw [getElem?_dropLast, if_pos (by omega)]
      exact hj
  · refine ⟨hnodup, fun x hx => ?_, mem_take_erase h.here hne, hfresh, h.scheduledOnce,
      fun hfcfs => ?_⟩
    · exact mem_take_erase (h.before x hx) fun hxv => hmem (hxv ▸ hx)
    · cases hpolicy.symm.trans hfcfs
  · have hvictim := h.before victim hmem
    have hpos : 0 < i := by
      rcases Nat.eq_zero_or_pos i with rfl | hpos
      · simp at hvictim
      · exact hpos
    refine ⟨hnodup, fun x hx => ?_, ?_, hfresh, h.scheduledOnce.erase victim, fun hfcfs => ?_⟩
    · obtain ⟨hxv, hx⟩ := (h.scheduledOnce.mem_erase_iff).mp hx
      exact mem_take_pred_erase (h.before x hx) hvictim hxv
    · have hmore := take_subset_take_left st.scheduler.running (Nat.le_succ i) hvictim
      have hhere := mem_take_pred_erase h.here hmore hne
      rw [Nat.add_sub_cancel] at hhere
      rw [Nat.sub_add_cancel hpos]
      exact hhere
    · cases hpolicy.symm.trans hfcfs

/-- Allocating slots for `r` is a sequence of steps. If there are slots, then `r` is still running, and
its plan still holds. -/
lemma allocateLoop_steps {n : ℤ} {blocks : Option (List (List BlockRef))} (hat : AtRequest st r i)
    (h : allocateLoop r n fuel st i = .ok (blocks, st', j)) :
    Relation.ReflTransGen (RunningStep env) st st' ∧ st'.config = st.config ∧
      (blocks.isSome → AtRequest st' r j ∧ st'.request r = st.request r) := by
  induction fuel generalizing st i with
  | zero => cases h
  | succ fuel ih =>
    rw [allocateLoop] at h
    obtain ⟨⟨newBlocks, kv⟩, hkv, h⟩ := bind_eq_ok h
    have hstep : RunningStep env st (st.setKvCacheManager kv) := .allocate hat.mem hkv
    have hat' : AtRequest (st.setKvCacheManager kv) r i :=
      ⟨hat.nodup, hat.before, hat.here, hat.fresh, hat.scheduledOnce, hat.fcfs⟩
    cases newBlocks with
    | some newBlocks =>
      cases h
      exact ⟨.single hstep, rfl, fun _ => ⟨hat', rfl⟩⟩
    | none =>
      obtain ⟨⟨victim, st₂, k⟩, hpreempt, h⟩ := bind_eq_ok h
      have hsteps : Relation.ReflTransGen (RunningStep env) st st₂ :=
        (Relation.ReflTransGen.single hstep).tail
          (.preempt (hat'.victim_scheduled hpreempt) hpreempt)
      have hpre := preempt_preempts hpreempt
      dsimp only at h
      split at h
      · cases h
        exact ⟨hsteps, hpre.config, fun hsome => by cases hsome⟩
      · rename_i hne
        obtain ⟨hrest, hconfig, hsome⟩ := ih (hat'.preempt hpreempt (Ne.symm hne)) h
        refine ⟨hsteps.trans hrest, hconfig.trans hpre.config, fun hb => ?_⟩
        obtain ⟨hat₂, hrequest⟩ := hsome hb
        exact ⟨hat₂, hrequest.trans (hpre.request r (Ne.symm hne))⟩

/-- The encoder inputs of a request with the given indices. -/
def inputFeatures (request : SchedRequest) (inputIds : List ℕ) : List MultiModalFeatureSpec :=
  inputIds.filterMap (request.mmFeatures[·]?)

/-- Allocates the inputs one after the other. -/
def allocateAll (r : RequestId) (features : List MultiModalFeatureSpec)
    (manager : EncoderCacheManager) : Except PyError EncoderCacheManager :=
  features.foldlM (fun m feature => m.allocate r feature) manager

/-- Scheduling encoder inputs touches the encoder cache and what is recorded about it. -/
lemma scheduleEncoderInputs_eq_ok {plan : EncoderPlan}
    (h : st.scheduleEncoderInputs r plan = .ok st') :
    ∃ m₁ m₂, allocateAll r (inputFeatures (st.request r) plan.encoderInputsToSchedule)
        st.scheduler.encoderCacheManager = .ok m₁ ∧
      allocateAll r (inputFeatures (st.request r) plan.externalLoadEncoderInput) m₁ = .ok m₂ ∧
      st' = { st with
        scheduler := { st.scheduler with encoderCacheManager := m₂ }
        scheduledEncoderInputs := if plan.encoderInputsToSchedule = [] then
          st.scheduledEncoderInputs
          else dictSet st.scheduledEncoderInputs r plan.encoderInputsToSchedule
        encoderComputeBudget := if plan.encoderInputsToSchedule = [] then st.encoderComputeBudget
          else plan.encoderComputeBudget
        externalLoads := st.externalLoads ++
          (inputFeatures (st.request r) plan.externalLoadEncoderInput).map (·.identifier) } := by
  obtain ⟨st₁, hcomputed, h⟩ := bind_eq_ok h
  obtain ⟨st₂, hexternal, hret⟩ := bind_eq_ok h
  obtain ⟨m₂, hm₂, rfl⟩ := map_eq_ok hexternal
  cases hret
  unfold scheduleComputedInputs at hcomputed
  split at hcomputed
  · rename_i hempty
    rw [List.isEmpty_iff] at hempty
    cases hcomputed
    refine ⟨st.scheduler.encoderCacheManager, m₂, ?_, hm₂, ?_⟩
    · rw [hempty]
      rfl
    · simp only [hempty, if_true]
      rfl
  · rename_i hempty
    rw [List.isEmpty_iff] at hempty
    obtain ⟨st₃, hst₃, rfl⟩ := map_eq_ok hcomputed
    obtain ⟨m₁, hm₁, rfl⟩ := map_eq_ok hst₃
    refine ⟨m₁, m₂, hm₁, hm₂, ?_⟩
    simp only [if_neg hempty]
    rfl

lemma runningLoop_steps (hnodup : st.scheduler.running.Nodup)
    (hbefore : ∀ x ∈ st.scheduledRunningReqs, x ∈ st.scheduler.running.take i)
    (honce : st.scheduledRunningReqs.Nodup) (h : runningLoop env fuel st i = .ok st') :
    Relation.ReflTransGen (RunningStep env) st st' := by
  induction fuel generalizing st i with
  | zero =>
    cases h
    exact .refl
  | succ fuel ih =>
    have hlater : ∀ x ∈ st.scheduledRunningReqs, x ∈ st.scheduler.running.take (i + 1) :=
      fun x hx => take_subset_take_left _ (Nat.le_succ i) (hbefore x hx)
    rw [runningLoop] at h
    split at h
    · cases h
      exact .refl
    · rename_i r hr
      have hat : AtRequest st r i := by
        have hget := List.getElem?_eq_some_iff.mp hr
        refine ⟨hnodup, hbefore, ?_, fun hmem => ?_, honce, fun _ => hr⟩
        · rw [take_add_one, hr]
          simp
        · -- The request at `i` is not among those before.
          obtain ⟨k, hk, hkr⟩ := getElem_of_mem (hbefore r hmem)
          rw [getElem_take] at hkr
          rw [length_take] at hk
          have := (List.Nodup.getElem_inj_iff hnodup).mp (hkr.trans hget.2.symm)
          omega
      split at h
      · cases h
        exact .refl
      · split at h
        · exact ih hnodup hlater honce h
        · rename_i hwaits
          obtain ⟨plan, hplan, h⟩ := bind_eq_ok h
          have hstep : RunningStep env st (st.setEncoderCacheManager plan.manager) :=
            .plan hat.mem hplan
          have hat' : AtRequest (st.setEncoderCacheManager plan.manager) r i :=
            ⟨hat.nodup, hat.before, hat.here, hat.fresh, hat.scheduledOnce, hat.fcfs⟩
          dsimp only at h
          split at h
          · exact .head hstep (ih hnodup hlater honce h)
          · rename_i hn
            obtain ⟨⟨blocks, st₂, k⟩, halloc, h⟩ := bind_eq_ok h
            obtain ⟨hsteps, hconfig, hsome⟩ := allocateLoop_steps hat' halloc
            cases blocks with
            | none =>
              cases h
              exact .head hstep hsteps
            | some blocks =>
              obtain ⟨st₃, hsched, h⟩ := bind_eq_ok h
              obtain ⟨hat₂, hrequest⟩ := hsome rfl
              have hconfig : st.config = st₂.config := hconfig.symm
              have hrequest : st.request r = st₂.request r := hrequest.symm
              have hwaits₂ : waitsForOutput st₂.config (st₂.request r) = false := by
                rw [← hconfig, ← hrequest]
                simpa using hwaits
              have hlast : RunningStep env st₂ st₃ := .schedule hat₂.mem hat₂.fresh
                hrequest hconfig hwaits₂ hplan hn hsched
              have hrest : Relation.ReflTransGen (RunningStep env) st₃ st' := by
                obtain ⟨m₁, m₂, -, -, rfl⟩ := scheduleEncoderInputs_eq_ok hsched
                refine ih hat₂.nodup (fun x hx => ?_) ?_ h
                · rcases List.mem_append.mp hx with hx | hx
                  · exact take_subset_take_left _ (Nat.le_succ k) (hat₂.before x hx)
                  · obtain rfl := List.mem_singleton.mp hx
                    exact hat₂.here
                · exact hat₂.scheduledOnce.append (nodup_singleton r)
                    (List.disjoint_singleton.mpr hat₂.fresh)
              exact .head hstep ((hsteps.tail hlast).trans hrest)

end ScheduleState

/-! ## The loop over the waiting requests -/

/-- The request is neither loading nor waiting for a grammar or for input. -/
def RequestStatus.isReady : RequestStatus → Bool
  | waitingForRemoteKvs | waitingForFsm | waitingForStreamingReq => false
  | _ => true

namespace Scheduler

variable {env : ScheduleEnv} {s s' : Scheduler} {r : RequestId} {isReady : Bool}

/-- The check for a finished transfer changes the blocks and `num_computed_tokens`. -/
lemma updateWaitingForRemoteKv_eq_ok (h : s.updateWaitingForRemoteKv r = .ok (isReady, s')) :
    ∃ kv finished failed numComputedTokens, s' = { s with
      kvCacheManager := kv
      finishedRecvingKvReqIds := finished
      failedRecvingKvReqIds := failed
      request := update s.request r { s.request r with numComputedTokens } } := by
  obtain ⟨_, -, h⟩ := bind_eq_ok h
  dsimp only at h
  split at h
  · cases h
    exact ⟨s.kvCacheManager, s.finishedRecvingKvReqIds, s.failedRecvingKvReqIds,
      (s.request r).numComputedTokens, by rw [update_eq_self]⟩
  · split at h
    · obtain ⟨kv, -, hret⟩ := bind_eq_ok h
      cases hret
      exact ⟨kv, _, _, (s.request r).numComputedTokens, by rw [update_eq_self]⟩
    · split at h
      · obtain ⟨kv, -, hret⟩ := bind_eq_ok h
        cases hret
        exact ⟨kv, _, s.failedRecvingKvReqIds, _, rfl⟩
      · cases h

/-- The status checks change a status only when the request becomes ready. -/
lemma updateWaitingStatus_eq_ok (h : s.updateWaitingStatus env r = .ok (isReady, s')) :
    ∃ kv finished failed numComputedTokens status, s' = { s with
        kvCacheManager := kv
        finishedRecvingKvReqIds := finished
        failedRecvingKvReqIds := failed
        request := update s.request r { s.request r with numComputedTokens, status } } ∧
      (isReady = true → status.isReady = true) ∧
      (status = (s.request r).status ∨ (status = .waiting ∨ status = .preempted) ∧
        ((s.request r).status = .waitingForRemoteKvs ∨ (s.request r).status = .waitingForFsm)) := by
  unfold updateWaitingStatus at h
  split at h
  · rename_i hstatus
    obtain ⟨⟨ready, s₁⟩, hload, h⟩ := bind_eq_ok h
    obtain ⟨kv, finished, failed, numComputedTokens, rfl⟩ := updateWaitingForRemoteKv_eq_ok hload
    dsimp only at h
    split at h
    · cases h
      refine ⟨kv, finished, failed, numComputedTokens,
        if (s.request r).numPreemptions ≠ 0 then .preempted else .waiting, ?_, fun _ => ?_, ?_⟩
      · simp [setRequest]
      · split <;> rfl
      · refine Or.inr ⟨?_, Or.inl hstatus⟩
        split
        · exact Or.inr rfl
        · exact Or.inl rfl
    · rename_i hready
      cases h
      exact ⟨kv, finished, failed, numComputedTokens, (s.request r).status, rfl,
        fun h => absurd h Bool.false_ne_true, Or.inl rfl⟩
  · rename_i hstatus
    split at h
    · cases h
      exact ⟨s.kvCacheManager, s.finishedRecvingKvReqIds, s.failedRecvingKvReqIds,
        (s.request r).numComputedTokens, .waiting, rfl, fun _ => rfl,
        Or.inr ⟨Or.inl rfl, Or.inr hstatus⟩⟩
    · cases h
      exact ⟨s.kvCacheManager, s.finishedRecvingKvReqIds, s.failedRecvingKvReqIds,
        (s.request r).numComputedTokens, (s.request r).status, by rw [update_eq_self],
        fun h => absurd h Bool.false_ne_true, Or.inl rfl⟩
  · obtain ⟨_, -, hret⟩ := bind_eq_ok h
    cases hret
    exact ⟨s.kvCacheManager, s.finishedRecvingKvReqIds, s.failedRecvingKvReqIds,
      (s.request r).numComputedTokens, (s.request r).status, by rw [update_eq_self],
      fun h => absurd h Bool.false_ne_true, Or.inl rfl⟩
  · rename_i hremote hfsm hstreaming
    cases h
    refine ⟨s.kvCacheManager, s.finishedRecvingKvReqIds, s.failedRecvingKvReqIds,
      (s.request r).numComputedTokens, (s.request r).status, by rw [update_eq_self],
      fun _ => ?_, Or.inl rfl⟩
    revert hremote hfsm hstreaming
    cases (s.request r).status <;> simp [RequestStatus.isReady]

end Scheduler

namespace ScheduleState

variable {env : ScheduleEnv} {st st' : ScheduleState} {r : RequestId} {s : Scheduler} {goesOn : Bool}

/-- Looking up cached tokens records the number of external ones. -/
lemma lookupComputed_eq_ok {s' : Scheduler} {lookup : Option CacheLookup}
    (h : lookupComputed env s r = .ok (lookup, s')) :
    ∃ numExternalComputedTokens, s' = { s with
      request := update s.request r { s.request r with numExternalComputedTokens } } := by
  have hsame : s = { s with request := update s.request r { s.request r with
      numExternalComputedTokens := (s.request r).numExternalComputedTokens } } := by
    rw [update_eq_self]
  unfold lookupComputed at h
  dsimp only at h
  split at h
  · obtain ⟨⟨blocks, numLocal⟩, -, h⟩ := bind_eq_ok h
    dsimp only at h
    split at h
    · split at h
      · cases h
        exact ⟨_, hsame⟩
      · rename_i extTokens loadKvAsync _
        cases h
        exact ⟨extTokens, rfl⟩
    · cases h
      exact ⟨_, hsame⟩
  · cases h
    exact ⟨_, hsame⟩

/-- What can happen in the loop over the waiting requests, to the request at the head of the queue. A
request is admitted by the plan that was made for it before its slots were allocated. -/
inductive WaitingStep (env : ScheduleEnv) : ScheduleState → ScheduleState → Prop where
  | status {st : ScheduleState} {r : RequestId} {isReady : Bool} {s' : Scheduler}
      (hr : st.scheduler.waiting.head? = some r)
      (h : st.scheduler.updateWaitingStatus env r = .ok (isReady, s')) :
      WaitingStep env st { st with scheduler := s' }
  | skip {st st' : ScheduleState} (h : st.skipWaiting = .ok st') : WaitingStep env st st'
  | lookup {st : ScheduleState} {r : RequestId} {lookup : Option CacheLookup} {s' : Scheduler}
      (hr : st.scheduler.waiting.head? = some r)
      (h : lookupComputed env st.scheduler r = .ok (lookup, s')) :
      WaitingStep env st { st with scheduler := s' }
  | plan {st : ScheduleState} {r : RequestId} {lookup : CacheLookup} {goesOn : Bool}
      {plan : EncoderPlan} (hr : st.scheduler.waiting.head? = some r)
      (hplan : st.planWaiting env (st.request r) lookup = .ok (goesOn, plan)) :
      WaitingStep env st (st.setEncoderCacheManager plan.manager)
  | allocate {st : ScheduleState} {r : RequestId} {lookup : CacheLookup} {n : ℤ}
      {blocks : Option (List (List BlockRef))} {kv : KVCacheManager}
      (hr : st.scheduler.waiting.head? = some r)
      (hkv : st.scheduler.kvCacheManager.allocateSlots (st.request r).kvRequest
        lookup.newComputedBlocks (waitingAllocateArgs st.config (st.request r) lookup n) =
        .ok (blocks, kv)) :
      WaitingStep env st (st.setKvCacheManager kv)
  | release {st : ScheduleState} {r : RequestId} (hr : st.scheduler.waiting.head? = some r) :
      WaitingStep env st (st.setEncoderCacheManager
        (st.scheduler.encoderCacheManager.free r (st.request r).mmFeatures))
  | load {st st' : ScheduleState} {r : RequestId} (hr : st.scheduler.waiting.head? = some r)
      (hready : (st.request r).status.isReady = true) (h : st.startLoading r = .ok st') :
      WaitingStep env st st'
  | moveToRunning {st₀ st st' : ScheduleState} {r : RequestId} {lookup : CacheLookup} {plan : EncoderPlan}
      (hr : st.scheduler.waiting.head? = some r) (hrequest : st₀.request r = st.request r)
      (hconfig : st₀.config = st.config) (hbudget : st₀.tokenBudget = st.tokenBudget)
      (hlora : st.exceedsMaxLoras (st.request r) = false) (hload : lookup.loadKvAsync = false)
      (hplan : st₀.planWaiting env (st₀.request r) lookup = .ok (true, plan))
      (h : st.moveToRunning r lookup plan = .ok st') : WaitingStep env st st'

lemma scheduleWaiting_steps {lookup : CacheLookup} (hr : st.scheduler.waiting.head? = some r)
    (hready : (st.request r).status.isReady = true) (hlora : st.exceedsMaxLoras (st.request r) = false)
    (h : st.scheduleWaiting env r lookup = .ok (goesOn, st')) :
    Relation.ReflTransGen (WaitingStep env) st st' := by
  obtain ⟨⟨planned, plan⟩, hplan, h⟩ := bind_eq_ok h
  have hstep : WaitingStep env st (st.setEncoderCacheManager plan.manager) := .plan hr hplan
  dsimp only at h
  split at h
  · cases h
    exact .single hstep
  · rename_i hplanned
    have hplanned : planned = true := by simpa using hplanned
    subst hplanned
    obtain ⟨⟨blocks, kv⟩, hkv, h⟩ := bind_eq_ok h
    have halloc : WaitingStep env (st.setEncoderCacheManager plan.manager)
        ((st.setEncoderCacheManager plan.manager).setKvCacheManager kv) := .allocate hr hkv
    have hsteps : Relation.ReflTransGen (WaitingStep env) st
        ((st.setEncoderCacheManager plan.manager).setKvCacheManager kv) :=
      (Relation.ReflTransGen.single hstep).tail halloc
    dsimp only at h
    split at h
    · cases h
      exact hsteps.tail (.release hr)
    · split at h
      · obtain ⟨st₃, hloading, hret⟩ := bind_eq_ok h
        cases hret
        exact hsteps.tail (.load hr hready hloading)
      · rename_i hload
        obtain ⟨st₃, hstart, hret⟩ := bind_eq_ok h
        cases hret
        have hlast : WaitingStep env
            ((st.setEncoderCacheManager plan.manager).setKvCacheManager kv) st' := by
          have hrequest : st.request r =
            ((st.setEncoderCacheManager plan.manager).setKvCacheManager kv).request r := rfl
          exact .moveToRunning hr hrequest rfl rfl hlora (by simpa using hload) hplan hstart
        exact hsteps.tail hlast

lemma waitingStep_steps (h : st.waitingStep env = .ok (goesOn, st')) :
    Relation.ReflTransGen (WaitingStep env) st st' := by
  obtain ⟨r, hpeek, h⟩ := bind_eq_ok h
  have hr : st.scheduler.waiting.head? = some r := by
    unfold RequestQueue.peekRequest at hpeek
    split at hpeek
    · cases hpeek
    · rename_i hwaiting
      rw [hwaiting, Except.ok.inj hpeek]
      rfl
  obtain ⟨⟨isReady, s₁⟩, hstatus, h⟩ := bind_eq_ok h
  have hstep : WaitingStep env st { st with scheduler := s₁ } := .status hr hstatus
  obtain ⟨kv, finished, failed, numComputedTokens, status, hs₁, hready, -⟩ :=
    Scheduler.updateWaitingStatus_eq_ok hstatus
  have hr₁ : s₁.waiting.head? = some r := by rw [hs₁]; exact hr
  have hstatus₁ : isReady = true → (s₁.request r).status.isReady = true := by
    rw [hs₁]
    simpa using hready
  dsimp only at h
  split at h
  · obtain ⟨st₂, hskip, hret⟩ := bind_eq_ok h
    cases hret
    exact .head hstep (.single (.skip hskip))
  · rename_i hgo
    simp only [Bool.or_eq_true, Bool.not_eq_true', not_or, Bool.not_eq_false,
      Bool.not_eq_true] at hgo
    obtain ⟨⟨lookup, s₂⟩, hlookup, h⟩ := bind_eq_ok h
    have hstep₂ : WaitingStep env { st with scheduler := s₁ } { st with scheduler := s₂ } :=
      .lookup hr₁ hlookup
    obtain ⟨numExternal, rfl⟩ := lookupComputed_eq_ok hlookup
    cases lookup with
    | none =>
      obtain ⟨st₂, hskip, hret⟩ := bind_eq_ok h
      cases hret
      exact .head hstep (.head hstep₂ (.single (.skip hskip)))
    | some lookup =>
      refine .head hstep (.head hstep₂ (scheduleWaiting_steps hr₁ ?_ ?_ h))
      · simpa [request] using hstatus₁ hgo.1
      · simpa [exceedsMaxLoras, request, config] using hgo.2

lemma waitingLoop_steps {fuel : ℕ} (h : waitingLoop env fuel st = .ok st') :
    Relation.ReflTransGen (WaitingStep env) st st' := by
  induction fuel generalizing st with
  | zero =>
    cases h
    exact .refl
  | succ fuel ih =>
    rw [waitingLoop] at h
    split at h
    · cases h
      exact .refl
    · obtain ⟨⟨goesOn, st₁⟩, hstep, h⟩ := bind_eq_ok h
      have hsteps := waitingStep_steps hstep
      dsimp only at h
      split at h
      · exact hsteps.trans (ih h)
      · cases h
        exact hsteps

/-! ## The whole call -/

lemma recordLoras_eq_ok (h : st.recordLoras = .ok st') :
    ∃ scheduledLoras, st' = { st with scheduledLoras } := by
  unfold recordLoras at h
  split at h
  · cases h
    exact ⟨st.scheduledLoras, rfl⟩
  · obtain ⟨_, -, rfl⟩ := map_eq_ok h
    exact ⟨_, rfl⟩

/-- The loops of `schedule`: the waiting requests are looked at if no running one was preempted. -/
lemma loops_eq_ok (hnodup : s.running.Nodup) (h : loops env s = .ok st') :
    ∃ st₁ st₂ st₃, Relation.ReflTransGen (RunningStep env) (start s) st₁ ∧
      st₁.recordLoras = .ok st₂ ∧ Relation.ReflTransGen (WaitingStep env) st₂ st₃ ∧
      (st₁.preemptedReqs = [] ∨ st₃ = st₂) ∧ st' = st₃.putBackSkipped ∧
      st₃.putBackSkipped.checkConstraints = .ok () := by
  obtain ⟨st₁, hrunning, h⟩ := bind_eq_ok h
  obtain ⟨st₂, hloras, h⟩ := bind_eq_ok h
  obtain ⟨st₃, hwaiting, h⟩ := bind_eq_ok h
  obtain ⟨_, hcheck, rfl⟩ := map_eq_ok h
  have hsteps : Relation.ReflTransGen (RunningStep env) (start s) st₁ :=
    runningLoop_steps hnodup (fun _ hx => absurd hx not_mem_nil) nodup_nil hrunning
  obtain ⟨loras, rfl⟩ := recordLoras_eq_ok hloras
  unfold scheduleWaitingRequests at hwaiting
  split at hwaiting
  · rename_i hpreempted
    exact ⟨st₁, _, st₃, hsteps, hloras, waitingLoop_steps hwaiting,
      Or.inl (isEmpty_iff.mp hpreempted), rfl, hcheck⟩
  · cases hwaiting
    exact ⟨st₁, _, _, hsteps, hloras, .refl, Or.inr rfl, rfl, hcheck⟩

/-- The rule for `schedule`: `P` holds at the start and is kept by the first loop, and what follows
from it is kept by the second one. -/
lemma loops_invariant {P Q : ScheduleState → Prop} (hnodup : s.running.Nodup) (h : loops env s = .ok st')
    (hstart : P (start s)) (hrunning : ∀ st st', P st → RunningStep env st st' → P st')
    (hloras : ∀ (st : ScheduleState) scheduledLoras, P st → Q { st with scheduledLoras })
    (hwaiting : ∀ st st', Q st → WaitingStep env st st' → Q st') :
    ∃ st, Q st ∧ st' = st.putBackSkipped ∧ st'.checkConstraints = .ok () := by
  obtain ⟨st₁, st₂, st₃, hfirst, hrecord, hsecond, -, rfl, hcheck⟩ := loops_eq_ok hnodup h
  have hP₁ : P st₁ := by
    clear hrecord
    induction hfirst with
    | refl => exact hstart
    | tail _ hstep ih => exact hrunning _ _ ih hstep
  obtain ⟨loras, rfl⟩ := recordLoras_eq_ok hrecord
  refine ⟨st₃, ?_, rfl, hcheck⟩
  clear hcheck h
  induction hsecond with
  | refl => exact hloras _ _ hP₁
  | tail _ hstep ih => exact hwaiting _ _ ih hstep

lemma skipWaiting_eq_ok (h : st.skipWaiting = .ok st') :
    ∃ r waiting, RequestQueue.popRequest st.scheduler.config.policy st.scheduler.lt
        st.scheduler.waiting = .ok (r, waiting) ∧
      st' = { st with
        scheduler := { st.scheduler with waiting }
        skippedWaitingRequests := RequestQueue.prependRequest st.scheduler.config.policy
          st.scheduler.lt st.skippedWaitingRequests r } := by
  obtain ⟨⟨r, waiting⟩, hpop, hret⟩ := bind_eq_ok h
  exact ⟨r, waiting, hpop, (Except.ok.inj hret).symm⟩

lemma RunningStep.nodup (hstep : RunningStep env st st')
    (h : (st.numScheduledTokens.map Prod.fst).Nodup) :
    (st'.numScheduledTokens.map Prod.fst).Nodup := by
  cases hstep with
  | plan hr hplan => exact h
  | allocate hr hkv => exact h
  | preempt hscheduled hpreempt =>
    obtain ⟨st₁, s', hpop, -, rfl⟩ := preempt_eq_ok hpreempt
    obtain ⟨-, -, -, rfl⟩ | ⟨-, -, -, -, rfl⟩ | ⟨-, -, -, -, rfl⟩ := popPreempted_cases hpop
    · exact h
    · exact h
    · exact nodup_dictPop h
  | schedule hr hnew hrequest hconfig hwaits hplan hn hschedule =>
    obtain ⟨m₁, m₂, -, -, rfl⟩ := scheduleEncoderInputs_eq_ok hschedule
    exact nodup_dictSet h

lemma WaitingStep.nodup (hstep : WaitingStep env st st')
    (h : (st.numScheduledTokens.map Prod.fst).Nodup) :
    (st'.numScheduledTokens.map Prod.fst).Nodup := by
  cases hstep with
  | skip hskip =>
    obtain ⟨r, waiting, -, rfl⟩ := skipWaiting_eq_ok hskip
    exact h
  | load hr hready hload =>
    obtain ⟨st₁, hskip, hret⟩ := bind_eq_ok hload
    obtain ⟨r, waiting, -, rfl⟩ := skipWaiting_eq_ok hskip
    cases hret
    exact h
  | moveToRunning hr _ _ _ _ _ _ hstart =>
    obtain ⟨⟨x, waiting⟩, -, hstart⟩ := bind_eq_ok hstart
    obtain ⟨⟨newReqs, resumedReqs⟩, -, hstart⟩ := bind_eq_ok hstart
    obtain ⟨m₁, m₂, -, -, rfl⟩ := scheduleEncoderInputs_eq_ok hstart
    exact nodup_dictSet h
  | _ => exact h

/-- A request is in a batch at most once. -/
lemma loops_nodup (hnodup : s.running.Nodup) (h : loops env s = .ok st') :
    (st'.numScheduledTokens.map Prod.fst).Nodup := by
  have hstart : ((start s).numScheduledTokens.map Prod.fst).Nodup := nodup_nil
  obtain ⟨st, hst, rfl, -⟩ := loops_invariant
    (P := fun st => (st.numScheduledTokens.map Prod.fst).Nodup)
    (Q := fun st => (st.numScheduledTokens.map Prod.fst).Nodup) hnodup h hstart
    (fun _ _ hst hstep => hstep.nodup hst) (fun _ _ hst => hst)
    (fun _ _ hst hstep => hstep.nodup hst)
  unfold putBackSkipped
  split <;> exact hst

end ScheduleState

/-! ## After the loops -/

namespace SchedRequest

/-- A request after a step that computed `n` of its tokens. -/
def computed (request : SchedRequest) (n : ℤ) : SchedRequest :=
  { request with numComputedTokens := request.numComputedTokens + n }

/-- A request of an `AsyncScheduler` after a step with `numSpec` drafts. -/
def withPlaceholders (request : SchedRequest) (numSpecTokens numSpec : ℕ) : SchedRequest :=
  if request.numComputedTokens = request.numTokens + request.numOutputPlaceholders + numSpec then
    { request with
      numOutputPlaceholders := request.numOutputPlaceholders + (1 + numSpec)
      specTokenIds := List.replicate numSpecTokens (-1) }
  else
    request

/-- A request after a step that computed `n` of its tokens, `numSpec` drafts among them. -/
def afterSchedule (config : SchedulerConfig) (request : SchedRequest) (n : ℤ) (numSpec : ℕ) :
    SchedRequest :=
  if config.asyncScheduling then (request.computed n).withPlaceholders config.numSpecTokens numSpec
  else request.computed n

/-- A step changes the counters and the drafts of a request. -/
lemma afterSchedule_eq (config : SchedulerConfig) (request : SchedRequest) (n : ℤ) (numSpec : ℕ) :
    ∃ numOutputPlaceholders specTokenIds, request.afterSchedule config n numSpec =
      { request with
        numComputedTokens := request.numComputedTokens + n
        numOutputPlaceholders, specTokenIds } := by
  unfold afterSchedule withPlaceholders
  split
  · split
    · exact ⟨_, _, rfl⟩
    · exact ⟨request.numOutputPlaceholders, request.specTokenIds, rfl⟩
  · exact ⟨request.numOutputPlaceholders, request.specTokenIds, rfl⟩

end SchedRequest

namespace Scheduler

variable {s s' : Scheduler} {output : SchedulerOutput} {st : ScheduleState} {env : ScheduleEnv}

lemma advance_eq (s : Scheduler) (r : RequestId) (n : ℤ) :
    ∃ manager, s.advance r n = { s with
      encoderCacheManager := manager
      request := update s.request r ((s.request r).computed n) } := by
  unfold advance
  dsimp only
  split
  · exact ⟨_, rfl⟩
  · exact ⟨s.encoderCacheManager, rfl⟩

lemma addPlaceholders_eq (s : Scheduler) (r : RequestId) (numSpec : ℕ) :
    s.addPlaceholders r numSpec = s.setRequest r
      ((s.request r).withPlaceholders s.config.numSpecTokens numSpec) := by
  unfold addPlaceholders SchedRequest.withPlaceholders
  dsimp only
  split
  · rfl
  · rw [setRequest, update_eq_self]

lemma foldl_advance (entries : OrderedDict RequestId ℤ) (s : Scheduler)
    (hnodup : (entries.map Prod.fst).Nodup) :
    ∃ encoderCacheManager request, entries.foldl (fun s e => s.advance e.1 e.2) s =
      { s with encoderCacheManager, request } ∧
      ∀ x, request x = (entries.lookup x).elim (s.request x) (s.request x).computed := by
  induction entries generalizing s with
  | nil => exact ⟨s.encoderCacheManager, s.request, rfl, fun _ => rfl⟩
  | cons e entries ih =>
    obtain ⟨r, n⟩ := e
    rw [map_cons, nodup_cons] at hnodup
    obtain ⟨m, hm⟩ := s.advance_eq r n
    obtain ⟨m', request, heq, hrequest⟩ := ih (s.advance r n) hnodup.2
    rw [foldl_cons, heq, hm]
    refine ⟨m', request, rfl, fun x => ?_⟩
    rw [hrequest, hm]
    by_cases hx : x = r
    · subst hx
      have hnone : entries.lookup x = none := lookup_eq_none.mpr hnodup.1
      simp [hnone]
    · have hbeq : (x == r) = false := by simpa using hx
      simp [lookup_cons, hbeq, update_of_ne hx]

lemma foldl_addPlaceholders (numSpec : RequestId → ℕ) (reqIds : List RequestId) (s : Scheduler)
    (hnodup : reqIds.Nodup) :
    ∃ request, reqIds.foldl (fun s r => s.addPlaceholders r (numSpec r)) s = { s with request } ∧
      ∀ x, request x = if x ∈ reqIds then
        (s.request x).withPlaceholders s.config.numSpecTokens (numSpec x) else s.request x := by
  induction reqIds generalizing s with
  | nil => exact ⟨s.request, rfl, fun _ => by simp⟩
  | cons r reqIds ih =>
    rw [nodup_cons] at hnodup
    obtain ⟨request, heq, hrequest⟩ := ih (s.addPlaceholders r (numSpec r)) hnodup.2
    rw [foldl_cons, heq, addPlaceholders_eq]
    refine ⟨request, rfl, fun x => ?_⟩
    rw [hrequest, addPlaceholders_eq]
    by_cases hx : x = r
    · subst hx
      simp [setRequest, hnodup.1]
    · simp [setRequest, hx]

/-- `_update_after_schedule` changes the scheduled requests and nothing else in the queues. -/
lemma updateAfterSchedule_eq {output' : SchedulerOutput}
    (hnodup : (output.numScheduledTokens.map Prod.fst).Nodup)
    (h : s.updateAfterSchedule output = (output', s')) :
    (∃ encoderCacheManager request, s' =
      { s with encoderCacheManager, request, finishedReqIds := [] } ∧
      ∀ x, request x = (output.numScheduledTokens.lookup x).elim (s.request x) fun n =>
        (s.request x).afterSchedule s.config n
          ((output.scheduledSpecDecodeTokens.lookup x).getD []).length) ∧
    ∃ b b', output' = { output with
      hasStructuredOutputRequests := b
      pendingStructuredOutputTokens := b' } := by
  obtain ⟨m, request, hadvance, hrequest⟩ := foldl_advance output.numScheduledTokens s hnodup
  unfold updateAfterSchedule at h
  rw [hadvance] at h
  dsimp only at h
  split at h
  · rename_i hasync
    cases h
    obtain ⟨request', heq, hrequest'⟩ := foldl_addPlaceholders
      (fun r => ((output.scheduledSpecDecodeTokens.lookup r).getD []).length)
      (output.numScheduledTokens.map Prod.fst)
      { s with encoderCacheManager := m, request, finishedReqIds := [] } hnodup
    refine ⟨⟨m, request', heq, fun x => ?_⟩, _, _, rfl⟩
    rw [hrequest']
    dsimp only
    rw [hrequest]
    cases hx : output.numScheduledTokens.lookup x with
    | none =>
      rw [if_neg (lookup_eq_none.mp hx)]
      rfl
    | some n =>
      rw [if_pos (lookup_isSome.mp (by rw [hx]; rfl))]
      simp [SchedRequest.afterSchedule, hasync]
  · rename_i hasync
    cases h
    refine ⟨⟨m, request, rfl, fun x => ?_⟩, output.hasStructuredOutputRequests,
      output.pendingStructuredOutputTokens, rfl⟩
    rw [hrequest]
    cases hx : output.numScheduledTokens.lookup x with
    | none => rfl
    | some n => simp [SchedRequest.afterSchedule, hasync]

/-- The output is built from the local variables of `schedule`. -/
lemma makeOutput_eq_ok (h : st.makeOutput = .ok (output, s)) :
    s = { st.scheduler with
      encoderCacheManager := st.scheduler.encoderCacheManager.getFreedMmHashes.2
      prevStepScheduledReqIds := st.numScheduledTokens.map Prod.fst } ∧
    output.numScheduledTokens = st.numScheduledTokens ∧
    output.scheduledSpecDecodeTokens = st.scheduledSpecDecodeTokens ∧
    output.scheduledEncoderInputs = st.scheduledEncoderInputs ∧
    output.externalLoads = st.externalLoads ∧
    output.freeEncoderMmHashes = st.scheduler.encoderCacheManager.getFreedMmHashes.1 := by
  obtain ⟨runningData, -, h⟩ := bind_eq_ok h
  obtain ⟨resumedData, -, hret⟩ := bind_eq_ok h
  cases hret
  exact ⟨rfl, rfl, rfl, rfl, rfl, rfl⟩

/-- A call of `schedule` is a run of the loops and the changes after them. -/
lemma schedule_eq_ok (h : s.schedule env = .ok (output, s')) :
    ∃ st s₁ output₁, ScheduleState.loops env s = .ok st ∧ st.makeOutput = .ok (output₁, s₁) ∧
      s₁.updateAfterSchedule output₁ = (output, s') := by
  obtain ⟨st, hloops, h⟩ := bind_eq_ok h
  obtain ⟨⟨output₁, s₁⟩, hmake, hret⟩ := bind_eq_ok h
  exact ⟨st, s₁, output₁, hloops, hmake, Except.ok.inj hret⟩

/-- A call of `schedule` from the end of the loops on. -/
lemma schedule_after_loops (hnodup : s.running.Nodup) (hloops : ScheduleState.loops env s = .ok st)
    (h : s.schedule env = .ok (output, s')) :
    (∃ encoderCacheManager request, s' = { st.scheduler with
        encoderCacheManager, request
        finishedReqIds := []
        prevStepScheduledReqIds := st.numScheduledTokens.map Prod.fst } ∧
      ∀ x, request x = (st.numScheduledTokens.lookup x).elim (st.request x) fun n =>
        (st.request x).afterSchedule st.config n
          ((st.scheduledSpecDecodeTokens.lookup x).getD []).length) ∧
    output.numScheduledTokens = st.numScheduledTokens ∧
    output.scheduledSpecDecodeTokens = st.scheduledSpecDecodeTokens ∧
    output.scheduledEncoderInputs = st.scheduledEncoderInputs ∧
    output.externalLoads = st.externalLoads ∧
    output.freeEncoderMmHashes = st.scheduler.encoderCacheManager.getFreedMmHashes.1 := by
  obtain ⟨st₁, s₁, output₁, hloops₁, hmake, hupdate⟩ := schedule_eq_ok h
  obtain rfl : st = st₁ := Except.ok.inj (hloops.symm.trans hloops₁)
  obtain ⟨rfl, hnum, hspec, hinputs, hloads, hfreed⟩ := makeOutput_eq_ok hmake
  obtain ⟨⟨m, request, rfl, hrequest⟩, b, b', rfl⟩ := updateAfterSchedule_eq
    (hnum.symm ▸ ScheduleState.loops_nodup hnodup hloops) hupdate
  rw [hnum, hspec] at hrequest
  exact ⟨⟨m, request, rfl, hrequest⟩, hnum, hspec, hinputs, hloads, hfreed⟩

end Scheduler

end VllmRuntime
