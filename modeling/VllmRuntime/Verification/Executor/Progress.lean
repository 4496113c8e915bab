import VllmRuntime.Verification.Executor.Correctness

/-! Calls of `collective_rpc` return: while one waits, the thread or a worker has something to do, and all of
it comes to an end. -/

namespace VllmRuntime

open List Function

variable {ω κ ρ β : Type}

/-- What a worker has left to do, and what was not read from its queue. -/
def WorkerProc.load (proc : WorkerProc ω κ ρ) : ℕ :=
  4 * proc.rpcBroadcastMq.length + 3 * proc.asyncOutputQueue.length + 2 * proc.responseMq.length

def DrainGoal.weight : DrainGoal κ ρ β → ℕ
  | .result _ => 1
  | .blocking _ => 4

def ExecutorThread.weight : ExecutorThread κ ρ β → ℕ
  | .idle => 0
  | .draining goal => goal.weight
  | .collecting _ _ _ none => 3
  | .collecting _ _ _ (some goal) => goal.weight + 1

namespace WorkerProc

variable {proc : WorkerProc ω κ ρ}

lemma load_asyncOutputBusyLoop (h : proc.asyncOutputQueue ≠ []) :
    proc.asyncOutputBusyLoop.load < proc.load := by
  unfold asyncOutputBusyLoop
  cases hqueue : proc.asyncOutputQueue with
  | nil => exact absurd hqueue h
  | cons output outputs =>
    simp only [load, enqueueOutput, hqueue, length_append, length_cons, length_nil]
    omega

lemma load_workerBusyLoop (func : ω → κ → Except String ρ × ω) (rank : ℕ) (useAsyncScheduling : Bool)
    (h : proc.rpcBroadcastMq ≠ []) :
    (proc.workerBusyLoop func rank useAsyncScheduling).load < proc.load := by
  unfold workerBusyLoop
  cases hqueue : proc.rpcBroadcastMq with
  | nil => exact absurd hqueue h
  | cons message messages =>
    dsimp only
    split
    · cases useAsyncScheduling with
      | true =>
        simp only [load, handleOutput, hqueue, if_true, length_append, length_cons, length_nil]
        omega
      | false =>
        simp only [load, handleOutput, enqueueOutput, hqueue, Bool.false_eq_true, if_false, length_append,
          length_cons, length_nil]
        omega
    · simp only [load, hqueue, length_cons]
      omega

end WorkerProc

namespace MultiprocExecutor

section Remaining

variable (config : ExecutorConfig ω κ ρ)

/-- What is left to do. -/
def remaining (s : MultiprocExecutor ω κ ρ β) : ℕ :=
  (∑ rank ∈ Finset.range config.worldSize, (s.workers rank).load) + 2 * s.futuresQueue.length + s.thread.weight

/-- The steps that nobody asks for. -/
def IsInternal : ExecutorStep κ ρ β → Prop
  | .advance => True
  | .work rank | .forward rank => rank < config.worldSize
  | _ => False

end Remaining

variable {config : ExecutorConfig ω κ ρ} {start : ℕ → ω} {s s' : MultiprocExecutor ω κ ρ β} {finished : ℕ}
  {rank k : ℕ} {call : RpcCall κ ρ β}

lemma sum_load_update (hrank : rank < config.worldSize) (proc : WorkerProc ω κ ρ) :
    (∑ r ∈ Finset.range config.worldSize, (update s.workers rank proc r).load) + (s.workers rank).load =
      (∑ r ∈ Finset.range config.worldSize, (s.workers r).load) + proc.load := by
  have hmem : rank ∈ Finset.range config.worldSize := Finset.mem_range.2 hrank
  have hrest : ∑ r ∈ (Finset.range config.worldSize).erase rank, (update s.workers rank proc r).load =
      ∑ r ∈ (Finset.range config.worldSize).erase rank, (s.workers r).load := by
    refine Finset.sum_congr rfl ?_
    intro r hr
    rw [update_of_ne (Finset.ne_of_mem_erase hr)]
  rw [← Finset.add_sum_erase _ _ hmem, ← Finset.add_sum_erase _ (fun r => (s.workers r).load) hmem, hrest,
    update_self]
  omega

lemma remaining_setWorker (hrank : rank < config.worldSize) {proc : WorkerProc ω κ ρ}
    (hload : proc.load < (s.workers rank).load) :
    remaining config { s with workers := update s.workers rank proc } < remaining config s := by
  have hsum := sum_load_update (s := s) hrank proc
  simp only [remaining]
  omega

/-- Reading a reply. -/
lemma remaining_setResponseMq (hrank : rank < config.worldSize) {response : WorkerResponse ρ}
    {responseMq : List (WorkerResponse ρ)} (hmq : (s.workers rank).responseMq = response :: responseMq) :
    remaining config (s.setResponseMq rank responseMq) < remaining config s := by
  refine remaining_setWorker hrank ?_
  simp only [WorkerProc.load, hmq, length_cons]
  omega

lemma remaining_finish (s : MultiprocExecutor ω κ ρ β) {pending : PendingCall κ ρ β} {ranks : List ℕ}
    {responses : List ρ} {goal : Option (DrainGoal κ ρ β)}
    (hthread : s.thread = .collecting pending ranks responses goal) (outcome : Except PyError β) :
    remaining config (s.finish pending.number outcome goal) < remaining config s := by
  simp only [remaining, finish, hthread]
  cases goal with
  | none =>
    simp only [ExecutorThread.weight]
    omega
  | some goal =>
    simp only [ExecutorThread.weight]
    omega

/-- The thread waits for a reply of this rank. -/
def WaitsFor (s : MultiprocExecutor ω κ ρ β) (rank : ℕ) : Prop :=
  ∃ pending ranks responses goal, s.thread = .collecting pending (rank :: ranks) responses goal ∧
    (s.workers rank).responseMq = []

section

variable (h : Inv config start s finished)
include h

/-- The thread is free, waits for a rank, or comes nearer to the end. -/
lemma Inv.advance_cases (hrun : s.advance config = .ok s') :
    (s' = s ∧ (s.thread = .idle ∨ ∃ rank < config.worldSize, s.WaitsFor rank)) ∨
      remaining config s' < remaining config s := by
  cases hthread : s.thread with
  | idle =>
    simp only [MultiprocExecutor.advance, hthread, Except.ok.injEq] at hrun
    exact .inl ⟨hrun.symm, .inl rfl⟩
  | draining goal =>
    refine .inr ?_
    cases goal with
    | result future =>
      cases hresult : s.results future with
      | some outcome =>
        simp only [MultiprocExecutor.advance, hthread, hresult, Option.isSome_some, if_true, Except.ok.injEq] at hrun
        subst hrun
        simp only [remaining, hthread, ExecutorThread.weight, DrainGoal.weight]
        omega
      | none =>
        obtain ⟨pending, futuresQueue, hqueue⟩ := h.exists_future hthread hresult
        simp only [MultiprocExecutor.advance, hthread, hresult, Option.isSome_none, Bool.false_eq_true, if_false, hqueue,
          Except.ok.injEq] at hrun
        subst hrun
        simp only [remaining, MultiprocExecutor.collect, hthread, hqueue, ExecutorThread.weight, DrainGoal.weight,
          length_cons]
        omega
    | blocking own =>
      cases hqueue : s.futuresQueue with
      | nil =>
        simp only [MultiprocExecutor.advance, hthread, hqueue, Except.ok.injEq] at hrun
        subst hrun
        simp only [remaining, MultiprocExecutor.collect, hthread, ExecutorThread.weight, DrainGoal.weight]
        omega
      | cons pending futuresQueue =>
        simp only [MultiprocExecutor.advance, hthread, hqueue, Except.ok.injEq] at hrun
        subst hrun
        simp only [remaining, MultiprocExecutor.collect, hthread, hqueue, ExecutorThread.weight, DrainGoal.weight,
          length_cons]
        omega
  | collecting pending ranks responses goal =>
    cases ranks with
    | nil =>
      simp only [MultiprocExecutor.advance, hthread, Except.ok.injEq] at hrun
      subst hrun
      exact .inr (remaining_finish s hthread _)
    | cons rank ranks =>
      have hrank := (h.rank_lt hthread).1
      cases hmq : (s.workers rank).responseMq with
      | nil =>
        simp only [MultiprocExecutor.advance, hthread, hmq, Except.ok.injEq] at hrun
        exact .inl ⟨hrun.symm, .inr ⟨rank, hrank, pending, ranks, responses, goal, hthread, hmq⟩⟩
      | cons response responseMq =>
        have hread := remaining_setResponseMq hrank hmq
        refine .inr ?_
        cases response with
        | success output =>
          simp only [MultiprocExecutor.advance, hthread, hmq, Except.ok.injEq] at hrun
          subst hrun
          refine lt_of_eq_of_lt ?_ hread
          simp only [remaining, setResponseMq, hthread]
          cases goal <;> rfl
        | failure message =>
          simp only [MultiprocExecutor.advance, hthread, hmq, Except.ok.injEq] at hrun
          subst hrun
          refine lt_trans ?_ hread
          exact remaining_finish (s.setResponseMq rank responseMq) hthread _

/-- A rank that the thread waits for has a message to read, or an output to put into its queue. -/
lemma Inv.busy_of_waitsFor (hrank : rank < config.worldSize)
    (hwaits : s.WaitsFor rank) :
    (s.workers rank).asyncOutputQueue ≠ [] ∨ (s.workers rank).rpcBroadcastMq ≠ [] := by
  obtain ⟨pending, ranks, responses, goal, hthread, hmq⟩ := hwaits
  have hcome := h.toCome_eq rank hrank
  have howes : s.owes rank = pending :: s.later.filter (·.call.message.Expects rank) := by
    rw [owes, hthread]
    simp [ExecutorThread.currentOf]
  by_contra hnone
  push Not at hnone
  rw [howes, WorkerProc.toCome, hmq, hnone.1, hnone.2] at hcome
  cases hcome

/-- No internal step raises, and none is taken for ever. -/
lemma Inv.internal {step : ExecutorStep κ ρ β} (hstep : IsInternal config step) :
    ∃ s', MultiprocExecutor.run config step s = .ok s' ∧ (s' = s ∨ remaining config s' < remaining config s) := by
  cases step with
  | collectiveRpc call => exact hstep.elim
  | result future => exact hstep.elim
  | advance =>
    obtain ⟨s', _, hrun, -⟩ := h.advance
    exact ⟨s', hrun, (h.advance_cases hrun).imp_left (·.1)⟩
  | work rank =>
    refine ⟨_, rfl, ?_⟩
    by_cases hqueue : (s.workers rank).rpcBroadcastMq = []
    · left
      simp only [WorkerProc.workerBusyLoop, hqueue, update_eq_self]
    · exact .inr (remaining_setWorker hstep (WorkerProc.load_workerBusyLoop _ _ _ hqueue))
  | forward rank =>
    refine ⟨_, rfl, ?_⟩
    by_cases hqueue : (s.workers rank).asyncOutputQueue = []
    · left
      simp only [WorkerProc.asyncOutputBusyLoop, hqueue, update_eq_self]
    · exact .inr (remaining_setWorker hstep (WorkerProc.load_asyncOutputBusyLoop hqueue))

/-- While the thread is not free, there is an internal step that brings it nearer to the end. -/
lemma Inv.exists_internal (hbusy : s.thread ≠ .idle) :
    ∃ step s', IsInternal config step ∧ MultiprocExecutor.run config step s = .ok s' ∧
      remaining config s' < remaining config s := by
  obtain ⟨s', _, hrun, -⟩ := h.advance
  rcases h.advance_cases hrun with ⟨-, hidle | ⟨rank, hrank, hwaits⟩⟩ | hless
  · exact absurd hidle hbusy
  · rcases h.busy_of_waitsFor hrank hwaits with hqueue | hqueue
    · exact ⟨.forward rank, _, hrank, rfl, remaining_setWorker hrank (WorkerProc.load_asyncOutputBusyLoop hqueue)⟩
    · exact ⟨.work rank, _, hrank, rfl,
        remaining_setWorker hrank (WorkerProc.load_workerBusyLoop _ _ _ hqueue)⟩
  · exact ⟨.advance, s', trivial, hrun, hless⟩

end

/-! ## Every call gets its replies -/

section Matched

variable (config : ExecutorConfig ω κ ρ) (start : ℕ → ω)

/-- What calls and futures returned or raised is what the workers replied to them. A blocking call has
returned when the thread is free; until then there is something to do, and only finitely much. When nothing
is pending, no reply is left. -/
structure Matched (s : MultiprocExecutor ω κ ρ β) : Prop where
  outcome : ∀ k outcome, s.results k = some outcome →
    ∃ call, s.calls[k]? = some call ∧ outcome = call.outcomeOf config start (s.calls.take k)
  returned : s.thread = .idle → ∀ k call, s.calls[k]? = some call → call.nonBlock = false → (s.results k).isSome
  internal : ∀ step, IsInternal config step →
    ∃ s', run config step s = .ok s' ∧ (s' = s ∨ remaining config s' < remaining config s)
  progress : s.thread ≠ .idle →
    ∃ step s', IsInternal config step ∧ run config step s = .ok s' ∧ remaining config s' < remaining config s
  nothing_left : s.thread = .idle → s.futuresQueue = [] →
    ∀ rank < config.worldSize, (s.workers rank).toCome (config.func rank) rank = []

end Matched

lemma Inv.outcome (h : Inv config start s finished) {outcome : Except PyError β}
    (hresult : s.results k = some outcome) :
    ∃ call, s.calls[k]? = some call ∧ outcome = call.outcomeOf config start (s.calls.take k) := by
  by_cases hk : k < finished
  · have hlt : k < s.calls.length := hk.trans_le h.finished_le
    have hget : s.calls[k]? = some s.calls[k] := getElem?_eq_getElem hlt
    have hexpected := h.results_eq k hk _ hget
    exact ⟨_, hget, Option.some.inj (hresult.symm.trans hexpected)⟩
  · rw [h.results_none k (by omega)] at hresult
    cases hresult

lemma mem_pendingFrom (number : ℕ) {calls : List (RpcCall κ ρ β)} (h : calls[k]? = some call) :
    ⟨number + k, call⟩ ∈ pendingFrom number calls := by
  rw [pendingFrom_eq]
  exact mem_map.mpr ⟨(call, number + k), mk_add_mem_zipIdx_iff_getElem?.mpr h, rfl⟩

lemma Inv.returned (h : Inv config start s finished) (hidle : s.thread = .idle)
    (hget : s.calls[k]? = some call) (hblock : call.nonBlock = false) : (s.results k).isSome := by
  by_cases hk : k < finished
  · rw [h.results_eq k hk call hget]
    rfl
  · have hunfinished : s.unfinished = s.futuresQueue := by
      rw [unfinished, later, hidle]
      exact append_nil _
    have hdrop : (s.calls.drop finished)[k - finished]? = some call := by
      rw [getElem?_drop, Nat.add_sub_cancel' (by omega)]
      exact hget
    have hmem := mem_pendingFrom finished hdrop
    rw [← h.unfinished_eq, hunfinished] at hmem
    have hnonBlock := h.nonBlock _ hmem
    simp only [hblock, Bool.false_eq_true] at hnonBlock

lemma Inv.matched (h : Inv config start s finished) : Matched config start s := by
  refine ⟨fun _ _ => h.outcome, fun hidle _ _ => h.returned hidle, fun _ => h.internal, h.exists_internal, ?_⟩
  intro hidle hqueue rank hrank
  have hcome := h.toCome_eq rank hrank
  rw [owes, later, hidle, hqueue] at hcome
  exact hcome

/-- Every call and every future gets exactly the replies to it, in every run in which no rank before the last
one raises in a call that all ranks reply to. -/
theorem matched_of_reaches (h : Reaches (run config) (Allowed config start) (new start) s) :
    Matched config start s := by
  obtain ⟨finished, hinv⟩ := inv_of_reaches h
  exact hinv.matched

/-! ## Runs of two workers -/

/-- What the executor can be asked: like `Allowed`, but any worker may raise. -/
def Possible (config : ExecutorConfig ω κ ρ) (s : MultiprocExecutor ω κ ρ β) : ExecutorStep κ ρ β → Prop
  | .collectiveRpc call => s.thread = .idle ∧ ∀ rank, call.outputRank = some rank → rank < config.worldSize
  | .result future => s.thread = .idle ∧ ∃ call, s.calls[future]? = some call ∧ call.nonBlock = true
  | .advance => True
  | .work rank | .forward rank => rank < config.worldSize

def isIdle (s : MultiprocExecutor ω κ ρ β) : Bool :=
  match s.thread with
  | .idle => true
  | _ => false

lemma thread_of_isIdle (h : s.isIdle = true) : s.thread = .idle := by
  unfold isIdle at h
  cases hthread : s.thread with
  | idle => rfl
  | draining | collecting => simp [hthread] at h

def checkPossible (config : ExecutorConfig ω κ ρ) (s : MultiprocExecutor ω κ ρ β) : ExecutorStep κ ρ β → Bool
  | .collectiveRpc call => s.isIdle && call.outputRank.all (· < config.worldSize)
  | .result future => s.isIdle && (s.calls[future]?).any (·.nonBlock)
  | .advance => true
  | .work rank | .forward rank => rank < config.worldSize

lemma possible_of_check (s : MultiprocExecutor ω κ ρ β) (step : ExecutorStep κ ρ β)
    (h : checkPossible config s step = true) : Possible config s step := by
  cases step with
  | collectiveRpc call =>
    obtain ⟨hidle, hrank⟩ := Bool.and_eq_true_iff.1 h
    refine ⟨thread_of_isIdle hidle, ?_⟩
    intro rank hout
    simpa [hout] using hrank
  | result future =>
    obtain ⟨hidle, hcall⟩ := Bool.and_eq_true_iff.1 h
    refine ⟨thread_of_isIdle hidle, ?_⟩
    cases hget : s.calls[future]? with
    | none => simp [hget] at hcall
    | some call =>
      rw [hget] at hcall
      exact ⟨call, rfl, hcall⟩
  | advance => trivial
  | work rank | forward rank => simpa [checkPossible, Possible] using h

section Check

variable (config : ExecutorConfig ω κ ρ) (start : ℕ → ω)

/-- The check for `Allowed`. -/
def checkAllowed (s : MultiprocExecutor ω κ ρ β) (step : ExecutorStep κ ρ β) : Bool :=
  checkPossible config s step &&
    match step with
    | .collectiveRpc call => call.outputRank.isSome || (List.range (config.worldSize - 1)).all fun rank =>
      (call.replyTo config start s.calls rank).isOk
    | _ => true

variable {config start}

lemma allowed_of_check (s : MultiprocExecutor ω κ ρ β) (step : ExecutorStep κ ρ β)
    (h : checkAllowed config start s step = true) : Allowed config start s step := by
  obtain ⟨hpossible, hraises⟩ := Bool.and_eq_true_iff.1 h
  have hstep := possible_of_check s step hpossible
  cases step with
  | collectiveRpc call =>
    refine ⟨hstep.1, hstep.2, ?_⟩
    intro hnone rank hrank
    simp only [hnone, Option.isSome_none, Bool.false_or, all_eq_true, mem_range] at hraises
    exact hraises rank (by omega)
  | result | advance | work | forward => exact hstep

end Check

/-- Two workers, of which one raises on request 0. -/
def twoWorkers (raising : ℕ) (useAsyncScheduling : Bool) : ExecutorConfig Unit ℕ ℕ where
  worldSize := 2
  useAsyncScheduling := useAsyncScheduling
  func rank _ request :=
    (if request = 0 ∧ rank = raising then .error "no such adapter" else .ok (10 * request + rank), ())

/-- A call that all ranks reply to, or one of them. -/
def plainCall (request : ℕ) (outputRank : Option ℕ) (nonBlock : Bool) : RpcCall ℕ ℕ (RpcReplies ℕ) where
  request := request
  outputRank := outputRank
  nonBlock := nonBlock
  aggregate := .ok

/-- A future that one rank replies to and one that all reply to, which fails on the last rank, then a
blocking call; the futures are asked for their results in the other order. -/
def mixedSteps : List (ExecutorStep ℕ ℕ (RpcReplies ℕ)) :=
  [.collectiveRpc (plainCall 1 (some 1) true), .work 1, .collectiveRpc (plainCall 0 none true), .work 0, .work 0,
    .collectiveRpc (plainCall 2 none false), .forward 0, .forward 1, .work 0, .work 1, .advance, .advance, .advance,
    .advance, .work 1, .forward 0, .forward 1, .advance, .forward 1, .advance, .advance, .advance, .advance, .advance,
    .result 1, .advance, .result 0, .advance]

theorem matched_of_reaches_mixedSteps : ∃ s : MultiprocExecutor Unit ℕ ℕ (RpcReplies ℕ),
    s.results 0 = some (.ok (.one 11)) ∧ s.results 2 = some (.ok (.all [20, 21])) ∧
      Matched (twoWorkers 1 true) (fun _ => ()) s := by
  have hrun : (runChecked (run (twoWorkers 1 true)) (checkAllowed (twoWorkers 1 true) fun _ => ()) mixedSteps
      (new fun _ => ())).map (fun s => (s.results 0, s.results 2)) =
        some (some (.ok (.one 11)), some (.ok (.all [20, 21]))) := by
    decide +kernel
  obtain ⟨s, hs, heq⟩ := Option.map_eq_some_iff.mp hrun
  obtain ⟨hfirst, hlast⟩ := Prod.mk.inj heq
  exact ⟨s, hfirst, hlast, matched_of_reaches (Reaches.of_runChecked allowed_of_check .start hs)⟩

/-- Two blocking calls that all ranks reply to; rank 0 raises in the first one. -/
def failingSteps : List (ExecutorStep ℕ ℕ (RpcReplies ℕ)) :=
  [.collectiveRpc (plainCall 0 none false), .work 0, .work 1, .advance, .advance,
    .collectiveRpc (plainCall 1 none false), .work 0, .work 1, .advance, .advance, .advance, .advance]

/-- The second call returns the reply of rank 1 to the first one. -/
theorem failingSteps_not_matched : ∃ s : MultiprocExecutor Unit ℕ ℕ (RpcReplies ℕ),
    Reaches (run (twoWorkers 0 false)) (Possible (twoWorkers 0 false)) (new fun _ => ()) s ∧
      s.results 1 = some (.ok (.all [10, 1])) ∧ ¬Matched (twoWorkers 0 false) (fun _ => ()) s := by
  have hrun : (runChecked (run (twoWorkers 0 false)) (checkPossible (twoWorkers 0 false)) failingSteps
      (new fun _ => ())).map (fun s => (s.results 1, (s.calls[1]?).map fun call =>
        call.outcomeOf (twoWorkers 0 false) (fun _ => ()) (s.calls.take 1))) =
        some (some (.ok (.all [10, 1])), some (.ok (.all [10, 11]))) := by
    decide +kernel
  obtain ⟨s, hs, heq⟩ := Option.map_eq_some_iff.mp hrun
  obtain ⟨hresult, hexpected⟩ := Prod.mk.inj heq
  refine ⟨s, Reaches.of_runChecked possible_of_check .start hs, hresult, ?_⟩
  intro hmatched
  obtain ⟨call, hget, houtcome⟩ := hmatched.outcome 1 _ hresult
  rw [hget, Option.map_some, ← houtcome] at hexpected
  simp at hexpected

end MultiprocExecutor

end VllmRuntime
