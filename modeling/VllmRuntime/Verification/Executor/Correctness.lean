import VllmRuntime.Verification.Executor.Replies

/-! Every call of `collective_rpc` gets the replies to it, as long as no rank before the last one raises in a
call that all ranks reply to. -/

namespace VllmRuntime

open List Function

variable {ω κ ρ β : Type}

namespace ExecutorThread

/-- The call whose replies are collected. -/
def current : ExecutorThread κ ρ β → List (PendingCall κ ρ β)
  | .collecting pending _ _ _ => [pending]
  | _ => []

/-- The current call, if this rank was not asked yet. -/
def currentOf (rank : ℕ) : ExecutorThread κ ρ β → List (PendingCall κ ρ β)
  | .collecting pending ranks _ _ => if rank ∈ ranks then [pending] else []
  | _ => []

def goal : ExecutorThread κ ρ β → Option (DrainGoal κ ρ β)
  | .idle => none
  | .draining goal => some goal
  | .collecting _ _ _ goal => goal

/-- The blocking call that waits for its turn. -/
def own (thread : ExecutorThread κ ρ β) : List (PendingCall κ ρ β) :=
  match thread.goal with
  | some (.blocking own) => [own]
  | _ => []

end ExecutorThread

namespace MultiprocExecutor

/-- The calls after the current one. -/
def later (s : MultiprocExecutor ω κ ρ β) : List (PendingCall κ ρ β) := s.futuresQueue ++ s.thread.own

/-- The calls that have not returned, in the order in which they were made. -/
def unfinished (s : MultiprocExecutor ω κ ρ β) : List (PendingCall κ ρ β) := s.thread.current ++ s.later

/-- The calls that a rank has still to answer, or whose answer was not read. -/
def owes (s : MultiprocExecutor ω κ ρ β) (rank : ℕ) : List (PendingCall κ ρ β) :=
  s.thread.currentOf rank ++ s.later.filter (·.call.message.Expects rank)

lemma mem_unfinished_of_mem_owes {s : MultiprocExecutor ω κ ρ β} {rank : ℕ} {pending : PendingCall κ ρ β}
    (h : pending ∈ s.owes rank) : pending ∈ s.unfinished := by
  rcases mem_append.1 h with h | h
  · refine mem_append_left _ ?_
    cases hthread : s.thread with
    | idle => simp [ExecutorThread.currentOf, hthread] at h
    | draining goal => simp [ExecutorThread.currentOf, hthread] at h
    | collecting current ranks responses goal =>
      rw [hthread] at h
      simp only [ExecutorThread.currentOf] at h
      split at h
      · exact h
      · cases h
  · exact mem_append_right _ (mem_filter.1 h).1

section Invariant

variable (config : ExecutorConfig ω κ ρ) (start : ℕ → ω)

/-- What a rank replies to a pending call. -/
def replyOf (s : MultiprocExecutor ω κ ρ β) (rank : ℕ) (pending : PendingCall κ ρ β) : Except String ρ :=
  pending.call.replyTo config start (s.calls.take pending.number) rank

/-- The calls that may be made: on ranks that exist, and no rank but the last one raises. -/
structure Fits (earlier : List (RpcCall κ ρ β)) (call : RpcCall κ ρ β) : Prop where
  rank_lt : ∀ rank, call.outputRank = some rank → rank < config.worldSize
  raisesLast : call.RaisesLast config start earlier

/-- The first calls have returned what they should, and what is to come from the queues of the workers is
what the other calls wait for. -/
structure Inv (s : MultiprocExecutor ω κ ρ β) (finished : ℕ) : Prop where
  unfinished_eq : s.unfinished = pendingFrom finished (s.calls.drop finished)
  finished_le : finished ≤ s.calls.length
  results_eq : ∀ k < finished, ∀ call, s.calls[k]? = some call →
    s.results k = some (call.outcomeOf config start (s.calls.take k))
  results_none : ∀ k, finished ≤ k → s.results k = none
  future_lt : ∀ future, s.thread.goal = some (.result future) → future < s.calls.length
  taken : ∀ pending ranks responses goal, s.thread = .collecting pending ranks responses goal →
    ∃ taken, pending.call.responseMqs config.worldSize = taken ++ ranks ∧
      taken.mapM (fun rank => (s.replyOf config start rank pending).mapError workerFailed) = .ok responses
  async_nil : config.useAsyncScheduling = false → ∀ rank, (s.workers rank).asyncOutputQueue = []
  toCome_eq : ∀ rank < config.worldSize, (s.workers rank).toCome (config.func rank) rank =
    (s.owes rank).map fun pending => .ofOutput (s.replyOf config start rank pending)
  finalWorker_eq : ∀ rank < config.worldSize, (s.workers rank).finalWorker (config.func rank) =
    workerAfter (config.func rank) (start rank) (s.calls.map (·.request))
  fits : ∀ k call, s.calls[k]? = some call → Fits config start (s.calls.take k) call
  nonBlock : ∀ pending ∈ s.futuresQueue, pending.call.nonBlock = true

end Invariant

variable {config : ExecutorConfig ω κ ρ} {start : ℕ → ω} {s : MultiprocExecutor ω κ ρ β} {finished : ℕ}

lemma inv_new (config : ExecutorConfig ω κ ρ) (start : ℕ → ω) :
    Inv config start (new start : MultiprocExecutor ω κ ρ β) 0 := by
  refine ⟨rfl, le_rfl, ?_, fun _ _ => rfl, ?_, ?_, fun _ _ => rfl, fun _ _ => rfl, fun _ _ => rfl, ?_, ?_⟩
  · intro k hk
    exact absurd hk (Nat.not_lt_zero k)
  · intro future h
    cases h
  · intro _ _ _ _ h
    cases h
  · intro k call h
    cases h
  · intro pending h
    cases h

namespace Inv

variable {pending : PendingCall κ ρ β} {rank future : ℕ} {futuresQueue : List (PendingCall κ ρ β)}
  {goal : Option (DrainGoal κ ρ β)}

section

variable (h : Inv config start s finished)
include h

lemma number_lt (hp : pending ∈ s.unfinished) :
    pending.number < s.calls.length := by
  rw [h.unfinished_eq] at hp
  have hlt := number_lt_of_mem_pendingFrom hp
  have hle := h.finished_le
  rw [length_drop] at hlt
  omega

/-- The call whose replies are collected is the first that has not returned. -/
lemma current_eq {rest : List (PendingCall κ ρ β)}
    (hunfinished : s.unfinished = pending :: rest) :
    pending.number = finished ∧ s.calls[finished]? = some pending.call ∧
      rest = pendingFrom (finished + 1) (s.calls.drop (finished + 1)) :=
  eq_of_cons_eq_pendingFrom (hunfinished.symm.trans h.unfinished_eq)

/-! ## Workers -/

/-- A step of a worker that changes nothing of what is to come. -/
lemma setWorker {proc : WorkerProc ω κ ρ}
    (hasync : config.useAsyncScheduling = false → proc.asyncOutputQueue = [])
    (htoCome : proc.toCome (config.func rank) rank = (s.workers rank).toCome (config.func rank) rank)
    (hfinal : proc.finalWorker (config.func rank) = (s.workers rank).finalWorker (config.func rank)) :
    Inv config start { s with workers := update s.workers rank proc } finished := by
  refine ⟨h.unfinished_eq, h.finished_le, h.results_eq, h.results_none, h.future_lt, h.taken, ?_, ?_, ?_, h.fits,
    h.nonBlock⟩
  · intro huse rank'
    by_cases hrank : rank' = rank
    · subst hrank
      simpa using hasync huse
    · simpa [hrank] using h.async_nil huse rank'
  · intro rank' hlt
    have hold := h.toCome_eq rank' hlt
    by_cases hrank : rank' = rank
    · subst hrank
      simp only [update_self]
      exact htoCome.trans hold
    · simp only [update_of_ne hrank]
      exact hold
  · intro rank' hlt
    have hold := h.finalWorker_eq rank' hlt
    by_cases hrank : rank' = rank
    · subst hrank
      simp only [update_self]
      exact hfinal.trans hold
    · simp only [update_of_ne hrank]
      exact hold

lemma work (rank : ℕ) :
    Inv config start
      { s with
        workers := update s.workers rank
          ((s.workers rank).workerBusyLoop (config.func rank) rank config.useAsyncScheduling) } finished := by
  refine h.setWorker ?_ ?_ ?_
  · intro huse
    rw [huse]
    exact WorkerProc.asyncOutputQueue_workerBusyLoop _ rank (h.async_nil huse rank)
  · exact WorkerProc.toCome_workerBusyLoop _ rank fun huse => h.async_nil huse rank
  · exact WorkerProc.finalWorker_workerBusyLoop _ rank _ _

lemma forward (rank : ℕ) :
    Inv config start
      { s with workers := update s.workers rank (s.workers rank).asyncOutputBusyLoop } finished := by
  refine h.setWorker ?_ ?_ ?_
  · intro huse
    exact WorkerProc.asyncOutputQueue_asyncOutputBusyLoop (h.async_nil huse rank)
  · exact WorkerProc.toCome_asyncOutputBusyLoop _ rank _
  · exact WorkerProc.finalWorker_asyncOutputBusyLoop _ _

end

/-! ## Calls -/

/-- A new call is the last one that has not returned, whether it blocks or not. -/
lemma unfinished_collectiveRpc (hidle : s.thread = .idle) (call : RpcCall κ ρ β) :
    (s.collectiveRpc call).later = s.later ++ [⟨s.calls.length, call⟩] ∧
      (s.collectiveRpc call).thread.current = [] ∧
      (∀ rank, (s.collectiveRpc call).thread.currentOf rank = []) := by
  unfold collectiveRpc
  cases call.nonBlock with
  | true | false => simp [later, hidle, ExecutorThread.own, ExecutorThread.goal, ExecutorThread.current,
      ExecutorThread.currentOf]

lemma collectiveRpc_calls (call : RpcCall κ ρ β) : (s.collectiveRpc call).calls = s.calls ++ [call] := by
  unfold MultiprocExecutor.collectiveRpc
  cases call.nonBlock <;> rfl

lemma collectiveRpc_workers (call : RpcCall κ ρ β) (rank : ℕ) :
    (s.collectiveRpc call).workers rank =
      { s.workers rank with rpcBroadcastMq := (s.workers rank).rpcBroadcastMq ++ [call.message] } := by
  unfold MultiprocExecutor.collectiveRpc
  cases call.nonBlock <;> rfl

lemma collectiveRpc_results (call : RpcCall κ ρ β) : (s.collectiveRpc call).results = s.results := by
  unfold MultiprocExecutor.collectiveRpc
  cases call.nonBlock <;> rfl

lemma collectiveRpc_goal (hidle : s.thread = .idle) (call : RpcCall κ ρ β) (future : ℕ) :
    (s.collectiveRpc call).thread.goal ≠ some (.result future) := by
  unfold MultiprocExecutor.collectiveRpc
  cases call.nonBlock with
  | true => simp [hidle, ExecutorThread.goal]
  | false => simp [ExecutorThread.goal]

lemma take_append_call {calls : List (RpcCall κ ρ β)} {k : ℕ} (hk : k ≤ calls.length) (call : RpcCall κ ρ β) :
    (calls ++ [call]).take k = calls.take k :=
  take_append_of_le_length hk

lemma collectiveRpc (h : Inv config start s finished) (hidle : s.thread = .idle) {call : RpcCall κ ρ β}
    (hfits : Fits config start s.calls call) : Inv config start (s.collectiveRpc call) finished := by
  obtain ⟨hlater, hcurrent, hcurrentOf⟩ := unfinished_collectiveRpc hidle call
  have hcalls : (s.collectiveRpc call).calls = s.calls ++ [call] := collectiveRpc_calls call
  have hold (k : ℕ) (old : RpcCall κ ρ β) (hget : s.calls[k]? = some old) :
      (s.calls ++ [call])[k]? = some old ∧ (s.calls ++ [call]).take k = s.calls.take k := by
    have hlt : k < s.calls.length := lt_of_getElem? hget
    exact ⟨(getElem?_append_left hlt).trans hget, take_append_call hlt.le call⟩
  have hcases (k : ℕ) (c : RpcCall κ ρ β) (hget : (s.calls ++ [call])[k]? = some c) :
      s.calls[k]? = some c ∨ (k = s.calls.length ∧ c = call) := by
    by_cases hlt : k < s.calls.length
    · rw [getElem?_append_left hlt] at hget
      exact .inl hget
    · rw [getElem?_append_right (by omega)] at hget
      obtain ⟨hk, hc⟩ := List.getElem?_eq_some_iff.1 hget
      rw [length_singleton] at hk
      have hzero : k - s.calls.length = 0 := by omega
      simp only [hzero, getElem_cons_zero] at hc
      exact .inr ⟨by omega, hc.symm⟩
  have hreply (rank : ℕ) (pending : PendingCall κ ρ β) (hlt : pending.number < s.calls.length) :
      (s.collectiveRpc call).replyOf config start rank pending = s.replyOf config start rank pending := by
    rw [replyOf, hcalls, take_append_call hlt.le, replyOf]
  refine ⟨?_, ?_, ?_, ?_, ?_, ?_, ?_, ?_, ?_, ?_, ?_⟩
  · have hunfinished : s.unfinished = s.later := by
      rw [MultiprocExecutor.unfinished, hidle]
      rfl
    rw [MultiprocExecutor.unfinished, hcurrent, hlater, nil_append, ← hunfinished, h.unfinished_eq, hcalls,
      drop_append_of_le_length h.finished_le, pendingFrom_append, length_drop]
    have hle := h.finished_le
    congr 4
    omega
  · rw [hcalls, length_append]
    exact h.finished_le.trans (Nat.le_add_right _ _)
  · intro k hk c hget
    rw [hcalls] at hget ⊢
    rcases hcases k c hget with hget | ⟨rfl, -⟩
    · rw [collectiveRpc_results, (hold k c hget).2]
      exact h.results_eq k hk c hget
    · exact absurd h.finished_le (Nat.not_le_of_lt hk)
  · intro k hk
    rw [collectiveRpc_results]
    exact h.results_none k hk
  · intro future hgoal
    exact absurd hgoal (collectiveRpc_goal hidle call future)
  · intro pending ranks responses goal hthread
    rw [hthread] at hcurrent
    cases hcurrent
  · intro huse rank
    rw [collectiveRpc_workers]
    exact h.async_nil huse rank
  · intro rank hrank
    have hcome := h.toCome_eq rank hrank
    have howes : s.owes rank = s.later.filter (·.call.message.Expects rank) := by
      rw [MultiprocExecutor.owes, hidle]
      rfl
    have hnew : (s.collectiveRpc call).replyOf config start rank ⟨s.calls.length, call⟩ =
        (config.func rank ((s.workers rank).finalWorker (config.func rank)) call.request).1 := by
      rw [replyOf, hcalls, h.finalWorker_eq rank hrank]
      simp [RpcCall.replyTo]
    have holdOwes : (s.owes rank).map (fun pending =>
        WorkerResponse.ofOutput ((s.collectiveRpc call).replyOf config start rank pending)) =
        (s.owes rank).map fun pending => .ofOutput (s.replyOf config start rank pending) := by
      refine map_congr_left ?_
      intro pending hp
      rw [hreply rank pending (h.number_lt (mem_unfinished_of_mem_owes hp))]
    rw [MultiprocExecutor.owes, hcurrentOf, hlater, nil_append, filter_append, ← howes, map_append,
      holdOwes, ← hcome, collectiveRpc_workers]
    simp only [WorkerProc.toCome, answers_append, map_append, append_assoc]
    congr 3
    by_cases hexpects : call.message.Expects rank
    · simp only [hexpects, if_true, map_cons, map_nil, filter_cons, decide_true, filter_nil, hnew]
      rfl
    · simp [hexpects]
  · intro rank hrank
    rw [collectiveRpc_workers, hcalls, map_append, map_cons, map_nil, workerAfter_append,
      ← h.finalWorker_eq rank hrank]
    simp only [WorkerProc.finalWorker, map_append, map_cons, map_nil, workerAfter_append]
    rfl
  · intro k c hget
    rw [hcalls] at hget ⊢
    rcases hcases k c hget with hget | ⟨rfl, rfl⟩
    · rw [(hold k c hget).2]
      exact h.fits k c hget
    · rw [take_append_call le_rfl, take_length]
      exact hfits
  · intro pending hp
    unfold MultiprocExecutor.collectiveRpc at hp
    cases hblock : call.nonBlock with
    | true =>
      simp only [hblock, if_true, mem_append, mem_singleton] at hp
      rcases hp with hp | rfl
      · exact h.nonBlock pending hp
      · exact hblock
    | false =>
      simp only [hblock, Bool.false_eq_true, if_false] at hp
      exact h.nonBlock pending hp

/-! ## The thread -/

/-- The thread does something else, with the same calls pending in the same order. -/
lemma setThread (h : Inv config start s finished) {thread : ExecutorThread κ ρ β}
    (hunfinished : thread.current ++ (futuresQueue ++ thread.own) = s.unfinished)
    (hfuture : ∀ future, thread.goal = some (.result future) → future < s.calls.length)
    (htaken : ∀ pending ranks responses goal, thread = .collecting pending ranks responses goal →
      ∃ taken, pending.call.responseMqs config.worldSize = taken ++ ranks ∧
        taken.mapM (fun rank => (s.replyOf config start rank pending).mapError workerFailed) = .ok responses)
    (howes : ∀ rank < config.worldSize, thread.currentOf rank ++
      (futuresQueue ++ thread.own).filter (·.call.message.Expects rank) = s.owes rank)
    (hsub : futuresQueue ⊆ s.futuresQueue) : Inv config start { s with thread, futuresQueue } finished := by
  refine ⟨hunfinished.trans h.unfinished_eq, h.finished_le, h.results_eq, h.results_none, hfuture, htaken,
    h.async_nil, ?_, h.finalWorker_eq, h.fits, fun pending hp => h.nonBlock pending (hsub hp)⟩
  intro rank hrank
  have hcome := h.toCome_eq rank hrank
  rw [← howes rank hrank] at hcome
  exact hcome

/-- A call that all ranks reply to or one rank does: what is owed to it before its replies are collected. -/
lemma currentOf_collect (pending : PendingCall κ ρ β) (hrank : rank < config.worldSize)
    (goal : Option (DrainGoal κ ρ β)) :
    (ExecutorThread.collecting pending (pending.call.responseMqs config.worldSize) [] goal).currentOf rank =
      [pending].filter (·.call.message.Expects rank) := by
  simp only [ExecutorThread.currentOf, RpcCall.mem_responseMqs hrank, filter_cons, filter_nil,
    decide_eq_true_eq]

lemma taken_collect (pending' : PendingCall κ ρ β) (ranks : List ℕ) (responses : List ρ)
    (goal' : Option (DrainGoal κ ρ β))
    (hthread : ExecutorThread.collecting pending (pending.call.responseMqs config.worldSize) [] goal =
      .collecting pending' ranks responses goal') :
    ∃ taken, pending'.call.responseMqs config.worldSize = taken ++ ranks ∧
      taken.mapM (fun rank => (s.replyOf config start rank pending').mapError workerFailed) = .ok responses := by
  obtain ⟨rfl, rfl, rfl, rfl⟩ := ExecutorThread.collecting.inj hthread
  exact ⟨[], rfl, rfl⟩

/-- The oldest future is taken from the queue. -/
lemma collectFuture (h : Inv config start s finished) {goal : DrainGoal κ ρ β}
    (hthread : s.thread = .draining goal) (hqueue : s.futuresQueue = pending :: futuresQueue) :
    Inv config start ({ s with futuresQueue }.collect config pending (some goal)) finished := by
  have hown : (ExecutorThread.collecting pending (pending.call.responseMqs config.worldSize) []
      (some goal)).own = s.thread.own := by
    rw [hthread]
    rfl
  refine h.setThread ?_ ?_ taken_collect ?_ (hqueue ▸ subset_cons_self _ _)
  · rw [hown, MultiprocExecutor.unfinished, later, hqueue, hthread]
    rfl
  · intro future hgoal
    refine h.future_lt future ?_
    rw [hthread]
    exact hgoal
  · intro rank hrank
    rw [currentOf_collect pending hrank, hown, MultiprocExecutor.owes, later, hqueue, hthread, ← filter_append]
    rfl

/-- A blocking call starts to read its own replies. -/
lemma collectOwn (h : Inv config start s finished) {own : PendingCall κ ρ β}
    (hthread : s.thread = .draining (.blocking own)) (hqueue : s.futuresQueue = []) :
    Inv config start (s.collect config own none) finished := by
  have hsame : s.collect config own none =
      { s with
        thread := .collecting own (own.call.responseMqs config.worldSize) [] none
        futuresQueue := [] } := by
    rw [← hqueue]
    rfl
  rw [hsame]
  refine h.setThread ?_ ?_ taken_collect ?_ (nil_subset _)
  · rw [MultiprocExecutor.unfinished, later, hqueue, hthread]
    rfl
  · intro future hgoal
    cases hgoal
  · intro rank hrank
    rw [currentOf_collect own hrank, MultiprocExecutor.owes, later, hqueue, hthread]
    simp [ExecutorThread.own, ExecutorThread.goal, ExecutorThread.currentOf]

/-- A call returns, with the queues of the workers such that nothing is owed to it any more. -/
lemma finish (h : Inv config start s finished) {outcome : Except PyError β} {workers : ℕ → WorkerProc ω κ ρ}
    (hunfinished : s.unfinished = pending :: s.later) (hgoal : s.thread.goal = goal)
    (houtcome : outcome = pending.call.outcomeOf config start (s.calls.take finished))
    (hasync : config.useAsyncScheduling = false → ∀ rank, (workers rank).asyncOutputQueue = [])
    (hcome : ∀ rank < config.worldSize, (workers rank).toCome (config.func rank) rank =
      (s.later.filter (·.call.message.Expects rank)).map fun pending =>
        .ofOutput (s.replyOf config start rank pending))
    (hfinal : ∀ rank < config.worldSize, (workers rank).finalWorker (config.func rank) =
      (s.workers rank).finalWorker (config.func rank)) :
    Inv config start ({ s with workers }.finish pending.number outcome goal) (finished + 1) := by
  obtain ⟨hnumber, hcall, hrest⟩ := h.current_eq hunfinished
  have hresults : ({ s with workers }.finish pending.number outcome goal).results =
      update s.results finished (some outcome) := by
    simp [MultiprocExecutor.finish, hnumber, h.results_none finished le_rfl]
  have hlater : ({ s with workers }.finish pending.number outcome goal).later = s.later := by
    subst hgoal
    unfold MultiprocExecutor.later MultiprocExecutor.finish ExecutorThread.own
    cases hg : s.thread.goal with
    | none => rfl
    | some g => simp [ExecutorThread.goal]
  have hcurrent : ({ s with workers }.finish pending.number outcome goal).thread.current = [] := by
    unfold MultiprocExecutor.finish
    cases goal <;> rfl
  have hcurrentOf (rank : ℕ) :
      ({ s with workers }.finish pending.number outcome goal).thread.currentOf rank = [] := by
    unfold MultiprocExecutor.finish
    cases goal <;> rfl
  have hlt : finished < s.calls.length := lt_of_getElem? hcall
  refine ⟨?_, hlt, ?_, ?_, ?_, ?_, hasync, ?_, ?_, h.fits, h.nonBlock⟩
  · rw [MultiprocExecutor.unfinished, hcurrent, hlater, nil_append]
    exact hrest
  · intro k hk call hget
    rw [hresults]
    by_cases hkf : k = finished
    · subst hkf
      cases hcall.symm.trans hget
      rw [update_self, houtcome]
      rfl
    · rw [update_of_ne hkf]
      exact h.results_eq k (by omega) call hget
  · intro k hk
    rw [hresults, update_of_ne (by omega)]
    exact h.results_none k (by omega)
  · intro future hfuture
    refine h.future_lt future ?_
    rw [hgoal]
    unfold MultiprocExecutor.finish at hfuture
    cases goal with
    | none => cases hfuture
    | some g => exact hfuture
  · intro pending' ranks responses goal' hthread
    rw [hthread] at hcurrent
    cases hcurrent
  · intro rank hrank
    rw [MultiprocExecutor.owes, hcurrentOf, hlater]
    exact hcome rank hrank
  · intro rank hrank
    exact (hfinal rank hrank).trans (h.finalWorker_eq rank hrank)

/-! ## Replies -/

section Replies

variable {pending : PendingCall κ ρ β} {rank : ℕ} {ranks : List ℕ} {responses : List ρ}
  {goal : Option (DrainGoal κ ρ β)} {response : WorkerResponse ρ} {responseMq : List (WorkerResponse ρ)}

lemma unfinished_collecting (hthread : s.thread = .collecting pending ranks responses goal) :
    s.unfinished = pending :: s.later := by
  rw [MultiprocExecutor.unfinished, hthread]
  rfl

section

variable (h : Inv config start s finished)
include h

lemma replyOf_current (hthread : s.thread = .collecting pending ranks responses goal) (rank : ℕ) :
    s.replyOf config start rank pending =
      pending.call.replyTo config start (s.calls.take finished) rank := by
  rw [replyOf, (h.current_eq (unfinished_collecting hthread)).1]

/-- The ranks that are left: they exist, none is there twice, and this one was not asked before. -/
lemma rank_lt (hthread : s.thread = .collecting pending (rank :: ranks) responses goal) :
    rank < config.worldSize ∧ rank ∉ ranks := by
  obtain ⟨taken, hsplit, -⟩ := h.taken _ _ _ _ hthread
  obtain ⟨-, hcall, -⟩ := h.current_eq (unfinished_collecting hthread)
  have hnodup := pending.call.nodup_responseMqs config.worldSize
  have hmem : rank ∈ pending.call.responseMqs config.worldSize := by
    rw [hsplit]
    exact mem_append_right _ mem_cons_self
  rw [hsplit] at hnodup
  refine ⟨?_, (nodup_cons.1 (nodup_append.1 hnodup).2.1).1⟩
  cases hout : pending.call.outputRank with
  | none => simpa [RpcCall.responseMqs, hout] using hmem
  | some out =>
    have heq : rank = out := by simpa [RpcCall.responseMqs, hout] using hmem
    rw [heq]
    exact (h.fits finished pending.call hcall).rank_lt out hout

/-- The first reply in the queue of a rank is its reply to the call, and the others are owed to later
calls. -/
lemma dequeue (hthread : s.thread = .collecting pending (rank :: ranks) responses goal)
    (hmq : (s.workers rank).responseMq = response :: responseMq) :
    response = .ofOutput (s.replyOf config start rank pending) ∧
      WorkerProc.toCome (config.func rank) rank { s.workers rank with responseMq } =
        (s.later.filter (·.call.message.Expects rank)).map fun pending =>
          .ofOutput (s.replyOf config start rank pending) := by
  have hcome := h.toCome_eq rank (h.rank_lt hthread).1
  have howes : s.owes rank = pending :: s.later.filter (·.call.message.Expects rank) := by
    rw [MultiprocExecutor.owes, hthread]
    simp [ExecutorThread.currentOf]
  rw [howes, WorkerProc.toCome, hmq, cons_append, map_cons] at hcome
  exact cons.inj hcome

lemma toCome_other (hthread : s.thread = .collecting pending (rank :: ranks) responses goal) {rank' : ℕ}
    (hrank : rank' < config.worldSize) (hne : rank' ≠ rank) :
    (s.workers rank').toCome (config.func rank') rank' =
      ((if rank' ∈ ranks then [pending] else []) ++
        s.later.filter (·.call.message.Expects rank')).map fun pending =>
          .ofOutput (s.replyOf config start rank' pending) := by
  have hcome := h.toCome_eq rank' hrank
  rw [MultiprocExecutor.owes, hthread] at hcome
  simpa [ExecutorThread.currentOf, hne] using hcome

end

lemma finalWorker_setResponseMq (rank' : ℕ) :
    ((s.setResponseMq rank responseMq).workers rank').finalWorker (config.func rank') =
      (s.workers rank').finalWorker (config.func rank') := by
  by_cases hne : rank' = rank
  · subst hne
    simp only [setResponseMq, update_self]
    rfl
  · simp only [setResponseMq, update_of_ne hne]

lemma asyncOutputQueue_setResponseMq (rank' : ℕ) :
    ((s.setResponseMq rank responseMq).workers rank').asyncOutputQueue = (s.workers rank').asyncOutputQueue := by
  by_cases hne : rank' = rank
  · subst hne
    simp only [setResponseMq, update_self]
  · simp only [setResponseMq, update_of_ne hne]

/-- A reply of a worker that did not raise. -/
lemma dequeueSuccess (h : Inv config start s finished) {output : ρ}
    (hthread : s.thread = .collecting pending (rank :: ranks) responses goal)
    (hmq : (s.workers rank).responseMq = .success output :: responseMq) :
    Inv config start
      { s.setResponseMq rank responseMq with
        thread := .collecting pending ranks (responses ++ [output]) goal } finished := by
  obtain ⟨hresponse, hcome⟩ := h.dequeue hthread hmq
  obtain ⟨hrank, hnot⟩ := h.rank_lt hthread
  obtain ⟨taken, hsplit, hresponses⟩ := h.taken _ _ _ _ hthread
  have hreply : s.replyOf config start rank pending = .ok output := by
    cases hreply : s.replyOf config start rank pending with
    | error message =>
      rw [hreply] at hresponse
      cases hresponse
    | ok output' =>
      rw [hreply] at hresponse
      obtain rfl := WorkerResponse.success.inj hresponse
      rfl
  have hown : (ExecutorThread.collecting pending ranks (responses ++ [output]) goal).own = s.thread.own := by
    rw [hthread]
    rfl
  refine ⟨?_, h.finished_le, h.results_eq, h.results_none, ?_, ?_, ?_, ?_, ?_, h.fits, h.nonBlock⟩
  · refine Eq.trans ?_ ((unfinished_collecting hthread).symm.trans h.unfinished_eq)
    simp only [MultiprocExecutor.unfinished, later, hown, ExecutorThread.current]
    rfl
  · intro future hgoal
    refine h.future_lt future ?_
    rw [hthread]
    exact hgoal
  · intro pending' ranks' responses' goal' heq
    obtain ⟨rfl, rfl, rfl, rfl⟩ := ExecutorThread.collecting.inj heq
    refine ⟨taken ++ [rank], by simp [hsplit], ?_⟩
    have hreply' : ({ s.setResponseMq rank responseMq with
        thread := ExecutorThread.collecting pending ranks (responses ++ [output]) goal } :
          MultiprocExecutor ω κ ρ β).replyOf config start = s.replyOf config start := rfl
    rw [hreply', mapM_append, hresponses]
    simp only [mapM_cons, mapM_nil, hreply]
    rfl
  · intro huse rank'
    exact (asyncOutputQueue_setResponseMq rank').trans (h.async_nil huse rank')
  · intro rank' hrank'
    simp only [MultiprocExecutor.owes, later, hown, ExecutorThread.currentOf]
    by_cases hne : rank' = rank
    · subst hne
      rw [if_neg hnot, nil_append]
      simp only [setResponseMq, update_self]
      exact hcome
    · simp only [setResponseMq, update_of_ne hne]
      exact h.toCome_other hthread hrank' hne
  · intro rank' hrank'
    exact (finalWorker_setResponseMq rank').trans (h.finalWorker_eq rank' hrank')

lemma mapM_of_error {α : Type} {f : α → Except PyError ρ} {taken rest : List α} {a : α} {outputs : List ρ}
    {e : PyError} (htaken : taken.mapM f = .ok outputs) (ha : f a = .error e) :
    (taken ++ a :: rest).mapM f = .error e := by
  rw [mapM_append, htaken, mapM_cons, ha]
  rfl

/-- A reply of a worker that raised: it is that of the last rank, so that nothing is owed to the call. -/
lemma dequeueFailure (h : Inv config start s finished) {message : String}
    (hthread : s.thread = .collecting pending (rank :: ranks) responses goal)
    (hmq : (s.workers rank).responseMq = .failure message :: responseMq) :
    Inv config start
      ((s.setResponseMq rank responseMq).finish pending.number (.error (workerFailed message)) goal)
      (finished + 1) := by
  obtain ⟨hresponse, hcome⟩ := h.dequeue hthread hmq
  obtain ⟨hrank, hnot⟩ := h.rank_lt hthread
  obtain ⟨taken, hsplit, hresponses⟩ := h.taken _ _ _ _ hthread
  obtain ⟨-, hcall, -⟩ := h.current_eq (unfinished_collecting hthread)
  have hreply : s.replyOf config start rank pending = .error message := by
    cases hreply : s.replyOf config start rank pending with
    | error message' =>
      rw [hreply] at hresponse
      obtain rfl := WorkerResponse.failure.inj hresponse
      rfl
    | ok output =>
      rw [hreply] at hresponse
      cases hresponse
  have hlast : ranks = [] := by
    cases hout : pending.call.outputRank with
    | some out =>
      simp only [RpcCall.responseMqs, hout] at hsplit
      cases taken with
      | nil => exact (cons.inj hsplit).2.symm
      | cons _ taken => simp at hsplit
    | none =>
      simp only [RpcCall.responseMqs, hout] at hsplit
      have hlength := congrArg List.length hsplit
      have hget := congrArg (·[taken.length]?) hsplit
      rw [length_range, length_append, length_cons] at hlength
      simp only [getElem?_append_right le_rfl, Nat.sub_self, getElem?_cons_zero] at hget
      rw [getElem?_range (by omega)] at hget
      have htaken : taken.length = rank := Option.some.inj hget
      by_contra hne
      have hpos : 0 < ranks.length := length_pos_iff.2 hne
      have hok := (h.fits finished pending.call hcall).raisesLast hout rank (by omega)
      rw [← h.replyOf_current hthread, hreply] at hok
      cases hok
  subst hlast
  refine h.finish (unfinished_collecting hthread) (by rw [hthread]; rfl) ?_ ?_ ?_ ?_
  · have herror : (s.replyOf config start rank pending).mapError workerFailed =
        (.error (workerFailed message) : Except PyError ρ) := by
      rw [hreply]
      rfl
    simp only [h.replyOf_current hthread] at hresponses herror
    rw [RpcCall.outcomeOf, hsplit, mapM_of_error hresponses herror]
    rfl
  · intro huse rank'
    exact (asyncOutputQueue_setResponseMq rank').trans (h.async_nil huse rank')
  · intro rank' hrank'
    by_cases hne : rank' = rank
    · subst hne
      simp only [update_self]
      exact hcome
    · simp only [update_of_ne hne]
      have hother := h.toCome_other hthread hrank' hne
      simpa using hother
  · intro rank' _
    exact finalWorker_setResponseMq rank'

/-- All ranks have replied. -/
lemma finishReplies (h : Inv config start s finished) (hthread : s.thread = .collecting pending [] responses goal) :
    Inv config start (s.finish pending.number (pending.call.response responses >>= pending.call.aggregate) goal)
      (finished + 1) := by
  obtain ⟨taken, hsplit, hresponses⟩ := h.taken _ _ _ _ hthread
  rw [append_nil] at hsplit
  refine h.finish (unfinished_collecting hthread) (by rw [hthread]; rfl) ?_ h.async_nil ?_ fun _ _ => rfl
  · simp only [h.replyOf_current hthread] at hresponses
    rw [RpcCall.outcomeOf, hsplit, hresponses]
    rfl
  · intro rank hrank
    have hcome := h.toCome_eq rank hrank
    rw [MultiprocExecutor.owes, hthread] at hcome
    simpa [ExecutorThread.currentOf] using hcome

end Replies

/-! ## Steps -/

/-- A future that is waited for and not done is in the queue. -/
lemma exists_future (h : Inv config start s finished) (hthread : s.thread = .draining (.result future))
    (hresult : s.results future = none) :
    ∃ pending futuresQueue, s.futuresQueue = pending :: futuresQueue := by
  have hlt : future < s.calls.length := h.future_lt future (by rw [hthread]; rfl)
  have hle : finished ≤ future := by
    by_contra hlt'
    have hsome := h.results_eq future (by omega) s.calls[future] (getElem?_eq_getElem hlt)
    rw [hresult] at hsome
    cases hsome
  have hunfinished : s.unfinished = s.futuresQueue := by
    rw [MultiprocExecutor.unfinished, later, hthread]
    exact append_nil _
  rw [← hunfinished, h.unfinished_eq]
  cases hdrop : s.calls.drop finished with
  | nil =>
    have hlength := drop_eq_nil_iff.1 hdrop
    omega
  | cons call calls => exact ⟨_, _, rfl⟩

/-- The future is done. -/
lemma stopDraining (h : Inv config start s finished) (hthread : s.thread = .draining (.result future)) :
    Inv config start { s with thread := .idle } finished := by
  refine h.setThread ?_ ?_ ?_ ?_ (List.Subset.refl _)
  · rw [MultiprocExecutor.unfinished, later, hthread]
    rfl
  · intro future' hgoal
    cases hgoal
  · intro _ _ _ _ heq
    cases heq
  · intro rank _
    rw [MultiprocExecutor.owes, later, hthread]
    rfl

/-- The thread goes on without raising. -/
lemma advance (h : Inv config start s finished) :
    ∃ s' finished', s.advance config = .ok s' ∧ Inv config start s' finished' := by
  cases hthread : s.thread with
  | idle => exact ⟨s, finished, by simp only [MultiprocExecutor.advance, hthread], h⟩
  | draining goal =>
    cases goal with
    | result future =>
      cases hresult : s.results future with
      | some outcome =>
        refine ⟨_, finished, ?_, h.stopDraining hthread⟩
        simp only [MultiprocExecutor.advance, hthread, hresult, Option.isSome_some, if_true]
      | none =>
        obtain ⟨pending, futuresQueue, hqueue⟩ := h.exists_future hthread hresult
        refine ⟨_, finished, ?_, h.collectFuture hthread hqueue⟩
        simp only [MultiprocExecutor.advance, hthread, hresult, Option.isSome_none, Bool.false_eq_true,
          if_false, hqueue]
    | blocking own =>
      cases hqueue : s.futuresQueue with
      | nil =>
        refine ⟨_, finished, ?_, h.collectOwn hthread hqueue⟩
        simp only [MultiprocExecutor.advance, hthread, hqueue]
      | cons pending futuresQueue =>
        refine ⟨_, finished, ?_, h.collectFuture hthread hqueue⟩
        simp only [MultiprocExecutor.advance, hthread, hqueue]
  | collecting pending ranks responses goal =>
    cases ranks with
    | nil =>
      refine ⟨_, finished + 1, ?_, h.finishReplies hthread⟩
      simp only [MultiprocExecutor.advance, hthread]
    | cons rank ranks =>
      cases hmq : (s.workers rank).responseMq with
      | nil => exact ⟨s, finished, by simp only [MultiprocExecutor.advance, hthread, hmq], h⟩
      | cons response responseMq =>
        cases response with
        | success output =>
          refine ⟨_, finished, ?_, h.dequeueSuccess hthread hmq⟩
          simp only [MultiprocExecutor.advance, hthread, hmq]
        | failure message =>
          refine ⟨_, finished + 1, ?_, h.dequeueFailure hthread hmq⟩
          simp only [MultiprocExecutor.advance, hthread, hmq]

end Inv

section Runs

variable (config : ExecutorConfig ω κ ρ) (start : ℕ → ω)

/-- A call or `result` is made when the thread of the executor is free; calls fit, and `result` is that of a
future. -/
def Allowed (s : MultiprocExecutor ω κ ρ β) : ExecutorStep κ ρ β → Prop
  | .collectiveRpc call => s.thread = .idle ∧ Fits config start s.calls call
  | .result future => s.thread = .idle ∧ ∃ call, s.calls[future]? = some call ∧ call.nonBlock = true
  | .advance => True
  | .work rank | .forward rank => rank < config.worldSize

end Runs

lemma Inv.run (h : Inv config start s finished) {step : ExecutorStep κ ρ β} (hallowed : Allowed config start s step) :
    ∃ s' finished', run config step s = .ok s' ∧ Inv config start s' finished' := by
  cases step with
  | collectiveRpc call => exact ⟨_, finished, rfl, h.collectiveRpc hallowed.1 hallowed.2⟩
  | result future =>
    obtain ⟨hidle, call, hget, -⟩ := hallowed
    refine ⟨_, finished, rfl, h.setThread ?_ ?_ ?_ ?_ (List.Subset.refl _)⟩
    · rw [MultiprocExecutor.unfinished, later, hidle]
      rfl
    · intro future' hgoal
      obtain rfl : future = future' := by simpa [ExecutorThread.goal] using hgoal
      exact lt_of_getElem? hget
    · intro _ _ _ _ heq
      cases heq
    · intro rank _
      rw [MultiprocExecutor.owes, later, hidle]
      rfl
  | advance => exact h.advance
  | work rank => exact ⟨_, finished, rfl, h.work rank⟩
  | forward rank => exact ⟨_, finished, rfl, h.forward rank⟩

lemma inv_of_reaches (h : Reaches (run config) (Allowed config start) (new start) s) :
    ∃ finished, Inv config start s finished := by
  refine h.invariant (P := fun s => ∃ finished, Inv config start s finished) ⟨0, inv_new config start⟩ ?_
  rintro s step s' ⟨finished, hinv⟩ hallowed hrun
  obtain ⟨s'', finished', hrun', hinv'⟩ := hinv.run hallowed
  obtain rfl : s'' = s' := Except.ok.inj (hrun'.symm.trans hrun)
  exact ⟨finished', hinv'⟩

end MultiprocExecutor

end VllmRuntime
