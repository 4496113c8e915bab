import VllmRuntime.Model.MultiprocExecutor
import VllmRuntime.Shared.Runs

/-! What the calls of `collective_rpc` return, next to what the workers reply to them. -/

namespace VllmRuntime

open List

variable {ω κ ρ β : Type} {number : ℕ} {calls : List (RpcCall κ ρ β)} {pending : PendingCall κ ρ β}

/-! ## Workers -/

/-- The state of a worker after some requests. -/
def workerAfter (func : ω → κ → Except String ρ × ω) (worker : ω) (requests : List κ) : ω :=
  requests.foldl (fun worker request => (func worker request).2) worker

lemma workerAfter_append (func : ω → κ → Except String ρ × ω) (worker : ω) (requests : List κ) (request : κ) :
    workerAfter func worker (requests ++ [request]) = (func (workerAfter func worker requests) request).2 := by
  simp [workerAfter]

/-- Whether a rank replies to a message. -/
def RpcMessage.Expects (message : RpcMessage κ) (rank : ℕ) : Prop :=
  message.outputRank = none ∨ message.outputRank = some rank

instance (message : RpcMessage κ) (rank : ℕ) : Decidable (message.Expects rank) :=
  inferInstanceAs (Decidable (_ ∨ _))

/-- What a rank replies to the messages that it has not read. -/
def answers (func : ω → κ → Except String ρ × ω) (rank : ℕ) : ω → List (RpcMessage κ) → List (Except String ρ)
  | _, [] => []
  | worker, message :: messages =>
    (if message.Expects rank then [(func worker message.request).1] else []) ++
      answers func rank (func worker message.request).2 messages

lemma answers_append (func : ω → κ → Except String ρ × ω) (rank : ℕ) (worker : ω)
    (messages : List (RpcMessage κ)) (message : RpcMessage κ) :
    answers func rank worker (messages ++ [message]) = answers func rank worker messages ++
      if message.Expects rank then
        [(func (workerAfter func worker (messages.map (·.request))) message.request).1]
      else [] := by
  induction messages generalizing worker with
  | nil => simp [answers, workerAfter]
  | cons head messages ih =>
    simp only [cons_append, answers, ih, append_assoc, map_cons]
    rfl

namespace WorkerProc

variable {proc : WorkerProc ω κ ρ}

/-- What is read from the response queue of a worker if nothing else is asked: what is in it, what waits
in `asyncOutputQueue`, and the answers to the messages that were not read. -/
def toCome (func : ω → κ → Except String ρ × ω) (rank : ℕ) (proc : WorkerProc ω κ ρ) : List (WorkerResponse ρ) :=
  proc.responseMq ++
    (proc.asyncOutputQueue ++ answers func rank proc.worker proc.rpcBroadcastMq).map .ofOutput

lemma toCome_asyncOutputBusyLoop (func : ω → κ → Except String ρ × ω) (rank : ℕ) (proc : WorkerProc ω κ ρ) :
    proc.asyncOutputBusyLoop.toCome func rank = proc.toCome func rank := by
  unfold asyncOutputBusyLoop
  cases hqueue : proc.asyncOutputQueue with
  | nil => rfl
  | cons output outputs => simp [toCome, enqueueOutput, hqueue]

/-- A turn of the busy loop changes nothing of what is to come: the reply goes to the end of the queue that
comes first. -/
lemma toCome_workerBusyLoop (func : ω → κ → Except String ρ × ω) (rank : ℕ) {useAsyncScheduling : Bool}
    (hasync : useAsyncScheduling = false → proc.asyncOutputQueue = []) :
    (proc.workerBusyLoop func rank useAsyncScheduling).toCome func rank = proc.toCome func rank := by
  unfold workerBusyLoop
  cases hqueue : proc.rpcBroadcastMq with
  | nil => rfl
  | cons message messages =>
    dsimp only
    split
    · rename_i hexpects
      have hexpects' : message.Expects rank := hexpects
      cases huse : useAsyncScheduling with
      | true => simp [toCome, handleOutput, answers, hqueue, hexpects']
      | false => simp [toCome, handleOutput, enqueueOutput, answers, hqueue, hexpects', hasync huse]
    · rename_i hexpects
      have hexpects' : ¬message.Expects rank := hexpects
      simp [toCome, answers, hqueue, hexpects']

lemma asyncOutputQueue_workerBusyLoop (func : ω → κ → Except String ρ × ω) (rank : ℕ)
    (hasync : proc.asyncOutputQueue = []) :
    (proc.workerBusyLoop func rank false).asyncOutputQueue = [] := by
  unfold workerBusyLoop
  cases proc.rpcBroadcastMq with
  | nil => exact hasync
  | cons message messages =>
    dsimp only
    split
    · exact hasync
    · exact hasync

lemma asyncOutputQueue_asyncOutputBusyLoop (hasync : proc.asyncOutputQueue = []) :
    proc.asyncOutputBusyLoop.asyncOutputQueue = [] := by
  rw [asyncOutputBusyLoop, hasync]
  exact hasync

/-- The state of the worker after everything that it has been asked. -/
def finalWorker (func : ω → κ → Except String ρ × ω) (proc : WorkerProc ω κ ρ) : ω :=
  workerAfter func proc.worker (proc.rpcBroadcastMq.map (·.request))

lemma finalWorker_workerBusyLoop (func : ω → κ → Except String ρ × ω) (rank : ℕ) (useAsyncScheduling : Bool)
    (proc : WorkerProc ω κ ρ) :
    (proc.workerBusyLoop func rank useAsyncScheduling).finalWorker func = proc.finalWorker func := by
  unfold workerBusyLoop
  cases hqueue : proc.rpcBroadcastMq with
  | nil => rfl
  | cons message messages =>
    have hfinal : proc.finalWorker func =
        workerAfter func (func proc.worker message.request).2 (messages.map (·.request)) := by
      rw [finalWorker, hqueue]
      rfl
    rw [hfinal]
    dsimp only
    split
    · cases useAsyncScheduling <;> rfl
    · rfl

lemma finalWorker_asyncOutputBusyLoop (func : ω → κ → Except String ρ × ω) (proc : WorkerProc ω κ ρ) :
    proc.asyncOutputBusyLoop.finalWorker func = proc.finalWorker func := by
  unfold asyncOutputBusyLoop
  cases proc.asyncOutputQueue <;> rfl

end WorkerProc

/-! ## Calls -/

/-- Calls with their numbers, from a first number on. -/
def pendingFrom (number : ℕ) : List (RpcCall κ ρ β) → List (PendingCall κ ρ β)
  | [] => []
  | call :: calls => ⟨number, call⟩ :: pendingFrom (number + 1) calls

lemma pendingFrom_eq (number : ℕ) (calls : List (RpcCall κ ρ β)) :
    pendingFrom number calls = (calls.zipIdx number).map fun p => ⟨p.2, p.1⟩ := by
  induction calls generalizing number with
  | nil => rfl
  | cons head calls ih => rw [pendingFrom, ih, zipIdx_cons, map_cons]

lemma pendingFrom_append (number : ℕ) (calls : List (RpcCall κ ρ β)) (call : RpcCall κ ρ β) :
    pendingFrom number (calls ++ [call]) = pendingFrom number calls ++ [⟨number + calls.length, call⟩] := by
  simp [pendingFrom_eq, zipIdx_append]

lemma number_lt_of_mem_pendingFrom (h : pending ∈ pendingFrom number calls) :
    pending.number < number + calls.length := by
  rw [pendingFrom_eq] at h
  obtain ⟨p, hp, rfl⟩ := mem_map.mp h
  exact snd_lt_add_of_mem_zipIdx hp

/-- The first of the calls that are left, and the others. -/
lemma eq_of_cons_eq_pendingFrom {rest : List (PendingCall κ ρ β)}
    (h : pending :: rest = pendingFrom number (calls.drop number)) :
    pending.number = number ∧ calls[number]? = some pending.call ∧
      rest = pendingFrom (number + 1) (calls.drop (number + 1)) := by
  cases hdrop : calls.drop number with
  | nil =>
    rw [hdrop] at h
    cases h
  | cons call later =>
    rw [hdrop, pendingFrom] at h
    obtain ⟨rfl, rfl⟩ := List.cons.inj h
    have hget : calls[number]? = some call := by
      rw [← head?_drop, hdrop]
      rfl
    have hlater : calls.drop (number + 1) = later := by
      rw [← tail_drop, hdrop]
      rfl
    exact ⟨rfl, hget, by rw [hlater]⟩

namespace RpcCall

lemma nodup_responseMqs (call : RpcCall κ ρ β) (worldSize : ℕ) : (call.responseMqs worldSize).Nodup := by
  unfold responseMqs
  cases call.outputRank with
  | none => exact nodup_range
  | some rank => exact nodup_singleton rank

lemma mem_responseMqs {call : RpcCall κ ρ β} {worldSize rank : ℕ} (hrank : rank < worldSize) :
    rank ∈ call.responseMqs worldSize ↔ call.message.Expects rank := by
  unfold responseMqs RpcMessage.Expects
  cases hout : call.outputRank with
  | none => simp [hrank, message, hout]
  | some out => simp [message, hout, eq_comm]

section Outcome

variable (config : ExecutorConfig ω κ ρ) (start : ℕ → ω)

/-- What a rank replies to a call that is made after others. -/
def replyTo (earlier : List (RpcCall κ ρ β)) (call : RpcCall κ ρ β) (rank : ℕ) : Except String ρ :=
  (config.func rank (workerAfter (config.func rank) (start rank) (earlier.map (·.request))) call.request).1

/-- What a call returns or raises for the replies to it. -/
def outcomeOf (earlier : List (RpcCall κ ρ β)) (call : RpcCall κ ρ β) : Except PyError β := do
  let responses ← (call.responseMqs config.worldSize).mapM fun rank =>
    (call.replyTo config start earlier rank).mapError MultiprocExecutor.workerFailed
  call.response responses >>= call.aggregate

/-- If all ranks reply to the call, no rank but the last one raises. -/
def RaisesLast (earlier : List (RpcCall κ ρ β)) (call : RpcCall κ ρ β) : Prop :=
  call.outputRank = none → ∀ rank, rank + 1 < config.worldSize → (call.replyTo config start earlier rank).isOk

end Outcome

end RpcCall

end VllmRuntime
