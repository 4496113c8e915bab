import Mathlib.Logic.Function.Basic
import VllmRuntime.Model.Base

/-! # Calls of all workers

`vllm/v1/executor/multiproc_executor.py`: `collective_rpc` with its futures, and the busy loops of the
workers. The broadcast queue and the response queues are reliable and FIFO. Calls have no deadline, no
worker dies and nothing is shut down. -/

namespace VllmRuntime

open Function

/-- `ResponseStatus` with the result. -/
inductive WorkerResponse (ρ : Type) where
  | success (output : ρ)
  | failure (message : String)
  deriving DecidableEq, Repr

/-- A message of the broadcast queue: the method with its arguments, and `output_rank`. -/
structure RpcMessage (κ : Type) where
  request : κ
  outputRank : Option ℕ
  deriving DecidableEq, Repr

/-- What `get_response` returns: the reply of the output rank, or those of all ranks. -/
inductive RpcReplies (ρ : Type) where
  | one (output : ρ)
  | all (outputs : List ρ)
  deriving DecidableEq, Repr

/-- A call of `collective_rpc`. With a `kv_output_aggregator` all ranks reply, and `aggregate` is its method;
without one it is the identity. -/
structure RpcCall (κ ρ β : Type) where
  request : κ
  outputRank : Option ℕ
  nonBlock : Bool
  aggregate : RpcReplies ρ → Except PyError β

/-- A call that waits for its replies, with its number. -/
structure PendingCall (κ ρ β : Type) where
  number : ℕ
  call : RpcCall κ ρ β

section Worker

variable {ω κ ρ β : Type}

namespace RpcCall

def message (call : RpcCall κ ρ β) : RpcMessage κ := ⟨call.request, call.outputRank⟩

/-- The ranks whose queues are read, in this order. -/
def responseMqs (call : RpcCall κ ρ β) (worldSize : ℕ) : List ℕ :=
  match call.outputRank with
  | some rank => [rank]
  | none => List.range worldSize

/-- `responses[0] if output_rank is not None else responses`. -/
def response (call : RpcCall κ ρ β) (responses : List ρ) : Except PyError (RpcReplies ρ) :=
  match call.outputRank, responses with
  | none, _ => .ok (.all responses)
  | some _, output :: _ => .ok (.one output)
  | some _, [] => .error .indexError

end RpcCall

/-! ## Workers -/

/-- A worker process with its queues; `asyncOutputQueue` is used with asynchronous scheduling. -/
structure WorkerProc (ω κ ρ : Type) where
  worker : ω
  rpcBroadcastMq : List (RpcMessage κ) := []
  asyncOutputQueue : List (Except String ρ) := []
  responseMq : List (WorkerResponse ρ) := []

/-- What `enqueue_output` makes of an output; an exception is given by its text. -/
def WorkerResponse.ofOutput : Except String ρ → WorkerResponse ρ
  | .ok output => .success output
  | .error message => .failure message

namespace WorkerProc

/-- `enqueue_output`. -/
def enqueueOutput (proc : WorkerProc ω κ ρ) (output : Except String ρ) : WorkerProc ω κ ρ :=
  { proc with responseMq := proc.responseMq ++ [.ofOutput output] }

/-- `handle_output`. -/
def handleOutput (useAsyncScheduling : Bool) (proc : WorkerProc ω κ ρ) (output : Except String ρ) :
    WorkerProc ω κ ρ :=
  if useAsyncScheduling then { proc with asyncOutputQueue := proc.asyncOutputQueue ++ [output] }
  else proc.enqueueOutput output

/-- One turn of `async_output_busy_loop`. -/
def asyncOutputBusyLoop (proc : WorkerProc ω κ ρ) : WorkerProc ω κ ρ :=
  match proc.asyncOutputQueue with
  | [] => proc
  | output :: outputs => { proc with asyncOutputQueue := outputs }.enqueueOutput output

/-- One turn of `worker_busy_loop`: the worker may raise. -/
def workerBusyLoop (func : ω → κ → Except String ρ × ω) (rank : ℕ) (useAsyncScheduling : Bool)
    (proc : WorkerProc ω κ ρ) : WorkerProc ω κ ρ :=
  match proc.rpcBroadcastMq with
  | [] => proc
  | message :: messages =>
    let result := func proc.worker message.request
    let proc := { proc with worker := result.2, rpcBroadcastMq := messages }
    if message.outputRank = none ∨ message.outputRank = some rank then
      proc.handleOutput useAsyncScheduling result.1
    else proc

end WorkerProc

/-! ## The executor -/

/-- How long pending futures are drained: until a future is done, or until there are none and a blocking
call can read its own replies. -/
inductive DrainGoal (κ ρ β : Type) where
  | result (future : ℕ)
  | blocking (own : PendingCall κ ρ β)

/-- What the thread of the executor does. While it collects the replies of a call, it has the ranks that
are left and the responses it has; a blocking call that collects its own has nothing to drain. -/
inductive ExecutorThread (κ ρ β : Type) where
  | idle
  | draining (goal : DrainGoal κ ρ β)
  | collecting (pending : PendingCall κ ρ β) (ranks : List ℕ) (responses : List ρ)
      (goal : Option (DrainGoal κ ρ β))

/-- The workers do what `func` says; they are numbered by their ranks. -/
structure ExecutorConfig (ω κ ρ : Type) where
  worldSize : ℕ
  useAsyncScheduling : Bool
  func : ℕ → ω → κ → Except String ρ × ω

/-- The executor and its workers. `results` is what the calls and futures returned or raised, by number,
and `calls` the calls that were made. -/
structure MultiprocExecutor (ω κ ρ β : Type) where
  workers : ℕ → WorkerProc ω κ ρ
  futuresQueue : List (PendingCall κ ρ β)
  thread : ExecutorThread κ ρ β
  results : ℕ → Option (Except PyError β)
  calls : List (RpcCall κ ρ β)

inductive ExecutorStep (κ ρ β : Type) where
  | collectiveRpc (call : RpcCall κ ρ β)
  | result (future : ℕ)
  | advance
  | work (rank : ℕ)
  | forward (rank : ℕ)

namespace MultiprocExecutor

def new (start : ℕ → ω) : MultiprocExecutor ω κ ρ β where
  workers rank := { worker := start rank }
  futuresQueue := []
  thread := .idle
  results _ := none
  calls := []

/-- `collective_rpc` up to the point where it waits. -/
def collectiveRpc (s : MultiprocExecutor ω κ ρ β) (call : RpcCall κ ρ β) : MultiprocExecutor ω κ ρ β :=
  let pending := ⟨s.calls.length, call⟩
  let s := { s with
    workers := fun rank =>
      { s.workers rank with rpcBroadcastMq := (s.workers rank).rpcBroadcastMq ++ [call.message] }
    calls := s.calls ++ [call] }
  if call.nonBlock then { s with futuresQueue := s.futuresQueue ++ [pending] }
  else { s with thread := .draining (.blocking pending) }

/-- `set_result` and `set_exception`, or the return of a blocking call. -/
def finish (s : MultiprocExecutor ω κ ρ β) (number : ℕ) (outcome : Except PyError β)
    (goal : Option (DrainGoal κ ρ β)) : MultiprocExecutor ω κ ρ β :=
  { s with
    results := if (s.results number).isSome then s.results
      else update s.results number (some outcome)
    thread := match goal with
      | none => .idle
      | some goal => .draining goal }

def workerFailed (message : String) : PyError :=
  .runtimeError ("Worker failed with error '" ++ message ++
    "', please check the stack trace above for the root cause")

/-- `dequeue` of a response queue. -/
def setResponseMq (s : MultiprocExecutor ω κ ρ β) (rank : ℕ) (responseMq : List (WorkerResponse ρ)) :
    MultiprocExecutor ω κ ρ β :=
  { s with workers := update s.workers rank { s.workers rank with responseMq } }

section Run

variable (config : ExecutorConfig ω κ ρ)

/-- Takes the oldest future from the queue. -/
def collect (s : MultiprocExecutor ω κ ρ β) (pending : PendingCall κ ρ β)
    (goal : Option (DrainGoal κ ρ β)) : MultiprocExecutor ω κ ρ β :=
  { s with thread := .collecting pending (pending.call.responseMqs config.worldSize) [] goal }

/-- The next thing the thread does: a turn of `while not self.done()` or `while self.futures_queue`, a turn
of the loop of `get_response`, or the end of it. It waits at an empty response queue. -/
def advance (s : MultiprocExecutor ω κ ρ β) : Except PyError (MultiprocExecutor ω κ ρ β) :=
  match s.thread with
  | .idle => .ok s
  | .draining (.result future) =>
    if (s.results future).isSome then .ok { s with thread := .idle }
    else
      match s.futuresQueue with
      | [] => .error .indexError
      | pending :: futuresQueue =>
        .ok ({ s with futuresQueue }.collect config pending (some (.result future)))
  | .draining (.blocking own) =>
    match s.futuresQueue with
    | [] => .ok (s.collect config own none)
    | pending :: futuresQueue => .ok ({ s with futuresQueue }.collect config pending (some (.blocking own)))
  | .collecting pending [] responses goal =>
    .ok (s.finish pending.number (pending.call.response responses >>= pending.call.aggregate) goal)
  | .collecting pending (rank :: ranks) responses goal =>
    match (s.workers rank).responseMq with
    | [] => .ok s
    | .success output :: responseMq =>
      .ok { s.setResponseMq rank responseMq with
        thread := .collecting pending ranks (responses ++ [output]) goal }
    | .failure message :: responseMq =>
      .ok ((s.setResponseMq rank responseMq).finish pending.number (.error (workerFailed message)) goal)

def run : ExecutorStep κ ρ β → MultiprocExecutor ω κ ρ β → Except PyError (MultiprocExecutor ω κ ρ β)
  | .collectiveRpc call, s => .ok (s.collectiveRpc call)
  | .result future, s => .ok { s with thread := .draining (.result future) }
  | .advance, s => s.advance config
  | .work rank, s =>
    .ok { s with
      workers := update s.workers rank
        ((s.workers rank).workerBusyLoop (config.func rank) rank config.useAsyncScheduling) }
  | .forward rank, s =>
    .ok { s with workers := update s.workers rank (s.workers rank).asyncOutputBusyLoop }

end Run

end MultiprocExecutor

end Worker

end VllmRuntime
