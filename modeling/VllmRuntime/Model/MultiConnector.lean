import Mathlib.Logic.Function.Basic
import VllmRuntime.Model.Base

/-! # Several connectors at once

`vllm/distributed/kv_transfer/kv_connector/v1/multi_connector.py`: how the scheduler side counts the
connectors that save a request asynchronously, and how the worker side counts their reports. The children
are any connectors. -/

namespace VllmRuntime

/-- `_extra_async_saves`. -/
abbrev ExtraSaves := RequestId → Option ℕ

namespace MultiConnector

/-! ## The scheduler side -/

/-- The loop of `request_finished`: how many children save asynchronously, and the transfer parameters of
the one that has some. -/
def countSaves {π : Type} (counted : ℕ × Option π) (result : Bool × Option π) : Except PyError (ℕ × Option π) :=
  let asyncSaves := if result.1 then counted.1 + 1 else counted.1
  match result.2, counted.2 with
  | some _, some _ => .error (.runtimeError "Only one connector can produce KV transfer params")
  | some params, none => .ok (asyncSaves, some params)
  | none, kvTxferParams => .ok (asyncSaves, kvTxferParams)

/-- `request_finished`, with what the children return. -/
def requestFinished {π : Type} (extraAsyncSaves : ExtraSaves) (requestId : RequestId)
    (results : List (Bool × Option π)) : Except PyError (ExtraSaves × Bool × Option π) := do
  let counted ← results.foldlM countSaves (0, none)
  return (if 1 < counted.1 then Function.update extraAsyncSaves requestId (some (counted.1 - 1))
      else extraAsyncSaves,
    decide (0 < counted.1), counted.2)

/-! ## The worker side -/

/-- `bind_connector_metadata`. -/
def bindConnectorMetadata (extraAsyncSaves metadata : ExtraSaves) : ExtraSaves :=
  fun requestId => (metadata requestId).or (extraAsyncSaves requestId)

/-- One turn of the inner loop of `get_finished`, with the requests that are finished sending. -/
def countReport (counted : ExtraSaves × List RequestId) (requestId : RequestId) :
    Except PyError (ExtraSaves × List RequestId) :=
  match counted.1 requestId with
  | none => .ok (counted.1, counted.2.insert requestId)
  | some 0 => .error (.assertionError "extra_pending > 0")
  | some 1 => .ok (Function.update counted.1 requestId none, counted.2)
  | some (extraPending + 2) => .ok (Function.update counted.1 requestId (some (extraPending + 1)), counted.2)

/-- `get_finished`, with what the children return as sending and recving. -/
def getFinished (extraAsyncSaves : ExtraSaves) (reports : List (List RequestId × List RequestId)) :
    Except PyError (ExtraSaves × List RequestId × List RequestId) := do
  let counted ← reports.foldlM (fun counted report => report.1.foldlM countReport counted) (extraAsyncSaves, [])
  return (counted.1, counted.2, (reports.map (·.2)).foldl (· ∪ ·) [])

end MultiConnector

end VllmRuntime
