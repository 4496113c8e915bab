import Mathlib.Logic.Function.Basic
import VllmRuntime.Model.Base

/-! # Reads of the NIXL connector

`vllm/distributed/kv_transfer/kv_connector/v1/nixl_connector.py`: how a decode worker tracks the reads of a
request. The main thread runs `start_load_kv` and `get_finished`; the thread of the handshakes runs the
callbacks. A step is what one thread does without touching what the other one writes in between. -/

namespace VllmRuntime.Nixl

open Function

abbrev EngineId := ℕ

/-- What is read of `ReqMeta`; `remoteRanks` is the number of reads. -/
structure RecvMeta where
  localBlockIds : List ℕ
  remoteEngineId : EngineId
  remoteRanks : ℕ
  deriving DecidableEq, Repr

/-- What `check_xfer_state` says of a transfer; an exception counts as a failure. -/
inductive XferState where
  | done
  | proc
  | failed
  deriving DecidableEq, Repr

/-- How far `get_finished` has come: it has read `_failed_recv_reqs`, or it has cleared it. -/
inductive FinishPhase where
  | none
  | updated (doneRecving : List RequestId)
  | cleared (doneRecving : List RequestId)
  deriving DecidableEq, Repr

/-- The worker. The transfers of a request are known by their handles; a handshake has callbacks for the
requests that wait for it, which run when it is done, with whether it succeeded. Between the two statements
of a callback of a handshake that failed, its request is in `failing`. -/
structure RecvWorker where
  remoteAgents : EngineId → Bool
  handshakeFutures : EngineId → Bool
  waiting : List (RequestId × RecvMeta)
  callbacks : List ((RequestId × RecvMeta) × Bool)
  failing : Option RequestId
  readyRequests : List (RequestId × RecvMeta)
  recvingMetadata : RequestId → Option RecvMeta
  recvingTransfers : List (RequestId × List ℕ)
  failedRecvReqs : List RequestId
  invalidBlockIds : List ℕ
  nextHandle : ℕ
  phase : FinishPhase

namespace RecvWorker

def new : RecvWorker where
  remoteAgents _ := false
  handshakeFutures _ := false
  waiting := []
  callbacks := []
  failing := none
  readyRequests := []
  recvingMetadata _ := none
  recvingTransfers := []
  failedRecvReqs := []
  invalidBlockIds := []
  nextHandle := 0
  phase := .none

/-- `self._invalid_block_ids.update(meta.local_block_ids)`, if the request has metadata. -/
def invalidate (s : RecvWorker) (reqId : RequestId) : RecvWorker :=
  match s.recvingMetadata reqId with
  | none => s
  | some recvMeta => { s with invalidBlockIds := s.invalidBlockIds ++ recvMeta.localBlockIds }

/-! ## Posting reads -/

/-- `self._recving_transfers[request_id].append(handle)`. -/
def appendHandle (reqId : RequestId) (handle : ℕ) : List (RequestId × List ℕ) → List (RequestId × List ℕ)
  | [] => [(reqId, [handle])]
  | (key, handles) :: transfers =>
    if key = reqId then (key, handles ++ [handle]) :: transfers
    else (key, handles) :: appendHandle reqId handle transfers

/-- `_read_blocks`, which may fail to post the read. Nothing is read if there are no local blocks. -/
def readBlocks (reqId : RequestId) (recvMeta : RecvMeta) (s : RecvWorker) (posted : Bool) : RecvWorker :=
  if recvMeta.localBlockIds = [] then s
  else if posted then
    { s with
      recvingTransfers := appendHandle reqId s.nextHandle s.recvingTransfers
      nextHandle := s.nextHandle + 1 }
  else
    let s := s.invalidate reqId
    { s with failedRecvReqs := s.failedRecvReqs.insert reqId }

/-- `_read_blocks_for_req`: one read for each remote rank. -/
def readBlocksForReq (s : RecvWorker) (reqId : RequestId) (recvMeta : RecvMeta) (posted : ℕ → Bool) : RecvWorker :=
  ((List.range recvMeta.remoteRanks).map posted).foldl (readBlocks reqId recvMeta) s

/-- `_background_nixl_handshake`. -/
def backgroundHandshake (s : RecvWorker) (reqId : RequestId) (recvMeta : RecvMeta) : RecvWorker :=
  { s with
    handshakeFutures := update s.handshakeFutures recvMeta.remoteEngineId true
    waiting := s.waiting ++ [(reqId, recvMeta)] }

/-- One turn of the first loop of `start_load_kv`. -/
def loadRequest (s : RecvWorker) (reqId : RequestId) (recvMeta : RecvMeta) (posted : ℕ → Bool) : RecvWorker :=
  let s := { s with recvingMetadata := update s.recvingMetadata reqId (some recvMeta) }
  if s.remoteAgents recvMeta.remoteEngineId then s.readBlocksForReq reqId recvMeta posted
  else s.backgroundHandshake reqId recvMeta

/-- One turn of the second loop of `start_load_kv`. -/
def loadReady (s : RecvWorker) (posted : ℕ → Bool) : RecvWorker :=
  match s.readyRequests with
  | [] => s
  | (reqId, recvMeta) :: ready => { s with readyRequests := ready }.readBlocksForReq reqId recvMeta posted

/-! ## Handshakes -/

/-- A handshake is done: `done_callback`, then the callbacks of the requests follow. -/
def handshakeDone (s : RecvWorker) (engineId : EngineId) (succeeded : Bool) : RecvWorker :=
  { s with
    handshakeFutures := update s.handshakeFutures engineId false
    remoteAgents := if succeeded then update s.remoteAgents engineId true else s.remoteAgents
    waiting := s.waiting.filter (·.2.remoteEngineId ≠ engineId)
    callbacks := s.callbacks ++
      (s.waiting.filter (·.2.remoteEngineId = engineId)).map fun entry => (entry, succeeded) }

/-- The next callback `request_ready`; of a handshake that failed, up to `self._failed_recv_reqs.add`. -/
def requestReady (s : RecvWorker) : RecvWorker :=
  match s.callbacks, s.failing with
  | (entry, true) :: callbacks, none => { s with callbacks, readyRequests := s.readyRequests ++ [entry] }
  | (entry, false) :: callbacks, none => { s.invalidate entry.1 with callbacks, failing := some entry.1 }
  | _, _ => s

/-- `self._failed_recv_reqs.add(req_id)`. -/
def addFailed (s : RecvWorker) : RecvWorker :=
  match s.failing with
  | none => s
  | some reqId => { s with failedRecvReqs := s.failedRecvReqs.insert reqId, failing := none }

/-! ## `get_finished` -/

/-- `_pop_done_transfers`: the requests without a transfer in progress, and the transfers that are left. -/
def popDoneTransfers (xferState : ℕ → XferState) (transfers : List (RequestId × List ℕ)) :
    List RequestId × List (RequestId × List ℕ) :=
  let inProgress := transfers.map fun entry => (entry.1, entry.2.filter (xferState · = .proc))
  ((inProgress.filter (·.2 = [])).map (·.1), inProgress.filter (·.2 ≠ []))

/-- The blocks of the requests that have a failed transfer. -/
def invalidateFailed (xferState : ℕ → XferState) (s : RecvWorker) : RecvWorker :=
  s.recvingTransfers.foldl (fun s entry =>
    entry.2.foldl (fun s handle => if xferState handle = .failed then s.invalidate entry.1 else s) s) s

/-- `get_finished` up to the point where `_failed_recv_reqs` has been read. -/
def readFailed (xferState : ℕ → XferState) (s : RecvWorker) : RecvWorker :=
  let popped := popDoneTransfers xferState s.recvingTransfers
  let s := { s.invalidateFailed xferState with recvingTransfers := popped.2 }
  { s with phase := .updated (popped.1 ∪ s.failedRecvReqs) }

/-- `self._failed_recv_reqs.clear()`. -/
def clearFailed (s : RecvWorker) : RecvWorker :=
  match s.phase with
  | .updated doneRecving => { s with failedRecvReqs := [], phase := .cleared doneRecving }
  | _ => s

/-- The metadata of a request that is done. -/
def popMetadata (s : RecvWorker) (reqId : RequestId) : Except PyError RecvWorker :=
  if (s.recvingMetadata reqId).isSome then
    .ok { s with recvingMetadata := update s.recvingMetadata reqId none }
  else .error (.assertionError (toString reqId ++ " not found in recving_metadata list"))

/-- The rest of `get_finished`, which returns the requests that are done. -/
def finish (s : RecvWorker) : Except PyError (RecvWorker × List RequestId) :=
  match s.phase with
  | .cleared doneRecving => do
    let s ← doneRecving.foldlM popMetadata s
    return ({ s with phase := .none }, doneRecving)
  | _ => .ok (s, [])

end RecvWorker

end VllmRuntime.Nixl
