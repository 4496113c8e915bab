import Mathlib.Logic.Function.Basic
import VllmRuntime.Model.Base

/-! # Notifications of the NIXL connector

`vllm/distributed/kv_transfer/kv_connector/v1/nixl_connector.py` with `TpKVTopology` of
`vllm/distributed/kv_transfer/kv_connector/utils.py`: which producer ranks a consumer rank reads from and
notifies, and how a producer rank counts the notifications of a request. -/

namespace VllmRuntime.Nixl

open Function

/-! ## Ranks -/

/-- `tp_ratio`. -/
def tpRatio (tpSize remoteTpSize : ℕ) : Except PyError ℤ :=
  if remoteTpSize ≤ tpSize then
    if tpSize % remoteTpSize = 0 then .ok ((tpSize : ℤ) / remoteTpSize)
    else .error (.assertionError ("Local tensor parallel size " ++ toString tpSize ++
      " is not divisible by remote tensor parallel size " ++ toString remoteTpSize ++ "."))
  else
    if remoteTpSize % tpSize = 0 then .ok (-(remoteTpSize : ℤ) / tpSize)
    else .error (.assertionError ("Remote tensor parallel size " ++ toString remoteTpSize ++
      " is not divisible by local tensor parallel size " ++ toString tpSize ++ "."))

/-- `get_target_remote_ranks`. -/
def getTargetRemoteRanks (tpRank tpSize remoteTpSize : ℕ) : Except PyError (List ℕ) := do
  let ratio ← tpRatio tpSize remoteTpSize
  return if 0 < ratio then [tpRank / ratio.toNat]
    else (List.range (-ratio).toNat).map fun i => tpRank * (-ratio).toNat + i

/-! ## The consumer -/

/-- A notification `f"{req_id}:{world_size}"`, which the producer splits at the last colon. -/
structure Notif where
  reqId : RequestId
  tpSize : ℕ
  deriving DecidableEq, Repr

section Consumer

variable (useMla : Bool) (ratio : ℤ) (reqId remoteRequestId : RequestId) (worldSize : ℕ) (remoteAgents : List ℕ)

/-- The loop of `_read_blocks_for_req` from some index on, and the notifications that are received if every
read succeeds or is skipped: that of the read itself, and those for the ranks that are not read from. -/
def readNotifs : ℕ → List ℕ → List (ℕ × Notif)
  | _, [] => []
  | i, remoteRank :: remoteRanks =>
    if useMla ∧ ratio < 0 ∧ 0 < i then []
    else
      (remoteRank, ⟨remoteRequestId, worldSize⟩) ::
        ((if useMla ∧ ratio < 0 then
            (remoteAgents.filter (· ≠ remoteRank)).map fun rank => (rank, ⟨reqId, worldSize⟩)
          else []) ++ readNotifs (i + 1) remoteRanks)

end Consumer

/-- `_read_blocks_for_req` on one consumer rank. The remote agents are those of the handshake, which is made
with the same ranks. -/
def readBlocksForReq (useMla : Bool) (reqId remoteRequestId : RequestId) (tpRank worldSize remoteTpSize : ℕ) :
    Except PyError (List (ℕ × Notif)) := do
  let remoteRanks ← getTargetRemoteRanks tpRank worldSize remoteTpSize
  let ratio ← tpRatio worldSize remoteTpSize
  return readNotifs useMla ratio reqId remoteRequestId worldSize remoteRanks 0 remoteRanks

/-! ## The producer -/

/-- What a producer rank keeps of the requests whose blocks are read: those with an expiration time, those
that have been in a batch, and how many notifications there were. -/
structure SendState where
  reqsToSend : RequestId → Option ℕ
  reqsToProcess : RequestId → Bool
  notificationCounts : RequestId → ℕ

namespace SendState

/-- The number of reads that a producer rank waits for. -/
def consumersPerProducer (worldSize nConsumers : ℕ) : Except PyError ℤ := do
  let ratio ← tpRatio worldSize nConsumers
  return if worldSize < nConsumers then -ratio else 1

/-- One turn of the loop of `_get_new_notifs`, with the requests that are notified. -/
def countNotif (worldSize : ℕ) (counted : SendState × List RequestId) (notif : Notif) :
    Except PyError (SendState × List RequestId) :=
  let s := counted.1
  if (s.reqsToSend notif.reqId).isNone && !s.reqsToProcess notif.reqId then .ok counted
  else do
    let consumers ← consumersPerProducer worldSize notif.tpSize
    let count := s.notificationCounts notif.reqId + 1
    if (count : ℤ) = consumers then
      if s.reqsToProcess notif.reqId then
        .ok ({ reqsToSend := update s.reqsToSend notif.reqId none
               reqsToProcess := update s.reqsToProcess notif.reqId false
               notificationCounts := update s.notificationCounts notif.reqId 0 },
          counted.2.insert notif.reqId)
      else .error .keyError
    else
      .ok ({ s with notificationCounts := update s.notificationCounts notif.reqId count }, counted.2)

/-- `_get_new_notifs`. -/
def getNewNotifs (worldSize : ℕ) (s : SendState) (notifs : List Notif) : Except PyError (SendState × List RequestId) :=
  notifs.foldlM (countNotif worldSize) (s, [])

end SendState

end VllmRuntime.Nixl
