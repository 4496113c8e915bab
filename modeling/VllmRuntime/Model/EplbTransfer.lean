import Mathlib.Data.List.Sort
import VllmRuntime.Model.Base

/-! # Moving expert weights between ranks

`vllm/distributed/eplb/rebalance_execute.py`: `move_to_buffer`, in which every rank posts its sends and
receives, and `move_from_buffer`. Arrays over the local rows of a rank are functions of the row, and the weights
of a rank are a function of the tensor and the row. -/

namespace VllmRuntime.Eplb

/-! ## NumPy

On one axis, as its documentation has them. -/

/-- `np.unique`: the sorted values, each once. -/
def unique (values : List ℤ) : List ℤ := values.dedup.insertionSort (· ≤ ·)

/-- `np.unique` with `return_index`, of the experts of some rows: each expert with the index of its first
occurrence. -/
def firstRows (rows : List (ℤ × ℕ)) : List (ℤ × ℕ) :=
  (unique (rows.map Prod.fst)).filterMap fun expert => (rows.lookup expert).map fun row => (expert, row)

/-- `np.argsort(experts, kind="stable")` of the first components, applied to both. -/
def sortByExpert (rows : List (ℤ × ℕ)) : List (ℤ × ℕ) := rows.insertionSort (·.1 ≤ ·.1)

/-- `np.searchsorted` of a sorted array, on the left: the values before the index are smaller, the others not. -/
def searchsorted (values : List ℤ) (value : ℤ) : ℕ := values.countP (· < value)

/-- `xs.index(x)`. -/
def listIndex (xs : List ℕ) (x : ℕ) : Except PyError ℕ :=
  if x ∈ xs then .ok (xs.idxOf x) else .error (.valueError (toString x ++ " is not in list"))

def listGet (xs : List ℕ) (i : ℕ) : Except PyError ℕ :=
  match xs[i]? with
  | some x => .ok x
  | none => .error .indexError

def dictGet (d : OrderedDict ℤ (List ℕ)) (key : ℤ) : Except PyError (List ℕ) :=
  match d.lookup key with
  | some value => .ok value
  | none => .error .keyError

/-! ## `get_ep_ranks_with_experts_batch` -/

/-- The pieces of a list of experts and ranks between the boundaries where the expert changes. -/
def runsByExpert : List (ℤ × ℕ) → OrderedDict ℤ (List ℕ)
  | [] => []
  | (expert, rank) :: rest =>
    match runsByExpert rest with
    | [] => [(expert, [rank])]
    | (next, ranks) :: runs =>
      if next = expert then (expert, rank :: ranks) :: runs
      else (expert, [rank]) :: (next, ranks) :: runs

/-- The ranks that have each of the experts, in the order of first appearance. The positions are sorted by
expert first, then by position. -/
def ranksByExpert (uniqueExperts : List ℤ) (numLocalExperts : ℕ) (indices : List ℤ) : OrderedDict ℤ (List ℕ) :=
  let relevant := indices.zipIdx.filter (·.1 ∈ uniqueExperts)
  let sorted := relevant.insertionSort fun a b => a.1 < b.1 ∨ a.1 = b.1 ∧ a.2 ≤ b.2
  (runsByExpert (sorted.map fun entry => (entry.1, entry.2 / numLocalExperts))).map fun entry =>
    (entry.1, entry.2.eraseDups)

/-- The experts that are in no position have no ranks. -/
def addMissing (uniqueExperts : List ℤ) (ranks : OrderedDict ℤ (List ℕ)) : OrderedDict ℤ (List ℕ) :=
  uniqueExperts.foldl (fun ranks expert => if expert ∈ ranks.map Prod.fst then ranks else ranks ++ [(expert, [])])
    ranks

/-- `ranks_to_send_map` and `ranks_to_recv_map`. -/
def getEpRanksWithExpertsBatch (expertIds : List ℤ) (numLocalExperts : ℕ) (oldIndices newIndices : List ℤ) :
    OrderedDict ℤ (List ℕ) × OrderedDict ℤ (List ℕ) :=
  if expertIds = [] then ([], [])
  else
    let uniqueExperts := unique expertIds
    let ranksToSend := ranksByExpert uniqueExperts numLocalExperts oldIndices
    let ranksToRecv := (ranksByExpert uniqueExperts numLocalExperts newIndices).map fun entry =>
      (entry.1, entry.2.filter (· ∉ (ranksToSend.lookup entry.1).getD []))
    (addMissing uniqueExperts ranksToSend, addMissing uniqueExperts ranksToRecv)

/-! ## `move_to_buffer` -/

variable {τ : Type}

/-- The tensors of a rank, each with a value for every local row. -/
abbrev ExpertWeights (τ : Type) := ℕ → ℕ → τ

/-- `w[dst].copy_(..)` for all tensors. -/
def setRow (weights : ExpertWeights τ) (dst : ℕ) (values : ℕ → τ) : ExpertWeights τ := fun tensor row =>
  if row = dst then values tensor else weights tensor row

/-- A row that is sent to, or received from, another rank. -/
structure Transfer where
  expert : ℤ
  row : ℕ
  peer : ℕ
  deriving DecidableEq, Repr

inductive P2POp (τ : Type) where
  | isend (value : τ) (dst : ℕ)
  | irecv (tensor row : ℕ) (src : ℕ)
  deriving DecidableEq, Repr

/-- `recv_expert_ids` and `recv_dst_rows` up to `recv_count`. -/
structure RecvMetadata where
  recvPrimaryMask : ℕ → Bool
  recvRows : List (ℤ × ℕ)

/-- What `move_to_buffer` returns, and what it has posted and moved. -/
structure MoveToBuffer (τ : Type) where
  isUnchanged : ℕ → Bool
  isReceivedLocally : ℕ → Bool
  recvMetadata : RecvMetadata
  buffers : ExpertWeights τ
  sends : List Transfer
  recvs : List Transfer
  p2pOps : List (P2POp τ)

/-- The receivers of a sender: its equal share, and one of those that are left over. -/
def recvRanks (ranksToSend ranksToRecv : List ℕ) (senderPos : ℕ) : List ℕ :=
  let numDstPerSender := ranksToRecv.length / ranksToSend.length
  let recvBegin := senderPos * numDstPerSender
  let remainderStart := ranksToSend.length * numDstPerSender
  (ranksToRecv.drop recvBegin).take numDstPerSender ++ ranksToRecv[remainderStart + senderPos]?.toList

/-- The sends of an expert in a local row. -/
def postSends (maps : OrderedDict ℤ (List ℕ) × OrderedDict ℤ (List ℕ)) (epRank : ℕ) (entry : ℤ × ℕ) :
    Except PyError (List Transfer) := do
  let ranksToSend ← dictGet maps.1 entry.1
  let ranksToRecv ← dictGet maps.2 entry.1
  if ranksToSend = [] ∨ ranksToRecv = [] then return []
  let senderPos ← listIndex ranksToSend epRank
  return (recvRanks ranksToSend ranksToRecv senderPos).map fun dst => ⟨entry.1, entry.2, dst⟩

/-- The receive of an expert into a local row. -/
def postRecv (maps : OrderedDict ℤ (List ℕ) × OrderedDict ℤ (List ℕ)) (epRank : ℕ) (entry : ℤ × ℕ) :
    Except PyError (List Transfer) := do
  let ranksToSend ← dictGet maps.1 entry.1
  let ranksToRecv ← dictGet maps.2 entry.1
  if ranksToSend = [] ∨ ranksToRecv = [] then return []
  let numDstPerSender := ranksToRecv.length / ranksToSend.length
  let recverPos ← listIndex ranksToRecv epRank
  let remainderStart := ranksToSend.length * numDstPerSender
  let src ← if recverPos < remainderStart then listGet ranksToSend (recverPos / numDstPerSender)
    else listGet ranksToSend (recverPos - remainderStart)
  return [⟨entry.1, entry.2, src⟩]

/-- The transfers of a list of experts, posted in increasing order. -/
def postAll (post : OrderedDict ℤ (List ℕ) × OrderedDict ℤ (List ℕ) → ℕ → ℤ × ℕ → Except PyError (List Transfer))
    (numLocalExperts : ℕ) (oldIndices newIndices : List ℤ) (epRank : ℕ) (rows : List (ℤ × ℕ)) :
    Except PyError (List Transfer) := do
  let sorted := sortByExpert rows
  let maps := getEpRanksWithExpertsBatch (sorted.map Prod.fst) numLocalExperts oldIndices newIndices
  let transfers ← sorted.mapM (post maps epRank)
  return transfers.flatten

section MoveToBuffer

variable (numTensors numLocalExperts : ℕ) (oldIndices newIndices : List ℤ) (epRank : ℕ)

/-- The expert of a local row. -/
def localExpert (numLocalExperts : ℕ) (indices : List ℤ) (epRank row : ℕ) : ℤ :=
  indices.getD (epRank * numLocalExperts + row) (-1)

def isUnchanged (row : ℕ) : Bool :=
  localExpert numLocalExperts oldIndices epRank row = localExpert numLocalExperts newIndices epRank row

def isReceivedLocally (row : ℕ) : Bool :=
  let oldLocalExpertIds := (List.range numLocalExperts).map (localExpert numLocalExperts oldIndices epRank)
  let expert := localExpert numLocalExperts newIndices epRank row
  isUnchanged numLocalExperts oldIndices newIndices epRank row || (expert ≠ -1 && expert ∈ oldLocalExpertIds)

/-- `send_expert_ids` and `send_src_rows`. -/
def sendRows : List (ℤ × ℕ) :=
  firstRows (((List.range numLocalExperts).map fun row =>
    (localExpert numLocalExperts oldIndices epRank row, row)).filter (·.1 ≠ -1))

/-- `recv_expert_ids` and `recv_dst_rows`. -/
def recvRows : List (ℤ × ℕ) :=
  firstRows (((List.range numLocalExperts).map fun row =>
    (localExpert numLocalExperts newIndices epRank row, row)).filter fun entry =>
      !isReceivedLocally numLocalExperts oldIndices newIndices epRank entry.2 && entry.1 ≠ -1)

/-- Local moves into the buffers. -/
def moveLocally (weights buffers : ExpertWeights τ) : ExpertWeights τ :=
  let eligible := (List.range numLocalExperts).filter fun row =>
    !isUnchanged numLocalExperts oldIndices newIndices epRank row &&
      isReceivedLocally numLocalExperts oldIndices newIndices epRank row
  eligible.foldl (fun buffers dst =>
    match (sendRows numLocalExperts oldIndices epRank).lookup (localExpert numLocalExperts newIndices epRank dst) with
    | some src => setRow buffers dst fun tensor => weights tensor src
    | none => buffers) buffers

/-- `move_to_buffer` up to the execution of the operations. -/
def moveToBuffer (weights buffers : ExpertWeights τ) : Except PyError (MoveToBuffer τ) := do
  pyAssert (oldIndices.length = newIndices.length) ""
  let recvRows := recvRows numLocalExperts oldIndices newIndices epRank
  let sends ← postAll postSends numLocalExperts oldIndices newIndices epRank
    (sendRows numLocalExperts oldIndices epRank)
  let recvs ← postAll postRecv numLocalExperts oldIndices newIndices epRank recvRows
  return {
    isUnchanged := isUnchanged numLocalExperts oldIndices newIndices epRank
    isReceivedLocally := isReceivedLocally numLocalExperts oldIndices newIndices epRank
    recvMetadata := { recvPrimaryMask := fun row => row ∈ recvRows.map Prod.snd, recvRows }
    buffers := moveLocally numLocalExperts oldIndices newIndices epRank weights buffers
    sends
    recvs
    p2pOps :=
      (sends.flatMap fun transfer => (List.range numTensors).map fun tensor =>
        .isend (weights tensor transfer.row) transfer.peer) ++
      recvs.flatMap fun transfer => (List.range numTensors).map fun tensor =>
        .irecv tensor transfer.row transfer.peer }

end MoveToBuffer

/-! ## The exchange -/

/-- The messages that a rank sends to another one, in posting order. -/
def sentTo (ops : List (P2POp τ)) (peer : ℕ) : List τ :=
  ops.filterMap fun
    | .isend value dst => if dst = peer then some value else none
    | .irecv .. => none

/-- Where a rank receives from another one, in posting order. -/
def receivedFrom (ops : List (P2POp τ)) (peer : ℕ) : List (ℕ × ℕ) :=
  ops.filterMap fun
    | .isend .. => none
    | .irecv tensor row src => if src = peer then some (tensor, row) else none

/-- The buffers of a rank after the operations of all ranks: the messages between two ranks are matched in
posting order. -/
def exchange (numRanks : ℕ) (moved : ℕ → MoveToBuffer τ) (epRank : ℕ) : ExpertWeights τ :=
  let messages := (List.range numRanks).flatMap fun peer =>
    (receivedFrom (moved epRank).p2pOps peer).zip (sentTo (moved peer).p2pOps epRank)
  messages.foldl (fun buffers message tensor row =>
    if tensor = message.1.1 ∧ row = message.1.2 then message.2 else buffers tensor row) (moved epRank).buffers

/-! ## `move_from_buffer` -/

/-- The primary row of a received expert. -/
def primaryRow (sorted : List (ℤ × ℕ)) (expert : ℤ) : Option ℕ :=
  match sorted[searchsorted (sorted.map Prod.fst) expert]? with
  | some entry => if entry.1 = expert then some entry.2 else none
  | none => none

def moveFromBuffer (numLocalExperts : ℕ) (weights buffers : ExpertWeights τ) (isUnchanged isReceivedLocally : ℕ → Bool)
    (recvMetadata : RecvMetadata) (newIndices : List ℤ) (epRank : ℕ) : ExpertWeights τ :=
  let dest := (List.range numLocalExperts).filter fun row =>
    !isUnchanged row && (isReceivedLocally row || recvMetadata.recvPrimaryMask row)
  let weights := dest.foldl (fun weights dst => setRow weights dst fun tensor => buffers tensor dst) weights
  if recvMetadata.recvRows = [] then weights
  else
    let duplicates := (List.range numLocalExperts).filter fun row =>
      (!isUnchanged row && !isReceivedLocally row) &&
        (!recvMetadata.recvPrimaryMask row && localExpert numLocalExperts newIndices epRank row ≠ -1)
    let sorted := sortByExpert recvMetadata.recvRows
    let matched := duplicates.filterMap fun dst =>
      (primaryRow sorted (localExpert numLocalExperts newIndices epRank dst)).map fun src => (dst, src)
    matched.foldl (fun weights entry => setRow weights entry.1 fun tensor => weights tensor entry.2) weights

end VllmRuntime.Eplb
