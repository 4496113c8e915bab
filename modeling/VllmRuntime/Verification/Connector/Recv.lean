import VllmRuntime.Model.NixlRecv
import VllmRuntime.Shared.Runs

/-! A decode worker reports every request that it loads once, when none of its reads is in progress, as long
as no request of which a read could not be posted has another one in progress, and no handshake fails while
`get_finished` empties `_failed_recv_reqs`. -/

namespace VllmRuntime.Nixl

open List Function

/-! ## Posting reads -/

lemma map_fst_appendHandle (reqId : RequestId) (handle : ℕ) (transfers : List (RequestId × List ℕ)) :
    (RecvWorker.appendHandle reqId handle transfers).map (·.1) =
      if reqId ∈ transfers.map (·.1) then transfers.map (·.1) else transfers.map (·.1) ++ [reqId] := by
  induction transfers with
  | nil => rfl
  | cons entry transfers ih =>
    obtain ⟨key, handles⟩ := entry
    by_cases hkey : key = reqId
    · simp [RecvWorker.appendHandle, hkey]
    · have hne : ¬reqId = key := fun heq => hkey heq.symm
      simp only [RecvWorker.appendHandle, if_neg hkey, map_cons, ih, mem_cons, hne, false_or]
      split
      · rfl
      · rfl

namespace RecvWorker

variable {recvMeta : RecvMeta} {s : RecvWorker} {reqId : RequestId}

/-- The requests that have transfers. -/
def transferring (s : RecvWorker) : List RequestId := s.recvingTransfers.map (·.1)

/-- What posting reads of a request leaves as it is. -/
structure SameBut (s s' : RecvWorker) (reqId : RequestId) : Prop where
  remoteAgents : s'.remoteAgents = s.remoteAgents
  handshakeFutures : s'.handshakeFutures = s.handshakeFutures
  waiting : s'.waiting = s.waiting
  callbacks : s'.callbacks = s.callbacks
  failing : s'.failing = s.failing
  readyRequests : s'.readyRequests = s.readyRequests
  recvingMetadata : s'.recvingMetadata = s.recvingMetadata
  phase : s'.phase = s.phase
  transferring : ∀ other, other ≠ reqId → (other ∈ s'.transferring ↔ other ∈ s.transferring)
  failed : ∀ other, other ≠ reqId → (other ∈ s'.failedRecvReqs ↔ other ∈ s.failedRecvReqs)
  nodup : s.transferring.Nodup → s'.transferring.Nodup
  nodup_failed : s.failedRecvReqs.Nodup → s'.failedRecvReqs.Nodup
  invalid : s.invalidBlockIds ⊆ s'.invalidBlockIds

namespace SameBut

variable {s s' s'' : RecvWorker} {reqId : RequestId}

lemma refl (s : RecvWorker) (reqId : RequestId) : SameBut s s reqId :=
  ⟨rfl, rfl, rfl, rfl, rfl, rfl, rfl, rfl, fun _ _ => Iff.rfl, fun _ _ => Iff.rfl, id, id, List.Subset.refl _⟩

lemma trans (h : SameBut s s' reqId) (h' : SameBut s' s'' reqId) : SameBut s s'' reqId :=
  ⟨h'.remoteAgents.trans h.remoteAgents, h'.handshakeFutures.trans h.handshakeFutures, h'.waiting.trans h.waiting,
    h'.callbacks.trans h.callbacks, h'.failing.trans h.failing, h'.readyRequests.trans h.readyRequests,
    h'.recvingMetadata.trans h.recvingMetadata, h'.phase.trans h.phase,
    fun other hne => (h'.transferring other hne).trans (h.transferring other hne),
    fun other hne => (h'.failed other hne).trans (h.failed other hne), fun hn => h'.nodup (h.nodup hn),
    fun hn => h'.nodup_failed (h.nodup_failed hn), List.Subset.trans h.invalid h'.invalid⟩

end SameBut

/-- What holds of a request after reads of it: some were posted or could not be, and in the latter case its
blocks are invalid. -/
structure Posted (s : RecvWorker) (reqId : RequestId) (recvMeta : RecvMeta) (failed : Bool) : Prop where
  tracked : reqId ∈ s.transferring ∨ reqId ∈ s.failedRecvReqs
  invalid : failed = true → recvMeta.localBlockIds ⊆ s.invalidBlockIds

lemma invalidate_invalidBlockIds (h : s.recvingMetadata reqId = some recvMeta) :
    s.invalidate reqId = { s with invalidBlockIds := s.invalidBlockIds ++ recvMeta.localBlockIds } := by
  rw [invalidate, h]

lemma readBlocks_posted (s : RecvWorker) (reqId : RequestId) (hblocks : recvMeta.localBlockIds ≠ []) :
    SameBut s (readBlocks reqId recvMeta s true) reqId ∧
      reqId ∈ (readBlocks reqId recvMeta s true).transferring := by
  rw [readBlocks, if_neg hblocks, if_pos rfl]
  have hkeys := map_fst_appendHandle reqId s.nextHandle s.recvingTransfers
  refine ⟨⟨rfl, rfl, rfl, rfl, rfl, rfl, rfl, rfl, ?_, fun _ _ => Iff.rfl, ?_, id, List.Subset.refl _⟩, ?_⟩
  · intro other hne
    simp only [transferring, hkeys]
    split
    · rfl
    · simp [hne]
  · intro hnodup
    simp only [transferring, hkeys]
    split
    · exact hnodup
    · rename_i hnot
      exact nodup_append.2 ⟨hnodup, nodup_singleton _, by
        intro a ha b hb heq
        rw [mem_singleton] at hb
        exact hnot (hb ▸ heq ▸ ha)⟩
  · simp only [transferring, hkeys]
    split
    · assumption
    · simp

lemma readBlocks_failed (hblocks : recvMeta.localBlockIds ≠ [])
    (hmeta : s.recvingMetadata reqId = some recvMeta) :
    SameBut s (readBlocks reqId recvMeta s false) reqId ∧
      Posted (readBlocks reqId recvMeta s false) reqId recvMeta true := by
  rw [readBlocks, if_neg hblocks, if_neg Bool.false_ne_true, invalidate_invalidBlockIds hmeta]
  refine ⟨⟨rfl, rfl, rfl, rfl, rfl, rfl, rfl, rfl, fun _ _ => Iff.rfl, ?_, id, ?_, subset_append_left _ _⟩,
    .inr mem_insert_self, fun _ => subset_append_right _ _⟩
  · intro other hne
    simp [hne]
  · intro hnodup
    exact hnodup.insert

/-- The reads of a request, one after the other. -/
lemma foldl_readBlocks (hblocks : recvMeta.localBlockIds ≠ [])
    (hmeta : s.recvingMetadata reqId = some recvMeta) {outcomes : List Bool} (houtcomes : outcomes ≠ []) :
    SameBut s (outcomes.foldl (readBlocks reqId recvMeta) s) reqId ∧
      Posted (outcomes.foldl (readBlocks reqId recvMeta) s) reqId recvMeta (outcomes.any (! ·)) := by
  induction outcomes using List.reverseRecOn with
  | nil => exact absurd rfl houtcomes
  | append_singleton outcomes last ih =>
    rw [foldl_append, foldl_cons, foldl_nil]
    have hprev : SameBut s (outcomes.foldl (readBlocks reqId recvMeta) s) reqId ∧
        (outcomes.any (! ·) = true → recvMeta.localBlockIds ⊆
          (outcomes.foldl (readBlocks reqId recvMeta) s).invalidBlockIds) := by
      by_cases hnil : outcomes = []
      · subst hnil
        exact ⟨.refl s reqId, fun h => nomatch h⟩
      · exact ⟨(ih hnil).1, (ih hnil).2.invalid⟩
    obtain ⟨hsame, hinvalid⟩ := hprev
    have hmeta' := hmeta
    rw [← hsame.recvingMetadata] at hmeta'
    cases last with
    | true =>
      obtain ⟨hstep, htracked⟩ := readBlocks_posted (outcomes.foldl (readBlocks reqId recvMeta) s) reqId hblocks
      refine ⟨hsame.trans hstep, .inl htracked, ?_⟩
      intro hany
      exact List.Subset.trans (hinvalid (by simpa using hany)) hstep.invalid
    | false =>
      obtain ⟨hstep, hposted⟩ := readBlocks_failed hblocks hmeta'
      exact ⟨hsame.trans hstep, hposted.tracked, fun _ => hposted.invalid rfl⟩

/-- `_read_blocks_for_req` of a request with local blocks. -/
lemma readBlocksForReq_spec (posted : ℕ → Bool) (hmeta : s.recvingMetadata reqId = some recvMeta)
    (hranks : 0 < recvMeta.remoteRanks) :
    SameBut s (s.readBlocksForReq reqId recvMeta posted) reqId ∧
      (recvMeta.localBlockIds = [] → s.readBlocksForReq reqId recvMeta posted = s) ∧
      (recvMeta.localBlockIds ≠ [] → Posted (s.readBlocksForReq reqId recvMeta posted) reqId recvMeta
        (((range recvMeta.remoteRanks).map posted).any (! ·))) := by
  by_cases hblocks : recvMeta.localBlockIds = []
  · have hsame : s.readBlocksForReq reqId recvMeta posted = s := by
      rw [readBlocksForReq]
      induction (range recvMeta.remoteRanks).map posted with
      | nil => rfl
      | cons outcome outcomes ih =>
        rw [foldl_cons, readBlocks, if_pos hblocks]
        exact ih
    refine ⟨?_, fun _ => hsame, fun hne => absurd hblocks hne⟩
    rw [hsame]
    exact .refl s reqId
  · have hne : (range recvMeta.remoteRanks).map posted ≠ [] := by
      simpa using hranks.ne'
    obtain ⟨hsame, hposted⟩ := foldl_readBlocks hblocks hmeta hne
    exact ⟨hsame, fun hnil => absurd hnil hblocks, fun _ => hposted⟩

/-- In how many places a request waits for its reads to be posted. -/
def waits (s : RecvWorker) (reqId : RequestId) : ℕ :=
  (s.waiting.map (·.1)).count reqId + (s.callbacks.map (·.1.1)).count reqId + s.failing.toList.count reqId +
    (s.readyRequests.map (·.1)).count reqId

/-- The requests that `get_finished` is about to return. -/
def doneRecving (s : RecvWorker) : List RequestId :=
  match s.phase with
  | .none => []
  | .updated doneRecving => doneRecving
  | .cleared doneRecving => doneRecving

end RecvWorker

/-! ## The machine -/

/-- A worker with the requests that it was given, how often it has reported them, and whether a read or the
handshake of a request has failed. -/
structure RecvRun where
  worker : RecvWorker
  loaded : RequestId → Option RecvMeta
  reported : RequestId → ℕ
  readFailed : RequestId → Bool

inductive RecvStep where
  | loadRequest (reqId : RequestId) (recvMeta : RecvMeta) (posted : ℕ → Bool)
  | loadReady (posted : ℕ → Bool)
  | handshakeDone (engineId : EngineId) (succeeded : Bool)
  | requestReady
  | addFailed
  | readFailed (xferState : ℕ → XferState)
  | clearFailed
  | finish

namespace RecvRun

def new : RecvRun where
  worker := .new
  loaded _ := none
  reported _ := 0
  readFailed _ := false

/-- Whether a read of a request with local blocks is not posted. -/
def failsToPost (recvMeta : RecvMeta) (posted : ℕ → Bool) : Bool :=
  recvMeta.localBlockIds ≠ [] && ((List.range recvMeta.remoteRanks).map posted).any (! ·)

/-- The requests of which a read or the handshake fails in a step. -/
def failures (s : RecvWorker) : RecvStep → RequestId → Bool
  | .loadRequest reqId recvMeta posted, other =>
    other = reqId && s.remoteAgents recvMeta.remoteEngineId && failsToPost recvMeta posted
  | .loadReady posted, other => s.readyRequests.head?.any fun entry => other = entry.1 && failsToPost entry.2 posted
  | .requestReady, other => s.failing.isNone && s.callbacks.head?.any fun entry => other = entry.1.1 && !entry.2
  | .readFailed xferState, other => s.recvingTransfers.any fun entry =>
    other = entry.1 && entry.2.any (xferState · = .failed)
  | _, _ => false

/-- The worker after a step, and the requests that are returned. -/
def runWorker : RecvStep → RecvWorker → Except PyError (RecvWorker × List RequestId)
  | .loadRequest reqId recvMeta posted, s => .ok (s.loadRequest reqId recvMeta posted, [])
  | .loadReady posted, s => .ok (s.loadReady posted, [])
  | .handshakeDone engineId succeeded, s => .ok (s.handshakeDone engineId succeeded, [])
  | .requestReady, s => .ok (s.requestReady, [])
  | .addFailed, s => .ok (s.addFailed, [])
  | .readFailed xferState, s => .ok (s.readFailed xferState, [])
  | .clearFailed, s => .ok (s.clearFailed, [])
  | .finish, s => s.finish

def run (step : RecvStep) (t : RecvRun) : Except PyError RecvRun := do
  let result ← runWorker step t.worker
  return {
    worker := result.1
    loaded := match step with
      | .loadRequest reqId recvMeta _ => update t.loaded reqId (some recvMeta)
      | _ => t.loaded
    reported := fun reqId => t.reported reqId + result.2.count reqId
    readFailed := fun reqId => t.readFailed reqId || failures t.worker step reqId }

/-- The main thread makes one call after the other, a request is given once and has at least one remote rank,
and only a handshake that was started is done. -/
def Possible (t : RecvRun) : RecvStep → Prop
  | .loadRequest reqId recvMeta _ => t.worker.phase = .none ∧ t.loaded reqId = none ∧ 0 < recvMeta.remoteRanks
  | .loadReady _ | .readFailed _ => t.worker.phase = .none
  | .handshakeDone engineId _ => t.worker.handshakeFutures engineId = true
  | _ => True

/-- In addition, `get_finished` is not called while a request in `_failed_recv_reqs` has a transfer in
progress, and no request is added there between the reading and the clearing of it. -/
def Allowed (t : RecvRun) (step : RecvStep) : Prop :=
  t.Possible step ∧
    match step with
    | .readFailed xferState => ∀ entry ∈ t.worker.recvingTransfers, entry.1 ∈ t.worker.failedRecvReqs →
        ∀ handle ∈ entry.2, xferState handle ≠ .proc
    | .addFailed => ∀ doneRecving, t.worker.phase ≠ .updated doneRecving
    | _ => True

/-- Where a request is. -/
inductive Stage where
  | fresh
  | waiting
  | reading
  | done
  | reported
  | skipped

section Invariant

/- The request whose reads are about to be posted. -/
variable (loading : Option RequestId)

/-- What holds of a request at a stage: whether it was given and has its metadata, in how many places it
waits, whether it has transfers or is in `_failed_recv_reqs`, whether it is about to be returned, and how
often it was reported. -/
def AtStage (t : RecvRun) (reqId : RequestId) : Stage → Prop
  | .fresh => t.loaded reqId = none ∧ t.worker.recvingMetadata reqId = none ∧ t.worker.waits reqId = 0 ∧
      reqId ∉ t.worker.transferring ∧ reqId ∉ t.worker.failedRecvReqs ∧ reqId ∉ t.worker.doneRecving ∧
      t.reported reqId = 0
  | .waiting => (t.loaded reqId).isSome ∧ t.worker.recvingMetadata reqId = t.loaded reqId ∧
      t.worker.waits reqId = 1 ∧ reqId ∉ t.worker.transferring ∧ reqId ∉ t.worker.failedRecvReqs ∧
      reqId ∉ t.worker.doneRecving ∧ t.reported reqId = 0
  | .reading => (t.loaded reqId).isSome ∧ t.worker.recvingMetadata reqId = t.loaded reqId ∧
      t.worker.waits reqId = 0 ∧ (reqId ∈ t.worker.transferring ∨ reqId ∈ t.worker.failedRecvReqs) ∧
      reqId ∉ t.worker.doneRecving ∧ t.reported reqId = 0
  | .done => (t.loaded reqId).isSome ∧ t.worker.recvingMetadata reqId = t.loaded reqId ∧
      t.worker.waits reqId = 0 ∧ reqId ∉ t.worker.transferring ∧
      (reqId ∈ t.worker.failedRecvReqs → ∃ doneRecving, t.worker.phase = .updated doneRecving) ∧
      reqId ∈ t.worker.doneRecving ∧ t.reported reqId = 0
  | .reported => (t.loaded reqId).isSome ∧ t.worker.recvingMetadata reqId = none ∧ t.worker.waits reqId = 0 ∧
      reqId ∉ t.worker.transferring ∧ reqId ∉ t.worker.failedRecvReqs ∧ reqId ∉ t.worker.doneRecving ∧
      t.reported reqId = 1
  | .skipped => (∃ recvMeta, t.loaded reqId = some recvMeta ∧
        (recvMeta.localBlockIds = [] ∨ loading = some reqId)) ∧
      t.worker.recvingMetadata reqId = t.loaded reqId ∧ t.worker.waits reqId = 0 ∧
      reqId ∉ t.worker.transferring ∧ reqId ∉ t.worker.failedRecvReqs ∧ reqId ∉ t.worker.doneRecving ∧
      t.reported reqId = 0

structure Inv (t : RecvRun) : Prop where
  stage : ∀ reqId, ∃ stage, t.AtStage loading reqId stage
  ranks : ∀ reqId recvMeta, t.loaded reqId = some recvMeta → 0 < recvMeta.remoteRanks
  nodup : t.worker.transferring.Nodup
  nodup_failed : t.worker.failedRecvReqs.Nodup
  nodup_done : t.worker.doneRecving.Nodup
  updated : ∀ doneRecving, t.worker.phase = .updated doneRecving → t.worker.failedRecvReqs ⊆ doneRecving
  waiting : ∀ entry ∈ t.worker.waiting, t.loaded entry.1 = some entry.2
  callbacks : ∀ entry ∈ t.worker.callbacks, t.loaded entry.1.1 = some entry.1.2
  ready : ∀ entry ∈ t.worker.readyRequests, t.loaded entry.1 = some entry.2
  failed_loaded : ∀ reqId, t.readFailed reqId = true → (t.loaded reqId).isSome
  invalid : ∀ reqId recvMeta, t.loaded reqId = some recvMeta → t.readFailed reqId = true →
    recvMeta.localBlockIds ⊆ t.worker.invalidBlockIds

end Invariant

/-- A step that does not concern a request. -/
structure SameFor (t t' : RecvRun) (reqId : RequestId) : Prop where
  loaded : t'.loaded reqId = t.loaded reqId
  metadata : t'.worker.recvingMetadata reqId = t.worker.recvingMetadata reqId
  waits : t'.worker.waits reqId = t.worker.waits reqId
  transferring : reqId ∈ t'.worker.transferring ↔ reqId ∈ t.worker.transferring
  failed : reqId ∈ t'.worker.failedRecvReqs ↔ reqId ∈ t.worker.failedRecvReqs
  phase : t'.worker.phase = t.worker.phase
  reported : t'.reported reqId = t.reported reqId

variable {t t' : RecvRun} {reqId : RequestId} {stage : Stage} {loading : Option RequestId}

lemma SameFor.atStage (h : SameFor t t' reqId) (hstage : t.AtStage loading reqId stage) :
    t'.AtStage loading reqId stage := by
  have hdone : t'.worker.doneRecving = t.worker.doneRecving := by
    rw [RecvWorker.doneRecving, h.phase]
    rfl
  cases stage <;>
    simpa only [AtStage, h.loaded, h.metadata, h.waits, h.transferring, h.failed, h.phase, h.reported, hdone]
      using hstage

/-- Whose reads are about to be posted matters for that request only. -/
lemma AtStage.other {loading' : Option RequestId} (h : t.AtStage loading reqId stage)
    (hne : loading ≠ some reqId) : t.AtStage loading' reqId stage := by
  cases stage with
  | skipped =>
    obtain ⟨⟨recvMeta, hloaded, hblocks⟩, hrest⟩ := h
    exact ⟨⟨recvMeta, hloaded, .inl (hblocks.resolve_right hne)⟩, hrest⟩
  | fresh | waiting | reading | done | reported => exact h

namespace Inv

variable {recvMeta : RecvMeta} {posted : ℕ → Bool}

lemma fresh (h : Inv loading t) (hloaded : t.loaded reqId = none) : t.AtStage loading reqId .fresh := by
  obtain ⟨stage, hstage⟩ := h.stage reqId
  cases stage with
  | fresh => exact hstage
  | waiting | reading | done | reported => simp [AtStage, hloaded] at hstage
  | skipped =>
    obtain ⟨⟨_, hsome, -⟩, -⟩ := hstage
    rw [hloaded] at hsome
    cases hsome

/-- A request that waits is nowhere else. -/
lemma atWaiting (h : Inv loading t) (hwaits : 0 < t.worker.waits reqId) : t.AtStage loading reqId .waiting := by
  obtain ⟨stage, hstage⟩ := h.stage reqId
  cases stage with
  | waiting => exact hstage
  | fresh | reading | done | reported | skipped =>
    have hzero := hstage.2.2.1
    omega

/-- A request that has transfers, or of which a read could not be posted, is not about to be returned
outside of `get_finished`. -/
lemma atReading (h : Inv loading t) (htracked : reqId ∈ t.worker.transferring ∨ reqId ∈ t.worker.failedRecvReqs)
    (hnot : reqId ∉ t.worker.doneRecving) : t.AtStage loading reqId .reading := by
  obtain ⟨stage, hstage⟩ := h.stage reqId
  cases stage with
  | reading => exact hstage
  | fresh | waiting | reported | skipped =>
    obtain ⟨-, -, -, htrans, hfailed, -⟩ := hstage
    exact absurd htracked (not_or_intro htrans hfailed)
  | done => exact absurd hstage.2.2.2.2.2.1 hnot

lemma doneRecving_nil (hphase : t.worker.phase = .none) : t.worker.doneRecving = [] := by
  rw [RecvWorker.doneRecving, hphase]

/-! ## Loading -/

/-- The reads of a request are posted. -/
lemma postReads (h : Inv (some reqId) t) (hloaded : t.loaded reqId = some recvMeta)
    (hstage : t.AtStage (some reqId) reqId .skipped) (hphase : t.worker.phase = .none)
    (posted : ℕ → Bool) :
    Inv none { t with
      worker := t.worker.readBlocksForReq reqId recvMeta posted
      readFailed := fun other => t.readFailed other || (decide (other = reqId) && failsToPost recvMeta posted) } := by
  obtain ⟨-, hmeta, hwaits, htrans, hfailed, hdone, hreported⟩ := hstage
  obtain ⟨hsame, hskip, hposted⟩ := RecvWorker.readBlocksForReq_spec posted (hmeta.trans hloaded)
    (h.ranks reqId recvMeta hloaded)
  have hwaitsSame (other : RequestId) :
      (t.worker.readBlocksForReq reqId recvMeta posted).waits other = t.worker.waits other := by
    rw [RecvWorker.waits, hsame.waiting, hsame.callbacks, hsame.failing, hsame.readyRequests]
    rfl
  have hdoneSame : (t.worker.readBlocksForReq reqId recvMeta posted).doneRecving = [] := by
    rw [RecvWorker.doneRecving, hsame.phase, hphase]
  refine ⟨?_, h.ranks, hsame.nodup h.nodup, hsame.nodup_failed h.nodup_failed, ?_, ?_, ?_, ?_, ?_, ?_, ?_⟩
  · intro other
    by_cases hne : other = reqId
    · subst hne
      by_cases hblocks : recvMeta.localBlockIds = []
      · have hunchanged := hskip hblocks
        refine ⟨.skipped, ⟨recvMeta, hloaded, .inl hblocks⟩, ?_⟩
        simp only [hunchanged]
        exact ⟨hmeta, hwaits, htrans, hfailed, hdone, hreported⟩
      · refine ⟨.reading, by rw [hloaded]; rfl, ?_, (hwaitsSame other).trans hwaits, (hposted hblocks).tracked, ?_,
          hreported⟩
        · rw [hsame.recvingMetadata]
          exact hmeta
        · rw [hdoneSame]
          exact not_mem_nil
    · obtain ⟨stage, hother⟩ := h.stage other
      refine ⟨stage, AtStage.other (SameFor.atStage (t := t) ⟨rfl, ?_, hwaitsSame other, hsame.transferring other hne,
        hsame.failed other hne, hsame.phase, rfl⟩ hother) ?_⟩
      · rw [hsame.recvingMetadata]
      · simpa using Ne.symm hne
  · rw [hdoneSame]
    exact nodup_nil
  · intro doneRecving hupdated
    rw [hsame.phase, hphase] at hupdated
    cases hupdated
  · rw [hsame.waiting]
    exact h.waiting
  · rw [hsame.callbacks]
    exact h.callbacks
  · rw [hsame.readyRequests]
    exact h.ready
  · intro other hfail
    rcases Bool.or_eq_true_iff.1 hfail with hfail | hfail
    · exact h.failed_loaded other hfail
    · obtain rfl := of_decide_eq_true (Bool.and_eq_true_iff.1 hfail).1
      rw [hloaded]
      rfl
  · intro other otherMeta hget hfail
    rcases Bool.or_eq_true_iff.1 hfail with hfail | hfail
    · exact List.Subset.trans (h.invalid other otherMeta hget hfail) hsame.invalid
    · obtain ⟨hother, hfails⟩ := Bool.and_eq_true_iff.1 hfail
      obtain rfl := of_decide_eq_true hother
      cases hloaded.symm.trans hget
      obtain ⟨hblocks, hany⟩ := Bool.and_eq_true_iff.1 hfails
      exact (hposted (of_decide_eq_true hblocks)).invalid hany

/-- A request is given: it has its metadata, and nothing has been done for it. -/
lemma addRequest (h : Inv none t) (hloaded : t.loaded reqId = none) (hranks : 0 < recvMeta.remoteRanks) :
    Inv (some reqId) { t with
        worker := { t.worker with
          recvingMetadata := update t.worker.recvingMetadata reqId (some recvMeta) }
        loaded := update t.loaded reqId (some recvMeta) } ∧
      AtStage (some reqId) { t with
        worker := { t.worker with
          recvingMetadata := update t.worker.recvingMetadata reqId (some recvMeta) }
        loaded := update t.loaded reqId (some recvMeta) } reqId .skipped := by
  obtain ⟨-, -, hwaits, htrans, hfailed, hdone, hreported⟩ := h.fresh hloaded
  have hentry {other : RequestId} {otherMeta : RecvMeta} (hget : t.loaded other = some otherMeta) :
      update t.loaded reqId (some recvMeta) other = some otherMeta := by
    have hne : other ≠ reqId := by
      intro heq
      rw [heq, hloaded] at hget
      cases hget
    rw [update_of_ne hne]
    exact hget
  have hself : AtStage (some reqId) { t with
      worker := { t.worker with
        recvingMetadata := update t.worker.recvingMetadata reqId (some recvMeta) }
      loaded := update t.loaded reqId (some recvMeta) } reqId .skipped :=
    ⟨⟨recvMeta, update_self _ _ _, .inr rfl⟩,
      by simp only [update_self], hwaits, htrans, hfailed, hdone, hreported⟩
  refine ⟨⟨?_, ?_, h.nodup, h.nodup_failed, h.nodup_done, h.updated, fun entry hmem => hentry (h.waiting entry hmem),
    fun entry hmem => hentry (h.callbacks entry hmem), fun entry hmem => hentry (h.ready entry hmem), ?_, ?_⟩, hself⟩
  · intro other
    by_cases hne : other = reqId
    · subst hne
      exact ⟨.skipped, hself⟩
    · obtain ⟨stage, hother⟩ := h.stage other
      refine ⟨stage, AtStage.other (SameFor.atStage (t := t) ⟨?_, ?_, rfl, Iff.rfl, Iff.rfl, rfl, rfl⟩ hother) nofun⟩
      · exact update_of_ne hne _ _
      · exact update_of_ne hne _ _
  · intro other otherMeta hget
    by_cases hne : other = reqId
    · subst hne
      obtain rfl : recvMeta = otherMeta := by simpa using hget
      exact hranks
    · exact h.ranks other otherMeta (by simpa [hne] using hget)
  · intro other hfail
    by_cases hne : other = reqId
    · subst hne
      simp
    · simpa [hne] using h.failed_loaded other hfail
  · intro other otherMeta hget hfail
    by_cases hne : other = reqId
    · subst hne
      have hsome := h.failed_loaded other hfail
      rw [hloaded] at hsome
      cases hsome
    · exact h.invalid other otherMeta (by simpa [hne] using hget) hfail

/-- A request waits for the handshake. -/
lemma startHandshake (h : Inv (some reqId) t) (hloaded : t.loaded reqId = some recvMeta)
    (hstage : t.AtStage (some reqId) reqId .skipped) :
    Inv none { t with worker := t.worker.backgroundHandshake reqId recvMeta } := by
  obtain ⟨-, hmeta, hwaits, htrans, hfailed, hdone, hreported⟩ := hstage
  have hwaits' (other : RequestId) : (t.worker.backgroundHandshake reqId recvMeta).waits other =
      t.worker.waits other + if reqId = other then 1 else 0 := by
    simp only [RecvWorker.waits, RecvWorker.backgroundHandshake, map_append, map_cons, map_nil,
      count_append, count_singleton, beq_iff_eq]
    omega
  refine ⟨?_, h.ranks, h.nodup, h.nodup_failed, h.nodup_done, h.updated, ?_, h.callbacks, h.ready, h.failed_loaded,
    h.invalid⟩
  · intro other
    by_cases hne : other = reqId
    · subst hne
      refine ⟨.waiting, by rw [hloaded]; rfl, hmeta, ?_, htrans, hfailed, hdone, hreported⟩
      rw [hwaits', if_pos rfl, hwaits]
    · obtain ⟨stage, hother⟩ := h.stage other
      refine ⟨stage, AtStage.other (SameFor.atStage (t := t) ⟨rfl, rfl, ?_, Iff.rfl, Iff.rfl, rfl, rfl⟩ hother) ?_⟩
      · rw [hwaits', if_neg (Ne.symm hne)]
        rfl
      · simpa using Ne.symm hne
  · intro entry hmem
    rcases mem_append.1 hmem with hmem | hmem
    · exact h.waiting entry hmem
    · obtain rfl := mem_singleton.1 hmem
      exact hloaded

lemma loadRequest (h : Inv none t) (hpossible : t.Possible (.loadRequest reqId recvMeta posted))
    (hrun : run (.loadRequest reqId recvMeta posted) t = .ok t') : Inv none t' := by
  obtain ⟨hphase, hloaded, hranks⟩ := hpossible
  cases hrun
  obtain ⟨hadded, hstage⟩ := h.addRequest hloaded hranks
  have hself : update t.loaded reqId (some recvMeta) reqId = some recvMeta := update_self _ _ _
  by_cases hagents : t.worker.remoteAgents recvMeta.remoteEngineId = true
  · have hposted := hadded.postReads hself hstage hphase posted
    have hload : t.worker.loadRequest reqId recvMeta posted =
        RecvWorker.readBlocksForReq { t.worker with
          recvingMetadata := update t.worker.recvingMetadata reqId (some recvMeta) } reqId recvMeta posted :=
      if_pos hagents
    simpa [failures, hagents, hload] using hposted
  · have hstarted := hadded.startHandshake hself hstage
    have hload : t.worker.loadRequest reqId recvMeta posted =
        RecvWorker.backgroundHandshake { t.worker with
          recvingMetadata := update t.worker.recvingMetadata reqId (some recvMeta) } reqId recvMeta :=
      if_neg hagents
    simpa [failures, hagents, hload] using hstarted

lemma loadReady (h : Inv none t) (hphase : t.worker.phase = .none)
    (hrun : run (.loadReady posted) t = .ok t') : Inv none t' := by
  cases hrun
  cases hready : t.worker.readyRequests with
  | nil =>
    have hsame : t.worker.loadReady posted = t.worker := by
      rw [RecvWorker.loadReady, hready]
    simpa [failures, hready, hsame] using h
  | cons entry ready =>
    obtain ⟨reqId, recvMeta⟩ := entry
    have hloaded : t.loaded reqId = some recvMeta := h.ready (reqId, recvMeta) (by simp [hready])
    have hwaits (other : RequestId) :
        t.worker.waits other = RecvWorker.waits { t.worker with readyRequests := ready } other +
          if reqId = other then 1 else 0 := by
      simp only [RecvWorker.waits, hready, map_cons, count_cons, beq_iff_eq]
      omega
    have hself := hwaits reqId
    rw [if_pos rfl] at hself
    obtain ⟨-, hmeta, hone, htrans, hfailed, hdone, hreported⟩ := h.atWaiting (by omega : 0 < t.worker.waits reqId)
    have hzero : RecvWorker.waits { t.worker with readyRequests := ready } reqId = 0 := by omega
    have hstage : AtStage (some reqId) { t with worker := { t.worker with readyRequests := ready } } reqId
        .skipped := by
      exact ⟨⟨recvMeta, hloaded, .inr rfl⟩, hmeta, hzero, htrans, hfailed, hdone, hreported⟩
    have htaken : Inv (some reqId) { t with worker := { t.worker with readyRequests := ready } } := by
      refine ⟨?_, h.ranks, h.nodup, h.nodup_failed, h.nodup_done, h.updated, h.waiting, h.callbacks, ?_,
        h.failed_loaded, h.invalid⟩
      · intro other
        by_cases hne : other = reqId
        · subst hne
          exact ⟨.skipped, hstage⟩
        · obtain ⟨stage, hother⟩ := h.stage other
          refine ⟨stage, AtStage.other (SameFor.atStage (t := t) ⟨rfl, rfl, ?_, Iff.rfl, Iff.rfl, rfl, rfl⟩ hother)
            nofun⟩
          have hcount := hwaits other
          rw [if_neg (Ne.symm hne)] at hcount
          exact hcount.symm
      · intro entry hmem
        exact h.ready entry (by rw [hready]; exact mem_cons_of_mem _ hmem)
    have hposted := htaken.postReads hloaded hstage hphase posted
    have hload : t.worker.loadReady posted =
        RecvWorker.readBlocksForReq { t.worker with readyRequests := ready } reqId recvMeta posted := by
      rw [RecvWorker.loadReady, hready]
    simpa [failures, hready, hload] using hposted

/-! ## Handshakes -/

/-- A step of the other thread after which every request waits in as many places as before. -/
lemma moveWaiting (h : Inv none t) (worker : RecvWorker)
    (hmeta : worker.recvingMetadata = t.worker.recvingMetadata)
    (hwaits : ∀ other, worker.waits other = t.worker.waits other)
    (htransfers : worker.recvingTransfers = t.worker.recvingTransfers)
    (hfailed : worker.failedRecvReqs = t.worker.failedRecvReqs) (hphase : worker.phase = t.worker.phase)
    (hwaiting : ∀ entry ∈ worker.waiting, t.loaded entry.1 = some entry.2)
    (hcallbacks : ∀ entry ∈ worker.callbacks, t.loaded entry.1.1 = some entry.1.2)
    (hready : ∀ entry ∈ worker.readyRequests, t.loaded entry.1 = some entry.2) {readFailed : RequestId → Bool}
    (hfailedLoaded : ∀ reqId, readFailed reqId = true → (t.loaded reqId).isSome)
    (hinvalid : ∀ reqId recvMeta, t.loaded reqId = some recvMeta → readFailed reqId = true →
      recvMeta.localBlockIds ⊆ worker.invalidBlockIds) :
    Inv none { t with worker, readFailed } := by
  have htrans : worker.transferring = t.worker.transferring := by
    rw [RecvWorker.transferring, htransfers]
    rfl
  have hdone : worker.doneRecving = t.worker.doneRecving := by
    rw [RecvWorker.doneRecving, hphase]
    rfl
  refine ⟨?_, h.ranks, ?_, ?_, ?_, ?_, hwaiting, hcallbacks, hready, hfailedLoaded, hinvalid⟩
  · intro other
    obtain ⟨stage, hstage⟩ := h.stage other
    refine ⟨stage, SameFor.atStage (t := t) ⟨rfl, ?_, hwaits other, ?_, ?_, hphase, rfl⟩ hstage⟩
    · rw [hmeta]
    · rw [htrans]
    · rw [hfailed]
  · rw [htrans]
    exact h.nodup
  · rw [hfailed]
    exact h.nodup_failed
  · rw [hdone]
    exact h.nodup_done
  · rw [hphase, hfailed]
    exact h.updated

lemma run_eq {step : RecvStep} {worker : RecvWorker} (hworker : runWorker step t.worker = .ok (worker, []))
    (hload : ∀ reqId recvMeta posted, step ≠ .loadRequest reqId recvMeta posted) (hrun : run step t = .ok t') :
    t' = { t with worker, readFailed := fun reqId => t.readFailed reqId || failures t.worker step reqId } := by
  unfold run at hrun
  rw [hworker] at hrun
  cases hrun
  cases step with
  | loadRequest reqId recvMeta posted => exact absurd rfl (hload reqId recvMeta posted)
  | loadReady | handshakeDone | requestReady | addFailed | readFailed | clearFailed | finish => rfl

lemma handshakeDone (h : Inv none t) {engineId : EngineId} {succeeded : Bool}
    (hrun : run (.handshakeDone engineId succeeded) t = .ok t') : Inv none t' := by
  obtain rfl := run_eq rfl (by simp) hrun
  refine h.moveWaiting (t.worker.handshakeDone engineId succeeded) rfl ?_ rfl rfl rfl ?_ ?_ h.ready ?_ ?_
  · intro other
    have hsplit : ((t.worker.waiting.filter (·.2.remoteEngineId ≠ engineId)).map (·.1)).count other +
        ((t.worker.waiting.filter (·.2.remoteEngineId = engineId)).map (·.1)).count other =
          (t.worker.waiting.map (·.1)).count other := by
      induction t.worker.waiting with
      | nil => rfl
      | cons entry waiting ih =>
        by_cases hengine : entry.2.remoteEngineId = engineId
        · simp only [filter_cons, hengine, ne_eq, not_true_eq_false, decide_false, Bool.false_eq_true, if_false,
            decide_true, if_true, map_cons, count_cons]
          simp only [ne_eq] at ih
          omega
        · simp only [filter_cons, hengine, ne_eq, not_false_eq_true, decide_true, if_true, decide_false,
            Bool.false_eq_true, if_false, map_cons, count_cons]
          simp only [ne_eq] at ih
          omega
    simp only [RecvWorker.waits, RecvWorker.handshakeDone, map_append, map_map, count_append]
    have hmap : ((fun entry : (RequestId × RecvMeta) × Bool => entry.1.1) ∘ fun entry => (entry, succeeded)) =
        fun entry : RequestId × RecvMeta => entry.1 := rfl
    rw [hmap]
    omega
  · intro entry hmem
    exact h.waiting entry (mem_filter.1 hmem).1
  · intro entry hmem
    rcases mem_append.1 hmem with hmem | hmem
    · exact h.callbacks entry hmem
    · obtain ⟨waiting, hwaiting, rfl⟩ := mem_map.1 hmem
      exact h.waiting waiting (mem_filter.1 hwaiting).1
  · intro reqId hfail
    exact h.failed_loaded reqId (by simpa [failures] using hfail)
  · intro reqId recvMeta hloaded hfail
    exact h.invalid reqId recvMeta hloaded (by simpa [failures] using hfail)

lemma requestReady (h : Inv none t) (hrun : run .requestReady t = .ok t') : Inv none t' := by
  obtain rfl := run_eq rfl (by simp) hrun
  cases hfailing : t.worker.failing with
  | some failing =>
    have hsame : t.worker.requestReady = t.worker := by
      unfold RecvWorker.requestReady
      rw [hfailing]
      split <;> simp_all
    simpa [failures, hfailing, hsame] using h
  | none =>
    cases hcallbacks : t.worker.callbacks with
    | nil =>
      have hsame : t.worker.requestReady = t.worker := by
        rw [RecvWorker.requestReady, hcallbacks]
      simpa [failures, hcallbacks, hsame] using h
    | cons first callbacks =>
      obtain ⟨entry, succeeded⟩ := first
      have hloaded : t.loaded entry.1 = some entry.2 := h.callbacks (entry, succeeded) (by simp [hcallbacks])
      have hwaitsPos : 0 < t.worker.waits entry.1 := by
        simp only [RecvWorker.waits, hcallbacks, map_cons, count_cons_self]
        omega
      have hmeta : t.worker.recvingMetadata entry.1 = some entry.2 :=
        (h.atWaiting hwaitsPos).2.1.trans hloaded
      have hrest : ∀ other ∈ callbacks, t.loaded other.1.1 = some other.1.2 := fun other hmem =>
        h.callbacks other (by rw [hcallbacks]; exact mem_cons_of_mem _ hmem)
      cases succeeded with
      | true =>
        have hnext : t.worker.requestReady = { t.worker with
            callbacks, readyRequests := t.worker.readyRequests ++ [entry] } := by
          simp only [RecvWorker.requestReady, hcallbacks, hfailing]
        rw [hnext]
        refine h.moveWaiting { t.worker with
          callbacks, readyRequests := t.worker.readyRequests ++ [entry] } rfl ?_ rfl rfl rfl h.waiting hrest
            ?_ ?_ ?_
        · intro other
          simp only [RecvWorker.waits, hcallbacks, map_cons, map_append, map_nil, count_cons,
            count_append, count_nil]
          omega
        · intro ready hmem
          rcases mem_append.1 hmem with hmem | hmem
          · exact h.ready ready hmem
          · obtain rfl := mem_singleton.1 hmem
            exact hloaded
        · intro reqId hfail
          exact h.failed_loaded reqId (by simpa [failures, hcallbacks] using hfail)
        · intro reqId recvMeta hget hfail
          exact h.invalid reqId recvMeta hget (by simpa [failures, hcallbacks] using hfail)
      | false =>
        have hnext : t.worker.requestReady = { t.worker with
            callbacks, failing := some entry.1
            invalidBlockIds := t.worker.invalidBlockIds ++ entry.2.localBlockIds } := by
          simp only [RecvWorker.requestReady, hcallbacks, hfailing, RecvWorker.invalidate_invalidBlockIds hmeta]
        have hfails (reqId : RequestId)
            (hfail : (t.readFailed reqId || failures t.worker .requestReady reqId) = true) :
            t.readFailed reqId = true ∨ reqId = entry.1 := by
          simpa [failures, hcallbacks, hfailing] using hfail
        rw [hnext]
        refine h.moveWaiting { t.worker with
          callbacks, failing := some entry.1
          invalidBlockIds := t.worker.invalidBlockIds ++ entry.2.localBlockIds } rfl ?_ rfl rfl rfl h.waiting
            hrest h.ready ?_ ?_
        · intro other
          simp only [RecvWorker.waits, hcallbacks, hfailing, map_cons, count_cons, Option.toList_some,
            Option.toList_none, count_nil]
          omega
        · intro reqId hfail
          rcases hfails reqId hfail with hfail | rfl
          · exact h.failed_loaded reqId hfail
          · rw [hloaded]
            rfl
        · intro reqId recvMeta hget hfail
          rcases hfails reqId hfail with hfail | rfl
          · exact List.Subset.trans (h.invalid reqId recvMeta hget hfail) (subset_append_left _ _)
          · cases hloaded.symm.trans hget
            exact subset_append_right _ _

lemma addFailed (h : Inv none t) (hallowed : ∀ doneRecving, t.worker.phase ≠ .updated doneRecving)
    (hrun : run .addFailed t = .ok t') : Inv none t' := by
  obtain rfl := run_eq rfl (by simp) hrun
  have hreadFailed : (fun reqId => t.readFailed reqId || failures t.worker .addFailed reqId) = t.readFailed := by
    funext reqId
    simp [failures]
  rw [hreadFailed]
  cases hfailing : t.worker.failing with
  | none =>
    have hsame : t.worker.addFailed = t.worker := by
      rw [RecvWorker.addFailed, hfailing]
    rw [hsame]
    exact h
  | some reqId =>
    have hnext : t.worker.addFailed = { t.worker with
        failedRecvReqs := t.worker.failedRecvReqs.insert reqId, failing := none } := by
      rw [RecvWorker.addFailed, hfailing]
    rw [hnext]
    have hwaits (other : RequestId) : t.worker.waits other = RecvWorker.waits { t.worker with
        failedRecvReqs := t.worker.failedRecvReqs.insert reqId, failing := none } other +
          if reqId = other then 1 else 0 := by
      simp only [RecvWorker.waits, hfailing, Option.toList_some, Option.toList_none, count_nil,
        count_singleton, beq_iff_eq]
      omega
    have hself := hwaits reqId
    rw [if_pos rfl] at hself
    obtain ⟨hsome, hmeta, hone, htrans, -, hdone, hreported⟩ :=
      h.atWaiting (by omega : 0 < t.worker.waits reqId)
    have hzero : RecvWorker.waits { t.worker with
        failedRecvReqs := t.worker.failedRecvReqs.insert reqId, failing := none } reqId = 0 := by
      omega
    refine ⟨?_, h.ranks, h.nodup, h.nodup_failed.insert, h.nodup_done, ?_, h.waiting, h.callbacks, h.ready,
      h.failed_loaded, h.invalid⟩
    · intro other
      by_cases hne : other = reqId
      · subst hne
        exact ⟨.reading, hsome, hmeta, hzero, .inr mem_insert_self, hdone, hreported⟩
      · obtain ⟨stage, hother⟩ := h.stage other
        refine ⟨stage, SameFor.atStage (t := t) ⟨rfl, rfl, ?_, Iff.rfl, ?_, rfl, rfl⟩ hother⟩
        · have hcount := hwaits other
          rw [if_neg (Ne.symm hne)] at hcount
          exact hcount.symm
        · simp [hne]
    · intro doneRecving hupdated
      exact absurd hupdated (hallowed doneRecving)

end Inv

end RecvRun

/-! ## `get_finished` -/

namespace RecvWorker

variable {s : RecvWorker}

/-- Of the transfers of a request, those in progress are left; without any it is done. -/
lemma mem_popDoneTransfers (xferState : ℕ → XferState) (transfers : List (RequestId × List ℕ)) (reqId : RequestId) :
    (reqId ∈ (popDoneTransfers xferState transfers).1 ↔
        ∃ handles, (reqId, handles) ∈ transfers ∧ ∀ handle ∈ handles, xferState handle ≠ .proc) ∧
      (reqId ∈ (popDoneTransfers xferState transfers).2.map (·.1) ↔
        ∃ handles, (reqId, handles) ∈ transfers ∧ ∃ handle ∈ handles, xferState handle = .proc) := by
  unfold popDoneTransfers
  constructor
  · simp [filter_eq_nil_iff]
  · simp only [mem_map, mem_filter, decide_eq_true_eq, ne_eq, Prod.exists, exists_and_right,
      exists_eq_right]
    constructor
    · rintro ⟨_, ⟨key, handles, hmem, heq⟩, hne⟩
      cases heq
      refine ⟨handles, hmem, ?_⟩
      simpa [filter_eq_nil_iff] using hne
    · rintro ⟨handles, hmem, handle, hhandle, hproc⟩
      refine ⟨_, ⟨reqId, handles, hmem, rfl⟩, ?_⟩
      rw [filter_eq_nil_iff]
      push Not
      exact ⟨handle, hhandle, by simpa using hproc⟩

lemma nodup_popDoneTransfers (xferState : ℕ → XferState) {transfers : List (RequestId × List ℕ)}
    (hnodup : (transfers.map (·.1)).Nodup) :
    (popDoneTransfers xferState transfers).1.Nodup ∧ ((popDoneTransfers xferState transfers).2.map (·.1)).Nodup := by
  have hkeys : ((transfers.map fun entry => (entry.1, entry.2.filter (xferState · = .proc))).map (·.1)).Nodup := by
    rw [map_map]
    exact hnodup
  exact ⟨hkeys.sublist (filter_sublist.map _), hkeys.sublist (filter_sublist.map _)⟩

/-- Marking blocks invalid changes nothing else. -/
lemma invalidate_eq (s : RecvWorker) (reqId : RequestId) :
    ∃ blocks, s.invalidate reqId = { s with invalidBlockIds := s.invalidBlockIds ++ blocks } := by
  unfold invalidate
  cases s.recvingMetadata reqId with
  | none => exact ⟨[], by simp⟩
  | some recvMeta => exact ⟨recvMeta.localBlockIds, rfl⟩

lemma foldl_invalidate (xferState : ℕ → XferState) (reqId : RequestId) (handles : List ℕ) (s : RecvWorker) :
    ∃ blocks, handles.foldl (fun s handle => if xferState handle = .failed then s.invalidate reqId else s) s =
        { s with invalidBlockIds := s.invalidBlockIds ++ blocks } ∧
      ((∃ handle ∈ handles, xferState handle = .failed) → ∀ recvMeta, s.recvingMetadata reqId = some recvMeta →
        recvMeta.localBlockIds ⊆ s.invalidBlockIds ++ blocks) := by
  induction handles generalizing s with
  | nil => exact ⟨[], by simp, by simp⟩
  | cons handle handles ih =>
    rw [foldl_cons]
    by_cases hfailed : xferState handle = .failed
    · rw [if_pos hfailed]
      obtain ⟨first, hfirst⟩ := s.invalidate_eq reqId
      obtain ⟨blocks, hfold, -⟩ := ih (s.invalidate reqId)
      refine ⟨first ++ blocks, ?_, ?_⟩
      · rw [hfold, hfirst]
        simp
      · intro _ recvMeta hmeta
        have hsame := congrArg RecvWorker.invalidBlockIds (hfirst.symm.trans (invalidate_invalidBlockIds hmeta))
        have heq : first = recvMeta.localBlockIds := append_cancel_left hsame
        rw [heq]
        exact List.Subset.trans (subset_append_left _ blocks) (subset_append_right _ _)
    · rw [if_neg hfailed]
      obtain ⟨blocks, hfold, hinvalid⟩ := ih s
      refine ⟨blocks, hfold, ?_⟩
      rintro ⟨handle', hmem, hfailed'⟩
      rcases mem_cons.1 hmem with rfl | hmem
      · exact absurd hfailed' hfailed
      · exact hinvalid ⟨handle', hmem, hfailed'⟩

/-- The blocks of every request with a failed transfer are marked invalid, and nothing else changes. -/
lemma foldl_invalidateFailed (xferState : ℕ → XferState) (transfers : List (RequestId × List ℕ)) (s : RecvWorker) :
    ∃ blocks, transfers.foldl (fun s entry =>
          entry.2.foldl (fun s handle => if xferState handle = .failed then s.invalidate entry.1 else s) s) s =
        { s with invalidBlockIds := s.invalidBlockIds ++ blocks } ∧
      ∀ entry ∈ transfers, (∃ handle ∈ entry.2, xferState handle = .failed) → ∀ recvMeta,
        s.recvingMetadata entry.1 = some recvMeta → recvMeta.localBlockIds ⊆ s.invalidBlockIds ++ blocks := by
  induction transfers generalizing s with
  | nil => exact ⟨[], by simp, by simp⟩
  | cons first transfers ih =>
    rw [foldl_cons]
    obtain ⟨blocks, hfold, hinvalid⟩ := foldl_invalidate xferState first.1 first.2 s
    obtain ⟨more, hmore, hinvalid'⟩ := ih { s with invalidBlockIds := s.invalidBlockIds ++ blocks }
    refine ⟨blocks ++ more, ?_, ?_⟩
    · rw [hfold, hmore]
      simp
    · intro entry hmem hfailed recvMeta hmeta
      rcases mem_cons.1 hmem with rfl | hmem
      · refine List.Subset.trans (hinvalid hfailed recvMeta hmeta) ?_
        rw [← append_assoc]
        exact subset_append_left _ _
      · have hsub := hinvalid' entry hmem hfailed recvMeta hmeta
        rwa [append_assoc] at hsub

/-- The requests whose metadata is popped, none of them twice. -/
lemma foldlM_popMetadata {doneRecving : List RequestId} (hnodup : doneRecving.Nodup)
    (hmeta : ∀ reqId ∈ doneRecving, (s.recvingMetadata reqId).isSome) :
    ∃ recvingMetadata, doneRecving.foldlM popMetadata s = .ok { s with recvingMetadata } ∧
      ∀ reqId, recvingMetadata reqId = if reqId ∈ doneRecving then none else s.recvingMetadata reqId := by
  induction doneRecving generalizing s with
  | nil => exact ⟨s.recvingMetadata, rfl, by simp⟩
  | cons first doneRecving ih =>
    obtain ⟨hnot, hnodup⟩ := nodup_cons.1 hnodup
    have hpop : s.popMetadata first =
        .ok { s with recvingMetadata := update s.recvingMetadata first none } := by
      rw [popMetadata, if_pos (hmeta first mem_cons_self)]
    obtain ⟨recvingMetadata, hfold, hlookup⟩ := ih
      (s := { s with recvingMetadata := update s.recvingMetadata first none }) hnodup (by
        intro reqId hmem
        have hne : reqId ≠ first := fun heq => hnot (heq ▸ hmem)
        simpa [hne] using hmeta reqId (mem_cons_of_mem _ hmem))
    refine ⟨recvingMetadata, ?_, ?_⟩
    · rw [foldlM_cons, hpop]
      exact hfold
    · intro reqId
      rw [hlookup]
      by_cases hne : reqId = first
      · subst hne
        simp [hnot]
      · simp [hne]

end RecvWorker

namespace RecvRun

variable {t t' : RecvRun} {reqId : RequestId} {stage : Stage}

namespace Inv

/-- The transfers are checked, and the requests that are done are collected. -/
lemma readFailed (h : Inv none t) {xferState : ℕ → XferState} (hallowed : t.Allowed (.readFailed xferState))
    (hrun : run (.readFailed xferState) t = .ok t') : Inv none t' := by
  obtain ⟨hphase, hcond⟩ := hallowed
  have hphase : t.worker.phase = .none := hphase
  obtain rfl := run_eq rfl (by simp) hrun
  obtain ⟨blocks, hinvalidate, hinvalid⟩ :=
    RecvWorker.foldl_invalidateFailed xferState t.worker.recvingTransfers t.worker
  have hworker : t.worker.readFailed xferState = { t.worker with
      invalidBlockIds := t.worker.invalidBlockIds ++ blocks
      recvingTransfers := (RecvWorker.popDoneTransfers xferState t.worker.recvingTransfers).2
      phase := .updated ((RecvWorker.popDoneTransfers xferState t.worker.recvingTransfers).1 ∪
        t.worker.failedRecvReqs) } := by
    simp only [RecvWorker.readFailed, RecvWorker.invalidateFailed, hinvalidate]
  have hnil : t.worker.doneRecving = [] := doneRecving_nil hphase
  have hfails {other : RequestId}
      (hfail : (t.readFailed other || failures t.worker (.readFailed xferState) other) = true) :
      t.readFailed other = true ∨ ∃ handles, (other, handles) ∈ t.worker.recvingTransfers ∧
        ∃ handle ∈ handles, xferState handle = .failed := by
    rcases Bool.or_eq_true_iff.1 hfail with hfail | hfail
    · exact .inl hfail
    · obtain ⟨⟨key, handles⟩, hmem, hfail⟩ := any_eq_true.1 hfail
      obtain ⟨hkey, hany⟩ := Bool.and_eq_true_iff.1 hfail
      obtain rfl := of_decide_eq_true hkey
      exact .inr ⟨handles, hmem, by simpa using hany⟩
  have hloadedOf {other : RequestId} (hmem : other ∈ t.worker.transferring) :
      (t.loaded other).isSome ∧ t.worker.recvingMetadata other = t.loaded other := by
    obtain ⟨hsome, hmeta, -⟩ := h.atReading (.inl hmem) (by rw [hnil]; exact not_mem_nil)
    exact ⟨hsome, hmeta⟩
  obtain ⟨hnodupDone, hnodupLeft⟩ := RecvWorker.nodup_popDoneTransfers xferState h.nodup
  rw [hworker]
  refine ⟨?_, h.ranks, hnodupLeft, h.nodup_failed, h.nodup_failed.union _, ?_, h.waiting, h.callbacks, h.ready, ?_, ?_⟩
  · intro other
    obtain ⟨hpopped, hleft⟩ := RecvWorker.mem_popDoneTransfers xferState t.worker.recvingTransfers other
    have hkey {handles : List ℕ} (hmem : (other, handles) ∈ t.worker.recvingTransfers) :
        other ∈ t.worker.transferring := mem_map_of_mem (f := Prod.fst) hmem
    have hdone : other ∈ (RecvWorker.popDoneTransfers xferState t.worker.recvingTransfers).1 ∪
        t.worker.failedRecvReqs ↔ (∃ handles, (other, handles) ∈ t.worker.recvingTransfers ∧
          ∀ handle ∈ handles, xferState handle ≠ .proc) ∨ other ∈ t.worker.failedRecvReqs := by
      rw [mem_union_iff, hpopped]
    have hidle (htrans : other ∉ t.worker.transferring) (hfailed : other ∉ t.worker.failedRecvReqs) :
        other ∉ (RecvWorker.popDoneTransfers xferState t.worker.recvingTransfers).2.map (·.1) ∧
          other ∉ (RecvWorker.popDoneTransfers xferState t.worker.recvingTransfers).1 ∪ t.worker.failedRecvReqs := by
      rw [hleft, hdone]
      refine ⟨?_, ?_⟩
      · rintro ⟨handles, hmem, -⟩
        exact htrans (hkey hmem)
      · rintro (⟨handles, hmem, -⟩ | hmem)
        · exact htrans (hkey hmem)
        · exact hfailed hmem
    by_cases htracked : other ∈ t.worker.transferring ∨ other ∈ t.worker.failedRecvReqs
    · obtain ⟨hloaded, hmeta, hwaits, -, -, hreported⟩ := h.atReading htracked (by rw [hnil]; exact not_mem_nil)
      by_cases hproc : ∃ handles, (other, handles) ∈ t.worker.recvingTransfers ∧
          ∃ handle ∈ handles, xferState handle = .proc
      · refine ⟨.reading, hloaded, hmeta, hwaits, .inl (hleft.2 hproc), ?_, hreported⟩
        obtain ⟨handles, hmem, handle, hhandle, hstate⟩ := hproc
        intro hisDone
        rcases hdone.1 hisDone with ⟨handles', hmem', hall⟩ | hfailed
        · have hsame : (other, handles) = (other, handles') :=
            inj_on_of_nodup_map h.nodup hmem hmem' rfl
          obtain rfl := (Prod.mk.inj hsame).2
          exact hall handle hhandle hstate
        · exact hcond (other, handles) hmem hfailed handle hhandle hstate
      · have hin : (∃ handles, (other, handles) ∈ t.worker.recvingTransfers ∧
            ∀ handle ∈ handles, xferState handle ≠ .proc) ∨ other ∈ t.worker.failedRecvReqs := by
          rcases htracked with htrans | hfailed
          · obtain ⟨⟨key, handles⟩, hmem, rfl⟩ := mem_map.1 htrans
            exact .inl ⟨handles, hmem, fun handle hhandle hstate => hproc ⟨handles, hmem, handle, hhandle, hstate⟩⟩
          · exact .inr hfailed
        exact ⟨.done, hloaded, hmeta, hwaits, fun hmem => hproc (hleft.1 hmem), fun _ => ⟨_, rfl⟩, hdone.2 hin,
          hreported⟩
    · obtain ⟨hleft', hdone'⟩ := hidle (not_or.mp htracked).1 (not_or.mp htracked).2
      obtain ⟨stage, hstage⟩ := h.stage other
      refine ⟨stage, ?_⟩
      cases stage with
      | fresh | waiting | reported | skipped =>
        obtain ⟨hloaded, hmeta, hwaits, -, hfailed, -, hreported⟩ := hstage
        exact ⟨hloaded, hmeta, hwaits, hleft', hfailed, hdone', hreported⟩
      | reading => exact absurd hstage.2.2.2.1 htracked
      | done => exact absurd (hnil ▸ hstage.2.2.2.2.2.1) not_mem_nil
  · intro doneRecving hupdated
    obtain rfl := FinishPhase.updated.inj hupdated
    exact fun _ hmem => mem_union_iff.2 (.inr hmem)
  · intro other hfail
    rcases hfails hfail with hfail | ⟨handles, hmem, -⟩
    · exact h.failed_loaded other hfail
    · exact (hloadedOf (mem_map_of_mem (f := Prod.fst) hmem)).1
  · intro other recvMeta hget hfail
    rcases hfails hfail with hfail | ⟨handles, hmem, hhandle⟩
    · exact List.Subset.trans (h.invalid other recvMeta hget hfail) (subset_append_left _ _)
    · have hmeta := (hloadedOf (mem_map_of_mem (f := Prod.fst) hmem)).2
      exact hinvalid (other, handles) hmem hhandle recvMeta (hmeta.trans hget)

lemma clearFailed (h : Inv none t) (hrun : run .clearFailed t = .ok t') : Inv none t' := by
  obtain rfl := run_eq rfl (by simp) hrun
  have hreadFailed : (fun reqId => t.readFailed reqId || failures t.worker .clearFailed reqId) = t.readFailed := by
    funext reqId
    simp [failures]
  rw [hreadFailed]
  cases hphase : t.worker.phase with
  | none | cleared doneRecving =>
    have hsame : t.worker.clearFailed = t.worker := by
      rw [RecvWorker.clearFailed, hphase]
    rw [hsame]
    exact h
  | updated doneRecving =>
    have hworker : t.worker.clearFailed = { t.worker with failedRecvReqs := [], phase := .cleared doneRecving } := by
      rw [RecvWorker.clearFailed, hphase]
    have hdone : t.worker.doneRecving = doneRecving := by
      rw [RecvWorker.doneRecving, hphase]
    rw [hworker]
    refine ⟨?_, h.ranks, h.nodup, nodup_nil, ?_, ?_, h.waiting, h.callbacks, h.ready, h.failed_loaded,
      h.invalid⟩
    · intro other
      obtain ⟨stage, hstage⟩ := h.stage other
      refine ⟨stage, ?_⟩
      cases stage with
      | fresh | waiting | reported | skipped =>
        obtain ⟨hloaded, hmeta, hwaits, htrans, -, hnot, hreported⟩ := hstage
        exact ⟨hloaded, hmeta, hwaits, htrans, not_mem_nil, hdone ▸ hnot, hreported⟩
      | reading =>
        obtain ⟨hloaded, hmeta, hwaits, htracked, hnot, hreported⟩ := hstage
        rw [hdone] at hnot
        have htrans := htracked.resolve_right fun hfailed => hnot (h.updated doneRecving hphase hfailed)
        exact ⟨hloaded, hmeta, hwaits, .inl htrans, hnot, hreported⟩
      | done =>
        obtain ⟨hloaded, hmeta, hwaits, htrans, -, hmem, hreported⟩ := hstage
        rw [hdone] at hmem
        exact ⟨hloaded, hmeta, hwaits, htrans, fun hfailed => absurd hfailed not_mem_nil, hmem, hreported⟩
    · have hnodup := h.nodup_done
      rw [hdone] at hnodup
      exact hnodup
    · intro other hupdated
      cases hupdated

/-- What is about to be returned has its metadata. -/
lemma atDone (h : Inv none t) (hmem : reqId ∈ t.worker.doneRecving) : t.AtStage none reqId .done := by
  obtain ⟨stage, hstage⟩ := h.stage reqId
  cases stage with
  | done => exact hstage
  | fresh | waiting | reported | skipped => exact absurd hmem hstage.2.2.2.2.2.1
  | reading => exact absurd hmem hstage.2.2.2.2.1

/-- The end of `get_finished` does not fail. -/
lemma finish_spec (h : Inv none t) {doneRecving : List RequestId} (hphase : t.worker.phase = .cleared doneRecving) :
    ∃ recvingMetadata,
      t.worker.finish = .ok ({ t.worker with recvingMetadata, phase := .none }, doneRecving) ∧
      ∀ reqId, recvingMetadata reqId =
        if reqId ∈ doneRecving then none else t.worker.recvingMetadata reqId := by
  have hdone : t.worker.doneRecving = doneRecving := by
    rw [RecvWorker.doneRecving, hphase]
  have hnodup := h.nodup_done
  rw [hdone] at hnodup
  obtain ⟨recvingMetadata, hfold, hlookup⟩ := RecvWorker.foldlM_popMetadata (s := t.worker) hnodup (by
    intro reqId hmem
    obtain ⟨hsome, hmeta, -⟩ := h.atDone (by rw [hdone]; exact hmem)
    rw [hmeta]
    exact hsome)
  refine ⟨recvingMetadata, ?_, hlookup⟩
  rw [RecvWorker.finish, hphase]
  simp only [hfold]
  rfl

/-- `get_finished` returns what is done, once. -/
lemma finish (h : Inv none t) (hrun : run .finish t = .ok t') : Inv none t' := by
  have hreadFailed : (fun reqId => t.readFailed reqId || failures t.worker .finish reqId) = t.readFailed := by
    funext reqId
    simp [failures]
  cases hphase : t.worker.phase with
  | none | updated =>
    have hsame : runWorker .finish t.worker = .ok (t.worker, []) := by
      rw [runWorker, RecvWorker.finish, hphase]
    obtain rfl := run_eq hsame (by simp) hrun
    rw [hreadFailed]
    exact h
  | cleared doneRecving =>
    obtain ⟨recvingMetadata, hfinish, hlookup⟩ := h.finish_spec hphase
    have hdone : t.worker.doneRecving = doneRecving := by
      rw [RecvWorker.doneRecving, hphase]
    have hnodup := h.nodup_done
    rw [hdone] at hnodup
    have hworker : runWorker .finish t.worker =
        .ok ({ t.worker with recvingMetadata, phase := .none }, doneRecving) := hfinish
    unfold run at hrun
    rw [hworker] at hrun
    cases hrun
    rw [hreadFailed]
    refine ⟨?_, h.ranks, h.nodup, h.nodup_failed, nodup_nil, nofun, h.waiting, h.callbacks, h.ready,
      h.failed_loaded, h.invalid⟩
    intro other
    by_cases hmem : other ∈ doneRecving
    · obtain ⟨hloaded, -, hwaits, htrans, hfailed, -, hreported⟩ := h.atDone (by rw [hdone]; exact hmem : other ∈ _)
      refine ⟨.reported, hloaded, (hlookup other).trans (if_pos hmem), hwaits, htrans, ?_, not_mem_nil, ?_⟩
      · intro hin
        obtain ⟨_, hupdated⟩ := hfailed hin
        rw [hphase] at hupdated
        cases hupdated
      · show t.reported other + doneRecving.count other = 1
        rw [hreported, count_eq_one_of_mem hnodup hmem]
    · have hmeta : recvingMetadata other = t.worker.recvingMetadata other := (hlookup other).trans (if_neg hmem)
      have hcount : t.reported other + doneRecving.count other = t.reported other := by
        rw [count_eq_zero.2 hmem]
        rfl
      obtain ⟨stage, hstage⟩ := h.stage other
      have hnot := hmem
      rw [← hdone] at hnot
      refine ⟨stage, ?_⟩
      cases stage with
      | done => exact absurd hstage.2.2.2.2.2.1 hnot
      | reading =>
        obtain ⟨hloaded, hmetaOld, hwaits, htracked, -, hreported⟩ := hstage
        exact ⟨hloaded, hmeta.trans hmetaOld, hwaits, htracked, not_mem_nil, hcount.trans hreported⟩
      | fresh | waiting | reported | skipped =>
        obtain ⟨hloaded, hmetaOld, hwaits, htrans, hfailed, -, hreported⟩ := hstage
        exact ⟨hloaded, hmeta.trans hmetaOld, hwaits, htrans, hfailed, not_mem_nil, hcount.trans hreported⟩

lemma run (h : Inv none t) {step : RecvStep} (hallowed : t.Allowed step)
    (hrun : RecvRun.run step t = .ok t') : Inv none t' := by
  cases step with
  | loadRequest reqId recvMeta posted => exact h.loadRequest hallowed.1 hrun
  | loadReady posted => exact h.loadReady hallowed.1 hrun
  | handshakeDone engineId succeeded => exact h.handshakeDone hrun
  | requestReady => exact h.requestReady hrun
  | addFailed => exact h.addFailed hallowed.2 hrun
  | readFailed xferState => exact h.readFailed hallowed hrun
  | clearFailed => exact h.clearFailed hrun
  | finish => exact h.finish hrun

end Inv

lemma inv_new : Inv none new where
  stage _ := ⟨.fresh, rfl, rfl, rfl, not_mem_nil, not_mem_nil, not_mem_nil, rfl⟩
  ranks _ _ hloaded := nomatch hloaded
  nodup := nodup_nil
  nodup_failed := nodup_nil
  nodup_done := nodup_nil
  updated _ hphase := nomatch hphase
  waiting _ hmem := absurd hmem not_mem_nil
  callbacks _ hmem := absurd hmem not_mem_nil
  ready _ hmem := absurd hmem not_mem_nil
  failed_loaded _ hfail := nomatch hfail
  invalid _ _ hloaded := nomatch hloaded

lemma inv_of_reaches (h : Reaches run Allowed new t) : Inv none t :=
  h.invariant inv_new fun _ _ _ hinv hallowed hrun => hinv.run hallowed hrun

/-! ## What the worker reports -/

/-- No step fails; a request that was given with local blocks and not reported is somewhere, and one that was
reported once is not reported again, has no transfer that was not found to have ended, and has its blocks
among the invalid ones if a read of it failed. -/
structure Sound (t : RecvRun) : Prop where
  no_error : ∀ step, ∃ t', run step t = .ok t'
  once : ∀ reqId, t.reported reqId ≤ 1
  tracked : ∀ reqId recvMeta, t.loaded reqId = some recvMeta → recvMeta.localBlockIds ≠ [] → t.reported reqId = 0 →
    0 < t.worker.waits reqId ∨ reqId ∈ t.worker.transferring ∨ reqId ∈ t.worker.failedRecvReqs ∨
      reqId ∈ t.worker.doneRecving
  ended : ∀ reqId, 0 < t.reported reqId → (t.loaded reqId).isSome ∧ t.worker.waits reqId = 0 ∧
    reqId ∉ t.worker.transferring
  invalid : ∀ reqId recvMeta, t.loaded reqId = some recvMeta → 0 < t.reported reqId → t.readFailed reqId = true →
    recvMeta.localBlockIds ⊆ t.worker.invalidBlockIds

/-- `get_finished`, with nothing of the other thread in between. -/
def getFinished (xferState : ℕ → XferState) (t : RecvRun) : Except PyError RecvRun := do
  let t ← run (.readFailed xferState) t
  let t ← run .clearFailed t
  run .finish t

namespace Inv

lemma no_error (h : Inv none t) (step : RecvStep) : ∃ t', RecvRun.run step t = .ok t' := by
  cases step with
  | loadRequest | loadReady | handshakeDone | requestReady | addFailed | readFailed | clearFailed => exact ⟨_, rfl⟩
  | finish =>
    cases hphase : t.worker.phase with
    | none | updated =>
      have hfinish : t.worker.finish = .ok (t.worker, []) := by
        rw [RecvWorker.finish, hphase]
      exact ⟨_, by simp only [RecvRun.run, runWorker, hfinish]; rfl⟩
    | cleared doneRecving =>
      obtain ⟨recvingMetadata, hfinish, -⟩ := h.finish_spec hphase
      exact ⟨_, by simp only [RecvRun.run, runWorker, hfinish]; rfl⟩

lemma sound (h : Inv none t) : Sound t := by
  refine ⟨h.no_error, ?_, ?_, ?_, fun reqId recvMeta hloaded _ hfailed => h.invalid reqId recvMeta hloaded hfailed⟩
  · intro reqId
    obtain ⟨stage, hstage⟩ := h.stage reqId
    cases stage with
    | fresh | waiting | done | skipped | reported => exact hstage.2.2.2.2.2.2.le.trans (by decide)
    | reading => exact hstage.2.2.2.2.2.le.trans (by decide)
  · intro reqId recvMeta hloaded hblocks hreported
    obtain ⟨stage, hstage⟩ := h.stage reqId
    cases stage with
    | fresh => exact absurd (hstage.1.symm.trans hloaded) nofun
    | waiting => exact .inl (hstage.2.2.1 ▸ Nat.one_pos)
    | reading => exact .inr (hstage.2.2.2.1.imp_right .inl)
    | done => exact .inr (.inr (.inr hstage.2.2.2.2.2.1))
    | reported => exact absurd (hstage.2.2.2.2.2.2.symm.trans hreported) nofun
    | skipped =>
      obtain ⟨⟨otherMeta, hother, hnil⟩, -⟩ := hstage
      cases hother.symm.trans hloaded
      exact absurd (hnil.resolve_right nofun) hblocks
  · intro reqId hreported
    obtain ⟨stage, hstage⟩ := h.stage reqId
    cases stage with
    | fresh | waiting | done | skipped => exact absurd hstage.2.2.2.2.2.2 hreported.ne'
    | reading => exact absurd hstage.2.2.2.2.2 hreported.ne'
    | reported => exact ⟨hstage.1, hstage.2.2.1, hstage.2.2.2.1⟩

/-- A request that does not wait and has no transfer in progress is returned. -/
lemma getFinished (h : Inv none t) {xferState : ℕ → XferState} (hallowed : t.Allowed (.readFailed xferState)) :
    ∃ t', RecvRun.getFinished xferState t = .ok t' ∧
      ∀ reqId recvMeta, t.loaded reqId = some recvMeta → recvMeta.localBlockIds ≠ [] → t.worker.waits reqId = 0 →
        (∀ entry ∈ t.worker.recvingTransfers, entry.1 = reqId → ∀ handle ∈ entry.2, xferState handle ≠ .proc) →
        t'.reported reqId = 1 := by
  have hphase : t.worker.phase = .none := hallowed.1
  obtain ⟨t₁, hread⟩ := h.no_error (.readFailed xferState)
  have h₁ := h.readFailed hallowed hread
  obtain ⟨t₂, hclear⟩ := h₁.no_error .clearFailed
  have h₂ := h₁.clearFailed hclear
  have hworker₁ : t₁.worker = t.worker.readFailed xferState := by rw [run_eq rfl (by simp) hread]
  have hworker₂ : t₂.worker = t₁.worker.clearFailed := by rw [run_eq rfl (by simp) hclear]
  have hreported : t₂.reported = t.reported := by
    rw [run_eq rfl (by simp) hclear, run_eq rfl (by simp) hread]
  have hcleared : t₂.worker.phase = .cleared
      ((RecvWorker.popDoneTransfers xferState t.worker.recvingTransfers).1 ∪ t.worker.failedRecvReqs) := by
    obtain ⟨blocks, hinvalidate, -⟩ :=
      RecvWorker.foldl_invalidateFailed xferState t.worker.recvingTransfers t.worker
    rw [hworker₂, hworker₁]
    simp only [RecvWorker.readFailed, RecvWorker.invalidateFailed, hinvalidate, RecvWorker.clearFailed]
  obtain ⟨recvingMetadata, hfinish, -⟩ := h₂.finish_spec hcleared
  obtain ⟨t₃, hdone⟩ := h₂.no_error .finish
  have h₃ := h₂.finish hdone
  refine ⟨t₃, ?_, ?_⟩
  · rw [RecvRun.getFinished, hread]
    show (RecvRun.run .clearFailed t₁ >>= RecvRun.run .finish) = .ok t₃
    rw [hclear]
    exact hdone
  · intro reqId recvMeta hloaded hblocks hwaits hended
    have honce := h₃.sound.once reqId
    have hcount : t₃.reported reqId = t.reported reqId +
        ((RecvWorker.popDoneTransfers xferState t.worker.recvingTransfers).1 ∪ t.worker.failedRecvReqs).count reqId := by
      unfold RecvRun.run at hdone
      rw [runWorker, hfinish] at hdone
      cases hdone
      rw [← hreported]
    by_cases hzero : t.reported reqId = 0
    · have htracked : reqId ∈ t.worker.transferring ∨ reqId ∈ t.worker.failedRecvReqs := by
        rcases h.sound.tracked reqId recvMeta hloaded hblocks hzero with hpos | htrans | hfailed | hmem
        · omega
        · exact .inl htrans
        · exact .inr hfailed
        · rw [doneRecving_nil hphase] at hmem
          cases hmem
      have hmem : reqId ∈
          (RecvWorker.popDoneTransfers xferState t.worker.recvingTransfers).1 ∪ t.worker.failedRecvReqs := by
        rcases htracked with htrans | hfailed
        · obtain ⟨⟨key, handles⟩, hentry, rfl⟩ := mem_map.1 htrans
          exact mem_union_iff.2 (.inl ((RecvWorker.mem_popDoneTransfers xferState _ key).1.2
            ⟨handles, hentry, hended (key, handles) hentry rfl⟩))
        · exact mem_union_iff.2 (.inr hfailed)
      have hpos := count_pos_iff.2 hmem
      omega
    · omega

end Inv

section Check

def checkPossible (t : RecvRun) : RecvStep → Bool
  | .loadRequest reqId recvMeta _ => t.worker.phase = .none && (t.loaded reqId).isNone && 0 < recvMeta.remoteRanks
  | .loadReady _ | .readFailed _ => t.worker.phase = .none
  | .handshakeDone engineId _ => t.worker.handshakeFutures engineId
  | _ => true

def checkAllowed (t : RecvRun) (step : RecvStep) : Bool :=
  t.checkPossible step &&
    match step with
    | .readFailed xferState => t.worker.recvingTransfers.all fun entry =>
      !t.worker.failedRecvReqs.contains entry.1 || entry.2.all (xferState · ≠ .proc)
    | .addFailed => t.worker.phase = .none
    | _ => true

lemma possible_of_check (t : RecvRun) (step : RecvStep) (h : t.checkPossible step = true) : t.Possible step := by
  cases step with
  | loadRequest reqId recvMeta posted => simpa [checkPossible, Possible, and_assoc] using h
  | loadReady | readFailed | handshakeDone => simpa [checkPossible, Possible] using h
  | requestReady | addFailed | clearFailed | finish => trivial

lemma allowed_of_check (t : RecvRun) (step : RecvStep) (h : t.checkAllowed step = true) : t.Allowed step := by
  obtain ⟨hpossible, hrest⟩ := Bool.and_eq_true_iff.1 h
  refine ⟨possible_of_check t step hpossible, ?_⟩
  cases step with
  | readFailed xferState =>
    intro entry hmem hfailed handle hhandle
    have hentry := all_eq_true.1 hrest entry hmem
    have hall : ∀ handle ∈ entry.2, xferState handle ≠ .proc := by simpa [hfailed] using hentry
    exact hall handle hhandle
  | addFailed =>
    intro doneRecving hupdated
    have hnone : t.worker.phase = .none := of_decide_eq_true hrest
    rw [hnone] at hupdated
    cases hupdated
  | loadRequest | loadReady | handshakeDone | requestReady | clearFailed | finish => trivial

end Check

end RecvRun

end VllmRuntime.Nixl
