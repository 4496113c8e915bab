import VllmRuntime.Verification.Frontend.Delta

/-! # The fan-out of a request with several completions

The children of a request are added one by one while the outputs of those that were added before are
processed. The parent request takes itself to be finished when no child is outstanding, so that its client
is told once, and at the end, if no child finishes while it is the only one that was added so far. -/

namespace VllmRuntime.Frontend

open List Function

variable {σ : Type} {v : View σ} {state : RequestState σ} {requestId : InternalId}
  {parent : ParentRequest} {newTokenIds : List TokenId} {finishReason : Option FinishReason}
  {stopReason : Option StopReason} {params : SamplingParams} {queue : RequestOutputCollector}
  {output : Option RequestOutput}

namespace View

variable {v : View σ}

/-- All children were added and every one is finished. -/
def AllFinished (v : View σ) : Prop :=
  v.client.added = v.client.params.n ∧ ∀ i, v.states i = none

/-- A child finishes after the last child was added, or while another child is unfinished. -/
def FinishesInTime (v : View σ) (i : ℕ) : Prop :=
  v.client.params.n = 1 ∨ v.client.added = v.client.params.n ∨ ∃ j, j ≠ i ∧ (v.states j).isSome

lemma log_of_output_eq_none (h : v.client.queue.output = none) : v.log = v.seen := by
  simp [log, RequestOutputCollector.pending, h]

lemma log_of_output_eq_some {output : RequestOutput} (h : v.client.queue.output = some output) :
    v.log = v.seen ++ [output.seen v.client.parent.outputAggregator] := by
  simp [log, RequestOutputCollector.pending, h]

lemma childId_inj (hn : v.client.params.n ≠ 1) {i j : ℕ} (h : v.childId i = v.childId j) :
    i = j := by
  simpa [childId, Client.childId, hn] using h

end View

/-! ## The outstanding children -/

/-- What holds of a child that is not finished. -/
structure FannedChild (v : View σ) (i : ℕ) (state : RequestState σ) : Prop where
  lt_added : i < v.client.added
  requestIndex_eq : state.requestIndex = i
  outputKind_eq : state.outputKind = v.client.params.outputKind
  hasParent : state.hasParent = true

/-- The outstanding children of the parent request are those that are not finished. -/
structure Fanned (v : View σ) : Prop where
  n_ne_one : v.client.params.n ≠ 1
  added_le : v.client.added ≤ v.client.params.n
  nodup : v.client.parent.childRequests.Nodup
  mem_iff : ∀ id, id ∈ v.client.parent.childRequests ↔ ∃ i, v.childId i = id ∧ (v.states i).isSome
  child : ∀ i state, v.states i = some state → FannedChild v i state

/-- The completion of a child in FINAL_ONLY mode is kept by the parent request, which sends all of them when
no child is outstanding. -/
lemma RequestState.makeRequestOutput_aggregated (h : state.holdsBack finishReason.isSome = false)
    (hkind : state.outputKind = .finalOnly) (hparent : state.hasParent = true) :
    state.makeRequestOutput requestId parent newTokenIds finishReason stopReason =
      ((state.sentCompletion newTokenIds finishReason stopReason).1,
        { childRequests := parent.outstanding requestId finishReason
          outputAggregator := parent.outputAggregator.set
            (state.sentCompletion newTokenIds finishReason stopReason).2.index
            (some (state.sentCompletion newTokenIds finishReason stopReason).2) },
        if (parent.outstanding requestId finishReason).isEmpty then some ⟨.aggregator, true⟩ else none) := by
  rw [makeRequestOutput, if_neg (by simp [h])]
  simp only [hparent, ParentRequest.getOutputs, hkind, Bool.not_true, Bool.false_eq_true, if_false, ne_eq,
    not_true_eq_false]
  change (_, _, Option.map _ (if (parent.outstanding requestId finishReason).isEmpty then _ else _)) = _
  cases hempty : (parent.outstanding requestId finishReason).isEmpty with
  | false => rfl
  | true =>
    change (_, _, some (RequestOutput.mk .aggregator (parent.outstanding requestId finishReason).isEmpty)) = _
    rw [hempty]
    rfl

/-- An output of a child takes it from the outstanding ones if it finishes it, and no other. -/
lemma RequestState.makeRequestOutput_childRequests (hparent : state.hasParent = true)
    (requestId : InternalId) (parent : ParentRequest) (newTokenIds : List TokenId)
    (finishReason : Option FinishReason) (stopReason : Option StopReason) :
    (state.makeRequestOutput requestId parent newTokenIds finishReason stopReason).2.1.childRequests =
      parent.outstanding requestId finishReason := by
  cases hheld : state.holdsBack finishReason.isSome with
  | true =>
    rw [makeRequestOutput_held hheld]
    cases finishReason with
    | none => rfl
    | some reason => simp [holdsBack_finished] at hheld
  | false =>
    by_cases hkind : state.outputKind = .finalOnly
    · rw [makeRequestOutput_aggregated hheld hkind hparent]
    · rw [makeRequestOutput, if_neg (by simp [hheld])]
      simp only [hparent, hkind, ParentRequest.getOutputs, Bool.not_true, Bool.false_eq_true, if_false, ne_eq,
        not_false_eq_true, if_true]
      rfl

/-- The parent request and the queue after an output. -/
lemma Client.deliver_eq_ok {client client' : Client σ} {state' : RequestState σ}
    (h : client.deliver requestId state newTokenIds finishReason stopReason = .ok (state', client')) :
    (state', client'.parent) =
        ((state.makeRequestOutput requestId client.parent newTokenIds finishReason stopReason).1,
          (state.makeRequestOutput requestId client.parent newTokenIds finishReason stopReason).2.1) ∧
      client.queue.putOutput client'.parent.outputAggregator
        (state.makeRequestOutput requestId client.parent newTokenIds finishReason stopReason).2.2 =
          .ok client'.queue := by
  unfold deliver at h
  obtain ⟨queue, hqueue, h⟩ := bind_eq_ok h
  cases h
  exact ⟨rfl, hqueue⟩

/-- What serving a child leaves: only this child's state is another one, and it is not outstanding if it is
finished. -/
structure Served (v w : View σ) (i : ℕ) (finished : Bool) : Prop where
  same : v.client.SameClient w.client
  id_eq : w.id = v.id
  seen_eq : w.seen = v.seen
  isSome_self : (w.states i).isSome = !finished
  states_of_ne : ∀ j, j ≠ i → w.states j = v.states j
  childRequests_eq : w.client.parent.childRequests =
    if finished then v.client.parent.childRequests.erase (v.childId i) else v.client.parent.childRequests
  child : ∀ state, w.states i = some state → FannedChild w i state

section Served

variable {v w : View σ} {i : ℕ} {finished : Bool}

lemma Served.childId_eq (hs : Served v w i finished) (j : ℕ) : w.childId j = v.childId j := by
  rw [View.childId, View.childId, hs.id_eq, hs.same.childId_eq]

lemma Served.report (hs : Served v w i finished) (j : ℕ) (newTokenIds : List TokenId) (text : Text) :
    Served v (w.report j newTokenIds text) i finished := by
  refine ⟨hs.same, hs.id_eq, hs.seen_eq, hs.isSome_self, hs.states_of_ne, hs.childRequests_eq, ?_⟩
  intro state hstate
  have hchild := hs.child state hstate
  exact ⟨hchild.lt_added, hchild.requestIndex_eq, hchild.outputKind_eq, hchild.hasParent⟩

lemma Fanned.served (h : Fanned v) (hs : Served v w i finished) (hstate : (v.states i).isSome) : Fanned w := by
  have hn : w.client.params.n ≠ 1 := hs.same.params_eq ▸ h.n_ne_one
  refine ⟨hn, by rw [hs.same.added_eq, hs.same.params_eq]; exact h.added_le, ?_, ?_, ?_⟩
  · rw [hs.childRequests_eq]
    cases finished
    · exact h.nodup
    · exact h.nodup.erase _
  · intro id
    have hsome (j : ℕ) : (w.states j).isSome ↔ (v.states j).isSome ∧ (j = i → finished = false) := by
      by_cases hj : j = i
      · subst hj
        simp [hs.isSome_self, hstate]
      · simp [hs.states_of_ne j hj, hj]
    rw [hs.childRequests_eq]
    simp only [hs.childId_eq, hsome]
    cases finished with
    | false => simpa using h.mem_iff id
    | true =>
      simp only [if_true, h.nodup.mem_erase_iff, h.mem_iff, Bool.true_eq_false, imp_false]
      constructor
      · rintro ⟨hne, j, rfl, hj⟩
        exact ⟨j, rfl, hj, fun heq => hne (heq ▸ rfl)⟩
      · rintro ⟨j, rfl, hj, hne⟩
        exact ⟨fun heq => hne (View.childId_inj h.n_ne_one heq), j, rfl, hj⟩
  · intro j state hst
    by_cases hj : j = i
    · subst hj
      exact hs.child state hst
    · rw [hs.states_of_ne j hj] at hst
      have hchild := h.child j state hst
      refine ⟨hs.same.added_eq ▸ hchild.lt_added, hchild.requestIndex_eq, ?_, hchild.hasParent⟩
      rw [hs.same.params_eq]
      exact hchild.outputKind_eq

/-- The parent request has no outstanding child exactly if all children are finished. -/
lemma Fanned.isEmpty_iff (h : Fanned v) (hs : Served v w i finished) (hstate : (v.states i).isSome)
    (hfinish : finished = true → v.FinishesInTime i) :
    w.client.parent.childRequests.isEmpty = true ↔ w.AllFinished := by
  have hw := h.served hs hstate
  have hempty : w.client.parent.childRequests.isEmpty = true ↔ ∀ j, w.states j = none := by
    simp only [List.isEmpty_iff, List.eq_nil_iff_forall_not_mem, hw.mem_iff, not_exists, not_and,
      Bool.not_eq_true, Option.isSome_eq_false_iff, Option.isNone_iff_eq_none]
    exact ⟨fun hall j => hall _ j rfl, fun hall _ j _ => hall j⟩
  rw [hempty, View.AllFinished, iff_and_self]
  intro hnone
  have hfinished : finished = true := by
    simpa [hnone i] using hs.isSome_self
  rw [hs.same.added_eq, hs.same.params_eq]
  rcases hfinish hfinished with hn | hadded | ⟨j, hj, hsome⟩
  · exact absurd hn h.n_ne_one
  · exact hadded
  · simp [← hs.states_of_ne j hj, hnone j] at hsome

lemma View.not_allFinished (h : (v.states i).isSome) : ¬v.AllFinished := by
  intro hall
  simp [hall.2 i] at h

end Served

lemma Fanned.get (h : Fanned v) : Fanned v.get := by
  refine ⟨h.n_ne_one, h.added_le, h.nodup, h.mem_iff, ?_⟩
  intro i state hstate
  have hchild := h.child i state hstate
  exact ⟨hchild.lt_added, hchild.requestIndex_eq, hchild.outputKind_eq, hchild.hasParent⟩

lemma Fanned.fanOut (h : Fanned v) (hadded : v.client.added < v.client.params.n) :
    Fanned v.fanOut := by
  have hchildren : v.fanOut.client.parent.childRequests =
      v.client.parent.childRequests.insert (v.childId v.client.added) := by
    simp [View.fanOut, h.n_ne_one]
  have hsome (i : ℕ) : (v.fanOut.states i).isSome ↔ i = v.client.added ∨ (v.states i).isSome := by
    by_cases hi : i = v.client.added
    · simp [hi, v.states_fanOut_self]
    · simp [hi, v.states_fanOut_of_ne hi]
  refine ⟨h.n_ne_one, hadded, ?_, ?_, ?_⟩
  · rw [hchildren]
    exact h.nodup.insert
  · intro id
    rw [hchildren, mem_insert_iff, h.mem_iff]
    simp only [hsome]
    constructor
    · rintro (rfl | ⟨i, rfl, hi⟩)
      · exact ⟨v.client.added, rfl, .inl rfl⟩
      · exact ⟨i, rfl, .inr hi⟩
    · rintro ⟨i, rfl, rfl | hi⟩
      · exact .inl rfl
      · exact .inr ⟨i, rfl, hi⟩
  · intro i state hstate
    by_cases hi : i = v.client.added
    · subst hi
      cases v.states_fanOut_self.symm.trans hstate
      refine ⟨Nat.lt_succ_self _, rfl, rfl, ?_⟩
      simpa [View.newState] using h.n_ne_one
    · have hchild := h.child i state ((v.states_fanOut_of_ne hi).symm.trans hstate)
      exact ⟨Nat.lt_succ_of_lt hchild.lt_added, hchild.requestIndex_eq, hchild.outputKind_eq, hchild.hasParent⟩

lemma Fanned.new (id : String) (streamInterval : ℕ) (externalReqId : String) (tokenizer : Tokenizer σ)
    (hn : params.n ≠ 1) :
    Fanned (View.new id streamInterval externalReqId params tokenizer) := by
  refine ⟨hn, Nat.zero_le _, nodup_nil, ?_, ?_⟩ <;> simp [View.new, ParentRequest.new]

/-! ## What the client is told -/

/-- How many outputs of a log say that the request is finished. -/
def View.timesFinished (v : View σ) : ℕ := v.log.countP (·.finished)

/-- Whether the output in the queue says that the request is finished. -/
def RequestOutputCollector.tellsFinished (queue : RequestOutputCollector) : Bool := queue.output.any (·.finished)

lemma View.timesFinished_eq (v : View σ) :
    v.timesFinished = v.seen.countP (·.finished) + v.client.queue.tellsFinished.toNat := by
  rw [timesFinished, RequestOutputCollector.tellsFinished]
  cases hout : v.client.queue.output with
  | none => simp [log_of_output_eq_none hout]
  | some output => cases hfin : output.finished <;> simp [log_of_output_eq_some hout, RequestOutput.seen, hfin]

/-- An output that is put says that the request is finished if it does or the one before it did. -/
lemma RequestOutputCollector.tellsFinished_putOutput {queue' : RequestOutputCollector}
    {outputAggregator : List (Option CompletionOutput)}
    (h : queue.putOutput outputAggregator output = .ok queue') :
    queue'.tellsFinished = (queue.tellsFinished || output.any (·.finished)) := by
  cases output with
  | none =>
    cases h
    simp
  | some output =>
    rw [putOutput, put] at h
    cases hout : queue.output with
    | none =>
      simp only [hout, Except.ok.injEq] at h
      simp [← h, tellsFinished, hout]
    | some pending =>
      simp only [hout] at h
      obtain ⟨added, hadd, rfl⟩ := map_eq_ok h
      have hfinished : added.finished = (pending.finished || output.finished) := by
        unfold RequestOutput.add at hadd
        dsimp only at hadd
        split at hadd
        · cases hadd
          rfl
        · split at hadd
          · cases hadd
          · cases hadd
            rfl
        · cases hadd
      simp [tellsFinished, hout, hfinished]

/-- An output of an outstanding child says that the request is finished exactly if no child is outstanding
after it. -/
lemma RequestState.finished_makeRequestOutput (hparent : state.hasParent = true)
    (hmem : requestId ∈ parent.childRequests) (newTokenIds : List TokenId)
    (finishReason : Option FinishReason) (stopReason : Option StopReason) :
    (state.makeRequestOutput requestId parent newTokenIds finishReason stopReason).2.2.any (·.finished) =
      (parent.outstanding requestId finishReason).isEmpty := by
  cases hheld : state.holdsBack finishReason.isSome with
  | true =>
    rw [makeRequestOutput_held hheld]
    cases finishReason with
    | none => simpa [ParentRequest.outstanding] using ne_nil_of_mem hmem
    | some reason => simp [holdsBack_finished] at hheld
  | false =>
    by_cases hkind : state.outputKind = .finalOnly
    · rw [makeRequestOutput_aggregated hheld hkind hparent]
      cases hempty : (parent.outstanding requestId finishReason).isEmpty <;> simp
    · rw [makeRequestOutput_child hheld hkind hparent hmem]
      rfl

/-- The client is told that its request is finished when all children are, and then once. -/
structure ToldOnce (v : View σ) : Prop where
  before : ¬v.AllFinished → v.timesFinished = 0
  after : v.AllFinished → v.timesFinished = 1

lemma ToldOnce.get (h : ToldOnce v) : ToldOnce v.get := by
  have htimes : v.get.timesFinished = v.timesFinished := by rw [View.timesFinished, View.log_get, View.timesFinished]
  exact ⟨fun hall => htimes.trans (h.before hall), fun hall => htimes.trans (h.after hall)⟩

lemma ToldOnce.fanOut (h : ToldOnce v) (hadded : v.client.added < v.client.params.n) :
    ToldOnce v.fanOut := by
  have htimes : v.fanOut.timesFinished = v.timesFinished := by
    rw [View.timesFinished, View.log_fanOut, View.timesFinished]
  refine ⟨fun _ => htimes.trans (h.before fun hall => hadded.ne hall.1), ?_⟩
  intro hall
  exact absurd hall (View.not_allFinished (i := v.client.added) (by simp [v.states_fanOut_self]))

lemma ToldOnce.new (id : String) (streamInterval : ℕ) (externalReqId : String) (tokenizer : Tokenizer σ) :
    ToldOnce (View.new id streamInterval externalReqId params tokenizer) := by
  refine ⟨fun _ => rfl, ?_⟩
  intro hall
  exact absurd hall.1 params.n_pos.ne

lemma ToldOnce.served {w : View σ} {i : ℕ} {finished : Bool} (h : ToldOnce v) (hf : Fanned v)
    (hs : Served v w i finished) (hstate : (v.states i).isSome)
    (hfinish : finished = true → v.FinishesInTime i) (htells : w.client.queue.tellsFinished =
      (v.client.queue.tellsFinished || w.client.parent.childRequests.isEmpty)) : ToldOnce w := by
  have hbefore := h.before (View.not_allFinished hstate)
  rw [View.timesFinished_eq, Nat.add_eq_zero_iff, Bool.toNat_eq_zero] at hbefore
  have htimes : w.timesFinished = w.client.parent.childRequests.isEmpty.toNat := by
    rw [View.timesFinished_eq, hs.seen_eq, hbefore.1, htells, hbefore.2, Bool.false_or, Nat.zero_add]
  have hiff := hf.isEmpty_iff hs hstate hfinish
  refine ⟨fun hall => ?_, fun hall => ?_⟩
  · rw [htimes, Bool.eq_false_iff.2 fun h => hall (hiff.1 h)]
    rfl
  · rw [htimes, hiff.2 hall]
    rfl

/-! ## Serving a child -/

section Serve

variable {v w : View σ} {i : ℕ} {state₀ state : RequestState σ} {newTokenIds : List TokenId}
  {finishReason : Option FinishReason} {stopReason : Option StopReason}

/-- What becomes of a view when one of its children is served. -/
lemma View.serve_eq_ok (h : v.serve i state newTokenIds finishReason stopReason = .ok w) :
    ∃ state' client, v.client.deliver (v.childId i) state newTokenIds finishReason stopReason =
        .ok (state', client) ∧
      w = { v with client, states := update v.states i (if finishReason.isSome then none else some state') } := by
  unfold serve at h
  obtain ⟨⟨state', client⟩, hdeliver, h⟩ := bind_eq_ok h
  exact ⟨state', client, hdeliver, (Except.ok.inj h).symm⟩

lemma Served.of_serve (hf : Fanned v) (hstate : v.states i = some state₀) (hsame : state₀.SameRequest state)
    (h : v.serve i state newTokenIds finishReason stopReason = .ok w) :
    Served v w i finishReason.isSome ∧
      w.client.queue.tellsFinished =
        (v.client.queue.tellsFinished || w.client.parent.childRequests.isEmpty) := by
  obtain ⟨state', client, hdeliver, rfl⟩ := View.serve_eq_ok h
  obtain ⟨hsame', hclient⟩ := Client.deliver_same hdeliver
  obtain ⟨hmade, hput⟩ := Client.deliver_eq_ok hdeliver
  have hchild := hf.child i state₀ hstate
  have hparent : state.hasParent = true := hsame.hasParent_eq.trans hchild.hasParent
  have hmem : v.childId i ∈ v.client.parent.childRequests := (hf.mem_iff _).2 ⟨i, rfl, by simp [hstate]⟩
  have hchildren : client.parent.childRequests = v.client.parent.outstanding (v.childId i) finishReason := by
    rw [(Prod.mk.inj hmade).2]
    exact RequestState.makeRequestOutput_childRequests hparent _ _ _ _ _
  refine ⟨⟨hclient, rfl, rfl, ?_, fun j hj => update_of_ne hj _ _, hchildren, ?_⟩, ?_⟩
  · cases finishReason <;> simp
  · intro state'' hstate''
    cases finishReason with
    | some reason => simp at hstate''
    | none =>
      obtain rfl : state' = state'' := by simpa using hstate''
      refine ⟨hclient.added_eq ▸ hchild.lt_added, ?_, ?_, ?_⟩
      · rw [hsame'.requestIndex_eq, hsame.requestIndex_eq, hchild.requestIndex_eq]
      · rw [hsame'.outputKind_eq, hsame.outputKind_eq, hchild.outputKind_eq, hclient.params_eq]
      · rw [hsame'.hasParent_eq, hparent]
  · change client.queue.tellsFinished = (_ || client.parent.childRequests.isEmpty)
    rw [RequestOutputCollector.tellsFinished_putOutput hput, hchildren,
      RequestState.finished_makeRequestOutput hparent hmem]

end Serve

/-! ## The completions of a request in FINAL_ONLY mode -/

/-- The completion of a child that is finished: all its tokens and its whole text. -/
structure View.CompletionOf (v : View σ) (i : ℕ) (completion : CompletionOutput) : Prop where
  index_eq : completion.index = i
  tokenIds_eq : completion.tokenIds = v.reported i
  text_eq : completion.text = v.texts i
  finished : completion.finishReason.isSome

/-- In FINAL_ONLY mode the parent request has the completion of every finished child at the child's index,
and the client is sent all of them in one output. -/
structure Aggregated (v : View σ) : Prop where
  outputKind_eq : v.client.params.outputKind = .finalOnly
  length_eq : v.client.parent.outputAggregator.length = v.client.params.n
  detokenized : ∀ i state, v.states i = some state → state.detokenizer.Buffered ∧
    state.detokenizer.outputTokenIds = v.reported i ∧ state.detokenizer.outputText = v.texts i
  completion : ∀ i, i < v.client.added → v.states i = none →
    ∃ completion, v.client.parent.outputAggregator[i]? = some (some completion) ∧ v.CompletionOf i completion
  log_before : ¬v.AllFinished → v.log = []
  log_after : v.AllFinished → v.log = [⟨v.client.parent.outputAggregator, true⟩]

namespace Aggregated

variable {v w : View σ} {state : RequestState σ} {newTokenIds : List TokenId}
  {stopReason : Option StopReason} {i : ℕ} {detokenizer : IncrementalDetokenizer σ}
  {client client' : Client σ} {state' : RequestState σ}

lemma get (h : Aggregated v) : Aggregated v.get := by
  refine ⟨h.outputKind_eq, h.length_eq, h.detokenized, ?_, ?_, ?_⟩
  · intro i hi hnone
    obtain ⟨completion, hget, hcompletion⟩ := h.completion i hi hnone
    exact ⟨completion, hget, hcompletion.index_eq, hcompletion.tokenIds_eq, hcompletion.text_eq, hcompletion.finished⟩
  · intro hall
    rw [View.log_get]
    exact h.log_before hall
  · intro hall
    rw [View.log_get]
    exact h.log_after hall

lemma fanOut (h : Aggregated v) (hadded : v.client.added < v.client.params.n) : Aggregated v.fanOut := by
  have haggregator := v.outputAggregator_fanOut
  refine ⟨h.outputKind_eq, haggregator ▸ h.length_eq, ?_, ?_, ?_, ?_⟩
  · intro i state hstate
    by_cases hi : i = v.client.added
    · subst hi
      cases v.states_fanOut_self.symm.trans hstate
      obtain ⟨hbuffered, htokens, htext, -⟩ :=
        DeltaInv.buffered_fromNewRequest v.client.tokenizer v.client.params
      have hreported : v.fanOut.reported v.client.added = [] := update_self _ _ _
      have htexts : v.fanOut.texts v.client.added = [] := update_self _ _ _
      exact ⟨hbuffered, htokens.trans hreported.symm, htext.trans htexts.symm⟩
    · obtain ⟨hbuffered, htokens, htext⟩ := h.detokenized i state ((v.states_fanOut_of_ne hi).symm.trans hstate)
      have hreported : v.fanOut.reported i = v.reported i := update_of_ne hi _ _
      have htexts : v.fanOut.texts i = v.texts i := update_of_ne hi _ _
      exact ⟨hbuffered, htokens.trans hreported.symm, htext.trans htexts.symm⟩
  · intro i hi hnone
    have hne : i ≠ v.client.added := by
      rintro rfl
      exact nomatch v.states_fanOut_self.symm.trans hnone
    have hlt : i < v.client.added := Nat.lt_of_le_of_ne (Nat.le_of_lt_succ hi) hne
    obtain ⟨completion, hget, hcompletion⟩ := h.completion i hlt ((v.states_fanOut_of_ne hne).symm.trans hnone)
    have hreported : v.fanOut.reported i = v.reported i := update_of_ne hne _ _
    have htexts : v.fanOut.texts i = v.texts i := update_of_ne hne _ _
    exact ⟨completion, haggregator ▸ hget, hcompletion.index_eq, hcompletion.tokenIds_eq.trans hreported.symm,
      hcompletion.text_eq.trans htexts.symm, hcompletion.finished⟩
  · intro _
    rw [View.log_fanOut]
    exact h.log_before fun hall => hadded.ne hall.1
  · intro hall
    exact absurd hall (View.not_allFinished (i := v.client.added) (by simp [v.states_fanOut_self]))

lemma new (id : String) (streamInterval : ℕ) (externalReqId : String) (tokenizer : Tokenizer σ)
    (hkind : params.outputKind = .finalOnly) :
    Aggregated (View.new id streamInterval externalReqId params tokenizer) := by
  refine ⟨hkind, by simp [View.new, ParentRequest.new, hkind], by simp [View.new], by simp [View.new],
    fun _ => rfl, ?_⟩
  intro hall
  exact absurd hall.1 params.n_pos.ne

/-- The completion of a child that is finished, whatever its stream interval. -/
lemma sentCompletion_final (hkind : state.outputKind = .finalOnly) (newTokenIds : List TokenId)
    (reason : FinishReason) (stopReason : Option StopReason) :
    (state.sentCompletion newTokenIds (some reason) stopReason).2 =
      { index := state.requestIndex
        text := state.detokenizer.outputText
        tokenIds := state.detokenizer.outputTokenIds
        finishReason := some reason
        stopReason } := by
  have htext : state.detokenizer.getNextOutputText true false = (state.detokenizer, state.detokenizer.outputText) := by
    cases htext : state.detokenizer.text <;>
      simp [IncrementalDetokenizer.getNextOutputText, IncrementalDetokenizer.outputText, htext]
  simp [RequestState.sentCompletion, RequestState.takeTokens, RequestState.newCompletionOutput, hkind, htext]

/-- Where a child was served, the others are as they were. -/
lemma of_served {finished : Bool} (h : Aggregated v) (hs : Served v w i finished)
    (hreported : w.reported = update v.reported i (v.reported i ++ newTokenIds))
    (htexts : w.texts = update v.texts i detokenizer.outputText)
    (htokens : detokenizer.outputTokenIds = v.reported i ++ newTokenIds)
    (hself : ∀ state, w.states i = some state → state.detokenizer = detokenizer ∧ detokenizer.Buffered)
    (hlength : w.client.parent.outputAggregator.length = v.client.parent.outputAggregator.length)
    (hother : ∀ j, j ≠ i → w.client.parent.outputAggregator[j]? = v.client.parent.outputAggregator[j]?)
    (hcompletion : w.states i = none →
      ∃ completion, w.client.parent.outputAggregator[i]? = some (some completion) ∧ w.CompletionOf i completion)
    (hbefore : ¬w.AllFinished → w.log = [])
    (hafter : w.AllFinished → w.log = [⟨w.client.parent.outputAggregator, true⟩]) : Aggregated w := by
  have hreported' {j : ℕ} (hj : j ≠ i) : w.reported j = v.reported j := by
    rw [hreported, update_of_ne hj]
  have htexts' {j : ℕ} (hj : j ≠ i) : w.texts j = v.texts j := by
    rw [htexts, update_of_ne hj]
  refine ⟨hs.same.params_eq ▸ h.outputKind_eq, ?_, ?_, ?_, hbefore, hafter⟩
  · rw [hlength, h.length_eq, hs.same.params_eq]
  · intro j state hstate
    by_cases hj : j = i
    · subst hj
      obtain ⟨hdetokenizer, hbuffered⟩ := hself state hstate
      rw [hdetokenizer, hreported, htexts, update_self, update_self]
      exact ⟨hbuffered, htokens, rfl⟩
    · rw [hs.states_of_ne j hj] at hstate
      rw [hreported' hj, htexts' hj]
      exact h.detokenized j state hstate
  · intro j hj hnone
    by_cases hji : j = i
    · subst hji
      exact hcompletion hnone
    · rw [hs.same.added_eq] at hj
      rw [hs.states_of_ne j hji] at hnone
      obtain ⟨completion, hget, hc⟩ := h.completion j hj hnone
      rw [hother j hji]
      exact ⟨completion, hget, hc.index_eq, hc.tokenIds_eq.trans (hreported' hji).symm,
        hc.text_eq.trans (htexts' hji).symm, hc.finished⟩

/-- An output of a child that is not finished is held back. -/
lemma deliver_live (hkind : state.outputKind = .finalOnly)
    (h : client.deliver requestId state newTokenIds none stopReason = .ok (state', client')) :
    state' = state ∧ client' = client := by
  have hheld : state.holdsBack (none : Option FinishReason).isSome = true := by
    simp [RequestState.holdsBack, hkind]
  rw [Client.deliver, RequestState.makeRequestOutput_held hheld] at h
  obtain ⟨queue, hqueue, h⟩ := bind_eq_ok h
  cases hqueue
  cases h
  exact ⟨rfl, rfl⟩

/-- The completion of a child that is finished is kept, and all are sent after the last one. -/
lemma deliver_finished (hkind : state.outputKind = .finalOnly) (hparent : state.hasParent = true)
    (hqueue : client.queue.output = none) {reason : FinishReason}
    (h : client.deliver requestId state newTokenIds (some reason) stopReason = .ok (state', client')) :
    client'.parent.outputAggregator = client.parent.outputAggregator.set state.requestIndex
        (some ⟨state.requestIndex, state.detokenizer.outputText, state.detokenizer.outputTokenIds, some reason,
          stopReason⟩) ∧
      client'.queue.output = if client'.parent.childRequests.isEmpty then some ⟨.aggregator, true⟩ else none := by
  obtain ⟨hmade, hput⟩ := Client.deliver_eq_ok h
  rw [RequestState.makeRequestOutput_aggregated (RequestState.holdsBack_finished state) hkind hparent,
    sentCompletion_final hkind] at hmade hput
  have hchildren : client'.parent.childRequests = client.parent.outstanding requestId (some reason) := by
    rw [(Prod.mk.inj hmade).2]
  refine ⟨by rw [(Prod.mk.inj hmade).2], ?_⟩
  rw [hchildren]
  split
  · rename_i hempty
    simp only [hempty, if_true, RequestOutputCollector.putOutput, RequestOutputCollector.put, hqueue,
      Except.ok.injEq] at hput
    rw [← hput]
  · rename_i hempty
    simp only [hempty, Bool.false_eq_true, if_false, RequestOutputCollector.putOutput, Except.ok.injEq] at hput
    rw [← hput, hqueue]

lemma serve (h : Aggregated v) (hf : Fanned v) (hstate : v.states i = some state)
    (htokens : detokenizer.outputTokenIds = v.reported i ++ newTokenIds)
    (hbuffered : finishReason = none → detokenizer.Buffered)
    (hfinish : finishReason.isSome → v.FinishesInTime i)
    (hserve : v.serve i { state with detokenizer } newTokenIds finishReason stopReason = .ok w) :
    Aggregated (w.report i newTokenIds detokenizer.outputText) := by
  have hchild := hf.child i state hstate
  have hsome : (v.states i).isSome := by simp [hstate]
  have hsame : state.SameRequest { state with detokenizer } := ⟨rfl, rfl, rfl, rfl, rfl, rfl⟩
  obtain ⟨hs, -⟩ := Served.of_serve hf hstate hsame hserve
  have hempty := hf.isEmpty_iff hs hsome hfinish
  have hlog : v.log = [] := h.log_before (View.not_allFinished hsome)
  have hqueue : v.client.queue.output = none := by
    cases hout : v.client.queue.output with
    | none => rfl
    | some output => simp [View.log_of_output_eq_some hout] at hlog
  have hkind : RequestState.outputKind { state with detokenizer } = .finalOnly :=
    hchild.outputKind_eq.trans h.outputKind_eq
  have hparent : RequestState.hasParent { state with detokenizer } = true := hchild.hasParent
  replace hs := hs.report i newTokenIds detokenizer.outputText
  obtain ⟨state', client, hdeliver, rfl⟩ := View.serve_eq_ok hserve
  cases finishReason with
  | none =>
    obtain ⟨rfl, rfl⟩ := deliver_live hkind hdeliver
    refine h.of_served hs rfl rfl htokens ?_ rfl (fun _ _ => rfl) ?_ (fun _ => hlog) ?_
    · intro state' hstate'
      cases (update_self i _ v.states).symm.trans hstate'
      exact ⟨rfl, hbuffered rfl⟩
    · intro hnone
      exact nomatch (update_self i _ v.states).symm.trans hnone
    · intro hall
      exact absurd hall (View.not_allFinished (i := i) (by rw [hs.isSome_self]; rfl))
  | some reason =>
    obtain ⟨haggregator, hqueue'⟩ := deliver_finished hkind hparent hqueue hdeliver
    have hindex : RequestState.requestIndex { state with detokenizer } = i := hchild.requestIndex_eq
    rw [hindex] at haggregator
    have hi : i < v.client.parent.outputAggregator.length := by
      rw [h.length_eq]
      exact hchild.lt_added.trans_le hf.added_le
    have hseen : v.seen = [] := by rwa [View.log_of_output_eq_none hqueue] at hlog
    generalize hw : View.report { v with
      client
      states := update v.states i (if (some reason).isSome then none else some state') } i newTokenIds
        detokenizer.outputText = w at hs
    have hclient : w.client = client := by rw [← hw]; rfl
    have hreported : w.reported = update v.reported i (v.reported i ++ newTokenIds) := by rw [← hw]; rfl
    have htexts : w.texts = update v.texts i detokenizer.outputText := by rw [← hw]; rfl
    have hall : client.parent.childRequests.isEmpty = true ↔ w.AllFinished := by
      rw [← hw]
      exact hempty
    have hwseen : w.seen = [] := by rw [hs.seen_eq, hseen]
    rw [← hclient] at haggregator hqueue' hall
    have hnone : w.states i = none := by simpa using hs.isSome_self
    refine h.of_served hs hreported htexts htokens ?_ ?_ ?_ ?_ ?_ ?_
    · intro state' hstate'
      exact nomatch hnone.symm.trans hstate'
    · rw [haggregator, length_set]
    · intro j hj
      rw [haggregator, getElem?_set_ne (Ne.symm hj)]
    · intro _
      refine ⟨_, by rw [haggregator, getElem?_set_self hi], rfl, ?_, ?_, rfl⟩
      · rw [hreported, update_self]
        exact htokens
      · rw [htexts, update_self]
    · intro hnot
      rw [if_neg fun hempty => hnot (hall.1 hempty)] at hqueue'
      rw [View.log_of_output_eq_none hqueue', hwseen]
    · intro hfinished
      rw [if_pos (hall.2 hfinished)] at hqueue'
      rw [View.log_of_output_eq_some hqueue', hwseen]
      rfl

end Aggregated

/-! ## The invariant -/

/-- The outputs that wait have lists of their own. -/
def RequestOutputCollector.Own (queue : RequestOutputCollector) : Prop :=
  ∀ output, queue.output = some output → ∃ completions, output.outputs = .own completions

lemma RequestOutputCollector.Own.putOutput (h : queue.Own)
    (outputAggregator : List (Option CompletionOutput))
    (houtput : ∀ output', output = some output' → ∃ completions, output'.outputs = .own completions) :
    ∃ queue', queue.putOutput outputAggregator output = .ok queue' ∧ queue'.Own := by
  cases output with
  | none => exact ⟨queue, rfl, h⟩
  | some output =>
    obtain ⟨completions, hown⟩ := houtput output rfl
    cases hout : queue.output with
    | none =>
      refine ⟨{ queue with output := some output }, by simp [RequestOutputCollector.putOutput, put, hout], ?_⟩
      rintro _ ⟨rfl⟩
      exact ⟨completions, hown⟩
    | some pending =>
      obtain ⟨waiting, hwaiting⟩ := h pending hout
      have hadd : ∃ added, pending.add queue.aggregate outputAggregator output = .ok added ∧
          ∃ completions, added.outputs = .own completions := by
        simp only [RequestOutput.add, hown, hwaiting]
        exact ⟨_, rfl, _, rfl⟩
      obtain ⟨added, hadd, hadded⟩ := hadd
      refine ⟨{ queue with output := some added }, ?_, ?_⟩
      · simp only [RequestOutputCollector.putOutput, put, hout, hadd]
        rfl
      · rintro _ ⟨rfl⟩
        exact hadded

/-- An output of a child that is outstanding and streams has a list of its own. -/
lemma RequestState.own_makeRequestOutput (hparent : state.hasParent = true)
    (hkind : state.outputKind ≠ .finalOnly) (hmem : requestId ∈ parent.childRequests)
    (newTokenIds : List TokenId) (finishReason : Option FinishReason) (stopReason : Option StopReason)
    (output : RequestOutput)
    (h : (state.makeRequestOutput requestId parent newTokenIds finishReason stopReason).2.2 = some output) :
    ∃ completions, output.outputs = .own completions := by
  cases hheld : state.holdsBack finishReason.isSome with
  | true =>
    rw [makeRequestOutput_held hheld] at h
    cases h
  | false =>
    rw [makeRequestOutput_child hheld hkind hparent hmem] at h
    cases h
    exact ⟨_, rfl⟩

/-- What holds of a request with several completions as long as its children finish in time. -/
structure FanOutInv (v : View σ) : Prop where
  fanned : Fanned v
  told : ToldOnce v
  aggregated : v.client.params.outputKind = .finalOnly → Aggregated v
  own : v.client.params.outputKind ≠ .finalOnly → v.client.queue.Own

namespace FanOutInv

variable {v w : View σ} {decodeNext : σ → TokenId → Text × σ} {i : ℕ} {params : SamplingParams}

/-- Delivering an output of a child that is not finished raises nothing. -/
lemma deliver_isOk (h : FanOutInv v) {state₀ : RequestState σ} (hstate : v.states i = some state₀)
    (hsame : state₀.SameRequest state) (newTokenIds : List TokenId) (finishReason : Option FinishReason)
    (stopReason : Option StopReason) :
    ∃ state' client, v.client.deliver (v.childId i) state newTokenIds finishReason stopReason =
        .ok (state', client) ∧
      (v.client.params.outputKind ≠ .finalOnly → client.queue.Own) := by
  have hchild := h.fanned.child i state₀ hstate
  have hparent : state.hasParent = true := hsame.hasParent_eq.trans hchild.hasParent
  have hkind : state.outputKind = v.client.params.outputKind := hsame.outputKind_eq.trans hchild.outputKind_eq
  have hmem : v.childId i ∈ v.client.parent.childRequests :=
    (h.fanned.mem_iff _).2 ⟨i, rfl, by simp [hstate]⟩
  unfold Client.deliver
  by_cases hfinal : v.client.params.outputKind = .finalOnly
  · have hlog := (h.aggregated hfinal).log_before (View.not_allFinished (i := i) (by simp [hstate]))
    have hqueue : v.client.queue.output = none := by
      cases hout : v.client.queue.output with
      | none => rfl
      | some output => simp [View.log_of_output_eq_some hout] at hlog
    obtain ⟨queue, hput⟩ : ∃ queue, v.client.queue.putOutput
        (state.makeRequestOutput (v.childId i) v.client.parent newTokenIds finishReason stopReason).2.1.outputAggregator
        (state.makeRequestOutput (v.childId i) v.client.parent newTokenIds finishReason stopReason).2.2 =
          .ok queue := by
      cases (state.makeRequestOutput (v.childId i) v.client.parent newTokenIds finishReason stopReason).2.2 with
      | none => exact ⟨_, rfl⟩
      | some output =>
        simp only [RequestOutputCollector.putOutput, RequestOutputCollector.put, hqueue]
        exact ⟨_, rfl⟩
    simp only [hput]
    exact ⟨_, _, rfl, fun hne => absurd hfinal hne⟩
  · obtain ⟨queue, hput, hown⟩ := (h.own hfinal).putOutput
      (state.makeRequestOutput (v.childId i) v.client.parent newTokenIds finishReason stopReason).2.1.outputAggregator
      (RequestState.own_makeRequestOutput hparent (hkind ▸ hfinal) hmem newTokenIds finishReason stopReason)
    simp only [hput]
    exact ⟨_, _, rfl, fun _ => hown⟩

/-- Serving a child keeps the invariant: its detokenizer has the new tokens beyond what was reported. -/
lemma serve (h : FanOutInv v) {detokenizer : IncrementalDetokenizer σ} (text : Text)
    (hstate : v.states i = some state)
    (hdetokenized : v.client.params.outputKind = .finalOnly → detokenizer.outputText = text ∧
      detokenizer.outputTokenIds = v.reported i ++ newTokenIds ∧ (finishReason = none → detokenizer.Buffered))
    (hfinish : finishReason.isSome → v.FinishesInTime i)
    (hserve : v.serve i { state with detokenizer } newTokenIds finishReason stopReason = .ok w) :
    FanOutInv (w.report i newTokenIds text) := by
  have hsame : state.SameRequest { state with detokenizer } := ⟨rfl, rfl, rfl, rfl, rfl, rfl⟩
  have hsome : (v.states i).isSome := by simp [hstate]
  obtain ⟨hs, htells⟩ := Served.of_serve h.fanned hstate hsame hserve
  have hs' := hs.report i newTokenIds text
  refine ⟨h.fanned.served hs' hsome, h.told.served h.fanned hs' hsome hfinish htells, ?_, ?_⟩
  · intro hkind
    have hkind' : v.client.params.outputKind = .finalOnly := by rwa [← hs'.same.params_eq]
    obtain ⟨rfl, htokens, hbuffered⟩ := hdetokenized hkind'
    exact (h.aggregated hkind').serve h.fanned hstate htokens hbuffered hfinish hserve
  · intro hkind
    have hkind' : v.client.params.outputKind ≠ .finalOnly := by rwa [← hs'.same.params_eq]
    obtain ⟨state', client, hdeliver, hown⟩ := h.deliver_isOk hstate hsame newTokenIds finishReason stopReason
    obtain ⟨state'', client', hdeliver', rfl⟩ := View.serve_eq_ok hserve
    cases hdeliver.symm.trans hdeliver'
    exact hown hkind'

lemma step (h : FanOutInv v) (hstep : View.Step decodeNext View.FinishesInTime v w) : FanOutInv w := by
  cases hstep with
  | fanOut hadded =>
    exact ⟨h.fanned.fanOut hadded, h.told.fanOut hadded, fun hkind => (h.aggregated hkind).fanOut hadded, h.own⟩
  | get => exact ⟨h.fanned.get, h.told.get, fun hkind => (h.aggregated hkind).get, fun _ _ hout => nomatch hout⟩
  | @report w i state output detokenizer stopString hstate hupdate hfinish hserve =>
    refine h.serve _ hstate ?_ hfinish hserve
    intro hkind
    obtain ⟨hbuffered, htokens, -⟩ := (h.aggregated hkind).detokenized i state hstate
    obtain ⟨hnew, -, hbuffered'⟩ := IncrementalDetokenizer.update_spec decodeNext hbuffered output.newTokenIds
      (output.finishReason = some .stop)
    rw [Observed.detokenize] at hupdate
    rw [hupdate] at hnew hbuffered'
    refine ⟨rfl, by rw [hnew, htokens], ?_⟩
    intro hnone
    refine hbuffered' ?_
    cases stopString with
    | none => rfl
    | some stop => simp [EngineCoreOutput.stopReasons] at hnone
  | @abort _ i state hstate hfinish hserve =>
    have hserve' : v.serve i { state with detokenizer := state.detokenizer } [] (some .abort) none = .ok w :=
      hserve
    have hserved := h.serve (v.texts i) hstate (fun hkind => by
      obtain ⟨-, htokens, htext⟩ := (h.aggregated hkind).detokenized i state hstate
      exact ⟨htext, by rw [htokens, append_nil], by simp⟩) (fun _ => hfinish) hserve'
    have hreport : w.report i [] (v.texts i) = w := by
      obtain ⟨_, _, -, rfl⟩ := View.serve_eq_ok hserve
      rw [View.report, append_nil, update_eq_self, update_eq_self]
    rwa [hreport] at hserved

lemma new (id : String) (streamInterval : ℕ) (externalReqId : String) (tokenizer : Tokenizer σ)
    (hn : params.n ≠ 1) :
    FanOutInv (View.new id streamInterval externalReqId params tokenizer) :=
  ⟨.new id streamInterval externalReqId tokenizer hn, .new id streamInterval externalReqId tokenizer,
    .new id streamInterval externalReqId tokenizer, fun _ _ hout => nomatch hout⟩

lemma of_steps {id : String} {streamInterval : ℕ} {externalReqId : String} {tokenizer : Tokenizer σ}
    (h : Relation.ReflTransGen (View.Step decodeNext View.FinishesInTime)
      (.new id streamInterval externalReqId params tokenizer) v) (hn : v.client.params.n ≠ 1) :
    FanOutInv v := by
  induction h with
  | refl => exact .new id streamInterval externalReqId tokenizer hn
  | tail _ hstep ih =>
    rw [hstep.params_eq] at hn
    exact (ih hn).step hstep

end FanOutInv

/-! ## Runs -/

/-- What the client of a request with several completions has taken, with what waits in its queue: it is told
that the request is finished when all children are, and then once; in FINAL_ONLY mode that output is the only
one, and it has the completion of every child. -/
structure View.FinishesOnce (v : View σ) : Prop where
  unfinished : ¬v.AllFinished → ∀ output ∈ v.log, output.finished = false
  finished : v.AllFinished → v.log.countP (·.finished) = 1
  finalOnly : v.client.params.outputKind = .finalOnly →
    (¬v.AllFinished → v.log = []) ∧
      (v.AllFinished → ∃ outputs, v.log = [⟨outputs, true⟩] ∧ outputs.length = v.client.params.n ∧
        ∀ i, i < v.client.params.n →
          ∃ completion, outputs[i]? = some (some completion) ∧ v.CompletionOf i completion)

lemma FanOutInv.finishesOnce (h : FanOutInv v) : v.FinishesOnce := by
  refine ⟨?_, h.told.after, ?_⟩
  · intro hall output hmem
    have hzero := List.countP_eq_zero.1 (h.told.before hall) output hmem
    simpa using hzero
  · intro hkind
    have hagg := h.aggregated hkind
    refine ⟨hagg.log_before, fun hall => ⟨_, hagg.log_after hall, hagg.length_eq, ?_⟩⟩
    intro i hi
    exact hagg.completion i (hall.1 ▸ hi) (hall.2 i)

namespace Observed

variable {decodeNext : σ → TokenId → Text × σ} {listOrder : List InternalId → List InternalId}

/-- Where no child of a request finishes or is aborted while it is the only one that was added so far, the
client of a request with several completions is told once that it is finished, after all children are; no
output of a child that is not finished raises anything. -/
theorem finishesOnce_of_reaches (horder : ∀ ids, (listOrder ids).Perm ids) (streamInterval : ℕ) {t : Observed σ}
    (h : Reaches (Observed.run decodeNext listOrder) (Allowed decodeNext View.FinishesInTime)
      (.new streamInterval) t) {id : String} {client : Client σ} (hclient : t.llm.clients id = some client)
    (hn : 1 < client.params.n) :
    (t.view id client).FinishesOnce ∧
      (client.queue.output = none → (t.view id client).log = t.seen id) ∧
      ∀ i state, (t.view id client).states i = some state →
        ∀ detokenizer newTokenIds finishReason stopReason, ∃ delivered,
          client.deliver (client.childId id i) { state with detokenizer } newTokenIds finishReason stopReason =
            .ok delivered := by
  have htraced := traced_of_reaches horder h
  obtain ⟨_, _, _, _, hsteps⟩ := htraced.2 id client hclient
  have hinv : FanOutInv (t.view id client) := .of_steps hsteps hn.ne'
  refine ⟨hinv.finishesOnce, View.log_of_output_eq_none (v := t.view id client), ?_⟩
  intro i state hstate detokenizer newTokenIds finishReason stopReason
  obtain ⟨state', client', hdeliver, -⟩ := hinv.deliver_isOk hstate
    (⟨rfl, rfl, rfl, rfl, rfl, rfl⟩ : state.SameRequest { state with detokenizer }) newTokenIds finishReason
    stopReason
  exact ⟨_, hdeliver⟩

/-- Whether an output finishes no child, or finishes one after the last was added or while another child is
unfinished. -/
def outputInTime (decodeNext : σ → TokenId → Text × σ) (t : Observed σ) (output : EngineCoreOutput) : Bool :=
  (t.llm.requestStates output.requestId).all fun state =>
    (output.stopReasons (detokenize decodeNext state output).2).1.isNone ||
      (t.llm.clients state.clientId).all fun client =>
        client.added == client.params.n || (List.range client.added).any fun j =>
          j != state.requestIndex && (t.llm.requestStates (client.childId state.clientId j)).isSome

lemma outputMayFinish_of_inTime {t : Observed σ} {output : EngineCoreOutput}
    (h : outputInTime decodeNext t output = true) :
    OutputMayFinish decodeNext View.FinishesInTime t output := by
  intro state client hstate hclient hfinished
  simp only [outputInTime, hstate, hclient, Option.all_some, Bool.or_eq_true, Option.isNone_iff_eq_none,
    beq_iff_eq, any_eq_true, mem_range, Bool.and_eq_true, bne_iff_ne, ne_eq] at h
  rcases h with hnone | hadded | ⟨j, hj, hne, hsome⟩
  · simp [hnone] at hfinished
  · exact .inr (.inl hadded)
  · refine .inr (.inr ⟨j, hne, ?_⟩)
    simpa [view, hj] using hsome

def outputsInTime (decodeNext : σ → TokenId → Text × σ) : List EngineCoreOutput → Observed σ → Bool
  | [], _ => true
  | output :: outputs, t =>
    outputInTime decodeNext t output &&
      match t.processOutput decodeNext output with
      | .ok t' => outputsInTime decodeNext outputs t'
      | .error _ => true

/-- A check for the calls without aborts. -/
def InTime.check (decodeNext : σ → TokenId → Text × σ) (t : Observed σ) : FrontendCall σ → Bool
  | .submit id _ _ _ => (t.llm.clients id).isNone
  | .processOutputs outputs => outputsInTime decodeNext outputs t
  | .abortInternal _ | .abortExternal _ => false
  | .fanOut _ | .get _ => true

lemma InTime.of_check (t : Observed σ) (call : FrontendCall σ) (h : InTime.check decodeNext t call = true) :
    Allowed decodeNext View.FinishesInTime t call := by
  cases call with
  | submit => exact Option.isNone_iff_eq_none.1 h
  | processOutputs outputs =>
    have houtputs : outputsInTime decodeNext outputs t = true := h
    change OutputsMayFinish decodeNext View.FinishesInTime outputs t
    clear h
    induction outputs generalizing t with
    | nil => trivial
    | cons output outputs ih =>
      rw [outputsInTime, Bool.and_eq_true] at houtputs
      refine ⟨outputMayFinish_of_inTime houtputs.1, ?_⟩
      intro t' ht'
      rw [ht'] at houtputs
      exact ih t' houtputs.2
  | abortInternal | abortExternal => simp [InTime.check] at h
  | fanOut | get => trivial

/-- A request with `n = 3`, whose first child finishes while the second one is unfinished and the third was not
added yet. -/
def aggregatedCalls : List (FrontendCall Unit) :=
  [.submit "r" "r" { n := 3, outputKind := .finalOnly } (some ((), [7])),
    .fanOut "r",
    .fanOut "r",
    .processOutputs [⟨.child 0 "r", [2, 0], some .length, none⟩, ⟨.child 1 "r", [1], none, none⟩],
    .fanOut "r",
    .processOutputs [⟨.child 2 "r", [2], some .length, none⟩],
    .processOutputs [⟨.child 1 "r", [0], some .length, none⟩],
    .get "r"]

theorem finishesOnce_of_reaches_aggregatedCalls : ∃ t : Observed Unit, ∃ outputs : List (Option CompletionOutput),
    t.seen "r" = [⟨outputs, true⟩] ∧ outputs.length = 3 ∧
      ∃ completion, outputs[1]? = some (some completion) ∧ completion.index = 1 ∧
        completion.tokenIds = [1, 0] ∧ completion.text = ['b', 'a'] := by
  have hrun : (runChecked (Observed.run decodeLetter id) (InTime.check decodeLetter) aggregatedCalls
      (.new 1)).map (fun t =>
        ([0, 1, 2].map fun i => (t.llm.requestStates (.child i "r")).isNone,
          t.reported (.child 1 "r"), t.texts (.child 1 "r"))) =
      some ([true, true, true], [1, 0], ['b', 'a']) := by
    decide +kernel
  have hclient : ((runChecked (Observed.run decodeLetter id) (InTime.check decodeLetter) aggregatedCalls
      (.new 1)).bind (·.llm.clients "r")).map (fun client =>
        (client.params.n, client.params.outputKind, client.added, client.queue.output)) =
      some (3, .finalOnly, 3, none) := by
    decide +kernel
  obtain ⟨t, ht, hreported⟩ := Option.map_eq_some_iff.mp hrun
  rw [ht] at hclient
  obtain ⟨client, hclient, heq⟩ := Option.map_eq_some_iff.mp hclient
  simp only [map_cons, map_nil, List.cons.injEq, Prod.mk.injEq, Option.isNone_iff_eq_none, and_true]
    at hreported heq
  obtain ⟨hn, hkind, hadded, hqueue⟩ := heq
  obtain ⟨⟨hgone₀, hgone₁, hgone₂⟩, htokens, htext⟩ := hreported
  obtain ⟨honce, hlog, -⟩ := finishesOnce_of_reaches (fun _ => .refl _) 1
    (Reaches.of_runChecked InTime.of_check .start ht) hclient (by omega)
  have hid (i : ℕ) : client.childId "r" i = .child i "r" := by simp [Client.childId, hn]
  have hall : (t.view "r" client).AllFinished := by
    refine ⟨hadded.trans hn.symm, ?_⟩
    intro i
    rcases i with _ | _ | _ | i
    · simp [view, hid, hgone₀]
    · simp [view, hid, hgone₁]
    · simp [view, hid, hgone₂]
    · simp [view, hadded]
  obtain ⟨outputs, hseen, hlength, hcompletions⟩ := (honce.finalOnly hkind).2 hall
  rw [hlog hqueue] at hseen
  obtain ⟨completion, hget, hcompletion⟩ := hcompletions 1 (by simp [view, hn])
  have hreported₁ : (t.view "r" client).reported 1 = [1, 0] := by simp [view, hadded, hid, htokens]
  have htexts₁ : (t.view "r" client).texts 1 = ['b', 'a'] := by simp [view, hadded, hid, htext]
  exact ⟨t, outputs, hseen, hlength.trans hn, completion, hget, hcompletion.index_eq,
    hcompletion.tokenIds_eq.trans hreported₁, hcompletion.text_eq.trans htexts₁⟩

/-- A request with `n = 2`, whose first child finishes before the second one is added. -/
def fastChildCalls : List (FrontendCall Unit) :=
  [.submit "r" "r" { n := 2, outputKind := .finalOnly, n_pos := Nat.two_pos } none,
    .fanOut "r",
    .processOutputs [⟨.child 0 "r", [4], some .length, none⟩],
    .get "r",
    .fanOut "r",
    .processOutputs [⟨.child 1 "r", [5], some .length, none⟩],
    .get "r"]

/-- The client is told twice that the request is finished, first with a placeholder for the child that was not
added yet. -/
theorem told_twice_fastChildCalls : ∃ t : Observed Unit,
    Reaches (Observed.run decodeLetter id) Fresh (.new 1) t ∧
      t.seen "r" =
        [⟨[some ⟨0, [], [4], some .length, none⟩, none], true⟩,
          ⟨[some ⟨0, [], [4], some .length, none⟩, some ⟨1, [], [5], some .length, none⟩], true⟩] := by
  have hrun : (runChecked (Observed.run decodeLetter id) Fresh.check fastChildCalls (.new 1)).map (·.seen "r") =
      some [⟨[some ⟨0, [], [4], some .length, none⟩, none], true⟩,
        ⟨[some ⟨0, [], [4], some .length, none⟩, some ⟨1, [], [5], some .length, none⟩], true⟩] := by
    decide +kernel
  obtain ⟨t, ht, hseen⟩ := Option.map_eq_some_iff.mp hrun
  exact ⟨t, .of_runChecked Fresh.of_check .start ht, hseen⟩

end Observed

end VllmRuntime.Frontend
