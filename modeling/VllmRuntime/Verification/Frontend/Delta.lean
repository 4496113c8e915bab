import VllmRuntime.Verification.Frontend.Collector
import VllmRuntime.Verification.Frontend.Detokenizer
import VllmRuntime.Verification.Frontend.Simulation

/-! In DELTA mode the outputs of a request, one after the other, are what the engine reported. -/

namespace VllmRuntime.Frontend

open List Function

variable {σ : Type} {v : View σ} {v' : View σ} {decodeNext : σ → TokenId → Text × σ}
  {mayFinish : View σ → ℕ → Prop}

namespace View

/-- The outputs that the client has taken, and the one that waits in its queue. -/
def log (v : View σ) : List SeenOutput := v.seen ++ v.client.queue.pending v.client.parent.outputAggregator

/-- What the outputs have for one child. -/
def logPart {α : Type} (v : View σ) (f : CompletionOutput → List α) (i : ℕ) : List α :=
  v.log.flatMap fun output => partAt f i output.outputs

lemma log_get (v : View σ) : v.get.log = v.log := by
  simp [log, get, RequestOutputCollector.pending]

lemma states_fanOut_self (v : View σ) : v.fanOut.states v.client.added = some v.newState :=
  update_self _ _ _

lemma states_fanOut_of_ne (v : View σ) {i : ℕ} (h : i ≠ v.client.added) : v.fanOut.states i = v.states i :=
  update_of_ne h _ _

lemma outputAggregator_fanOut (v : View σ) :
    v.fanOut.client.parent.outputAggregator = v.client.parent.outputAggregator := by
  simp only [fanOut]
  split <;> rfl

lemma log_fanOut (v : View σ) : v.fanOut.log = v.log := by
  rw [log, outputAggregator_fanOut]
  rfl

lemma childRequests_fanOut (v : View σ) :
    v.client.parent.childRequests ⊆ v.fanOut.client.parent.childRequests := by
  simp only [fanOut]
  split
  · exact List.Subset.refl _
  · exact fun _ h => mem_insert_of_mem h

lemma childId_mem_fanOut (hn : v.client.params.n ≠ 1) :
    v.childId v.client.added ∈ v.fanOut.client.parent.childRequests := by
  simp only [fanOut, if_neg hn]
  exact mem_insert_self

end View

/-! ## One output -/

section Output

variable {state : RequestState σ} {requestId : InternalId} {parent : ParentRequest} {newTokenIds : List TokenId}
  {finishReason : Option FinishReason} {stopReason : Option StopReason}

lemma RequestState.makeRequestOutput_held (h : state.holdsBack finishReason.isSome = true) :
    state.makeRequestOutput requestId parent newTokenIds finishReason stopReason = (state, parent, none) := by
  rw [makeRequestOutput, if_pos h]

/-- The children that are outstanding after an output. -/
def ParentRequest.outstanding (parent : ParentRequest) (requestId : InternalId)
    (finishReason : Option FinishReason) : List InternalId :=
  if finishReason.isSome then parent.childRequests.erase requestId else parent.childRequests

/-- The completion that an output sends, with the state after it. -/
def RequestState.sentCompletion (state : RequestState σ) (newTokenIds : List TokenId)
    (finishReason : Option FinishReason) (stopReason : Option StopReason) : RequestState σ × CompletionOutput :=
  (state.takeTokens newTokenIds).2.newCompletionOutput (state.takeTokens newTokenIds).1 finishReason stopReason

/-- The completion of a request without a parent. -/
lemma RequestState.makeRequestOutput_alone (h : state.holdsBack finishReason.isSome = false)
    (hparent : state.hasParent = false) :
    state.makeRequestOutput requestId parent newTokenIds finishReason stopReason =
      ((state.sentCompletion newTokenIds finishReason stopReason).1, parent,
        some ⟨.own [(state.sentCompletion newTokenIds finishReason stopReason).2], finishReason.isSome⟩) := by
  rw [makeRequestOutput, if_neg (by simp [h])]
  simp [hparent, sentCompletion]

/-- The completion of a child that streams and is still outstanding. -/
lemma RequestState.makeRequestOutput_child (h : state.holdsBack finishReason.isSome = false)
    (hkind : state.outputKind ≠ .finalOnly) (hparent : state.hasParent = true)
    (hmem : requestId ∈ parent.childRequests) :
    state.makeRequestOutput requestId parent newTokenIds finishReason stopReason =
      ((state.sentCompletion newTokenIds finishReason stopReason).1,
        { parent with childRequests := parent.outstanding requestId finishReason },
        some ⟨.own [(state.sentCompletion newTokenIds finishReason stopReason).2],
          (parent.outstanding requestId finishReason).isEmpty⟩) := by
  rw [makeRequestOutput, if_neg (by simp [h])]
  simp only [hparent, Bool.not_true, Bool.false_eq_true, if_false, ParentRequest.getOutputs, ne_eq, hkind,
    not_false_eq_true, if_true, List.contains_iff_mem.2 hmem, Bool.and_false, Option.map_some]
  rfl

/-- A finished request holds nothing back. -/
lemma RequestState.holdsBack_finished (state : RequestState σ) : state.holdsBack true = false := by
  simp [holdsBack]

end Output

/-! ## The invariant -/

/-- What holds of a child that is not finished. -/
structure DeltaChild (v : View σ) (i : ℕ) (state : RequestState σ) : Prop where
  lt_added : i < v.client.added
  requestIndex_eq : state.requestIndex = i
  outputKind_eq : state.outputKind = .delta
  outstanding : state.hasParent = true → v.client.params.n ≠ 1 ∧ v.childId i ∈ v.client.parent.childRequests
  buffered : state.detokenizer.Buffered
  tokens_eq : state.detokenizer.outputTokenIds = v.reported i
  text_eq : state.detokenizer.outputText = v.texts i
  sent_le : state.sentTokensOffset ≤ (v.reported i).length
  sentTokens : v.logPart (·.tokenIds) i =
    if 1 < state.streamInterval then (v.reported i).take state.sentTokensOffset else v.reported i
  sentText : v.logPart (·.text) i = state.detokenizer.sentText

/-- What holds of a request in DELTA mode: of a child that is not finished, everything that was not sent is
still there; of the others everything was sent. -/
structure DeltaInv (v : View σ) : Prop where
  outputKind_eq : v.client.params.outputKind = .delta
  streams : v.client.queue.Streams
  child : ∀ i state, v.states i = some state → DeltaChild v i state
  gone : ∀ i, v.states i = none → v.logPart (·.tokenIds) i = v.reported i ∧ v.logPart (·.text) i = v.texts i
  later : ∀ i, v.client.added ≤ i → v.logPart (·.tokenIds) i = [] ∧ v.logPart (·.text) i = []

namespace DeltaInv

variable {newTokenIds : List TokenId} {finishReason : Option FinishReason} {requestId : InternalId}
  {state : RequestState σ} {stopReason : Option StopReason} {client : Client σ} {i : ℕ}

lemma get {v : View σ} (h : DeltaInv v) : DeltaInv v.get := by
  have hpart {α : Type} (f : CompletionOutput → List α) (i : ℕ) : v.get.logPart f i = v.logPart f i := by
    rw [View.logPart, View.log_get, View.logPart]
  refine ⟨h.outputKind_eq, ⟨h.streams.aggregate, fun _ hout => nomatch hout⟩, ?_, ?_, ?_⟩
  · intro i state hstate
    have hchild := h.child i state hstate
    refine ⟨hchild.lt_added, hchild.requestIndex_eq, hchild.outputKind_eq, hchild.outstanding, hchild.buffered,
      hchild.tokens_eq, hchild.text_eq, hchild.sent_le, ?_, ?_⟩
    · rw [hpart]
      exact hchild.sentTokens
    · rw [hpart]
      exact hchild.sentText
  · intro i hi
    rw [hpart, hpart]
    exact h.gone i hi
  · intro i hi
    rw [hpart, hpart]
    exact h.later i hi

lemma buffered_fromNewRequest (tokenizer : Tokenizer σ) (params : SamplingParams) :
    (IncrementalDetokenizer.fromNewRequest tokenizer params).Buffered ∧
      (IncrementalDetokenizer.fromNewRequest tokenizer params).outputTokenIds = [] ∧
      (IncrementalDetokenizer.fromNewRequest tokenizer params).outputText = [] ∧
      (IncrementalDetokenizer.fromNewRequest tokenizer params).sentText = [] := by
  cases tokenizer with
  | none => exact ⟨⟨le_rfl, fun _ h => nomatch h⟩, rfl, rfl, rfl⟩
  | some tokenizer =>
    refine ⟨⟨le_rfl, ?_⟩, drop_length, rfl, rfl⟩
    rintro _ ⟨rfl⟩
    refine ⟨params.stop_ne_nil, ?_, .inr rfl⟩
    intro hinc s hs
    have hinc' : params.includeStopStrInOutput = false := hinc
    have hne : params.stop ≠ [] := ne_nil_of_mem hs
    have hmax : s.length ≤ (params.stop.map (·.length)).foldr max 0 :=
      le_max_of_le' 0 (mem_map_of_mem hs) le_rfl
    simp only [hne, hinc', ne_eq, not_false_eq_true, Bool.not_false, and_self, if_true]
    omega

lemma fanOut {v : View σ} (h : DeltaInv v) : DeltaInv v.fanOut := by
  have hpart {α : Type} (f : CompletionOutput → List α) (i : ℕ) : v.fanOut.logPart f i = v.logPart f i := by
    rw [View.logPart, View.log_fanOut, View.logPart]
  refine ⟨h.outputKind_eq, h.streams, ?_, ?_, ?_⟩
  · intro i state hstate
    by_cases hi : i = v.client.added
    · subst hi
      cases v.states_fanOut_self.symm.trans hstate
      obtain ⟨hbuffered, htokens, htext, hsent⟩ := buffered_fromNewRequest v.client.tokenizer v.client.params
      obtain ⟨hlogTokens, hlogText⟩ := h.later _ le_rfl
      have hreported : v.fanOut.reported v.client.added = [] := update_self _ _ _
      have htexts : v.fanOut.texts v.client.added = [] := update_self _ _ _
      refine ⟨Nat.lt_succ_self _, rfl, h.outputKind_eq, ?_, hbuffered, htokens.trans hreported.symm,
        htext.trans htexts.symm, Nat.zero_le _, ?_, ?_⟩
      · intro hparent
        have hn : v.client.params.n ≠ 1 := by simpa [View.newState] using hparent
        exact ⟨hn, View.childId_mem_fanOut hn⟩
      · rw [hpart, hlogTokens, hreported]
        simp
      · rw [hpart, hlogText]
        exact hsent.symm
    · have hold : v.states i = some state := (v.states_fanOut_of_ne hi).symm.trans hstate
      have hchild := h.child i state hold
      have hreported : v.fanOut.reported i = v.reported i := update_of_ne hi _ _
      have htexts : v.fanOut.texts i = v.texts i := update_of_ne hi _ _
      refine ⟨Nat.lt_succ_of_lt hchild.lt_added, hchild.requestIndex_eq, hchild.outputKind_eq, ?_,
        hchild.buffered, hchild.tokens_eq.trans hreported.symm, hchild.text_eq.trans htexts.symm, ?_, ?_, ?_⟩
      · intro hparent
        obtain ⟨hn, hmem⟩ := hchild.outstanding hparent
        exact ⟨hn, View.childRequests_fanOut v hmem⟩
      · rw [hreported]
        exact hchild.sent_le
      · rw [hpart, hreported]
        exact hchild.sentTokens
      · rw [hpart]
        exact hchild.sentText
  · intro i hi
    have hne : i ≠ v.client.added := by
      rintro rfl
      exact nomatch v.states_fanOut_self.symm.trans hi
    have hold : v.states i = none := (v.states_fanOut_of_ne hne).symm.trans hi
    have hreported : v.fanOut.reported i = v.reported i := update_of_ne hne _ _
    have htexts : v.fanOut.texts i = v.texts i := update_of_ne hne _ _
    rw [hpart, hpart, hreported, htexts]
    exact h.gone i hold
  · intro i hi
    rw [hpart, hpart]
    exact h.later i (Nat.le_of_succ_le hi)

/-! ## Serving an output -/

/-- What a completion in DELTA mode has, and the state after it. -/
lemma sentCompletion_delta (state : RequestState σ) (hkind : state.outputKind = .delta)
    (newTokenIds : List TokenId) (finishReason : Option FinishReason) (stopReason : Option StopReason) :
    (state.sentCompletion newTokenIds finishReason stopReason).2.index = state.requestIndex ∧
      (state.sentCompletion newTokenIds finishReason stopReason).2.tokenIds =
        (if 1 < state.streamInterval then state.detokenizer.outputTokenIds.drop state.sentTokensOffset
          else newTokenIds) ∧
      (state.sentCompletion newTokenIds finishReason stopReason).2.text =
        (state.detokenizer.getNextOutputText finishReason.isSome true).2 ∧
      (state.sentCompletion newTokenIds finishReason stopReason).1 =
        { state with
          detokenizer := (state.detokenizer.getNextOutputText finishReason.isSome true).1
          sentTokensOffset := if 1 < state.streamInterval then state.detokenizer.outputTokenIds.length
            else state.sentTokensOffset } := by
  unfold RequestState.sentCompletion RequestState.newCompletionOutput RequestState.takeTokens
  by_cases hinterval : 1 < state.streamInterval
  · simp [hkind, hinterval]
  · simp [hkind, hinterval]

/-- The output of a request in DELTA mode that is not held back is its completion alone. -/
lemma makeRequestOutput_delta {parent : ParentRequest} (hkind : state.outputKind = .delta)
    (hparent : state.hasParent = true → requestId ∈ parent.childRequests)
    (hheld : state.holdsBack finishReason.isSome = false) :
    ∃ parent' finished,
      state.makeRequestOutput requestId parent newTokenIds finishReason stopReason =
        ((state.sentCompletion newTokenIds finishReason stopReason).1, parent',
          some ⟨.own [(state.sentCompletion newTokenIds finishReason stopReason).2], finished⟩) ∧
      parent'.outputAggregator = parent.outputAggregator ∧
      ∀ id ∈ parent.childRequests, id ≠ requestId ∨ finishReason = none → id ∈ parent'.childRequests := by
  cases hp : state.hasParent with
  | false => exact ⟨_, _, RequestState.makeRequestOutput_alone hheld hp, rfl, fun _ hid _ => hid⟩
  | true =>
    have hne : state.outputKind ≠ .finalOnly := by simp [hkind]
    refine ⟨_, _, RequestState.makeRequestOutput_child hheld hne hp (hparent hp), rfl, ?_⟩
    intro id hid hkeep
    simp only [ParentRequest.outstanding]
    split
    · rename_i hsome
      rcases hkeep with hkeep | rfl
      · exact (mem_erase_of_ne hkeep).2 hid
      · simp at hsome
    · exact hid

/-- Delivering an output of a request in DELTA mode raises nothing. -/
lemma deliver_isOk (state : RequestState σ) (hstreams : client.queue.Streams)
    (hkind : state.outputKind = .delta)
    (hparent : state.hasParent = true → requestId ∈ client.parent.childRequests) (newTokenIds : List TokenId)
    (finishReason : Option FinishReason) (stopReason : Option StopReason) :
    ∃ delivered, client.deliver requestId state newTokenIds finishReason stopReason = .ok delivered := by
  unfold Client.deliver
  cases hheld : state.holdsBack finishReason.isSome with
  | true =>
    rw [RequestState.makeRequestOutput_held hheld]
    exact ⟨_, rfl⟩
  | false =>
    obtain ⟨parent, finished, hmade, -⟩ := makeRequestOutput_delta hkind hparent hheld
    obtain ⟨queue, hput, -⟩ := hstreams.put parent.outputAggregator parent.outputAggregator
      (state.sentCompletion newTokenIds finishReason stopReason).2 finished
    have hput' : client.queue.putOutput parent.outputAggregator
        (some ⟨.own [(state.sentCompletion newTokenIds finishReason stopReason).2], finished⟩) = .ok queue :=
      hput
    rw [hmade]
    simp only [hput']
    exact ⟨_, rfl⟩

/-- An output of a request in DELTA mode is held back, or its completion is appended to the queue. -/
lemma deliver_delta {client' : Client σ} (state : RequestState σ) {state' : RequestState σ}
    (hstreams : client.queue.Streams) (hkind : state.outputKind = .delta)
    (hparent : state.hasParent = true → requestId ∈ client.parent.childRequests)
    (h : client.deliver requestId state newTokenIds finishReason stopReason = .ok (state', client')) :
    (state.holdsBack finishReason.isSome = true ∧ state' = state ∧ client' = client) ∨
      (state.holdsBack finishReason.isSome = false ∧
        state' = (state.sentCompletion newTokenIds finishReason stopReason).1 ∧
        client'.queue.Streams ∧
        (∀ (α : Type) (f : CompletionOutput → List α), Additive f → ∀ i,
          (client'.queue.pending client'.parent.outputAggregator).flatMap
              (fun output => partAt f i output.outputs) =
            (client.queue.pending client.parent.outputAggregator).flatMap
                (fun output => partAt f i output.outputs) ++
              if (state.sentCompletion newTokenIds finishReason stopReason).2.index = i then
                f (state.sentCompletion newTokenIds finishReason stopReason).2 else []) ∧
        ∀ id ∈ client.parent.childRequests, id ≠ requestId ∨ finishReason = none →
          id ∈ client'.parent.childRequests) := by
  unfold Client.deliver at h
  obtain ⟨queue, hqueue, h⟩ := bind_eq_ok h
  cases h
  cases hheld : state.holdsBack finishReason.isSome with
  | true =>
    rw [RequestState.makeRequestOutput_held hheld] at hqueue ⊢
    cases hqueue
    exact .inl ⟨rfl, rfl, rfl⟩
  | false =>
    obtain ⟨parent, finished, hmade, hagg, hchildren⟩ := makeRequestOutput_delta hkind hparent hheld
    rw [hmade] at hqueue ⊢
    obtain ⟨queue', hput, hstreams', hparts⟩ := hstreams.put parent.outputAggregator parent.outputAggregator
      (state.sentCompletion newTokenIds finishReason stopReason).2 finished
    obtain rfl : queue' = queue := Except.ok.inj (hput.symm.trans hqueue)
    refine .inr ⟨rfl, rfl, hstreams', ?_, hchildren⟩
    intro α f hf i
    rw [hparts α f hf i, hagg]

/-- What serving a child does: the queue still streams, the other children are as they were, and of the
child that was served everything was sent or is still there. -/
structure ServedChild (v w : View σ) (i : ℕ) (newTokenIds : List TokenId) (text : Text)
    (finishReason : Option FinishReason) (state : RequestState σ) : Prop where
  same : v.client.SameClient w.client
  id_eq : w.id = v.id
  states_eq : w.states = update v.states i (if finishReason.isSome then none else some state)
  reported_eq : w.reported = update v.reported i (v.reported i ++ newTokenIds)
  texts_eq : w.texts = update v.texts i text
  streams : w.client.queue.Streams
  other : ∀ (α : Type) (f : CompletionOutput → List α), Additive f → ∀ j, j ≠ i →
    w.logPart f j = v.logPart f j
  children : ∀ id ∈ v.client.parent.childRequests, id ≠ v.childId i ∨ finishReason = none →
    id ∈ w.client.parent.childRequests
  finished : finishReason ≠ none → w.logPart (·.tokenIds) i = v.reported i ++ newTokenIds ∧
    w.logPart (·.text) i = text
  live : finishReason = none → DeltaChild w i state

lemma of_servedChild {v w : View σ} (h : DeltaInv v) {state₀ : RequestState σ}
    (hstate : v.states i = some state₀) {text : Text}
    (hs : ServedChild v w i newTokenIds text finishReason state) :
    DeltaInv w := by
  have hreported {j : ℕ} (hj : j ≠ i) : w.reported j = v.reported j := by
    rw [hs.reported_eq, update_of_ne hj]
  have htexts {j : ℕ} (hj : j ≠ i) : w.texts j = v.texts j := by
    rw [hs.texts_eq, update_of_ne hj]
  refine ⟨by rw [hs.same.params_eq]; exact h.outputKind_eq, hs.streams, ?_, ?_, ?_⟩
  · intro j st hst
    rw [hs.states_eq] at hst
    by_cases hj : j = i
    · subst hj
      rw [update_self] at hst
      split at hst
      · cases hst
      · rename_i hnone
        cases hst
        exact hs.live (by simpa using hnone)
    · rw [update_of_ne hj] at hst
      have hc := h.child j st hst
      refine ⟨hs.same.added_eq ▸ hc.lt_added, hc.requestIndex_eq, hc.outputKind_eq, ?_, hc.buffered,
        hc.tokens_eq.trans (hreported hj).symm, hc.text_eq.trans (htexts hj).symm,
        (hreported hj).symm ▸ hc.sent_le, ?_, ?_⟩
      · intro hparent
        obtain ⟨hn, hmem⟩ := hc.outstanding hparent
        have hne : v.childId j ≠ v.childId i := by
          simp only [View.childId, Client.childId, if_neg hn]
          simpa using hj
        refine ⟨hs.same.params_eq ▸ hn, ?_⟩
        rw [View.childId, hs.same.childId_eq, hs.id_eq]
        exact hs.children _ hmem (.inl hne)
      · rw [hs.other _ _ additive_tokenIds j hj, hreported hj]
        exact hc.sentTokens
      · rw [hs.other _ _ additive_text j hj]
        exact hc.sentText
  · intro j hst
    rw [hs.states_eq] at hst
    by_cases hj : j = i
    · subst hj
      rw [update_self] at hst
      split at hst
      · rename_i hsome
        rw [hs.reported_eq, hs.texts_eq, update_self, update_self]
        exact hs.finished (by rintro rfl; simp at hsome)
      · cases hst
    · rw [update_of_ne hj] at hst
      rw [hs.other _ _ additive_tokenIds j hj, hs.other _ _ additive_text j hj, hreported hj, htexts hj]
      exact h.gone j hst
  · intro j hj
    rw [hs.same.added_eq] at hj
    have hne : j ≠ i := by
      rintro rfl
      exact absurd (h.child j state₀ hstate).lt_added (Nat.not_lt_of_le hj)
    rw [hs.other _ _ additive_tokenIds j hne, hs.other _ _ additive_text j hne]
    exact h.later j hj

section Child

variable {v : View σ} {i : ℕ} {state : RequestState σ} {detokenizer : IncrementalDetokenizer σ}
  {newTokenIds : List TokenId} {finishReason : Option FinishReason} {stopReason : Option StopReason}
  (hchild : DeltaChild v i state) (htokens : detokenizer.outputTokenIds = v.reported i ++ newTokenIds)
  (hsent : detokenizer.sentText = state.detokenizer.sentText)
  (hbuffered : finishReason = none → detokenizer.Buffered)

include hchild htokens hsent hbuffered

/-- The output is held back: the new tokens are added to those that were not sent. -/
lemma servedChild_held (hstreams : v.client.queue.Streams)
    (hheld : RequestState.holdsBack { state with detokenizer } finishReason.isSome = true) :
    ServedChild v (View.report { v with
        client := v.client
        states := update v.states i (if finishReason.isSome then none else some
          { state with detokenizer }) } i newTokenIds detokenizer.outputText)
      i newTokenIds detokenizer.outputText finishReason { state with detokenizer } := by
  have hnone : finishReason = none := by
    cases finishReason with
    | none => rfl
    | some reason =>
      rw [Option.isSome_some, RequestState.holdsBack_finished] at hheld
      cases hheld
  have hinterval : 1 < state.streamInterval := by
    by_contra hle
    simp [RequestState.holdsBack, hchild.outputKind_eq, hle] at hheld
  subst hnone
  refine ⟨⟨rfl, rfl, rfl, rfl⟩, rfl, rfl, rfl, rfl, hstreams, fun _ _ _ _ _ => rfl, fun _ hid _ => hid,
    fun hne => absurd rfl hne, fun _ => ?_⟩
  refine ⟨hchild.lt_added, hchild.requestIndex_eq, hchild.outputKind_eq, hchild.outstanding, hbuffered rfl,
    ?_, (View.report_texts_self _ _ _ _).symm, ?_, ?_, ?_⟩
  · rw [View.report_reported_self]
    exact htokens
  · rw [View.report_reported_self, length_append]
    exact hchild.sent_le.trans (Nat.le_add_right _ _)
  · rw [View.report_reported_self, if_pos hinterval, take_append_of_le_length hchild.sent_le]
    have hlog := hchild.sentTokens
    rw [if_pos hinterval] at hlog
    exact hlog
  · exact hchild.sentText.trans hsent.symm

/-- The completion is sent: it has all tokens that were not sent before, and the text that follows. -/
lemma servedChild_sent (hsame : v.client.SameClient client) (hstreams : client.queue.Streams)
    (hparts : ∀ (α : Type) (f : CompletionOutput → List α), Additive f → ∀ j,
      (client.queue.pending client.parent.outputAggregator).flatMap (fun output => partAt f j output.outputs) =
        (v.client.queue.pending v.client.parent.outputAggregator).flatMap
            (fun output => partAt f j output.outputs) ++
          if (RequestState.sentCompletion { state with detokenizer } newTokenIds finishReason
              stopReason).2.index = j then
            f (RequestState.sentCompletion { state with detokenizer } newTokenIds finishReason stopReason).2
          else []) (hchildren : ∀ id ∈ v.client.parent.childRequests, id ≠ v.childId i ∨ finishReason = none →
      id ∈ client.parent.childRequests) :
    ServedChild v (View.report { v with
        client
        states := update v.states i (if finishReason.isSome then none else some
          (RequestState.sentCompletion { state with detokenizer } newTokenIds finishReason stopReason).1) }
        i newTokenIds detokenizer.outputText)
      i newTokenIds detokenizer.outputText finishReason
      (RequestState.sentCompletion { state with detokenizer } newTokenIds finishReason stopReason).1 := by
  obtain ⟨hindex, hnew, htext, hstate⟩ := sentCompletion_delta { state with detokenizer }
    hchild.outputKind_eq newTokenIds finishReason stopReason
  rw [hstate]
  replace hindex := hindex.trans hchild.requestIndex_eq
  generalize (RequestState.sentCompletion { state with detokenizer } newTokenIds finishReason stopReason).2 =
    completion at hindex hnew htext hparts
  rw [hindex] at hparts
  obtain ⟨hout, houtText, hsentText, hfinal, hready⟩ :=
    detokenizer.getNextOutputText_delta finishReason.isSome
  generalize hw : View.report { v with
    client
    states := update v.states i (if finishReason.isSome then none else some { state with
      detokenizer := (detokenizer.getNextOutputText finishReason.isSome true).1
      sentTokensOffset := if 1 < state.streamInterval then detokenizer.outputTokenIds.length
        else state.sentTokensOffset }) } i newTokenIds detokenizer.outputText = w
  have hlog {α : Type} {f : CompletionOutput → List α} (hf : Additive f) (j : ℕ) :
      w.logPart f j = v.logPart f j ++ if i = j then f completion else [] := by
    have hpart := hparts α f hf j
    rw [← hw, View.logPart, View.log, flatMap_append, View.logPart, View.log, flatMap_append,
      append_assoc]
    exact congrArg _ hpart
  have hlogTokens : w.logPart (·.tokenIds) i = v.reported i ++ newTokenIds := by
    rw [hlog additive_tokenIds, if_pos rfl, hnew, hchild.sentTokens]
    split
    · have hsplit : (v.reported i).take state.sentTokensOffset =
          (v.reported i ++ newTokenIds).take state.sentTokensOffset := by
        rw [take_append_of_le_length hchild.sent_le]
      rw [hsplit, htokens, take_append_drop]
    · rfl
  have hlogText : w.logPart (·.text) i = (detokenizer.getNextOutputText finishReason.isSome true).1.sentText := by
    rw [hlog additive_text, if_pos rfl, htext, hchild.sentText, hsentText, hsent]
  have hreported : w.reported i = v.reported i ++ newTokenIds := by
    rw [← hw, View.report_reported_self]
  have htexts : w.texts i = detokenizer.outputText := by
    rw [← hw, View.report_texts_self]
  have hclient : w.client = client := by rw [← hw]; rfl
  have hid : w.id = v.id := by rw [← hw]; rfl
  refine ⟨hclient ▸ hsame, hid, by rw [← hw]; rfl, by rw [← hw]; rfl, by rw [← hw]; rfl, hclient ▸ hstreams,
    ?_, hclient ▸ hchildren, ?_, ?_⟩
  · intro α f hf j hj
    rw [hlog hf, if_neg (Ne.symm hj), append_nil]
  · intro hfinish
    have hsome : finishReason.isSome = true := Option.isSome_iff_ne_none.2 hfinish
    exact ⟨hlogTokens, hlogText.trans (hfinal hsome)⟩
  · rintro rfl
    refine ⟨?_, hchild.requestIndex_eq, hchild.outputKind_eq, ?_, hready rfl (hbuffered rfl), ?_,
      houtText.trans htexts.symm, ?_, ?_, hlogText⟩
    · rw [hclient, hsame.added_eq]
      exact hchild.lt_added
    · intro hparent
      obtain ⟨hn, hmem⟩ := hchild.outstanding hparent
      rw [hclient, hsame.params_eq, View.childId, hclient, hsame.childId_eq, hid]
      exact ⟨hn, hchildren _ hmem (.inr rfl)⟩
    · rw [hreported, ← htokens]
      exact hout
    · rw [hreported]
      dsimp only
      split
      · rw [htokens]
      · rw [length_append]
        exact hchild.sent_le.trans (Nat.le_add_right _ _)
    · rw [hlogTokens, hreported]
      dsimp only
      split
      · rw [htokens, take_length]
      · rfl

end Child

/-- A child is served an output: the tokens that its detokenizer has beyond what was reported are the new
ones, and the text that was sent is the same as before. -/
lemma serve {v v' : View σ} (h : DeltaInv v) {detokenizer : IncrementalDetokenizer σ}
    (hstate : v.states i = some state) (htokens : detokenizer.outputTokenIds = v.reported i ++ newTokenIds)
    (hsent : detokenizer.sentText = state.detokenizer.sentText)
    (hbuffered : finishReason = none → detokenizer.Buffered)
    (hserve : v.serve i { state with detokenizer } newTokenIds finishReason stopReason = .ok v') :
    DeltaInv (v'.report i newTokenIds detokenizer.outputText) := by
  have hchild := h.child i state hstate
  unfold View.serve at hserve
  obtain ⟨⟨state', client'⟩, hdeliver, hserve⟩ := bind_eq_ok hserve
  cases hserve
  obtain ⟨-, hsame⟩ := Client.deliver_same hdeliver
  have hparent : state.hasParent = true → v.childId i ∈ v.client.parent.childRequests :=
    fun hp => (hchild.outstanding hp).2
  have hdelivered := deliver_delta { state with detokenizer } h.streams hchild.outputKind_eq hparent
    hdeliver
  rcases hdelivered with ⟨hheld, rfl, rfl⟩ | ⟨-, rfl, hstreams, hparts, hchildren⟩
  · exact h.of_servedChild hstate (servedChild_held hchild htokens hsent hbuffered h.streams hheld)
  · exact h.of_servedChild hstate
      (servedChild_sent hchild htokens hsent hbuffered hsame hstreams hparts hchildren)

variable {decodeNext : σ → TokenId → Text × σ} {mayFinish : View σ → ℕ → Prop} {v v' : View σ}

lemma step (h : DeltaInv v) (hstep : View.Step decodeNext mayFinish v v') : DeltaInv v' := by
  cases hstep with
  | fanOut hadded => exact h.fanOut
  | get => exact h.get
  | @report v₁ i state output detokenizer stopString hstate hupdate hfinish hserve =>
    have hchild := h.child i state hstate
    obtain ⟨htokens, hsent, hbuffered⟩ := IncrementalDetokenizer.update_spec decodeNext
      hchild.buffered output.newTokenIds (output.finishReason = some .stop)
    rw [Observed.detokenize] at hupdate
    rw [hupdate] at htokens hsent hbuffered
    refine h.serve hstate ?_ hsent ?_ hserve
    · rw [htokens, hchild.tokens_eq]
    · intro hnone
      refine hbuffered ?_
      cases stopString with
      | none => rfl
      | some stop => simp [EngineCoreOutput.stopReasons] at hnone
  | @abort _ i state hstate hfinish hserve =>
    have hchild := h.child i state hstate
    have hserve' : v.serve i { state with detokenizer := state.detokenizer } [] (some .abort) none = .ok v' :=
      hserve
    have hserved := h.serve hstate (by rw [hchild.tokens_eq, append_nil]) rfl (by simp) hserve'
    have hreport : v'.report i [] state.detokenizer.outputText = v' := by
      obtain ⟨_, -, hv'⟩ := bind_eq_ok hserve
      cases hv'
      rw [View.report, hchild.text_eq, append_nil, update_eq_self, update_eq_self]
    rwa [hreport] at hserved

lemma new (id : String) (streamInterval : ℕ) (externalReqId : String) {params : SamplingParams}
    (tokenizer : Tokenizer σ) (hkind : params.outputKind = .delta) :
    DeltaInv (View.new id streamInterval externalReqId params tokenizer) := by
  refine ⟨hkind, ⟨by simp [View.new, hkind], by simp [View.new]⟩, by simp [View.new], fun _ _ => ⟨rfl, rfl⟩,
    fun _ _ => ⟨rfl, rfl⟩⟩

end DeltaInv

lemma View.serve_params {i : ℕ} {state : RequestState σ} {newTokenIds : List TokenId}
    {finishReason : Option FinishReason} {stopReason : Option StopReason}
    (h : v.serve i state newTokenIds finishReason stopReason = .ok v') :
    v'.client.params = v.client.params := by
  obtain ⟨_, hdeliver, rfl⟩ := map_eq_ok h
  exact (Client.deliver_same hdeliver).2.params_eq

lemma View.Step.params_eq (hstep : View.Step decodeNext mayFinish v v') :
    v'.client.params = v.client.params := by
  cases hstep with
  | fanOut => rfl
  | get => rfl
  | report _ _ _ hserve =>
    have hparams := View.serve_params hserve
    exact hparams
  | abort _ _ hserve => exact View.serve_params hserve

/-- In DELTA mode the invariant holds wherever the steps of a request lead. -/
lemma DeltaInv.of_steps {id : String} {streamInterval : ℕ} {externalReqId : String}
    {params : SamplingParams} {tokenizer : Tokenizer σ}
    (h : Relation.ReflTransGen (View.Step decodeNext mayFinish)
      (.new id streamInterval externalReqId params tokenizer) v) (hkind : v.client.params.outputKind = .delta) :
    DeltaInv v := by
  induction h with
  | refl => exact .new id streamInterval externalReqId tokenizer hkind
  | tail _ hstep ih =>
    rw [hstep.params_eq] at hkind
    exact (ih hkind).step hstep

/-! ## Runs -/

namespace Observed

variable {decodeNext : σ → TokenId → Text × σ} {listOrder : List InternalId → List InternalId}

/-- A new request has a new id; nothing else is asked of the calls. -/
def Fresh (t : Observed σ) : FrontendCall σ → Prop
  | .submit id _ _ _ => t.llm.clients id = none
  | _ => True

lemma outputsMayFinish_true (outputs : List EngineCoreOutput) (t : Observed σ) :
    OutputsMayFinish decodeNext (fun _ _ => True) outputs t := by
  induction outputs generalizing t with
  | nil => trivial
  | cons output outputs ih => exact ⟨fun _ _ _ _ _ => trivial, fun t' _ => ih t'⟩

lemma Fresh.allowed {t : Observed σ} {call : FrontendCall σ} (h : Fresh t call) :
    Allowed decodeNext (fun _ _ => True) t call := by
  cases call with
  | submit => exact h
  | processOutputs outputs => exact outputsMayFinish_true outputs t
  | abortInternal | abortExternal => exact fun _ _ _ _ _ _ _ _ _ => trivial
  | fanOut | get => trivial

/-- A tokenizer with one letter for a token. -/
def decodeLetter (_ : Unit) (tokenId : TokenId) : Text × Unit :=
  (if tokenId = 0 then ['a'] else if tokenId = 1 then ['b'] else ['c'], ())

def Fresh.check (t : Observed σ) : FrontendCall σ → Bool
  | .submit id _ _ _ => (t.llm.clients id).isNone
  | _ => true

lemma Fresh.of_check (t : Observed σ) (call : FrontendCall σ) (h : Fresh.check t call = true) : Fresh t call := by
  cases call with
  | submit => exact Option.isNone_iff_eq_none.1 h
  | fanOut | processOutputs | abortInternal | abortExternal | get => trivial

end Observed

end VllmRuntime.Frontend
