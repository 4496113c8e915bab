import VllmRuntime.Verification.Frontend.View
import Mathlib.Logic.Relation

/-! Every call on the front end is, for each request, a sequence of steps of the request on its own. -/

namespace VllmRuntime.Frontend

open List Function

variable {σ : Type} {client client' : Client σ} {requestId : InternalId} {state : RequestState σ}
  {newTokenIds : List TokenId} {finishReason : Option FinishReason} {stopReason : Option StopReason}
  {state' : RequestState σ} {id : String} {i j : ℕ} {s₀ s s' : AsyncLLM σ} {aborted : InternalId → Prop}

/-! ## Serving one child -/

/-- What an output does not change of a request's state. -/
structure RequestState.SameRequest (state state' : RequestState σ) : Prop where
  clientId_eq : state'.clientId = state.clientId
  externalReqId_eq : state'.externalReqId = state.externalReqId
  hasParent_eq : state'.hasParent = state.hasParent
  requestIndex_eq : state'.requestIndex = state.requestIndex
  outputKind_eq : state'.outputKind = state.outputKind
  streamInterval_eq : state'.streamInterval = state.streamInterval

/-- What an output does not change of a client. -/
structure Client.SameClient (client client' : Client σ) : Prop where
  params_eq : client'.params = client.params
  externalReqId_eq : client'.externalReqId = client.externalReqId
  tokenizer_eq : client'.tokenizer = client.tokenizer
  added_eq : client'.added = client.added

lemma RequestState.makeRequestOutput_same (state : RequestState σ) (requestId : InternalId)
    (parent : ParentRequest) (newTokenIds : List TokenId) (finishReason : Option FinishReason)
    (stopReason : Option StopReason) :
    state.SameRequest (state.makeRequestOutput requestId parent newTokenIds finishReason stopReason).1 := by
  have htaken : state.SameRequest (state.takeTokens newTokenIds).2 := by
    unfold takeTokens
    split <;> exact ⟨rfl, rfl, rfl, rfl, rfl, rfl⟩
  have hmade : state.SameRequest ((state.takeTokens newTokenIds).2.newCompletionOutput
      (state.takeTokens newTokenIds).1 finishReason stopReason).1 :=
    ⟨htaken.clientId_eq, htaken.externalReqId_eq, htaken.hasParent_eq, htaken.requestIndex_eq,
      htaken.outputKind_eq, htaken.streamInterval_eq⟩
  unfold makeRequestOutput
  split
  · exact ⟨rfl, rfl, rfl, rfl, rfl, rfl⟩
  split <;> exact hmade

lemma RequestState.makeRequestOutput_children (state : RequestState σ) (requestId : InternalId)
    (parent : ParentRequest) (newTokenIds : List TokenId) (finishReason : Option FinishReason)
    (stopReason : Option StopReason) :
    (state.makeRequestOutput requestId parent newTokenIds finishReason stopReason).2.1.childRequests ⊆
      parent.childRequests := by
  have hgot (completion : CompletionOutput) :
      (parent.getOutputs state.outputKind requestId completion).1.childRequests ⊆ parent.childRequests := by
    have herase : (if completion.finishReason.isSome then parent.childRequests.erase requestId
        else parent.childRequests) ⊆ parent.childRequests := by
      split
      · exact erase_subset
      · exact List.Subset.refl _
    unfold ParentRequest.getOutputs
    dsimp only
    split <;> exact herase
  unfold makeRequestOutput
  split
  · exact List.Subset.refl _
  split
  · exact List.Subset.refl _
  · exact hgot _

section

variable (h : client.deliver requestId state newTokenIds finishReason stopReason = .ok (state', client'))
include h

lemma Client.deliver_same :
    state.SameRequest state' ∧ client.SameClient client' := by
  unfold deliver at h
  obtain ⟨queue, -, h⟩ := bind_eq_ok h
  cases h
  exact ⟨state.makeRequestOutput_same requestId client.parent newTokenIds finishReason stopReason,
    rfl, rfl, rfl, rfl⟩

lemma Client.deliver_children :
    client'.parent.childRequests ⊆ client.parent.childRequests := by
  unfold deliver at h
  obtain ⟨queue, -, h⟩ := bind_eq_ok h
  cases h
  exact state.makeRequestOutput_children requestId client.parent newTokenIds finishReason stopReason

end

lemma Client.SameClient.childId_eq (h : client.SameClient client') (id : String) (i : ℕ) :
    client'.childId id i = client.childId id i := by
  rw [Client.childId, Client.childId, h.params_eq]

namespace AsyncLLM

variable {s s' : AsyncLLM σ} {requestId : InternalId} {state : RequestState σ}

/-- A request was served an output; it is gone when it is finished. -/
def Served (s s' : AsyncLLM σ) (requestId : InternalId) (state : RequestState σ) (newTokenIds : List TokenId)
    (finishReason : Option FinishReason) (stopReason : Option StopReason) : Prop :=
  ∃ client state' client', s.clients state.clientId = some client ∧
    client.deliver requestId state newTokenIds finishReason stopReason = .ok (state', client') ∧
    s'.clients = update s.clients state.clientId (some client') ∧
    s'.requestStates = update s.requestStates requestId
      (if finishReason.isSome then none else some state') ∧
    s'.streamInterval = s.streamInterval

lemma emit_eq_ok (h : s.emit requestId state newTokenIds finishReason stopReason = .ok (state', s')) :
    ∃ client client', s.clients state.clientId = some client ∧
      client.deliver requestId state newTokenIds finishReason stopReason = .ok (state', client') ∧
      s' = s.setClient state.clientId client' := by
  unfold emit at h
  split at h
  · cases h
  · rename_i client hclient
    obtain ⟨⟨state₁, client'⟩, hdeliver, h⟩ := bind_eq_ok h
    cases h
    exact ⟨client, client', hclient, hdeliver, rfl⟩

/-- The parts of the state that the requests and the clients are in. -/
structure SameCore (s s' : AsyncLLM σ) : Prop where
  clients_eq : s'.clients = s.clients
  requestStates_eq : s'.requestStates = s.requestStates
  streamInterval_eq : s'.streamInterval = s.streamInterval

lemma removeExternal_same {externalReqId : String}
    (h : s.removeExternal externalReqId requestId = .ok s') : s.SameCore s' := by
  unfold removeExternal at h
  dsimp only at h
  split at h
  · cases h
    exact ⟨rfl, rfl, rfl⟩
  · cases h

lemma finishRequest_eq_ok (h : s.finishRequest requestId state = .ok s') :
    s'.clients = s.clients ∧ s'.requestStates = update s.requestStates requestId none ∧
      s'.streamInterval = s.streamInterval := by
  unfold finishRequest at h
  obtain ⟨s₁, hs₁, h⟩ := bind_eq_ok h
  have hsame := removeExternal_same hs₁
  cases h
  split <;> exact ⟨hsame.clients_eq, hsame.requestStates_eq, hsame.streamInterval_eq⟩

lemma abortState_served (h : s.abortState requestId state = .ok s') :
    s.Served s' requestId state [] (some .abort) none := by
  unfold abortState at h
  obtain ⟨⟨state', s₁⟩, hemit, h⟩ := bind_eq_ok h
  cases h
  obtain ⟨client, client', hclient, hdeliver, rfl⟩ := emit_eq_ok hemit
  exact ⟨client, state', client', hclient, hdeliver, rfl, rfl, rfl⟩

lemma processOutput_served {decodeNext : σ → TokenId → Text × σ} {output : EngineCoreOutput}
    (hstate : s.requestStates output.requestId = some state)
    (h : s.processOutput decodeNext output = .ok s') :
    s.Served s' output.requestId
      { state with detokenizer := (Observed.detokenize decodeNext state output).1 } output.newTokenIds
      (output.stopReasons (Observed.detokenize decodeNext state output).2).1
      (output.stopReasons (Observed.detokenize decodeNext state output).2).2 := by
  unfold processOutput at h
  rw [hstate] at h
  obtain ⟨⟨state', s₁⟩, hemit, h⟩ := bind_eq_ok h
  obtain ⟨client, client', hclient, hdeliver, rfl⟩ := emit_eq_ok hemit
  refine ⟨client, state', client', hclient, hdeliver, ?_⟩
  dsimp only at h
  unfold Observed.detokenize
  split at h
  · rename_i hfinish
    obtain ⟨s₂, hs₂, h⟩ := bind_eq_ok h
    obtain ⟨hclients, hstates, hinterval⟩ := finishRequest_eq_ok hs₂
    cases h
    rw [if_pos hfinish]
    split <;> exact ⟨hclients, hstates, hinterval⟩
  · rename_i hfinish
    cases h
    rw [if_neg hfinish]
    exact ⟨rfl, rfl, rfl⟩

end AsyncLLM

/-! ## Ids -/

lemma Client.childId_client_inj {id' : String} (h : client.childId id i = client'.childId id' j) :
    id = id' := by
  unfold childId at h
  split at h <;> split at h <;> simp_all

lemma Client.childId_inj (hadded : client.added ≤ client.params.n) (hi : i < client.added)
    (hj : j < client.added) (h : client.childId id i = client.childId id j) :
    i = j := by
  unfold childId at h
  split at h
  · omega
  · simpa using h

/-- Every request that has a state is one of the children that were added for its client. -/
structure AsyncLLM.Linked (s : AsyncLLM σ) : Prop where
  states : ∀ requestId state, s.requestStates requestId = some state →
    ∃ client, s.clients state.clientId = some client ∧ state.requestIndex < client.added ∧
      requestId = client.childId state.clientId state.requestIndex
  added_le : ∀ id client, s.clients id = some client → client.added ≤ client.params.n
  children : ∀ id client, s.clients id = some client → ∀ requestId ∈ client.parent.childRequests,
    ∃ i, requestId = .child i id

/-- A state in the middle of an abort: only requests that are to be aborted have lost their state. -/
structure AsyncLLM.Aborting (s₀ : AsyncLLM σ) (aborted : InternalId → Prop) (s : AsyncLLM σ) : Prop where
  frame : ∀ requestId, ¬aborted requestId → s.requestStates requestId = s₀.requestStates requestId
  clients : ∀ id client, s.clients id = some client →
    ∃ client₀, s₀.clients id = some client₀ ∧ client₀.SameClient client

lemma AsyncLLM.Aborting.refl (s : AsyncLLM σ) (aborted : InternalId → Prop) : s.Aborting aborted s :=
  ⟨fun _ _ => rfl, fun _ client hclient => ⟨client, hclient, rfl, rfl, rfl, rfl⟩⟩

lemma AsyncLLM.Aborting.of_sameCore (h : s₀.Aborting aborted s) (hsame : s.SameCore s') :
    s₀.Aborting aborted s' := by
  refine ⟨?_, ?_⟩
  · rw [hsame.requestStates_eq]
    exact h.frame
  · rw [hsame.clients_eq]
    exact h.clients

lemma AsyncLLM.Aborting.of_served (h : s₀.Aborting aborted s) (haborted : aborted requestId)
    (hserved : s.Served s' requestId state newTokenIds finishReason stopReason) :
    s₀.Aborting aborted s' := by
  obtain ⟨client, state', client', hclient, hdeliver, hclients, hstates, -⟩ := hserved
  obtain ⟨-, hsame⟩ := Client.deliver_same hdeliver
  refine ⟨?_, ?_⟩
  · intro id hid
    have hne : id ≠ requestId := by
      rintro rfl
      exact hid haborted
    rw [hstates, update_of_ne hne]
    exact h.frame id hid
  · intro id c hc
    rw [hclients] at hc
    by_cases hid : id = state.clientId
    · subst hid
      obtain rfl : client' = c := by simpa using hc
      obtain ⟨client₀, hclient₀, hsame₀⟩ := h.clients _ _ hclient
      exact ⟨client₀, hclient₀, hsame.params_eq.trans hsame₀.params_eq,
        hsame.externalReqId_eq.trans hsame₀.externalReqId_eq, hsame.tokenizer_eq.trans hsame₀.tokenizer_eq,
        hsame.added_eq.trans hsame₀.added_eq⟩
    · exact h.clients id c (by simpa [hid] using hc)

namespace AsyncLLM.Linked

variable {s s' : AsyncLLM σ}

lemma of_sameCore (h : s.Linked) (hsame : s.SameCore s') : s'.Linked := by
  refine ⟨?_, ?_, ?_⟩
  · rw [hsame.requestStates_eq, hsame.clients_eq]
    exact h.states
  · rw [hsame.clients_eq]
    exact h.added_le
  · rw [hsame.clients_eq]
    exact h.children

lemma setClient (h : s.Linked) (hclient : s.clients id = some client) (hsame : client.SameClient client')
    (hchildren : ∀ requestId ∈ client'.parent.childRequests, ∃ i, requestId = .child i id) :
    (s.setClient id client').Linked := by
  refine ⟨?_, ?_, ?_⟩
  · intro requestId state hstate
    obtain ⟨c, hc, hlt, hid⟩ := h.states requestId state hstate
    by_cases heq : state.clientId = id
    · obtain rfl : client = c := Option.some.inj (hclient.symm.trans (heq ▸ hc))
      refine ⟨client', by simp [AsyncLLM.setClient, heq], hsame.added_eq ▸ hlt, ?_⟩
      rw [hsame.childId_eq, hid]
    · exact ⟨c, by simp [AsyncLLM.setClient, heq, hc], hlt, hid⟩
  · intro id' c hc
    by_cases heq : id' = id
    · subst heq
      obtain rfl : client' = c := by simpa [AsyncLLM.setClient] using hc
      rw [hsame.added_eq, hsame.params_eq]
      exact h.added_le _ _ hclient
    · exact h.added_le id' c (by simpa [AsyncLLM.setClient, heq] using hc)
  · intro id' c hc
    by_cases heq : id' = id
    · subst heq
      obtain rfl : client' = c := by simpa [AsyncLLM.setClient] using hc
      exact hchildren
    · exact h.children id' c (by simpa [AsyncLLM.setClient, heq] using hc)

lemma of_served (h : s.Linked) {state₀ : RequestState σ} (hstate : s.requestStates requestId = some state₀)
    (hsame : state₀.SameRequest state)
    (hserved : s.Served s' requestId state newTokenIds finishReason stopReason) : s'.Linked := by
  obtain ⟨client, state', client', hclient, hdeliver, hclients, hstates, -⟩ := hserved
  obtain ⟨hsame', hclient'⟩ := Client.deliver_same hdeliver
  -- a client keeps its children and its parameters
  have hkeep : ∀ id c, s.clients id = some c → ∃ c', s'.clients id = some c' ∧ c.SameClient c' := by
    intro id c hc
    rw [hclients]
    by_cases hid : id = state.clientId
    · subst hid
      obtain rfl : client = c := Option.some.inj (hclient.symm.trans hc)
      exact ⟨client', by simp, hclient'⟩
    · exact ⟨c, by simp [hid, hc], rfl, rfl, rfl, rfl⟩
  refine ⟨?_, ?_, ?_⟩
  · intro id st hst
    obtain ⟨st₀, hst₀, hclientId, hindex⟩ : ∃ st₀, s.requestStates id = some st₀ ∧
        st.clientId = st₀.clientId ∧ st.requestIndex = st₀.requestIndex := by
      rw [hstates] at hst
      by_cases hid : id = requestId
      · subst hid
        rw [update_self] at hst
        split at hst
        · cases hst
        · cases hst
          exact ⟨state₀, hstate, hsame'.clientId_eq.trans hsame.clientId_eq,
            hsame'.requestIndex_eq.trans hsame.requestIndex_eq⟩
      · rw [update_of_ne hid] at hst
        exact ⟨st, hst, rfl, rfl⟩
    obtain ⟨c, hc, hlt, hid⟩ := h.states id st₀ hst₀
    obtain ⟨c', hc', hsc⟩ := hkeep _ _ hc
    rw [hclientId, hindex]
    exact ⟨c', hc', hsc.added_eq ▸ hlt, by rw [hsc.childId_eq, hid]⟩
  · intro id c hc
    rw [hclients] at hc
    by_cases hid : id = state.clientId
    · subst hid
      obtain rfl : client' = c := by simpa using hc
      rw [hclient'.added_eq, hclient'.params_eq]
      exact h.added_le _ _ hclient
    · exact h.added_le id c (by simpa [hid] using hc)
  · intro id c hc
    rw [hclients] at hc
    by_cases hid : id = state.clientId
    · subst hid
      obtain rfl : client' = c := by simpa using hc
      exact fun requestId hmem => h.children _ _ hclient requestId (Client.deliver_children hdeliver hmem)
    · exact h.children id c (by simpa [hid] using hc)

end AsyncLLM.Linked

/-! ## The view of a step -/

namespace Observed

section Served

variable {t t' : Observed σ} {requestId : InternalId} {state₀ state : RequestState σ}
  {newTokenIds : List TokenId} {finishReason : Option FinishReason} {stopReason : Option StopReason}

/-- A child is served from its state in the front end, and of the others nothing more is seen. -/
structure Serves (t t' : Observed σ) (requestId : InternalId) (state₀ state : RequestState σ)
    (newTokenIds : List TokenId) (finishReason : Option FinishReason) (stopReason : Option StopReason) :
    Prop where
  stored : t.llm.requestStates requestId = some state₀
  same : state₀.SameRequest state
  served : t.llm.Served t'.llm requestId state newTokenIds finishReason stopReason
  reported_of_ne : ∀ id, id ≠ requestId → t'.reported id = t.reported id
  texts_of_ne : ∀ id, id ≠ requestId → t'.texts id = t.texts id
  seen_eq : t'.seen = t.seen

/-- Serving a child of one client changes nothing for the other clients. -/
lemma view_served_of_ne (h : t.llm.Linked)
    (hserves : t.Serves t' requestId state₀ state newTokenIds finishReason stopReason)
    (hne : id ≠ state.clientId) (hclient : t.llm.clients id = some client) :
    t'.llm.clients id = some client ∧ t'.view id client = t.view id client := by
  obtain ⟨_, state', client', -, -, hclients, hstates, hinterval⟩ := hserves.served
  obtain ⟨c₀, -, -, hid⟩ := h.states requestId state₀ hserves.stored
  have hother : ∀ i, client.childId id i ≠ requestId := by
    intro i heq
    rw [hid] at heq
    exact hne ((Client.childId_client_inj heq).trans hserves.same.clientId_eq.symm)
  refine ⟨by rw [hclients, update_of_ne hne, hclient], ?_⟩
  simp only [view, hinterval, hstates, hserves.seen_eq, update_of_ne (hother _),
    hserves.reported_of_ne _ (hother _), hserves.texts_of_ne _ (hother _)]

/-- For its client, a child that is served is the child of its index. -/
lemma view_served (h : t.llm.Linked)
    (hserves : t.Serves t' requestId state₀ state newTokenIds finishReason stopReason)
    (hclient : t.llm.clients state.clientId = some client) :
    (t.view state.clientId client).states state.requestIndex = some state₀ ∧
      ∃ client' v', t'.llm.clients state.clientId = some client' ∧
        (t.view state.clientId client).serve state.requestIndex state newTokenIds finishReason stopReason =
          .ok v' ∧
        t'.view state.clientId client' =
          { v' with
            reported := update v'.reported state.requestIndex (t'.reported requestId)
            texts := update v'.texts state.requestIndex (t'.texts requestId) } ∧
        v'.reported state.requestIndex = t.reported requestId ∧
        v'.texts state.requestIndex = t.texts requestId := by
  obtain ⟨c, state', client', hc, hdeliver, hclients, hstates, hinterval⟩ := hserves.served
  obtain rfl : c = client := Option.some.inj (hc.symm.trans hclient)
  obtain ⟨c₀, hc₀, hlt, hid⟩ := h.states requestId state₀ hserves.stored
  rw [← hserves.same.clientId_eq] at hc₀ hid
  rw [← hserves.same.requestIndex_eq] at hlt hid
  obtain rfl : c = c₀ := Option.some.inj (hc.symm.trans hc₀)
  obtain ⟨-, hclient'⟩ := Client.deliver_same hdeliver
  have hadded := h.added_le _ _ hc
  have hother : ∀ i, i < c.added → i ≠ state.requestIndex → c.childId state.clientId i ≠ requestId := by
    intro i hi hne heq
    rw [hid] at heq
    exact hne (Client.childId_inj hadded hi hlt heq)
  have hchildren {α : Type} {f f' : InternalId → α} (d : α) (hf : ∀ id, id ≠ requestId → f' id = f id) :
      (fun i => if i < client'.added then f' (client'.childId state.clientId i) else d) =
        update (fun i => if i < c.added then f (c.childId state.clientId i) else d)
          state.requestIndex (f' requestId) := by
    funext i
    rw [hclient'.added_eq, hclient'.childId_eq]
    by_cases hi : i = state.requestIndex
    · subst hi
      rw [if_pos hlt, ← hid, update_self]
    · rw [update_of_ne hi]
      split
      · rename_i hlt'
        exact hf _ (hother i hlt' hi)
      · rfl
  refine ⟨by simp only [view, if_pos hlt, ← hid, hserves.stored], client',
    { t.view state.clientId c with
      client := client'
      states := update (t.view state.clientId c).states state.requestIndex
        (if finishReason.isSome then none else some state') },
    by rw [hclients, update_self], ?_, ?_, ?_, ?_⟩
  · simp only [View.serve, View.childId, view, ← hid, hdeliver]
    rfl
  · have hstates' : ∀ id, id ≠ requestId → t'.llm.requestStates id = t.llm.requestStates id := by
      intro id hne
      rw [hstates, update_of_ne hne]
    have hnew : t'.llm.requestStates requestId = if finishReason.isSome then none else some state' := by
      rw [hstates, update_self]
    ext1
    · rfl
    · exact hinterval
    · rfl
    · exact (hchildren none hstates').trans (by rw [hnew]; rfl)
    · exact hchildren [] hserves.reported_of_ne
    · exact hchildren [] hserves.texts_of_ne
    · exact congrFun hserves.seen_eq _
  · simp only [view, if_pos hlt, ← hid]
  · simp only [view, if_pos hlt, ← hid]

end Served

/-! ## Calls as sequences of steps -/

section Simulates

variable (decodeNext : σ → TokenId → Text × σ) (mayFinish : View σ → ℕ → Prop)

/-- From one state to the other, every request has made steps of its own. -/
def Simulates (t t' : Observed σ) : Prop :=
  t'.llm.Linked ∧ ∀ id client', t'.llm.clients id = some client' → ∃ client, t.llm.clients id = some client ∧
    Relation.ReflTransGen (View.Step decodeNext mayFinish) (t.view id client) (t'.view id client')

variable {decodeNext mayFinish} {t t' t'' : Observed σ} {s : AsyncLLM σ}

lemma Simulates.trans (h : Simulates decodeNext mayFinish t t') (h' : Simulates decodeNext mayFinish t' t'') :
    Simulates decodeNext mayFinish t t'' := by
  refine ⟨h'.1, ?_⟩
  intro id client'' hclient''
  obtain ⟨client', hclient', hsteps'⟩ := h'.2 id client'' hclient''
  obtain ⟨client, hclient, hsteps⟩ := h.2 id client' hclient'
  exact ⟨client, hclient, hsteps.trans hsteps'⟩

lemma Simulates.of_sameCore (hl : t.llm.Linked) (h : t.llm.SameCore s) :
    Simulates decodeNext mayFinish t { t with llm := s } := by
  refine ⟨hl.of_sameCore h, ?_⟩
  intro id client hclient
  refine ⟨client, by rw [← h.clients_eq, hclient], ?_⟩
  have hview : Observed.view { t with llm := s } id client = t.view id client := by
    simp only [view, h.requestStates_eq, h.streamInterval_eq]
  rw [hview]

lemma Simulates.refl (hl : t.llm.Linked) : Simulates decodeNext mayFinish t t :=
  ⟨hl, fun _ client hclient => ⟨client, hclient, .refl⟩⟩

/-- When a child is served, its client makes a step and the others make none. -/
lemma Simulates.of_serves (hl : t.llm.Linked) {state₀ : RequestState σ}
    (hserves : t.Serves t' requestId state₀ state newTokenIds finishReason stopReason)
    (hstep : ∀ client v', t.llm.clients state.clientId = some client →
      (t.view state.clientId client).states state.requestIndex = some state₀ →
      (t.view state.clientId client).serve state.requestIndex state newTokenIds finishReason stopReason =
        .ok v' →
      v'.reported state.requestIndex = t.reported requestId →
      v'.texts state.requestIndex = t.texts requestId →
      View.Step decodeNext mayFinish (t.view state.clientId client)
        { v' with
          reported := update v'.reported state.requestIndex (t'.reported requestId)
          texts := update v'.texts state.requestIndex (t'.texts requestId) }) :
    Simulates decodeNext mayFinish t t' := by
  refine ⟨hl.of_served hserves.stored hserves.same hserves.served, ?_⟩
  obtain ⟨client, _, _, hclient, -, hclients, -⟩ := hserves.served
  intro id client' hclient'
  by_cases hid : id = state.clientId
  · subst hid
    obtain ⟨hchild, client₁, v', hclient₁, hserve, hview, hrep, htext⟩ := view_served hl hserves hclient
    obtain rfl : client₁ = client' := Option.some.inj (hclient₁.symm.trans hclient')
    refine ⟨client, hclient, .single ?_⟩
    rw [hview]
    exact hstep client v' hclient hchild hserve hrep htext
  · have hold : t.llm.clients id = some client' := by
      rw [hclients, update_of_ne hid] at hclient'
      exact hclient'
    obtain ⟨-, hview⟩ := view_served_of_ne hl hserves hid hold
    exact ⟨client', hold, by rw [hview]⟩

/-- An output of the engine core is a step of the request it is for. -/
lemma processOutput_simulates (hl : t.llm.Linked) {output : EngineCoreOutput}
    (hfinish : ∀ state client, t.llm.requestStates output.requestId = some state →
      t.llm.clients state.clientId = some client →
      (output.stopReasons (detokenize decodeNext state output).2).1.isSome →
      mayFinish (t.view state.clientId client) state.requestIndex)
    (h : t.processOutput decodeNext output = .ok t') : Simulates decodeNext mayFinish t t' := by
  unfold processOutput at h
  obtain ⟨llm, hllm, rfl⟩ := map_eq_ok h
  cases hstate : t.llm.requestStates output.requestId with
  | none =>
    have heq : llm = t.llm := by
      unfold AsyncLLM.processOutput at hllm
      rw [hstate] at hllm
      exact (Except.ok.inj hllm).symm
    subst heq
    exact .refl hl
  | some state =>
    have hserved := AsyncLLM.processOutput_served hstate hllm
    have hsame : state.SameRequest { state with detokenizer := (detokenize decodeNext state output).1 } :=
      ⟨rfl, rfl, rfl, rfl, rfl, rfl⟩
    dsimp only
    refine .of_serves hl ⟨hstate, hsame, hserved, fun id hne => update_of_ne hne _ _,
      fun id hne => update_of_ne hne _ _, rfl⟩ ?_
    intro client v' hclient hchild hserve hrep htext
    have hupdate : detokenize decodeNext state output =
        ((detokenize decodeNext state output).1, (detokenize decodeNext state output).2) := Prod.mk.eta.symm
    have hstep := View.Step.report hchild hupdate (hfinish state client hstate hclient) hserve
    rw [View.report, hrep] at hstep
    simpa only [update_self] using hstep

/-- An abort is a step of the request it is for. -/
lemma abortState_simulates (hl : t.llm.Linked) (hstate : t.llm.requestStates requestId = some state)
    (hfinish : ∀ client, t.llm.clients state.clientId = some client →
      mayFinish (t.view state.clientId client) state.requestIndex)
    (h : t.llm.abortState requestId state = .ok s) :
    Simulates decodeNext mayFinish t { t with llm := s } := by
  refine .of_serves hl ⟨hstate, ⟨rfl, rfl, rfl, rfl, rfl, rfl⟩, AsyncLLM.abortState_served h, fun _ _ => rfl,
    fun _ _ => rfl, rfl⟩ ?_
  intro client v' hclient hchild hserve hrep htext
  have hstep : View.Step decodeNext mayFinish (t.view state.clientId client) v' :=
    .abort hchild (hfinish client hclient) hserve
  have heq : { v' with
      reported := update v'.reported state.requestIndex (t.reported requestId)
      texts := update v'.texts state.requestIndex (t.texts requestId) } = v' := by
    rw [← hrep, ← htext, update_eq_self, update_eq_self]
  rw [heq]
  exact hstep

/-! ## Aborts -/

/-- Whatever is aborted may be finished, in every state in the middle of the abort. -/
def MayAbort (mayFinish : View σ → ℕ → Prop) (t : Observed σ) (aborted : InternalId → Prop) : Prop :=
  ∀ s : AsyncLLM σ, s.Linked → t.llm.Aborting aborted s → ∀ requestId state client, aborted requestId →
    s.requestStates requestId = some state → s.clients state.clientId = some client →
    mayFinish (Observed.view { t with llm := s } state.clientId client) state.requestIndex

/-- A part of an abort, from one state in the middle of it to another. -/
def AbortPart (decodeNext : σ → TokenId → Text × σ) (mayFinish : View σ → ℕ → Prop) (t : Observed σ)
    (aborted : InternalId → Prop) (s s' : AsyncLLM σ) : Prop :=
  s.Linked → t.llm.Aborting aborted s →
    Simulates decodeNext mayFinish { t with llm := s } { t with llm := s' } ∧ t.llm.Aborting aborted s'

section Abort

variable {aborted : InternalId → Prop} {s s' s'' : AsyncLLM σ} {requestId : InternalId}

lemma AbortPart.trans (h : AbortPart decodeNext mayFinish t aborted s s')
    (h' : AbortPart decodeNext mayFinish t aborted s' s'') :
    AbortPart decodeNext mayFinish t aborted s s'' := by
  intro hl hs
  obtain ⟨hsim, hs'⟩ := h hl hs
  obtain ⟨hsim', hs''⟩ := h' hsim.1 hs'
  exact ⟨hsim.trans hsim', hs''⟩

lemma AbortPart.of_sameCore (h : s.SameCore s') : AbortPart decodeNext mayFinish t aborted s s' :=
  fun hl hs => ⟨.of_sameCore (t := { t with llm := s }) hl h, hs.of_sameCore h⟩

lemma AbortPart.foldlM {ι : Type} {f : AsyncLLM σ → ι → Except PyError (AsyncLLM σ)} {xs : List ι}
    (hf : ∀ x ∈ xs, ∀ s s', f s x = .ok s' → AbortPart decodeNext mayFinish t aborted s s')
    (h : xs.foldlM f s = .ok s') : AbortPart decodeNext mayFinish t aborted s s' :=
  foldlM_invariant h (.of_sameCore ⟨rfl, rfl, rfl⟩) fun x hx _ _ hpart hstep => hpart.trans (hf x hx _ _ hstep)

lemma unmapInternal_part (h : s.unmapInternal requestId = .ok s') :
    AbortPart decodeNext mayFinish t aborted s s' := by
  unfold AsyncLLM.unmapInternal at h
  split at h
  · cases h
    exact .of_sameCore ⟨rfl, rfl, rfl⟩
  · exact .of_sameCore (AsyncLLM.removeExternal_same h)

variable (hmay : MayAbort mayFinish t aborted)

include hmay in
lemma abortState_part (haborted : aborted requestId) (hstate : s.requestStates requestId = some state)
    (h : s.abortState requestId state = .ok s') :
    AbortPart decodeNext mayFinish t aborted s s' := by
  intro hl hs
  refine ⟨?_, hs.of_served haborted (AsyncLLM.abortState_served h)⟩
  exact abortState_simulates (t := { t with llm := s }) hl hstate
    (fun client hclient => hmay s hl hs requestId state client haborted hstate hclient) h

include hmay in
lemma abortChildren_part {requestIds : List InternalId} (haborted : ∀ id ∈ requestIds, aborted id)
    (h : s.abortChildren requestIds = .ok s') : AbortPart decodeNext mayFinish t aborted s s' := by
  unfold AsyncLLM.abortChildren at h
  obtain ⟨s₁, hs₁, h⟩ := bind_eq_ok h
  refine (AbortPart.foldlM (fun _ _ _ _ h => unmapInternal_part h) hs₁).trans (AbortPart.foldlM ?_ h)
  intro id hid s s' h
  split at h
  · rename_i state hstate
    exact abortState_part hmay (haborted id hid) hstate h
  · cases h
    exact .of_sameCore ⟨rfl, rfl, rfl⟩

variable {listOrder : List InternalId → List InternalId} (horder : ∀ ids, (listOrder ids).Perm ids)

include hmay horder in
lemma abortParent_part (hchildren : ∀ i, aborted (.child i id)) (h : s.abortParent listOrder id = .ok s') :
    AbortPart decodeNext mayFinish t aborted s s' := by
  unfold AsyncLLM.abortParent at h
  split at h
  · cases h
    exact AbortPart.of_sameCore ⟨rfl, rfl, rfl⟩
  · rename_i client hclient
    intro hl
    have hall : ∀ id' ∈ listOrder client.parent.childRequests, aborted id' := by
      intro id' hid'
      obtain ⟨i, rfl⟩ := hl.children id client hclient id' ((horder _).mem_iff.1 hid')
      exact hchildren i
    exact abortChildren_part hmay hall h hl

include hmay horder in
lemma abortOne_part (haborted : aborted requestId)
    (hchildren : ∀ id i, requestId = .client id → aborted (.child i id))
    (h : s.abortOne listOrder requestId = .ok s') : AbortPart decodeNext mayFinish t aborted s s' := by
  unfold AsyncLLM.abortOne at h
  split at h
  · rename_i state hstate
    exact abortState_part hmay haborted hstate h
  · split at h
    · cases h
      exact AbortPart.of_sameCore ⟨rfl, rfl, rfl⟩
    · rename_i id _
      split at h
      · obtain ⟨s₁, hs₁, rfl⟩ := map_eq_ok h
        exact (abortParent_part hmay horder (fun i => hchildren id i rfl) hs₁).trans
          (AbortPart.of_sameCore ⟨rfl, rfl, rfl⟩)
      · cases h
        exact AbortPart.of_sameCore ⟨rfl, rfl, rfl⟩

end Abort

/-- The requests that an abort of internal ids is for: a client's id stands for its children too. -/
def abortedInternal (requestIds : List InternalId) (requestId : InternalId) : Prop :=
  requestId ∈ requestIds ∨ ∃ i id, .client id ∈ requestIds ∧ requestId = .child i id

/-- The requests that an abort of external ids is for. -/
def abortedExternal (s : AsyncLLM σ) (externalReqIds : List String) (requestId : InternalId) : Prop :=
  (∃ externalReqId ∈ externalReqIds, requestId ∈ s.externalReqIds externalReqId) ∨
    ∃ i id externalReqId, externalReqId ∈ externalReqIds ∧ .client id ∈ s.externalReqIds externalReqId ∧
      requestId = .child i id

section AbortCalls

variable {listOrder : List InternalId → List InternalId} (horder : ∀ ids, (listOrder ids).Perm ids)
  {s : AsyncLLM σ}

include horder in
lemma abortInternal_simulates (hl : t.llm.Linked) {requestIds : List InternalId}
    (hmay : MayAbort mayFinish t (abortedInternal requestIds))
    (h : t.llm.abortInternal listOrder requestIds = .ok s) :
    Simulates decodeNext mayFinish t { t with llm := s } := by
  unfold AsyncLLM.abortInternal at h
  obtain ⟨s₁, hs₁, h⟩ := bind_eq_ok h
  have hpart : AbortPart decodeNext mayFinish t (abortedInternal requestIds) t.llm s := by
    refine (AbortPart.foldlM (fun _ _ _ _ h => unmapInternal_part h) hs₁).trans (AbortPart.foldlM ?_ h)
    intro requestId hid s s' h
    refine abortOne_part hmay horder (.inl hid) ?_ h
    rintro id i rfl
    exact .inr ⟨i, id, hid, rfl⟩
  exact (hpart hl (.refl _ _)).1

/-- The first loop for external ids only takes entries out of `external_req_ids`. -/
lemma foldl_unmapExternal (externalReqIds : List String) (s : AsyncLLM σ) :
    s.SameCore (externalReqIds.foldl AsyncLLM.unmapExternal (s, [])).1 ∧
      (∀ e, (externalReqIds.foldl AsyncLLM.unmapExternal (s, [])).1.externalReqIds e ⊆ s.externalReqIds e) ∧
      ∀ requestId ∈ (externalReqIds.foldl AsyncLLM.unmapExternal (s, [])).2,
        ∃ e ∈ externalReqIds, requestId ∈ s.externalReqIds e := by
  refine foldlRecOn (motive := fun a : AsyncLLM σ × List InternalId => s.SameCore a.1 ∧
    (∀ e, a.1.externalReqIds e ⊆ s.externalReqIds e) ∧
    ∀ requestId ∈ a.2, ∃ e ∈ externalReqIds, requestId ∈ s.externalReqIds e) _ _
    ⟨⟨rfl, rfl, rfl⟩, fun _ _ h => h, fun _ h => nomatch h⟩ ?_
  rintro a ⟨hsame, hsub, hmem⟩ e he
  refine ⟨⟨hsame.clients_eq, hsame.requestStates_eq, hsame.streamInterval_eq⟩, fun e' => ?_, fun _ hid => ?_⟩
  · by_cases heq : e' = e
    · subst heq
      simp [AsyncLLM.unmapExternal]
    · simpa [AsyncLLM.unmapExternal, heq] using hsub e'
  · exact (List.mem_append.1 hid).elim (hmem _) fun hid => ⟨e, he, hsub e hid⟩

include horder in
lemma abortExternal_simulates (hl : t.llm.Linked) {externalReqIds : List String}
    (hmay : MayAbort mayFinish t (abortedExternal t.llm externalReqIds))
    (h : t.llm.abortExternal listOrder externalReqIds = .ok s) :
    Simulates decodeNext mayFinish t { t with llm := s } := by
  unfold AsyncLLM.abortExternal at h
  obtain ⟨hsame, -, hmem⟩ := foldl_unmapExternal externalReqIds t.llm
  have hpart : AbortPart decodeNext mayFinish t (abortedExternal t.llm externalReqIds) t.llm s := by
    refine (AbortPart.of_sameCore hsame).trans (AbortPart.foldlM ?_ h)
    intro requestId hid s s' h
    have hlisted := hmem requestId hid
    refine abortOne_part hmay horder (.inl hlisted) ?_ h
    rintro id i rfl
    obtain ⟨e, he, hid⟩ := hlisted
    exact .inr ⟨i, id, e, he, hid, rfl⟩
  exact (hpart hl (.refl _ _)).1

end AbortCalls

/-! ## The other calls -/

lemma get_simulates (hl : t.llm.Linked) (id : String) : Simulates decodeNext mayFinish t (t.get id) := by
  cases hclient : t.llm.clients id with
  | none =>
    have heq : t.get id = t := by
      simp [Observed.get, AsyncLLM.get, hclient]
    rw [heq]
    exact .refl hl
  | some client =>
    have hget : t.get id =
        { t with
          llm := t.llm.setClient id (t.view id client).get.client
          seen := update t.seen id (t.view id client).get.seen } := by
      simp only [Observed.get, AsyncLLM.get, hclient]
      rfl
    refine ⟨by rw [hget]; exact hl.setClient hclient ⟨rfl, rfl, rfl, rfl⟩ (hl.children id client hclient), ?_⟩
    intro id' client' hclient'
    rw [hget] at hclient'
    by_cases hid : id' = id
    · subst hid
      obtain rfl : (t.view id' client).get.client = client' :=
        Option.some.inj ((update_self id' _ _).symm.trans hclient')
      refine ⟨client, hclient, .single ?_⟩
      have hview : (t.get id').view id' (t.view id' client).get.client = (t.view id' client).get := by
        rw [hget]
        ext1 <;> first | rfl | exact update_self _ _ _
      rw [hview]
      exact .get _
    · refine ⟨client', by simpa [AsyncLLM.setClient, hid] using hclient', ?_⟩
      have hview : (t.get id).view id' client' = t.view id' client' := by
        rw [hget]
        ext1 <;> first | rfl | exact update_of_ne hid _ _
      rw [hview]

/-- A child that is added is one more child of its client. -/
lemma linked_addRequest (hl : t.llm.Linked) (hclient : t.llm.clients id = some client)
    (hadded : client.added < client.params.n) :
    ((t.llm.addRequest id client (client.childId id client.added)).setClient id
      (t.view id client).fanOut.client).Linked := by
  set s := (t.llm.addRequest id client (client.childId id client.added)).setClient id
    (t.view id client).fanOut.client
  have hclients (id' : String) (hne : id' ≠ id) : s.clients id' = t.llm.clients id' := update_of_ne hne _ _
  have hself : s.clients id = some (t.view id client).fanOut.client := update_self _ _ _
  refine ⟨?_, ?_, ?_⟩
  · intro requestId state hstate
    by_cases hid : requestId = client.childId id client.added
    · subst hid
      have hnew : some (t.view id client).newState = some state :=
        (update_self (client.childId id client.added) _ t.llm.requestStates).symm.trans hstate
      cases hnew
      exact ⟨_, hself, Nat.lt_succ_self _, rfl⟩
    · have hold : t.llm.requestStates requestId = some state := by
        simpa [s, AsyncLLM.setClient, AsyncLLM.addRequest, hid] using hstate
      obtain ⟨c, hc, hlt, heq⟩ := hl.states requestId state hold
      by_cases hcid : state.clientId = id
      · rw [hcid] at hc heq
        obtain rfl : client = c := Option.some.inj (hclient.symm.trans hc)
        rw [hcid]
        exact ⟨_, hself, Nat.lt_succ_of_lt hlt, heq⟩
      · exact ⟨c, (hclients _ hcid).trans hc, hlt, heq⟩
  · intro id' c hc
    by_cases hid : id' = id
    · subst hid
      obtain rfl := Option.some.inj (hself.symm.trans hc)
      exact hadded
    · exact hl.added_le id' c ((hclients id' hid).symm.trans hc)
  · intro id' c hc
    by_cases hid : id' = id
    · subst hid
      obtain rfl := Option.some.inj (hself.symm.trans hc)
      intro requestId hmem
      by_cases hn : client.params.n = 1
      · have hparent : (t.view id' client).fanOut.client.parent = client.parent := if_pos hn
        rw [hparent] at hmem
        exact hl.children id' client hclient requestId hmem
      · have hparent : (t.view id' client).fanOut.client.parent =
            { client.parent with
              childRequests := client.parent.childRequests.insert (client.childId id' client.added) } :=
          if_neg hn
        rw [hparent] at hmem
        rcases List.mem_insert_iff.1 hmem with rfl | hmem
        · exact ⟨client.added, by simp [Client.childId, hn]⟩
        · exact hl.children id' client hclient requestId hmem
    · exact hl.children id' c ((hclients id' hid).symm.trans hc)

lemma fanOut_simulates (hl : t.llm.Linked) (id : String) : Simulates decodeNext mayFinish t (t.fanOut id) := by
  unfold fanOut
  cases hclient : t.llm.clients id with
  | none => exact .refl hl
  | some client =>
    dsimp only
    split
    · exact .refl hl
    rename_i hlt
    have hadded : client.added < client.params.n := Nat.lt_of_not_le hlt
    have hfan : t.llm.fanOut id =
        (t.llm.addRequest id client (client.childId id client.added)).setClient id
          (t.view id client).fanOut.client := by
      simp only [AsyncLLM.fanOut, hclient, if_neg hlt]
      rfl
    rw [hfan]
    set t' : Observed σ := { t with llm := _, reported := _, texts := _ } with ht'
    refine ⟨linked_addRequest hl hclient hadded, ?_⟩
    intro id' client' hclient'
    by_cases hid : id' = id
    · subst hid
      obtain rfl : (t.view id' client).fanOut.client = client' :=
        Option.some.inj ((update_self id' _ _).symm.trans hclient')
      refine ⟨client, hclient, .single ?_⟩
      have hchildren {α : Type} (f : InternalId → α) (new d : α) :
          (fun i => if i < client.added + 1 then
              update f (client.childId id' client.added) new (client.childId id' i) else d) =
            update (fun i => if i < client.added then f (client.childId id' i) else d)
              client.added new := by
        funext i
        by_cases hi : i = client.added
        · subst hi
          simp
        · rw [update_of_ne hi]
          by_cases hlt' : i < client.added
          · have hne : client.childId id' i ≠ client.childId id' client.added := by
              unfold Client.childId
              split
              · omega
              · simpa using hi
            rw [if_pos (by omega), if_pos hlt', update_of_ne hne]
          · rw [if_neg (by omega), if_neg hlt']
      have hview : t'.view id' (t.view id' client).fanOut.client = (t.view id' client).fanOut := by
        ext1
        · rfl
        · rfl
        · rfl
        · exact hchildren t.llm.requestStates _ _
        · exact hchildren t.reported _ _
        · exact hchildren t.texts _ _
        · rfl
      rw [hview]
      exact .fanOut hadded
    · refine ⟨client', by simpa [t', AsyncLLM.setClient, AsyncLLM.addRequest, hid] using hclient', ?_⟩
      have hother : ∀ i, client'.childId id' i ≠ client.childId id client.added :=
        fun i heq => hid (Client.childId_client_inj heq)
      have hview : t'.view id' client' = t.view id' client' := by
        simp only [t', view, AsyncLLM.setClient, AsyncLLM.addRequest, update_of_ne (hother _)]
      rw [hview]

end Simulates

/-! ## Runs -/

section Runs

variable (decodeNext : σ → TokenId → Text × σ) (mayFinish : View σ → ℕ → Prop)

/-- Every request has come to where it is by steps of its own. -/
def Traced (t : Observed σ) : Prop :=
  t.llm.Linked ∧ ∀ id client, t.llm.clients id = some client →
    ∃ streamInterval externalReqId params tokenizer,
      Relation.ReflTransGen (View.Step decodeNext mayFinish)
        (.new id streamInterval externalReqId params tokenizer) (t.view id client)

/-- An output finishes a request only where it may. -/
def OutputMayFinish (t : Observed σ) (output : EngineCoreOutput) : Prop :=
  ∀ state client, t.llm.requestStates output.requestId = some state →
    t.llm.clients state.clientId = some client →
    (output.stopReasons (detokenize decodeNext state output).2).1.isSome →
    mayFinish (t.view state.clientId client) state.requestIndex

/-- The same for the outputs of a call, each in the state in which it is processed. -/
def OutputsMayFinish : List EngineCoreOutput → Observed σ → Prop
  | [], _ => True
  | output :: outputs, t => OutputMayFinish decodeNext mayFinish t output ∧
      ∀ t', t.processOutput decodeNext output = .ok t' → OutputsMayFinish outputs t'

/-- The calls that are made with new ids and finish requests only where they may be finished. -/
def Allowed (t : Observed σ) : FrontendCall σ → Prop
  | .submit id _ _ _ => t.llm.clients id = none
  | .processOutputs outputs => OutputsMayFinish decodeNext mayFinish outputs t
  | .abortInternal requestIds => MayAbort mayFinish t (abortedInternal requestIds)
  | .abortExternal externalReqIds => MayAbort mayFinish t (abortedExternal t.llm externalReqIds)
  | .fanOut _ | .get _ => True

variable {decodeNext mayFinish} {t t' : Observed σ} {listOrder : List InternalId → List InternalId}

lemma Traced.simulates (h : Traced decodeNext mayFinish t) (hsim : Simulates decodeNext mayFinish t t') :
    Traced decodeNext mayFinish t' := by
  refine ⟨hsim.1, ?_⟩
  intro id client' hclient'
  obtain ⟨client, hclient, hsteps⟩ := hsim.2 id client' hclient'
  obtain ⟨streamInterval, externalReqId, params, tokenizer, htrace⟩ := h.2 id client hclient
  exact ⟨streamInterval, externalReqId, params, tokenizer, htrace.trans hsteps⟩

lemma processOutputs_simulates (hl : t.llm.Linked) {outputs : List EngineCoreOutput}
    (hallowed : OutputsMayFinish decodeNext mayFinish outputs t)
    (h : outputs.foldlM (processOutput decodeNext) t = .ok t') : Simulates decodeNext mayFinish t t' := by
  induction outputs generalizing t with
  | nil =>
    cases h
    exact .refl hl
  | cons output outputs ih =>
    rw [foldlM_cons] at h
    obtain ⟨t₁, ht₁, h⟩ := bind_eq_ok h
    have hstep := processOutput_simulates hl hallowed.1 ht₁
    exact hstep.trans (ih hstep.1 (hallowed.2 t₁ ht₁) h)

lemma Traced.submit (h : Traced decodeNext mayFinish t) (hnew : t.llm.clients id = none)
    (externalReqId : String) (params : SamplingParams) (tokenizer : Tokenizer σ) :
    Traced decodeNext mayFinish
      { t with
        llm := t.llm.submit id externalReqId params tokenizer
        seen := update t.seen id [] } := by
  set t' : Observed σ := { t with llm := _, seen := _ } with ht'
  have hold : ∀ id' client, id' ≠ id → t'.llm.clients id' = some client → t.llm.clients id' = some client := by
    intro id' client hne hclient
    simpa [ht', AsyncLLM.submit, AsyncLLM.setClient, hne] using hclient
  set v := View.new id t.llm.streamInterval externalReqId params tokenizer with hv
  have hself : t'.llm.clients id = some v.client := update_self _ _ _
  refine ⟨⟨?_, ?_, ?_⟩, ?_⟩
  · intro requestId state hstate
    obtain ⟨client, hclient, hlt, hid⟩ := h.1.states requestId state hstate
    have hne : state.clientId ≠ id := by
      intro heq
      rw [heq, hnew] at hclient
      cases hclient
    exact ⟨client, by simpa [ht', AsyncLLM.submit, AsyncLLM.setClient, hne] using hclient, hlt, hid⟩
  · intro id' client hclient
    by_cases hid : id' = id
    · subst hid
      obtain rfl := Option.some.inj (hself.symm.trans hclient)
      exact Nat.zero_le _
    · exact h.1.added_le id' client (hold id' client hid hclient)
  · intro id' client hclient
    by_cases hid : id' = id
    · subst hid
      obtain rfl := Option.some.inj (hself.symm.trans hclient)
      intro requestId hmem
      cases hmem
    · exact h.1.children id' client (hold id' client hid hclient)
  · intro id' client hclient
    by_cases hid : id' = id
    · subst hid
      obtain rfl := Option.some.inj (hself.symm.trans hclient)
      refine ⟨t.llm.streamInterval, externalReqId, params, tokenizer, ?_⟩
      have hview : t'.view id' v.client = v := by
        ext1
        · rfl
        · rfl
        · rfl
        · funext i
          simp [view, hv, View.new]
        · funext i
          simp [view, hv, View.new]
        · funext i
          simp [view, hv, View.new]
        · exact update_self _ _ _
      rw [hview]
    · obtain ⟨interval, ext, ps, tok, hsteps⟩ := h.2 id' client (hold id' client hid hclient)
      refine ⟨interval, ext, ps, tok, ?_⟩
      have hview : t'.view id' client = t.view id' client := by
        ext1 <;> first | rfl | exact update_of_ne hid _ _
      rw [hview]
      exact hsteps

lemma Traced.run (h : Traced decodeNext mayFinish t) (horder : ∀ ids, (listOrder ids).Perm ids)
    {call : FrontendCall σ} (hallowed : Allowed decodeNext mayFinish t call)
    (hrun : Observed.run decodeNext listOrder call t = .ok t') : Traced decodeNext mayFinish t' := by
  cases call with
  | submit id externalReqId params tokenizer =>
    cases hrun
    exact h.submit hallowed externalReqId params tokenizer
  | fanOut id =>
    cases hrun
    exact h.simulates (fanOut_simulates h.1 id)
  | processOutputs outputs => exact h.simulates (processOutputs_simulates h.1 hallowed hrun)
  | abortInternal requestIds =>
    obtain ⟨s, hs, rfl⟩ := map_eq_ok hrun
    exact h.simulates (abortInternal_simulates horder h.1 hallowed hs)
  | abortExternal externalReqIds =>
    obtain ⟨s, hs, rfl⟩ := map_eq_ok hrun
    exact h.simulates (abortExternal_simulates horder h.1 hallowed hs)
  | get id =>
    cases hrun
    exact h.simulates (get_simulates h.1 id)

lemma traced_new (streamInterval : ℕ) : Traced decodeNext mayFinish (.new streamInterval) := by
  refine ⟨⟨?_, ?_, ?_⟩, ?_⟩
  · intro _ _ h
    cases h
  · intro _ _ h
    cases h
  · intro _ _ h
    cases h
  · intro _ _ h
    cases h

/-- In every state that is reached, every request has come to where it is by steps of its own. -/
lemma traced_of_reaches (horder : ∀ ids, (listOrder ids).Perm ids) {streamInterval : ℕ}
    (h : Reaches (Observed.run decodeNext listOrder) (Allowed decodeNext mayFinish) (.new streamInterval) t) :
    Traced decodeNext mayFinish t :=
  h.invariant (traced_new streamInterval) fun _ _ _ hs hallowed hrun => hs.run horder hallowed hrun

end Runs

end Observed

end VllmRuntime.Frontend
