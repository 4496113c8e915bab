import VllmRuntime.Verification.InputBatch.Stores

/-! # Runs of the batch, one operation at a time

A step of a run is split into its operations. The optional rows follow the requests as long as no
operation leaves an old entry under a request that has none. -/

namespace VllmRuntime

variable {γ : Type}

inductive BatchOp (γ : Type) where
  | remove (id : String)
  | add (request : CachedRequestState γ)
  | draft (id : String) (spec : List TokenId)
  | condense
  | swap (i1 i2 : ℕ)
  | refresh
  | accept (numAcceptedTokens : List ℕ)

/-- The batch within a step, and whether it is condensed. -/
structure BatchInStep (γ : Type) extends TrackedBatch γ where
  condensed : Bool

namespace BatchOp

variable (config : InputBatchConfig)

def change (op : BatchOp γ) (b : InputBatch γ) : Except PyError (InputBatch γ) :=
  match op with
  | remove id => b.removeRequest id
  | add request => b.addRequest config request
  | draft id spec => b.updateReqSpecTokenIds config id spec
  | condense => b.condense
  | swap i1 i2 => b.swapStates i1 i2
  | refresh => .ok b.refreshMetadata
  | accept numAcceptedTokens => .ok (b.setNumAcceptedTokens numAcceptedTokens)

def requests (op : BatchOp γ) (b : InputBatch γ) (requests : BatchRequests γ) : BatchRequests γ :=
  match op with
  | remove id => Function.update requests id none
  | add request => Function.update requests request.reqId (some (request, {}))
  | draft id spec => requests.draft id spec
  | condense | swap _ _ | refresh => requests
  | accept numAcceptedTokens => requests.accept b numAcceptedTokens

def condensed (op : BatchOp γ) (condensed : Bool) : Bool :=
  match op with
  | condense => true
  | refresh => false
  | _ => condensed

def run (op : BatchOp γ) (s : BatchInStep γ) : Except PyError (BatchInStep γ) := do
  let batch ← op.change config s.batch
  return ⟨⟨batch, op.requests s.batch s.requests⟩, op.condensed s.condensed⟩

/-- Requests leave and enter before `condense`; the swaps and the refresh come after it, and then the numbers of
accepted tokens. -/
def Allowed (tables : List BlockTable) (s : BatchInStep γ) : BatchOp γ → Prop
  | add request => s.condensed = false ∧ s.requests request.reqId = none ∧ request.Fits config tables
  | remove _ | draft _ _ | condense | accept _ => s.condensed = false
  | swap _ _ | refresh => s.condensed = true

/-- An operation does not leave an old entry under a request that has none, and swaps no two masks
that differ. -/
def KeepsStores (b : InputBatch γ) : BatchOp γ → Prop
  | add request => b.EntersEmpty config request
  | condense => b.MovesOverEmpty
  | swap i1 i2 => (b.optionalRow config i1).mask = (b.optionalRow config i2).mask
  | remove _ | draft _ _ | refresh | accept _ => True

end BatchOp

namespace BatchInStep

open InputBatch

variable {config : InputBatchConfig} {tables : List BlockTable} {s s' : BatchInStep γ} {op : BatchOp γ}

/-- The rows are right throughout a step, and from `condense` on the indices have no gap. -/
structure Inv (config : InputBatchConfig) (tables : List BlockTable) (s : BatchInStep γ) : Prop where
  rows : Rows config tables s.batch s.requests
  opened : s.condensed = false → Open config tables s.batch s.requests
  gapless : s.condensed = true → s.batch.Gapless

lemma Inv.ofOpen (h : Open config tables s.batch s.requests) (hphase : s.condensed = false) :
    Inv config tables s := by
  refine ⟨h.rows, fun _ => h, fun hcondensed => ?_⟩
  rw [hphase] at hcondensed
  cases hcondensed

lemma Inv.ofGapless (h : Rows config tables s.batch s.requests) (hgapless : s.batch.Gapless)
    (hphase : s.condensed = true) : Inv config tables s := by
  refine ⟨h, fun hopen => ?_, fun _ => hgapless⟩
  rw [hphase] at hopen
  cases hopen

lemma Inv.step (h : Inv config tables s) (hallowed : op.Allowed config tables s)
    (hrun : op.run config s = .ok s') : Inv config tables s' := by
  obtain ⟨b, hchange, rfl⟩ := map_eq_ok hrun
  cases op with
  | remove id => exact .ofOpen ((h.opened hallowed).remove (A := fun _ => True) id hchange).1 hallowed
  | add request =>
    obtain ⟨hphase, hnew, hfits⟩ := hallowed
    exact .ofOpen ((h.opened hphase).add (A := fun _ => True) hnew hfits trivial hchange).1 hphase
  | draft id spec => exact .ofOpen ((h.opened hallowed).draft (A := fun _ => True) hchange).1 hallowed
  | condense =>
    obtain ⟨hrows, hgapless, -⟩ := (h.opened hallowed).condense (A := fun _ => True) hchange
    exact .ofGapless hrows hgapless rfl
  | swap i1 i2 =>
    have hswap : [(i1, i2)].foldlM (fun b swap => b.swapStates swap.1 swap.2) s.batch = .ok b := by
      have hone : s.batch.swapStates i1 i2 = .ok b := hchange
      rw [List.foldlM_cons, hone]
      rfl
    obtain ⟨hrows, hgapless, -⟩ := h.rows.swaps (A := fun _ => True) (h.gapless hallowed) hswap
    exact .ofGapless hrows hgapless hallowed
  | refresh =>
    cases hchange
    exact .ofOpen (Settled.refresh h.rows (h.gapless hallowed)).opened rfl
  | accept numAcceptedTokens =>
    cases hchange
    have hopen := h.opened hallowed
    exact .ofOpen ⟨h.rows.accept _, hopen.holes, hopen.sorted, hopen.moved⟩ hallowed

/-- After an operation the optional rows follow the requests if and only if the operation keeps them. -/
lemma Inv.follow_iff (h : Inv config tables s) (hfollow : StoresFollow config s.batch s.requests)
    (hallowed : op.Allowed config tables s) (hrun : op.run config s = .ok s') :
    StoresFollow config s'.batch s'.requests ↔ op.KeepsStores config s.batch := by
  obtain ⟨b, hchange, rfl⟩ := map_eq_ok hrun
  cases op with
  | remove id => exact iff_of_true (hfollow.remove h.rows hchange) trivial
  | add request =>
    obtain ⟨hphase, hnew, hfits⟩ := hallowed
    exact addRequest_follow_iff (h.opened hphase) hfollow hnew hfits hchange
  | draft id spec => exact iff_of_true (hfollow.draft hchange) trivial
  | condense => exact condense_follow_iff (h.opened hallowed) hfollow hchange
  | swap i1 i2 => exact swapStates_follow_iff h.rows hfollow hchange
  | refresh =>
    cases hchange
    exact iff_of_true ⟨hfollow.row, hfollow.tensor⟩ trivial
  | accept numAcceptedTokens =>
    cases hchange
    have haccept : StoresFollow config (s.batch.setNumAcceptedTokens numAcceptedTokens)
        (s.requests.accept s.batch numAcceptedTokens) := hfollow.write _ rfl rfl rfl
    exact iff_of_true haccept trivial

/-- In every run whose operations keep the optional rows, they follow the requests in every state; and
the next operation ends this if and only if it does not keep them. -/
theorem storesFollow_of_reaches {temperature topP frequencyPenalties presencePenalties
    repetitionPenalties : ℕ → ℚ} {topK : ℕ → ℤ} {s : BatchInStep γ}
    (h : Reaches (BatchOp.run config)
      (fun s op => op.Allowed config tables s ∧ op.KeepsStores config s.batch)
      ⟨⟨InputBatch.new config tables temperature topP frequencyPenalties presencePenalties
        repetitionPenalties topK, fun _ => none⟩, false⟩ s) :
    (∀ (i : ℕ) (id : String), s.batch.reqIds[i]? = some (some id) → (s.requests id).isSome) ∧
      StoresFollow config s.batch s.requests ∧
      ∀ (op : BatchOp γ) (s' : BatchInStep γ), op.Allowed config tables s → op.run config s = .ok s' →
        (StoresFollow config s'.batch s'.requests ↔ op.KeepsStores config s.batch) := by
  have hboth := h.invariant
    (P := fun s => Inv config tables s ∧ StoresFollow config s.batch s.requests)
    ⟨.ofOpen (Settled.new temperature topP frequencyPenalties presencePenalties repetitionPenalties
      topK).opened rfl, ⟨fun i id request spec hi _ => by simp [InputBatch.new] at hi,
        fun id request spec hid _ => by cases hid⟩⟩
    fun s op s' hs hop hrun =>
      ⟨hs.1.step hop.1 hrun, (hs.1.follow_iff hs.2 hop.1 hrun).mpr hop.2⟩
  refine ⟨fun i id hid => ?_, hboth.2, fun op s' hallowed hrun =>
    hboth.1.follow_iff hboth.2 hallowed hrun⟩
  obtain ⟨request, spec, hrequest, -⟩ := hboth.1.rows.request_of_index hid
  rw [hrequest]
  rfl

/-! ## Two runs -/

instance (tables : List BlockTable) (request : CachedRequestState γ) :
    Decidable (request.Fits config tables) :=
  decidable_of_iff (request.numTokens ≤ config.maxModelLen ∧
    ∀ pair ∈ tables.zip request.blockIds,
      (mapToKernelBlocks pair.1.blocksPerKvBlock pair.2).length ≤ pair.1.maxNumBlocksPerReq)
    ⟨fun h => ⟨h.1, h.2⟩, fun h => ⟨h.tokens, h.blocks⟩⟩

instance (tables : List BlockTable) (s : BatchInStep γ) (op : BatchOp γ) :
    Decidable (op.Allowed config tables s) :=
  match op with
  | .add request => inferInstanceAs
      (Decidable (s.condensed = false ∧ s.requests request.reqId = none ∧ request.Fits config tables))
  | .remove _ | .draft _ _ | .condense | .accept _ => inferInstanceAs (Decidable (s.condensed = false))
  | .swap _ _ | .refresh => inferInstanceAs (Decidable (s.condensed = true))

instance (b : InputBatch γ) (op : BatchOp γ) : Decidable (op.KeepsStores config b) :=
  match op with
  | .add request => inferInstanceAs (Decidable
      ((request.samplingParams.allowedTokenIds = [] →
          (b.optionalRow config b.newReqIndex).mask = List.replicate config.vocabSize false) ∧
        (request.promptEmbeds = none → b.reqPromptEmbeds.lookup b.newReqIndex = none)))
  | .condense => inferInstanceAs (Decidable (∀ move ∈ b.pendingMoves,
      b.reqPromptEmbeds.lookup move.1 = none → b.reqPromptEmbeds.lookup move.2 = none))
  | .swap i1 i2 => inferInstanceAs
      (Decidable ((b.optionalRow config i1).mask = (b.optionalRow config i2).mask))
  | .remove _ | .draft _ _ | .refresh | .accept _ => inferInstanceAs (Decidable True)

def maskedRequest (reqId : String) (allowedTokenIds : List ℕ) : CachedRequestState ℕ :=
  { sampleRequest reqId 1 none with
    samplingParams := ⟨.greedy, 0, 1, 0, 0, 0, 1, none, allowedTokenIds, [], 0, [], 0, []⟩ }

def embeddedRequest (reqId : String) : CachedRequestState ℕ :=
  { sampleRequest reqId 1 none with
    promptEmbeds := some [[7]]
    numPromptTokens_eq := rfl }

/-- Two requests with one mask are swapped, and a request moves down into the place of another one. -/
def keepingOps : List (BatchOp ℕ) :=
  [.add (maskedRequest "a" [1]), .add (maskedRequest "b" [1]), .add (embeddedRequest "c"), .condense,
    .swap 0 1, .refresh, .accept [2], .remove "b", .condense, .refresh, .add (maskedRequest "d" [2]), .condense]

theorem storesFollow_of_reaches_keepingOps : ∃ s : BatchInStep ℕ,
    s.batch.reqIds = [some "c", some "a", some "d"] ∧ s.batch.reqPromptEmbeds.lookup 0 = some [[7]] ∧
      StoresFollow sampleConfig s.batch s.requests := by
  have hrun : (runChecked (BatchOp.run sampleConfig) (fun s op =>
      decide (op.Allowed sampleConfig sampleTables s ∧ op.KeepsStores sampleConfig s.batch)) keepingOps
        ⟨sampleStart, false⟩).map (fun s => (s.batch.reqIds, s.batch.reqPromptEmbeds.lookup 0)) =
          some ([some "c", some "a", some "d"], some [[7]]) := by
    decide +kernel
  obtain ⟨s, hs, heq⟩ := Option.map_eq_some_iff.mp hrun
  obtain ⟨hids, hembeds⟩ := Prod.mk.inj heq
  exact ⟨s, hids, hembeds, (storesFollow_of_reaches
    (Reaches.of_runChecked (fun _ _ => of_decide_eq_true) .start hs)).2.1⟩

/-- A request with a mask is swapped with one without; a request with embeddings leaves and one without
takes its index. -/
def mixingSteps : List (BatchStep ℕ) :=
  [{ added := [maskedRequest "a" [1], maskedRequest "b" [], embeddedRequest "c"], swaps := [(0, 1)] },
    { removed := ["c"], added := [maskedRequest "d" []] }]

theorem storesFollow_fails_mixingSteps : ∃ s : TrackedBatch ℕ,
    Reaches (BatchStep.run sampleConfig) (BatchStep.Allowed sampleConfig sampleTables) sampleStart s ∧
      s.batch.reqIds = [some "b", some "a", some "d"] ∧
      (s.requests "a").map (·.1.samplingParams.allowedTokenIds) = some [1] ∧
      (s.batch.optionalRow sampleConfig 1).mask = List.replicate 16 false ∧
      (s.requests "d").map (·.1.promptEmbeds.isSome) = some false ∧
      s.batch.reqPromptEmbeds.lookup 2 = some [[7]] ∧
      ¬StoresFollow sampleConfig s.batch s.requests := by
  have hrun : (runChecked (BatchStep.run sampleConfig) (checkStep sampleConfig sampleTables) mixingSteps
      sampleStart).any (fun s => decide (s.batch.reqIds = [some "b", some "a", some "d"] ∧
        (s.requests "a").map (·.1.samplingParams.allowedTokenIds) = some [1] ∧
        (s.batch.optionalRow sampleConfig 1).mask = List.replicate 16 false ∧
        (s.requests "d").map (·.1.promptEmbeds.isSome) = some false ∧
        s.batch.reqPromptEmbeds.lookup 2 = some [[7]])) = true := by
    decide +kernel
  obtain ⟨s, hs, heq⟩ := (Option.any_eq_true _ _).mp hrun
  obtain ⟨hids, hallowed, hmask, hnone, hembeds⟩ := of_decide_eq_true heq
  refine ⟨s, Reaches.of_runChecked (fun _ _ => allowed_of_checkStep) .start hs, hids, hallowed, hmask,
    hnone, hembeds, fun hfollow => ?_⟩
  obtain ⟨⟨request, spec⟩, hrequest, hpromptEmbeds⟩ := Option.map_eq_some_iff.mp hnone
  have hrow := hfollow.row 2 "d" request spec (by rw [hids]; rfl) hrequest
  have hlookup : s.batch.reqPromptEmbeds.lookup 2 = request.promptEmbeds :=
    congrArg OptionalRow.promptEmbeds hrow
  dsimp only at hpromptEmbeds
  rw [← hlookup, hembeds] at hpromptEmbeds
  cases hpromptEmbeds

end BatchInStep

end VllmRuntime
