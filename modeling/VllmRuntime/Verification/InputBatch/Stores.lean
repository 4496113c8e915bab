import VllmRuntime.Verification.InputBatch.Correctness

/-! # The optional rows of the batch

`allowed_token_ids_mask_cpu_tensor` and `req_prompt_embeds` are filled only for the requests that need
them. What they hold at an index is one record, and each operation is described by what it does to these
records. -/

namespace VllmRuntime

open List Function

variable {γ : Type}

/-- A row of the mask, where true stands for a token that is masked, and an entry of the embeddings. -/
@[ext]
structure OptionalRow where
  mask : List Bool
  promptEmbeds : Option (List Bytes)
  deriving DecidableEq

/-- The record after a move: the embeddings that were at the index stay if the request has none. -/
def OptionalRow.movedOver (row old : OptionalRow) : OptionalRow :=
  { row with promptEmbeds := row.promptEmbeds.or old.promptEmbeds }

/-- What the batch is to hold for a request. -/
def CachedRequestState.optionalRow (config : InputBatchConfig) (request : CachedRequestState γ) :
    OptionalRow where
  mask :=
    if request.samplingParams.allowedTokenIds.isEmpty then List.replicate config.vocabSize false
    else (List.range config.vocabSize).map fun tokenId => tokenId ∉ request.samplingParams.allowedTokenIds
  promptEmbeds := request.promptEmbeds

namespace InputBatch

variable {config : InputBatchConfig} {tables : List BlockTable} {b b' : InputBatch γ}
  {requests : BatchRequests γ} {request : CachedRequestState γ} {i idx : ℕ} {id : String}
  {last empty rounds i1 i2 : ℕ} {moves : List (ℕ × ℕ)}

/-- What the batch holds at an index. No token is masked before the tensor is made. -/
def optionalRow (config : InputBatchConfig) (b : InputBatch γ) (i : ℕ) : OptionalRow where
  mask := (List.range config.vocabSize).map ((b.allowedTokenIdsMaskCpuTensor.getD fun _ _ => false) i)
  promptEmbeds := b.reqPromptEmbeds.lookup i

/-- The batch holds at the index of each request what the request has. -/
structure StoresFollow (config : InputBatchConfig) (b : InputBatch γ) (requests : BatchRequests γ) :
    Prop where
  row : ∀ i id request spec, b.reqIds[i]? = some (some id) → requests id = some (request, spec) →
    b.optionalRow config i = request.optionalRow config
  tensor : ∀ id request spec, requests id = some (request, spec) →
    request.samplingParams.allowedTokenIds ≠ [] → b.allowedTokenIdsMaskCpuTensor.isSome

/-! ## Adding a request -/

/-- The index that the next request gets. -/
def newReqIndex (b : InputBatch γ) : ℕ := b.batchUpdateBuilder.popRemoved.1.getD b.numReqs

lemma addRequest_stores (h : b.addRequest config request = .ok b') :
    b'.allowedTokenIdsMaskCpuTensor =
        (if request.samplingParams.allowedTokenIds.isEmpty then b.allowedTokenIdsMaskCpuTensor
        else some (update (b.allowedTokenIdsMaskCpuTensor.getD fun _ _ => false) b.newReqIndex
          fun tokenId => tokenId ∉ request.samplingParams.allowedTokenIds)) ∧
      b'.reqPromptEmbeds = (match request.promptEmbeds with
        | some promptEmbeds => dictSet b.reqPromptEmbeds b.newReqIndex promptEmbeds
        | none => b.reqPromptEmbeds) := by
  unfold addRequest at h
  obtain ⟨⟨idx, b₁⟩, hregister, h⟩ := bind_eq_ok h
  obtain ⟨rfl, rfl⟩ := registerAddRequest_eq_ok hregister
  obtain ⟨b₂, htokens, h⟩ := bind_eq_ok h
  obtain ⟨blockTable, -, rfl⟩ := map_eq_ok h
  unfold enterTokens at htokens
  obtain ⟨numPromptTokens, -, htokens⟩ := bind_eq_ok htokens
  obtain ⟨promptRow, -, htokens⟩ := bind_eq_ok htokens
  obtain ⟨tokenRow, -, rfl⟩ := map_eq_ok htokens
  exact ⟨rfl, rfl⟩

/-- Only the parts that the request has are written at its index. -/
lemma optionalRow_added (config : InputBatchConfig) (h : b.addRequest config request = .ok b') (i : ℕ) :
    b'.optionalRow config i =
      if i = b.newReqIndex then
        { mask := if request.samplingParams.allowedTokenIds = [] then (b.optionalRow config i).mask
            else (request.optionalRow config).mask
          promptEmbeds := request.promptEmbeds.or (b.optionalRow config i).promptEmbeds }
      else b.optionalRow config i := by
  obtain ⟨htensor, hembeds⟩ := addRequest_stores h
  have hmask : (b'.optionalRow config i).mask =
      if i = b.newReqIndex ∧ request.samplingParams.allowedTokenIds ≠ [] then
        (request.optionalRow config).mask
      else (b.optionalRow config i).mask := by
    by_cases hnil : request.samplingParams.allowedTokenIds = []
    · simp [optionalRow, htensor, hnil]
    · by_cases hi : i = b.newReqIndex
      · simp [optionalRow, CachedRequestState.optionalRow, htensor, hnil, hi]
      · simp [optionalRow, htensor, hnil, hi]
  have hlookup : (b'.optionalRow config i).promptEmbeds =
      if i = b.newReqIndex then request.promptEmbeds.or (b.reqPromptEmbeds.lookup i)
      else b.reqPromptEmbeds.lookup i := by
    change b'.reqPromptEmbeds.lookup i = _
    rw [hembeds]
    cases request.promptEmbeds with
    | some promptEmbeds =>
      dsimp only
      rw [lookup_dictSet]
      rfl
    | none => simp
  by_cases hi : i = b.newReqIndex
  · rw [if_pos hi] at hlookup ⊢
    by_cases hnil : request.samplingParams.allowedTokenIds = []
    · rw [if_neg (by simp [hnil])] at hmask
      rw [if_pos hnil]
      exact OptionalRow.ext hmask hlookup
    · rw [if_pos ⟨hi, hnil⟩] at hmask
      rw [if_neg hnil]
      exact OptionalRow.ext hmask hlookup
  · rw [if_neg hi] at hlookup ⊢
    rw [if_neg (by simp [hi])] at hmask
    exact OptionalRow.ext hmask hlookup

/-! ## Removing a request, and draft tokens -/

lemma getD_map_update {mask : Option (ℕ → ℕ → Bool)} {row : ℕ → Bool} (hi : i ≠ idx) :
    ((mask.map (update · idx row)).getD fun _ _ => false) i =
      (mask.getD fun _ _ => false) i := by
  cases mask with
  | none => rfl
  | some mask => simp [update_of_ne hi]

lemma removeRequest_stores (hid : b.reqIdToIndex.lookup id = some idx)
    (h : b.removeRequest id = .ok b') :
    b'.allowedTokenIdsMaskCpuTensor =
        b.allowedTokenIdsMaskCpuTensor.map (update · idx fun _ => false) ∧
      b'.reqPromptEmbeds = b.reqPromptEmbeds := by
  obtain ⟨mapping, loraIds, loraRequests, rfl, -⟩ := removeRequest_eq_ok hid h
  exact ⟨rfl, rfl⟩

lemma updateReqSpecTokenIds_stores {spec : List TokenId}
    (h : b.updateReqSpecTokenIds config id spec = .ok b') :
    b'.reqIds = b.reqIds ∧ b'.allowedTokenIdsMaskCpuTensor = b.allowedTokenIdsMaskCpuTensor ∧
      b'.reqPromptEmbeds = b.reqPromptEmbeds := by
  unfold updateReqSpecTokenIds at h
  split at h
  · cases h
  · dsimp only at h
    split at h
    · cases h
      exact ⟨rfl, rfl, rfl⟩
    · obtain ⟨row, -, rfl⟩ := map_eq_ok h
      exact ⟨rfl, rfl, rfl⟩

/-! ## Moving requests down -/

lemma moveDown_stores (config : InputBatchConfig) (hlast : b.reqIds[last]? = some (some id))
    (hne : last ≠ empty) (h : b.moveDown last empty = .ok b') :
    b'.reqIds = (b.reqIds.set empty (some id)).set last none ∧
      b'.batchUpdateBuilder.removed = b.batchUpdateBuilder.removed ∧
      b'.batchUpdateBuilder.isRemovedSorted = b.batchUpdateBuilder.isRemovedSorted ∧
      b'.allowedTokenIdsMaskCpuTensor.isSome = b.allowedTokenIdsMaskCpuTensor.isSome ∧
      b'.optionalRow config empty =
        (b.optionalRow config last).movedOver (b.optionalRow config empty) ∧
      ∀ i, i ≠ last → i ≠ empty → b'.optionalRow config i = b.optionalRow config i := by
  unfold moveDown at h
  rw [hlast] at h
  cases h
  have hlookup : ∀ i, i ≠ last → (moveDictValue b.reqPromptEmbeds last empty).lookup i =
      if i = empty then (b.reqPromptEmbeds.lookup last).or (b.reqPromptEmbeds.lookup empty)
      else b.reqPromptEmbeds.lookup i := by
    intro i hi
    unfold moveDictValue
    cases b.reqPromptEmbeds.lookup last with
    | some promptEmbeds =>
      dsimp only
      rw [lookup_dictSet, lookup_dictPop, if_neg hi]
      rfl
    | none =>
      by_cases hie : i = empty
      · simp [hie]
      · simp [hie]
  refine ⟨rfl, rfl, rfl, Option.isSome_map, ?_, fun i hil hie => ?_⟩
  · refine OptionalRow.ext ?_ ?_
    · simp only [optionalRow, OptionalRow.movedOver]
      cases b.allowedTokenIdsMaskCpuTensor with
      | none => rfl
      | some mask => simp only [Option.map_some, Option.getD_some, update_self]
    · simp only [optionalRow, OptionalRow.movedOver, hlookup empty (Ne.symm hne), if_pos]
  · refine OptionalRow.ext ?_ ?_
    · simp only [optionalRow]
      cases b.allowedTokenIdsMaskCpuTensor with
      | none => rfl
      | some mask => simp only [Option.map_some, Option.getD_some, update_of_ne hie]
    · simp only [optionalRow, hlookup i hil, if_neg hie]

/-- The moves of the loop of `condense`, each with the index it takes a request from and the one it
fills. -/
def condenseMoves : ℕ → ℕ → List ℕ → List (ℕ × ℕ)
  | 0, _, _ => []
  | rounds + 1, last, removed =>
    let last := skipRemoved removed last
    match removed.getLast? with
    | none => []
    | some empty =>
      if last ≤ empty then []
      else (last, empty) :: condenseMoves rounds (last - 1) removed.dropLast

lemma mem_condenseMoves {removed : List ℕ} {move : ℕ × ℕ} (hsorted : removed.Pairwise (· > ·))
    (h : move ∈ condenseMoves rounds last removed) :
    move.1 ≤ last ∧ move.1 ∉ removed ∧ move.2 ∈ removed ∧ move.2 < move.1 := by
  induction rounds generalizing last removed with
  | zero => cases h
  | succ rounds ih =>
    obtain ⟨hskip, -, hcurrent⟩ := skipRemoved_spec removed last
    rw [condenseMoves] at h
    generalize skipRemoved removed last = current at hskip hcurrent h
    cases hlast : removed.getLast? with
    | none =>
      rw [hlast] at h
      cases h
    | some empty =>
      obtain ⟨rest, rfl⟩ := getLast?_eq_some_iff.mp hlast
      obtain ⟨hrest, -, hbelow⟩ := pairwise_append.mp hsorted
      rw [hlast] at h
      dsimp only at h
      split at h
      · cases h
      · rename_i hlt
        rcases mem_cons.mp h with rfl | h
        · exact ⟨hskip, hcurrent.resolve_right (by omega), by simp, by simpa using hlt⟩
        · rw [dropLast_concat] at h
          obtain ⟨hle, hnot, hmem, hdown⟩ := ih hrest h
          have habove := hbelow move.2 hmem empty (by simp)
          refine ⟨by omega, ?_, mem_append_left _ hmem, hdown⟩
          simp only [mem_append, mem_singleton, not_or]
          exact ⟨hnot, by omega⟩

/-- What a number of moves does to the ids and to the optional rows. -/
structure MovedBy (config : InputBatchConfig) (moves : List (ℕ × ℕ)) (b b' : InputBatch γ) : Prop where
  moved : ∀ move ∈ moves, (∃ id, b.reqIds[move.1]? = some (some id)) ∧
    b'.reqIds[move.2]? = b.reqIds[move.1]? ∧
    b'.optionalRow config move.2 =
      (b.optionalRow config move.1).movedOver (b.optionalRow config move.2)
  left : ∀ move ∈ moves, b'.reqIds[move.1]? = some none
  other : ∀ i, (∀ move ∈ moves, i ≠ move.1 ∧ i ≠ move.2) →
    b'.reqIds[i]? = b.reqIds[i]? ∧ b'.optionalRow config i = b.optionalRow config i
  tensor : b'.allowedTokenIdsMaskCpuTensor.isSome = b.allowedTokenIdsMaskCpuTensor.isSome

/-- A first move, and further ones that do not touch its indices. -/
lemma MovedBy.cons {b₁ : InputBatch γ} (hlast : b.reqIds[last]? = some (some id))
    (hempty : b.reqIds[empty]? = some none) (hmove : b.moveDown last empty = .ok b₁)
    (hapart : ∀ move ∈ moves, (move.1 ≠ last ∧ move.1 ≠ empty) ∧ move.2 ≠ last ∧ move.2 ≠ empty)
    (h : MovedBy config moves b₁ b') : MovedBy config ((last, empty) :: moves) b b' := by
  have hne : last ≠ empty := by
    rintro rfl
    rw [hlast] at hempty
    cases hempty
  have hlastLt := lt_of_getElem? hlast
  have hemptyLt := lt_of_getElem? hempty
  obtain ⟨hids, -, -, htensor, hself, hother⟩ := moveDown_stores config hlast hne hmove
  have hrest : ∀ i, i ≠ last → i ≠ empty → b₁.reqIds[i]? = b.reqIds[i]? := by
    intro i hil hie
    rw [hids, getElem?_set_ne (Ne.symm hil), getElem?_set_ne (Ne.symm hie)]
  obtain ⟨hlastId, hlastRow⟩ := h.other last fun move hmem =>
    ⟨Ne.symm (hapart move hmem).1.1, Ne.symm (hapart move hmem).2.1⟩
  obtain ⟨hemptyId, hemptyRow⟩ := h.other empty fun move hmem =>
    ⟨Ne.symm (hapart move hmem).1.2, Ne.symm (hapart move hmem).2.2⟩
  refine ⟨?_, ?_, fun i hi => ?_, h.tensor.trans htensor⟩
  · rw [forall_mem_cons]
    refine ⟨⟨⟨id, hlast⟩, ?_, hemptyRow.trans hself⟩, fun move hmem => ?_⟩
    · rw [hemptyId, hids, getElem?_set_ne hne, getElem?_set_self hemptyLt, hlast]
    · obtain ⟨⟨hl1, he1⟩, hl2, he2⟩ := hapart move hmem
      obtain ⟨hid, hsame, hrow⟩ := h.moved move hmem
      rw [hrest _ hl1 he1] at hid hsame
      rw [hother _ hl1 he1, hother _ hl2 he2] at hrow
      exact ⟨hid, hsame, hrow⟩
  · rw [forall_mem_cons]
    refine ⟨?_, h.left⟩
    rw [hlastId, hids, getElem?_set_self (by simpa using hlastLt)]
  · rw [forall_mem_cons] at hi
    obtain ⟨hid, hrow⟩ := h.other i hi.2
    exact ⟨hid.trans (hrest i hi.1.1 hi.1.2), hrow.trans (hother i hi.1.1 hi.1.2)⟩

lemma MovedBy.ofBuilder {builder : BatchUpdateBuilder}
    (h : MovedBy config moves { b with batchUpdateBuilder := builder } b') : MovedBy config moves b b' :=
  ⟨h.moved, h.left, h.other, h.tensor⟩

lemma condenseLoop_movedBy (config : InputBatchConfig)
    (hcondensing : Condensing b.reqIds b.batchUpdateBuilder.removed last)
    (hflag : b.batchUpdateBuilder.isRemovedSorted = true)
    (hrounds : rounds = b.batchUpdateBuilder.removed.length) (hrun : condenseLoop rounds last b = .ok b') :
    MovedBy config (condenseMoves rounds last b.batchUpdateBuilder.removed) b b' := by
  induction rounds generalizing b last with
  | zero =>
    cases hrun
    exact ⟨by simp [condenseMoves], by simp [condenseMoves], fun _ _ => ⟨rfl, rfl⟩, rfl⟩
  | succ rounds ih =>
    obtain ⟨rest, empty, hremoved, hrest, hround⟩ := condenseLoop_succ hcondensing hflag hrounds hrun
    have hskipped := hcondensing.skip
    rw [condenseMoves]
    generalize skipRemoved b.batchUpdateBuilder.removed last = current at hround hskipped ⊢
    rw [hremoved] at hskipped hrounds ⊢
    rw [getLast?_concat, dropLast_concat]
    dsimp only
    rcases hround with ⟨hle, rfl⟩ | ⟨hlt, id, b₁, hid, hempty, hmove, hrun⟩
    · rw [if_pos hle]
      exact ⟨by simp, by simp, fun _ _ => ⟨rfl, rfl⟩, rfl⟩
    · rw [if_neg (by omega)]
      obtain ⟨hids, hrest₁, hflag₁, -⟩ := moveDown_stores config
        (b := { b with batchUpdateBuilder := { b.batchUpdateBuilder with removed := rest } }) hid
        (by omega) hmove
      have hcondensing₁ : Condensing b₁.reqIds b₁.batchUpdateBuilder.removed (current - 1) := by
        rw [hids, hrest₁]
        exact hskipped.move hlt hid
      have hloop := ih hcondensing₁ (hflag₁.trans hflag) (by rw [hrest₁]; simpa using hrounds) hrun
      rw [hrest₁] at hloop
      obtain ⟨hsorted, -, hbelow⟩ := pairwise_append.mp hskipped.sorted
      have hlast := ((hskipped.filled current).mp ⟨id, hid⟩).2
      refine (MovedBy.cons (b := { b with
        batchUpdateBuilder := { b.batchUpdateBuilder with removed := rest } }) hid hempty hmove
          (fun move hmem => ?_) hloop).ofBuilder
      obtain ⟨hle, -, hmem, hdown⟩ := mem_condenseMoves hsorted hmem
      have habove := hbelow move.2 hmem empty (by simp)
      have hne : move.2 ≠ current := fun heq => hlast (heq ▸ mem_append_left _ hmem)
      exact ⟨⟨by omega, by omega⟩, hne, by omega⟩

/-- The moves that `condense` is about to make. -/
def pendingMoves (b : InputBatch γ) : List (ℕ × ℕ) :=
  let removed := b.batchUpdateBuilder.ensureRemovedSorted.removed
  if b.numReqs = 0 then [] else condenseMoves removed.length (b.numReqs + removed.length - 1) removed

/-- `condense` makes its moves; what it cuts off the lists holds no request. -/
lemma Open.condense_movedBy (h : Open config tables b requests) (hrun : b.condense = .ok b') :
    ∃ b₁, Rows config tables b₁ requests ∧ MovedBy config b.pendingMoves b b₁ ∧
      b'.reqIdToIndex = b₁.reqIdToIndex ∧
      b'.allowedTokenIdsMaskCpuTensor = b₁.allowedTokenIdsMaskCpuTensor ∧
      b'.reqPromptEmbeds = b₁.reqPromptEmbeds := by
  obtain ⟨sorted, hsort, hperm, hsorted⟩ := BatchUpdateBuilder.ensureRemovedSorted_eq h.sorted
  have hrows := h.rows.withBuilder { b.batchUpdateBuilder with removed := sorted, isRemovedSorted := true }
  have hholes : Holes b.reqIds sorted :=
    ⟨hperm.nodup_iff.mpr h.holes.nodup, fun i => hperm.mem_iff.trans (h.holes.mem i)⟩
  have hnone : MovedBy config [] b b := ⟨by simp, by simp, fun _ _ => ⟨rfl, rfl⟩, rfl⟩
  unfold InputBatch.condense at hrun
  unfold pendingMoves
  rw [hsort] at hrun ⊢
  dsimp only at hrun ⊢
  split at hrun
  · rename_i hempty
    obtain rfl := isEmpty_iff.mp hempty
    cases hrun
    refine ⟨b, h.rows, ?_, rfl, rfl, rfl⟩
    split
    · exact hnone
    · exact hnone
  · rename_i hne
    split at hrun
    · rename_i hzero
      cases hrun
      rw [if_pos (show b.numReqs = 0 from hzero)]
      exact ⟨b, h.rows, hnone, rfl, rfl, rfl⟩
    · rename_i hzero
      obtain ⟨b₁, hloop, rfl⟩ := map_eq_ok hrun
      have hlength := hholes.length_eq h.rows.inverse
      have hreq : b.reqIds ≠ [] := by
        rintro hnil
        rw [hnil, length_nil] at hlength
        exact hne (by simpa using length_eq_zero_iff.mp (by omega : sorted.length = 0))
      have hlast : b.numReqs + sorted.length - 1 = b.reqIds.length - 1 := by
        rw [hlength]
        rfl
      rw [if_neg (show ¬b.numReqs = 0 from hzero), hlast]
      rw [hlast] at hloop
      obtain ⟨hrows₁, -⟩ := condenseLoop_spec (A := fun _ => True) hrows
        (hholes.condensing hsorted hreq) rfl rfl hloop
      have hmoved := condenseLoop_movedBy config (b := { b with
        batchUpdateBuilder := { b.batchUpdateBuilder with removed := sorted, isRemovedSorted := true } })
          (hholes.condensing hsorted hreq) rfl rfl hloop
      exact ⟨b₁, hrows₁, hmoved.ofBuilder, rfl, rfl, rfl⟩

/-! ## Swapping two requests -/

/-- The first row of the mask gets the second one, which stays as it is. -/
lemma optionalRow_swapped (config : InputBatchConfig) (h : b.swapStates i1 i2 = .ok b') (i : ℕ) :
    b'.allowedTokenIdsMaskCpuTensor.isSome = b.allowedTokenIdsMaskCpuTensor.isSome ∧
      b'.optionalRow config i =
        { mask := (b.optionalRow config (if i = i1 then i2 else i)).mask
          promptEmbeds := (b.optionalRow config (Equiv.swap i1 i2 i)).promptEmbeds } := by
  unfold swapStates at h
  split at h
  · split at h
    · cases h
      refine ⟨Option.isSome_map, OptionalRow.ext ?_ (lookup_swapDictValues _ _ _ _)⟩
      simp only [optionalRow]
      cases b.allowedTokenIdsMaskCpuTensor with
      | none => rfl
      | some mask =>
        simp only [Option.map_some, Option.getD_some]
        by_cases hi : i = i1
        · rw [hi, update_self, if_pos rfl]
        · rw [update_of_ne hi, if_neg hi]
    · cases h
  · cases h
  · cases h

/-! ## What each operation leaves -/

namespace StoresFollow

/-- Nothing is added for a request, and the indices in use are those from before. -/
lemma mono {requests' : BatchRequests γ} (h : StoresFollow config b requests)
    (hids : ∀ i id request spec, b'.reqIds[i]? = some (some id) → requests' id = some (request, spec) →
      b.reqIds[i]? = some (some id) ∧ b'.optionalRow config i = b.optionalRow config i)
    (hrequests : ∀ id request spec, requests' id = some (request, spec) →
      ∃ spec', requests id = some (request, spec'))
    (htensor : b'.allowedTokenIdsMaskCpuTensor.isSome = b.allowedTokenIdsMaskCpuTensor.isSome) :
    StoresFollow config b' requests' := by
  refine ⟨fun i id request spec hi hid => ?_, fun id request spec hid hne => ?_⟩
  · obtain ⟨hi', hrow⟩ := hids i id request spec hi hid
    obtain ⟨spec', hid'⟩ := hrequests id request spec hid
    rw [hrow]
    exact h.row i id request spec' hi' hid'
  · obtain ⟨spec', hid'⟩ := hrequests id request spec hid
    rw [htensor]
    exact h.tensor id request spec' hid' hne

lemma remove (h : StoresFollow config b requests) (hrows : Rows config tables b requests)
    (hrun : b.removeRequest id = .ok b') :
    StoresFollow config b' (update requests id none) := by
  have hrequests : ∀ x request spec, update requests id none x = some (request, spec) →
      ∃ spec', requests x = some (request, spec') := by
    intro x request spec hx
    by_cases hxid : x = id
    · simp [hxid] at hx
    · rw [update_of_ne hxid] at hx
      exact ⟨spec, hx⟩
  cases hid : b.reqIdToIndex.lookup id with
  | none =>
    unfold removeRequest at hrun
    rw [hid] at hrun
    cases hrun
    exact h.mono (fun i x request spec hi _ => ⟨hi, rfl⟩) hrequests rfl
  | some idx =>
    obtain ⟨htensor, hembeds⟩ := removeRequest_stores hid hrun
    obtain ⟨-, hids, -⟩ := hrows.remove hid hrun
    have hlt := hrows.inverse.lt_length hid
    refine h.mono (fun i x request spec hi _ => ?_) hrequests (by rw [htensor, Option.isSome_map])
    rw [hids] at hi
    have hne : i ≠ idx := by
      rintro rfl
      rw [getElem?_set_self hlt] at hi
      cases hi
    rw [getElem?_set_ne (Ne.symm hne)] at hi
    refine ⟨hi, OptionalRow.ext ?_ (by simp only [optionalRow, hembeds])⟩
    simp only [optionalRow, htensor, getD_map_update hne]

lemma write (h : StoresFollow config b requests) (f : String → RowUpdates → RowUpdates) (hids : b'.reqIds = b.reqIds)
    (htensor : b'.allowedTokenIdsMaskCpuTensor = b.allowedTokenIdsMaskCpuTensor)
    (hembeds : b'.reqPromptEmbeds = b.reqPromptEmbeds) : StoresFollow config b' (requests.write f) := by
  refine h.mono (fun i x request spec hi _ => ⟨hids ▸ hi, ?_⟩) (fun x request spec hx => ?_) (by rw [htensor])
  · simp only [optionalRow, htensor, hembeds]
  · obtain ⟨entry, hentry, heq⟩ := Option.map_eq_some_iff.mp hx
    cases heq
    exact ⟨entry.2, hentry⟩

lemma draft {spec' : List TokenId} (h : StoresFollow config b requests)
    (hrun : b.updateReqSpecTokenIds config id spec' = .ok b') : StoresFollow config b' (requests.draft id spec') := by
  obtain ⟨hids, htensor, hembeds⟩ := updateReqSpecTokenIds_stores hrun
  exact h.write _ hids htensor hembeds

end StoresFollow

/-- The index of the next request holds none. -/
lemma Open.newReqIndex_free (h : Open config tables b requests) :
    (∀ x, b.reqIds[b.newReqIndex]? ≠ some (some x)) ∧ b.newReqIndex ≤ b.reqIds.length := by
  unfold newReqIndex
  rcases BatchUpdateBuilder.popRemoved_eq h.sorted with ⟨hpop, hnil⟩ | ⟨rest, idx, hpop, hperm, -⟩
  · have hlength := h.holes.length_eq h.rows.inverse
    rw [hnil, length_nil, Nat.add_zero] at hlength
    rw [hpop, Option.getD_none, numReqs, ← hlength]
    simp
  · have hmem : b.reqIds[idx]? = some none := (h.holes.mem idx).mp (hperm.mem_iff.mp (by simp))
    rw [hpop, Option.getD_some, hmem]
    exact ⟨by simp, (lt_of_getElem? hmem).le⟩

/-- What is not written for the request is empty at its index. -/
def EntersEmpty (config : InputBatchConfig) (b : InputBatch γ) (request : CachedRequestState γ) : Prop :=
  (request.samplingParams.allowedTokenIds = [] →
    (b.optionalRow config b.newReqIndex).mask = List.replicate config.vocabSize false) ∧
  (request.promptEmbeds = none → b.reqPromptEmbeds.lookup b.newReqIndex = none)

lemma addRequest_follow_iff (h : Open config tables b requests) (hfollow : StoresFollow config b requests)
    (hnew : requests request.reqId = none) (hfits : request.Fits config tables)
    (hrun : b.addRequest config request = .ok b') :
    StoresFollow config b' (update requests request.reqId (some (request, {}))) ↔
      b.EntersEmpty config request := by
  obtain ⟨hfree, hle⟩ := h.newReqIndex_free
  obtain ⟨-, hids, -⟩ := h.rows.add hnew hfits hfree hle rfl hrun
  have hself : b'.reqIds[b.newReqIndex]? = some (some request.reqId) := by
    rw [hids, getElem?_setOrAppend_self hle]
  have hrow := optionalRow_added config hrun
  have hat : b'.optionalRow config b.newReqIndex = request.optionalRow config ↔
      b.EntersEmpty config request := by
    rw [hrow, if_pos rfl, OptionalRow.ext_iff, EntersEmpty]
    by_cases hnil : request.samplingParams.allowedTokenIds = []
    · cases hembeds : request.promptEmbeds <;>
        simp [CachedRequestState.optionalRow, optionalRow, hnil, hembeds]
    · cases hembeds : request.promptEmbeds <;>
        simp [CachedRequestState.optionalRow, optionalRow, hnil, hembeds]
  rw [← hat]
  constructor
  · intro hfollow'
    exact hfollow'.row _ _ request {} hself (update_self _ _ _)
  · intro hentered
    refine ⟨fun i x request' spec hi hx => ?_, fun x request' spec hx hne => ?_⟩
    · by_cases hii : i = b.newReqIndex
      · subst hii
        rw [hself] at hi
        cases Option.some.inj hi
        rw [update_self] at hx
        cases hx
        exact hentered
      · rw [hids, getElem?_setOrAppend_of_ne hii] at hi
        have hxid : x ≠ request.reqId := by
          rintro rfl
          have hknown := (h.rows.known request.reqId).mpr (by
            rw [(h.rows.inverse.lookup _ i).mpr hi]
            rfl)
          rw [hnew] at hknown
          cases hknown
        rw [update_of_ne hxid] at hx
        rw [hrow, if_neg hii]
        exact hfollow.row i x request' spec hi hx
    · rw [(addRequest_stores hrun).1]
      split
      · rename_i hempty
        by_cases hxid : x = request.reqId
        · rw [hxid, update_self] at hx
          cases hx
          exact absurd (isEmpty_iff.mp hempty) hne
        · rw [update_of_ne hxid] at hx
          exact hfollow.tensor x request' spec hx hne
      · rfl

/-- A request without prompt embeddings moves to an index that holds none. -/
def MovesOverEmpty (b : InputBatch γ) : Prop :=
  ∀ move ∈ b.pendingMoves, b.reqPromptEmbeds.lookup move.1 = none → b.reqPromptEmbeds.lookup move.2 = none

lemma condense_follow_iff (h : Open config tables b requests) (hfollow : StoresFollow config b requests)
    (hrun : b.condense = .ok b') : StoresFollow config b' requests ↔ b.MovesOverEmpty := by
  obtain ⟨b₁, hrows₁, hmoved, hindex, htensor, hembeds⟩ := h.condense_movedBy hrun
  obtain ⟨hrows, -⟩ := h.condense (A := fun _ => True) hrun
  have hentry : ∀ (i : ℕ) (id : String), b'.reqIds[i]? = some (some id) ↔ b₁.reqIds[i]? = some (some id) := by
    intro i id
    rw [← hrows.inverse.lookup, hindex, hrows₁.inverse.lookup]
  have hrow : ∀ i, b'.optionalRow config i = b₁.optionalRow config i := by
    intro i
    simp only [optionalRow, htensor, hembeds]
  have hover : ∀ row old : OptionalRow,
      row.movedOver old = row ↔ (row.promptEmbeds = none → old.promptEmbeds = none) := by
    rintro ⟨mask, promptEmbeds⟩ old
    cases promptEmbeds <;> simp [OptionalRow.movedOver]
  constructor
  · intro hfollow' move hmem
    obtain ⟨⟨id, hid⟩, hsame, hmovedRow⟩ := hmoved.moved move hmem
    obtain ⟨request, spec, hrequest, -⟩ := h.rows.request_of_index hid
    have hafter := hfollow'.row move.2 id request spec ((hentry _ _).mpr (hsame.trans hid)) hrequest
    rw [hrow, hmovedRow, ← hfollow.row move.1 id request spec hid hrequest] at hafter
    exact (hover _ _).mp hafter
  · intro hempty
    refine ⟨fun i id request spec hi hrequest => ?_, fun id request spec hrequest hne => ?_⟩
    · rw [hentry] at hi
      rw [hrow]
      by_cases htarget : ∃ move ∈ b.pendingMoves, i = move.2
      · obtain ⟨move, hmem, rfl⟩ := htarget
        obtain ⟨-, hsame, hmovedRow⟩ := hmoved.moved move hmem
        rw [hmovedRow, (hover _ _).mpr (hempty move hmem)]
        exact hfollow.row move.1 id request spec (hsame ▸ hi) hrequest
      · obtain ⟨hsame, hother⟩ := hmoved.other i fun move hmem => by
          refine ⟨?_, fun heq => htarget ⟨move, hmem, heq⟩⟩
          rintro rfl
          rw [hmoved.left move hmem] at hi
          cases hi
        rw [hother]
        exact hfollow.row i id request spec (hsame ▸ hi) hrequest
    · rw [htensor, hmoved.tensor]
      exact hfollow.tensor id request spec hrequest hne

lemma swapStates_follow_iff (h : Rows config tables b requests) (hfollow : StoresFollow config b requests)
    (hrun : b.swapStates i1 i2 = .ok b') :
    StoresFollow config b' requests ↔
      (b.optionalRow config i1).mask = (b.optionalRow config i2).mask := by
  obtain ⟨-, hids, ⟨id1, id2, h1, h2⟩, -⟩ := h.swap hrun
  have hlt1 := lt_of_getElem? h1
  have hlt2 := lt_of_getElem? h2
  have hentry : ∀ i, b'.reqIds[i]? = b.reqIds[Equiv.swap i1 i2 i]? := by
    intro i
    rw [hids, getElem?_swapItems hlt1 hlt2]
  have hrow := fun i => (optionalRow_swapped config hrun i).2
  constructor
  · intro hfollow'
    obtain ⟨request, spec, hrequest, -⟩ := h.request_of_index h1
    have hafter := hfollow'.row i2 id1 request spec
      (by rw [hentry, Equiv.swap_apply_right, h1]) hrequest
    rw [hrow, ← hfollow.row i1 id1 request spec h1 hrequest] at hafter
    have hmask := congrArg OptionalRow.mask hafter
    dsimp only at hmask
    split at hmask
    · exact hmask.symm
    · exact hmask.symm
  · intro hmask
    refine ⟨fun i id request spec hi hrequest => ?_, fun id request spec hrequest hne => ?_⟩
    · rw [hentry] at hi
      rw [hrow, ← hfollow.row _ id request spec hi hrequest]
      refine OptionalRow.ext ?_ rfl
      dsimp only
      by_cases hi1 : i = i1
      · rw [if_pos hi1, hi1, Equiv.swap_apply_left]
      · rw [if_neg hi1]
        by_cases hi2 : i = i2
        · rw [hi2, Equiv.swap_apply_right, hmask]
        · rw [Equiv.swap_apply_of_ne_of_ne hi1 hi2]
    · rw [(optionalRow_swapped config hrun i1).1]
      exact hfollow.tensor id request spec hrequest hne

end InputBatch

end VllmRuntime
