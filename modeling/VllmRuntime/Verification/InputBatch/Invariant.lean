import VllmRuntime.Verification.InputBatch.Features

/-! # The batch during a step

Throughout a step the batch holds the row of each of its requests. The invariant is kept by every
operation; what the operations do to the arrays is only used through the lemmas about rows. -/

namespace VllmRuntime

open List Function

variable {γ : Type}

lemma BlockTable.Fits.congr {tables tables' : List BlockTable} {blockIds : List (List ℕ)}
    (h : BlockTable.Fits tables blockIds)
    (hper : tables'.map (·.blocksPerKvBlock) = tables.map (·.blocksPerKvBlock))
    (hwidth : tables'.map (·.maxNumBlocksPerReq) = tables.map (·.maxNumBlocksPerReq)) :
    BlockTable.Fits tables' blockIds := by
  induction tables generalizing tables' blockIds with
  | nil =>
    obtain rfl := map_eq_nil_iff.mp hper
    exact h
  | cons table tables ih =>
    obtain ⟨table', rest, rfl, hper, hpers⟩ := map_eq_cons_iff.mp hper
    obtain ⟨hwidth, hwidths⟩ := cons.inj hwidth
    cases blockIds with
    | nil => exact fun pair hpair => absurd hpair (by simp)
    | cons ids blockIds =>
      have hall : ∀ pair ∈ (table, ids) :: tables.zip blockIds, _ := h
      rw [forall_mem_cons] at hall
      have hrest := ih hall.2 hpers hwidths
      change ∀ pair ∈ (table', ids) :: rest.zip blockIds, _
      rw [forall_mem_cons]
      dsimp only at hper hwidth ⊢
      refine ⟨?_, hrest⟩
      rw [hper, hwidth]
      exact hall.1

namespace InputBatch

variable {config : InputBatchConfig} {tables : List BlockTable} {b b' : InputBatch γ}
  {requests : BatchRequests γ} {request : CachedRequestState γ} {id : String}
  {idx : ℕ}

/-- The row at each index is that of the request with the id there. -/
structure Rows (config : InputBatchConfig) (tables : List BlockTable) (b : InputBatch γ)
    (requests : BatchRequests γ) : Prop where
  inverse : Inverse b.reqIds b.reqIdToIndex
  known : ∀ id, (requests id).isSome ↔ (b.reqIdToIndex.lookup id).isSome
  reqId : ∀ id request spec, requests id = some (request, spec) → request.reqId = id
  row : ∀ i id request spec, b.reqIds[i]? = some (some id) → requests id = some (request, spec) →
    b.row i = request.row config (tables.map (·.blocksPerKvBlock)) spec
  unused : ∀ i, (∀ id, b.reqIds[i]? ≠ some (some id)) →
    b.generators.lookup i = none ∧ b.badWordsTokenIds.lookup i = none
  spec_length : b.reqIds.length ≤ b.specTokenIds.length
  spec_beyond : ∀ i, b.reqIds.length ≤ i → (b.specTokenIds[i]?).getD [] = []
  blocksPerKvBlock : b.blockTable.map (·.blocksPerKvBlock) = tables.map (·.blocksPerKvBlock)
  maxNumBlocksPerReq : b.blockTable.map (·.maxNumBlocksPerReq) = tables.map (·.maxNumBlocksPerReq)
  features : Features config b requests

namespace Rows

section

variable (h : Rows config tables b requests)
include h

lemma request_of_index (hid : b.reqIds[idx]? = some (some id)) :
    ∃ request spec, requests id = some (request, spec) ∧
      b.row idx = request.row config (tables.map (·.blocksPerKvBlock)) spec := by
  have hsome := (h.known id).mpr (by rw [(h.inverse.lookup id idx).mpr hid]; rfl)
  obtain ⟨⟨request, spec⟩, heq⟩ := Option.isSome_iff_exists.mp hsome
  exact ⟨request, spec, heq, h.row idx id request spec hid heq⟩

lemma remove (hid : b.reqIdToIndex.lookup id = some idx)
    (hrun : b.removeRequest id = .ok b') :
    Rows config tables b' (update requests id none) ∧ b'.reqIds = b.reqIds.set idx none ∧
      b'.reqIdToIndex = dictPop b.reqIdToIndex id ∧
      b.batchUpdateBuilder.isRemovedSorted = false ∧
      b'.batchUpdateBuilder = { b.batchUpdateBuilder with
        removed := b.batchUpdateBuilder.removed ++ [idx], batchChanged := true } := by
  obtain ⟨mapping, loraIds, loraRequests, rfl, hflag, hmapping, hleft⟩ := removeRequest_eq_ok hid hrun
  have hidx := (h.inverse.lookup id idx).mp hid
  obtain ⟨request, spec, hrequest, hrow⟩ := h.request_of_index hidx
  have hlora : b.requestLoraMapping idx = (request.loraRequest.map (·.loraIntId)).getD 0 :=
    congrArg BatchRow.loraId hrow
  refine ⟨?_, rfl, rfl, hflag, rfl⟩
  refine ⟨h.inverse.remove hid, fun x => ?_, fun x request spec hx => ?_, fun i x request spec hi hx => ?_,
    fun i hi => ?_, ?_, fun i hi => ?_, h.blocksPerKvBlock, h.maxNumBlocksPerReq,
    h.features.left hrequest hlora hleft⟩
  · change _ ↔ ((dictPop b.reqIdToIndex id).lookup x).isSome
    rw [lookup_dictPop]
    by_cases hx : x = id
    · simp [hx]
    · rw [update_of_ne hx, if_neg hx, h.known]
  · by_cases hxid : x = id
    · simp [hxid] at hx
    · rw [update_of_ne hxid] at hx
      exact h.reqId x request spec hx
  · change (b.reqIds.set idx none)[i]? = _ at hi
    have hne : idx ≠ i := by
      rintro rfl
      rw [getElem?_set_self (h.inverse.lt_length hid)] at hi
      cases hi
    rw [getElem?_set_ne hne] at hi
    have hxid : x ≠ id := by
      rintro rfl
      simp at hx
    rw [update_of_ne hxid] at hx
    rw [row_left_of_ne (Ne.symm hne) (hmapping i (Ne.symm hne))]
    exact h.row i x request spec hi hx
  · change (dictPop b.generators idx).lookup i = none ∧ (dictPop b.badWordsTokenIds idx).lookup i = none
    change ∀ x, (b.reqIds.set idx none)[i]? ≠ _ at hi
    rw [lookup_dictPop, lookup_dictPop]
    by_cases hii : i = idx
    · simp [hii]
    · rw [if_neg hii, if_neg hii]
      refine h.unused i fun x hx => hi x ?_
      rwa [getElem?_set_ne (Ne.symm hii)]
  · change (b.reqIds.set idx none).length ≤ (b.specTokenIds.set idx []).length
    simpa using h.spec_length
  · change ((b.specTokenIds.set idx [])[i]?).getD [] = []
    change (b.reqIds.set idx none).length ≤ i at hi
    rw [length_set] at hi
    have hne : idx ≠ i := by
      have := h.inverse.lt_length hid
      omega
    rw [getElem?_set_ne hne]
    exact h.spec_beyond i hi

lemma spec_entered (hle : idx ≤ b.reqIds.length) :
    (setOrAppend (idx = b.reqIds.length) b.specTokenIds idx [])[idx]? = some [] := by
  have hlength := h.spec_length
  unfold setOrAppend
  by_cases heq : idx = b.reqIds.length
  · -- the list of the draft tokens may be longer, with empty entries
    simp only [heq, decide_true, if_true, getElem?_append]
    split
    · rename_i hlt
      have hbeyond := h.spec_beyond b.reqIds.length le_rfl
      rw [getElem?_eq_getElem hlt] at hbeyond ⊢
      exact congrArg some hbeyond
    · simp [show b.reqIds.length = b.specTokenIds.length by omega]
  · simp [heq, show idx < b.specTokenIds.length by omega]

/-- Something is written for the requests, and each row that holds one changes in the same way. -/
lemma write {f : String → RowUpdates → RowUpdates} (hids : b'.reqIds = b.reqIds)
    (hindex : b'.reqIdToIndex = b.reqIdToIndex) (hstores : b'.generators = b.generators ∧
      b'.badWordsTokenIds = b.badWordsTokenIds) (htables : b'.blockTable = b.blockTable)
    (hlength : b.reqIds.length ≤ b'.specTokenIds.length)
    (hbeyond : ∀ i, b.reqIds.length ≤ i → (b'.specTokenIds[i]?).getD [] = []) (hsame : SameRequests b b')
    (hrow : ∀ i id request spec, b.reqIds[i]? = some (some id) → requests id = some (request, spec) →
      b.row i = request.row config (tables.map (·.blocksPerKvBlock)) spec →
        b'.row i = request.row config (tables.map (·.blocksPerKvBlock)) (f id spec)) :
    Rows config tables b' (requests.write f) := by
  have hentry {x : String} {request : CachedRequestState γ} {spec : RowUpdates}
      (hx : requests.write f x = some (request, spec)) :
      ∃ old, requests x = some (request, old) ∧ f x old = spec := by
    obtain ⟨⟨request', old⟩, hold, heq⟩ := Option.map_eq_some_iff.mp hx
    cases heq
    exact ⟨old, hold, rfl⟩
  refine ⟨by rw [hids, hindex]; exact h.inverse, fun x => ?_, fun x request spec hx => ?_,
    fun i x request spec hi hx => ?_, fun i hi => ?_, by rwa [hids], by rwa [hids],
    by rw [htables]; exact h.blocksPerKvBlock, by rw [htables]; exact h.maxNumBlocksPerReq,
    (h.features.write f).congr hsame⟩
  · rw [BatchRequests.write, Option.isSome_map, hindex]
    exact h.known x
  · obtain ⟨old, hold, -⟩ := hentry hx
    exact h.reqId x request old hold
  · obtain ⟨old, hold, rfl⟩ := hentry hx
    rw [hids] at hi
    exact hrow i x request old hi hold (h.row i x request old hi hold)
  · rw [hstores.1, hstores.2]
    exact h.unused i fun id => by rw [← hids]; exact hi id

/-- The numbers of accepted tokens are written at the indices of the requests. -/
lemma accept (numAcceptedTokens : List ℕ) :
    Rows config tables (b.setNumAcceptedTokens numAcceptedTokens) (requests.accept b numAcceptedTokens) := by
  refine h.write rfl rfl ⟨rfl, rfl⟩ rfl h.spec_length h.spec_beyond (by constructor <;> rfl)
    fun i id request spec hi _ hrow => ?_
  have hindex := (h.inverse.lookup id i).mpr hi
  rw [hindex, Option.bind_some]
  have hnum : b.numAcceptedTokensCpu i = spec.numAcceptedTokens := congrArg BatchRow.numAcceptedTokens hrow
  have hset : (b.setNumAcceptedTokens numAcceptedTokens).row i = { b.row i with
      numAcceptedTokens := (numAcceptedTokens[i]?).getD (b.numAcceptedTokensCpu i) } := rfl
  rw [hset, hrow, hnum]
  rfl

/-- The draft tokens of a request are replaced. -/
lemma draft {spec' : List TokenId}
    (hrun : b.updateReqSpecTokenIds config id spec' = .ok b') :
    Rows config tables b' (requests.draft id spec') ∧
      b'.reqIds = b.reqIds ∧ b'.reqIdToIndex = b.reqIdToIndex ∧
      b'.batchUpdateBuilder = b.batchUpdateBuilder := by
  cases hlookup : b.reqIdToIndex.lookup id with
  | none =>
    unfold updateReqSpecTokenIds at hrun
    rw [hlookup] at hrun
    cases hrun
  | some idx =>
    have hidx := (h.inverse.lookup id idx).mp hlookup
    have hlt := h.inverse.lt_length hlookup
    obtain ⟨tokenIdsCpu, rfl, hself, hother⟩ :=
      updateReqSpecTokenIds_eq_ok hlookup (lt_of_lt_of_le hlt h.spec_length) hrun
    refine ⟨h.write rfl rfl ⟨rfl, rfl⟩ rfl ?_ (fun i hi => ?_) (by constructor <;> first | rfl | simp)
      fun i x request spec hi _ hrow => ?_, rfl, rfl, rfl⟩
    · change b.reqIds.length ≤ (b.specTokenIds.set idx spec').length
      simpa using h.spec_length
    · change ((b.specTokenIds.set idx spec')[i]?).getD [] = []
      rw [getElem?_set_ne (by omega)]
      exact h.spec_beyond i hi
    · by_cases hxid : x = id
      · subst hxid
        have hi' := (h.inverse.lookup x i).mpr hi
        obtain rfl : idx = i := Option.some.inj (hlookup.symm.trans hi')
        rw [hself, hrow, if_pos rfl]
        rfl
      · have hii : i ≠ idx := by
          rintro rfl
          rw [hidx] at hi
          exact hxid (Option.some.inj (Option.some.inj hi)).symm
        rw [hother i hii, hrow, if_neg hxid]

/-- A request enters at an index that holds none: in the place of one that was removed, or at the end. -/
lemma add (hnew : requests request.reqId = none)
    (hfits : request.Fits config tables) (hfree : ∀ x, b.reqIds[idx]? ≠ some (some x))
    (hle : idx ≤ b.reqIds.length) (hpop : idx = b.batchUpdateBuilder.popRemoved.1.getD b.numReqs)
    (hrun : b.addRequest config request = .ok b') :
    Rows config tables b' (update requests request.reqId (some (request, {}))) ∧
      b'.reqIds = setOrAppend (idx = b.reqIds.length) b.reqIds idx (some request.reqId) ∧
      b'.reqIdToIndex = dictSet b.reqIdToIndex request.reqId idx ∧
      b'.batchUpdateBuilder = b.batchUpdateBuilder.popRemoved.2.register request idx := by
  obtain ⟨idx', tokenRow, isRow, reqPromptEmbeds, blockTable, hidx', hmap, hrows, rfl⟩ :=
    addRequest_eq_ok hfits.tokens hrun
  obtain rfl : idx' = idx := hidx'.trans hpop.symm
  obtain ⟨hself, hother, hper, hwidth⟩ := BlockTable.addRows_eq_ok
    (hfits.blocks.congr h.blocksPerKvBlock h.maxNumBlocksPerReq) hrows
  have hunknown : b.reqIdToIndex.lookup request.reqId = none := by
    rw [← Option.not_isSome_iff_eq_none, ← h.known, hnew]
    simp
  obtain ⟨hgenerator, hbadWords⟩ := h.unused idx' hfree
  refine ⟨?_, rfl, rfl, rfl⟩
  refine ⟨h.inverse.enter hunknown hfree (getElem?_setOrAppend_self hle _)
      fun i hi => getElem?_setOrAppend_of_ne hi _,
    fun x => ?_, fun x request' spec hx => ?_, fun i x request' spec hi hx => ?_, fun i hi => ?_, ?_,
    fun i hi => ?_, hper.trans h.blocksPerKvBlock, hwidth.trans h.maxNumBlocksPerReq,
    h.features.entered hnew⟩
  · change _ ↔ ((dictSet b.reqIdToIndex request.reqId idx').lookup x).isSome
    rw [lookup_dictSet]
    by_cases hx : x = request.reqId
    · simp [hx]
    · rw [update_of_ne hx, if_neg hx, h.known]
  · by_cases hxid : x = request.reqId
    · subst hxid
      rw [update_self] at hx
      rw [← (Prod.mk.inj (Option.some.inj hx)).1]
    · rw [update_of_ne hxid] at hx
      exact h.reqId x request' spec hx
  · change (setOrAppend (idx' = b.reqIds.length) b.reqIds idx' (some request.reqId))[i]? = _ at hi
    by_cases hii : i = idx'
    · subst hii
      rw [getElem?_setOrAppend_self hle] at hi
      cases Option.some.inj hi
      rw [update_self] at hx
      cases hx
      rw [row_entered_self (h.spec_entered hle) hgenerator hbadWords hmap hself, h.blocksPerKvBlock]
    · rw [getElem?_setOrAppend_of_ne hii] at hi
      have hxid : x ≠ request.reqId := by
        rintro rfl
        have := (h.inverse.lookup _ i).mpr hi
        rw [hunknown] at this
        cases this
      rw [update_of_ne hxid] at hx
      have hlt := lt_of_getElem? hi
      have hspec := getElem?_setOrAppend_of_lt (decide (idx' = b.reqIds.length)) hii
        (lt_of_lt_of_le hlt h.spec_length) []
      rw [row_entered_of_ne hii hspec (hother i hii)]
      exact h.row i x request' spec hi hx
  · change ∀ x, (setOrAppend (idx' = b.reqIds.length) b.reqIds idx' (some request.reqId))[i]? ≠ _ at hi
    have hii : i ≠ idx' := by
      rintro rfl
      exact hi request.reqId (getElem?_setOrAppend_self hle _)
    rw [(lookup_entered_of_ne hii).1, (lookup_entered_of_ne hii).2]
    refine h.unused i fun x hx => hi x ?_
    rwa [getElem?_setOrAppend_of_ne hii]
  · change (setOrAppend _ b.reqIds idx' _).length ≤ (setOrAppend _ b.specTokenIds idx' _).length
    rw [length_setOrAppend, length_setOrAppend]
    exact Nat.add_le_add_right h.spec_length _
  · change (setOrAppend _ b.reqIds idx' _).length ≤ i at hi
    change ((setOrAppend _ b.specTokenIds idx' [])[i]?).getD [] = []
    rw [length_setOrAppend] at hi
    have hbeyond := h.spec_beyond i ((Nat.le_add_right _ _).trans hi)
    unfold setOrAppend
    split
    · rw [getElem?_append]
      split
      · exact hbeyond
      · cases i - b.specTokenIds.length <;> rfl
    · rename_i hflag
      have hne : idx' ≠ b.reqIds.length := by simpa using hflag
      rw [getElem?_set_ne (by omega)]
      exact hbeyond

/-- A request moves down into an index that holds none. -/
lemma move {last empty : ℕ} (hlast : b.reqIds[last]? = some (some id)) (hempty : b.reqIds[empty]? = some none)
    (hrun : b.moveDown last empty = .ok b') :
    Rows config tables b' requests ∧ b'.reqIds = (b.reqIds.set empty (some id)).set last none ∧
      b'.reqIdToIndex = dictSet b.reqIdToIndex id empty ∧
      b'.batchUpdateBuilder = { b.batchUpdateBuilder with
        moved := b.batchUpdateBuilder.moved ++ [(last, empty, .unidirectional)] } := by
  have hne : last ≠ empty := by
    rintro rfl
    rw [hlast] at hempty
    cases hempty
  have hlastLt := lt_of_getElem? hlast
  have hemptyLt := lt_of_getElem? hempty
  obtain ⟨hgenerator, hbadWords⟩ := h.unused empty fun x hx => by
    rw [hempty] at hx
    cases hx
  obtain ⟨hids, hindex, hbuilder, hsame, hself, hgone, hother⟩ := moveDown_eq_ok hlast hne
    (lt_of_lt_of_le hlastLt h.spec_length) (lt_of_lt_of_le hemptyLt h.spec_length) hgenerator hbadWords hrun
  have hlookup := (h.inverse.lookup id last).mpr hlast
  refine ⟨?_, hids, hindex, hbuilder⟩
  refine ⟨?_, fun x => ?_, h.reqId, fun i x request spec hi hx => ?_, fun i hi => ?_, ?_, fun i hi => ?_,
    hsame.blocksPerKvBlock.trans h.blocksPerKvBlock, hsame.maxNumBlocksPerReq.trans h.maxNumBlocksPerReq,
    h.features.congr hsame⟩
  · rw [hids, hindex]
    exact h.inverse.move hlast hempty
  · rw [hindex, lookup_dictSet, h.known]
    by_cases hx : x = id
    · subst hx
      simp [hlookup]
    · rw [if_neg hx]
  · rw [hids] at hi
    by_cases hil : last = i
    · subst hil
      rw [getElem?_set_self (by simpa using hlastLt)] at hi
      cases hi
    · rw [getElem?_set_ne hil] at hi
      by_cases hie : empty = i
      · subst hie
        rw [getElem?_set_self hemptyLt] at hi
        cases Option.some.inj hi
        rw [hself]
        exact h.row last id request spec hlast hx
      · rw [getElem?_set_ne hie] at hi
        rw [hother i (Ne.symm hil) (Ne.symm hie)]
        exact h.row i x request spec hi hx
  · rw [hids] at hi
    by_cases hil : last = i
    · subst hil
      exact hgone
    · have hie : empty ≠ i := by
        rintro rfl
        refine hi id ?_
        rw [getElem?_set_ne hil, getElem?_set_self hemptyLt]
      have hrow := hother i (Ne.symm hil) (Ne.symm hie)
      have hunused := h.unused i fun x hx => hi x (by
        rwa [getElem?_set_ne hil, getElem?_set_ne hie])
      have hgenerators : b'.generators.lookup i = b.generators.lookup i := congrArg BatchRow.generator hrow
      have hwords : b'.badWordsTokenIds.lookup i = b.badWordsTokenIds.lookup i :=
        congrArg BatchRow.badWords hrow
      rwa [hgenerators, hwords]
  · rw [hids, hsame.spec_length]
    simpa using h.spec_length
  · rw [hids, length_set, length_set] at hi
    have hrow := congrArg BatchRow.specTokenIds (hother i (by omega) (by omega))
    have hspec : b'.specTokenIds[i]? = b.specTokenIds[i]? := hrow
    rw [hspec]
    exact h.spec_beyond i hi

/-- Two requests change places. -/
lemma swap {i1 i2 : ℕ} (hrun : b.swapStates i1 i2 = .ok b') :
    Rows config tables b' requests ∧ b'.reqIds = swapItems b.reqIds i1 i2 ∧
      (∃ id1 id2, b.reqIds[i1]? = some (some id1) ∧ b.reqIds[i2]? = some (some id2)) ∧
      b'.batchUpdateBuilder = { b.batchUpdateBuilder with
        moved := b.batchUpdateBuilder.moved ++ [(i1, i2, .swap)] } := by
  obtain ⟨id1, id2, h1, h2, hids, hindex, hbuilder, hsame, hrow⟩ :=
    swapStates_eq_ok h.inverse h.spec_length hrun
  have hlt1 := lt_of_getElem? h1
  have hlt2 := lt_of_getElem? h2
  have hentry : ∀ i, b'.reqIds[i]? = b.reqIds[Equiv.swap i1 i2 i]? := by
    intro i
    rw [hids, getElem?_swapItems hlt1 hlt2]
  refine ⟨?_, hids, ⟨id1, id2, h1, h2⟩, hbuilder⟩
  refine ⟨?_, fun x => ?_, h.reqId, fun i x request spec hi hx => ?_, fun i hi => ?_, ?_, fun i hi => ?_,
    hsame.blocksPerKvBlock.trans h.blocksPerKvBlock, hsame.maxNumBlocksPerReq.trans h.maxNumBlocksPerReq,
    h.features.congr hsame⟩
  · rw [hids, hindex]
    exact h.inverse.swap h1 h2
  · rw [hindex, lookup_dictSet, lookup_dictSet, h.known]
    by_cases hx2 : x = id2
    · subst hx2
      simp [(h.inverse.lookup x i2).mpr h2]
    · rw [if_neg hx2]
      by_cases hx1 : x = id1
      · subst hx1
        simp [(h.inverse.lookup x i1).mpr h1]
      · rw [if_neg hx1]
  · rw [hentry] at hi
    rw [hrow]
    exact h.row _ x request spec hi hx
  · have hunused := h.unused (Equiv.swap i1 i2 i) fun x hx => hi x (by rwa [hentry])
    have hgenerators : b'.generators.lookup i = b.generators.lookup (Equiv.swap i1 i2 i) :=
      congrArg BatchRow.generator (hrow i)
    have hwords : b'.badWordsTokenIds.lookup i = b.badWordsTokenIds.lookup (Equiv.swap i1 i2 i) :=
      congrArg BatchRow.badWords (hrow i)
    rwa [hgenerators, hwords]
  · rw [hids, hsame.spec_length, length_swapItems]
    exact h.spec_length
  · rw [hids, length_swapItems] at hi
    have hspec : b'.specTokenIds[i]? = b.specTokenIds[Equiv.swap i1 i2 i]? :=
      congrArg BatchRow.specTokenIds (hrow i)
    rw [hspec, Equiv.swap_apply_of_ne_of_ne (by omega) (by omega)]
    exact h.spec_beyond i hi

/-- The changes of a step are not part of the rows. -/
lemma withBuilder (builder : BatchUpdateBuilder) :
    Rows config tables { b with batchUpdateBuilder := builder } requests :=
  ⟨h.inverse, h.known, h.reqId, h.row, h.unused, h.spec_length, h.spec_beyond, h.blocksPerKvBlock,
    h.maxNumBlocksPerReq, h.features.congr (by constructor <;> rfl)⟩

end

end Rows

end InputBatch

end VllmRuntime
