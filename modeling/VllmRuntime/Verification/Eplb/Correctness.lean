import VllmRuntime.Verification.Eplb.Schedule

/-! # Every row gets the weights of its expert -/

namespace VllmRuntime.Eplb

open List

variable {τ : Type} {numRanks numLocalExperts : ℕ} {oldIndices newIndices : List ℤ}

/-! ## Writing rows -/

lemma foldl_setRow (rows : List ℕ) (values : ℕ → ℕ → τ) (weights : ExpertWeights τ) (tensor row : ℕ) :
    rows.foldl (fun weights dst => setRow weights dst (values dst)) weights tensor row =
      if row ∈ rows then values row tensor else weights tensor row := by
  induction rows using List.reverseRecOn with
  | nil => rfl
  | append_singleton rows last ih =>
    rw [foldl_append, foldl_cons, foldl_nil, setRow, ih]
    by_cases hlast : row = last
    · simp [hlast]
    · simp [hlast]

/-- Rows that are moved from a source, if there is one. -/
lemma foldl_moveRow {rows : List ℕ} (source : ℕ → Option ℕ) (weights buffers : ExpertWeights τ) (tensor : ℕ)
    {row src : ℕ} (hrow : row ∈ rows) (hsrc : source row = some src) :
    rows.foldl (fun buffers dst =>
      match source dst with
      | some src => setRow buffers dst fun tensor => weights tensor src
      | none => buffers) buffers tensor row = weights tensor src := by
  induction rows using List.reverseRecOn with
  | nil => cases hrow
  | append_singleton rows last ih =>
    rw [foldl_append, foldl_cons, foldl_nil]
    by_cases hlast : row = last
    · subst hlast
      rw [hsrc]
      exact if_pos rfl
    · have hprev := ih ((mem_append.1 hrow).resolve_right (by simpa using hlast))
      cases source last with
      | none => exact hprev
      | some other => exact (if_neg hlast).trans hprev

/-- Rows that are copied from other rows, none of which is written. -/
lemma foldl_copyRow {entries : List (ℕ × ℕ)} (weights : ExpertWeights τ) (tensor row : ℕ)
    (hsrc : ∀ entry ∈ entries, ∀ other ∈ entries, entry.2 ≠ other.1) :
    (row ∉ entries.map Prod.fst →
        entries.foldl (fun weights entry => setRow weights entry.1 fun tensor => weights tensor entry.2) weights tensor
          row = weights tensor row) ∧
      ∀ value, row ∈ entries.map Prod.fst → (∀ entry ∈ entries, entry.1 = row → weights tensor entry.2 = value) →
        entries.foldl (fun weights entry => setRow weights entry.1 fun tensor => weights tensor entry.2) weights tensor
          row = value := by
  induction entries using List.reverseRecOn generalizing row with
  | nil => exact ⟨fun _ => rfl, fun _ hmem => absurd hmem not_mem_nil⟩
  | append_singleton entries last ih =>
    have hprev (row : ℕ) := ih row fun entry hmem other hother =>
      hsrc entry (mem_append_left _ hmem) other (mem_append_left _ hother)
    have hlastSrc : last.2 ∉ entries.map Prod.fst := by
      intro hmem
      obtain ⟨other, hother, heq⟩ := mem_map.1 hmem
      exact hsrc last (by simp) other (mem_append_left _ hother) heq.symm
    rw [foldl_append, foldl_cons, foldl_nil, setRow, (hprev last.2).1 hlastSrc]
    by_cases hlast : row = last.1
    · rw [if_pos hlast]
      refine ⟨fun hnot => absurd (by simp [hlast]) hnot, ?_⟩
      intro value _ hvalue
      exact hvalue last (by simp) hlast.symm
    · rw [if_neg hlast]
      rw [map_append, mem_append]
      refine ⟨fun hnot => (hprev row).1 fun hmem => hnot (.inl hmem), ?_⟩
      intro value hmem hvalue
      refine (hprev row).2 value ?_ fun entry hentry => hvalue entry (mem_append_left _ hentry)
      exact hmem.resolve_right (by simpa using hlast)

/-- Messages that are written where they are received. -/
lemma foldl_receive {messages : List ((ℕ × ℕ) × τ)} (buffers : ExpertWeights τ) (tensor row : ℕ) :
    ((∀ message ∈ messages, message.1 ≠ (tensor, row)) →
        messages.foldl (fun buffers message tensor row =>
          if tensor = message.1.1 ∧ row = message.1.2 then message.2 else buffers tensor row) buffers tensor row =
            buffers tensor row) ∧
      ∀ value, (∃ message ∈ messages, message.1 = (tensor, row)) →
        (∀ message ∈ messages, message.1 = (tensor, row) → message.2 = value) →
          messages.foldl (fun buffers message tensor row =>
            if tensor = message.1.1 ∧ row = message.1.2 then message.2 else buffers tensor row) buffers tensor row =
              value := by
  induction messages using List.reverseRecOn with
  | nil => exact ⟨fun _ => rfl, fun _ hmem => absurd hmem (by simp)⟩
  | append_singleton messages last ih =>
    have hhere : tensor = last.1.1 ∧ row = last.1.2 ↔ last.1 = (tensor, row) := by
      rw [Prod.ext_iff]
      exact and_congr eq_comm eq_comm
    rw [foldl_append, foldl_cons, foldl_nil]
    by_cases hlast : last.1 = (tensor, row)
    · rw [if_pos (hhere.2 hlast)]
      exact ⟨fun hnone => absurd hlast (hnone last (by simp)), fun value _ hvalue => hvalue last (by simp) hlast⟩
    · rw [if_neg fun h => hlast (hhere.1 h)]
      refine ⟨fun hnone => ih.1 fun message hmem => hnone message (mem_append_left _ hmem), ?_⟩
      rintro value ⟨message, hmem, hat⟩ hvalue
      refine ih.2 value ⟨message, ?_, hat⟩ fun other hother => hvalue other (mem_append_left _ hother)
      rcases mem_append.1 hmem with hmem | hmem
      · exact hmem
      · obtain rfl := mem_singleton.1 hmem
        exact absurd hat hlast

/-! ## The messages of two ranks -/

/-- The operations of a rank with these transfers. -/
def opsOf (numTensors : ℕ) (weights : ExpertWeights τ) (sends recvs : List Transfer) : List (P2POp τ) :=
  (sends.flatMap fun transfer => (List.range numTensors).map fun tensor =>
    .isend (weights tensor transfer.row) transfer.peer) ++
  recvs.flatMap fun transfer => (List.range numTensors).map fun tensor => .irecv tensor transfer.row transfer.peer

lemma flatMap_filter_peer {β : Type*} {f g : Transfer → List β} {peer : ℕ}
    (h : ∀ transfer, f transfer = if transfer.peer = peer then g transfer else []) (transfers : List Transfer) :
    transfers.flatMap f = (transfers.filter (·.peer = peer)).flatMap g := by
  induction transfers with
  | nil => rfl
  | cons transfer transfers ih =>
    rw [flatMap_cons, ih, h, filter_cons]
    by_cases hpeer : transfer.peer = peer
    · simp [hpeer]
    · simp [hpeer]

lemma sentTo_opsOf (numTensors : ℕ) (weights : ExpertWeights τ) (sends recvs : List Transfer) (peer : ℕ) :
    sentTo (opsOf numTensors weights sends recvs) peer = (sends.filter (·.peer = peer)).flatMap fun transfer =>
      (range numTensors).map fun tensor => weights tensor transfer.row := by
  rw [opsOf, sentTo, filterMap_append, filterMap_flatMap, filterMap_flatMap]
  refine (append_right_eq_self.mpr ?_).trans (flatMap_filter_peer (fun transfer => ?_) sends)
  · simp [filterMap_map]
  · by_cases hpeer : transfer.peer = peer <;> simp [hpeer, filterMap_map]

lemma receivedFrom_opsOf (numTensors : ℕ) (weights : ExpertWeights τ) (sends recvs : List Transfer) (peer : ℕ) :
    receivedFrom (opsOf numTensors weights sends recvs) peer = (recvs.filter (·.peer = peer)).flatMap fun transfer =>
      (range numTensors).map fun tensor => (tensor, transfer.row) := by
  rw [opsOf, receivedFrom, filterMap_append, filterMap_flatMap, filterMap_flatMap]
  refine (append_left_eq_self.mpr ?_).trans (flatMap_filter_peer (fun transfer => ?_) recvs)
  · simp [filterMap_map]
  · by_cases hpeer : transfer.peer = peer <;> simp [hpeer, filterMap_map]

section Messages

variable {sends recvs : List Transfer} (numTensors : ℕ) (weights : ExpertWeights τ)

section

variable (hexperts : sends.map (·.expert) = recvs.map (·.expert))
include hexperts

lemma length_messages :
    (recvs.flatMap fun transfer => (range numTensors).map fun tensor => (tensor, transfer.row)).length =
      (sends.flatMap fun transfer => (range numTensors).map fun tensor => weights tensor transfer.row).length := by
  have hlength := congrArg List.length hexperts
  rw [length_map, length_map] at hlength
  simp [length_flatMap, hlength]

/-- A message carries a row of the expert for which the receiver has posted the receive. -/
lemma mem_messages {message : (ℕ × ℕ) × τ}
    (hmem : message ∈ (recvs.flatMap fun transfer =>
      (range numTensors).map fun tensor => (tensor, transfer.row)).zip
        (sends.flatMap fun transfer => (range numTensors).map fun tensor => weights tensor transfer.row)) :
    ∃ recv ∈ recvs, ∃ send ∈ sends, send.expert = recv.expert ∧ ∃ tensor < numTensors,
      message = ((tensor, recv.row), weights tensor send.row) := by
  induction sends generalizing recvs with
  | nil => simp at hmem
  | cons send sends ih =>
    cases recvs with
    | nil => simp at hmem
    | cons recv recvs =>
      obtain ⟨hexpert, hrest⟩ := cons.inj hexperts
      rw [flatMap_cons, flatMap_cons, zip_append (by simp)] at hmem
      rcases mem_append.1 hmem with hmem | hmem
      · rw [zip_map', mem_map] at hmem
        obtain ⟨tensor, htensor, rfl⟩ := hmem
        exact ⟨recv, mem_cons_self, send, mem_cons_self, hexpert, tensor, mem_range.1 htensor, rfl⟩
      · obtain ⟨recv', hrecv, send', hsend, heq, tensor, htensor, hmessage⟩ := ih hrest hmem
        exact ⟨recv', mem_cons_of_mem _ hrecv, send', mem_cons_of_mem _ hsend, heq, tensor, htensor,
          hmessage⟩

/-- Every receive gets a message. -/
lemma exists_message {recv : Transfer} (hrecv : recv ∈ recvs)
    {tensor : ℕ} (htensor : tensor < numTensors) :
    ∃ message ∈ (recvs.flatMap fun transfer =>
      (range numTensors).map fun tensor => (tensor, transfer.row)).zip
        (sends.flatMap fun transfer => (range numTensors).map fun tensor => weights tensor transfer.row),
      message.1 = (tensor, recv.row) := by
  have hmem : (tensor, recv.row) ∈ recvs.flatMap fun transfer =>
      (range numTensors).map fun tensor => (tensor, transfer.row) :=
    mem_flatMap.2 ⟨recv, hrecv, mem_map.2 ⟨tensor, mem_range.2 htensor, rfl⟩⟩
  rw [← map_fst_zip (length_messages numTensors weights hexperts).le] at hmem
  obtain ⟨message, hmessage, heq⟩ := mem_map.1 hmem
  exact ⟨message, hmessage, heq⟩

end

end Messages

/-! ## Duplicates -/

/-- The primary row of an expert is found by its place among the sorted experts. -/
lemma primaryRow_eq {rows : List (ℤ × ℕ)} (hsorted : rows.Pairwise (·.1 < ·.1)) {entry : ℤ × ℕ}
    (hmem : entry ∈ rows) : primaryRow rows entry.1 = some entry.2 := by
  have hget : rows[searchsorted (rows.map Prod.fst) entry.1]? = some entry := by
    induction rows with
    | nil => cases hmem
    | cons first rows ih =>
      obtain ⟨hfirst, hrest⟩ := pairwise_cons.1 hsorted
      rw [map_cons, searchsorted, countP_cons]
      rcases mem_cons.1 hmem with rfl | hmem
      · have hzero : (rows.map Prod.fst).countP (· < entry.1) = 0 := by
          rw [countP_eq_zero]
          intro expert hexpert
          obtain ⟨other, hother, rfl⟩ := mem_map.1 hexpert
          simpa using (hfirst other hother).le
        simp [hzero]
      · have hlt := hfirst entry hmem
        simp only [hlt, decide_true, if_true, getElem?_cons_succ]
        exact ih hrest hmem
  rw [primaryRow, hget]
  exact if_pos rfl

section MoveFromBuffer

variable {numLocalExperts : ℕ} {newIndices : List ℤ} {epRank : ℕ} {isUnchanged isReceivedLocally : ℕ → Bool}
  {rows : List (ℤ × ℕ)} (weights buffers : ExpertWeights τ) {src row : ℕ} {entry : ℕ × ℕ}

/-- The metadata of these rows. -/
def metadataOf (rows : List (ℤ × ℕ)) : RecvMetadata where
  recvPrimaryMask := fun row => row ∈ rows.map Prod.snd
  recvRows := rows

/-- The primary rows are no duplicates of others. -/
lemma row_of_primaryRow {expert : ℤ} (h : primaryRow (sortByExpert rows) expert = some src) :
    src ∈ rows.map Prod.snd := by
  unfold primaryRow at h
  split at h
  · rename_i entry hget
    split at h
    · cases h
      exact mem_map_of_mem ((mem_insertionSort _).1 (mem_of_getElem? hget))
    · cases h
  · cases h

/-- The rows that `move_from_buffer` copies from primary rows. -/
def duplicates (numLocalExperts : ℕ) (newIndices : List ℤ) (epRank : ℕ) (isUnchanged isReceivedLocally : ℕ → Bool)
    (rows : List (ℤ × ℕ)) : List (ℕ × ℕ) :=
  ((List.range numLocalExperts).filter fun row => (!isUnchanged row && !isReceivedLocally row) &&
    (!decide (row ∈ rows.map Prod.snd) && localExpert numLocalExperts newIndices epRank row ≠ -1)).filterMap fun dst =>
      (primaryRow (sortByExpert rows) (localExpert numLocalExperts newIndices epRank dst)).map fun src => (dst, src)

lemma of_mem_duplicates
    (h : entry ∈ duplicates numLocalExperts newIndices epRank isUnchanged isReceivedLocally rows) :
    isUnchanged entry.1 = false ∧ isReceivedLocally entry.1 = false ∧ entry.1 ∉ rows.map Prod.snd ∧
      primaryRow (sortByExpert rows) (localExpert numLocalExperts newIndices epRank entry.1) = some entry.2 := by
  obtain ⟨dst, hdst, hentry⟩ := mem_filterMap.1 h
  obtain ⟨src, hsrc, rfl⟩ := Option.map_eq_some_iff.1 hentry
  simp only [mem_filter, Bool.and_eq_true, Bool.not_eq_true', decide_eq_false_iff_not] at hdst
  exact ⟨hdst.2.1.1, hdst.2.1.2, hdst.2.2.1, hsrc⟩

/-- Without received rows there are no duplicates. -/
lemma moveFromBuffer_eq :
    moveFromBuffer numLocalExperts weights buffers isUnchanged isReceivedLocally (metadataOf rows) newIndices epRank =
      (duplicates numLocalExperts newIndices epRank isUnchanged isReceivedLocally rows).foldl
        (fun weights entry => setRow weights entry.1 fun tensor => weights tensor entry.2)
        (((range numLocalExperts).filter fun row =>
          !isUnchanged row && (isReceivedLocally row || row ∈ rows.map Prod.snd)).foldl
            (fun weights dst => setRow weights dst fun tensor => buffers tensor dst) weights) := by
  by_cases hnil : rows = []
  · have hnone : duplicates numLocalExperts newIndices epRank isUnchanged isReceivedLocally rows = [] := by
      rw [duplicates, filterMap_eq_nil_iff, hnil]
      exact fun _ _ => rfl
    rw [hnone]
    exact if_pos hnil
  · exact if_neg hnil

/-- No duplicate is copied from a row that is written after it is read. -/
lemma duplicates_snd_ne {other : ℕ × ℕ}
    (hentry : entry ∈ duplicates numLocalExperts newIndices epRank isUnchanged isReceivedLocally rows)
    (hother : other ∈ duplicates numLocalExperts newIndices epRank isUnchanged isReceivedLocally rows) :
    entry.2 ≠ other.1 := by
  intro heq
  exact (of_mem_duplicates hother).2.2.1 (heq ▸ row_of_primaryRow (of_mem_duplicates hentry).2.2.2)

/-- A row that is no duplicate is kept, or copied from the buffer. -/
lemma moveFromBuffer_of_not_duplicate (tensor : ℕ) (hrow : row < numLocalExperts)
    (hkept : isUnchanged row = true ∨ isReceivedLocally row = true ∨ row ∈ rows.map Prod.snd) :
    moveFromBuffer numLocalExperts weights buffers isUnchanged isReceivedLocally (metadataOf rows) newIndices epRank
      tensor row = if isUnchanged row then weights tensor row else buffers tensor row := by
  have hnot : row ∉ (duplicates numLocalExperts newIndices epRank isUnchanged isReceivedLocally rows).map Prod.fst := by
    intro hmem
    obtain ⟨entry, hentry, rfl⟩ := mem_map.1 hmem
    obtain ⟨hchanged, hremote, hprimary, -⟩ := of_mem_duplicates hentry
    rcases hkept with hkept | hkept | hkept
    · exact Bool.false_ne_true (hchanged.symm.trans hkept)
    · exact Bool.false_ne_true (hremote.symm.trans hkept)
    · exact hprimary hkept
  rw [moveFromBuffer_eq, (foldl_copyRow _ tensor row fun _ hentry _ hother => duplicates_snd_ne hentry hother).1 hnot,
    foldl_setRow _ fun dst tensor => buffers tensor dst]
  cases hunchanged : isUnchanged row with
  | true => simp [hunchanged]
  | false =>
    have hwritten : isReceivedLocally row = true ∨ row ∈ rows.map Prod.snd :=
      hkept.resolve_left (by simp [hunchanged])
    rw [if_pos, if_neg Bool.false_ne_true]
    exact mem_filter.2 ⟨mem_range.2 hrow, by simpa [hunchanged] using hwritten⟩

/-- A duplicate is copied from the buffer of its primary row. -/
lemma moveFromBuffer_of_duplicate (hsorted : rows.Pairwise (·.1 < ·.1)) (tensor : ℕ)
    (hrow : row < numLocalExperts) (hchanged : isUnchanged row = false)
    (hremote : isReceivedLocally row = false) (hprimary : row ∉ rows.map Prod.snd)
    (hexpert : localExpert numLocalExperts newIndices epRank row ≠ -1)
    (hentry : (localExpert numLocalExperts newIndices epRank row, src) ∈ rows) (hsrc : src < numLocalExperts)
    (hsrcChanged : isUnchanged src = false) :
    moveFromBuffer numLocalExperts weights buffers isUnchanged isReceivedLocally (metadataOf rows) newIndices epRank
      tensor row = buffers tensor src := by
  have hsort : sortByExpert rows = rows := List.Pairwise.insertionSort_eq (hsorted.imp le_of_lt)
  have hfound : primaryRow (sortByExpert rows) (localExpert numLocalExperts newIndices epRank row) = some src := by
    rw [hsort]
    exact primaryRow_eq hsorted hentry
  have hmem : (row, src) ∈ duplicates numLocalExperts newIndices epRank isUnchanged isReceivedLocally rows := by
    refine mem_filterMap.2 ⟨row, mem_filter.2 ⟨mem_range.2 hrow, ?_⟩, by rw [hfound]; rfl⟩
    simp [hchanged, hremote, hprimary, hexpert]
  rw [moveFromBuffer_eq]
  refine (foldl_copyRow _ tensor row fun _ hentry _ hother => duplicates_snd_ne hentry hother).2 _
    (mem_map_of_mem hmem) ?_
  rintro ⟨_, other⟩ hother rfl
  cases hfound.symm.trans (of_mem_duplicates hother).2.2.2
  rw [foldl_setRow _ fun dst tensor => buffers tensor dst, if_pos]
  refine mem_filter.2 ⟨mem_range.2 hsrc, ?_⟩
  simpa [hsrcChanged] using Or.inr (mem_map_of_mem (f := Prod.snd) hentry)

end MoveFromBuffer

/-! ## All ranks -/

/-- What `move_to_buffer` returns on a rank. -/
def movedOf (numTensors numLocalExperts : ℕ) (oldIndices newIndices : List ℤ) (epRank : ℕ)
    (weights buffers : ExpertWeights τ) : MoveToBuffer τ where
  isUnchanged := isUnchanged numLocalExperts oldIndices newIndices epRank
  isReceivedLocally := isReceivedLocally numLocalExperts oldIndices newIndices epRank
  recvMetadata := metadataOf (recvRows numLocalExperts oldIndices newIndices epRank)
  buffers := moveLocally numLocalExperts oldIndices newIndices epRank weights buffers
  sends := sendsOf numLocalExperts oldIndices newIndices epRank
  recvs := recvsOf numLocalExperts oldIndices newIndices epRank
  p2pOps := opsOf numTensors weights (sendsOf numLocalExperts oldIndices newIndices epRank)
    (recvsOf numLocalExperts oldIndices newIndices epRank)

section Ranks

variable {numRanks numTensors numLocalExperts : ℕ} {oldIndices newIndices : List ℤ}
  (hold : oldIndices.length = numRanks * numLocalExperts) (hnew : newIndices.length = numRanks * numLocalExperts)
  (hexperts : ∀ expert ∈ newIndices, expert ≠ -1 → expert ∈ oldIndices) {epRank tensor row : ℕ}
  {entry : ℤ × ℕ}

include hold hnew hexperts

lemma moveToBuffer_eq (epRank : ℕ) (weights buffers : ExpertWeights τ) :
    moveToBuffer numTensors numLocalExperts oldIndices newIndices epRank weights buffers =
      .ok (movedOf numTensors numLocalExperts oldIndices newIndices epRank weights buffers) := by
  simp only [moveToBuffer, pyAssert, hold, hnew, decide_true, if_true, postAll_sends hold,
    postAll_recvs hold hnew hexperts, bind, Except.bind, pure, Except.pure]
  rfl

/-- The sender of a row that a rank receives. -/
lemma recvPeer_mem_ranksOf (hmem : entry ∈ recvRows numLocalExperts oldIndices newIndices epRank) :
    recvPeer numLocalExperts oldIndices newIndices epRank entry.1 ∈ ranksOf numLocalExperts oldIndices entry.1 := by
  obtain ⟨hne, hrecv⟩ := (mem_recvRows hold hnew).1 (mem_map_of_mem (f := Prod.fst) hmem)
  exact ((mem_sendPeers_iff hexperts _ epRank hne).2 ⟨hrecv, rfl⟩).1

variable {weights buffers : ℕ → ExpertWeights τ} {expertWeights : ℤ → ℕ → τ}
  (hweights : ∀ rank < numRanks, ∀ row < numLocalExperts, localExpert numLocalExperts oldIndices rank row ≠ -1 →
    ∀ tensor < numTensors,
      weights rank tensor row = expertWeights (localExpert numLocalExperts oldIndices rank row) tensor)
  {moved : ℕ → MoveToBuffer τ}
  (hmoved : ∀ rank < numRanks,
    moved rank = movedOf numTensors numLocalExperts oldIndices newIndices rank (weights rank) (buffers rank))

include hmoved

omit hold hnew hexperts in
/-- The messages between two ranks are those of the transfers of the same experts. -/
lemma zip_messages {sender receiver : ℕ} (hsender : sender < numRanks) (hreceiver : receiver < numRanks) :
    (receivedFrom (moved receiver).p2pOps sender).zip (sentTo (moved sender).p2pOps receiver) =
      (((recvsOf numLocalExperts oldIndices newIndices receiver).filter (·.peer = sender)).flatMap fun transfer =>
        (range numTensors).map fun tensor => (tensor, transfer.row)).zip
      (((sendsOf numLocalExperts oldIndices newIndices sender).filter (·.peer = receiver)).flatMap fun transfer =>
        (range numTensors).map fun tensor => weights sender tensor transfer.row) := by
  rw [hmoved receiver hreceiver, hmoved sender hsender]
  exact congrArg₂ List.zip (receivedFrom_opsOf _ _ _ _ _) (sentTo_opsOf _ _ _ _ _)

include hweights

/-- A row that is received holds the weights of its expert. -/
lemma exchange_received (hrank : epRank < numRanks)
    (hmem : entry ∈ recvRows numLocalExperts oldIndices newIndices epRank) (htensor : tensor < numTensors) :
    exchange numRanks moved epRank tensor entry.2 = expertWeights entry.1 tensor := by
  refine (foldl_receive _ tensor entry.2).2 _ ?_ ?_
  · have hpeer := lt_of_mem_ranksOf hold (recvPeer_mem_ranksOf hold hnew hexperts hmem)
    have hrecv : (⟨entry.1, entry.2, recvPeer numLocalExperts oldIndices newIndices epRank entry.1⟩ : Transfer) ∈
        (recvsOf numLocalExperts oldIndices newIndices epRank).filter
          (·.peer = recvPeer numLocalExperts oldIndices newIndices epRank entry.1) :=
      mem_filter.2 ⟨mem_map.2 ⟨entry, hmem, rfl⟩, decide_eq_true rfl⟩
    obtain ⟨message, hmessage, hat⟩ := exists_message numTensors (weights _)
      (experts_eq hold hnew hexperts _ epRank) hrecv htensor
    rw [← zip_messages hmoved hpeer hrank] at hmessage
    exact ⟨message, mem_flatMap.2 ⟨_, mem_range.2 hpeer, hmessage⟩, hat⟩
  · intro message hmessage hat
    obtain ⟨peer, hpeer, hmessage⟩ := mem_flatMap.1 hmessage
    rw [zip_messages hmoved (mem_range.1 hpeer) hrank] at hmessage
    obtain ⟨recv, hrecv, send, hsend, hexpert, other, hother, rfl⟩ :=
      mem_messages numTensors (weights peer) (experts_eq hold hnew hexperts peer epRank) hmessage
    obtain ⟨rfl, hrow⟩ := Prod.mk.inj hat
    -- the row that is received decides the expert, on both sides
    obtain ⟨received, hreceived, rfl⟩ := mem_map.1 (mem_filter.1 hrecv).1
    obtain ⟨source, hsource, hsend⟩ := mem_flatMap.1 (mem_filter.1 hsend).1
    obtain ⟨dst, -, rfl⟩ := mem_map.1 hsend
    change source.1 = received.1 at hexpert
    have hsame : received.1 = entry.1 := by
      rw [← (of_mem_recvRows hreceived).2.2.1, ← (of_mem_recvRows hmem).2.2.1]
      exact congrArg _ hrow
    obtain ⟨hne, hlt, hlocal⟩ := of_mem_sendRows hsource
    have hvalue := hweights peer (mem_range.1 hpeer) source.2 hlt (hlocal ▸ hne) other hother
    rw [hlocal, hexpert, hsame] at hvalue
    exact hvalue

omit hweights in
/-- The other rows are left alone. -/
lemma exchange_other (hrank : epRank < numRanks)
    (hrow : row ∉ (recvRows numLocalExperts oldIndices newIndices epRank).map Prod.snd) (tensor : ℕ) :
    exchange numRanks moved epRank tensor row =
      moveLocally numLocalExperts oldIndices newIndices epRank (weights epRank) (buffers epRank) tensor row := by
  have hbuffers : (moved epRank).buffers =
      moveLocally numLocalExperts oldIndices newIndices epRank (weights epRank) (buffers epRank) := by
    rw [hmoved epRank hrank]
    rfl
  rw [← hbuffers]
  refine (foldl_receive _ tensor row).1 ?_
  intro message hmessage hat
  obtain ⟨peer, hpeer, hmessage⟩ := mem_flatMap.1 hmessage
  rw [zip_messages hmoved (mem_range.1 hpeer) hrank] at hmessage
  obtain ⟨recv, hrecv, _, -, -, _, -, rfl⟩ :=
    mem_messages numTensors (weights peer) (experts_eq hold hnew hexperts peer epRank) hmessage
  obtain ⟨received, hreceived, rfl⟩ := mem_map.1 (mem_filter.1 hrecv).1
  exact hrow (mem_map.2 ⟨received, hreceived, (Prod.mk.inj hat).2⟩)

omit hold hnew hexperts hmoved in
/-- A row that is filled from the local rows holds the weights of its expert. -/
lemma moveLocally_received (hrank : epRank < numRanks) (hrow : row < numLocalExperts)
    (hexpert : localExpert numLocalExperts newIndices epRank row ≠ -1)
    (hchanged : isUnchanged numLocalExperts oldIndices newIndices epRank row = false)
    (hlocal : isReceivedLocally numLocalExperts oldIndices newIndices epRank row = true)
    (htensor : tensor < numTensors) :
    moveLocally numLocalExperts oldIndices newIndices epRank (weights epRank) (buffers epRank) tensor row =
      expertWeights (localExpert numLocalExperts newIndices epRank row) tensor := by
  obtain ⟨src, hsrc, hmem⟩ := lookup_eq_some_of_mem
    (mem_sendRows.2 ⟨hexpert, (isReceivedLocally_iff hrow hexpert).1 hlocal⟩)
  obtain ⟨hne, hlt, hsame⟩ := of_mem_sendRows hmem
  have hvalue := hweights epRank hrank src hlt (hsame ▸ hne) tensor htensor
  rw [hsame] at hvalue
  refine (foldl_moveRow (fun dst => (sendRows numLocalExperts oldIndices epRank).lookup
    (localExpert numLocalExperts newIndices epRank dst)) (weights epRank) _ tensor ?_ hsrc).trans hvalue
  exact mem_filter.2 ⟨mem_range.2 hrow, by simp [hchanged, hlocal]⟩

/-- After `move_from_buffer`, each row holds the weights of its new expert. -/
lemma moveFromBuffer_row (hrank : epRank < numRanks) (hrow : row < numLocalExperts)
    (hexpert : localExpert numLocalExperts newIndices epRank row ≠ -1) (htensor : tensor < numTensors) :
    moveFromBuffer numLocalExperts (weights epRank) (exchange numRanks moved epRank)
        (isUnchanged numLocalExperts oldIndices newIndices epRank)
        (isReceivedLocally numLocalExperts oldIndices newIndices epRank)
        (metadataOf (recvRows numLocalExperts oldIndices newIndices epRank)) newIndices epRank tensor row =
      expertWeights (localExpert numLocalExperts newIndices epRank row) tensor := by
  have hof (entry : ℤ × ℕ) (hmem : entry ∈ recvRows numLocalExperts oldIndices newIndices epRank) :=
    of_mem_recvRows hmem
  have hchanged (row : ℕ) (h : isReceivedLocally numLocalExperts oldIndices newIndices epRank row = false) :
      isUnchanged numLocalExperts oldIndices newIndices epRank row = false :=
    (Bool.or_eq_false_iff.1 h).1
  cases hunchanged : isUnchanged numLocalExperts oldIndices newIndices epRank row with
  | true =>
    have hsame : localExpert numLocalExperts oldIndices epRank row = localExpert numLocalExperts newIndices epRank row :=
      of_decide_eq_true hunchanged
    rw [moveFromBuffer_of_not_duplicate _ _ tensor hrow (.inl hunchanged), if_pos hunchanged,
      hweights epRank hrank row hrow (hsame ▸ hexpert) tensor htensor, hsame]
  | false =>
    cases hlocal : isReceivedLocally numLocalExperts oldIndices newIndices epRank row with
    | true =>
      have hother : row ∉ (recvRows numLocalExperts oldIndices newIndices epRank).map Prod.snd := by
        intro hmem
        obtain ⟨entry, hentry, rfl⟩ := mem_map.1 hmem
        exact Bool.false_ne_true ((hof entry hentry).2.2.2.symm.trans hlocal)
      rw [moveFromBuffer_of_not_duplicate _ _ tensor hrow (.inr (.inl hlocal)), hunchanged,
        if_neg Bool.false_ne_true, exchange_other hold hnew hexperts hmoved hrank hother,
        moveLocally_received hweights hrank hrow hexpert hunchanged hlocal htensor]
    | false =>
      obtain ⟨entry, hentry, heq⟩ := mem_map.1 (mem_recvRows_of_row hrow hexpert hlocal)
      by_cases hprimary : row ∈ (recvRows numLocalExperts oldIndices newIndices epRank).map Prod.snd
      · obtain ⟨primary, hmem, rfl⟩ := mem_map.1 hprimary
        rw [moveFromBuffer_of_not_duplicate _ _ tensor hrow (.inr (.inr hprimary)), hunchanged,
          if_neg Bool.false_ne_true, exchange_received hold hnew hexperts hweights hmoved hrank hmem htensor,
          (hof primary hmem).2.2.1]
      · obtain ⟨-, hsrc, -, hremote⟩ := hof entry hentry
        rw [← heq, ← exchange_received hold hnew hexperts hweights hmoved hrank hentry htensor]
        exact moveFromBuffer_of_duplicate _ _ (pairwise_firstRows _) tensor hrow hunchanged hlocal hprimary hexpert
          (heq ▸ hentry) hsrc (hchanged _ hremote)

end Ranks

/-- The sends to a rank and the receives from one are as many messages for each tensor. -/
lemma length_receivedFrom {numTensors : ℕ} (hold : oldIndices.length = numRanks * numLocalExperts)
    (hnew : newIndices.length = numRanks * numLocalExperts)
    (hexperts : ∀ expert ∈ newIndices, expert ≠ -1 → expert ∈ oldIndices)
    (weights buffers : ℕ → ExpertWeights τ) (sender receiver : ℕ) :
    (receivedFrom (movedOf numTensors numLocalExperts oldIndices newIndices receiver (weights receiver)
        (buffers receiver)).p2pOps sender).length =
      (sentTo (movedOf numTensors numLocalExperts oldIndices newIndices sender (weights sender)
        (buffers sender)).p2pOps receiver).length := by
  rw [movedOf, movedOf, receivedFrom_opsOf, sentTo_opsOf]
  exact length_messages numTensors (weights sender) (experts_eq hold hnew hexperts sender receiver)

/-- The peers of a rank are ranks. -/
lemma peer_lt (hold : oldIndices.length = numRanks * numLocalExperts)
    (hnew : newIndices.length = numRanks * numLocalExperts)
    (hexperts : ∀ expert ∈ newIndices, expert ≠ -1 → expert ∈ oldIndices) (epRank : ℕ) :
    (∀ send ∈ sendsOf numLocalExperts oldIndices newIndices epRank, send.peer < numRanks) ∧
      ∀ recv ∈ recvsOf numLocalExperts oldIndices newIndices epRank, recv.peer < numRanks := by
  constructor
  · intro send hsend
    obtain ⟨entry, hentry, hmem⟩ := mem_flatMap.1 hsend
    obtain ⟨dst, hdst, rfl⟩ := mem_map.1 hmem
    obtain ⟨hne, hrow, hlocal⟩ := of_mem_sendRows hentry
    have hrank : epRank ∈ ranksOf numLocalExperts oldIndices entry.1 :=
      (mem_ranksOf_iff hold hne).2 ⟨entry.2, hrow, hlocal⟩
    have hrecv := ((mem_sendPeers_iff hexperts epRank dst hne).1 ⟨hrank, hdst⟩).1
    exact lt_of_mem_ranksOf hnew (mem_filter.1 hrecv).1
  · intro recv hrecv
    obtain ⟨entry, hentry, rfl⟩ := mem_map.1 hrecv
    exact lt_of_mem_ranksOf hold (recvPeer_mem_ranksOf hold hnew hexperts hentry)

/-- On any number of ranks, `move_to_buffer` succeeds; what a rank sends to another one is what that one expects, in
the same order, and each message is received by a rank of the group. After the exchange and `move_from_buffer`, each
row holds the weights of its new expert. -/
theorem rearranged_of_moveToBuffer (numRanks numTensors numLocalExperts : ℕ) (oldIndices newIndices : List ℤ)
    (hold : oldIndices.length = numRanks * numLocalExperts) (hnew : newIndices.length = numRanks * numLocalExperts)
    (hexperts : ∀ expert ∈ newIndices, expert ≠ -1 → expert ∈ oldIndices) (weights buffers : ℕ → ExpertWeights τ)
    (expertWeights : ℤ → ℕ → τ)
    (hweights : ∀ rank < numRanks, ∀ row < numLocalExperts, localExpert numLocalExperts oldIndices rank row ≠ -1 →
      ∀ tensor < numTensors,
        weights rank tensor row = expertWeights (localExpert numLocalExperts oldIndices rank row) tensor) :
    ∃ moved : ℕ → MoveToBuffer τ,
      (∀ rank < numRanks, moveToBuffer numTensors numLocalExperts oldIndices newIndices rank (weights rank)
        (buffers rank) = .ok (moved rank)) ∧
      (∀ sender < numRanks, ∀ receiver < numRanks,
        ((moved sender).sends.filter (·.peer = receiver)).map (·.expert) =
            ((moved receiver).recvs.filter (·.peer = sender)).map (·.expert) ∧
          (sentTo (moved sender).p2pOps receiver).length = (receivedFrom (moved receiver).p2pOps sender).length) ∧
      (∀ rank < numRanks, (∀ send ∈ (moved rank).sends, send.peer < numRanks) ∧
        ∀ recv ∈ (moved rank).recvs, recv.peer < numRanks) ∧
      ∀ rank < numRanks, ∀ row < numLocalExperts, localExpert numLocalExperts newIndices rank row ≠ -1 →
        ∀ tensor < numTensors,
          moveFromBuffer numLocalExperts (weights rank) (exchange numRanks moved rank) (moved rank).isUnchanged
              (moved rank).isReceivedLocally (moved rank).recvMetadata newIndices rank tensor row =
            expertWeights (localExpert numLocalExperts newIndices rank row) tensor := by
  refine ⟨fun rank => movedOf numTensors numLocalExperts oldIndices newIndices rank (weights rank) (buffers rank),
    ?_, ?_, ?_, ?_⟩
  · intro rank _
    exact moveToBuffer_eq hold hnew hexperts rank _ _
  · intro sender _ receiver _
    exact ⟨experts_eq hold hnew hexperts sender receiver,
      (length_receivedFrom hold hnew hexperts weights buffers sender receiver).symm⟩
  · intro rank _
    exact peer_lt hold hnew hexperts rank
  · intro rank hrank row hrow hexpert tensor htensor
    exact moveFromBuffer_row hold hnew hexperts hweights (fun _ _ => rfl) hrank hrow hexpert htensor

/-- Three ranks with two experts each: an expert moves within a rank, one is received, and one is received for two
rows. -/
theorem rearranged_demo :
    let oldIndices : List ℤ := [0, 1, 2, 3, 0, -1]
    let newIndices : List ℤ := [1, 3, 0, 2, 3, 3]
    let weights : ℕ → ExpertWeights ℤ := fun rank _ row => localExpert 2 oldIndices rank row
    ∃ moved : ℕ → MoveToBuffer ℤ,
      (∀ rank < 3, moveToBuffer 1 2 oldIndices newIndices rank (weights rank) (fun _ _ => -7) = .ok (moved rank)) ∧
      ∀ rank < 3, ∀ row < 2, localExpert 2 newIndices rank row ≠ -1 → ∀ tensor < 1,
        moveFromBuffer 2 (weights rank) (exchange 3 moved rank) (moved rank).isUnchanged
          (moved rank).isReceivedLocally (moved rank).recvMetadata newIndices rank tensor row =
            localExpert 2 newIndices rank row := by
  intro oldIndices newIndices weights
  obtain ⟨moved, hmoved, -, -, hrows⟩ := rearranged_of_moveToBuffer 3 1 2 oldIndices newIndices rfl rfl (by decide)
    weights (fun _ _ _ => -7) (fun expert _ => expert) fun _ _ _ _ _ _ _ => rfl
  exact ⟨moved, hmoved, hrows⟩

end VllmRuntime.Eplb
