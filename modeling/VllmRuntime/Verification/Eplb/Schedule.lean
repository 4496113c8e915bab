import VllmRuntime.Verification.Eplb.Ranks

/-! # The two sides of a transfer

The rule by which a sender picks its receivers and the one by which a receiver picks its sender are inverse to
each other; so what a rank sends to another one is what that one expects, expert by expert. -/

namespace VllmRuntime.Eplb

open List

variable {expert : ℤ} {numRanks row : ℕ} {entry : ℤ × ℕ} {indices : List ℤ} {expertIds : List ℤ}
  {rows : List (ℤ × ℕ)}

/-! ## Dividing the receivers among the senders -/

/-- The position of the sender of a receiver. -/
def senderPos (numSenders numReceivers recverPos : ℕ) : ℕ :=
  if recverPos < numSenders * (numReceivers / numSenders) then recverPos / (numReceivers / numSenders)
  else recverPos - numSenders * (numReceivers / numSenders)

lemma senderPos_lt {numSenders numReceivers recverPos : ℕ} (hpos : 0 < numSenders)
    (hlt : recverPos < numReceivers) : senderPos numSenders numReceivers recverPos < numSenders := by
  unfold senderPos
  split
  · rename_i hshare
    exact Nat.div_lt_of_lt_mul (by rwa [Nat.mul_comm] at hshare)
  · have hmod := Nat.mod_lt numReceivers hpos
    have hdiv := Nat.div_add_mod numReceivers numSenders
    omega

section Share

variable {ranksToSend ranksToRecv : List ℕ} {rank peer : ℕ} {sender : ℕ}

/-- A receiver is among those of a sender iff that is its sender. -/
lemma mem_recvRanks (hnodup : ranksToRecv.Nodup) {recverPos : ℕ}
    (hrank : ranksToRecv[recverPos]? = some rank) (hsender : sender < ranksToSend.length) :
    rank ∈ recvRanks ranksToSend ranksToRecv sender ↔
      senderPos ranksToSend.length ranksToRecv.length recverPos = sender := by
  have hlt := lt_of_getElem? hrank
  have hat (i : ℕ) : ranksToRecv[i]? = some rank ↔ i = recverPos := by
    constructor
    · intro hi
      exact ((getElem?_inj hlt hnodup).1 (hrank.trans hi.symm)).symm
    · rintro rfl
      exact hrank
  generalize hshare : ranksToRecv.length / ranksToSend.length = share
  have hmem : rank ∈ recvRanks ranksToSend ranksToRecv sender ↔
      (sender * share ≤ recverPos ∧ recverPos < sender * share + share) ∨
        ranksToSend.length * share + sender = recverPos := by
    simp only [recvRanks, hshare, mem_append, Option.mem_toList, hat]
    refine or_congr ?_ Iff.rfl
    rw [mem_iff_getElem?]
    simp only [getElem?_take, getElem?_drop]
    constructor
    · rintro ⟨i, hi⟩
      split at hi
      · have hpos := (hat _).1 hi
        omega
      · cases hi
    · rintro ⟨hle, hlt⟩
      refine ⟨recverPos - sender * share, ?_⟩
      rw [if_pos (by omega), hat]
      omega
  have hbound : sender * share + share ≤ ranksToSend.length * share := by
    calc sender * share + share = (sender + 1) * share := by ring
      _ ≤ ranksToSend.length * share := Nat.mul_le_mul_right _ hsender
  rw [hmem, senderPos, hshare]
  split
  · rename_i hin
    have hpos : 0 < share := Nat.pos_of_ne_zero fun hzero => by simp [hzero] at hin
    rw [Nat.div_eq_iff hpos]
    omega
  · omega

lemma recvRanks_subset (sender : ℕ) (h : rank ∈ recvRanks ranksToSend ranksToRecv sender) : rank ∈ ranksToRecv := by
  rcases mem_append.1 h with h | h
  · exact mem_of_mem_drop (mem_of_mem_take h)
  · exact mem_of_getElem? (Option.mem_toList.1 h)

lemma nodup_recvRanks (hnodup : ranksToRecv.Nodup) (hsender : sender < ranksToSend.length) :
    (recvRanks ranksToSend ranksToRecv sender).Nodup := by
  generalize hshare : ranksToRecv.length / ranksToSend.length = share
  have hbound : sender * share + share ≤ ranksToSend.length * share := by
    calc sender * share + share = (sender + 1) * share := by ring
      _ ≤ ranksToSend.length * share := Nat.mul_le_mul_right _ hsender
  simp only [recvRanks, hshare]
  refine List.nodup_append.2 ⟨(hnodup.sublist (drop_sublist _ _)).sublist (take_sublist _ _), ?_, ?_⟩
  · cases ranksToRecv[ranksToSend.length * share + sender]? with
    | none => exact nodup_nil
    | some => exact nodup_singleton _
  · rintro a ha b hb rfl
    -- the receiver that is left over comes after all shares
    obtain ⟨i, hi⟩ := mem_iff_getElem?.1 ha
    simp only [getElem?_take, getElem?_drop] at hi
    split at hi
    · have hb : ranksToRecv[ranksToSend.length * share + sender]? = some a := by simpa using hb
      have hlt := lt_of_getElem? hi
      have heq := (getElem?_inj hlt hnodup).1 (hi.trans hb.symm)
      omega
    · cases hi

/-- The two rules agree. -/
lemma recvRanks_iff (hsend : ranksToSend.Nodup) (hrecv : ranksToRecv.Nodup) :
    peer ∈ ranksToSend ∧ rank ∈ recvRanks ranksToSend ranksToRecv (ranksToSend.idxOf peer) ↔
      rank ∈ ranksToRecv ∧
        ranksToSend[senderPos ranksToSend.length ranksToRecv.length (ranksToRecv.idxOf rank)]? = some peer := by
  constructor
  · rintro ⟨hpeer, hrank⟩
    have hmem := recvRanks_subset _ hrank
    have hlt : ranksToSend.idxOf peer < ranksToSend.length := idxOf_lt_length_of_mem hpeer
    refine ⟨hmem, ?_⟩
    rw [(mem_recvRanks hrecv (getElem?_idxOf hmem) hlt).1 hrank]
    exact getElem?_idxOf hpeer
  · rintro ⟨hrank, hpeer⟩
    have hmem := mem_of_getElem? hpeer
    have hlt := lt_of_getElem? hpeer
    have hindex := (getElem?_inj hlt hsend).1 (hpeer.trans (getElem?_idxOf hmem).symm)
    refine ⟨hmem, (mem_recvRanks hrecv (getElem?_idxOf hrank) (idxOf_lt_length_of_mem hmem)).2 hindex⟩

end Share

/-! ## What is posted -/

variable {numLocalExperts : ℕ} {oldIndices newIndices : List ℤ} {epRank : ℕ}

/-- `ranks_to_recv` of an expert. -/
def ranksToRecv (numLocalExperts : ℕ) (oldIndices newIndices : List ℤ) (expert : ℤ) : List ℕ :=
  (ranksOf numLocalExperts newIndices expert).filter (· ∉ ranksOf numLocalExperts oldIndices expert)

lemma nodup_ranksOf (numLocalExperts : ℕ) (indices : List ℤ) (expert : ℤ) :
    (ranksOf numLocalExperts indices expert).Nodup := nodup_eraseDups _

lemma nodup_ranksToRecv (numLocalExperts : ℕ) (oldIndices newIndices : List ℤ) (expert : ℤ) :
    (ranksToRecv numLocalExperts oldIndices newIndices expert).Nodup := (nodup_ranksOf _ _ _).filter _

/-- The ranks to which a rank sends an expert. -/
def sendPeers (numLocalExperts : ℕ) (oldIndices newIndices : List ℤ) (epRank : ℕ) (expert : ℤ) : List ℕ :=
  if ranksOf numLocalExperts oldIndices expert = [] ∨ ranksToRecv numLocalExperts oldIndices newIndices expert = [] then []
  else recvRanks (ranksOf numLocalExperts oldIndices expert) (ranksToRecv numLocalExperts oldIndices newIndices expert)
    ((ranksOf numLocalExperts oldIndices expert).idxOf epRank)

/-- The rank from which a rank receives an expert. -/
def recvPeer (numLocalExperts : ℕ) (oldIndices newIndices : List ℤ) (epRank : ℕ) (expert : ℤ) : ℕ :=
  (ranksOf numLocalExperts oldIndices expert).getD
    (senderPos (ranksOf numLocalExperts oldIndices expert).length
      (ranksToRecv numLocalExperts oldIndices newIndices expert).length
      ((ranksToRecv numLocalExperts oldIndices newIndices expert).idxOf epRank)) 0

lemma postSends_eq (hmem : entry.1 ∈ expertIds)
    (hrank : epRank ∈ ranksOf numLocalExperts oldIndices entry.1) :
    postSends (getEpRanksWithExpertsBatch expertIds numLocalExperts oldIndices newIndices) epRank entry =
      .ok ((sendPeers numLocalExperts oldIndices newIndices epRank entry.1).map fun dst => ⟨entry.1, entry.2, dst⟩) := by
  obtain ⟨hsend, hrecv⟩ := getEpRanksWithExpertsBatch_spec numLocalExperts oldIndices newIndices hmem
  simp only [postSends, dictGet, hsend, hrecv, sendPeers, ranksToRecv, bind, Except.bind]
  by_cases hnil : ranksOf numLocalExperts oldIndices entry.1 = [] ∨ (ranksOf numLocalExperts newIndices entry.1).filter
      (· ∉ ranksOf numLocalExperts oldIndices entry.1) = []
  · simp only [hnil, if_true]
    rfl
  · simp only [hnil, if_false, listIndex, hrank, if_true]
    rfl

lemma postRecv_eq (hmem : entry.1 ∈ expertIds)
    (hrank : epRank ∈ ranksToRecv numLocalExperts oldIndices newIndices entry.1)
    (hsend : ranksOf numLocalExperts oldIndices entry.1 ≠ []) :
    postRecv (getEpRanksWithExpertsBatch expertIds numLocalExperts oldIndices newIndices) epRank entry =
      .ok [⟨entry.1, entry.2, recvPeer numLocalExperts oldIndices newIndices epRank entry.1⟩] := by
  obtain ⟨hsendMap, hrecvMap⟩ := getEpRanksWithExpertsBatch_spec numLocalExperts oldIndices newIndices hmem
  have hlt : senderPos (ranksOf numLocalExperts oldIndices entry.1).length
      (ranksToRecv numLocalExperts oldIndices newIndices entry.1).length
      ((ranksToRecv numLocalExperts oldIndices newIndices entry.1).idxOf epRank) <
        (ranksOf numLocalExperts oldIndices entry.1).length :=
    senderPos_lt (length_pos_of_ne_nil hsend) (idxOf_lt_length_of_mem hrank)
  have hne := ne_nil_of_mem hrank
  have hget (i : ℕ) (hi : i < (ranksOf numLocalExperts oldIndices entry.1).length) :
      listGet (ranksOf numLocalExperts oldIndices entry.1) i =
        .ok ((ranksOf numLocalExperts oldIndices entry.1).getD i 0) := by
    simp only [listGet, getElem?_eq_getElem hi, getD_eq_getElem?_getD, Option.getD_some]
  rw [ranksToRecv] at hrank hlt hne
  simp only [postRecv, dictGet, hsendMap, hrecvMap, recvPeer, ranksToRecv]
  rw [senderPos] at hlt ⊢
  simp only [bind, Except.bind, hsend, hne, or_self, if_false, listIndex, hrank, if_true]
  split at hlt
  · rename_i hshare
    simp only [hshare, if_true, hget _ hlt]
    rfl
  · rename_i hshare
    simp only [hshare, if_false, hget _ hlt]
    rfl

/-! ## The local rows -/

lemma localExpert_eq_iff (hexpert : expert ≠ -1) :
    localExpert numLocalExperts indices epRank row = expert ↔
      indices[epRank * numLocalExperts + row]? = some expert := by
  rw [localExpert, getD_eq_getElem?_getD]
  cases indices[epRank * numLocalExperts + row]? with
  | none => simpa using hexpert.symm
  | some other => simp

/-- A rank has an expert iff one of its rows does. -/
lemma mem_ranksOf_iff (hlength : indices.length = numRanks * numLocalExperts) (hexpert : expert ≠ -1) :
    epRank ∈ ranksOf numLocalExperts indices expert ↔
      ∃ row < numLocalExperts, localExpert numLocalExperts indices epRank row = expert := by
  rw [mem_ranksOf]
  constructor
  · rintro ⟨position, hget, rfl⟩
    have hlt := lt_of_getElem? hget
    have hpos : 0 < numLocalExperts := Nat.pos_of_ne_zero fun hzero => by
      rw [hlength, hzero] at hlt
      omega
    refine ⟨position % numLocalExperts, Nat.mod_lt _ hpos, (localExpert_eq_iff hexpert).2 ?_⟩
    rw [Nat.mul_comm, Nat.div_add_mod]
    exact hget
  · rintro ⟨row, hrow, hlocal⟩
    refine ⟨epRank * numLocalExperts + row, (localExpert_eq_iff hexpert).1 hlocal, ?_⟩
    rw [Nat.add_comm, Nat.add_mul_div_right _ _ (by omega), Nat.div_eq_of_lt hrow, Nat.zero_add]

lemma lt_of_mem_ranksOf (hlength : indices.length = numRanks * numLocalExperts)
    (h : epRank ∈ ranksOf numLocalExperts indices expert) : epRank < numRanks := by
  obtain ⟨position, hget, rfl⟩ := mem_ranksOf.1 h
  have hlt := lt_of_getElem? hget
  rw [hlength] at hlt
  exact Nat.div_lt_of_lt_mul (by rwa [Nat.mul_comm] at hlt)

lemma mem_ranksToRecv_iff (hold : oldIndices.length = numRanks * numLocalExperts)
    (hnew : newIndices.length = numRanks * numLocalExperts) (hexpert : expert ≠ -1) :
    epRank ∈ ranksToRecv numLocalExperts oldIndices newIndices expert ↔
      (∃ row < numLocalExperts, localExpert numLocalExperts newIndices epRank row = expert) ∧
        ¬∃ row < numLocalExperts, localExpert numLocalExperts oldIndices epRank row = expert := by
  rw [ranksToRecv, mem_filter, decide_eq_true_eq, mem_ranksOf_iff hnew hexpert, mem_ranksOf_iff hold hexpert]

/-- A row can be filled from the local rows iff one of them had its expert. -/
lemma isReceivedLocally_iff (hrow : row < numLocalExperts)
    (hexpert : localExpert numLocalExperts newIndices epRank row ≠ -1) :
    isReceivedLocally numLocalExperts oldIndices newIndices epRank row = true ↔
      ∃ src < numLocalExperts, localExpert numLocalExperts oldIndices epRank src =
        localExpert numLocalExperts newIndices epRank row := by
  simp only [isReceivedLocally, isUnchanged, Bool.or_eq_true, decide_eq_true_eq, Bool.and_eq_true, mem_map,
    mem_range]
  constructor
  · rintro (hsame | ⟨-, hlocal⟩)
    · exact ⟨row, hrow, hsame⟩
    · exact hlocal
  · intro hlocal
    exact .inr ⟨hexpert, hlocal⟩

lemma mem_sendRows : expert ∈ (sendRows numLocalExperts oldIndices epRank).map Prod.fst ↔
    expert ≠ -1 ∧ ∃ row < numLocalExperts, localExpert numLocalExperts oldIndices epRank row = expert := by
  rw [sendRows, map_fst_firstRows, mem_unique]
  simp only [mem_map, mem_filter, mem_range, decide_eq_true_eq]
  constructor
  · rintro ⟨_, ⟨⟨row, hrow, rfl⟩, hne⟩, rfl⟩
    exact ⟨hne, row, hrow, rfl⟩
  · rintro ⟨hne, row, hrow, hlocal⟩
    exact ⟨(expert, row), ⟨⟨row, hrow, by rw [hlocal]⟩, hne⟩, rfl⟩

lemma of_mem_sendRows (h : entry ∈ sendRows numLocalExperts oldIndices epRank) :
    entry.1 ≠ -1 ∧ entry.2 < numLocalExperts ∧ localExpert numLocalExperts oldIndices epRank entry.2 = entry.1 := by
  obtain ⟨hmem, hne⟩ := mem_filter.1 (mem_of_mem_firstRows h)
  obtain ⟨row, hrow, rfl⟩ := mem_map.1 hmem
  exact ⟨of_decide_eq_true hne, mem_range.1 hrow, rfl⟩

lemma of_mem_recvRows (h : entry ∈ recvRows numLocalExperts oldIndices newIndices epRank) :
    entry.1 ≠ -1 ∧ entry.2 < numLocalExperts ∧ localExpert numLocalExperts newIndices epRank entry.2 = entry.1 ∧
      isReceivedLocally numLocalExperts oldIndices newIndices epRank entry.2 = false := by
  obtain ⟨hmem, hne⟩ := mem_filter.1 (mem_of_mem_firstRows h)
  obtain ⟨row, hrow, rfl⟩ := mem_map.1 hmem
  obtain ⟨hlocal, hne⟩ := Bool.and_eq_true_iff.1 hne
  exact ⟨of_decide_eq_true hne, mem_range.1 hrow, rfl, by simpa using hlocal⟩

lemma mem_recvRows_of_row (hrow : row < numLocalExperts)
    (hexpert : localExpert numLocalExperts newIndices epRank row ≠ -1)
    (hlocal : isReceivedLocally numLocalExperts oldIndices newIndices epRank row = false) :
    localExpert numLocalExperts newIndices epRank row ∈
      (recvRows numLocalExperts oldIndices newIndices epRank).map Prod.fst := by
  rw [recvRows, map_fst_firstRows, mem_unique]
  refine mem_map.2 ⟨(_, row), mem_filter.2 ⟨mem_map.2 ⟨row, mem_range.2 hrow, rfl⟩, ?_⟩, rfl⟩
  simp [hlocal, hexpert]

lemma mem_recvRows (hold : oldIndices.length = numRanks * numLocalExperts)
    (hnew : newIndices.length = numRanks * numLocalExperts) :
    expert ∈ (recvRows numLocalExperts oldIndices newIndices epRank).map Prod.fst ↔
      expert ≠ -1 ∧ epRank ∈ ranksToRecv numLocalExperts oldIndices newIndices expert := by
  constructor
  · intro hmem
    obtain ⟨entry, hentry, rfl⟩ := mem_map.1 hmem
    obtain ⟨hne, hrow, hlocal, hremote⟩ := of_mem_recvRows hentry
    refine ⟨hne, (mem_ranksToRecv_iff hold hnew hne).2 ⟨⟨entry.2, hrow, hlocal⟩, ?_⟩⟩
    rw [← hlocal, ← isReceivedLocally_iff hrow (hlocal ▸ hne), hremote]
    exact Bool.false_ne_true
  · rintro ⟨hne, hrecv⟩
    obtain ⟨⟨row, hrow, rfl⟩, hremote⟩ := (mem_ranksToRecv_iff hold hnew hne).1 hrecv
    refine mem_recvRows_of_row hrow hne ?_
    rw [← isReceivedLocally_iff hrow hne, Bool.not_eq_true] at hremote
    exact hremote

/-! ## What is sent and what is expected -/

/-- The sends of a rank. -/
def sendsOf (numLocalExperts : ℕ) (oldIndices newIndices : List ℤ) (epRank : ℕ) : List Transfer :=
  (sendRows numLocalExperts oldIndices epRank).flatMap fun entry =>
    (sendPeers numLocalExperts oldIndices newIndices epRank entry.1).map fun dst => ⟨entry.1, entry.2, dst⟩

/-- The receives of a rank. -/
def recvsOf (numLocalExperts : ℕ) (oldIndices newIndices : List ℤ) (epRank : ℕ) : List Transfer :=
  (recvRows numLocalExperts oldIndices newIndices epRank).map fun entry =>
    ⟨entry.1, entry.2, recvPeer numLocalExperts oldIndices newIndices epRank entry.1⟩

lemma postAll_eq
    {post : OrderedDict ℤ (List ℕ) × OrderedDict ℤ (List ℕ) → ℕ → ℤ × ℕ → Except PyError (List Transfer)}
    (hsorted : sortByExpert rows = rows) {transfers : ℤ × ℕ → List Transfer}
    (hpost : ∀ entry ∈ rows, post (getEpRanksWithExpertsBatch (rows.map Prod.fst) numLocalExperts oldIndices newIndices)
      epRank entry = .ok (transfers entry)) :
    postAll post numLocalExperts oldIndices newIndices epRank rows = .ok (rows.flatMap transfers) := by
  simp only [postAll, hsorted, mapM_of_ok hpost, bind, Except.bind, pure, Except.pure, List.flatMap]

lemma postAll_sends (hold : oldIndices.length = numRanks * numLocalExperts) :
    postAll postSends numLocalExperts oldIndices newIndices epRank (sendRows numLocalExperts oldIndices epRank) =
      .ok (sendsOf numLocalExperts oldIndices newIndices epRank) := by
  refine postAll_eq (sortByExpert_firstRows _) ?_
  intro entry hmem
  obtain ⟨hne, hrow, hlocal⟩ := of_mem_sendRows hmem
  exact postSends_eq (mem_map_of_mem hmem) ((mem_ranksOf_iff hold hne).2 ⟨entry.2, hrow, hlocal⟩)

/-- An expert of the new map has ranks in the old one. -/
lemma ranksOf_ne_nil (hexperts : ∀ expert ∈ newIndices, expert ≠ -1 → expert ∈ oldIndices)
    (hne : expert ≠ -1) (hmem : epRank ∈ ranksToRecv numLocalExperts oldIndices newIndices expert) :
    ranksOf numLocalExperts oldIndices expert ≠ [] := by
  obtain ⟨position, hget, -⟩ := mem_ranksOf.1 (mem_filter.1 hmem).1
  obtain ⟨source, hsource⟩ := mem_iff_getElem?.1 (hexperts expert (mem_of_getElem? hget) hne)
  exact ne_nil_of_mem (mem_ranksOf.2 ⟨source, hsource, rfl⟩)

lemma postAll_recvs (hold : oldIndices.length = numRanks * numLocalExperts)
    (hnew : newIndices.length = numRanks * numLocalExperts)
    (hexperts : ∀ expert ∈ newIndices, expert ≠ -1 → expert ∈ oldIndices) :
    postAll postRecv numLocalExperts oldIndices newIndices epRank
        (recvRows numLocalExperts oldIndices newIndices epRank) =
      .ok (recvsOf numLocalExperts oldIndices newIndices epRank) := by
  rw [recvsOf, map_eq_flatMap]
  refine postAll_eq (sortByExpert_firstRows _) ?_
  intro entry hmem
  obtain ⟨hne, hrecv⟩ := (mem_recvRows hold hnew).1 (mem_map_of_mem (f := Prod.fst) hmem)
  exact postRecv_eq (mem_map_of_mem hmem) hrecv (ranksOf_ne_nil hexperts hne hrecv)

/-- The transfers with a peer, one for each row that has it among its peers. -/
lemma filter_transfers {peers : ℤ → List ℕ} (hnodup : ∀ entry ∈ rows, (peers entry.1).Nodup) (peer : ℕ) :
    (rows.flatMap fun entry => (peers entry.1).map fun dst => (⟨entry.1, entry.2, dst⟩ : Transfer)).filter
        (·.peer = peer) =
      (rows.filter fun entry => peer ∈ peers entry.1).map fun entry => ⟨entry.1, entry.2, peer⟩ := by
  induction rows with
  | nil => rfl
  | cons entry rows ih =>
    have hrest := ih fun other hmem => hnodup other (mem_cons_of_mem _ hmem)
    have hfirst : ((peers entry.1).map fun dst => (⟨entry.1, entry.2, dst⟩ : Transfer)).filter (·.peer = peer) =
        if peer ∈ peers entry.1 then [⟨entry.1, entry.2, peer⟩] else [] := by
      rw [filter_map]
      change ((peers entry.1).filter (· = peer)).map _ = _
      rw [filter_eq]
      split
      · rename_i hmem
        rw [count_eq_one_of_mem (hnodup entry mem_cons_self) hmem]
        rfl
      · rename_i hmem
        rw [count_eq_zero.2 hmem]
        rfl
    rw [flatMap_cons, filter_append, hrest, hfirst, filter_cons]
    by_cases hpeer : peer ∈ peers entry.1
    · simp [hpeer]
    · simp [hpeer]

lemma nodup_sendPeers (hold : oldIndices.length = numRanks * numLocalExperts)
    (hmem : entry ∈ sendRows numLocalExperts oldIndices epRank) :
    (sendPeers numLocalExperts oldIndices newIndices epRank entry.1).Nodup := by
  obtain ⟨hne, hrow, hlocal⟩ := of_mem_sendRows hmem
  unfold sendPeers
  split
  · exact nodup_nil
  · exact nodup_recvRanks (nodup_ranksToRecv _ _ _ _)
      (idxOf_lt_length_of_mem ((mem_ranksOf_iff hold hne).2 ⟨entry.2, hrow, hlocal⟩))

/-- A rank sends an expert to another one iff that one expects it from there. -/
lemma mem_sendPeers_iff (hexperts : ∀ expert ∈ newIndices, expert ≠ -1 → expert ∈ oldIndices)
    (sender receiver : ℕ) (hne : expert ≠ -1) :
    sender ∈ ranksOf numLocalExperts oldIndices expert ∧
        receiver ∈ sendPeers numLocalExperts oldIndices newIndices sender expert ↔
      receiver ∈ ranksToRecv numLocalExperts oldIndices newIndices expert ∧
        recvPeer numLocalExperts oldIndices newIndices receiver expert = sender := by
  have hrule : sender ∈ ranksOf numLocalExperts oldIndices expert ∧
      receiver ∈ recvRanks (ranksOf numLocalExperts oldIndices expert)
        (ranksToRecv numLocalExperts oldIndices newIndices expert)
        ((ranksOf numLocalExperts oldIndices expert).idxOf sender) ↔ _ :=
    recvRanks_iff (nodup_ranksOf _ _ _) (nodup_ranksToRecv _ _ _ _)
  by_cases hrecv : receiver ∈ ranksToRecv numLocalExperts oldIndices newIndices expert
  · have hsend := ranksOf_ne_nil hexperts hne hrecv
    have hlt := senderPos_lt (length_pos_of_ne_nil hsend) (idxOf_lt_length_of_mem hrecv)
    rw [sendPeers, if_neg (not_or_intro hsend (ne_nil_of_mem hrecv)), hrule, recvPeer,
      getD_eq_getElem?_getD, getElem?_eq_getElem hlt, Option.some_inj, Option.getD_some]
  · have hnot : receiver ∉ sendPeers numLocalExperts oldIndices newIndices sender expert := by
      unfold sendPeers
      split
      · exact not_mem_nil
      · exact fun hmem => hrecv (recvRanks_subset _ hmem)
    exact iff_of_false (fun h => hnot h.2) fun h => hrecv h.1

/-- The transfers of a rank to another one, by expert, are those that the other one expects. -/
lemma experts_eq (hold : oldIndices.length = numRanks * numLocalExperts)
    (hnew : newIndices.length = numRanks * numLocalExperts)
    (hexperts : ∀ expert ∈ newIndices, expert ≠ -1 → expert ∈ oldIndices) (sender receiver : ℕ) :
    ((sendsOf numLocalExperts oldIndices newIndices sender).filter (·.peer = receiver)).map (·.expert) =
      ((recvsOf numLocalExperts oldIndices newIndices receiver).filter (·.peer = sender)).map (·.expert) := by
  have hsends : ((sendsOf numLocalExperts oldIndices newIndices sender).filter (·.peer = receiver)).map (·.expert) =
      ((sendRows numLocalExperts oldIndices sender).filter fun entry =>
        receiver ∈ sendPeers numLocalExperts oldIndices newIndices sender entry.1).map Prod.fst := by
    rw [sendsOf, filter_transfers fun entry hmem => nodup_sendPeers hold hmem, map_map]
    rfl
  have hrecvs : ((recvsOf numLocalExperts oldIndices newIndices receiver).filter (·.peer = sender)).map (·.expert) =
      ((recvRows numLocalExperts oldIndices newIndices receiver).filter fun entry =>
        recvPeer numLocalExperts oldIndices newIndices receiver entry.1 = sender).map Prod.fst := by
    rw [recvsOf, filter_map, map_map]
    rfl
  have hsorted (rows : List (ℤ × ℕ)) (p : ℤ × ℕ → Bool) :
      (((firstRows rows).filter p).map Prod.fst).Pairwise (· < ·) :=
    pairwise_map.2 ((pairwise_firstRows rows).filter p)
  rw [hsends, hrecvs]
  refine List.Pairwise.eq_of_mem_iff (hsorted _ _) (hsorted _ _) ?_
  intro expert
  have hfilter (rows : List (ℤ × ℕ)) (q : ℤ → Prop) [DecidablePred q] :
      expert ∈ (rows.filter fun entry => q entry.1).map Prod.fst ↔ expert ∈ rows.map Prod.fst ∧ q expert := by
    simp only [mem_map, mem_filter, decide_eq_true_eq]
    constructor
    · rintro ⟨entry, ⟨hmem, hq⟩, rfl⟩
      exact ⟨⟨entry, hmem, rfl⟩, hq⟩
    · rintro ⟨⟨entry, hmem, rfl⟩, hq⟩
      exact ⟨entry, ⟨hmem, hq⟩, rfl⟩
  rw [hfilter _ fun expert => receiver ∈ sendPeers numLocalExperts oldIndices newIndices sender expert,
    hfilter _ fun expert => recvPeer numLocalExperts oldIndices newIndices receiver expert = sender, mem_sendRows,
    mem_recvRows hold hnew]
  by_cases hne : expert = -1
  · simp [hne]
  · rw [← mem_ranksOf_iff hold hne]
    simp only [ne_eq, hne, not_false_eq_true, true_and]
    exact mem_sendPeers_iff hexperts sender receiver hne

end VllmRuntime.Eplb
