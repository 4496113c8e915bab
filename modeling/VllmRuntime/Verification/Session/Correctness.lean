import VllmRuntime.Model.Session
import VllmRuntime.Verification.BlockHash.Incremental

/-! # Block hashes of streaming sessions

An update drops the tokens that were not computed, while the hashes of the blocks those
tokens completed stay. The hashes remain those of the current tokens exactly as long as
every update repeats the dropped tokens of full blocks. -/

namespace VllmRuntime.Session

open List BlockHash

variable (hashFunction : HashInput → BlockHash) (noneHash : BlockHash)

/-- The hash of the tokens `[0, (i + 1) * blockSize)` of the request. -/
def chainedHash (request : Request) (blockSize : ℕ) : ℕ → BlockHash
  | 0 => hashStep hashFunction noneHash none (blockInput request blockSize 0)
  | i + 1 =>
    hashStep hashFunction noneHash (some (chainedHash request blockSize i))
      (blockInput request blockSize (i + 1))

/-- `block_hashes` holds the hashes of the current tokens, one for each full block. -/
def BlockHashesCurrent (blockSize : ℕ) (request : Request) : Prop :=
  request.blockHashes.length = request.numTokens / blockSize ∧
    ∀ i < request.blockHashes.length,
      request.blockHashes[i]? = some (chainedHash hashFunction noneHash request blockSize i)

instance (blockSize : ℕ) (request : Request) :
    Decidable (BlockHashesCurrent hashFunction noneHash blockSize request) :=
  inferInstanceAs (Decidable (_ ∧ _))

variable {hashFunction noneHash} {blockSize : ℕ} {session : Request} {update : StreamingUpdate}
  {events : List SessionEvent} {request : Request}

lemma chain_range_getElem? {n i : ℕ} (hi : i < n) :
    (HashChain.chain (hashStep hashFunction noneHash) none
        ((range n).map (blockInput request blockSize)))[i]? =
      some (chainedHash hashFunction noneHash request blockSize i) := by
  induction i with
  | zero =>
    obtain ⟨n, rfl⟩ := Nat.exists_eq_succ_of_ne_zero hi.ne'
    simp [range_succ_eq_map, chainedHash]
  | succ i ih =>
    rw [HashChain.chain_getElem?_succ, ih (Nat.lt_of_succ_lt hi)]
    simp [hi, chainedHash]

lemma blockHashesCurrent_iff :
    BlockHashesCurrent hashFunction noneHash blockSize request ↔
      request.blockHashes = HashChain.chain (hashStep hashFunction noneHash) none
        ((range (request.numTokens / blockSize)).map (blockInput request blockSize)) := by
  constructor
  · rintro ⟨hlen, hget⟩
    apply ext_getElem?
    intro i
    by_cases hi : i < request.numTokens / blockSize
    · rw [hget i (hlen ▸ hi), chain_range_getElem? hi]
    · rw [getElem?_eq_none (by omega), getElem?_eq_none (by simpa using hi)]
  · intro h
    refine ⟨by simp [h], ?_⟩
    intro i hi
    rw [h, chain_range_getElem? (by simpa [h] using hi)]

/-! ## Text-only sessions -/

/-- A session without multimodal items, created from token ids. -/
structure TextSession (session : Request) : Prop where
  noFeatures : session.mmFeatures = []
  prompt : session.promptTokenIds.isSome

/-- Without features every call of the hasher continues the chain of the current tokens. -/
lemma loopInputs_text (h : session.mmFeatures = []) (blockSize n k : ℕ) (c : ℤ) :
    loopInputs blockSize session n (k * blockSize) c =
      (range' k n).map (blockInput session blockSize) := by
  apply loopInputs_eq_map
  · simp [h, Ordered]
  · rw [h]
    exact cursorOk_nil _ c

lemma appendOutputTokenIds_current (hbs : 0 < blockSize) (htext : TextSession session)
    (h : BlockHashesCurrent hashFunction noneHash blockSize session) (tokenIds : List TokenId) :
    BlockHashesCurrent hashFunction noneHash blockSize
      (session.appendOutputTokenIds
        (some (requestBlockHasher hashFunction noneHash blockSize)) tokenIds) := by
  have hashed : Hashed hashFunction noneHash blockSize 0 session := by
    refine ⟨Nat.zero_le _, by simp [htext.noFeatures, Ordered], by simp [htext.noFeatures], ?_⟩
    rw [blockHashesCurrent_iff.mp h]
    congr 1
    apply map_congr_left
    intro j _
    exact (incInput_of_ne (by simp; omega)).symm
  have hnext := (hashed.append hbs tokenIds).hashes
  rw [blockHashesCurrent_iff, hnext]
  congr 1
  apply map_congr_left
  intro j _
  exact incInput_of_ne (by simp; omega)

/-! ## Updates -/

/-- The tokens of the blocks hashed so far are still the first tokens after the update. -/
def UpdateFits (blockSize : ℕ) (session : Request) (update : StreamingUpdate) : Prop :=
  session.allTokenIds.take (session.numTokens / blockSize * blockSize) <+:
    session.allTokenIds.take session.numComputedTokens ++ update.promptTokenIds.getD []

/-- The session after an update of a text-only session, before its hashes are extended. -/
def updatedTokens (session : Request) (update : StreamingUpdate) (prompt : List TokenId) :
    Request :=
  { session with
    allTokenIds :=
      session.allTokenIds.take session.numComputedTokens ++ update.promptTokenIds.getD []
    outputTokenIds := []
    promptTokenIds := some prompt
    mmFeatures := [] }

lemma updateRequestAsSession_text (hasher : Option (Request → List BlockHash))
    (htext : TextSession session) (hmm : update.mmFeatures.getD [] = []) :
    ∃ prompt, updateRequestAsSession hasher session update =
      .ok { (updatedTokens session update prompt).extendBlockHashes hasher with
        numPromptTokens := prompt.length } := by
  obtain ⟨prompt, hprompt⟩ := Option.isSome_iff_exists.mp htext.prompt
  refine ⟨prompt ++ (session.allTokenIds.take session.numComputedTokens).drop
    session.numPromptTokens ++ update.promptTokenIds.getD [], ?_⟩
  simp [updateRequestAsSession, hprompt, hmm, htext.noFeatures, updatedTokens, pure, Except.pure]

lemma updateFits_iff (prompt : List TokenId) :
    UpdateFits blockSize session update ↔
      session.numTokens / blockSize ≤
          (updatedTokens session update prompt).numTokens / blockSize ∧
        ∀ j < session.numTokens / blockSize,
          blockTokens session blockSize j =
            blockTokens (updatedTokens session update prompt) blockSize j := by
  set k := session.numTokens / blockSize with hk
  have hlen : (session.allTokenIds.take (k * blockSize)).length = k * blockSize := by
    rw [length_take, Nat.min_eq_left]
    exact Nat.div_mul_le_self _ _
  have hblocks := take_eq_iff_blocks session.allTokenIds
    (updatedTokens session update prompt).allTokenIds blockSize k
  simp only [blockTokens]
  rw [hblocks, UpdateFits, prefix_iff_eq_take, ← hk, hlen]
  constructor
  · intro h
    refine ⟨?_, h⟩
    have hle := congrArg List.length h
    rw [hlen, length_take] at hle
    rcases Nat.eq_zero_or_pos blockSize with hz | hpos
    · simp [hk, hz]
    · rw [Nat.le_div_iff_mul_le hpos]
      exact min_eq_left_iff.mp hle.symm
  · exact And.right

/-- An update keeps the hashes current when it fits, and only then. -/
lemma update_current {session' : Request} (htext : TextSession session)
    (hcur : BlockHashesCurrent hashFunction noneHash blockSize session)
    (hmm : update.mmFeatures.getD [] = [])
    (h : updateRequestAsSession (some (requestBlockHasher hashFunction noneHash blockSize))
      session update = .ok session') :
    TextSession session' ∧
      (UpdateFits blockSize session update →
        BlockHashesCurrent hashFunction noneHash blockSize session') ∧
      (Function.Injective hashFunction →
        BlockHashesCurrent hashFunction noneHash blockSize session' →
          UpdateFits blockSize session update) := by
  obtain ⟨prompt, hupdate⟩ := updateRequestAsSession_text
    (some (requestBlockHasher hashFunction noneHash blockSize)) htext hmm
  rw [hupdate, Except.ok.injEq] at h
  subst h
  set middle := updatedTokens session update prompt with hmiddle
  have hinput : ∀ j, blockTokens session blockSize j = blockTokens middle blockSize j ↔
      blockInput session blockSize j = blockInput middle blockSize j := by
    intro j
    have hkeys : (blockInput session blockSize j).2 = (blockInput middle blockSize j).2 := by
      simp only [blockInput, htext.noFeatures, hmiddle]
      rfl
    exact ⟨fun ht => Prod.ext ht hkeys, fun ht => (Prod.mk.inj ht).1⟩
  have hold := blockHashesCurrent_iff.mp hcur
  refine ⟨⟨rfl, rfl⟩, ?_, ?_⟩
  · intro hfits
    obtain ⟨hk, htokens⟩ := (updateFits_iff prompt).mp hfits
    rw [blockHashesCurrent_iff]
    apply extendBlockHashes_eq_chain hashFunction noneHash (f := blockInput middle blockSize) hk
    · rw [show middle.blockHashes = session.blockHashes from rfl, hold]
      congr 1
      apply map_congr_left
      intro j hj
      exact (hinput j).mp (htokens j (mem_range.mp hj))
    · exact loopInputs_text rfl blockSize _ _ _
  · intro hinj hcur'
    rw [blockHashesCurrent_iff] at hcur'
    set k := session.numTokens / blockSize with hk
    set n := middle.numTokens / blockSize with hn
    have hext : session.blockHashes ++
        requestBlockHasher hashFunction noneHash blockSize middle =
        HashChain.chain (hashStep hashFunction noneHash) none
          ((range n).map (blockInput middle blockSize)) := hcur'
    have hlen := congrArg List.length hext
    simp only [hold, length_append, HashChain.chain_length, length_map,
      length_range] at hlen
    -- The hashes of the dropped tokens are still there, so the tokens must be too.
    have htake := congrArg (List.take k) hext
    rw [hold, take_append_of_le_length (by simp), HashChain.chain_take,
      HashChain.chain_take, HashChain.chain_inj _ (hashStep_injective hinj)] at htake
    simp only [← map_take, take_range, Nat.min_self] at htake
    rw [Nat.min_eq_left (by omega)] at htake
    have hkn : k ≤ n := by omega
    refine (updateFits_iff prompt).mpr ⟨hkn, ?_⟩
    intro j hj
    exact (hinput j).mpr (map_inj_left.mp htake j (mem_range.mpr hj))

/-! ## Runs -/

/-- The session after a list of events, or the first error. -/
def sessionAfter (hasher : Option (Request → List BlockHash)) (session : Request)
    (events : List SessionEvent) : Except PyError Request :=
  events.foldlM (SessionEvent.apply hasher) session

lemma sessionAfter_concat (hasher : Option (Request → List BlockHash)) {middle : Request}
    (h : sessionAfter hasher session events = .ok middle) (event : SessionEvent) :
    sessionAfter hasher session (events ++ [event]) = event.apply hasher middle := by
  simp only [sessionAfter] at h
  simp only [sessionAfter, foldlM_append, h, foldlM_cons, foldlM_nil]
  change (event.apply hasher middle >>= pure) = _
  exact bind_pure _

/-- No update brings multimodal items. -/
def TextEvents (events : List SessionEvent) : Prop :=
  ∀ update, SessionEvent.update update ∈ events → update.mmFeatures.getD [] = []

/-- If every update of a run leaves the hashes current, so does every other event. -/
lemma sessionAfter_current (hbs : 0 < blockSize) (htext : TextSession session)
    (hcur : BlockHashesCurrent hashFunction noneHash blockSize session) (hevents : TextEvents events)
    (hupdate : ∀ front update middle session', front ++ [.update update] <+: events →
      sessionAfter (some (requestBlockHasher hashFunction noneHash blockSize)) session front =
        .ok middle →
      TextSession middle → BlockHashesCurrent hashFunction noneHash blockSize middle →
      updateRequestAsSession (some (requestBlockHasher hashFunction noneHash blockSize)) middle
        update = .ok session' →
      BlockHashesCurrent hashFunction noneHash blockSize session') :
    ∀ front, front <+: events →
      ∃ middle, sessionAfter (some (requestBlockHasher hashFunction noneHash blockSize)) session
          front = .ok middle ∧
        TextSession middle ∧ BlockHashesCurrent hashFunction noneHash blockSize middle := by
  intro front
  induction front using List.reverseRecOn with
  | nil => exact fun _ => ⟨session, rfl, htext, hcur⟩
  | append_singleton front event ih =>
    intro hfront
    obtain ⟨middle, hrun, hmtext, hmcur⟩ := ih ((prefix_append _ _).trans hfront)
    rw [sessionAfter_concat _ hrun]
    cases event with
    | append tokenIds =>
      exact ⟨_, rfl, ⟨hmtext.noFeatures, hmtext.prompt⟩,
        appendOutputTokenIds_current hbs hmtext hmcur tokenIds⟩
    | compute numComputedTokens =>
      refine ⟨_, rfl, ⟨hmtext.noFeatures, hmtext.prompt⟩, ?_⟩
      rw [blockHashesCurrent_iff] at hmcur ⊢
      exact hmcur
    | update update =>
      have hmm : update.mmFeatures.getD [] = [] :=
        hevents update (hfront.subset (by simp))
      obtain ⟨prompt, hok⟩ := updateRequestAsSession_text
        (some (requestBlockHasher hashFunction noneHash blockSize)) hmtext hmm
      have hnext := update_current hmtext hmcur hmm hok
      exact ⟨_, hok, hnext.1, hupdate front update middle _ hfront hrun hmtext hmcur hok⟩

/-- Over a whole run of a text-only session no update raises, and the hashes are those of the
current tokens after every update exactly when every update fits. -/
theorem session_blockHashes_current_iff {blockSize : ℕ} (hbs : 0 < blockSize)
    {requestId : RequestId} {promptTokenIds : List TokenId} {loraRequest : Option LoRARequest}
    {cacheSalt : Option String} {skip : Bool} {created : Request}
    (hnew : Request.new (some (requestBlockHasher hashFunction noneHash blockSize)) requestId
      (some promptTokenIds) none [] loraRequest cacheSalt skip = .ok created)
    {events : List SessionEvent} (hevents : TextEvents events) :
    let hasher := some (requestBlockHasher hashFunction noneHash blockSize)
    let allFit := ∀ front update middle, front ++ [.update update] <+: events →
      sessionAfter hasher created front = .ok middle → UpdateFits blockSize middle update
    let allCurrent := ∀ front update, front ++ [.update update] <+: events →
      ∃ session, sessionAfter hasher created (front ++ [.update update]) = .ok session ∧
        BlockHashesCurrent hashFunction noneHash blockSize session
    (allFit → allCurrent) ∧ (Function.Injective hashFunction → allCurrent → allFit) := by
  intro hasher allFit allCurrent
  have hcreated : TextSession created ∧
      BlockHashesCurrent hashFunction noneHash blockSize created := by
    obtain ⟨base, rfl, hnil, hmm, -, -, -, -, hprompt⟩ := Request.new_eq_ok hnew
    refine ⟨⟨hmm, by simp [Request.extendBlockHashes, hprompt]⟩, ?_⟩
    rw [blockHashesCurrent_iff]
    exact extendBlockHashes_eq_chain hashFunction noneHash (k := 0) (Nat.zero_le _) hnil
      (loopInputs_text hmm blockSize _ 0 _)
  obtain ⟨htext, hcur⟩ := hcreated
  constructor
  · intro hfit front update hfront
    have hrun := sessionAfter_current hbs htext hcur hevents
      (fun front update middle session' hfront hrun hmtext hmcur hok =>
        (update_current hmtext hmcur (hevents update (hfront.subset (by simp))) hok).2.1
          (hfit front update middle hfront hrun))
    obtain ⟨session, hsession, -, hscur⟩ := hrun _ hfront
    exact ⟨session, hsession, hscur⟩
  · intro hinj hall front update middle hfront hmiddle
    have hrun := sessionAfter_current hbs htext hcur hevents
      (fun front update middle session' hfront hrun _ _ hok => by
        obtain ⟨session, hsession, hscur⟩ := hall front update hfront
        rw [sessionAfter_concat _ hrun] at hsession
        obtain rfl := Except.ok.inj (hok.symm.trans hsession)
        exact hscur)
    obtain ⟨middle', hmiddle', hmtext, hmcur⟩ := hrun front ((prefix_append _ _).trans hfront)
    obtain rfl := Except.ok.inj (hmiddle.symm.trans hmiddle')
    obtain ⟨session, hsession, hscur⟩ := hall front update hfront
    rw [sessionAfter_concat _ hmiddle] at hsession
    exact (update_current hmtext hmcur (hevents update (hfront.subset (by simp))) hsession).2.2
      hinj hscur

/-- The second generated token was never computed, but it lies in a block that is not full. -/
theorem session_blockHashes_current_partialBlock :
    ∃ created session,
      Request.new (some (requestBlockHasher serialize serializeSeed 4)) 0 (some [1, 2, 3]) none []
        none none false = .ok created ∧
      sessionAfter (some (requestBlockHasher serialize serializeSeed 4)) created
        [.append [4, 5], .compute 4, .update { promptTokenIds := some [9] }] = .ok session ∧
      BlockHashesCurrent serialize serializeSeed 4 session := by
  have hnew : Request.new (some (requestBlockHasher serialize serializeSeed 4)) 0
      (some [1, 2, 3]) none [] none none false = .ok _ := rfl
  have hevents : TextEvents
      [.append [4, 5], .compute 4, .update { promptTokenIds := some [9] }] := by simp [TextEvents]
  have h := session_blockHashes_current_iff (by decide) hnew hevents
  obtain ⟨session, hsession, hcur⟩ := h.1 (fun front update middle hfront hrun => by
    have hlen := hfront.length_le
    obtain _ | ⟨a, _ | ⟨b, _ | ⟨c, front⟩⟩⟩ := front
    · simp at hfront
    · simp at hfront
    · simp only [cons_append, nil_append, cons_prefix_cons,
        SessionEvent.update.injEq, nil_prefix, and_true] at hfront
      obtain ⟨rfl, rfl, rfl⟩ := hfront
      cases hrun
      unfold UpdateFits
      decide
    · simp only [length_append, length_cons, length_nil] at hlen
      omega) [.append [4, 5], .compute 4] _ prefix_rfl
  exact ⟨_, session, rfl, hsession, hcur⟩

/-- The generated token completes the first block and is then dropped. -/
theorem session_blockHashes_stale :
    ∃ created session,
      Request.new (some (requestBlockHasher serialize serializeSeed 4)) 0 (some [1, 2, 3]) none []
        none none false = .ok created ∧
      sessionAfter (some (requestBlockHasher serialize serializeSeed 4)) created
        [.append [4], .compute 3, .update { promptTokenIds := some [9] }] = .ok session ∧
      ¬ BlockHashesCurrent serialize serializeSeed 4 session :=
  ⟨_, _, rfl, rfl, by decide⟩

end VllmRuntime.Session
