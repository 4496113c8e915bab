import VllmRuntime.Verification.BlockHash.CollisionFree

/-! # Hashing while tokens arrive

A request hashes its prompt when it is created and every further block when the last
token of that block is appended. Each later call restarts the feature cursor at the last
feature, which is not always where one pass over all tokens would stand. -/

namespace VllmRuntime.BlockHash

open List

section Resume

variable (hashFunction : HashInput → BlockHash) (noneHash : BlockHash)

/-- The cursor with which `request_block_hasher` starts at block `k`. -/
def startCursor (k blockSize : ℕ) : ℤ := if k * blockSize > 0 then -1 else 0

lemma requestBlockHasher_eq_chain (blockSize : ℕ) (request : Request) :
    requestBlockHasher hashFunction noneHash blockSize request =
      HashChain.chain (hashStep hashFunction noneHash) request.blockHashes.getLast?
        (loopInputs blockSize request
          (request.numTokens / blockSize - request.blockHashes.length)
          (request.blockHashes.length * blockSize)
          (startCursor request.blockHashes.length blockSize)) := by
  have hcount : (request.numTokens - request.blockHashes.length * blockSize) / blockSize =
      request.numTokens / blockSize - request.blockHashes.length := by
    rw [Nat.mul_comm, Nat.sub_mul_div]
  simp only [requestBlockHasher, requestBlockHasherLoop_eq_chain, hcount, startCursor]

/-- Extending the hashes of the blocks below `k` by one call of the hasher gives the hashes of
all full blocks, whatever inputs `f` the two parts digested. -/
lemma extendBlockHashes_eq_chain {blockSize : ℕ} {request : Request} {f : ℕ → BlockInput}
    {k : ℕ} (hk : k ≤ request.numTokens / blockSize)
    (hold : request.blockHashes =
      HashChain.chain (hashStep hashFunction noneHash) none ((range k).map f))
    (hnew : loopInputs blockSize request (request.numTokens / blockSize - k) (k * blockSize)
        (startCursor k blockSize) =
      (range' k (request.numTokens / blockSize - k)).map f) :
    (request.extendBlockHashes
        (some (requestBlockHasher hashFunction noneHash blockSize))).blockHashes =
      HashChain.chain (hashStep hashFunction noneHash) none
        ((range (request.numTokens / blockSize)).map f) := by
  have hlen : request.blockHashes.length = k := by simp [hold]
  have hsplit : range (request.numTokens / blockSize) =
      range k ++ range' k (request.numTokens / blockSize - k) := by
    have h := range'_append_1 (s := 0) (m := k) (n := request.numTokens / blockSize - k)
    rw [Nat.zero_add, Nat.add_sub_of_le hk] at h
    rw [range_eq_range', range_eq_range', h]
  calc
    (request.extendBlockHashes _).blockHashes
        = request.blockHashes ++
            requestBlockHasher hashFunction noneHash blockSize request := rfl
    _ = HashChain.chain (hashStep hashFunction noneHash) none ((range k).map f) ++
          HashChain.chain (hashStep hashFunction noneHash)
            (HashChain.chain (hashStep hashFunction noneHash) none
              ((range k).map f)).getLast?
            ((range' k (request.numTokens / blockSize - k)).map f) := by
          rw [requestBlockHasher_eq_chain, hlen, hnew, ← hold]
    _ = _ := by
          rw [hsplit, map_append, HashChain.chain_append, Option.or_none]

end Resume

/-! ## The restarted cursor -/

variable {hashFunction : HashInput → BlockHash} {noneHash : BlockHash} {request : Request}
  {blockSize prompt s j : ℕ} {requestId : RequestId} {promptTokenIds : Option (List TokenId)}
  {promptEmbeds : Option (List Bytes)} {mmFeatures : List MultiModalFeatureSpec}
  {loraRequest : Option LoRARequest} {cacheSalt : Option String} {skip : Bool} {last : MultiModalFeatureSpec}
  {e k : ℕ}

/-- From the last feature on, a block that starts no later than its end and ends after
its start takes exactly that feature. -/
lemma genMmExtraHashKeys_last (hlast : last ∈ request.mmFeatures.getLast?) (hs : s ≤ last.mmPosition.stop)
    (he : last.mmPosition.offset < e) :
    (genMmExtraHashKeys request s e (-1)).1 = [last.identifier] := by
  obtain ⟨front, hfront⟩ := getLast?_eq_some_iff.mp hlast
  have hdrop : request.mmFeatures.drop ((request.mmFeatures.length : ℤ) + -1).toNat = [last] := by
    simp [hfront]
  unfold genMmExtraHashKeys
  rw [hlast]
  simp only [Int.reduceNeg, Int.reduceLT, if_true, if_neg (not_lt.mpr hs), hdrop]
  unfold genMmExtraHashKeysLoop
  rw [if_pos he, if_neg (not_lt.mpr hs)]
  split <;> simp [genMmExtraHashKeysLoop]

/-- The identifiers that an incremental run digests for block `j` when the prompt had
`prompt` tokens: the first block completed by generated tokens restarts the cursor. -/
def incKeys (request : Request) (blockSize prompt j : ℕ) : List String :=
  if 0 < j ∧ j = prompt / blockSize then
    (genMmExtraHashKeys request (j * blockSize) (j * blockSize + blockSize) (-1)).1
  else
    mmKeys request.mmFeatures (j * blockSize) (j * blockSize + blockSize)

def incInput (request : Request) (blockSize prompt j : ℕ) : BlockInput :=
  (blockTokens request blockSize j,
    extraKeys request (incKeys request blockSize prompt j)
      (j * blockSize) (j * blockSize + blockSize))

lemma incInput_of_ne (h : ¬ (0 < j ∧ j = prompt / blockSize)) :
    incInput request blockSize prompt j = blockInput request blockSize j := by
  simp [incInput, blockInput, incKeys, h]

/-- Past the prompt every cursor is as good as any other. -/
lemma cursorOk_of_prompt_lt {features : List MultiModalFeatureSpec}
    (hin : ∀ f ∈ features, f.mmPosition.stop ≤ prompt) (hs : prompt < s) (c : ℤ) :
    CursorOk features s c := by
  left
  intro last hlast
  exact (hin last (mem_of_mem_getLast? hlast)).trans_lt hs

lemma loopInputs_past_prompt (hord : Ordered request.mmFeatures) (hbs : 0 < blockSize)
    (hin : ∀ f ∈ request.mmFeatures, f.mmPosition.stop ≤ prompt) (hk : prompt / blockSize < k) (n : ℕ) (c : ℤ) :
    loopInputs blockSize request n (k * blockSize) c =
      (range' k n).map (incInput request blockSize prompt) := by
  have hpast : prompt < k * blockSize := (Nat.div_lt_iff_lt_mul hbs).mp hk
  rw [loopInputs_eq_map hord blockSize n k (cursorOk_of_prompt_lt hin hpast c)]
  apply map_congr_left
  intro j hj
  have hjk := (mem_range'_1.mp hj).1
  rw [incInput_of_ne (by omega)]

/-- One call of the hasher from block `k` on, for a request whose prompt has been hashed. -/
lemma loopInputs_startCursor (hord : Ordered request.mmFeatures) (hbs : 0 < blockSize)
    (hin : ∀ f ∈ request.mmFeatures, f.mmPosition.stop ≤ prompt) (hk : prompt / blockSize ≤ k) (n : ℕ) :
    loopInputs blockSize request n (k * blockSize) (startCursor k blockSize) =
      (range' k n).map (incInput request blockSize prompt) := by
  rcases Nat.lt_or_eq_of_le hk with hlt | rfl
  · exact loopInputs_past_prompt hord hbs hin hlt n _
  · set k := prompt / blockSize with hkdef
    rcases Nat.eq_zero_or_pos k with hzero | hpos
    · have hcur : CursorOk request.mmFeatures (k * blockSize) (startCursor k blockSize) := by
        simpa [hzero, startCursor] using cursorOk_zero request.mmFeatures
      rw [loopInputs_eq_map hord blockSize n k hcur]
      apply map_congr_left
      intro j _
      rw [incInput_of_ne (by omega)]
    · have hcur : startCursor k blockSize = -1 := by
        simp [startCursor, hpos, hbs]
      cases n with
      | zero => rfl
      | succ n =>
        have hnext : k * blockSize + blockSize = (k + 1) * blockSize :=
          (Nat.succ_mul k blockSize).symm
        have hrest := loopInputs_past_prompt hord hbs hin (k := k + 1) (by omega) n
          (genMmExtraHashKeys request (k * blockSize) (k * blockSize + blockSize) (-1)).2
        rw [← hnext] at hrest
        have hkeys : incKeys request blockSize prompt k =
            (genMmExtraHashKeys request (k * blockSize) (k * blockSize + blockSize) (-1)).1 := by
          rw [incKeys, if_pos ⟨hpos, hkdef⟩]
        simp only [loopInputs, generateBlockHashExtraKeys_eq, hcur, hrest, range'_succ,
          map_cons, incInput, hkeys]
        rfl

/-! ## Runs -/

/-- The chunks of generated tokens are appended one after the other. -/
def Request.appendChunks (hasher : Request → List BlockHash) (request : Request)
    (chunks : List (List TokenId)) : Request :=
  chunks.foldl (Request.appendOutputTokenIds (some hasher)) request

lemma Request.appendChunks_mmFeatures (hasher : Request → List BlockHash) (request : Request)
    (chunks : List (List TokenId)) :
    (Request.appendChunks hasher request chunks).mmFeatures = request.mmFeatures := by
  induction chunks generalizing request with
  | nil => rfl
  | cons tokens chunks ih => exact ih _

lemma Request.appendChunks_numTokens (hasher : Request → List BlockHash) (request : Request)
    (chunks : List (List TokenId)) :
    (Request.appendChunks hasher request chunks).numTokens =
      request.numTokens + chunks.flatten.length := by
  induction chunks generalizing request with
  | nil => rfl
  | cons tokens chunks ih =>
    have hone : (request.appendOutputTokenIds (some hasher) tokens).numTokens =
        request.numTokens + tokens.length := by
      simp [Request.appendOutputTokenIds, Request.extendBlockHashes, Request.numTokens]
    calc
      (Request.appendChunks hasher request (tokens :: chunks)).numTokens
          = (request.appendOutputTokenIds (some hasher) tokens).numTokens +
              chunks.flatten.length := ih _
      _ = request.numTokens + (tokens :: chunks).flatten.length := by
            rw [hone, flatten_cons, length_append, Nat.add_assoc]

/-- What holds of a request between two appends. -/
structure Hashed (hashFunction : HashInput → BlockHash) (noneHash : BlockHash)
    (blockSize prompt : ℕ) (request : Request) : Prop where
  prompt_le : prompt ≤ request.numTokens
  ordered : Ordered request.mmFeatures
  inside : ∀ f ∈ request.mmFeatures, f.mmPosition.stop ≤ prompt
  hashes : request.blockHashes =
    HashChain.chain (hashStep hashFunction noneHash) none
      ((List.range (request.numTokens / blockSize)).map (incInput request blockSize prompt))

lemma blockTokens_append (request : Request) (hbs : 0 < blockSize) (outputs tokens : List TokenId)
    (hj : j < request.numTokens / blockSize) :
    blockTokens { request with
        outputTokenIds := outputs, allTokenIds := request.allTokenIds ++ tokens } blockSize j =
      blockTokens request blockSize j := by
  have hfull : (j + 1) * blockSize ≤ request.allTokenIds.length :=
    (Nat.le_div_iff_mul_le hbs).mp hj
  rw [Nat.succ_mul] at hfull
  simp [blockTokens, take_append_of_le_length hfull]

lemma Hashed.append (hbs : 0 < blockSize) (h : Hashed hashFunction noneHash blockSize prompt request)
    (tokens : List TokenId) :
    Hashed hashFunction noneHash blockSize prompt
      (request.appendOutputTokenIds (some (requestBlockHasher hashFunction noneHash blockSize))
        tokens) := by
  set grown : Request := { request with
    outputTokenIds := request.outputTokenIds ++ tokens
    allTokenIds := request.allTokenIds ++ tokens } with hgrown
  have hle : request.numTokens ≤ grown.numTokens := by simp [hgrown, Request.numTokens]
  have hdiv : request.numTokens / blockSize ≤ grown.numTokens / blockSize :=
    Nat.div_le_div_right hle
  have hold : grown.blockHashes =
      HashChain.chain (hashStep hashFunction noneHash) none
        ((range (request.numTokens / blockSize)).map (incInput grown blockSize prompt)) := by
    rw [show grown.blockHashes = request.blockHashes from rfl, h.hashes]
    congr 1
    apply map_congr_left
    intro j hj
    have htokens := blockTokens_append request hbs (request.outputTokenIds ++ tokens) tokens
      (mem_range.mp hj)
    exact Prod.ext htokens.symm rfl
  have hord : Ordered grown.mmFeatures := h.ordered
  have hnew := loopInputs_startCursor hord hbs h.inside (Nat.div_le_div_right h.prompt_le)
    (grown.numTokens / blockSize - request.numTokens / blockSize)
  exact ⟨h.prompt_le.trans hle, h.ordered, h.inside,
    extendBlockHashes_eq_chain hashFunction noneHash hdiv hold hnew⟩

lemma Hashed.appendChunks (hbs : 0 < blockSize)
    (h : Hashed hashFunction noneHash blockSize prompt request) (chunks : List (List TokenId)) :
    Hashed hashFunction noneHash blockSize prompt
      (Request.appendChunks (requestBlockHasher hashFunction noneHash blockSize) request chunks) := by
  induction chunks generalizing request with
  | nil => exact h
  | cons tokens chunks ih => exact ih (h.append hbs tokens)

lemma Request.new_eq_ok {hasher : Option (Request → List BlockHash)}
    (h : Request.new hasher requestId promptTokenIds promptEmbeds mmFeatures loraRequest cacheSalt
      skip = .ok request) :
    ∃ base : Request, request = base.extendBlockHashes hasher ∧ base.blockHashes = [] ∧
      base.mmFeatures = mmFeatures ∧ base.numTokens = base.numPromptTokens ∧
      base.loraRequest = loraRequest ∧ base.cacheSalt = cacheSalt ∧
      base.promptEmbeds = promptEmbeds ∧ base.promptTokenIds = promptTokenIds := by
  unfold Request.new at h
  cases hlen : lengthFromPromptTokenIdsOrEmbeds promptTokenIds promptEmbeds with
  | error e => simp [hlen, bind, Except.bind] at h
  | ok n =>
    simp only [hlen, bind, Except.bind, pure, Except.pure, Except.ok.injEq] at h
    refine ⟨_, h.symm, rfl, rfl, ?_, rfl, rfl, rfl, rfl⟩
    rcases promptTokenIds with _ | ids <;> rcases promptEmbeds with _ | rows
    · simp [lengthFromPromptTokenIdsOrEmbeds] at hlen
    · simp [Request.numTokens]
    · simpa [Request.numTokens, lengthFromPromptTokenIdsOrEmbeds] using hlen
    · simp only [lengthFromPromptTokenIdsOrEmbeds] at hlen
      split at hlen
      · simp at hlen
      · simpa [Request.numTokens] using hlen

lemma Hashed.new (h : Request.new (some (requestBlockHasher hashFunction noneHash blockSize)) requestId
      promptTokenIds promptEmbeds mmFeatures loraRequest cacheSalt skip = .ok request)
    (hord : Ordered mmFeatures) (hin : ∀ f ∈ mmFeatures, f.mmPosition.stop ≤ request.numPromptTokens) :
    Hashed hashFunction noneHash blockSize request.numPromptTokens request := by
  obtain ⟨base, rfl, hnil, hmm, htokens, -⟩ := Request.new_eq_ok h
  subst hmm
  refine ⟨htokens.ge, hord, hin, ?_⟩
  have hpass := requestBlockHasher_onePass hashFunction noneHash hord hnil blockSize
  simp only [Request.extendBlockHashes, hnil, nil_append, hpass]
  congr 1
  apply map_congr_left
  intro j hj
  have hlt : j < base.numPromptTokens / blockSize := htokens ▸ mem_range.mp hj
  exact (incInput_of_ne (fun hc => absurd hc.2 (Nat.ne_of_lt hlt))).symm

/-! ## Incremental hashing against one pass -/

/-- The block that the generated tokens complete first finds in the last feature alone all
the features that reach into it. -/
def RestartOk (features : List MultiModalFeatureSpec) (blockSize prompt numTokens : ℕ) : Prop :=
  features = [] ∨ prompt < blockSize ∨ numTokens < prompt / blockSize * blockSize + blockSize ∨
    (∀ last ∈ features.getLast?, last.mmPosition.stop < prompt / blockSize * blockSize) ∨
    (features.dropWhile (passed (prompt / blockSize * blockSize))).length = 1

lemma dropWhile_eq_singleton {α : Type*} {l : List α} {p : α → Bool} {last : α}
    (hlast : last ∈ l.getLast?) (hlen : (l.dropWhile p).length = 1) : l.dropWhile p = [last] := by
  obtain ⟨a, ha⟩ := length_eq_one_iff.mp hlen
  have hsplit := takeWhile_append_dropWhile (p := p) (l := l)
  rw [ha] at hsplit
  rw [← hsplit] at hlast
  simp only [getLast?_append, getLast?_singleton, Option.some_or, Option.mem_def,
    Option.some.injEq] at hlast
  rw [ha, hlast]

/-- The restarted cursor finds the identifiers of one pass exactly when one feature is left. -/
lemma restartKeys_eq_iff (hin : ∀ f ∈ request.mmFeatures, f.mmPosition.stop < e)
    (hlast : last ∈ request.mmFeatures.getLast?) (hs : s ≤ last.mmPosition.stop) :
    (genMmExtraHashKeys request s e (-1)).1 = mmKeys request.mmFeatures s e ↔
      (request.mmFeatures.dropWhile (passed s)).length = 1 := by
  have hoff : ∀ f ∈ request.mmFeatures, f.mmPosition.offset < e := fun f hf =>
    (offset_le_stop _).trans_lt (hin f hf)
  have hall : mmKeys request.mmFeatures s e =
      (request.mmFeatures.dropWhile (passed s)).map MultiModalFeatureSpec.identifier := by
    unfold mmKeys
    rw [takeWhile_eq_self_iff.mpr]
    intro f hf
    simpa using hoff f ((dropWhile_sublist _).subset hf)
  rw [genMmExtraHashKeys_last hlast hs (hoff last (mem_of_mem_getLast? hlast)), hall]
  constructor
  · intro h
    simpa using (congrArg List.length h).symm
  · intro h
    rw [dropWhile_eq_singleton hlast h]
    rfl

lemma incKeys_eq_iff (hbs : 0 < blockSize) (hord : Ordered request.mmFeatures)
    (hin : ∀ f ∈ request.mmFeatures, f.mmPosition.stop ≤ prompt) (hj : 0 < j)
    (hjp : j = prompt / blockSize) :
    incKeys request blockSize prompt j =
        mmKeys request.mmFeatures (j * blockSize) (j * blockSize + blockSize) ↔
      (∀ last ∈ request.mmFeatures.getLast?, last.mmPosition.stop < j * blockSize) ∨
        (request.mmFeatures.dropWhile (passed (j * blockSize))).length = 1 := by
  rw [incKeys, if_pos ⟨hj, hjp⟩]
  by_cases hdone : ∀ last ∈ request.mmFeatures.getLast?, last.mmPosition.stop < j * blockSize
  · have hspec := genMmExtraHashKeys_spec (e := j * blockSize + blockSize) hord (by omega)
      (Or.inl hdone : CursorOk request.mmFeatures (j * blockSize) (-1))
    exact iff_of_true hspec.1 (Or.inl hdone)
  · have hlen := hdone
    push Not at hdone
    obtain ⟨last, hlast, hstop⟩ := hdone
    have hend : prompt < j * blockSize + blockSize := by
      rw [hjp, ← Nat.succ_mul, Nat.mul_comm]
      exact Nat.lt_mul_div_succ prompt hbs
    rw [restartKeys_eq_iff (fun f hf => (hin f hf).trans_lt hend) hlast hstop]
    exact (or_iff_right hlen).symm

lemma Hashed.incInput_eq_iff (hbs : 0 < blockSize)
    (h : Hashed hashFunction noneHash blockSize prompt request) :
    (∀ j < request.numTokens / blockSize,
        incInput request blockSize prompt j = blockInput request blockSize j) ↔
      RestartOk request.mmFeatures blockSize prompt request.numTokens := by
  have hfull : prompt / blockSize < request.numTokens / blockSize ↔
      prompt / blockSize * blockSize + blockSize ≤ request.numTokens := by
    rw [Nat.lt_div_iff_mul_lt hbs, ← Nat.succ_mul, Nat.succ_eq_add_one, Nat.add_mul]
    omega
  have hzero : prompt / blockSize = 0 ↔ prompt < blockSize := by
    simp [Nat.div_eq_zero_iff, hbs.ne']
  constructor
  · intro heq
    by_contra hnot
    simp only [RestartOk, not_or] at hnot
    obtain ⟨hne, hlong, hdone, hlast, hone⟩ := hnot
    have hpos : 0 < prompt / blockSize := Nat.pos_of_ne_zero (mt hzero.mp hlong)
    have hblock := heq (prompt / blockSize) (hfull.mpr (not_lt.mp hdone))
    have hkeys := extraKeys_inj.mp (Prod.mk.inj hblock).2
    rcases (incKeys_eq_iff hbs h.ordered h.inside hpos rfl).mp hkeys with hd | ho
    · exact hlast hd
    · exact hone ho
  · intro hok j hj
    by_cases hrestart : 0 < j ∧ j = prompt / blockSize
    · obtain ⟨hpos, rfl⟩ := hrestart
      have hkeys : incKeys request blockSize prompt (prompt / blockSize) =
          mmKeys request.mmFeatures (prompt / blockSize * blockSize)
            (prompt / blockSize * blockSize + blockSize) := by
        apply (incKeys_eq_iff hbs h.ordered h.inside hpos rfl).mpr
        rcases hok with hnil | hshort | hstop | hrest
        · exact Or.inl (by simp [hnil])
        · exact absurd (hzero.mpr hshort) hpos.ne'
        · exact absurd (hfull.mp hj) (not_le.mpr hstop)
        · exact hrest
      simp only [incInput, blockInput, hkeys]
    · exact incInput_of_ne hrestart

/-- Appending in chunks gives the hashes of one pass whenever the restart finds the right
features, and, when the hash function has no collisions, only then. -/
theorem appendChunks_eq_onePass_iff {blockSize : ℕ} (hbs : 0 < blockSize) {requestId : RequestId}
    {promptTokenIds : Option (List TokenId)} {promptEmbeds : Option (List Bytes)}
    {mmFeatures : List MultiModalFeatureSpec} {loraRequest : Option LoRARequest}
    {cacheSalt : Option String} {skip : Bool} {created : Request}
    (hnew : Request.new (some (requestBlockHasher hashFunction noneHash blockSize)) requestId
      promptTokenIds promptEmbeds mmFeatures loraRequest cacheSalt skip = .ok created)
    (hord : Ordered mmFeatures)
    (hin : ∀ f ∈ mmFeatures, f.mmPosition.stop ≤ created.numPromptTokens)
    (chunks : List (List TokenId)) :
    let request := Request.appendChunks (requestBlockHasher hashFunction noneHash blockSize)
      created chunks
    let onePass := requestBlockHasher hashFunction noneHash blockSize
      { request with blockHashes := [] }
    let numTokens := created.numPromptTokens + chunks.flatten.length
    (RestartOk mmFeatures blockSize created.numPromptTokens numTokens →
        request.blockHashes = onePass) ∧
      (Function.Injective hashFunction → request.blockHashes = onePass →
        RestartOk mmFeatures blockSize created.numPromptTokens numTokens) := by
  intro request onePass numTokens
  have hfeatures : request.mmFeatures = mmFeatures := by
    obtain ⟨base, rfl, -, hmm, -⟩ := Request.new_eq_ok hnew
    rw [Request.appendChunks_mmFeatures, ← hmm]
    rfl
  have htokens : request.numTokens = numTokens := by
    obtain ⟨base, rfl, -, -, hprompt, -⟩ := Request.new_eq_ok hnew
    rw [Request.appendChunks_numTokens]
    exact congrArg (· + chunks.flatten.length) hprompt
  have h : Hashed hashFunction noneHash blockSize created.numPromptTokens request :=
    (Hashed.new hnew hord hin).appendChunks hbs chunks
  have hpass : onePass = HashChain.chain (hashStep hashFunction noneHash) none
      ((List.range (request.numTokens / blockSize)).map (blockInput request blockSize)) := by
    have hcleared : Ordered ({ request with blockHashes := [] } : Request).mmFeatures := h.ordered
    exact requestBlockHasher_onePass hashFunction noneHash hcleared rfl blockSize
  rw [hpass, h.hashes, ← hfeatures, ← htokens]
  constructor
  · intro hok
    congr 1
    apply map_congr_left
    intro j hj
    exact (h.incInput_eq_iff hbs).mpr hok j (List.mem_range.mp hj)
  · intro hinj heq
    have hinputs := (HashChain.chain_inj _ (hashStep_injective hinj)).mp heq
    apply (h.incInput_eq_iff hbs).mp
    intro j hj
    exact List.map_inj_left.mp hinputs j (List.mem_range.mpr hj)

/-! A prompt of six tokens and blocks of four: the second block is completed by generated
tokens and holds two images. -/

def twoImages : List MultiModalFeatureSpec :=
  [⟨"a", ⟨4, 1, none⟩⟩, ⟨"b", ⟨5, 1, none⟩⟩]

def twoImagesRequest : Request :=
  Request.extendBlockHashes (some (requestBlockHasher serialize serializeSeed 4))
    { requestId := 0, promptTokenIds := some [1, 2, 3, 4, 5, 6], mmFeatures := twoImages,
      numPromptTokens := 6, allTokenIds := [1, 2, 3, 4, 5, 6] }

/-- One image at the end of the first block and one in the second block restart correctly. -/
theorem appendChunks_eq_onePass_oneImage :
    let hasher := requestBlockHasher serialize serializeSeed 4
    let created : Request := Request.extendBlockHashes (some hasher)
      { requestId := 0, promptTokenIds := some [1, 2, 3, 4, 5, 6],
        mmFeatures := [⟨"a", ⟨1, 2, none⟩⟩, ⟨"b", ⟨5, 1, none⟩⟩],
        numPromptTokens := 6, allTokenIds := [1, 2, 3, 4, 5, 6] }
    let request := Request.appendChunks hasher created [[7], [8]]
    request.blockHashes = hasher { request with blockHashes := [] } := by
  intro hasher created request
  have hnew : Request.new (some hasher) 0 (some [1, 2, 3, 4, 5, 6]) none
      [⟨"a", ⟨1, 2, none⟩⟩, ⟨"b", ⟨5, 1, none⟩⟩] none none false = .ok created := rfl
  have h := appendChunks_eq_onePass_iff (by decide) hnew (by simp [Ordered, PlaceholderRange.stop])
    (by simp [created, Request.extendBlockHashes, PlaceholderRange.stop]) [[7], [8]]
  apply h.1
  simp [RestartOk, passed, PlaceholderRange.stop, created, Request.extendBlockHashes]

theorem appendChunks_ne_onePass_twoImages :
    Ordered twoImages ∧ (∀ f ∈ twoImages, f.mmPosition.stop ≤ 6) ∧
      Request.new (some (requestBlockHasher serialize serializeSeed 4)) 0
        (some [1, 2, 3, 4, 5, 6]) none twoImages none none false = .ok twoImagesRequest ∧
      (let request := Request.appendChunks (requestBlockHasher serialize serializeSeed 4)
        twoImagesRequest [[7, 8]]
      request.blockHashes ≠
        requestBlockHasher serialize serializeSeed 4 { request with blockHashes := [] }) := by
  refine ⟨by simp [Ordered, twoImages, PlaceholderRange.stop],
    by simp [twoImages, PlaceholderRange.stop], rfl, ?_⟩
  decide

end VllmRuntime.BlockHash
