import VllmRuntime.Model.Base

/-! # Requests and their block hashes

The part of `vllm/v1/request.py` and `vllm/v1/core/kv_cache_utils.py` that computes
`request.block_hashes`. The hash function (`sha256`, `xxhash`, ...) and the seed
`NONE_HASH` are parameters. -/

namespace VllmRuntime

abbrev BlockHash := Bytes

/-- A `BlockHash` followed by the group id in four big-endian bytes. -/
abbrev BlockHashWithGroupId := Bytes

/-- `group_id.to_bytes(4, "big", signed=False)`; group ids stay below `2 ^ 32`. -/
def groupIdBytes (groupId : ℕ) : Bytes :=
  [UInt8.ofNat (groupId / 2 ^ 24), UInt8.ofNat (groupId / 2 ^ 16),
    UInt8.ofNat (groupId / 2 ^ 8), UInt8.ofNat groupId]

def makeBlockHashWithGroupId (blockHash : BlockHash) (groupId : ℕ) : BlockHashWithGroupId :=
  blockHash ++ groupIdBytes groupId

/-- `key[:-4]`. -/
def getBlockHash (key : BlockHashWithGroupId) : BlockHash :=
  key.take (key.length - 4)

/-- The block hashes seen outside the engine: the bytes, or their low 64 bits when
`VLLM_KV_EVENTS_USE_INT_BLOCK_HASHES` is set. -/
inductive ExternalBlockHash where
  | bytes (hash : BlockHash)
  | int (hash : ℕ)
  deriving DecidableEq, Repr

def maybeConvertBlockHash (useIntBlockHashes : Bool) (hash : BlockHash) : ExternalBlockHash :=
  if useIntBlockHashes then
    .int (hash.foldl (fun acc byte => acc * 256 + byte.toNat) 0 % 2 ^ 64)
  else
    .bytes hash

/-! ## Requests -/

structure PlaceholderRange where
  offset : ℕ
  length : ℕ
  /-- Which positions embeddings are assigned to, if not all. -/
  isEmbed : Option (List Bool) := none
  deriving DecidableEq, Repr

/-- One past the last position of a placeholder. -/
def PlaceholderRange.stop (r : PlaceholderRange) : ℕ := r.offset + r.length

structure MultiModalFeatureSpec where
  identifier : String
  mmPosition : PlaceholderRange
  deriving DecidableEq, Repr

structure LoRARequest where
  loraName : String
  loraIntId : ℕ
  deriving DecidableEq, Repr

/-- The fields of `vllm.v1.request.Request` that the modelled functions read. A row of
`promptEmbeds` holds the raw bytes of one position. -/
structure Request where
  requestId : RequestId
  promptTokenIds : Option (List TokenId)
  promptEmbeds : Option (List Bytes) := none
  mmFeatures : List MultiModalFeatureSpec := []
  loraRequest : Option LoRARequest := none
  cacheSalt : Option String := none
  numPromptTokens : ℕ
  outputTokenIds : List TokenId := []
  allTokenIds : List TokenId
  numComputedTokens : ℕ := 0
  blockHashes : List BlockHash := []
  skipReadingPrefixCache : Bool := false
  deriving DecidableEq, Repr

/-- `len(request._all_token_ids)`. -/
def Request.numTokens (r : Request) : ℕ := r.allTokenIds.length

/-- `len(request._output_token_ids)`. -/
def Request.numOutputTokens (r : Request) : ℕ := r.outputTokenIds.length

/-! ## Extra hash keys -/

/-- The entries of the `extra_keys` tuple: adapter names, multimodal identifiers and
salts are strings, prompt embeddings are bytes. -/
inductive ExtraKey where
  | str (value : String)
  | bytes (value : Bytes)
  deriving DecidableEq, Repr

/-- The `while` loop of `_gen_mm_extra_hash_keys` over the features from the cursor
`currMmIdx` on. -/
def genMmExtraHashKeysLoop (startTokenIdx endTokenIdx : ℕ) :
    List MultiModalFeatureSpec → ℤ → List String × ℤ
  | [], currMmIdx => ([], currMmIdx)
  | feature :: features, currMmIdx =>
    if endTokenIdx > feature.mmPosition.offset then
      if startTokenIdx > feature.mmPosition.stop then
        -- This block has passed the current item.
        genMmExtraHashKeysLoop startTokenIdx endTokenIdx features (currMmIdx + 1)
      else if endTokenIdx ≥ feature.mmPosition.stop then
        let rest := genMmExtraHashKeysLoop startTokenIdx endTokenIdx features (currMmIdx + 1)
        (feature.identifier :: rest.1, rest.2)
      else
        ([feature.identifier], currMmIdx)
    else
      ([], currMmIdx)

/-- `_gen_mm_extra_hash_keys`. A negative cursor counts from the end of the features. -/
def genMmExtraHashKeys (request : Request) (startTokenIdx endTokenIdx : ℕ) (startMmIdx : ℤ) :
    List String × ℤ :=
  match request.mmFeatures.getLast? with
  | none => ([], startMmIdx)
  | some last =>
    if last.mmPosition.stop < startTokenIdx then
      ([], startMmIdx)
    else
      let startMmIdx :=
        if startMmIdx < 0 then (request.mmFeatures.length : ℤ) + startMmIdx else startMmIdx
      genMmExtraHashKeysLoop startTokenIdx endTokenIdx
        (request.mmFeatures.drop startMmIdx.toNat) startMmIdx

/-- `_gen_lora_extra_hash_keys`. -/
def genLoraExtraHashKeys (request : Request) : List String :=
  match request.loraRequest with
  | none => []
  | some lora => [lora.loraName]

/-- The salt that enters the hash: an empty string counts as no salt. -/
def Request.saltKey (request : Request) : Option String :=
  request.cacheSalt.filter (· ≠ "")

/-- `cache_salt_keys` of `generate_block_hash_extra_keys`. -/
def cacheSaltKeys (request : Request) (startTokenIdx : ℕ) : List String :=
  if startTokenIdx = 0 then request.saltKey.toList else []

/-- `_gen_prompt_embeds_extra_hash_keys`. -/
def genPromptEmbedsExtraHashKeys (request : Request) (startTokenIdx endTokenIdx : ℕ) :
    List Bytes :=
  match request.promptEmbeds with
  | none => []
  | some rows => [((rows.take endTokenIdx).drop startTokenIdx).flatten]

def generateBlockHashExtraKeys (request : Request) (startTokenIdx endTokenIdx : ℕ)
    (startMmIdx : ℤ) : Option (List ExtraKey) × ℤ :=
  let mm := genMmExtraHashKeys request startTokenIdx endTokenIdx startMmIdx
  let extraKeys :=
    (genLoraExtraHashKeys request ++ mm.1 ++ cacheSaltKeys request startTokenIdx).map .str ++
      (genPromptEmbedsExtraHashKeys request startTokenIdx endTokenIdx).map .bytes
  (if extraKeys.isEmpty then none else some extraKeys, mm.2)

/-! ## Block hashes -/

/-- The tuple `(parent_block_hash, curr_block_token_ids_tuple, extra_keys)`. -/
structure HashInput where
  parentBlockHash : BlockHash
  currBlockTokenIds : List TokenId
  extraKeys : Option (List ExtraKey)
  deriving DecidableEq, Repr

section Hasher

variable (hashFunction : HashInput → BlockHash) (noneHash : BlockHash)

/-- `if not parent_block_hash: parent_block_hash = NONE_HASH`. -/
def orNoneHash : Option BlockHash → BlockHash
  | some (byte :: bytes) => byte :: bytes
  | _ => noneHash

def hashBlockTokens (parentBlockHash : Option BlockHash) (currBlockTokenIds : List TokenId)
    (extraKeys : Option (List ExtraKey)) : BlockHash :=
  hashFunction ⟨orNoneHash noneHash parentBlockHash, currBlockTokenIds, extraKeys⟩

/-- The `while True` loop of `request_block_hasher`, run for the `numBlocks` full blocks
from `startTokenIdx` on. -/
def requestBlockHasherLoop (blockSize : ℕ) (request : Request) :
    ℕ → ℕ → ℤ → Option BlockHash → List BlockHash
  | 0, _, _, _ => []
  | numBlocks + 1, startTokenIdx, currMmIdx, prevBlockHashValue =>
    let endTokenIdx := startTokenIdx + blockSize
    let extra := generateBlockHashExtraKeys request startTokenIdx endTokenIdx currMmIdx
    let blockTokens := (request.allTokenIds.take endTokenIdx).drop startTokenIdx
    let blockHash := hashBlockTokens hashFunction noneHash prevBlockHashValue blockTokens extra.1
    blockHash :: requestBlockHasherLoop blockSize request numBlocks endTokenIdx extra.2
      (some blockHash)

/-- `request_block_hasher`: the hashes of the full blocks that `request.block_hashes` does
not cover yet. The loop of the source stops at the first block that is not full, that
is, after `(num_tokens - start) // block_size` rounds. -/
def requestBlockHasher (blockSize : ℕ) (request : Request) : List BlockHash :=
  let startTokenIdx := request.blockHashes.length * blockSize
  let currMmIdx : ℤ := if startTokenIdx > 0 then -1 else 0
  requestBlockHasherLoop hashFunction noneHash blockSize request
    ((request.numTokens - startTokenIdx) / blockSize) startTokenIdx currMmIdx
    request.blockHashes.getLast?

end Hasher

/-! ## Life of a request -/

/-- `length_from_prompt_token_ids_or_embeds`. -/
def lengthFromPromptTokenIdsOrEmbeds :
    Option (List TokenId) → Option (List Bytes) → Except PyError ℕ
  | none, none => .error (.valueError "Neither prompt_token_ids nor prompt_embeds were defined.")
  | none, some rows => .ok rows.length
  | some ids, none => .ok ids.length
  | some ids, some rows =>
    if rows.length ≠ ids.length then
      .error (.valueError "Prompt token ids and prompt embeds had different lengths")
    else
      .ok ids.length

/-- `self.block_hashes.extend(self.get_hash_new_full_blocks())`, where a request without
a hasher keeps its (empty) list. -/
def Request.extendBlockHashes (hasher : Option (Request → List BlockHash)) (request : Request) :
    Request :=
  match hasher with
  | none => request
  | some hash => { request with blockHashes := request.blockHashes ++ hash request }

/-- `Request.__init__`. -/
def Request.new (hasher : Option (Request → List BlockHash)) (requestId : RequestId)
    (promptTokenIds : Option (List TokenId)) (promptEmbeds : Option (List Bytes))
    (mmFeatures : List MultiModalFeatureSpec) (loraRequest : Option LoRARequest)
    (cacheSalt : Option String) (skipReadingPrefixCache : Bool) : Except PyError Request := do
  let numPromptTokens ← lengthFromPromptTokenIdsOrEmbeds promptTokenIds promptEmbeds
  return Request.extendBlockHashes hasher
    { requestId, promptTokenIds, promptEmbeds, mmFeatures, loraRequest, cacheSalt,
      numPromptTokens, skipReadingPrefixCache,
      allTokenIds := promptTokenIds.getD (List.replicate numPromptTokens 0) }

def Request.appendOutputTokenIds (hasher : Option (Request → List BlockHash)) (request : Request)
    (tokenIds : List TokenId) : Request :=
  Request.extendBlockHashes hasher
    { request with
      outputTokenIds := request.outputTokenIds ++ tokenIds
      allTokenIds := request.allTokenIds ++ tokenIds }

end VllmRuntime
