import VllmRuntime.Verification.BlockHash.Incremental

/-! # What equal block hashes say about two requests

Adapter name, multimodal identifiers and salt enter the hash as one list of strings without
tags. Equal hashes give back the single parts when both requests have the same parts, and
need not do so otherwise. -/

namespace VllmRuntime.BlockHash

open List

variable {request request' : Request} {blockSize i : ℕ} {features : List MultiModalFeatureSpec}
  {rows : List Bytes} {identifier : String} {j : ℕ} {α : Type*} {a a' : Option α} {l l' : List α}

/-! ## Items in a range of tokens -/

/-- The rows of a tensor have one width. -/
def Rectangular (rows : List Bytes) : Prop := ∃ width, ∀ row ∈ rows, row.length = width

lemma Rectangular.slice (h : Rectangular rows) (s e : ℕ) :
    Rectangular ((rows.take e).drop s) := by
  obtain ⟨width, hwidth⟩ := h
  exact ⟨width, fun row hrow => hwidth row (mem_of_mem_take (mem_of_mem_drop hrow))⟩

/-! ## Two requests hashed at creation -/

/-- The request is the result of `Request.__init__` with this hasher. -/
def CreatedBy (hashFunction : HashInput → BlockHash) (noneHash : BlockHash) (blockSize : ℕ)
    (request : Request) : Prop :=
  ∃ requestId promptTokenIds promptEmbeds mmFeatures loraRequest cacheSalt skip,
    Request.new (some (requestBlockHasher hashFunction noneHash blockSize)) requestId
      promptTokenIds promptEmbeds mmFeatures loraRequest cacheSalt skip = .ok request

variable {hashFunction : HashInput → BlockHash} {noneHash : BlockHash}

lemma CreatedBy.blockHashes (h : CreatedBy hashFunction noneHash blockSize request)
    (hord : Ordered request.mmFeatures) :
    request.blockHashes = HashChain.chain (hashStep hashFunction noneHash) none
      ((range (request.numTokens / blockSize)).map (blockInput request blockSize)) := by
  obtain ⟨requestId, promptTokenIds, promptEmbeds, mmFeatures, loraRequest, cacheSalt, skip, h⟩ := h
  obtain ⟨base, rfl, hnil, -⟩ := Request.new_eq_ok h
  simp only [Request.extendBlockHashes, hnil, nil_append]
  have hbase : Ordered base.mmFeatures := hord
  exact requestBlockHasher_onePass hashFunction noneHash hbase hnil blockSize

end VllmRuntime.BlockHash
