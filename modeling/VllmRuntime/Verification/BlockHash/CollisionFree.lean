import VllmRuntime.Shared.SelfDelimiting
import VllmRuntime.Verification.BlockHash.Equations

/-! # Hash functions without collisions

The properties of the caching hash function that the prefix cache relies on, and an
executable function that has them. -/

namespace VllmRuntime.BlockHash

/-- Digests identify what was hashed, none of them is the seed, and none is a proper
prefix of another (the digests of one function have one length). -/
structure CollisionFree (hashFunction : HashInput → BlockHash) (noneHash : BlockHash) : Prop where
  injective : Function.Injective hashFunction
  ne_noneHash : ∀ input, hashFunction input ≠ noneHash
  prefixFree : ∀ input input', hashFunction input <+: hashFunction input' →
    hashFunction input = hashFunction input'

variable {hashFunction : HashInput → BlockHash} {noneHash : BlockHash}

lemma hashStep_injective (h : Function.Injective hashFunction) (parent : Option BlockHash) :
    Function.Injective (hashStep hashFunction noneHash parent) := by
  rintro ⟨tokens, keys⟩ ⟨tokens', keys'⟩ heq
  have := h heq
  simp only [HashInput.mk.injEq] at this
  exact Prod.ext this.2.1 this.2.2

lemma orNoneHash_of_ne_nil {digest : BlockHash} (h : digest ≠ []) :
    orNoneHash noneHash (some digest) = digest := by
  cases digest with
  | nil => exact absurd rfl h
  | cons byte bytes => rfl

lemma hashStep_chainInjective (hinj : Function.Injective hashFunction)
    (hne : ∀ input, hashFunction input ≠ []) :
    HashChain.Injective (hashStep hashFunction noneHash) where
  root _ _ heq := hashStep_injective hinj none heq
  next p p' b b' a a' heq := by
    have h := hinj heq
    simp only [HashInput.mk.injEq] at h
    have hb : hashStep hashFunction noneHash p b ≠ [] := hne _
    have hb' : hashStep hashFunction noneHash p' b' ≠ [] := hne _
    rw [orNoneHash_of_ne_nil hb, orNoneHash_of_ne_nil hb'] at h
    exact ⟨h.1, Prod.ext h.2.1 h.2.2⟩

section

variable (h : CollisionFree hashFunction noneHash)
include h

lemma CollisionFree.ne_nil (input : HashInput) :
    hashFunction input ≠ [] := by
  intro hnil
  let other : HashInput := { input with currBlockTokenIds := 0 :: input.currBlockTokenIds }
  have hpre : hashFunction input <+: hashFunction other := by simp [hnil]
  have heq := h.injective (h.prefixFree input other hpre)
  have := congrArg (fun i => i.currBlockTokenIds.length) heq
  simp [other] at this

lemma CollisionFree.root_ne_next (a : BlockInput)
    (p : Option BlockHash) (b a' : BlockInput) :
    hashStep hashFunction noneHash none a ≠
      hashStep hashFunction noneHash (some (hashStep hashFunction noneHash p b)) a' := by
  intro heq
  have h' := h.injective heq
  simp only [HashInput.mk.injEq] at h'
  have hb : hashStep hashFunction noneHash p b ≠ [] := h.ne_nil _
  rw [orNoneHash_of_ne_nil hb] at h'
  exact h.ne_noneHash _ h'.1.symm

/-- A block hash stands at one index only, in the hashes of all requests. -/
lemma CollisionFree.chain_index_eq {inputs inputs' : List BlockInput} {i j : ℕ} {hash : BlockHash}
    (hi : (HashChain.chain (hashStep hashFunction noneHash) none inputs)[i]? = some hash)
    (hj : (HashChain.chain (hashStep hashFunction noneHash) none inputs')[j]? = some hash) : i = j :=
  (hashStep_chainInjective h.injective h.ne_nil).index_eq h.root_ne_next hi hj

/-- The hashes of one request are pairwise different. -/
lemma CollisionFree.chain_nodup (inputs : List BlockInput) :
    (HashChain.chain (hashStep hashFunction noneHash) none inputs).Nodup :=
  (hashStep_chainInjective h.injective h.ne_nil).chain_nodup h.root_ne_next inputs

end

/-! ## A collision-free function -/

def byteCode : UInt8 → Bytes := fun byte => [byte]

lemma byteCode_selfDelimiting : SelfDelimiting byteCode := by
  intro a b front back h
  simpa [byteCode] using h

def tokensCode : List ℕ → Bytes := encodeList 1 0 (unary 1 0)

lemma tokensCode_selfDelimiting : SelfDelimiting tokensCode :=
  encodeList_selfDelimiting (by decide) (unary_selfDelimiting (by decide))

def stringCode : String → Bytes := tokensCode ∘ fun s => s.toList.map Char.toNat

lemma stringCode_selfDelimiting : SelfDelimiting stringCode := by
  apply tokensCode_selfDelimiting.comp
  intro s t h
  have hchar : Function.Injective Char.toNat := fun a b hab => Char.toNat_inj.mp hab
  exact String.toList_inj.mp (List.map_injective_iff.mpr hchar h)

def ExtraKey.toSum : ExtraKey → String ⊕ Bytes
  | .str value => .inl value
  | .bytes value => .inr value

def extraKeyCode : ExtraKey → Bytes :=
  encodeSum 0 1 stringCode (encodeList 1 0 byteCode) ∘ ExtraKey.toSum

lemma extraKeyCode_selfDelimiting : SelfDelimiting extraKeyCode := by
  apply (encodeSum_selfDelimiting (by decide) stringCode_selfDelimiting
    (encodeList_selfDelimiting (by decide) byteCode_selfDelimiting)).comp
  rintro (a | a) (b | b) h <;> simp_all [ExtraKey.toSum]

def extraKeysCode : Option (List ExtraKey) → Bytes
  | none => [0]
  | some keys => 1 :: encodeList 1 0 extraKeyCode keys

lemma extraKeysCode_selfDelimiting : SelfDelimiting extraKeysCode := by
  have h : SelfDelimiting (encodeList 1 0 extraKeyCode) :=
    encodeList_selfDelimiting (by decide) extraKeyCode_selfDelimiting
  rintro (_ | a) (_ | b) front back hcode
  · simpa [extraKeysCode] using hcode
  · simp [extraKeysCode] at hcode
  · simp [extraKeysCode] at hcode
  · obtain ⟨rfl, hrest⟩ := h a b front back (by simpa [extraKeysCode] using hcode)
    exact ⟨rfl, hrest⟩

/-- The whole hash input, written out. -/
def serialize (input : HashInput) : BlockHash :=
  encodeList 1 0 byteCode input.parentBlockHash ++
    (tokensCode input.currBlockTokenIds ++ extraKeysCode input.extraKeys)

lemma serialize_selfDelimiting : SelfDelimiting serialize := by
  have hparent : SelfDelimiting (encodeList 1 0 byteCode) :=
    encodeList_selfDelimiting (by decide) byteCode_selfDelimiting
  have h := hparent.pair (tokensCode_selfDelimiting.pair extraKeysCode_selfDelimiting)
  apply h.comp (f := fun input : HashInput =>
    (input.parentBlockHash, input.currBlockTokenIds, input.extraKeys))
  rintro ⟨p, t, e⟩ ⟨p', t', e'⟩ heq
  simp_all

/-- A seed that no serialized input starts with. -/
def serializeSeed : BlockHash := [2]

lemma serialize_collisionFree : CollisionFree serialize serializeSeed where
  injective := serialize_selfDelimiting.injective
  ne_noneHash input := by
    rcases input with ⟨_ | ⟨b, p⟩, t, e⟩ <;>
      simp [serialize, serializeSeed, encodeList, unary, List.replicate_succ]
  prefixFree input input' h := by rw [serialize_selfDelimiting.eq_of_isPrefix h]

end VllmRuntime.BlockHash
