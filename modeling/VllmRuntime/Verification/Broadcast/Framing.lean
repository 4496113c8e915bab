import VllmRuntime.Model.MessageQueue

/-! # Framing of a message in a chunk

What `enqueue` writes fits in the chunk, and it is there when all assignments are made. -/

namespace VllmRuntime

open List

variable {ω : Type} {start : ℕ} {rest : Bytes} {buffers : List Bytes} {message : QueueMessage ω}

/-! ## Numbers -/

@[simp] lemma length_bytesBig (size value : ℕ) : (bytesBig size value).length = size := by
  induction size generalizing value with
  | zero => rfl
  | succ size ih => simp [bytesBig, ih]

lemma fromBytesBig_append (bytes : Bytes) (byte : UInt8) :
    fromBytesBig (bytes ++ [byte]) = fromBytesBig bytes * 256 + byte.toNat := by
  simp [fromBytesBig]

lemma fromBytesBig_bytesBig (size value : ℕ) :
    fromBytesBig (bytesBig size value) = value % 256 ^ size := by
  induction size generalizing value with
  | zero => simp [bytesBig, fromBytesBig, Nat.mod_one]
  | succ size ih =>
    rw [bytesBig, fromBytesBig_append, ih, pow_succ', Nat.mod_mul, UInt8.toNat_ofNat']
    omega

/-- An assignment of a number. -/
lemma map_toBytesBig_eq_ok {value size offset : ℕ} {bytes : Bytes}
    (h : (toBytesBig value size).map (offset, ·) = .ok (start, bytes)) :
    start = offset ∧ bytes = bytesBig size value ∧ value < 256 ^ size := by
  unfold toBytesBig at h
  split at h
  · cases h
    exact ⟨rfl, rfl, ‹_›⟩
  · cases h

/-! ## Slices -/

variable {buf buf' bytes : Bytes} {offset : ℕ}

lemma writeSlice_eq_ok (h : writeSlice buf offset bytes = .ok buf') :
    buf' = buf.take offset ++ bytes ++ buf.drop (offset + bytes.length) ∧ buf'.length = buf.length ∧
      (bytes ≠ [] → offset + bytes.length ≤ buf.length) := by
  unfold writeSlice at h
  split at h
  case isFalse => cases h
  rename_i hlength
  cases h
  rw [readSlice, length_drop, length_take] at hlength
  refine ⟨rfl, ?_, fun hne => ?_⟩
  · simp only [length_append, length_take, length_drop]
    omega
  · have hpos := List.length_pos_iff.mpr hne
    omega

/-- All assignments, one after the other. -/
def applyWrites : List ChunkWrite → Bytes → Except PyError Bytes
  | [], buf => .ok buf
  | .error e :: _, _ => .error e
  | .ok (offset, bytes) :: writes, buf =>
    match writeSlice buf offset bytes with
    | .error e => .error e
    | .ok buf => applyWrites writes buf

/-- The buffers with their lengths. -/
def framed (buffers : List Bytes) : Bytes :=
  buffers.flatMap fun buffer => bytesBig 4 buffer.length ++ buffer

lemma framed_cons (buffer : Bytes) (buffers : List Bytes) :
    framed (buffer :: buffers) = bytesBig 4 buffer.length ++ (buffer ++ framed buffers) := by
  simp [framed]

lemma applyWrites_cons_eq_ok {write : ChunkWrite} {writes : List ChunkWrite}
    (h : applyWrites (write :: writes) buf = .ok buf') : ∃ offset bytes buf₁,
      write = .ok (offset, bytes) ∧ writeSlice buf offset bytes = .ok buf₁ ∧
        applyWrites writes buf₁ = .ok buf' := by
  cases write with
  | error e => cases h
  | ok slice =>
    obtain ⟨offset, bytes⟩ := slice
    rw [applyWrites] at h
    cases hslice : writeSlice buf offset bytes with
    | error e =>
      rw [hslice] at h
      cases h
    | ok buf₁ =>
      rw [hslice] at h
      exact ⟨offset, bytes, buf₁, rfl, hslice, h⟩

/-- An assignment right after the bytes that are written. -/
lemma writeSlice_append (front : Bytes) (h : writeSlice (front ++ rest) front.length bytes = .ok buf') :
    ∃ rest', buf' = front ++ bytes ++ rest' := by
  obtain ⟨rfl, -, -⟩ := writeSlice_eq_ok h
  exact ⟨_, by rw [take_left]⟩

lemma applyWrites_bufferWrites (front : Bytes)
    (h : applyWrites (bufferWrites front.length buffers) (front ++ rest) = .ok buf') :
    (∀ buffer ∈ buffers, buffer.length < 256 ^ 4) ∧ ∃ rest', buf' = front ++ framed buffers ++ rest' := by
  induction buffers generalizing front rest with
  | nil =>
    cases h
    exact ⟨by simp, rest, by simp [framed]⟩
  | cons buffer buffers ih =>
    rw [bufferWrites] at h
    obtain ⟨_, bytes, buf₁, hwrite, hslice, h⟩ := applyWrites_cons_eq_ok h
    obtain ⟨rfl, rfl, hsmall⟩ := map_toBytesBig_eq_ok hwrite
    obtain ⟨rest₁, rfl⟩ := writeSlice_append front hslice
    obtain ⟨_, _, buf₂, hwrite₂, hslice₂, h⟩ := applyWrites_cons_eq_ok h
    cases hwrite₂
    have hfront : front.length + 4 = (front ++ bytesBig 4 buffer.length).length := by simp
    rw [hfront] at hslice₂ h
    obtain ⟨rest₂, rfl⟩ := writeSlice_append _ hslice₂
    rw [← length_append] at h
    obtain ⟨hsmalls, rest', rfl⟩ := ih _ h
    refine ⟨List.forall_mem_cons.mpr ⟨hsmall, hsmalls⟩, rest', ?_⟩
    simp [framed_cons]

/-- The chunk has the message. -/
def Framed (buf : Bytes) (message : QueueMessage ω) : Prop :=
  if message.overflow then buf[0]? = some 1
  else message.allBuffers.length < 256 ^ 2 ∧ (∀ buffer ∈ message.allBuffers, buffer.length < 256 ^ 4) ∧
    ∃ rest, buf = 0 :: (bytesBig 2 message.allBuffers.length ++ (framed message.allBuffers ++ rest))

lemma applyWrites_writes (h : applyWrites message.writes buf = .ok buf') :
    Framed buf' message := by
  unfold QueueMessage.writes at h
  unfold Framed
  split
  · rename_i hoverflow
    rw [if_pos hoverflow] at h
    obtain ⟨_, _, buf₁, hwrite, hslice, h⟩ := applyWrites_cons_eq_ok h
    cases hwrite
    cases h
    obtain ⟨rest, rfl⟩ := writeSlice_append [] hslice
    rfl
  · rename_i hinline
    rw [if_neg hinline] at h
    obtain ⟨_, _, buf₁, hwrite, hslice, h⟩ := applyWrites_cons_eq_ok h
    cases hwrite
    obtain ⟨rest₁, rfl⟩ := writeSlice_append [] hslice
    obtain ⟨_, bytes, buf₂, hwrite, hslice₂, h⟩ := applyWrites_cons_eq_ok h
    obtain ⟨rfl, rfl, hfew⟩ := map_toBytesBig_eq_ok hwrite
    obtain ⟨rest₂, rfl⟩ := writeSlice_append [0] hslice₂
    obtain ⟨hsmall, rest, rfl⟩ :=
      applyWrites_bufferWrites ([0] ++ bytesBig 2 message.allBuffers.length) (by simpa using h)
    exact ⟨hfew, hsmall, rest, by simp⟩

lemma Framed.inline (h : Framed buf message) (hinline : message.overflow = false) :
    message.allBuffers.length < 256 ^ 2 ∧ (∀ buffer ∈ message.allBuffers, buffer.length < 256 ^ 4) ∧
      ∃ rest, buf = 0 :: (bytesBig 2 message.allBuffers.length ++ (framed message.allBuffers ++ rest)) := by
  rwa [Framed, hinline, if_neg Bool.false_ne_true] at h

/-! ## Sizes -/

lemma length_framed (buffers : List Bytes) :
    (framed buffers).length = (buffers.map fun buffer => buffer.length + 4).sum := by
  induction buffers with
  | nil => rfl
  | cons buffer buffers ih =>
    rw [framed_cons, map_cons, sum_cons, ← ih]
    simp
    omega

lemma bufferWrites_fit (h : .ok (start, bytes) ∈ bufferWrites offset buffers) :
    start + bytes.length ≤ offset + (framed buffers).length := by
  induction buffers generalizing offset with
  | nil => cases h
  | cons buffer buffers ih =>
    rw [framed_cons, length_append, length_append, length_bytesBig]
    rw [bufferWrites, mem_cons, mem_cons] at h
    rcases h with hlength | hcontent | hrest
    · obtain ⟨rfl, rfl, -⟩ := map_toBytesBig_eq_ok hlength.symm
      rw [length_bytesBig]
      omega
    · cases hcontent
      omega
    · have hfit := ih hrest
      omega

/-- A message that does not go over the socket fits in the chunk. -/
lemma writes_fit {config : QueueConfig} {pickle : Pickle ω} {object : ω}
    (hinline : (config.message pickle object).overflow = false)
    (h : .ok (start, bytes) ∈ (config.message pickle object).writes) :
    start + bytes.length ≤ config.maxChunkBytes := by
  have hsize : totalBytes (pickle.dumps oobCallback object).2 +
      (pickle.dumps oobCallback object).1.length < config.maxChunkBytes := by
    simpa [QueueConfig.message] using hinline
  have hframed : (framed (config.message pickle object).allBuffers).length + 3 =
      totalBytes (pickle.dumps oobCallback object).2 + (pickle.dumps oobCallback object).1.length + 1 := by
    change (framed ((pickle.dumps oobCallback object).1 :: (pickle.dumps oobCallback object).2)).length + 3 = _
    rw [length_framed, totalBytes, map_cons, sum_cons]
    omega
  rw [QueueMessage.writes, hinline, if_neg Bool.false_ne_true, mem_cons, mem_cons] at h
  rcases h with hfirst | hcount | hrest
  · cases hfirst
    change 0 + 1 ≤ _
    omega
  · obtain ⟨rfl, rfl, -⟩ := map_toBytesBig_eq_ok hcount.symm
    rw [length_bytesBig]
    omega
  · have hfit := bufferWrites_fit hrest
    omega

end VllmRuntime
