import VllmRuntime.Verification.Broadcast.Framing

/-! # Invariant of the ring

The messages that were marked as written are numbered. The chunks hold the last of them, the writer is at
most one round ahead of each reader, and it writes to a chunk only when no reader has to read it. -/

namespace VllmRuntime

open List Function

variable {ω : Type}

/-! ## Objects in use -/

/-- The chunk of a buffer. -/
def QueueBuffer.idx? : QueueBuffer → Option ℕ
  | .slice idx _ _ => some idx
  | .frame _ => none

/-- A buffer of the object is in the chunk. -/
def QueueObject.RefersTo (object : QueueObject) (idx : ℕ) : Prop :=
  ∃ buffer ∈ object.oob, buffer.idx? = some idx

instance (object : QueueObject) (idx : ℕ) : Decidable (object.RefersTo idx) :=
  inferInstanceAs (Decidable (∃ buffer ∈ object.oob, buffer.idx? = some idx))

/-- An object does not change with the chunks in which it has no buffer. -/
lemma QueueObject.value_congr {pickle : Pickle ω} {object : QueueObject} {data data' : ℕ → Bytes}
    (h : ∀ idx, object.RefersTo idx → data' idx = data idx) :
    object.value pickle data' = object.value pickle data := by
  have hbytes : ∀ buffer ∈ object.oob, buffer.bytes data' = buffer.bytes data := by
    intro buffer hmem
    cases buffer with
    | frame bytes => rfl
    | slice idx start stop => rw [QueueBuffer.bytes, QueueBuffer.bytes, h idx ⟨_, hmem, rfl⟩]
  rw [value, value, map_congr_left hbytes]

/-! ## Phases -/

/-- The writer holds a chunk. -/
def WriterPhase.isWriting : WriterPhase ω → Bool
  | .acquired _ => true
  | .writing _ _ => true
  | .resetting _ _ => true
  | _ => false

/-- The writer writes to its chunk, which is marked as not written. -/
def WriterPhase.isRewriting : WriterPhase ω → Bool
  | .writing _ _ => true
  | .resetting _ _ => true
  | _ => false

lemma WriterPhase.isWriting_of_isRewriting {phase : WriterPhase ω} (h : phase.isRewriting = true) :
    phase.isWriting = true := by
  cases phase <;> first | rfl | cases h

/-- The message that is marked as written but not sent. -/
def WriterPhase.unsent : WriterPhase ω → List (QueueMessage ω)
  | .sending message => [message]
  | _ => []

/-- The object of the call of `enqueue` that has not returned. -/
def WriterPhase.object? : WriterPhase ω → Option ω
  | .idle => none
  | .counting message _ _ => some message.object
  | .waiting message => some message.object
  | .acquired message => some message.object
  | .writing message _ => some message.object
  | .resetting message _ => some message.object
  | .sending message => some message.object

/-- The reader reads the data of its chunk. -/
def ReaderPhase.isReading : ReaderPhase ω → Bool
  | .overflowByte => true
  | .bufCount => true
  | .bufLen _ _ _ => true
  | .parsed _ => true
  | .done _ => true
  | _ => false

/-- The reader has read a chunk whose message comes over the socket. -/
def ReaderPhase.awaitsSocket : ReaderPhase ω → Bool
  | .receiving => true
  | .timedOut => true
  | _ => false

/-- The number of chunks that the reader has read. -/
def QueueReader.consumed (reader : QueueReader ω) : ℕ :=
  reader.dequeued.length + reader.phase.awaitsSocket.toNat

/-- What is left in the socket are the messages that the reader has not dequeued. -/
structure QueueReader.Receives (reader : QueueReader ω) (sent : List (QueueMessage ω)) : Prop where
  le : reader.dequeued.length ≤ sent.length
  localSocket : reader.localSocket =
    ((sent.drop reader.dequeued.length).filter (·.overflow)).map (·.allBuffers)

/-- The reader's next message is inside the chunk. -/
def Inline (published : List (QueueMessage ω)) (k : ℕ) (message : QueueMessage ω) : Prop :=
  published[k]? = some message ∧ message.overflow = false

/-- The bytes of the slices of a chunk. -/
def readSlices (buf : Bytes) (slices : List (ℕ × ℕ)) : List Bytes :=
  slices.map fun slice => readSlice buf slice.1 slice.2

/-- What a reader has found out about its chunk: `k` messages are dequeued, `buf` is the data of the
chunk and `flag` the reader's own flag. -/
def ReaderPhase.Inv (published : List (QueueMessage ω)) (k : ℕ) (buf : Bytes) (flag : Bool) :
    ReaderPhase ω → Prop
  | .idle => True
  | .checking => True
  | .waiting => True
  | .checked readFlag => readFlag = false → k < published.length ∨ flag = false
  | .overflowByte => k < published.length
  | .bufCount => ∃ message, Inline published k message
  | .bufLen remaining offset allBuffers => ∃ message, Inline published k message ∧
      ∃ buffers rest, readSlices buf allBuffers ++ buffers = message.allBuffers ∧ remaining = buffers.length ∧
        (∀ buffer ∈ buffers, buffer.length < 256 ^ 4) ∧ buf.drop offset = framed buffers ++ rest
  | .parsed allBuffers => ∃ message, Inline published k message ∧ readSlices buf allBuffers = message.allBuffers
  | .done (some object) => ∃ message, Inline published k message ∧ object = message.object
  | .done none => ∃ message, published[k]? = some message ∧ message.overflow = true
  | .receiving => ∃ message, published[k]? = some message ∧ message.overflow = true
  | .timedOut => ∃ message, published[k]? = some message ∧ message.overflow = true

section Phases

variable {published : List (QueueMessage ω)} {k : ℕ} {buf buf' : Bytes} {flag flag' : Bool}
  {phase : ReaderPhase ω} {message : QueueMessage ω}

/-- A reader that reads a chunk has a message to read. -/
lemma ReaderPhase.Inv.lt_of_isReading (h : phase.Inv published k buf flag)
    (hreading : phase.isReading = true) : k < published.length := by
  cases phase with
  | overflowByte => exact h
  | bufCount =>
    obtain ⟨message, hmessage, -⟩ := h
    exact lt_of_getElem? hmessage
  | bufLen remaining offset allBuffers | parsed allBuffers =>
    obtain ⟨message, ⟨hmessage, -⟩, -⟩ := h
    exact lt_of_getElem? hmessage
  | done object =>
    cases object with
    | none =>
      obtain ⟨message, hmessage, -⟩ := h
      exact lt_of_getElem? hmessage
    | some object =>
      obtain ⟨message, ⟨hmessage, -⟩, -⟩ := h
      exact lt_of_getElem? hmessage
  | _ => cases hreading

/-- A step of the writer does not change what a reader has found out. -/
lemma ReaderPhase.Inv.mono (h : phase.Inv published k buf flag) (more : List (QueueMessage ω))
    (hbuf : phase.isReading = true → buf' = buf) (hflag : flag' = true → flag = true) :
    phase.Inv (published ++ more) k buf' flag' := by
  have hnext : ∀ {message}, published[k]? = some message → (published ++ more)[k]? = some message :=
    fun hmessage => by rw [getElem?_append_left (lt_of_getElem? hmessage), hmessage]
  cases phase with
  | checked readFlag =>
    intro hread
    refine (h hread).imp (fun hlt => ?_) fun hfalse => ?_
    · rw [length_append]
      omega
    · by_contra htrue
      rw [hflag (by simpa using htrue)] at hfalse
      cases hfalse
  | overflowByte =>
    change k < (published ++ more).length
    rw [length_append]
    exact Nat.lt_add_right _ h
  | bufCount =>
    obtain ⟨message, hmessage, hinline⟩ := h
    exact ⟨message, hnext hmessage, hinline⟩
  | bufLen remaining offset allBuffers | parsed allBuffers =>
    obtain ⟨message, ⟨hmessage, hinline⟩, hrest⟩ := h
    rw [hbuf rfl]
    exact ⟨message, ⟨hnext hmessage, hinline⟩, hrest⟩
  | done object =>
    cases object with
    | none =>
      obtain ⟨message, hmessage, hoverflow⟩ := h
      exact ⟨message, hnext hmessage, hoverflow⟩
    | some object =>
      obtain ⟨message, ⟨hmessage, hinline⟩, hobject⟩ := h
      exact ⟨message, ⟨hnext hmessage, hinline⟩, hobject⟩
  | receiving | timedOut =>
    obtain ⟨message, hmessage, hoverflow⟩ := h
    exact ⟨message, hnext hmessage, hoverflow⟩
  | _ => trivial

end Phases

/-! ## The ring -/

namespace MessageQueue

variable (config : QueueConfig) (pickle : Pickle ω) (kept : Prop)

/-- The message was made from an object by `enqueue`. -/
def Made (message : QueueMessage ω) : Prop := ∃ object, message = config.message pickle object

/-- The chunk of the message with this number holds it. -/
structure Filled (s : MessageQueue ω) (j : ℕ) (message : QueueMessage ω) : Prop where
  written : s.written (j % config.maxChunks) = true
  framed : Framed (s.data (j % config.maxChunks)) message
  read : ∀ r < config.nReader, s.read (j % config.maxChunks) r = decide (j < (s.readers r).consumed)

/-- No reader has to read the chunk that the writer is at. -/
def AllRead (s : MessageQueue ω) (n : ℕ) : Prop :=
  ∀ r < config.nReader, n < (s.readers r).consumed + config.maxChunks

/-- What the writer has found out. -/
def WriterInv (s : MessageQueue ω) (published : List (QueueMessage ω)) : WriterPhase ω → Prop
  | .idle => True
  | .counting message i readCount => Made config pickle message ∧ i ≤ config.nReader ∧
      readCount ≤ i ∧ (readCount = i → ∀ r < i, s.read s.currentIdx r = true)
  | .waiting message => Made config pickle message
  | .acquired message => Made config pickle message ∧ s.AllRead config published.length
  | .writing message writes => Made config pickle message ∧ s.AllRead config published.length ∧
      s.written s.currentIdx = false ∧ (∀ write ∈ writes, write ∈ message.writes) ∧
      ∀ buf, applyWrites writes (s.data s.currentIdx) = .ok buf → Framed buf message
  | .resetting message i => Made config pickle message ∧ s.AllRead config published.length ∧
      s.written s.currentIdx = false ∧ Framed (s.data s.currentIdx) message ∧
      ∀ r < i, s.read s.currentIdx r = false
  | .sending message => message.overflow = true

/-- No object that the program still uses has a buffer in the chunk of the writer. -/
def NotShared (s : MessageQueue ω) : Prop :=
  ∀ r < config.nReader, ∀ p ∈ (s.readers r).held, ¬ p.2.RefersTo s.currentIdx

/-- The object is the one of the message with its number, and the writer does not write to it. -/
def Keeps (s : MessageQueue ω) (published : List (QueueMessage ω)) (p : ℕ × QueueObject) : Prop :=
  (∃ message, published[p.1]? = some message ∧ p.2.value pickle s.data = .ok message.object) ∧
    (s.phase.isRewriting = true → ¬ p.2.RefersTo s.currentIdx)

/-- The objects in use are in the invariant of the runs in which they are `kept`. -/
structure Inv (s : MessageQueue ω) (published : List (QueueMessage ω)) : Prop where
  idx : s.currentIdx = published.length % config.maxChunks
  readerIdx : ∀ r < config.nReader,
    (s.readers r).currentIdx = (s.readers r).consumed % config.maxChunks
  behind : ∀ r < config.nReader, (s.readers r).consumed ≤ published.length
  ahead : ∀ r < config.nReader, published.length ≤ (s.readers r).consumed + config.maxChunks
  made : ∀ message ∈ published, Made config pickle message
  filled : ∀ j message, published[j]? = some message → published.length < j + config.maxChunks →
    s.Filled config j message
  current : s.written s.currentIdx = false ∧ s.AllRead config published.length ∨
    ∃ j message, published[j]? = some message ∧ j + config.maxChunks = published.length ∧
      s.Filled config j message
  unused : ∀ i, published.length < i → i < config.maxChunks → s.written i = false
  writer : s.WriterInv config pickle published s.phase
  readers : ∀ r < config.nReader, (s.readers r).phase.Inv published (s.readers r).dequeued.length
    (s.data (s.readers r).currentIdx) (s.read (s.readers r).currentIdx r)
  dequeued : ∀ r < config.nReader, (s.readers r).dequeued =
    (published.take (s.readers r).dequeued.length).map (·.object)
  sent : ∃ sent, published = sent ++ s.phase.unsent ∧ ∀ r < config.nReader, (s.readers r).Receives sent
  enqueued : 0 < config.nReader →
    published.map (·.object) = s.enqueued ++ s.phase.unsent.map (·.object)
  held : kept → ∀ r < config.nReader, ∀ p ∈ (s.readers r).held, s.Keeps pickle published p

variable {config pickle kept} {s : MessageQueue ω} {published : List (QueueMessage ω)} {r : ℕ}

lemma mod_ne {m a b : ℕ} (hlt : a < b) (hle : b < a + m) : a % m ≠ b % m := by
  intro heq
  have hdvd : m ∣ b - a := (Nat.modEq_iff_dvd' hlt.le).mp heq
  have := Nat.le_of_dvd (by omega) hdvd
  omega

/-- A reader that reads is not at the chunk that the writer holds. -/
lemma Inv.idx_ne (h : s.Inv config pickle kept published) (hfree : s.AllRead config published.length)
    (hr : r < config.nReader) (hreading : (s.readers r).phase.isReading = true) :
    (s.readers r).currentIdx ≠ s.currentIdx := by
  have hlt := (h.readers r hr).lt_of_isReading hreading
  have hconsumed : (s.readers r).consumed = (s.readers r).dequeued.length := by
    rw [QueueReader.consumed]
    cases hphase : (s.readers r).phase <;> rw [hphase] at hreading <;> first | rfl | cases hreading
  have hahead := hfree r hr
  rw [h.readerIdx r hr, h.idx]
  rw [hconsumed] at hahead ⊢
  exact mod_ne hlt hahead

lemma Inv.exclusive (h : s.Inv config pickle kept published) (hr : r < config.nReader)
    (hreading : (s.readers r).phase.isReading = true) (hwriting : s.phase.isWriting = true) :
    (s.readers r).currentIdx ≠ s.currentIdx := by
  refine h.idx_ne ?_ hr hreading
  have hwriter := h.writer
  cases hphase : s.phase with
  | acquired message =>
    rw [hphase] at hwriter
    exact hwriter.2
  | writing message writes =>
    rw [hphase] at hwriter
    exact hwriter.2.1
  | resetting message i =>
    rw [hphase] at hwriter
    exact hwriter.2.1
  | _ =>
    rw [hphase] at hwriting
    cases hwriting

/-- The message that a reader has to read next is in its chunk. -/
lemma Inv.filled_next (h : s.Inv config pickle kept published) (hr : r < config.nReader) {message : QueueMessage ω}
    (hmessage : published[(s.readers r).consumed]? = some message) :
    s.Filled config (s.readers r).consumed message := by
  rcases Nat.lt_or_eq_of_le (h.ahead r hr) with hlt | heq
  · exact h.filled _ message hmessage hlt
  · rcases h.current with ⟨-, hall⟩ | ⟨j, message', hmessage', hj, hfilled⟩
    · have := hall r hr
      omega
    · obtain rfl : j = (s.readers r).consumed := by omega
      rw [hmessage] at hmessage'
      cases hmessage'
      exact hfilled

end MessageQueue

end VllmRuntime
