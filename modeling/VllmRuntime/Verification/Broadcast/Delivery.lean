import VllmRuntime.Verification.Broadcast.Writer
import VllmRuntime.Verification.Broadcast.Reader

/-! # Delivery

In every run, each reader dequeues what was enqueued, in order. An object whose buffers are in a chunk
stays as it was as long as the writer does not come back to this chunk. -/

namespace VllmRuntime

open List Function

variable {ω : Type}

namespace MessageQueue

variable {config : QueueConfig} {pickle : Pickle ω} {kept : Prop} {s : MessageQueue ω}
  {published : List (QueueMessage ω)}

lemma inv_initial (hm : 0 < config.maxChunks) (data : ℕ → Bytes) :
    (initial data : MessageQueue ω).Inv config pickle kept [] where
  idx := (Nat.zero_mod _).symm
  readerIdx := fun _ _ => (Nat.zero_mod _).symm
  behind := fun _ _ => le_rfl
  ahead := fun _ _ => Nat.zero_le _
  made := fun _ hmem => absurd hmem not_mem_nil
  filled := fun _ _ hmessage => by cases hmessage
  current := Or.inl ⟨rfl, fun _ _ => Nat.lt_add_left _ hm⟩
  unused := fun _ _ _ => rfl
  writer := trivial
  readers := fun _ _ => trivial
  dequeued := fun _ _ => rfl
  sent := ⟨[], rfl, fun _ _ => ⟨le_rfl, rfl⟩⟩
  enqueued := fun _ => rfl
  held := fun _ _ _ _ hmem => absurd hmem not_mem_nil

/-- When the writer marks a chunk as not written, the objects with a buffer there have been dropped. -/
def Dropped (config : QueueConfig) (s : MessageQueue ω) (call : QueueCall ω) : Prop :=
  match call, s.phase with
  | .write, .acquired _ => s.NotShared config
  | _, _ => True

instance (s : MessageQueue ω) (call : QueueCall ω) : Decidable (s.Dropped config call) := by
  unfold Dropped NotShared
  split <;> infer_instance

lemma Inv.run {s' : MessageQueue ω} (h : s.Inv config pickle kept published) (hm : 0 < config.maxChunks)
    (hpickle : pickle.RoundTrips) {call : QueueCall ω} (hok : kept → s.Dropped config call)
    (hrun : run config pickle call s = .ok s') :
    ∃ more, s'.Inv config pickle kept (published ++ more) := by
  have hsame : s'.Inv config pickle kept published → ∃ more, s'.Inv config pickle kept (published ++ more) :=
    fun hinv => ⟨[], by rwa [append_nil]⟩
  -- a step of a reader that is there
  have hreader : ∀ {r : ℕ} {step : ℕ → MessageQueue ω → Except Unit (MessageQueue ω)},
      asReader config r step s = .ok s' → r < config.nReader ∧ step r s = .ok s' := by
    intro r step hstep
    unfold asReader at hstep
    split at hstep
    · exact ⟨‹_›, hstep⟩
    · cases hstep
  cases call with
  | enqueue object => exact hsame (h.enqueue hrun)
  | write =>
    refine h.write hm (fun hkept message hphase => ?_) hrun
    have hok := hok hkept
    unfold Dropped at hok
    rwa [hphase] at hok
  | writeTimeout => exact hsame (h.writeTimeout hrun)
  | dequeue r => exact hsame (h.dequeue (hreader hrun).1 (hreader hrun).2)
  | read r => exact hsame (h.readNext hm hpickle (hreader hrun).1 (hreader hrun).2)
  | readTimeout r => exact hsame (h.readTimeout (hreader hrun).1 (hreader hrun).2)
  | release r i => exact hsame (h.release (hreader hrun).1 (hreader hrun).2)

/-- The objects of the calls of `enqueue`: those that have returned, and the one that has not. -/
def objects (s : MessageQueue ω) : List ω := s.enqueued ++ s.phase.object?.toList

/-- What the queue is for: each reader dequeues the objects in order, and they stay as they were; the reader
reads no chunk while the writer holds it, no object that is in use is in a chunk to which the writer writes,
and the reader parses the buffers of the object; what the writer writes fits in the chunk. -/
structure Delivers (config : QueueConfig) (pickle : Pickle ω) (s : MessageQueue ω) : Prop where
  inOrder : ∀ r < config.nReader, (s.readers r).dequeued <+: s.objects
  held : ∀ r < config.nReader, ∀ p ∈ (s.readers r).held,
    ∃ object, s.objects[p.1]? = some object ∧ p.2.value pickle s.data = .ok object
  exclusive : ∀ r < config.nReader, (s.readers r).phase.isReading = true → s.phase.isWriting = true →
    (s.readers r).currentIdx ≠ s.currentIdx
  notShared : s.phase.isRewriting = true → s.NotShared config
  fits : ∀ message writes offset bytes, s.phase = .writing message writes → message.overflow = false →
    .ok (offset, bytes) ∈ writes → offset + bytes.length ≤ config.maxChunkBytes
  parsed : ∀ r < config.nReader, ∀ allBuffers, (s.readers r).phase = .parsed allBuffers →
    ∃ object, s.objects[(s.readers r).dequeued.length]? = some object ∧
      readSlices (s.data (s.readers r).currentIdx) allBuffers = (config.message pickle object).allBuffers

/-- The messages that are marked as written are those of the first objects. -/
lemma Inv.published_objects (h : s.Inv config pickle kept published) (hpos : 0 < config.nReader) :
    published.map (·.object) <+: s.objects := by
  rw [h.enqueued hpos, objects]
  refine prefix_append_right_inj _ |>.mpr ?_
  cases s.phase with
  | sending message => exact prefix_rfl
  | _ => exact nil_prefix

lemma Inv.objects_getElem? (h : s.Inv config pickle kept published) (hpos : 0 < config.nReader)
    {message : QueueMessage ω} {k : ℕ} (hmessage : published[k]? = some message) :
    s.objects[k]? = some message.object := by
  obtain ⟨rest, hrest⟩ := h.published_objects hpos
  rw [← hrest, getElem?_append_left (by rw [length_map]; exact lt_of_getElem? hmessage), getElem?_map, hmessage]
  rfl

lemma Inv.inOrder (h : s.Inv config pickle kept published) :
    ∀ r < config.nReader, (s.readers r).dequeued <+: s.objects := by
  intro r hr
  rw [h.dequeued r hr]
  exact ((List.take_prefix _ _).map _).trans (h.published_objects (Nat.zero_lt_of_lt hr))

lemma Inv.delivers (h : s.Inv config pickle True published) : s.Delivers config pickle := by
  refine ⟨h.inOrder, ?_, fun r hr => h.exclusive hr, ?_, ?_, ?_⟩
  · intro r hr p hmem
    obtain ⟨message, hmessage, hvalue⟩ := (h.held trivial r hr p hmem).1
    exact ⟨message.object, h.objects_getElem? (Nat.zero_lt_of_lt hr) hmessage, hvalue⟩
  · exact fun hrewriting r hr p hmem => (h.held trivial r hr p hmem).2 hrewriting
  · intro message writes offset bytes hphase hinline hmem
    have hwriter := h.writer
    rw [hphase] at hwriter
    obtain ⟨⟨object, rfl⟩, -, -, hwrites, -⟩ := hwriter
    exact writes_fit hinline (hwrites _ hmem)
  · intro r hr allBuffers hphase
    have hreader := h.readers r hr
    rw [hphase] at hreader
    obtain ⟨message, ⟨hmessage, -⟩, hread⟩ := hreader
    obtain ⟨object, rfl⟩ := h.made_of_getElem? hmessage
    exact ⟨object, h.objects_getElem? (Nat.zero_lt_of_lt hr) hmessage, hread⟩

lemma exists_inv (kept : Prop) {allowed : MessageQueue ω → QueueCall ω → Prop} (hm : 0 < config.maxChunks)
    (hpickle : pickle.RoundTrips) {data : ℕ → Bytes} (hok : ∀ s call, allowed s call → kept → s.Dropped config call)
    (h : Reaches (run config pickle) allowed (initial data) s) : ∃ published, s.Inv config pickle kept published := by
  refine h.invariant (P := fun s => ∃ published, s.Inv config pickle kept published) ⟨[], inv_initial hm data⟩ ?_
  rintro s call s' ⟨published, hinv⟩ hallowed hrun
  obtain ⟨more, hinv⟩ := hinv.run hm hpickle (hok s call hallowed) hrun
  exact ⟨_, hinv⟩

theorem delivers_of_reaches (hm : 0 < config.maxChunks) (hpickle : pickle.RoundTrips) (data : ℕ → Bytes)
    (s : MessageQueue ω) (h : Reaches (run config pickle) (Dropped config) (initial data) s) :
    s.Delivers config pickle := by
  obtain ⟨published, hinv⟩ := exists_inv True hm hpickle (fun _ _ hdropped _ => hdropped) h
  exact hinv.delivers

/-! ## Progress -/

/-- `acquire_read` returns the chunk of the reader. -/
def CanRead (s : MessageQueue ω) (r : ℕ) : Prop :=
  s.written (s.readers r).currentIdx = true ∧ s.read (s.readers r).currentIdx r = false

/-- `acquire_write` returns the chunk of the writer. -/
def CanWrite (config : QueueConfig) (s : MessageQueue ω) : Prop :=
  s.written s.currentIdx = false ∨ ∀ r < config.nReader, s.read s.currentIdx r = true

/-- The number of messages that are marked as written. -/
def numPublished (s : MessageQueue ω) : ℕ := s.enqueued.length + s.phase.unsent.length

/-- The writer is at most one round ahead of each reader; a reader waits only if it has consumed all
messages, the writer only if a reader has to read its chunk, and never all of them. -/
structure Progresses (config : QueueConfig) (s : MessageQueue ω) : Prop where
  bounded : ∀ r < config.nReader, (s.readers r).consumed ≤ s.numPublished ∧
    s.numPublished ≤ (s.readers r).consumed + config.maxChunks
  canRead_iff : ∀ r < config.nReader, s.CanRead r ↔ (s.readers r).consumed < s.numPublished
  canWrite_iff : s.CanWrite config ↔
    ∀ r < config.nReader, s.numPublished < (s.readers r).consumed + config.maxChunks
  notStuck : s.CanWrite config ∨ ∃ r < config.nReader, s.CanRead r

lemma Inv.numPublished_eq (h : s.Inv config pickle kept published) (hpos : 0 < config.nReader) :
    s.numPublished = published.length := by
  have hlength := congrArg List.length (h.enqueued hpos)
  simpa [numPublished] using hlength.symm

lemma Inv.canRead_iff (hm : 0 < config.maxChunks) (h : s.Inv config pickle kept published) {r : ℕ}
    (hr : r < config.nReader) : s.CanRead r ↔ (s.readers r).consumed < published.length := by
  rw [CanRead, h.readerIdx r hr]
  constructor
  · rintro ⟨hwritten, hread⟩
    by_contra hge
    -- A reader that has consumed all messages is at the chunk of the writer.
    have heq : (s.readers r).consumed = published.length := by
      have hle := h.behind r hr
      omega
    rw [heq] at hwritten hread
    rcases h.current with ⟨hfree, -⟩ | ⟨j, message, -, hj, hfilled⟩
    · rw [h.idx, hwritten] at hfree
      cases hfree
    · rw [← hj, Nat.add_mod_right, hfilled.read r hr] at hread
      have hnot := of_decide_eq_false hread
      omega
  · intro hlt
    have hfilled := h.filled_next hr (getElem?_eq_getElem hlt)
    exact ⟨hfilled.written, by rw [hfilled.read r hr, decide_eq_false (Nat.lt_irrefl _)]⟩

lemma Inv.canWrite_iff (h : s.Inv config pickle kept published) :
    s.CanWrite config ↔ s.AllRead config published.length := by
  rcases h.current with ⟨hfree, hall⟩ | ⟨j, message, -, hj, hfilled⟩
  · exact ⟨fun _ => hall, fun _ => .inl hfree⟩
  · have hidx : s.currentIdx = j % config.maxChunks := by rw [h.idx, ← hj, Nat.add_mod_right]
    rw [CanWrite, hidx, hfilled.written, AllRead]
    simp only [Bool.true_eq_false, false_or]
    refine forall₂_congr fun r hr => ?_
    rw [hfilled.read r hr, decide_eq_true_iff]
    omega

lemma Inv.progresses (hm : 0 < config.maxChunks) (h : s.Inv config pickle kept published) :
    s.Progresses config := by
  have hcount {r : ℕ} (hr : r < config.nReader) := h.numPublished_eq (Nat.zero_lt_of_lt hr)
  refine ⟨fun r hr => ?_, fun r hr => ?_, ?_, ?_⟩
  · rw [hcount hr]
    exact ⟨h.behind r hr, h.ahead r hr⟩
  · rw [hcount hr]
    exact h.canRead_iff hm hr
  · rw [h.canWrite_iff]
    exact forall₂_congr fun r hr => by rw [hcount hr]
  · by_cases hwrite : s.CanWrite config
    · exact .inl hwrite
    · rw [h.canWrite_iff, AllRead] at hwrite
      simp only [not_forall, not_lt] at hwrite
      obtain ⟨r, hr, hle⟩ := hwrite
      exact .inr ⟨r, hr, (h.canRead_iff hm hr).mpr (by omega)⟩

theorem progresses_of_reaches (hm : 0 < config.maxChunks) (hpickle : pickle.RoundTrips) (data : ℕ → Bytes)
    (s : MessageQueue ω) (h : Reaches (run config pickle) (fun _ _ => True) (initial data) s) :
    s.Progresses config := by
  obtain ⟨published, hinv⟩ := exists_inv False hm hpickle (fun _ _ _ => False.elim) h
  exact hinv.progresses hm

/-- The pickles of short byte strings: a frame with one `SHORT_BINBYTES`. -/
def bytesPickle : Pickle Bytes where
  dumps := fun _ object => ([0x80, 5, 0x95] ++ (bytesBig 8 (object.length + 4)).reverse ++
    [0x43, UInt8.ofNat object.length] ++ object ++ [0x94, 0x2e], [])
  loads := fun main _ => .ok (main.drop 13).dropLast.dropLast

lemma roundTrips_bytesPickle : bytesPickle.RoundTrips := by
  intro callback object
  change Except.ok ((([0x80, 5, 0x95] ++ (bytesBig 8 (object.length + 4)).reverse ++
    [0x43, UInt8.ofNat object.length] ++ object ++ [0x94, 0x2e]).drop 13).dropLast.dropLast) = _
  rw [append_assoc, drop_left' (by simp)]
  simp [dropLast_append_of_ne_nil]

/-- Two readers take a small and a large object through one chunk of 30 bytes. -/
def twoObjects : List (QueueCall Bytes) :=
  .enqueue [1] :: List.replicate 12 .write ++ .dequeue 0 :: List.replicate 8 (.read 0) ++
    .enqueue (List.replicate 10 7) :: List.replicate 4 .write ++ .dequeue 1 :: List.replicate 8 (.read 1) ++
    List.replicate 10 .write ++ .dequeue 0 :: List.replicate 5 (.read 0)

theorem delivers_of_reaches_twoObjects :
    ∃ s, runChecked (run ⟨2, 30, 1⟩ bytesPickle) (fun s call => s.Dropped ⟨2, 30, 1⟩ call) twoObjects
      (initial fun _ => List.replicate 30 0) = some s ∧
        (s.readers 0).dequeued = [[1], List.replicate 10 7] ∧ s.Delivers ⟨2, 30, 1⟩ bytesPickle := by
  have heval : ((runChecked (run ⟨2, 30, 1⟩ bytesPickle) (fun s call => s.Dropped ⟨2, 30, 1⟩ call) twoObjects
      (initial fun _ => List.replicate 30 0)).map fun s => (s.readers 0).dequeued) =
        some [[1], List.replicate 10 7] := by
    decide +kernel
  obtain ⟨s, hs, hdequeued⟩ := Option.map_eq_some_iff.mp heval
  exact ⟨s, hs, hdequeued, delivers_of_reaches (by decide) roundTrips_bytesPickle _ s
    (Reaches.of_runChecked (fun _ _ => of_decide_eq_true) .start hs)⟩

theorem progresses_of_reaches_twoObjects :
    ∃ s, runChecked (run ⟨2, 30, 1⟩ bytesPickle) (fun _ _ => true) twoObjects
      (initial fun _ => List.replicate 30 0) = some s ∧ s.Progresses ⟨2, 30, 1⟩ := by
  have heval : (runChecked (run ⟨2, 30, 1⟩ bytesPickle) (fun _ _ => true) twoObjects
      (initial fun _ => List.replicate 30 0)).isSome = true := by
    decide +kernel
  obtain ⟨s, hs⟩ := Option.isSome_iff_exists.mp heval
  exact ⟨s, hs, progresses_of_reaches (by decide) roundTrips_bytesPickle _ s
    (Reaches.of_runChecked (fun _ _ _ => trivial) .start hs)⟩

/-! ## An array in the chunk -/

section Arrays

/-- The pickles of buffers: a buffer that the callback leaves out is one `NEXT_BUFFER`. -/
def bufferPickle : Pickle Bytes where
  dumps := fun callback object =>
    if callback object then bytesPickle.dumps callback object else ([0x80, 5, 0x97, 0x2e], [object])
  loads := fun main oob => oob.head?.elim (bytesPickle.loads main []) .ok

/-- An array that is left out of the pickle. -/
structure IsArray (n : ℕ) (b : Bytes) : Prop where
  length : b.length = n
  large : 1024 * 1024 ≤ n
  small : n < 256 ^ 4

/-- What `loads` makes of the message of an array. -/
def arrayObject (n : ℕ) : QueueObject := ⟨[0x80, 5, 0x97, 0x2e], [.slice 0 15 (15 + n)]⟩

/-- One reader, and one chunk, in which a message with an array just fits. -/
abbrev ReachesOne (n : ℕ) : MessageQueue Bytes → Prop :=
  Reaches (run ⟨1, n + 15, 1⟩ bufferPickle) (fun _ _ => True) (initial fun _ => List.replicate (n + 15) 0)

variable {n : ℕ} {b rest : Bytes} {s s' : MessageQueue Bytes} {written : ℕ → Bool} {read : ℕ → ℕ → Bool}
  {data : ℕ → Bytes} {enqueued : List Bytes}

lemma IsArray.message (h : IsArray n b) : (⟨1, n + 15, 1⟩ : QueueConfig).message bufferPickle b =
    ⟨b, [[0x80, 5, 0x97, 0x2e], b], false⟩ := by
  simp [QueueConfig.message, bufferPickle, oobCallback, totalBytes, h.length, not_lt.mpr h.large]
  omega

lemma ReachesOne.write (h : ReachesOne n s) (hrun : s.write ⟨1, n + 15, 1⟩ = .ok s') : ReachesOne n s' :=
  h.step trivial (show run _ _ .write s = _ from hrun)

/-- The assignments of a writer that fit in the chunk. -/
lemma ReachesOne.writing {message : QueueMessage Bytes} {writes : List ChunkWrite}
    (h : ReachesOne n { s with phase := .writing message writes })
    (hfit : ∀ write ∈ writes, ∃ slice, write = .ok slice ∧ slice.1 + slice.2.length ≤ (s.data s.currentIdx).length) :
    ∃ buf, applyWrites writes (s.data s.currentIdx) = .ok buf ∧ buf.length = (s.data s.currentIdx).length ∧
      ReachesOne n { s with data := update s.data s.currentIdx buf, phase := .writing message [] } := by
  induction writes generalizing s with
  | nil => exact ⟨_, rfl, rfl, by rwa [update_eq_self]⟩
  | cons write writes ih =>
    rw [forall_mem_cons] at hfit
    obtain ⟨⟨⟨offset, bytes⟩, rfl, hfit⟩, hfits⟩ := hfit
    obtain ⟨buf₁, hslice⟩ : ∃ buf₁, writeSlice (s.data s.currentIdx) offset bytes = .ok buf₁ := by
      rw [writeSlice, if_pos]
      · exact ⟨_, rfl⟩
      · rw [readSlice, length_drop, length_take]
        dsimp only at hfit
        omega
    have hlength := (writeSlice_eq_ok hslice).2.1
    have hnext : ReachesOne n
        { s with data := update s.data s.currentIdx buf₁, phase := .writing message writes } :=
      h.write (by simp only [MessageQueue.write, hslice])
    obtain ⟨buf, happly, hbuf, hlast⟩ := ih (s := { s with data := update s.data s.currentIdx buf₁ }) hnext
      (by simpa [hlength] using hfits)
    rw [applyWrites, hslice]
    exact ⟨buf, by simpa using happly, by simpa [hlength] using hbuf, by simpa using hlast⟩

/-- A call of `enqueue` that finds the chunk free. -/
lemma ReachesOne.enqueue {readers : ℕ → QueueReader Bytes}
    (h : ReachesOne n ⟨0, .idle, written, read, data, readers, enqueued⟩) (hb : IsArray n b)
    (hfree : written 0 = true → read 0 0 = true) (hlength : (data 0).length = n + 15) :
    ∃ buf rest, buf.length = n + 15 ∧
      buf = [0, 0, 2, 0, 0, 0, 4, 0x80, 5, 0x97, 0x2e] ++ (bytesBig 4 n ++ (b ++ rest)) ∧
      ReachesOne n ⟨0, .idle, update (update written 0 false) 0 true, update read 0 (update (read 0) 0 false),
        update data 0 buf, readers, enqueued ++ [b]⟩ := by
  have hsmall : n < 4294967296 := hb.small
  obtain ⟨message, hmessage⟩ : ∃ message, (⟨1, n + 15, 1⟩ : QueueConfig).message bufferPickle b = message := ⟨_, rfl⟩
  have hcount : ReachesOne n ⟨0, .counting message 0 0, written, read, data, readers, enqueued⟩ :=
    h.step trivial (show run _ _ (.enqueue b) _ = _ by rw [← hmessage]; rfl)
  have hready : ¬ (written 0 = true ∧ 0 + (read 0 0).toNat ≠ 1) := by
    rintro ⟨hwritten, hne⟩
    simp [hfree hwritten] at hne
  have hacquired : ReachesOne n ⟨0, .acquired message, written, read, data, readers, enqueued⟩ :=
    (hcount.write rfl).write (by simp only [MessageQueue.write, lt_self_iff_false, if_false, if_neg hready])
  obtain rfl := hb.message.symm.trans hmessage
  obtain ⟨buf, happly, hbuf, hwritten⟩ := ReachesOne.writing
    (s := ⟨0, .idle, update written 0 false, read, data, readers, enqueued⟩) (hacquired.write rfl) (by
      simp [QueueMessage.writes, bufferWrites, toBytesBig, Except.map, hb.length, hlength, hsmall]
      omega)
  obtain ⟨-, -, rest, hframed⟩ := (applyWrites_writes happly).inline rfl
  refine ⟨buf, rest, hbuf.trans hlength, ?_, ?_⟩
  · simpa [framed, bytesBig, hb.length] using hframed
  · have hlast := ((hwritten.write rfl).write rfl).write rfl
    simpa [publish] using hlast

lemma readSlice_array (hb : IsArray n b) :
    readSlice ([0, 0, 2, 0, 0, 0, 4, 0x80, 5, 0x97, 0x2e] ++ (bytesBig 4 n ++ (b ++ rest))) 15 (15 + n) = b := by
  rw [readSlice_eq, ← append_assoc, drop_left' (by simp), take_left' hb.length]

/-- The first call of `dequeue`. -/
lemma ReachesOne.dequeue (h : ReachesOne n ⟨0, .idle, written, read, data, fun _ => {}, enqueued⟩) (hb : IsArray n b)
    (hbuf : data 0 = [0, 0, 2, 0, 0, 0, 4, 0x80, 5, 0x97, 0x2e] ++ (bytesBig 4 n ++ (b ++ rest)))
    (hwritten : written 0 = true) (hread : read 0 0 = false) :
    ReachesOne n ⟨0, .idle, written, update read 0 (update (read 0) 0 true), data,
      update (fun _ => {}) 0 { dequeued := [b], held := [(0, arrayObject n)] }, enqueued⟩ := by
  have hslice : readSlice (data 0) 15 (15 + n) = b := by rw [hbuf, readSlice_array hb]
  have hlength : fromBytesBig (readSlice (data 0) 11 15) = n := by
    rw [readSlice_eq _ 11 4, hbuf, drop_left' (by rfl), take_left' (length_bytesBig 4 _), fromBytesBig_bytesBig,
      Nat.mod_eq_of_lt hb.small]
  have hfirst : (data 0)[0]? = some 0 ∧ fromBytesBig (readSlice (data 0) 1 3) = 2 ∧
      fromBytesBig (readSlice (data 0) 3 7) = 4 ∧ readSlice (data 0) 7 11 = [0x80, 5, 0x97, 0x2e] := by
    rw [hbuf]
    exact ⟨rfl, rfl, rfl, rfl⟩
  -- a step of the reader
  have hstep (reader) {reader'}
      (hnext : ReachesOne n ⟨0, .idle, written, read, data, update (fun _ => {}) 0 reader', enqueued⟩)
      (hrun : readNext ⟨1, n + 15, 1⟩ bufferPickle 0
        ⟨0, .idle, written, read, data, update (fun _ => {}) 0 reader', enqueued⟩ =
          .ok ⟨0, .idle, written, read, data, update (fun _ => {}) 0 reader, enqueued⟩) :
      ReachesOne n ⟨0, .idle, written, read, data, update (fun _ => {}) 0 reader, enqueued⟩ :=
    hnext.step trivial (show run _ _ (.read 0) _ = _ from hrun)
  have h := h.step trivial (show run _ _ (.dequeue 0) _ = .ok _ from rfl)
  have h := hstep { phase := .checked false } h (by simp [readNext, setPhase, setReader, hread])
  have h := hstep { phase := .overflowByte } h (by simp [readNext, setPhase, setReader, hwritten])
  have h := hstep { phase := .bufCount } h (by simp [readNext, setPhase, setReader, hfirst])
  have h := hstep { phase := .bufLen 2 3 [] } h (by simp [readNext, setPhase, setReader, hfirst])
  have h := hstep { phase := .bufLen 1 11 [(7, 11)] } h (by simp [readNext, setPhase, setReader, hfirst])
  have h := hstep { phase := .bufLen 0 (15 + n) [(7, 11), (15, 15 + n)] } h
    (by simp [readNext, setPhase, setReader, hlength])
  have h := hstep { phase := .parsed [(7, 11), (15, 15 + n)] } h (by simp [readNext, setPhase, setReader])
  have h := hstep { phase := .done (some b), held := [(0, arrayObject n)] } h (by
    simp [readNext, setReader, Pickle.load, QueueObject.value, QueueBuffer.bytes, bufferPickle, hslice, hfirst,
      arrayObject, Except.map])
  refine h.step trivial (show run _ _ (.read 0) _ = _ from ?_)
  simp [MessageQueue.run, asReader, readNext, finishRead, setReader]

/-- The reader holds the first array when the writer writes the second one over it. -/
lemma overwrites {a : Bytes} (ha : IsArray n a) (hb : IsArray n b) : ∃ s, ReachesOne n s ∧ s.enqueued = [a, b] ∧
    (s.readers 0).dequeued = [a] ∧ (s.readers 0).held = [(0, arrayObject n)] ∧ s.phase = .idle ∧
      (arrayObject n).value bufferPickle s.data = .ok b := by
  obtain ⟨buf, rest, hlength, hbuf, hfirst⟩ := ReachesOne.enqueue .start ha nofun length_replicate
  obtain ⟨buf₂, rest₂, -, rfl, hsecond⟩ :=
    (hfirst.dequeue ha (by rw [update_self]; exact hbuf) rfl rfl).enqueue hb (fun _ => rfl) (by rwa [update_self])
  refine ⟨_, hsecond, rfl, rfl, rfl, rfl, ?_⟩
  simp only [arrayObject, QueueObject.value, QueueBuffer.bytes, map_singleton, update_self, readSlice_array hb]
  rfl

theorem overwrites_twoArrays : ∃ s, ReachesOne (1024 * 1024) s ∧
    s.enqueued = [List.replicate (1024 * 1024) 1, List.replicate (1024 * 1024) 2] ∧
      (s.readers 0).dequeued = [List.replicate (1024 * 1024) 1] ∧ (s.readers 0).held = [(0, arrayObject (1024 * 1024))] ∧
        (arrayObject (1024 * 1024)).value bufferPickle s.data = .ok (List.replicate (1024 * 1024) 2) ∧
          ¬ s.Delivers ⟨1, 1024 * 1024 + 15, 1⟩ bufferPickle := by
  have harray (byte : UInt8) : IsArray (1024 * 1024) (List.replicate (1024 * 1024) byte) :=
    ⟨length_replicate, le_rfl, by norm_num⟩
  obtain ⟨s, hs, henqueued, hdequeued, hheld, hphase, hvalue⟩ := overwrites (harray 1) (harray 2)
  refine ⟨s, hs, henqueued, hdequeued, hheld, hvalue, fun hdelivers => ?_⟩
  obtain ⟨object, hobject, hsame⟩ := hdelivers.held 0 Nat.one_pos (0, arrayObject (1024 * 1024))
    (by rw [hheld]; exact mem_singleton_self _)
  rw [objects, henqueued, hphase] at hobject
  rw [hvalue, ← Option.some.inj hobject] at hsame
  exact absurd ((replicate_right_inj (by norm_num)).mp (Except.ok.inj hsame)) (by decide)

end Arrays

end MessageQueue

end VllmRuntime
