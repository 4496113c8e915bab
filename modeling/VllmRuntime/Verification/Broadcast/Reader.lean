import VllmRuntime.Verification.Broadcast.Invariant

/-! # Steps of the readers -/

namespace VllmRuntime

open List Function

variable {ω : Type}

namespace MessageQueue

variable {config : QueueConfig} {pickle : Pickle ω} {kept : Prop} {s s' : MessageQueue ω}
  {published : List (QueueMessage ω)} {message : QueueMessage ω} {r : ℕ} {reader : QueueReader ω} {n k : ℕ}

/-- What the writer has found out stays true when readers read. -/
lemma WriterInv.congr {phase : WriterPhase ω} (h : s.WriterInv config pickle published phase)
    (hidx : s'.currentIdx = s.currentIdx) (hwritten : s'.written = s.written) (hdata : s'.data = s.data)
    (hflags : ∀ r, s.read s.currentIdx r = true → s'.read s.currentIdx r = true)
    (hconsumed : ∀ r, (s.readers r).consumed ≤ (s'.readers r).consumed)
    (hread : s.AllRead config published.length → s'.read s.currentIdx = s.read s.currentIdx) :
    s'.WriterInv config pickle published phase := by
  have hall : s.AllRead config published.length → s'.AllRead config published.length :=
    fun hall r hr => (hall r hr).trans_le (Nat.add_le_add_right (hconsumed r) _)
  cases phase with
  | counting message i readCount =>
    obtain ⟨hmade, hi, hle, hcount⟩ := h
    refine ⟨hmade, hi, hle, fun heq r hr => ?_⟩
    rw [hidx]
    exact hflags r (hcount heq r hr)
  | acquired message => exact ⟨h.1, hall h.2⟩
  | writing message writes =>
    obtain ⟨hmade, hfree, hrest⟩ := h
    refine ⟨hmade, hall hfree, ?_⟩
    rw [hidx, hwritten, hdata]
    exact hrest
  | resetting message i =>
    obtain ⟨hmade, hfree, hrest⟩ := h
    refine ⟨hmade, hall hfree, ?_⟩
    rw [hidx, hwritten, hdata, hread hfree]
    exact hrest
  | idle => trivial
  | waiting message => exact h
  | sending message => exact h

/-- What holds of all readers, when one of them changes. -/
lemma forall_update {readers : ℕ → QueueReader ω} (P : ℕ → QueueReader ω → Prop)
    (hold : ∀ r' < n, P r' (readers r')) (hnew : r < n → P r reader) :
    ∀ r' < n, P r' (update readers r reader r') := by
  intro r' hr'
  by_cases heq : r' = r
  · subst heq
    rw [update_self]
    exact hnew hr'
  · rw [update_of_ne heq]
    exact hold r' hr'

/-- A reader changes in its own fields only, and has read as many chunks as before. -/
lemma Inv.setReader (h : s.Inv config pickle kept published)
    (hidx : reader.currentIdx = (s.readers r).currentIdx)
    (hconsumed : reader.consumed = (s.readers r).consumed)
    (hphase : reader.phase.Inv published reader.dequeued.length (s.data reader.currentIdx)
      (s.read reader.currentIdx r))
    (hdequeued : reader.dequeued = (published.take reader.dequeued.length).map (·.object))
    (hreceives : ∀ sent, published = sent ++ s.phase.unsent → (s.readers r).Receives sent →
      reader.Receives sent)
    (hheld : kept → r < config.nReader → ∀ p ∈ reader.held, s.Keeps pickle published p) :
    (s.setReader r reader).Inv config pickle kept published := by
  have hreaders : ∀ r', ((s.setReader r reader).readers r').consumed = (s.readers r').consumed := by
    intro r'
    change (update s.readers r reader r').consumed = _
    by_cases hr' : r' = r
    · rw [hr', update_self, hconsumed]
    · rw [update_of_ne hr']
  have hfilled : ∀ j message, s.Filled config j message →
      (s.setReader r reader).Filled config j message := by
    intro j message hfilled
    refine ⟨hfilled.written, hfilled.framed, fun r' hr' => ?_⟩
    rw [hreaders]
    exact hfilled.read r' hr'
  refine ⟨h.idx, ?_, ?_, ?_, h.made, fun j message hmessage hj =>
    hfilled j message (h.filled j message hmessage hj), ?_, h.unused, ?_, ?_, ?_, ?_, h.enqueued,
    fun hkept => forall_update (fun _ reader => ∀ p ∈ reader.held, s.Keeps pickle published p) (h.held hkept)
      (hheld hkept)⟩
  · refine forall_update (fun _ reader => reader.currentIdx = reader.consumed % config.maxChunks)
      h.readerIdx fun hr => ?_
    rw [hidx, hconsumed]
    exact h.readerIdx r hr
  · intro r' hr'
    rw [hreaders]
    exact h.behind r' hr'
  · intro r' hr'
    rw [hreaders]
    exact h.ahead r' hr'
  · refine h.current.imp (fun ⟨hfree, hall⟩ => ⟨hfree, fun r' hr' => ?_⟩)
      fun ⟨j, message, hmessage, hj, hold⟩ => ⟨j, message, hmessage, hj, hfilled j message hold⟩
    rw [hreaders]
    exact hall r' hr'
  · exact h.writer.congr rfl rfl rfl (fun _ hflag => hflag) (fun r' => (hreaders r').ge) fun _ => rfl
  · exact forall_update (fun r' reader => reader.phase.Inv published reader.dequeued.length
      (s.data reader.currentIdx) (s.read reader.currentIdx r')) h.readers fun _ => hphase
  · exact forall_update (fun _ reader => reader.dequeued =
      (published.take reader.dequeued.length).map (·.object)) h.dequeued fun _ => hdequeued
  · obtain ⟨sent, hsent, hold⟩ := h.sent
    exact ⟨sent, hsent, forall_update (fun _ reader => reader.Receives sent) hold
      fun hr => hreceives sent hsent (hold r hr)⟩

lemma Inv.setPhase (h : s.Inv config pickle kept published) (hr : r < config.nReader) {phase : ReaderPhase ω}
    (hawaits : phase.awaitsSocket = (s.readers r).phase.awaitsSocket)
    (hphase : phase.Inv published (s.readers r).dequeued.length (s.data (s.readers r).currentIdx)
      (s.read (s.readers r).currentIdx r)) :
    (s.setPhase r phase).Inv config pickle kept published :=
  h.setReader rfl (by rw [QueueReader.consumed, QueueReader.consumed, hawaits]) hphase (h.dequeued r hr)
    (fun _ _ hreceives => ⟨hreceives.le, hreceives.localSocket⟩) fun hkept => h.held hkept r

/-- The messages of two numbers of one round are in different chunks. -/
lemma eq_of_mod_eq {m i j : ℕ} (hi : i < n) (hni : n ≤ i + m) (hj : j < n) (hnj : n ≤ j + m)
    (hmod : i % m = j % m) : i = j := by
  rcases Nat.lt_trichotomy i j with hlt | heq | hgt
  · exact absurd hmod (mod_ne hlt (by omega))
  · exact heq
  · exact absurd hmod.symm (mod_ne hgt (by omega))

/-- The reader's flag of its chunk is set. -/
def setFlag (s : MessageQueue ω) (r : ℕ) : MessageQueue ω :=
  { s with
    read := update s.read (s.readers r).currentIdx
      (update (s.read (s.readers r).currentIdx) r true) }

lemma setFlag_read (s : MessageQueue ω) (r i r' : ℕ) : (s.setFlag r).read i r' =
    if i = (s.readers r).currentIdx ∧ r' = r then true else s.read i r' := by
  unfold setFlag
  dsimp only
  by_cases hi : i = (s.readers r).currentIdx
  · by_cases hr' : r' = r
    · rw [if_pos ⟨hi, hr'⟩, hi, update_self, hr', update_self]
    · rw [if_neg fun h => hr' h.2, hi, update_self, update_of_ne hr']
  · rw [if_neg fun h => hi h.1, update_of_ne hi]

section

variable (h : s.Inv config pickle kept published)
include h

/-- It has read one more chunk. -/
lemma Inv.markRead (hr : r < config.nReader)
    (hreading : (s.readers r).phase.isReading = true)
    (hmessage : published[(s.readers r).dequeued.length]? = some message)
    (hidx : reader.currentIdx = ((s.readers r).currentIdx + 1) % config.maxChunks)
    (hconsumed : reader.consumed = (s.readers r).consumed + 1)
    (hphase : ∀ buf flag, reader.phase.Inv published reader.dequeued.length buf flag)
    (hdequeued : reader.dequeued = (published.take reader.dequeued.length).map (·.object))
    (hreceives : ∀ sent, published = sent ++ s.phase.unsent → (s.readers r).Receives sent →
      reader.Receives sent) (hheld : reader.held = (s.readers r).held) :
    ((s.setFlag r).setReader r reader).Inv config pickle kept published := by
  have hk : (s.readers r).consumed = (s.readers r).dequeued.length := by
    rw [QueueReader.consumed]
    cases hphase : (s.readers r).phase <;> rw [hphase] at hreading <;> first | rfl | cases hreading
  have hlt : (s.readers r).consumed < published.length := by
    rw [hk]
    exact lt_of_getElem? hmessage
  have hread : ∀ i r', r' ≠ r → (s.setFlag r).read i r' = s.read i r' := by
    intro i r' hne
    rw [setFlag_read, if_neg (fun hplace => hne hplace.2)]
  have hle : ∀ r', (s.readers r').consumed ≤ (update s.readers r reader r').consumed := by
    intro r'
    by_cases heq : r' = r
    · rw [heq, update_self, hconsumed]
      exact Nat.le_succ _
    · rw [update_of_ne heq]
  have hfilled : ∀ j message, j < published.length → published.length ≤ j + config.maxChunks →
      s.Filled config j message → ((s.setFlag r).setReader r reader).Filled config j message := by
    intro j message hj hround hfilled
    refine ⟨hfilled.written, hfilled.framed, ?_⟩
    intro r' hr'
    change (s.setFlag r).read (j % config.maxChunks) r' =
      decide (j < (update s.readers r reader r').consumed)
    by_cases heq : r' = r
    · subst heq
      rw [update_self, hconsumed, setFlag_read]
      by_cases hplace : j % config.maxChunks = (s.readers r').currentIdx
      · rw [if_pos ⟨hplace, rfl⟩]
        rw [h.readerIdx r' hr'] at hplace
        obtain rfl := eq_of_mod_eq hj hround hlt (h.ahead r' hr') hplace
        exact (decide_eq_true (Nat.lt_succ_self _)).symm
      · have hne : j ≠ (s.readers r').consumed := by
          rintro rfl
          exact hplace (h.readerIdx r' hr').symm
        rw [if_neg (fun hboth => hplace hboth.1), hfilled.read r' hr']
        exact decide_eq_decide.mpr (by omega)
    · rw [hread _ r' heq, update_of_ne heq]
      exact hfilled.read r' hr'
  refine ⟨h.idx, ?_, ?_, ?_, h.made, ?_, ?_, h.unused, ?_, ?_, ?_, ?_, h.enqueued,
    fun hkept => forall_update (fun _ reader => ∀ p ∈ reader.held, s.Keeps pickle published p) (h.held hkept)
      fun hr => by rw [hheld]; exact h.held hkept r hr⟩
  · refine forall_update (fun _ reader => reader.currentIdx = reader.consumed % config.maxChunks)
      h.readerIdx fun hr => ?_
    rw [hidx, hconsumed, h.readerIdx r hr, Nat.mod_add_mod]
  · refine forall_update (fun _ reader => reader.consumed ≤ published.length) h.behind fun _ => ?_
    rw [hconsumed]
    exact hlt
  · intro r' hr'
    exact (h.ahead r' hr').trans (Nat.add_le_add_right (hle r') _)
  · intro j message hmessage hj
    exact hfilled j message (lt_of_getElem? hmessage) hj.le (h.filled j message hmessage hj)
  · rcases h.current with ⟨hfree, hall⟩ | ⟨j, message, hmessage, hj, hold⟩
    · refine .inl ⟨hfree, fun r' hr' => ?_⟩
      exact (hall r' hr').trans_le (Nat.add_le_add_right (hle r') _)
    · exact .inr ⟨j, message, hmessage, hj, hfilled j message (lt_of_getElem? hmessage) hj.ge hold⟩
  · refine h.writer.congr rfl rfl rfl ?_ hle ?_
    · intro r' hflag
      change (s.setFlag r).read s.currentIdx r' = true
      rw [setFlag_read]
      split
      · rfl
      · exact hflag
    · intro hall
      exact update_of_ne (h.idx_ne hall hr hreading).symm _ _
  · intro r' hr'
    change (update s.readers r reader r').phase.Inv published
      (update s.readers r reader r').dequeued.length
      (s.data (update s.readers r reader r').currentIdx) _
    by_cases heq : r' = r
    · rw [heq, update_self]
      exact hphase _ _
    · change (update s.readers r reader r').phase.Inv published _ _
        ((s.setFlag r).read (update s.readers r reader r').currentIdx r')
      rw [hread _ r' heq, update_of_ne heq]
      exact h.readers r' hr'
  · exact forall_update (fun _ reader => reader.dequeued =
      (published.take reader.dequeued.length).map (·.object)) h.dequeued fun _ => hdequeued
  · obtain ⟨sent, hsent, hold⟩ := h.sent
    exact ⟨sent, hsent, forall_update (fun _ reader => reader.Receives sent) hold
      fun hr => hreceives sent hsent (hold r hr)⟩

/-! ## Every step -/

lemma Inv.dequeue (hr : r < config.nReader)
    (hrun : s.dequeue r = .ok s') : s'.Inv config pickle kept published := by
  unfold MessageQueue.dequeue at hrun
  cases hphase : (s.readers r).phase with
  | idle =>
    rw [hphase] at hrun
    cases hrun
    exact h.setPhase hr (by rw [hphase]; rfl) trivial
  | _ =>
    rw [hphase] at hrun
    cases hrun

lemma Inv.readTimeout (hr : r < config.nReader)
    (hrun : s.readTimeout r = .ok s') : s'.Inv config pickle kept published := by
  have hreader := h.readers r hr
  unfold MessageQueue.readTimeout at hrun
  cases hphase : (s.readers r).phase with
  | waiting =>
    rw [hphase] at hrun
    cases hrun
    exact h.setPhase hr (by rw [hphase]; rfl) trivial
  | receiving =>
    rw [hphase] at hrun hreader
    cases hrun
    exact h.setPhase hr (by rw [hphase]; rfl) hreader
  | _ =>
    rw [hphase] at hrun
    cases hrun

lemma Inv.release (hr : r < config.nReader) {i : ℕ}
    (hrun : s.release i r = .ok s') : s'.Inv config pickle kept published := by
  cases hrun
  exact h.setReader rfl rfl (h.readers r hr) (h.dequeued r hr)
    (fun _ _ hreceives => ⟨hreceives.le, hreceives.localSocket⟩)
    fun hkept hr p hmem => h.held hkept r hr p (mem_of_mem_eraseIdx hmem)

end

lemma consumed_of_not_awaiting (h : reader.phase.awaitsSocket = false) :
    reader.consumed = reader.dequeued.length := by
  rw [QueueReader.consumed, h]
  rfl

/-- The chunk of a reader holds the reader's next message. -/
lemma Inv.framed_next (h : s.Inv config pickle kept published) (hr : r < config.nReader)
    (hawaits : (s.readers r).phase.awaitsSocket = false)
    (hmessage : published[(s.readers r).dequeued.length]? = some message) :
    Framed (s.data (s.readers r).currentIdx) message := by
  have hconsumed := consumed_of_not_awaiting hawaits
  rw [← hconsumed] at hmessage
  rw [h.readerIdx r hr]
  exact (h.filled_next hr hmessage).framed

/-- A chunk that is written and that the reader has not read has a message for it. -/
lemma Inv.lt_of_written (h : s.Inv config pickle kept published) (hm : 0 < config.maxChunks)
    (hr : r < config.nReader) (hawaits : (s.readers r).phase.awaitsSocket = false)
    (hwritten : s.written (s.readers r).currentIdx = true)
    (hflag : s.read (s.readers r).currentIdx r = false) :
    (s.readers r).dequeued.length < published.length := by
  have hconsumed := consumed_of_not_awaiting hawaits
  rw [← hconsumed]
  by_contra hge
  have heq : (s.readers r).consumed = published.length := by
    have := h.behind r hr
    omega
  have hidx : (s.readers r).currentIdx = s.currentIdx := by
    rw [h.readerIdx r hr, h.idx, heq]
  rcases h.current with ⟨hfree, -⟩ | ⟨j, message, -, hj, hfilled⟩
  · rw [hidx, hfree] at hwritten
    cases hwritten
  · have hplace : j % config.maxChunks = (s.readers r).currentIdx := by
      rw [h.readerIdx r hr, heq, ← hj, Nat.add_mod_right]
    have hread := hfilled.read r hr
    rw [hplace, hflag, heq, eq_comm, decide_eq_false_iff_not] at hread
    omega

lemma readSlice_eq (buf : Bytes) (offset length : ℕ) :
    readSlice buf offset (offset + length) = (buf.drop offset).take length := by
  rw [readSlice, drop_take, Nat.add_sub_cancel_left]

/-- An object that is loaded has the value that `loads` finds, and refers to the buffers. -/
lemma Pickle.load_eq_ok {buffers : List QueueBuffer} {value : ω} {object : QueueObject} {data : ℕ → Bytes}
    (h : pickle.load data buffers = .ok (value, object)) :
    pickle.loadAll (buffers.map (·.bytes data)) = .ok value ∧ object.value pickle data = .ok value ∧
      object.oob ⊆ buffers := by
  cases buffers with
  | nil => cases h
  | cons main oob =>
    obtain ⟨_, hvalue, hret⟩ := map_eq_ok h
    cases hret
    exact ⟨hvalue, hvalue, subset_cons_self _ _⟩

lemma Pickle.load_of_loadAll {buffers : List QueueBuffer} {value : ω} {data : ℕ → Bytes}
    (h : pickle.loadAll (buffers.map (·.bytes data)) = .ok value) :
    ∃ object, pickle.load data buffers = .ok (value, object) := by
  cases buffers with
  | nil => cases h
  | cons main oob =>
    refine ⟨⟨main.bytes data, oob⟩, ?_⟩
    rw [map_cons, Pickle.loadAll] at h
    rw [Pickle.load, QueueObject.value, h]
    rfl

/-- The object that `loads` returns is kept if the writer is not at the chunk of its buffers. -/
lemma Inv.keeps_load (h : s.Inv config pickle kept published) (hkept : kept) (hr : r < config.nReader)
    {buffers : List QueueBuffer} {object : QueueObject}
    (hload : pickle.load s.data buffers = .ok (message.object, object)) (hmessage : published[k]? = some message)
    (hshared : s.phase.isRewriting = true → ∀ buffer ∈ buffers, buffer.idx? ≠ some s.currentIdx) :
    ∀ p ∈ (s.readers r).held ++ [(k, object)], s.Keeps pickle published p := by
  obtain ⟨-, hvalue, hoob⟩ := Pickle.load_eq_ok hload
  refine forall_mem_append.mpr ⟨h.held hkept r hr, forall_mem_singleton.mpr ⟨⟨message, hmessage, hvalue⟩, ?_⟩⟩
  exact fun hrewriting ⟨buffer, hbuffer, hidx⟩ => hshared hrewriting buffer (hoob hbuffer) hidx

lemma Made.loadAll (hpickle : pickle.RoundTrips) (h : Made config pickle message) :
    pickle.loadAll message.allBuffers = .ok message.object := by
  obtain ⟨object, rfl⟩ := h
  exact hpickle oobCallback object

lemma Inv.made_of_getElem? (h : s.Inv config pickle kept published) (hmessage : published[k]? = some message) :
    Made config pickle message :=
  h.made message (mem_of_getElem? hmessage)

/-- What the reader has dequeued, with the next message. -/
lemma take_succ_object {dequeued : List ω} (hlength : dequeued.length = k)
    (h : dequeued = (published.take k).map (·.object)) (hmessage : published[k]? = some message) :
    dequeued ++ [message.object] =
      (published.take (dequeued ++ [message.object]).length).map (·.object) := by
  rw [length_append, length_singleton, hlength, take_add_one, hmessage, map_append,
    ← h]
  rfl

section

variable (h : s.Inv config pickle kept published)
include h

lemma Inv.finishRead_none (hr : r < config.nReader)
    (hphase : (s.readers r).phase = .done none)
    (hmessage : published[(s.readers r).dequeued.length]? = some message)
    (hoverflow : message.overflow = true) :
    (s.finishRead config none r).Inv config pickle kept published := by
  refine h.markRead hr (by rw [hphase]; rfl) hmessage rfl ?_ (fun _ _ => ⟨message, hmessage, hoverflow⟩)
    (h.dequeued r hr) (fun _ _ hreceives => ⟨hreceives.le, hreceives.localSocket⟩) rfl
  rw [QueueReader.consumed, QueueReader.consumed, hphase]
  rfl

lemma Inv.finishRead_some (hr : r < config.nReader)
    {object : ω} (hphase : (s.readers r).phase = .done (some object))
    (hmessage : published[(s.readers r).dequeued.length]? = some message)
    (hinline : message.overflow = false) (hobject : object = message.object) :
    (s.finishRead config (some object) r).Inv config pickle kept published := by
  subst hobject
  refine h.markRead hr (by rw [hphase]; rfl) hmessage rfl ?_ (fun _ _ => trivial)
    (take_succ_object rfl (h.dequeued r hr) hmessage) (fun sent hsent hreceives => ?_) rfl
  · rw [QueueReader.consumed, QueueReader.consumed, hphase]
    exact length_append
  · -- the message is among those that were sent, since only a large message may be unsent
    have hlt : (s.readers r).dequeued.length < sent.length := by
      by_contra hge
      rw [hsent, getElem?_append_right (by omega)] at hmessage
      have hwriter := h.writer
      cases hunsent : s.phase with
      | sending last =>
        rw [hunsent] at hmessage hwriter
        have hmem := mem_of_getElem? hmessage
        rw [List.mem_singleton.mp hmem] at hinline
        have hlarge : last.overflow = true := hwriter
        rw [hinline] at hlarge
        cases hlarge
      | _ =>
        rw [hunsent] at hmessage
        cases hmessage
    have hnext : sent[(s.readers r).dequeued.length]? = some message := by
      rwa [hsent, getElem?_append_left hlt] at hmessage
    have hdrop := drop_eq_getElem_cons hlt
    rw [getElem?_eq_getElem hlt] at hnext
    refine ⟨?_, ?_⟩
    · change ((s.readers r).dequeued ++ [message.object]).length ≤ sent.length
      rw [length_append, length_singleton]
      exact hlt
    · change (s.readers r).localSocket =
        ((sent.drop ((s.readers r).dequeued ++ [message.object]).length).filter (·.overflow)).map _
      rw [hreceives.localSocket, hdrop, Option.some.inj hnext,
        filter_cons_of_neg (by rw [hinline]; exact Bool.false_ne_true), length_append,
        length_singleton]

lemma Inv.receive (hpickle : pickle.RoundTrips)
    (hr : r < config.nReader) (hphase : (s.readers r).phase = .receiving) {frames : List Bytes}
    {localSocket : List (List Bytes)} (hsocket : (s.readers r).localSocket = frames :: localSocket) :
    ∃ value, pickle.loadAll frames = .ok value ∧ ∀ object,
      pickle.load s.data (frames.map .frame) = .ok (value, object) → (s.setReader r { s.readers r with
        localSocket
        phase := .idle
        dequeued := (s.readers r).dequeued ++ [value]
        held := (s.readers r).held ++ [((s.readers r).dequeued.length, object)] }).Inv config pickle kept published := by
  have hreader := h.readers r hr
  rw [hphase] at hreader
  obtain ⟨message, hmessage, hoverflow⟩ := hreader
  have hhead : ∀ sent, published = sent ++ s.phase.unsent → (s.readers r).Receives sent →
      frames = message.allBuffers ∧ (s.readers r).dequeued.length < sent.length ∧
        localSocket = ((sent.drop ((s.readers r).dequeued.length + 1)).filter (·.overflow)).map
          (·.allBuffers) := by
    intro sent hsent hreceives
    have hlt : (s.readers r).dequeued.length < sent.length := by
      by_contra hge
      have hempty := hreceives.localSocket
      rw [drop_eq_nil_of_le (by omega), hsocket] at hempty
      cases hempty
    have hnext : sent[(s.readers r).dequeued.length]? = some message := by
      rwa [hsent, getElem?_append_left hlt] at hmessage
    rw [getElem?_eq_getElem hlt] at hnext
    have hqueue := hreceives.localSocket
    rw [drop_eq_getElem_cons hlt, Option.some.inj hnext, filter_cons_of_pos hoverflow,
      map_cons, hsocket] at hqueue
    obtain ⟨hframes, hrest⟩ := List.cons.inj hqueue
    exact ⟨hframes, hlt, hrest⟩
  obtain ⟨sent, hsent, hall⟩ := h.sent
  obtain ⟨rfl, -, -⟩ := hhead sent hsent (hall r hr)
  refine ⟨message.object, (h.made_of_getElem? hmessage).loadAll hpickle, fun object hload =>
    h.setReader rfl ?_ trivial (take_succ_object rfl (h.dequeued r hr) hmessage) (fun sent hsent hreceives => ?_)
      fun hkept hr => h.keeps_load hkept hr hload hmessage fun _ buffer hbuffer => ?_⟩
  · rw [QueueReader.consumed, QueueReader.consumed, hphase]
    exact length_append
  · obtain ⟨-, hlt, hrest⟩ := hhead sent hsent hreceives
    refine ⟨?_, ?_⟩
    · change ((s.readers r).dequeued ++ [message.object]).length ≤ sent.length
      rw [length_append, length_singleton]
      exact hlt
    · change localSocket =
        ((sent.drop ((s.readers r).dequeued ++ [message.object]).length).filter (·.overflow)).map _
      rw [hrest, length_append, length_singleton]
  · obtain ⟨bytes, -, rfl⟩ := mem_map.mp hbuffer
    intro hidx
    cases hidx

lemma Inv.readNext (hm : 0 < config.maxChunks)
    (hpickle : pickle.RoundTrips) (hr : r < config.nReader)
    (hrun : s.readNext config pickle r = .ok s') : s'.Inv config pickle kept published := by
  have hreader := h.readers r hr
  unfold MessageQueue.readNext at hrun
  dsimp only at hrun
  cases hphase : (s.readers r).phase with
  | idle =>
    rw [hphase] at hrun
    cases hrun
  | checking =>
    rw [hphase] at hrun
    cases hrun
    exact h.setPhase hr (by rw [hphase]; rfl) fun hflag => Or.inr hflag
  | checked readFlag =>
    rw [hphase] at hrun hreader
    dsimp only at hrun
    split at hrun
    · cases hrun
      exact h.setPhase hr (by rw [hphase]; rfl) trivial
    · rename_i hready
      cases hrun
      simp only [Bool.or_eq_true, Bool.not_eq_true', not_or, Bool.not_eq_false,
        Bool.not_eq_true] at hready
      refine h.setPhase hr (by rw [hphase]; rfl) ?_
      rcases hreader hready.2 with hlt | hflag
      · exact hlt
      · exact h.lt_of_written hm hr (by rw [hphase]; rfl) hready.1 hflag
  | waiting =>
    rw [hphase] at hrun
    cases hrun
    exact h.setPhase hr (by rw [hphase]; rfl) trivial
  | overflowByte =>
    rw [hphase] at hrun hreader
    have hmessage := getElem?_eq_getElem hreader
    have hframed := h.framed_next hr (by rw [hphase]; rfl) hmessage
    cases hoverflow : (published[(s.readers r).dequeued.length]).overflow with
    | true =>
      rw [Framed, hoverflow, if_pos rfl] at hframed
      rw [hframed] at hrun
      cases hrun
      exact h.setPhase hr (by rw [hphase]; rfl) ⟨_, hmessage, hoverflow⟩
    | false =>
      obtain ⟨-, -, rest, hbuf⟩ := hframed.inline hoverflow
      rw [hbuf] at hrun
      cases hrun
      exact h.setPhase hr (by rw [hphase]; rfl) ⟨_, hmessage, hoverflow⟩
  | bufCount =>
    rw [hphase] at hrun hreader
    cases hrun
    obtain ⟨message, hmessage, hinline⟩ := hreader
    obtain ⟨hfew, hsmall, rest, hbuf⟩ :=
      (h.framed_next hr (by rw [hphase]; rfl) hmessage).inline hinline
    have hcount : fromBytesBig (readSlice (s.data (s.readers r).currentIdx) 1 3) =
        message.allBuffers.length := by
      rw [readSlice_eq _ 1 2, hbuf, drop_one, tail_cons,
        take_left' (length_bytesBig 2 _), fromBytesBig_bytesBig, Nat.mod_eq_of_lt hfew]
    refine h.setPhase hr (by rw [hphase]; rfl)
      ⟨message, ⟨hmessage, hinline⟩, message.allBuffers, rest, rfl, hcount, hsmall, ?_⟩
    rw [hbuf, drop_succ_cons, drop_left' (length_bytesBig 2 _)]
  | bufLen remaining offset allBuffers =>
    rw [hphase] at hrun hreader
    obtain ⟨message, hinline, buffers, rest, hall, rfl, hsmall, hbuf⟩ := hreader
    cases buffers with
    | nil =>
      cases hrun
      rw [append_nil] at hall
      exact h.setPhase hr (by rw [hphase]; rfl) ⟨message, hinline, hall⟩
    | cons buffer buffers =>
      cases hrun
      rw [forall_mem_cons] at hsmall
      rw [framed_cons, append_assoc] at hbuf
      have hlength : fromBytesBig (readSlice (s.data (s.readers r).currentIdx) offset (offset + 4)) =
          buffer.length := by
        rw [readSlice_eq, hbuf, take_left' (length_bytesBig 4 _), fromBytesBig_bytesBig,
          Nat.mod_eq_of_lt hsmall.1]
      refine h.setPhase hr (by rw [hphase]; rfl) ⟨message, hinline, buffers, rest, ?_, rfl, hsmall.2, ?_⟩
      · have hcontent : readSlice (s.data (s.readers r).currentIdx) (offset + 4) (offset + 4 + buffer.length) =
            buffer := by
          rw [readSlice_eq, ← drop_drop, hbuf, drop_left' (length_bytesBig 4 _), append_assoc, take_left]
        rw [hlength, readSlices, map_append, map_singleton, hcontent, append_assoc]
        exact hall
      · rw [hlength, ← drop_drop, ← drop_drop, hbuf, drop_left' (length_bytesBig 4 _), append_assoc,
          drop_left]
  | parsed allBuffers =>
    rw [hphase] at hrun hreader
    obtain ⟨message, ⟨hmessage, hinline⟩, hread⟩ := hreader
    have hload : pickle.loadAll ((allBuffers.map fun slice => QueueBuffer.slice (s.readers r).currentIdx
        slice.1 slice.2).map (·.bytes s.data)) = .ok message.object := by
      rw [map_map]
      change pickle.loadAll (readSlices (s.data (s.readers r).currentIdx) allBuffers) = _
      rw [hread]
      exact (h.made_of_getElem? hmessage).loadAll hpickle
    obtain ⟨object, hload⟩ := Pickle.load_of_loadAll hload
    dsimp only at hrun
    rw [hload] at hrun
    cases hrun
    refine h.setReader rfl ?_ ⟨message, ⟨hmessage, hinline⟩, rfl⟩ (h.dequeued r hr)
      (fun _ _ hreceives => ⟨hreceives.le, hreceives.localSocket⟩)
      fun hkept hr => h.keeps_load hkept hr hload hmessage fun hrewriting buffer hbuffer hidx => ?_
    · rw [QueueReader.consumed, QueueReader.consumed, hphase]
      rfl
    · obtain ⟨slice, -, rfl⟩ := mem_map.mp hbuffer
      exact h.exclusive hr (by rw [hphase]; rfl) (WriterPhase.isWriting_of_isRewriting hrewriting)
        (Option.some.inj hidx)
  | done object =>
    rw [hphase] at hrun hreader
    cases hrun
    cases object with
    | none =>
      obtain ⟨message, hmessage, hoverflow⟩ := hreader
      exact h.finishRead_none hr hphase hmessage hoverflow
    | some object =>
      obtain ⟨message, ⟨hmessage, hinline⟩, hobject⟩ := hreader
      exact h.finishRead_some hr hphase hmessage hinline hobject
  | receiving =>
    rw [hphase] at hrun
    dsimp only at hrun
    cases hsocket : (s.readers r).localSocket with
    | nil =>
      rw [hsocket] at hrun
      cases hrun
    | cons frames localSocket =>
      obtain ⟨value, hload, hinv⟩ := h.receive hpickle hr hphase hsocket
      have hframes : pickle.loadAll ((frames.map QueueBuffer.frame).map (·.bytes s.data)) = .ok value := by
        rw [map_map, ← hload]
        exact congrArg _ (map_id frames)
      obtain ⟨object, hload⟩ := Pickle.load_of_loadAll hframes
      rw [hsocket] at hrun
      dsimp only at hrun
      rw [hload] at hrun
      cases hrun
      exact hinv object hload
  | timedOut =>
    rw [hphase] at hrun
    cases hrun

end

end MessageQueue

end VllmRuntime
