import VllmRuntime.Verification.Broadcast.Invariant

/-! # Steps of the writer -/

namespace VllmRuntime

open List Function

variable {ω : Type}

namespace MessageQueue

variable {config : QueueConfig} {pickle : Pickle ω} {kept : Prop} {s s' : MessageQueue ω}
  {published : List (QueueMessage ω)} {message : QueueMessage ω}

/-- The chunks and their flags stay as they were. -/
lemma Inv.setWriter (h : s.Inv config pickle kept published) {phase : WriterPhase ω} {enqueued : List ω}
    {localSocket : ℕ → List (List Bytes)}
    (hrewriting : phase.isRewriting = true → s.phase.isRewriting = true)
    (hwriter : s.WriterInv config pickle published phase)
    (hsent : ∃ sent, published = sent ++ phase.unsent ∧ ∀ r < config.nReader,
      QueueReader.Receives { s.readers r with localSocket := localSocket r } sent)
    (henqueued : 0 < config.nReader → published.map (·.object) = enqueued ++ phase.unsent.map (·.object)) :
    ({ s with phase, enqueued, readers := fun r => { s.readers r with localSocket := localSocket r } } :
      MessageQueue ω).Inv config pickle kept published where
  idx := h.idx
  readerIdx := h.readerIdx
  behind := h.behind
  ahead := h.ahead
  made := h.made
  filled := fun j message hmessage hj =>
    let hfilled := h.filled j message hmessage hj
    ⟨hfilled.written, hfilled.framed, hfilled.read⟩
  current := h.current.imp_right fun ⟨j, message, hmessage, hj, hfilled⟩ =>
    ⟨j, message, hmessage, hj, hfilled.written, hfilled.framed, hfilled.read⟩
  unused := h.unused
  writer := hwriter
  readers := h.readers
  dequeued := h.dequeued
  sent := hsent
  enqueued := henqueued
  held := fun hkept r hr p hmem =>
    let hkeeps := h.held hkept r hr p hmem
    ⟨hkeeps.1, fun hphase => hkeeps.2 (hrewriting hphase)⟩

lemma Inv.setWriterPhase (h : s.Inv config pickle kept published) {phase : WriterPhase ω}
    (hunsent : phase.unsent = s.phase.unsent)
    (hrewriting : phase.isRewriting = true → s.phase.isRewriting = true)
    (hwriter : s.WriterInv config pickle published phase) :
    ({ s with phase } : MessageQueue ω).Inv config pickle kept published :=
  h.setWriter hrewriting hwriter (by rw [hunsent]; exact h.sent) (by rw [hunsent]; exact h.enqueued)

/-- Only the chunk that the writer holds has changed. -/
structure HoldsChunk (s s' : MessageQueue ω) : Prop where
  currentIdx : s'.currentIdx = s.currentIdx
  readers : s'.readers = s.readers
  enqueued : s'.enqueued = s.enqueued
  unsent : s'.phase.unsent = s.phase.unsent
  free : s'.written s.currentIdx = false
  written : ∀ i, i ≠ s.currentIdx → s'.written i = s.written i
  data : ∀ i, i ≠ s.currentIdx → s'.data i = s.data i
  read : ∀ i, i ≠ s.currentIdx → s'.read i = s.read i
  flags : ∀ r, s'.read s.currentIdx r = true → s.read s.currentIdx r = true

lemma Inv.holdsChunk (h : s.Inv config pickle kept published) (hall : s.AllRead config published.length)
    (hfree : kept → s.NotShared config) (hchunk : HoldsChunk s s')
    (hwriter : s'.WriterInv config pickle published s'.phase) :
    s'.Inv config pickle kept published where
  idx := hchunk.currentIdx.trans h.idx
  readerIdx := by
    rw [hchunk.readers]
    exact h.readerIdx
  behind := by
    rw [hchunk.readers]
    exact h.behind
  ahead := by
    rw [hchunk.readers]
    exact h.ahead
  made := h.made
  filled := by
    intro j message hmessage hj
    have hfilled := h.filled j message hmessage hj
    have hne : j % config.maxChunks ≠ s.currentIdx := by
      rw [h.idx]
      exact mod_ne (lt_of_getElem? hmessage) hj
    refine ⟨?_, ?_, ?_⟩
    · rw [hchunk.written _ hne]
      exact hfilled.written
    · rw [hchunk.data _ hne]
      exact hfilled.framed
    · rw [hchunk.read _ hne, hchunk.readers]
      exact hfilled.read
  current := by
    left
    rw [hchunk.currentIdx, AllRead, hchunk.readers]
    exact ⟨hchunk.free, hall⟩
  unused := by
    intro i hi him
    by_cases hne : i = s.currentIdx
    · rw [hne]
      exact hchunk.free
    · rw [hchunk.written i hne]
      exact h.unused i hi him
  writer := hwriter
  readers := by
    intro r hr
    rw [hchunk.readers]
    rw [← append_nil published]
    refine (h.readers r hr).mono [] ?_ ?_
    · intro hreading
      exact hchunk.data _ (h.idx_ne hall hr hreading)
    · intro hflag
      by_cases hne : (s.readers r).currentIdx = s.currentIdx
      · rw [hne] at hflag ⊢
        exact hchunk.flags r hflag
      · rwa [hchunk.read _ hne] at hflag
  dequeued := by
    rw [hchunk.readers]
    exact h.dequeued
  sent := by
    rw [hchunk.readers, hchunk.unsent]
    exact h.sent
  enqueued := by
    rw [hchunk.enqueued, hchunk.unsent]
    exact h.enqueued
  held := by
    intro hkept r hr p hmem
    rw [hchunk.readers] at hmem
    have hne := hfree hkept r hr p hmem
    obtain ⟨⟨message, hmessage, hvalue⟩, -⟩ := h.held hkept r hr p hmem
    refine ⟨⟨message, hmessage, ?_⟩, fun _ => by rwa [hchunk.currentIdx]⟩
    rw [QueueObject.value_congr fun idx hidx => hchunk.data idx fun heq => hne (heq ▸ hidx)]
    exact hvalue

lemma publish_eq (s : MessageQueue ω) (config : QueueConfig) (message : QueueMessage ω) :
    ∃ phase enqueued, s.publish config message = { s with
      written := update s.written s.currentIdx true
      currentIdx := (s.currentIdx + 1) % config.maxChunks
      phase
      enqueued } ∧ phase.isRewriting ≠ true := by
  unfold MessageQueue.publish
  dsimp only
  split
  · exact ⟨_, _, rfl, Bool.false_ne_true⟩
  · exact ⟨_, _, rfl, Bool.false_ne_true⟩

section

variable (h : s.Inv config pickle kept published)
include h

/-- The chunk is marked as written: one more message. -/
lemma Inv.publish (hm : 0 < config.maxChunks)
    (hunsent : s.phase.unsent = [])
    (hmade : Made config pickle message) (hall : s.AllRead config published.length)
    (hframed : Framed (s.data s.currentIdx) message)
    (hflags : ∀ r < config.nReader, s.read s.currentIdx r = false) :
    (s.publish config message).Inv config pickle kept (published ++ [message]) := by
  obtain ⟨sent, hsent, hreceives⟩ := h.sent
  rw [hunsent, append_nil] at hsent
  subst hsent
  have hlength : (published ++ [message]).length = published.length + 1 := by simp
  obtain ⟨phase, enqueued, heq, hrewriting⟩ := s.publish_eq config message
  have hdata : (s.publish config message).data = s.data := by rw [heq]
  have hread : (s.publish config message).read = s.read := by rw [heq]
  have hreaders : (s.publish config message).readers = s.readers := by rw [heq]
  have hidx : (s.publish config message).currentIdx = (s.currentIdx + 1) % config.maxChunks := by rw [heq]
  have hwritten : (s.publish config message).written = update s.written s.currentIdx true := by rw [heq]
  have hfilled : ∀ j message', (published ++ [message])[j]? = some message' →
      published.length < j + config.maxChunks → (s.publish config message).Filled config j message' := by
    intro j message' hmessage' hj
    have hjlt := lt_of_getElem? hmessage'
    rw [hlength] at hjlt
    rcases Nat.lt_or_eq_of_le (Nat.le_of_lt_succ hjlt) with hlt | rfl
    · rw [getElem?_append_left hlt] at hmessage'
      have hold := h.filled j message' hmessage' hj
      have hne : j % config.maxChunks ≠ s.currentIdx := by
        rw [h.idx]
        exact mod_ne hlt hj
      refine ⟨?_, ?_, ?_⟩
      · rw [hwritten, update_of_ne hne]
        exact hold.written
      · rw [hdata]
        exact hold.framed
      · rw [hread, hreaders]
        exact hold.read
    · rw [getElem?_concat_length] at hmessage'
      cases hmessage'
      refine ⟨?_, ?_, ?_⟩
      · rw [hwritten, ← h.idx, update_self]
      · rw [hdata, ← h.idx]
        exact hframed
      · intro r hr
        have hbehind := h.behind r hr
        rw [hread, hreaders, ← h.idx, hflags r hr]
        exact (decide_eq_false (by omega)).symm
  refine ⟨?_, ?_, ?_, ?_, ?_, ?_, ?_, ?_, ?_, ?_, ?_, ?_, ?_, ?_⟩
  · rw [hidx, h.idx, Nat.mod_add_mod, hlength]
  · rw [hreaders]
    exact h.readerIdx
  · intro r hr
    rw [hreaders, hlength]
    exact (h.behind r hr).trans (Nat.le_succ _)
  · intro r hr
    rw [hreaders, hlength]
    exact hall r hr
  · intro message' hmem
    rcases List.mem_append.mp hmem with hmem | hmem
    · exact h.made message' hmem
    · rw [List.mem_singleton.mp hmem]
      exact hmade
  · intro j message' hmessage' hj
    rw [hlength] at hj
    exact hfilled j message' hmessage' (by omega)
  · rcases Nat.lt_or_ge (published.length + 1) config.maxChunks with hlt | hge
    · left
      have hidx' : (s.publish config message).currentIdx = published.length + 1 := by
        rw [hidx, h.idx, Nat.mod_add_mod, Nat.mod_eq_of_lt hlt]
      have hcurrent : s.currentIdx = published.length := by
        rw [h.idx, Nat.mod_eq_of_lt (by omega)]
      refine ⟨?_, ?_⟩
      · rw [hidx', hwritten, update_of_ne (by omega)]
        exact h.unused _ (Nat.lt_succ_self _) hlt
      · intro r hr
        rw [hlength]
        omega
    · right
      obtain ⟨j, hj⟩ : ∃ j, j + config.maxChunks = published.length + 1 :=
        ⟨published.length + 1 - config.maxChunks, by omega⟩
      obtain ⟨message', hmessage'⟩ : ∃ message', (published ++ [message])[j]? = some message' :=
        ⟨_, getElem?_eq_getElem (by rw [hlength]; omega)⟩
      exact ⟨j, message', hmessage', by rw [hlength]; exact hj, hfilled j message' hmessage' (by omega)⟩
  · intro i hi him
    rw [hlength] at hi
    have hcurrent : s.currentIdx = published.length := by
      rw [h.idx, Nat.mod_eq_of_lt (by omega)]
    rw [hwritten, update_of_ne (by omega)]
    exact h.unused i (by omega) him
  · unfold MessageQueue.publish
    dsimp only
    split
    · assumption
    · trivial
  · intro r hr
    rw [hreaders, hdata, hread]
    exact (h.readers r hr).mono [message] (fun _ => rfl) fun hflag => hflag
  · intro r hr
    rw [hreaders, take_append_of_le_length (hreceives r hr).le]
    exact h.dequeued r hr
  · rw [hreaders]
    unfold MessageQueue.publish
    dsimp only
    split
    · exact ⟨published, rfl, hreceives⟩
    · rename_i hinline
      refine ⟨published ++ [message], (append_nil _).symm, fun r hr => ⟨?_, ?_⟩⟩
      · rw [hlength]
        exact (hreceives r hr).le.trans (Nat.le_succ _)
      · rw [drop_append_of_le_length (hreceives r hr).le, filter_append,
          filter_cons_of_neg hinline, filter_nil, append_nil]
        exact (hreceives r hr).localSocket
  · intro hpos
    have henqueued := h.enqueued hpos
    rw [hunsent, map_nil, append_nil] at henqueued
    rw [map_append, henqueued]
    unfold MessageQueue.publish
    dsimp only
    split
    · rfl
    · exact (append_nil _).symm
  · intro hkept r hr p hmem
    rw [hreaders] at hmem
    obtain ⟨⟨message', hmessage', hvalue⟩, -⟩ := h.held hkept r hr p hmem
    refine ⟨⟨message', ?_, by rwa [hdata]⟩, fun hphase => ?_⟩
    · rw [getElem?_append_left (lt_of_getElem? hmessage'), hmessage']
    · rw [heq] at hphase
      exact absurd hphase hrewriting

/-- The message goes to the sockets of all readers. -/
lemma Inv.sendAll (hphase : s.phase = .sending message)
    (hoverflow : message.overflow = true) :
    ({ s with
      readers := fun r => { s.readers r with
        localSocket := (s.readers r).localSocket ++ [message.allBuffers] }
      enqueued := s.enqueued ++ [message.object]
      phase := .idle } : MessageQueue ω).Inv config pickle kept published := by
  refine h.setWriter nofun trivial ?_ ?_
  · obtain ⟨sent, hsent, hreceives⟩ := h.sent
    rw [hphase] at hsent
    refine ⟨published, (append_nil _).symm, fun r hr => ⟨?_, ?_⟩⟩
    · rw [hsent, length_append]
      exact (hreceives r hr).le.trans (Nat.le_add_right _ _)
    · rw [hsent]
      change (s.readers r).localSocket ++ [message.allBuffers] =
        (((sent ++ [message]).drop (s.readers r).dequeued.length).filter (·.overflow)).map (·.allBuffers)
      rw [drop_append_of_le_length (hreceives r hr).le, filter_append,
        filter_cons_of_pos hoverflow, filter_nil, map_append,
        ← (hreceives r hr).localSocket]
      rfl
  · intro hpos
    have henqueued := h.enqueued hpos
    rw [hphase] at henqueued
    rw [henqueued]
    exact (append_nil _).symm

/-! ## Every step -/

lemma Inv.enqueue {object : ω}
    (hrun : s.enqueue config pickle object = .ok s') : s'.Inv config pickle kept published := by
  unfold MessageQueue.enqueue at hrun
  cases hphase : s.phase with
  | idle =>
    rw [hphase] at hrun
    dsimp only at hrun
    split at hrun
    · rename_i hzero
      cases hrun
      have hsent := h.sent
      rw [hphase] at hsent
      exact h.setWriter nofun trivial hsent fun hpos => absurd hpos (by omega)
    · cases hrun
      refine h.setWriterPhase (by rw [hphase]; rfl) nofun ⟨⟨object, rfl⟩, Nat.zero_le _, le_rfl, ?_⟩
      intro _ r hr
      exact absurd hr (Nat.not_lt_zero r)
  | _ =>
    rw [hphase] at hrun
    cases hrun

lemma Inv.writeTimeout (hrun : s.writeTimeout = .ok s') :
    s'.Inv config pickle kept published := by
  unfold MessageQueue.writeTimeout at hrun
  cases hphase : s.phase with
  | waiting message =>
    rw [hphase] at hrun
    cases hrun
    exact h.setWriterPhase (by rw [hphase]; rfl) nofun trivial
  | _ =>
    rw [hphase] at hrun
    cases hrun

/-- The flags that are counted tell whether all readers have read the chunk. -/
lemma Inv.allRead_of_counted
    (hcounted : s.written s.currentIdx = true → ∀ r < config.nReader, s.read s.currentIdx r = true) :
    s.AllRead config published.length := by
  rcases h.current with ⟨-, hall⟩ | ⟨j, message, hmessage, hj, hfilled⟩
  · exact hall
  · have hidx : s.currentIdx = j % config.maxChunks := by
      rw [h.idx, ← hj, Nat.add_mod_right]
    intro r hr
    have hflag := hcounted (hidx ▸ hfilled.written) r hr
    rw [hidx, hfilled.read r hr, decide_eq_true_iff] at hflag
    omega

/-- A step of the writer publishes at most one message. -/
lemma Inv.write (hm : 0 < config.maxChunks)
    (hacquired : kept → ∀ message, s.phase = .acquired message → s.NotShared config)
    (hrun : s.write config = .ok s') : ∃ more, s'.Inv config pickle kept (published ++ more) := by
  have hwriter := h.writer
  have hfree : s.phase.isRewriting = true → kept → s.NotShared config :=
    fun hphase hkept r hr p hmem => (h.held hkept r hr p hmem).2 hphase
  have hnone : ∀ {s' : MessageQueue ω}, s'.Inv config pickle kept published →
      ∃ more, s'.Inv config pickle kept (published ++ more) :=
    fun hinv => ⟨[], by rwa [append_nil]⟩
  unfold MessageQueue.write at hrun
  cases hphase : s.phase with
  | idle =>
    rw [hphase] at hrun
    cases hrun
  | counting message i readCount =>
    rw [hphase] at hrun hwriter
    dsimp only at hrun
    obtain ⟨hmade, hi, hle, hcount⟩ := hwriter
    split at hrun
    · rename_i hlt
      cases hrun
      refine hnone (h.setWriterPhase (by rw [hphase]; rfl) nofun ⟨hmade, hlt, ?_, ?_⟩)
      · cases s.read s.currentIdx i <;> simp <;> omega
      · intro heq r hr
        cases hflag : s.read s.currentIdx i with
        | false =>
          rw [hflag] at heq
          simp at heq
          omega
        | true =>
          rw [hflag] at heq
          rcases Nat.lt_or_eq_of_le (Nat.le_of_lt_succ hr) with hr | rfl
          · exact hcount (by simpa using heq) r hr
          · exact hflag
    · rename_i hge
      obtain rfl : i = config.nReader := by omega
      split at hrun
      · cases hrun
        exact hnone (h.setWriterPhase (by rw [hphase]; rfl) nofun hmade)
      · rename_i hready
        cases hrun
        refine hnone (h.setWriterPhase (by rw [hphase]; rfl) nofun ⟨hmade, h.allRead_of_counted ?_⟩)
        intro hwritten
        refine hcount ?_
        by_contra hne
        exact hready ⟨hwritten, hne⟩
  | waiting message =>
    rw [hphase] at hrun hwriter
    cases hrun
    refine hnone (h.setWriterPhase (by rw [hphase]; rfl) nofun ⟨hwriter, Nat.zero_le _, le_rfl, ?_⟩)
    intro _ r hr
    exact absurd hr (Nat.not_lt_zero r)
  | acquired message =>
    rw [hphase] at hrun hwriter
    obtain ⟨hmade, hall⟩ := hwriter
    cases hrun
    refine hnone (h.holdsChunk hall (fun hkept => hacquired hkept message hphase)
      ⟨rfl, rfl, rfl, by rw [hphase]; rfl, update_self .., ?_,
      fun _ _ => rfl, fun _ _ => rfl, fun _ hflag => hflag⟩ ⟨hmade, hall, update_self ..,
        fun _ hmem => hmem, fun _ happly => applyWrites_writes happly⟩)
    intro i hi
    exact update_of_ne hi _ _
  | writing message writes =>
    rw [hphase] at hrun hwriter
    obtain ⟨hmade, hall, hwritten, hmem, hframed⟩ := hwriter
    cases writes with
    | nil =>
      cases hrun
      refine hnone (h.setWriterPhase (by rw [hphase]; rfl) (fun _ => by rw [hphase]; rfl)
        ⟨hmade, hall, hwritten, hframed _ rfl, ?_⟩)
      intro r hr
      exact absurd hr (Nat.not_lt_zero r)
    | cons write writes =>
      cases write with
      | error e =>
        cases hrun
        exact hnone (h.setWriterPhase (by rw [hphase]; rfl) nofun trivial)
      | ok slice =>
        obtain ⟨offset, bytes⟩ := slice
        dsimp only at hrun
        cases hslice : writeSlice (s.data s.currentIdx) offset bytes with
        | error e =>
          rw [hslice] at hrun
          cases hrun
          exact hnone (h.setWriterPhase (by rw [hphase]; rfl) nofun trivial)
        | ok buf =>
          rw [hslice] at hrun
          cases hrun
          refine hnone (h.holdsChunk hall (hfree (by rw [hphase]; rfl)) ⟨rfl, rfl, rfl, by rw [hphase]; rfl, hwritten,
            fun _ _ => rfl, ?_, fun _ _ => rfl, fun _ hflag => hflag⟩
            ⟨hmade, hall, hwritten, fun w hw => hmem w (mem_cons_of_mem _ hw), ?_⟩)
          · intro i hi
            exact update_of_ne hi _ _
          · intro buf' happly
            change applyWrites writes (update s.data s.currentIdx buf s.currentIdx) = _
              at happly
            rw [update_self] at happly
            refine hframed buf' ?_
            rw [applyWrites, hslice]
            exact happly
  | resetting message i =>
    rw [hphase] at hrun hwriter
    obtain ⟨hmade, hall, hwritten, hframed, hflags⟩ := hwriter
    dsimp only at hrun
    split at hrun
    · rename_i hlt
      cases hrun
      refine hnone (h.holdsChunk hall (hfree (by rw [hphase]; rfl)) ⟨rfl, rfl, rfl, by rw [hphase]; rfl, hwritten,
        fun _ _ => rfl,
        fun _ _ => rfl, ?_, ?_⟩ ⟨hmade, hall, hwritten, hframed, ?_⟩)
      · intro j hj
        exact update_of_ne hj _ _
      · intro r hflag
        dsimp only at hflag
        rw [update_self] at hflag
        by_cases hr : r = i
        · rw [hr, update_self] at hflag
          cases hflag
        · rwa [update_of_ne hr] at hflag
      · intro r hr
        dsimp only
        rw [update_self]
        by_cases hri : r = i
        · rw [hri, update_self]
        · rw [update_of_ne hri]
          exact hflags r (by omega)
    · rename_i hge
      cases hrun
      exact ⟨[message], h.publish hm (by rw [hphase]; rfl) hmade hall hframed
        fun r hr => hflags r (by omega)⟩
  | sending message =>
    rw [hphase] at hrun hwriter
    cases hrun
    exact hnone (h.sendAll hphase hwriter)

end

end MessageQueue

end VllmRuntime
