import VllmRuntime.Verification.Broadcast.Delivery

/-! # Timeouts

A `dequeue` that times out in the ring or on the remote socket consumes nothing. One that times out on the
local socket has already gone on to the next chunk. -/

namespace VllmRuntime

open List

variable {ω : Type}

namespace MessageQueue

variable {config : QueueConfig} {pickle : Pickle ω} {s s' : MessageQueue ω} {r x : ℕ} {call : QueueCall ω}

/-- A step of a reader enqueues nothing. -/
lemma enqueued_readNext (h : s.readNext config pickle r = .ok s') : s'.enqueued = s.enqueued := by
  have hfinish : ∀ object, (s.finishRead config object r).enqueued = s.enqueued := by
    intro object
    cases object <;> rfl
  unfold readNext at h
  dsimp only at h
  repeat' split at h
  all_goals cases h
  all_goals first | rfl | exact hfinish _

lemma enqueued_write (h : s.write config = .ok s') : s.enqueued <+: s'.enqueued := by
  have hpublish : ∀ message, s.enqueued <+: (s.publish config message).enqueued := by
    intro message
    unfold publish
    dsimp only
    split <;> simp
  unfold write at h
  repeat' split at h
  all_goals cases h
  all_goals first | exact prefix_rfl | exact hpublish _ | exact prefix_append _ _

/-- What was enqueued stays enqueued. -/
lemma enqueued_run (h : s.run config pickle call = .ok s') : s.enqueued <+: s'.enqueued := by
  cases call with
  | write => exact enqueued_write h
  | read r =>
    rw [MessageQueue.run, asReader] at h
    split at h
    · rw [enqueued_readNext h]
    · cases h
  | enqueue object =>
    simp only [MessageQueue.run, enqueue] at h
    repeat' split at h
    all_goals cases h
    all_goals first | exact prefix_append _ _ | exact prefix_rfl
  | _ =>
    simp only [MessageQueue.run, writeTimeout, asReader, dequeue, readTimeout, release] at h
    repeat' split at h
    all_goals cases h
    all_goals exact prefix_rfl

lemma phase_setReader (r x : ℕ) (reader : QueueReader ω) :
    ((s.setReader r reader).readers x).phase = if x = r then reader.phase else (s.readers x).phase := by
  by_cases hx : x = r
  · subst hx
    simp [setReader]
  · simp [setReader, hx]

lemma timedOut_setReader {reader : QueueReader ω} (hne : reader.phase ≠ .timedOut)
    (h : ((s.setReader r reader).readers x).phase = .timedOut) : (s.readers x).phase = .timedOut := by
  rw [phase_setReader] at h
  split at h
  · exact absurd h hne
  · exact h

lemma timedOut_readNext (h : s.readNext config pickle r = .ok s') (hout : (s'.readers x).phase = .timedOut) :
    (s.readers x).phase = .timedOut := by
  have hfinish : ∀ object, ((s.finishRead config object r).readers x).phase = .timedOut →
      (s.readers x).phase = .timedOut := by
    intro object
    cases object with
    | none => exact timedOut_setReader nofun
    | some object => exact timedOut_setReader nofun
  unfold readNext at h
  dsimp only at h
  repeat' split at h
  all_goals cases h
  all_goals first | exact hfinish _ hout | refine timedOut_setReader ?_ hout
  all_goals nofun

/-- Only a timeout on the local socket leaves a reader timed out. -/
lemma timedOut_run (h : s.run config pickle call = .ok s') (hout : (s'.readers x).phase = .timedOut) :
    (s.readers x).phase = .timedOut ∨ call = .readTimeout x ∧ (s.readers x).phase = .receiving := by
  cases call with
  | read r =>
    rw [MessageQueue.run, asReader] at h
    split at h
    · exact Or.inl (timedOut_readNext h hout)
    · cases h
  | readTimeout r =>
    simp only [MessageQueue.run, asReader, readTimeout] at h
    repeat' split at h
    all_goals cases h
    · refine Or.inl (timedOut_setReader ?_ hout)
      intro hphase
      cases hphase
    · rename_i hreceiving
      by_cases hx : x = r
      · subst hx
        exact Or.inr ⟨rfl, hreceiving⟩
      · rw [setPhase, phase_setReader, if_neg hx] at hout
        exact Or.inl hout
  | dequeue r =>
    simp only [MessageQueue.run, asReader, MessageQueue.dequeue] at h
    repeat' split at h
    all_goals cases h
    refine Or.inl (timedOut_setReader ?_ hout)
    intro hphase
    cases hphase
  | release r i =>
    simp only [MessageQueue.run, asReader, release] at h
    split at h
    all_goals cases h
    rw [phase_setReader] at hout
    split at hout
    · rename_i hx
      exact Or.inl (hx ▸ hout)
    · exact Or.inl hout
  | enqueue object =>
    simp only [MessageQueue.run, enqueue] at h
    repeat' split at h
    all_goals cases h
    all_goals exact Or.inl hout
  | writeTimeout =>
    simp only [MessageQueue.run, writeTimeout] at h
    split at h
    all_goals cases h
    exact Or.inl hout
  | write =>
    have hpublish : ∀ message, (s.publish config message).readers = s.readers := by
      intro message
      obtain ⟨_, _, heq, -⟩ := s.publish_eq config message
      rw [heq]
    simp only [MessageQueue.run, write] at h
    repeat' split at h
    all_goals cases h
    all_goals first | exact Or.inl hout | (rw [hpublish] at hout; exact Or.inl hout)

end MessageQueue

/-! ## The calls -/

/-- What a remote reader still has to dequeue is in its socket. -/
def RemoteReader.Takes (config : QueueConfig) (pickle : Pickle ω) (remote : RemoteReader ω) (sent : List ω) : Prop :=
  ∃ rest, sent = remote.dequeued ++ rest ∧
    remote.remoteSocket = rest.map fun object => (config.message pickle object).allBuffers

namespace BroadcastQueue

variable {config : QueueConfig} {nRemoteReader : ℕ} {pickle : Pickle ω} {s s' : BroadcastQueue ω}
  {ring : MessageQueue ω} {call : QueueCall ω} {r : ℕ}

/-- No `recv` of a local reader times out. -/
def InTime (s : BroadcastQueue ω) : BroadcastCall ω → Prop
  | .ring (.readTimeout r) => (s.ring.readers r).phase ≠ .receiving
  | _ => True

instance (phase : ReaderPhase ω) : Decidable (phase ≠ .receiving) := by
  cases phase <;> first | exact isFalse fun hne => hne rfl | exact isTrue (by simp)

instance (s : BroadcastQueue ω) (call : BroadcastCall ω) : Decidable (s.InTime call) := by
  unfold InTime
  split <;> infer_instance

/-- Every reader has dequeued the first objects, in order. -/
structure InOrder (config : QueueConfig) (nRemoteReader : ℕ) (s : BroadcastQueue ω) : Prop where
  readers : ∀ r < config.nReader, (s.ring.readers r).dequeued <+: s.ring.objects
  remotes : ∀ r < nRemoteReader, (s.remotes r).dequeued <+: s.ring.enqueued

structure Inv (config : QueueConfig) (nRemoteReader : ℕ) (pickle : Pickle ω) (s : BroadcastQueue ω) : Prop where
  ring : ∃ published, s.ring.Inv config pickle False published
  inTime : ∀ r < config.nReader, (s.ring.readers r).phase ≠ .timedOut
  numSent : s.numSent ≤ s.ring.enqueued.length
  remotes : ∀ r < nRemoteReader, (s.remotes r).Takes config pickle (s.ring.enqueued.take s.numSent)

lemma inv_initial (hm : 0 < config.maxChunks) (data : ℕ → Bytes) :
    (initial data : BroadcastQueue ω).Inv config nRemoteReader pickle where
  ring := ⟨[], MessageQueue.inv_initial hm data⟩
  inTime _ _ := nofun
  numSent := le_rfl
  remotes _ _ := ⟨[], rfl, rfl⟩

/-- More objects in the ring, and no change for the remote readers. -/
lemma Inv.setRing (hs : s.Inv config nRemoteReader pickle)
    (hring : ∃ published, ring.Inv config pickle False published)
    (hinTime : ∀ r < config.nReader, (ring.readers r).phase ≠ .timedOut)
    (hgrow : s.ring.enqueued <+: ring.enqueued) :
    ({ s with ring } : BroadcastQueue ω).Inv config nRemoteReader pickle where
  ring := hring
  inTime := hinTime
  numSent := hs.numSent.trans hgrow.length_le
  remotes r hr := by
    have hsame : ring.enqueued.take s.numSent = s.ring.enqueued.take s.numSent := by
      obtain ⟨more, hmore⟩ := hgrow
      rw [← hmore, take_append_of_le_length hs.numSent]
    have htakes := hs.remotes r hr
    rw [← hsame] at htakes
    exact htakes

lemma Inv.runRing (hs : s.Inv config nRemoteReader pickle) (hm : 0 < config.maxChunks)
    (hpickle : pickle.RoundTrips) (hinTime : s.InTime (.ring call))
    (h : s.ring.run config pickle call = .ok ring) :
    ({ s with ring } : BroadcastQueue ω).Inv config nRemoteReader pickle := by
  obtain ⟨published, hring⟩ := hs.ring
  obtain ⟨more, hnext⟩ := hring.run hm hpickle nofun h
  refine hs.setRing ⟨_, hnext⟩ (fun r hr hout => ?_) (MessageQueue.enqueued_run h)
  rcases MessageQueue.timedOut_run h hout with hold | ⟨rfl, hreceiving⟩
  · exact hs.inTime r hr hold
  · exact hinTime hreceiving

lemma runRing_eq_ok (h : s.runRing config pickle call = .ok s') :
    ∃ ring, s.ring.run config pickle call = .ok ring ∧ s' = { s with ring } := by
  have hbind : ∀ {step : Except Unit (MessageQueue ω)},
      (step >>= fun ring => pure { s with ring }) = Except.ok s' → ∃ ring, step = .ok ring ∧ s' = { s with ring } := by
    intro step hstep
    cases step with
    | error e => cases hstep
    | ok ring => exact ⟨ring, rfl, (Except.ok.inj hstep).symm⟩
  unfold runRing at h
  split at h
  · split at h
    · exact hbind h
    · cases h
  · exact hbind h

section

variable (hs : s.Inv config nRemoteReader pickle)
include hs

/-- A remote reader takes the objects that are sent, in order. -/
lemma Inv.setRemote {remote : RemoteReader ω}
    (htakes : r < nRemoteReader → remote.Takes config pickle (s.ring.enqueued.take s.numSent)) :
    (s.setRemote r remote).Inv config nRemoteReader pickle where
  ring := hs.ring
  inTime := hs.inTime
  numSent := hs.numSent
  remotes x hx := by
    by_cases heq : x = r
    · subst heq
      simpa [BroadcastQueue.setRemote] using htakes hx
    · simpa [BroadcastQueue.setRemote, heq] using hs.remotes x hx

lemma Inv.sendRemote (h : s.sendRemote config pickle = .ok s') :
    s'.Inv config nRemoteReader pickle := by
  unfold BroadcastQueue.sendRemote at h
  split at h
  · cases h
  · rename_i object hobject
    cases h
    have hlt := lt_of_getElem? hobject
    refine ⟨hs.ring, hs.inTime, hlt, fun r hr => ?_⟩
    obtain ⟨rest, hsent, hsocket⟩ := hs.remotes r hr
    refine ⟨rest ++ [object], ?_, by simp [hsocket]⟩
    dsimp only
    rw [take_add_one, hobject, hsent]
    simp

lemma Inv.receiveRemote (hpickle : pickle.RoundTrips)
    (h : s.receiveRemote pickle r = .ok s') (hr : r < nRemoteReader) :
    s'.Inv config nRemoteReader pickle := by
  obtain ⟨rest, hsent, hsocket⟩ := hs.remotes r hr
  unfold BroadcastQueue.receiveRemote at h
  rw [hsocket] at h
  cases rest with
  | nil => cases h
  | cons object rest =>
    have hload : pickle.loadAll (config.message pickle object).allBuffers = .ok object :=
      hpickle oobCallback object
    rw [map_cons] at h
    dsimp only at h
    rw [hload] at h
    cases h
    refine hs.setRemote fun _ => ⟨rest, ?_, rfl⟩
    simp [hsent]

lemma Inv.run (hm : 0 < config.maxChunks) (hpickle : pickle.RoundTrips)
    {call : BroadcastCall ω} (hinTime : s.InTime call) (h : s.run config nRemoteReader pickle call = .ok s') :
    s'.Inv config nRemoteReader pickle := by
  -- a step of a remote reader that is there
  have hremote : ∀ {r : ℕ} {receiving : Bool} {step : BroadcastQueue ω → Except Unit (BroadcastQueue ω)},
      asRemote nRemoteReader r receiving step s = .ok s' → r < nRemoteReader ∧ step s = .ok s' := by
    intro r receiving step hstep
    unfold asRemote at hstep
    split at hstep
    · rename_i hr
      exact ⟨hr.1, hstep⟩
    · cases hstep
  cases call with
  | ring call =>
    obtain ⟨ring, hring, rfl⟩ := runRing_eq_ok h
    exact hs.runRing hm hpickle hinTime hring
  | sendRemote => exact hs.sendRemote h
  | resume r =>
    -- nobody has timed out
    have herror : ∀ ring, MessageQueue.asReader config r MessageQueue.resume s.ring ≠ .ok ring := by
      intro ring hresume
      unfold MessageQueue.asReader MessageQueue.resume at hresume
      repeat' split at hresume
      · rename_i hr _ hout
        exact hs.inTime r hr hout
      all_goals cases hresume
    cases hresume : MessageQueue.asReader config r MessageQueue.resume s.ring with
    | error e =>
      rw [BroadcastQueue.run, BroadcastQueue.resume, hresume] at h
      cases h
    | ok ring => exact absurd hresume (herror ring)
  | dequeueRemote r | timeoutRemote r =>
    obtain ⟨-, hstep⟩ := hremote h
    cases hstep
    exact hs.setRemote fun hr => hs.remotes r hr
  | receiveRemote r =>
    obtain ⟨hr, hstep⟩ := hremote h
    exact hs.receiveRemote hpickle hstep hr

end

/-- Timeouts lose nothing, as long as `recv` of a local reader does not time out. -/
theorem inOrder_of_reaches (hm : 0 < config.maxChunks) (hpickle : pickle.RoundTrips) (data : ℕ → Bytes)
    (h : Reaches (run config nRemoteReader pickle) InTime (initial data) s) : s.InOrder config nRemoteReader := by
  have hinv := h.invariant (inv_initial hm data) fun _ _ _ hs hinTime hrun => hs.run hm hpickle hinTime hrun
  obtain ⟨published, hring⟩ := hinv.ring
  refine ⟨hring.inOrder, fun r hr => ?_⟩
  obtain ⟨rest, hsent, -⟩ := hinv.remotes r hr
  exact (hsent ▸ prefix_append _ rest).trans (List.take_prefix _ _)

/-- A local and a remote reader that time out before an object comes. -/
def timeoutsFirst : List (BroadcastCall Bytes) :=
  [.ring (.dequeue 0), .ring (.read 0), .ring (.read 0), .ring (.readTimeout 0), .dequeueRemote 0, .timeoutRemote 0,
    .ring (.enqueue [1])] ++ List.replicate 10 (.ring .write) ++ .sendRemote :: .ring (.dequeue 0) ::
    List.replicate 8 (.ring (.read 0)) ++ [.dequeueRemote 0, .receiveRemote 0]

/-- The reader of a large message times out before the message is sent, and is called again. -/
def timeoutBetween : List (BroadcastCall Bytes) :=
  .ring (.enqueue (List.replicate 10 7)) :: List.replicate 7 (.ring .write) ++ .ring (.dequeue 0) ::
    List.replicate 4 (.ring (.read 0)) ++ [.ring (.readTimeout 0), .resume 0, .ring .write, .sendRemote,
    .ring (.enqueue [1])] ++ List.replicate 10 (.ring .write) ++ .ring (.dequeue 0) ::
    List.replicate 8 (.ring (.read 0))

theorem inOrder_of_reaches_timeoutsFirst :
    ∃ s, runChecked (run ⟨1, 30, 2⟩ 1 MessageQueue.bytesPickle) (fun s call => s.InTime call) timeoutsFirst
      (initial fun _ => List.replicate 30 0) = some s ∧ (s.ring.readers 0).dequeued = [[1]] ∧
        (s.remotes 0).dequeued = [[1]] ∧ s.InOrder ⟨1, 30, 2⟩ 1 := by
  have heval : ((runChecked (run ⟨1, 30, 2⟩ 1 MessageQueue.bytesPickle) (fun s call => s.InTime call) timeoutsFirst
      (initial fun _ => List.replicate 30 0)).map fun s => ((s.ring.readers 0).dequeued, (s.remotes 0).dequeued)) =
        some ([[1]], [[1]]) := by
    decide +kernel
  obtain ⟨s, hs, hdequeued⟩ := Option.map_eq_some_iff.mp heval
  obtain ⟨hreader, hremote⟩ := Prod.mk.inj hdequeued
  exact ⟨s, hs, hreader, hremote, inOrder_of_reaches (by decide) MessageQueue.roundTrips_bytesPickle _
    (Reaches.of_runChecked (fun _ _ => of_decide_eq_true) .start hs)⟩

/-- The reader gets the small object in place of the large one. -/
theorem loses_timeoutBetween :
    ∃ s, Reaches (run ⟨1, 30, 2⟩ 0 MessageQueue.bytesPickle) (fun _ _ => True)
        (initial fun _ => List.replicate 30 0) s ∧
      s.ring.enqueued = [List.replicate 10 7, [1]] ∧ (s.ring.readers 0).dequeued = [[1]] ∧
        ¬ s.InOrder ⟨1, 30, 2⟩ 0 := by
  have heval : ((runChecked (run ⟨1, 30, 2⟩ 0 MessageQueue.bytesPickle) (fun _ _ => true) timeoutBetween
      (initial fun _ => List.replicate 30 0)).map fun s =>
        (s.ring.enqueued, (s.ring.readers 0).dequeued, s.ring.phase.object?)) =
          some ([List.replicate 10 7, [1]], [[1]], none) := by
    decide +kernel
  obtain ⟨s, hs, hvalues⟩ := Option.map_eq_some_iff.mp heval
  obtain ⟨henqueued, hrest⟩ := Prod.mk.inj hvalues
  obtain ⟨hdequeued, hphase⟩ := Prod.mk.inj hrest
  refine ⟨s, Reaches.of_runChecked (fun _ _ _ => trivial) .start hs, henqueued, hdequeued, fun horder => ?_⟩
  have hfirst := horder.readers 0 (by decide)
  rw [hdequeued, MessageQueue.objects, henqueued, hphase] at hfirst
  exact absurd hfirst (by decide)

end BroadcastQueue

end VllmRuntime
