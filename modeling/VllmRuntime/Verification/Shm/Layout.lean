import VllmRuntime.Verification.Shm.Ring
import VllmRuntime.Shared.Runs

/-! # The layout of the ring buffer over its runs -/

namespace VllmRuntime

variable {ω : Type}

/-- What the writer does with the ring. In between the object of a chunk is written and the readers
change their count. -/
inductive ShmRingCall (ω : Type) where
  | allocateBuf (size : ℕ)
  | freeBuf (isFree : ℕ → ShmChunk ω → Bool) (nbytes : ℕ)
  | write (address readerCount : ℕ) (object : Option ω)

namespace ShmRing

variable {ring ring' : ShmRing ω} {live : List LiveChunk} {dataBufferSize size : ℕ}

def new (dataBufferSize : ℕ) : ShmRing ω := { dataBufferSize }

def run : ShmRingCall ω → ShmRing ω → Except PyError (ShmRing ω)
  | .allocateBuf size, ring => .ok (ring.allocateBuf size).2
  | .freeBuf isFree nbytes, ring => .ok (ring.freeBuf (fun id chunk => .ok (isFree id chunk)) nbytes).2
  | .write address readerCount object, ring => .ok { ring with
      memory := ring.memory.modifyChunk (address % ring.dataBufferSize) fun chunk =>
        { chunk with readerCount, object } }

/-- `occupied_size_new` is at most the size of the buffer. -/
def HasSpace (ring : ShmRing ω) (size : ℕ) : Prop :=
  ring.bufferEndReset (size + mdSize) + (size + mdSize) - ring.dataBufferStart ≤ ring.dataBufferSize

instance (ring : ShmRing ω) (size : ℕ) : Decidable (ring.HasSpace size) :=
  inferInstanceAs (Decidable (_ ≤ _))

/-- A chunk for which there is space is smaller than `2 ** 31`, and there are fewer than `2 ** 31 - 1`
others. -/
def Representable (ring : ShmRing ω) : ShmRingCall ω → Prop
  | .allocateBuf size => ring.HasSpace size → size + mdSize < idMax ∧ ring.metadata.length + 1 < idMax
  | .freeBuf _ _ | .write _ _ _ => True

instance (ring : ShmRing ω) (call : ShmRingCall ω) : Decidable (ring.Representable call) := by
  cases call with
  | allocateBuf size => exact inferInstanceAs (Decidable (_ → _))
  | freeBuf | write => exact instDecidableTrue

/-- The live chunks in order of their ids: none goes over the end of the buffer, and no two of them share
a byte. -/
structure Layout (ring : ShmRing ω) : Prop where
  start_le_end : ring.dataBufferStart ≤ ring.dataBufferEnd
  end_le : ring.dataBufferEnd ≤ ring.dataBufferStart + ring.dataBufferSize
  ids : ring.metadata.map Prod.fst = idRange ring.monotonicIdStart ring.monotonicIdEnd
  within : ∀ id address, (id, address) ∈ ring.metadata → ∃ chunk, ring.accessBuf address = some chunk ∧
    chunk.monotonicId = id ∧ address % ring.dataBufferSize + chunk.size ≤ ring.dataBufferSize
  disjoint : ring.metadata.Pairwise fun a b => ∀ chunk chunk',
    ring.accessBuf a.2 = some chunk → ring.accessBuf b.2 = some chunk' →
      a.2 % ring.dataBufferSize + chunk.size ≤ b.2 % ring.dataBufferSize ∨
        b.2 % ring.dataBufferSize + chunk'.size ≤ a.2 % ring.dataBufferSize

lemma Inv.layout (h : ring.Inv live) : ring.Layout := by
  have hchunk : ∀ x ∈ live, ∃ chunk, ring.accessBuf x.address = some chunk ∧ chunk.monotonicId = x.id ∧
      chunk.size = x.size := fun x hx => h.accessBuf hx
  refine ⟨h.consecutive.le_stop, h.bound, ?_, ?_, ?_⟩
  · rw [h.consecutive.idEnd_eq h.idStart_lt, idRange_eq h.idStart_lt h.few, h.metadata, List.map_map]
    exact h.consecutive.ids h.idStart_lt
  · intro id address hmem
    rw [h.metadata] at hmem
    obtain ⟨x, hx, heq⟩ := List.mem_map.mp hmem
    cases heq
    obtain ⟨chunk, hsome, hid, hsize⟩ := hchunk x hx
    obtain ⟨-, -, -, hwithin, haddress⟩ := h.consecutive.mem hx
    exact ⟨chunk, hsome, hid, by rw [haddress, hsize]; exact hwithin⟩
  · rw [h.metadata, List.pairwise_map]
    refine h.consecutive.pairwise.imp_of_mem fun {x y} hx hy hbehind chunk chunk' hsome hsome' => ?_
    obtain ⟨_, hsomex, -, hsizex⟩ := hchunk x hx
    obtain ⟨_, hsomey, -, hsizey⟩ := hchunk y hy
    cases hsomex.symm.trans hsome
    cases hsomey.symm.trans hsome'
    obtain ⟨hlower, -, -, -, haddressx⟩ := h.consecutive.mem hx
    obtain ⟨-, hupper, -, -, haddressy⟩ := h.consecutive.mem hy
    have hbound := h.bound
    rw [hsizex, hsizey, haddressx, haddressy]
    exact disjoint_mod hbehind (by omega) h.size_pos

/-- `to_bytes` overflows only for a large chunk for which there is space. -/
lemma allocateBuf_overflow (h : ring.allocateBuf size = (.error .overflowError, ring')) :
    ring.HasSpace size ∧ idMax ≤ size + mdSize := by
  unfold allocateBuf at h
  split at h
  · cases h
  dsimp only at h
  split at h
  · cases h
  rename_i hspace
  split at h
  · rename_i hfits
    refine ⟨not_lt.mp hspace, ?_⟩
    simpa [fitsInt] using hfits
  · cases h

lemma allocateBuf_hasSpace {location : ℕ × ℕ} (h : ring.allocateBuf size = (.ok location, ring')) :
    ring.HasSpace size := by
  unfold allocateBuf at h
  split at h
  · cases h
  dsimp only at h
  split at h
  · cases h
  · rename_i hspace
    exact not_lt.mp hspace

/-- An allocation that raises changes nothing, and one that returns appends a chunk. -/
lemma allocateBuf_representable (h : ring.WellFormed) (hrep : ring.Representable (.allocateBuf size)) :
    (∃ e, ring.allocateBuf size = (.error e, ring)) ∨
    ∃ address id ring', ring.allocateBuf size = (.ok (address, id), ring') ∧ ring'.WellFormed ∧
      ring'.metadata = ring.metadata ++ [(id, address)] := by
  cases hresult : ring.allocateBuf size with
  | mk result ring' =>
    cases result with
    | error e =>
      left
      rcases allocateBuf_eq_error h hresult with rfl | rfl
      · exact ⟨e, rfl⟩
      · obtain ⟨hspace, hlarge⟩ := allocateBuf_overflow hresult
        exact absurd (hrep hspace).1 (not_lt.mpr hlarge)
    | ok location =>
      right
      obtain ⟨address, id⟩ := location
      have hfew := (hrep (allocateBuf_hasSpace hresult)).2
      obtain ⟨hwell, -, hmetadata, -⟩ := allocateBuf_eq_ok h hfew hresult
      exact ⟨address, id, ring', rfl, hwell, hmetadata⟩

/-- Whatever the check answers, the first chunks are freed and their ids are returned. -/
lemma freeBuf_answers (h : ring.WellFormed) (isFree : ℕ → ShmChunk ω → Bool) (nbytes : ℕ) :
    ∃ freed ring', ring.freeBuf (fun id chunk => .ok (isFree id chunk)) nbytes =
        (.ok (freed.map Prod.fst), ring') ∧ ring'.WellFormed ∧ ring.metadata = freed ++ ring'.metadata ∧
      ∀ entry ∈ freed, ∃ chunk, ring.accessBuf entry.2 = some chunk ∧ isFree entry.1 chunk = true := by
  cases hresult : ring.freeBuf (fun id chunk => .ok (isFree id chunk)) nbytes with
  | mk out ring' =>
    obtain ⟨hwell, -, -, freed, hmetadata, hfreed, hids, herror⟩ := freeBuf_spec h hresult
    cases out with
    | error e =>
      obtain ⟨entry, -, chunk, -, hraise⟩ := herror e rfl
      cases hraise
    | ok ids =>
      obtain rfl := hids ids rfl
      refine ⟨freed, ring', rfl, hwell, hmetadata, fun entry hentry => ?_⟩
      obtain ⟨chunk, hchunk, htrue⟩ := hfreed entry hentry
      exact ⟨chunk, hchunk, Except.ok.inj htrue⟩

lemma wellFormed_new (hsize : 0 < dataBufferSize) : (new dataBufferSize : ShmRing ω).WellFormed :=
  ⟨[], hsize, rfl, ⟨rfl, le_rfl⟩, Nat.zero_le _, by simp [idMax], Nat.two_pow_pos 31, List.nodup_nil, by simp⟩

lemma WellFormed.run {call : ShmRingCall ω} (h : ring.WellFormed) (hrep : ring.Representable call)
    (hrun : ShmRing.run call ring = .ok ring') : ring'.WellFormed := by
  cases call with
  | allocateBuf size =>
    cases hrun
    obtain ⟨e, he⟩ | ⟨address, id, ring', hok, hwell, -⟩ := allocateBuf_representable h hrep
    · rw [he]
      exact h
    · rw [hok]
      exact hwell
  | freeBuf isFree nbytes =>
    cases hrun
    obtain ⟨freed, ring', hok, hwell, -⟩ := freeBuf_answers h isFree nbytes
    rw [hok]
    exact hwell
  | write address readerCount object =>
    cases hrun
    exact h.modifyChunk _ fun _ => ⟨rfl, rfl⟩

/-- Over any run the live chunks are laid out one after the other around the buffer. They are freed in
the order of their allocation, and an allocation that raises changes nothing. -/
theorem layout_of_reaches (hsize : 0 < dataBufferSize)
    (h : Reaches run Representable (new dataBufferSize) ring) :
    ring.Layout ∧
    (∀ size, ring.Representable (.allocateBuf size) →
      (∃ e, ring.allocateBuf size = (.error e, ring)) ∨
      ∃ address id ring', ring.allocateBuf size = (.ok (address, id), ring') ∧
        ring'.metadata = ring.metadata ++ [(id, address)]) ∧
    ∀ (isFree : ℕ → ShmChunk ω → Bool) (nbytes : ℕ), ∃ freed ring',
      ring.freeBuf (fun id chunk => .ok (isFree id chunk)) nbytes =
        (.ok (freed.map Prod.fst), ring') ∧ ring.metadata = freed ++ ring'.metadata ∧
      ∀ entry ∈ freed, ∃ chunk, ring.accessBuf entry.2 = some chunk ∧ isFree entry.1 chunk = true := by
  have hwell := h.invariant (wellFormed_new hsize) fun _ _ _ hwell hrep hrun => hwell.run hrep hrun
  refine ⟨?_, fun size hrep => ?_, fun isFree nbytes => ?_⟩
  · obtain ⟨live, hinv⟩ := hwell
    exact hinv.layout
  · obtain herror | ⟨address, id, ring', hok, -, hmetadata⟩ := allocateBuf_representable hwell hrep
    · exact Or.inl herror
    · exact Or.inr ⟨address, id, ring', hok, hmetadata⟩
  · obtain ⟨freed, ring', hok, -, hmetadata, hfreed⟩ := freeBuf_answers hwell isFree nbytes
    exact ⟨freed, ring', hok, hmetadata, hfreed⟩

/-- The second chunk goes to the beginning of the buffer, in front of the first one. -/
def aroundCalls : List (ShmRingCall Unit) :=
  [.allocateBuf 20, .allocateBuf 30, .freeBuf (fun id _ => id = 0) 100, .allocateBuf 40, .allocateBuf 10]

theorem layout_of_reaches_aroundCalls : ∃ ring, Reaches run Representable (new 80 : ShmRing Unit) ring ∧
    ring.metadata = [(1, 28), (2, 80)] ∧ ring.Layout := by
  have heval : (runChecked run (fun ring call => decide (ring.Representable call)) aroundCalls (new 80)).map
      (·.metadata) = some [(1, 28), (2, 80)] := by
    decide +kernel
  obtain ⟨ring, hrun, hmetadata⟩ := Option.map_eq_some_iff.mp heval
  have hreach : Reaches run Representable (new 80) ring :=
    .of_runChecked (fun _ _ => of_decide_eq_true) .start hrun
  exact ⟨ring, hreach, hmetadata, (layout_of_reaches (by decide) hreach).1⟩

/-- A buffer of `2 ** 32` bytes whose first two chunks are freed. -/
def largeCalls : List (ShmRingCall Unit) :=
  [.allocateBuf (2 ^ 31 - 9), .allocateBuf 100, .allocateBuf 100, .freeBuf (fun id _ => id ≤ 1) (2 ^ 32)]

/-- A chunk of `2 ** 31` bytes raises after `data_buffer_end` was moved. -/
theorem allocateBuf_moves_end : ∃ ring, Reaches run (fun _ _ => True) (new (2 ^ 32) : ShmRing Unit) ring ∧
    (ring.allocateBuf (2 ^ 31 - 8)).1 = .error .overflowError ∧
    ring.dataBufferEnd = 2 ^ 31 + 215 ∧ (ring.allocateBuf (2 ^ 31 - 8)).2.dataBufferEnd = 2 ^ 32 := by
  have heval : (runChecked run (fun _ _ => true) largeCalls (new (2 ^ 32))).map (fun ring =>
      ((ring.allocateBuf (2 ^ 31 - 8)).1, ring.dataBufferEnd,
        (ring.allocateBuf (2 ^ 31 - 8)).2.dataBufferEnd)) =
      some (.error .overflowError, 2 ^ 31 + 215, 2 ^ 32) := by
    decide +kernel
  obtain ⟨ring, hrun, hvals⟩ := Option.map_eq_some_iff.mp heval
  simp only [Prod.mk.injEq] at hvals
  exact ⟨ring, .of_runChecked (fun _ _ _ => trivial) .start hrun, hvals⟩

end ShmRing

end VllmRuntime
