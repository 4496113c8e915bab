import VllmRuntime.Model.ShmObjectStorage

/-! # Chunks of the ring buffer

The chunks of the metadata lie one after the other between `data_buffer_start` and `data_buffer_end`, and
their ids are consecutive. An address is only known up to the size of the buffer: `pos` is where the
chunk lies when the start is not moved back. -/

namespace VllmRuntime

open List ShmRing

variable {ω : Type} {n id lower idEnd stop : ℕ} {live : List LiveChunk}

/-- A chunk of the metadata. -/
structure LiveChunk where
  id : ℕ
  address : ℕ
  pos : ℕ
  size : ℕ

/-- The chunks lie one after the other, none goes over the end of the buffer, and their ids are
consecutive. -/
def Consecutive (n : ℕ) : ℕ → ℕ → List LiveChunk → ℕ → ℕ → Prop
  | id, lower, [], idEnd, stop => id = idEnd ∧ lower ≤ stop
  | id, lower, x :: live, idEnd, stop =>
    x.id = id ∧ lower ≤ x.pos ∧ 0 < x.size ∧ x.pos % n + x.size ≤ n ∧ x.address % n = x.pos % n ∧
      Consecutive n ((id + 1) % idMax) (x.pos + x.size) live idEnd stop

namespace Consecutive

variable {n id lower idEnd stop : ℕ} {live : List LiveChunk} {x : LiveChunk}

section

variable (h : Consecutive n id lower live idEnd stop)
include h

lemma le_stop : lower ≤ stop := by
  induction live generalizing id lower with
  | nil => exact h.2
  | cons x live ih =>
    obtain ⟨-, hlower, -, -, -, hrest⟩ := h
    have := ih hrest
    omega

lemma mem (hx : x ∈ live) :
    lower ≤ x.pos ∧ x.pos + x.size ≤ stop ∧ 0 < x.size ∧ x.pos % n + x.size ≤ n ∧
      x.address % n = x.pos % n := by
  induction live generalizing id lower with
  | nil => exact absurd hx not_mem_nil
  | cons y live ih =>
    obtain ⟨-, hlower, hsize, hwithin, haddress, hrest⟩ := h
    rcases mem_cons.mp hx with rfl | hx
    · exact ⟨hlower, hrest.le_stop, hsize, hwithin, haddress⟩
    · obtain ⟨hpos, hx⟩ := ih hrest hx
      exact ⟨by omega, hx⟩

/-- Chunks that come later lie behind. -/
lemma pairwise :
    live.Pairwise fun x y => x.pos + x.size ≤ y.pos := by
  induction live generalizing id lower with
  | nil => exact .nil
  | cons x live ih =>
    obtain ⟨-, -, -, -, -, hrest⟩ := h
    exact .cons (fun y hy => (hrest.mem hy).1) (ih hrest)

lemma append (hid : x.id = idEnd) (hpos : stop ≤ x.pos)
    (hsize : 0 < x.size) (hwithin : x.pos % n + x.size ≤ n) (haddress : x.address % n = x.pos % n) :
    Consecutive n id lower (live ++ [x]) ((idEnd + 1) % idMax) (x.pos + x.size) := by
  induction live generalizing id lower with
  | nil =>
    obtain ⟨rfl, hlower⟩ := h
    exact ⟨hid, hlower.trans hpos, hsize, hwithin, haddress, rfl, le_rfl⟩
  | cons y live ih =>
    obtain ⟨hyid, hlower, hysize, hywithin, hyaddress, hrest⟩ := h
    exact ⟨hyid, hlower, hysize, hywithin, hyaddress, ih hrest⟩

/-- The positions when the start is moved back by the size of the buffer. -/
lemma shift (hle : n ≤ lower) :
    Consecutive n id (lower - n) (live.map fun x => { x with pos := x.pos - n }) idEnd (stop - n) := by
  induction live generalizing id lower with
  | nil => exact ⟨h.1, Nat.sub_le_sub_right h.2 n⟩
  | cons x live ih =>
    obtain ⟨hid, hlower, hsize, hwithin, haddress, hrest⟩ := h
    have hmod : (x.pos - n) % n = x.pos % n := by
      rw [← Nat.mod_eq_sub_mod (hle.trans hlower)]
    refine ⟨hid, Nat.sub_le_sub_right hlower n, hsize, hmod ▸ hwithin, hmod ▸ haddress, ?_⟩
    have hshift := ih hrest (by omega)
    have hsub : x.pos + x.size - n = x.pos - n + x.size := by omega
    rwa [hsub] at hshift

end

end Consecutive

/-- Two intervals less than a buffer apart are disjoint in the buffer. -/
lemma disjoint_mod {p q a b : ℕ} (hpq : p + a ≤ q) (hqp : q + b ≤ p + n) (hn : 0 < n) :
    p % n + a ≤ q % n ∨ q % n + b ≤ p % n := by
  have hp' := Nat.div_add_mod p n
  have hq' := Nat.div_add_mod q n
  have hle : p / n ≤ q / n := Nat.div_le_div_right (by omega)
  have hlt : q / n ≤ p / n + 1 := by
    have := Nat.div_le_div_right (c := n) (show q ≤ p + n by omega)
    rwa [Nat.add_div_right p hn] at this
  rcases Nat.eq_or_lt_of_le hle with heq | hgt
  · left
    rw [← heq] at hq'
    omega
  · right
    have heq : q / n = p / n + 1 := by omega
    rw [heq, Nat.mul_add] at hq'
    omega

/-! ## The memory -/

namespace ShmMemory

variable {memory : ShmMemory ω} {idx length : ℕ} {chunk : ShmChunk ω} {i : ℕ}

lemma nodup_overwrite (h : (memory.map Prod.fst).Nodup) :
    ((memory.overwrite idx length).map Prod.fst).Nodup :=
  List.Nodup.sublist (filter_sublist.map _) h

lemma nodup_writeChunk (h : (memory.map Prod.fst).Nodup) :
    ((memory.writeChunk idx chunk).map Prod.fst).Nodup := by
  rw [writeChunk, map_append, nodup_append]
  refine ⟨nodup_overwrite h, by simp, ?_⟩
  rintro x hx y hy rfl
  obtain rfl : x = idx := by simpa using hy
  obtain ⟨entry, hentry, heq⟩ := mem_map.mp hx
  have hne := (mem_filter.mp hentry).2
  simp [heq] at hne

lemma map_fst_modifyChunk (f : ShmChunk ω → ShmChunk ω) :
    (memory.modifyChunk idx f).map Prod.fst = memory.map Prod.fst := by
  unfold modifyChunk
  rw [map_map]
  refine map_congr_left fun entry _ => ?_
  dsimp only [Function.comp]
  split <;> rfl

/-- A chunk that shares no byte with what is written stays as it is. -/
lemma lookup_overwrite (hnodup : (memory.map Prod.fst).Nodup) (h : memory.lookup i = some chunk)
    (hi : i ≠ idx) (hdisjoint : i + chunk.size ≤ idx ∨
      idx + length ≤ i) : (memory.overwrite idx length).lookup i = some chunk := by
  refine lookup_of_mem (nodup_overwrite hnodup) ?_
  rw [overwrite, mem_filter]
  exact ⟨mem_of_lookup h, by simpa using ⟨hi, hdisjoint⟩⟩

lemma lookup_writeChunk_self (hnodup : (memory.map Prod.fst).Nodup) :
    (memory.writeChunk idx chunk).lookup idx = some chunk :=
  lookup_of_mem (nodup_writeChunk hnodup) (mem_append_right _ mem_cons_self)

lemma lookup_writeChunk (hnodup : (memory.map Prod.fst).Nodup) {other : ShmChunk ω}
    (h : memory.lookup i = some other) (hi : i ≠ idx) (hdisjoint : i + other.size ≤ idx ∨
      idx + chunk.size ≤ i) : (memory.writeChunk idx chunk).lookup i = some other := by
  refine lookup_of_mem (nodup_writeChunk hnodup) (mem_append_left _ ?_)
  exact mem_of_lookup (lookup_overwrite hnodup h hi hdisjoint)

lemma lookup_modifyChunk (f : ShmChunk ω → ShmChunk ω) (i : ℕ) :
    (memory.modifyChunk idx f).lookup i =
      (memory.lookup i).map fun chunk => if i = idx then f chunk else chunk := by
  have hmap : memory.modifyChunk idx f =
      memory.map fun entry => (entry.1, if entry.1 = idx then f entry.2 else entry.2) := by
    refine map_congr_left fun entry _ => ?_
    split
    · rfl
    · rfl
  rw [hmap]
  exact lookup_map_snd memory (fun j chunk => if j = idx then f chunk else chunk) i

end ShmMemory

/-! ## The invariant -/

namespace ShmRing

variable {ring : ShmRing ω} {live : List LiveChunk}

/-- The chunks of the metadata are consecutive, less than a buffer long, and whole in the memory. -/
structure Inv (ring : ShmRing ω) (live : List LiveChunk) : Prop where
  size_pos : 0 < ring.dataBufferSize
  metadata : ring.metadata = live.map fun x => (x.id, x.address)
  consecutive : Consecutive ring.dataBufferSize ring.monotonicIdStart ring.dataBufferStart live
    ring.monotonicIdEnd ring.dataBufferEnd
  bound : ring.dataBufferEnd ≤ ring.dataBufferStart + ring.dataBufferSize
  few : live.length < idMax
  idStart_lt : ring.monotonicIdStart < idMax
  nodup_memory : (ring.memory.map Prod.fst).Nodup
  stored : ∀ x ∈ live, ∃ chunk, ring.memory.lookup (x.pos % ring.dataBufferSize) = some chunk ∧
    chunk.monotonicId = x.id ∧ chunk.size = x.size

end ShmRing

/-- The ids of consecutive chunks. -/
lemma Consecutive.ids (h : Consecutive n id lower live idEnd stop) (hid : id < idMax) :
    live.map (·.id) = (range live.length).map fun i => (id + i) % idMax := by
  induction live generalizing id lower with
  | nil => rfl
  | cons x live ih =>
    obtain ⟨rfl, -, -, -, -, hrest⟩ := h
    have hids := ih hrest (Nat.mod_lt _ (by decide))
    rw [map_cons, hids, length_cons, range_succ_eq_map, map_cons, map_map]
    simp only [Nat.add_zero, Nat.mod_eq_of_lt hid, cons.injEq, true_and]
    refine map_congr_left fun i _ => ?_
    simp only [Function.comp, Nat.succ_eq_add_one]
    rw [Nat.mod_add_mod]
    congr 1
    omega

lemma Consecutive.idEnd_eq (h : Consecutive n id lower live idEnd stop) (hid : id < idMax) :
    idEnd = (id + live.length) % idMax := by
  induction live generalizing id lower with
  | nil =>
    obtain ⟨rfl, -⟩ := h
    exact (Nat.mod_eq_of_lt hid).symm
  | cons x live ih =>
    obtain ⟨rfl, -, -, -, -, hrest⟩ := h
    rw [ih hrest (Nat.mod_lt _ (by decide)), Nat.mod_add_mod, length_cons]
    congr 1
    omega

namespace ShmRing

variable {ring ring' : ShmRing ω} {live : List LiveChunk} {size : ℕ}

namespace Inv

variable {x : LiveChunk}

lemma nodup_ids (h : ring.Inv live) : (live.map (·.id)).Nodup := by
  rw [h.consecutive.ids h.idStart_lt]
  refine List.Nodup.map_on ?_ nodup_range
  intro i hi j hj hij
  have hi := (mem_range.mp hi).trans h.few
  have hj := (mem_range.mp hj).trans h.few
  have hmod := Nat.ModEq.add_left_cancel' ring.monotonicIdStart (show _ ≡ _ [MOD idMax] from hij)
  exact Nat.ModEq.eq_of_lt_of_lt hmod hi hj

/-- The next id is not in use. -/
lemma idEnd_not_mem (h : ring.Inv live) : ring.monotonicIdEnd ∉ ring.metadata.map Prod.fst := by
  rw [h.metadata, map_map]
  change ring.monotonicIdEnd ∉ live.map (·.id)
  rw [h.consecutive.ids h.idStart_lt, h.consecutive.idEnd_eq h.idStart_lt]
  intro hmem
  obtain ⟨i, hi, heq⟩ := mem_map.mp hmem
  have hi := mem_range.mp hi
  have hmod := Nat.ModEq.add_left_cancel' ring.monotonicIdStart (show _ ≡ _ [MOD idMax] from heq)
  have := Nat.ModEq.eq_of_lt_of_lt hmod (hi.trans h.few) h.few
  omega

/-- A chunk is found by its id. -/
lemma lookup_metadata (h : ring.Inv live) (hx : x ∈ live) :
    ring.metadata.lookup x.id = some x.address := by
  refine lookup_of_mem ?_ ?_
  · rw [h.metadata, map_map]
    exact h.nodup_ids
  · rw [h.metadata]
    exact mem_map.mpr ⟨x, hx, rfl⟩

lemma accessBuf (h : ring.Inv live) (hx : x ∈ live) :
    ∃ chunk, ring.accessBuf x.address = some chunk ∧ chunk.monotonicId = x.id ∧ chunk.size = x.size := by
  obtain ⟨-, -, -, -, haddress⟩ := h.consecutive.mem hx
  rw [ShmRing.accessBuf, haddress]
  exact h.stored x hx

/-- Different chunks share no byte. -/
lemma disjoint (h : ring.Inv live) {pos : ℕ} (hpos : ring.dataBufferEnd ≤ pos)
    (hend : pos + size ≤ ring.dataBufferStart + ring.dataBufferSize) (hx : x ∈ live) :
    x.pos % ring.dataBufferSize + x.size ≤ pos % ring.dataBufferSize ∨
      pos % ring.dataBufferSize + size ≤ x.pos % ring.dataBufferSize := by
  obtain ⟨hlower, hupper, -, -, -⟩ := h.consecutive.mem hx
  exact disjoint_mod (by omega) (by omega) h.size_pos

end Inv

lemma le_bufferEndReset (hsize : 0 < ring.dataBufferSize) (size : ℕ) :
    ring.dataBufferEnd ≤ ring.bufferEndReset size := by
  unfold bufferEndReset
  split
  · have h := Nat.lt_div_mul_add (a := ring.dataBufferEnd) hsize
    rw [Nat.add_mul, Nat.one_mul]
    omega
  · exact le_rfl

lemma bufferEndReset_mod (ring : ShmRing ω) (hsize : size ≤ ring.dataBufferSize) :
    ring.bufferEndReset size % ring.dataBufferSize + size ≤ ring.dataBufferSize := by
  unfold bufferEndReset
  split
  · rw [Nat.mul_mod_left, Nat.zero_add]
    exact hsize
  · omega

/-- What a new chunk adds; a failed allocation for want of space changes nothing. -/
lemma allocateBuf_cases (h : ring.Inv live) (size : ℕ) :
    (∃ e, ring.allocateBuf size = (.error e, ring)) ∨
    (∃ ring', ring.allocateBuf size = (.error .overflowError, ring')) ∨
    ∃ ring' x chunk, ring.allocateBuf size = (.ok (x.address, x.id), ring') ∧
      (live.length + 1 < idMax → ring'.Inv (live ++ [x])) ∧
      ring'.dataBufferSize = ring.dataBufferSize ∧
      ring'.memory = ring.memory.writeChunk (x.pos % ring.dataBufferSize) chunk ∧
      chunk.monotonicId = x.id ∧ chunk.size = x.size ∧
      ring.dataBufferEnd ≤ x.pos ∧ x.pos + x.size ≤ ring.dataBufferStart + ring.dataBufferSize := by
  unfold allocateBuf
  split
  · exact Or.inl ⟨_, rfl⟩
  dsimp only
  split
  · exact Or.inl ⟨_, rfl⟩
  split
  · exact Or.inr (Or.inl ⟨_, rfl⟩)
  rename_i hzero hspace hfits
  have hpos := le_bufferEndReset h.size_pos (size + mdSize)
  have hstart := h.consecutive.le_stop
  have hend : ring.bufferEndReset (size + mdSize) + (size + mdSize) ≤
      ring.dataBufferStart + ring.dataBufferSize := by omega
  have hwithin := bufferEndReset_mod ring (show size + mdSize ≤ ring.dataBufferSize by omega)
  generalize ring.bufferEndReset (size + mdSize) = pos at *
  refine Or.inr (Or.inr ⟨_, ⟨ring.monotonicIdEnd, pos, pos, size + mdSize⟩, _, rfl, fun hfew => ?_, rfl,
    rfl, rfl, rfl, hpos, hend⟩)
  have hidEnd : ring.monotonicIdEnd % idMax = ring.monotonicIdEnd := by
    rw [h.consecutive.idEnd_eq h.idStart_lt]
    exact Nat.mod_mod _ _
  exact {
    size_pos := h.size_pos
    metadata := by
      rw [hidEnd, dictSet_of_not_mem h.idEnd_not_mem, h.metadata, map_append]
      rfl
    consecutive := h.consecutive.append rfl hpos (by simp [mdSize]) hwithin rfl
    bound := hend
    few := by simpa using hfew
    idStart_lt := h.idStart_lt
    nodup_memory := ShmMemory.nodup_writeChunk h.nodup_memory
    stored := by
      intro x hx
      rcases mem_append.mp hx with hx | hx
      · obtain ⟨chunk, hchunk, hid, hsize⟩ := h.stored x hx
        obtain ⟨-, -, hpositive, -, -⟩ := h.consecutive.mem hx
        have hdisjoint := h.disjoint hpos hend hx
        have hmd : 0 < size + mdSize := by simp [mdSize]
        have hne : x.pos % ring.dataBufferSize ≠ pos % ring.dataBufferSize := by omega
        exact ⟨chunk, ShmMemory.lookup_writeChunk h.nodup_memory hchunk hne (hsize ▸ hdisjoint), hid, hsize⟩
      · obtain rfl := mem_singleton.mp hx
        exact ⟨_, ShmMemory.lookup_writeChunk_self h.nodup_memory, rfl, rfl⟩ }

/-! ## Freeing -/

/-- The start moves to the next chunk, whose address is known up to the size of the buffer. -/
lemma add_toNat_emod (start : ℕ) {address pos : ℕ} (hlower : start ≤ pos) (hupper : pos < start + n)
    (haddress : address % n = pos % n) :
    start + (((address : ℤ) - start) % (n : ℤ)).toNat = pos := by
  have hmod : ((address : ℤ) - start) % n = ((pos : ℤ) - start) % n := by
    have hcast : (address : ℤ) % n = (pos : ℤ) % n := by exact_mod_cast haddress
    rw [Int.sub_emod, hcast, ← Int.sub_emod]
  rw [hmod, Int.emod_eq_of_lt (by omega) (by omega)]
  omega

/-- The first chunk is freed. -/
lemma Inv.freeFirst {x : LiveChunk} (h : ring.Inv (x :: live)) : ring.freeFirst.Inv live := by
  obtain ⟨hid, hlower, hsize, hwithin, haddress, hrest⟩ := h.consecutive
  have hbound := h.bound
  have hfew : live.length < idMax := (Nat.lt_succ_self _).trans h.few
  have hstored := fun y hy => h.stored y (mem_cons_of_mem x hy)
  have hmetadata : dictPop ring.metadata ring.monotonicIdStart = live.map fun x => (x.id, x.address) := by
    have hnodup := h.nodup_ids
    rw [map_cons, nodup_cons] at hnodup
    rw [h.metadata, ← hid, dictPop, map_cons, filter_cons_of_neg (by simp),
      filter_eq_self]
    intro entry hentry
    obtain ⟨y, hy, rfl⟩ := mem_map.mp hentry
    have hne : y.id ≠ x.id := fun heq => hnodup.1 (heq ▸ mem_map_of_mem hy)
    simpa using hne
  unfold ShmRing.freeFirst
  rw [hmetadata]
  cases live with
  | nil => exact ⟨h.size_pos, rfl, ⟨hrest.1, le_rfl⟩, Nat.zero_le _, hfew, Nat.mod_lt _ (by decide),
      h.nodup_memory, hstored⟩
  | cons y live =>
    obtain ⟨hyid, hylower, hysize, hywithin, hyaddress, hyrest⟩ := hrest
    have hupper := hyrest.le_stop
    have hstart := add_toNat_emod ring.dataBufferStart (by omega) (by omega) hyaddress
    have hlookup : ((y :: live).map fun x => (x.id, x.address)).lookup
        ((ring.monotonicIdStart + 1) % idMax) = some y.address := by
      rw [← hyid]
      simp
    simp only [hlookup, hstart]
    exact ⟨h.size_pos, rfl, ⟨hyid, le_rfl, hysize, hywithin, hyaddress, hyrest⟩, by dsimp only; omega,
      hfew, Nat.mod_lt _ (by decide), h.nodup_memory, hstored⟩

@[simp] lemma freeFirst_dataBufferSize : ring.freeFirst.dataBufferSize = ring.dataBufferSize := by
  unfold ShmRing.freeFirst
  dsimp only
  split <;> rfl

@[simp] lemma freeFirst_memory : ring.freeFirst.memory = ring.memory := by
  unfold ShmRing.freeFirst
  dsimp only
  split <;> rfl

lemma freeFirst_monotonicIdStart :
    ring.freeFirst.monotonicIdStart = (ring.monotonicIdStart + 1) % idMax := by
  unfold ShmRing.freeFirst
  dsimp only
  split <;> rfl

/-- What freeing does: the first chunks are gone, and the check said that they are free. -/
structure Frees (isFree : ℕ → ShmChunk ω → Except PyError Bool) (ring : ShmRing ω)
    (live freed rest : List LiveChunk) (out : Option PyError) (ring' : ShmRing ω) : Prop where
  split : live = freed ++ rest
  inv : ring'.Inv rest
  memory : ring'.memory = ring.memory
  dataBufferSize : ring'.dataBufferSize = ring.dataBufferSize
  idStart : ring'.monotonicIdStart = (ring.monotonicIdStart + freed.length) % idMax
  free : ∀ x ∈ freed, ∃ chunk, ring.accessBuf x.address = some chunk ∧ isFree x.id chunk = .ok true
  error : ∀ e, out = some e →
    ∃ x ∈ live, ∃ chunk, ring.accessBuf x.address = some chunk ∧ isFree x.id chunk = .error e

/-- The exception of a result. -/
def raised {α : Type} : Except PyError α → Option PyError
  | .error e => some e
  | .ok _ => none

variable {isFree : ℕ → ShmChunk ω → Except PyError Bool} {nbytes : ℕ}

lemma Frees.none (h : ring.Inv live) : Frees isFree ring live [] live Option.none ring where
  split := rfl
  inv := h
  memory := rfl
  dataBufferSize := rfl
  idStart := (Nat.mod_eq_of_lt h.idStart_lt).symm
  free := by simp
  error := by simp

/-- The loop frees the first chunks, as long as the check says so. -/
lemma freeLoop_spec (isFree : ℕ → ShmChunk ω → Except PyError Bool) (nbytes rounds freedBytes : ℕ)
    (h : ring.Inv live) :
    ∃ freed rest, Frees isFree ring live freed rest
      (raised (freeLoop isFree nbytes rounds freedBytes ring).1)
      (freeLoop isFree nbytes rounds freedBytes ring).2 := by
  induction rounds generalizing freedBytes ring live with
  | zero => exact ⟨[], live, .none h⟩
  | succ rounds ih =>
    rw [freeLoop]
    cases live with
    | nil =>
      rw [h.metadata]
      exact ⟨[], [], .none h⟩
    | cons x live =>
      have hid := h.consecutive.1
      have hlookup := h.lookup_metadata mem_cons_self
      obtain ⟨chunk, hchunk, -⟩ := h.accessBuf (mem_cons_self (a := x) (l := live))
      rw [← hid, hlookup]
      simp only [hchunk]
      split
      · exact ⟨[], x :: live, .none h⟩
      cases hfree : isFree x.id chunk with
      | error e =>
        refine ⟨[], x :: live, { Frees.none h with error := ?_ }⟩
        intro e' he'
        cases he'
        exact ⟨x, mem_cons_self, chunk, hchunk, hfree⟩
      | ok free =>
        cases free with
        | false => exact ⟨[], x :: live, .none h⟩
        | true =>
          obtain ⟨freed, rest, hfrees⟩ := ih (freedBytes + chunk.size) h.freeFirst
          have haccess : ∀ address, ring.freeFirst.accessBuf address = ring.accessBuf address := by
            intro address
            rw [ShmRing.accessBuf, ShmRing.accessBuf, freeFirst_memory, freeFirst_dataBufferSize]
          refine ⟨x :: freed, rest, ?_, hfrees.inv, ?_, ?_, ?_, ?_, ?_⟩
          · rw [hfrees.split, cons_append]
          · rw [hfrees.memory, freeFirst_memory]
          · rw [hfrees.dataBufferSize, freeFirst_dataBufferSize]
          · rw [hfrees.idStart, freeFirst_monotonicIdStart, Nat.mod_add_mod, length_cons]
            congr 1
            omega
          · intro y hy
            rcases mem_cons.mp hy with rfl | hy
            · exact ⟨chunk, hchunk, hfree⟩
            · obtain ⟨other, hother, hy⟩ := hfrees.free y hy
              exact ⟨other, haccess _ ▸ hother, hy⟩
          · intro e he
            obtain ⟨y, hy, other, hother, hraise⟩ := hfrees.error e he
            exact ⟨y, mem_cons_of_mem x hy, other, haccess _ ▸ hother, hraise⟩

/-- Moving the start back by the size of the buffer moves all positions. -/
lemma Inv.normalize (h : ring.Inv live) (hle : ring.dataBufferSize ≤ ring.dataBufferStart) :
    ({ ring with
      dataBufferStart := ring.dataBufferStart - ring.dataBufferSize
      dataBufferEnd := ring.dataBufferEnd - ring.dataBufferSize } : ShmRing ω).Inv
        (live.map fun x => { x with pos := x.pos - ring.dataBufferSize }) := by
  have hbound := h.bound
  refine ⟨h.size_pos, ?_, h.consecutive.shift hle, by dsimp only; omega, by simpa using h.few,
    h.idStart_lt, h.nodup_memory, ?_⟩
  · rw [h.metadata, map_map]
    rfl
  · intro x hx
    obtain ⟨y, hy, rfl⟩ := mem_map.mp hx
    have hpos := hle.trans (h.consecutive.mem hy).1
    dsimp only
    rw [← Nat.mod_eq_sub_mod hpos]
    exact h.stored y hy

lemma idRange_eq {start k : ℕ} (hstart : start < idMax) (hk : k < idMax) :
    idRange start ((start + k) % idMax) = (range k).map fun i => (start + i) % idMax := by
  unfold idRange
  rcases Nat.lt_or_ge (start + k) idMax with hlt | hge
  · rw [Nat.mod_eq_of_lt hlt, if_pos (Nat.le_add_right _ _), Nat.add_sub_cancel_left,
      range'_eq_map_range]
    refine map_congr_left fun i hi => ?_
    have hi := mem_range.mp hi
    exact (Nat.mod_eq_of_lt (by omega)).symm
  · have hmod : (start + k) % idMax = start + k - idMax := by
      rw [Nat.mod_eq_sub_mod hge, Nat.mod_eq_of_lt (by omega)]
    rw [hmod, if_neg (by omega)]
    apply ext_getElem
    · simp
      omega
    · intro i hi hi'
      have hik : i < k := by simpa using hi'
      rw [getElem_append]
      split
      · rename_i hlt
        have hlt : i < idMax - start := by simpa using hlt
        rw [getElem_range', getElem_map, getElem_range, Nat.mod_eq_of_lt (by omega)]
        omega
      · rename_i hge'
        have hge' : idMax - start ≤ i := by simpa using hge'
        rw [getElem_range, getElem_map, getElem_range, length_range',
          Nat.mod_eq_sub_mod (by omega), Nat.mod_eq_of_lt (by omega)]
        omega

/-! ## The chunks that are stored -/

/-- There are positions for the chunks of the metadata. -/
def WellFormed (ring : ShmRing ω) : Prop := ∃ live, ring.Inv live

namespace WellFormed

variable {id address : ℕ}

lemma nodup_ids (h : ring.WellFormed) : (ring.metadata.map Prod.fst).Nodup := by
  obtain ⟨live, h⟩ := h
  rw [h.metadata, map_map]
  exact h.nodup_ids

lemma accessBuf (h : ring.WellFormed) (hmem : (id, address) ∈ ring.metadata) :
    ∃ chunk, ring.accessBuf address = some chunk ∧ chunk.monotonicId = id := by
  obtain ⟨live, h⟩ := h
  rw [h.metadata] at hmem
  obtain ⟨x, hx, heq⟩ := mem_map.mp hmem
  cases heq
  obtain ⟨chunk, hchunk, hid, -⟩ := h.accessBuf hx
  exact ⟨chunk, hchunk, hid⟩

/-- Different chunks are at different places. -/
lemma eq_of_mod_eq (h : ring.WellFormed) {id' address' : ℕ} (hmem : (id, address) ∈ ring.metadata)
    (hmem' : (id', address') ∈ ring.metadata)
    (hmod : address % ring.dataBufferSize = address' % ring.dataBufferSize) :
    id = id' ∧ address = address' := by
  obtain ⟨chunk, hchunk, rfl⟩ := h.accessBuf hmem
  obtain ⟨chunk', hchunk', rfl⟩ := h.accessBuf hmem'
  rw [ShmRing.accessBuf, hmod, ← ShmRing.accessBuf, hchunk'] at hchunk
  cases hchunk
  have hfst := inj_on_of_nodup_map h.nodup_ids hmem hmem' rfl
  exact ⟨rfl, (Prod.mk.inj hfst).2⟩

/-- A change of a chunk that keeps its header. -/
lemma modifyChunk (h : ring.WellFormed) (idx : ℕ) {f : ShmChunk ω → ShmChunk ω}
    (hf : ∀ chunk, (f chunk).monotonicId = chunk.monotonicId ∧ (f chunk).size = chunk.size) :
    ({ ring with memory := ring.memory.modifyChunk idx f } : ShmRing ω).WellFormed := by
  obtain ⟨live, h⟩ := h
  refine ⟨live, { h with nodup_memory := ?_, stored := fun x hx => ?_ }⟩
  · rw [ShmMemory.map_fst_modifyChunk]
    exact h.nodup_memory
  · obtain ⟨chunk, hchunk, hid, hsize⟩ := h.stored x hx
    rw [ShmMemory.lookup_modifyChunk, hchunk]
    refine ⟨_, rfl, ?_, ?_⟩ <;> split
    · exact (hf chunk).1.trans hid
    · exact hid
    · exact (hf chunk).2.trans hsize
    · exact hsize

end WellFormed

/-- A new chunk is added at a place of its own; the others stay as they are. -/
lemma allocateBuf_eq_ok (h : ring.WellFormed) (hfew : ring.metadata.length + 1 < idMax) {location : ℕ × ℕ}
    (hok : ring.allocateBuf size = (.ok location, ring')) :
    ring'.WellFormed ∧ ring'.dataBufferSize = ring.dataBufferSize ∧
      ring'.metadata = ring.metadata ++ [(location.2, location.1)] ∧
      location.2 ∉ ring.metadata.map Prod.fst ∧
      (∃ chunk, ring'.accessBuf location.1 = some chunk) ∧
      ∀ id address, (id, address) ∈ ring.metadata →
        address % ring.dataBufferSize ≠ location.1 % ring.dataBufferSize ∧
        ring'.accessBuf address = ring.accessBuf address := by
  obtain ⟨live, h⟩ := h
  rcases allocateBuf_cases h size with ⟨e, he⟩ | ⟨ring'', he⟩ |
    ⟨ring'', x, chunk, he, hinv, hsize, hmemory, hid, hchunk, hpos, hend⟩
  · rw [he] at hok
    cases (Prod.mk.inj hok).1
  · rw [he] at hok
    cases (Prod.mk.inj hok).1
  rw [he] at hok
  obtain ⟨hloc, rfl⟩ := Prod.mk.inj hok
  cases hloc
  have hlength : live.length + 1 < idMax := by
    rw [h.metadata, length_map] at hfew
    exact hfew
  have hinv := hinv hlength
  have hmetadata : ring''.metadata = ring.metadata ++ [(x.id, x.address)] := by
    rw [hinv.metadata, h.metadata, map_append]
    rfl
  obtain ⟨hlower, hupper, hsizePos, hwithin, haddress⟩ :=
    hinv.consecutive.mem (mem_append_right live mem_cons_self)
  rw [hsize] at haddress
  refine ⟨⟨_, hinv⟩, hsize, hmetadata, ?_, ?_, ?_⟩
  · have hnodup := WellFormed.nodup_ids ⟨_, hinv⟩
    rw [hmetadata, map_append, nodup_append] at hnodup
    exact fun hmem => hnodup.2.2 _ hmem _ (by simp) rfl
  · have hmem : (x.id, x.address) ∈ ring''.metadata := by simp [hmetadata]
    obtain ⟨chunk, hchunk, -⟩ := WellFormed.accessBuf ⟨_, hinv⟩ hmem
    exact ⟨chunk, hchunk⟩
  · intro id address hmem
    rw [h.metadata] at hmem
    obtain ⟨y, hy, heq⟩ := mem_map.mp hmem
    cases heq
    obtain ⟨-, -, hysize, -, hyaddress⟩ := h.consecutive.mem hy
    obtain ⟨other, hother, -, hothersize⟩ := h.stored y hy
    have hdisjoint := h.disjoint hpos hend hy
    have hne : y.pos % ring.dataBufferSize ≠ x.pos % ring.dataBufferSize := by omega
    refine ⟨by rw [hyaddress, haddress]; exact hne, ?_⟩
    rw [ShmRing.accessBuf, ShmRing.accessBuf, hsize, hmemory, hyaddress, hother]
    exact ShmMemory.lookup_writeChunk h.nodup_memory hother hne (hothersize ▸ hchunk ▸ hdisjoint)

/-- An allocation that raises for want of space changes nothing. -/
lemma allocateBuf_eq_error (h : ring.WellFormed) {e : PyError}
    (herror : ring.allocateBuf size = (.error e, ring')) : ring' = ring ∨ e = .overflowError := by
  obtain ⟨live, h⟩ := h
  rcases allocateBuf_cases h size with ⟨e', he⟩ | ⟨ring'', he⟩ | ⟨ring'', x, chunk, he, -⟩ <;>
    rw [he] at herror <;> cases herror
  · exact Or.inl rfl
  · exact Or.inr rfl

/-- `free_buf` frees the first chunks, for which the check passes, and returns their ids. -/
lemma freeBuf_spec (h : ring.WellFormed) {out : Except PyError (List ℕ)}
    (hfree : ring.freeBuf isFree nbytes = (out, ring')) :
    ring'.WellFormed ∧ ring'.dataBufferSize = ring.dataBufferSize ∧ ring'.memory = ring.memory ∧
      ∃ freed, ring.metadata = freed ++ ring'.metadata ∧
        (∀ entry ∈ freed, ∃ chunk, ring.accessBuf entry.2 = some chunk ∧
          isFree entry.1 chunk = .ok true) ∧
        (∀ ids, out = .ok ids → ids = freed.map Prod.fst) ∧
        ∀ e, out = .error e → ∃ entry ∈ ring.metadata, ∃ chunk,
          ring.accessBuf entry.2 = some chunk ∧ isFree entry.1 chunk = .error e := by
  obtain ⟨live, h⟩ := h
  obtain ⟨freed, rest, hfrees⟩ := freeLoop_spec isFree nbytes ring.metadata.length 0 h
  -- the loop, with the ids it has freed
  have hmetadata : ring.metadata = freed.map (fun x => (x.id, x.address)) ++
      rest.map fun x => (x.id, x.address) := by
    rw [h.metadata, hfrees.split, map_append]
  have hfreed : ∀ entry ∈ freed.map (fun x => (x.id, x.address)), ∃ chunk,
      ring.accessBuf entry.2 = some chunk ∧ isFree entry.1 chunk = .ok true := by
    intro entry hentry
    obtain ⟨x, hx, rfl⟩ := mem_map.mp hentry
    exact hfrees.free x hx
  have hids : idRange ring.monotonicIdStart
      ((ring.monotonicIdStart + freed.length) % idMax) = (freed.map fun x => (x.id, x.address)).map Prod.fst := by
    have hlength : freed.length < idMax := by
      have hfew := h.few
      rw [hfrees.split, length_append] at hfew
      omega
    have hall := h.consecutive.ids h.idStart_lt
    rw [hfrees.split, map_append, length_append, range_add, map_append] at hall
    rw [idRange_eq h.idStart_lt hlength, map_map]
    exact (append_inj_left hall (by simp)).symm
  unfold freeBuf at hfree
  cases hloop : freeLoop isFree nbytes ring.metadata.length 0 ring with
  | mk result ring₁ =>
    rw [hloop] at hfrees hfree
    cases result with
    | error e =>
      cases hfree
      refine ⟨⟨rest, hfrees.inv⟩, hfrees.dataBufferSize, hfrees.memory, _, ?_, hfreed, ?_, ?_⟩
      · rw [hfrees.inv.metadata, hmetadata]
      · intro ids hids
        cases hids
      · intro e' he'
        obtain rfl := Except.error.inj he'
        obtain ⟨x, hx, chunk, hchunk, hraise⟩ := hfrees.error e rfl
        refine ⟨(x.id, x.address), ?_, chunk, hchunk, hraise⟩
        rw [h.metadata]
        exact mem_map.mpr ⟨x, hx, rfl⟩
    | ok _ =>
      have hout : idRange ring.monotonicIdStart ring₁.monotonicIdStart =
          (freed.map fun x => (x.id, x.address)).map Prod.fst := by
        rw [← hids, ← hfrees.idStart]
      dsimp only at hfree
      split at hfree <;> obtain ⟨rfl, rfl⟩ := Prod.mk.inj hfree
      · rename_i hle
        refine ⟨⟨_, hfrees.inv.normalize hle⟩, hfrees.dataBufferSize, hfrees.memory, _, ?_, hfreed,
          fun ids hids => (Except.ok.inj hids).symm.trans hout, fun e he => by cases he⟩
        rw [hmetadata, ← hfrees.inv.metadata]
      · refine ⟨⟨rest, hfrees.inv⟩, hfrees.dataBufferSize, hfrees.memory, _, ?_, hfreed,
          fun ids hids => (Except.ok.inj hids).symm.trans hout, fun e he => by cases he⟩
        rw [hmetadata, ← hfrees.inv.metadata]

end ShmRing

end VllmRuntime
