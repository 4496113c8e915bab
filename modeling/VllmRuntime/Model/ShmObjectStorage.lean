import VllmRuntime.Model.MultiModalCache

/-! # Objects in shared memory

`vllm/distributed/device_communicators/shm_object_storage.py` and the caches `ShmObjectStoreSenderCache`
and `ShmObjectStoreReceiverCache` of `vllm/multimodal/cache.py`: one writer stores objects in a ring
buffer in shared memory, and the readers are sent their addresses. -/

namespace VllmRuntime

variable {ω υ : Type}

/-! ## The ring buffer -/

/-- A chunk as its bytes in shared memory give it: the id and the size of the header, the count of
the readers and the object. -/
structure ShmChunk (ω : Type) where
  monotonicId : ℕ
  size : ℕ
  readerCount : ℕ
  object : Option ω
  deriving DecidableEq, Repr

/-- The shared memory: the chunks that are whole, by the index of their first byte. -/
abbrev ShmMemory (ω : Type) := OrderedDict ℕ (ShmChunk ω)

namespace ShmMemory

/-- Bytes are written: no chunk that has one of them is whole any more. -/
def overwrite (memory : ShmMemory ω) (idx length : ℕ) : ShmMemory ω :=
  memory.filter fun entry =>
    entry.1 ≠ idx ∧ (entry.1 + entry.2.size ≤ idx ∨ idx + length ≤ entry.1)

def writeChunk (memory : ShmMemory ω) (idx : ℕ) (chunk : ShmChunk ω) : ShmMemory ω :=
  memory.overwrite idx chunk.size ++ [(idx, chunk)]

/-- Changes bytes inside a chunk. -/
def modifyChunk (memory : ShmMemory ω) (idx : ℕ) (f : ShmChunk ω → ShmChunk ω) : ShmMemory ω :=
  memory.map fun entry => if entry.1 = idx then (entry.1, f entry.2) else entry

end ShmMemory

/-- The writer's side of `SingleWriterShmRingBuffer`, with the memory it shares. -/
structure ShmRing (ω : Type) where
  dataBufferSize : ℕ
  monotonicIdStart : ℕ := 0
  monotonicIdEnd : ℕ := 0
  dataBufferStart : ℕ := 0
  dataBufferEnd : ℕ := 0
  metadata : OrderedDict ℕ ℕ := []
  memory : ShmMemory ω := []
  deriving DecidableEq, Repr

namespace ShmRing

def idNBytes : ℕ := 4

/-- `ID_MAX`; ids and sizes are signed integers of four bytes. -/
def idMax : ℕ := 2 ^ 31

def mdSize : ℕ := 8

/-- `int2byte` of a natural number. -/
def fitsInt (n : ℕ) : Bool := n < idMax

/-- The start of a chunk of this size, which is moved to the beginning of the buffer if there is not
enough contiguous space. -/
def bufferEndReset (ring : ShmRing ω) (size : ℕ) : ℕ :=
  if ring.dataBufferSize < ring.dataBufferEnd % ring.dataBufferSize + size then
    (ring.dataBufferEnd / ring.dataBufferSize + 1) * ring.dataBufferSize
  else
    ring.dataBufferEnd

/-- `allocate_buf`: the address and the id of the new chunk, whose data is not written yet. -/
def allocateBuf (ring : ShmRing ω) (size : ℕ) : Except PyError (ℕ × ℕ) × ShmRing ω :=
  if size = 0 then
    (.error (.assertionError "Size must be greater than 0"), ring)
  else
    let size := size + mdSize
    let start := ring.bufferEndReset size
    if ring.dataBufferSize < start + size - ring.dataBufferStart then
      (.error (.memoryError
        "Not enough space in the data buffer, try calling free_buf() to free up space"), ring)
    else
      let bufIdx := start % ring.dataBufferSize
      if !fitsInt size then
        -- the id is written before the size overflows
        (.error .overflowError, { ring with
          dataBufferEnd := start
          memory := ring.memory.overwrite bufIdx idNBytes })
      else
        (.ok (start, ring.monotonicIdEnd), { ring with
          dataBufferEnd := start + size
          monotonicIdEnd := (ring.monotonicIdEnd + 1) % idMax
          metadata := dictSet ring.metadata (ring.monotonicIdEnd % idMax) start
          memory := ring.memory.writeChunk bufIdx
            { monotonicId := ring.monotonicIdEnd, size, readerCount := 0, object := none } })

/-- `access_buf`; `none` if no chunk starts there. -/
def accessBuf (ring : ShmRing ω) (address : ℕ) : Option (ShmChunk ω) :=
  ring.memory.lookup (address % ring.dataBufferSize)

/-- What a process gets that reads bytes that are not those of a chunk. -/
def notAChunk : PyError := .valueError "not a chunk"

/-- The body of the loop of `free_buf`, when the first chunk is free. -/
def freeFirst (ring : ShmRing ω) : ShmRing ω :=
  let metadata := dictPop ring.metadata ring.monotonicIdStart
  let monotonicIdStart := (ring.monotonicIdStart + 1) % idMax
  match metadata.lookup monotonicIdStart with
  | some next => { ring with
      metadata, monotonicIdStart
      dataBufferStart := ring.dataBufferStart +
        (((next : ℤ) - ring.dataBufferStart) % (ring.dataBufferSize : ℤ)).toNat }
  | none => { ring with metadata, monotonicIdStart, dataBufferStart := 0, dataBufferEnd := 0 }

/-- The loop of `free_buf`; each round deletes an entry of the metadata. -/
def freeLoop (isFree : ℕ → ShmChunk ω → Except PyError Bool) (nbytes : ℕ) :
    ℕ → ℕ → ShmRing ω → Except PyError Unit × ShmRing ω
  | 0, _, ring => (.ok (), ring)
  | rounds + 1, freedBytes, ring =>
    match ring.metadata.lookup ring.monotonicIdStart with
    | none => (.ok (), ring)
    | some address =>
      if nbytes ≤ freedBytes then (.ok (), ring)
      else match ring.accessBuf address with
        | none => (.error notAChunk, ring)
        | some chunk =>
          match isFree ring.monotonicIdStart chunk with
          | .error e => (.error e, ring)
          | .ok false => (.ok (), ring)
          | .ok true => freeLoop isFree nbytes rounds (freedBytes + chunk.size) ring.freeFirst

/-- The ids from one to another, around `ID_MAX`. -/
def idRange (before after : ℕ) : List ℕ :=
  if before ≤ after then List.range' before (after - before)
  else List.range' before (idMax - before) ++ List.range after

/-- `free_buf`: the ids that were freed. -/
def freeBuf (ring : ShmRing ω) (isFree : ℕ → ShmChunk ω → Except PyError Bool) (nbytes : ℕ) :
    Except PyError (List ℕ) × ShmRing ω :=
  match freeLoop isFree nbytes ring.metadata.length 0 ring with
  | (.error e, ring') => (.error e, ring')
  | (.ok (), ring') =>
    let freed := idRange ring.monotonicIdStart ring'.monotonicIdStart
    if ring'.dataBufferSize ≤ ring'.dataBufferStart then
      (.ok freed, { ring' with
        dataBufferStart := ring'.dataBufferStart - ring'.dataBufferSize
        dataBufferEnd := ring'.dataBufferEnd - ring'.dataBufferSize })
    else
      (.ok freed, ring')

end ShmRing

/-! ## The storage -/

/-- The writer's `SingleWriterShmObjectStorage`. -/
structure ShmStorage (ω : Type) where
  maxObjectSize : ℕ
  nReaders : ℕ
  ring : ShmRing ω
  keyIndex : OrderedDict String (ℕ × ℕ) := []
  idIndex : OrderedDict ℕ String := []
  writerFlag : OrderedDict ℕ ℕ := []
  deriving DecidableEq, Repr

namespace ShmStorage

def flagBytes : ℕ := 4

def isCached (s : ShmStorage ω) (key : String) : Bool := (s.keyIndex.lookup key).isSome

def incrementWriterFlag (s : ShmStorage ω) (id : ℕ) : ShmStorage ω :=
  { s with writerFlag := dictSet s.writerFlag id ((s.writerFlag.lookup id).getD 0 + 1) }

def defaultIsFreeCheck (s : ShmStorage ω) (id : ℕ) (chunk : ShmChunk ω) : Except PyError Bool :=
  match s.writerFlag.lookup id with
  | none => .error .keyError
  | some writerCount => .ok (writerCount * s.nReaders ≤ chunk.readerCount)

/-- The body of the loop of `free_unused`. -/
def forget (s : ShmStorage ω) (freedId : ℕ) : Except PyError (ShmStorage ω) :=
  match s.idIndex.lookup freedId with
  | none => .error .keyError
  | some key =>
    if (s.keyIndex.lookup key).isNone ∨ (s.writerFlag.lookup freedId).isNone then .error .keyError
    else .ok { s with
      keyIndex := dictPop s.keyIndex key
      idIndex := dictPop s.idIndex freedId
      writerFlag := dictPop s.writerFlag freedId }

def forgetAll (s : ShmStorage ω) : List ℕ → Except PyError Unit × ShmStorage ω
  | [] => (.ok (), s)
  | freedId :: freedIds =>
    match s.forget freedId with
    | .error e => (.error e, s)
    | .ok s => s.forgetAll freedIds

def freeUnused (s : ShmStorage ω) : Except PyError Unit × ShmStorage ω :=
  match s.ring.freeBuf s.defaultIsFreeCheck (2 * s.maxObjectSize) with
  | (.error e, ring) => (.error e, { s with ring })
  | (.ok freedIds, ring) => { s with ring }.forgetAll freedIds

/-- `get_cached`. -/
def getCached (s : ShmStorage ω) (key : String) : Except PyError (ℕ × ℕ) × ShmStorage ω :=
  match s.keyIndex.lookup key with
  | none => (.error .keyError, s)
  | some location => (.ok location, s.incrementWriterFlag location.2)

/-- The end of `put`: writes the data of a new chunk and enters it into the indices. -/
def enter (s : ShmStorage ω) (key : String) (value : ω) (location : ℕ × ℕ) : ShmStorage ω :=
  let s := { s with ring := { s.ring with
    memory := s.ring.memory.modifyChunk (location.1 % s.ring.dataBufferSize) fun chunk =>
      { chunk with readerCount := 0, object := some value } } }
  let s := s.incrementWriterFlag location.2
  { s with
    keyIndex := dictSet s.keyIndex key location
    idIndex := dictSet s.idIndex location.2 key }

/-- `put`; `serializedSize` is the number of bytes of the serialized object and its metadata. -/
def put (serializedSize : ω → ℕ) (s : ShmStorage ω) (key : String) (value : ω) :
    Except PyError (ℕ × ℕ) × ShmStorage ω :=
  if s.isCached key then
    (.error (.valueError s!"Key '{key}' already exists in the storage."), s)
  else
    let bufferSize := flagBytes + serializedSize value
    let maxObjectSize := s.maxObjectSize
    if maxObjectSize < bufferSize then
      (.error (.valueError (s!"Serialized object size ({bufferSize} bytes) exceeds " ++
        s!"max object size ({maxObjectSize} bytes)")), s)
    else
      match s.ring.allocateBuf bufferSize with
      | (.ok location, ring) => (.ok location, { s with ring }.enter key value location)
      | (.error (.memoryError _), ring) =>
        match { s with ring }.freeUnused with
        | (.error e, s) => (.error e, s)
        | (.ok (), s) =>
          match s.ring.allocateBuf bufferSize with
          | (.ok location, ring) => (.ok location, { s with ring }.enter key value location)
          | (.error e, ring) => (.error e, { s with ring })
      | (.error e, ring) => (.error e, { s with ring })

/-- `touch` of the writer. -/
def touch (s : ShmStorage ω) (key : String) : ShmStorage ω :=
  match s.keyIndex.lookup key with
  | none => s
  | some location => s.incrementWriterFlag location.2

/-- `increment_reader_flag` of the chunk at an address. -/
def incrementReaderFlag (ring : ShmRing ω) (address : ℕ) (chunk : ShmChunk ω) :
    Except PyError (ShmRing ω) :=
  if ShmRing.fitsInt (chunk.readerCount + 1) then
    .ok { ring with memory := ring.memory.modifyChunk (address % ring.dataBufferSize) fun chunk =>
      { chunk with readerCount := chunk.readerCount + 1 } }
  else
    .error .overflowError

/-- `touch` of a reader, which does not look at the id. -/
def readerTouch (nReaders : ℕ) (ring : ShmRing ω) (address : ℕ) : Except PyError (ShmRing ω) :=
  match ring.accessBuf address with
  | none => .error ShmRing.notAChunk
  | some chunk =>
    if nReaders ≤ chunk.readerCount then incrementReaderFlag ring address chunk else .ok ring

/-- `get` of a reader. -/
def readerGet (ring : ShmRing ω) (address monotonicId : ℕ) : Except PyError (ω × ShmRing ω) :=
  match ring.accessBuf address with
  | none => .error ShmRing.notAChunk
  | some chunk =>
    if chunk.monotonicId ≠ monotonicId then
      .error (.valueError
        s!"Data for address:id '{address}:{monotonicId}' has been modified or is invalid.")
    else match chunk.object with
      | none => .error ShmRing.notAChunk
      | some object => do
        let ring ← incrementReaderFlag ring address chunk
        return (object, ring)

end ShmStorage

/-! ## The sender cache -/

/-- `ShmObjectStoreSenderCache`; `υ` are the prompt updates and the modality of an item. -/
structure ShmSender (ω υ : Type) where
  storage : ShmStorage ω
  p0Cache : OrderedDict String υ := []
  deriving DecidableEq, Repr

/-- What is sent for an item: an address, or the item itself if it could not be stored. -/
inductive ShmItem (ω : Type) where
  | address (address monotonicId : ℕ)
  | item (item : ω)
  deriving DecidableEq, Repr

namespace ShmSender

def removeDanglingItems (s : ShmSender ω υ) : ShmSender ω υ :=
  { s with p0Cache := s.p0Cache.filter fun entry => s.storage.isCached entry.1 }

/-- `get_and_update_item`. -/
def getAndUpdateItem (serializedSize : ω → ℕ) (s : ShmSender ω υ) (mmItem : Option (ω × υ))
    (mmHash : String) : Except PyError (ShmItem ω × υ) × ShmSender ω υ :=
  if s.storage.isCached mmHash then
    match s.storage.getCached mmHash with
    | (.error e, storage) => (.error e, { s with storage })
    | (.ok (address, monotonicId), storage) =>
      match s.p0Cache.lookup mmHash with
      | none => (.error .keyError, { s with storage })
      | some updates => (.ok (.address address monotonicId, updates), { s with storage })
  else match mmItem with
    | none => (.error (expectedCachedItem mmHash), s)
    | some (item, updates) =>
      match s.storage.put serializedSize mmHash item with
      | (.ok (address, monotonicId), storage) =>
        let s := { s with storage }
        let s := if 2 * s.storage.keyIndex.length ≤ s.p0Cache.length then s.removeDanglingItems else s
        (.ok (.address address monotonicId, updates),
          { s with p0Cache := dictSet s.p0Cache mmHash updates })
      | (.error (.valueError _), storage) => (.ok (.item item, updates), { s with storage })
      | (.error (.memoryError _), storage) => (.ok (.item item, updates), { s with storage })
      | (.error e, storage) => (.error e, { s with storage })

end ShmSender

end VllmRuntime
