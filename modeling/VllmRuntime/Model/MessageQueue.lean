import VllmRuntime.Model.Base
import VllmRuntime.Shared.Runs

/-! # Broadcast through shared memory

`vllm/distributed/device_communicators/shm_broadcast.py`: a `MessageQueue` with one writer and its readers.
Each access to a flag or to the data of a chunk is a step; the sockets are FIFO broadcasts. -/

namespace VllmRuntime

open Function

variable {ω : Type}

/-! ## Messages -/

/-- The last bytes of a number, the most significant byte first. -/
def bytesBig : ℕ → ℕ → Bytes
  | 0, _ => []
  | size + 1, value => bytesBig size (value / 256) ++ [UInt8.ofNat value]

/-- `to_bytes_big`. -/
def toBytesBig (value size : ℕ) : Except PyError Bytes :=
  if value < 256 ^ size then .ok (bytesBig size value) else .error .overflowError

/-- `from_bytes_big`. -/
def fromBytesBig (bytes : Bytes) : ℕ :=
  bytes.foldl (fun value byte => value * 256 + byte.toNat) 0

/-- The module `pickle`: `dumps` with a `buffer_callback`, which returns the pickle and the buffers for
which the callback is false, and `loads` with these buffers. The object that `loads` returns does not copy
the buffers (protocol 5): `loads` says what it is as long as they have these bytes. -/
structure Pickle (ω : Type) where
  dumps : (Bytes → Bool) → ω → Bytes × List Bytes
  loads : Bytes → List Bytes → Except PyError ω

/-- What is loaded is what was dumped. -/
def Pickle.RoundTrips (pickle : Pickle ω) : Prop :=
  ∀ callback object,
    pickle.loads (pickle.dumps callback object).1 (pickle.dumps callback object).2 = .ok object

/-- `loads` of all buffers, the pickle first. -/
def Pickle.loadAll (pickle : Pickle ω) : List Bytes → Except PyError ω
  | [] => .error .indexError
  | main :: oob => pickle.loads main oob

/-- `buf[start:stop]`. -/
def readSlice (buf : Bytes) (start stop : ℕ) : Bytes := (buf.take stop).drop start

/-- A buffer of a message: a slice of a chunk, which is not copied, or a frame of the socket. -/
inductive QueueBuffer where
  | slice (idx start stop : ℕ)
  | frame (bytes : Bytes)

/-- The bytes of a buffer now. -/
def QueueBuffer.bytes (data : ℕ → Bytes) : QueueBuffer → Bytes
  | .slice idx start stop => readSlice (data idx) start stop
  | .frame bytes => bytes

/-- An object that `loads` has returned: the buffers, and the bytes of the pickle, which are copied. -/
structure QueueObject where
  main : Bytes
  oob : List QueueBuffer

/-- What an object is when it is used. -/
def QueueObject.value (pickle : Pickle ω) (data : ℕ → Bytes) (object : QueueObject) : Except PyError ω :=
  pickle.loads object.main (object.oob.map (·.bytes data))

/-- `loads` of buffers: the object, and what it is at this time. -/
def Pickle.load (pickle : Pickle ω) (data : ℕ → Bytes) : List QueueBuffer → Except PyError (ω × QueueObject)
  | [] => .error .indexError
  | main :: oob =>
    let object : QueueObject := { main := main.bytes data, oob }
    (object.value pickle data).map (·, object)

structure QueueConfig where
  nReader : ℕ
  maxChunkBytes : ℕ
  maxChunks : ℕ
  deriving DecidableEq, Repr

/-- Buffers smaller than 1 MiB are in-lined. -/
def oobCallback (rawBuf : Bytes) : Bool := rawBuf.length < 1024 * 1024

/-- An object with its buffers; a message that is too large for a chunk goes over the socket. -/
structure QueueMessage (ω : Type) where
  object : ω
  allBuffers : List Bytes
  overflow : Bool
  deriving DecidableEq, Repr

/-- Two bytes for the count of the buffers, four for the size of the main buffer, and each other buffer
with its size. -/
def totalBytes (oob : List Bytes) : ℕ := 6 + (oob.map fun rawBuf => rawBuf.length + 4).sum

/-- The beginning of `enqueue`. -/
def QueueConfig.message (config : QueueConfig) (pickle : Pickle ω) (object : ω) : QueueMessage ω :=
  let (main, oob) := pickle.dumps oobCallback object
  { object
    allBuffers := main :: oob
    overflow := config.maxChunkBytes ≤ totalBytes oob + main.length }

/-- An assignment to a slice of a chunk: its start and the bytes. The right side may raise. -/
abbrev ChunkWrite := Except PyError (ℕ × Bytes)

/-- Each buffer follows, preceded by its length. -/
def bufferWrites : ℕ → List Bytes → List ChunkWrite
  | _, [] => []
  | offset, buffer :: buffers =>
    (toBytesBig buffer.length 4).map (offset, ·) :: .ok (offset + 4, buffer) ::
      bufferWrites (offset + 4 + buffer.length) buffers

/-- What `enqueue` writes to the chunk. -/
def QueueMessage.writes (message : QueueMessage ω) : List ChunkWrite :=
  if message.overflow then [.ok (0, [1])]
  else .ok (0, [0]) :: (toBytesBig message.allBuffers.length 2).map (1, ·) ::
    bufferWrites 3 message.allBuffers

/-- `buf[offset : offset + len(bytes)] = bytes`, which must be of the same length. -/
def writeSlice (buf : Bytes) (offset : ℕ) (bytes : Bytes) : Except PyError Bytes :=
  if (readSlice buf offset (offset + bytes.length)).length = bytes.length then
    .ok (buf.take offset ++ bytes ++ buf.drop (offset + bytes.length))
  else
    .error (.valueError "memoryview assignment: lvalue and rvalue have different structures")

/-! ## The parties -/

/-- Where the writer stands in `enqueue` and `acquire_write`. -/
inductive WriterPhase (ω : Type) where
  | idle
  /-- sums the flags of the readers; then tests the written flag -/
  | counting (message : QueueMessage ω) (i readCount : ℕ)
  | waiting (message : QueueMessage ω)
  /-- marks the chunk as not written -/
  | acquired (message : QueueMessage ω)
  | writing (message : QueueMessage ω) (writes : List ChunkWrite)
  /-- sets the flags of the readers to 0; then marks the chunk as written -/
  | resetting (message : QueueMessage ω) (i : ℕ)
  | sending (message : QueueMessage ω)

/-- Where a reader stands in `dequeue` and `acquire_read`. -/
inductive ReaderPhase (ω : Type) where
  | idle
  | checking
  /-- has read its own flag, and tests the written flag -/
  | checked (readFlag : Bool)
  | waiting
  | overflowByte
  | bufCount
  /-- has taken slices of the chunk, from their starts to their ends -/
  | bufLen (remaining offset : ℕ) (allBuffers : List (ℕ × ℕ))
  | parsed (allBuffers : List (ℕ × ℕ))
  /-- sets its flag; without an object, the message comes over the socket -/
  | done (object : Option ω)
  | receiving
  /-- `recv` raised `TimeoutError` -/
  | timedOut

structure QueueReader (ω : Type) where
  currentIdx : ℕ := 0
  phase : ReaderPhase ω := .idle
  localSocket : List (List Bytes) := []
  dequeued : List ω := []
  /-- the objects that the program has not dropped, with their numbers -/
  held : List (ℕ × QueueObject) := []

/-- The writer, the shared memory and the readers. `enqueued` are the objects of the calls of `enqueue`
that have returned. -/
structure MessageQueue (ω : Type) where
  currentIdx : ℕ := 0
  phase : WriterPhase ω := .idle
  written : ℕ → Bool := fun _ => false
  read : ℕ → ℕ → Bool := fun _ _ => false
  data : ℕ → Bytes
  readers : ℕ → QueueReader ω := fun _ => {}
  enqueued : List ω := []

inductive QueueCall (ω : Type) where
  | enqueue (object : ω)
  | write
  | writeTimeout
  | dequeue (reader : ℕ)
  | read (reader : ℕ)
  | readTimeout (reader : ℕ)
  | release (reader i : ℕ)

namespace MessageQueue

variable (config : QueueConfig) (pickle : Pickle ω)

def enqueue (object : ω) (s : MessageQueue ω) : Except Unit (MessageQueue ω) :=
  match s.phase with
  | .idle =>
    if config.nReader = 0 then .ok { s with enqueued := s.enqueued ++ [object] }
    else .ok { s with phase := .counting (config.message pickle object) 0 0 }
  | _ => .error ()

/-- The written flag is set, and the writer goes on to the next chunk. -/
def publish (message : QueueMessage ω) (s : MessageQueue ω) : MessageQueue ω :=
  let s := { s with
    written := update s.written s.currentIdx true
    currentIdx := (s.currentIdx + 1) % config.maxChunks }
  if message.overflow then { s with phase := .sending message }
  else { s with phase := .idle, enqueued := s.enqueued ++ [message.object] }

/-- The next step of the writer. If an assignment raises, the chunk stays as not written. -/
def write (s : MessageQueue ω) : Except Unit (MessageQueue ω) :=
  match s.phase with
  | .idle => .error ()
  | .counting message i readCount =>
    if i < config.nReader then
      .ok { s with phase := .counting message (i + 1) (readCount + (s.read s.currentIdx i).toNat) }
    else if s.written s.currentIdx ∧ readCount ≠ config.nReader then
      .ok { s with phase := .waiting message }
    else
      .ok { s with phase := .acquired message }
  | .waiting message => .ok { s with phase := .counting message 0 0 }
  | .acquired message => .ok { s with
      written := update s.written s.currentIdx false
      phase := .writing message message.writes }
  | .writing message [] => .ok { s with phase := .resetting message 0 }
  | .writing _ (.error _ :: _) => .ok { s with phase := .idle }
  | .writing message (.ok (offset, bytes) :: writes) =>
    match writeSlice (s.data s.currentIdx) offset bytes with
    | .error _ => .ok { s with phase := .idle }
    | .ok buf => .ok { s with
        data := update s.data s.currentIdx buf
        phase := .writing message writes }
  | .resetting message i =>
    if i < config.nReader then
      .ok { s with
        read := update s.read s.currentIdx (update (s.read s.currentIdx) i false)
        phase := .resetting message (i + 1) }
    else
      .ok (s.publish config message)
  | .sending message => .ok { s with
      readers := fun r => { s.readers r with
        localSocket := (s.readers r).localSocket ++ [message.allBuffers] }
      enqueued := s.enqueued ++ [message.object]
      phase := .idle }

def writeTimeout (s : MessageQueue ω) : Except Unit (MessageQueue ω) :=
  match s.phase with
  | .waiting _ => .ok { s with phase := .idle }
  | _ => .error ()

def setReader (s : MessageQueue ω) (r : ℕ) (reader : QueueReader ω) : MessageQueue ω :=
  { s with readers := update s.readers r reader }

def setPhase (s : MessageQueue ω) (r : ℕ) (phase : ReaderPhase ω) : MessageQueue ω :=
  s.setReader r { s.readers r with phase }

def dequeue (r : ℕ) (s : MessageQueue ω) : Except Unit (MessageQueue ω) :=
  match (s.readers r).phase with
  | .idle => .ok (s.setPhase r .checking)
  | _ => .error ()

/-- The reader's flag is set, and the reader goes on to the next chunk. -/
def finishRead (object : Option ω) (r : ℕ) (s : MessageQueue ω) : MessageQueue ω :=
  let reader := s.readers r
  let s := { s with
    read := update s.read reader.currentIdx
      (update (s.read reader.currentIdx) r true) }
  let reader := { reader with currentIdx := (reader.currentIdx + 1) % config.maxChunks }
  match object with
  | none => s.setReader r { reader with phase := .receiving }
  | some object =>
    s.setReader r { reader with phase := .idle, dequeued := reader.dequeued ++ [object] }

/-- The next step of a reader. A call that raises leaves the chunk as not read. -/
def readNext (r : ℕ) (s : MessageQueue ω) : Except Unit (MessageQueue ω) :=
  let reader := s.readers r
  let buf := s.data reader.currentIdx
  match reader.phase with
  | .idle => .error ()
  | .checking => .ok (s.setPhase r (.checked (s.read reader.currentIdx r)))
  | .checked readFlag =>
    if !s.written reader.currentIdx || readFlag then .ok (s.setPhase r .waiting)
    else .ok (s.setPhase r .overflowByte)
  | .waiting => .ok (s.setPhase r .checking)
  | .overflowByte =>
    match buf[0]? with
    | none => .ok (s.setPhase r .idle)
    | some byte => .ok (s.setPhase r (if byte = 1 then .done none else .bufCount))
  | .bufCount => .ok (s.setPhase r (.bufLen (fromBytesBig (readSlice buf 1 3)) 3 []))
  | .bufLen 0 _ allBuffers => .ok (s.setPhase r (.parsed allBuffers))
  | .bufLen (remaining + 1) offset allBuffers =>
    let stop := offset + 4 + fromBytesBig (readSlice buf offset (offset + 4))
    .ok (s.setPhase r (.bufLen remaining stop (allBuffers ++ [(offset + 4, stop)])))
  | .parsed allBuffers =>
    match pickle.load s.data (allBuffers.map fun slice => .slice reader.currentIdx slice.1 slice.2) with
    | .error _ => .ok (s.setPhase r .idle)
    | .ok (value, object) => .ok (s.setReader r { reader with
        phase := .done (some value), held := reader.held ++ [(reader.dequeued.length, object)] })
  | .done object => .ok (s.finishRead config object r)
  | .receiving =>
    match reader.localSocket with
    | [] => .error ()
    | frames :: localSocket =>
      match pickle.load s.data (frames.map .frame) with
      | .error _ => .ok (s.setReader r { reader with localSocket, phase := .idle })
      | .ok (value, object) => .ok (s.setReader r { reader with
          localSocket
          phase := .idle
          dequeued := reader.dequeued ++ [value]
          held := reader.held ++ [(reader.dequeued.length, object)] })
  | .timedOut => .error ()

/-- `acquire_read` raises `TimeoutError` or is cancelled, or `recv` raises `TimeoutError`. -/
def readTimeout (r : ℕ) (s : MessageQueue ω) : Except Unit (MessageQueue ω) :=
  match (s.readers r).phase with
  | .waiting => .ok (s.setPhase r .idle)
  | .receiving => .ok (s.setPhase r .timedOut)
  | _ => .error ()

/-- The program drops an object. -/
def release (i r : ℕ) (s : MessageQueue ω) : Except Unit (MessageQueue ω) :=
  .ok (s.setReader r { s.readers r with held := (s.readers r).held.eraseIdx i })

/-- A step of one of the readers. -/
def asReader (r : ℕ) (step : ℕ → MessageQueue ω → Except Unit (MessageQueue ω)) (s : MessageQueue ω) :
    Except Unit (MessageQueue ω) :=
  if r < config.nReader then step r s else .error ()

def run : QueueCall ω → MessageQueue ω → Except Unit (MessageQueue ω)
  | .enqueue object => enqueue config pickle object
  | .write => write config
  | .writeTimeout => writeTimeout
  | .dequeue r => asReader config r dequeue
  | .read r => asReader config r (readNext config pickle)
  | .readTimeout r => asReader config r readTimeout
  | .release r i => asReader config r (release i)

/-- A new buffer, of any content; the flags are 0. -/
def initial (data : ℕ → Bytes) : MessageQueue ω := { data }

end MessageQueue

/-! ## Remote readers and further calls -/

/-- A remote reader. It has no part in the ring. -/
structure RemoteReader (ω : Type) where
  /-- The reader polls the socket in `recv`. -/
  receiving : Bool := false
  remoteSocket : List (List Bytes) := []
  dequeued : List ω := []

/-- The ring with the remote readers. At its end, `enqueue` sends the message to the remote readers; `numSent`
counts the objects for which it has done so. -/
structure BroadcastQueue (ω : Type) where
  ring : MessageQueue ω
  remotes : ℕ → RemoteReader ω := fun _ => {}
  numSent : ℕ := 0

inductive BroadcastCall (ω : Type) where
  | ring (call : QueueCall ω)
  /-- the end of `enqueue` -/
  | sendRemote
  | resume (reader : ℕ)
  | dequeueRemote (reader : ℕ)
  | receiveRemote (reader : ℕ)
  | timeoutRemote (reader : ℕ)

/-- After a `TimeoutError` of `recv`, the reader can be called again. -/
def MessageQueue.resume (r : ℕ) (s : MessageQueue ω) : Except Unit (MessageQueue ω) :=
  match (s.readers r).phase with
  | .timedOut => .ok (s.setPhase r .idle)
  | _ => .error ()

namespace BroadcastQueue

variable (config : QueueConfig) (nRemoteReader : ℕ) (pickle : Pickle ω)

/-- A step of the ring. The writer finishes a call of `enqueue` before the next one. -/
def runRing (call : QueueCall ω) (s : BroadcastQueue ω) : Except Unit (BroadcastQueue ω) :=
  match call with
  | .enqueue object =>
    if s.numSent = s.ring.enqueued.length then do
      let ring ← s.ring.enqueue config pickle object
      return { s with ring }
    else
      .error ()
  | call => do
    let ring ← s.ring.run config pickle call
    return { s with ring }

/-- Sends the buffers of the object that was enqueued last. -/
def sendRemote (s : BroadcastQueue ω) : Except Unit (BroadcastQueue ω) :=
  match s.ring.enqueued[s.numSent]? with
  | none => .error ()
  | some object => .ok { s with
      remotes := fun r => { s.remotes r with
        remoteSocket := (s.remotes r).remoteSocket ++ [(config.message pickle object).allBuffers] }
      numSent := s.numSent + 1 }

def resume (r : ℕ) (s : BroadcastQueue ω) : Except Unit (BroadcastQueue ω) := do
  let ring ← MessageQueue.asReader config r MessageQueue.resume s.ring
  return { s with ring }

def setRemote (s : BroadcastQueue ω) (r : ℕ) (remote : RemoteReader ω) : BroadcastQueue ω :=
  { s with remotes := update s.remotes r remote }

/-- The reader begins to poll the socket, or gives up. -/
def poll (receiving : Bool) (r : ℕ) (s : BroadcastQueue ω) : Except Unit (BroadcastQueue ω) :=
  .ok (s.setRemote r { s.remotes r with receiving })

def receiveRemote (r : ℕ) (s : BroadcastQueue ω) : Except Unit (BroadcastQueue ω) :=
  match (s.remotes r).remoteSocket with
  | [] => .error ()
  | frames :: remoteSocket =>
    match pickle.loadAll frames with
    | .error _ => .ok (s.setRemote r { s.remotes r with remoteSocket, receiving := false })
    | .ok object => .ok (s.setRemote r
        { receiving := false, remoteSocket, dequeued := (s.remotes r).dequeued ++ [object] })

/-- A step of a remote reader that polls the socket, or does not. -/
def asRemote (r : ℕ) (receiving : Bool) (step : BroadcastQueue ω → Except Unit (BroadcastQueue ω))
    (s : BroadcastQueue ω) : Except Unit (BroadcastQueue ω) :=
  if r < nRemoteReader ∧ (s.remotes r).receiving = receiving then step s else .error ()

def run : BroadcastCall ω → BroadcastQueue ω → Except Unit (BroadcastQueue ω)
  | .ring call => runRing config pickle call
  | .sendRemote => sendRemote config pickle
  | .resume r => resume config r
  | .dequeueRemote r => asRemote nRemoteReader r false (poll true r)
  | .receiveRemote r => asRemote nRemoteReader r true (receiveRemote pickle r)
  | .timeoutRemote r => asRemote nRemoteReader r true (poll false r)

def initial (data : ℕ → Bytes) : BroadcastQueue ω := { ring := .initial data }

end BroadcastQueue

end VllmRuntime
