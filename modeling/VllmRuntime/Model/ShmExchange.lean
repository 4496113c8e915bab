import VllmRuntime.Model.ShmObjectStorage
import VllmRuntime.Shared.Runs

/-! # A writer and its readers

The steps of the API process, which merges the items of a request one after the other
(`_merge_mm_kwargs` with a `ShmObjectStoreSenderCache`), and of the workers, which take the features of
the requests in order (`get_and_update_features` with a `ShmObjectStoreReceiverCache`). Each call on the
storage is a step. -/

namespace VllmRuntime

variable {ω υ : Type}

/-- The item is sent as this address. -/
def ShmItem.isAt (address monotonicId : ℕ) : ShmItem ω → Bool
  | .address a id => a = address && id = monotonicId
  | .item _ => false

/-- A feature as it is sent. Two fields are there for the specification only: whether its chunk was
stored for this request, and the object of that chunk. -/
structure ShmFeature (ω : Type) where
  mmHash : String
  data : ShmItem ω
  fresh : Bool
  object : Option ω
  deriving DecidableEq, Repr

/-- What a reader does with a feature. -/
inductive ReaderOp (ω : Type) where
  | touch (feature : ShmFeature ω)
  | get (feature : ShmFeature ω)
  deriving DecidableEq, Repr

/-- `get_and_update_features`: touch all features, then get all. -/
def readerOps (features : List (ShmFeature ω)) : List (ReaderOp ω) :=
  features.map .touch ++ features.map .get

/-- A request that the writer is merging: the hashes that are still to be touched, and the items that
are still to be updated. `held` are the hashes that were touched while they were cached, and are still to
be updated; it is there for the specification only. -/
structure MergingRequest (ω υ : Type) where
  toTouch : List String
  toUpdate : List (String × Option (ω × υ))
  held : List String := []
  features : List (ShmFeature ω) := []
  deriving DecidableEq, Repr

structure ShmExchange (ω υ : Type) where
  sender : ShmSender ω υ
  merging : Option (MergingRequest ω υ) := none
  queues : List (List (ReaderOp ω))
  deriving DecidableEq, Repr

inductive ShmCall (ω υ : Type) where
  | request (items : List (String × ω × υ))
  | touch
  | update
  | send
  | read (reader : ℕ)

/-- A step cannot be taken now, or a call raises. -/
inductive ShmFailure where
  | notEnabled
  | raised (e : PyError)
  deriving DecidableEq, Repr

namespace ShmExchange

abbrev storage (s : ShmExchange ω υ) : ShmStorage ω := s.sender.storage

abbrev ring (s : ShmExchange ω υ) : ShmRing ω := s.sender.storage.ring

/-- Starts a request: the cached items are looked up, and only the others are processed. -/
def request (items : List (String × ω × υ)) (s : ShmExchange ω υ) : Except ShmFailure (ShmExchange ω υ) :=
  match s.merging with
  | some _ => .error .notEnabled
  | none => .ok { s with merging := some {
      toTouch := items.map (·.1)
      toUpdate := items.map fun item =>
        (item.1, if s.storage.isCached item.1 then none else some item.2) } }

/-- `touch_sender_cache_item` of the next hash. -/
def touch (s : ShmExchange ω υ) : Except ShmFailure (ShmExchange ω υ) :=
  match s.merging with
  | none => .error .notEnabled
  | some request =>
    match request.toTouch with
    | [] => .error .notEnabled
    | mmHash :: toTouch => .ok { s with
        sender := { s.sender with storage := s.storage.touch mmHash }
        merging := some { request with
          toTouch
          held := if s.storage.isCached mmHash then mmHash :: request.held else request.held } }

/-- The feature that is sent for an item. -/
def newFeature (request : MergingRequest ω υ) (ring : ShmRing ω) (wasCached : Bool) (mmHash : String) :
    ShmItem ω → ShmFeature ω
  | .item item => { mmHash, data := .item item, fresh := true, object := some item }
  | .address address monotonicId =>
    { mmHash
      data := .address address monotonicId
      fresh := !wasCached || request.features.any fun feature =>
        feature.data.isAt address monotonicId && feature.fresh
      object := (ring.accessBuf address).bind (·.object) }

/-- `get_and_update_item` of the next item. -/
def update (serializedSize : ω → ℕ) (s : ShmExchange ω υ) :
    Except ShmFailure (ShmExchange ω υ) :=
  match s.merging with
  | none => .error .notEnabled
  | some request =>
    match request.toTouch, request.toUpdate with
    | [], (mmHash, mmItem) :: toUpdate =>
      match s.sender.getAndUpdateItem serializedSize mmItem mmHash with
      | (.error e, _) => .error (.raised e)
      | (.ok (item, _), sender) => .ok { s with
          sender
          merging := some { request with
            toUpdate
            held := request.held.erase mmHash
            features := request.features ++ [newFeature request sender.storage.ring
              (s.storage.isCached mmHash) mmHash item] } }
    | _, _ => .error .notEnabled

/-- The request is complete and goes to all readers. -/
def send (s : ShmExchange ω υ) : Except ShmFailure (ShmExchange ω υ) :=
  match s.merging with
  | none => .error .notEnabled
  | some request =>
    if request.toTouch.isEmpty ∧ request.toUpdate.isEmpty then
      .ok { s with
        merging := none
        queues := s.queues.map (· ++ readerOps request.features) }
    else
      .error .notEnabled

/-- What a reader's step does to the memory; a `get` also returns an object. -/
def readOp (nReaders : ℕ) (ring : ShmRing ω) : ReaderOp ω → Except PyError (Option ω × ShmRing ω)
  | .touch feature =>
    match feature.data with
    | .item _ => .ok (none, ring)
    | .address address _ => do
      let ring ← ShmStorage.readerTouch nReaders ring address
      return (none, ring)
  | .get feature =>
    match feature.data with
    | .item item => .ok (some item, ring)
    | .address address monotonicId => do
      let (object, ring) ← ShmStorage.readerGet ring address monotonicId
      return (some object, ring)

/-- The next step of a reader. -/
def read (reader : ℕ) (s : ShmExchange ω υ) : Except ShmFailure (ShmExchange ω υ) :=
  match s.queues[reader]? with
  | some (op :: ops) =>
    match readOp s.storage.nReaders s.ring op with
    | .error e => .error (.raised e)
    | .ok (_, ring) => .ok { s with
        sender := { s.sender with storage := { s.storage with ring } }
        queues := s.queues.set reader ops }
  | _ => .error .notEnabled

def run (serializedSize : ω → ℕ) :
    ShmCall ω υ → ShmExchange ω υ → Except ShmFailure (ShmExchange ω υ)
  | .request items => request items
  | .touch => touch
  | .update => update serializedSize
  | .send => send
  | .read reader => read reader

end ShmExchange

end VllmRuntime
