import VllmRuntime.Model.ShmExchange
import VllmRuntime.Verification.Shm.Storage

/-! # Balance of the counts

The writer counts what it hands out, the readers count what they read. As long as a reader skips the
touch of a chunk just in the request that stored it, the two totals balance: what a chunk's count of the
readers lacks is what the readers still have to do. -/

namespace VllmRuntime

open List

variable {ω υ : Type}

/-! ## What is still to be counted -/

/-- What a reader's step adds to the count of a chunk when it skips the touches of a fresh chunk. -/
def opWeight (location : ℕ × ℕ) : ReaderOp ω → ℕ
  | .touch feature => if feature.data.isAt location.1 location.2 ∧ feature.fresh = false then 1 else 0
  | .get feature => if feature.data.isAt location.1 location.2 then 1 else 0

def pending (location : ℕ × ℕ) (ops : List (ReaderOp ω)) : ℕ := (ops.map (opWeight location)).sum

/-- What the writer counts for a feature. -/
def featureWeight (location : ℕ × ℕ) (feature : ShmFeature ω) : ℕ :=
  if feature.data.isAt location.1 location.2 then if feature.fresh then 1 else 2 else 0

variable {location : ℕ × ℕ} {address id : ℕ} {features : List (ShmFeature ω)} {op : ReaderOp ω}
  {ops : List (ReaderOp ω)}

lemma isAt_iff {data : ShmItem ω} : data.isAt address id = true ↔ data = .address address id := by
  cases data with
  | item item => simp [ShmItem.isAt]
  | address a i => simp [ShmItem.isAt]

lemma featureWeight_pos {feature : ShmFeature ω} (hat : feature.data.isAt address id = true) :
    0 < featureWeight (address, id) feature := by
  rw [featureWeight, if_pos hat]
  split <;> omega

lemma featureWeight_eq_zero {feature : ShmFeature ω} (hat : feature.data.isAt address id = false) :
    featureWeight (address, id) feature = 0 := by
  rw [featureWeight, if_neg (by simp [hat])]

lemma pending_readerOps : pending location (readerOps features) =
    (features.map (featureWeight location)).sum := by
  rw [pending, readerOps, map_append, sum_append, map_map, map_map,
    ← sum_map_add]
  congr 1
  refine map_congr_left fun feature _ => ?_
  cases hat : feature.data.isAt location.1 location.2 <;> cases hfresh : feature.fresh <;>
    simp [opWeight, featureWeight, hat, hfresh]

lemma pending_append (ops ops' : List (ReaderOp ω)) :
    pending location (ops ++ ops') = pending location ops + pending location ops' := by
  simp [pending]

/-- The feature of a step. -/
def ReaderOp.feature : ReaderOp ω → ShmFeature ω
  | .touch feature => feature
  | .get feature => feature

lemma sum_pending_append (queues : List (List (ReaderOp ω))) (ops : List (ReaderOp ω)) :
    ((queues.map (· ++ ops)).map (pending location)).sum =
      (queues.map (pending location)).sum + queues.length * pending location ops := by
  induction queues with
  | nil => simp
  | cons queue queues ih =>
    simp only [map_cons, sum_cons, length_cons, ih, pending_append, Nat.succ_mul]
    omega

lemma feature_mem_of_readerOps (h : op ∈ readerOps features) :
    op.feature ∈ features := by
  rcases mem_append.mp h with hop | hop
  · obtain ⟨feature, hfeature, rfl⟩ := mem_map.mp hop
    exact hfeature
  · obtain ⟨feature, hfeature, rfl⟩ := mem_map.mp hop
    exact hfeature

lemma opWeight_eq_zero (hat : op.feature.data.isAt location.1 location.2 = false) :
    opWeight location op = 0 := by
  cases op with
  | touch feature | get feature =>
    have hat' : feature.data.isAt location.1 location.2 = false := hat
    simp [opWeight, hat']

lemma pending_eq_zero (h : ∀ op ∈ ops, op.feature.data.isAt location.1 location.2 = false) :
    pending location ops = 0 := by
  refine sum_eq_zero fun n hn => ?_
  obtain ⟨op, hop, rfl⟩ := mem_map.mp hn
  exact opWeight_eq_zero (h op hop)

/-- A reader takes the first of its steps. -/
lemma sum_pending_set {queues : List (List (ReaderOp ω))} {reader : ℕ}
    (h : queues[reader]? = some (op :: ops)) :
    ((queues.set reader ops).map (pending location)).sum + opWeight location op =
      (queues.map (pending location)).sum := by
  induction queues generalizing reader with
  | nil => cases h
  | cons queue queues ih =>
    cases reader with
    | zero =>
      obtain rfl : queue = op :: ops := by simpa using h
      simp [pending]
      omega
    | succ reader =>
      have hrest := ih (by simpa using h)
      simp only [set_cons_succ, map_cons, sum_cons]
      omega

/-- Every touch is followed by the read of its feature. -/
def Matched : List (ReaderOp ω) → Prop
  | [] => True
  | .touch feature :: ops => .get feature ∈ ops ∧ Matched ops
  | .get _ :: ops => Matched ops

lemma Matched.tail (h : Matched (op :: ops)) :
    Matched ops := by
  cases op with
  | touch feature => exact h.2
  | get feature => exact h

lemma Matched.append {ops' : List (ReaderOp ω)} (h : Matched ops) (h' : Matched ops') :
    Matched (ops ++ ops') := by
  induction ops with
  | nil => exact h'
  | cons op ops ih =>
    cases op with
    | touch feature => exact ⟨mem_append_left _ h.1, ih h.2⟩
    | get feature => exact ih h

lemma matched_readerOps : Matched (readerOps features) := by
  have hgets : Matched (features.map ReaderOp.get) := by
    induction features with
    | nil => trivial
    | cons feature features ih => exact ih
  have htouches : ∀ rest : List (ShmFeature ω), (∀ feature ∈ rest, feature ∈ features) →
      Matched (rest.map ReaderOp.touch ++ features.map ReaderOp.get) := by
    intro rest hrest
    induction rest with
    | nil => exact hgets
    | cons feature rest ih =>
      rw [forall_mem_cons] at hrest
      exact ⟨mem_append_right _ (mem_map_of_mem hrest.1), ih hrest.2⟩
  exact htouches features fun _ h => h

/-- A chunk that a reader has not yet read is still to be counted. -/
lemma Matched.pending_pos (h : Matched ops) (hop : op ∈ ops)
    (hat : op.feature.data.isAt location.1 location.2 = true) :
    0 < pending location ops := by
  have hget : ReaderOp.get op.feature ∈ ops := by
    induction ops with
    | nil => exact absurd hop not_mem_nil
    | cons head ops ih =>
      rcases mem_cons.mp hop with rfl | hop
      · cases op with
        | touch feature => exact mem_cons_of_mem _ h.1
        | get feature => exact mem_cons_self
      · exact mem_cons_of_mem _ (ih h.tail hop)
  have hone : opWeight location (.get op.feature) = 1 := if_pos hat
  calc 0 < opWeight location (.get op.feature) := by rw [hone]; exact Nat.one_pos
    _ ≤ pending location ops :=
        single_le_sum (fun _ _ => Nat.zero_le _) _ (mem_map_of_mem hget)

/-! ## The invariant -/

/-- The chunk of a feature is stored, with the object of the feature. -/
def Holds (ring : ShmRing ω) (feature : ShmFeature ω) : Prop :=
  ∀ address id, feature.data = .address address id → (id, address) ∈ ring.metadata ∧
    ∃ chunk object, ring.accessBuf address = some chunk ∧ chunk.object = some object ∧
      feature.object = some object

/-- The chunks of the features that are still to be read are stored. -/
lemma Holds.shrinks {storage storage' : ShmStorage ω} {feature : ShmFeature ω}
    (h : Holds storage.ring feature) (hshrinks : storage.Shrinks storage')
    (hsurvives : ∀ address id, feature.data.isAt address id = true →
      (id, address) ∈ storage.ring.metadata → (id, address) ∈ storage'.ring.metadata) :
    Holds storage'.ring feature := by
  intro address id hdata
  obtain ⟨hmem, chunk, object, hchunk, hobject⟩ := h address id hdata
  exact ⟨hsurvives address id (isAt_iff.mpr hdata) hmem, chunk, object,
    (hshrinks.accessBuf address).trans hchunk, hobject⟩

/-- Some feature of the request says that its chunk at this location is fresh. -/
def MergingRequest.stores (request : MergingRequest ω υ) (address id : ℕ) : Bool :=
  request.features.any fun feature => feature.data.isAt address id && feature.fresh

/-- The hashes that are held are those that are still to be updated, if their chunk is older than the
request. -/
structure MergingRequest.Inv (request : MergingRequest ω υ) (storage : ShmStorage ω) : Prop where
  touchFirst : request.toTouch ≠ [] → request.features = []
  missing : ∀ key, storage.isCached key = false → request.held.count key = 0
  held : ∀ key address id, storage.keyIndex.lookup key = some (address, id) →
    request.held.count key + request.toTouch.count key =
      if request.stores address id then 0 else (request.toUpdate.map Prod.fst).count key
  known : ∀ key, (key, none) ∈ request.toUpdate → storage.isCached key = true
  features : ∀ feature ∈ request.features, Holds storage.ring feature

namespace ShmExchange

/-- What the writer has counted in the request that it is merging. -/
def owed (s : ShmExchange ω υ) (location : ℕ × ℕ) (key : String) : ℕ :=
  match s.merging with
  | none => 0
  | some request => (request.features.map (featureWeight location)).sum + request.held.count key

/-- The totals balance: the count of the readers, what they still have to count, and what they will
have to count for the request that is being merged. -/
structure Inv (s : ShmExchange ω υ) : Prop where
  storage : s.storage.Inv
  readers : s.queues.length = s.storage.nReaders
  readers_pos : 0 < s.storage.nReaders
  p0Cache : ∀ key, s.storage.isCached key = true → (s.sender.p0Cache.lookup key).isSome = true
  objects : ∀ id address chunk, (id, address) ∈ s.ring.metadata → s.ring.accessBuf address = some chunk →
    chunk.object.isSome = true
  balance : ∀ id address chunk flag key, (id, address) ∈ s.ring.metadata →
    s.ring.accessBuf address = some chunk → s.storage.writerFlag.lookup id = some flag →
    s.storage.idIndex.lookup id = some key →
      chunk.readerCount + (s.queues.map (pending (address, id))).sum +
        s.storage.nReaders * s.owed (address, id) key = s.storage.nReaders * flag
  matched : ∀ queue ∈ s.queues, Matched queue
  holds : ∀ queue ∈ s.queues, ∀ op ∈ queue, Holds s.ring op.feature
  merging : ∀ request, s.merging = some request → request.Inv s.storage

variable {s : ShmExchange ω υ} {key : String} {storage' : ShmStorage ω} {request : MergingRequest ω υ}

/-- Nothing is left to do with a chunk whose count of the readers is complete. -/
lemma Inv.nothing_pending (h : s.Inv) {chunk : ShmChunk ω} {flag : ℕ}
    (hmem : (id, address) ∈ s.ring.metadata) (hchunk : s.ring.accessBuf address = some chunk)
    (hflag : s.storage.writerFlag.lookup id = some flag) (hkey : s.storage.idIndex.lookup id = some key)
    (hfree : flag * s.storage.nReaders ≤ chunk.readerCount) :
    (∀ queue ∈ s.queues, ∀ op ∈ queue, op.feature.data.isAt address id = false) ∧
      s.owed (address, id) key = 0 := by
  have hbalance := h.balance id address chunk flag key hmem hchunk hflag hkey
  rw [Nat.mul_comm flag] at hfree
  have howed : s.storage.nReaders * s.owed (address, id) key = 0 := by omega
  have hpending : (s.queues.map (pending (address, id))).sum = 0 := by omega
  refine ⟨fun queue hqueue op hop => ?_, ?_⟩
  · by_contra hat
    rw [Bool.not_eq_false] at hat
    have hpos : 0 < pending (address, id) queue := (h.matched queue hqueue).pending_pos hop hat
    have hle := single_le_sum (l := s.queues.map (pending (address, id)))
      (fun _ _ => Nat.zero_le _) _ (mem_map_of_mem hqueue)
    omega
  · exact (Nat.mul_eq_zero.mp howed).resolve_left h.readers_pos.ne'

/-- The writer does not free a chunk that is still to be read, or that it has counted for the request
that it is merging. -/
lemma Inv.survives (h : s.Inv) (hshrinks : s.storage.Shrinks storage')
    (hmem : (id, address) ∈ s.ring.metadata) (hkey : s.storage.idIndex.lookup id = some key)
    (hneeded : (∃ queue ∈ s.queues, ∃ op ∈ queue, op.feature.data.isAt address id = true) ∨
      0 < s.owed (address, id) key) : (id, address) ∈ storage'.ring.metadata := by
  obtain ⟨freed, hmetadata, hfreed⟩ := hshrinks.freed
  have hsplit : (id, address) ∈ freed ++ storage'.ring.metadata := hmetadata ▸ hmem
  rcases mem_append.mp hsplit with hfree | hleft
  · obtain ⟨chunk, flag, hchunk, hflag, hle⟩ := hfreed id address hfree
    obtain ⟨hqueues, howed⟩ := h.nothing_pending hmem hchunk hflag hkey hle
    rcases hneeded with ⟨queue, hqueue, op, hop, hat⟩ | hpos
    · rw [hqueues queue hqueue op hop] at hat
      cases hat
    · omega
  · exact hleft

lemma owed_pos_of_feature (hmerging : s.merging = some request) {feature : ShmFeature ω}
    (hfeature : feature ∈ request.features) (hat : feature.data.isAt address id = true) (key : String) :
    0 < s.owed (address, id) key := by
  have hle := single_le_sum (l := request.features.map (featureWeight (address, id)))
    (fun _ _ => Nat.zero_le _) _ (mem_map_of_mem hfeature)
  have hpos := featureWeight_pos hat
  rw [owed, hmerging]
  dsimp only
  omega

/-- A key that is still to be updated without its item is counted. -/
lemma Inv.owed_pos_of_known (h : s.Inv) (hmerging : s.merging = some request)
    (hphase : request.toTouch = []) (hknown : (key, none) ∈ request.toUpdate)
    (hlookup : s.storage.keyIndex.lookup key = some (address, id)) : 0 < s.owed (address, id) key := by
  have hheld := (h.merging request hmerging).held key address id hlookup
  split at hheld
  · rename_i hstores
    obtain ⟨feature, hfeature, hat⟩ := any_eq_true.mp hstores
    exact owed_pos_of_feature hmerging hfeature (Bool.and_eq_true_iff.mp hat).1 key
  · have hcount : 0 < (request.toUpdate.map Prod.fst).count key :=
      count_pos_iff.mpr (mem_map.mpr ⟨_, hknown, rfl⟩)
    rw [hphase] at hheld
    rw [owed, hmerging]
    simp only [count_nil] at hheld
    dsimp only
    omega

/-- The invariant is kept when the writer frees what the readers have read. -/
lemma Inv.shrinks (h : s.Inv) (hshrinks : s.storage.Shrinks storage')
    (hphase : ∀ request, s.merging = some request → request.toTouch = []) :
    ({ s with sender := { s.sender with storage := storage' } } : ShmExchange ω υ).Inv := by
  have hids : ∀ id address, (id, address) ∈ storage'.ring.metadata →
      id ∈ storage'.ring.metadata.map Prod.fst := fun id address hmem => mem_map.mpr ⟨_, hmem, rfl⟩
  have hcached : ∀ key, storage'.isCached key = true → s.storage.isCached key = true := by
    intro key hcached
    by_contra hnot
    rw [hshrinks.isCached h.storage (by simpa using hnot)] at hcached
    cases hcached
  refine ⟨hshrinks.inv, by rw [hshrinks.nReaders]; exact h.readers,
    by rw [hshrinks.nReaders]; exact h.readers_pos, fun key hkey => h.p0Cache key (hcached key hkey),
    ?_, ?_, h.matched, ?_, ?_⟩
  · intro id address chunk hmem hchunk
    exact h.objects id address chunk (hshrinks.mem_metadata hmem)
      ((hshrinks.accessBuf address).symm.trans hchunk)
  · intro id address chunk flag key hmem hchunk hflag hkey
    rw [hshrinks.writerFlag id (hids id address hmem)] at hflag
    rw [hshrinks.idIndex id (hids id address hmem)] at hkey
    rw [hshrinks.nReaders]
    exact h.balance id address chunk flag key (hshrinks.mem_metadata hmem)
      ((hshrinks.accessBuf address).symm.trans hchunk) hflag hkey
  · intro queue hqueue op hop
    refine (h.holds queue hqueue op hop).shrinks hshrinks fun address id hat hmem => ?_
    obtain ⟨key, flag, hkey, -⟩ := h.storage.indexed.chunk id address hmem
    exact h.survives hshrinks hmem hkey (Or.inl ⟨queue, hqueue, op, hop, hat⟩)
  · intro request hmerging
    have hrequest := h.merging request hmerging
    refine ⟨hrequest.touchFirst, ?_, ?_, ?_, ?_⟩
    · intro key hgone
      by_cases hwas : s.storage.isCached key = true
      · -- the chunk of the key was freed, so that nothing is held for it
        obtain ⟨address, id, hlookup⟩ := ShmStorage.isCached_iff.mp hwas
        obtain ⟨hmem, hkey⟩ := h.storage.indexed.key key address id hlookup
        by_contra hheld
        have howed : 0 < s.owed (address, id) key := by
          rw [owed, hmerging]
          dsimp only
          omega
        have hleft := h.survives hshrinks hmem hkey (Or.inr howed)
        rw [ShmStorage.isCached_iff.mpr
          ⟨address, id, (hshrinks.keyIndex_iff h.storage).mpr ⟨hlookup, hleft⟩⟩] at hgone
        cases hgone
      · exact hrequest.missing key (by simpa using hwas)
    · intro key address id hlookup
      exact hrequest.held key address id ((hshrinks.keyIndex_iff h.storage).mp hlookup).1
    · intro key hknown
      obtain ⟨address, id, hlookup⟩ := ShmStorage.isCached_iff.mp (hrequest.known key hknown)
      obtain ⟨hmem, hkey⟩ := h.storage.indexed.key key address id hlookup
      have howed := h.owed_pos_of_known hmerging (hphase request hmerging) hknown hlookup
      have hleft := h.survives hshrinks hmem hkey (Or.inr howed)
      exact ShmStorage.isCached_iff.mpr
        ⟨address, id, (hshrinks.keyIndex_iff h.storage).mpr ⟨hlookup, hleft⟩⟩
    · intro feature hfeature
      refine (hrequest.features feature hfeature).shrinks hshrinks fun address id hat hmem => ?_
      obtain ⟨key, flag, hkey, -⟩ := h.storage.indexed.chunk id address hmem
      exact h.survives hshrinks hmem hkey
        (Or.inr (owed_pos_of_feature hmerging hfeature hat key))

end ShmExchange

end VllmRuntime
