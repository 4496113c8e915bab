import VllmRuntime.Model.Base
import VllmRuntime.Shared.LinkedList

/-! # The queue of free blocks

`FreeKVCacheBlockQueue` of `vllm/v1/core/kv_cache_utils.py`. The `prev_free_block` and
`next_free_block` fields of all blocks are kept together with the queue. -/

namespace VllmRuntime

/-- The `KVCacheBlock` objects: the two ends of the free list and the blocks of the pool. -/
inductive BlockRef where
  | fakeHead
  | fakeTail
  | block (id : ℕ)
  deriving DecidableEq, Repr

structure FreeKVCacheBlockQueue where
  numFreeBlocks : ℤ
  links : Links BlockRef

namespace FreeKVCacheBlockQueue

/-- `FreeKVCacheBlockQueue.__init__`. -/
def new (blocks : List BlockRef) : FreeKVCacheBlockQueue where
  numFreeBlocks := blocks.length
  links := Links.connectAll ⟨fun _ => none, fun _ => none⟩
    (.fakeHead :: blocks ++ [.fakeTail])

/-- The error of `popleft` on an empty list. -/
def noFreeBlocks (q : FreeKVCacheBlockQueue) : Except PyError (BlockRef × FreeKVCacheBlockQueue) := do
  let n := q.numFreeBlocks
  pyAssert (n = 0) s!"num_free_blocks ({n}) is out of sync with the free list."
  .error (.valueError "No free blocks available")

def popleft (q : FreeKVCacheBlockQueue) : Except PyError (BlockRef × FreeKVCacheBlockQueue) :=
  match q.links.next .fakeHead with
  | none => q.noFreeBlocks
  | some .fakeTail => q.noFreeBlocks
  | some firstBlock =>
    match q.links.next firstBlock with
    | none =>
      .error (.runtimeError
        "Invalid block found in popleft() which doesn't have a valid next_free_block")
    | some second =>
      .ok (firstBlock,
        { numFreeBlocks := q.numFreeBlocks - 1
          links := (q.links.connect .fakeHead second).detach firstBlock })

/-- The `for` loop of `popleft_n`: the popped blocks, `curr_block` after the loop and the
links with the popped blocks cleared. -/
def popleftNLoop :
    ℕ → Option BlockRef → Links BlockRef →
      Except PyError (List BlockRef × Option BlockRef × Links BlockRef)
  | 0, currBlock, links => .ok ([], currBlock, links)
  | _ + 1, none, _ => .error (.assertionError "curr_block is not None")
  | n + 1, some currBlock, links => do
    let rest ← popleftNLoop n (links.next currBlock) (links.detach currBlock)
    return (currBlock :: rest.1, rest.2)

/-- `popleft_n`. A negative `n` pops nothing but still lowers the count by `n`. -/
def popleftN (q : FreeKVCacheBlockQueue) (n : ℤ) :
    Except PyError (List BlockRef × FreeKVCacheBlockQueue) :=
  if n = 0 then
    .ok ([], q)
  else do
    pyAssert (q.numFreeBlocks ≥ n) "self.num_free_blocks >= n"
    let (ret, currBlock, links) ← popleftNLoop n.toNat (q.links.next .fakeHead) q.links
    let links :=
      match currBlock with
      | none => links
      | some currBlock => links.connect .fakeHead currBlock
    return (ret, { numFreeBlocks := q.numFreeBlocks - n, links })

def remove (q : FreeKVCacheBlockQueue) (block : BlockRef) :
    Except PyError FreeKVCacheBlockQueue :=
  match q.links.prev block, q.links.next block with
  | some prev, some next =>
    .ok { numFreeBlocks := q.numFreeBlocks - 1
          links := (q.links.connect prev next).detach block }
  | _, _ => .error (.runtimeError "remove() called on an invalid block")

/-- `append_n`; `append` is the case of one block. -/
def appendN (q : FreeKVCacheBlockQueue) (blocks : List BlockRef) :
    Except PyError FreeKVCacheBlockQueue :=
  if blocks.isEmpty then
    .ok q
  else
    match q.links.prev .fakeTail with
    | none =>
      .error (.assertionError "prev_free_block of fake_free_list_tail should always exist")
    | some lastBlock =>
      .ok { numFreeBlocks := q.numFreeBlocks + blocks.length
            links := q.links.connectAll (lastBlock :: blocks ++ [.fakeTail]) }

end FreeKVCacheBlockQueue

end VllmRuntime
