import VllmRuntime.Shared.Refinement
import VllmRuntime.Verification.FreeQueue.Correctness

/-! # Runs of the free queue

The methods of the queue do to its links what `deque` does to a list, in any order, and fail where the list has
too few blocks. -/

namespace VllmRuntime.FreeKVCacheBlockQueue

open List Refinement

/-- A call of a method; `append` is `append_n` with one block. -/
inductive QueueCall where
  | popleft
  | popleftN (n : ℤ)
  | remove (block : BlockRef)
  | appendN (blocks : List BlockRef)

namespace QueueCall

/-- The blocks that are returned, and the queue after the call. -/
def run : QueueCall → FreeKVCacheBlockQueue → Except PyError (List BlockRef × FreeKVCacheBlockQueue)
  | popleft, q => do
    let (block, q) ← q.popleft
    return ([block], q)
  | popleftN n, q => q.popleftN n
  | remove block, q => do
    let q ← q.remove block
    return ([], q)
  | appendN blocks, q => do
    let q ← q.appendN blocks
    return ([], q)

/-- The call on a list. -/
def onList : QueueCall → List BlockRef → Except PyError (List BlockRef × List BlockRef)
  | popleft, [] => .error (.valueError "No free blocks available")
  | popleft, block :: l => .ok ([block], l)
  | popleftN n, l =>
    if n ≤ l.length then .ok (l.take n.toNat, l.drop n.toNat)
    else .error (.assertionError "self.num_free_blocks >= n")
  | remove block, l => .ok ([], l.erase block)
  | appendN blocks, l => .ok ([], l ++ blocks)

/-- Only free blocks are removed, and only other blocks are appended. -/
def Allowed (l : List BlockRef) : QueueCall → Prop
  | popleft => True
  | popleftN n => 0 ≤ n
  | remove block => block ∈ l
  | appendN blocks => (l ++ blocks).Nodup ∧ .fakeHead ∉ blocks ∧ .fakeTail ∉ blocks

lemma run_refines (call : QueueCall) (q : FreeKVCacheBlockQueue) (l : List BlockRef) (h : q.IsQueue l)
    (hallowed : call.Allowed l) : Refines IsQueue (call.run q) (call.onList l) := by
  cases call with
  | popleft =>
    cases l with
    | nil =>
      have hnext : q.links.next .fakeHead = some .fakeTail := (Links.linked_cons_cons.mp h.linked).1.1
      have hcount : q.numFreeBlocks = 0 := h.count
      change (q.popleft >>= _) = _
      simp only [FreeKVCacheBlockQueue.popleft, hnext, noFreeBlocks, hcount]
      rfl
    | cons block l =>
      obtain ⟨q', hq', hqueue⟩ := popleft_isQueue h
      exact ⟨q', by rw [run, hq']; rfl, hqueue⟩
  | popleftN n =>
    obtain ⟨k, rfl⟩ := Int.eq_ofNat_of_zero_le hallowed
    rw [onList]
    split
    · rename_i hk
      exact popleftN_isQueue h (Int.ofNat_le.mp hk)
    · rename_i hk
      have hzero : (k : ℤ) ≠ 0 := by omega
      change q.popleftN k = _
      simp only [FreeKVCacheBlockQueue.popleftN, if_neg hzero, h.count, pyAssert, ge_iff_le, hk]
      rfl
  | remove block =>
    obtain ⟨front, back, rfl⟩ := append_of_mem hallowed
    obtain ⟨q', hq', hqueue⟩ := remove_isQueue h
    have hnot : block ∉ front := fun hmem => disjoint_of_nodup_append h.nodup_blocks hmem mem_cons_self
    refine ⟨q', by rw [run, hq']; rfl, ?_⟩
    rwa [erase_append_right _ hnot, erase_cons_head]
  | appendN blocks =>
    obtain ⟨hnodup, hhead, htail⟩ := hallowed
    obtain ⟨q', hq', hqueue⟩ := appendN_isQueue h hnodup hhead htail
    exact ⟨q', by rw [run, hq']; rfl, hqueue⟩

end QueueCall

/-- A queue of the blocks gives the same answers to any calls as their list, and fails in the same way. -/
theorem new_refines {blocks : List BlockRef} {calls : List QueueCall} (hnodup : blocks.Nodup)
    (hhead : BlockRef.fakeHead ∉ blocks) (htail : BlockRef.fakeTail ∉ blocks)
    (hallowed : AllAllowed QueueCall.onList QueueCall.Allowed calls blocks) :
    Refines IsQueue (runAll QueueCall.run calls (new blocks)) (runAll QueueCall.onList calls blocks) :=
  Refines.runAll QueueCall.run_refines (new_isQueue hnodup hhead htail) hallowed

/-- The second call takes a block out of the middle. -/
theorem new_refines_threeBlocks :
    let calls : List QueueCall := [.popleft, .remove (.block 3), .appendN [.block 1], .popleftN 2]
    runAll QueueCall.onList calls [.block 1, .block 2, .block 3] = .ok ([[.block 1], [], [], [.block 2, .block 1]], []) ∧
      Refines IsQueue (runAll QueueCall.run calls (new [.block 1, .block 2, .block 3]))
        (runAll QueueCall.onList calls [.block 1, .block 2, .block 3]) := by
  refine ⟨rfl, new_refines (by decide) (by decide) (by decide) ⟨trivial, fun _ _ h => ?_⟩⟩
  cases h
  refine ⟨by simp [QueueCall.Allowed], fun _ _ h => ?_⟩
  cases h
  refine ⟨by simp [QueueCall.Allowed], fun _ _ h => ?_⟩
  cases h
  exact ⟨by simp [QueueCall.Allowed], fun _ _ _ => trivial⟩

end VllmRuntime.FreeKVCacheBlockQueue
