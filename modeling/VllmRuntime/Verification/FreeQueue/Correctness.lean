import VllmRuntime.Model.FreeQueue

/-! # The free queue is a list

The links of the queue represent a list of blocks between the two fake ends, and the count is
its length. Each operation acts on that list as its name says. -/

namespace VllmRuntime.FreeKVCacheBlockQueue

variable {l blocks back : List BlockRef} {q : FreeKVCacheBlockQueue} {b : BlockRef}

open List Links

/-- The queue represents the list `l`. -/
structure IsQueue (q : FreeKVCacheBlockQueue) (l : List BlockRef) : Prop where
  linked : q.links.Linked (BlockRef.fakeHead :: l ++ [BlockRef.fakeTail])
  nodup : (BlockRef.fakeHead :: l ++ [BlockRef.fakeTail]).Nodup
  count : q.numFreeBlocks = l.length

namespace IsQueue

variable {q : FreeKVCacheBlockQueue} {l : List BlockRef}

lemma nodup_blocks (h : IsQueue q l) : l.Nodup := by
  have := h.nodup
  simp only [cons_append, nodup_cons] at this
  exact (nodup_append.mp this.2).1

lemma fakeHead_not_mem (h : IsQueue q l) : BlockRef.fakeHead ∉ l := by
  have := h.nodup
  simp only [cons_append, nodup_cons, mem_append, not_or] at this
  exact this.1.1

lemma fakeTail_not_mem (h : IsQueue q l) : BlockRef.fakeTail ∉ l := by
  have := h.nodup
  simp only [cons_append, nodup_cons] at this
  exact fun hmem => (nodup_append.mp this.2).2.2 _ hmem _ (by simp) rfl

end IsQueue

lemma nodup_with_ends (hl : l.Nodup) (hhead : BlockRef.fakeHead ∉ l) (htail : BlockRef.fakeTail ∉ l) :
    (BlockRef.fakeHead :: l ++ [BlockRef.fakeTail]).Nodup := by
  simp only [cons_append, nodup_cons, mem_append, mem_singleton, not_or]
  refine ⟨⟨hhead, by decide⟩, nodup_append.mpr ⟨hl, by simp, ?_⟩⟩
  intro a ha b hb hab
  rw [mem_singleton.mp hb] at hab
  exact htail (hab ▸ ha)

/-! ## Construction -/

lemma new_isQueue (hnodup : blocks.Nodup) (hhead : BlockRef.fakeHead ∉ blocks)
    (htail : BlockRef.fakeTail ∉ blocks) :
    IsQueue (new blocks) blocks := by
  have hends := nodup_with_ends hnodup hhead htail
  refine ⟨?_, hends, rfl⟩
  have h : Linked (⟨fun _ => none, fun _ => none⟩ : Links BlockRef) ([] ++ [.fakeHead]) := by simp
  have hall : ([] ++ .fakeHead :: (blocks ++ [.fakeTail]) : List BlockRef).Nodup := by
    simpa using hends
  simpa [new] using h.connectAll hall

lemma popleft_isQueue (h : IsQueue q (b :: l)) :
    ∃ q', q.popleft = .ok (b, q') ∧ IsQueue q' l := by
  have hlinked := h.linked
  have hb : b ≠ .fakeTail := fun he => h.fakeTail_not_mem (by simp [he])
  obtain ⟨second, rest, hrest⟩ : ∃ second rest, l ++ [.fakeTail] = second :: rest :=
    exists_cons_of_ne_nil (by simp)
  have hall : (BlockRef.fakeHead :: (b :: l) ++ [.fakeTail]) =
      [] ++ .fakeHead :: b :: second :: rest := by simp [hrest]
  rw [hall] at hlinked
  have hnodup := h.nodup
  rw [hall] at hnodup
  have hfirst : q.links.next .fakeHead = some b ∧ q.links.next b = some second := by
    simp only [nil_append, linked_cons_cons] at hlinked
    exact ⟨hlinked.1.1, hlinked.2.1.1⟩
  refine ⟨{ numFreeBlocks := q.numFreeBlocks - 1
            links := (q.links.connect .fakeHead second).detach b }, ?_, ?_, ?_, ?_⟩
  · unfold popleft
    rw [hfirst.1]
    cases b with
    | fakeHead => exact absurd (by simp) h.fakeHead_not_mem
    | fakeTail => exact absurd rfl hb
    | block id => simp only [hfirst.2]
  · have hby := hlinked.bypass hnodup
    simpa [hrest] using hby
  · exact nodup_with_ends (nodup_cons.mp h.nodup_blocks).2
      (fun hm => h.fakeHead_not_mem (by simp [hm])) (fun hm => h.fakeTail_not_mem (by simp [hm]))
  · have := h.count
    simp only [length_cons] at this
    push_cast at this
    simp only
    omega

/-! ## Popping -/

/-- The loop pops the front of a linked list and clears the links of the popped nodes. -/
lemma popleftNLoop_linked {links : Links BlockRef} (front : List BlockRef) {c : BlockRef}
    (h : links.Linked (front ++ c :: back)) (hnodup : (front ++ c :: back).Nodup) :
    popleftNLoop front.length (front ++ [c]).head? links =
      .ok (front, some c, front.foldl Links.detach links) := by
  induction front generalizing links with
  | nil => rfl
  | cons b front ih =>
    obtain ⟨d, rest, hd⟩ : ∃ d rest, front ++ c :: back = d :: rest :=
      exists_cons_of_ne_nil (by simp)
    have hnext : links.next b = (front ++ [c]).head? := by
      rw [cons_append, hd, linked_cons_cons] at h
      rw [h.1.1]
      cases front <;> simp_all
    have htail : links.Linked (front ++ c :: back) := by
      rw [cons_append, hd, linked_cons_cons] at h
      rw [hd]
      exact h.2
    rw [cons_append, nodup_cons] at hnodup
    have hrec := ih (htail.detach hnodup.1) hnodup.2
    simp only [length_cons, cons_append, head?_cons, popleftNLoop, hnext, hrec,
      foldl_cons]
    rfl

lemma popleftN_isQueue (h : IsQueue q l) {n : ℕ} (hn : n ≤ l.length) :
    ∃ q', q.popleftN n = .ok (l.take n, q') ∧ IsQueue q' (l.drop n) := by
  rcases Nat.eq_zero_or_pos n with rfl | hpos
  · exact ⟨q, by simp [popleftN], by simpa using h⟩
  obtain ⟨c, rest, hc⟩ : ∃ c rest, l.drop n ++ [.fakeTail] = c :: rest :=
    exists_cons_of_ne_nil (by simp)
  have hl : l ++ [.fakeTail] = l.take n ++ c :: rest := by
    rw [← hc, ← append_assoc, take_append_drop]
  have hall : (BlockRef.fakeHead :: l ++ [.fakeTail]) = .fakeHead :: (l.take n ++ c :: rest) := by
    rw [cons_append, hl]
  have hlinked := h.linked
  have hnodup := h.nodup
  rw [hall] at hlinked hnodup
  have hne : l.take n ++ [c] ≠ [] := by simp
  have hhead : q.links.next .fakeHead = (l.take n ++ [c]).head? := by
    obtain ⟨d, tail, hd⟩ : ∃ d tail, l.take n ++ c :: rest = d :: tail :=
      exists_cons_of_ne_nil (by simp)
    rw [hd, linked_cons_cons] at hlinked
    rw [hlinked.1.1]
    cases htake : l.take n <;> simp_all
  have hfront : q.links.Linked (l.take n ++ c :: rest) := by
    obtain ⟨d, tail, hd⟩ : ∃ d tail, l.take n ++ c :: rest = d :: tail :=
      exists_cons_of_ne_nil (by simp)
    rw [hd, linked_cons_cons] at hlinked
    rw [hd]
    exact hlinked.2
  have hnodup' := nodup_cons.mp hnodup
  have hloop := popleftNLoop_linked (l.take n) hfront hnodup'.2
  rw [length_take, Nat.min_eq_left hn] at hloop
  refine ⟨{ numFreeBlocks := q.numFreeBlocks - n
            links := ((l.take n).foldl Links.detach q.links).connect .fakeHead c }, ?_, ?_, ?_, ?_⟩
  · have hn0 : (n : ℤ) ≠ 0 := by omega
    have hcount := h.count
    simp only [popleftN, hn0, if_false, Int.toNat_natCast, hhead, hloop]
    rw [show (decide (q.numFreeBlocks ≥ (n : ℤ))) = true by simp; omega]
    rfl
  · -- What is left is linked; only the head has to point to it.
    have hback : q.links.Linked (c :: rest) := (linked_append_cons.mp hfront).2
    have hdisj : ∀ x ∈ l.take n, x ∉ c :: rest := by
      intro x hx hmem
      exact (nodup_append.mp hnodup'.2).2.2 x hx x hmem rfl
    have hdet := hback.detach_all hdisj
    have hall : ([] ++ .fakeHead :: c :: rest : List BlockRef).Nodup := by
      simp only [nil_append, nodup_cons]
      refine ⟨fun hm => hnodup'.1 (mem_append_right _ hm), ?_⟩
      exact nodup_cons.mp (nodup_append.mp hnodup'.2).2.1
    have hconn := (linked_singleton ((l.take n).foldl Links.detach q.links) .fakeHead).connect
      hdet hall
    simpa [hc] using hconn
  · exact nodup_with_ends (h.nodup_blocks.sublist (drop_sublist n l))
      (fun hm => h.fakeHead_not_mem (mem_of_mem_drop hm))
      (fun hm => h.fakeTail_not_mem (mem_of_mem_drop hm))
  · have := h.count
    simp only [length_drop]
    omega

/-! ## Removing and appending -/

lemma remove_isQueue {front : List BlockRef} (h : IsQueue q (front ++ b :: back)) :
    ∃ q', q.remove b = .ok q' ∧ IsQueue q' (front ++ back) := by
  obtain ⟨init, a, ha⟩ : ∃ init a, BlockRef.fakeHead :: front = init ++ [a] :=
    ⟨_, _, (dropLast_append_getLast (by simp)).symm⟩
  obtain ⟨c, rest, hc⟩ : ∃ c rest, back ++ [BlockRef.fakeTail] = c :: rest :=
    exists_cons_of_ne_nil (by simp)
  have hall : (BlockRef.fakeHead :: (front ++ b :: back) ++ [.fakeTail]) =
      init ++ a :: b :: c :: rest := by
    have : (BlockRef.fakeHead :: (front ++ b :: back) ++ [.fakeTail]) =
        (BlockRef.fakeHead :: front) ++ b :: (back ++ [.fakeTail]) := by simp
    rw [this, ha, hc]
    simp
  have hlinked := h.linked
  have hnodup := h.nodup
  rw [hall] at hlinked hnodup
  have hnbrs : q.links.prev b = some a ∧ q.links.next b = some c := by
    have := (linked_append_cons.mp hlinked).2
    simp only [linked_cons_cons] at this
    exact ⟨this.1.2, this.2.1.1⟩
  have hrest : (BlockRef.fakeHead :: (front ++ back) ++ [.fakeTail]) = init ++ a :: c :: rest := by
    have : (BlockRef.fakeHead :: (front ++ back) ++ [.fakeTail]) =
        (BlockRef.fakeHead :: front) ++ (back ++ [.fakeTail]) := by simp
    rw [this, ha, hc]
    simp
  refine ⟨{ numFreeBlocks := q.numFreeBlocks - 1
            links := (q.links.connect a c).detach b }, ?_, ?_, ?_, ?_⟩
  · simp [remove, hnbrs]
  · rw [hrest]
    exact hlinked.bypass hnodup
  · have hsub : (front ++ back).Sublist (front ++ b :: back) :=
      (List.Sublist.refl front).append (sublist_cons_self b back)
    exact nodup_with_ends (h.nodup_blocks.sublist hsub)
      (fun hm => h.fakeHead_not_mem (hsub.subset hm))
      (fun hm => h.fakeTail_not_mem (hsub.subset hm))
  · have := h.count
    simp only [length_append, length_cons] at this ⊢
    push_cast at this ⊢
    omega

lemma appendN_isQueue (h : IsQueue q l) (hnodup : (l ++ blocks).Nodup) (hhead : BlockRef.fakeHead ∉ blocks)
    (htail : BlockRef.fakeTail ∉ blocks) :
    ∃ q', q.appendN blocks = .ok q' ∧ IsQueue q' (l ++ blocks) := by
  cases hblocks : blocks with
  | nil => exact ⟨q, by simp [appendN], by simpa using h⟩
  | cons b bs =>
    rw [← hblocks]
    obtain ⟨init, a, ha⟩ : ∃ init a, BlockRef.fakeHead :: l = init ++ [a] :=
      ⟨_, _, (dropLast_append_getLast (by simp)).symm⟩
    have hlinked := h.linked
    have hall : (BlockRef.fakeHead :: l ++ [.fakeTail]) = init ++ a :: [.fakeTail] := by
      rw [ha]
      simp
    rw [hall] at hlinked
    have hsplit := linked_append_cons.mp hlinked
    have hprev : q.links.prev .fakeTail = some a := (linked_cons_cons.mp hsplit.2).1.2
    have hends : (BlockRef.fakeHead :: (l ++ blocks) ++ [BlockRef.fakeTail]).Nodup := by
      apply nodup_with_ends hnodup
      · simp [h.fakeHead_not_mem, hhead]
      · simp [h.fakeTail_not_mem, htail]
    have hnew : (BlockRef.fakeHead :: (l ++ blocks) ++ [.fakeTail]) =
        init ++ a :: (blocks ++ [.fakeTail]) := by
      have : (BlockRef.fakeHead :: (l ++ blocks) ++ [.fakeTail]) =
          (BlockRef.fakeHead :: l) ++ (blocks ++ [.fakeTail]) := by simp
      rw [this, ha]
      simp
    refine ⟨{ numFreeBlocks := q.numFreeBlocks + blocks.length
              links := q.links.connectAll (a :: blocks ++ [.fakeTail]) }, ?_, ?_, hends, ?_⟩
    · simp [appendN, hblocks, hprev]
    · rw [hnew] at hends ⊢
      exact hsplit.1.connectAll hends
    · have := h.count
      simp only [length_append]
      push_cast
      omega

end VllmRuntime.FreeKVCacheBlockQueue
