import VllmRuntime.Verification.InputBatch.Invariant
import Mathlib.Logic.Relation

/-! # A step as a sequence of events

What a step does to the indices is a sequence of a few kinds of events. The rows follow them, and the
log of the step in `BatchUpdateBuilder` is what the events leave in it. -/

namespace VllmRuntime

open List Function

variable {γ : Type}

/-- The ids at the indices, the log of the step and the requests. -/
structure SlotState (γ : Type) where
  ids : List (Option String)
  builder : BatchUpdateBuilder
  requests : BatchRequests γ

/-- One change of the indices, in a step that adds only requests with a property. -/
inductive SlotEvent (A : CachedRequestState γ → Prop) : SlotState γ → SlotState γ → Prop where
  | remove {s : SlotState γ} {idx : ℕ} {id : String} (hidx : s.ids[idx]? = some (some id))
      (hmoved : s.builder.moved = []) :
      SlotEvent A s ⟨s.ids.set idx none,
        { s.builder with removed := s.builder.removed ++ [idx], batchChanged := true },
        update s.requests id none⟩
  | reuse {s : SlotState γ} {request : CachedRequestState γ} {idx : ℕ} {rest : List ℕ}
      (hmoved : s.builder.moved = []) (hperm : rest ++ [idx] ~ s.builder.removed)
      (hidx : s.ids[idx]? = some none) (hnew : s.requests request.reqId = none)
      (hadded : A request) :
      SlotEvent A s ⟨s.ids.set idx (some request.reqId),
        BatchUpdateBuilder.register { s.builder with removed := rest, isRemovedSorted := true } request idx,
        update s.requests request.reqId (some (request, {}))⟩
  | append {s : SlotState γ} {request : CachedRequestState γ} (hmoved : s.builder.moved = [])
      (hremoved : s.builder.removed = []) (hnew : s.requests request.reqId = none)
      (hadded : A request) :
      SlotEvent A s ⟨s.ids ++ [some request.reqId], s.builder.register request s.ids.length,
        update s.requests request.reqId (some (request, {}))⟩
  | write {s : SlotState γ} {f : String → RowUpdates → RowUpdates} :
      SlotEvent A s ⟨s.ids, s.builder, s.requests.write f⟩
  | sort {s : SlotState γ} {sorted : List ℕ} (hperm : sorted ~ s.builder.removed) :
      SlotEvent A s ⟨s.ids, { s.builder with removed := sorted, isRemovedSorted := true }, s.requests⟩
  | move {s : SlotState γ} {last empty : ℕ} {id : String} {rest : List ℕ}
      (hremoved : s.builder.removed = rest ++ [empty]) (hrest : empty ∉ rest)
      (hlast : s.ids[last]? = some (some id)) (hempty : s.ids[empty]? = some none) :
      SlotEvent A s ⟨(s.ids.set empty (some id)).set last none,
        { s.builder with
          removed := rest
          moved := s.builder.moved ++ [(last, empty, .unidirectional)] }, s.requests⟩
  | trim {s : SlotState γ} {n : ℕ} (hbeyond : ∀ i, n ≤ i → ∀ id, s.ids[i]? ≠ some (some id)) :
      SlotEvent A s ⟨s.ids.take n, s.builder, s.requests⟩
  | swap {s : SlotState γ} {i1 i2 : ℕ} {id1 id2 : String} (h1 : s.ids[i1]? = some (some id1))
      (h2 : s.ids[i2]? = some (some id2)) :
      SlotEvent A s ⟨InputBatch.swapItems s.ids i1 i2,
        { s.builder with moved := s.builder.moved ++ [(i1, i2, .swap)] }, s.requests⟩

namespace InputBatch

variable {config : InputBatchConfig} {tables : List BlockTable} {b b' : InputBatch γ}
  {requests : BatchRequests γ} {A : CachedRequestState γ → Prop} {rounds last : ℕ}

/-- The indices of the batch, with its requests. -/
def slots (b : InputBatch γ) (requests : BatchRequests γ) : SlotState γ :=
  ⟨b.reqIds, b.batchUpdateBuilder, requests⟩

/-- The batch before `condense`: the rows are right and the removed indices are those without one. -/
structure Open (config : InputBatchConfig) (tables : List BlockTable) (b : InputBatch γ)
    (requests : BatchRequests γ) : Prop where
  rows : Rows config tables b requests
  holes : Holes b.reqIds b.batchUpdateBuilder.removed
  sorted : b.batchUpdateBuilder.Sorted
  moved : b.batchUpdateBuilder.moved = []

namespace Open

lemma remove (h : Open config tables b requests) (id : String) (hrun : b.removeRequest id = .ok b') :
    Open config tables b' (update requests id none) ∧
      Relation.ReflTransGen (SlotEvent A) (b.slots requests) (b'.slots (update requests id none)) := by
  cases hid : b.reqIdToIndex.lookup id with
  | none =>
    have hnone : requests id = none := by
      rw [← Option.not_isSome_iff_eq_none, h.rows.known, hid]
      simp
    have hsame : update requests id none = requests := by
      rw [← hnone]
      exact update_eq_self id requests
    unfold removeRequest at hrun
    rw [hid] at hrun
    cases hrun
    rw [hsame]
    exact ⟨h, .refl⟩
  | some idx =>
    have hidx := (h.rows.inverse.lookup id idx).mp hid
    obtain ⟨hrows, hids, -, hflag, hbuilder⟩ := h.rows.remove hid hrun
    refine ⟨⟨hrows, ?_, ?_, ?_⟩, ?_⟩
    · rw [hids, hbuilder]
      exact h.holes.remove hidx
    · rw [hbuilder]
      intro hsorted
      exact absurd (hflag.symm.trans hsorted) (by simp)
    · rw [hbuilder]
      exact h.moved
    · refine .single ?_
      rw [slots, slots, hids, hbuilder]
      exact .remove (s := b.slots requests) hidx h.moved

lemma add {request : CachedRequestState γ} (h : Open config tables b requests)
    (hnew : requests request.reqId = none) (hfits : request.Fits config tables) (hadded : A request)
    (hrun : b.addRequest config request = .ok b') :
    Open config tables b' (update requests request.reqId (some (request, {}))) ∧
      Relation.ReflTransGen (SlotEvent A) (b.slots requests)
        (b'.slots (update requests request.reqId (some (request, {})))) := by
  rcases BatchUpdateBuilder.popRemoved_eq h.sorted with ⟨hpop, hnil⟩ | ⟨rest, idx, hpop, hperm, hsorted⟩
  · have hlength := h.holes.length_eq h.rows.inverse
    rw [hnil, length_nil, Nat.add_zero] at hlength
    obtain ⟨hrows, hids, -, hbuilder⟩ := h.rows.add hnew hfits
      (by rw [getElem?_eq_none le_rfl]; simp) le_rfl (by rw [hpop]; exact hlength) hrun
    rw [hpop] at hbuilder
    have hids : b'.reqIds = b.reqIds ++ [some request.reqId] := by simpa [setOrAppend] using hids
    refine ⟨⟨hrows, ?_, ?_, ?_⟩, ?_⟩
    · have hremoved : b'.batchUpdateBuilder.removed = [] := by
        rw [hbuilder]
        exact hnil
      rw [hids, hremoved]
      refine ⟨nodup_nil, fun i => ?_⟩
      have hold := h.holes.mem i
      rw [hnil] at hold
      rw [getElem?_append]
      split
      · exact hold
      · cases i - b.reqIds.length <;> simp
    · rw [hbuilder]
      exact h.sorted
    · rw [hbuilder]
      exact h.moved
    · refine .single ?_
      rw [slots, slots, hids, hbuilder]
      exact .append (s := b.slots requests) h.moved hnil hnew hadded
  · have hmem : b.reqIds[idx]? = some none := (h.holes.mem idx).mp (hperm.mem_iff.mp (by simp))
    have hlt := lt_of_getElem? hmem
    obtain ⟨hrows, hids, -, hbuilder⟩ := h.rows.add hnew hfits (by rw [hmem]; simp) hlt.le
      (by rw [hpop]; rfl) hrun
    rw [hpop] at hbuilder
    have hids : b'.reqIds = b.reqIds.set idx (some request.reqId) := by
      simpa [setOrAppend, hlt.ne] using hids
    refine ⟨⟨hrows, ?_, ?_, ?_⟩, ?_⟩
    · rw [hids, hbuilder]
      exact h.holes.reuse hperm
    · rw [hbuilder]
      exact fun _ => (List.pairwise_append.mp hsorted).1
    · rw [hbuilder]
      exact h.moved
    · refine .single ?_
      rw [slots, slots, hids, hbuilder]
      exact .reuse (s := b.slots requests) h.moved hperm hmem hnew hadded

lemma draft {id : String} {spec : List TokenId} (h : Open config tables b requests)
    (hrun : b.updateReqSpecTokenIds config id spec = .ok b') :
    Open config tables b' (requests.draft id spec) ∧
      Relation.ReflTransGen (SlotEvent A) (b.slots requests) (b'.slots (requests.draft id spec)) := by
  obtain ⟨hrows, hids, -, hbuilder⟩ := h.rows.draft hrun
  refine ⟨⟨hrows, ?_, ?_, ?_⟩, ?_⟩
  · rw [hids, hbuilder]
    exact h.holes
  · rw [hbuilder]
    exact h.sorted
  · rw [hbuilder]
    exact h.moved
  · refine .single ?_
    rw [slots, slots, hids, hbuilder]
    exact .write (s := b.slots requests)

end Open

/-! ## Condensing -/

/-- A round of the loop ends it, or moves the request at the last index down to the lowest removed one. -/
lemma condenseLoop_succ (hcondensing : Condensing b.reqIds b.batchUpdateBuilder.removed last)
    (hflag : b.batchUpdateBuilder.isRemovedSorted = true)
    (hrounds : rounds + 1 = b.batchUpdateBuilder.removed.length)
    (hrun : condenseLoop (rounds + 1) last b = .ok b') :
    ∃ rest empty, b.batchUpdateBuilder.removed = rest ++ [empty] ∧ empty ∉ rest ∧
      (skipRemoved b.batchUpdateBuilder.removed last ≤ empty ∧ b' = b ∨
        empty < skipRemoved b.batchUpdateBuilder.removed last ∧ ∃ id b₁,
          b.reqIds[skipRemoved b.batchUpdateBuilder.removed last]? = some (some id) ∧
          b.reqIds[empty]? = some none ∧
          moveDown { b with batchUpdateBuilder := { b.batchUpdateBuilder with removed := rest } }
            (skipRemoved b.batchUpdateBuilder.removed last) empty = .ok b₁ ∧
          condenseLoop rounds (skipRemoved b.batchUpdateBuilder.removed last - 1) b₁ = .ok b') := by
  have hne : b.batchUpdateBuilder.removed ≠ [] := by
    intro hnil
    simp [hnil] at hrounds
  obtain ⟨rest, empty, hremoved⟩ : ∃ rest empty, b.batchUpdateBuilder.removed = rest ++ [empty] :=
    ⟨_, _, (dropLast_append_getLast hne).symm⟩
  obtain ⟨hpeek, hpop⟩ := BatchUpdateBuilder.peekRemoved_eq hflag hremoved
  obtain ⟨-, -, hskip⟩ := skipRemoved_spec b.batchUpdateBuilder.removed last
  have hskipped := hcondensing.skip
  have hrest : empty ∉ rest := by
    intro hmem
    have hsorted := hcondensing.sorted
    rw [hremoved] at hsorted
    exact lt_irrefl _ ((pairwise_append.mp hsorted).2.2 empty hmem empty (by simp))
  refine ⟨rest, empty, hremoved, hrest, ?_⟩
  rw [condenseLoop, hpeek] at hrun
  dsimp only at hrun
  generalize skipRemoved b.batchUpdateBuilder.removed last = current at hskip hskipped hrun ⊢
  split at hrun
  · rename_i hle
    exact .inl ⟨hle, (Except.ok.inj hrun).symm⟩
  · rename_i hlt
    -- an index above a removed one is not the first, so that it holds a request
    have hcurrent : current ∉ b.batchUpdateBuilder.removed := hskip.resolve_right (by omega)
    obtain ⟨id, hid⟩ := (hskipped.filled current).mpr ⟨le_rfl, hcurrent⟩
    have hempty : b.reqIds[empty]? = some none := hskipped.free empty (by simp [hremoved])
    obtain ⟨b₁, hmove, hrun⟩ := bind_eq_ok hrun
    rw [hpop] at hmove
    exact .inr ⟨by omega, id, b₁, hid, hempty, hmove, hrun⟩

/-- Each round moves one request down, until the requests stand without a gap. -/
lemma condenseLoop_spec (h : Rows config tables b requests)
    (hcondensing : Condensing b.reqIds b.batchUpdateBuilder.removed last)
    (hflag : b.batchUpdateBuilder.isRemovedSorted = true)
    (hrounds : rounds = b.batchUpdateBuilder.removed.length) (hrun : condenseLoop rounds last b = .ok b') :
    Rows config tables b' requests ∧
      (∃ n : ℕ, ∀ i, (∃ id, b'.reqIds[i]? = some (some id)) ↔ i < n) ∧
      Relation.ReflTransGen (SlotEvent A) (b.slots requests) (b'.slots requests) := by
  induction rounds generalizing b last with
  | zero =>
    cases hrun
    have hnil := length_eq_zero_iff.mp hrounds.symm
    exact ⟨h, hcondensing.gapless (by simp [hnil]), .refl⟩
  | succ rounds ih =>
    obtain ⟨rest, empty, hremoved, hrest, hround⟩ := condenseLoop_succ hcondensing hflag hrounds hrun
    have hskipped := hcondensing.skip
    rcases hround with ⟨hle, rfl⟩ | ⟨hlt, id, b₁, hid, hempty, hmove, hrun⟩
    · refine ⟨h, hskipped.gapless fun i hi => ?_, .refl⟩
      rw [hremoved] at hi
      rcases mem_append.mp hi with hi | hi
      · have hsorted := hskipped.sorted
        rw [hremoved] at hsorted
        exact hle.trans ((pairwise_append.mp hsorted).2.2 i hi empty (by simp)).le
      · rwa [mem_singleton.mp hi]
    · obtain ⟨hrows, hids, -, hbuilder⟩ :=
        (h.withBuilder { b.batchUpdateBuilder with removed := rest }).move hid hempty hmove
      have hmoved : Condensing b.reqIds (rest ++ [empty])
          (skipRemoved b.batchUpdateBuilder.removed last) := by
        rw [← hremoved]
        exact hskipped
      obtain ⟨hrows', hgapless, hevents⟩ := ih hrows
        (by rw [hids, hbuilder]; exact hmoved.move hlt hid)
        (by rw [hbuilder]; exact hflag)
        (by rw [hbuilder]; rw [hremoved, length_append] at hrounds; simpa using hrounds) hrun
      refine ⟨hrows', hgapless, .head ?_ hevents⟩
      rw [slots, slots, hids, hbuilder]
      exact .move (s := b.slots requests) hremoved hrest hid hempty

/-- The lists are cut off after the requests. -/
def trimmed (b : InputBatch γ) (n : ℕ) : InputBatch γ :=
  { b with
    reqIds := b.reqIds.take n
    reqOutputTokenIds := b.reqOutputTokenIds.take n
    specTokenIds := b.specTokenIds.take n }

lemma Rows.trim {n : ℕ} (h : Rows config tables b requests)
    (hbeyond : ∀ i, n ≤ i → ∀ id, b.reqIds[i]? ≠ some (some id)) :
    Rows config tables (b.trimmed n) requests := by
  have hentry : ∀ (i : ℕ) (id : String),
      (b.reqIds.take n)[i]? = some (some id) ↔ b.reqIds[i]? = some (some id) := by
    intro i id
    rw [getElem?_take]
    split
    · rfl
    · rename_i hlt
      simpa using hbeyond i (by omega) id
  refine ⟨⟨h.inverse.nodup, fun id i => (h.inverse.lookup id i).trans (hentry i id).symm⟩, h.known, h.reqId,
    fun i id request spec hi hid => ?_, fun i hi => h.unused i fun id hid => hi id ((hentry i id).mpr hid),
    ?_, fun i hi => ?_, h.blocksPerKvBlock, h.maxNumBlocksPerReq, ?_⟩
  · have hi := (hentry i id).mp hi
    have hlt : i < n := Nat.lt_of_not_le fun hle => hbeyond i hle id hi
    have hrow : (b.trimmed n).row i = b.row i := by
      simp only [InputBatch.row, InputBatch.tokens, trimmed, getElem?_take_of_lt hlt]
      rfl
    rw [hrow]
    exact h.row i id request spec hi hid
  · have hlength := h.spec_length
    simp only [trimmed, length_take]
    omega
  · simp only [trimmed, length_take] at hi ⊢
    rw [getElem?_take]
    split
    · exact h.spec_beyond i (by omega)
    · rfl
  · refine ⟨h.features.greedy, h.features.random, h.features.topP, h.features.topK,
      h.features.frequencyPenalties, h.features.presencePenalties, h.features.repetitionPenalties,
      h.features.allowedTokenIds, h.features.numLogprobs, h.features.lora, h.features.lora_nonempty⟩

/-- The indices of the batch are those of its requests. -/
def Gapless (b : InputBatch γ) : Prop :=
  ∀ i, (∃ id, b.reqIds[i]? = some (some id)) ↔ i < b.reqIds.length

lemma Open.condense (h : Open config tables b requests) (hrun : b.condense = .ok b') :
    Rows config tables b' requests ∧ b'.Gapless ∧
      Relation.ReflTransGen (SlotEvent A) (b.slots requests) (b'.slots requests) := by
  obtain ⟨sorted, hsort, hperm, hsorted⟩ := BatchUpdateBuilder.ensureRemovedSorted_eq h.sorted
  have hevent : SlotEvent A (b.slots requests) (slots { b with batchUpdateBuilder :=
      { b.batchUpdateBuilder with removed := sorted, isRemovedSorted := true } } requests) :=
    .sort (s := b.slots requests) hperm
  have hrows := h.rows.withBuilder { b.batchUpdateBuilder with removed := sorted, isRemovedSorted := true }
  have hholes : Holes b.reqIds sorted :=
    ⟨hperm.nodup_iff.mpr h.holes.nodup, fun i => hperm.mem_iff.trans (h.holes.mem i)⟩
  unfold InputBatch.condense at hrun
  rw [hsort] at hrun
  dsimp only at hrun
  split at hrun
  · rename_i hempty
    obtain rfl := List.isEmpty_iff.mp hempty
    cases hrun
    refine ⟨hrows, fun i => ?_, .single hevent⟩
    have hnone := hholes.mem i
    cases hi : b.reqIds[i]? with
    | none => simpa [hi] using List.getElem?_eq_none_iff.mp hi
    | some entry =>
      have hlt := lt_of_getElem? hi
      cases entry with
      | none => simp [hi] at hnone
      | some id => simp [hlt]
  · rename_i hne
    have hreq : b.reqIds ≠ [] := by
      rintro hnil
      have hlength := hholes.length_eq h.rows.inverse
      rw [hnil, length_nil] at hlength
      exact hne (by simpa using List.length_eq_zero_iff.mp (by omega : sorted.length = 0))
    split at hrun
    · rename_i hzero
      cases hrun
      have hbeyond : ∀ i, 0 ≤ i → ∀ id, b.reqIds[i]? ≠ some (some id) := by
        intro i _ id hid
        have hmem := mem_of_lookup ((h.rows.inverse.lookup id i).mpr hid)
        rw [List.length_eq_zero_iff.mp hzero] at hmem
        cases hmem
      refine ⟨hrows.trim hbeyond, fun i => by simp, .tail (.single hevent) ?_⟩
      exact .trim (n := 0) hbeyond
    · obtain ⟨b₁, hloop, rfl⟩ := map_eq_ok hrun
      have hlength := hholes.length_eq h.rows.inverse
      have hlast : b.numReqs + sorted.length - 1 = b.reqIds.length - 1 := by
        rw [hlength]
        rfl
      rw [hlast] at hloop
      obtain ⟨hrows₁, ⟨n, hn⟩, hevents⟩ := condenseLoop_spec hrows (hholes.condensing hsorted hreq) rfl rfl hloop
      have hcount : b₁.reqIdToIndex.length = n := hrows₁.inverse.length_eq hn
      have hnum : b.numReqs = n := by
        have hkeys : b.reqIdToIndex.map Prod.fst ~ b₁.reqIdToIndex.map Prod.fst := by
          rw [perm_ext_iff_of_nodup h.rows.inverse.nodup hrows₁.inverse.nodup]
          intro id
          rw [← lookup_isSome, ← lookup_isSome, ← h.rows.known, hrows₁.known]
        have := hkeys.length_eq
        rw [length_map, length_map] at this
        exact this.trans hcount
      rw [hnum]
      have hbeyond : ∀ i, n ≤ i → ∀ id, b₁.reqIds[i]? ≠ some (some id) := by
        intro i hle id hid
        exact absurd ((hn i).mp ⟨id, hid⟩) (by omega)
      refine ⟨hrows₁.trim hbeyond, fun i => ?_, .tail (.head hevent hevents) (.trim hbeyond)⟩
      change (∃ id, (b₁.reqIds.take n)[i]? = some (some id)) ↔ i < (b₁.reqIds.take n).length
      constructor
      · rintro ⟨id, hid⟩
        exact lt_of_getElem? hid
      · intro hi
        have hlt : i < n := lt_of_lt_of_le hi (length_take_le n _)
        obtain ⟨id, hid⟩ := (hn i).mpr hlt
        exact ⟨id, by rw [getElem?_take_of_lt hlt, hid]⟩

end InputBatch

end VllmRuntime
