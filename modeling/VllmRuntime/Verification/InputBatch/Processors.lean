import VllmRuntime.Verification.InputBatch.Replay

/-! # The built-in logits processors follow the batch

Each `update_state` is a replay of the log. The count of min-p entries is right as long as no non-zero
`min_p` is rounded to zero. -/

namespace VllmRuntime

open List

variable {γ τ : Type}

/-! ## Min-p -/

namespace MinPLogitsProcessor

variable {float32 : ℚ → ℚ} {p : MinPLogitsProcessor}

/-- The count is the number of entries that are not zero. -/
def Counted (p : MinPLogitsProcessor) : Prop :=
  ∃ support : Finset ℕ, (∀ i, i ∈ support ↔ p.minPCpu i ≠ 0) ∧ p.minPCount = support.card

lemma Counted.minPCount_eq {n : ℕ} (h : p.Counted) (hbeyond : ∀ i, n ≤ i → p.minPCpu i = 0) :
    p.minPCount = ((range n).countP fun i => p.minPCpu i ≠ 0) := by
  obtain ⟨support, hmem, hcount⟩ := h
  have hsupport : support = ((range n).filter fun i => p.minPCpu i ≠ 0).toFinset := by
    ext i
    rw [hmem, mem_toFinset, mem_filter, mem_range, decide_eq_true_eq, iff_and_self]
    intro hne
    exact Nat.lt_of_not_le fun hle => hne (hbeyond i hle)
  rw [hcount, hsupport, toFinset_card_of_nodup (nodup_range.filter _), countP_eq_length_filter]

/-- 1 for an entry that counts. -/
def weight (minP : ℚ) : ℤ := if minP = 0 then 0 else 1

lemma Counted.update (h : p.Counted) (i : ℕ) (minP : ℚ) :
    Counted { minPCpu := Function.update p.minPCpu i minP
              minPCount := p.minPCount - weight (p.minPCpu i) + weight minP } := by
  obtain ⟨support, hmem, hcount⟩ := h
  have herase : p.minPCount - weight (p.minPCpu i) = (support.erase i).card := by
    unfold weight
    split
    · rename_i hzero
      rw [Finset.erase_eq_of_notMem (by simp [hmem, hzero]), hcount, sub_zero]
    · rename_i hne
      have hi := (hmem i).mpr hne
      have hpos := Finset.card_pos.mpr ⟨i, hi⟩
      rw [Finset.card_erase_of_mem hi, hcount]
      omega
  rw [herase]
  by_cases hzero : minP = 0
  · refine ⟨support.erase i, fun j => ?_, by simp [weight, hzero]⟩
    rw [Finset.mem_erase, hmem]
    by_cases hj : j = i
    · simp [hj, hzero]
    · simp [hj]
  · refine ⟨insert i (support.erase i), fun j => ?_, ?_⟩
    · rw [Finset.mem_insert, Finset.mem_erase, hmem]
      by_cases hj : j = i
      · simp [hj, hzero]
      · simp [hj]
    · rw [Finset.card_insert_of_notMem (by simp)]
      simp [weight, hzero]

lemma Counted.addRequest (h : p.Counted) (hzero : float32 0 = 0) {added : AddedRequest}
    (hround : added.params.minP ≠ 0 → float32 added.params.minP ≠ 0) :
    (p.addRequest float32 added).Counted ∧ (p.addRequest float32 added).minPCpu =
      Function.update p.minPCpu added.index (float32 added.params.minP) := by
  have hiff : float32 added.params.minP = 0 ↔ added.params.minP = 0 :=
    ⟨fun h => by_contra fun hne => hround hne h, fun h => by rw [h, hzero]⟩
  unfold MinPLogitsProcessor.addRequest
  dsimp only
  split
  · rename_i hne
    have hcounted := h.update added.index (float32 added.params.minP)
    refine ⟨?_, rfl⟩
    convert hcounted using 2
    unfold weight
    by_cases hparam : added.params.minP = 0 <;> by_cases hbefore : p.minPCpu added.index = 0 <;>
      simp [hparam, hbefore, hiff, hzero]
  · rename_i heq
    rw [not_not] at heq
    refine ⟨h, ?_⟩
    rw [← heq, Function.update_eq_self]

lemma Counted.removeRequest (h : p.Counted) (index : ℕ) :
    (p.removeRequest index).Counted ∧
      (p.removeRequest index).minPCpu = Function.update p.minPCpu index 0 := by
  unfold MinPLogitsProcessor.removeRequest
  split
  · rename_i hne
    refine ⟨?_, rfl⟩
    convert h.update index 0 using 2
    simp [weight, hne]
  · rename_i heq
    rw [not_not] at heq
    refine ⟨h, ?_⟩
    rw [← heq, Function.update_eq_self]

lemma moveValue_swap (values : ℕ → ℚ) (adx bdx : ℕ) :
    moveValue 0 values (adx, bdx, .swap) =
      Function.update (Function.update values bdx (values adx)) adx (values bdx) := by
  funext i
  simp only [moveValue, Function.comp]
  by_cases hia : i = adx
  · rw [hia, Equiv.swap_apply_left, Function.update_self]
  · rw [Function.update_of_ne hia]
    by_cases hib : i = bdx
    · rw [hib, Equiv.swap_apply_right, Function.update_self]
    · rw [Function.update_of_ne hib, Equiv.swap_apply_of_ne_of_ne hia hib]

/-- A move and a swap are two updates; the count only loses the entry that a move overwrites. -/
lemma Counted.moveRequest (h : p.Counted) (move : ℕ × ℕ × MoveDirectionality) :
    (p.moveRequest move).Counted ∧ (p.moveRequest move).minPCpu = moveValue 0 p.minPCpu move := by
  obtain ⟨adx, bdx, direct⟩ := move
  have hself : Function.update p.minPCpu bdx (p.minPCpu adx) adx = p.minPCpu adx := by
    by_cases hab : adx = bdx
    · rw [hab, Function.update_self]
    · rw [Function.update_of_ne hab]
  have hsame : p.minPCpu adx = p.minPCpu bdx →
      Function.update p.minPCpu bdx (p.minPCpu adx) = p.minPCpu := by
    intro heq
    rw [heq, Function.update_eq_self]
  cases direct with
  | unidirectional =>
    have hfirst : (if p.minPCpu adx ≠ p.minPCpu bdx then
        { p with minPCpu := Function.update p.minPCpu bdx (p.minPCpu adx) } else p) =
          { p with minPCpu := Function.update p.minPCpu bdx (p.minPCpu adx) } := by
      split
      · rfl
      · rename_i hab
        rw [hsame (not_not.mp hab)]
    have hmove : p.moveRequest (adx, bdx, .unidirectional) =
        { minPCpu := Function.update (Function.update p.minPCpu bdx (p.minPCpu adx)) adx 0
          minPCount := p.minPCount - weight (p.minPCpu bdx) } := by
      simp only [MinPLogitsProcessor.moveRequest, reduceCtorEq, if_false, if_true]
      rw [hfirst]
      congr 1
      · unfold weight
        split <;> simp_all
      · split
        · rfl
        · rename_i ha
          have hupdate := Function.update_eq_self adx (Function.update p.minPCpu bdx (p.minPCpu adx))
          rw [hself, not_not.mp ha] at hupdate
          rw [not_not.mp ha]
          exact hupdate.symm
    rw [hmove]
    refine ⟨?_, rfl⟩
    have hcounted := (h.update bdx (p.minPCpu adx)).update adx 0
    dsimp only at hcounted
    rw [hself] at hcounted
    convert hcounted using 2
    simp [weight]
  | swap =>
    have hswap : p.moveRequest (adx, bdx, .swap) =
        { p with minPCpu := moveValue 0 p.minPCpu (adx, bdx, .swap) } := by
      rw [moveValue_swap]
      simp only [MinPLogitsProcessor.moveRequest, reduceCtorEq, if_false, if_true]
      by_cases hab : p.minPCpu adx = p.minPCpu bdx
      · rw [if_neg (not_not.mpr hab), hsame hab, ← hab, Function.update_eq_self]
      · rw [if_pos hab]
    rw [hswap]
    refine ⟨?_, rfl⟩
    have hcounted := (h.update bdx (p.minPCpu adx)).update adx (p.minPCpu bdx)
    dsimp only at hcounted
    rw [hself] at hcounted
    rw [moveValue_swap]
    convert hcounted using 2
    ring

/-- `update_state` is a replay of the log. -/
lemma updateState_eq (h : p.Counted) (hzero : float32 0 = 0) {builder : BatchUpdateBuilder}
    (hround : ∀ added ∈ builder.added, added.params.minP ≠ 0 → float32 added.params.minP ≠ 0) :
    (p.updateState float32 builder.batchUpdate).Counted ∧
      (p.updateState float32 builder.batchUpdate).minPCpu =
        replayLog (fun added => float32 added.params.minP) 0 builder p.minPCpu := by
  have hadded : ∀ (added : List AddedRequest) (p : MinPLogitsProcessor), p.Counted →
      (∀ a ∈ added, a.params.minP ≠ 0 → float32 a.params.minP ≠ 0) →
        (added.foldl (MinPLogitsProcessor.addRequest float32) p).Counted ∧
          (added.foldl (MinPLogitsProcessor.addRequest float32) p).minPCpu =
            added.foldl (fun values added => Function.update values added.index
              (float32 added.params.minP)) p.minPCpu := by
    intro added
    induction added with
    | nil => exact fun p hp _ => ⟨hp, rfl⟩
    | cons a added ih =>
      intro p hp hround
      rw [forall_mem_cons] at hround
      obtain ⟨hcounted, hcpu⟩ := hp.addRequest hzero hround.1
      obtain ⟨hcounted', hcpu'⟩ := ih _ hcounted hround.2
      exact ⟨hcounted', by rw [foldl_cons, hcpu', hcpu, foldl_cons]⟩
  have hremoved : ∀ (removed : List ℕ) (p : MinPLogitsProcessor), p.Counted →
      (removed.foldl MinPLogitsProcessor.removeRequest p).Counted ∧
        (removed.foldl MinPLogitsProcessor.removeRequest p).minPCpu =
          removed.foldl (fun values index => Function.update values index 0) p.minPCpu := by
    intro removed
    induction removed with
    | nil => exact fun p hp => ⟨hp, rfl⟩
    | cons index removed ih =>
      intro p hp
      obtain ⟨hcounted, hcpu⟩ := hp.removeRequest index
      obtain ⟨hcounted', hcpu'⟩ := ih _ hcounted
      exact ⟨hcounted', by rw [foldl_cons, hcpu', hcpu, foldl_cons]⟩
  have hmoved : ∀ (moved : List (ℕ × ℕ × MoveDirectionality)) (p : MinPLogitsProcessor), p.Counted →
      (moved.foldl MinPLogitsProcessor.moveRequest p).Counted ∧
        (moved.foldl MinPLogitsProcessor.moveRequest p).minPCpu = moved.foldl (moveValue 0) p.minPCpu := by
    intro moved
    induction moved with
    | nil => exact fun p hp => ⟨hp, rfl⟩
    | cons move moved ih =>
      intro p hp
      obtain ⟨hcounted, hcpu⟩ := hp.moveRequest move
      obtain ⟨hcounted', hcpu'⟩ := ih _ hcounted
      exact ⟨hcounted', by rw [foldl_cons, hcpu', hcpu, foldl_cons]⟩
  unfold BatchUpdateBuilder.batchUpdate
  split
  · rename_i hempty
    simp only [List.isEmpty_iff] at hempty
    refine ⟨h, ?_⟩
    simp [replayLog, updateState, hempty]
  · obtain ⟨hcounted, hcpu⟩ := hadded builder.added p h hround
    unfold updateState
    dsimp only
    split
    · obtain ⟨hcounted₁, hcpu₁⟩ := hremoved builder.removed _ hcounted
      obtain ⟨hcounted₂, hcpu₂⟩ := hmoved builder.moved _ hcounted₁
      exact ⟨hcounted₂, by rw [hcpu₂, hcpu₁, hcpu]; rfl⟩
    · -- without an entry there is nothing to remove or to move
      rename_i hcount
      rw [not_not] at hcount
      refine ⟨hcounted, ?_⟩
      have hnone : (builder.added.foldl (MinPLogitsProcessor.addRequest float32) p).minPCpu = fun _ => 0 := by
        obtain ⟨support, hmem, hcard⟩ := hcounted
        have hsupport : support = ∅ := by
          rw [← Finset.card_eq_zero]
          omega
        funext i
        have := (hmem i).not.mp (by simp [hsupport])
        rwa [not_not] at this
      rw [hnone]
      rw [hnone] at hcpu
      simp only [replayLog, ← hcpu, replayLog_default]

end MinPLogitsProcessor

/-! ## Processors with a dictionary -/

section Entries

variable {entries : OrderedDict ℕ τ} {newState : AddedRequest → Option τ}

lemma lookup_addEntry (entries : OrderedDict ℕ τ) (added : AddedRequest) :
    (fun i => (addEntry newState entries added).lookup i) =
      Function.update (fun i => entries.lookup i) added.index (newState added) := by
  funext i
  unfold addEntry
  rw [Function.update_apply]
  cases newState added with
  | none => rw [lookup_dictPop]
  | some state => rw [lookup_dictSet]

lemma lookup_moveEntry (entries : OrderedDict ℕ τ) {move : ℕ × ℕ × MoveDirectionality}
    (hmove : move.2.2 = .unidirectional → move.1 ≠ move.2.1) :
    (fun i => (moveEntry entries move).lookup i) = moveValue none (fun i => entries.lookup i) move := by
  obtain ⟨a, b, direct⟩ := move
  funext i
  cases direct with
  | unidirectional =>
    have hab : a ≠ b := hmove rfl
    simp only [moveEntry, moveValue, reduceCtorEq, if_false, Function.update_apply]
    cases (dictPop entries a).lookup b <;> cases ha : entries.lookup a <;>
      simp only [lookup_dictSet, lookup_dictPop] <;> by_cases hib : i = b <;>
        simp [hib, Ne.symm hab]
  | swap =>
    simp only [moveEntry, moveValue, if_true, Function.comp, lookup_dictPop]
    by_cases hab : b = a
    · subst hab
      rw [if_pos rfl, Equiv.swap_self, Equiv.refl_apply]
      cases hb : entries.lookup b with
      | none =>
        simp only [lookup_dictPop]
        by_cases hi : i = b
        · simp [hi, hb]
        · simp [hi]
      | some bEntry =>
        simp only [lookup_dictSet, lookup_dictPop]
        by_cases hi : i = b
        · simp [hi, hb]
        · simp [hi]
    · rw [if_neg hab]
      by_cases hia : i = a
      · subst hia
        rw [Equiv.swap_apply_left]
        cases entries.lookup i <;> cases entries.lookup b <;>
          simp [lookup_dictSet, lookup_dictPop, Ne.symm hab]
      · by_cases hib : i = b
        · subst hib
          rw [Equiv.swap_apply_right]
          cases entries.lookup a <;> cases entries.lookup i <;>
            simp [lookup_dictSet, lookup_dictPop, hia]
        · rw [Equiv.swap_apply_of_ne_of_ne hia hib]
          cases entries.lookup a <;> cases entries.lookup b <;>
            simp [lookup_dictSet, lookup_dictPop, hia, hib]

/-- `process_dict_updates` is a replay of the log. -/
lemma lookup_processDictUpdates {builder : BatchUpdateBuilder}
    (hmoved : ∀ move ∈ builder.moved, move.2.2 = .unidirectional → move.1 ≠ move.2.1) :
    (fun i => (processDictUpdates entries newState builder.batchUpdate).lookup i) =
      replayLog newState none builder fun i => entries.lookup i := by
  have hadded : ∀ (added : List AddedRequest) (entries : OrderedDict ℕ τ),
      (fun i => (added.foldl (addEntry newState) entries).lookup i) =
        added.foldl (fun values added => Function.update values added.index (newState added))
          fun i => entries.lookup i := by
    intro added
    induction added with
    | nil => exact fun _ => rfl
    | cons a added ih =>
      intro entries
      rw [foldl_cons, ih, lookup_addEntry, foldl_cons]
  have hremoved : ∀ (removed : List ℕ) (entries : OrderedDict ℕ τ),
      (fun i => (removed.foldl dictPop entries).lookup i) =
        removed.foldl (fun values index => Function.update values index none) fun i => entries.lookup i := by
    intro removed
    induction removed with
    | nil => exact fun _ => rfl
    | cons index removed ih =>
      intro entries
      have hpop : (fun i => (dictPop entries index).lookup i) =
          Function.update (fun i => entries.lookup i) index none := by
        funext i
        rw [lookup_dictPop, Function.update_apply]
      rw [foldl_cons, ih, hpop, foldl_cons]
  have hmoves : ∀ (moved : List (ℕ × ℕ × MoveDirectionality)) (entries : OrderedDict ℕ τ),
      (∀ move ∈ moved, move.2.2 = .unidirectional → move.1 ≠ move.2.1) →
        (fun i => (moved.foldl moveEntry entries).lookup i) =
          moved.foldl (moveValue none) fun i => entries.lookup i := by
    intro moved
    induction moved with
    | nil => exact fun _ _ => rfl
    | cons move moved ih =>
      intro entries hmoved
      rw [forall_mem_cons] at hmoved
      rw [foldl_cons, ih _ hmoved.2, lookup_moveEntry entries hmoved.1, foldl_cons]
  unfold BatchUpdateBuilder.batchUpdate
  split
  · rename_i hempty
    simp only [List.isEmpty_iff] at hempty
    simp [replayLog, processDictUpdates, hempty]
  · unfold processDictUpdates
    dsimp only
    split
    · rename_i hnil
      have hnone := hadded builder.added entries
      rw [List.isEmpty_iff.mp hnil] at hnone ⊢
      simp only [replayLog, ← hnone, lookup_nil, replayLog_default]
    · rw [hmoves _ _ hmoved, hremoved, hadded]
      rfl

lemma nodup_processDictUpdates {update : Option BatchUpdate} (h : (entries.map Prod.fst).Nodup) :
    ((processDictUpdates entries newState update).map Prod.fst).Nodup := by
  cases update with
  | none => exact h
  | some update =>
    have hadded : ((update.added.foldl (addEntry newState) entries).map Prod.fst).Nodup := by
      refine foldlRecOn (motive := fun d : OrderedDict ℕ τ => (d.map Prod.fst).Nodup) _ _ h
        fun entries h a _ => ?_
      unfold addEntry
      cases newState a with
      | none => exact nodup_dictPop h
      | some state => exact nodup_dictSet h
    unfold processDictUpdates
    dsimp only
    split
    · exact hadded
    · have hremoved : ((update.removed.foldl dictPop (update.added.foldl (addEntry newState) entries)).map
          Prod.fst).Nodup :=
        foldlRecOn (motive := fun d : OrderedDict ℕ τ => (d.map Prod.fst).Nodup) _ _ hadded
          fun _ h _ _ => nodup_dictPop h
      refine foldlRecOn (motive := fun d : OrderedDict ℕ τ => (d.map Prod.fst).Nodup) _ _ hremoved
        fun entries h move _ => ?_
      have hpopped : ((dictPop (dictPop entries move.1) move.2.1).map Prod.fst).Nodup :=
        nodup_dictPop (nodup_dictPop h)
      have hback {d : OrderedDict ℕ τ} (bEntry : Option τ) (hd : (d.map Prod.fst).Nodup) :
          ((bEntry.elim d fun bEntry => if move.2.2 = .swap then dictSet d move.1 bEntry else d).map
            Prod.fst).Nodup := by
        cases bEntry with
        | none => exact hd
        | some bEntry =>
          rw [Option.elim_some]
          split
          · exact nodup_dictSet hd
          · exact hd
      unfold moveEntry
      dsimp only
      cases entries.lookup move.1 with
      | none =>
        cases hb : (dictPop entries move.1).lookup move.2.1 with
        | none => exact hpopped
        | some bEntry => exact hback (some bEntry) hpopped
      | some aEntry =>
        cases hb : (dictPop entries move.1).lookup move.2.1 with
        | none => exact nodup_dictSet hpopped
        | some bEntry => exact hback (some bEntry) (nodup_dictSet hpopped)

lemma lookup_filter_snd {d : OrderedDict ℕ τ} (hnodup : (d.map Prod.fst).Nodup) (p : τ → Bool) (i : ℕ) :
    (d.filter fun entry => p entry.2).lookup i = (d.lookup i).filter p := by
  cases hfilter : (d.lookup i).filter p with
  | some v =>
    obtain ⟨hlookup, hp⟩ := Option.filter_eq_some_iff.mp hfilter
    exact lookup_of_mem (hnodup.sublist (filter_sublist.map _)) (mem_filter.mpr ⟨mem_of_lookup hlookup, hp⟩)
  | none =>
    refine lookup_eq_none.mpr fun hmem => ?_
    obtain ⟨⟨_, v⟩, hentry, rfl⟩ := mem_map.mp hmem
    obtain ⟨hin, hp⟩ := mem_filter.mp hentry
    rw [lookup_of_mem hnodup hin, Option.filter_some, if_pos hp] at hfilter
    cases hfilter

end Entries

/-! ## Runs -/

/-- An entry of `min_toks` of a request. -/
def LogitsProcessors.minTokensOf (length : ℕ → ℕ) (request : CachedRequestState γ) : Option MinTokens :=
  if length request.outputList < request.samplingParams.minTokens then
    some ⟨request.samplingParams.minTokens, request.outputList, request.samplingParams.allStopTokenIds⟩
  else none

def LogitsProcessors.logitBiasOf (request : CachedRequestState γ) : Option (OrderedDict ℕ ℚ) :=
  if request.samplingParams.logitBias = [] then none else some request.samplingParams.logitBias

/-- The states of the processors, computed from scratch for a batch. -/
structure LogitsProcessors.Exact (config : InputBatchConfig) (length : ℕ → ℕ) (p : LogitsProcessors)
    (b : InputBatch γ) (requests : BatchRequests γ) : Prop where
  minP : ∀ i, p.minP.minPCpu i = ((b.slots requests).content i).elim 0
    fun request => config.float32 request.samplingParams.minP
  minP_beyond : ∀ i, b.numReqs ≤ i → p.minP.minPCpu i = 0
  minPCount : p.minP.minPCount = ((List.range b.numReqs).countP fun i => p.minP.minPCpu i ≠ 0)
  biases : ∀ i, p.biases.lookup i = ((b.slots requests).content i).bind logitBiasOf
  minToks : ∀ i, p.minToks.lookup i = ((b.slots requests).content i).bind (minTokensOf length)

/-- The batch with its processors and the lengths of the lists of output tokens. -/
structure ProcessedBatch (γ : Type) where
  tracked : TrackedBatch γ
  processors : LogitsProcessors := {}
  length : ℕ → ℕ := fun _ => 0

/-- A step, before which each list has got some tokens more. -/
structure ProcessedStep (γ : Type) where
  step : BatchStep γ
  grown : ℕ → ℕ := fun _ => 0

namespace ProcessedStep

variable {config : InputBatchConfig} {tables : List BlockTable}

def length (call : ProcessedStep γ) (s : ProcessedBatch γ) : ℕ → ℕ :=
  fun list => s.length list + call.grown list

def run (config : InputBatchConfig) (call : ProcessedStep γ) (s : ProcessedBatch γ) :
    Except PyError (ProcessedBatch γ) := do
  let batch ← call.step.change config s.tracked.batch
  let update := batch.batchUpdateBuilder.batchUpdate
  return {
    tracked := call.step.finish batch s.tracked.requests
    processors := s.processors.updateState config.float32 (call.length s) update
    length := call.length s }

/-- The steps of the model runner; the output tokens of a request are those of its list. -/
structure Allowed (config : InputBatchConfig) (tables : List BlockTable) (s : ProcessedBatch γ)
    (call : ProcessedStep γ) : Prop where
  step : call.step.Allowed config tables s.tracked
  outputs : ∀ request ∈ call.step.added, request.outputTokenIds.length = call.length s request.outputList

/-- No `min_p` of an added request is lost in the rounding. -/
def KeepsMinP (config : InputBatchConfig) (call : ProcessedStep γ) : Prop :=
  ∀ request ∈ call.step.added,
    request.samplingParams.minP ≠ 0 → config.float32 request.samplingParams.minP ≠ 0

end ProcessedStep

namespace LogitsProcessors

variable {config : InputBatchConfig} {tables : List BlockTable} {b : InputBatch γ}
  {requests : BatchRequests γ} {V : Type} {s : ProcessedBatch γ} {call : ProcessedStep γ}

/-- Between two steps the log is empty. -/
lemma logged_of_settled (value : AddedRequest → V) {default : V} {worth : CachedRequestState γ → V}
    {values : ℕ → V} (h : InputBatch.Settled config tables b requests)
    (hvalues : ∀ i, values i = ((b.slots requests).content i).elim default worth) :
    Logged value default worth values (b.slots requests) := by
  refine ⟨fun i => ?_, fun i j id hi hj => ?_, fun i id hi => ?_, ?_, ?_, ?_⟩
  · simp only [InputBatch.slots, replayLog, h.added, h.removed, h.moved, foldl_nil]
    exact hvalues i
  · have hi' := (h.rows.inverse.lookup id i).mpr hi
    rw [(h.rows.inverse.lookup id j).mpr hj] at hi'
    exact (Option.some.inj hi').symm
  · exact (h.rows.known id).mpr (by rw [(h.rows.inverse.lookup id i).mpr hi]; rfl)
  · simp [InputBatch.slots, h.removed]
  · simp [InputBatch.slots, h.removed]
  · simp [InputBatch.slots, h.moved]

/-- The invariant between two steps. -/
structure Follows (config : InputBatchConfig) (tables : List BlockTable) (s : ProcessedBatch γ) : Prop where
  settled : InputBatch.Settled config tables s.tracked.batch s.tracked.requests
  counted : s.processors.minP.Counted
  nodup : (s.processors.minToks.map Prod.fst).Nodup
  minP : ∀ i, s.processors.minP.minPCpu i = ((s.tracked.batch.slots s.tracked.requests).content i).elim 0
    fun request => config.float32 request.samplingParams.minP
  biases : ∀ i, s.processors.biases.lookup i =
    ((s.tracked.batch.slots s.tracked.requests).content i).elim none logitBiasOf
  minToks : ∀ i, s.processors.minToks.lookup i =
    ((s.tracked.batch.slots s.tracked.requests).content i).elim none (minTokensOf s.length)

lemma Follows.exact (h : Follows config tables s) :
    s.processors.Exact config s.length s.tracked.batch s.tracked.requests := by
  have hlength := h.settled.consistent.length_eq
  have hbeyond : ∀ i, s.tracked.batch.numReqs ≤ i → s.processors.minP.minPCpu i = 0 := by
    intro i hi
    rw [h.minP, SlotState.content_of_none fun id hid => ?_]
    · rfl
    · have hlt := lt_of_getElem? hid
      change i < s.tracked.batch.reqIds.length at hlt
      omega
  have helim : ∀ {α : Type} (x : Option (CachedRequestState γ)) (f : CachedRequestState γ → Option α),
      x.elim none f = x.bind f := by
    intro α x f
    cases x <;> rfl
  refine ⟨h.minP, hbeyond, h.counted.minPCount_eq hbeyond, fun i => ?_, fun i => ?_⟩
  · rw [h.biases, helim]
  · rw [h.minToks, helim]

lemma addRequest_eq (length : ℕ → ℕ) (request : CachedRequestState γ) (idx : ℕ) :
    MinTokens.addRequest length
      ⟨idx, request.samplingParams, request.promptTokenIds, request.outputList⟩ =
        minTokensOf length request := by
  unfold MinTokens.addRequest minTokensOf
  dsimp only
  by_cases hlt : length request.outputList < request.samplingParams.minTokens
  · rw [if_pos hlt, if_neg (by omega)]
  · rw [if_neg hlt, if_pos (by omega)]

/-- The entries of the requests that have not reached their minimum yet. -/
def unreached (length : ℕ → ℕ) (entry : Option MinTokens) : Option MinTokens :=
  entry.filter fun entry => length entry.outputList < entry.minTokens

/-- The lists only grow, so that an entry that was dropped does not come back. -/
lemma reached_minToks (h : Follows config tables s) (call : ProcessedStep γ) (i : ℕ) :
    unreached (call.length s) (s.processors.minToks.lookup i) =
      ((s.tracked.batch.slots s.tracked.requests).content i).elim none (minTokensOf (call.length s)) := by
  rw [h.minToks]
  cases (s.tracked.batch.slots s.tracked.requests).content i with
  | none => rfl
  | some request =>
    have hgrown : s.length request.outputList ≤ call.length s request.outputList := Nat.le_add_right _ _
    simp only [Option.elim_some, minTokensOf]
    by_cases hlt : s.length request.outputList < request.samplingParams.minTokens
    · rw [if_pos hlt]
      by_cases hlt' : call.length s request.outputList < request.samplingParams.minTokens
      · simp [unreached, Option.filter, hlt']
      · simp [unreached, Option.filter, hlt']
    · rw [if_neg hlt, if_neg (by omega)]
      rfl

/-- `MinTokensLogitsProcessor.update_state` is a replay of the log on the entries that are left. -/
lemma lookup_updateState {minToks : OrderedDict ℕ MinTokens} {length : ℕ → ℕ}
    {builder : BatchUpdateBuilder}
    (hmoved : ∀ move ∈ builder.moved, move.2.2 = .unidirectional → move.1 ≠ move.2.1)
    (hnodup : (minToks.map Prod.fst).Nodup) (i : ℕ) :
    (MinTokens.updateState length minToks builder.batchUpdate).lookup i =
      replayLog (MinTokens.addRequest length) none builder (fun i => unreached length (minToks.lookup i)) i := by
  have hvalue : unreached length ∘ MinTokens.addRequest length = MinTokens.addRequest length := by
    funext added
    simp only [Function.comp, MinTokens.addRequest]
    split
    · rfl
    · rename_i hnot
      have hlt : length added.outputList < added.params.minTokens := by omega
      simp [unreached, Option.filter, hlt]
  have hreplay := congrFun (map_replayLog (unreached length) (MinTokens.addRequest length) none builder
    fun i => minToks.lookup i) i
  rw [hvalue] at hreplay
  unfold MinTokens.updateState
  rw [lookup_filter_snd (nodup_processDictUpdates hnodup) (fun entry : MinTokens =>
    decide (length entry.outputList < entry.minTokens))]
  rw [congrFun (lookup_processDictUpdates hmoved) i]
  exact hreplay

lemma Follows.step {s' : ProcessedBatch γ} (h : Follows config tables s) (hzero : config.float32 0 = 0)
    (hallowed : call.Allowed config tables s) (hkeeps : call.KeepsMinP config)
    (hrun : call.run config s = .ok s') : Follows config tables s' := by
  obtain ⟨batch, hbatch, rfl⟩ := map_eq_ok hrun
  obtain ⟨hsettled, hevents⟩ := h.settled.step hallowed.step hbatch
  have hminP := (logged_of_settled (fun added => config.float32 added.params.minP) h.settled
    h.minP).events (fun _ _ => rfl) hevents
  have hbiases := (logged_of_settled logitBiasState h.settled h.biases).events
    (fun request idx => by simp [logitBiasState, logitBiasOf]) hevents
  have hminToks := (logged_of_settled (MinTokens.addRequest (call.length s)) h.settled
    (reached_minToks h call)).events (fun request idx => addRequest_eq _ request idx) hevents
  have hround := forall_added_of_events
    (Q := fun added => added.params.minP ≠ 0 → config.float32 added.params.minP ≠ 0)
    (fun request _ hmem => hkeeps request hmem) (by simp [InputBatch.slots, h.settled.added]) hevents
  have hmoved : ∀ move ∈ batch.batchUpdateBuilder.moved,
      move.2.2 = .unidirectional → move.1 ≠ move.2.1 := fun move hmove => (hminP.moved move hmove).2.2
  obtain ⟨hcounted, hcpu⟩ := MinPLogitsProcessor.updateState_eq h.counted hzero hround
  have hnodup : ((processDictUpdates s.processors.minToks (MinTokens.addRequest (call.length s))
      batch.batchUpdateBuilder.batchUpdate).map Prod.fst).Nodup := nodup_processDictUpdates h.nodup
  -- The numbers of accepted tokens do not change which request is where.
  have hcontent (i : ℕ) : (batch.slots (call.step.requests s.tracked.requests)).content i =
      ((call.step.finish batch s.tracked.requests).batch.slots
        (call.step.finish batch s.tracked.requests).requests).content i :=
    SlotState.content_congr rfl fun id _ => by
      simp only [BatchStep.finish, InputBatch.slots, BatchRequests.accept, BatchRequests.write, Option.map_map]
      rfl
  refine ⟨hsettled.accept _, hcounted, hnodup.sublist ((filter_sublist).map _), fun i => ?_, fun i => ?_,
    fun i => ?_⟩
  · exact ((congrFun hcpu i).trans (hminP.content i)).trans (congrArg (Option.elim · 0 _) (hcontent i))
  · exact ((congrFun (lookup_processDictUpdates hmoved) i).trans (hbiases.content i)).trans
      (congrArg (Option.elim · none _) (hcontent i))
  · exact ((lookup_updateState hmoved h.nodup i).trans (hminToks.content i)).trans
      (congrArg (Option.elim · none _) (hcontent i))

/-- A new batch, with lists of output tokens of any lengths. -/
def start (config : InputBatchConfig) (tables : List BlockTable) (temperature topP frequencyPenalties
    presencePenalties repetitionPenalties : ℕ → ℚ) (topK : ℕ → ℤ) (length : ℕ → ℕ) : ProcessedBatch γ where
  tracked := ⟨InputBatch.new config tables temperature topP frequencyPenalties presencePenalties
    repetitionPenalties topK, fun _ => none⟩
  length := length

/-- In every run in which no `min_p` is lost in the rounding to `float32`, the states of the processors
after each step are those computed from scratch. -/
theorem exact_of_reaches {temperature topP frequencyPenalties presencePenalties
    repetitionPenalties : ℕ → ℚ} {topK : ℕ → ℤ} {length : ℕ → ℕ} {s : ProcessedBatch γ}
    (hzero : config.float32 0 = 0)
    (h : Reaches (ProcessedStep.run config)
      (fun s call => call.Allowed config tables s ∧ call.KeepsMinP config)
      (start config tables temperature topP frequencyPenalties presencePenalties repetitionPenalties topK
        length) s) :
    s.processors.Exact config s.length s.tracked.batch s.tracked.requests := by
  have hstart : Follows config tables (start config tables temperature topP frequencyPenalties
      presencePenalties repetitionPenalties topK length : ProcessedBatch γ) := by
    have hnone : ∀ i, ((InputBatch.new config tables temperature topP frequencyPenalties
        presencePenalties repetitionPenalties topK : InputBatch γ).slots fun _ => none).content i = none :=
      fun i => SlotState.content_of_none fun id hid => by simp [InputBatch.slots, InputBatch.new] at hid
    refine ⟨.new _ _ _ _ _ _, ⟨∅, fun i => by simp [start], rfl⟩, nodup_nil, fun i => ?_, fun i => ?_,
      fun i => ?_⟩
    all_goals
      simp only [start]
      rw [hnone]
      rfl
  exact (h.invariant hstart fun s call s' hfollows hallowed hrun =>
    hfollows.step hzero hallowed.1 hallowed.2 hrun).exact

/-! ## A small min-p -/

/-- A request with a prompt of one token and a `min_p`. -/
def minPRequest (reqId : String) (minP : ℚ) (minTokens : ℕ) : CachedRequestState ℕ where
  reqId := reqId
  promptTokenIds := some [1]
  samplingParams :=
    ⟨.random, 1, 1, 0, 0, 0, 1, none, [], [], minP, [(3, 1)], minTokens, [2]⟩
  blockIds := [[1]]
  numComputedTokens := 0
  numPromptTokens := 1
  numPromptTokens_eq := rfl
  loraIntId_pos := by
    intro lora hlora
    cases hlora

/-- Numbers below half of the least positive `float32` are rounded to zero. -/
def minPConfig : InputBatchConfig where
  maxNumReqs := 4
  maxModelLen := 8
  vocabSize := 16
  float32 := fun x => if |x| < 1 / 2 ^ 150 then 0 else x

def minPTables : List BlockTable := [{ blocksPerKvBlock := 1, maxNumBlocksPerReq := 4 }]

def minPStart : ProcessedBatch ℕ :=
  start minPConfig minPTables (fun _ => 0) (fun _ => 0) (fun _ => 0) (fun _ => 0) (fun _ => 0) (fun _ => 0)
    fun _ => 0

/-- The second request takes the index of the first. -/
def smallMinPSteps : List (ProcessedStep ℕ) :=
  [{ step := { added := [minPRequest "a" (1 / 2) 0] } },
    { step := { removed := ["a"], added := [minPRequest "b" (1 / 10 ^ 50) 0] } }]

def checkCall (config : InputBatchConfig) (tables : List BlockTable) (s : ProcessedBatch γ)
    (call : ProcessedStep γ) : Bool :=
  InputBatch.checkStep config tables s.tracked call.step &&
    call.step.added.all fun request => request.outputTokenIds.length = call.length s request.outputList

lemma allowed_of_checkCall (h : checkCall config tables s call = true) : call.Allowed config tables s := by
  unfold checkCall at h
  rw [Bool.and_eq_true, all_eq_true] at h
  exact ⟨InputBatch.allowed_of_checkStep h.1, fun request hmem => of_decide_eq_true (h.2 request hmem)⟩

/-- The count stays at one although no entry is left. -/
theorem smallMinPSteps_not_exact : ¬∀ s : ProcessedBatch ℕ,
    Reaches (ProcessedStep.run minPConfig) (fun s call => call.Allowed minPConfig minPTables s) minPStart s →
      s.processors.Exact minPConfig s.length s.tracked.batch s.tracked.requests := by
  intro hall
  have hrun : (runChecked (ProcessedStep.run minPConfig) (checkCall minPConfig minPTables) smallMinPSteps
      minPStart).map (fun s => (s.processors.minP.minPCount,
        (List.range s.tracked.batch.numReqs).countP fun i => s.processors.minP.minPCpu i ≠ 0)) =
          some (1, 0) := by
    decide +kernel
  obtain ⟨s, hs, heq⟩ := Option.map_eq_some_iff.mp hrun
  obtain ⟨hcount, hzero⟩ := Prod.mk.inj heq
  have hexact := hall s (Reaches.of_runChecked (fun _ _ => allowed_of_checkCall) .start hs)
  have := hexact.minPCount
  rw [hcount, hzero] at this
  cases this

/-- Two requests with a minimum of tokens; the first leaves after the second has got a token. -/
def keptMinPSteps : List (ProcessedStep ℕ) :=
  [{ step := { added := [minPRequest "a" (1 / 2) 0, { minPRequest "b" (1 / 4) 2 with outputList := 1 }] } },
    { step := { removed := ["a"] }, grown := fun list => if list = 1 then 1 else 0 }]

theorem exact_of_reaches_keptMinPSteps : ∃ s : ProcessedBatch ℕ,
    s.tracked.batch.reqIds = [some "b"] ∧ s.processors.minP.minPCount = 1 ∧
      s.processors.minToks = [(0, ⟨2, 1, [2]⟩)] ∧
      s.processors.Exact minPConfig s.length s.tracked.batch s.tracked.requests := by
  have hrun : (runChecked (ProcessedStep.run minPConfig) (fun s call => checkCall minPConfig minPTables s call &&
      call.step.added.all fun request => request.samplingParams.minP = 0 ∨
        minPConfig.float32 request.samplingParams.minP ≠ 0) keptMinPSteps minPStart).map
      (fun s => (s.tracked.batch.reqIds, s.processors.minP.minPCount, s.processors.minToks)) =
        some ([some "b"], 1, [(0, ⟨2, 1, [2]⟩)]) := by
    decide +kernel
  obtain ⟨s, hs, heq⟩ := Option.map_eq_some_iff.mp hrun
  simp only [Prod.mk.injEq] at heq
  refine ⟨s, heq.1, heq.2.1, heq.2.2, exact_of_reaches (by decide +kernel)
    (Reaches.of_runChecked (fun s call hcheck => ?_) .start hs)⟩
  rw [Bool.and_eq_true, all_eq_true] at hcheck
  refine ⟨allowed_of_checkCall hcheck.1, fun request hmem hne => ?_⟩
  exact (of_decide_eq_true (hcheck.2 request hmem)).resolve_left hne

end LogitsProcessors

end VllmRuntime
