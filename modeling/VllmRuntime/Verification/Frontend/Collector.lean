import VllmRuntime.Verification.Frontend.View

/-! What the outputs of a queue say about one completion: merging an output appends to it. -/

namespace VllmRuntime.Frontend

open List

variable {α : Type}

/-- A part of a completion that merging appends to. -/
def Additive (f : CompletionOutput → List α) : Prop :=
  ∀ completion next : CompletionOutput, f (completion.merge next) = f completion ++ f next

lemma additive_tokenIds : Additive (·.tokenIds) := fun _ _ => rfl

lemma additive_text : Additive (·.text) := fun _ _ => rfl

/-- What a list of completions has for one index. -/
def partAt (f : CompletionOutput → List α) (i : ℕ) (completions : List (Option CompletionOutput)) : List α :=
  completions.flatMap fun completion =>
    (completion.map fun completion => if completion.index = i then f completion else []).getD []

section Merge

variable {f : CompletionOutput → List α} {completions : List CompletionOutput}

lemma partAt_eq_nil {i : ℕ} (h : i ∉ completions.map (·.index)) :
    partAt f i (completions.map some) = [] := by
  induction completions with
  | nil => rfl
  | cons completion completions ih =>
    rw [map_cons, mem_cons, not_or] at h
    have hne : completion.index ≠ i := fun heq => h.1 heq.symm
    have hrest := ih h.2
    simp only [partAt] at hrest
    simp [partAt, hne, hrest]

/-- Merging a completion appends it to what its index had, and keeps the indices distinct. -/
lemma partAt_addCompletion (hf : Additive f) (next : CompletionOutput)
    (hnodup : (completions.map (·.index)).Nodup) (i : ℕ) :
    partAt f i ((addCompletion true next completions).map some) =
      partAt f i (completions.map some) ++ if next.index = i then f next else [] := by
  induction completions with
  | nil => simp [addCompletion, partAt]
  | cons completion completions ih =>
    rw [map_cons, nodup_cons] at hnodup
    rw [addCompletion]
    by_cases hindex : completion.index = next.index
    · rw [if_pos hindex, if_pos rfl]
      by_cases hi : completion.index = i
      · have hrest : partAt f i (completions.map some) = [] := partAt_eq_nil (hi ▸ hnodup.1)
        simp only [partAt] at hrest
        have hmerge : (completion.merge next).index = i := hi
        simp [partAt, hi, ← hindex, hrest, hmerge, hf completion next]
      · have hmerge : (completion.merge next).index ≠ i := hi
        simp [partAt, hi, ← hindex, hmerge]
    · rw [if_neg hindex]
      have hrest := ih hnodup.2
      simp only [partAt] at hrest
      simp only [partAt, map_cons, flatMap_cons, hrest, append_assoc]

lemma map_index_addCompletion (aggregate : Bool) (next : CompletionOutput) (completions : List CompletionOutput) :
    (addCompletion aggregate next completions).map (·.index) =
      if next.index ∈ completions.map (·.index) then completions.map (·.index)
      else completions.map (·.index) ++ [next.index] := by
  induction completions with
  | nil => simp [addCompletion]
  | cons completion completions ih =>
    rw [addCompletion]
    by_cases hindex : completion.index = next.index
    · cases aggregate <;> simp [hindex, CompletionOutput.merge]
    · have hne : ¬next.index = completion.index := fun h => hindex h.symm
      rw [if_neg hindex, map_cons, ih]
      by_cases hmem : next.index ∈ completions.map (·.index)
      · rw [if_pos hmem, map_cons, if_pos (mem_cons_of_mem _ hmem)]
      · rw [if_neg hmem, map_cons, if_neg (by simpa [hne] using hmem), cons_append]

end Merge

namespace RequestOutputCollector

/-- The queue of a request whose outputs have lists of their own, one completion for each index. -/
structure Streams (queue : RequestOutputCollector) : Prop where
  aggregate : queue.aggregate = true
  own : ∀ output, queue.output = some output →
    ∃ completions, output.outputs = .own completions ∧ (completions.map (·.index)).Nodup

/-- The output that is in the queue, as the client would see it. -/
def pending (queue : RequestOutputCollector) (outputAggregator : List (Option CompletionOutput)) :
    List SeenOutput :=
  (queue.output.map (RequestOutput.seen outputAggregator)).toList

/-- An output with one completion is appended to the queue, whatever is in it. -/
lemma Streams.put {queue : RequestOutputCollector} (h : queue.Streams)
    (outputAggregator outputAggregator' : List (Option CompletionOutput)) (completion : CompletionOutput)
    (finished : Bool) :
    ∃ queue', queue.put outputAggregator ⟨.own [completion], finished⟩ = .ok queue' ∧ queue'.Streams ∧
      ∀ (α : Type) (f : CompletionOutput → List α), Additive f → ∀ i,
        (queue'.pending outputAggregator').flatMap (fun output => partAt f i output.outputs) =
          (queue.pending outputAggregator').flatMap (fun output => partAt f i output.outputs) ++
            if completion.index = i then f completion else [] := by
  unfold RequestOutputCollector.put
  cases hout : queue.output with
  | none =>
    refine ⟨_, rfl, ⟨h.aggregate, ?_⟩, ?_⟩
    · rintro _ ⟨rfl⟩
      exact ⟨[completion], rfl, by simp⟩
    · intro α f _ i
      simp [pending, hout, RequestOutput.seen, partAt]
  | some output =>
    obtain ⟨completions, hown, hnodup⟩ := h.own output hout
    have hadd : output.add queue.aggregate outputAggregator ⟨.own [completion], finished⟩ =
        .ok ⟨.own (addCompletion true completion completions), output.finished || finished⟩ := by
      simp [RequestOutput.add, hown, h.aggregate]
    refine ⟨{ queue with
      output := some ⟨.own (addCompletion true completion completions), output.finished || finished⟩ }, ?_, ?_, ?_⟩
    · simp only [hadd]
      rfl
    · refine ⟨h.aggregate, ?_⟩
      rintro _ ⟨rfl⟩
      refine ⟨_, rfl, ?_⟩
      rw [map_index_addCompletion]
      split
      · exact hnodup
      · rename_i hmem
        simpa [nodup_append, hnodup] using hmem
    · intro α f hf i
      have hpart := partAt_addCompletion hf completion hnodup i
      simp only [pending, hout, Option.map_some, Option.toList_some, flatMap_cons, flatMap_nil,
        append_nil, RequestOutput.seen, hown, hpart]

end RequestOutputCollector

end VllmRuntime.Frontend
