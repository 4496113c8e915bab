import VllmRuntime.Model.SpecDecode

/-! The four index spaces of a batch with drafts: which rows and which tokens the indices of
`_calc_spec_decode_metadata` pick. -/

namespace VllmRuntime

open List Segments

variable {Row : Type}

namespace SpecRequest

/-- What the first draft follows. -/
def context (r : SpecRequest) : List DraftToken := r.computed ++ r.newTokens

/-- The row that follows the first `j` drafts. -/
def rowAfter (model : List DraftToken → Row) (r : SpecRequest) (j : ℕ) : Row :=
  model (r.context ++ r.drafts.take j)

def targetRows (model : List DraftToken → Row) (r : SpecRequest) : List Row :=
  (List.range r.drafts.length).map (r.rowAfter model)

/-- The rows at `logits_indices`: those of the drafts, then the row of the bonus token. -/
def sampledRows (model : List DraftToken → Row) (r : SpecRequest) : List Row :=
  (List.range (r.drafts.length + 1)).map (r.rowAfter model)

lemma drafts_lt_scheduled (r : SpecRequest) : r.drafts.length + 1 ≤ r.scheduled.length := by
  have h : 0 < r.newTokens.length := length_pos_of_ne_nil r.newTokens_ne_nil
  simp only [scheduled, length_append]
  omega

@[simp] lemma length_rows (model : List DraftToken → Row) (r : SpecRequest) :
    (r.rows model).length = r.scheduled.length := by
  simp [rows]

@[simp] lemma length_sampledRows (model : List DraftToken → Row) (r : SpecRequest) :
    (r.sampledRows model).length = r.drafts.length + 1 := by
  simp [sampledRows]

/-- The scheduled positions that a token is sampled at. -/
def sampledPositions (r : SpecRequest) : List ℕ :=
  (List.range (r.drafts.length + 1)).map (r.scheduled.length - (r.drafts.length + 1) + ·)

lemma gather_rows (model : List DraftToken → Row) (r : SpecRequest) :
    gather (r.rows model) r.sampledPositions = some (r.sampledRows model) := by
  rw [gather_eq_some, sampledPositions, sampledRows, map_map, map_map]
  apply map_congr_left
  intro j hj
  have hj' : j < r.drafts.length + 1 := mem_range.1 hj
  have hlen : r.scheduled.length = r.newTokens.length + r.drafts.length := by simp [scheduled]
  have hle := r.drafts_lt_scheduled
  have htake : r.scheduled.take (r.scheduled.length - (r.drafts.length + 1) + j + 1) =
      r.newTokens ++ r.drafts.take j := by
    rw [show r.scheduled.length - (r.drafts.length + 1) + j + 1 = r.newTokens.length + j by omega,
      scheduled, take_length_add_append]
  have hlt : r.scheduled.length - (r.drafts.length + 1) + j < r.scheduled.length := by omega
  simp only [Function.comp_apply, rows, getElem?_map, getElem?_range hlt, Option.map_some,
    htake, rowAfter, context, append_assoc]

/-- The last sampled token before the drafts, then the drafts. -/
def sampledInputs (r : SpecRequest) : List DraftToken :=
  r.newTokens.getLast r.newTokens_ne_nil :: r.drafts

lemma gather_scheduled (r : SpecRequest) :
    gather r.scheduled r.sampledPositions = some r.sampledInputs := by
  have hsplit : r.scheduled = r.newTokens.dropLast ++ r.sampledInputs := by
    rw [scheduled, sampledInputs, ← singleton_append, ← append_assoc,
      dropLast_append_getLast]
  have hlen : r.scheduled.length - (r.drafts.length + 1) = r.newTokens.dropLast.length := by
    have h : 0 < r.newTokens.length := length_pos_of_ne_nil r.newTokens_ne_nil
    simp only [scheduled, length_append, length_dropLast]
    omega
  rw [gather_eq_some, sampledPositions, hlen, hsplit, map_map]
  apply ext_getElem?
  intro j
  by_cases hj : j < r.drafts.length + 1
  · have hj' : j < r.sampledInputs.length := by simpa [sampledInputs] using hj
    simp [hj, hj']
  · have hj' : r.sampledInputs.length ≤ j := by simpa [sampledInputs] using Nat.le_of_not_lt hj
    simpa [hj'] using hj

end SpecRequest

lemma getCumsumAndArange_eq (ns : List ℕ) :
    getCumsumAndArange ns = (cumsum ns, ns.flatMap range) := by
  have hlast : (cumsum ns).getLastD 0 = ns.sum := by
    simpa [cumsum] using getLastD_cumsumFrom 0 ns
  have harange := arange_eq_flatMap 0 ns
  simp only [getCumsumAndArange, hlast, range_eq_range', Prod.mk.injEq, true_and]
  exact harange

section Batch

variable (requests : List SpecRequest)

/-- The metadata of a batch. -/
def specDecodeMetadata : SpecDecodeMetadata where
  draftTokenIds := requests.flatMap (·.drafts)
  numDraftTokens := requests.map (·.drafts.length)
  cuNumDraftTokens := cumsum (requests.map (·.drafts.length))
  cuNumSampledTokens := cumsum (requests.map (·.drafts.length + 1))
  targetLogitsIndices := flatIndices 0 (·.drafts.length + 1) (fun r => List.range r.drafts.length) requests
  bonusLogitsIndices := flatIndices 0 (·.drafts.length + 1) (fun r => [r.drafts.length]) requests
  logitsIndices := flatIndices 0 (·.scheduled.length) (·.sampledPositions) requests

lemma calcSpecDecodeMetadata_eq :
    calcSpecDecodeMetadata (requests.flatMap (·.scheduled)) (requests.map (·.drafts.length))
      (cumsum (requests.map (·.scheduled.length))) = some (specDecodeMetadata requests) := by
  have hsampled : (requests.map (·.drafts.length)).map (· + 1) = requests.map (·.drafts.length + 1) := by
    rw [map_map]; rfl
  have hlogits := repeatEach_add_arange 0 (·.scheduled.length) (·.drafts.length + 1)
    (·.drafts.length + 1) fun r (_ : r ∈ requests) => r.drafts_lt_scheduled
  have htarget := repeatEach_add_arange 0 (·.drafts.length + 1) (·.drafts.length + 1)
    (·.drafts.length) fun r (_ : r ∈ requests) => le_rfl
  have hbonus := map_pred_cumsumFrom 0 (·.drafts.length + 1) fun r (_ : r ∈ requests) => Nat.succ_pos _
  simp only [Nat.sub_self, Nat.zero_add, map_id', Nat.add_sub_cancel] at htarget hbonus
  have hinputs : gather (requests.flatMap (·.scheduled))
      (flatIndices 0 (·.scheduled.length) (·.sampledPositions) requests) =
        some (requests.flatMap (·.sampledInputs)) :=
    gather_flatIndices _ _ _ fun r _ => r.gather_scheduled
  have hdrafts : gather (requests.flatMap (·.sampledInputs))
      ((flatIndices 0 (·.drafts.length + 1) (fun r => range r.drafts.length) requests).map (· + 1)) =
        some (requests.flatMap (·.drafts)) := by
    rw [map_succ_flatIndices]
    refine gather_flatIndices SpecRequest.sampledInputs _ _ fun r _ => ?_
    rw [gather_eq_some, map_map]
    apply ext_getElem?
    intro j
    by_cases hj : j < r.drafts.length
    · simp [hj, SpecRequest.sampledInputs]
    · simp [Nat.le_of_not_lt hj]
  simp only [calcSpecDecodeMetadata, hsampled, getCumsumAndArange_eq]
  simp only [cumsum] at hlogits htarget hbonus ⊢
  rw [hlogits, htarget, hbonus]
  erw [hinputs]
  simp only [Option.bind_eq_bind, Option.bind_some]
  rw [hdrafts]
  rfl

variable (model : List DraftToken → Row)

lemma gather_logitsIndices :
    gather (requests.flatMap (·.rows model)) (specDecodeMetadata requests).logitsIndices =
      some (requests.flatMap (·.sampledRows model)) := by
  have h := gather_flatIndices (·.rows model) (·.sampledRows model) (·.sampledPositions)
    fun r (_ : r ∈ requests) => r.gather_rows model
  simp only [SpecRequest.length_rows] at h
  exact h

lemma gather_targetLogitsIndices :
    gather (requests.flatMap (·.sampledRows model)) (specDecodeMetadata requests).targetLogitsIndices =
      some (requests.flatMap (·.targetRows model)) := by
  have hrow (r : SpecRequest) :
      gather (r.sampledRows model) (range r.drafts.length) = some (r.targetRows model) := by
    rw [gather_eq_some, SpecRequest.targetRows, map_map]
    apply map_congr_left
    intro j hj
    have hj' : j < r.drafts.length + 1 := Nat.lt_succ_of_lt (mem_range.1 hj)
    simp [SpecRequest.sampledRows, hj']
  have h := gather_flatIndices _ _ _ fun r (_ : r ∈ requests) => hrow r
  simp only [SpecRequest.length_sampledRows] at h
  exact h

lemma gather_bonusLogitsIndices :
    gather (requests.flatMap (·.sampledRows model)) (specDecodeMetadata requests).bonusLogitsIndices =
      some (requests.map fun r => r.rowAfter model r.drafts.length) := by
  have hrow (r : SpecRequest) :
      gather (r.sampledRows model) [r.drafts.length] = some [r.rowAfter model r.drafts.length] := by
    simp [gather_eq_some, SpecRequest.sampledRows]
  have h := gather_flatIndices _ _ _ fun r (_ : r ∈ requests) => hrow r
  simp only [SpecRequest.length_sampledRows, ← map_eq_flatMap] at h
  exact h

end Batch

end VllmRuntime
