import VllmRuntime.Verification.SpecDecode.Metadata

/-! What the greedy kernel leaves in the output buffer, for any order of its programs. -/

namespace VllmRuntime

open List Segments

/-- The tokens that one program stores: those of the target up to the first draft that differs, and the
bonus token when no draft does. -/
def greedyTokens : List DraftToken → List DraftToken → DraftToken → List DraftToken
  | draft :: drafts, target :: targets, bonus =>
    target :: if draft = target then greedyTokens drafts targets bonus else []
  | _, _, bonus => [bonus]

lemma length_greedyTokens_le (drafts targets : List DraftToken) (bonus : DraftToken) :
    (greedyTokens drafts targets bonus).length ≤ drafts.length + 1 := by
  fun_induction greedyTokens drafts targets bonus with
  | case1 draft drafts target targets bonus ih =>
    by_cases h : draft = target
    · simpa [h] using ih
    · simp [h]
  | case2 => simp

section Loop

variable (draftTokenIds targetArgmax : List DraftToken) (startIdx row : ℕ)

/-- One turn of the loop of the kernel. -/
def kernelStep (state : List DraftToken × Bool) (pos : ℕ) : List DraftToken × Bool :=
  if !state.2 then
    (state.1.set (row + pos) (load targetArgmax (startIdx + pos)),
      load draftTokenIds (startIdx + pos) != load targetArgmax (startIdx + pos))
  else state

lemma foldl_kernelStep_rejected (out : List DraftToken) (positions : List ℕ) :
    positions.foldl (kernelStep draftTokenIds targetArgmax startIdx row) (out, true) = (out, true) := by
  induction positions with
  | nil => rfl
  | cons pos positions ih => rw [foldl_cons, kernelStep, Bool.not_true, if_neg Bool.false_ne_true, ih]

/-- The end of a program: the bonus token is stored when no draft was rejected. -/
def kernelEnd (bonus : DraftToken) (place : ℕ) (state : List DraftToken × Bool) : List DraftToken :=
  if !state.2 then state.1.set place bonus else state.1

lemma kernelEnd_foldl (pos : ℕ) {drafts targets : List DraftToken}
    (hlen : targets.length = drafts.length)
    (hdrafts : ∀ k < drafts.length, draftTokenIds[startIdx + (pos + k)]? = drafts[k]?)
    (htargets : ∀ k < targets.length, targetArgmax[startIdx + (pos + k)]? = targets[k]?)
    (bonus : DraftToken) (out : List DraftToken) :
    kernelEnd bonus (row + (pos + drafts.length))
        ((range' pos drafts.length).foldl (kernelStep draftTokenIds targetArgmax startIdx row)
          (out, false)) =
      writeAt out (row + pos) (greedyTokens drafts targets bonus) := by
  -- the loop walks along the drafts, and the state is still `false` where it goes on
  induction drafts generalizing targets pos out with
  | nil => simp [kernelEnd, greedyTokens, writeAt]
  | cons draft drafts ih =>
    cases targets with
    | nil => simp at hlen
    | cons target targets =>
      have hdraft : load draftTokenIds (startIdx + pos) = draft := by
        simpa [load, getD_eq_getElem?_getD] using congrArg (·.getD default) (hdrafts 0 (by simp))
      have htarget : load targetArgmax (startIdx + pos) = target := by
        simpa [load, getD_eq_getElem?_getD] using congrArg (·.getD default) (htargets 0 (by simp))
      rw [length_cons, range'_succ, foldl_cons, kernelStep, Bool.not_false, if_pos rfl,
        hdraft, htarget, greedyTokens, writeAt]
      by_cases h : draft = target
      · rw [if_pos h, h, bne_self_eq_false, show pos + (drafts.length + 1) = pos + 1 + drafts.length by omega,
          show row + pos + 1 = row + (pos + 1) by omega]
        refine ih (pos + 1) (by simpa using hlen) (fun k hk => ?_) (fun k hk => ?_) _
        · simpa [Nat.add_assoc, Nat.add_comm 1] using hdrafts (k + 1) (by simpa using hk)
        · simpa [Nat.add_assoc, Nat.add_comm 1] using htargets (k + 1) (by simpa using hk)
      · rw [if_neg h, bne_iff_ne.2 h, foldl_kernelStep_rejected]
        rfl

end Loop

section Batch

variable {requests : List SpecRequest} (targets : SpecRequest → List DraftToken)
  (bonus : SpecRequest → DraftToken) {m : ℕ} {tokens : List DraftToken}

/-- A program stores the tokens of its own request in its own row. -/
lemma kernel_eq_writeAt (hlen : ∀ r, (targets r).length = r.drafts.length) {i : ℕ} {r : SpecRequest}
    (hr : requests[i]? = some r) (m : ℕ) (out : List DraftToken) :
    rejectionGreedySampleKernel (cumsum (requests.map (·.drafts.length))) (requests.flatMap (·.drafts))
        (requests.flatMap targets) (requests.map bonus) none m i out =
      writeAt out (i * (m + 1)) (greedyTokens r.drafts (targets r) (bonus r)) := by
  have hi : i < (requests.map (·.drafts.length)).length := by
    simpa using (lt_of_getElem? hr)
  have hsum : ((requests.map (·.drafts.length)).take (i + 1)).sum =
      ((requests.take i).map (·.drafts.length)).sum + r.drafts.length := by
    rw [← map_take, take_add_one, hr, map_append, sum_append]
    simp
  have hend : load (cumsum (requests.map (·.drafts.length))) i =
      ((requests.take i).map (·.drafts.length)).sum + r.drafts.length := by
    rw [load, getD_eq_getElem?_getD, cumsum, getElem?_cumsumFrom 0 hi, Nat.zero_add, hsum,
      Option.getD_some]
  have hstart : (if i = 0 then 0 else load (cumsum (requests.map (·.drafts.length))) (i - 1)) =
      ((requests.take i).map (·.drafts.length)).sum := by
    cases i with
    | zero => simp
    | succ i =>
      rw [if_neg (Nat.succ_ne_zero i), load, getD_eq_getElem?_getD, cumsum, Nat.add_sub_cancel,
        getElem?_cumsumFrom 0 (by omega), Nat.zero_add, Option.getD_some, map_take]
  have hbonus : load (requests.map bonus) i = bonus r := by
    simp [load, getD_eq_getElem?_getD, hr]
  have hdrafts : ∀ k < r.drafts.length,
      (requests.flatMap (·.drafts))[((requests.take i).map (·.drafts.length)).sum + (0 + k)]? =
        r.drafts[k]? := by
    intro k hk
    rw [Nat.zero_add]
    exact getElem?_flatMap _ hr hk
  have htargets : ∀ k < (targets r).length,
      (requests.flatMap targets)[((requests.take i).map (·.drafts.length)).sum + (0 + k)]? =
        (targets r)[k]? := by
    intro k hk
    have h := getElem?_flatMap targets hr hk
    simp only [hlen] at h
    rw [Nat.zero_add]
    exact h
  have hloop := kernelEnd_foldl _ _ _ (i * (m + 1)) 0 (hlen r) hdrafts htargets (bonus r) out
  simp only [rejectionGreedySampleKernel, Option.elim_none, Bool.not_true, if_neg Bool.false_ne_true]
  rw [hstart, hend, hbonus, Nat.add_sub_cancel_left, range_eq_range']
  rw [Nat.zero_add] at hloop
  exact hloop

/-- A row of the output: the stored tokens, then placeholders. -/
def paddedRow (m : ℕ) (tokens : List DraftToken) : List DraftToken :=
  tokens ++ List.replicate (m + 1 - tokens.length) placeholderTokenId

lemma getElem?_paddedRow {j : ℕ} (hlen : tokens.length ≤ m + 1) (hj : j < m + 1) :
    (paddedRow m tokens)[j]? = if j < tokens.length then tokens[j]? else some placeholderTokenId := by
  by_cases h : j < tokens.length
  · rw [if_pos h, paddedRow, getElem?_append_left h]
  · rw [if_neg h, paddedRow, getElem?_append_right (Nat.le_of_not_lt h),
      getElem?_replicate_of_lt (by omega)]

lemma length_paddedRow (hlen : tokens.length ≤ m + 1) :
    (paddedRow m tokens).length = m + 1 := by
  simp only [paddedRow, length_append, length_replicate]
  omega

lemma rejectionSample_eq (hlen : ∀ r, (targets r).length = r.drafts.length)
    (hm : ∀ r ∈ requests, r.drafts.length ≤ m) {order : List ℕ}
    (horder : order.Perm (range requests.length)) :
    rejectionSample order (requests.flatMap (·.drafts)) (requests.map (·.drafts.length)) m
        (cumsum (requests.map (·.drafts.length))) (requests.flatMap targets) (requests.map bonus) =
      requests.map fun r => paddedRow m (greedyTokens r.drafts (targets r) (bonus r)) := by
  let stored (k : ℕ) : List DraftToken :=
    (requests[k]?.map fun r => greedyTokens r.drafts (targets r) (bonus r)).getD []
  have hstored : ∀ k, (stored k).length ≤ m + 1 := by
    intro k
    cases hk : requests[k]? with
    | none => simp [stored, hk]
    | some r =>
      have hle := length_greedyTokens_le r.drafts (targets r) (bonus r)
      have hr := hm r (mem_of_getElem? hk)
      simp only [stored, hk, Option.map_some, Option.getD_some]
      omega
  have hrun (out : List DraftToken) :
      order.foldl (fun out k => rejectionGreedySampleKernel (cumsum (requests.map (·.drafts.length)))
        (requests.flatMap (·.drafts)) (requests.flatMap targets) (requests.map bonus) none m k out) out =
      order.foldl (fun out k => writeAt out (k * (m + 1)) (stored k)) out := by
    refine foldl_ext _ _ _ fun out k hk => ?_
    have hlt : k < requests.length := mem_range.1 (horder.mem_iff.1 hk)
    rw [kernel_eq_writeAt targets bonus hlen (getElem?_eq_getElem hlt)]
    simp [stored, hlt]
  have hfits : ∀ k ∈ order, k * (m + 1) + (m + 1) ≤
      (List.replicate (requests.length * (m + 1)) placeholderTokenId).length := by
    intro k hk
    have hlt : k < requests.length := mem_range.1 (horder.mem_iff.1 hk)
    rw [length_replicate, ← Nat.succ_mul]
    exact Nat.mul_le_mul_right _ hlt
  simp only [rejectionSample, hrun, length_map]
  apply ext_getElem?
  intro i
  by_cases hi : i < requests.length
  · have hri : requests[i]? = some requests[i] := getElem?_eq_getElem hi
    have hrow : stored i = greedyTokens requests[i].drafts (targets requests[i]) (bonus requests[i]) := by
      simp [stored, hi]
    rw [getElem?_map, getElem?_range hi, getElem?_map, hri, Option.map_some, Option.map_some,
      Option.some_inj, ← hrow]
    apply ext_getElem?
    intro j
    by_cases hj : j < m + 1
    · rw [getElem?_take_of_lt hj, getElem?_drop, getElem?_foldl_writeAt hstored hj hfits,
        getElem?_paddedRow (hstored i) hj]
      have hmem : i ∈ order := horder.mem_iff.2 (mem_range.2 hi)
      have hplace : i * (m + 1) + j < requests.length * (m + 1) := by
        calc i * (m + 1) + j < i * (m + 1) + (m + 1) := Nat.add_lt_add_left hj _
          _ = (i + 1) * (m + 1) := (Nat.succ_mul i (m + 1)).symm
          _ ≤ requests.length * (m + 1) := Nat.mul_le_mul_right _ hi
      simp only [hmem, true_and, getElem?_replicate_of_lt hplace]
    · have hle : m + 1 ≤ j := Nat.le_of_not_lt hj
      rw [getElem?_eq_none (by simp only [length_take]; omega),
        getElem?_eq_none (by rw [length_paddedRow (hstored i)]; exact hle)]
  · simp [Nat.le_of_not_lt hi]

end Batch

end VllmRuntime
