import VllmRuntime.Model.LogitsProcessor
import VllmRuntime.Verification.InputBatch.Correctness

/-! # Replaying the log of a step

A logits processor has one value for each index. It sees only the log of a step, in which a removed
index that is filled again is not listed: first the additions, then the removals, then the moves.
Replayed on the values from before the step, the log gives those of the requests after it. -/

namespace VllmRuntime

open List Function

variable {γ V W : Type}

/-! ## The values of the indices -/

/-- What a move does to the values. -/
def moveValue (default : V) (values : ℕ → V) (move : ℕ × ℕ × MoveDirectionality) : ℕ → V :=
  match move.2.2 with
  | .unidirectional =>
    update (update values move.2.1 (values move.1)) move.1 default
  | .swap => values ∘ Equiv.swap move.1 move.2.1

/-- The values after the additions, the removals and the moves of the log. -/
def replayLog (value : AddedRequest → V) (default : V) (builder : BatchUpdateBuilder) (values : ℕ → V) :
    ℕ → V :=
  let values := builder.added.foldl (fun values added => update values added.index (value added))
    values
  let values := builder.removed.foldl (fun values index => update values index default) values
  builder.moved.foldl (moveValue default) values

section

variable {value : AddedRequest → V} {default : V} {values values' : ℕ → V} {k : ℕ}
  {moved : List (ℕ × ℕ × MoveDirectionality)}

lemma foldl_removed_apply (removed : List ℕ) (values : ℕ → V) (i : ℕ) :
    removed.foldl (fun values index => update values index default) values i =
      if i ∈ removed then default else values i := by
  induction removed generalizing values with
  | nil => simp
  | cons index removed ih =>
    rw [foldl_cons, ih]
    by_cases hi : i = index
    · simp [hi]
    · simp [hi]

/-- A move does not look at the other indices. -/
lemma moveValue_congr {move : ℕ × ℕ × MoveDirectionality} (h : ∀ i, i ≠ k → values i = values' i)
    (hsrc : move.1 ≠ k) (htgt : move.2.1 ≠ k) :
    ∀ i, i ≠ k → moveValue default values move i = moveValue default values' move i := by
  obtain ⟨src, tgt, direct⟩ := move
  intro i hi
  cases direct with
  | unidirectional =>
    simp only [moveValue, update_apply]
    rw [h src hsrc, h i hi]
  | swap =>
    simp only [moveValue, comp]
    apply h
    intro hswap
    have hii := Equiv.swap_apply_eq_iff.mp hswap
    rw [Equiv.swap_apply_of_ne_of_ne (Ne.symm hsrc) (Ne.symm htgt)] at hii
    exact hi hii

lemma foldl_moveValue_congr (h : ∀ i, i ≠ k → values i = values' i)
    (hmoved : ∀ move ∈ moved, move.1 ≠ k ∧ move.2.1 ≠ k) :
    ∀ i, i ≠ k → moved.foldl (moveValue default) values i = moved.foldl (moveValue default) values' i := by
  induction moved generalizing values values' with
  | nil => exact h
  | cons move moved ih =>
    rw [forall_mem_cons] at hmoved
    exact ih (moveValue_congr h hmoved.1.1 hmoved.1.2) hmoved.2

/-- Removals and moves change nothing where all values are the default. -/
lemma replayLog_default {removed : List ℕ} :
    moved.foldl (moveValue default) (removed.foldl (fun values index =>
      update values index default) fun _ => default) = fun _ => default := by
  have hremoved : removed.foldl (fun values index => update values index default)
      (fun _ => default) = fun _ => default := by
    funext i
    rw [foldl_removed_apply, ite_self]
  rw [hremoved]
  induction moved with
  | nil => rfl
  | cons move moved ih =>
    have hmove : moveValue default (fun _ => default) move = fun _ => default := by
      funext i
      unfold moveValue
      cases move.2.2 with
      | unidirectional => simp [update_apply]
      | swap => rfl
    rw [foldl_cons, hmove, ih]

/-- A map of the values can be done before or after the log. -/
lemma map_replayLog (f : V → W) (value : AddedRequest → V) (default : V) (builder : BatchUpdateBuilder) (values : ℕ → V) :
    f ∘ replayLog value default builder values =
      replayLog (f ∘ value) (f default) builder (f ∘ values) := by
  have hadded : ∀ (added : List AddedRequest) (values : ℕ → V),
      f ∘ added.foldl (fun values added => update values added.index (value added)) values =
        added.foldl (fun values added => update values added.index (f (value added)))
          (f ∘ values) := by
    intro added
    induction added with
    | nil => exact fun _ => rfl
    | cons a added ih =>
      intro values
      rw [foldl_cons, foldl_cons, ih, comp_update]
  have hremoved : ∀ (removed : List ℕ) (values : ℕ → V),
      f ∘ removed.foldl (fun values index => update values index default) values =
        removed.foldl (fun values index => update values index (f default)) (f ∘ values) := by
    intro removed
    induction removed with
    | nil => exact fun _ => rfl
    | cons index removed ih =>
      intro values
      rw [foldl_cons, foldl_cons, ih, comp_update]
  have hmoved : ∀ (moved : List (ℕ × ℕ × MoveDirectionality)) (values : ℕ → V),
      f ∘ moved.foldl (moveValue default) values =
        moved.foldl (moveValue (f default)) (f ∘ values) := by
    intro moved
    induction moved with
    | nil => exact fun _ => rfl
    | cons move moved ih =>
      intro values
      have hmove : f ∘ moveValue default values move = moveValue (f default) (f ∘ values) move := by
        unfold moveValue
        cases move.2.2 with
        | unidirectional => simp only [comp_update, comp]
        | swap => rfl
      rw [foldl_cons, foldl_cons, ih, hmove]
  simp only [replayLog]
  rw [hmoved, hremoved, hadded]
  rfl

end

/-! ## The values of the requests -/

/-- The request at an index. -/
def SlotState.content (s : SlotState γ) (i : ℕ) : Option (CachedRequestState γ) :=
  (s.ids[i]?).join.bind fun id => (s.requests id).map Prod.fst

/-- The log takes the values from before the step to those of the requests. -/
structure Logged (value : AddedRequest → V) (default : V) (worth : CachedRequestState γ → V)
    (values : ℕ → V) (s : SlotState γ) : Prop where
  content : ∀ i, replayLog value default s.builder values i = (s.content i).elim default worth
  distinct : ∀ (i j : ℕ) (id : String), s.ids[i]? = some (some id) → s.ids[j]? = some (some id) → i = j
  known : ∀ (i : ℕ) (id : String), s.ids[i]? = some (some id) → (s.requests id).isSome
  nodup : s.builder.removed.Nodup
  free : ∀ i ∈ s.builder.removed, ∀ id, s.ids[i]? ≠ some (some id)
  moved : ∀ move ∈ s.builder.moved, move.1 ∉ s.builder.removed ∧ move.2.1 ∉ s.builder.removed ∧
    (move.2.2 = .unidirectional → move.1 ≠ move.2.1)

section

variable {value : AddedRequest → V} {default : V} {worth : CachedRequestState γ → V} {values : ℕ → V}
  {s s' : SlotState γ} {i j idx : ℕ} {id : String} {request : CachedRequestState γ} {rest : List ℕ}
  {A : CachedRequestState γ → Prop}

lemma SlotState.content_of_none (h : ∀ id, s.ids[i]? ≠ some (some id)) : s.content i = none := by
  unfold content
  cases hi : s.ids[i]? with
  | none => rfl
  | some entry =>
    cases entry with
    | none => rfl
    | some id => exact absurd hi (h id)

lemma SlotState.content_of_some (id : String) (h : s.ids[i]? = some (some id)) :
    s.content i = (s.requests id).map Prod.fst := by
  rw [content, h]
  rfl

/-- The contents at an index whose id and request stay. -/
lemma SlotState.content_congr (hids : s'.ids[i]? = s.ids[j]?)
    (hrequests : ∀ id, s.ids[j]? = some (some id) →
      (s'.requests id).map Prod.fst = (s.requests id).map Prod.fst) : s'.content i = s.content j := by
  unfold content
  rw [hids]
  cases hj : s.ids[j]? with
  | none => rfl
  | some entry =>
    cases entry with
    | none => rfl
    | some id => exact hrequests id hj

lemma Logged.not_entered (h : Logged value default worth values s) (hnew : s.requests id = none) (i : ℕ) :
    s.ids[i]? ≠ some (some id) := by
  intro hi
  have := h.known i id hi
  rw [hnew] at this
  cases this

lemma Logged.content_eq (h : Logged value default worth values s) (hids : s'.ids[i]? = s.ids[j]?)
    (hrequests : ∀ id, s.ids[j]? = some (some id) →
      (s'.requests id).map Prod.fst = (s.requests id).map Prod.fst) :
    replayLog value default s.builder values j = (s'.content i).elim default worth := by
  rw [h.content, SlotState.content_congr hids hrequests]

/-- An event that is no move or swap, at one index. -/
lemma Logged.at_index {builder : BatchUpdateBuilder} {ids : List (Option String)}
    {requests : BatchRequests γ} (idx : ℕ) (id : String) (h : Logged value default worth values s)
    (hmoved : builder.moved = []) (hother : ∀ i : ℕ, i ≠ idx → ids[i]? = s.ids[i]?)
    (hrequests : ∀ x, x ≠ id → requests x = s.requests x)
    (hid : ∀ i : ℕ, i ≠ idx → s.ids[i]? ≠ some (some id))
    (hnodup : builder.removed.Nodup) (hsub : ∀ i ∈ builder.removed, i ≠ idx → i ∈ s.builder.removed)
    (hentry : ∀ x, ids[idx]? = some (some x) → x = id ∧ (requests x).isSome ∧ idx ∉ builder.removed)
    (hreplay : ∀ i, replayLog value default builder values i =
      if i = idx then (SlotState.content ⟨ids, builder, requests⟩ idx).elim default worth
      else replayLog value default s.builder values i) :
    Logged value default worth values ⟨ids, builder, requests⟩ := by
  have hids : ∀ (i : ℕ) (x : String), i ≠ idx → s.ids[i]? = some (some x) → x ≠ id := by
    rintro i x hi hx rfl
    exact hid i hi hx
  refine ⟨fun i => ?_, fun i j x hi hj => ?_, fun i x hi => ?_, hnodup, fun i hi x hx => ?_, ?_⟩
  · rw [hreplay]
    by_cases hi : i = idx
    · rw [if_pos hi, hi]
    · rw [if_neg hi]
      refine h.content_eq (hother i hi) fun x hx => ?_
      dsimp only
      rw [hrequests x (hids i x hi hx)]
  · by_cases hii : i = idx <;> by_cases hjj : j = idx
    · rw [hii, hjj]
    · subst hii
      rw [hother j hjj] at hj
      exact absurd (hentry x hi).1 (hids j x hjj hj)
    · subst hjj
      rw [hother i hii] at hi
      exact absurd (hentry x hj).1 (hids i x hii hi)
    · rw [hother i hii] at hi
      rw [hother j hjj] at hj
      exact h.distinct i j x hi hj
  · by_cases hii : i = idx
    · subst hii
      exact (hentry x hi).2.1
    · rw [hother i hii] at hi
      dsimp only
      rw [hrequests x (hids i x hii hi)]
      exact h.known i x hi
  · by_cases hii : i = idx
    · subst hii
      exact (hentry x hx).2.2 hi
    · rw [hother i hii] at hx
      exact h.free i (hsub i hi hii) x hx
  · intro move hmove
    rw [hmoved] at hmove
    cases hmove

lemma Logged.remove (h : Logged value default worth values s) (hidx : s.ids[idx]? = some (some id))
    (hmoved : s.builder.moved = []) :
    Logged value default worth values ⟨s.ids.set idx none,
      { s.builder with removed := s.builder.removed ++ [idx], batchChanged := true },
      update s.requests id none⟩ := by
  have hlt := lt_of_getElem? hidx
  have hnot : idx ∉ s.builder.removed := fun hmem => h.free idx hmem id hidx
  refine h.at_index idx id hmoved (fun i hi => getElem?_set_ne (Ne.symm hi))
    (fun x hx => update_of_ne hx _ _) (fun i hi hid => hi (h.distinct i idx id hid hidx)) ?_ ?_ ?_
    fun i => ?_
  · rw [nodup_append]
    refine ⟨h.nodup, by simp, ?_⟩
    rintro i hi j hj rfl
    exact hnot (by rwa [List.mem_singleton.mp hj] at hi)
  · intro i hi hne
    simpa [hne] using hi
  · intro x hx
    simp [getElem?_set_self hlt] at hx
  · rw [SlotState.content_of_none fun x hx => by simp [getElem?_set_self hlt] at hx]
    simp only [replayLog, hmoved, foldl_nil, foldl_append, foldl_cons, update_apply,
      Option.elim_none]

lemma Logged.reuse
    (hvalue : value ⟨idx, request.samplingParams, request.promptTokenIds, request.outputList⟩ = worth request)
    (h : Logged value default worth values s) (hmoved : s.builder.moved = [])
    (hperm : rest ++ [idx] ~ s.builder.removed) (hidx : s.ids[idx]? = some none)
    (hnew : s.requests request.reqId = none) :
    Logged value default worth values ⟨s.ids.set idx (some request.reqId),
      BatchUpdateBuilder.register { s.builder with removed := rest, isRemovedSorted := true } request idx,
      update s.requests request.reqId (some (request, {}))⟩ := by
  have hlt := lt_of_getElem? hidx
  have hnodup := hperm.nodup_iff.mpr h.nodup
  have hnot : idx ∉ rest := fun hmem => (List.nodup_append.mp hnodup).2.2 idx hmem idx (by simp) rfl
  refine h.at_index idx request.reqId hmoved (fun i hi => getElem?_set_ne (Ne.symm hi))
    (fun x hx => update_of_ne hx _ _) (fun i _ => h.not_entered hnew i)
    (List.nodup_append.mp hnodup).1 (fun i hi _ => hperm.mem_iff.mp (mem_append_left _ hi)) ?_
    fun i => ?_
  · intro x hx
    rw [getElem?_set_self hlt] at hx
    cases Option.some.inj hx
    exact ⟨rfl, by simp, hnot⟩
  · rw [SlotState.content_of_some request.reqId (getElem?_set_self hlt)]
    have hmem := hperm.mem_iff (a := i)
    simp only [replayLog, BatchUpdateBuilder.register, hmoved, foldl_nil, foldl_removed_apply,
      foldl_append, foldl_cons, hvalue, update_apply, Option.map_some, if_true,
      Option.elim_some]
    by_cases hi : i = idx
    · subst hi
      simp [hnot]
    · simp only [mem_append, mem_singleton, hi, or_false] at hmem
      simp only [hi, if_false, hmem]

lemma Logged.append
    (hvalue : value ⟨s.ids.length, request.samplingParams, request.promptTokenIds, request.outputList⟩ =
      worth request) (h : Logged value default worth values s) (hmoved : s.builder.moved = [])
    (hremoved : s.builder.removed = []) (hnew : s.requests request.reqId = none) :
    Logged value default worth values ⟨s.ids ++ [some request.reqId],
      s.builder.register request s.ids.length,
      update s.requests request.reqId (some (request, {}))⟩ := by
  refine h.at_index s.ids.length request.reqId hmoved (fun i hi => ?_)
    (fun x hx => update_of_ne hx _ _) (fun i _ => h.not_entered hnew i) h.nodup
    (fun i hi _ => hi) ?_ fun i => ?_
  · rw [getElem?_append]
    split
    · rfl
    · rw [getElem?_eq_none (by simp; omega), getElem?_eq_none (by omega)]
  · intro x hx
    simp only [getElem?_concat_length, Option.some.injEq] at hx
    subst hx
    refine ⟨rfl, by simp, ?_⟩
    simp [BatchUpdateBuilder.register, hremoved]
  · rw [SlotState.content_of_some request.reqId (by simp)]
    simp only [replayLog, BatchUpdateBuilder.register, hmoved, hremoved, foldl_nil, foldl_append,
      foldl_cons, hvalue, update_apply, Option.map_some, if_true, Option.elim_some]

section

variable (h : Logged value default worth values s)
include h

lemma Logged.write (f : String → RowUpdates → RowUpdates) :
    Logged value default worth values ⟨s.ids, s.builder, s.requests.write f⟩ := by
  refine ⟨fun i => ?_, h.distinct, fun i x hi => ?_, h.nodup, h.free, h.moved⟩
  · refine h.content_eq rfl fun x _ => ?_
    simp only [BatchRequests.write, Option.map_map]
    rfl
  · simp only [BatchRequests.write, Option.isSome_map]
    exact h.known i x hi

lemma Logged.sort {sorted : List ℕ} (hperm : sorted ~ s.builder.removed) :
    Logged value default worth values
      ⟨s.ids, { s.builder with removed := sorted, isRemovedSorted := true }, s.requests⟩ := by
  have hreplay : replayLog value default { s.builder with removed := sorted, isRemovedSorted := true } values =
      replayLog value default s.builder values := by
    simp only [replayLog]
    congr 1
    funext i
    simp only [foldl_removed_apply, hperm.mem_iff]
  refine ⟨fun i => ?_, h.distinct, h.known, hperm.nodup_iff.mpr h.nodup,
    fun i hi => h.free i (hperm.mem_iff.mp hi), fun move hmove => ?_⟩
  · rw [hreplay]
    exact h.content i
  · have hfree := h.moved move hmove
    simp only [hperm.mem_iff]
    exact hfree

/-- The stale value of an index that is filled by a move is overwritten by the move. -/
lemma Logged.move {last empty : ℕ} (hremoved : s.builder.removed = rest ++ [empty]) (hrest : empty ∉ rest)
    (hlast : s.ids[last]? = some (some id)) (hempty : s.ids[empty]? = some none) :
    Logged value default worth values ⟨(s.ids.set empty (some id)).set last none,
      { s.builder with
        removed := rest
        moved := s.builder.moved ++ [(last, empty, .unidirectional)] }, s.requests⟩ := by
  have hne : last ≠ empty := by
    rintro rfl
    rw [hlast] at hempty
    cases hempty
  have hlastLt := lt_of_getElem? hlast
  have hemptyLt := lt_of_getElem? hempty
  have hmem : ∀ i, i ∈ rest → i ∈ s.builder.removed := fun i hi => hremoved ▸ mem_append_left _ hi
  have hlastNot : last ∉ s.builder.removed := fun hmem => h.free last hmem id hlast
  have hatLast : ((s.ids.set empty (some id)).set last none)[last]? = some none :=
    getElem?_set_self (by simpa using hlastLt)
  have hatEmpty : ((s.ids.set empty (some id)).set last none)[empty]? = some (some id) := by
    rw [getElem?_set_ne hne, getElem?_set_self hemptyLt]
  have hother : ∀ i : ℕ, i ≠ last → i ≠ empty →
      ((s.ids.set empty (some id)).set last none)[i]? = s.ids[i]? := by
    intro i hil hie
    rw [getElem?_set_ne (Ne.symm hil), getElem?_set_ne (Ne.symm hie)]
  have hentry : ∀ (i : ℕ) (x : String),
      ((s.ids.set empty (some id)).set last none)[i]? = some (some x) →
        i = empty ∧ x = id ∨ i ≠ last ∧ i ≠ empty ∧ s.ids[i]? = some (some x) := by
    intro i x hi
    by_cases hil : i = last
    · rw [hil, hatLast] at hi
      cases hi
    · by_cases hie : i = empty
      · rw [hie, hatEmpty] at hi
        exact .inl ⟨hie, (Option.some.inj (Option.some.inj hi)).symm⟩
      · rw [hother i hil hie] at hi
        exact .inr ⟨hil, hie, hi⟩
  have hagree : ∀ i, i ≠ empty →
      replayLog value default { s.builder with removed := rest } values i =
        replayLog value default s.builder values i := by
    refine foldl_moveValue_congr (fun i hi => ?_) fun move hmove => ?_
    · simp [foldl_removed_apply, hremoved, hi]
    · have hfree := h.moved move hmove
      rw [hremoved] at hfree
      simp only [mem_append, mem_singleton, not_or] at hfree
      exact ⟨hfree.1.2, hfree.2.1.2⟩
  have hreplay : ∀ i, replayLog value default { s.builder with
        removed := rest
        moved := s.builder.moved ++ [(last, empty, .unidirectional)] } values i =
      if i = last then default
      else if i = empty then replayLog value default s.builder values last
      else replayLog value default s.builder values i := by
    intro i
    rw [← hagree last hne]
    have happend : replayLog value default { s.builder with
          removed := rest
          moved := s.builder.moved ++ [(last, empty, .unidirectional)] } values =
        moveValue default (replayLog value default { s.builder with removed := rest } values)
          (last, empty, .unidirectional) := by
      simp only [replayLog, foldl_append, foldl_cons, foldl_nil]
    rw [happend]
    simp only [moveValue, update_apply]
    by_cases hil : i = last
    · rw [if_pos hil, if_pos hil]
    · rw [if_neg hil, if_neg hil]
      by_cases hie : i = empty
      · rw [if_pos hie, if_pos hie]
      · rw [if_neg hie, if_neg hie, hagree i hie]
  refine ⟨fun i => ?_, fun i j x hi hj => ?_, fun i x hi => ?_, ?_, fun i hi x hx => ?_, fun move hmove => ?_⟩
  · rw [hreplay]
    by_cases hil : i = last
    · subst hil
      rw [if_pos rfl, SlotState.content_of_none fun x hx => by rw [hatLast] at hx; cases hx]
      rfl
    · rw [if_neg hil]
      by_cases hie : i = empty
      · subst hie
        rw [if_pos rfl, h.content, SlotState.content_of_some id hlast, SlotState.content_of_some id hatEmpty]
      · rw [if_neg hie]
        exact h.content_eq (hother i hil hie) fun _ _ => rfl
  · rcases hentry i x hi with ⟨hie, hx⟩ | ⟨hil, hie, hi'⟩ <;>
      rcases hentry j x hj with ⟨hje, hx'⟩ | ⟨hjl, hje, hj'⟩
    · rw [hie, hje]
    · exact absurd (h.distinct j last x hj' (hx ▸ hlast)) hjl
    · exact absurd (h.distinct i last x hi' (hx' ▸ hlast)) hil
    · exact h.distinct i j x hi' hj'
  · rcases hentry i x hi with ⟨rfl, rfl⟩ | ⟨hil, hie, hi⟩
    · exact h.known last x hlast
    · exact h.known i x hi
  · have hnodup := h.nodup
    rw [hremoved] at hnodup
    exact (List.nodup_append.mp hnodup).1
  · rcases hentry i x hx with ⟨rfl, rfl⟩ | ⟨hil, hie, hx⟩
    · exact hrest hi
    · exact h.free i (hmem i hi) x hx
  · rcases List.mem_append.mp hmove with hmove | hmove
    · have hfree := h.moved move hmove
      exact ⟨fun hi => hfree.1 (hmem _ hi), fun hi => hfree.2.1 (hmem _ hi), hfree.2.2⟩
    · rw [List.mem_singleton.mp hmove]
      exact ⟨fun hi => hlastNot (hmem last hi), hrest, fun _ => hne⟩

lemma Logged.trim {n : ℕ} (hbeyond : ∀ i, n ≤ i → ∀ id, s.ids[i]? ≠ some (some id)) :
    Logged value default worth values ⟨s.ids.take n, s.builder, s.requests⟩ := by
  have hentry : ∀ (i : ℕ) (id : String), (s.ids.take n)[i]? = some (some id) → s.ids[i]? = some (some id) := by
    intro i id hi
    rw [getElem?_take] at hi
    split at hi
    · exact hi
    · cases hi
  refine ⟨fun i => ?_, fun i j id hi hj => h.distinct i j id (hentry i id hi) (hentry j id hj),
    fun i id hi => h.known i id (hentry i id hi), h.nodup,
    fun i hi id hid => h.free i hi id (hentry i id hid), h.moved⟩
  by_cases hlt : i < n
  · exact h.content_eq (getElem?_take_of_lt hlt) fun _ _ => rfl
  · rw [h.content, SlotState.content_of_none (hbeyond i (by omega)), SlotState.content_of_none fun id hid =>
      hbeyond i (by omega) id (hentry i id hid)]

lemma Logged.swap {i1 i2 : ℕ} {id1 id2 : String}
    (h1 : s.ids[i1]? = some (some id1)) (h2 : s.ids[i2]? = some (some id2)) :
    Logged value default worth values ⟨InputBatch.swapItems s.ids i1 i2,
      { s.builder with moved := s.builder.moved ++ [(i1, i2, .swap)] }, s.requests⟩ := by
  have hentry : ∀ i : ℕ, (InputBatch.swapItems s.ids i1 i2)[i]? = s.ids[Equiv.swap i1 i2 i]? :=
    InputBatch.getElem?_swapItems (lt_of_getElem? h1) (List.getElem?_eq_some_iff.mp h2).1
  refine ⟨fun i => ?_, fun i j id hi hj => ?_, fun i id hi => ?_, h.nodup, fun i hi id hid => ?_,
    fun move hmove => ?_⟩
  · have hreplay : replayLog value default
        { s.builder with moved := s.builder.moved ++ [(i1, i2, .swap)] } values i =
          replayLog value default s.builder values (Equiv.swap i1 i2 i) := by
      simp only [replayLog, foldl_append, foldl_cons, foldl_nil, moveValue, comp]
    rw [hreplay]
    exact h.content_eq (hentry i) fun _ _ => rfl
  · rw [hentry] at hi hj
    exact (Equiv.swap i1 i2).injective (h.distinct _ _ id hi hj)
  · rw [hentry] at hi
    exact h.known _ id hi
  · rw [hentry] at hid
    have hne1 : i ≠ i1 := fun heq => h.free i hi id1 (heq ▸ h1)
    have hne2 : i ≠ i2 := fun heq => h.free i hi id2 (heq ▸ h2)
    rw [Equiv.swap_apply_of_ne_of_ne hne1 hne2] at hid
    exact h.free i hi id hid
  · rcases List.mem_append.mp hmove with hmove | hmove
    · exact h.moved move hmove
    · rw [List.mem_singleton.mp hmove]
      exact ⟨fun hi => h.free i1 hi id1 h1, fun hi => h.free i2 hi id2 h2, fun hdirect => by cases hdirect⟩

end

/-- Every sequence of events keeps the log right. -/
lemma Logged.events (hvalue : ∀ (request : CachedRequestState γ) (idx : ℕ),
      value ⟨idx, request.samplingParams, request.promptTokenIds, request.outputList⟩ = worth request)
    (h : Logged value default worth values s) (hevents : Relation.ReflTransGen (SlotEvent A) s s') :
    Logged value default worth values s' := by
  induction hevents with
  | refl => exact h
  | tail _ hevent ih =>
    cases hevent with
    | remove hidx hmoved => exact ih.remove hidx hmoved
    | reuse hmoved hperm hidx hnew _ => exact ih.reuse (hvalue _ _) hmoved hperm hidx hnew
    | append hmoved hremoved hnew _ => exact ih.append (hvalue _ _) hmoved hremoved hnew
    | write => exact ih.write _
    | sort hperm => exact ih.sort hperm
    | move hremoved hrest hlast hempty => exact ih.move hremoved hrest hlast hempty
    | trim hbeyond => exact ih.trim hbeyond
    | swap h1 h2 => exact ih.swap h1 h2

/-- The log of the additions has only requests that the step adds. -/
lemma forall_added_of_events {Q : AddedRequest → Prop} (hQ : ∀ request idx, A request →
      Q ⟨idx, request.samplingParams, request.promptTokenIds, request.outputList⟩)
    (h : ∀ added ∈ s.builder.added, Q added) (hevents : Relation.ReflTransGen (SlotEvent A) s s') :
    ∀ added ∈ s'.builder.added, Q added := by
  induction hevents with
  | refl => exact h
  | tail _ hevent ih =>
    cases hevent with
    | reuse hmoved hperm hidx hnew hadded | append hmoved hremoved hnew hadded =>
      refine forall_mem_append.mpr ⟨ih, ?_⟩
      rw [forall_mem_singleton]
      exact hQ _ _ hadded
    | remove | write | sort | move | trim | swap => exact ih

end

end VllmRuntime
