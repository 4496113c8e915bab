import VllmRuntime.Model.PromptUpdates

/-! # Where updates are applied

Each match is that of a target, and each item is updated once. The prompt is kept as long as no match that is
applied begins before the end of the one before it. -/

namespace VllmRuntime

variable {startIdx fuel itemIdx : ℕ} {targetMatch : PromptTargetMatch} {modality : Modality}

open List

/-! ## Slices -/

section Slice

variable {α : Type} (xs : List α)

@[simp] lemma length_slice (start stop : ℕ) : (slice xs start stop).length = min stop xs.length - start := by
  simp [slice]

lemma slice_append_drop {start stop : ℕ} (hle : start ≤ stop) :
    slice xs start stop ++ xs.drop stop = xs.drop start := by
  have hdrop : xs.drop stop = (xs.drop start).drop (stop - start) := by
    rw [drop_drop, Nat.add_sub_cancel' hle]
  rw [slice, drop_take, hdrop, take_append_drop]

lemma slice_append_slice {a b c : ℕ} (hab : a ≤ b) (hbc : b ≤ c) :
    slice xs a b ++ slice xs b c = slice xs a c := by
  have htake : (xs.take c).take b = xs.take b := by rw [take_take, min_eq_left hbc]
  have hslice := slice_append_drop (xs.take c) hab
  rw [slice, htake] at hslice
  exact hslice

end Slice

/-! ## Matches of a target -/

/-- The tokens that the target stands for. -/
def UpdateTarget.tokens : UpdateTarget → List TokenId
  | .seq tokenIds => tokenIds
  | .index _ => []

/-- The match is a place of the prompt with these tokens. -/
structure PromptTargetMatch.Places (targetMatch : PromptTargetMatch) (prompt tokens : List TokenId) : Prop where
  stop : targetMatch.endIdx = targetMatch.startIdx + tokens.length
  le : targetMatch.endIdx ≤ prompt.length
  eq : slice prompt targetMatch.startIdx targetMatch.endIdx = tokens

lemma places_iterTokenMatchesLoop {tokenIds matchIds : List TokenId}
    (h : targetMatch ∈ iterTokenMatchesLoop tokenIds matchIds fuel startIdx) :
    targetMatch.Places tokenIds matchIds := by
  induction fuel generalizing startIdx with
  | zero => simp [iterTokenMatchesLoop] at h
  | succ fuel ih =>
    simp only [iterTokenMatchesLoop] at h
    split at h
    · rename_i hlt
      split at h
      · rename_i heq
        rcases mem_cons.mp h with rfl | h
        · exact ⟨rfl, by simpa using Nat.lt_succ_iff.mp hlt, heq⟩
        · exact ih h
      · exact ih h
    · simp at h

lemma PromptIndex.getMatchIndex_le {prompt : List TokenId} {matchIdx : ℕ} {index : PromptIndex}
    (h : index.getMatchIndex prompt startIdx = some matchIdx) : matchIdx ≤ prompt.length := by
  cases index with
  | start =>
    cases h
    exact Nat.zero_le _
  | stop =>
    cases h
    exact le_rfl
  | afterSeq seq =>
    simp only [getMatchIndex] at h
    split at h
    · cases h
    · split at h
      · rename_i heq
        cases h
        have hlength := congrArg List.length heq
        simp at hlength
        omega
      · cases h

/-- A match of an update is a place of its target. -/
lemma ResolvedPromptUpdate.places_iterTokenMatches {update : ResolvedPromptUpdate} {prompt : List TokenId}
    (h : targetMatch ∈ update.iterTokenMatches prompt startIdx) :
    targetMatch.Places prompt update.target.tokens := by
  unfold iterTokenMatches at h
  split at h
  · rename_i index htarget
    split at h
    · simp at h
    · rename_i matchIdx hindex
      obtain rfl := mem_singleton.mp h
      rw [htarget]
      refine ⟨rfl, PromptIndex.getMatchIndex_le hindex, ?_⟩
      simp [slice, UpdateTarget.tokens]
  · rename_i tokenIds htarget
    rw [htarget]
    unfold VllmRuntime.iterTokenMatches at h
    split at h
    · simp at h
    · exact places_iterTokenMatchesLoop h

/-! ## Matches of a round -/

namespace MatchToApply

def item (a : MatchToApply) : Modality × ℕ := (a.modality, a.itemIdx)

/-- The match is the first one of an update of an item that is still without an update. -/
structure Found (prompt : List TokenId) (updates : MultiModalPromptUpdates) (prevEndIdx : ℕ) (result : ApplyResult)
    (a : MatchToApply) : Prop where
  unapplied : result a.modality a.itemIdx = none
  mem : ∃ item, (a.modality, a.itemIdx, item) ∈ itemEntries updates ∧ item[a.updateIdx]? = some a.update
  head : (a.update.iterTokenMatches prompt prevEndIdx).head? = some a.targetMatch

lemma Found.places {prompt : List TokenId} {updates : MultiModalPromptUpdates} {prevEndIdx : ℕ}
    {result : ApplyResult} {a : MatchToApply} (h : a.Found prompt updates prevEndIdx result) :
    a.targetMatch.Places prompt a.update.target.tokens :=
  ResolvedPromptUpdate.places_iterTokenMatches (mem_of_head? h.head)

end MatchToApply

variable {prompt : List TokenId} {updates : MultiModalPromptUpdates} {prevEndIdx : ℕ} {result : ApplyResult}

lemma findItemMatch_eq_some {mode : Option UpdateMode} {item : List (ResolvedPromptUpdate × ℕ)}
    {a : MatchToApply} (h : findItemMatch prompt prevEndIdx modality itemIdx mode item = some a) :
    a.modality = modality ∧ a.itemIdx = itemIdx ∧ (a.update, a.updateIdx) ∈ item ∧
      (mode.all (· = a.update.mode) = true) ∧ (a.update.iterTokenMatches prompt prevEndIdx).head? = some a.targetMatch := by
  induction item with
  | nil => simp [findItemMatch] at h
  | cons entry item ih =>
    obtain ⟨update, updateIdx⟩ := entry
    simp only [findItemMatch] at h
    split at h
    · obtain ⟨hm, hi, hmem, hrest⟩ := ih h
      exact ⟨hm, hi, mem_cons_of_mem _ hmem, hrest⟩
    · rename_i targetMatch rest hmatches
      split at h
      · rename_i hmode
        cases h
        exact ⟨rfl, rfl, mem_cons_self, hmode, by simp [hmatches]⟩
      · obtain ⟨hm, hi, hmem, hrest⟩ := ih h
        exact ⟨hm, hi, mem_cons_of_mem _ hmem, hrest⟩

/-- The matches that are collected are for different items, and all have the mode. -/
lemma collectMatches_spec (entries : List (Modality × ℕ × List ResolvedPromptUpdate)) (mode : Option UpdateMode)
    (mmMatches : List MatchToApply) (hsub : entries ⊆ itemEntries updates)
    (hmode : ∀ a ∈ mmMatches, mode = some a.update.mode) (hne : mode.isSome → mmMatches ≠ []) :
    ∃ more, (collectMatches prompt prevEndIdx result entries mode mmMatches).2 = mmMatches ++ more ∧
      (more.map MatchToApply.item).Sublist (entries.map fun e => (e.1, e.2.1)) ∧
      (∀ a ∈ more, a.Found prompt updates prevEndIdx result) ∧
      (∀ a ∈ mmMatches ++ more, (collectMatches prompt prevEndIdx result entries mode mmMatches).1 =
        some a.update.mode) ∧
      ((collectMatches prompt prevEndIdx result entries mode mmMatches).1.isSome → mmMatches ++ more ≠ []) := by
  induction entries generalizing mode mmMatches with
  | nil =>
    refine ⟨[], by simp [collectMatches], List.Sublist.slnil, by simp, ?_, ?_⟩
    · simpa [collectMatches] using hmode
    · simpa [collectMatches] using hne
  | cons entry entries ih =>
    obtain ⟨modality, itemIdx, item⟩ := entry
    have hrest := cons_subset.mp hsub
    rw [collectMatches]
    split
    · obtain ⟨more, heq, hitems, hfound, hmodes, hsome⟩ := ih mode mmMatches hrest.2 hmode hne
      exact ⟨more, heq, hitems.cons _, hfound, hmodes, hsome⟩
    · rename_i hnone
      split
      · obtain ⟨more, heq, hitems, hfound, hmodes, hsome⟩ := ih mode mmMatches hrest.2 hmode hne
        exact ⟨more, heq, hitems.cons _, hfound, hmodes, hsome⟩
      · rename_i a ha
        obtain ⟨rfl, rfl, hmem, hall, hmatch⟩ := findItemMatch_eq_some ha
        have hmode' : ∀ b ∈ mmMatches ++ [a], some a.update.mode = some b.update.mode := by
          intro b hb
          rcases mem_append.mp hb with hb | hb
          · rw [hmode b hb] at hall
            simpa [eq_comm] using hall
          · rw [mem_singleton.mp hb]
        obtain ⟨more, heq, hitems, hfound, hmodes, hsome⟩ := ih (some a.update.mode) (mmMatches ++ [a]) hrest.2
          hmode' fun _ => by simp
        refine ⟨a :: more, by simpa using heq, hitems.cons_cons _, ?_, by simpa using hmodes, by simp⟩
        intro b hb
        rcases mem_cons.mp hb with rfl | hb
        · exact ⟨by simpa using hnone, ⟨item, hrest.1, mem_zipIdx_iff_getElem?.mp hmem⟩, hmatch⟩
        · exact hfound b hb

lemma oneNonEmpty_sublist (hasNonEmptyMatches : Bool) (items : List MatchToApply) :
    (oneNonEmpty hasNonEmptyMatches items).Sublist items := by
  induction items generalizing hasNonEmptyMatches with
  | nil => simp [oneNonEmpty]
  | cons item items ih =>
    rw [oneNonEmpty]
    split
    · exact (ih _).cons_cons _
    · split
      · exact (ih _).cons _
      · exact (ih _).cons_cons _

lemma oneNonEmpty_ne_nil {items : List MatchToApply} (h : items ≠ []) : oneNonEmpty false items ≠ [] := by
  cases items with
  | nil => exact absurd rfl h
  | cons item items =>
    rw [oneNonEmpty]
    split <;> simp

lemma mem_itemEntries {item : List ResolvedPromptUpdate} :
    (modality, itemIdx, item) ∈ itemEntries updates ↔
      ∃ items, (modality, items) ∈ updates ∧ items[itemIdx]? = some item := by
  simp only [itemEntries, mem_flatMap, mem_map, Prod.exists, Prod.mk.injEq, mem_zipIdx_iff_getElem?]
  constructor
  · rintro ⟨_, items, hmem, _, _, hitem, rfl, rfl, rfl⟩
    exact ⟨items, hmem, hitem⟩
  · rintro ⟨items, hmem, hitem⟩
    exact ⟨modality, items, hmem, item, itemIdx, hitem, rfl, rfl, rfl⟩

/-- The items of a modality come in their order. -/
lemma pairwise_itemEntries (hnodup : (updates.map Prod.fst).Nodup) :
    (itemEntries updates).Pairwise fun e e' => e.1 = e'.1 → e.2.1 < e'.2.1 := by
  induction updates with
  | nil => simp [itemEntries]
  | cons entry updates ih =>
    obtain ⟨m, items⟩ := entry
    rw [map_cons, nodup_cons] at hnodup
    have hsplit : itemEntries ((m, items) :: updates) =
        (items.zipIdx.map fun p => (m, p.2, p.1)) ++ itemEntries updates := by
      simp [itemEntries]
    rw [hsplit, pairwise_append]
    refine ⟨?_, ih hnodup.2, ?_⟩
    · rw [pairwise_map]
      have hindices : (items.zipIdx.map Prod.snd).Pairwise (· < ·) := by
        simp [pairwise_lt_range']
      refine (pairwise_map.mp hindices).imp ?_
      intro p q hlt _
      exact hlt
    · intro e he e' he' heq
      obtain ⟨p, -, rfl⟩ := mem_map.mp he
      obtain ⟨m', i, item⟩ := e'
      obtain ⟨items', hitems, -⟩ := mem_itemEntries.mp he'
      exact absurd (mem_map.mpr ⟨_, hitems, heq.symm⟩) hnodup.1

lemma nodup_itemEntries (hnodup : (updates.map Prod.fst).Nodup) :
    ((itemEntries updates).map fun e => (e.1, e.2.1)).Nodup := by
  refine pairwise_map.mpr ((pairwise_itemEntries hnodup).imp fun hlt heq => ?_)
  obtain ⟨hmodality, hitem⟩ := Prod.mk.inj heq
  exact (hlt hmodality).ne hitem

/-- A round applies matches for different items, or there are none. -/
lemma findMatches_spec (hnodup : (updates.map Prod.fst).Nodup) :
    findMatches prompt updates prevEndIdx result = (none, []) ∨
      ∃ mode matches', findMatches prompt updates prevEndIdx result = (some mode, matches') ∧ matches' ≠ [] ∧
        (matches'.map MatchToApply.item).Nodup ∧
        ∀ a ∈ matches', a.update.mode = mode ∧ a.Found prompt updates prevEndIdx result := by
  obtain ⟨more, heq, hitems, hfound, hmodes, hsome⟩ := @collectMatches_spec prompt updates prevEndIdx result
    (itemEntries updates) none [] (fun _ h => h) (by simp) (by simp)
  rw [nil_append] at heq hmodes hsome
  have hperm := perm_insertionSort MatchToApply.Le more
  unfold findMatches
  cases hmode : (collectMatches prompt prevEndIdx result (itemEntries updates) none []).1 with
  | none =>
    have hnil : more = [] := by
      rw [eq_nil_iff_forall_not_mem]
      intro a ha
      rw [hmode] at hmodes
      cases hmodes a ha
    subst hnil
    left
    simp [hmode, heq]
  | some mode =>
    rw [hmode] at hmodes hsome
    have hmore : more ≠ [] := hsome rfl
    have hsorted : more.insertionSort MatchToApply.Le ≠ [] := by
      intro hnil
      rw [hnil] at hperm
      exact hmore hperm.nil_eq.symm
    have hspec : ∀ matches' : List MatchToApply, matches'.Sublist (more.insertionSort MatchToApply.Le) →
        (matches'.map MatchToApply.item).Nodup ∧
          ∀ a ∈ matches', a.update.mode = mode ∧ a.Found prompt updates prevEndIdx result := by
      intro matches' hsub
      have hnodup' : ((more.insertionSort MatchToApply.Le).map MatchToApply.item).Nodup :=
        (hperm.map _).nodup_iff.mpr ((nodup_itemEntries hnodup).sublist hitems)
      refine ⟨hnodup'.sublist (hsub.map _), fun a ha => ?_⟩
      have hmem : a ∈ more := hperm.mem_iff.mp (hsub.subset ha)
      exact ⟨(Option.some.inj (hmodes a hmem)).symm, hfound a hmem⟩
    right
    by_cases hreplace : mode = .replace
    · subst hreplace
      refine ⟨.replace, oneNonEmpty false (more.insertionSort MatchToApply.Le), ?_, oneNonEmpty_ne_nil hsorted,
        hspec _ (oneNonEmpty_sublist false _)⟩
      simp [hmode, heq]
    · refine ⟨mode, more.insertionSort MatchToApply.Le, ?_, hsorted, hspec _ (List.Sublist.refl _)⟩
      simp [hmode, heq, hreplace]

/-! ## What is applied -/

namespace MatchToApply

/-- What the output has in place of the target. -/
def output (a : MatchToApply) : List TokenId :=
  match a.update.mode with
  | .insert => a.update.target.tokens ++ a.update.content.full
  | .replace => a.update.content.full

/-- Where the content goes. -/
def endIdxToInsert (a : MatchToApply) : ℕ :=
  match a.update.mode with
  | .insert => a.targetMatch.endIdx
  | .replace => a.targetMatch.startIdx

end MatchToApply

/-- The matches follow one another, the first one from the cursor on. -/
def Exclusive : ℕ → List MatchToApply → Prop
  | _, [] => True
  | cursor, a :: as => cursor ≤ a.targetMatch.startIdx ∧ Exclusive a.targetMatch.endIdx as

/-- The cursor after the matches. -/
def cursorAfter : ℕ → List MatchToApply → ℕ
  | cursor, [] => cursor
  | _, a :: as => cursorAfter a.targetMatch.endIdx as

/-- The tokens that are put out with the matches. -/
def pieces (prompt : List TokenId) : ℕ → List MatchToApply → List TokenId
  | _, [] => []
  | cursor, a :: as => slice prompt cursor a.endIdxToInsert ++ a.update.content.full ++
      pieces prompt a.targetMatch.endIdx as

/-- The tokens from a position on are cut at the targets of the matches, and the output has the same pieces
with the updated targets. -/
inductive Splices : ℕ → List TokenId → List MatchToApply → List TokenId → Prop where
  | done (pos : ℕ) (rest : List TokenId) : Splices pos rest [] rest
  | update {pos : ℕ} {a : MatchToApply} {before rest out : List TokenId} {as : List MatchToApply} :
      pos + before.length = a.targetMatch.startIdx → Splices a.targetMatch.endIdx rest as out →
      Splices pos (before ++ a.update.target.tokens ++ rest) (a :: as) (before ++ a.output ++ out)

section Pieces

variable {cursor : ℕ} {a : MatchToApply} {as bs : List MatchToApply}

lemma cursorAfter_append : cursorAfter cursor (as ++ bs) = cursorAfter (cursorAfter cursor as) bs := by
  induction as generalizing cursor with
  | nil => rfl
  | cons a as ih => exact ih

lemma pieces_append :
    pieces prompt cursor (as ++ bs) = pieces prompt cursor as ++ pieces prompt (cursorAfter cursor as) bs := by
  induction as generalizing cursor with
  | nil => rfl
  | cons a as ih => simp [pieces, cursorAfter, ih]

lemma exclusive_append :
    Exclusive cursor (as ++ bs) ↔ Exclusive cursor as ∧ Exclusive (cursorAfter cursor as) bs := by
  induction as generalizing cursor with
  | nil => simp [Exclusive, cursorAfter]
  | cons a as ih => simp [Exclusive, cursorAfter, ih, and_assoc]

/-- The targets are in the order of the matches. -/
lemma Splices.exclusive {rest out : List TokenId} (h : Splices cursor rest as out) : Exclusive cursor as := by
  induction h with
  | done pos rest => trivial
  | update hpos _ ih => exact ⟨hpos ▸ Nat.le_add_right _ _, ih⟩

/-- A match after the cursor cuts the prompt. -/
lemma MatchToApply.cut (hplaces : a.targetMatch.Places prompt a.update.target.tokens)
    (hle : cursor ≤ a.targetMatch.startIdx) :
    prompt.drop cursor = slice prompt cursor a.targetMatch.startIdx ++ a.update.target.tokens ++
        prompt.drop a.targetMatch.endIdx ∧
      slice prompt cursor a.endIdxToInsert ++ a.update.content.full =
        slice prompt cursor a.targetMatch.startIdx ++ a.output := by
  have hstop : a.targetMatch.startIdx ≤ a.targetMatch.endIdx := hplaces.stop ▸ Nat.le_add_right _ _
  refine ⟨?_, ?_⟩
  · rw [← hplaces.eq, append_assoc, slice_append_drop prompt hstop, slice_append_drop prompt hle]
  · unfold endIdxToInsert output
    cases a.update.mode with
    | replace => rfl
    | insert => rw [← slice_append_slice prompt hle hstop, hplaces.eq, append_assoc]

/-- What is put out are the pieces of the prompt with the updated targets exactly when the matches follow one
another. -/
lemma splices_iff (hplaces : ∀ a ∈ as, a.targetMatch.Places prompt a.update.target.tokens) :
    Splices cursor (prompt.drop cursor) as (pieces prompt cursor as ++ prompt.drop (cursorAfter cursor as)) ↔
      Exclusive cursor as := by
  refine ⟨Splices.exclusive, fun hexclusive => ?_⟩
  induction as generalizing cursor with
  | nil => exact .done _ _
  | cons a as ih =>
    obtain ⟨hle, hexclusive⟩ := hexclusive
    rw [forall_mem_cons] at hplaces
    obtain ⟨hcut, hput⟩ := MatchToApply.cut hplaces.1 hle
    have hlength : cursor + (slice prompt cursor a.targetMatch.startIdx).length = a.targetMatch.startIdx := by
      have hbound := hplaces.1.le
      have hstop := hplaces.1.stop
      simp
      omega
    rw [hcut]
    simpa [pieces, cursorAfter, hput, append_assoc] using
      Splices.update hlength (ih hplaces.2 hexclusive)

end Pieces

/-! ## The loop -/

/-- In each round, the matches that are applied follow one another, the first one from the cursor on. -/
def ExclusiveRounds (prompt : List TokenId) (updates : MultiModalPromptUpdates) : ℕ → ApplyState → Prop
  | 0, _ => True
  | fuel + 1, s =>
    match findMatches prompt updates s.prevEndIdx s.outResult with
    | (none, _) => True
    | (some mode, matchesToApply) =>
      let s' := matchesToApply.foldl (ApplyState.applyMatch prompt mode) s
      Exclusive s.prevEndIdx matchesToApply ∧
        (allItemsFound updates (foundCounts updates s'.outResult) ∨ ExclusiveRounds prompt updates fuel s')

/-- The output, the cursor and the result are those of the matches that were applied. -/
structure ApplyState.Applied (prompt : List TokenId) (updates : MultiModalPromptUpdates) (s : ApplyState) : Prop where
  out : s.outSeqs.flatten = pieces prompt 0 s.applied
  cursor : s.prevEndIdx = cursorAfter 0 s.applied
  once : (s.applied.map MatchToApply.item).Nodup
  result : ∀ modality itemIdx updateIdx, s.outResult modality itemIdx = some updateIdx ↔
    ∃ a ∈ s.applied, a.item = (modality, itemIdx) ∧ a.updateIdx = updateIdx
  places : ∀ a ∈ s.applied, a.targetMatch.Places prompt a.update.target.tokens
  mem : ∀ a ∈ s.applied, ∃ item, (a.modality, a.itemIdx, item) ∈ itemEntries updates ∧
    item[a.updateIdx]? = some a.update

/-- The number of items that have no update. -/
def ApplyState.unapplied (updates : MultiModalPromptUpdates) (s : ApplyState) : ℕ :=
  (itemEntries updates).countP fun e => (s.outResult e.1 e.2.1).isNone

namespace ApplyState

variable {s s' : ApplyState} {mode : UpdateMode} {a : MatchToApply} {as : List MatchToApply}

lemma applied_start : ({} : ApplyState).Applied prompt updates where
  out := rfl
  cursor := rfl
  once := nodup_nil
  result := by simp
  places := by simp
  mem := by simp

/-- An update is applied to an item that has none. -/
lemma Applied.applyMatch (hs : s.Applied prompt updates) (hmode : a.update.mode = mode)
    (hfound : a.Found prompt updates prevEndIdx s.outResult) : (s.applyMatch prompt mode a).Applied prompt updates where
  out := by
    subst hmode
    simp only [ApplyState.applyMatch, pieces_append, pieces, ← hs.cursor, ← hs.out, flatten_append]
    simp only [flatten_cons, flatten_nil, append_nil]
    rfl
  cursor := by simp [ApplyState.applyMatch, cursorAfter_append, cursorAfter]
  once := by
    simp only [ApplyState.applyMatch, map_append, map_cons, map_nil]
    refine nodup_append.mpr ⟨hs.once, nodup_singleton _, ?_⟩
    rintro x hx y hy rfl
    obtain ⟨b, hb, hitem⟩ := mem_map.mp hx
    have hsome := (hs.result a.modality a.itemIdx b.updateIdx).mpr
      ⟨b, hb, hitem.trans (mem_singleton.mp hy), rfl⟩
    rw [hfound.unapplied] at hsome
    cases hsome
  result modality itemIdx updateIdx := by
    simp only [ApplyState.applyMatch, mem_append, mem_singleton, or_and_right, exists_or, exists_eq_left]
    split
    · rename_i hitem
      obtain ⟨rfl, rfl⟩ := hitem
      have hnone : ¬∃ b ∈ s.applied, b.item = (a.modality, a.itemIdx) ∧ b.updateIdx = updateIdx := by
        simp [← hs.result, hfound.unapplied]
      rw [or_iff_right hnone]
      simp [MatchToApply.item]
    · rename_i hitem
      rw [hs.result]
      refine (or_iff_left fun h => hitem ?_).symm
      exact ⟨(Prod.mk.inj h.1).1.symm, (Prod.mk.inj h.1).2.symm⟩
  places := by
    simpa [ApplyState.applyMatch, or_imp, forall_and] using ⟨hs.places, hfound.places⟩
  mem := by
    simpa [ApplyState.applyMatch, or_imp, forall_and] using ⟨hs.mem, hfound.mem⟩

/-- The updates of a round are applied. -/
lemma Applied.foldl_applyMatch (hs : s.Applied prompt updates) (hnodup : (as.map MatchToApply.item).Nodup)
    (hfound : ∀ a ∈ as, a.update.mode = mode ∧ a.Found prompt updates prevEndIdx s.outResult) :
    (as.foldl (ApplyState.applyMatch prompt mode) s).Applied prompt updates ∧
      (as.foldl (ApplyState.applyMatch prompt mode) s).applied = s.applied ++ as := by
  induction as generalizing s with
  | nil => exact ⟨hs, (append_nil _).symm⟩
  | cons a as ih =>
    rw [map_cons, nodup_cons] at hnodup
    rw [forall_mem_cons] at hfound
    obtain ⟨hmode, ha⟩ := hfound.1
    have hrest : ∀ b ∈ as, b.update.mode = mode ∧
        b.Found prompt updates prevEndIdx (s.applyMatch prompt mode a).outResult := by
      intro b hb
      obtain ⟨hmode', hb'⟩ := hfound.2 b hb
      refine ⟨hmode', ⟨?_, hb'.mem, hb'.head⟩⟩
      have hne : ¬(b.modality = a.modality ∧ b.itemIdx = a.itemIdx) := by
        rintro ⟨hm, hi⟩
        exact hnodup.1 (mem_map.mpr ⟨b, hb, by simp [MatchToApply.item, hm, hi]⟩)
      simp only [ApplyState.applyMatch, if_neg hne]
      exact hb'.unapplied
    obtain ⟨happlied, heq⟩ := ih (hs.applyMatch hmode ha) hnodup.2 hrest
    refine ⟨happlied, ?_⟩
    rw [foldl_cons, heq]
    simp [ApplyState.applyMatch]

/-- Each round leaves fewer items without an update. -/
lemma Applied.unapplied_lt (hs : s.Applied prompt updates) (hs' : s'.Applied prompt updates) (hne : as ≠ [])
    (heq : s'.applied = s.applied ++ as) (hfound : ∀ a ∈ as, a.Found prompt updates prevEndIdx s.outResult) :
    s'.unapplied updates < s.unapplied updates := by
  have hresult : ∀ a ∈ s'.applied, s'.outResult a.modality a.itemIdx = some a.updateIdx := fun a ha =>
    (hs'.result _ _ _).mpr ⟨a, ha, rfl, rfl⟩
  obtain ⟨a, as, rfl⟩ := exists_cons_of_ne_nil hne
  obtain ⟨item, hmem, -⟩ := (hfound a mem_cons_self).mem
  have hsub : ((itemEntries updates).filter fun e => (s'.outResult e.1 e.2.1).isNone).Sublist
      ((itemEntries updates).filter fun e => (s.outResult e.1 e.2.1).isNone) := by
    refine monotone_filter_right _ fun e hnone => ?_
    rw [Option.isNone_iff_eq_none] at hnone ⊢
    rw [Option.eq_none_iff_forall_ne_some] at hnone ⊢
    intro updateIdx hsome
    obtain ⟨b, hb, hitem, hidx⟩ := (hs.result _ _ _).mp hsome
    exact hnone updateIdx ((hs'.result _ _ _).mpr ⟨b, by simp [heq, hb], hitem, hidx⟩)
  rw [unapplied, unapplied, countP_eq_length_filter, countP_eq_length_filter]
  refine hsub.length_le.lt_of_ne fun hlength => ?_
  have hin : (a.modality, a.itemIdx, item) ∈ (itemEntries updates).filter fun e => (s.outResult e.1 e.2.1).isNone :=
    mem_filter.mpr ⟨hmem, by simp [(hfound a mem_cons_self).unapplied]⟩
  rw [← hsub.eq_of_length hlength, mem_filter, hresult a (by simp [heq])] at hin
  cases hin.2

end ApplyState

/-- With a round for each item, the loop comes to its end. Its matches follow one another exactly when those of
each round do. -/
lemma applyLoop_spec (hnodup : (updates.map Prod.fst).Nodup) {s : ApplyState}
    (hs : s.Applied prompt updates) (hfuel : s.unapplied updates < fuel) :
    ∃ s' more, applyLoop prompt updates fuel s = some s' ∧ s'.Applied prompt updates ∧
      s'.applied = s.applied ++ more ∧ (ExclusiveRounds prompt updates fuel s ↔ Exclusive s.prevEndIdx more) := by
  induction fuel generalizing s with
  | zero => exact absurd hfuel (Nat.not_lt_zero _)
  | succ fuel ih =>
    rw [applyLoop, ExclusiveRounds]
    rcases @findMatches_spec prompt updates s.prevEndIdx s.outResult hnodup with
      hnone | ⟨mode, as, hsome, hne, hitems, hfound⟩
    · rw [hnone]
      exact ⟨s, [], rfl, hs, (append_nil _).symm, Iff.rfl⟩
    · rw [hsome]
      obtain ⟨hs', heq⟩ := hs.foldl_applyMatch hitems hfound
      have hlt := hs.unapplied_lt hs' hne heq fun a ha => (hfound a ha).2
      dsimp only
      generalize as.foldl (ApplyState.applyMatch prompt mode) s = s' at hs' heq hlt
      split
      · rename_i hall
        exact ⟨s', as, rfl, hs', heq, by simp [hall]⟩
      · rename_i hall
        obtain ⟨s'', more, hloop, hs'', heq', hiff⟩ := ih hs' (by omega)
        refine ⟨s'', as ++ more, hloop, hs'', by rw [heq', heq, append_assoc], ?_⟩
        have hcursor : cursorAfter s.prevEndIdx as = s'.prevEndIdx := by
          rw [hs'.cursor, heq, cursorAfter_append, hs.cursor]
        simp [hall, hiff, exclusive_append, hcursor]

/-- When all items are found from the start, there are none. -/
lemma itemEntries_of_allItemsFound
    (h : allItemsFound updates (foundCounts updates fun _ _ => none) = true) : itemEntries updates = [] := by
  have hzero : ∀ modality, foundCounts updates (fun _ _ => none) modality = 0 := by
    simp [foundCounts]
  simp only [allItemsFound, hzero, ge_iff_le, Nat.le_zero, all_eq_true, decide_eq_true_eq,
    length_eq_zero_iff] at h
  simp only [itemEntries, flatMap_eq_nil_iff, map_eq_nil_iff, zipIdx_eq_nil_iff]
  exact h

/-- The condition under which `_apply_matches` keeps the tokens of the prompt. -/
def ExclusiveMatches (prompt : List TokenId) (updates : MultiModalPromptUpdates) : Prop :=
  ExclusiveRounds prompt updates ((itemEntries updates).length + 1) {}

/-- Updates are applied in finitely many rounds, to each item at most one, and the tokens of the prompt are kept
exactly when the matches follow one another. -/
theorem applyTokenMatches_splices_iff (hnodup : (updates.map Prod.fst).Nodup) :
    ∃ out result applied, applyTokenMatches prompt updates = some (out, result, applied) ∧
      (applied.map MatchToApply.item).Nodup ∧
      (∀ modality itemIdx updateIdx, result modality itemIdx = some updateIdx ↔
        ∃ a ∈ applied, a.item = (modality, itemIdx) ∧ a.updateIdx = updateIdx) ∧
      (∀ a ∈ applied, a.targetMatch.Places prompt a.update.target.tokens ∧
        ∃ item, (a.modality, a.itemIdx, item) ∈ itemEntries updates ∧ item[a.updateIdx]? = some a.update) ∧
      (Splices 0 prompt applied out ↔ ExclusiveMatches prompt updates) := by
  have hstart := @ApplyState.applied_start prompt updates
  have hfuel : ({} : ApplyState).unapplied updates < (itemEntries updates).length + 1 :=
    Nat.lt_succ_of_le countP_le_length
  obtain ⟨s, more, hloop, hs, happlied, hiff⟩ := applyLoop_spec hnodup hstart hfuel
  have hout := @splices_iff prompt 0 s.applied hs.places
  rw [drop_zero, ← hs.out, ← hs.cursor] at hout
  rw [applyTokenMatches, applyMatches]
  dsimp only
  split
  · rename_i hall
    have hempty := itemEntries_of_allItemsFound hall
    refine ⟨prompt, fun _ _ => none, [], by simp, nodup_nil, by simp, by simp, iff_of_true (.done _ _) ?_⟩
    simp [ExclusiveMatches, ExclusiveRounds, findMatches, collectMatches, hempty]
  · refine ⟨s.outSeqs.flatten ++ prompt.drop s.prevEndIdx, s.outResult, s.applied, by simp [hloop], hs.once,
      hs.result, fun a ha => ⟨hs.places a ha, hs.mem a ha⟩, ?_⟩
    rw [hout, ExclusiveMatches, hiff, happlied]
    rfl

/-! ## Examples -/

/-- A text with a place for an audio, and an image that goes to the start. -/
def audioAndImage : MultiModalPromptUpdates :=
  [("audio", [[⟨.replace, .seq [2], ⟨[9], none⟩⟩]]), ("image", [[⟨.insert, .index .start, ⟨[7, 7], none⟩⟩]])]

/-- The tokens before the audio are put out twice. -/
theorem applyTokenMatches_audioAndImage :
    ∃ result applied, applyTokenMatches [1, 2, 3] audioAndImage = some ([1, 9, 7, 7, 1, 2, 3], result, applied) ∧
      ¬ Splices 0 [1, 2, 3] applied [1, 9, 7, 7, 1, 2, 3] := by
  refine ⟨_, _, rfl, fun h => ?_⟩
  obtain ⟨-, hle, -⟩ := h.exclusive
  exact absurd hle (by decide)

/-- An image after the start of the text, and an audio. -/
def imageThenAudio : MultiModalPromptUpdates :=
  [("image", [[⟨.insert, .index (.afterSeq [1]), ⟨[7, 7], none⟩⟩]]), ("audio", [[⟨.replace, .seq [2], ⟨[9], none⟩⟩]])]

theorem applyTokenMatches_imageThenAudio :
    ∃ result applied, applyTokenMatches [1, 2, 3] imageThenAudio = some ([1, 7, 7, 9, 3], result, applied) ∧
      Splices 0 [1, 2, 3] applied [1, 7, 7, 9, 3] := by
  have hexclusive : ExclusiveMatches [1, 2, 3] imageThenAudio :=
    And.intro (And.intro (by decide) trivial) (Or.inr (And.intro (And.intro (by decide) trivial) (Or.inl rfl)))
  obtain ⟨out, result, applied, heq, -, -, -, hsplices⟩ :=
    @applyTokenMatches_splices_iff [1, 2, 3] imageThenAudio (by decide)
  have hout : out = [1, 7, 7, 9, 3] := (Prod.mk.inj (Option.some.inj (heq.symm.trans rfl))).1
  subst hout
  exact ⟨result, applied, heq, hsplices.mpr hexclusive⟩

end VllmRuntime
