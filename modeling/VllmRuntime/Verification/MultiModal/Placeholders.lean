import VllmRuntime.Verification.MultiModal.Splices

/-! # Finding the placeholders again

Where each modality has one token as its target, the contents are found where they were inserted: a content has
the token of its modality, and nothing before it that is still searched for has. -/

namespace VllmRuntime

open List

variable {m : Modality} {α : Type} {fuel i : ℕ} {update : ResolvedPromptUpdate} {a : MatchToApply}
  {as : List MatchToApply} {items : List (List ResolvedPromptUpdate)} {x y : α} {xs front back : List α}
  {token : TokenId} {item : List ResolvedPromptUpdate} {s : ApplyState}

/-! ## The first match of a token -/

lemma slice_succ_eq_singleton {k : ℕ} :
    slice xs k (k + 1) = [x] ↔ xs[k]? = some x := by
  rw [slice, drop_take, Nat.add_sub_cancel_left, take_one, head?_drop]
  cases xs[k]? <;> simp

/-- The match of a token at its first place from an index on. -/
structure PromptTargetMatch.First (targetMatch : PromptTargetMatch) (prompt : List TokenId) (cursor : ℕ)
    (token : TokenId) : Prop where
  le : cursor ≤ targetMatch.startIdx
  stop : targetMatch.endIdx = targetMatch.startIdx + 1
  eq : prompt[targetMatch.startIdx]? = some token
  first : ∀ k, cursor ≤ k → prompt[k]? = some token → targetMatch.startIdx ≤ k

lemma head?_iterTokenMatchesLoop {prompt : List TokenId} {cursor : ℕ}
    (hfuel : prompt.length ≤ cursor + fuel) :
    (∀ targetMatch, (iterTokenMatchesLoop prompt [token] fuel cursor).head? = some targetMatch →
      targetMatch.First prompt cursor token) ∧
    ((iterTokenMatchesLoop prompt [token] fuel cursor).head? = none →
      ∀ k, cursor ≤ k → prompt[k]? ≠ some token) := by
  induction fuel generalizing cursor with
  | zero =>
    refine ⟨by simp [iterTokenMatchesLoop], fun _ k hk => ?_⟩
    rw [getElem?_eq_none (by omega)]
    exact Option.some_ne_none token |>.symm
  | succ fuel ih =>
    simp only [iterTokenMatchesLoop, length_singleton]
    split
    · rename_i hlt
      split
      · rename_i heq
        refine ⟨?_, by simp⟩
        rintro targetMatch h
        cases h
        exact ⟨le_rfl, rfl, slice_succ_eq_singleton.mp heq, fun k hk _ => hk⟩
      · rename_i hne
        rw [slice_succ_eq_singleton] at hne
        have hnext : ∀ k, cursor ≤ k → prompt[k]? = some token → cursor + 1 ≤ k := by
          intro k hk htoken
          rcases hk.eq_or_lt with rfl | hlt
          · exact absurd htoken hne
          · exact hlt
        have hfuel' : prompt.length ≤ cursor + 1 + fuel := by omega
        obtain ⟨hsome, hnone⟩ := ih hfuel'
        refine ⟨fun targetMatch h => ?_, fun h k hk htoken => hnone h k (hnext k hk htoken) htoken⟩
        have hfirst := hsome targetMatch h
        exact ⟨Nat.le_of_succ_le hfirst.le, hfirst.stop, hfirst.eq,
          fun k hk htoken => hfirst.first k (hnext k hk htoken) htoken⟩
    · refine ⟨by simp, fun _ k hk => ?_⟩
      rw [getElem?_eq_none (by omega)]
      exact Option.some_ne_none token |>.symm

/-- An update that replaces a token. -/
def ResolvedPromptUpdate.Replaces (update : ResolvedPromptUpdate) (token : TokenId) : Prop :=
  update.mode = .replace ∧ update.target = .seq [token]

lemma ResolvedPromptUpdate.Replaces.head? (h : update.Replaces token) (prompt : List TokenId) (cursor : ℕ) :
    (∀ targetMatch, (update.iterTokenMatches prompt cursor).head? = some targetMatch →
      targetMatch.First prompt cursor token) ∧
    ((update.iterTokenMatches prompt cursor).head? = none → ∀ k, cursor ≤ k → prompt[k]? ≠ some token) := by
  have heq : update.iterTokenMatches prompt cursor = iterTokenMatchesLoop prompt [token] prompt.length cursor := by
    simp [iterTokenMatches, h.2, VllmRuntime.iterTokenMatches]
  rw [heq]
  exact head?_iterTokenMatchesLoop (Nat.le_add_left _ _)

/-! ## Updates with one token for each modality -/

/-- Each modality has its own token as target, each item one replacement of it, whose content has this token and
no other target. -/
structure SingleTargets (updates : MultiModalPromptUpdates) (target : Modality → TokenId) : Prop where
  nodup : (updates.map Prod.fst).Nodup
  distinct : ∀ m ∈ updates.map Prod.fst, ∀ m' ∈ updates.map Prod.fst, target m = target m' → m = m'
  single : ∀ m items, (m, items) ∈ updates → ∀ item ∈ items, ∃ update, item = [update] ∧
    update.Replaces (target m) ∧ target m ∈ update.content.full ∧
      ∀ m' ∈ updates.map Prod.fst, m' ≠ m → target m' ∉ update.content.full

variable {prompt : List TokenId} {updates : MultiModalPromptUpdates} {target : Modality → TokenId}
  {cursor : ℕ} {result : ApplyResult}

/-- The next match: that of the first item that is left of its modality, at the first place of a token of any
modality with items left. -/
structure MatchToApply.Next (prompt : List TokenId) (updates : MultiModalPromptUpdates)
    (target : Modality → TokenId) (cursor : ℕ) (counts : Modality → ℕ) (a : MatchToApply) : Prop where
  mem : ∃ items, (a.modality, items) ∈ updates ∧ items[a.itemIdx]? = some [a.update]
  idx : a.itemIdx = counts a.modality
  place : a.targetMatch.First prompt cursor (target a.modality)
  first : ∀ m items, (m, items) ∈ updates → counts m < items.length →
    ∀ k, cursor ≤ k → prompt[k]? = some (target m) → a.targetMatch.startIdx ≤ k

/-- The items that have an update are the first of their modality. -/
def ApplyResult.Counts (updates : MultiModalPromptUpdates) (result : ApplyResult) (counts : Modality → ℕ) : Prop :=
  ∀ m items, (m, items) ∈ updates → ∀ i < items.length, (result m i).isSome ↔ i < counts m

lemma findItemMatch_single {mode : Option UpdateMode} (hmode : mode.all (· = update.mode)) :
    findItemMatch prompt cursor m i mode [update].zipIdx =
      ((update.iterTokenMatches prompt cursor).head?).map fun targetMatch =>
        { modality := m, itemIdx := i, targetMatch, updateIdx := 0, update } := by
  simp only [zipIdx_cons, zipIdx_nil, findItemMatch]
  cases update.iterTokenMatches prompt cursor <;> simp [hmode]

lemma subset_collectMatches (entries : List (Modality × ℕ × List ResolvedPromptUpdate)) (mode : Option UpdateMode)
    (mmMatches : List MatchToApply) :
    mmMatches ⊆ (collectMatches prompt cursor result entries mode mmMatches).2 := by
  induction entries generalizing mode mmMatches with
  | nil => exact fun _ h => h
  | cons entry entries ih =>
    rw [collectMatches]
    split
    · exact ih mode mmMatches
    · split
      · exact ih mode mmMatches
      · exact fun a ha => ih _ _ (mem_append_left _ ha)

/-- With replacements only, every item that has no update and a place is among the matches. -/
lemma mem_collectMatches (entries : List (Modality × ℕ × List ResolvedPromptUpdate))
    (mode : Option UpdateMode) (mmMatches : List MatchToApply) (hmode : mode.all (· = .replace))
    (hsingle : ∀ e ∈ entries, ∃ update, e.2.2 = [update] ∧ update.mode = .replace)
    {targetMatch : PromptTargetMatch} (hmem : (m, i, [update]) ∈ entries) (hnone : result m i = none)
    (hhead : (update.iterTokenMatches prompt cursor).head? = some targetMatch) :
    { modality := m, itemIdx := i, targetMatch, updateIdx := 0, update } ∈
      (collectMatches prompt cursor result entries mode mmMatches).2 := by
  induction entries generalizing mode mmMatches with
  | nil => simp at hmem
  | cons entry entries ih =>
    obtain ⟨m', i', item⟩ := entry
    rw [forall_mem_cons] at hsingle
    obtain ⟨⟨update', hitem, hreplace⟩, hsingle⟩ := hsingle
    obtain rfl : item = [update'] := hitem
    have hfind : findItemMatch prompt cursor m' i' mode [update'].zipIdx =
        ((update'.iterTokenMatches prompt cursor).head?).map fun targetMatch =>
          { modality := m', itemIdx := i', targetMatch, updateIdx := 0, update := update' } :=
      findItemMatch_single (by rw [hreplace]; exact hmode)
    rw [collectMatches, hfind]
    rcases mem_cons.mp hmem with heq | hmem
    · cases heq
      simp only [hnone, hhead, Option.isSome_none, Bool.false_eq_true, if_false, Option.map_some]
      exact subset_collectMatches _ _ _ (by simp)
    · split
      · exact ih mode mmMatches hmode hsingle hmem
      · split
        · exact ih mode mmMatches hmode hsingle hmem
        · rename_i a ha
          obtain ⟨-, -, rfl⟩ := Option.map_eq_some_iff.mp ha
          exact ih _ _ (by simp [hreplace]) hsingle hmem

/-- Of two elements of a list, one comes before the other. -/
lemma pair_sublist_or (hx : x ∈ xs) (hy : y ∈ xs) (hne : x ≠ y) :
    [x, y].Sublist xs ∨ [y, x].Sublist xs := by
  obtain ⟨front, back, rfl⟩ := append_of_mem hx
  rw [mem_append, mem_cons] at hy
  rcases hy with hy | rfl | hy
  · right
    exact (singleton_sublist.mpr hy).append (singleton_sublist.mpr mem_cons_self)
  · exact absurd rfl hne
  · left
    exact sublist_append_of_sublist_right ((singleton_sublist.mpr hy).cons_cons x)

/-- The only update of an item. -/
lemma SingleTargets.of_mem_itemEntries (h : SingleTargets updates target)
    (hmem : (m, i, item) ∈ itemEntries updates) :
    ∃ update, item = [update] ∧ update.Replaces (target m) := by
  obtain ⟨items, hitems, hitem⟩ := mem_itemEntries.mp hmem
  obtain ⟨update, rfl, hreplaces, -⟩ := h.single m items hitems item (mem_of_getElem? hitem)
  exact ⟨update, rfl, hreplaces⟩

/-- A match of the round replaces the first place of its token. -/
lemma MatchToApply.Found.single (h : SingleTargets updates target)
    (ha : a.Found prompt updates cursor result) :
    (a.modality, a.itemIdx, [a.update]) ∈ itemEntries updates ∧ a.updateIdx = 0 ∧
      a.update.Replaces (target a.modality) ∧ a.targetMatch.First prompt cursor (target a.modality) := by
  obtain ⟨item, hmem, hupdate⟩ := ha.mem
  obtain ⟨update, rfl, hreplaces⟩ := h.of_mem_itemEntries hmem
  cases hidx : a.updateIdx with
  | zero =>
    rw [hidx] at hupdate
    cases hupdate
    exact ⟨hmem, rfl, hreplaces, (hreplaces.head? prompt cursor).1 _ ha.head⟩
  | succ idx =>
    rw [hidx] at hupdate
    simp at hupdate

/-- Of non-empty matches only the first one is kept. -/
lemma oneNonEmpty_cons (hne : ∀ b ∈ a :: as, b.targetMatch.startIdx ≠ b.targetMatch.endIdx) :
    oneNonEmpty false (a :: as) = [a] := by
  have hnone : ∀ bs : List MatchToApply, (∀ b ∈ bs, b.targetMatch.startIdx ≠ b.targetMatch.endIdx) →
      oneNonEmpty true bs = [] := by
    intro bs hbs
    induction bs with
    | nil => rfl
    | cons b bs ih =>
      rw [forall_mem_cons] at hbs
      rw [oneNonEmpty, if_neg hbs.1, if_pos rfl, ih hbs.2]
  rw [forall_mem_cons] at hne
  rw [oneNonEmpty, if_neg hne.1, hnone as hne.2]
  rfl

instance : IsTrans MatchToApply MatchToApply.Le where
  trans a b c hab hbc := by
    unfold MatchToApply.Le at *
    omega

instance : Std.Total MatchToApply.Le where
  total a b := by
    unfold MatchToApply.Le
    omega

/-- A round replaces the target of the next match. -/
lemma findMatches_single (h : SingleTargets updates target) {counts : Modality → ℕ}
    (hcounts : result.Counts updates counts) :
    findMatches prompt updates cursor result = (none, []) ∨
      ∃ a, findMatches prompt updates cursor result = (some .replace, [a]) ∧
        a.Found prompt updates cursor result ∧ a.Next prompt updates target cursor counts := by
  obtain ⟨all, hall, hitems, hfound, hmodes, hsome⟩ := @collectMatches_spec prompt updates cursor result
    (itemEntries updates) none [] (fun _ h => h) (by simp) (by simp)
  rw [nil_append] at hall hmodes hsome
  have hcomplete : ∀ {m i update targetMatch}, (m, i, [update]) ∈ itemEntries updates → result m i = none →
      (update.iterTokenMatches prompt cursor).head? = some targetMatch →
      { modality := m, itemIdx := i, targetMatch, updateIdx := 0, update } ∈ all := by
    intro m i update targetMatch hmem hnone hhead
    rw [← hall]
    refine mem_collectMatches _ none [] rfl ?_ hmem hnone hhead
    rintro ⟨m, i, item⟩ he
    obtain ⟨update, rfl, hreplaces⟩ := h.of_mem_itemEntries he
    exact ⟨update, rfl, hreplaces.1⟩
  have hperm := perm_insertionSort MatchToApply.Le all
  have hsorted := pairwise_insertionSort MatchToApply.Le all
  unfold findMatches
  cases hsort : all.insertionSort MatchToApply.Le with
  | nil =>
    left
    rw [hsort] at hperm
    have hnil : all = [] := hperm.nil_eq.symm
    cases hmode : (collectMatches prompt cursor result (itemEntries updates) none []).1 with
    | none => simp [hmode, hall, hsort]
    | some mode => exact absurd hnil (hsome (by rw [hmode]; rfl))
  | cons a as =>
    right
    rw [hsort] at hperm hsorted
    have ha : a ∈ all := hperm.mem_iff.mp mem_cons_self
    obtain ⟨hentry, hidx, hreplaces, hplace⟩ := (hfound a ha).single h
    have hmode : (collectMatches prompt cursor result (itemEntries updates) none []).1 = some .replace := by
      rw [hmodes a ha, hreplaces.1]
    have hne : ∀ b ∈ a :: as, b.targetMatch.startIdx ≠ b.targetMatch.endIdx := by
      intro b hb
      obtain ⟨-, -, -, hfirst⟩ := (hfound b (hperm.mem_iff.mp hb)).single h
      have hstop := hfirst.stop
      omega
    have hleft : ∀ {m items}, (m, items) ∈ updates → counts m < items.length →
        ∃ update, (m, counts m, [update]) ∈ itemEntries updates ∧ update.Replaces (target m) ∧
          result m (counts m) = none := by
      intro m items hitems hlt
      obtain ⟨update, hitem, hreplaces, -⟩ := h.single m items hitems _ (getElem_mem hlt)
      refine ⟨update, mem_itemEntries.mpr ⟨items, hitems, ?_⟩, hreplaces, ?_⟩
      · rw [getElem?_eq_getElem hlt, hitem]
      · have hnot := (hcounts m items hitems _ hlt).not.mpr (lt_irrefl _)
        simpa using hnot
    obtain ⟨items, hmem, hitem⟩ := mem_itemEntries.mp hentry
    have hlength : a.itemIdx < items.length := lt_of_getElem? hitem
    refine ⟨a, by simp [hmode, hall, hsort, oneNonEmpty_cons hne], hfound a ha, ⟨items, hmem, hitem⟩, ?_, hplace, ?_⟩
    · have hge : counts a.modality ≤ a.itemIdx := by
        have hnot := (hcounts a.modality items hmem _ hlength).not.mp (by simp [(hfound a ha).unapplied])
        omega
      by_contra hneq
      -- the first item that is left has the same match, so it would come first
      obtain ⟨update, hfirst, hreplaces', hnone⟩ := hleft hmem (by omega)
      have hsame : update.iterTokenMatches prompt cursor = a.update.iterTokenMatches prompt cursor := by
        simp [ResolvedPromptUpdate.iterTokenMatches, hreplaces.2, hreplaces'.2]
      have hb := hcomplete hfirst hnone (hsame ▸ (hfound a ha).head)
      generalize hbdef : MatchToApply.mk a.modality (counts a.modality) a.targetMatch 0 update = b at hb
      have hne : b ≠ a := by
        rintro rfl
        exact hneq (congrArg MatchToApply.itemIdx hbdef).symm
      have horder : all.Pairwise fun x y => x.modality = y.modality → x.itemIdx < y.itemIdx := by
        have hpairs : ((itemEntries updates).map fun e => (e.1, e.2.1)).Pairwise fun p q => p.1 = q.1 → p.2 < q.2 :=
          List.pairwise_map.mpr (pairwise_itemEntries h.nodup)
        exact List.pairwise_map.mp (hpairs.sublist hitems)
      have hnodup : (a :: as).Nodup :=
        hperm.nodup_iff.mpr (((nodup_itemEntries h.nodup).sublist hitems).of_map)
      rcases pair_sublist_or hb ha hne with hsub | hsub
      · have hle : MatchToApply.Le b a := by
          rw [← hbdef]
          exact Or.inr ⟨rfl, le_rfl⟩
        have hpair := pair_sublist_insertionSort hle hsub
        rw [hsort] at hpair
        rcases List.cons_sublist_cons'.mp hpair with hpair | ⟨heq, -⟩
        · exact (List.nodup_cons.mp hnodup).1 (hpair.subset (by simp))
        · exact hne heq
      · have hlt := rel_of_pairwise_cons (horder.sublist hsub) (List.mem_singleton.mpr rfl)
        rw [← hbdef] at hlt
        have := hlt rfl
        dsimp only at this
        omega
    · intro m items hitems hlt k hk htoken
      obtain ⟨update, hfirst, hreplaces', hnone⟩ := hleft hitems hlt
      obtain ⟨hsome', hnone'⟩ := hreplaces'.head? prompt cursor
      cases hhead : (update.iterTokenMatches prompt cursor).head? with
      | none => exact absurd htoken (hnone' hhead k hk)
      | some targetMatch =>
        have hle := (hsome' targetMatch hhead).first k hk htoken
        rcases List.mem_cons.mp (hperm.mem_iff.mpr (hcomplete hfirst hnone hhead)) with rfl | hmem
        · exact hle
        · have hle' := (List.pairwise_cons.mp hsorted).1 _ hmem
          unfold MatchToApply.Le at hle'
          dsimp only at hle'
          omega

/-- Each match is the next one, until all items are updated. -/
def Leftmost (prompt : List TokenId) (updates : MultiModalPromptUpdates) (target : Modality → TokenId) :
    ℕ → (Modality → ℕ) → List MatchToApply → Prop
  | _, counts, [] => ∀ m items, (m, items) ∈ updates → items.length ≤ counts m
  | cursor, counts, a :: as => a.Next prompt updates target cursor counts ∧
      Leftmost prompt updates target a.targetMatch.endIdx
        (Function.update counts a.modality (counts a.modality + 1)) as

lemma ApplyResult.Counts.le {counts : Modality → ℕ} (hcounts : result.Counts updates counts)
    (hall : ∀ m items, (m, items) ∈ updates → ∀ i < items.length, (result m i).isSome) :
    ∀ m items, (m, items) ∈ updates → items.length ≤ counts m := by
  intro m items hmem
  by_contra hlt
  have hlt := (hcounts m items hmem (counts m) (by omega)).mp (hall m items hmem _ (by omega))
  exact lt_irrefl _ hlt

lemma ApplyResult.Counts.applyMatch {counts : Modality → ℕ} (hcounts : s.outResult.Counts updates counts)
    (hidx : a.itemIdx = counts a.modality) (mode : UpdateMode) :
    (s.applyMatch prompt mode a).outResult.Counts updates
      (Function.update counts a.modality (counts a.modality + 1)) := by
  intro m items hmem i hi
  have hold := hcounts m items hmem i hi
  by_cases hm : m = a.modality
  · subst hm
    simp only [ApplyState.applyMatch, hidx, Function.update_self, true_and]
    split
    · rename_i heq
      simp [heq]
    · rename_i hne
      rw [hold]
      omega
  · simp [ApplyState.applyMatch, hm, hold]

/-- The loop applies the next match in each round. -/
lemma applyLoop_leftmost (h : SingleTargets updates target) {s' : ApplyState} {counts : Modality → ℕ}
    (hcounts : s.outResult.Counts updates counts) (hloop : applyLoop prompt updates fuel s = some s')
    (hall : ∀ m items, (m, items) ∈ updates → ∀ i < items.length, (s'.outResult m i).isSome) :
    ∃ more, s'.applied = s.applied ++ more ∧ Leftmost prompt updates target s.prevEndIdx counts more := by
  induction fuel generalizing s counts with
  | zero => cases hloop
  | succ fuel ih =>
    rw [applyLoop] at hloop
    rcases @findMatches_single prompt updates target s.prevEndIdx s.outResult h counts hcounts with
      hnone | ⟨a, hsome, -, hnext⟩
    · rw [hnone] at hloop
      cases hloop
      exact ⟨[], (append_nil _).symm, hcounts.le hall⟩
    · rw [hsome] at hloop
      have hcounts' : (s.applyMatch prompt .replace a).outResult.Counts updates
          (Function.update counts a.modality (counts a.modality + 1)) := hcounts.applyMatch hnext.idx .replace
      have hfold : [a].foldl (ApplyState.applyMatch prompt .replace) s = s.applyMatch prompt .replace a := rfl
      dsimp only at hloop
      rw [hfold] at hloop
      split at hloop
      · cases hloop
        exact ⟨[a], rfl, hnext, hcounts'.le hall⟩
      · obtain ⟨more, heq, hleftmost⟩ := ih hcounts' hloop
        exact ⟨a :: more, by simp [heq, ApplyState.applyMatch], hnext, hleftmost⟩

/-! ## The scan -/

/-- Where the contents are in the output, from a place of the prompt and of the output on. -/
def placed : ℕ → ℕ → List MatchToApply → List PlaceholderFeaturesInfo
  | _, _, [] => []
  | cursor, outPos, a :: as =>
    let startIdx := outPos + (a.targetMatch.startIdx - cursor)
    let content := a.update.content
    { modality := a.modality, itemIdx := a.itemIdx, startIdx
      tokens := content.full
      isEmbed := content.isEmbed.map (· content.full) } ::
        placed a.targetMatch.endIdx (startIdx + content.full.length) as

/-- A list does not begin with something that has an element which comes too late. -/
lemma not_prefix_of_first {first rest : List α} (hfront : x ∉ front) (hfirst : x ∉ first) (hne : front ≠ []) :
    ¬ (first ++ x :: rest) <+: front ++ (first ++ x :: rest ++ back) := by
  intro h
  have hx : first ++ [x] <+: front ++ (first ++ x :: rest ++ back) := by
    refine List.IsPrefix.trans ?_ h
    simp
  have hle : front ++ first <+: front ++ (first ++ x :: rest ++ back) := by simp
  have hlength : (first ++ [x]).length ≤ (front ++ first).length := by
    have hpos := length_pos_of_ne_nil hne
    simp
    omega
  have hmem : x ∈ front ++ first := (prefix_of_prefix_length_le hx hle hlength).subset (by simp)
  rcases mem_append.mp hmem with hmem | hmem
  · exact hfront hmem
  · exact hfirst hmem

/-- A list does not begin with something that has an element which the front does not have, unless it goes
past the front. -/
lemma not_prefix_of_other {content word : List α} (hfront : x ∉ front) (hcontent : x ∉ content)
    (hx : x ∈ word) (hy : y ∈ content) (hword : y ∉ word) :
    ¬ word <+: front ++ content ++ back := by
  intro h
  rcases prefix_or_prefix_of_prefix h (prefix_append (front ++ content) back) with hpre | hpre
  · rcases mem_append.mp (hpre.subset hx) with hmem | hmem
    · exact hfront hmem
    · exact hcontent hmem
  · exact hword (hpre.subset (mem_append_right _ hy))

lemma mem_slice {start stop : ℕ} (h : x ∈ slice xs start stop) :
    ∃ k, start ≤ k ∧ k < stop ∧ xs[k]? = some x := by
  obtain ⟨k, hk⟩ := mem_iff_getElem?.mp h
  rw [slice, getElem?_drop, getElem?_take] at hk
  split at hk
  · exact ⟨start + k, Nat.le_add_right _ _, ‹_›, hk⟩
  · cases hk

variable {out : List TokenId} {pos : ℕ} {counts : Modality → ℕ}

/-- What is found for an item that has one update with the content. -/
lemma findContent_single (hne : update.content.full ≠ []) :
    findContent out pos m i [update] = if update.content.full <+: out.drop pos then
      some { modality := m, itemIdx := i, startIdx := pos, tokens := update.content.full
             isEmbed := update.content.isEmbed.map (· update.content.full) } else none := by
  have hpos := length_pos_of_ne_nil hne
  simp only [findContent]
  by_cases hle : pos + update.content.full.length ≤ out.length
  · have hslice : slice out pos (pos + update.content.full.length) = update.content.full ↔
        update.content.full <+: out.drop pos := by
      rw [slice, drop_take, Nat.add_sub_cancel_left, prefix_iff_eq_take, eq_comm]
    rw [if_neg (by omega)]
    exact if_congr hslice rfl rfl
  · rw [if_pos (by omega), if_neg]
    intro hpre
    have hlength := hpre.length_le
    rw [length_drop] at hlength
    omega

lemma findPlaceholder_eq_none (updates : MultiModalPromptUpdates)
    (h : ∀ m items item, (m, items) ∈ updates → items[counts m]? = some item →
      findContent out pos m (counts m) item = none) : findPlaceholder out pos counts updates = none := by
  induction updates with
  | nil => rfl
  | cons entry updates ih =>
    obtain ⟨m, items⟩ := entry
    have hrest := ih fun m items item hmem => h m items item (mem_cons_of_mem _ hmem)
    rw [findPlaceholder]
    split
    · exact hrest
    · rename_i item hitem
      rw [h m items item mem_cons_self hitem]
      exact hrest

lemma findPlaceholder_eq_some {updates : MultiModalPromptUpdates} (hnodup : (updates.map Prod.fst).Nodup)
    {info : PlaceholderFeaturesInfo} (hmem : (m, items) ∈ updates) (hitem : items[counts m]? = some item)
    (hinfo : findContent out pos m (counts m) item = some info)
    (h : ∀ m' items item, (m', items) ∈ updates → m' ≠ m → items[counts m']? = some item →
      findContent out pos m' (counts m') item = none) :
    findPlaceholder out pos counts updates = some info := by
  induction updates with
  | nil => simp at hmem
  | cons entry updates ih =>
    obtain ⟨m', items'⟩ := entry
    rw [map_cons, nodup_cons] at hnodup
    rw [findPlaceholder]
    rcases mem_cons.mp hmem with heq | hmem
    · cases heq
      simp [hitem, hinfo]
    · have hne : m' ≠ m := by
        rintro rfl
        exact hnodup.1 (mem_map.mpr ⟨_, hmem, rfl⟩)
      have hrest := ih hnodup.2 hmem fun m items item hmem => h m items item (mem_cons_of_mem _ hmem)
      split
      · exact hrest
      · rename_i item' hitem'
        rw [h m' items' item' mem_cons_self hne hitem']
        exact hrest

/-- The content of the next match is not in front of its place, and nothing else is there. -/
lemma not_prefix_of_next (h : SingleTargets updates target)
    (hnext : a.Next prompt updates target cursor counts) {back : List TokenId} {j : ℕ}
    (hmem : (m, items) ∈ updates) (hitem : items[counts m]? = some [update])
    (hj : m = a.modality → j < (slice prompt cursor a.targetMatch.startIdx).length) :
    ¬ update.content.full <+: (slice prompt cursor a.targetMatch.startIdx).drop j ++ a.update.content.full ++ back := by
  have hlt : counts m < items.length := lt_of_getElem? hitem
  have hkey : m ∈ updates.map Prod.fst := List.mem_map.mpr ⟨_, hmem, rfl⟩
  have hfront : target m ∉ (slice prompt cursor a.targetMatch.startIdx).drop j := by
    intro hin
    obtain ⟨k, hk, hstart, htoken⟩ := mem_slice (mem_of_mem_drop hin)
    exact absurd (hnext.first m items hmem hlt k hk htoken) (by omega)
  obtain ⟨update', heq, -, htarget, hothers⟩ := h.single m items hmem _ (mem_of_getElem? hitem)
  obtain rfl := List.singleton_inj.mp heq
  obtain ⟨aitems, hamem, haitem⟩ := hnext.mem
  by_cases hm : m = a.modality
  · subst hm
    have hitems : items = aitems :=
      Option.some.inj ((lookup_of_mem h.nodup hmem).symm.trans (lookup_of_mem h.nodup hamem))
    rw [hitems, ← hnext.idx, haitem] at hitem
    obtain rfl := List.singleton_inj.mp (Option.some.inj hitem)
    obtain ⟨first, rest, hcontent, hfirst⟩ := eq_append_cons_of_mem htarget
    rw [hcontent, append_assoc]
    refine not_prefix_of_first hfront hfirst ?_
    rw [Ne, drop_eq_nil_iff]
    have := hj rfl
    omega
  · obtain ⟨update'', heq', -, hatarget, haothers⟩ := h.single _ aitems hamem _ (mem_of_getElem? haitem)
    obtain rfl := List.singleton_inj.mp heq'
    exact not_prefix_of_other hfront (haothers m hkey hm) htarget hatarget
      (hothers a.modality (List.mem_map.mpr ⟨_, hamem, rfl⟩) (Ne.symm hm))

/-- Places where nothing is found are skipped. -/
lemma iterPlaceholdersLoop_skip {d : ℕ} (hfuel : d ≤ fuel) (hlength : pos + d ≤ out.length)
    (h : ∀ j < d, findPlaceholder out (pos + j) counts updates = none) :
    iterPlaceholdersLoop out updates fuel pos counts =
      iterPlaceholdersLoop out updates (fuel - d) (pos + d) counts := by
  induction d generalizing fuel pos with
  | zero => rfl
  | succ d ih =>
    obtain ⟨fuel, rfl⟩ := Nat.exists_eq_add_of_lt (Nat.lt_of_succ_le hfuel)
    have hfirst := h 0 (Nat.succ_pos _)
    have hrest : ∀ j < d, findPlaceholder out (pos + 1 + j) counts updates = none := by
      intro j hj
      rw [Nat.add_assoc, Nat.add_comm 1 j]
      exact h (j + 1) (Nat.succ_lt_succ hj)
    rw [Nat.add_zero] at hfirst
    rw [iterPlaceholdersLoop, if_pos (by omega), hfirst]
    dsimp only
    rw [ih (by omega) (by omega) hrest]
    congr 1 <;> omega

/-- The scan finds the content of the next match first. -/
lemma iterPlaceholdersLoop_next (h : SingleTargets updates target) {back : List TokenId}
    (hnext : a.Next prompt updates target cursor counts)
    (hout : out.drop pos = slice prompt cursor a.targetMatch.startIdx ++ a.update.content.full ++ back)
    (hfuel : out.length ≤ pos + fuel) :
    ∃ fuel', out.length ≤ pos + (a.targetMatch.startIdx - cursor) + a.update.content.full.length + fuel' ∧
      iterPlaceholdersLoop out updates fuel pos counts =
        { modality := a.modality, itemIdx := a.itemIdx, startIdx := pos + (a.targetMatch.startIdx - cursor)
          tokens := a.update.content.full
          isEmbed := a.update.content.isEmbed.map (· a.update.content.full) } ::
        if allItemsFound updates (Function.update counts a.modality (counts a.modality + 1)) then []
        else iterPlaceholdersLoop out updates fuel'
          (pos + (a.targetMatch.startIdx - cursor) + a.update.content.full.length)
          (Function.update counts a.modality (counts a.modality + 1)) := by
  obtain ⟨items, hmem, hitem⟩ := hnext.mem
  obtain ⟨update, heq, -, htarget, -⟩ := h.single _ items hmem _ (mem_of_getElem? hitem)
  obtain rfl := List.singleton_inj.mp heq
  have hne : a.update.content.full ≠ [] := ne_nil_of_mem htarget
  have hpos := length_pos_of_ne_nil hne
  have hstart : a.targetMatch.startIdx < prompt.length := lt_of_getElem? hnext.place.eq
  have hle := hnext.place.le
  have hfront : (slice prompt cursor a.targetMatch.startIdx).length = a.targetMatch.startIdx - cursor := by
    simp
    omega
  have hlength := congrArg List.length hout
  simp only [length_drop, length_append, hfront] at hlength
  have hdrop : ∀ j ≤ a.targetMatch.startIdx - cursor, out.drop (pos + j) =
      (slice prompt cursor a.targetMatch.startIdx).drop j ++ a.update.content.full ++ back := by
    intro j hj
    rw [← drop_drop, hout, append_assoc, append_assoc,
      drop_append_of_le_length (by rw [hfront]; exact hj)]
  have hnone : ∀ j ≤ a.targetMatch.startIdx - cursor, ∀ m items item, (m, items) ∈ updates →
      (m = a.modality → j < a.targetMatch.startIdx - cursor) → items[counts m]? = some item →
        findContent out (pos + j) m (counts m) item = none := by
    intro j hj m items item hmem hlt hitem
    obtain ⟨update, rfl, -, hin, -⟩ := h.single m items hmem _ (mem_of_getElem? hitem)
    rw [findContent_single (ne_nil_of_mem hin), if_neg]
    rw [hdrop j hj]
    exact not_prefix_of_next h hnext hmem hitem (by rw [hfront]; exact hlt)
  have hhere : a.update.content.full <+: out.drop (pos + (a.targetMatch.startIdx - cursor)) := by
    rw [hdrop _ le_rfl, drop_eq_nil_of_le hfront.le]
    simp
  have hsome : findPlaceholder out (pos + (a.targetMatch.startIdx - cursor)) counts updates = _ :=
    findPlaceholder_eq_some h.nodup hmem (hnext.idx ▸ hitem) ((findContent_single hne).trans (if_pos hhere))
      fun m items item hmem hm hitem => hnone _ le_rfl m items item hmem (fun heq => absurd heq hm) hitem
  obtain ⟨fuel', hfuel'⟩ := Nat.exists_eq_add_of_lt (show a.targetMatch.startIdx - cursor < fuel by omega)
  refine ⟨fuel', by omega, ?_⟩
  rw [iterPlaceholdersLoop_skip (d := a.targetMatch.startIdx - cursor) (by omega) (by omega) fun j hj =>
    findPlaceholder_eq_none updates fun m items item hmem hitem => hnone j hj.le m items item hmem (fun _ => hj) hitem]
  rw [show fuel - (a.targetMatch.startIdx - cursor) = fuel' + 1 by omega, iterPlaceholdersLoop, if_pos (by omega),
    hsome, hnext.idx]

/-- The items of one modality are all found exactly when no match is left. -/
lemma Leftmost.allItemsFound_iff (h : Leftmost prompt updates target cursor counts as) :
    allItemsFound updates counts = true ↔ as = [] := by
  simp only [allItemsFound, all_eq_true, decide_eq_true_eq, Prod.forall]
  cases as with
  | nil => exact iff_of_true h rfl
  | cons a as =>
    refine iff_of_false (fun hall => ?_) (cons_ne_nil _ _)
    obtain ⟨items, hmem, hitem⟩ := h.1.mem
    have hlt := lt_of_getElem? hitem
    rw [h.1.idx] at hlt
    exact absurd (hall _ _ hmem) (not_le.mpr hlt)

/-- The scan finds the contents where they were put. -/
lemma iterPlaceholdersLoop_eq_placed (h : SingleTargets updates target)
    (hleftmost : Leftmost prompt updates target cursor counts as)
    (hout : out.drop pos = pieces prompt cursor as ++ prompt.drop (cursorAfter cursor as))
    (hfuel : out.length ≤ pos + fuel) :
    (if allItemsFound updates counts then [] else iterPlaceholdersLoop out updates fuel pos counts) =
      placed cursor pos as := by
  induction as generalizing cursor pos counts fuel with
  | nil => rw [if_pos (hleftmost.allItemsFound_iff.mpr rfl), placed]
  | cons a as ih =>
    rw [if_neg (hleftmost.allItemsFound_iff.not.mpr (cons_ne_nil _ _))]
    obtain ⟨hnext, hleftmost⟩ := hleftmost
    obtain ⟨items, hmem, hitem⟩ := hnext.mem
    obtain ⟨update, heq, hreplaces, -⟩ := h.single _ items hmem _ (mem_of_getElem? hitem)
    obtain rfl := List.singleton_inj.mp heq
    have hinsert : a.endIdxToInsert = a.targetMatch.startIdx := by
      simp [MatchToApply.endIdxToInsert, hreplaces.1]
    rw [pieces, cursorAfter, hinsert, append_assoc] at hout
    obtain ⟨fuel', hfuel', hloop⟩ := iterPlaceholdersLoop_next h hnext hout hfuel
    have hrest : out.drop (pos + (a.targetMatch.startIdx - cursor) + a.update.content.full.length) =
        pieces prompt a.targetMatch.endIdx as ++ prompt.drop (cursorAfter a.targetMatch.endIdx as) := by
      have hstart : a.targetMatch.startIdx < prompt.length := lt_of_getElem? hnext.place.eq
      have hlength : (slice prompt cursor a.targetMatch.startIdx ++ a.update.content.full).length =
          a.targetMatch.startIdx - cursor + a.update.content.full.length := by
        simp
        omega
      rw [Nat.add_assoc, ← drop_drop, hout, drop_left' hlength]
    rw [hloop, ih hleftmost hrest hfuel', placed]

/-! ## The placeholders of each modality -/

lemma lookup_fullGroupbyModality (infos : List PlaceholderFeaturesInfo) (m : Modality) :
    ((fullGroupbyModality infos).lookup m).getD [] = infos.filter (·.modality = m) := by
  have hfold : ∀ groups : OrderedDict Modality (List PlaceholderFeaturesInfo),
      ((infos.foldl (fun groups info => dictSet groups info.modality
        ((groups.lookup info.modality).getD [] ++ [info])) groups).lookup m).getD [] =
          (groups.lookup m).getD [] ++ infos.filter (·.modality = m) := by
    induction infos with
    | nil => simp
    | cons info infos ih =>
      intro groups
      rw [foldl_cons, ih, lookup_dictSet]
      by_cases hm : info.modality = m
      · simp [hm]
      · simp [hm, Ne.symm hm]
  exact hfold []

/-- What `find_mm_placeholders` is for: it gives back, for each modality, its items in order, with their contents
and where these were inserted, and no two placeholders overlap. -/
structure Recovers (updates : MultiModalPromptUpdates) (applied : List MatchToApply)
    (found : OrderedDict Modality (List PlaceholderFeaturesInfo)) : Prop where
  inserted : ∀ m, (found.lookup m).getD [] = (placed 0 0 applied).filter (·.modality = m)
  inOrder : ∀ m items, (m, items) ∈ updates →
    ((found.lookup m).getD []).map (·.itemIdx) = List.range items.length
  contents : ∀ info ∈ placed 0 0 applied, ∃ items update, (info.modality, items) ∈ updates ∧
    items[info.itemIdx]? = some [update] ∧ info.tokens = update.content.full ∧
      info.isEmbed = update.content.isEmbed.map (· update.content.full)
  disjoint : (placed 0 0 applied).Pairwise fun info info' => info.startIdx + info.tokens.length ≤ info'.startIdx

/-- The items of a modality that are left are placed in order. -/
lemma Leftmost.itemIdx_placed (h : SingleTargets updates target)
    (hleftmost : Leftmost prompt updates target cursor counts as) (hmem : (m, items) ∈ updates) :
    ((placed cursor pos as).filter (·.modality = m)).map (·.itemIdx) =
      List.range' (counts m) (items.length - counts m) := by
  induction as generalizing cursor pos counts with
  | nil => simp [placed, Nat.sub_eq_zero_of_le (hleftmost m items hmem)]
  | cons a as ih =>
    obtain ⟨hnext, hleftmost⟩ := hleftmost
    have hrest := @ih _ (pos + (a.targetMatch.startIdx - cursor) + a.update.content.full.length) _ hleftmost
    rw [placed, filter_cons]
    by_cases hm : a.modality = m
    · subst hm
      obtain ⟨items', hmem', hitem⟩ := hnext.mem
      cases (lookup_of_mem h.nodup hmem).symm.trans (lookup_of_mem h.nodup hmem')
      have hlt := lt_of_getElem? hitem
      rw [hnext.idx] at hlt
      obtain ⟨n, hn⟩ := Nat.exists_eq_add_of_lt hlt
      rw [Function.update_self] at hrest
      simp only [decide_true, if_true, map_cons, hrest, hnext.idx, hn]
      rw [show counts a.modality + n + 1 - counts a.modality = n + 1 by omega,
        show counts a.modality + n + 1 - (counts a.modality + 1) = n by omega, range'_succ]
    · rw [Function.update_of_ne (Ne.symm hm)] at hrest
      simpa [hm] using hrest

lemma Leftmost.contents_placed (hleftmost : Leftmost prompt updates target cursor counts as) :
    ∀ info ∈ placed cursor pos as, ∃ items update, (info.modality, items) ∈ updates ∧
      items[info.itemIdx]? = some [update] ∧ info.tokens = update.content.full ∧
        info.isEmbed = update.content.isEmbed.map (· update.content.full) := by
  induction as generalizing cursor pos counts with
  | nil => simp [placed]
  | cons a as ih =>
    obtain ⟨⟨⟨items, hmem, hitem⟩, -⟩, hleftmost⟩ := hleftmost
    intro info hinfo
    rcases mem_cons.mp hinfo with rfl | hinfo
    · exact ⟨items, a.update, hmem, hitem, rfl, rfl⟩
    · exact ih hleftmost info hinfo

lemma pairwise_placed (as : List MatchToApply) (cursor pos : ℕ) :
    (∀ info ∈ placed cursor pos as, pos ≤ info.startIdx) ∧
      (placed cursor pos as).Pairwise fun info info' => info.startIdx + info.tokens.length ≤ info'.startIdx := by
  induction as generalizing cursor pos with
  | nil => simp [placed]
  | cons a as ih =>
    obtain ⟨hle, hpairs⟩ := ih a.targetMatch.endIdx
      (pos + (a.targetMatch.startIdx - cursor) + a.update.content.full.length)
    refine ⟨fun info hinfo => ?_, pairwise_cons.mpr ⟨fun info hinfo => hle info hinfo, hpairs⟩⟩
    rcases mem_cons.mp hinfo with rfl | hinfo
    · exact Nat.le_add_right _ _
    · have := hle info hinfo
      omega

/-- The output and the matches are those of the loop. -/
lemma applyTokenMatches_leftmost (h : SingleTargets updates target) {applied : List MatchToApply}
    (heq : applyTokenMatches prompt updates = some (out, result, applied))
    (hall : ∀ m items, (m, items) ∈ updates → ∀ i < items.length, (result m i).isSome) :
    out = pieces prompt 0 applied ++ prompt.drop (cursorAfter 0 applied) ∧
      Leftmost prompt updates target 0 (fun _ => 0) applied := by
  have hcounts : ApplyResult.Counts updates (fun _ _ => none) fun _ => 0 := by
    intro m items _ i _
    simp
  have hfuel : ({} : ApplyState).unapplied updates < (itemEntries updates).length + 1 :=
    Nat.lt_succ_of_le countP_le_length
  obtain ⟨s, -, hloop, hs, -⟩ := applyLoop_spec h.nodup (@ApplyState.applied_start prompt updates) hfuel
  rw [applyTokenMatches, applyMatches] at heq
  dsimp only at heq
  split at heq
  · cases heq
    exact ⟨by simp [pieces, cursorAfter], hcounts.le hall⟩
  · rw [hloop] at heq
    cases heq
    obtain ⟨more, happlied, hleftmost⟩ := applyLoop_leftmost h hcounts hloop hall
    rw [nil_append] at happlied
    rw [← hs.out, ← hs.cursor, happlied]
    exact ⟨by simp, hleftmost⟩

theorem findMmPlaceholders_recovers (h : SingleTargets updates target) {applied : List MatchToApply}
    (heq : applyTokenMatches prompt updates = some (out, result, applied))
    (hall : ∀ m items, (m, items) ∈ updates → ∀ i < items.length, (result m i).isSome) :
    Recovers updates applied (findMmPlaceholders out updates) := by
  obtain ⟨hout, hleftmost⟩ := applyTokenMatches_leftmost h heq hall
  have hfound : iterPlaceholders out updates = placed 0 0 applied :=
    iterPlaceholdersLoop_eq_placed h hleftmost hout (by omega)
  have hgroups : ∀ m, ((findMmPlaceholders out updates).lookup m).getD [] =
      (placed 0 0 applied).filter (·.modality = m) := by
    intro m
    rw [findMmPlaceholders, lookup_fullGroupbyModality, hfound]
  refine ⟨hgroups, fun m items hmem => ?_, hleftmost.contents_placed, (pairwise_placed applied 0 0).2⟩
  rw [hgroups, hleftmost.itemIdx_placed h hmem, Nat.sub_zero, range_eq_range']

/-- An image with two placeholder tokens and two audios, in a text that has one more place for an audio. -/
def imageAndAudios : MultiModalPromptUpdates :=
  [("image", [[⟨.replace, .seq [5], ⟨[5, 5], none⟩⟩]]),
    ("audio", [[⟨.replace, .seq [6], ⟨[1, 6], some fun full => full.map (· = 6)⟩⟩],
      [⟨.replace, .seq [6], ⟨[1, 6], none⟩⟩]])]

def imageAndAudioTargets (m : Modality) : TokenId := if m = "image" then 5 else 6

lemma singleTargets_imageAndAudios : SingleTargets imageAndAudios imageAndAudioTargets where
  nodup := by decide
  distinct := by decide
  single := by
    intro m items hmem item hitem
    simp only [imageAndAudios, mem_cons, Prod.mk.injEq, not_mem_nil, or_false] at hmem
    rcases hmem with ⟨rfl, rfl⟩ | ⟨rfl, rfl⟩
    · obtain rfl := mem_singleton.mp hitem
      exact ⟨_, rfl, ⟨rfl, rfl⟩, by decide, by decide⟩
    · simp only [mem_cons, not_mem_nil, or_false] at hitem
      rcases hitem with rfl | rfl <;> exact ⟨_, rfl, ⟨rfl, rfl⟩, by decide, by decide⟩

theorem findMmPlaceholders_imageAndAudios :
    ∃ result applied, applyTokenMatches [6, 1, 5, 6, 6] imageAndAudios =
        some ([1, 6, 1, 5, 5, 1, 6, 6], result, applied) ∧
      findMmPlaceholders [1, 6, 1, 5, 5, 1, 6, 6] imageAndAudios =
        [("audio", [⟨"audio", 0, 0, [1, 6], some [false, true]⟩, ⟨"audio", 1, 5, [1, 6], none⟩]),
          ("image", [⟨"image", 0, 3, [5, 5], none⟩])] ∧
      Recovers imageAndAudios applied (findMmPlaceholders [1, 6, 1, 5, 5, 1, 6, 6] imageAndAudios) := by
  have heval : ((applyTokenMatches [6, 1, 5, 6, 6] imageAndAudios).map fun out =>
      (out.1, (out.2.1 "image" 0).isSome, (out.2.1 "audio" 0).isSome, (out.2.1 "audio" 1).isSome)) =
        some ([1, 6, 1, 5, 5, 1, 6, 6], true, true, true) := by
    decide +kernel
  obtain ⟨⟨out, result, applied⟩, heq, hvalues⟩ := Option.map_eq_some_iff.mp heval
  simp only [Prod.mk.injEq] at hvalues
  obtain ⟨rfl, himage, hfirst, hsecond⟩ := hvalues
  refine ⟨result, applied, heq, by decide +kernel,
    findMmPlaceholders_recovers singleTargets_imageAndAudios heq fun m items hmem i hi => ?_⟩
  simp only [imageAndAudios, mem_cons, Prod.mk.injEq, not_mem_nil, or_false] at hmem
  rcases hmem with ⟨rfl, rfl⟩ | ⟨rfl, rfl⟩
  · obtain rfl : i = 0 := by simpa using hi
    exact himage
  · have hi : i < 2 := hi
    interval_cases i
    · exact hfirst
    · exact hsecond

end VllmRuntime
