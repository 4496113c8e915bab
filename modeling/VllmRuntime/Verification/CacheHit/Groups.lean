import VllmRuntime.Model.Coordinator

/-! # The attention groups partition the KV cache groups

`verify_and_split_kv_cache_groups` gives every group to exactly one entry, the entry of its
spec. -/

namespace VllmRuntime

open List

variable {acc : List AttentionGroup} {groups : List KVCacheSpec} {n : ℕ} {spec : KVCacheSpec}
  {ag : AttentionGroup}

/-- The entries `acc` partition the first `n` groups by spec. -/
structure Splits (groups : List KVCacheSpec) (n : ℕ) (acc : List AttentionGroup) : Prop where
  specs_nodup : (acc.map AttentionGroup.spec).Nodup
  ids_ne_nil : ∀ ag ∈ acc, ag.groupIds ≠ []
  ids_nodup : ∀ ag ∈ acc, ag.groupIds.Nodup
  spec_eq : ∀ ag ∈ acc, ∀ i ∈ ag.groupIds, i < n ∧ groups[i]? = some ag.spec
  covers : ∀ i < n, ∃ ag ∈ acc, i ∈ ag.groupIds

lemma addAttentionGroup_specs (acc : List AttentionGroup) (spec : KVCacheSpec) (i : ℕ) :
    (addAttentionGroup acc spec i).map AttentionGroup.spec =
      if spec ∈ acc.map AttentionGroup.spec then acc.map AttentionGroup.spec
      else acc.map AttentionGroup.spec ++ [spec] := by
  induction acc with
  | nil => simp [addAttentionGroup]
  | cons ag acc ih =>
    rw [addAttentionGroup]
    split
    · rename_i h
      simp [h]
    · rename_i h
      have hne : spec ≠ ag.spec := fun he => h he.symm
      rw [map_cons, ih, map_cons]
      by_cases hmem : spec ∈ acc.map AttentionGroup.spec
      · rw [if_pos hmem, if_pos (mem_cons_of_mem _ hmem)]
      · rw [if_neg hmem, if_neg (by simp only [mem_cons, hne, hmem, or_self, not_false_iff])]
        rfl

/-- An entry after adding group `i` is an old one, or the entry of `spec` with `i` appended. -/
lemma mem_addAttentionGroup {i : ℕ} (h : ag ∈ addAttentionGroup acc spec i) :
    ag ∈ acc ∨ (ag.spec = spec ∧ (ag.groupIds = [i] ∨
      ∃ old ∈ acc, old.spec = spec ∧ ag.groupIds = old.groupIds ++ [i])) := by
  induction acc with
  | nil =>
    rw [addAttentionGroup, mem_singleton] at h
    subst h
    exact Or.inr ⟨rfl, Or.inl rfl⟩
  | cons head acc ih =>
    rw [addAttentionGroup] at h
    split at h
    · rename_i hspec
      rcases mem_cons.mp h with rfl | hmem
      · exact Or.inr ⟨hspec, Or.inr ⟨head, mem_cons_self, hspec, rfl⟩⟩
      · exact Or.inl (mem_cons_of_mem _ hmem)
    · rcases mem_cons.mp h with rfl | hmem
      · exact Or.inl mem_cons_self
      · rcases ih hmem with hold | ⟨hspec, hids⟩
        · exact Or.inl (mem_cons_of_mem _ hold)
        · refine Or.inr ⟨hspec, hids.imp_right ?_⟩
          intro ⟨old, hold, hrest⟩
          exact ⟨old, mem_cons_of_mem _ hold, hrest⟩

lemma addAttentionGroup_keeps (spec : KVCacheSpec) (i : ℕ) (h : ag ∈ acc) :
    ∃ ag' ∈ addAttentionGroup acc spec i, ∀ j ∈ ag.groupIds, j ∈ ag'.groupIds := by
  induction acc with
  | nil => simp at h
  | cons head acc ih =>
    rw [addAttentionGroup]
    split
    · rcases mem_cons.mp h with rfl | hmem
      · refine ⟨_, mem_cons_self, ?_⟩
        intro j hj
        exact mem_append_left _ hj
      · exact ⟨ag, mem_cons_of_mem _ hmem, fun j hj => hj⟩
    · rcases mem_cons.mp h with rfl | hmem
      · exact ⟨ag, mem_cons_self, fun j hj => hj⟩
      · obtain ⟨ag', hag', hsub⟩ := ih hmem
        exact ⟨ag', mem_cons_of_mem _ hag', hsub⟩

lemma addAttentionGroup_adds (acc : List AttentionGroup) (spec : KVCacheSpec) (i : ℕ) :
    ∃ ag ∈ addAttentionGroup acc spec i, i ∈ ag.groupIds := by
  induction acc with
  | nil => exact ⟨_, mem_singleton.mpr rfl, mem_singleton.mpr rfl⟩
  | cons head acc ih =>
    rw [addAttentionGroup]
    split
    · exact ⟨_, mem_cons_self, mem_append_right _ (mem_singleton.mpr rfl)⟩
    · obtain ⟨ag, hag, hi⟩ := ih
      exact ⟨ag, mem_cons_of_mem _ hag, hi⟩

lemma Splits.add (h : Splits groups n acc) (hspec : groups[n]? = some spec) :
    Splits groups (n + 1) (addAttentionGroup acc spec n) where
  specs_nodup := by
    rw [addAttentionGroup_specs]
    split
    · exact h.specs_nodup
    · rename_i hnot
      rw [nodup_append]
      refine ⟨h.specs_nodup, by simp, ?_⟩
      intro a ha b hb hab
      rw [mem_singleton] at hb
      exact hnot (hb ▸ hab ▸ ha)
  ids_ne_nil ag hag := by
    rcases mem_addAttentionGroup hag with hold | ⟨-, hids | ⟨old, -, -, hids⟩⟩
    · exact h.ids_ne_nil ag hold
    · simp [hids]
    · simp [hids]
  ids_nodup ag hag := by
    rcases mem_addAttentionGroup hag with hold | ⟨-, hids | ⟨old, hold, -, hids⟩⟩
    · exact h.ids_nodup ag hold
    · simp [hids]
    · rw [hids, nodup_append]
      refine ⟨h.ids_nodup old hold, by simp, ?_⟩
      intro a ha b hb hab
      rw [mem_singleton] at hb
      have := (h.spec_eq old hold a ha).1
      omega
  spec_eq ag hag i hi := by
    rcases mem_addAttentionGroup hag with hold | ⟨hs, hids | ⟨old, hold, holdspec, hids⟩⟩
    · have := h.spec_eq ag hold i hi
      exact ⟨by omega, this.2⟩
    · rw [hids, mem_singleton] at hi
      rw [hi, hs]
      exact ⟨Nat.lt_succ_self n, hspec⟩
    · rw [hids, mem_append, mem_singleton] at hi
      rcases hi with hi | rfl
      · have := h.spec_eq old hold i hi
        rw [hs, ← holdspec]
        exact ⟨by omega, this.2⟩
      · rw [hs]
        exact ⟨Nat.lt_succ_self i, hspec⟩
  covers i hi := by
    rcases Nat.lt_succ_iff_lt_or_eq.mp hi with hlt | rfl
    · obtain ⟨ag, hag, hmem⟩ := h.covers i hlt
      obtain ⟨ag', hag', hsub⟩ := addAttentionGroup_keeps spec n hag
      exact ⟨ag', hag', hsub i hmem⟩
    · exact addAttentionGroup_adds acc spec i

lemma splits_foldl (groups rest : List KVCacheSpec) (n : ℕ) (acc : List AttentionGroup)
    (hrest : groups.drop n = rest) (h : Splits groups n acc) :
    Splits groups (n + rest.length)
      ((rest.zipIdx n).foldl (fun acc p => addAttentionGroup acc p.1 p.2) acc) := by
  induction rest generalizing n acc with
  | nil => simpa using h
  | cons spec rest ih =>
    have hspec : groups[n]? = some spec := by
      have := congrArg (fun l => l[0]?) hrest
      simpa using this
    have hdrop : groups.drop (n + 1) = rest := by
      rw [← drop_drop, hrest]
      rfl
    rw [zipIdx_cons, foldl_cons, length_cons,
      show n + (rest.length + 1) = n + 1 + rest.length by omega]
    exact ih (n + 1) _ hdrop (h.add hspec)

lemma splitKvCacheGroups_splits (groups : List KVCacheSpec) :
    Splits groups groups.length (splitKvCacheGroups groups) := by
  have hinit : Splits groups 0 [] := ⟨by simp, by simp, by simp, by simp, by simp⟩
  simpa [splitKvCacheGroups] using splits_foldl groups groups 0 [] rfl hinit

lemma fullAttentionFirst_perm (groups : List AttentionGroup) :
    (fullAttentionFirst groups).Perm groups := by
  unfold fullAttentionFirst
  exact filter_append_perm _ groups

lemma Splits.perm {acc' : List AttentionGroup} (h : Splits groups n acc) (hp : acc'.Perm acc) :
    Splits groups n acc' where
  specs_nodup := ((hp.map _).nodup_iff).mpr h.specs_nodup
  ids_ne_nil ag hag := h.ids_ne_nil ag (hp.mem_iff.mp hag)
  ids_nodup ag hag := h.ids_nodup ag (hp.mem_iff.mp hag)
  spec_eq ag hag := h.spec_eq ag (hp.mem_iff.mp hag)
  covers i hi := by
    obtain ⟨ag, hag, hmem⟩ := h.covers i hi
    exact ⟨ag, hp.mem_iff.mpr hag, hmem⟩

/-- Different entries have no group in common. -/
lemma Splits.disjoint (h : Splits groups n acc) :
    acc.Pairwise fun a b => ∀ i ∈ a.groupIds, i ∉ b.groupIds := by
  have hspecs := pairwise_map.mp h.specs_nodup
  refine hspecs.imp_of_mem ?_
  intro a b ha hb hne i hia hib
  have hsa := (h.spec_eq a ha i hia).2
  have hsb := (h.spec_eq b hb i hib).2
  exact hne (Option.some.inj (hsa.symm.trans hsb))

/-! ## The least common multiple -/

lemma dvd_foldl_lcm {d acc : ℕ} (groups : List AttentionGroup)
    (h : d ∣ acc ∨ ∃ g ∈ groups, g.spec.blockSize = d) :
    d ∣ groups.foldl (fun acc g => Nat.lcm acc g.spec.blockSize) acc := by
  induction groups generalizing acc with
  | nil => simpa using h
  | cons head groups ih =>
    apply ih
    rcases h with hacc | ⟨g, hg, rfl⟩
    · exact Or.inl (hacc.trans (Nat.dvd_lcm_left _ _))
    · rcases mem_cons.mp hg with rfl | hmem
      · exact Or.inl (Nat.dvd_lcm_right _ _)
      · exact Or.inr ⟨g, hmem, rfl⟩

lemma blockSize_dvd_lcmBlockSize {groups : List AttentionGroup} {g : AttentionGroup}
    (h : g ∈ groups) : g.spec.blockSize ∣ lcmBlockSize groups :=
  dvd_foldl_lcm groups (Or.inr ⟨g, h, rfl⟩)

end VllmRuntime
