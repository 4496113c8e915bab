import VllmRuntime.Model.AttentionBackends
import VllmRuntime.Shared.Cycles
import VllmRuntime.Verification.InputBatch.Correctness

/-! # Following the cycles of a map

Each swap puts one entry into its place, and the rest of the map is what remains to be done. -/

namespace VllmRuntime

open List Cycles

variable {γ : Type}

namespace InputBatch

variable {config : InputBatchConfig} {tables : List BlockTable} {requests : BatchRequests γ}
  {b b' : InputBatch γ}

/-- The id and the row at an index. -/
def entry (b : InputBatch γ) (i : ℕ) : Option (Option String) × BatchRow γ := (b.reqIds[i]?, b.row i)

lemma exists_swapStates (h : Rows config tables b requests) (hgapless : b.Gapless) {i1 i2 : ℕ}
    (h1 : i1 < b.reqIds.length) (h2 : i2 < b.reqIds.length) :
    ∃ b', b.swapStates i1 i2 = .ok b' ∧ Rows config tables b' requests ∧ b'.Gapless ∧
      b'.reqIds.length = b.reqIds.length ∧ ∀ i, b'.entry i = b.entry (Equiv.swap i1 i2 i) := by
  obtain ⟨id1, hid1⟩ := (hgapless i1).mpr h1
  obtain ⟨id2, hid2⟩ := (hgapless i2).mpr h2
  obtain ⟨b', hswap⟩ : ∃ b', b.swapStates i1 i2 = .ok b' := by
    unfold swapStates
    rw [hid1, hid2]
    dsimp only
    rw [(h.inverse.lookup id1 i1).mpr hid1, (h.inverse.lookup id2 i2).mpr hid2]
    exact ⟨_, rfl⟩
  have hswaps : [(i1, i2)].foldlM (fun b swap => b.swapStates swap.1 swap.2) b = .ok b' := by
    rw [foldlM_cons, hswap]
    rfl
  obtain ⟨hrows, hgapless', -⟩ := h.swaps (A := fun _ => True) hgapless hswaps
  obtain ⟨-, -, -, -, hids, -, -, -, hrow⟩ := swapStates_eq_ok h.inverse h.spec_length hswap
  refine ⟨b', hswap, hrows, hgapless', by rw [hids, length_swapItems], fun i => ?_⟩
  rw [entry, entry, hids, getElem?_swapItems h1 h2, hrow]

/-- `π` is what remains to be done: it takes each entry to its place in `target`. The map says so for all
but the keys that are done. -/
structure Left (config : InputBatchConfig) (tables : List BlockTable) (requests : BatchRequests γ)
    (target : ℕ → Option (Option String) × BatchRow γ) (n : ℕ) (keys skipped done : List ℕ)
    (srcDestMap : OrderedDict ℕ ℕ) (π : Equiv.Perm ℕ) (b : InputBatch γ) : Prop where
  rows : Rows config tables b requests
  gapless : b.Gapless
  length_eq : b.reqIds.length = n
  entry : ∀ i, b.entry i = target (π i)
  keys_eq : srcDestMap.map Prod.fst = keys
  keys_lt : ∀ k ∈ keys, k < n
  lookup : ∀ x, x ∉ skipped → (srcDestMap.lookup x).getD x = π x
  off : ∀ x, x ∉ keys → π x = x
  fixed : ∀ x ∈ done, π x = x

namespace Left

variable {target : ℕ → Option (Option String) × BatchRow γ} {n : ℕ} {keys skipped done : List ℕ}
  {srcDestMap : OrderedDict ℕ ℕ} {π : Equiv.Perm ℕ} {src : ℕ} {fuel : ℕ}

lemma mem_keys {x : ℕ} (h : Left config tables requests target n keys skipped done srcDestMap π b)
    (hx : π x ≠ x) : x ∈ keys := by
  by_contra hnot
  exact hx (h.off x hnot)

/-- One round of the inner loop. -/
lemma step (h : Left config tables requests target n keys (src :: done) done srcDestMap π b)
    (hsrc : src ∉ done) (hmoves : π src ≠ src) :
    ∃ b', b.swapStates src (π src) = .ok b' ∧ (srcDestMap.lookup (π src)).getD (π src) = place π src src ∧
      Left config tables requests target n keys (src :: done) done (dictSet srcDestMap (π src) (π src))
        (place π src) b' := by
  have hdst := dst_misplaced hmoves
  have hmem := h.mem_keys hdst
  obtain ⟨b', hswap, hrows, hgapless, hlength, hentry⟩ :=
    exists_swapStates h.rows h.gapless (h.length_eq ▸ h.keys_lt src (h.mem_keys hmoves))
      (h.length_eq ▸ h.keys_lt _ hmem)
  have hskipped : π src ∉ src :: done := by
    rw [mem_cons, not_or]
    exact ⟨hmoves, fun hdone => hdst (h.fixed _ hdone)⟩
  refine ⟨b', hswap, by rw [h.lookup _ hskipped, place_self], hrows, hgapless, hlength.trans h.length_eq,
    fun i => ?_, ?_, h.keys_lt, fun x hx => ?_, fun x hx => ?_, fun x hx => ?_⟩
  · rw [hentry, h.entry, place_apply]
  · rw [map_fst_dictSet, h.keys_eq, if_pos hmem]
  · rw [lookup_dictSet]
    by_cases hxd : x = π src
    · rw [if_pos hxd, hxd, place_dst]
      rfl
    · have hxs : x ≠ src := fun heq => hx (heq ▸ mem_cons_self)
      rw [if_neg hxd, h.lookup x hx, place_of_ne hxs hxd]
  · have hfixed := h.off x hx
    exact place_fixed hfixed fun heq => hx (heq ▸ h.mem_keys hmoves)
  · exact place_fixed (h.fixed x hx) fun heq => hsrc (heq ▸ hx)

/-- The inner loop ends with the entry of `src` in its place. -/
lemma followCycle (h : Left config tables requests target n keys (src :: done) done srcDestMap π b)
    (hsrc : src ∉ done) (hfuel : misplaced π keys < fuel) :
    ∃ srcDestMap' π' b', VllmRuntime.followCycle src fuel (π src) srcDestMap b = .ok (some (srcDestMap', b')) ∧
      Left config tables requests target n keys (src :: done) (src :: done) srcDestMap' π' b' := by
  induction fuel generalizing srcDestMap π b with
  | zero => exact absurd hfuel (Nat.not_lt_zero _)
  | succ fuel ih =>
    rw [VllmRuntime.followCycle]
    split
    · rename_i hmoves
      have hmoves' : π src ≠ src := Ne.symm hmoves
      obtain ⟨b₁, hswap, hnext, hleft⟩ := h.step hsrc hmoves'
      have hless := misplaced_place_lt hmoves' (h.mem_keys (dst_misplaced hmoves'))
      obtain ⟨srcDestMap', π', b', hok, hleft'⟩ := ih hleft (by omega)
      refine ⟨srcDestMap', π', b', ?_, hleft'⟩
      rw [hswap]
      change VllmRuntime.followCycle src fuel ((srcDestMap.lookup (π src)).getD (π src)) _ b₁ = _
      rw [hnext]
      exact hok
    · rename_i hstays
      rw [not_not] at hstays
      refine ⟨srcDestMap, π, b, rfl, h.rows, h.gapless, h.length_eq, h.entry, h.keys_eq, h.keys_lt, h.lookup, h.off, ?_⟩
      rw [forall_mem_cons]
      exact ⟨hstays.symm, h.fixed⟩

/-- The outer loop ends with all entries in their places. -/
lemma followCycles {srcs : List ℕ} (h : Left config tables requests target n keys done done srcDestMap π b)
    (hsrcs : ∀ k ∈ srcs, k ∈ keys ∧ k ∉ done) (hnodup : srcs.Nodup) (hall : ∀ k ∈ keys, k ∈ done ∨ k ∈ srcs)
    (hfuel : keys.length < fuel) :
    ∃ b', VllmRuntime.followCycles fuel srcs srcDestMap b = .ok (some b') ∧
      Rows config tables b' requests ∧ b'.Gapless ∧ b'.reqIds.length = n ∧ ∀ i, b'.entry i = target i := by
  induction srcs generalizing srcDestMap π b done with
  | nil =>
    refine ⟨b, rfl, h.rows, h.gapless, h.length_eq, fun i => ?_⟩
    have hfixed : π i = i := by
      by_cases hi : i ∈ keys
      · exact h.fixed i ((hall i hi).resolve_right not_mem_nil)
      · exact h.off i hi
    rw [h.entry, hfixed]
  | cons src srcs ih =>
    rw [forall_mem_cons] at hsrcs
    rw [nodup_cons] at hnodup
    obtain ⟨⟨hkey, hsrc⟩, hsrcs⟩ := hsrcs
    obtain ⟨dst, hdst⟩ := Option.isSome_iff_exists.mp (lookup_isSome.mpr (h.keys_eq.symm ▸ hkey))
    have hpi : dst = π src := by
      have hlookup := h.lookup src hsrc
      rwa [hdst] at hlookup
    have hstart : Left config tables requests target n keys (src :: done) done srcDestMap π b :=
      ⟨h.rows, h.gapless, h.length_eq, h.entry, h.keys_eq, h.keys_lt,
        fun x hx => h.lookup x fun hmem => hx (mem_cons_of_mem _ hmem), h.off, h.fixed⟩
    obtain ⟨srcDestMap', π', b', hcycle, hleft⟩ :=
      hstart.followCycle hsrc (Nat.lt_of_le_of_lt (misplaced_le π keys) hfuel)
    rw [VllmRuntime.followCycles, hdst, hpi]
    dsimp only
    rw [hcycle]
    refine ih hleft (fun k hk => ⟨(hsrcs k hk).1, ?_⟩) hnodup.2 (fun k hk => ?_)
    · rw [mem_cons, not_or]
      exact ⟨fun heq => hnodup.1 (heq ▸ hk), (hsrcs k hk).2⟩
    · rcases hall k hk with hdone | hmem
      · exact .inl (mem_cons_of_mem _ hdone)
      · rcases List.mem_cons.mp hmem with rfl | hmem
        · exact .inl mem_cons_self
        · exact .inr hmem

end Left

end InputBatch

end VllmRuntime
