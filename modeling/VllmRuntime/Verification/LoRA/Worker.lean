import VllmRuntime.Verification.LoRA.Manager

/-! # Loading and activating adapters

The adapters of a batch are used one after the other. Those that were used are the youngest ones of both
caches, and there are fewer of them than slots, so the next one evicts none of them. -/

namespace VllmRuntime.LoRA

open List Effect

variable {ω τ : Type} {bases : CacheBases ω τ} {info : ModelInfo ω τ} {s : LoRAModelManager ω τ}
  {request : LoRARequest ω}

/-- Whether `add_adapter` loads the adapter. -/
def Loads (s : LoRAModelManager ω τ) (request : LoRARequest ω) : Prop :=
  request.loraIntId ∉ s.registeredAdapters.order ∨ request.loadInplace = true

namespace Inv

variable {used : List ℕ}

section

variable (h : Inv info s)
include h

lemma contains_registered (loraId : ℕ) : (registeredAdapters bases).contains loraId s =
    some (.ok (decide (loraId ∈ s.registeredAdapters.order)), s) := by
  rw [AdapterLRUCache.contains, Effect.read]
  refine congrArg (fun b => some (Except.ok b, s)) ?_
  rw [Bool.eq_iff_iff, decide_eq_true_eq]
  exact h.registered.contains_iff loraId

lemma addAdapter_of_error (hloads : Loads s request) {e : PyError}
    (herror : request.loaded = .error e) : addAdapter bases info request s = some (.error e, s) := by
  have hload : (Effect.lift request.loaded : Run ω τ ω) s = some (.error e, s) := by
    rw [Effect.lift, herror]
  rw [addAdapter, bind_of_ok (h.contains_registered request.loraIntId)]
  rw [if_pos (by simpa [Loads] using hloads)]
  exact bind_of_error hload

/-- The adapter is loaded and registered, in place of an older one of that id, or of the oldest one. -/
lemma load_spec (hbases : bases.Documented) (loraId : ℕ) (lora : ω)
    (hregistered : Recent s.registeredAdapters.order used) (hactive : Recent s.activeAdapters.order used)
    (hnew : loraId ∉ used) (hlength : used.length < s.loraSlots) :
    ∃ b s₁ s₂, removeAdapter bases loraId s = some (.ok b, s₁) ∧
      ((s₁.capacity < s₁.registeredAdapters.data.length + 1 ∧ removeOldestAdapter bases s₁ = some (.ok true, s₂)) ∨
        (¬s₁.capacity < s₁.registeredAdapters.data.length + 1 ∧ s₂ = s₁)) ∧
      registerAdapter bases info loraId lora s₂ = some (.ok true, { s₂ with
        registeredAdapters := s₂.registeredAdapters.store loraId (info.createMergedLoras lora) 1 }) ∧
      Inv info { s₂ with
        registeredAdapters := s₂.registeredAdapters.store loraId (info.createMergedLoras lora) 1 } ∧
      Frame s s₂ ∧ Recent (s₂.registeredAdapters.store loraId (info.createMergedLoras lora) 1).order (loraId :: used) ∧
      Recent s₂.activeAdapters.order used := by
  obtain ⟨b, hremove⟩ : ∃ b, removeAdapter bases loraId s = some (.ok b, s.removed loraId) :=
    h.removeAdapter_eq hbases
  have hinv : Inv info (s.removed loraId) := h.removed
  have hframe := frame_removed s loraId
  have hnot : loraId ∉ (s.removed loraId).registeredAdapters.order := by
    rw [h.order_removed]
    exact h.registered.nodup.not_mem_erase
  have hregistered₁ : Recent (s.removed loraId).registeredAdapters.order used := by
    rw [h.order_removed]
    exact hregistered.erase hnew
  have hactive₁ : Recent (s.removed loraId).activeAdapters.order used := by
    rw [h.activeOrder_removed]
    exact hactive.erase hnew
  have hsize := hinv.registered.length_order
  by_cases hfull : (s.removed loraId).capacity < (s.removed loraId).registeredAdapters.data.length + 1
  · have hle : (s.removed loraId).capacity ≤ (s.removed loraId).registeredAdapters.order.length := by omega
    obtain ⟨oldest, rest, horder⟩ := exists_cons_of_length_pos (hinv.capacity_pos.trans_le hle)
    have hmem : oldest ∈ (s.removed loraId).registeredAdapters.order := by
      rw [horder]
      exact mem_cons_self
    have hold : oldest ∉ used := by
      rw [horder] at hregistered₁ hle
      have hslots := hinv.slots_le
      rw [hframe.loraSlots] at hslots
      exact hregistered₁.head_not_mem (horder ▸ hinv.registered.nodup) (hlength.trans_le (hslots.trans hle))
    have hnot₂ : loraId ∉ ((s.removed loraId).removed oldest).registeredAdapters.order := by
      rw [hinv.order_removed]
      exact fun hin => hnot (mem_of_mem_erase hin)
    have hroom : ((s.removed loraId).removed oldest).registeredAdapters.order.length <
        ((s.removed loraId).removed oldest).capacity := by
      rw [hinv.order_removed, length_erase_of_mem hmem, (frame_removed _ oldest).capacity]
      have hcapacity := hinv.le_capacity
      have hpos := hinv.capacity_pos
      omega
    have hinv₂ : Inv info ((s.removed loraId).removed oldest) := hinv.removed
    refine ⟨b, _, _, hremove, .inl ⟨hfull, hinv.removeOldestAdapter_eq hbases horder⟩,
      hinv₂.registerAdapter_eq hbases hnot₂ hroom lora, hinv₂.register hnot₂ hroom _,
      hframe.trans (frame_removed _ oldest), ?_, ?_⟩
    · refine Recent.use ?_ hnew
      rw [hinv.order_removed]
      exact hregistered₁.erase hold
    · rw [hinv.activeOrder_removed]
      exact hactive₁.erase hold
  · have hroom : (s.removed loraId).registeredAdapters.order.length < (s.removed loraId).capacity := by omega
    exact ⟨b, _, _, hremove, .inr ⟨hfull, rfl⟩, hinv.registerAdapter_eq hbases hnot hroom lora,
      hinv.register hnot hroom _, hframe, hregistered₁.use hnew, hactive₁⟩

lemma get_registered {loraId : ℕ} (hbases : bases.Documented) (hmem : loraId ∈ s.registeredAdapters.order) :
    ∃ lora, (registeredAdapters bases).lift (bases.registered.get loraId) s =
      some (.ok (some lora), { s with registeredAdapters := s.registeredAdapters.touch loraId }) := by
  obtain ⟨lora, hlookup⟩ := h.registered.exists_lookup hmem
  rw [AdapterLRUCache.lift]
  change ∃ lora, (bases.registered.get loraId s.registeredAdapters).map _ = _
  rw [hbases.registered.get_stored hlookup]
  exact ⟨lora, rfl⟩

/-- `add_adapter` makes the adapter the youngest one of both caches. -/
lemma addAdapter_spec (hbases : bases.Documented)
    (hregistered : Recent s.registeredAdapters.order used) (hactive : Recent s.activeAdapters.order used)
    (hnew : request.loraIntId ∉ used) (hlength : used.length < s.loraSlots)
    (hload : Loads s request → ∃ lora, request.loaded = .ok lora) :
    ∃ b s', addAdapter bases info request s = some (.ok b, s') ∧ Inv info s' ∧ Frame s s' ∧
      Recent s'.registeredAdapters.order (request.loraIntId :: used) ∧
      Recent s'.activeAdapters.order (request.loraIntId :: used) := by
  by_cases hloads : Loads s request
  · obtain ⟨lora, hlora⟩ := hload hloads
    obtain ⟨b, s₁, s₂, hremove, hroom, hregister, hinv, hframe, hregistered', hactive'⟩ :=
      h.load_spec hbases request.loraIntId lora hregistered hactive hnew hlength
    obtain ⟨b', s', hactivate, hinv', hframe', hrecent⟩ :=
      hinv.activateAdapter_spec hbases hregistered' hactive' hnew (hframe.loraSlots ▸ hlength)
    refine ⟨true, s', ?_, hinv', ?_, hrecent⟩
    · have hload : (Effect.lift request.loaded : Run ω τ ω) s = some (.ok lora, s) := by
        rw [Effect.lift, hlora]
      have hread : (Effect.read fun s : LoRAModelManager ω τ =>
          decide (s.capacity < s.registeredAdapters.data.length + 1) : Run ω τ Bool) s₁ =
            some (.ok (decide (s₁.capacity < s₁.registeredAdapters.data.length + 1)), s₁) := rfl
      rw [addAdapter, bind_of_ok (h.contains_registered request.loraIntId), if_pos (by simpa [Loads] using hloads),
        bind_of_ok hload, bind_of_ok hremove, bind_of_ok hread]
      rcases hroom with ⟨hfull, holdest⟩ | ⟨hfits, rfl⟩
      · rw [if_pos (by simpa using hfull)]
        exact (bind_of_ok holdest).trans ((bind_of_ok hregister).trans (bind_of_ok hactivate))
      · rw [if_neg (by simpa using hfits)]
        exact (bind_of_ok hregister).trans (bind_of_ok hactivate)
    · exact hframe.trans ⟨hframe'.capacity, hframe'.loraSlots, hframe'.lastMapping, hframe'.metadata⟩
  · obtain ⟨hmem, hinplace⟩ : request.loraIntId ∈ s.registeredAdapters.order ∧ request.loadInplace = false := by
      simpa [Loads] using hloads
    obtain ⟨lora, hget⟩ := h.get_registered hbases hmem
    have hinv := h.touchRegistered hmem
    obtain ⟨b', s', hactivate, hinv', hframe', hrecent⟩ :=
      hinv.activateAdapter_spec hbases (hregistered.use hnew) hactive hnew hlength
    refine ⟨true, s', ?_, hinv', ⟨hframe'.capacity, hframe'.loraSlots, hframe'.lastMapping, hframe'.metadata⟩, hrecent⟩
    rw [addAdapter, bind_of_ok (h.contains_registered request.loraIntId), if_neg (by simp [hmem, hinplace])]
    exact (bind_of_ok hget).trans (bind_of_ok hactivate)

/-- However `add_adapter` ends, the invariant holds. -/
lemma addAdapter_cases (hbases : bases.Documented) (request : LoRARequest ω) :
    ∃ out s', addAdapter bases info request s = some (out, s') ∧ Inv info s' ∧ Frame s s' := by
  by_cases hload : Loads s request → ∃ lora, request.loaded = .ok lora
  · obtain ⟨b, s', hadd, hinv, hframe, -⟩ :=
      h.addAdapter_spec hbases (.nil _) (.nil _) not_mem_nil h.slots_pos hload
    exact ⟨.ok b, s', hadd, hinv, hframe⟩
  · obtain ⟨hloads, hnone⟩ := Classical.not_imp.1 hload
    cases hloaded : request.loaded with
    | ok lora => exact absurd ⟨lora, hloaded⟩ hnone
    | error e => exact ⟨.error e, s, h.addAdapter_of_error hloads hloaded, h, .refl s⟩

/-- An adapter that is active and not loaded again keeps its slot. -/
lemma addAdapter_of_active (hbases : bases.Documented)
    (hactive : request.loraIntId ∈ s.activeAdapters.order) (hinplace : request.loadInplace = false) :
    addAdapter bases info request s = some (.ok true, { s with
      registeredAdapters := s.registeredAdapters.touch request.loraIntId
      activeAdapters := s.activeAdapters.touch request.loraIntId }) := by
  have hmem := h.active_registered request.loraIntId hactive
  obtain ⟨lora, hget⟩ := h.get_registered hbases hmem
  have hactivate : activateAdapter bases info request.loraIntId _ = _ :=
    (h.touchRegistered hmem).activateAdapter_of_active hactive
  rw [addAdapter, bind_of_ok (h.contains_registered request.loraIntId), if_neg (by simp [hmem, hinplace])]
  exact (bind_of_ok hget).trans (bind_of_ok hactivate)

/-! ## The adapters of a batch -/

lemma addAdapters_cases (hbases : bases.Documented) (requests : List (LoRARequest ω)) :
    ∃ out s', addAdapters bases info requests s = some (out, s') ∧ Inv info s' ∧ Frame s s' := by
  induction requests generalizing s with
  | nil => exact ⟨.ok (), s, rfl, h, .refl s⟩
  | cons request requests ih =>
    obtain ⟨out, s₁, hadd, hinv, hframe⟩ := h.addAdapter_cases hbases request
    cases out with
    | error e => exact ⟨.error e, s₁, bind_of_error hadd, hinv, hframe⟩
    | ok b =>
      obtain ⟨out, s', hrest, hinv', hframe'⟩ := ih hinv
      exact ⟨out, s', (bind_of_ok hadd).trans hrest, hinv', hframe.trans hframe'⟩

lemma addAdapters_of_active (hbases : bases.Documented) (requests : List (LoRARequest ω))
    (hactive : ∀ request ∈ requests, request.loraIntId ∈ s.activeAdapters.order ∧ request.loadInplace = false) :
    ∃ s', addAdapters bases info requests s = some (.ok (), s') ∧ s'.loraIndexToId = s.loraIndexToId := by
  induction requests generalizing s with
  | nil => exact ⟨s, rfl, rfl⟩
  | cons request requests ih =>
    obtain ⟨hmem, hinplace⟩ := hactive request mem_cons_self
    have hregistered := h.active_registered request.loraIntId hmem
    have htouched := h.touchActive hmem
    have hadd := h.addAdapter_of_active hbases hmem hinplace
    obtain ⟨s', hrest, hslots⟩ := ih (htouched.touchRegistered hregistered) (by
      intro other hother
      obtain ⟨hactive', hinplace'⟩ := hactive other (mem_cons_of_mem _ hother)
      exact ⟨(htouched.units.mem_order _).2 ((h.units.mem_order _).1 hactive'), hinplace'⟩)
    exact ⟨s', (bind_of_ok hadd).trans hrest, hslots⟩

end

end Inv

/-! ## The requests by id -/

lemma mem_dictSet {κ ν : Type} [DecidableEq κ] {d : OrderedDict κ ν} {key : κ} {value : ν} {entry : κ × ν}
    (h : entry ∈ dictSet d key value) : entry = (key, value) ∨ entry ∈ d := by
  unfold dictSet at h
  split at h
  · obtain ⟨old, hmem, rfl⟩ := mem_map.1 h
    split
    · exact .inl rfl
    · exact .inr hmem
  · rcases mem_append.1 h with h | h
    · exact .inr h
    · exact .inl (mem_singleton.1 h)

lemma lorasMap_spec (requests : List (LoRARequest ω)) :
    ((lorasMap requests).map Prod.fst).Nodup ∧
      (∀ entry ∈ lorasMap requests, entry.2.loraIntId = entry.1 ∧ entry.2 ∈ requests) ∧
      ∀ loraId, loraId ∈ (lorasMap requests).map Prod.fst ↔ loraId ∈ requests.map (·.loraIntId) := by
  induction requests using List.reverseRecOn with
  | nil => exact ⟨nodup_nil, fun _ hmem => absurd hmem not_mem_nil, fun _ => Iff.rfl⟩
  | append_singleton requests request ih =>
    obtain ⟨hnodup, hentries, hkeys⟩ := ih
    have hstep : lorasMap (requests ++ [request]) = dictSet (lorasMap requests) request.loraIntId request := by
      simp [lorasMap]
    rw [hstep]
    refine ⟨nodup_dictSet hnodup, ?_, ?_⟩
    · intro entry hmem
      rcases mem_dictSet hmem with rfl | hmem
      · exact ⟨rfl, by simp⟩
      · exact ⟨(hentries entry hmem).1, mem_append_left _ (hentries entry hmem).2⟩
    · intro loraId
      rw [map_fst_dictSet, map_append, mem_append, ← hkeys]
      split
      · rename_i hmem
        constructor
        · exact .inl
        · rintro (hin | hin)
          · exact hin
          · obtain rfl : loraId = request.loraIntId := by simpa using hin
            exact hmem
      · rw [mem_append]
        rfl

/-- The requests that are added, one for each id. -/
lemma mem_lorasMap_values {requests : List (LoRARequest ω)} (h : request ∈ (lorasMap requests).map Prod.snd) :
    request ∈ requests := by
  obtain ⟨entry, hmem, rfl⟩ := mem_map.1 h
  exact ((lorasMap_spec requests).2.1 entry hmem).2

end VllmRuntime.LoRA
