import VllmRuntime.Shared.Runs
import VllmRuntime.Verification.LoRA.Correctness

/-! # The metadata of the punica wrappers

`set_adapter_mapping` skips a mapping that equals the last one, although the slots of its adapters may have
changed since. As long as they have not, the wrapper has the current slots after every batch. -/

namespace VllmRuntime.LoRA

open List Effect

variable {ω τ : Type} {bases : CacheBases ω τ} {info : ModelInfo ω τ} {slots slots' : List (Option ℕ)}

/-- The manager, with the mapping of the batch that was set last if no other call came after it. -/
structure Batches (ω τ : Type) where
  manager : LoRAModelManager ω τ
  mapping : Option LoRAMapping

namespace Batches

def new (ω τ : Type) (maxCpuLoras maxLoras : ℕ) : Batches ω τ where
  manager := .new ω τ maxCpuLoras maxLoras
  mapping := none

/-- The mapping of a call. -/
def mappingOf : Call ω → Option LoRAMapping
  | .setActiveAdapters _ mapping => mapping
  | _ => none

/-- A call that raises leaves what it has changed; one that does not return is no step. -/
def run (bases : CacheBases ω τ) (info : ModelInfo ω τ) (call : Call ω) (s : Batches ω τ) :
    Except Unit (Batches ω τ) :=
  match runCall bases info call s.manager with
  | none => .error ()
  | some (.ok (), manager) => .ok { manager, mapping := mappingOf call }
  | some (.error _, manager) => .ok { manager, mapping := none }

/-- The wrapper was last given this mapping, with slots that are the current ones on the adapters of the
mapping, so that its indices are those of the current slots. -/
def Current (info : ModelInfo ω τ) (s : LoRAModelManager ω τ) (mapping : LoRAMapping) : Prop :=
  ∃ wrapper metadata, info.getPunicaWrapper (info.target mapping) = some wrapper ∧
    s.metadata wrapper = some metadata ∧ metadata.mapping = mapping ∧
    (∀ loraId ∈ mapping.loraIds,
      metadata.loraIndexToId.idxOf (some loraId) = s.loraIndexToId.idxOf (some loraId)) ∧
    convertMapping mapping s.loraIndexToId = .ok metadata.indices

def Sound (info : ModelInfo ω τ) (s : Batches ω τ) : Prop :=
  ∀ mapping, s.mapping = some mapping → Current info s.manager mapping

/-- A batch with the mapping of the last one has only adapters that are active and are not loaded again, and
those of the mapping are in the slots that the wrapper was given. -/
def Allowed (info : ModelInfo ω τ) (s : Batches ω τ) : Call ω → Prop
  | .setActiveAdapters requests (some mapping) => s.manager.lastMapping = some mapping →
      (∀ wrapper metadata, info.getPunicaWrapper (info.target mapping) = some wrapper →
        s.manager.metadata wrapper = some metadata → ∀ loraId ∈ mapping.loraIds,
          metadata.loraIndexToId.idxOf (some loraId) = s.manager.loraIndexToId.idxOf (some loraId)) ∧
      ∀ request ∈ requests, request.loraIntId ∈ s.manager.activeAdapters.keys ∧ request.loadInplace = false
  | _ => True

end Batches

/-! ## Equal slots give equal indices -/

lemma loraIndex_congr {loraId : ℕ} (hlength : slots.length = slots'.length)
    (h : loraId ≠ 0 → slots.idxOf (some loraId) = slots'.idxOf (some loraId)) :
    loraIndex slots loraId = loraIndex slots' loraId := by
  unfold loraIndex
  by_cases hzero : loraId = 0
  · rw [if_pos hzero, if_pos hzero]
  · have hindex := h hzero
    have hmem : some loraId ∈ slots ↔ some loraId ∈ slots' := by
      rw [← idxOf_lt_length_iff, ← idxOf_lt_length_iff, hindex, hlength]
    rw [if_neg hzero, if_neg hzero, hindex]
    simp only [hmem]

lemma convertMapping_congr {mapping : LoRAMapping} (hlength : slots.length = slots'.length)
    (h : ∀ loraId ∈ mapping.loraIds, slots.idxOf (some loraId) = slots'.idxOf (some loraId)) :
    convertMapping mapping slots = convertMapping mapping slots' := by
  have hindex {loraId : ℕ} (hin : loraId ∈ mapping.promptMapping ++ mapping.indexMapping) :
      loraIndex slots loraId = loraIndex slots' loraId :=
    loraIndex_congr hlength fun hne => h loraId (List.mem_filter.2 ⟨hin, by simpa using hne⟩)
  unfold convertMapping
  rw [mapM_congr_left fun loraId hmem => hindex (mem_append_left _ hmem),
    mapM_congr_left fun loraId hmem => hindex (mem_append_right mapping.promptMapping hmem)]

/-! ## The last mapping -/

/-- The wrapper of the last mapping was given it. -/
structure MappingInv (info : ModelInfo ω τ) (s : LoRAModelManager ω τ) : Prop extends Inv info s where
  last : ∀ mapping, s.lastMapping = some mapping → ∃ wrapper metadata,
    info.getPunicaWrapper (info.target mapping) = some wrapper ∧ s.metadata wrapper = some metadata ∧
      metadata.mapping = mapping ∧ metadata.loraIndexToId.length = s.loraSlots ∧
      convertMapping mapping metadata.loraIndexToId = .ok metadata.indices

namespace MappingInv

variable {s s' : LoRAModelManager ω τ}

lemma congr (h : MappingInv info s) (hinv : Inv info s') (hframe : Frame s s') : MappingInv info s' := by
  refine ⟨hinv, ?_⟩
  rw [hframe.lastMapping, hframe.metadata, hframe.loraSlots]
  exact h.last

lemma setAdapterMapping_spec (h : MappingInv info s) (mapping : LoRAMapping) :
    ∃ out s', setAdapterMapping info mapping s = some (out, s') ∧ MappingInv info s' ∧
      (s.lastMapping ≠ some mapping → out = .ok () → Batches.Current info s' mapping) ∧
      (s.lastMapping = some mapping → s' = s) := by
  rcases setAdapterMapping_cases info s mapping with ⟨hlast, hset⟩ | ⟨hlast, -, e, hset⟩ |
    ⟨hlast, wrapper, indices, hwrapper, hconvert, hset⟩
  · exact ⟨_, s, hset, h, fun hne => absurd hlast hne, fun _ => rfl⟩
  · exact ⟨_, s, hset, h, fun _ hok => (nomatch hok), fun heq => absurd heq hlast⟩
  · refine ⟨_, _, hset, ⟨h.toInv.withMapping _ _, ?_⟩, ?_, fun heq => absurd heq hlast⟩
    · intro other hother
      cases hother
      exact ⟨wrapper, _, hwrapper, Function.update_self _ _ _, rfl, h.length, hconvert⟩
    · intro _ _
      exact ⟨wrapper, _, hwrapper, Function.update_self _ _ _, rfl, fun _ _ => rfl, hconvert⟩

lemma applyAdapters_cases (h : MappingInv info s) (hbases : bases.Documented) (requests : List (LoRARequest ω)) :
    ∃ out s', applyAdapters bases info requests s = some (out, s') ∧ MappingInv info s' ∧ Frame s s' := by
  by_cases hlength : (lorasMap requests).length ≤ s.loraSlots
  · obtain ⟨out, s', hadd, hinv, hframe⟩ :=
      h.toInv.addAdapters_cases hbases ((lorasMap requests).map Prod.snd)
    exact ⟨out, s', (Inv.applyAdapters_eq s hlength).trans hadd, h.congr hinv hframe, hframe⟩
  · obtain ⟨e, happly⟩ : ∃ e, applyAdapters bases info requests s = some (.error e, s) :=
      Inv.applyAdapters_raises s (not_le.1 hlength)
    exact ⟨.error e, s, happly, h, .refl s⟩

/-- A batch, with its mapping. -/
lemma setActiveAdapters_cases (h : MappingInv info s) (hbases : bases.Documented)
    (requests : List (LoRARequest ω)) (mapping : Option LoRAMapping) :
    ∃ out s', setActiveAdapters bases info requests mapping s = some (out, s') ∧ MappingInv info s' ∧
      ∀ given, mapping = some given → out = .ok () →
        ∃ s₁, applyAdapters bases info requests s = some (.ok (), s₁) ∧ Frame s s₁ ∧
          (s.lastMapping ≠ some given → Batches.Current info s' given) ∧ (s.lastMapping = some given → s' = s₁) := by
  obtain ⟨out, s₁, happly, hinv, hframe⟩ := h.applyAdapters_cases hbases requests
  cases out with
  | error e => exact ⟨_, s₁, bind_of_error happly, hinv, fun _ _ hok => (nomatch hok)⟩
  | ok u =>
    cases mapping with
    | none => exact ⟨.ok (), s₁, (bind_of_ok happly).trans rfl, hinv, nofun⟩
    | some mapping =>
      obtain ⟨out, s', hset, hinv', hcurrent, hsame⟩ := hinv.setAdapterMapping_spec mapping
      refine ⟨out, s', (bind_of_ok happly).trans hset, hinv', ?_⟩
      intro given hgiven hok
      cases hgiven
      rw [hframe.lastMapping] at hcurrent hsame
      exact ⟨s₁, happly, hframe, fun hne => hcurrent hne hok, hsame⟩

end MappingInv

namespace Batches

variable {s s' : Batches ω τ}

/-- One call, whether it raises or not. -/
lemma run_spec (h : MappingInv info s.manager) (hbases : bases.Documented) {call : Call ω}
    (hallowed : s.Allowed info call) (hrun : run bases info call s = .ok s') :
    MappingInv info s'.manager ∧ Sound info s' := by
  cases call with
  | addAdapter request =>
    obtain ⟨out, manager, hadd, hinv, hframe⟩ := h.toInv.addAdapter_cases hbases request
    have hcall : runCall bases info (.addAdapter request) s.manager = some (out.map fun _ => (), manager) := by
      cases out with
      | ok b => exact (bind_of_ok hadd).trans rfl
      | error e => exact bind_of_error hadd
    unfold run at hrun
    rw [hcall] at hrun
    cases out with
    | ok b | error e =>
      cases hrun
      exact ⟨h.congr hinv hframe, nofun⟩
  | removeAdapter loraId =>
    obtain ⟨b, hremove⟩ : ∃ b, removeAdapter bases loraId s.manager = some (.ok b, s.manager.removed loraId) :=
      h.toInv.removeAdapter_eq hbases
    have hcall : runCall bases info (.removeAdapter loraId) s.manager =
        some (.ok (), s.manager.removed loraId) := (bind_of_ok hremove).trans rfl
    unfold run at hrun
    rw [hcall] at hrun
    cases hrun
    exact ⟨h.congr h.toInv.removed (frame_removed _ _), nofun⟩
  | setActiveAdapters requests mapping =>
    obtain ⟨out, manager, hcall, hinv, hcases⟩ := h.setActiveAdapters_cases hbases requests mapping
    have hcall : runCall bases info (.setActiveAdapters requests mapping) s.manager = some (out, manager) := hcall
    unfold run at hrun
    rw [hcall] at hrun
    cases out with
    | error e =>
      cases hrun
      exact ⟨hinv, nofun⟩
    | ok u =>
      cases hrun
      refine ⟨hinv, ?_⟩
      intro given hgiven
      have hgiven : mapping = some given := hgiven
      obtain ⟨s₁, happly, hframe, hcurrent, hsame⟩ := hcases given hgiven rfl
      by_cases hlast : s.manager.lastMapping = some given
      · -- the update is skipped, and the adapters have kept their slots
        subst hgiven
        obtain ⟨hslots, hactive⟩ := hallowed hlast
        obtain ⟨wrapper, metadata, hwrapper, hmetadata, hmapping, hlength, hconvert⟩ := h.last given hlast
        have hkept : manager.loraIndexToId = s.manager.loraIndexToId := by
          rw [hsame hlast]
          by_cases hle : (lorasMap requests).length ≤ s.manager.loraSlots
          · obtain ⟨s₂, hadd, hsame₂⟩ := h.toInv.addAdapters_of_active hbases
              ((lorasMap requests).map Prod.snd) (by
                intro request hmem
                obtain ⟨hkey, hinplace⟩ := hactive request (mem_lorasMap_values hmem)
                exact ⟨(h.units.mem_order _).2 hkey, hinplace⟩)
            have heq := happly.symm.trans ((Inv.applyAdapters_eq s.manager hle).trans hadd)
            obtain rfl := (Prod.mk.inj (Option.some.inj heq)).2
            exact hsame₂
          · obtain ⟨e, herror⟩ : ∃ e, applyAdapters bases info requests s.manager = some (.error e, s.manager) :=
              Inv.applyAdapters_raises s.manager (not_le.1 hle)
            rw [herror] at happly
            cases happly
        have hagree := hslots wrapper metadata hwrapper hmetadata
        refine ⟨wrapper, metadata, hwrapper, ?_, hmapping, ?_, ?_⟩
        · show manager.metadata wrapper = some metadata
          rw [hsame hlast, hframe.metadata]
          exact hmetadata
        · show ∀ loraId ∈ given.loraIds, _ = manager.loraIndexToId.idxOf (some loraId)
          rw [hkept]
          exact hagree
        · show convertMapping given manager.loraIndexToId = _
          rw [hkept, ← hconvert]
          exact (convertMapping_congr (hlength.trans h.length.symm) hagree).symm
      · exact hcurrent hlast

/-- After every batch the wrapper has the current slots, as long as a batch with the mapping of the last one
finds the adapters where they were. -/
theorem current_of_reaches (hbases : bases.Documented) {maxLoras maxCpuLoras : ℕ} (hpos : 0 < maxLoras)
    (hle : maxLoras ≤ maxCpuLoras)
    (h : Reaches (run bases info) (Allowed info) (new ω τ maxCpuLoras maxLoras) s) : Sound info s := by
  have hstart : MappingInv info (new ω τ maxCpuLoras maxLoras).manager ∧
      Sound info (new ω τ maxCpuLoras maxLoras) := ⟨⟨inv_new info hpos hle, nofun⟩, nofun⟩
  have hinv : MappingInv info s.manager ∧ Sound info s :=
    h.invariant hstart fun _ _ _ hs hallowed hrun => run_spec hs.1 hbases hallowed hrun
  exact hinv.2

section Check

def checkAllowed (s : Batches ω τ) : Call ω → Bool
  | .setActiveAdapters _ (some mapping) => s.manager.lastMapping ≠ some mapping
  | _ => true

lemma allowed_of_check (s : Batches ω τ) (call : Call ω) (h : checkAllowed s call = true) :
    s.Allowed info call := by
  cases call with
  | addAdapter | removeAdapter => trivial
  | setActiveAdapters requests mapping =>
    cases mapping with
    | none => trivial
    | some mapping => exact fun hlast => absurd hlast (of_decide_eq_true h)

end Check

def demoMapping : LoRAMapping := { indexMapping := [1, 2, 2], promptMapping := [1, 2] }

/-- A batch of adapters 1 and 2; adapter 3 then takes the slot of adapter 1. -/
def demoBatch : List (Call ℕ) :=
  [.setActiveAdapters [demoRequest 1 false 10, demoRequest 2 false 20] (some demoMapping),
    .addAdapter (demoRequest 3 false 30)]

/-- The next batch has another mapping. -/
theorem current_of_reaches_demoBatch : ∃ s : Batches ℕ ℕ,
    s.mapping = some { demoMapping with indexMapping := [1, 2] } ∧ Sound demoInfo s := by
  have hrun : (runChecked (run (referenceBases ℕ ℕ) demoInfo) checkAllowed
      (demoBatch ++ [.setActiveAdapters [demoRequest 1 false 10, demoRequest 2 false 20]
        (some { demoMapping with indexMapping := [1, 2] })]) (new ℕ ℕ 3 2)).map (·.mapping) =
        some (some { demoMapping with indexMapping := [1, 2] }) := by
    decide +kernel
  obtain ⟨s, hs, hmapping⟩ := Option.map_eq_some_iff.mp hrun
  exact ⟨s, hmapping, current_of_reaches documented_referenceBases Nat.two_pos (by decide : 2 ≤ 3)
    (Reaches.of_runChecked allowed_of_check .start hs)⟩

/-- The next batch has the same mapping: adapters 1 and 2 come back in each other's slots, and the wrapper still
sends the token of adapter 1 to slot 0, which has the weights of adapter 2. -/
theorem demoBatch_not_current : ∃ s : Batches ℕ ℕ,
    Reaches (run (referenceBases ℕ ℕ) demoInfo) (fun _ _ => True) (new ℕ ℕ 3 2) s ∧
      (s.manager.metadata 0).map (·.indices.1) = some [0, 1, 1] ∧ s.manager.weights "q_proj" 0 = some 20 ∧
      ¬Sound demoInfo s := by
  have hrun : (runChecked (run (referenceBases ℕ ℕ) demoInfo) (fun _ _ => true)
      (demoBatch ++ [.setActiveAdapters [demoRequest 1 false 10, demoRequest 2 false 20] (some demoMapping)])
      (new ℕ ℕ 3 2)).map (fun s => (s.mapping, s.manager.loraIndexToId, s.manager.metadata 0,
        s.manager.weights "q_proj" 0)) = some (some demoMapping, [some 2, some 1],
          some ⟨demoMapping, [some 1, some 2], [0, 1, 1], [0, 1]⟩, some 20) := by
    decide +kernel
  obtain ⟨s, hs, heq⟩ := Option.map_eq_some_iff.mp hrun
  obtain ⟨hmapping, hrest⟩ := Prod.mk.inj heq
  obtain ⟨hslots, hrest⟩ := Prod.mk.inj hrest
  obtain ⟨hmetadata, hweights⟩ := Prod.mk.inj hrest
  refine ⟨s, Reaches.of_runChecked (fun _ _ _ => trivial) .start hs, by rw [hmetadata]; rfl, hweights, ?_⟩
  intro hsound
  obtain ⟨wrapper, metadata, hwrapper, hget, -, hagree, -⟩ := hsound demoMapping hmapping
  obtain rfl : 0 = wrapper := Option.some.inj hwrapper
  obtain rfl := Option.some.inj (hmetadata.symm.trans hget)
  have hone := hagree 1 (by decide)
  rw [hslots] at hone
  exact absurd hone (by decide)

end Batches

end VllmRuntime.LoRA
