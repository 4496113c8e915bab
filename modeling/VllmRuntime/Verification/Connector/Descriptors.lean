import Mathlib.Data.List.ProdSigma
import VllmRuntime.Model.NixlRead

/-! # The descriptors of a read

A descriptor numbers the blocks of all regions, one region after the other. The two lists of a read are laid
out by one plan: which block of which region is copied next. -/

namespace VllmRuntime.Nixl

open List

/-- The entries of a list at some indices. -/
def pick (xs indices : List ℕ) : List ℕ := indices.map (xs.getD · 0)

lemma pick_range (xs : List ℕ) : pick xs (range xs.length) = xs := by
  apply ext_getElem?
  intro i
  rw [pick, getElem?_map]
  by_cases hi : i < xs.length
  · rw [getElem?_range hi, getElem?_eq_getElem hi, Option.map_some, getD_eq_getElem?_getD,
      getElem?_eq_getElem hi, Option.getD_some]
  · rw [getElem?_eq_none (by simpa using hi), getElem?_eq_none (by omega), Option.map_none]

lemma pick_pyLast (xs : List ℕ) (n : ℕ) : pick xs (pyLast (range xs.length) n) = pyLast xs n := by
  unfold pyLast
  split
  · exact pick_range xs
  · rw [length_range, pick, map_drop]
    change (pick xs (range xs.length)).drop _ = _
    rw [pick_range]

/-- The indices of the blocks in a window. -/
def windowIndices (n : ℕ) : Option ℕ → List ℕ
  | none => List.range n
  | some window => pyLast (List.range n) window

lemma pick_windowIndices (xs : List ℕ) (window : Option ℕ) :
    pick xs (windowIndices xs.length window) = ReadWorker.windowBlocks xs window := by
  cases window with
  | none => exact pick_range xs
  | some window => exact pick_pyLast xs window

lemma nodup_windowIndices (n : ℕ) (window : Option ℕ) : (windowIndices n window).Nodup := by
  cases window with
  | none => exact nodup_range
  | some window =>
    rw [windowIndices, pyLast]
    split
    · exact nodup_range
    · exact nodup_range.sublist (drop_sublist _ _)

lemma mem_windowIndices {n j : ℕ} {window : Option ℕ} (h : window ≠ some 0) :
    j ∈ windowIndices n window ↔ j < n ∧ ∀ size, window = some size → n ≤ j + size := by
  cases window with
  | none => simp [windowIndices]
  | some size =>
    have hsize : size ≠ 0 := fun hzero => h (congrArg some hzero)
    rw [windowIndices, pyLast, if_neg hsize, length_range, mem_drop_iff_getElem]
    simp only [length_range, getElem_range, Option.some.injEq, forall_eq']
    constructor
    · rintro ⟨i, hi, rfl⟩
      omega
    · rintro ⟨hj, hle⟩
      exact ⟨j - (n - size), by omega, by omega⟩

namespace ReadWorker

variable (w : ReadWorker) {r layer layerIdx localNum remoteNum ratio n : ℕ} {dst : EngineId}
  {localIds remoteIds : List ℕ} {α : Type*} {descs : List ℕ × List ℕ}

/-- The regions of a layer: its keys and its values, or both in one. -/
def layerRegions (layerIdx : ℕ) : List ℕ :=
  if w.numLayers < w.numRegions then [2 * layerIdx, 2 * layerIdx + 1] else [layerIdx]

/-- What is copied, in order: a region and the index of a block. -/
def plan (n : ℕ) : List (ℕ × ℕ) :=
  if w.blockWindowPerLayer = [] then (List.range w.numRegions).product (List.range n)
  else w.blockWindowPerLayer.zipIdx.flatMap fun layer =>
    (w.layerRegions layer.2).product (windowIndices n layer.1)

/-- The descriptors of a plan on an engine with so many blocks. -/
def planDescs (blockIds : List ℕ) (numBlocks : ℕ) (plan : List (ℕ × ℕ)) : List ℕ :=
  plan.map fun entry => entry.1 * numBlocks + blockIds.getD entry.2 0

lemma planDescs_product (blockIds regions indices : List ℕ) (numBlocks : ℕ) :
    regions.flatMap (fun region => (pick blockIds indices).map (region * numBlocks + ·)) =
      planDescs blockIds numBlocks (regions.product indices) := by
  rw [planDescs, product, map_flatMap]
  refine flatMap_congr fun region _ => ?_
  rw [pick, map_map, map_map]
  rfl

lemma planDescs_flatMap (blockIds : List ℕ) (numBlocks : ℕ) (as : List α) (f : α → List (ℕ × ℕ)) :
    planDescs blockIds numBlocks (as.flatMap f) = as.flatMap fun a => planDescs blockIds numBlocks (f a) :=
  map_flatMap

variable {w}

lemma regionIds_eq_ok {regions : List ℕ} (h : w.regionIds (some layerIdx) = .ok regions) :
    regions = w.layerRegions layerIdx ∧ (w.numLayers < w.numRegions ∨ w.numLayers = w.numRegions) := by
  unfold regionIds at h
  dsimp only at h
  obtain ⟨-, -, h⟩ := bind_eq_ok h
  unfold layerRegions
  split at h
  · rename_i hlt
    obtain ⟨-, -, h⟩ := bind_eq_ok h
    rw [if_pos hlt]
    exact ⟨(Except.ok.inj h).symm, .inl hlt⟩
  · rename_i hnot
    obtain ⟨u, hassert, h⟩ := bind_eq_ok h
    rw [if_neg hnot]
    exact ⟨(Except.ok.inj h).symm, .inr (by simpa using pyAssert_eq_ok.mp hassert)⟩

lemma getBlockDescsIds_eq_ok {engineId : EngineId} {blockIds descs : List ℕ} {layerIdx ratio : Option ℕ}
    {numBlocks : ℕ} (hnum : w.dstNumBlocks engineId = some numBlocks)
    (h : w.getBlockDescsIds engineId blockIds layerIdx ratio = .ok descs) :
    ∃ regions, w.regionIds layerIdx = .ok regions ∧
      descs = regions.flatMap fun region => blockIds.map (region * (numBlocks * ratio.getD 1) + ·) := by
  unfold getBlockDescsIds at h
  obtain ⟨regions, hregions, h⟩ := bind_eq_ok h
  rw [hnum] at h
  exact ⟨regions, hregions, (Except.ok.inj h).symm⟩

lemma flatten_of_forall₂ {β γ : Type*} {f : α → List γ} {proj : β → List γ} {as : List α} {bs : List β}
    (h : List.Forall₂ (fun a b => proj b = f a) as bs) : (bs.map proj).flatten = as.flatMap f := by
  induction h with
  | nil => rfl
  | cons hab _ ih => rw [map_cons, flatten_cons, hab, ih, flatMap_cons]

/-- The descriptors of one layer. -/
lemma layerDescsIds_eq_ok {window : Option ℕ} (hlocal : w.dstNumBlocks w.engineId = some localNum)
    (hremote : w.dstNumBlocks dst = some remoteNum) (hlength : localIds.length = remoteIds.length)
    (h : w.layerDescsIds dst localIds remoteIds ratio window layerIdx = .ok descs) :
    descs.1 = planDescs localIds remoteNum
        ((w.layerRegions layerIdx).product (windowIndices localIds.length window)) ∧
      descs.2 = planDescs remoteIds (localNum * ratio)
        ((w.layerRegions layerIdx).product (windowIndices localIds.length window)) ∧
      (w.numLayers < w.numRegions ∨ w.numLayers = w.numRegions) := by
  unfold layerDescsIds at h
  rw [← pick_windowIndices, ← pick_windowIndices, ← hlength] at h
  obtain ⟨localDescs, hlocalDescs, h⟩ := bind_eq_ok h
  obtain ⟨remoteDescs, hremoteDescs, rfl⟩ := map_eq_ok h
  obtain ⟨regions, hregions, rfl⟩ := getBlockDescsIds_eq_ok hremote hlocalDescs
  obtain ⟨regions', hregions', rfl⟩ := getBlockDescsIds_eq_ok hlocal hremoteDescs
  obtain ⟨rfl, hlayers⟩ := regionIds_eq_ok hregions
  obtain ⟨rfl, -⟩ := regionIds_eq_ok hregions'
  rw [planDescs_product, planDescs_product]
  simp only [Option.getD_none, Option.getD_some, mul_one, true_and]
  exact hlayers

/-- Both lists follow the plan. With windows each one is numbered like the other engine. -/
lemma descsIds_eq_ok (hlocal : w.dstNumBlocks w.engineId = some localNum)
    (hremote : w.dstNumBlocks dst = some remoteNum) (hlength : localIds.length = remoteIds.length)
    (h : w.descsIds dst localIds remoteIds ratio = .ok descs) :
    descs.1 = planDescs localIds (if w.blockWindowPerLayer = [] then localNum * ratio else remoteNum)
        (w.plan localIds.length) ∧
      descs.2 = planDescs remoteIds (if w.blockWindowPerLayer = [] then remoteNum else localNum * ratio)
        (w.plan localIds.length) ∧
      (w.blockWindowPerLayer ≠ [] → w.numLayers < w.numRegions ∨ w.numLayers = w.numRegions) := by
  unfold descsIds at h
  unfold plan
  split at h
  · rename_i hnone
    obtain ⟨remoteDescs, hremoteDescs, h⟩ := bind_eq_ok h
    obtain ⟨localDescs, hlocalDescs, rfl⟩ := map_eq_ok h
    obtain ⟨regions, hregions, rfl⟩ := getBlockDescsIds_eq_ok hremote hremoteDescs
    obtain ⟨regions', hregions', rfl⟩ := getBlockDescsIds_eq_ok hlocal hlocalDescs
    cases hregions
    cases hregions'
    rw [if_pos hnone, if_pos hnone, if_pos hnone, ← planDescs_product, ← planDescs_product, pick_range, hlength,
      pick_range]
    simp only [Option.getD_none, Option.getD_some, mul_one, true_and]
    exact fun hne => absurd hnone hne
  · rename_i hsome
    obtain ⟨lists, hlists, rfl⟩ := map_eq_ok h
    have hlayers := (mapM_eq_ok hlists).imp fun layer descs hlayer =>
      layerDescsIds_eq_ok hlocal hremote hlength hlayer
    rw [if_neg hsome, if_neg hsome, if_neg hsome, planDescs_flatMap, planDescs_flatMap]
    refine ⟨flatten_of_forall₂ (hlayers.imp fun _ _ h => h.1), flatten_of_forall₂ (hlayers.imp fun _ _ h => h.2.1),
      fun _ => ?_⟩
    obtain ⟨layer, layers, hcons⟩ := exists_cons_of_ne_nil
      (by simpa using hsome : w.blockWindowPerLayer.zipIdx ≠ [])
    rw [hcons] at hlayers
    obtain ⟨descs, _, hlayer, -⟩ := forall₂_cons_left_iff.mp hlayers
    exact hlayer.2.2

/-! ## The plan -/

lemma mem_layerRegions : r ∈ w.layerRegions layer ↔
    if w.numLayers < w.numRegions then r / 2 = layer else r = layer := by
  unfold layerRegions
  split
  · simp only [mem_cons, not_mem_nil, or_false]
    omega
  · simp

/-- The layer of a region. -/
lemma layer_unique {layer' : ℕ} (h : r ∈ w.layerRegions layer) (h' : r ∈ w.layerRegions layer') :
    layer = layer' := by
  rw [mem_layerRegions] at h h'
  split at h
  · rename_i hlt
    rw [if_pos hlt] at h'
    exact h.symm.trans h'
  · rename_i hnot
    rw [if_neg hnot] at h'
    exact h.symm.trans h'

/-- A block of a region is to be copied: it is in the window of the region's layer. -/
def Copied (w : ReadWorker) (n r j : ℕ) : Prop :=
  j < n ∧ (w.blockWindowPerLayer = [] → r < w.numRegions) ∧
    (w.blockWindowPerLayer ≠ [] → ∃ layer window, w.blockWindowPerLayer[layer]? = some window ∧
      r ∈ w.layerRegions layer ∧ ∀ size, window = some size → n ≤ j + size)

lemma mem_plan (hwindows : ∀ window ∈ w.blockWindowPerLayer, window ≠ some 0) {j : ℕ} :
    (r, j) ∈ w.plan n ↔ Copied w n r j := by
  unfold plan Copied
  split
  · rename_i hnone
    rw [pair_mem_product, mem_range, mem_range]
    simp [hnone, and_comm]
  · rename_i hsome
    simp only [mem_flatMap, hsome, false_implies, ne_eq, not_false_eq_true, forall_const, true_and]
    constructor
    · rintro ⟨⟨window, layer⟩, hlayer, hmem⟩
      rw [mk_mem_zipIdx_iff_getElem?] at hlayer
      rw [pair_mem_product, mem_windowIndices (hwindows window (mem_of_getElem? hlayer))] at hmem
      exact ⟨hmem.2.1, layer, window, hlayer, hmem.1, hmem.2.2⟩
    · rintro ⟨hj, layer, window, hlayer, hregion, hwindow⟩
      refine ⟨(window, layer), mk_mem_zipIdx_iff_getElem?.mpr hlayer, ?_⟩
      rw [pair_mem_product, mem_windowIndices (hwindows window (mem_of_getElem? hlayer))]
      exact ⟨hregion, hj, hwindow⟩

lemma nodup_layerRegions (layer : ℕ) : (w.layerRegions layer).Nodup := by
  unfold layerRegions
  split
  · simp
  · simp

lemma nodup_plan (n : ℕ) : (w.plan n).Nodup := by
  unfold plan
  split
  · exact nodup_range.product nodup_range
  · rw [nodup_flatMap]
    refine ⟨fun layer _ => (nodup_layerRegions layer.2).product (nodup_windowIndices n layer.1), ?_⟩
    have hlayers : (w.blockWindowPerLayer.zipIdx.map Prod.snd).Nodup := by
      rw [zipIdx_map_snd]
      exact nodup_range'
    refine (pairwise_map.mp hlayers).imp fun {layer layer'} hne => ?_
    rintro ⟨r, j⟩ hmem hmem'
    rw [pair_mem_product] at hmem hmem'
    exact hne (layer_unique hmem.1 hmem'.1)

/-! ## The two lists -/

variable (w) in
/-- What the descriptors of a read are to be: one plan, which has every block to be copied once, lays out both
lists, each one with the number of blocks of its own engine. -/
def RightDescs (localIds remoteIds : List ℕ) (localNum remoteNum : ℕ) (read : BlockRead) : Prop :=
  ∃ plan : List (ℕ × ℕ), plan.Nodup ∧ (∀ r j, (r, j) ∈ plan ↔ Copied w localIds.length r j) ∧
    read.localBlockDescsIds = planDescs localIds localNum plan ∧
    read.remoteBlockDescsIds = planDescs remoteIds remoteNum plan

lemma sum_planDescs (blockIds : List ℕ) (numBlocks : ℕ) (plan : List (ℕ × ℕ)) :
    (planDescs blockIds numBlocks plan).sum =
      (plan.map (·.1)).sum * numBlocks + (plan.map fun entry => blockIds.getD entry.2 0).sum := by
  induction plan with
  | nil => simp [planDescs]
  | cons entry plan ih =>
    rw [planDescs] at ih ⊢
    simp only [map_cons, sum_cons, ih]
    ring

/-- In region 0 the number of blocks does not matter. -/
lemma planDescs_congr {plan : List (ℕ × ℕ)} (h : ∀ entry ∈ plan, entry.1 = 0) (blockIds : List ℕ)
    (numBlocks numBlocks' : ℕ) : planDescs blockIds numBlocks plan = planDescs blockIds numBlocks' plan := by
  refine map_congr_left fun entry hentry => ?_
  rw [h entry hentry, Nat.zero_mul, Nat.zero_mul]

/-- The last block is copied in every region of every layer. -/
lemma last_mem_plan (hwindows : ∀ window ∈ w.blockWindowPerLayer, window ≠ some 0) (hn : n ≠ 0)
    (hlayer : layer < w.blockWindowPerLayer.length) (hr : r ∈ w.layerRegions layer) :
    (r, n - 1) ∈ w.plan n := by
  rw [mem_plan hwindows]
  refine ⟨by omega, fun hnone => ?_, fun _ => ⟨layer, _, getElem?_eq_getElem hlayer, hr, fun size hsize => ?_⟩⟩
  · rw [hnone] at hlayer
    cases hlayer
  · have hpos : size ≠ 0 := by
      rintro rfl
      exact hwindows _ (getElem_mem hlayer) hsize
    omega

lemma readBlocks_eq_ok {read : BlockRead} (h : w.readBlocks localIds remoteIds dst = .ok (some read)) :
    ∃ ratio, w.blockSizeRatioFromEngineId dst = .ok ratio ∧
      (clipLocalBlocks localIds remoteIds ratio).length ≠ 0 ∧
      (clipLocalBlocks localIds remoteIds ratio).length =
        (clipRemoteBlocks (clipLocalBlocks localIds remoteIds ratio) remoteIds).length ∧
      w.descsIds dst (clipLocalBlocks localIds remoteIds ratio)
        (clipRemoteBlocks (clipLocalBlocks localIds remoteIds ratio) remoteIds) ratio =
          .ok (read.localBlockDescsIds, read.remoteBlockDescsIds) := by
  unfold readBlocks at h
  obtain ⟨ratio, hratio, h⟩ := bind_eq_ok h
  refine ⟨ratio, hratio, ?_⟩
  dsimp only at h
  split at h
  · cases h
  · rename_i hlocal
    obtain ⟨u, hle, h⟩ := bind_eq_ok h
    obtain ⟨descs, hdescs, h⟩ := bind_eq_ok h
    obtain ⟨u', -, h⟩ := bind_eq_ok h
    cases Except.ok.inj h
    have hle := pyAssert_eq_ok.mp hle
    rw [decide_eq_true_eq] at hle
    refine ⟨hlocal, ?_, hdescs⟩
    unfold clipRemoteBlocks pyLast
    rw [if_neg hlocal]
    split
    · rw [length_drop]
      omega
    · omega

end ReadWorker

open ReadWorker

/-- For any numbers of blocks, layers, regions and windows. -/
theorem readBlocks_descs_iff (w : ReadWorker) (dst : EngineId) {localNum remoteNum : ℕ}
    (hlocal : w.dstNumBlocks w.engineId = some localNum) (hremote : w.dstNumBlocks dst = some remoteNum)
    (hratio : w.blockSizeRatioFromEngineId dst = .ok 1)
    (hwindows : ∀ window ∈ w.blockWindowPerLayer, window ≠ some 0) {localIds remoteIds : List ℕ}
    {read : BlockRead} (hread : w.readBlocks localIds remoteIds dst = .ok (some read)) :
    w.RightDescs localIds (clipRemoteBlocks localIds remoteIds) localNum remoteNum read ↔
      w.blockWindowPerLayer = [] ∨ localNum = remoteNum ∨
        (w.numLayers = w.numRegions ∧ w.blockWindowPerLayer.length = 1) := by
  obtain ⟨ratio, hratio', hne, hlength, hdescs⟩ := readBlocks_eq_ok hread
  obtain rfl : ratio = 1 := Except.ok.inj (hratio'.symm.trans hratio)
  have hclip : clipLocalBlocks localIds remoteIds 1 = localIds := rfl
  rw [hclip] at hne hlength hdescs
  obtain ⟨hlocalDescs, hremoteDescs, hlayers⟩ := descsIds_eq_ok hlocal hremote hlength hdescs
  rw [mul_one] at hlocalDescs hremoteDescs
  dsimp only at hlocalDescs hremoteDescs
  constructor
  · rintro ⟨plan, hnodup, hmem, -, hplan⟩
    by_cases hnone : w.blockWindowPerLayer = []
    · exact .inl hnone
    right
    rw [if_neg hnone] at hremoteDescs
    have hperm : plan.Perm (w.plan localIds.length) := by
      rw [perm_ext_iff_of_nodup hnodup (nodup_plan _)]
      rintro ⟨r, j⟩
      rw [hmem, mem_plan hwindows]
    -- The ids of the blocks have the same sum in both, so the regions count as much with either stride.
    have hsum := congrArg List.sum (hremoteDescs.symm.trans hplan)
    rw [sum_planDescs, sum_planDescs, (hperm.map (·.1)).sum_eq,
      (hperm.map fun entry => (clipRemoteBlocks localIds remoteIds).getD entry.2 0).sum_eq,
      Nat.add_right_cancel_iff] at hsum
    rcases Nat.eq_zero_or_pos ((w.plan localIds.length).map (·.1)).sum with hzero | hpos
    · right
      have hregion {layer r : ℕ} (hlayer : layer < w.blockWindowPerLayer.length) (hr : r ∈ w.layerRegions layer) :
          r = 0 :=
        List.sum_eq_zero_iff.mp hzero r (mem_map_of_mem (last_mem_plan hwindows hne hlayer hr))
      have hpos : 0 < w.blockWindowPerLayer.length := length_pos_of_ne_nil hnone
      have hwhole : ¬w.numLayers < w.numRegions := by
        intro hlt
        have hone : 1 ∈ w.layerRegions 0 := by
          rw [mem_layerRegions, if_pos hlt]
        exact absurd (hregion hpos hone) one_ne_zero
      refine ⟨(hlayers hnone).resolve_left hwhole, ?_⟩
      by_contra hmore
      have hone : 1 ∈ w.layerRegions 1 := by
        rw [mem_layerRegions, if_neg hwhole]
      exact absurd (hregion (by omega) hone) one_ne_zero
    · exact .inl (Nat.eq_of_mul_eq_mul_left hpos hsum)
  · intro hcond
    refine ⟨w.plan localIds.length, nodup_plan _, fun r j => mem_plan hwindows, ?_⟩
    rw [hlocalDescs, hremoteDescs]
    rcases hcond with hnone | rfl | ⟨hwhole, hone⟩
    · rw [if_pos hnone, if_pos hnone]
      exact ⟨rfl, rfl⟩
    · rw [ite_self]
      exact ⟨rfl, rfl⟩
    · have hregion : ∀ entry ∈ w.plan localIds.length, entry.1 = 0 := by
        rintro ⟨r, j⟩ hentry
        have hsome : w.blockWindowPerLayer ≠ [] := by
          intro hnil
          rw [hnil] at hone
          cases hone
        obtain ⟨layer, window, hlayer, hr, -⟩ := ((mem_plan hwindows).mp hentry).2.2 hsome
        have hlt := lt_of_getElem? hlayer
        rw [mem_layerRegions, if_neg (by omega)] at hr
        dsimp only
        omega
      exact ⟨planDescs_congr hregion _ _ _, planDescs_congr hregion _ _ _⟩

/-- Two layers with keys and values apart, 10 blocks here and 20 there, of which layer 1 needs only the last one. -/
def windowWorker : ReadWorker where
  engineId := 0
  blockSize := 16
  numRegions := 4
  numLayers := 2
  dstNumBlocks engineId := if engineId = 0 then some 10 else some 20
  remoteBlockSize _ := some 16
  blockWindowPerLayer := [none, some 1]

/-- With 10 blocks on both sides. -/
theorem readBlocks_descs_iff_sameBlocks :
    ReadWorker.RightDescs { windowWorker with dstNumBlocks := fun _ => some 10 } [3, 4] [8, 9] 10 10
      { localBlockDescsIds := [3, 4, 13, 14, 24, 34], remoteBlockDescsIds := [8, 9, 18, 19, 29, 39] } := by
  have hread : ReadWorker.readBlocks { windowWorker with dstNumBlocks := fun _ => some 10 } [3, 4] [7, 8, 9] 1 =
      .ok (some { localBlockDescsIds := [3, 4, 13, 14, 24, 34], remoteBlockDescsIds := [8, 9, 18, 19, 29, 39] }) := rfl
  exact (readBlocks_descs_iff { windowWorker with dstNumBlocks := fun _ => some 10 } 1 rfl rfl rfl
    (by simp [windowWorker]) hread).mpr (.inr (.inl rfl))

/-- With windows the descriptors here are numbered with the 20 blocks there: 64 is behind the 40 of all regions. -/
theorem readBlocks_wrongStride : ∃ read, windowWorker.readBlocks [3, 4] [7, 8, 9] 1 = .ok (some read) ∧
    read = { localBlockDescsIds := [3, 4, 23, 24, 44, 64], remoteBlockDescsIds := [8, 9, 18, 19, 29, 39] } ∧
      ¬windowWorker.RightDescs [3, 4] [8, 9] 10 20 read := by
  refine ⟨_, rfl, rfl, ?_⟩
  rintro ⟨plan, -, hmem, hlocal, -⟩
  have hlast : 64 ∈ planDescs [3, 4] 10 plan := by
    rw [← hlocal]
    decide
  obtain ⟨⟨r, j⟩, hentry, hdesc⟩ := List.mem_map.mp hlast
  obtain ⟨hj, -, hlayers⟩ := (hmem r j).mp hentry
  obtain ⟨layer, window, hlayer, hr, -⟩ := hlayers (by decide)
  have hlt : layer < 2 := lt_of_getElem? hlayer
  rw [mem_layerRegions, if_pos (by decide)] at hr
  have hblock : ([3, 4] : List ℕ).getD j 0 ≤ 4 := by
    rcases j with _ | _ | j
    · decide
    · decide
    · exact Nat.zero_le _
  dsimp only at hdesc
  omega

end VllmRuntime.Nixl
