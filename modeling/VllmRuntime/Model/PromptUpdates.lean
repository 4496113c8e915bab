import Mathlib.Data.List.Sort
import VllmRuntime.Model.Base

/-! # Prompt updates

`vllm/multimodal/processing/processor.py`, as far as it updates token prompts with the placeholders of
multi-modal items and finds them again. A sequence that is given as text stands for its tokens: `_seq2tokens`
returns a list of tokens as it is. -/

namespace VllmRuntime

abbrev Modality := String

/-- `xs[start:stop]`. -/
def slice {α : Type} (xs : List α) (start stop : ℕ) : List α := (xs.take stop).drop start

/-! ## Updates -/

structure PromptUpdateDetails where
  full : List TokenId
  isEmbed : Option (List TokenId → List Bool) := none

inductive UpdateMode where
  | insert
  | replace
  deriving DecidableEq, Repr

/-- The values of `PromptIndexTargets`; `stop` is `end`. -/
inductive PromptIndex where
  | start
  | afterSeq (seq : List TokenId)
  | stop
  deriving DecidableEq, Repr

/-- `get_match_index`. -/
def PromptIndex.getMatchIndex (prompt : List TokenId) (startIdx : ℕ) : PromptIndex → Option ℕ
  | .start => some 0
  | .afterSeq seq =>
    if startIdx ≠ 0 then none
    else if prompt.take seq.length = seq then some seq.length else none
  | .stop => some prompt.length

inductive UpdateTarget where
  | seq (tokenIds : List TokenId)
  | index (promptIndex : PromptIndex)
  deriving DecidableEq, Repr

structure PromptTargetMatch where
  startIdx : ℕ
  endIdx : ℕ
  deriving DecidableEq, Repr

/-- The fields of `ResolvedPromptUpdate` that are read here; the modality and the index of the item are the
places of the update. -/
structure ResolvedPromptUpdate where
  mode : UpdateMode
  target : UpdateTarget
  content : PromptUpdateDetails

/-- The loop of `iter_token_matches`. The index grows in each round, so the length of the prompt is enough
fuel. -/
def iterTokenMatchesLoop (tokenIds matchIds : List TokenId) : ℕ → ℕ → List PromptTargetMatch
  | 0, _ => []
  | fuel + 1, startIdx =>
    let endIdx := startIdx + matchIds.length
    if endIdx < tokenIds.length + 1 then
      if slice tokenIds startIdx endIdx = matchIds then
        ⟨startIdx, endIdx⟩ :: iterTokenMatchesLoop tokenIds matchIds fuel endIdx
      else
        iterTokenMatchesLoop tokenIds matchIds fuel (startIdx + 1)
    else
      []

/-- The function `iter_token_matches`. -/
def iterTokenMatches (tokenIds matchIds : List TokenId) (startIdx : ℕ) : List PromptTargetMatch :=
  if matchIds.length = 0 then [] else iterTokenMatchesLoop tokenIds matchIds tokenIds.length startIdx

/-- The method `iter_token_matches`. -/
def ResolvedPromptUpdate.iterTokenMatches (update : ResolvedPromptUpdate) (prompt : List TokenId) (startIdx : ℕ) :
    List PromptTargetMatch :=
  match update.target with
  | .index promptIndex =>
    match promptIndex.getMatchIndex prompt startIdx with
    | none => []
    | some matchIdx => [⟨matchIdx, matchIdx⟩]
  | .seq tokenIds => VllmRuntime.iterTokenMatches prompt tokenIds startIdx

/-- For each modality the updates of its items; one of the updates of an item is applied. -/
abbrev MultiModalPromptUpdates := OrderedDict Modality (List (List ResolvedPromptUpdate))

/-- `result[modality][item_idx]`: the index of the update that was applied. -/
abbrev ApplyResult := Modality → ℕ → Option ℕ

/-- A match that is to be applied, with the update at its index. -/
structure MatchToApply where
  modality : Modality
  itemIdx : ℕ
  targetMatch : PromptTargetMatch
  updateIdx : ℕ
  update : ResolvedPromptUpdate

/-! ## Finding matches -/

/-- The loop over the updates of an item, up to the first valid match. All matches share the same mode, so
only the first match of an update counts. -/
def findItemMatch (prompt : List TokenId) (prevEndIdx : ℕ) (modality : Modality) (itemIdx : ℕ)
    (mode : Option UpdateMode) : List (ResolvedPromptUpdate × ℕ) → Option MatchToApply
  | [] => none
  | (update, updateIdx) :: updates =>
    match update.iterTokenMatches prompt prevEndIdx with
    | [] => findItemMatch prompt prevEndIdx modality itemIdx mode updates
    | targetMatch :: _ =>
      if mode.all (· = update.mode) then some { modality, itemIdx, targetMatch, updateIdx, update }
      else findItemMatch prompt prevEndIdx modality itemIdx mode updates

/-- The items in the order of the loops over the modalities and their items. -/
def itemEntries (updates : MultiModalPromptUpdates) : List (Modality × ℕ × List ResolvedPromptUpdate) :=
  updates.flatMap fun (modality, items) => items.zipIdx.map fun (item, itemIdx) => (modality, itemIdx, item)

/-- The loops over the items whose updates have not been applied: the mode and the matches. -/
def collectMatches (prompt : List TokenId) (prevEndIdx : ℕ) (currentResult : ApplyResult) :
    List (Modality × ℕ × List ResolvedPromptUpdate) → Option UpdateMode → List MatchToApply →
      Option UpdateMode × List MatchToApply
  | [], mode, mmMatches => (mode, mmMatches)
  | (modality, itemIdx, item) :: entries, mode, mmMatches =>
    if (currentResult modality itemIdx).isSome then
      collectMatches prompt prevEndIdx currentResult entries mode mmMatches
    else
      match findItemMatch prompt prevEndIdx modality itemIdx mode item.zipIdx with
      | none => collectMatches prompt prevEndIdx currentResult entries mode mmMatches
      | some found =>
        collectMatches prompt prevEndIdx currentResult entries (some found.update.mode) (mmMatches ++ [found])

/-- The order of the matches, which are tuples of their indices. -/
def MatchToApply.Le (a b : MatchToApply) : Prop :=
  a.targetMatch.startIdx < b.targetMatch.startIdx ∨
    a.targetMatch.startIdx = b.targetMatch.startIdx ∧ a.targetMatch.endIdx ≤ b.targetMatch.endIdx

instance : DecidableRel MatchToApply.Le := fun _ _ => inferInstanceAs (Decidable (_ ∨ _))

/-- Keeps one non-empty match. -/
def oneNonEmpty : Bool → List MatchToApply → List MatchToApply
  | _, [] => []
  | hasNonEmptyMatches, item :: items =>
    if item.targetMatch.startIdx = item.targetMatch.endIdx then item :: oneNonEmpty hasNonEmptyMatches items
    else if hasNonEmptyMatches then oneNonEmpty true items
    else item :: oneNonEmpty true items

/-- `_find_matches`. To avoid conflicts, one non-empty item is replaced at a time. -/
def findMatches (prompt : List TokenId) (updates : MultiModalPromptUpdates) (prevEndIdx : ℕ)
    (currentResult : ApplyResult) : Option UpdateMode × List MatchToApply :=
  let (mode, mmMatches) := collectMatches prompt prevEndIdx currentResult (itemEntries updates) none []
  let matchesToApply := mmMatches.insertionSort MatchToApply.Le
  (mode, if mode = some .replace then oneNonEmpty false matchesToApply else matchesToApply)

/-! ## Applying matches -/

/-- `_all_items_found`. -/
def allItemsFound (updates : MultiModalPromptUpdates) (mmFoundCounts : Modality → ℕ) : Bool :=
  updates.all fun (modality, items) => mmFoundCounts modality ≥ items.length

/-- `mm_found_counts`. -/
def foundCounts (updates : MultiModalPromptUpdates) (result : ApplyResult) (modality : Modality) : ℕ :=
  (List.range ((updates.lookup modality).getD []).length).countP fun itemIdx => (result modality itemIdx).isSome

structure ApplyState where
  outSeqs : List (List TokenId) := []
  outResult : ApplyResult := fun _ _ => none
  prevEndIdx : ℕ := 0
  /-- The matches that were applied, in order. -/
  applied : List MatchToApply := []

def ApplyState.applyMatch (prompt : List TokenId) (mode : UpdateMode) (s : ApplyState) (item : MatchToApply) :
    ApplyState :=
  let endIdxToInsert := match mode with
    | .insert => item.targetMatch.endIdx
    | .replace => item.targetMatch.startIdx
  { outSeqs := s.outSeqs ++ [slice prompt s.prevEndIdx endIdxToInsert, item.update.content.full]
    outResult := fun modality itemIdx =>
      if modality = item.modality ∧ itemIdx = item.itemIdx then some item.updateIdx
      else s.outResult modality itemIdx
    prevEndIdx := item.targetMatch.endIdx
    applied := s.applied ++ [item] }

/-- The loop of `_apply_matches`. -/
def applyLoop (prompt : List TokenId) (updates : MultiModalPromptUpdates) : ℕ → ApplyState → Option ApplyState
  | 0, _ => none
  | fuel + 1, s =>
    match findMatches prompt updates s.prevEndIdx s.outResult with
    | (none, _) => some s
    | (some mode, matchesToApply) =>
      let s := matchesToApply.foldl (ApplyState.applyMatch prompt mode) s
      if allItemsFound updates (foundCounts updates s.outResult) then some s
      else applyLoop prompt updates fuel s

/-- `_apply_matches`, with the matches that were applied. A round applies an update of some item, so the fuel is
enough. -/
def applyMatches (prompt : List TokenId) (updates : MultiModalPromptUpdates) :
    Option (List (List TokenId) × ApplyResult × List MatchToApply) :=
  let s : ApplyState := {}
  if allItemsFound updates (foundCounts updates s.outResult) then
    some ([prompt], s.outResult, s.applied)
  else
    (applyLoop prompt updates ((itemEntries updates).length + 1) s).map fun s =>
      (s.outSeqs ++ [prompt.drop s.prevEndIdx], s.outResult, s.applied)

/-- `apply_token_matches`, with the matches that were applied. -/
def applyTokenMatches (prompt : List TokenId) (updates : MultiModalPromptUpdates) :
    Option (List TokenId × ApplyResult × List MatchToApply) :=
  (applyMatches prompt updates).map fun out => (out.1.flatten, out.2)

/-! ## Finding placeholders -/

structure PlaceholderFeaturesInfo where
  modality : Modality
  itemIdx : ℕ
  startIdx : ℕ
  tokens : List TokenId
  isEmbed : Option (List Bool)
  deriving DecidableEq, Repr

/-- The loop over the updates of an item. -/
def findContent (prompt : List TokenId) (startIdx : ℕ) (modality : Modality) (itemIdx : ℕ) :
    List ResolvedPromptUpdate → Option PlaceholderFeaturesInfo
  | [] => none
  | update :: updates =>
    let contentTokensFull := update.content.full
    let endIdxFull := startIdx + contentTokensFull.length
    if contentTokensFull.length = 0 ∨ endIdxFull > prompt.length then
      findContent prompt startIdx modality itemIdx updates
    else if slice prompt startIdx endIdxFull = contentTokensFull then
      some { modality, itemIdx, startIdx
             tokens := contentTokensFull
             isEmbed := update.content.isEmbed.map (· contentTokensFull) }
    else
      findContent prompt startIdx modality itemIdx updates

/-- The loop over the modalities. -/
def findPlaceholder (prompt : List TokenId) (startIdx : ℕ) (itemIdxByModality : Modality → ℕ) :
    MultiModalPromptUpdates → Option PlaceholderFeaturesInfo
  | [] => none
  | (modality, items) :: updates =>
    match items[itemIdxByModality modality]? with
    | none => findPlaceholder prompt startIdx itemIdxByModality updates
    | some item =>
      match findContent prompt startIdx modality (itemIdxByModality modality) item with
      | none => findPlaceholder prompt startIdx itemIdxByModality updates
      | some info => some info

/-- The loop of `_iter_placeholders`. The index grows in each round, so the length of the prompt is enough
fuel. -/
def iterPlaceholdersLoop (prompt : List TokenId) (updates : MultiModalPromptUpdates) :
    ℕ → ℕ → (Modality → ℕ) → List PlaceholderFeaturesInfo
  | 0, _, _ => []
  | fuel + 1, startIdx, itemIdxByModality =>
    if startIdx < prompt.length then
      match findPlaceholder prompt startIdx itemIdxByModality updates with
      | none => iterPlaceholdersLoop prompt updates fuel (startIdx + 1) itemIdxByModality
      | some info =>
        let itemIdxByModality := Function.update itemIdxByModality info.modality
          (itemIdxByModality info.modality + 1)
        info :: if allItemsFound updates itemIdxByModality then []
          else iterPlaceholdersLoop prompt updates fuel (startIdx + info.tokens.length) itemIdxByModality
    else
      []

/-- `_iter_placeholders`. -/
def iterPlaceholders (prompt : List TokenId) (updates : MultiModalPromptUpdates) : List PlaceholderFeaturesInfo :=
  if allItemsFound updates (fun _ => 0) then [] else iterPlaceholdersLoop prompt updates prompt.length 0 fun _ => 0

/-- `full_groupby_modality`. -/
def fullGroupbyModality (infos : List PlaceholderFeaturesInfo) :
    OrderedDict Modality (List PlaceholderFeaturesInfo) :=
  infos.foldl (fun groups info =>
    dictSet groups info.modality ((groups.lookup info.modality).getD [] ++ [info])) []

def findMmPlaceholders (prompt : List TokenId) (updates : MultiModalPromptUpdates) :
    OrderedDict Modality (List PlaceholderFeaturesInfo) :=
  fullGroupbyModality (iterPlaceholders prompt updates)

end VllmRuntime
