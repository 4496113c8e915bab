import VllmRuntime.Model.Base

/-! # Drafts by n-gram lookup

`_find_longest_matched_ngram_and_propose_tokens` of `vllm/v1/spec_decode/ngram_proposer.py`. -/

namespace VllmRuntime

/-- `xs[i]` of an array. -/
def arrayGet {α : Type*} (xs : List α) (i : ℕ) : Except PyError α :=
  match xs[i]? with
  | some x => .ok x
  | none => .error .indexError

/-- `xs[i] = x` of an array. -/
def arraySet {α : Type*} (xs : List α) (i : ℕ) (x : α) : Except PyError (List α) :=
  if i < xs.length then .ok (xs.set i x) else .error .indexError

/-- The variables of the loop. -/
structure NgramScan where
  lps : List ℕ
  longestNgram : ℕ := 0
  position : ℕ := 0
  prevLps : ℕ := 0
  i : ℕ := 1

namespace NgramScan

/-- The variables before the loop. -/
def start (maxNgram : ℕ) : NgramScan where
  lps := List.replicate maxNgram 0

/-- Stores the length for the first `max_ngram` places. -/
def storeLps (maxNgram : ℕ) (lps : List ℕ) (i prevLps : ℕ) : Except PyError (List ℕ) :=
  if i < maxNgram then arraySet lps i prevLps else .ok lps

/-- The length to go on with: the n-gram must not get longer than `max_ngram`. -/
def capLps (maxNgram : ℕ) (lps : List ℕ) (prevLps : ℕ) : Except PyError ℕ :=
  if prevLps = maxNgram then arrayGet lps (maxNgram - 1) else .ok prevLps

/-- The branch of the loop in which the tokens match. -/
def tokenMatch (maxNgram : ℕ) (s : NgramScan) : Except PyError NgramScan := do
  let prevLps := s.prevLps + 1
  let longer := s.longestNgram ≤ prevLps
  let lps ← storeLps maxNgram s.lps s.i prevLps
  let nextLps ← capLps maxNgram lps prevLps
  return { lps
           longestNgram := if longer then prevLps else s.longestNgram
           position := if longer then s.i else s.position
           prevLps := nextLps
           i := s.i + 1 }

/-- The body of the loop. -/
def step (tokens : List TokenId) (maxNgram : ℕ) (s : NgramScan) : Except PyError NgramScan := do
  let expected ← arrayGet tokens s.prevLps
  let token ← arrayGet tokens s.i
  if expected = token then
    s.tokenMatch maxNgram
  else if s.prevLps ≠ 0 then do
    let prevLps ← arrayGet s.lps (s.prevLps - 1)
    return { s with prevLps }
  else
    return { s with i := s.i + 1 }

/-- The `while` loop; `none` if the fuel is used up before it ends. -/
def loop (tokens : List TokenId) (maxNgram : ℕ) : ℕ → NgramScan → Except PyError (Option NgramScan)
  | 0, _ => .ok none
  | fuel + 1, s =>
    if s.i < tokens.length then do
      let s ← s.step tokens maxNgram
      loop tokens maxNgram fuel s
    else .ok (some s)

end NgramScan

/-- `_find_longest_matched_ngram_and_propose_tokens`; `none` if the fuel of the loop is used up. -/
def findLongestMatchedNgramAndProposeTokens (fuel : ℕ) (originTokens : List TokenId)
    (minNgram maxNgram : ℕ) (maxModelLen k : ℤ) : Except PyError (Option (List TokenId)) := do
  let totalToken := originTokens.length
  if totalToken < minNgram then
    return some []
  else
    let k := min k (maxModelLen - totalToken)
    if k ≤ 0 then
      return some []
    else do
      let scan ← NgramScan.loop originTokens.reverse maxNgram fuel (.start maxNgram)
      return scan.map fun scan =>
        if scan.longestNgram < minNgram then []
        else
          let startPosition := totalToken - 1 - scan.position + scan.longestNgram
          let k := min k.toNat (totalToken - startPosition)
          (originTokens.drop startPosition).take k

end VllmRuntime
