import VllmRuntime.Model.NgramProposer
import VllmRuntime.Shared.Borders

/-! # The longest n-gram that occurs before

The loop runs over the reversed tokens, where the last tokens are a prefix and an earlier occurrence of them
is a border. It never takes more than two rounds for each token. -/

namespace VllmRuntime

variable {p i n' : ℕ} {α : Type*} {xs : List α}

open List Borders

/-! ## Arrays -/

lemma arrayGet_eq_ok {x : α} (h : xs[i]? = some x) :
    arrayGet xs i = .ok x := by
  rw [arrayGet, h]

lemma arraySet_eq_ok (x : α) (h : i < xs.length) :
    arraySet xs i x = .ok (xs.set i x) := by
  rw [arraySet, if_pos h]

/-! ## What the loop keeps -/

namespace NgramScan

variable {t : List TokenId} {m n p v i : ℕ} {s : NgramScan}

/-- `n` is the length of the longest border of at most `m` elements at the first `i` places, and `p` the
last of these places that has one so long. -/
structure Best (t : List TokenId) (m n p i : ℕ) : Prop where
  found : 0 < n → Border t n (p + 1) ∧ p < i ∧ n ≤ m
  le : ∀ v q, q < i → v ≤ m → Border t v (q + 1) → v ≤ n
  last : ∀ q, q < i → 0 < n → Border t n (q + 1) → q ≤ p

lemma Best.start : Best t m 0 0 1 where
  found h := absurd h (Nat.lt_irrefl 0)
  le v q hq _ hv := by
    have hlt := hv.lt
    omega
  last _ _ h := absurd h (Nat.lt_irrefl 0)

/-- The next place has a longer border, or one as long. -/
lemma Best.longer (h : Best t m n p i) (hv : Longest t (m + 1) v (i + 1)) (hle : n ≤ v) :
    Best t m v i (i + 1) where
  found _ := ⟨hv.border, Nat.lt_succ_self i, Nat.le_of_lt_succ hv.lt⟩
  le w q hq hw hborder := by
    rcases Nat.lt_succ_iff_lt_or_eq.mp hq with hlt | rfl
    · exact (h.le w q hlt hw hborder).trans hle
    · exact hv.le w hborder (Nat.lt_succ_of_le hw)
  last _ hq _ _ := Nat.le_of_lt_succ hq

/-- The next place has a shorter border only. -/
lemma Best.shorter (h : Best t m n p i) (hv : Longest t (m + 1) v (i + 1)) (hlt : v < n ∨ v = 0) :
    Best t m n p (i + 1) where
  found hn := by
    obtain ⟨hborder, hp, hm⟩ := h.found hn
    exact ⟨hborder, Nat.lt_succ_of_lt hp, hm⟩
  le w q hq hw hborder := by
    rcases Nat.lt_succ_iff_lt_or_eq.mp hq with hqi | rfl
    · exact h.le w q hqi hw hborder
    · have hle := hv.le w hborder (Nat.lt_succ_of_le hw)
      omega
  last q hq hn hborder := by
    rcases Nat.lt_succ_iff_lt_or_eq.mp hq with hqi | rfl
    · exact h.last q hqi hn hborder
    · have hle := hv.le n hborder (Nat.lt_succ_of_le (h.found hn).2.2)
      omega

/-- What holds before each round. All borders of less than `m` elements at `i` that are longer than
`prev_lps` were tried already. -/
structure Inv (t : List TokenId) (m : ℕ) (s : NgramScan) : Prop where
  i_le : s.i ≤ t.length
  border : Border t s.prevLps s.i
  prev_lt : s.prevLps < m
  tried : ∀ v, Border t v s.i → v < m → s.prevLps < v → t[v]? ≠ t[s.i]?
  length_lps : s.lps.length = m
  lps : ∀ j < m, j < s.i → ∃ v, s.lps[j]? = some v ∧ Longest t (j + 1) v (j + 1)
  unset : ∀ j < m, s.i ≤ j → s.lps[j]? = some 0
  best : Best t m s.longestNgram s.position s.i

lemma Inv.start (hm : 0 < m) (ht : 0 < t.length) : Inv t m (.start m) where
  i_le := ht
  border := .zero Nat.one_pos
  prev_lt := hm
  tried v hv _ hlt := by
    have hone := hv.lt
    simp only [NgramScan.start] at hone hlt
    omega
  length_lps := length_replicate
  lps j hj hone := by
    obtain rfl : j = 0 := Nat.lt_one_iff.mp hone
    exact ⟨0, by simp [NgramScan.start, hm], .zero Nat.one_pos rfl⟩
  unset j hj _ := by simp [NgramScan.start, hj]
  best := .start

/-- At a match the border gets longer by one. -/
lemma Inv.longest_match (h : Inv t m s) (hmatch : t[s.prevLps]? = t[s.i]?) :
    Longest t (m + 1) (s.prevLps + 1) (s.i + 1) where
  border := h.border.succ hmatch
  lt := Nat.succ_lt_succ h.prev_lt
  le w hw hlt := by
    cases w with
    | zero => exact Nat.zero_le _
    | succ w =>
      obtain ⟨hborder, hnext⟩ := border_succ_iff.mp hw
      by_contra hgt
      exact h.tried w hborder (by omega) (by omega) hnext

/-- Where no border is left to try there is none at the next place. -/
lemma Inv.longest_none (h : Inv t m s) (hzero : s.prevLps = 0) (hmatch : t[s.prevLps]? ≠ t[s.i]?) :
    Longest t (m + 1) 0 (s.i + 1) where
  border := .zero (Nat.succ_pos _)
  lt := Nat.succ_pos m
  le w hw hlt := by
    cases w with
    | zero => exact le_rfl
    | succ w =>
      obtain ⟨hborder, hnext⟩ := border_succ_iff.mp hw
      rcases Nat.eq_zero_or_pos w with rfl | hpos
      · rw [hzero] at hmatch
        exact absurd hnext hmatch
      · exact absurd hnext (h.tried w hborder (by omega) (by omega))

/-- The table after a place is done whose longest border is known. -/
lemma Inv.lps_next {lps : List ℕ} (h : Inv t m s) (hv : Longest t (m + 1) v (s.i + 1))
    (hlps : ∀ j < m, lps[j]? = if j = s.i then some v else s.lps[j]?) :
    ∀ j < m, j < s.i + 1 → ∃ v, lps[j]? = some v ∧ Longest t (j + 1) v (j + 1) := by
  intro j hj hji
  rw [hlps j hj]
  rcases Nat.lt_succ_iff_lt_or_eq.mp hji with hlt | rfl
  · rw [if_neg hlt.ne]
    exact h.lps j hj hlt
  · rw [if_pos rfl]
    exact ⟨v, rfl, hv.border, hv.border.lt, fun w hw hwi => hv.le w hw (by omega)⟩

/-- A border of `m` elements is not made longer; the next one that is tried is its own longest border. -/
lemma longest_of_cap {u : ℕ} (hm : Border t m i) (hu : Longest t m u m) : Longest t m u i where
  border := hu.border.trans hm
  lt := hu.lt
  le w hw hlt := hu.le w (hw.of_lt hm hlt) hlt

lemma longest_of_lt_cap (hv : Longest t (m + 1) v i) (hne : v ≠ m) : Longest t m v i where
  border := hv.border
  lt := by
    have hlt := hv.lt
    omega
  le w hw hlt := hv.le w hw (Nat.lt_succ_of_lt hlt)

/-- Between two places there is nothing that was tried in vain. -/
lemma Inv.of_longest (hi : s.i ≤ t.length) (hprev : Longest t m s.prevLps s.i) (hlen : s.lps.length = m)
    (hlps : ∀ j < m, j < s.i → ∃ v, s.lps[j]? = some v ∧ Longest t (j + 1) v (j + 1))
    (hunset : ∀ j < m, s.i ≤ j → s.lps[j]? = some 0)
    (hbest : Best t m s.longestNgram s.position s.i) : Inv t m s where
  i_le := hi
  border := hprev.border
  prev_lt := hprev.lt
  tried v hv hlt hgt := absurd (hprev.le v hv hlt) (Nat.not_le_of_lt hgt)
  length_lps := hlen
  lps := hlps
  unset := hunset
  best := hbest

/-! ## One round -/

lemma Inv.tokenMatch (h : Inv t m s) (hlt : s.i < t.length) (hmatch : t[s.prevLps]? = t[s.i]?) :
    ∃ s', s.tokenMatch m = .ok s' ∧ Inv t m s' ∧ s'.i = s.i + 1 ∧ s'.prevLps ≤ s.prevLps + 1 := by
  have hlongest := h.longest_match hmatch
  obtain ⟨lps, hset, hlen, hlps⟩ : ∃ lps, storeLps m s.lps s.i (s.prevLps + 1) = .ok lps ∧
      lps.length = m ∧ ∀ j < m, lps[j]? = if j = s.i then some (s.prevLps + 1) else s.lps[j]? := by
    unfold storeLps
    by_cases him : s.i < m
    · have hbound : s.i < s.lps.length := by rwa [h.length_lps]
      refine ⟨_, by rw [if_pos him, arraySet_eq_ok _ hbound], by rw [length_set, h.length_lps], ?_⟩
      intro j hj
      by_cases hji : j = s.i
      · subst hji
        rw [getElem?_set_self hbound, if_pos rfl]
      · rw [getElem?_set_ne (Ne.symm hji), if_neg hji]
    · refine ⟨s.lps, if_neg him, h.length_lps, fun j hj => ?_⟩
      have hji : j ≠ s.i := by omega
      rw [if_neg hji]
  have hstored := h.lps_next hlongest hlps
  obtain ⟨next, hget, hnext⟩ : ∃ next, capLps m lps (s.prevLps + 1) = .ok next ∧
      Longest t m next (s.i + 1) := by
    unfold capLps
    by_cases hcap : s.prevLps + 1 = m
    · -- The border has at most as many elements as there are places before it, so the table has its entry.
      have hplace := h.border.lt
      obtain ⟨u, hu, hlongestU⟩ := hstored (m - 1) (by omega) (by omega)
      rw [show m - 1 + 1 = m by omega] at hlongestU
      refine ⟨u, by rw [if_pos hcap, arrayGet_eq_ok hu], longest_of_cap ?_ hlongestU⟩
      exact hcap ▸ hlongest.border
    · exact ⟨_, if_neg hcap, longest_of_lt_cap hlongest hcap⟩
  have hok : s.tokenMatch m = .ok
      { lps
        longestNgram := if s.longestNgram ≤ s.prevLps + 1 then s.prevLps + 1 else s.longestNgram
        position := if s.longestNgram ≤ s.prevLps + 1 then s.i else s.position
        prevLps := next
        i := s.i + 1 } := by
    unfold NgramScan.tokenMatch
    simp [hset, hget, bind, Except.bind, pure, Except.pure]
  refine ⟨_, hok, .of_longest hlt hnext hlen hstored ?_ ?_, rfl, ?_⟩
  · intro j hj hij
    have hji : j ≠ s.i := by
      have := hij
      dsimp only at this
      omega
    rw [hlps j hj, if_neg hji]
    exact h.unset j hj (Nat.le_of_succ_le hij)
  · dsimp only
    split
    · rename_i hle
      exact h.best.longer hlongest hle
    · rename_i hle
      exact h.best.shorter hlongest (.inl (Nat.lt_of_not_le hle))
  · exact hlongest.le next hnext.border (Nat.lt_succ_of_lt hnext.lt)

/-- The number of rounds that are left at most. -/
def rounds (t : List TokenId) (s : NgramScan) : ℕ := 2 * (t.length - s.i) + s.prevLps

lemma Inv.step (h : Inv t m s) (hlt : s.i < t.length) :
    ∃ s', s.step t m = .ok s' ∧ Inv t m s' ∧ s'.rounds t < s.rounds t := by
  have hprev : s.prevLps < t.length := h.border.lt.trans hlt
  unfold NgramScan.step
  rw [arrayGet_eq_ok (getElem?_eq_getElem hprev), arrayGet_eq_ok (getElem?_eq_getElem hlt)]
  change ∃ s', (if t[s.prevLps] = t[s.i] then s.tokenMatch m else _) = Except.ok s' ∧ _
  split
  · rename_i hmatch
    have hmatch' : t[s.prevLps]? = t[s.i]? := by
      rw [getElem?_eq_getElem hprev, getElem?_eq_getElem hlt, hmatch]
    obtain ⟨s', hok, hinv, hi, hle⟩ := h.tokenMatch hlt hmatch'
    refine ⟨s', hok, hinv, ?_⟩
    unfold rounds
    omega
  · rename_i hmatch
    have hmatch' : t[s.prevLps]? ≠ t[s.i]? := by
      rw [getElem?_eq_getElem hprev, getElem?_eq_getElem hlt]
      simpa using hmatch
    split
    · rename_i hpos
      have hplace := h.border.lt
      have hcap := h.prev_lt
      obtain ⟨u, hu, hlongest⟩ := h.lps (s.prevLps - 1) (by omega) (by omega)
      rw [show s.prevLps - 1 + 1 = s.prevLps by omega] at hlongest
      rw [arrayGet_eq_ok hu]
      refine ⟨{ s with prevLps := u }, rfl, ?_, ?_⟩
      · -- What is longer than `u` was tried before, or fails now, or is a border of what fails now.
        refine ⟨h.i_le, hlongest.border.trans h.border, hlongest.lt.trans hcap, fun v hv hvm hgt => ?_,
          h.length_lps, h.lps, h.unset, h.best⟩
        dsimp only at hv hgt ⊢
        rcases Nat.lt_trichotomy v s.prevLps with hless | rfl | hmore
        · exact absurd (hlongest.le v (hv.of_lt h.border hless) hless) (Nat.not_le_of_lt hgt)
        · exact hmatch'
        · exact h.tried v hv hvm hmore
      · have hless := hlongest.lt
        simp only [rounds]
        omega
    · rename_i hzero
      rw [not_not] at hzero
      have hlongest := h.longest_none hzero hmatch'
      have hmpos : 0 < m := Nat.zero_lt_of_lt h.prev_lt
      refine ⟨{ s with i := s.i + 1 }, rfl, ?_, ?_⟩
      · refine .of_longest hlt ?_ h.length_lps (h.lps_next hlongest fun j hj => ?_)
          (fun j hj hij => h.unset j hj (Nat.le_of_succ_le hij)) (h.best.shorter hlongest (.inr rfl))
        · dsimp only
          rw [hzero]
          exact longest_of_lt_cap hlongest hmpos.ne
        · by_cases hji : j = s.i
          · rw [if_pos hji]
            exact h.unset j hj hji.ge
          · rw [if_neg hji]
      · simp only [rounds]
        omega

/-! ## The whole loop -/

lemma Inv.loop {fuel : ℕ} (h : Inv t m s) (hfuel : s.rounds t < fuel) :
    ∃ s', loop t m fuel s = .ok (some s') ∧ Inv t m s' ∧ s'.i = t.length := by
  induction fuel generalizing s with
  | zero => exact absurd hfuel (Nat.not_lt_zero _)
  | succ fuel ih =>
    rw [NgramScan.loop]
    split
    · rename_i hlt
      obtain ⟨s₁, hok, hinv, hless⟩ := h.step hlt
      rw [hok]
      exact ih hinv (by omega)
    · rename_i hend
      exact ⟨s, rfl, h, le_antisymm h.i_le (Nat.le_of_not_lt hend)⟩

end NgramScan

/-! ## Occurrences -/

/-- The last `n` tokens also occur at the earlier position `j`, where they may overlap with themselves. -/
def NgramAt (tokens : List TokenId) (n j : ℕ) : Prop :=
  j + n < tokens.length ∧ (tokens.drop j).take n = tokens.drop (tokens.length - n)

lemma ngramAt_iff_border {tokens : List TokenId} {n j : ℕ} (hj : j < tokens.length) :
    NgramAt tokens n j ↔ Border tokens.reverse n (tokens.length - 1 - j + 1) := by
  have hlen : tokens.length - 1 - j + 1 = tokens.length - j := by omega
  rw [hlen]
  constructor
  · rintro ⟨hlt, heq⟩
    refine ⟨by omega, fun b hb => ?_⟩
    have hb' := congrArg (·[n - 1 - b]?) heq
    simp only [getElem?_take, getElem?_drop, if_pos (show n - 1 - b < n by omega)] at hb'
    rw [getElem?_reverse (by omega), getElem?_reverse (by omega)]
    rw [show tokens.length - 1 - b = tokens.length - n + (n - 1 - b) by omega, ← hb']
    congr 1
    omega
  · intro h
    have hlt := h.lt
    refine ⟨by omega, ext_getElem? fun a => ?_⟩
    rw [getElem?_take, getElem?_drop, getElem?_drop]
    by_cases ha : a < n
    · have heq := h.eq (n - 1 - a) (by omega)
      rw [getElem?_reverse (by omega), getElem?_reverse (by omega)] at heq
      rw [if_pos ha, show tokens.length - n + a = tokens.length - 1 - (n - 1 - a) by omega, heq]
      congr 1
      omega
    · rw [if_neg ha, getElem?_eq_none (by omega)]

/-- The longest of the last n-grams with an admissible length that occurs earlier, and where it first does. -/
structure LongestNgram (tokens : List TokenId) (minNgram maxNgram n j : ℕ) : Prop where
  min_le : minNgram ≤ n
  le_max : n ≤ maxNgram
  occurs : NgramAt tokens n j
  longest : ∀ n' j', n' ≤ maxNgram → NgramAt tokens n' j' → n' ≤ n
  leftmost : ∀ j', NgramAt tokens n j' → j ≤ j'

variable {tokens : List TokenId} {minNgram maxNgram n j fuel : ℕ} {maxModelLen k : ℤ}

lemma exists_longestNgram (hmin : minNgram ≤ n) (hmax : n ≤ maxNgram) (h : NgramAt tokens n j) :
    ∃ n j, LongestNgram tokens minNgram maxNgram n j := by
  classical
  let occurs := fun n => ∃ j, NgramAt tokens n j
  have hfound : occurs (Nat.findGreatest occurs maxNgram) := Nat.findGreatest_spec hmax ⟨j, h⟩
  refine ⟨Nat.findGreatest occurs maxNgram, Nat.find hfound, ?_, Nat.findGreatest_le _, Nat.find_spec hfound,
    fun n' j' hn' h' => Nat.le_findGreatest hn' ⟨j', h'⟩, fun j' h' => Nat.find_min' hfound h'⟩
  exact hmin.trans (Nat.le_findGreatest hmax ⟨j, h⟩)

/-- Where the loop has found a long enough n-gram, it is the longest one and at its first place. -/
lemma NgramScan.Best.longestNgram (h : Best tokens.reverse maxNgram n p tokens.length) (hpos : 0 < n)
    (hmin : minNgram ≤ n) :
    LongestNgram tokens minNgram maxNgram n (tokens.length - 1 - p) := by
  obtain ⟨hborder, hp, hmax⟩ := h.found hpos
  refine ⟨hmin, hmax, ?_, fun n' j' hn' hat => ?_, fun j' hat => ?_⟩
  · rw [ngramAt_iff_border (by omega), show tokens.length - 1 - (tokens.length - 1 - p) = p by omega]
    exact hborder
  · have hj' := hat.1
    exact h.le n' _ (by omega) hn' ((ngramAt_iff_border (by omega)).mp hat)
  · have hj' := hat.1
    have hle := h.last _ (by omega) hpos ((ngramAt_iff_border (by omega)).mp hat)
    omega

lemma NgramScan.Best.not_ngramAt (h : Best tokens.reverse maxNgram n p tokens.length) (hlt : n < minNgram)
    (hmin : minNgram ≤ n') (hmax : n' ≤ maxNgram) (j' : ℕ) :
    ¬ NgramAt tokens n' j' := by
  intro hat
  have hj' := hat.1
  have hle := h.le n' _ (by omega) hmax ((ngramAt_iff_border (by omega)).mp hat)
  omega

/-- What is to be proposed: nothing, or the tokens after the first occurrence of the longest n-gram. -/
structure ProposesLongest (tokens : List TokenId) (minNgram maxNgram : ℕ) (maxModelLen k : ℤ)
    (draft : List TokenId) : Prop where
  none : (∀ n j, minNgram ≤ n → n ≤ maxNgram → ¬ NgramAt tokens n j) → draft = []
  some : ∀ n j, LongestNgram tokens minNgram maxNgram n j →
    draft = (tokens.drop (j + n)).take (min k (maxModelLen - tokens.length)).toNat
  exists_longest : (∃ n j, minNgram ≤ n ∧ n ≤ maxNgram ∧ NgramAt tokens n j) →
    ∃ n j, LongestNgram tokens minNgram maxNgram n j

lemma LongestNgram.unique {j' : ℕ} (h : LongestNgram tokens minNgram maxNgram n j)
    (h' : LongestNgram tokens minNgram maxNgram n' j') : n' = n ∧ j' = j := by
  have hn : n' = n := le_antisymm (h.longest n' j' h'.le_max h'.occurs) (h'.longest n j h.le_max h.occurs)
  subst hn
  exact ⟨rfl, le_antisymm (h'.leftmost j h.occurs) (h.leftmost j' h'.occurs)⟩

lemma ProposesLongest.nothing (hnone : ∀ n j, minNgram ≤ n → n ≤ maxNgram → ¬ NgramAt tokens n j) :
    ProposesLongest tokens minNgram maxNgram maxModelLen k [] where
  none _ := rfl
  some n j h := absurd h.occurs (hnone n j h.min_le h.le_max)
  exists_longest h := by
    obtain ⟨n, j, hmin, hmax, hat⟩ := h
    exact absurd hat (hnone n j hmin hmax)

/-- The proposal from the variables after the loop. -/
lemma proposesLongest_of_best {limit : ℕ} (hmin : 1 ≤ minNgram)
    (h : NgramScan.Best tokens.reverse maxNgram n p tokens.length)
    (hlimit : (min k (maxModelLen - tokens.length)).toNat = limit) :
    ProposesLongest tokens minNgram maxNgram maxModelLen k
      (if n < minNgram then []
      else
        (tokens.drop (tokens.length - 1 - p + n)).take (min limit (tokens.length - (tokens.length - 1 - p + n)))) := by
  split
  · rename_i hlt
    exact .nothing fun n' j' hmin' hmax' => h.not_ngramAt hlt hmin' hmax' j'
  · rename_i hle
    rw [Nat.not_lt] at hle
    have hlongest : LongestNgram tokens minNgram maxNgram n (tokens.length - 1 - p) :=
      h.longestNgram (by omega) hle
    refine ⟨fun hnone => absurd hlongest.occurs (hnone _ _ hle hlongest.le_max), fun n' j' h' => ?_,
      fun _ => ⟨_, _, hlongest⟩⟩
    obtain ⟨rfl, rfl⟩ := hlongest.unique h'
    rw [hlimit, take_eq_take_iff, length_drop]
    omega

/-- The search returns within two rounds for each token, without an access out of bounds, and proposes
what follows the first occurrence of the longest n-gram. -/
theorem findLongestMatchedNgram_proposes (tokens : List TokenId) (minNgram maxNgram fuel : ℕ) (maxModelLen k : ℤ)
    (hmin : 1 ≤ minNgram) (hle : minNgram ≤ maxNgram)
    (hfuel : 2 * tokens.length ≤ fuel) :
    ∃ draft, findLongestMatchedNgramAndProposeTokens fuel tokens minNgram maxNgram maxModelLen k =
        .ok (some draft) ∧
      ProposesLongest tokens minNgram maxNgram maxModelLen k draft := by
  unfold findLongestMatchedNgramAndProposeTokens
  dsimp only
  split
  · rename_i hshort
    refine ⟨[], rfl, .nothing fun n j hn _ hat => ?_⟩
    have hlt := hat.1
    omega
  · rename_i hlong
    split
    · rename_i hlimit
      refine ⟨[], rfl, fun _ => rfl, fun n j _ => ?_, fun ⟨n, j, hn, hm, hat⟩ => exists_longestNgram hn hm hat⟩
      rw [Int.toNat_of_nonpos hlimit, take_zero]
    · have hpos : 0 < tokens.reverse.length := by
        rw [length_reverse]
        omega
      have hrounds : (NgramScan.start maxNgram).rounds tokens.reverse < fuel := by
        rw [length_reverse] at hpos
        simp only [NgramScan.rounds, NgramScan.start, length_reverse]
        omega
      obtain ⟨s, hloop, hinv, hend⟩ := (NgramScan.Inv.start (by omega) hpos).loop hrounds
      have hbest := hinv.best
      rw [hend, length_reverse] at hbest
      rw [hloop]
      exact ⟨_, rfl, proposesLongest_of_best hmin hbest rfl⟩

/-- The last token occurs twice before; the last two tokens once, overlapping with themselves. -/
theorem findLongestMatchedNgram_proposes_overlap :
    ProposesLongest [5, 7, 7, 7] 1 2 10 2 [7] := by
  obtain ⟨draft, hok, hproposes⟩ := findLongestMatchedNgram_proposes [5, 7, 7, 7] 1 2 8 10 2
    (by decide) (by decide) (by decide)
  have hdraft : findLongestMatchedNgramAndProposeTokens 8 [5, 7, 7, 7] 1 2 10 2 = .ok (some [7]) := by decide
  rw [hdraft] at hok
  cases hok
  exact hproposes

end VllmRuntime
