import Mathlib.Tactic

/-! # Chained digests

A list of inputs is digested from left to right, each digest taking the previous one
as its parent. The digest step is arbitrary; the rules below say what follows when it
does not merge different inputs. -/

namespace VllmRuntime.HashChain

open List

variable {α β : Type*} (step : Option β → α → β) {inputs inputs' : List α} {i n : ℕ} {d : β}
  {parent : Option β}

/-- The digests of `inputs`, the first one chained to `parent`. -/
def chain : Option β → List α → List β
  | _, [] => []
  | parent, input :: inputs =>
    let digest := step parent input
    digest :: chain (some digest) inputs

@[simp] lemma chain_nil (parent : Option β) : chain step parent [] = [] := rfl

@[simp] lemma chain_cons (parent : Option β) (input : α) (inputs : List α) :
    chain step parent (input :: inputs) =
      step parent input :: chain step (some (step parent input)) inputs := rfl

@[simp] lemma chain_length (parent : Option β) (inputs : List α) :
    (chain step parent inputs).length = inputs.length := by
  induction inputs generalizing parent with
  | nil => rfl
  | cons input inputs ih => simp [ih]

/-- Digesting in two parts resumes from the last digest of the first part. -/
lemma chain_append (parent : Option β) (front back : List α) :
    chain step parent (front ++ back) =
      chain step parent front ++
        chain step ((chain step parent front).getLast?.or parent) back := by
  induction front generalizing parent with
  | nil => simp
  | cons input front ih =>
    simp only [cons_append, chain_cons, ih, getLast?_cons, Option.some_or]
    cases (chain step (some (step parent input)) front).getLast? <;> simp

lemma chain_take (parent : Option β) (inputs : List α) (n : ℕ) :
    (chain step parent inputs).take n = chain step parent (inputs.take n) := by
  induction inputs generalizing parent n with
  | nil => simp
  | cons input inputs ih => cases n <;> simp [ih]

/-- The digests of a slice are chained to the last digest before it. -/
lemma chain_slice (inputs : List α) {k : ℕ} (hnk : n ≤ k) (hk : k ≤ inputs.length) :
    ((chain step none inputs).take k).drop n =
      chain step (chain step none (inputs.take n)).getLast? ((inputs.take k).drop n) := by
  have hsplit : inputs.take k = inputs.take n ++ (inputs.take k).drop n := by
    have h := (take_append_drop n (inputs.take k)).symm
    rwa [take_take, Nat.min_eq_left hnk] at h
  have hlen : (chain step none (inputs.take n)).length = n := by
    rw [chain_length, length_take]
    omega
  rw [chain_take]
  conv_lhs => rw [hsplit, chain_append, Option.or_none]
  exact drop_left' hlen

lemma getLast?_chain_take (inputs : List α) (hpos : 0 < n) (hle : n ≤ inputs.length) :
    (chain step none (inputs.take n)).getLast? = (chain step none inputs)[n - 1]? := by
  rw [← chain_take, getLast?_eq_getElem?, length_take, chain_length,
    Nat.min_eq_left hle, getElem?_take_of_lt (by omega)]

/-- The digest at a position is one step from the digest before it. -/
lemma chain_getElem?_succ (parent : Option β) (inputs : List α) (i : ℕ) :
    (chain step parent inputs)[i + 1]? =
      (chain step parent inputs)[i]?.bind fun digest =>
        inputs[i + 1]?.map fun input => step (some digest) input := by
  induction inputs generalizing parent i with
  | nil => simp
  | cons input inputs ih =>
    cases i with
    | zero => cases inputs <;> simp
    | succ i =>
      simp only [chain_cons, getElem?_cons_succ]
      exact ih (some (step parent input)) i

/-! ## Digests that do not merge inputs -/

/-- Chains with one parent agree exactly when the inputs do. -/
lemma chain_inj (h : ∀ p, Function.Injective (step p)) :
    chain step parent inputs = chain step parent inputs' ↔ inputs = inputs' := by
  refine ⟨?_, fun he => by rw [he]⟩
  induction inputs generalizing parent inputs' with
  | nil => cases inputs' <;> simp
  | cons input inputs ih =>
    cases inputs' with
    | nil => simp
    | cons input' inputs' =>
      simp only [chain_cons, List.cons.injEq]
      rintro ⟨hhead, htail⟩
      obtain rfl := h parent hhead
      exact ⟨rfl, ih htail⟩

/-- Steps from the root, and steps from earlier digests, determine what was digested. -/
structure Injective : Prop where
  root : ∀ a a', step none a = step none a' → a = a'
  next : ∀ p p' b b' a a', step (some (step p b)) a = step (some (step p' b')) a' →
    step p b = step p' b' ∧ a = a'

variable {step}

private lemma chain_getElem?_step (hd : (chain step parent inputs)[i]? = some d) : ∃ p a, d = step p a := by
  cases i with
  | zero =>
    cases inputs with
    | nil => simp at hd
    | cons input inputs => exact ⟨parent, input, by simpa [eq_comm] using hd⟩
  | succ i =>
    rw [chain_getElem?_succ] at hd
    simp only [Option.bind_eq_some_iff, Option.map_eq_some_iff] at hd
    obtain ⟨digest, -, input, -, rfl⟩ := hd
    exact ⟨_, _, rfl⟩

/-- When no chained digest is also a root digest, a digest tells its index, in whatever chain. -/
lemma Injective.index_eq (h : Injective step) (hroot : ∀ a p b a', step none a ≠ step (some (step p b)) a')
    {j : ℕ} (hi : (chain step none inputs)[i]? = some d) (hj : (chain step none inputs')[j]? = some d) :
    i = j := by
  -- A later digest has a digest as its parent, the first one has none.
  have hlater : ∀ {inputs : List α} {k : ℕ} {d : β}, (chain step none inputs)[k + 1]? = some d →
      ∃ p b a, (chain step none inputs)[k]? = some (step p b) ∧ d = step (some (step p b)) a := by
    intro inputs k d hk
    rw [chain_getElem?_succ] at hk
    simp only [Option.bind_eq_some_iff, Option.map_eq_some_iff] at hk
    obtain ⟨q, hq, a, -, rfl⟩ := hk
    obtain ⟨p, b, rfl⟩ := chain_getElem?_step hq
    exact ⟨p, b, a, hq, rfl⟩
  have hfirst : ∀ {inputs : List α} {d : β}, (chain step none inputs)[0]? = some d →
      ∃ a, d = step none a := by
    intro inputs d hd
    cases inputs with
    | nil => simp at hd
    | cons input inputs => exact ⟨input, by simpa [eq_comm] using hd⟩
  induction i generalizing j d with
  | zero =>
    cases j with
    | zero => rfl
    | succ j =>
      obtain ⟨a, rfl⟩ := hfirst hi
      obtain ⟨p, b, a', -, heq⟩ := hlater hj
      exact absurd heq (hroot a p b a')
  | succ i ih =>
    obtain ⟨p, b, a, hprev, rfl⟩ := hlater hi
    cases j with
    | zero =>
      obtain ⟨a', heq⟩ := hfirst hj
      exact absurd heq.symm (hroot a' p b a)
    | succ j =>
      obtain ⟨p', b', a', hprev', heq⟩ := hlater hj
      rw [(h.next p p' b b' a a' heq).1] at hprev
      rw [ih hprev hprev']

/-- In particular a chain never repeats a digest. -/
lemma Injective.chain_nodup (h : Injective step)
    (hroot : ∀ a p b a', step none a ≠ step (some (step p b)) a') (inputs : List α) :
    (chain step none inputs).Nodup := by
  rw [nodup_iff_injective_getElem]
  intro x y hxy
  dsimp only at hxy
  have hx := getElem?_eq_getElem x.isLt
  have hy := getElem?_eq_getElem y.isLt
  rw [← hxy] at hy
  exact Fin.ext (h.index_eq hroot hx hy)

end VllmRuntime.HashChain
