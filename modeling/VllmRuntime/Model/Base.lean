import Mathlib.Data.List.AList
import VllmRuntime.Shared.OrderedDict

/-! # Python values

Exceptions, byte strings, dictionaries and the integer helpers that several
modules of the engine share. -/

namespace VllmRuntime

open List

/-- The exceptions the modelled code raises. A bare `assert` carries its condition as message;
the assertions that a block has no hash yet have a constructor of their own. -/
inductive PyError where
  | assertionError (message : String)
  | blockHashAssertion (message : String)
  | valueError (message : String)
  | runtimeError (message : String)
  | notImplementedError (message : String)
  | memoryError (message : String)
  | overflowError
  | indexError
  | keyError
  | zeroDivisionError
  | attributeError
  | stopIteration
  deriving DecidableEq, Repr

/-- `assert condition, message`. -/
def pyAssert (condition : Bool) (message : String) : Except PyError Unit :=
  if condition then .ok () else .error (.assertionError message)

@[simp] lemma pyAssert_true (message : String) : pyAssert true message = .ok () := rfl

lemma pyAssert_eq_ok {condition : Bool} {message : String} {u : Unit} :
    pyAssert condition message = .ok u ↔ condition = true := by
  unfold pyAssert
  split <;> simp_all

lemma bind_eq_ok {α β : Type} {x : Except PyError α} {f : α → Except PyError β} {b : β}
    (h : (x >>= f) = .ok b) : ∃ a, x = .ok a ∧ f a = .ok b := by
  cases x with
  | error e => simp [bind, Except.bind] at h
  | ok a => exact ⟨a, rfl, h⟩

/-- The last call of a function and what the function makes of it. -/
lemma map_eq_ok {α β : Type} {x : Except PyError α} {f : α → β} {b : β}
    (h : (x >>= fun a => pure (f a)) = .ok b) : ∃ a, x = .ok a ∧ f a = b := by
  obtain ⟨a, ha, hret⟩ := bind_eq_ok h
  exact ⟨a, ha, Except.ok.inj hret⟩

lemma ok_pair_inj {α β : Type} {a a' : α} {b b' : β}
    (h : (Except.ok (a, b) : Except PyError (α × β)) = .ok (a', b')) : a = a' ∧ b = b' :=
  Prod.mk.inj (Except.ok.inj h)

lemma bind_eq_error {α β : Type} {x : Except PyError α} {f : α → Except PyError β} {e : PyError}
    (h : (x >>= f) = .error e) : x = .error e ∨ ∃ a, x = .ok a ∧ f a = .error e := by
  cases x with
  | error e' =>
    simp only [bind, Except.bind, Except.error.injEq] at h
    exact Or.inl (by rw [h])
  | ok a => exact Or.inr ⟨a, rfl, h⟩

/-- What holds at the start of a loop that does not fail, and is kept by its steps, holds at its end. -/
@[elab_as_elim]
lemma foldlM_invariant {α σ : Type} {P : σ → Prop} {f : σ → α → Except PyError σ} {as : List α} {s s' : σ}
    (h : as.foldlM f s = .ok s') (hs : P s) (hf : ∀ a ∈ as, ∀ s s', P s → f s a = .ok s' → P s') : P s' := by
  induction as generalizing s with
  | nil =>
    cases h
    exact hs
  | cons a as ih =>
    rw [foldlM_cons] at h
    obtain ⟨s₁, hs₁, h⟩ := bind_eq_ok h
    exact ih h (hf a mem_cons_self s s₁ hs hs₁) fun b hb => hf b (mem_cons_of_mem a hb)

lemma mapM_congr_left {α β : Type} {f g : α → Except PyError β} {as : List α} (h : ∀ a ∈ as, f a = g a) :
    as.mapM f = as.mapM g := by
  induction as with
  | nil => rfl
  | cons a as ih =>
    rw [mapM_cons, mapM_cons, h a mem_cons_self, ih fun b hb => h b (mem_cons_of_mem a hb)]

lemma mapM_of_ok {α β : Type} {f : α → Except PyError β} {g : α → β} {as : List α} (h : ∀ a ∈ as, f a = .ok (g a)) :
    as.mapM f = .ok (as.map g) :=
  (mapM_congr_left h).trans mapM_pure

/-- A list comprehension of calls that all return. -/
lemma mapM_eq_ok {α β : Type} {f : α → Except PyError β} {as : List α} {bs : List β}
    (h : as.mapM f = .ok bs) : List.Forall₂ (fun a b => f a = .ok b) as bs := by
  induction as generalizing bs with
  | nil =>
    cases h
    exact .nil
  | cons a as ih =>
    rw [mapM_cons] at h
    obtain ⟨b, hb, h⟩ := bind_eq_ok h
    obtain ⟨bs', hbs, hret⟩ := bind_eq_ok h
    cases hret
    exact .cons hb (ih hbs)

lemma mapM_eq_some {α β : Type} {f : α → Option β} {as : List α} {bs : List β} (h : as.mapM f = some bs) :
    List.Forall₂ (fun a b => f a = some b) as bs := by
  induction as generalizing bs with
  | nil =>
    cases h
    exact .nil
  | cons a as ih =>
    rw [mapM_cons] at h
    obtain ⟨b, hb, h⟩ := Option.bind_eq_some_iff.mp h
    obtain ⟨bs', hbs, hret⟩ := Option.bind_eq_some_iff.mp h
    cases hret
    exact .cons hb (ih hbs)

lemma getElem?_of_forall₂ {α β : Type} {R : α → β → Prop} {as : List α} {bs : List β} {i : ℕ}
    (h : List.Forall₂ R as bs) {a : α} (ha : as[i]? = some a) : ∃ b, bs[i]? = some b ∧ R a b := by
  induction h generalizing i with
  | nil => cases ha
  | @cons a' b as bs hab _ ih =>
    cases i with
    | zero =>
      cases ha
      exact ⟨b, rfl, hab⟩
    | succ i => exact ih ha

lemma exists_mapM_eq_ok {α β : Type} {f : α → Except PyError β} {as : List α} (h : ∀ a ∈ as, ∃ b, f a = .ok b) :
    ∃ bs, as.mapM f = .ok bs := by
  induction as with
  | nil => exact ⟨[], rfl⟩
  | cons a as ih =>
    rw [forall_mem_cons] at h
    obtain ⟨b, hb⟩ := h.1
    obtain ⟨bs, hbs⟩ := ih h.2
    refine ⟨b :: bs, ?_⟩
    rw [mapM_cons, hb]
    change (as.mapM f >>= fun bs => Except.ok (b :: bs)) = _
    rw [hbs]
    rfl

lemma lt_of_getElem? {α : Type*} {as : List α} {i : ℕ} {a : α} (h : as[i]? = some a) : i < as.length :=
  (List.getElem?_eq_some_iff.mp h).1

lemma exists_of_forall₂ {α β : Type} {R : α → β → Prop} {as : List α} {bs : List β}
    (h : List.Forall₂ R as bs) {b : β} (hb : b ∈ bs) : ∃ a ∈ as, R a b := by
  induction h with
  | nil => simp at hb
  | @cons a b' as bs hab _ ih =>
    rw [mem_cons] at hb
    rcases hb with rfl | hb
    · exact ⟨a, mem_cons_self, hab⟩
    · obtain ⟨a', ha', hrel⟩ := ih hb
      exact ⟨a', mem_cons_of_mem _ ha', hrel⟩

/-- A Python `bytes` value. -/
abbrev Bytes := List UInt8

/-- Request ids are compared for equality, and ordered in the priority queue. -/
abbrev RequestId := ℕ

abbrev TokenId := ℕ

/-- A dictionary whose iteration order is never observed. -/
abbrev Dict (κ : Type*) (ν : Type*) := AList fun _ : κ => ν

/-- The position that `xs[idx]` reads in a Python list of the given length; a negative index
counts from the end. -/
def pyIndex (length : ℕ) (idx : ℤ) : Option ℕ :=
  if 0 ≤ idx ∧ idx < length then some idx.toNat
  else if -length ≤ idx ∧ idx < 0 then some (length + idx).toNat
  else none

/-- `vllm.utils.math_utils.cdiv` on non-negative arguments. -/
def cdiv (a b : ℕ) : ℕ := (a + b - 1) / b

lemma cdiv_le_iff {a b n : ℕ} (hb : 0 < b) : cdiv a b ≤ n ↔ a ≤ n * b := by
  unfold cdiv
  rw [Nat.div_le_iff_le_mul_add_pred hb, Nat.mul_comm b n]
  omega

lemma lt_cdiv_iff {a b n : ℕ} (hb : 0 < b) : n < cdiv a b ↔ n * b < a := by
  rw [← not_le, ← not_le, cdiv_le_iff hb]

lemma le_cdiv_mul (a : ℕ) {b : ℕ} (hb : 0 < b) : a ≤ cdiv a b * b :=
  (cdiv_le_iff hb).mp le_rfl

lemma cdiv_mono {a a' : ℕ} (b : ℕ) (h : a ≤ a') : cdiv a b ≤ cdiv a' b := by
  unfold cdiv
  exact Nat.div_le_div_right (by omega)

lemma div_le_cdiv (a b : ℕ) : a / b ≤ cdiv a b := by
  rcases Nat.eq_zero_or_pos b with rfl | hb
  · simp
  · exact Nat.div_le_div_right (by omega)

@[simp] lemma cdiv_mul_right (n : ℕ) {b : ℕ} (hb : 0 < b) : cdiv (n * b) b = n := by
  apply le_antisymm
  · exact (cdiv_le_iff hb).mpr le_rfl
  · have h := le_cdiv_mul (n * b) hb
    exact Nat.le_of_mul_le_mul_right h hb

end VllmRuntime
