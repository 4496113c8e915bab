import Mathlib.Tactic

/-! # Calls that change a state

A call on a state may raise an exception, which keeps the changes made so far, and it may never
return. `Keeps` says that a call keeps a property of the state whichever way it ends. -/

namespace VllmRuntime

/-- A call on a state of type `σ`; `none` if it does not return. -/
abbrev Effect (ε σ α : Type) := ExceptT ε (StateT σ Option) α

namespace Effect

variable {ε σ α β : Type} {s s' : σ} {f : α → Effect ε σ β} {x : Effect ε σ α} {out : Except ε α} {a : α}
  {e : ε} {b : β}

lemma pure_eq_some :
    (pure a : Effect ε σ α) s = some (out, s') ↔ out = .ok a ∧ s' = s := by
  constructor
  · intro h
    cases h
    exact ⟨rfl, rfl⟩
  · rintro ⟨rfl, rfl⟩
    rfl

lemma throw_eq_some :
    (throw e : Effect ε σ α) s = some (out, s') ↔ out = .error e ∧ s' = s := by
  constructor
  · intro h
    cases h
    exact ⟨rfl, rfl⟩
  · rintro ⟨rfl, rfl⟩
    rfl

lemma bind_of_ok (h : x s = some (.ok a, s')) : (x >>= f) s = f a s' := by
  change ((x s).bind fun out => ExceptT.bindCont f out.1 out.2) = _
  rw [h]
  rfl

lemma bind_of_error (h : x s = some (.error e, s')) : (x >>= f) s = some (.error e, s') := by
  change ((x s).bind fun out => ExceptT.bindCont f out.1 out.2) = _
  rw [h]
  rfl

lemma bind_congr_left {y : Effect ε σ α} {t : σ} (h : x s = y t) :
    (x >>= f) s = (y >>= f) t := by
  change ((x s).bind fun out => ExceptT.bindCont f out.1 out.2) =
    ((y t).bind fun out => ExceptT.bindCont f out.1 out.2)
  rw [h]

lemma bind_eq_some {out : Except ε β} (h : (x >>= f) s = some (out, s')) :
    (∃ a t, x s = some (.ok a, t) ∧ f a t = some (out, s')) ∨
      ∃ e, x s = some (.error e, s') ∧ out = .error e := by
  cases hx : x s with
  | none =>
    change ((x s).bind fun out => ExceptT.bindCont f out.1 out.2) = _ at h
    rw [hx] at h
    cases h
  | some result =>
    obtain ⟨result, t⟩ := result
    cases result with
    | ok a => exact Or.inl ⟨a, t, rfl, (bind_of_ok hx).symm.trans h⟩
    | error e =>
      cases (bind_of_error hx).symm.trans h
      exact Or.inr ⟨e, rfl, rfl⟩

lemma bind_eq_ok (h : (x >>= f) s = some (.ok b, s')) :
    ∃ a t, x s = some (.ok a, t) ∧ f a t = some (.ok b, s') := by
  rcases bind_eq_some h with h | ⟨e, -, he⟩
  · exact h
  · cases he

/-! ## Properties that calls keep -/

/-- Whichever way the call ends, the property holds afterwards. -/
def Keeps (P : σ → Prop) (x : Effect ε σ α) : Prop :=
  ∀ s out s', P s → x s = some (out, s') → P s'

variable {P : σ → Prop}

lemma Keeps.pure (a : α) : Keeps P (Pure.pure a : Effect ε σ α) := by
  intro s out s' hs h
  obtain ⟨-, rfl⟩ := pure_eq_some.mp h
  exact hs

lemma Keeps.throw (e : ε) : Keeps P (MonadExcept.throw e : Effect ε σ α) := by
  intro s out s' hs h
  obtain ⟨-, rfl⟩ := throw_eq_some.mp h
  exact hs

lemma Keeps.bind (hx : Keeps P x) (hf : ∀ a, Keeps P (f a)) : Keeps P (x >>= f) := by
  intro s out s' hs h
  rcases bind_eq_some h with ⟨a, t, ha, h⟩ | ⟨e, he, -⟩
  · exact hf a t out s' (hx s _ t hs ha) h
  · exact hx s _ s' hs he

/-- A computation without effects. -/
def lift (x : Except ε α) : Effect ε σ α := fun s => some (x, s)

lemma lift_eq_some {x : Except ε α} :
    (lift x : Effect ε σ α) s = some (out, s') ↔ out = x ∧ s' = s := by
  constructor
  · intro h
    cases h
    exact ⟨rfl, rfl⟩
  · rintro ⟨rfl, rfl⟩
    rfl

lemma lift_bind_eq_ok {x : Except ε α} (h : (lift x >>= f) s = some (.ok b, s')) :
    ∃ a, x = .ok a ∧ f a s = some (.ok b, s') := by
  obtain ⟨a, t, ha, hf⟩ := bind_eq_ok h
  obtain ⟨hx, ht⟩ := lift_eq_some.mp ha
  exact ⟨a, hx.symm, ht ▸ hf⟩

lemma Keeps.lift (x : Except ε α) : Keeps P (Effect.lift x : Effect ε σ α) := by
  intro s out s' hs h
  obtain ⟨-, rfl⟩ := lift_eq_some.mp h
  exact hs

/-- A change of the state that always succeeds. -/
def update (f : σ → σ) : Effect ε σ Unit := fun s => some (.ok (), f s)

/-- What a call reads of the state. -/
def read (f : σ → α) : Effect ε σ α := fun s => some (.ok (f s), s)

lemma Keeps.read (f : σ → α) : Keeps P (Effect.read f : Effect ε σ α) := by
  intro s out s' hs h
  cases h
  exact hs

/-! ## Two calls in lockstep -/

section Simulation

variable {τ α' β' : Type} {R : σ → τ → Prop} {Q : α → α' → Prop} {Q' : β → β' → Prop}

/-- When the first call succeeds, the second one succeeds on every related state, and ends in a
related state. -/
def Simulates (R : σ → τ → Prop) (Q : α → α' → Prop) (x : Effect ε σ α) (y : Effect ε τ α') : Prop :=
  ∀ s t a s', R s t → x s = some (.ok a, s') → ∃ b t', y t = some (.ok b, t') ∧ Q a b ∧ R s' t'

end Simulation

end Effect

end VllmRuntime
