import Mathlib.Tactic

/-! # Runs that refine runs

A machine refines another one if calls in related states give the same answers and related states, or the same
failures. Then so do whole runs. -/

namespace Refinement

variable {κ ρ ε σ τ : Type*} {R : σ → τ → Prop} {run : κ → σ → Except ε (ρ × σ)} {spec : κ → τ → Except ε (ρ × τ)}
  {allowed : τ → κ → Prop} {calls : List κ} {s : σ} {t : τ}

/-- The same failure, or the same answer and related states. -/
def Refines (R : σ → τ → Prop) (x : Except ε (ρ × σ)) : Except ε (ρ × τ) → Prop
  | .error e => x = .error e
  | .ok (r, t) => ∃ s, x = .ok (r, s) ∧ R s t

/-- The answers to some calls and the state after them. -/
def runAll (run : κ → σ → Except ε (ρ × σ)) : List κ → σ → Except ε (List ρ × σ)
  | [], s => .ok ([], s)
  | call :: calls, s => do
    let (r, s) ← run call s
    let (rs, s) ← runAll run calls s
    return (r :: rs, s)

/-- Each call is allowed in the state in which it is made. -/
def AllAllowed (spec : κ → τ → Except ε (ρ × τ)) (allowed : τ → κ → Prop) : List κ → τ → Prop
  | [], _ => True
  | call :: calls, t => allowed t call ∧ ∀ r t', spec call t = .ok (r, t') → AllAllowed spec allowed calls t'

/-- More answers before it. -/
lemma Refines.prepend {x : Except ε (List ρ × σ)} {y : Except ε (List ρ × τ)} (h : Refines R x y) (r : ρ) :
    Refines R (x >>= fun p => pure (r :: p.1, p.2)) (y >>= fun p => pure (r :: p.1, p.2)) := by
  cases y with
  | error e =>
    obtain rfl : x = .error e := h
    rfl
  | ok answers =>
    obtain ⟨s, rfl, hR⟩ := h
    exact ⟨s, rfl, hR⟩

/-- Steps that refine steps make runs that refine runs. -/
lemma Refines.runAll (hstep : ∀ call s t, R s t → allowed t call → Refines R (run call s) (spec call t))
    (h : R s t) (hallowed : AllAllowed spec allowed calls t) :
    Refines R (runAll run calls s) (Refinement.runAll spec calls t) := by
  induction calls generalizing s t with
  | nil => exact ⟨s, rfl, h⟩
  | cons call calls ih =>
    have hcall := hstep call s t h hallowed.1
    rw [Refinement.runAll, Refinement.runAll]
    cases hspec : spec call t with
    | error e =>
      rw [hspec] at hcall
      rw [show run call s = .error e from hcall]
      rfl
    | ok answer =>
      rw [hspec] at hcall
      obtain ⟨s', hs', hR⟩ := hcall
      rw [hs']
      exact (ih hR (hallowed.2 _ _ hspec)).prepend answer.1

end Refinement
