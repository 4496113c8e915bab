import Mathlib.Tactic

/-! # Runs of a machine

A machine takes calls and either fails or moves to the next state. A rule says which calls are
allowed in which states; what holds at the start and is kept by every allowed call holds in every
state that is reached. -/

namespace VllmRuntime

variable {σ κ ε : Type*} {run : κ → σ → Except ε σ} {check : σ → κ → Bool} {s s' : σ} {calls : List κ}
  {allowed : σ → κ → Prop} {start : σ}

/-- The states that are reached from `start` by allowed calls that do not fail. -/
inductive Reaches (run : κ → σ → Except ε σ) (allowed : σ → κ → Prop) (start : σ) : σ → Prop where
  | start : Reaches run allowed start start
  | step {s s' : σ} {call : κ} : Reaches run allowed start s → allowed s call →
      run call s = .ok s' → Reaches run allowed start s'

namespace Reaches

variable {run : κ → σ → Except ε σ} {allowed allowed' : σ → κ → Prop} {start s : σ}

lemma invariant {P : σ → Prop} (h : Reaches run allowed start s) (hstart : P start)
    (hstep : ∀ s call s', P s → allowed s call → run call s = .ok s' → P s') : P s := by
  induction h with
  | start => exact hstart
  | step _ hcall hrun ih => exact hstep _ _ _ ih hcall hrun

lemma mono (h : Reaches run allowed start s) (himp : ∀ s call, allowed s call → allowed' s call) :
    Reaches run allowed' start s := by
  induction h with
  | start => exact .start
  | step _ hcall hrun ih => exact .step ih (himp _ _ hcall) hrun

end Reaches

/-- Makes the calls one after the other, as long as each passes the check and does not fail. -/
def runChecked (run : κ → σ → Except ε σ) (check : σ → κ → Bool) : List κ → σ → Option σ
  | [], s => some s
  | call :: calls, s =>
    if check s call then
      match run call s with
      | .error _ => none
      | .ok s => runChecked run check calls s
    else
      none

/-- A run can be evaluated if there is a check for what is allowed of the calls it makes. -/
lemma Reaches.of_runChecked_mem (hcheck : ∀ s, ∀ call ∈ calls, check s call = true → allowed s call)
    (h : Reaches run allowed start s) (hrun : runChecked run check calls s = some s') :
    Reaches run allowed start s' := by
  induction calls generalizing s with
  | nil =>
    cases hrun
    exact h
  | cons call calls ih =>
    rw [runChecked] at hrun
    split at hrun
    · rename_i hcall
      cases hstep : run call s with
      | error e =>
        rw [hstep] at hrun
        cases hrun
      | ok next =>
        rw [hstep] at hrun
        exact ih (fun s c hc => hcheck s c (List.mem_cons_of_mem _ hc))
          (h.step (hcheck s call List.mem_cons_self hcall) hstep) hrun
    · cases hrun

lemma Reaches.of_runChecked (hcheck : ∀ s call, check s call = true → allowed s call)
    (h : Reaches run allowed start s) (hrun : runChecked run check calls s = some s') :
    Reaches run allowed start s' :=
  h.of_runChecked_mem (fun s call _ => hcheck s call) hrun

/-- A start that may fail, and the state after some calls from there. -/
def runCheckedFrom (start : Except ε σ) (run : κ → σ → Except ε σ) (check : σ → κ → Bool) (calls : List κ) :
    Option (σ × σ) :=
  match start with
  | .error _ => none
  | .ok s => (runChecked run check calls s).map fun s' => (s, s')

lemma runCheckedFrom_eq_some {start : Except ε σ}
    (h : runCheckedFrom start run check calls = some (s, s')) :
    start = .ok s ∧ runChecked run check calls s = some s' := by
  cases start with
  | error e => cases h
  | ok s₁ =>
    obtain ⟨s₂, hrun, hret⟩ := Option.map_eq_some_iff.mp h
    cases hret
    exact ⟨rfl, hrun⟩

/-- The values at the end of a run that is evaluated are those of a state that is reached. -/
lemma reaches_of_map_runCheckedFrom {start : Except ε σ} {β : Type*} {f : σ × σ → β} {values : β}
    (hcheck : ∀ s, ∀ call ∈ calls, check s call = true → allowed s call)
    (h : (runCheckedFrom start run check calls).map f = some values) :
    ∃ s s', start = .ok s ∧ Reaches run allowed s s' ∧ f (s, s') = values := by
  obtain ⟨⟨s, s'⟩, hrun, hvals⟩ := Option.map_eq_some_iff.mp h
  obtain ⟨hstart, hrun⟩ := runCheckedFrom_eq_some hrun
  exact ⟨s, s', hstart, .of_runChecked_mem hcheck .start hrun, hvals⟩

end VllmRuntime
