import VllmRuntime.Shared.OrderedDict
import Mathlib.Logic.Equiv.Basic

/-! # Permuting in place

Where an element is swapped to its place, what remains to be done is the permutation without that place. -/

namespace VllmRuntime.Cycles

open List

variable {π : Equiv.Perm ℕ} {keys : List ℕ} {src x : ℕ}

/-- The element at `src` was swapped to its place. -/
def place (π : Equiv.Perm ℕ) (src : ℕ) : Equiv.Perm ℕ := π * Equiv.swap src (π src)

lemma place_apply (π : Equiv.Perm ℕ) (src x : ℕ) : place π src x = π (Equiv.swap src (π src) x) := rfl

lemma place_self (π : Equiv.Perm ℕ) (src : ℕ) : place π src src = π (π src) := by
  rw [place_apply, Equiv.swap_apply_left]

lemma place_dst (π : Equiv.Perm ℕ) (src : ℕ) : place π src (π src) = π src := by
  rw [place_apply, Equiv.swap_apply_right]

lemma place_of_ne (hsrc : x ≠ src) (hdst : x ≠ π src) : place π src x = π x := by
  rw [place_apply, Equiv.swap_apply_of_ne_of_ne hsrc hdst]

/-- What is in its place already stays there. -/
lemma place_fixed (hx : π x = x) (hne : x ≠ src) : place π src x = x := by
  refine (place_of_ne hne fun hdst => hne ?_).trans hx
  rw [hdst] at hx
  rw [hdst]
  exact π.injective hx

/-- The number of keys that are not in their place. -/
def misplaced (π : Equiv.Perm ℕ) (keys : List ℕ) : ℕ := keys.countP fun x => π x ≠ x

lemma misplaced_le (π : Equiv.Perm ℕ) (keys : List ℕ) : misplaced π keys ≤ keys.length := countP_le_length

lemma dst_misplaced (hsrc : π src ≠ src) : π (π src) ≠ π src := fun h => hsrc (π.injective h)

lemma misplaced_place_lt (hsrc : π src ≠ src) (hdst : π src ∈ keys) :
    misplaced (place π src) keys < misplaced π keys := by
  have hle : ∀ x, place π src x ≠ x → π x ≠ x := by
    intro x hx hfixed
    by_cases hne : x = src
    · exact hsrc (hne ▸ hfixed)
    · exact hx (place_fixed hfixed hne)
  unfold misplaced
  induction keys with
  | nil => simp at hdst
  | cons key keys ih =>
    rw [countP_cons, countP_cons]
    by_cases hkey : key = π src
    · have hmono : keys.countP (fun x => decide (place π src x ≠ x)) ≤ keys.countP fun x => decide (π x ≠ x) :=
        countP_mono_left fun x _ hx => by simpa using hle x (by simpa using hx)
      have hbefore : π key ≠ key := hkey ▸ dst_misplaced hsrc
      have hafter : place π src key = key := hkey ▸ place_dst π src
      simp only [hbefore, hafter, ne_eq, not_false_eq_true, not_true_eq_false, decide_true, decide_false, if_true]
      simp only [ne_eq] at hmono
      simp only [Bool.false_eq_true, if_false]
      omega
    · have hrest := ih ((List.mem_cons.mp hdst).resolve_left (Ne.symm hkey))
      have hhead := hle key
      by_cases hafter : place π src key = key
      · simp only [hafter, ne_eq, not_true_eq_false, decide_false]
        simp only [ne_eq] at hrest
        simp only [Bool.false_eq_true, if_false]
        omega
      · simp only [hafter, hhead hafter, ne_eq, not_false_eq_true, decide_true, if_true]
        simp only [ne_eq] at hrest
        omega

/-- A dictionary whose values are its keys in another order is a permutation. -/
lemma exists_perm {ks ds : List ℕ} (hnodup : ks.Nodup) (hperm : ks.Perm ds) :
    ∃ π : Equiv.Perm ℕ, ∀ x, π x = ((ks.zip ds).lookup x).getD x := by
  have hlen : ks.length = ds.length := hperm.length_eq
  have hfst : (ks.zip ds).map Prod.fst = ks := map_fst_zip hlen.le
  have hsnd : (ds.zip ks).map Prod.fst = ds := map_fst_zip hlen.ge
  have hback (a b : List ℕ) (ha : (a.zip b).map Prod.fst = a) (hb : (b.zip a).map Prod.fst = b)
      (hnodup : b.Nodup) (hmem : ∀ x, x ∈ b → x ∈ a) (x : ℕ) :
      ((b.zip a).lookup (((a.zip b).lookup x).getD x)).getD (((a.zip b).lookup x).getD x) = x := by
    cases hx : (a.zip b).lookup x with
    | none =>
      have hnot : x ∉ a := by rwa [lookup_eq_none, ha] at hx
      have hnone : (b.zip a).lookup x = none := by
        rw [lookup_eq_none, hb]
        exact fun h => hnot (hmem x h)
      simp [hnone]
    | some y =>
      have hpair : (y, x) ∈ b.zip a := by
        obtain ⟨i, hi⟩ := mem_iff_getElem?.mp (mem_of_lookup hx)
        rw [getElem?_zip_eq_some] at hi
        exact mem_iff_getElem?.mpr ⟨i, List.getElem?_zip_eq_some.mpr hi.symm⟩
      have hsome : (b.zip a).lookup y = some x := lookup_of_mem (hb.symm ▸ hnodup) hpair
      simp [hsome]
  refine ⟨⟨fun x => ((ks.zip ds).lookup x).getD x, fun x => ((ds.zip ks).lookup x).getD x, ?_, ?_⟩, fun _ => rfl⟩
  · exact hback ks ds hfst hsnd (hperm.nodup_iff.mp hnodup) fun x hx => hperm.mem_iff.mpr hx
  · exact hback ds ks hsnd hfst hnodup fun x hx => hperm.mem_iff.mp hx

end VllmRuntime.Cycles
