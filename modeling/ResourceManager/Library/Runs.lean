import Mathlib.Tactic

/-!
# Runs of a state machine

A machine is a total function `step : σ → ι → σ`; a run feeds it a list of inputs.
`Along step P s is` says that every step of the run from `s` satisfies `P` in the state in
which it is taken. `run_invariant` is the induction that all safety results use: what one
step preserves, under `P`, holds after every run whose steps satisfy `P`.
-/

namespace ResourceManager.Library.Runs

variable {σ ι : Type*} (step : σ → ι → σ)

/-- The state after the inputs `is`. -/
def run (s : σ) (is : List ι) : σ := is.foldl step s

/-- Every step of the run from `s` satisfies `P`. -/
def Along (P : σ → ι → Prop) : σ → List ι → Prop
  | _, [] => True
  | s, i :: is => P s i ∧ Along P (step s i) is

variable {step}

@[simp] theorem run_nil (s : σ) : run step s [] = s := rfl

@[simp] theorem run_cons (s : σ) (i : ι) (is : List ι) :
    run step s (i :: is) = run step (step s i) is := rfl

instance instDecidableAlong {P : σ → ι → Prop} [∀ s i, Decidable (P s i)] :
    ∀ (s : σ) (is : List ι), Decidable (Along step P s is)
  | _, [] => .isTrue trivial
  | s, i :: is =>
    @instDecidableAnd _ _ _ (instDecidableAlong (step s i) is)

theorem along_mono {P Q : σ → ι → Prop} (hPQ : ∀ s i, P s i → Q s i) :
    ∀ {is : List ι} {s : σ}, Along step P s is → Along step Q s is
  | [], _, _ => trivial
  | _ :: _, _, h => ⟨hPQ _ _ h.1, along_mono hPQ h.2⟩

theorem along_of_forall {P : σ → ι → Prop} (h : ∀ s i, P s i) :
    ∀ {is : List ι} {s : σ}, Along step P s is
  | [], _ => trivial
  | _ :: _, _ => ⟨h _ _, along_of_forall h⟩

/-- A property that every step keeps, when the step satisfies `P`, holds after every run
whose steps satisfy `P`. -/
theorem run_invariant {I : σ → Prop} {P : σ → ι → Prop}
    (hstep : ∀ s i, I s → P s i → I (step s i)) {is : List ι} {s : σ} (h : I s)
    (ha : Along step P s is) : I (run step s is) := by
  induction is generalizing s with
  | nil => exact h
  | cons i is ih => exact ih (hstep s i h ha.1) ha.2

/-- The same without a condition on the steps. -/
theorem run_invariant_all {I : σ → Prop} (hstep : ∀ s i, I s → I (step s i))
    {is : List ι} {s : σ} (h : I s) : I (run step s is) := by
  induction is generalizing s with
  | nil => exact h
  | cons i is ih => exact ih (hstep s i h)

/-- If a step leads from a state with `U` to a state with `U` exactly when it satisfies `P`,
then `U` holds in every state of a run exactly when all its steps satisfy `P`. What the
steps keep anyway, under `Q`, may be used. -/
theorem along_iff {I U : σ → Prop} {P Q : σ → ι → Prop}
    (hI : ∀ s i, I s → Q s i → I (step s i))
    (hU : ∀ s i, I s → U s → Q s i → (U (step s i) ↔ P s i)) :
    ∀ {is : List ι} {s : σ}, I s → U s → Along step Q s is →
      (Along step (fun s i => U (step s i)) s is ↔ Along step P s is)
  | [], _, _, _, _ => Iff.rfl
  | i :: is, s, hi, hu, hq => by
    have hone := hU s i hi hu hq.1
    constructor
    · rintro ⟨hnext, hrest⟩
      exact ⟨hone.mp hnext, (along_iff hI hU (hI s i hi hq.1) hnext hq.2).mp hrest⟩
    · rintro ⟨hp, hrest⟩
      have hnext := hone.mpr hp
      exact ⟨hnext, (along_iff hI hU (hI s i hi hq.1) hnext hq.2).mpr hrest⟩

theorem run_append (is is' : List ι) (s : σ) :
    run step s (is ++ is') = run step (run step s is) is' := List.foldl_append

theorem along_append {P : σ → ι → Prop} {is is' : List ι} {s : σ} :
    Along step P s (is ++ is') ↔ Along step P s is ∧ Along step P (run step s is) is' := by
  induction is generalizing s with
  | nil => exact (true_and _).symm.to_iff
  | cons i is ih =>
    rw [List.cons_append, Along, Along, run_cons, ih, and_assoc]

/-! ## Runs that end

`B s n` bounds what can still happen from `s`; every step that satisfies `P` lowers the
bound. -/

/-- Not more steps than the bound. -/
theorem length_le_of_bounded {B : σ → ℕ → Prop} {P : σ → ι → Prop}
    (hstep : ∀ s i n, B s n → P s i → ∃ m < n, B (step s i) m) {is : List ι} {s : σ} {n : ℕ}
    (h : B s n) (ha : Along step P s is) : is.length ≤ n := by
  induction is generalizing s n with
  | nil => exact Nat.zero_le n
  | cons i is ih =>
    obtain ⟨m, hm, hB⟩ := hstep s i n h ha.1
    have := ih hB ha.2
    rw [List.length_cons]
    omega

/-! ## Outputs

A machine whose steps have outputs. Two machines that simulate each other's steps with the
same outputs have the same outputs in all runs. -/

section Outputs

variable {ο τ : Type*} (step : σ → ι → σ × ο)

/-- The outputs of a run, in order. -/
def outputs : σ → List ι → List ο
  | _, [] => []
  | s, i :: is => (step s i).2 :: outputs (step s i).1 is

/-- The state after a run. -/
def final (s : σ) (is : List ι) : σ := run (fun s i => (step s i).1) s is

variable {step}

theorem outputs_append (is is' : List ι) (s : σ) :
    outputs step s (is ++ is') = outputs step s is ++ outputs step (final step s is) is' := by
  induction is generalizing s with
  | nil => rfl
  | cons i is ih =>
    rw [List.cons_append, outputs, outputs, ih, List.cons_append]
    rfl

theorem outputs_eq_of_simulation {step' : τ → ι → τ × ο} {R : σ → τ → Prop}
    (hR : ∀ s t i, R s t → (step s i).2 = (step' t i).2 ∧ R (step s i).1 (step' t i).1) :
    ∀ {is : List ι} {s : σ} {t : τ}, R s t →
      outputs step s is = outputs step' t is ∧ R (final step s is) (final step' t is)
  | [], _, _, h => ⟨rfl, h⟩
  | i :: is, s, t, h => by
    obtain ⟨hout, hnext⟩ := hR s t i h
    obtain ⟨houts, hfinal⟩ := outputs_eq_of_simulation hR hnext
    refine ⟨?_, hfinal⟩
    rw [outputs, outputs, hout, houts]

end Outputs

end ResourceManager.Library.Runs
