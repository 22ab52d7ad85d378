import Mathlib.Tactic

/-!
# Loops that run as long as they produce something

`doWhile body more` is the loop `do body while (more)`. The body sees the number of the
iteration, so that it may depend on what is read from outside, and returns the next state
and an output, which decides whether the loop goes on. The loop is run with a number of
iterations and fails when they are used up; it returns the last state and its iterations.
A body that lowers a measure whenever the loop goes on makes it end
(`doWhile_terminates`); `doWhile_induction` is the induction over its iterations.
-/

namespace ResourceManager.Library.Loops

variable {σ ω : Type*}

structure Iteration (σ ω : Type*) where
  index : ℕ
  before : σ
  after : σ
  output : ω

variable (body : ℕ → σ → σ × ω) (more : ω → Bool)

/-- The iteration `i`, from the state `s`. -/
def iteration (i : ℕ) (s : σ) : Iteration σ ω := ⟨i, s, (body i s).1, (body i s).2⟩

def doWhile : ℕ → ℕ → σ → Option (σ × List (Iteration σ ω))
  | 0, _, _ => none
  | fuel + 1, i, s =>
    let it := iteration body i s
    if more it.output then (doWhile fuel (i + 1) it.after).map fun r => (r.1, it :: r.2)
    else some (it.after, [it])

variable {body more}

theorem doWhile_stop {fuel i : ℕ} {s : σ} (hfuel : 0 < fuel)
    (h : more (iteration body i s).output = false) :
    doWhile body more fuel i s = some ((iteration body i s).after, [iteration body i s]) := by
  obtain ⟨fuel, rfl⟩ := Nat.exists_eq_add_one_of_ne_zero hfuel.ne'
  simp only [doWhile, h, Bool.false_eq_true, if_false]

theorem doWhile_next {fuel i : ℕ} {s : σ} {r : σ × List (Iteration σ ω)}
    (h : more (iteration body i s).output = true)
    (hrest : doWhile body more fuel (i + 1) (iteration body i s).after = some r) :
    doWhile body more (fuel + 1) i s = some (r.1, iteration body i s :: r.2) := by
  simp only [doWhile, h, if_true, hrest, Option.map_some]

/-- A loop whose body lowers a measure whenever it goes on ends, and more iterations than
the measure are enough. -/
theorem doWhile_terminates {potential : σ → ℕ}
    (h : ∀ i s, more (body i s).2 = true → potential (body i s).1 < potential s) :
    ∀ (n i : ℕ) (s : σ), potential s ≤ n →
      ∃ r, ∀ fuel, n < fuel → doWhile body more fuel i s = some r := by
  intro n
  induction n with
  | zero =>
    intro i s hn
    have hstop : more (iteration body i s).output = false := by
      by_contra hmore
      have hlt := h i s (Bool.eq_true_of_not_eq_false hmore)
      omega
    exact ⟨_, fun fuel hfuel => doWhile_stop hfuel hstop⟩
  | succ n ih =>
    intro i s hn
    cases hmore : more (iteration body i s).output with
    | false => exact ⟨_, fun fuel hfuel => doWhile_stop (Nat.zero_lt_of_lt hfuel) hmore⟩
    | true =>
      have hlt : potential (iteration body i s).after < potential s := h i s hmore
      obtain ⟨r, hr⟩ := ih (i + 1) (iteration body i s).after (by omega)
      refine ⟨(r.1, iteration body i s :: r.2), fun fuel hfuel => ?_⟩
      obtain ⟨fuel, rfl⟩ := Nat.exists_eq_add_one_of_ne_zero (Nat.ne_of_gt (Nat.zero_lt_of_lt hfuel))
      exact doWhile_next hmore (hr fuel (by omega))

/-- What holds of a last iteration alone, and of an iteration before a run of which it
holds, holds of every run that ends. -/
theorem doWhile_induction {P : ℕ → σ → List (Iteration σ ω) → σ → Prop}
    (last : ∀ i s, more (body i s).2 = false →
      P i s [iteration body i s] (iteration body i s).after)
    (next : ∀ i s its s', P (i + 1) (iteration body i s).after its s' →
      P i s (iteration body i s :: its) s') :
    ∀ {fuel i : ℕ} {s s' : σ} {its : List (Iteration σ ω)},
      doWhile body more fuel i s = some (s', its) → P i s its s' := by
  intro fuel
  induction fuel with
  | zero =>
    intro i s s' its h
    cases h
  | succ fuel ih =>
    intro i s s' its h
    rw [doWhile] at h
    split at h
    · obtain ⟨⟨s₁, its₁⟩, hrun, he⟩ := Option.map_eq_some_iff.mp h
      cases he
      exact next i s its₁ s₁ (ih hrun)
    · rename_i hstop
      cases h
      exact last i s (Bool.eq_false_of_not_eq_true hstop)

/-- Every iteration is a call of the body. -/
theorem mem_doWhile {fuel i : ℕ} {s s' : σ} {its : List (Iteration σ ω)}
    (h : doWhile body more fuel i s = some (s', its)) :
    ∀ it ∈ its, it = iteration body it.index it.before := by
  refine doWhile_induction (P := fun _ _ its _ => ∀ it ∈ its, it = iteration body it.index
    it.before) (fun i s _ => ?_) (fun i s its s' ih => ?_) h
  · intro it hit
    rw [List.mem_singleton.mp hit]
    rfl
  · exact List.forall_mem_cons.mpr ⟨rfl, ih⟩

/-- What every call of the body keeps holds before every iteration. -/
theorem doWhile_invariant {I : σ → Prop} (hbody : ∀ i s, I s → I (body i s).1) {fuel i : ℕ}
    {s s' : σ} {its : List (Iteration σ ω)} (h : doWhile body more fuel i s = some (s', its))
    (hs : I s) : ∀ it ∈ its, I it.before := by
  refine doWhile_induction (P := fun _ s its _ => I s → ∀ it ∈ its, I it.before)
    (fun i s _ hs => ?_) (fun i s its s' ih hs => ?_) h hs
  · exact List.forall_mem_singleton.mpr hs
  · exact List.forall_mem_cons.mpr ⟨hs, ih (hbody i s hs)⟩

/-- The last iteration has the greatest number, leads to the final state and ends the
loop. -/
theorem last_doWhile {fuel i : ℕ} {s s' : σ} {its : List (Iteration σ ω)}
    (h : doWhile body more fuel i s = some (s', its)) :
    ∃ it ∈ its.getLast?, it.after = s' ∧ more it.output = false ∧ i ≤ it.index ∧
      ∀ it' ∈ its, it'.index ≤ it.index := by
  refine doWhile_induction (P := fun i _ its s' => ∃ it ∈ its.getLast?, it.after = s' ∧
    more it.output = false ∧ i ≤ it.index ∧ ∀ it' ∈ its, it'.index ≤ it.index)
    (fun i s hstop => ?_) (fun i s its s' ih => ?_) h
  · refine ⟨iteration body i s, rfl, rfl, hstop, le_rfl, fun it' hit' => ?_⟩
    rw [List.mem_singleton.mp hit']
  · obtain ⟨it, hit, hafter, hstop, hle, hmax⟩ := ih
    refine ⟨it, ?_, hafter, hstop, by omega, ?_⟩
    · rw [List.getLast?_cons, Option.mem_def.mp hit]
      rfl
    · refine List.forall_mem_cons.mpr ⟨?_, hmax⟩
      show i ≤ it.index
      omega

end ResourceManager.Library.Loops
