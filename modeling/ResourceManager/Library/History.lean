import ResourceManager.Library.Runs

/-!
# What a store remembers

A store whose steps write entries under keys and drop entries. An entry that has been written
is standing when no later input of the run writes under its key or drops it. The entries of a
store are the standing ones, as far as its steps do what the inputs say.
-/

namespace ResourceManager.Library.History

open Library.Runs

variable {σ ι α κ : Type*} (key : α → κ) (write : ι → Option α) (drop : ι → α → Prop)

/-- No input writes under the key of `x` or drops it. -/
def Kept (is : List ι) (x : α) : Prop :=
  ∀ i ∈ is, (∀ y ∈ write i, key y ≠ key x) ∧ ¬drop i x

/-- The inputs write `x`, and keep it from then on. -/
def Standing (is : List ι) (x : α) : Prop :=
  ∃ before i after, is = before ++ i :: after ∧ x ∈ write i ∧ Kept key write drop after x

variable {key write drop}

theorem kept_cons {i : ι} {is : List ι} {x : α} : Kept key write drop (i :: is) x ↔
    ((∀ y ∈ write i, key y ≠ key x) ∧ ¬drop i x) ∧ Kept key write drop is x :=
  List.forall_mem_cons

theorem standing_nil {x : α} : ¬Standing key write drop [] x := by
  rintro ⟨before, i, after, he, -⟩
  exact List.append_ne_nil_of_right_ne_nil before (List.cons_ne_nil i after) he.symm

theorem standing_cons {i : ι} {is : List ι} {x : α} : Standing key write drop (i :: is) x ↔
    (x ∈ write i ∧ Kept key write drop is x) ∨ Standing key write drop is x := by
  constructor
  · rintro ⟨before, j, after, he, hwrite, hkept⟩
    cases before with
    | nil =>
      cases he
      exact Or.inl ⟨hwrite, hkept⟩
    | cons k before =>
      cases he
      exact Or.inr ⟨before, j, after, rfl, hwrite, hkept⟩
  · rintro (⟨hwrite, hkept⟩ | ⟨before, j, after, rfl, hwrite, hkept⟩)
    · exact ⟨[], i, is, rfl, hwrite, hkept⟩
    · exact ⟨i :: before, j, after, rfl, hwrite, hkept⟩

variable {step : σ → ι → σ} {P : σ → ι → Prop} (mem : σ → α → Prop)

/-- A store that holds nothing else than what has been written, and forgets what is written
over or dropped. -/
theorem standing_of_mem (hstep : ∀ s i x, P s i → mem (step s i) x →
      x ∈ write i ∨ (mem s x ∧ (∀ y ∈ write i, key y ≠ key x) ∧ ¬drop i x)) :
    ∀ {is : List ι} {s : σ}, Along step P s is → ∀ {x : α}, mem (run step s is) x →
      Standing key write drop is x ∨ (mem s x ∧ Kept key write drop is x)
  | [], _, _, _, hx => Or.inr ⟨hx, fun _ hi => by cases hi⟩
  | i :: is, s, hp, x, hx => by
    rw [standing_cons, kept_cons]
    rcases standing_of_mem hstep hp.2 hx with hstanding | ⟨hmem, hkept⟩
    · exact Or.inl (Or.inr hstanding)
    · rcases hstep s i x hp.1 hmem with hwrite | ⟨hold, hkeeps⟩
      · exact Or.inl (Or.inl ⟨hwrite, hkept⟩)
      · exact Or.inr ⟨hold, hkeeps, hkept⟩

/-- A store that takes what is written, and keeps what is neither written over nor dropped. -/
theorem mem_of_standing (hstep : ∀ s i x, P s i →
      x ∈ write i ∨ (mem s x ∧ (∀ y ∈ write i, key y ≠ key x) ∧ ¬drop i x) → mem (step s i) x) :
    ∀ {is : List ι} {s : σ}, Along step P s is → ∀ {x : α},
      Standing key write drop is x ∨ (mem s x ∧ Kept key write drop is x) → mem (run step s is) x
  | [], _, _, _, hx => hx.elim (fun h => absurd h standing_nil) And.left
  | i :: is, s, hp, x, hx => by
    rw [standing_cons, kept_cons] at hx
    refine mem_of_standing hstep hp.2 ?_
    rcases hx with (⟨hwrite, hkept⟩ | hstanding) | ⟨hold, hkeeps, hkept⟩
    · exact Or.inr ⟨hstep s i x hp.1 (Or.inl hwrite), hkept⟩
    · exact Or.inl hstanding
    · exact Or.inr ⟨hstep s i x hp.1 (Or.inr ⟨hold, hkeeps⟩), hkept⟩

/-- A store that is empty at first and does both holds what is standing. -/
theorem mem_run_iff (hstep : ∀ s i x, P s i → (mem (step s i) x ↔
      x ∈ write i ∨ (mem s x ∧ (∀ y ∈ write i, key y ≠ key x) ∧ ¬drop i x)))
    {is : List ι} {s : σ} (hempty : ∀ x, ¬mem s x) (hp : Along step P s is) {x : α} :
    mem (run step s is) x ↔ Standing key write drop is x := by
  constructor
  · intro hx
    have hof := standing_of_mem mem (fun s i x hp => (hstep s i x hp).mp) hp hx
    exact hof.resolve_right fun hold => hempty x hold.1
  · intro hstanding
    exact mem_of_standing mem (fun s i x hp => (hstep s i x hp).mpr) hp (Or.inl hstanding)

end ResourceManager.Library.History
