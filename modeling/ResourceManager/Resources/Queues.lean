import Mathlib.Tactic

/-!
# The queues of `queues.c`

A `queue_t` is a list. Besides the library's own operations this file has the loop with
which the callers purge a queue: it tests the element at a cursor, deletes the first
element that a comparator accepts, and restarts from the head (`purgar`). The loop is run
with a number of steps and fails when they are used up; `purgar_spec` shows that
`(n + 1)²` steps are enough for a queue of length `n`, and that the result is a filter.
-/

namespace ResourceManager.Queue

variable {α : Type}

/-- `queue_add`. -/
def queueAdd : List α → α → List α
  | [], dato => [dato]
  | x :: q, dato => x :: queueAdd q dato

/-- `queue_delete`: the first element that `compare` maps to `0` goes. -/
def queueDelete (compare : α → Int) : List α → List α
  | [] => []
  | x :: q => if compare x = 0 then q else x :: queueDelete compare q

@[simp] theorem queueAdd_eq (q : List α) (dato : α) : queueAdd q dato = q ++ [dato] := by
  induction q with
  | nil => rfl
  | cons x q ih => rw [queueAdd, ih, List.cons_append]

/-- A deletion that finds something removes one element and keeps the others in order. -/
theorem queueDelete_split (compare : α → Int) {q : List α} (h : ∃ x ∈ q, compare x = 0) :
    ∃ q₁ x q₂, q = q₁ ++ x :: q₂ ∧ compare x = 0 ∧ (∀ y ∈ q₁, compare y ≠ 0) ∧
      queueDelete compare q = q₁ ++ q₂ := by
  induction q with
  | nil =>
    obtain ⟨x, hx, _⟩ := h
    cases hx
  | cons y q ih =>
    by_cases hy : compare y = 0
    · exact ⟨[], y, q, rfl, hy, by simp, by simp [queueDelete, hy]⟩
    · obtain ⟨x, hx, hx0⟩ := h
      have hxq : x ∈ q := by
        rcases List.mem_cons.mp hx with rfl | hxq
        · exact absurd hx0 hy
        · exact hxq
      obtain ⟨q₁, z, q₂, hq, hz, hbefore, hdel⟩ := ih ⟨x, hxq, hx0⟩
      refine ⟨y :: q₁, z, q₂, by rw [hq, List.cons_append], hz, ?_, ?_⟩
      · intro w hw
        rcases List.mem_cons.mp hw with rfl | hw
        · exact hy
        · exact hbefore w hw
      · rw [queueDelete, if_neg hy, hdel, List.cons_append]

theorem queueDelete_append_cons {compare : α → Int} {q₁ q₂ : List α} {x : α}
    (hbefore : ∀ y ∈ q₁, compare y ≠ 0) (hx : compare x = 0) :
    queueDelete compare (q₁ ++ x :: q₂) = q₁ ++ q₂ := by
  induction q₁ with
  | nil => rw [List.nil_append, queueDelete, if_pos hx, List.nil_append]
  | cons y q₁ ih =>
    obtain ⟨hy, hbefore⟩ := List.forall_mem_cons.mp hbefore
    rw [List.cons_append, queueDelete, if_neg hy, ih hbefore, List.cons_append]

theorem queueDelete_sublist (compare : α → Int) (q : List α) :
    (queueDelete compare q).Sublist q := by
  induction q with
  | nil => exact List.Sublist.refl _
  | cons x q ih =>
    unfold queueDelete
    split
    · exact List.sublist_cons_self x q
    · exact ih.cons_cons x

theorem queueDelete_length (compare : α → Int) {q : List α} (h : ∃ x ∈ q, compare x = 0) :
    (queueDelete compare q).length + 1 = q.length := by
  obtain ⟨q₁, x, q₂, hq, _, _, hdel⟩ := queueDelete_split compare h
  rw [hdel, hq]
  simp only [List.length_append, List.length_cons]
  omega

/-! ## Purge loops -/

/-- The loop `while (!queue_empty(act))` of the purges, with `n` steps left: `coincide` is
the test at the cursor `act`, `compare x e` the comparator called with the data of `e`. -/
def purgar (coincide : α → Bool) (compare : α → α → Int) :
    Nat → List α → List α → Option (List α)
  | 0, _, _ => none
  | _ + 1, q, [] => some q
  | n + 1, q, e :: act =>
    if coincide e then
      let q' := queueDelete (fun x => compare x e) q
      purgar coincide compare n q' q'
    else purgar coincide compare n q act

/-- The number of steps a purge of a queue of length `n` is given. -/
def pasosPurga (n : Nat) : Nat := (n + 1) * (n + 1)

theorem purgar_spec_aux {coincide : α → Bool} {compare : α → α → Int}
    (hself : ∀ e, coincide e = true → compare e e = 0)
    (hmatch : ∀ x e, coincide e = true → compare x e = 0 → coincide x = true) :
    ∀ (n : Nat) (visto act : List α), (∀ x ∈ visto, coincide x = false) →
      (visto ++ act).length * ((visto ++ act).length + 1) + act.length < n →
      purgar coincide compare n (visto ++ act) act =
        some ((visto ++ act).filter fun x => !coincide x) := by
  intro n
  induction n with
  | zero =>
    intro visto act _ hn
    omega
  | succ n ih =>
    intro visto act hvisto hn
    cases act with
    | nil =>
      rw [purgar, List.append_nil, List.filter_eq_self.mpr]
      intro x hx
      simp [hvisto x hx]
    | cons e act =>
      rw [purgar]
      by_cases hc : coincide e = true
      · rw [if_pos hc]
        have hex : ∃ x ∈ visto ++ e :: act, compare x e = 0 := ⟨e, by simp, hself e hc⟩
        obtain ⟨q₁, x, q₂, hq, hx, _, hdel⟩ := queueDelete_split _ hex
        have hlen := queueDelete_length _ hex
        have hx' : coincide x = true := hmatch x e hc hx
        generalize hm : (queueDelete (fun x => compare x e) (visto ++ e :: act)) = q' at *
        have hrun := ih [] q' (by simp) (by
          simp only [List.nil_append]
          have h1 : (visto ++ e :: act).length = q'.length + 1 := by omega
          rw [h1] at hn
          have h2 : (q'.length + 1) * (q'.length + 1 + 1) =
            q'.length * (q'.length + 1) + 2 * (q'.length + 1) := by ring
          omega)
        simp only [List.nil_append] at hrun
        rw [hrun, hdel, hq]
        simp [hx']
      · rw [if_neg hc]
        have hrun := ih (visto ++ [e]) act (by
          intro x hx
          rcases List.mem_append.mp hx with hx | hx
          · exact hvisto x hx
          · rw [List.mem_singleton.mp hx]
            simpa using hc) (by
          simp only [List.append_assoc, List.singleton_append]
          simp only [List.length_cons] at hn
          omega)
        simpa only [List.append_assoc, List.singleton_append] using hrun

/-- A purge ends, and leaves the elements that do not match in their order. -/
theorem purgar_spec {coincide : α → Bool} {compare : α → α → Int}
    (hself : ∀ e, coincide e = true → compare e e = 0)
    (hmatch : ∀ x e, coincide e = true → compare x e = 0 → coincide x = true) (q : List α)
    {n : Nat} (hn : pasosPurga q.length ≤ n) :
    purgar coincide compare n q q = some (q.filter fun x => !coincide x) := by
  have hsteps : pasosPurga q.length = q.length * (q.length + 1) + q.length + 1 := by
    unfold pasosPurga
    ring
  have h := purgar_spec_aux hself hmatch n [] q (fun x hx => absurd hx List.not_mem_nil) (by
    rw [List.nil_append]
    omega)
  rwa [List.nil_append] at h

end ResourceManager.Queue
