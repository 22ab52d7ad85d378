import Mathlib.Tactic
import Mathlib.Algebra.Order.BigOperators.Group.List

/-!
# Lists as finite maps over an equivalence

A finite map whose keys are the classes of an equivalence `r` is a list of pairwise
unrelated elements (`Distinct`): the element of a class is its value. `find` reads the
element related to `d`, `erase` forgets it, and `d :: erase r l d` overwrites it. The
lemmas are stated up to permutation, so that a representation is free to choose the
order in which it stores its elements.
-/

namespace ResourceManager.Library.KeyedList

variable {α : Type*} (r : α → α → Prop)

/-- No two elements of the list are related. -/
def Distinct (l : List α) : Prop := l.Pairwise fun a b => ¬ r a b

variable {r} in
theorem distinct_perm (hr : Equivalence r) {l l' : List α} (p : l.Perm l')
    (h : Distinct r l) : Distinct r l' :=
  p.pairwise h fun hab hba => hab (hr.symm hba)

variable {r} in
/-- Related members of a keyed list are the same member. -/
theorem eq_of_rel (hr : Equivalence r) {l : List α} (h : Distinct r l) {a b : α}
    (ha : a ∈ l) (hb : b ∈ l) (hab : r a b) : a = b := by
  induction l with
  | nil => cases ha
  | cons x xs ih =>
    obtain ⟨hx, hxs⟩ := List.pairwise_cons.mp h
    rcases List.mem_cons.mp ha with rfl | ha' <;> rcases List.mem_cons.mp hb with rfl | hb'
    · rfl
    · exact absurd hab (hx b hb')
    · exact absurd (hr.symm hab) (hx a ha')
    · exact ih hxs ha' hb'

variable {r} in
/-- A keyed list has no repetitions. -/
theorem nodup (hr : Equivalence r) {l : List α} (h : Distinct r l) : l.Nodup :=
  h.imp fun {a b} (hab : ¬ r a b) (he : a = b) => hab (he ▸ hr.refl a)

variable [DecidableRel r]

/-- The first element related to `d`. -/
def find (l : List α) (d : α) : Option α := l.find? fun x => decide (r x d)

/-- The list without the elements related to `d`. -/
def erase (l : List α) (d : α) : List α := l.filter fun x => !decide (r x d)

variable {r}

@[simp] theorem mem_erase {l : List α} {d x : α} : x ∈ erase r l d ↔ x ∈ l ∧ ¬ r x d := by
  simp [erase]

theorem find_some {l : List α} {d x : α} (h : find r l d = some x) : x ∈ l ∧ r x d :=
  ⟨List.mem_of_find?_eq_some h, by simpa using List.find?_some h⟩

theorem find_none {l : List α} {d : α} : find r l d = none ↔ ∀ x ∈ l, ¬ r x d := by
  simp [find]

theorem distinct_erase {l : List α} (h : Distinct r l) (d : α) : Distinct r (erase r l d) :=
  List.Pairwise.filter _ h

theorem distinct_put (hr : Equivalence r) {l : List α} (h : Distinct r l) (d : α) :
    Distinct r (d :: erase r l d) :=
  List.pairwise_cons.mpr
    ⟨fun _ hx hdx => (mem_erase.mp hx).2 (hr.symm hdx), distinct_erase h d⟩

theorem find_eq_some (hr : Equivalence r) {l : List α} (h : Distinct r l) {d x : α} :
    find r l d = some x ↔ x ∈ l ∧ r x d := by
  constructor
  · exact find_some
  · rintro ⟨hx, hxd⟩
    cases hf : find r l d with
    | none => exact absurd hxd (find_none.mp hf x hx)
    | some y =>
      obtain ⟨hy, hyd⟩ := find_some hf
      rw [eq_of_rel hr h hy hx (hr.trans hyd (hr.symm hxd))]

/-- Reading does not depend on the order in which the elements are stored. -/
theorem find_perm (hr : Equivalence r) {l l' : List α} (p : l.Perm l') (h : Distinct r l)
    (d : α) : find r l d = find r l' d := by
  apply Option.ext
  intro x
  rw [find_eq_some hr h, find_eq_some hr (distinct_perm hr p h), p.mem_iff]

theorem find_put (hr : Equivalence r) {l : List α} (h : Distinct r l) (d k : α) :
    find r (d :: erase r l d) k = if r d k then some d else find r l k := by
  apply Option.ext
  intro x
  rw [find_eq_some hr (distinct_put hr h d), List.mem_cons, mem_erase]
  split
  · rename_i hdk
    constructor
    · rintro ⟨rfl | ⟨_, hx⟩, hxk⟩
      · rfl
      · exact absurd (hr.trans hxk (hr.symm hdk)) hx
    · intro he
      cases he
      exact ⟨Or.inl rfl, hdk⟩
  · rename_i hdk
    rw [find_eq_some hr h]
    constructor
    · rintro ⟨rfl | ⟨hx, _⟩, hxk⟩
      · exact absurd hxk hdk
      · exact ⟨hx, hxk⟩
    · rintro ⟨hx, hxk⟩
      exact ⟨Or.inr ⟨hx, fun hxd => hdk (hr.trans (hr.symm hxd) hxk)⟩, hxk⟩

theorem find_erase (hr : Equivalence r) {l : List α} (h : Distinct r l) (d k : α) :
    find r (erase r l d) k = if r d k then none else find r l k := by
  apply Option.ext
  intro x
  rw [find_eq_some hr (distinct_erase h d), mem_erase]
  split
  · rename_i hdk
    constructor
    · rintro ⟨⟨_, hx⟩, hxk⟩
      exact absurd (hr.trans hxk (hr.symm hdk)) hx
    · intro he
      cases he
  · rename_i hdk
    rw [find_eq_some hr h]
    constructor
    · rintro ⟨⟨hx, _⟩, hxk⟩
      exact ⟨hx, hxk⟩
    · rintro ⟨hx, hxk⟩
      exact ⟨⟨hx, fun hxd => hdk (hr.trans (hr.symm hxd) hxk)⟩, hxk⟩

/-- Erasing the class of a stored element removes exactly that element. -/
theorem erase_append_cons (hr : Equivalence r) {l₁ l₂ : List α} {x d : α}
    (h : Distinct r (l₁ ++ x :: l₂)) (hxd : r x d) : erase r (l₁ ++ x :: l₂) d = l₁ ++ l₂ := by
  have hother : ∀ y ∈ l₁ ++ l₂, ¬ r y d := by
    intro y hy hyd
    have hyx : r y x := hr.trans hyd (hr.symm hxd)
    obtain ⟨_, h₂, h₃⟩ := List.pairwise_append.mp h
    rcases List.mem_append.mp hy with hy | hy
    · exact h₃ y hy x List.mem_cons_self hyx
    · exact (List.pairwise_cons.mp h₂).1 y hy (hr.symm hyx)
  have hself : erase r (l₁ ++ l₂) d = l₁ ++ l₂ :=
    List.filter_eq_self.mpr fun y hy => by simpa using hother y hy
  rw [← hself]
  simp [erase, hxd]

/-- Nothing is erased when no element is related to `d`. -/
theorem erase_of_find_none {l : List α} {d : α} (h : find r l d = none) : erase r l d = l :=
  List.filter_eq_self.mpr fun x hx => by simpa using find_none.mp h x hx

/-! ## Sums over a keyed list -/

theorem sum_erase (hr : Equivalence r) {l : List α} (h : Distinct r l) (g : α → Nat) {d x : α}
    (hx : find r l d = some x) : ((erase r l d).map g).sum + g x = (l.map g).sum := by
  induction l with
  | nil => simp [find] at hx
  | cons y ys ih =>
    obtain ⟨hy, hys⟩ := List.pairwise_cons.mp h
    by_cases hyd : r y d
    · have hxy : x = y := by simpa [find, hyd, eq_comm] using hx
      have hrest : erase r ys d = ys :=
        List.filter_eq_self.mpr fun z hz => by
          simpa using fun hzd => hy z hz (hr.trans hyd (hr.symm hzd))
      have he : erase r (y :: ys) d = ys := by simpa [erase, hyd] using hrest
      rw [he, hxy, List.map_cons, List.sum_cons]
      omega
    · have hx' : find r ys d = some x := by simpa [find, hyd] using hx
      have he : erase r (y :: ys) d = y :: erase r ys d := by simp [erase, hyd]
      have := ih hys hx'
      rw [he, List.map_cons, List.sum_cons, List.map_cons, List.sum_cons]
      omega

end ResourceManager.Library.KeyedList
