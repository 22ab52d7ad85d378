import ResourceManager.Library.Runs

/-!
# Bounded queues

A queue with room for `cap` elements refuses what is pushed when it is full. In every run
the accepted elements are, in their order, those that have been delivered and then those
that wait (`accepted_eq`). A circular array holds such a queue in the cells from `head` on:
`Circular` reads its elements, wherever the indices wrap around.
-/

namespace ResourceManager.Library.BoundedFifo

open Runs

variable {α : Type*}

inductive Event (α : Type*) where
  | push (x : α)
  | pop
deriving DecidableEq

/-- What is seen of an event. An empty queue lets who pops it wait. -/
inductive Output (α : Type*) where
  | accepted (x : α)
  | discarded (x : α)
  | delivered (x : α)
  | waiting
deriving DecidableEq

def fifoStep (cap : ℕ) (q : List α) : Event α → List α × Output α
  | .push x => if q.length < cap then (q ++ [x], .accepted x) else (q, .discarded x)
  | .pop =>
    match q with
    | [] => ([], .waiting)
    | x :: q => (q, .delivered x)

/-- The elements accepted in a run. -/
def accepted (os : List (Output α)) : List α :=
  os.filterMap fun o =>
    match o with
    | .accepted x => some x
    | _ => none

/-- The elements delivered in a run. -/
def delivered (os : List (Output α)) : List α :=
  os.filterMap fun o =>
    match o with
    | .delivered x => some x
    | _ => none

theorem delivered_append (os os' : List (Output α)) :
    delivered (os ++ os') = delivered os ++ delivered os' := List.filterMap_append

/-! ## Runs -/

section Runs

variable {cap : ℕ}

theorem fifoStep_conserves (cap : ℕ) (q : List α) (e : Event α) :
    q ++ accepted [(fifoStep cap q e).2] =
      delivered [(fifoStep cap q e).2] ++ (fifoStep cap q e).1 := by
  cases e with
  | push x =>
    rw [fifoStep]
    split
    · rfl
    · exact List.append_nil q
  | pop =>
    cases q with
    | nil => rfl
    | cons x q => exact List.append_nil (x :: q)

/-- Nothing is lost, doubled or reordered. -/
theorem accepted_eq (cap : ℕ) (es : List (Event α)) : ∀ q : List α,
    q ++ accepted (outputs (fifoStep cap) q es) =
      delivered (outputs (fifoStep cap) q es) ++ final (fifoStep cap) q es := by
  induction es with
  | nil => exact fun q => List.append_nil q
  | cons e es ih =>
    intro q
    have hone := fifoStep_conserves cap q e
    have hcons : ∀ (o : Output α) (os : List (Output α)),
        accepted (o :: os) = accepted [o] ++ accepted os ∧
          delivered (o :: os) = delivered [o] ++ delivered os :=
      fun o os => ⟨List.filterMap_append (l := [o]), List.filterMap_append (l := [o])⟩
    rw [outputs, (hcons _ _).1, (hcons _ _).2, ← List.append_assoc, hone, List.append_assoc, ih,
      List.append_assoc]
    rfl

/-- What waits is delivered to those who pop. -/
theorem delivered_drain : ∀ q : List α,
    delivered (outputs (fifoStep cap) q (List.replicate q.length .pop)) = q
  | [] => rfl
  | x :: q => congrArg (x :: ·) (delivered_drain q)

end Runs

/-! ## Circular arrays -/

/-- The elements of `q` are in the cells from `head` on. -/
def Circular (cells : ℤ → α) (cap head : ℤ) (q : List α) : Prop :=
  ∀ (i : ℕ) (hi : i < q.length), cells ((head + i) % cap) = q[i]

section Circular

variable {cells : ℤ → α} {cap head : ℤ} {q : List α}

theorem circular_nil (cells : ℤ → α) (cap head : ℤ) : Circular cells cap head [] :=
  fun _ hi => absurd hi (Nat.not_lt_zero _)

/-- Less than a whole turn apart, two offsets lead to different cells. -/
theorem cell_ne {i j : ℕ} (hij : i < j) (hj : (j : ℤ) < cap) :
    (head + i) % cap ≠ (head + j) % cap := by
  intro he
  have hdvd : cap ∣ (head + j) - (head + i) := Int.ModEq.dvd he
  have hle := Int.le_of_dvd (by omega) hdvd
  omega

/-- The cell after the last element is free. -/
theorem Circular.push (h : Circular cells cap head q) (hlt : (q.length : ℤ) < cap) (x : α) :
    Circular (Function.update cells ((head + q.length) % cap) x) cap head (q ++ [x]) := by
  intro i hi
  rw [List.length_append, List.length_singleton] at hi
  rcases Nat.lt_or_ge i q.length with hold | hnew
  · rw [Function.update_of_ne (cell_ne hold hlt), List.getElem_append_left hold]
    exact h i hold
  · obtain rfl : i = q.length := by omega
    rw [Function.update_self, List.getElem_concat_length rfl]

theorem Circular.first {x : α} (h : Circular cells cap head (x :: q)) (hhead : 0 ≤ head)
    (hlt : head < cap) : cells head = x := by
  have hfirst := h 0 (Nat.succ_pos _)
  rwa [Nat.cast_zero, add_zero, Int.emod_eq_of_lt hhead hlt] at hfirst

theorem Circular.pop {x : α} (h : Circular cells cap head (x :: q)) :
    Circular cells cap ((head + 1) % cap) q := by
  intro i hi
  have hnext := h (i + 1) (Nat.succ_lt_succ hi)
  rw [List.getElem_cons_succ] at hnext
  rw [Int.emod_add_emod, ← hnext]
  congr 2
  push_cast
  ring

end Circular

end ResourceManager.Library.BoundedFifo
