import ResourceManager.Resources.LocalResource
import Mathlib.Logic.Relation

/-!
# Units of the inventory

Every handler changes the inventory by three kinds of write: `take`, `giveBack` and
`setQueue`. `accounted` adds what is available to what the reservations hold; `take` keeps
it up to the reservation it overwrites, `giveBack` keeps it. A `Move` is a write together
with the condition under which its arithmetic is exact.
-/

namespace ResourceManager

open HashTable Library.KeyedList

/-- The units of type `t` that a reservation holds. -/
def ElemActiveJob.unitsOf (t : Resource) (x : ElemActiveJob) : Nat :=
  if x.resourceType = t then x.resourceQuantity.toNat else 0

namespace LocalNode

/-- The sum of `resource_quantity` over the entries of type `t` in `active_jobs`. -/
def units (s : LocalNode) (t : Resource) : Nat := (s.held.map (ElemActiveJob.unitsOf t)).sum

def accounted (s : LocalNode) (t : Resource) : Nat := (s.avail t).toNat + s.units t

/-- The quantity reserved under the key `(jobId, socket, t)`. -/
def reserved (s : LocalNode) (jobId socket : UInt32) (t : Resource) : Nat :=
  match s.activeJobs.buscar ⟨jobId, socket, 0, t⟩ with
  | none => 0
  | some job => job.resourceQuantity.toNat

/-- Nothing is promised twice: the available and the reserved units fit in the total. -/
def Committed (s : LocalNode) : Prop := ∀ t, s.accounted t ≤ (s.total t).toNat

/-! ## The three writes -/

section Writes

variable (s : LocalNode) (id socket q : UInt32) (t u : Resource) (job key : ElemActiveJob)
  (queue : List ElemJobRequest)

@[simp] theorem queue_take :
    (s.take id socket q t).resources.requestQueue = s.resources.requestQueue := rfl

@[simp] theorem avail_take : (s.take id socket q t).resources.avail u =
    if u = t then s.resources.avail t - q else s.resources.avail u := by
  simp [take, Function.update_apply]

@[simp] theorem activeJobs_take :
    (s.take id socket q t).activeJobs = s.activeJobs.insertar ⟨id, socket, q, t⟩ := rfl

@[simp] theorem avail_giveBack : (s.giveBack job key).resources.avail u =
    if u = job.resourceType then s.resources.avail job.resourceType + job.resourceQuantity
    else s.resources.avail u := by
  simp [giveBack, Function.update_apply]

@[simp] theorem activeJobs_giveBack :
    (s.giveBack job key).activeJobs = s.activeJobs.eliminar key := rfl

@[simp] theorem queue_setQueue : (s.setQueue t queue).resources.requestQueue u =
    if u = t then queue else s.resources.requestQueue u := by
  simp [setQueue, Function.update_apply]

end Writes

theorem mem_held_take {s : LocalNode} {id socket q : UInt32} {t : Resource}
    {x : ElemActiveJob} : x ∈ (s.take id socket q t).held ↔ x = ⟨id, socket, q, t⟩ ∨
      (x ∈ s.held ∧ ¬(x.jobId = id ∧ x.socket = socket ∧ x.resourceType = t)) := by
  rw [held, activeJobs_take, Tabla.mem_insertar, igual_activeJob]

/-- What disappears with the entry of a key is what was reserved under the key. -/
theorem units_erase (s : LocalNode) (d : ElemActiveJob) (t : Resource) :
    ((erase (Igual activeJobFns) s.held d).map (ElemActiveJob.unitsOf t)).sum +
      (if t = d.resourceType then s.reserved d.jobId d.socket t else 0) = s.units t := by
  have hkey : s.activeJobs.buscar ⟨d.jobId, d.socket, 0, d.resourceType⟩ =
      find (Igual activeJobFns) s.held d := by
    rw [Tabla.buscar_eq_find]
    simp only [find, igual_activeJob]
  cases hf : find (Igual activeJobFns) s.held d with
  | none =>
    rw [erase_of_find_none hf]
    split
    · rename_i ht
      subst ht
      rw [reserved, hkey, hf]
      rfl
    · rfl
  | some x =>
    have hx := igual_activeJob.mp (find_some hf).2
    have hsum := sum_erase Legal.equiv s.activeJobs.distinct (ElemActiveJob.unitsOf t) hf
    rw [units, ← hsum]
    congr 1
    split
    · rename_i ht
      subst ht
      rw [reserved, hkey, hf, ElemActiveJob.unitsOf, if_pos hx.2.2]
    · rename_i ht
      rw [ElemActiveJob.unitsOf, if_neg (fun he => ht (he.symm.trans hx.2.2))]

theorem units_take (s : LocalNode) (id socket q : UInt32) (t u : Resource) :
    (s.take id socket q t).units u + (if u = t then s.reserved id socket u else 0) =
      s.units u + (if u = t then q.toNat else 0) := by
  have hperm := Tabla.datos_insertar s.activeJobs ⟨id, socket, q, t⟩
  have hsum := (hperm.map (ElemActiveJob.unitsOf u)).sum_eq
  have herase : ((erase (Igual activeJobFns) s.activeJobs.datos ⟨id, socket, q, t⟩).map
      (ElemActiveJob.unitsOf u)).sum + (if u = t then s.reserved id socket u else 0) =
        s.units u := units_erase s ⟨id, socket, q, t⟩ u
  rw [List.map_cons, List.sum_cons] at hsum
  have hunits : (s.take id socket q t).units u =
      ((s.activeJobs.insertar ⟨id, socket, q, t⟩).datos.map (ElemActiveJob.unitsOf u)).sum := rfl
  have hnew : ElemActiveJob.unitsOf u ⟨id, socket, q, t⟩ = if u = t then q.toNat else 0 := by
    simp only [ElemActiveJob.unitsOf, eq_comm]
  omega

theorem units_giveBack {s : LocalNode} {job key : ElemActiveJob}
    (h : s.activeJobs.buscar key = some job) (u : Resource) :
    (s.giveBack job key).units u + ElemActiveJob.unitsOf u job = s.units u := by
  rw [Tabla.buscar_eq_find] at h
  have hsum := sum_erase Legal.equiv s.activeJobs.distinct (ElemActiveJob.unitsOf u) h
  rw [units, held, activeJobs_giveBack, Tabla.datos_eliminar]
  exact hsum

/-- `avail -= q` is exact when `q` units are there. -/
theorem avail_take_toNat {s : LocalNode} {q : UInt32} {t : Resource} (h : q ≤ s.avail t)
    (id socket : UInt32) (u : Resource) :
    ((s.take id socket q t).avail u).toNat + (if u = t then q.toNat else 0) =
      (s.avail u).toNat := by
  have hle : q.toNat ≤ (s.avail t).toNat := UInt32.le_iff_toNat_le.mp h
  by_cases hu : u = t
  · subst hu
    rw [avail, avail_take, if_pos rfl, if_pos rfl, UInt32.toNat_sub_of_le _ _ h]
    omega
  · rw [avail, avail_take, if_neg hu, if_neg hu]
    rfl

/-- `avail += quantity` is exact when the sum is at most the total. -/
theorem avail_giveBack_toNat {s : LocalNode} {job : ElemActiveJob}
    (h : (s.avail job.resourceType).toNat + job.resourceQuantity.toNat ≤
      (s.total job.resourceType).toNat) (key : ElemActiveJob) (u : Resource) :
    ((s.giveBack job key).avail u).toNat =
      (s.avail u).toNat + ElemActiveJob.unitsOf u job := by
  by_cases hu : job.resourceType = u
  · subst hu
    have hlt := (s.total job.resourceType).toNat_lt
    rw [avail, avail_giveBack, if_pos rfl, ElemActiveJob.unitsOf, if_pos rfl, UInt32.toNat_add]
    exact Nat.mod_eq_of_lt (Nat.lt_of_le_of_lt h hlt)
  · rw [avail, avail_giveBack, if_neg (Ne.symm hu), ElemActiveJob.unitsOf, if_neg hu]
    rfl

/-- A grant keeps the account up to the reservation that it overwrites. -/
theorem accounted_take {s : LocalNode} {q : UInt32} {t : Resource} (h : q ≤ s.avail t)
    (id socket : UInt32) (u : Resource) :
    (s.take id socket q t).accounted u + (if u = t then s.reserved id socket u else 0) =
      s.accounted u := by
  have hunits := units_take s id socket q t u
  have havail := avail_take_toNat h id socket u
  unfold accounted
  omega

/-- The reservation found under a key fits in what is missing. -/
theorem Committed.room {s : LocalNode} (hs : s.Committed) {job key : ElemActiveJob}
    (h : s.activeJobs.buscar key = some job) :
    (s.avail job.resourceType).toNat + job.resourceQuantity.toNat ≤
      (s.total job.resourceType).toNat := by
  have hunits := units_giveBack h job.resourceType
  rw [ElemActiveJob.unitsOf, if_pos rfl] at hunits
  have := hs job.resourceType
  unfold accounted at this
  omega

theorem accounted_giveBack {s : LocalNode} (hs : s.Committed) {job key : ElemActiveJob}
    (h : s.activeJobs.buscar key = some job) (u : Resource) :
    (s.giveBack job key).accounted u = s.accounted u := by
  have hunits := units_giveBack h u
  have havail := avail_giveBack_toNat (hs.room h) key u
  unfold accounted
  omega

/-! ## Moves -/

/-- A write of the inventory whose subtraction does not underflow and whose addition does
not exceed the total. -/
inductive Move : LocalNode → LocalNode → Prop
  | setQueue (s t queue) : Move s (s.setQueue t queue)
  | take (s id socket q t) (h : q ≤ s.avail t) : Move s (s.take id socket q t)
  | giveBack (s job key) (h : s.activeJobs.buscar key = some job)
      (hroom : (s.avail job.resourceType).toNat + job.resourceQuantity.toNat ≤
        (s.total job.resourceType).toNat) : Move s (s.giveBack job key)

/-- A sequence of moves. -/
abbrev Moves : LocalNode → LocalNode → Prop := Relation.ReflTransGen Move

theorem Move.total {s s' : LocalNode} (h : Move s s') (t : Resource) : s'.total t = s.total t := by
  cases h <;> rfl

theorem Move.committed {s s' : LocalNode} (h : Move s s') (hs : s.Committed) :
    s'.Committed := by
  intro t
  have ht := hs t
  cases h with
  | setQueue => exact ht
  | take id socket q u hq =>
    have := accounted_take hq id socket t
    show _ ≤ (s.total t).toNat
    omega
  | giveBack job key hfind _ =>
    rw [accounted_giveBack hs hfind]
    exact ht

theorem Moves.total {s s' : LocalNode} (h : Moves s s') (t : Resource) :
    s'.total t = s.total t := by
  induction h with
  | refl => rfl
  | tail _ hmove ih => rw [hmove.total t, ih]

theorem Moves.committed {s s' : LocalNode} (h : Moves s s') (hs : s.Committed) :
    s'.Committed := by
  induction h with
  | refl => exact hs
  | tail _ hmove ih => exact hmove.committed ih

end LocalNode

end ResourceManager
