import Mathlib.Data.List.Basic
import Mathlib.Tactic.Common

/-!
# Permits

A log, the last entry first, in which some entries open a permit, some use it up and some
revoke it: `mark` says which. The permit is open when the last marked entry has opened it.
A log is lawful when every use finds the permit open. Then there are at most as many uses as
openings, and after a revocation there is none until the permit is opened again.
-/

namespace ResourceManager.Library.Permits

inductive Mark where
  | opens
  | uses
  | revokes
deriving DecidableEq

variable {ω : Type*} (mark : ω → Option Mark)

/-- The last marked entry has opened the permit. -/
def IsOpen (log : List ω) : Prop := log.findSome? mark = some .opens

/-- Every use finds the permit open. -/
def Lawful : List ω → Prop
  | [] => True
  | o :: log => (mark o = some .uses → IsOpen mark log) ∧ Lawful log

/-- The number of entries with a mark. -/
def count (m : Mark) (log : List ω) : ℕ := log.countP fun o => mark o = some m

variable {mark} {o : ω} {m m' : Mark} {log log' : List ω}

/-! ## The next entry -/

theorem isOpen_cons_of_none (h : mark o = none) : IsOpen mark (o :: log) ↔ IsOpen mark log := by
  rw [IsOpen, List.findSome?_cons_of_isNone (by rw [h]; rfl), IsOpen]

theorem isOpen_cons_of_some (h : mark o = some m) : IsOpen mark (o :: log) ↔ m = .opens := by
  rw [IsOpen, List.findSome?_cons, h, Option.some.injEq]

theorem count_cons_of_eq (h : mark o = some m) : count mark m (o :: log) = count mark m log + 1 :=
  List.countP_cons_of_pos (decide_eq_true h)

theorem count_cons_of_ne (h : mark o ≠ some m) : count mark m (o :: log) = count mark m log :=
  List.countP_cons_of_neg (by simpa using h)

theorem count_cons_of_none (h : mark o = none) : count mark m (o :: log) = count mark m log := by
  apply count_cons_of_ne
  rw [h]
  exact (Option.some_ne_none m).symm

theorem count_cons_of_some_ne (h : mark o = some m') (hne : m' ≠ m) :
    count mark m (o :: log) = count mark m log := by
  apply count_cons_of_ne
  rw [h]
  exact fun he => hne (Option.some.inj he)

theorem Lawful.of_append : ∀ {log : List ω}, Lawful mark (log ++ log') → Lawful mark log'
  | [], h => h
  | _ :: _, h => Lawful.of_append h.2

/-! ## What a lawful log says -/

/-- An open permit has been opened once more than it has been used. -/
theorem Lawful.uses_le (h : Lawful mark log) : count mark .uses log ≤ count mark .opens log ∧
    (IsOpen mark log → count mark .uses log < count mark .opens log) := by
  induction log with
  | nil =>
    refine ⟨Nat.le_refl 0, fun hopen => ?_⟩
    cases hopen
  | cons o log ih =>
    obtain ⟨hle, hlt⟩ := ih h.2
    rcases hmark : mark o with _ | m
    · rw [count_cons_of_none hmark, count_cons_of_none hmark, isOpen_cons_of_none hmark]
      exact ⟨hle, hlt⟩
    · rw [isOpen_cons_of_some hmark]
      cases m with
      | opens =>
        rw [count_cons_of_eq hmark, count_cons_of_some_ne hmark (by decide)]
        omega
      | uses =>
        have hopen := hlt (h.1 hmark)
        rw [count_cons_of_eq hmark, count_cons_of_some_ne hmark (by decide)]
        refine ⟨hopen, ?_⟩
        rintro ⟨⟩
      | revokes =>
        rw [count_cons_of_some_ne hmark (by decide), count_cons_of_some_ne hmark (by decide)]
        refine ⟨hle, ?_⟩
        rintro ⟨⟩

variable {after mid before : List ω} {u c : ω}

theorem Lawful.isOpen_of_uses (h : Lawful mark (after ++ u :: before)) (hu : mark u = some .uses) :
    IsOpen mark before :=
  h.of_append.1 hu

/-- A use comes after an opening. -/
theorem Lawful.opened_before (h : Lawful mark (after ++ u :: before))
    (hu : mark u = some .uses) : ∃ p ∈ before, mark p = some .opens :=
  List.exists_of_findSome?_eq_some (h.isOpen_of_uses hu)

/-- A use after a revocation comes after a new opening. -/
theorem Lawful.reopened (h : Lawful mark (after ++ u :: (mid ++ c :: before)))
    (hu : mark u = some .uses) (hc : mark c = some .revokes) :
    ∃ p ∈ mid, mark p = some .opens := by
  have hopen := h.isOpen_of_uses hu
  rw [IsOpen, List.findSome?_append, List.findSome?_cons, hc] at hopen
  rcases hmid : mid.findSome? mark with _ | m
  · rw [hmid] at hopen
    cases hopen
  · rw [hmid] at hopen
    obtain rfl : m = .opens := Option.some.inj hopen
    exact List.exists_of_findSome?_eq_some hmid

/-- With one opening, nothing is used after a revocation of the opened permit. -/
theorem Lawful.not_opened_of_revoked (h : Lawful mark (after ++ u :: (mid ++ c :: before)))
    (hu : mark u = some .uses) (hc : mark c = some .revokes)
    (honce : count mark .opens (after ++ u :: (mid ++ c :: before)) ≤ 1) :
    ∀ p ∈ before, mark p ≠ some .opens := by
  intro p hp hmark
  obtain ⟨q, hq, hmark'⟩ := h.reopened hu hc
  have hmid : 0 < count mark .opens mid := List.countP_pos_iff.mpr ⟨q, hq, decide_eq_true hmark'⟩
  have hbefore : 0 < count mark .opens before :=
    List.countP_pos_iff.mpr ⟨p, hp, decide_eq_true hmark⟩
  simp only [count, List.countP_append, List.countP_cons] at honce hmid hbefore
  omega

end ResourceManager.Library.Permits
