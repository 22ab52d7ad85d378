import Mathlib.Tactic
import Mathlib.Data.List.Perm.Subperm

/-!
# What a bounded log keeps

A log of capacity `n` keeps the first `n` entries of what is written to it. The entries of
a kind `p` are all kept exactly when none of them comes later, whatever entries of other
kinds are added afterwards. A collection of capacity `n` takes the first `n` entries of a
kind, and all of them exactly when there are no more.
-/

namespace ResourceManager.Library.BoundedLog

variable {α : Type*}

theorem filter_subperm_take_append {p : α → Bool} {l extra : List α} {n : Nat}
    (hextra : extra.countP p = 0) :
    (l.filter p).Subperm (l.take n ++ extra) ↔ ∀ x ∈ l.drop n, p x = false := by
  have hsplit : l.filter p = (l.take n).filter p ++ (l.drop n).filter p := by
    rw [← List.filter_append, List.take_append_drop]
  have hself : ∀ l' : List α, (l'.filter p).countP p = l'.countP p := by
    intro l'
    rw [List.countP_filter]
    exact List.countP_congr (by simp)
  constructor
  · intro h x hx
    have hle := h.countP_le p
    rw [hsplit, List.countP_append, List.countP_append, hextra, hself, hself] at hle
    have hzero : (l.drop n).countP p = 0 := by omega
    simpa using List.countP_eq_zero.mp hzero x hx
  · intro h
    have hnil : (l.drop n).filter p = [] := by
      rw [List.filter_eq_nil_iff]
      exact fun x hx => by simp [h x hx]
    rw [hsplit, hnil, List.append_nil]
    exact (List.filter_sublist.trans (List.sublist_append_left _ _)).subperm

theorem mem_drop_iff {l : List α} (hnd : l.Nodup) {n : Nat} {x : α} :
    x ∈ l.drop n ↔ x ∈ l ∧ x ∉ l.take n := by
  constructor
  · intro hx
    exact ⟨List.mem_of_mem_drop hx, fun htake => List.disjoint_take_drop hnd le_rfl htake hx⟩
  · rintro ⟨hx, hnot⟩
    rw [← List.take_append_drop n l, List.mem_append] at hx
    exact hx.resolve_left hnot

/-- The first `n` entries of a kind are all of them exactly when there are at most `n`. -/
theorem filter_take_all_iff {p : α → Bool} {l : List α} (hnd : l.Nodup) {n : Nat} :
    (∀ x ∈ l, x ∉ (l.filter p).take n → p x = false) ↔ (l.filter p).length ≤ n := by
  constructor
  · intro hall
    by_contra hlen
    obtain ⟨x, hx⟩ : ∃ x, x ∈ (l.filter p).drop n := by
      apply List.exists_mem_of_length_pos
      rw [List.length_drop]
      omega
    obtain ⟨hx, hnot⟩ := (mem_drop_iff (hnd.filter p)).mp hx
    obtain ⟨hmem, hp⟩ := List.mem_filter.mp hx
    rw [hall x hmem hnot] at hp
    cases hp
  · intro hlen x hx hnot
    rw [List.take_of_length_le hlen, List.mem_filter, not_and] at hnot
    exact Bool.eq_false_of_not_eq_true (hnot hx)

end ResourceManager.Library.BoundedLog
