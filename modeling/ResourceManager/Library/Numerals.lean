import Mathlib.Tactic

/-!
# Decimal numerals

`Decimal digits n` says that `digits` is `n` written in base ten, possibly with leading
zeros. `Nat.toDigits 10 n` is such a numeral (`decimal_toDigits`). The lemmas are what a
reader of numerals needs: its digits are told apart from what follows them and from any
other character, and a reader that takes numbers as C writes them reads back what has been
printed (`cNumber_toDigits`).
-/

namespace ResourceManager.Library.Numerals

/-- `digits` is a decimal numeral for `n`, without a sign. -/
structure Decimal (digits : List Char) (n : ℕ) : Prop where
  ne_nil : digits ≠ []
  isDigit : ∀ c ∈ digits, c.isDigit = true
  value : Nat.ofDigitChars 10 digits 0 = n

theorem decimal_toDigits (n : ℕ) : Decimal (Nat.toDigits 10 n) n where
  ne_nil := Nat.toDigits_ne_nil
  isDigit := fun _ hc => Nat.isDigit_of_mem_toDigits (by decide) (by decide) hc
  value := Nat.ofDigitChars_ten_toDigits

theorem isDigit_iff {c : Char} : c.isDigit = true ↔ 48 ≤ c.toNat ∧ c.toNat ≤ 57 := by
  simp only [Char.isDigit, Bool.and_eq_true, decide_eq_true_eq]
  exact Iff.rfl

namespace Decimal

variable {digits : List Char} {n : ℕ}

/-- A numeral starts with a digit. -/
theorem exists_cons (h : Decimal digits n) :
    ∃ c cs, digits = c :: cs ∧ c.isDigit = true := by
  obtain ⟨c, cs, rfl⟩ := List.exists_cons_of_ne_nil h.ne_nil
  exact ⟨c, cs, rfl, h.isDigit c List.mem_cons_self⟩

theorem notMem (h : Decimal digits n) {c : Char} (hc : c.isDigit = false) : c ∉ digits := by
  intro hmem
  rw [h.isDigit c hmem] at hc
  cases hc

theorem takeWhile_isDigit (h : Decimal digits n) {rest : List Char}
    (hrest : ∀ c ∈ rest.head?, c.isDigit = false) :
    (digits ++ rest).takeWhile Char.isDigit = digits := by
  rw [List.takeWhile_append_of_pos h.isDigit]
  cases rest with
  | nil => simp
  | cons c rest =>
    rw [List.takeWhile_cons_of_neg, List.append_nil]
    simp [hrest c rfl]

theorem dropWhile_isDigit (h : Decimal digits n) {rest : List Char}
    (hrest : ∀ c ∈ rest.head?, c.isDigit = false) :
    (digits ++ rest).dropWhile Char.isDigit = rest := by
  rw [List.dropWhile_append_of_pos h.isDigit]
  cases rest with
  | nil => rfl
  | cons c rest =>
    rw [List.dropWhile_cons_of_neg]
    simp [hrest c rfl]

end Decimal

/-! ## Numbers as C writes them -/

/-- The value of a digit, in bases up to 16. -/
def digitValue (c : Char) : ℕ :=
  if c.isDigit then c.toNat - 48
  else if 97 ≤ c.toNat ∧ c.toNat ≤ 102 then c.toNat - 87
  else if 65 ≤ c.toNat ∧ c.toNat ≤ 70 then c.toNat - 55
  else 16

/-- A number without a sign in the given base. -/
def number (base : ℕ) (digits : List Char) : Option ℕ :=
  if digits ≠ [] ∧ digits.all fun c => decide (digitValue c < base) then
    some (digits.foldl (fun n c => base * n + digitValue c) 0)
  else none

/-- A number in hexadecimal, octal or decimal, which its first characters tell apart. -/
def cNumber (s : List Char) : Option ℕ :=
  match s with
  | '0' :: 'x' :: digits => number 16 digits
  | '0' :: 'X' :: digits => number 16 digits
  | '0' :: d :: digits => number 8 (d :: digits)
  | digits => number 10 digits

theorem digitValue_of_isDigit {c : Char} (h : c.isDigit = true) :
    digitValue c = c.toNat - 48 ∧ digitValue c < 10 := by
  have hc := isDigit_iff.mp h
  rw [digitValue, if_pos h]
  omega

theorem number_decimal {s : List Char} {n : ℕ} (h : Decimal s n) : number 10 s = some n := by
  have hfold : ∀ (l : List Char) (k : ℕ), (∀ c ∈ l, c.isDigit = true) →
      l.foldl (fun n c => 10 * n + digitValue c) k = Nat.ofDigitChars 10 l k := by
    intro l
    induction l with
    | nil => exact fun _ _ => rfl
    | cons c l ih =>
      intro k hl
      rw [List.foldl_cons, ih _ fun x hx => hl x (List.mem_cons_of_mem _ hx),
        (digitValue_of_isDigit (hl c List.mem_cons_self)).1]
      rfl
  have hall : s.all fun c => decide (digitValue c < 10) := by
    rw [List.all_eq_true]
    exact fun c hc => decide_eq_true (digitValue_of_isDigit (h.isDigit c hc)).2
  rw [number, if_pos ⟨h.ne_nil, hall⟩, hfold s 0 h.isDigit, h.value]

/-- The first digit of a positive number. -/
theorem head?_toDigits {n : ℕ} (h : 0 < n) : (Nat.toDigits 10 n).head? ≠ some '0' := by
  induction n using Nat.strongRecOn with
  | ind n ih =>
    by_cases hlt : n < 10
    · rw [Nat.toDigits_of_lt_base hlt]
      interval_cases n <;> decide
    · rw [Nat.toDigits_of_base_le (by decide) (by omega), List.head?_append_of_ne_nil]
      · exact ih (n / 10) (by omega) (by omega)
      · exact Nat.toDigits_ne_nil

theorem cNumber_toDigits (n : ℕ) : cNumber (Nat.toDigits 10 n) = some n := by
  have hnumber := number_decimal (decimal_toDigits n)
  rcases Nat.eq_zero_or_pos n with rfl | hpos
  · rfl
  · have hhead := head?_toDigits hpos
    unfold cNumber
    split
    · rename_i heq
      rw [heq] at hhead
      exact absurd rfl hhead
    · rename_i heq
      rw [heq] at hhead
      exact absurd rfl hhead
    · rename_i heq
      rw [heq] at hhead
      exact absurd rfl hhead
    · exact hnumber

/-- A printed number is one part of a text split at another character than a digit. -/
theorem splitOnP_toDigits {sep : Char} (hsep : sep.isDigit = false) (n : ℕ) (rest : List Char) :
    (Nat.toDigits 10 n ++ sep :: rest).splitOnP (fun c => c == sep) =
      Nat.toDigits 10 n :: rest.splitOnP fun c => c == sep := by
  refine List.splitOnP_append_cons_of_forall_mem (fun c hc => ?_) sep (by simp) rest
  rw [beq_eq_false_iff_ne]
  rintro rfl
  exact (decimal_toDigits n).notMem hsep hc

theorem splitOnP_toDigits_end {sep : Char} (hsep : sep.isDigit = false) (n : ℕ) :
    (Nat.toDigits 10 n).splitOnP (fun c => c == sep) = [Nat.toDigits 10 n] := by
  refine List.splitOnP_eq_singleton fun c hc => ?_
  rw [beq_eq_false_iff_ne]
  rintro rfl
  exact (decimal_toDigits n).notMem hsep hc

end ResourceManager.Library.Numerals
