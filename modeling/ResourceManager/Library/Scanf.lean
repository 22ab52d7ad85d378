import ResourceManager.Library.Numerals

/-!
# Formatted input of the C library

`sscanf` and `atoi` on a text without NUL, for the conversions `%u`, `%s`, `%ns` and
`%n[^c]`. A number is read as `strtoul` and `strtol` read it: white space, a sign, digits;
out of the range of 64 bits it is replaced by the nearest bound, and then it is cut to the
32 bits of the variable. A decimal numeral of a number of 32 bits is read as that number.
-/

namespace ResourceManager.Library.Scanf

open Numerals

/-- `isspace`. -/
def isSpace (c : Char) : Bool := c == ' ' || (9 ≤ c.toNat && c.toNat ≤ 13)

/-- A numeral at the start of `s`: whether its sign is `-`, its digits, and the rest. -/
def readNumeral (s : List Char) : Option (Bool × List Char × List Char) :=
  let (negative, s) := match s with
    | '-' :: s => (true, s)
    | '+' :: s => (false, s)
    | s => (false, s)
  match s.takeWhile Char.isDigit with
  | [] => none
  | digits => some (negative, digits, s.dropWhile Char.isDigit)

/-- The value of `strtoul` for a numeral with the absolute value `n`. -/
def strtoul (negative : Bool) (n : ℕ) : ℕ :=
  if 2 ^ 64 ≤ n then 2 ^ 64 - 1 else if negative then (2 ^ 64 - n) % 2 ^ 64 else n

/-- The value of `strtol` for a numeral with the absolute value `n`. -/
def strtol (negative : Bool) (n : ℕ) : ℤ :=
  if negative then max (-2 ^ 63) (-n) else min (2 ^ 63 - 1) n

/-- The conversion `%u`, after the white space. -/
def readUnsigned (s : List Char) : Option (UInt32 × List Char) :=
  match readNumeral s with
  | none => none
  | some (negative, digits, rest) =>
    some (UInt32.ofNat (strtoul negative (Nat.ofDigitChars 10 digits 0)), rest)

/-- `(unsigned) atoi(s)`. -/
def atoiUnsigned (s : List Char) : UInt32 :=
  match readNumeral (s.dropWhile isSpace) with
  | none => 0
  | some (negative, digits, _) =>
    UInt32.ofInt (strtol negative (Nat.ofDigitChars 10 digits 0))

/-! ## Formats -/

inductive Directive where
  /-- White space of the format. -/
  | space
  /-- Any other character of the format. -/
  | char (c : Char)
  /-- `%u` -/
  | unsigned
  /-- `%s`, or with a width `%ns` -/
  | word (width : Option ℕ)
  /-- `%n[^c]` -/
  | until (stop : Char) (width : ℕ)

/-- The characters of a format that stand for themselves. -/
def literal (text : List Char) : List Directive := text.map .char

/-- A value that has been converted. -/
inductive Item where
  | num (n : UInt32)
  | str (s : List Char)
deriving DecidableEq

/-- The values that `sscanf` converts before it ends or fails. -/
def sscanf : List Directive → List Char → List Item
  | [], _ => []
  | .space :: format, s => sscanf format (s.dropWhile isSpace)
  | .char c :: format, s =>
    match s with
    | [] => []
    | d :: s => if d = c then sscanf format s else []
  | .unsigned :: format, s =>
    match readUnsigned (s.dropWhile isSpace) with
    | none => []
    | some (n, s) => .num n :: sscanf format s
  | .word width :: format, s =>
    let s := s.dropWhile isSpace
    let full := s.takeWhile fun c => !isSpace c
    match full.take (width.getD full.length) with
    | [] => []
    | field => .str field :: sscanf format (s.drop field.length)
  | .until stop width :: format, s =>
    match (s.takeWhile fun c => c != stop).take width with
    | [] => []
    | field => .str field :: sscanf format (s.drop field.length)

/-! ## Numerals -/

theorem isSpace_of_isDigit {c : Char} (h : c.isDigit = true) : isSpace c = false := by
  have hc := isDigit_iff.mp h
  have hne : c ≠ ' ' := by
    rintro rfl
    exact absurd h (by decide)
  simp only [isSpace, Bool.or_eq_false_iff, beq_eq_false_iff_ne, Bool.and_eq_false_iff,
    decide_eq_false_iff_not]
  exact ⟨hne, Or.inr (by omega)⟩

section Numerals

variable {digits : List Char}

theorem dropWhile_isSpace {n : ℕ} (h : Decimal digits n) (rest : List Char) :
    (digits ++ rest).dropWhile isSpace = digits ++ rest := by
  obtain ⟨c, cs, rfl, hc⟩ := h.exists_cons
  rw [List.cons_append, List.dropWhile_cons_of_neg]
  simp [isSpace_of_isDigit hc]

theorem readNumeral_decimal {n : ℕ} (h : Decimal digits n) {rest : List Char}
    (hrest : ∀ c ∈ rest.head?, c.isDigit = false) :
    readNumeral (digits ++ rest) = some (false, digits, rest) := by
  have htake := h.takeWhile_isDigit hrest
  have hdrop := h.dropWhile_isDigit hrest
  obtain ⟨c, cs, rfl, hc⟩ := h.exists_cons
  rw [List.cons_append] at htake hdrop
  rw [List.cons_append]
  unfold readNumeral
  split
  rename_i negative s hs
  split at hs
  · rename_i hsign
    rw [List.cons.injEq] at hsign
    rw [hsign.1] at hc
    exact absurd hc (by decide)
  · rename_i hsign
    rw [List.cons.injEq] at hsign
    rw [hsign.1] at hc
    exact absurd hc (by decide)
  · rw [Prod.mk.injEq] at hs
    obtain ⟨rfl, rfl⟩ := hs
    rw [htake, hdrop]

/-- `%u` reads a numeral of 32 bits. -/
theorem readUnsigned_decimal {n : UInt32} (h : Decimal digits n.toNat) {rest : List Char}
    (hrest : ∀ c ∈ rest.head?, c.isDigit = false) :
    readUnsigned (digits ++ rest) = some (n, rest) := by
  have hlt : n.toNat < 2 ^ 32 := n.toNat_lt
  have hvalue : strtoul false (Nat.ofDigitChars 10 digits 0) = n.toNat := by
    rw [h.value, strtoul, if_neg (by omega), if_neg (by decide)]
  rw [readUnsigned, readNumeral_decimal h hrest]
  dsimp only
  rw [hvalue, UInt32.ofNat_toNat]

theorem readNumeral_negative {n : ℕ} (h : Decimal digits n) {rest : List Char}
    (hrest : ∀ c ∈ rest.head?, c.isDigit = false) :
    readNumeral ('-' :: (digits ++ rest)) = some (true, digits, rest) := by
  have htake := h.takeWhile_isDigit hrest
  have hdrop := h.dropWhile_isDigit hrest
  obtain ⟨c, cs, rfl, hc⟩ := h.exists_cons
  show (match ((c :: cs) ++ rest).takeWhile Char.isDigit with
    | [] => none
    | digits => some (true, digits, ((c :: cs) ++ rest).dropWhile Char.isDigit)) = _
  rw [htake, hdrop]

/-- `%u` wraps a negative number around. -/
theorem readUnsigned_negative {n : ℕ} (h : Decimal digits n) (hpos : 0 < n)
    (hle : n ≤ 2 ^ 31) {rest : List Char} (hrest : ∀ c ∈ rest.head?, c.isDigit = false) :
    readUnsigned ('-' :: (digits ++ rest)) = some (UInt32.ofInt (-n), rest) := by
  have hvalue : strtoul true (Nat.ofDigitChars 10 digits 0) = 2 ^ 64 - n := by
    rw [h.value, strtoul, if_neg (by omega), if_pos rfl, Nat.mod_eq_of_lt (by omega)]
  rw [readUnsigned, readNumeral_negative h hrest]
  dsimp only
  rw [hvalue]
  congr 2
  apply UInt32.toNat_inj.mp
  rw [UInt32.ofInt, UInt32.toNat_ofNat', UInt32.toNat_ofNat']
  omega

/-- `atoi` reads a numeral of 32 bits. -/
theorem atoiUnsigned_decimal {n : UInt32} (h : Decimal digits n.toNat) :
    atoiUnsigned digits = n := by
  have hlt : n.toNat < 2 ^ 32 := n.toNat_lt
  have hspace := dropWhile_isSpace h []
  have hread : readNumeral (digits ++ []) = some (false, digits, []) :=
    readNumeral_decimal h fun c hc => by cases hc
  rw [List.append_nil] at hspace hread
  have hvalue : strtol false (Nat.ofDigitChars 10 digits 0) = n.toNat := by
    rw [h.value, strtol, if_neg Bool.false_ne_true]
    omega
  have hmod : ((n.toNat : ℤ) % 2 ^ 32).toNat = n.toNat := by omega
  rw [atoiUnsigned, hspace, hread]
  dsimp only
  rw [hvalue, UInt32.ofInt, hmod, UInt32.ofNat_toNat]

end Numerals

/-! ## Scanning what matches -/

theorem sscanf_literal (text : List Char) (format : List Directive) (s : List Char) :
    sscanf (literal text ++ format) (text ++ s) = sscanf format s := by
  induction text with
  | nil => rfl
  | cons c text ih => simpa [literal, sscanf] using ih

theorem sscanf_unsigned {digits : List Char} {n : UInt32} (h : Decimal digits n.toNat)
    (format : List Directive) {rest : List Char} (hrest : ∀ c ∈ rest.head?, c.isDigit = false) :
    sscanf (.unsigned :: format) (digits ++ rest) = .num n :: sscanf format rest := by
  rw [sscanf, dropWhile_isSpace h, readUnsigned_decimal h hrest]

theorem sscanf_until {field : List Char} {stop : Char} {width : ℕ} (hne : field ≠ [])
    (hstop : stop ∉ field) (hwidth : field.length ≤ width) (format : List Directive)
    (rest : List Char) :
    sscanf (.until stop width :: format) (field ++ stop :: rest) =
      .str field :: sscanf format (stop :: rest) := by
  have htake : (field ++ stop :: rest).takeWhile (fun c => c != stop) = field := by
    rw [List.takeWhile_append_of_pos fun c hc => by
      rw [bne_iff_ne]
      rintro rfl
      exact hstop hc]
    simp
  rw [sscanf, htake, List.take_of_length_le hwidth]
  obtain ⟨c, cs, rfl⟩ := List.exists_cons_of_ne_nil hne
  simp

theorem sscanf_word {field : List Char} {width : Option ℕ} (hne : field ≠ [])
    (hspace : ∀ c ∈ field, isSpace c = false) (hwidth : ∀ n ∈ width, field.length ≤ n)
    (format : List Directive) {rest : List Char} (hrest : ∀ c ∈ rest.head?, isSpace c = true) :
    sscanf (.word width :: format) (field ++ rest) = .str field :: sscanf format rest := by
  have htake : (field ++ rest).takeWhile (fun c => !isSpace c) = field := by
    rw [List.takeWhile_append_of_pos fun c hc => by rw [hspace c hc]; rfl]
    cases rest with
    | nil => rw [List.takeWhile_nil, List.append_nil]
    | cons c rest =>
      rw [List.takeWhile_cons_of_neg, List.append_nil]
      rw [hrest c rfl]
      exact Bool.false_ne_true
  have hdrop : (field ++ rest).dropWhile isSpace = field ++ rest := by
    obtain ⟨c, cs, rfl⟩ := List.exists_cons_of_ne_nil hne
    rw [List.cons_append, List.dropWhile_cons_of_neg]
    rw [hspace c List.mem_cons_self]
    exact Bool.false_ne_true
  have hfull : field.take (width.getD field.length) = field := by
    cases width with
    | none => exact List.take_length
    | some n => exact List.take_of_length_le (hwidth n rfl)
  rw [sscanf, hdrop, htake, hfull]
  obtain ⟨c, cs, rfl⟩ := List.exists_cons_of_ne_nil hne
  simp

end ResourceManager.Library.Scanf
