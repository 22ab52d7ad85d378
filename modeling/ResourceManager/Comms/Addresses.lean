import ResourceManager.Library.Numerals
import ResourceManager.Resources.Types

/-!
# IPv4 addresses

`inet_ntoa` and `inet_addr` as `sys_socket.c` uses them. The text that `inet_ntoa` makes of
an address stands for this address (`inetAddr_inetNtoa`); other texts may stand for it too.
-/

namespace ResourceManager

open Library.Numerals

/-- `inet_ntoa`. -/
def inetNtoa (a b c d : UInt8) : Ip where
  text := Nat.toDigits 10 a.toNat ++ '.' :: (Nat.toDigits 10 b.toNat ++ '.' ::
    (Nat.toDigits 10 c.toNat ++ '.' :: Nat.toDigits 10 d.toNat))
  fits := by
    have hlen : ∀ n : UInt8, (Nat.toDigits 10 n.toNat).length ≤ 3 := fun n =>
      (Nat.length_toDigits_le_iff (by decide) (by decide)).mpr (by have := n.toNat_lt; omega)
    have := hlen a
    have := hlen b
    have := hlen c
    have := hlen d
    simp only [List.length_append, List.length_cons]
    omega

theorem text_inetNtoa (a b c d : UInt8) : (inetNtoa a b c d).text =
    Nat.toDigits 10 a.toNat ++ '.' :: (Nat.toDigits 10 b.toNat ++ '.' ::
      (Nat.toDigits 10 c.toNat ++ '.' :: Nat.toDigits 10 d.toNat)) := rfl

/-- The text of an IPv4 address. -/
def DottedQuad (ip : Ip) : Prop := ∃ a b c d : UInt8, ip = inetNtoa a b c d

/-- An address consists of digits and dots. -/
theorem mem_inetNtoa {a b c d : UInt8} {x : Char} (h : x ∈ (inetNtoa a b c d).text) :
    x.isDigit = true ∨ x = '.' := by
  simp only [text_inetNtoa, List.mem_append, List.mem_cons] at h
  have hdigit : ∀ n : UInt8, x ∈ Nat.toDigits 10 n.toNat → x.isDigit = true :=
    fun n => (decimal_toDigits n.toNat).isDigit x
  rcases h with h | h | h | h | h | h | h
  · exact Or.inl (hdigit a h)
  · exact Or.inr h
  · exact Or.inl (hdigit b h)
  · exact Or.inr h
  · exact Or.inl (hdigit c h)
  · exact Or.inr h
  · exact Or.inl (hdigit d h)

/-- The number of an address, its first byte being the most significant one. -/
def addrOfBytes (a b c d : UInt8) : ℕ :=
  ((a.toNat * 256 + b.toNat) * 256 + c.toNat) * 256 + d.toNat

/-- `INADDR_NONE`. -/
def inaddrNone : ℕ := 2 ^ 32 - 1

/-- `inet_addr`, in host order. With fewer than four parts the last one fills the bytes that
are left. -/
def inetAddr (ip : Ip) : ℕ :=
  match (ip.text.splitOnP fun c => c == '.').mapM cNumber with
  | some [a, b, c, d] =>
    if a < 256 ∧ b < 256 ∧ c < 256 ∧ d < 256 then ((a * 256 + b) * 256 + c) * 256 + d
    else inaddrNone
  | some [a, b, c] => if a < 256 ∧ b < 256 ∧ c < 2 ^ 16 then (a * 256 + b) * 2 ^ 16 + c else inaddrNone
  | some [a, b] => if a < 256 ∧ b < 2 ^ 24 then a * 2 ^ 24 + b else inaddrNone
  | some [a] => if a < 2 ^ 32 then a else inaddrNone
  | _ => inaddrNone

/-- The four fields of a printed address. -/
theorem mapM_cNumber_inetNtoa (a b c d : UInt8) :
    ((inetNtoa a b c d).text.splitOnP fun c => c == '.').mapM cNumber =
      some [a.toNat, b.toNat, c.toNat, d.toNat] := by
  have hdot : Char.isDigit '.' = false := by decide
  rw [text_inetNtoa, splitOnP_toDigits hdot, splitOnP_toDigits hdot, splitOnP_toDigits hdot,
    splitOnP_toDigits_end hdot]
  simp only [List.mapM_cons, List.mapM_nil, cNumber_toDigits]
  rfl

theorem inetAddr_inetNtoa (a b c d : UInt8) :
    inetAddr (inetNtoa a b c d) = addrOfBytes a b c d := by
  rw [inetAddr, mapM_cNumber_inetNtoa]
  exact if_pos ⟨a.toNat_lt, b.toNat_lt, c.toNat_lt, d.toNat_lt⟩

end ResourceManager
