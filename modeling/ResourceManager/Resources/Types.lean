import Mathlib.Tactic
import Mathlib.Data.List.Lex
import Mathlib.Data.Prod.Lex
import Mathlib.Data.Fintype.Basic

/-!
# Data shared by the modules of the agent

Resource types, addresses, protocol messages and the bounded outbox. A C string is a list
of characters; `Ip` is what fits in a `char ip[16]`, the type of every address buffer of
the agent. The protocol lines are kept in parsed form.
-/

namespace ResourceManager

/-- `resource_t` without `INVALID_RES_TYPE`, which appears as `none`. -/
inductive Resource where
  | cpu
  | gpu
  | ram
deriving DecidableEq

namespace Resource

/-- The numeric value of the enumeration. -/
def toUInt32 : Resource → UInt32
  | cpu => 0
  | gpu => 1
  | ram => 2

/-- `(resource_t) n`, for `n < RES_NUM`. -/
def ofIndex : Nat → Resource
  | 0 => cpu
  | 1 => gpu
  | _ => ram

/-- The values of a loop `for (type = 0; type < RES_NUM; type++)`. -/
def all : List Resource := [cpu, gpu, ram]

theorem mem_all (t : Resource) : t ∈ all := by cases t <;> decide

instance : Fintype Resource := ⟨⟨all, by decide⟩, mem_all⟩

/-- `resource_order` of the scheduler. -/
def order : Resource → Nat
  | cpu => 1
  | ram => 2
  | gpu => 3

end Resource

/-- The text of an IPv4 address: at most 15 characters. -/
structure Ip where
  text : List Char
  fits : text.length ≤ 15
deriving DecidableEq

/-- The address of an agent: its ip and its public port. -/
structure Addr where
  ip : Ip
  port : UInt32
deriving DecidableEq

/-- A line of the protocol, parsed. The number of a `GRANTED` is the integer it is printed
as: queued grants are printed with `%d`. -/
inductive Message where
  | reserve (jobId : UInt32) (type : Resource) (cant : UInt32)
  | granted (jobId : Int)
  | denied (jobId : UInt32)
  | release (jobId : UInt32) (type : Resource) (cant : UInt32)
  | jobGranted (jobId : UInt32)
  | jobDenied (jobId : UInt32)
  | jobTimeout (jobId : UInt32)
  | line (text : List Char)
deriving DecidableEq

/-- The value that `sscanf` stores for `%u` when it reads a printed integer. -/
def scanUnsigned (n : Int) : UInt32 := UInt32.ofInt n

@[simp] theorem scanUnsigned_toNat (n : UInt32) : scanUnsigned (n.toNat : Int) = n := by
  have hlt : n.toNat < 2 ^ 32 := n.toNat_lt
  have he : ((n.toNat : Int) % 2 ^ 32).toNat = n.toNat := by omega
  rw [scanUnsigned, UInt32.ofInt, he, UInt32.ofNat_toNat]

theorem toInt_toInt32_eq_bmod (n : UInt32) : n.toInt32.toInt = (n.toNat : Int).bmod (2 ^ 32) := by
  rw [← Int32.toInt_toBitVec, BitVec.toInt_eq_toNat_bmod]
  rfl

/-- An id printed with `%d` is read back unchanged. -/
@[simp] theorem scanUnsigned_toInt (n : UInt32) : scanUnsigned n.toInt32.toInt = n := by
  have hlt : n.toNat < 2 ^ 32 := n.toNat_lt
  have he : ((n.toNat : Int).bmod (2 ^ 32) % 2 ^ 32).toNat = n.toNat := by
    have := Int.bmod_emod (x := (n.toNat : Int)) (m := 2 ^ 32)
    omega
  rw [scanUnsigned, toInt_toInt32_eq_bmod, UInt32.ofInt, he, UInt32.ofNat_toNat]

/-- An id printed with `%d` is `-1` exactly for the largest id. -/
theorem toInt32_eq_neg_one {n : UInt32} : n.toInt32 = -1 ↔ n = 4294967295 := by
  constructor
  · intro h
    rw [← UInt32.toUInt32_toInt32 n, h]
    rfl
  · rintro rfl
    rfl

/-- Below `2 ^ 31` an id printed with `%d` is the same as with `%u`. -/
theorem toInt_toInt32 {n : UInt32} (h : n < 2147483648) : n.toInt32.toInt = n.toNat := by
  have hlt : n.toNat < 2147483648 := UInt32.lt_iff_toNat_lt.mp h
  rw [toInt_toInt32_eq_bmod]
  exact Int.bmod_eq_of_le (by omega) (by omega)

/-- `out_msg_t`. A `target_fd` of `-1` routes by address; `target_ip` is empty otherwise. -/
structure OutMsg where
  targetIp : Option Ip
  targetPort : UInt32
  targetFd : Int32
  message : Message
deriving DecidableEq

namespace OutMsg

/-- A message routed by descriptor. -/
def toFd (socket : UInt32) (m : Message) : OutMsg := ⟨none, 0, socket.toInt32, m⟩

/-- A message routed by address. -/
def toAddr (ip : Ip) (port : UInt32) (m : Message) : OutMsg := ⟨some ip, port, -1, m⟩

end OutMsg

/-! ## The outbox -/

/-- `MAX_OUTBOX`. -/
def maxOutbox : Nat := 128

/-- `add_to_outbox`. -/
def addToOutbox (outbox : List OutMsg) (m : OutMsg) : List OutMsg :=
  if maxOutbox ≤ outbox.length then outbox else outbox ++ [m]

/-- Appending one message after another keeps the first `MAX_OUTBOX`. -/
theorem foldl_addToOutbox (ms : List OutMsg) :
    ∀ outbox : List OutMsg, outbox.length ≤ maxOutbox →
      ms.foldl addToOutbox outbox = (outbox ++ ms).take maxOutbox := by
  induction ms with
  | nil =>
    intro outbox h
    simp [List.take_of_length_le h]
  | cons m ms ih =>
    intro outbox h
    rw [List.foldl_cons]
    by_cases hfull : maxOutbox ≤ outbox.length
    · have hm : addToOutbox outbox m = outbox := by simp [addToOutbox, hfull]
      have hlen : outbox.length = maxOutbox := Nat.le_antisymm h hfull
      rw [hm, ih outbox h, ← hlen, List.take_left' rfl, List.take_left' rfl]
    · have hm : addToOutbox outbox m = outbox ++ [m] := by simp [addToOutbox, hfull]
      rw [hm, ih (outbox ++ [m]) (by simp; omega), ← List.append_cons]

/-- The messages of a handler that starts with an empty outbox. -/
theorem foldl_addToOutbox_nil (ms : List OutMsg) :
    ms.foldl addToOutbox [] = ms.take maxOutbox := by
  rw [foldl_addToOutbox ms [] (Nat.zero_le _), List.nil_append]

end ResourceManager
