import Mathlib.Data.List.Basic
import Mathlib.Tactic.Ring

/-! # Big-endian byte strings of a fixed width

A natural number becomes exactly `width` bytes, most significant first; a byte
string becomes a natural number below `256 ^ length`. The two maps are inverse
to each other on every width, so a fixed-width field loses nothing on the wire.
-/
namespace Foundation.BigEndian

def write : Nat → Nat → List UInt8
  | 0, _ => []
  | width + 1, n => UInt8.ofNat (n / 256 ^ width) :: write width n

def read : List UInt8 → Nat
  | [] => 0
  | byte :: rest => byte.toNat * 256 ^ rest.length + read rest

@[simp] theorem write_length (width n : Nat) : (write width n).length = width := by
  induction width with
  | zero => rfl
  | succ width ih => simp [write, ih]

theorem read_lt (bytes : List UInt8) : read bytes < 256 ^ bytes.length := by
  induction bytes with
  | nil => decide
  | cons byte rest ih =>
    have hByte : byte.toNat + 1 ≤ 256 := byte.toNat_lt
    calc
      read (byte :: rest) < byte.toNat * 256 ^ rest.length + 256 ^ rest.length :=
        Nat.add_lt_add_left ih _
      _ = (byte.toNat + 1) * 256 ^ rest.length := by ring
      _ ≤ 256 * 256 ^ rest.length := Nat.mul_le_mul_right _ hByte
      _ = 256 ^ (byte :: rest).length := by rw [List.length_cons]; ring

theorem read_write (width n : Nat) : read (write width n) = n % 256 ^ width := by
  induction width with
  | zero => simp [write, read, Nat.mod_one]
  | succ width ih =>
    have hHead : (UInt8.ofNat (n / 256 ^ width)).toNat = n / 256 ^ width % 256 := by simp
    rw [write, read, ih, write_length, hHead, pow_succ, Nat.mod_mul]
    ring

theorem read_write_of_lt {width n : Nat} (h : n < 256 ^ width) : read (write width n) = n := by
  rw [read_write, Nat.mod_eq_of_lt h]

theorem write_add_mul (width n k : Nat) : write width (n + k * 256 ^ width) = write width n := by
  induction width generalizing k with
  | zero => rfl
  | succ width ih =>
    have hSplit : n + k * 256 ^ (width + 1) = n + k * 256 * 256 ^ width := by ring
    have hDiv : (n + k * 256 * 256 ^ width) / 256 ^ width = n / 256 ^ width + k * 256 :=
      Nat.add_mul_div_right _ _ (Nat.pow_pos (by decide))
    rw [write, write, hSplit, ih, hDiv]
    congr 1
    apply UInt8.toNat.inj
    simp

theorem write_read (bytes : List UInt8) : write bytes.length (read bytes) = bytes := by
  induction bytes with
  | nil => rfl
  | cons byte rest ih =>
    have hDiv : read (byte :: rest) / 256 ^ rest.length = byte.toNat := by
      rw [read, Nat.add_comm, Nat.add_mul_div_right _ _ (Nat.pow_pos (by decide)),
        Nat.div_eq_of_lt (read_lt rest), Nat.zero_add]
    have hRest : write rest.length (read (byte :: rest)) = rest := by
      rw [read, Nat.add_comm, write_add_mul, ih]
    rw [List.length_cons, write, hDiv, hRest, UInt8.ofNat_toNat]

theorem write_read_of_length {width : Nat} {bytes : List UInt8} (h : bytes.length = width) :
    write width (read bytes) = bytes := by rw [← h, write_read]

end Foundation.BigEndian
