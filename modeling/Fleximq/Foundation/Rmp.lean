import Fleximq.Foundation.Serde

/-! # The entry points of rmp_serde

`to_vec` and `from_slice` are code outside the repository and parameters here.
`Rmp.messagePack` is the instance that follows the MessagePack format.
-/
namespace Foundation
open MessagePack (Value)

/-- No object in memory is longer than `isize::MAX`. -/
@[ext] structure Bytes where
  toList : List UInt8
  length_lt : toList.length < 2 ^ 63
  deriving DecidableEq

def Bytes.length (b : Bytes) : Nat := b.toList.length

theorem Bytes.ofNat_length_toNat (b : Bytes) : (UInt64.ofNat b.length).toNat = b.length :=
  UInt64.toNat_ofNat_of_lt' (Nat.lt_trans b.length_lt (by decide))

def Bytes.empty : Bytes := ⟨[], Nat.two_pow_pos 63⟩

/-- `depthLimit` is the number of containers inside one another that the reader refuses to enter. -/
structure Rmp where
  toVec : Value → Except String Bytes
  fromSlice : List UInt8 → Except String Value
  errorText : Serde.Error → String
  depthLimit : Option Nat

def Rmp.Within (rmp : Rmp) (v : Value) : Prop := ∀ limit ∈ rmp.depthLimit, v.nesting < limit

/-- What a caller relies on: values are written as at least one byte, and they round trip exactly
within the reader's limit, which leaves room for a few containers. -/
structure Rmp.Lawful (rmp : Rmp) : Prop where
  ne_nil : ∀ {v : Value} {b : Bytes}, rmp.toVec v = .ok b → b.toList ≠ []
  fromSlice_toVec : ∀ {v : Value} {b : Bytes}, rmp.toVec v = .ok b → rmp.Within v →
    rmp.fromSlice b.toList = .ok v
  fromSlice_deep : ∀ {v : Value} {b : Bytes}, rmp.toVec v = .ok b → ¬ rmp.Within v →
    ∃ e, rmp.fromSlice b.toList = .error e
  within_of_fromSlice : ∀ {bytes : List UInt8} {v : Value}, rmp.fromSlice bytes = .ok v → rmp.Within v
  three_lt : ∀ limit ∈ rmp.depthLimit, 3 < limit

theorem Rmp.Lawful.within_of_le_three {rmp : Rmp} (hRmp : rmp.Lawful) {v : Value} (h : v.nesting ≤ 3) :
    rmp.Within v := fun limit hLimit => Nat.lt_of_le_of_lt h (hRmp.three_lt limit hLimit)

def Rmp.messagePack : Rmp where
  toVec v :=
    match MessagePack.encode v with
    | some bytes =>
      if h : bytes.length < 2 ^ 63 then .ok ⟨bytes, h⟩ else .error "out of memory"
    | none => .error "value out of range"
  fromSlice bytes :=
    match MessagePack.decode bytes with
    | some v => .ok v
    | none => .error "IO error while reading marker"
  errorText
    | .invalidType => "invalid type"
    | .invalidValue => "invalid value"
    | .invalidLength length => "invalid length " ++ toString length
    | .lengthMismatch length => "array had incorrect length, expected " ++ toString length
    | .missingField name => "missing field " ++ name
    | .duplicateField name => "duplicate field " ++ name
    | .unknownVariant => "unknown variant"
  depthLimit := some MessagePack.depthLimit

theorem Rmp.messagePack_toVec_eq_ok {v : Value} {b : Bytes} :
    Rmp.messagePack.toVec v = .ok b ↔ MessagePack.encode v = some b.toList := by
  constructor
  · intro h
    dsimp only [messagePack] at h
    split at h
    · rename_i bytes hEncode
      split at h
      · cases h
        exact hEncode
      · cases h
    · cases h
  · intro h
    dsimp only [messagePack]
    rw [h]
    exact dif_pos b.length_lt

theorem Rmp.messagePack_fromSlice_eq_ok {bytes : List UInt8} {v : Value} :
    Rmp.messagePack.fromSlice bytes = .ok v ↔ MessagePack.decode bytes = some v := by
  dsimp only [messagePack]
  cases MessagePack.decode bytes with
  | none => simp
  | some v' => simp

theorem Rmp.messagePack_within {v : Value} :
    Rmp.messagePack.Within v ↔ v.nesting < MessagePack.depthLimit := by
  simp [Within, messagePack]

theorem Rmp.messagePack_lawful : Rmp.messagePack.Lawful where
  ne_nil h := MessagePack.encode_ne_nil (messagePack_toVec_eq_ok.mp h)
  fromSlice_toVec h hWithin := by
    have hDecode := MessagePack.decode_encode (messagePack_toVec_eq_ok.mp h) (messagePack_within.mp hWithin) []
    rw [List.append_nil] at hDecode
    exact messagePack_fromSlice_eq_ok.mpr hDecode
  fromSlice_deep h hDeep := by
    have hNesting := Nat.le_of_not_lt (mt messagePack_within.mpr hDeep)
    have hDecode := MessagePack.decode_encode_none (messagePack_toVec_eq_ok.mp h) hNesting []
    rw [List.append_nil] at hDecode
    dsimp only [messagePack]
    rw [hDecode]
    exact ⟨_, rfl⟩
  within_of_fromSlice h := messagePack_within.mpr (MessagePack.nesting_decode (messagePack_fromSlice_eq_ok.mp h))
  three_lt := by decide

end Foundation
