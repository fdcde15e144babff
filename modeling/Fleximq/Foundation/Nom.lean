import Fleximq.Foundation.BigEndian
import Fleximq.Foundation.Result

/-! # The byte combinators of nom

A combinator consumes a prefix of its input and returns the rest with the value
read. Each of them is characterised by the bytes it accepts, so a parser made of
them in sequence accepts exactly the concatenation of its fields.
-/
namespace Foundation.Nom

inductive ErrorKind where
  | verify
  | eof
  | tag
  | lengthValue
  deriving DecidableEq, Repr

def ErrorKind.debug : ErrorKind → String
  | .verify => "Verify"
  | .eof => "Eof"
  | .tag => "Tag"
  | .lengthValue => "LengthValue"

structure Error where
  input : List UInt8
  code : ErrorKind
  deriving DecidableEq, Repr

def Error.display (e : Error) : String :=
  "Parsing Error: Error \x7b input: [" ++ ", ".intercalate (e.input.map fun byte => toString byte) ++
    "], code: " ++ e.code.debug ++ " \x7d"

def take (count : Nat) (input : List UInt8) : Except Error (List UInt8 × List UInt8) :=
  if input.length < count then .error ⟨input, .eof⟩
  else .ok (input.drop count, input.take count)

def beUint (bound : Nat) (input : List UInt8) : Except Error (List UInt8 × Nat) :=
  if input.length < bound then .error ⟨input, .eof⟩
  else .ok (input.drop bound, BigEndian.read (input.take bound))

def beU8 (input : List UInt8) : Except Error (List UInt8 × UInt8) := do
  let (rest, n) ← beUint 1 input
  return (rest, UInt8.ofNat n)

def beU32 (input : List UInt8) : Except Error (List UInt8 × UInt32) := do
  let (rest, n) ← beUint 4 input
  return (rest, UInt32.ofNat n)

def beU64 (input : List UInt8) : Except Error (List UInt8 × UInt64) := do
  let (rest, n) ← beUint 8 input
  return (rest, UInt64.ofNat n)

def verify {α : Type} (first : List UInt8 → Except Error (List UInt8 × α)) (second : α → Bool)
    (input : List UInt8) : Except Error (List UInt8 × α) := do
  let (rest, x) ← first input
  if second x then return (rest, x) else .error ⟨input, .verify⟩

theorem take_eq_ok {count : Nat} {input rest bytes : List UInt8} :
    take count input = .ok (rest, bytes) ↔ bytes.length = count ∧ input = bytes ++ rest := by
  unfold take
  split
  · rename_i hShort
    constructor
    · intro h
      cases h
    · rintro ⟨hLength, rfl⟩
      simp only [List.length_append] at hShort
      omega
  · rename_i hLong
    constructor
    · intro h
      cases h
      exact ⟨by simp only [List.length_take]; omega, (List.take_append_drop count input).symm⟩
    · rintro ⟨rfl, rfl⟩
      simp

theorem beUint_eq_ok {bound n : Nat} {input rest : List UInt8} :
    beUint bound input = .ok (rest, n) ↔ n < 256 ^ bound ∧ input = BigEndian.write bound n ++ rest := by
  unfold beUint
  split
  · rename_i hShort
    constructor
    · intro h
      cases h
    · rintro ⟨_, rfl⟩
      simp only [List.length_append, BigEndian.write_length] at hShort
      omega
  · rename_i hLong
    have hLength : (input.take bound).length = bound := by
      simp only [List.length_take]
      omega
    constructor
    · intro h
      cases h
      have hBound := BigEndian.read_lt (input.take bound)
      rw [hLength] at hBound
      refine ⟨hBound, ?_⟩
      rw [BigEndian.write_read_of_length hLength, List.take_append_drop]
    · rintro ⟨hBound, rfl⟩
      have hTake : (BigEndian.write bound n ++ rest).take bound = BigEndian.write bound n := by
        rw [List.take_append_of_le_length (by simp), List.take_of_length_le (by simp)]
      have hDrop : (BigEndian.write bound n ++ rest).drop bound = rest := by
        rw [List.drop_append_of_le_length (by simp), List.drop_of_length_le (by simp), List.nil_append]
      rw [hTake, hDrop, BigEndian.read_write_of_lt hBound]

theorem beU8_eq_ok {input rest : List UInt8} {x : UInt8} :
    beU8 input = .ok (rest, x) ↔ input = x :: rest := by
  unfold beU8
  rw [bind_eq_ok]
  constructor
  · rintro ⟨⟨rest', n⟩, hRead, hResult⟩
    cases hResult
    obtain ⟨hBound, rfl⟩ := beUint_eq_ok.mp hRead
    simp [BigEndian.write]
  · rintro rfl
    refine ⟨(rest, x.toNat), beUint_eq_ok.mpr ⟨x.toNat_lt, ?_⟩, ?_⟩
    · simp [BigEndian.write]
    · simp [pure, Except.pure]

theorem beU32_eq_ok {input rest : List UInt8} {x : UInt32} :
    beU32 input = .ok (rest, x) ↔ input = BigEndian.write 4 x.toNat ++ rest := by
  unfold beU32
  rw [bind_eq_ok]
  constructor
  · rintro ⟨⟨rest', n⟩, hRead, hResult⟩
    cases hResult
    obtain ⟨hBound, rfl⟩ := beUint_eq_ok.mp hRead
    rw [UInt32.toNat_ofNat_of_lt' hBound]
  · rintro rfl
    refine ⟨(rest, x.toNat), beUint_eq_ok.mpr ⟨x.toNat_lt, rfl⟩, ?_⟩
    simp [pure, Except.pure]

theorem beU64_eq_ok {input rest : List UInt8} {x : UInt64} :
    beU64 input = .ok (rest, x) ↔ input = BigEndian.write 8 x.toNat ++ rest := by
  unfold beU64
  rw [bind_eq_ok]
  constructor
  · rintro ⟨⟨rest', n⟩, hRead, hResult⟩
    cases hResult
    obtain ⟨hBound, rfl⟩ := beUint_eq_ok.mp hRead
    rw [UInt64.toNat_ofNat_of_lt' hBound]
  · rintro rfl
    refine ⟨(rest, x.toNat), beUint_eq_ok.mpr ⟨x.toNat_lt, rfl⟩, ?_⟩
    simp [pure, Except.pure]

theorem verify_eq_ok {α : Type} {first : List UInt8 → Except Error (List UInt8 × α)}
    {second : α → Bool} {input rest : List UInt8} {x : α} :
    verify first second input = .ok (rest, x) ↔ first input = .ok (rest, x) ∧ second x = true := by
  unfold verify
  rw [bind_eq_ok]
  constructor
  · rintro ⟨⟨rest', y⟩, hFirst, hCheck⟩
    by_cases hSecond : second y = true
    · simp only [if_pos hSecond] at hCheck
      cases hCheck
      exact ⟨hFirst, hSecond⟩
    · simp only [if_neg hSecond] at hCheck
      cases hCheck
  · rintro ⟨hFirst, hSecond⟩
    exact ⟨(rest, x), hFirst, if_pos hSecond⟩

end Foundation.Nom
