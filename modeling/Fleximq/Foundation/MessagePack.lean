import Fleximq.Foundation.BigEndian

/-! # MessagePack values and their byte format

A value is written as a head (its marker with the numbers that belong to it)
followed by its content. The head is read back first; the content is then read
from the rest of the input. The writer takes values of any nesting, the reader
only those below its depth limit.
-/
namespace Foundation.MessagePack

/-- A dynamically typed MessagePack value. Floating point numbers are their bit patterns. -/
inductive Value where
  | nil
  | boolean (b : Bool)
  | integer (n : Int)
  | f32 (bits : UInt32)
  | f64 (bits : UInt64)
  | string (s : String)
  | binary (bytes : List UInt8)
  | array (items : List Value)
  | map (entries : List (Value × Value))
  | ext (tag : UInt8) (bytes : List UInt8)
  deriving Repr

/-! ## Heads -/

inductive Head where
  | nil
  | boolean (b : Bool)
  | integer (n : Int)
  | f32 (bits : UInt32)
  | f64 (bits : UInt64)
  | string (length : Nat)
  | binary (length : Nat)
  | array (length : Nat)
  | map (length : Nat)
  | ext (length : Nat) (tag : UInt8)
  deriving DecidableEq, Repr

def field (marker : UInt8) (width n : Nat) : List UInt8 := marker :: BigEndian.write width n

/-- Every number is written in the narrowest form that holds it. -/
def writeHead : Head → Option (List UInt8)
  | .nil => some [0xc0]
  | .boolean false => some [0xc2]
  | .boolean true => some [0xc3]
  | .integer n =>
    if 0 ≤ n then
      let m := n.toNat
      if m < 0x80 then some [UInt8.ofNat m]
      else if m < 256 ^ 1 then some (field 0xcc 1 m)
      else if m < 256 ^ 2 then some (field 0xcd 2 m)
      else if m < 256 ^ 4 then some (field 0xce 4 m)
      else if m < 256 ^ 8 then some (field 0xcf 8 m)
      else none
    else
      let m := (-1 - n).toNat
      if m < 0x20 then some [UInt8.ofNat (0xff - m)]
      else if m < 0x80 then some (field 0xd0 1 (256 ^ 1 - 1 - m))
      else if m < 0x8000 then some (field 0xd1 2 (256 ^ 2 - 1 - m))
      else if m < 0x80000000 then some (field 0xd2 4 (256 ^ 4 - 1 - m))
      else if m < 0x8000000000000000 then some (field 0xd3 8 (256 ^ 8 - 1 - m))
      else none
  | .f32 bits => some (field 0xca 4 bits.toNat)
  | .f64 bits => some (field 0xcb 8 bits.toNat)
  | .string n =>
    if n < 0x20 then some [UInt8.ofNat (0xa0 + n)]
    else if n < 256 ^ 1 then some (field 0xd9 1 n)
    else if n < 256 ^ 2 then some (field 0xda 2 n)
    else if n < 256 ^ 4 then some (field 0xdb 4 n)
    else none
  | .binary n =>
    if n < 256 ^ 1 then some (field 0xc4 1 n)
    else if n < 256 ^ 2 then some (field 0xc5 2 n)
    else if n < 256 ^ 4 then some (field 0xc6 4 n)
    else none
  | .array n =>
    if n < 0x10 then some [UInt8.ofNat (0x90 + n)]
    else if n < 256 ^ 2 then some (field 0xdc 2 n)
    else if n < 256 ^ 4 then some (field 0xdd 4 n)
    else none
  | .map n =>
    if n < 0x10 then some [UInt8.ofNat (0x80 + n)]
    else if n < 256 ^ 2 then some (field 0xde 2 n)
    else if n < 256 ^ 4 then some (field 0xdf 4 n)
    else none
  | .ext n tag =>
    if n = 1 then some [0xd4, tag]
    else if n = 2 then some [0xd5, tag]
    else if n = 4 then some [0xd6, tag]
    else if n = 8 then some [0xd7, tag]
    else if n = 16 then some [0xd8, tag]
    else if n < 256 ^ 1 then some (field 0xc7 1 n ++ [tag])
    else if n < 256 ^ 2 then some (field 0xc8 2 n ++ [tag])
    else if n < 256 ^ 4 then some (field 0xc9 4 n ++ [tag])
    else none

def readField (width : Nat) (input : List UInt8) : Option (Nat × List UInt8) :=
  if input.length < width then none
  else some (BigEndian.read (input.take width), input.drop width)

def signed (width n : Nat) : Int := if 2 * n < 256 ^ width then n else (n : Int) - 256 ^ width

def readTag (length : Nat) : List UInt8 → Option (Head × List UInt8)
  | [] => none
  | tag :: rest => some (.ext length tag, rest)

inductive Slot where
  | plain (head : Head)
  | number (width : Nat) (make : Nat → Head)
  | tagged (width : Nat)
  | fixed (length : Nat)

def slot : UInt8 → Option Slot
  | 0xc0 => some (.plain .nil)
  | 0xc2 => some (.plain (.boolean false))
  | 0xc3 => some (.plain (.boolean true))
  | 0xc4 => some (.number 1 .binary)
  | 0xc5 => some (.number 2 .binary)
  | 0xc6 => some (.number 4 .binary)
  | 0xc7 => some (.tagged 1)
  | 0xc8 => some (.tagged 2)
  | 0xc9 => some (.tagged 4)
  | 0xca => some (.number 4 fun n => .f32 (UInt32.ofNat n))
  | 0xcb => some (.number 8 fun n => .f64 (UInt64.ofNat n))
  | 0xcc => some (.number 1 fun n => .integer n)
  | 0xcd => some (.number 2 fun n => .integer n)
  | 0xce => some (.number 4 fun n => .integer n)
  | 0xcf => some (.number 8 fun n => .integer n)
  | 0xd0 => some (.number 1 fun n => .integer (signed 1 n))
  | 0xd1 => some (.number 2 fun n => .integer (signed 2 n))
  | 0xd2 => some (.number 4 fun n => .integer (signed 4 n))
  | 0xd3 => some (.number 8 fun n => .integer (signed 8 n))
  | 0xd4 => some (.fixed 1)
  | 0xd5 => some (.fixed 2)
  | 0xd6 => some (.fixed 4)
  | 0xd7 => some (.fixed 8)
  | 0xd8 => some (.fixed 16)
  | 0xd9 => some (.number 1 .string)
  | 0xda => some (.number 2 .string)
  | 0xdb => some (.number 4 .string)
  | 0xdc => some (.number 2 .array)
  | 0xdd => some (.number 4 .array)
  | 0xde => some (.number 2 .map)
  | 0xdf => some (.number 4 .map)
  | _ => none

def readSlot (rest : List UInt8) : Slot → Option (Head × List UInt8)
  | .plain head => some (head, rest)
  | .number width make => (readField width rest).map fun (n, rest) => (make n, rest)
  | .tagged width => (readField width rest).bind fun (n, rest) => readTag n rest
  | .fixed length => readTag length rest

def readHead : List UInt8 → Option (Head × List UInt8)
  | [] => none
  | marker :: rest =>
    if marker.toNat < 0x80 then some (.integer marker.toNat, rest)
    else if marker.toNat < 0x90 then some (.map (marker.toNat - 0x80), rest)
    else if marker.toNat < 0xa0 then some (.array (marker.toNat - 0x90), rest)
    else if marker.toNat < 0xc0 then some (.string (marker.toNat - 0xa0), rest)
    else if 0xe0 ≤ marker.toNat then some (.integer ((marker.toNat : Int) - 256), rest)
    else (slot marker).bind (readSlot rest)

theorem readField_write {width n : Nat} (h : n < 256 ^ width) (rest : List UInt8) :
    readField width (BigEndian.write width n ++ rest) = some (n, rest) := by
  have hTake : (BigEndian.write width n ++ rest).take width = BigEndian.write width n := by
    rw [List.take_append_of_le_length (by simp), List.take_of_length_le (by simp)]
  have hDrop : (BigEndian.write width n ++ rest).drop width = rest := by
    rw [List.drop_append_of_le_length (by simp), List.drop_of_length_le (by simp), List.nil_append]
  rw [readField, if_neg (by simp), hTake, hDrop, BigEndian.read_write_of_lt h]

theorem writeHead_ne_nil {head : Head} {bytes : List UInt8} (h : writeHead head = some bytes) :
    bytes ≠ [] := by
  rintro rfl
  cases head with
  | boolean b => cases b <;> cases h
  | _ => simp [writeHead, field] at h <;> grind

theorem ofNat_toNat {n : Nat} (h : n < 256) : (UInt8.ofNat n).toNat = n := UInt8.toNat_ofNat_of_lt' h

theorem readHead_slot {marker : UInt8} {s : Slot} (hLow : 0xc0 ≤ marker.toNat)
    (hHigh : marker.toNat < 0xe0) (hSlot : slot marker = some s) (rest : List UInt8) :
    readHead (marker :: rest) = readSlot rest s := by
  rw [readHead, if_neg (by omega), if_neg (by omega), if_neg (by omega), if_neg (by omega),
    if_neg (by omega), hSlot, Option.bind_some]

theorem readHead_field {marker : UInt8} {width n : Nat} {make : Nat → Head}
    (hLow : 0xc0 ≤ marker.toNat) (hHigh : marker.toNat < 0xe0)
    (hSlot : slot marker = some (.number width make)) (h : n < 256 ^ width) (rest : List UInt8) :
    readHead (field marker width n ++ rest) = some (make n, rest) := by
  rw [field, List.cons_append, readHead_slot hLow hHigh hSlot, readSlot, readField_write h,
    Option.map_some]

theorem readHead_tagged {marker : UInt8} {width n : Nat} (hLow : 0xc0 ≤ marker.toNat)
    (hHigh : marker.toNat < 0xe0) (hSlot : slot marker = some (.tagged width)) (h : n < 256 ^ width)
    (tag : UInt8) (rest : List UInt8) :
    readHead (field marker width n ++ [tag] ++ rest) = some (.ext n tag, rest) := by
  rw [field, List.append_assoc, List.cons_append, readHead_slot hLow hHigh hSlot, readSlot,
    readField_write h, Option.bind_some]
  rfl

theorem signed_complement {width m : Nat} (h : 2 * m < 256 ^ (width + 1)) :
    signed (width + 1) (256 ^ (width + 1) - 1 - m) = -1 - (m : Int) := by
  have hEven : 256 ^ (width + 1) = 2 * (128 * 256 ^ width) := by ring
  have hNegative : ¬ 2 * (256 ^ (width + 1) - 1 - m) < 256 ^ (width + 1) := by omega
  have hCast : ((256 ^ (width + 1) - 1 - m : Nat) : Int) = (256 ^ (width + 1) : Nat) - 1 - m := by omega
  rw [signed, if_neg hNegative, hCast]
  push_cast
  omega

theorem readHead_negative {marker : UInt8} {width : Nat} {n : Int} (hLow : 0xc0 ≤ marker.toNat)
    (hHigh : marker.toNat < 0xe0)
    (hSlot : slot marker = some (.number (width + 1) fun n => .integer (signed (width + 1) n)))
    (hn : ¬ 0 ≤ n) (h : 2 * (-1 - n).toNat < 256 ^ (width + 1)) (rest : List UInt8) :
    readHead (field marker (width + 1) (256 ^ (width + 1) - 1 - (-1 - n).toNat) ++ rest) =
      some (.integer n, rest) := by
  have hNeg : -1 - ((-1 - n).toNat : Int) = n := by omega
  rw [readHead_field hLow hHigh hSlot (by omega), signed_complement h, hNeg]

theorem readHead_writeHead_integer {n : Int} {bytes : List UInt8}
    (h : writeHead (.integer n) = some bytes) (rest : List UInt8) :
    readHead (bytes ++ rest) = some (.integer n, rest) := by
  simp only [writeHead] at h
  split at h
  · have hNat : ((n.toNat : Nat) : Int) = n := by omega
    split at h
    · cases h
      rw [List.singleton_append, readHead, ofNat_toNat (by omega), if_pos ‹_›, hNat]
    split at h
    · cases h
      rw [readHead_field (by decide) (by decide) rfl ‹_›, hNat]
    split at h
    · cases h
      rw [readHead_field (by decide) (by decide) rfl ‹_›, hNat]
    split at h
    · cases h
      rw [readHead_field (by decide) (by decide) rfl ‹_›, hNat]
    split at h
    · cases h
      rw [readHead_field (by decide) (by decide) rfl ‹_›, hNat]
    cases h
  · split at h
    · cases h
      have hByte : (UInt8.ofNat (0xff - (-1 - n).toNat)).toNat = 0xff - (-1 - n).toNat :=
        ofNat_toNat (by omega)
      have hNeg : ((0xff - (-1 - n).toNat : Nat) : Int) - 256 = n := by omega
      rw [List.singleton_append, readHead, hByte, if_neg (by omega), if_neg (by omega),
        if_neg (by omega), if_neg (by omega), if_pos (by omega), hNeg]
    split at h
    · cases h
      exact readHead_negative (by decide) (by decide) rfl ‹_› (by omega) rest
    split at h
    · cases h
      exact readHead_negative (by decide) (by decide) rfl ‹_› (by omega) rest
    split at h
    · cases h
      exact readHead_negative (by decide) (by decide) rfl ‹_› (by omega) rest
    split at h
    · cases h
      exact readHead_negative (by decide) (by decide) rfl ‹_› (by omega) rest
    cases h

theorem readHead_writeHead (head : Head) {bytes : List UInt8}
    (h : writeHead head = some bytes) (rest : List UInt8) :
    readHead (bytes ++ rest) = some (head, rest) := by
  cases head with
  | nil => cases h; rfl
  | boolean b => cases b <;> cases h <;> rfl
  | integer n => exact readHead_writeHead_integer h rest
  | f32 bits =>
    cases h
    rw [readHead_field (by decide) (by decide) rfl (show bits.toNat < 256 ^ 4 from bits.toNat_lt),
      UInt32.ofNat_toNat]
  | f64 bits =>
    cases h
    rw [readHead_field (by decide) (by decide) rfl (show bits.toNat < 256 ^ 8 from bits.toNat_lt),
      UInt64.ofNat_toNat]
  | string n =>
    simp only [writeHead] at h
    split at h
    · cases h
      rw [List.singleton_append, readHead, ofNat_toNat (by omega), if_neg (by omega),
        if_neg (by omega), if_neg (by omega), if_pos (by omega), Nat.add_sub_cancel_left]
    repeat
      split at h
      · cases h
        exact readHead_field (by decide) (by decide) rfl ‹_› rest
    cases h
  | binary n =>
    simp only [writeHead] at h
    repeat
      split at h
      · cases h
        exact readHead_field (by decide) (by decide) rfl ‹_› rest
    cases h
  | array n =>
    simp only [writeHead] at h
    split at h
    · cases h
      rw [List.singleton_append, readHead, ofNat_toNat (by omega), if_neg (by omega),
        if_neg (by omega), if_pos (by omega), Nat.add_sub_cancel_left]
    repeat
      split at h
      · cases h
        exact readHead_field (by decide) (by decide) rfl ‹_› rest
    cases h
  | map n =>
    simp only [writeHead] at h
    split at h
    · cases h
      rw [List.singleton_append, readHead, ofNat_toNat (by omega), if_neg (by omega),
        if_pos (by omega), Nat.add_sub_cancel_left]
    repeat
      split at h
      · cases h
        exact readHead_field (by decide) (by decide) rfl ‹_› rest
    cases h
  | ext n tag =>
    simp only [writeHead] at h
    iterate 5
      split at h
      · cases h
        subst n
        rfl
    repeat
      split at h
      · cases h
        exact readHead_tagged (by decide) (by decide) rfl ‹_› tag rest
    cases h

/-! ## Values -/

def utf8 (s : String) : List UInt8 := s.toUTF8.data.toList

mutual
def encode : Value → Option (List UInt8)
  | .nil => writeHead .nil
  | .boolean b => writeHead (.boolean b)
  | .integer n => writeHead (.integer n)
  | .f32 bits => writeHead (.f32 bits)
  | .f64 bits => writeHead (.f64 bits)
  | .string s => do
    let head ← writeHead (.string (utf8 s).length)
    return head ++ utf8 s
  | .binary bytes => do
    let head ← writeHead (.binary bytes.length)
    return head ++ bytes
  | .array items => do
    let head ← writeHead (.array items.length)
    let content ← encodeItems items
    return head ++ content
  | .map entries => do
    let head ← writeHead (.map entries.length)
    let content ← encodeEntries entries
    return head ++ content
  | .ext tag bytes => do
    let head ← writeHead (.ext bytes.length tag)
    return head ++ bytes

def encodeItems : List Value → Option (List UInt8)
  | [] => some []
  | item :: items => do
    let first ← encode item
    let others ← encodeItems items
    return first ++ others

def encodeEntries : List (Value × Value) → Option (List UInt8)
  | [] => some []
  | (key, value) :: entries => do
    let first ← encode key
    let second ← encode value
    let others ← encodeEntries entries
    return first ++ second ++ others
end

def split (length : Nat) (input : List UInt8) : Option (List UInt8 × List UInt8) :=
  if input.length < length then none else some (input.take length, input.drop length)

def readMany {α : Type} (one : List UInt8 → Option (α × List UInt8)) :
    Nat → List UInt8 → Option (List α × List UInt8)
  | 0, input => some ([], input)
  | count + 1, input => do
    let (x, rest) ← one input
    let (xs, rest) ← readMany one count rest
    return (x :: xs, rest)

def readPair {α β : Type} (first : List UInt8 → Option (α × List UInt8))
    (second : List UInt8 → Option (β × List UInt8)) (input : List UInt8) :
    Option ((α × β) × List UInt8) := do
  let (x, rest) ← first input
  let (y, rest) ← second rest
  return ((x, y), rest)

/-- Reads one value from the front of the input. The counter is one less inside a container, and no
container is entered that would bring it to zero. A string that is not UTF-8 is read as bytes. -/
def readValue : Nat → List UInt8 → Option (Value × List UInt8)
  | 0, _ => none
  | depth + 1, input => do
    let (head, rest) ← readHead input
    match head with
    | .nil => return (.nil, rest)
    | .boolean b => return (.boolean b, rest)
    | .integer n => return (.integer n, rest)
    | .f32 bits => return (.f32 bits, rest)
    | .f64 bits => return (.f64 bits, rest)
    | .string length =>
      let (bytes, rest) ← split length rest
      match String.fromUTF8? ⟨bytes.toArray⟩ with
      | some s => return (.string s, rest)
      | none => return (.binary bytes, rest)
    | .binary length =>
      let (bytes, rest) ← split length rest
      return (.binary bytes, rest)
    | .array length =>
      guard (0 < depth)
      let (items, rest) ← readMany (readValue depth) length rest
      return (.array items, rest)
    | .map length =>
      guard (0 < depth)
      let (entries, rest) ← readMany (readPair (readValue depth) (readValue depth)) length rest
      return (.map entries, rest)
    | .ext length tag =>
      guard (0 < depth)
      let (bytes, rest) ← split length rest
      return (.ext tag bytes, rest)

def depthLimit : Nat := 1024

def decode (input : List UInt8) : Option Value := (readValue depthLimit input).map Prod.fst

mutual
/-- How many containers are inside one another. -/
def Value.nesting : Value → Nat
  | .array items => nestingItems items + 1
  | .map entries => nestingEntries entries + 1
  | .ext .. => 1
  | _ => 0

def nestingItems : List Value → Nat
  | [] => 0
  | item :: items => max item.nesting (nestingItems items)

def nestingEntries : List (Value × Value) → Nat
  | [] => 0
  | (key, value) :: entries => max (max key.nesting value.nesting) (nestingEntries entries)
end

theorem split_append (bytes rest : List UInt8) : split bytes.length (bytes ++ rest) = some (bytes, rest) := by
  rw [split, if_neg (by simp)]
  simp

theorem fromUTF8_utf8 (s : String) : String.fromUTF8? ⟨(utf8 s).toArray⟩ = some s := by
  have hBytes : (⟨(utf8 s).toArray⟩ : ByteArray) = s.toByteArray := by simp [utf8]
  rw [hBytes, String.fromUTF8?, dif_pos s.isValidUTF8]
  rfl

theorem encode_ne_nil {v : Value} {bytes : List UInt8} (h : encode v = some bytes) : bytes ≠ [] := by
  cases v with
  | nil | boolean | integer | f32 | f64 =>
    rw [encode] at h
    exact writeHead_ne_nil h
  | string | binary | ext =>
    rw [encode] at h
    obtain ⟨head, hHead, hResult⟩ := Option.bind_eq_some_iff.mp h
    cases hResult
    simp [writeHead_ne_nil hHead]
  | array items | map entries =>
    rw [encode] at h
    obtain ⟨head, hHead, hContent⟩ := Option.bind_eq_some_iff.mp h
    obtain ⟨content, _, hResult⟩ := Option.bind_eq_some_iff.mp hContent
    cases hResult
    simp [writeHead_ne_nil hHead]

/-! ## Within the depth limit -/

mutual
theorem readValue_encode (v : Value) {bytes : List UInt8} (h : encode v = some bytes)
    {depth : Nat} (hDepth : v.nesting < depth) (rest : List UInt8) :
    readValue depth (bytes ++ rest) = some (v, rest) := by
  obtain ⟨depth, rfl⟩ := Nat.exists_eq_add_one_of_ne_zero (Nat.ne_zero_of_lt hDepth)
  cases v with
  | nil | boolean | integer | f32 | f64 =>
    rw [encode] at h
    rw [readValue, readHead_writeHead _ h]
    rfl
  | string s =>
    rw [encode] at h
    obtain ⟨head, hHead, hResult⟩ := Option.bind_eq_some_iff.mp h
    cases hResult
    rw [readValue, List.append_assoc, readHead_writeHead _ hHead]
    simp [split_append, fromUTF8_utf8]
  | binary bytes =>
    rw [encode] at h
    obtain ⟨head, hHead, hResult⟩ := Option.bind_eq_some_iff.mp h
    cases hResult
    rw [readValue, List.append_assoc, readHead_writeHead _ hHead]
    simp [split_append]
  | array items =>
    rw [encode] at h
    obtain ⟨head, hHead, hContent⟩ := Option.bind_eq_some_iff.mp h
    obtain ⟨content, hItems, hResult⟩ := Option.bind_eq_some_iff.mp hContent
    cases hResult
    rw [Value.nesting, Nat.add_lt_add_iff_right] at hDepth
    have hCounter : 0 < depth := Nat.zero_lt_of_lt hDepth
    rw [readValue, List.append_assoc, readHead_writeHead _ hHead]
    simp [hCounter, readItems_encode items hItems hDepth rest]
  | map entries =>
    rw [encode] at h
    obtain ⟨head, hHead, hContent⟩ := Option.bind_eq_some_iff.mp h
    obtain ⟨content, hEntries, hResult⟩ := Option.bind_eq_some_iff.mp hContent
    cases hResult
    rw [Value.nesting, Nat.add_lt_add_iff_right] at hDepth
    have hCounter : 0 < depth := Nat.zero_lt_of_lt hDepth
    rw [readValue, List.append_assoc, readHead_writeHead _ hHead]
    simp [hCounter, readEntries_encode entries hEntries hDepth rest]
  | ext tag bytes =>
    rw [encode] at h
    obtain ⟨head, hHead, hResult⟩ := Option.bind_eq_some_iff.mp h
    cases hResult
    rw [Value.nesting] at hDepth
    have hCounter : 0 < depth := Nat.lt_of_succ_lt_succ hDepth
    rw [readValue, List.append_assoc, readHead_writeHead _ hHead]
    simp [hCounter, split_append]

theorem readItems_encode (items : List Value) {bytes : List UInt8}
    (h : encodeItems items = some bytes) {depth : Nat} (hDepth : nestingItems items < depth)
    (rest : List UInt8) :
    readMany (readValue depth) items.length (bytes ++ rest) = some (items, rest) := by
  cases items with
  | nil => cases h; rfl
  | cons item items =>
    rw [encodeItems] at h
    obtain ⟨first, hFirst, hRest⟩ := Option.bind_eq_some_iff.mp h
    obtain ⟨others, hOthers, hResult⟩ := Option.bind_eq_some_iff.mp hRest
    cases hResult
    rw [nestingItems, Nat.max_lt] at hDepth
    rw [List.length_cons, readMany, List.append_assoc, readValue_encode item hFirst hDepth.1]
    simp [readItems_encode items hOthers hDepth.2 rest]

theorem readEntries_encode (entries : List (Value × Value)) {bytes : List UInt8}
    (h : encodeEntries entries = some bytes) {depth : Nat} (hDepth : nestingEntries entries < depth)
    (rest : List UInt8) :
    readMany (readPair (readValue depth) (readValue depth)) entries.length (bytes ++ rest) =
      some (entries, rest) := by
  cases entries with
  | nil => cases h; rfl
  | cons entry entries =>
    obtain ⟨key, value⟩ := entry
    rw [encodeEntries] at h
    obtain ⟨first, hFirst, hRest⟩ := Option.bind_eq_some_iff.mp h
    obtain ⟨second, hSecond, hRest⟩ := Option.bind_eq_some_iff.mp hRest
    obtain ⟨others, hOthers, hResult⟩ := Option.bind_eq_some_iff.mp hRest
    cases hResult
    rw [nestingEntries, Nat.max_lt, Nat.max_lt] at hDepth
    rw [List.length_cons, readMany, readPair, List.append_assoc, List.append_assoc,
      readValue_encode key hFirst hDepth.1.1]
    simp [readValue_encode value hSecond hDepth.1.2, readEntries_encode entries hOthers hDepth.2 rest]
end

/-- What `encode` writes, `decode` reads back below the depth limit, whatever follows it. -/
theorem decode_encode {v : Value} {bytes : List UInt8} (h : encode v = some bytes)
    (hNesting : v.nesting < depthLimit) (rest : List UInt8) : decode (bytes ++ rest) = some v := by
  rw [decode, readValue_encode v h hNesting, Option.map_some]

/-! ## At the depth limit -/

theorem guard_bind_eq_some {α : Type} {p : Prop} [Decidable p] {f : Unit → Option α} {a : α} :
    (guard p >>= f) = some a ↔ p ∧ f () = some a := by
  by_cases h : p
  · simp [guard, h]
  · simp [guard, h]

theorem readMany_mono {α : Type} {one one' : List UInt8 → Option (α × List UInt8)}
    (hOne : ∀ {input r}, one input = some r → one' input = some r) {count : Nat} {input : List UInt8}
    {r : List α × List UInt8} (h : readMany one count input = some r) :
    readMany one' count input = some r := by
  induction count generalizing input r with
  | zero => exact h
  | succ count ih =>
    obtain ⟨first, hFirst, h⟩ := Option.bind_eq_some_iff.mp h
    obtain ⟨others, hOthers, h⟩ := Option.bind_eq_some_iff.mp h
    exact Option.bind_eq_some_iff.mpr ⟨first, hOne hFirst, Option.bind_eq_some_iff.mpr ⟨others, ih hOthers, h⟩⟩

theorem readPair_mono {α : Type} {one one' : List UInt8 → Option (α × List UInt8)}
    (hOne : ∀ {input r}, one input = some r → one' input = some r) {input : List UInt8}
    {r : (α × α) × List UInt8} (h : readPair one one input = some r) : readPair one' one' input = some r := by
  obtain ⟨first, hFirst, h⟩ := Option.bind_eq_some_iff.mp h
  obtain ⟨second, hSecond, h⟩ := Option.bind_eq_some_iff.mp h
  exact Option.bind_eq_some_iff.mpr ⟨first, hOne hFirst, Option.bind_eq_some_iff.mpr ⟨second, hOne hSecond, h⟩⟩

/-- A higher limit reads the same value. -/
theorem readValue_succ {depth : Nat} {input : List UInt8} {r : Value × List UInt8}
    (h : readValue depth input = some r) : readValue (depth + 1) input = some r := by
  induction depth generalizing input r with
  | zero => cases h
  | succ depth ih =>
    rw [readValue] at h ⊢
    obtain ⟨⟨head, rest⟩, hHead, h⟩ := Option.bind_eq_some_iff.mp h
    refine Option.bind_eq_some_iff.mpr ⟨⟨head, rest⟩, hHead, ?_⟩
    cases head with
    | array length =>
      obtain ⟨_, h⟩ := guard_bind_eq_some.mp h
      obtain ⟨content, hContent, h⟩ := Option.bind_eq_some_iff.mp h
      refine guard_bind_eq_some.mpr ⟨Nat.succ_pos depth, ?_⟩
      exact Option.bind_eq_some_iff.mpr ⟨content, readMany_mono ih hContent, h⟩
    | map length =>
      obtain ⟨_, h⟩ := guard_bind_eq_some.mp h
      obtain ⟨content, hContent, h⟩ := Option.bind_eq_some_iff.mp h
      refine guard_bind_eq_some.mpr ⟨Nat.succ_pos depth, ?_⟩
      exact Option.bind_eq_some_iff.mpr ⟨content, readMany_mono (readPair_mono ih) hContent, h⟩
    | ext length tag =>
      exact guard_bind_eq_some.mpr ⟨Nat.succ_pos depth, (guard_bind_eq_some.mp h).2⟩
    | _ => exact h

theorem readValue_mono {depth depth' : Nat} (hDepth : depth ≤ depth') {input : List UInt8}
    {r : Value × List UInt8} (h : readValue depth input = some r) : readValue depth' input = some r := by
  induction hDepth with
  | refl => exact h
  | step _ ih => exact readValue_succ ih

theorem readMany_forall {α : Type} {one : List UInt8 → Option (α × List UInt8)} {P : α → Prop}
    (hOne : ∀ {input x rest}, one input = some (x, rest) → P x) {count : Nat} {input : List UInt8}
    {xs : List α} {rest : List UInt8} (h : readMany one count input = some (xs, rest)) :
    ∀ x ∈ xs, P x := by
  induction count generalizing input xs rest with
  | zero =>
    cases h
    exact List.forall_mem_nil _
  | succ count ih =>
    obtain ⟨first, hFirst, h⟩ := Option.bind_eq_some_iff.mp h
    obtain ⟨others, hOthers, h⟩ := Option.bind_eq_some_iff.mp h
    cases h
    exact List.forall_mem_cons.mpr ⟨hOne hFirst, ih hOthers⟩

theorem nestingItems_lt_iff {items : List Value} {depth : Nat} (hDepth : 0 < depth) :
    nestingItems items < depth ↔ ∀ item ∈ items, item.nesting < depth := by
  induction items with
  | nil => simpa [nestingItems] using hDepth
  | cons item items ih => rw [nestingItems, Nat.max_lt, ih, List.forall_mem_cons]

theorem nestingEntries_lt_iff {entries : List (Value × Value)} {depth : Nat} (hDepth : 0 < depth) :
    nestingEntries entries < depth ↔
      ∀ entry ∈ entries, entry.1.nesting < depth ∧ entry.2.nesting < depth := by
  induction entries with
  | nil => simpa [nestingEntries] using hDepth
  | cons entry entries ih => rw [nestingEntries, Nat.max_lt, Nat.max_lt, ih, List.forall_mem_cons]

theorem nesting_readValue {depth : Nat} {input : List UInt8} {v : Value} {rest : List UInt8}
    (h : readValue depth input = some (v, rest)) : v.nesting < depth := by
  induction depth generalizing input v rest with
  | zero => cases h
  | succ depth ih =>
    rw [readValue] at h
    obtain ⟨⟨head, _⟩, _, h⟩ := Option.bind_eq_some_iff.mp h
    cases head with
    | nil | boolean | integer | f32 | f64 =>
      cases h
      exact Nat.succ_pos depth
    | string length =>
      obtain ⟨_, _, h⟩ := Option.bind_eq_some_iff.mp h
      dsimp only at h
      split at h <;> cases h <;> exact Nat.succ_pos depth
    | binary length =>
      obtain ⟨_, _, h⟩ := Option.bind_eq_some_iff.mp h
      cases h
      exact Nat.succ_pos depth
    | array length =>
      obtain ⟨hCounter, h⟩ := guard_bind_eq_some.mp h
      obtain ⟨_, hContent, h⟩ := Option.bind_eq_some_iff.mp h
      cases h
      exact Nat.succ_lt_succ ((nestingItems_lt_iff hCounter).mpr (readMany_forall ih hContent))
    | map length =>
      obtain ⟨hCounter, h⟩ := guard_bind_eq_some.mp h
      obtain ⟨_, hContent, h⟩ := Option.bind_eq_some_iff.mp h
      cases h
      refine Nat.succ_lt_succ ((nestingEntries_lt_iff hCounter).mpr (readMany_forall ?_ hContent))
      intro input entry rest hPair
      obtain ⟨_, hKey, hPair⟩ := Option.bind_eq_some_iff.mp hPair
      obtain ⟨_, hValue, hPair⟩ := Option.bind_eq_some_iff.mp hPair
      cases hPair
      exact ⟨ih hKey, ih hValue⟩
    | ext length tag =>
      obtain ⟨hCounter, h⟩ := guard_bind_eq_some.mp h
      obtain ⟨_, _, h⟩ := Option.bind_eq_some_iff.mp h
      cases h
      exact Nat.succ_lt_succ hCounter

theorem nesting_decode {input : List UInt8} {v : Value} (h : decode input = some v) :
    v.nesting < depthLimit := by
  obtain ⟨⟨v, rest⟩, hRead, rfl⟩ := Option.map_eq_some_iff.mp h
  exact nesting_readValue hRead

/-- A value that is nested too deep is written and not read. -/
theorem decode_encode_none {v : Value} {bytes : List UInt8} (h : encode v = some bytes)
    (hNesting : depthLimit ≤ v.nesting) (rest : List UInt8) : decode (bytes ++ rest) = none := by
  rw [decode, Option.map_eq_none_iff, Option.eq_none_iff_forall_ne_some]
  rintro ⟨v', rest'⟩ hRead
  have hHigher := readValue_mono (Nat.le_succ_of_le hNesting) hRead
  rw [readValue_encode v h (Nat.lt_succ_self _) rest] at hHigher
  cases hHigher
  exact absurd (nesting_readValue hRead) (Nat.not_lt.mpr hNesting)

end Foundation.MessagePack
