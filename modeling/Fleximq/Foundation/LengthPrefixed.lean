import Fleximq.Foundation.BigEndian
import Fleximq.Foundation.Incremental

/-! # Frames with a length prefix

A frame is the length of its data, in a fixed number of bytes, and the data. The
decoder that splits a stream into frames never fails.
-/
namespace Foundation.LengthPrefixed
open Incremental

def frame (width : Nat) (data : List UInt8) : List UInt8 := BigEndian.write width data.length ++ data

theorem frame_length (width : Nat) (data : List UInt8) : (frame width data).length = width + data.length := by
  rw [frame, List.length_append, BigEndian.write_length]

def verdict (width : Nat) (input : List UInt8) : Verdict Empty (List UInt8) :=
  if input.length < width then .wait
  else
    let length := BigEndian.read (input.take width)
    if input.length < width + length then .wait
    else .deliver ((input.drop width).take length) (width + length)

section
variable {width : Nat} {input data : List UInt8} {n : Nat}

theorem verdict_eq_deliver :
    verdict width input = .deliver data n ↔
      width ≤ input.length ∧ n = width + BigEndian.read (input.take width) ∧ n ≤ input.length ∧
        data = (input.drop width).take (BigEndian.read (input.take width)) := by
  unfold verdict
  constructor
  · intro h
    split at h
    · cases h
    · rename_i hPrefix
      dsimp only at h
      split at h
      · cases h
      · rename_i hComplete
        cases h
        exact ⟨Nat.not_lt.mp hPrefix, rfl, Nat.not_lt.mp hComplete, rfl⟩
  · rintro ⟨hPrefix, rfl, hComplete, rfl⟩
    rw [if_neg (Nat.not_lt.mpr hPrefix)]
    exact if_neg (Nat.not_lt.mpr hComplete)

theorem verdict_append (h : verdict width input = .deliver data n) (more : List UInt8) :
    verdict width (input ++ more) = .deliver data n := by
  obtain ⟨hPrefix, hSize, hComplete, rfl⟩ := verdict_eq_deliver.mp h
  have hLength : (input ++ more).take width = input.take width := List.take_append_of_le_length hPrefix
  have hData : BigEndian.read (input.take width) ≤ (input.drop width).length := by
    rw [List.length_drop]
    omega
  refine verdict_eq_deliver.mpr ⟨?_, ?_, ?_, ?_⟩
  · rw [List.length_append]
    omega
  · rw [hLength, hSize]
  · rw [List.length_append]
    omega
  · rw [hLength, List.drop_append_of_le_length hPrefix, List.take_append_of_le_length hData]

end

def decoder (width : Nat) (hWidth : 0 < width) : Decoder UInt8 Empty (List UInt8) where
  verdict := verdict width
  progress h := by
    obtain ⟨_, rfl, hComplete, _⟩ := verdict_eq_deliver.mp h
    exact ⟨by omega, hComplete⟩
  deliver_append := verdict_append
  fail_append := by
    intro input e
    cases e

variable {width : Nat} (hWidth : 0 < width)

theorem decoder_nil : (decoder width hWidth).verdict [] = .wait := if_pos hWidth

theorem delivers_frame {data : List UInt8} (hLength : data.length < 256 ^ width) :
    (decoder width hWidth).Delivers (frame width data) data := by
  have hTake : (frame width data).take width = BigEndian.write width data.length :=
    List.take_left' (BigEndian.write_length width _)
  refine verdict_eq_deliver.mpr ⟨?_, ?_, Nat.le_refl _, ?_⟩
  · rw [frame_length]
    omega
  · rw [hTake, BigEndian.read_write_of_lt hLength, frame_length]
  · rw [hTake, BigEndian.read_write_of_lt hLength, frame, List.drop_left' (BigEndian.write_length width _),
      List.take_length]

include hWidth in
/-- A frame that lacks its end is waited for. -/
theorem verdict_part {data part left : List UInt8} (hLength : data.length < 256 ^ width)
    (hFrame : part ++ left = frame width data) (hLeft : left ≠ []) : verdict width part = .wait := by
  have hShort : part.length < (frame width data).length := by
    have hPositive := List.length_pos_iff.mpr hLeft
    rw [← hFrame, List.length_append]
    omega
  have hTake : (frame width data).take part.length = part := by
    rw [← hFrame, List.take_left]
  rw [← hTake]
  exact Decoder.verdict_take (delivers_frame hWidth hLength) hShort

/-- A length is waited for, with the data that it announces. -/
theorem verdict_length {length : Nat} {got : List UInt8} (hLength : length < 256 ^ width)
    (hShort : got.length < length) : verdict width (BigEndian.write width length ++ got) = .wait := by
  have hTake : (BigEndian.write width length ++ got).take width = BigEndian.write width length :=
    List.take_left' (BigEndian.write_length width length)
  rw [verdict, hTake, BigEndian.read_write_of_lt hLength, List.length_append, BigEndian.write_length,
    if_neg (by omega), if_pos (by omega)]

end Foundation.LengthPrefixed
