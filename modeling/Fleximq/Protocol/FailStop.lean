import Fleximq.Foundation.Trace
import Fleximq.Protocol.Codec

/-! # Parser errors

A parser that has failed keeps its buffer, so it fails in the same way however
much is pushed after it. The exception is the last exit of `try_parse`: the
message is split off before `from_bytes` refuses it, which happens when the
declared sizes wrap to a total shorter than a base header.
-/
namespace Fleximq.Protocol
open Foundation
open Foundation.Incremental (Verdict)

namespace MessageParser

inductive Call where
  | pushData (data : List UInt8)
  | tryParse

def call (p : MessageParser) : Call → MessageParser
  | .pushData data =>
    match p.pushData data with
    | .ok p => p
    | .error _ => p
  | .tryParse => p.tryParse.1

/-- A failed `try_parse` changes nothing, and after any calls that follow it `try_parse` fails in
the same way. A refused `push_data` changes nothing, nor does a `decode` that refuses its input for
the size. -/
structure FailStop (p : MessageParser) : Prop where
  atomic : ∀ e, p.tryParse.2 = .error e → p.tryParse.1 = p
  sticky : ∀ e, p.tryParse.2 = .error e →
    ∀ calls, (Trace.run call p (.tryParse :: calls)).tryParse.2 = .error e
  pushData : ∀ data e, p.pushData data = .error e → p.call (.pushData data) = p
  decode : ∀ maxFrameSize src, ¬ FrameDecoder.Admits ⟨p, maxFrameSize⟩ src →
    ∃ size max, FrameDecoder.decode ⟨p, maxFrameSize⟩ src =
      (⟨p, maxFrameSize⟩, src, .error (.messageTooLarge size max))

/-- A base header within the limits is at the front of the buffer, and the total that it declares,
as the machine adds it up, is positive and less than the size of a base header. -/
def SplitsShort (p : MessageParser) : Prop :=
  ∃ h, parseBaseHeader p.buffer = .ok h ∧ Permits p.maxMessageSize p.maxHeaderSize h ∧
    0 < h.totalMessageSize.toNat ∧ h.totalMessageSize.toNat < baseHeaderSize

theorem tryParse_splitsShort {p : MessageParser} (h : p.SplitsShort) :
    (∃ e, p.tryParse.2 = .error e) ∧ p.tryParse.1.buffer ≠ p.buffer := by
  obtain ⟨baseHeader, hParse, hPermits, hPositive, hShort⟩ := h
  have hLength := parseBaseHeader_length hParse
  have hComplete : baseHeader.totalMessageSize.toNat ≤ p.buffer.length := by omega
  rw [tryParse_decided p hParse, tryComplete_of_permits hPermits, if_neg (Nat.not_lt.mpr hComplete),
    fromBytes_take hParse hComplete, if_pos hShort]
  refine ⟨⟨_, rfl⟩, ?_⟩
  intro hBuffer
  have hDropped := congrArg List.length hBuffer
  rw [List.length_drop] at hDropped
  omega

theorem tryParse_of_fail {p : MessageParser} {e : ProtocolError} (hWhole : ¬ p.SplitsShort)
    (hFail : verdict p.maxMessageSize p.maxHeaderSize p.buffer = .fail e) : p.tryParse = (p, .error e) := by
  refine Prod.ext ?_ (tryParse_fail p hFail)
  obtain ⟨h, hParse, ⟨hRefused, _⟩ | ⟨hPermits, hShort, _⟩⟩ := verdict_eq_fail.mp hFail
  · rw [tryParse_decided p hParse, tryComplete_of_not_permits hRefused]
  · have hZero : h.totalMessageSize.toNat = 0 := by
      by_contra hNonzero
      exact hWhole ⟨h, hParse, hPermits, Nat.pos_of_ne_zero hNonzero, hShort⟩
    rw [tryParse_decided p hParse, tryComplete_of_permits hPermits, hZero, if_neg (Nat.not_lt_zero _)]
    rfl

theorem verdict_of_tryParse {p : MessageParser} {e : ProtocolError} (h : p.tryParse.2 = .error e) :
    verdict p.maxMessageSize p.maxHeaderSize p.buffer = .fail e := by
  rcases p.tryParse_cases with ⟨_, hParse⟩ | ⟨m, n, _, hParse⟩ | ⟨e', hFail, hError⟩
  · rw [hParse] at h
    cases h
  · rw [hParse] at h
    cases h
  · cases h.symm.trans hError
    exact hFail

/-! ## A parser that has failed -/

/-- The parser fails with the error and would split nothing off. -/
structure Stuck (e : ProtocolError) (p : MessageParser) : Prop where
  fails : verdict p.maxMessageSize p.maxHeaderSize p.buffer = .fail e
  whole : ¬ p.SplitsShort

theorem Stuck.call {e : ProtocolError} (p : MessageParser) (c : Call) (h : Stuck e p) :
    Stuck e (p.call c) := by
  cases c with
  | tryParse =>
    rw [MessageParser.call, tryParse_of_fail h.whole h.fails]
    exact h
  | pushData data =>
    rw [MessageParser.call, MessageParser.pushData]
    split_ifs
    · exact h
    · refine ⟨(decoder p.maxMessageSize p.maxHeaderSize).fail_append h.fails data, ?_⟩
      rintro ⟨baseHeader, hParse, hRest⟩
      obtain ⟨baseHeader', hParse', _⟩ := verdict_eq_fail.mp h.fails
      obtain rfl : baseHeader' = baseHeader :=
        Except.ok.inj ((parseBaseHeader_append hParse' data).symm.trans hParse)
      exact h.whole ⟨baseHeader', hParse', hRest⟩

/-- Parser errors are fail-stop in exactly the states that do not split off less than a base
header. -/
theorem failStop_iff (p : MessageParser) : p.FailStop ↔ ¬ p.SplitsShort := by
  constructor
  · intro hStop hShort
    obtain ⟨⟨e, hError⟩, hChanged⟩ := tryParse_splitsShort hShort
    exact hChanged (congrArg buffer (hStop.atomic e hError))
  · intro hWhole
    refine ⟨?_, ?_, ?_, ?_⟩
    · intro e hError
      rw [tryParse_of_fail hWhole (verdict_of_tryParse hError)]
    · intro e hError calls
      have hStuck : Stuck e p := ⟨verdict_of_tryParse hError, hWhole⟩
      have hEnd := Trace.run_invariant Stuck.call (hStuck.call p .tryParse) calls
      exact tryParse_fail _ hEnd.fails
    · intro data e hRefused
      rw [call, hRefused]
    · intro maxFrameSize src hRefused
      exact FrameDecoder.decode_of_not_admits hRefused

/-- A base header that declares `2 ^ 64 + 33` bytes, one header byte among them. -/
def shortHeader : BaseHeader := .new .request clientIdMinDynamic 1 0xfffffffffffffffe

theorem not_failStop_shortHeader :
    ∃ p, new.pushData shortHeader.encode = .ok p ∧
      p.tryParse = ({ p with buffer := [254] }, .error (.incompleteData 34 33)) ∧ ¬ p.FailStop := by
  refine ⟨⟨shortHeader.encode, defaultMaxMessageSize, defaultMaxHeaderSize⟩, rfl, rfl, ?_⟩
  intro hStop
  have hBuffer : [254] = shortHeader.encode :=
    congrArg buffer (hStop.atomic (.incompleteData 34 33) rfl)
  exact absurd (congrArg List.length hBuffer) (by decide)

end MessageParser
end Fleximq.Protocol
