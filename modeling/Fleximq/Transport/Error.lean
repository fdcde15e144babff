import Fleximq.Protocol.Types

/-! # Transport errors

The errors that the modelled transport functions return, and durations, which
some of them carry.
-/
namespace Fleximq.Transport
open Fleximq.Protocol

structure Duration where
  secs : UInt64
  nanos : UInt32
  nanos_lt : nanos.toNat < 1000000000
  deriving DecidableEq

def Duration.fromSecs (secs : UInt64) : Duration := ⟨secs, 0, by decide⟩

def Duration.asSecs (d : Duration) : UInt64 := d.secs

def Duration.asNanos (d : Duration) : Nat := d.secs.toNat * 1000000000 + d.nanos.toNat

inductive TransportError where
  | io (text : String)
  | invalidUrl (text : String)
  | protocol (e : ProtocolError)
  | connectionClosed
  | timeout (duration : Duration)
  | unsupportedTransport (text : String)
  | messageTooLarge (size max : Nat)
  | other (text : String)
  deriving DecidableEq

end Fleximq.Transport
