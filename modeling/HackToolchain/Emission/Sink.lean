import HackToolchain.Text

/-!
Buffered output to a device that may be full. Bytes wait in a buffer, which is handed to the device
when it is full and another byte comes, or when it is flushed. The first failure is kept, and after
it nothing more is taken or delivered.
-/

namespace HackToolchain.Emission

/-- Why output was not taken. -/
inductive WriteError
  | diskFull
  | shortWrite
deriving DecidableEq, Repr

def WriteError.message : WriteError → Text
  | .diskFull => "disk full"
  | .shortWrite => "short write"

/-- A device that takes a number of bytes in all. A write that goes beyond it fails, or is short without
saying so. Either way the device may take some of it, `taken` bytes where these fit; unless told otherwise
a short write is filled up to the limit and a failing one takes nothing. -/
structure Device where
  limit : Nat
  short : Bool
  taken : Nat := if short then limit else 0
deriving DecidableEq, Repr

/-- Output on its way to a device, or to one that takes everything. -/
structure Sink where
  device : Option Device := none
  delivered : Array UInt8 := #[]
  pending : Array UInt8 := #[]
  failure : Option WriteError := none
deriving DecidableEq, Repr

namespace Sink

def capacity : Nat := 4096

/-- Hands the first bytes of the buffer to the device. -/
def deliver (s : Sink) (count : Nat) : Sink :=
  { s with delivered := s.delivered ++ s.pending.extract 0 count, pending := s.pending.extract count }

/-- Empties the buffer into the device. -/
def flush (s : Sink) : Sink :=
  if s.failure.isSome then s
  else match s.device with
    | none => s.deliver s.pending.size
    | some device =>
      let room := device.limit - s.delivered.size
      if s.pending.size ≤ room then s.deliver s.pending.size
      else
        { s.deliver (min device.taken room) with
          failure := some (if device.short then .shortWrite else .diskFull) }

/-- Stores a byte, making room for it first. -/
def putByte (s : Sink) (b : UInt8) : Sink :=
  let s := if s.pending.size < capacity then s else s.flush
  if s.failure.isSome then s else { s with pending := s.pending.push b }

def put (s : Sink) (t : Text) : Sink := t.foldl putByte s

end Sink

end HackToolchain.Emission
