/-!
Streams of bytes, finite or repeating for ever. A stream is a finite part and a
cycle that is repeated after it; the cycle of a finite stream is empty.
-/

namespace GoCell

structure ByteStream where
  bytes : List UInt8 := []
  cycle : List UInt8 := []

namespace ByteStream

def ofBytes (bytes : List UInt8) : ByteStream := { bytes }

def isFinite (s : ByteStream) : Bool := s.cycle.isEmpty

/-- Nothing comes after a stream that never ends. -/
def append (s t : ByteStream) : ByteStream :=
  if s.isFinite then { bytes := s.bytes ++ t.bytes, cycle := t.cycle } else s

/-- At least `n` bytes, or all. -/
def unroll (s : ByteStream) (n : Nat) : List UInt8 :=
  if s.isFinite then s.bytes
  else s.bytes ++ (List.replicate ((n - s.bytes.length) / s.cycle.length + 1) s.cycle).flatten

/-- The first `n` bytes. -/
def take (s : ByteStream) (n : Nat) : List UInt8 := (s.unroll n).take n

/-- What follows the first `n` bytes. -/
def drop (s : ByteStream) (n : Nat) : ByteStream :=
  { bytes := (s.unroll n).drop n, cycle := s.cycle }

/-- Replaces every byte by some others. -/
def flatMap (s : ByteStream) (f : UInt8 → List UInt8) : ByteStream :=
  { bytes := s.bytes.flatMap f, cycle := s.cycle.flatMap f }

end ByteStream

end GoCell
