import GoCell.Number.Fixed
import GoCell.Text.Blank

/-!
Lengths of time, in nanoseconds, and their text in the largest unit of which they
hold at least one.
-/

namespace GoCell

/-- A length of time. -/
structure Duration where
  nanos : Nat
  deriving DecidableEq

namespace Duration

def ofMillis (n : Nat) : Duration := ⟨n * 1000000⟩

def ofSeconds (n : Nat) : Duration := ⟨n * 1000000000⟩

/-- A number of units of `10 ^ places` nanoseconds; the fraction has no zeros at
its end. -/
def inUnit (nanos places : Nat) : List Char :=
  let fraction := match Text.dropEndWhile (· == '0') (padNat places (nanos % Nat.pow 10 places)) with
    | [] => []
    | ds => '.' :: ds
  writeNat (nanos / Nat.pow 10 places) ++ fraction

def text (d : Duration) : String :=
  if 1000000000 ≤ d.nanos then String.ofList (inUnit d.nanos 9) ++ "s"
  else if 1000000 ≤ d.nanos then String.ofList (inUnit d.nanos 6) ++ "ms"
  else if 1000 ≤ d.nanos then String.ofList (inUnit d.nanos 3) ++ "µs"
  else String.ofList (writeNat d.nanos) ++ "ns"

end Duration

end GoCell
