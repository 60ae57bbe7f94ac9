import GoCell.Number.Shortest
import GoCell.Text.Blank

/-!
Writing a finite double with its shortest digits, positionally or with an
exponent. Which of the two, and how an exponent is written, is the choice of a
format and comes as a record.
-/

namespace GoCell

/-- The choices of a format. A number whose digits are `0.d₁d₂…` times ten to the
`k` is positional for `k` from `least` to `greatest`. -/
structure FloatLayout where
  least : Int
  greatest : Int
  plusInExponent : Bool
  tie : Tie

namespace FloatLayout

/-- Digits with a point, at least one digit on either side of it. -/
def positional (ds : List Char) (k : Int) : List Char :=
  if k ≤ 0 then '0' :: '.' :: (List.replicate (-k).toNat '0' ++ ds)
  else if ds.length ≤ k.toNat then
    ds ++ List.replicate (k.toNat - ds.length) '0' ++ ['.', '0']
  else ds.take k.toNat ++ '.' :: ds.drop k.toNat

/-- One digit, a fraction if there are more, and the exponent. -/
def scientific (layout : FloatLayout) (ds : List Char) (k : Int) : List Char :=
  let fraction := match ds.drop 1 with
    | [] => []
    | r => '.' :: r
  let sign := if layout.plusInExponent && 1 ≤ k then ['+'] else []
  ds.take 1 ++ fraction ++ 'e' :: (sign ++ writeInt (k - 1))

/-- The text of the magnitude with this index. -/
def writeIndex (layout : FloatLayout) (index : Nat) : List Char :=
  if index = 0 then ['0', '.', '0']
  else
    let d := Binary64.shortest layout.tie index
    let all := writeNat d.digits
    let ds := Text.dropEndWhile (· == '0') all
    let k := all.length + d.exponent
    if layout.least ≤ k ∧ k ≤ layout.greatest then positional ds k
    else layout.scientific ds k

/-- The text of a finite double. -/
def write (layout : FloatLayout) (negative : Bool) (index : Nat) : List Char :=
  if negative then '-' :: layout.writeIndex index else layout.writeIndex index

end FloatLayout

end GoCell
