/-!
Interpreted string literals. Quotes, backslashes and control characters are
escaped, so a literal is a single line and ends only at its closing quote.
-/

namespace GoCell.Go

def hexDigits (n : Nat) : List Char := [Nat.digitChar (n / 16 % 16), Nat.digitChar (n % 16)]

/-- One character inside a literal. -/
def quoteChar (c : Char) : List Char :=
  if c = '\\' then ['\\', '\\']
  else if c = '"' then ['\\', '"']
  else if c = '\n' then ['\\', 'n']
  else if c = '\r' then ['\\', 'r']
  else if c = '\t' then ['\\', 't']
  else if c.toNat < 0x20 ∨ c.toNat = 0x7f then ['\\', 'x'] ++ hexDigits c.toNat
  else [c]

def quoteChars (l : List Char) : List Char := '"' :: (l.flatMap quoteChar ++ ['"'])

/-- The literal that denotes a text. -/
def quote (s : String) : String := String.ofList (quoteChars s.toList)

end GoCell.Go
