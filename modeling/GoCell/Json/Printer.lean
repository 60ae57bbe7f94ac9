import GoCell.Json.Basic
import GoCell.Number.Layout

/-!
The compact text of a JSON document: no blanks, strings with the fewest
escapes, numbers with their shortest digits.
-/

namespace GoCell.Json

/-- Positional from `0.00001` to below `10 ^ 16`; an exponent has its sign. -/
def floatLayout : FloatLayout := ⟨-4, 16, true, .even⟩

/-- A hexadecimal digit, in lower case. -/
def hexDigit (n : Nat) : Char := Nat.digitChar (n % 16)

/-- One character of a string. Quotes, backslashes and the characters below
U+0020 are escaped, nothing else. -/
def writeChar (c : Char) : List Char :=
  if c = '"' then ['\\', '"']
  else if c = '\\' then ['\\', '\\']
  else if c = '\n' then ['\\', 'n']
  else if c = '\r' then ['\\', 'r']
  else if c = '\t' then ['\\', 't']
  else if c = '\x08' then ['\\', 'b']
  else if c = '\x0c' then ['\\', 'f']
  else if c.toNat < 0x20 then
    ['\\', 'u', '0', '0', hexDigit (c.toNat / 16), hexDigit c.toNat]
  else [c]

def writeString (s : String) : List Char :=
  '"' :: (s.toList.flatMap writeChar ++ ['"'])

/-- A finite double; there is no text for the others, which become `null`. -/
def writeReal : Binary64 → List Char
  | .finite negative index => floatLayout.write negative index
  | _ => ['n', 'u', 'l', 'l']

mutual

def write : Json → List Char
  | .null => ['n', 'u', 'l', 'l']
  | .bool true => ['t', 'r', 'u', 'e']
  | .bool false => ['f', 'a', 'l', 's', 'e']
  | .integer n => writeInt n
  | .real x => writeReal x
  | .string s => writeString s
  | .array items => '[' :: ([','].intercalate (writeEach items) ++ [']'])
  | .object members => '{' :: ([','].intercalate (writeMembers members) ++ ['}'])

def writeEach : List Json → List (List Char)
  | [] => []
  | j :: js => write j :: writeEach js

def writeMembers : List (String × Json) → List (List Char)
  | [] => []
  | (key, j) :: ms => (writeString key ++ ':' :: write j) :: writeMembers ms

end

theorem writeEach_eq_map (js : List Json) : writeEach js = js.map write := by
  induction js with
  | nil => rfl
  | cons j js ih => simp [writeEach, ih]

theorem writeMembers_eq_map (ms : List (String × Json)) :
    writeMembers ms = ms.map fun m => writeString m.1 ++ ':' :: write m.2 := by
  induction ms with
  | nil => rfl
  | cons m ms ih => simp [writeMembers, ih]

/-- The compact text as a string. -/
def render (j : Json) : String := String.ofList (write j)

end GoCell.Json
