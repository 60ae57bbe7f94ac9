import GoCell.Json.Printer
import GoCell.Text.Inspected

/-!
What can be wrong with a JSON text: it ends early, it is malformed, or it is
well formed and does not hold the data that is wanted. Each cause is a
constructor; `message` has the wording.
-/

namespace GoCell.Json

/-- What stands where data of another kind is wanted. Containers are reported by
their opening bracket, without being read. -/
inductive Found
  | scalar (j : Json)
  | sequence
  | map

inductive Fault
  | endInValue
  | endInString
  | endInList
  | endInObject
  | expectedValue
  | expectedWord
  | expectedColon
  | expectedItemEnd
  | expectedMemberEnd
  | keyNotString
  | trailingComma
  | trailingCharacters
  | invalidNumber
  | numberOutOfRange
  | invalidEscape
  | loneSurrogate
  | unfinishedSurrogate
  | controlCharacter
  | tooDeep
  | mistyped (found : Found) (wanted : String)
  | unknownField (name : String) (known : List String)
  | duplicateField (name : String)
  | missingField (name : String)
  | wrongLength (length : Nat) (wanted : String)
  | unknownVariant (name : String) (known : List String)
  | noVariant (name : String)

inductive Category
  | endOfText
  | malformed
  | data
  deriving DecidableEq

namespace Fault

def category : Fault → Category
  | .endInValue | .endInString | .endInList | .endInObject => .endOfText
  | .mistyped _ _ | .unknownField _ _ | .duplicateField _ | .missingField _
  | .wrongLength _ _ | .unknownVariant _ _ | .noVariant _ => .data
  | _ => .malformed

/-- A text between backquotes. -/
def quoted (s : String) : String := "`" ++ s ++ "`"

def alternatives (names : List String) : String :=
  ", ".intercalate (names.map quoted)

def describe : Found → String
  | .scalar .null => "null"
  | .scalar (.bool b) => "boolean " ++ quoted (Json.bool b).render
  | .scalar (.integer n) => "integer " ++ quoted (Json.integer n).render
  | .scalar (.real x) => "floating point " ++ quoted (Json.real x).render
  | .scalar (.string s) => "string " ++ Text.inspect s
  | .scalar (.array _) | .sequence => "sequence"
  | .scalar (.object _) | .map => "map"

def message : Fault → String
  | .endInValue => "EOF while parsing a value"
  | .endInString => "EOF while parsing a string"
  | .endInList => "EOF while parsing a list"
  | .endInObject => "EOF while parsing an object"
  | .expectedValue => "expected value"
  | .expectedWord => "expected ident"
  | .expectedColon => "expected `:`"
  | .expectedItemEnd => "expected `,` or `]`"
  | .expectedMemberEnd => "expected `,` or `\x7d`"
  | .keyNotString => "key must be a string"
  | .trailingComma => "trailing comma"
  | .trailingCharacters => "trailing characters"
  | .invalidNumber => "invalid number"
  | .numberOutOfRange => "number out of range"
  | .invalidEscape => "invalid escape"
  | .loneSurrogate => "lone leading surrogate in hex escape"
  | .unfinishedSurrogate => "unexpected end of hex escape"
  | .controlCharacter =>
    "control character (\\u0000-\\u001F) found while parsing a string"
  | .tooDeep => "recursion limit exceeded"
  | .mistyped found wanted => "invalid type: " ++ describe found ++ ", expected " ++ wanted
  | .unknownField name known =>
    "unknown field " ++ quoted name ++ ", expected one of " ++ alternatives known
  | .duplicateField name => "duplicate field " ++ quoted name
  | .missingField name => "missing field " ++ quoted name
  | .wrongLength length wanted =>
    "invalid length " ++ toString length ++ ", expected " ++ wanted
  | .unknownVariant name known =>
    "unknown variant " ++ quoted name ++ ", expected one of " ++ alternatives known
  | .noVariant name => "data did not match any variant of untagged enum " ++ name

end Fault

end GoCell.Json
