import GoCell.Proofs.Json.RoundTrip
import Mathlib.Data.List.DropRight

/-!
The texts of JSON values: what may be written, whatever it is read as. Space may stand
around every token, numbers and strings may be spelled in any way, objects may repeat keys,
and nothing is said about nesting.
-/

namespace GoCell.Json

/-! ### Space -/

/-- Whether a text is nothing but space. -/
def IsSpaces (l : List Char) : Prop := ∀ c ∈ l, isSpace c

theorem isSpaces_nil : IsSpaces [] := by simp [IsSpaces]

theorem isSpaces_blank : IsSpaces [' '] := by simp [IsSpaces, isSpace]

theorem isSpaces_newline : IsSpaces ['\n'] := by simp [IsSpaces, isSpace]

theorem skipSpace_append {space : List Char} (h : IsSpaces space) (l : List Char) :
    skipSpace (space ++ l) = skipSpace l :=
  List.dropWhile_append_of_pos h

@[simp] theorem skipSpace_skipSpace (l : List Char) : skipSpace (skipSpace l) = skipSpace l :=
  List.dropWhile_idempotent isSpace l

/-- Something with space around it. -/
structure Spaced (α : Type) where
  before : List Char
  content : α
  after : List Char
  before_spaces : IsSpaces before
  after_spaces : IsSpaces after

namespace Spaced

variable {α : Type}

def chars (text : α → List Char) (e : Spaced α) : List Char := e.before ++ text e.content ++ e.after

/-- Something without space around it. -/
def bare (a : α) : Spaced α := ⟨[], a, [], isSpaces_nil, isSpaces_nil⟩

end Spaced

/-! ### Strings -/

/-- A hexadecimal digit with its value. -/
structure HexDigit where
  char : Char
  value : Nat
  value_eq : hexValue? char = some value

def HexDigit.decimal (d : Fin 10) : HexDigit := ⟨Nat.digitChar d, d, by revert d; decide⟩

/-- A code unit in four hexadecimal digits. -/
structure CodeUnit where
  first : HexDigit
  second : HexDigit
  third : HexDigit
  fourth : HexDigit

namespace CodeUnit

def chars (u : CodeUnit) : List Char := [u.first.char, u.second.char, u.third.char, u.fourth.char]

def value (u : CodeUnit) : Nat :=
  ((u.first.value * 16 + u.second.value) * 16 + u.third.value) * 16 + u.fourth.value

/-- The character beyond the first 65536 that a high and a low surrogate are together. -/
def pair (high low : CodeUnit) : Char :=
  Char.ofNat (0x10000 + (high.value - 0xd800) * 0x400 + (low.value - 0xdc00))

end CodeUnit

/-- A part of the content of a string: a character as it is, an escaped one, or a code unit. -/
inductive StringPart
  | plain (c : Char) (hquote : c ≠ '"') (hslash : c ≠ '\\') (hcontrol : 0x20 ≤ c.toNat)
  | escape (e c : Char) (h : escaped? e = some c)
  | unit (u : CodeUnit)

namespace StringPart

def chars : StringPart → List Char
  | plain c _ _ _ => [c]
  | escape e _ _ => ['\\', e]
  | unit u => '\\' :: 'u' :: u.chars

/-- The characters that the content of a string stands for. A high surrogate and the low one
right after it are one character; a surrogate alone is none. -/
def decode : List StringPart → Option (List Char)
  | [] => some []
  | plain c _ _ _ :: parts => (decode parts).map (c :: ·)
  | escape _ c _ :: parts => (decode parts).map (c :: ·)
  | unit u :: parts =>
    if isLowSurrogate u.value then none
    else if isHighSurrogate u.value then
      match parts with
      | unit v :: parts =>
        if isLowSurrogate v.value then (decode parts).map (u.pair v :: ·) else none
      | _ => none
    else (decode parts).map (Char.ofNat u.value :: ·)

end StringPart

/-- A character as it is, if it may be written so. -/
def StringPart.plain? (c : Char) : Option StringPart :=
  if h : c ≠ '"' ∧ c ≠ '\\' ∧ 0x20 ≤ c.toNat then some (.plain c h.1 h.2.1 h.2.2) else none

/-- The letter `a` by its code unit. -/
def escapedA : StringPart := .unit ⟨.decimal 0, .decimal 0, .decimal 6, .decimal 1⟩

/-- The characters of a text as they are, without those that have to be escaped. -/
def plainParts (s : String) : List StringPart := s.toList.filterMap StringPart.plain?

/-- The text of a string, with its quotes. -/
def stringChars (parts : List StringPart) : List Char :=
  '"' :: (parts.flatMap StringPart.chars ++ ['"'])

/-! ### Numbers -/

/-- The text of a fraction, which may be absent. -/
inductive IsFraction : List Char → Prop
  | absent : IsFraction []
  | present {ds : List Char} (h : isDigits ds) : IsFraction ('.' :: ds)

/-- The text of an exponent, which may be absent. -/
inductive IsExponent : List Char → Prop
  | absent : IsExponent []
  | present {mark : Char} {sign ds : List Char} (hmark : mark = 'e' ∨ mark = 'E')
      (hsign : sign = [] ∨ sign = ['+'] ∨ sign = ['-']) (h : isDigits ds) :
      IsExponent (mark :: (sign ++ ds))

/-- The text of a number. A zero in front is the whole part. -/
inductive IsNumber : List Char → Prop
  | mk {sign whole fraction exponent : List Char} (hsign : sign = [] ∨ sign = ['-'])
      (hwhole : isDigits whole) (hzero : whole.head? = some '0' → whole = ['0'])
      (hfraction : IsFraction fraction) (hexponent : IsExponent exponent) :
      IsNumber (sign ++ (whole ++ (fraction ++ exponent)))

/-! ### Containers -/

/-- The entries of a container: the first one, or those that follow another one. -/
def entryChars (isFirst : Bool) (entries : List (List Char)) : List Char :=
  if isFirst then [','].intercalate entries else entries.flatMap (',' :: ·)

/-- A member of an object. -/
structure Member where
  key : Spaced (List StringPart)
  value : Spaced (List Char)

namespace Member

/-- A member without space around its parts. -/
def bare (key : List StringPart) (value : List Char) : Member := ⟨.bare key, .bare value⟩

def chars (m : Member) : List Char := m.key.chars stringChars ++ ':' :: m.value.chars id

/-- What stands after the key, up to the value and with `rest` after it. -/
def fromColon (m : Member) (rest : List Char) : List Char :=
  m.key.after ++ ':' :: (m.value.before ++ (m.value.content ++ rest))

theorem chars_append (m : Member) (rest : List Char) :
    m.chars ++ rest = m.key.before ++ '"' :: (m.key.content.flatMap StringPart.chars ++
      '"' :: m.fromColon (m.value.after ++ rest)) := by
  simp [chars, Spaced.chars, stringChars, fromColon]

/-- The name that the key stands for, if it stands for one. -/
def name? (m : Member) : Option String := (StringPart.decode m.key.content).map String.ofList

end Member

/-- The text of an array from its first element on. -/
def arrayChars (space : List Char) (items : List (Spaced (List Char))) : List Char :=
  space ++ (entryChars true (items.map (Spaced.chars id)) ++ [']'])

/-- The text of an object from its first member on. -/
def objectChars (space : List Char) (members : List Member) : List Char :=
  space ++ (entryChars true (members.map Member.chars) ++ ['\x7d'])

/-- Whether a text is that of a value, without space around it. -/
inductive IsValue : List Char → Prop
  | null : IsValue ['n', 'u', 'l', 'l']
  | true : IsValue ['t', 'r', 'u', 'e']
  | false : IsValue ['f', 'a', 'l', 's', 'e']
  | number {l : List Char} (h : IsNumber l) : IsValue l
  | string (parts : List StringPart) : IsValue (stringChars parts)
  | array {space : List Char} {items : List (Spaced (List Char))} (hspace : IsSpaces space)
      (hitems : ∀ e ∈ items, IsValue e.content) : IsValue ('[' :: arrayChars space items)
  | object {space : List Char} {members : List Member} (hspace : IsSpaces space)
      (hmembers : ∀ m ∈ members, IsValue m.value.content) :
      IsValue ('\x7b' :: objectChars space members)

theorem IsNumber.exists_cons {l : List Char} (h : IsNumber l) :
    ∃ c r, l = c :: r ∧ (c = '-' ∨ c.isDigit) := by
  obtain ⟨hsign, hwhole, -, -, -⟩ := h
  rcases hsign with rfl | rfl
  · simp only [isDigits, Bool.and_eq_true, Bool.not_eq_true', List.isEmpty_eq_false_iff,
      List.all_eq_true] at hwhole
    obtain ⟨c, r, rfl⟩ := List.exists_cons_of_ne_nil hwhole.1
    exact ⟨c, _, rfl, .inr (hwhole.2 c List.mem_cons_self)⟩
  · exact ⟨'-', _, rfl, .inl rfl⟩

/-- The text of a value from its first character on. This character tells what the value
is. -/
structure StartsValue (c : Char) (r : List Char) : Prop where
  isSpace_eq_false : isSpace c = false
  ne_mark : c ≠ ']' ∧ c ≠ '\x7d' ∧ c ≠ ','
  null : c = 'n' → r = ['u', 'l', 'l']
  true : c = 't' → r = ['r', 'u', 'e']
  false : c = 'f' → r = ['a', 'l', 's', 'e']
  string : c = '"' → ∃ parts : List StringPart, r = parts.flatMap StringPart.chars ++ ['"']
  array : c = '[' → ∃ space items, r = arrayChars space items ∧ IsSpaces space ∧
    ∀ e ∈ items, IsValue e.content
  object : c = '\x7b' → ∃ space members, r = objectChars space members ∧ IsSpaces space ∧
    ∀ m ∈ members, IsValue m.value.content

theorem IsValue.exists_cons {l : List Char} (h : IsValue l) :
    ∃ c r, l = c :: r ∧ StartsValue c r := by
  cases h with
  | null => exact ⟨'n', _, rfl, by constructor <;> simp [isSpace]⟩
  | true => exact ⟨'t', _, rfl, by constructor <;> simp [isSpace]⟩
  | false => exact ⟨'f', _, rfl, by constructor <;> simp [isSpace]⟩
  | number hnumber =>
      obtain ⟨c, r, rfl, hc⟩ := hnumber.exists_cons
      have hne : ∀ x, ¬(x = '-' ∨ x.isDigit) → c ≠ x := fun _ => ne_of_startsNumber hc
      refine ⟨c, r, rfl, ?_⟩
      constructor
      case isSpace_eq_false => exact isSpace_eq_false_of_startsNumber hc
      case ne_mark => exact ⟨hne _ (by decide), hne _ (by decide), hne _ (by decide)⟩
      all_goals exact fun heq => absurd heq (hne _ (by decide))
  | string parts =>
      refine ⟨'"', _, rfl, ?_⟩
      constructor
      case string => exact fun _ => ⟨parts, rfl⟩
      all_goals simp [isSpace]
  | array hspace hitems =>
      refine ⟨'[', _, rfl, ?_⟩
      constructor
      case array => exact fun _ => ⟨_, _, rfl, hspace, hitems⟩
      all_goals simp [isSpace]
  | object hspace hmembers =>
      refine ⟨'\x7b', _, rfl, ?_⟩
      constructor
      case object => exact fun _ => ⟨_, _, rfl, hspace, hmembers⟩
      all_goals simp [isSpace]

/-! ### Objects alone -/

/-- The text of an object, with space around it. -/
structure ObjectText where
  before : List Char
  space : List Char
  members : List Member
  after : List Char
  before_spaces : IsSpaces before
  space_spaces : IsSpaces space
  after_spaces : IsSpaces after
  isValue : ∀ m ∈ members, IsValue m.value.content

def ObjectText.text (o : ObjectText) : String :=
  String.ofList (o.before ++ ('\x7b' :: objectChars o.space o.members ++ o.after))

/-- The text of the object that has one member. -/
def Member.alone (m : Member) : String := String.ofList ('\x7b' :: objectChars [] [m])

end GoCell.Json
