/-!
UTF-8. Text is encoded to bytes, and any bytes are decoded to text: a longest
piece that could begin a character and does not continue one, and each byte that
can begin none, becomes one replacement character.
-/

namespace GoCell.Text

def encodeUtf8 (s : String) : List UInt8 := s.toUTF8.toList

def replacement : Char := '\ufffd'

/-- A character of which some bytes have been read: how many are missing, the
bounds of the next one, and the bits so far. -/
structure Partial where
  missing : Nat
  low : Nat
  high : Nat
  bits : Nat

/-- What a byte begins. -/
inductive Lead
  | whole (c : Char)
  | part (p : Partial)
  | invalid

def Lead.ofByte (b : Nat) : Lead :=
  if b < 0x80 then .whole (Char.ofNat b)
  else if 0xc2 ≤ b ∧ b ≤ 0xdf then .part ⟨1, 0x80, 0xbf, b - 0xc0⟩
  else if b = 0xe0 then .part ⟨2, 0xa0, 0xbf, 0⟩
  else if b = 0xed then .part ⟨2, 0x80, 0x9f, 0xd⟩
  else if 0xe1 ≤ b ∧ b ≤ 0xef then .part ⟨2, 0x80, 0xbf, b - 0xe0⟩
  else if b = 0xf0 then .part ⟨3, 0x90, 0xbf, 0⟩
  else if 0xf1 ≤ b ∧ b ≤ 0xf3 then .part ⟨3, 0x80, 0xbf, b - 0xf0⟩
  else if b = 0xf4 then .part ⟨3, 0x80, 0x8f, 4⟩
  else .invalid

/-- Decodes the rest of some bytes. `done` is the text so far, last character
first; the second argument is the character that has begun. -/
def decodeUtf8From : List Char → Option Partial → List UInt8 → List Char
  | done, none, [] => done.reverse
  | done, some _, [] => (replacement :: done).reverse
  | done, none, b :: r =>
    match Lead.ofByte b.toNat with
    | .whole c => decodeUtf8From (c :: done) none r
    | .part p => decodeUtf8From done (some p) r
    | .invalid => decodeUtf8From (replacement :: done) none r
  | done, some p, b :: r =>
    let n := b.toNat
    if p.low ≤ n ∧ n ≤ p.high then
      let bits := p.bits * 64 + (n - 0x80)
      if p.missing ≤ 1 then decodeUtf8From (Char.ofNat bits :: done) none r
      else decodeUtf8From done (some ⟨p.missing - 1, 0x80, 0xbf, bits⟩) r
    else match Lead.ofByte n with
      | .whole c => decodeUtf8From (c :: replacement :: done) none r
      | .part p => decodeUtf8From (replacement :: done) (some p) r
      | .invalid => decodeUtf8From (replacement :: replacement :: done) none r

def decodeUtf8 (bytes : List UInt8) : String :=
  String.ofList (decodeUtf8From [] none bytes)

end GoCell.Text
