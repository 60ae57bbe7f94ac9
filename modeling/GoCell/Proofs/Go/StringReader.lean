import GoCell.Go.StringLiteral

/-!
Reading interpreted string literals. A literal denotes bytes: a raw character
stands for its UTF-8 bytes and an escape for one byte. What is written for a text
reads back as the bytes of the text, and reading stops at the closing quote,
whatever follows it.
-/

namespace GoCell.Go

def hexValue? (c : Char) : Option Nat :=
  if c.isDigit then some (c.toNat - '0'.toNat)
  else if 'a' ≤ c ∧ c ≤ 'f' then some (c.toNat - 'a'.toNat + 10)
  else if 'A' ≤ c ∧ c ≤ 'F' then some (c.toNat - 'A'.toNat + 10)
  else none

/-- The byte `\xNN`, from its two digits. -/
def hexByte? (high low : Char) : Option UInt8 := do
  return UInt8.ofNat (16 * (← hexValue? high) + (← hexValue? low))

/-- The byte of an escape with one letter. -/
def escapedByte? (c : Char) : Option UInt8 :=
  if c = '\\' then some 0x5c
  else if c = '"' then some 0x22
  else if c = 'n' then some 0x0a
  else if c = 'r' then some 0x0d
  else if c = 't' then some 0x09
  else none

/-- Reads what follows an opening quote: the bytes up to the closing quote, and
the rest of the text. -/
def readInterpreted? : List Char → Option (List UInt8 × List Char)
  | [] => none
  | c :: r =>
    if c = '"' then some ([], r)
    else if c = '\\' then
      match r with
      | 'x' :: a :: b :: r =>
        (hexByte? a b).bind fun byte => (readInterpreted? r).map (Prod.map (byte :: ·) id)
      | e :: r => (escapedByte? e).bind fun byte => (readInterpreted? r).map (Prod.map (byte :: ·) id)
      | [] => none
    else if c = '\n' then none
    else (readInterpreted? r).map (Prod.map (String.utf8EncodeChar c ++ ·) id)

/-- The text that some bytes encode. -/
def textOfBytes? (bytes : List UInt8) : Option String := String.fromUTF8? bytes.toByteArray

theorem textOfBytes?_utf8 (s : String) :
    textOfBytes? (s.toList.flatMap String.utf8EncodeChar) = some s := by
  have hbytes : (s.toList.flatMap String.utf8EncodeChar).toByteArray = s.toByteArray :=
    String.utf8Encode_toList
  rw [textOfBytes?, hbytes, String.fromUTF8?, dif_pos s.isValidUTF8]
  rfl

theorem hexValue?_digitChar : ∀ n < 16, hexValue? (Nat.digitChar n) = some n := by
  decide

theorem hexByte?_hexDigits {n : Nat} (h : n < 256) :
    hexByte? (Nat.digitChar (n / 16 % 16)) (Nat.digitChar (n % 16)) = some (UInt8.ofNat n) := by
  have hhigh := hexValue?_digitChar (n / 16 % 16) (Nat.mod_lt _ (by decide))
  have hlow := hexValue?_digitChar (n % 16) (Nat.mod_lt _ (by decide))
  have hn : 16 * (n / 16 % 16) + n % 16 = n := by omega
  simp only [hexByte?, hhigh, hlow, Option.bind_eq_bind, Option.bind_some, hn]
  rfl

/-- One character reads back as its bytes, with no look at what follows. -/
theorem readInterpreted?_quoteChar (c : Char) (r : List Char) :
    readInterpreted? (quoteChar c ++ r) =
      (readInterpreted? r).map (Prod.map (String.utf8EncodeChar c ++ ·) id) := by
  unfold quoteChar
  split
  · subst c
    rfl
  split
  · subst c
    rfl
  split
  · subst c
    rfl
  split
  · subst c
    rfl
  split
  · subst c
    rfl
  split
  · next hcontrol =>
      have hbyte := hexByte?_hexDigits (n := c.toNat) (by omega)
      have hascii : String.utf8EncodeChar c = [UInt8.ofNat c.toNat] := by
        rw [String.utf8EncodeChar, if_pos (show c.val.toNat ≤ 0x7f by
          change c.toNat ≤ 0x7f
          omega)]
        rfl
      simp [readInterpreted?, hexDigits, hbyte, hascii]
  · next hbackslash hquote hlf _ _ _ =>
      rw [List.singleton_append, readInterpreted?.eq_def]
      simp [hbackslash, hquote, hlf]

theorem readInterpreted?_flatMap_quoteChar (l r : List Char) :
    readInterpreted? (l.flatMap quoteChar ++ '"' :: r) =
      some (l.flatMap String.utf8EncodeChar, r) := by
  induction l with
  | nil =>
      rw [List.flatMap_nil, List.nil_append, readInterpreted?.eq_def]
      rfl
  | cons c l ih =>
      rw [List.flatMap_cons, List.append_assoc, readInterpreted?_quoteChar, ih]
      simp

theorem length_lt_of_readInterpreted? {l rest : List Char} {bytes : List UInt8}
    (h : readInterpreted? l = some (bytes, rest)) : rest.length < l.length := by
  fun_induction readInterpreted? l generalizing bytes rest with
  | case1 => simp at h
  | case2 r =>
      obtain ⟨-, rfl⟩ := Prod.mk.inj (Option.some.inj h)
      exact Nat.lt_succ_self r.length
  | case3 a b r _ ih =>
      simp only [Option.bind_eq_some_iff, Option.map_eq_some_iff] at h
      obtain ⟨_, _, ⟨more, rest'⟩, hread, heq⟩ := h
      obtain ⟨-, rfl⟩ := Prod.mk.inj heq
      have := ih hread
      simp only [List.length_cons, id]
      omega
  | case4 e r _ _ ih =>
      simp only [Option.bind_eq_some_iff, Option.map_eq_some_iff] at h
      obtain ⟨_, _, ⟨more, rest'⟩, hread, heq⟩ := h
      obtain ⟨-, rfl⟩ := Prod.mk.inj heq
      have := ih hread
      simp only [List.length_cons, id]
      omega
  | case5 => simp at h
  | case6 => simp at h
  | case7 c r _ _ _ ih =>
      simp only [Option.map_eq_some_iff] at h
      obtain ⟨⟨more, rest'⟩, hread, heq⟩ := h
      obtain ⟨-, rfl⟩ := Prod.mk.inj heq
      exact Nat.lt_succ_of_lt (ih hread)

end GoCell.Go
