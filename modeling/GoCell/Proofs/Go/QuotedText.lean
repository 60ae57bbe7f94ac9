import GoCell.Proofs.Go.StringReader
import Mathlib.Data.List.Basic

/-!
String literals as a code for texts. A literal is read off the front of a text without a
look at what follows it, and gives the bytes of the text that was quoted. So no literal is
the beginning of another one; and none of them holds a control character.
-/

namespace GoCell.Go

/-- Reads a string literal at the start of a text: the bytes that it denotes, and the rest
of the text. -/
def readString? : List Char → Option (List UInt8 × List Char)
  | [] => none
  | c :: r => if c = '"' then readInterpreted? r else none

/-- The control characters of ASCII. -/
def IsControl (c : Char) : Prop := c.toNat < 0x20 ∨ c.toNat = 0x7f

instance (c : Char) : Decidable (IsControl c) :=
  inferInstanceAs (Decidable (c.toNat < 0x20 ∨ c.toNat = 0x7f))

/-! ### Reading a literal -/

theorem flatMap_utf8EncodeChar (s : String) :
    s.toList.flatMap String.utf8EncodeChar = s.toUTF8.data.toList := by
  have hbytes : (s.toList.flatMap String.utf8EncodeChar).toByteArray = s.toUTF8 :=
    String.utf8Encode_toList
  rw [← hbytes, List.data_toByteArray]

/-- A literal is read to its end and no further. -/
theorem readString?_quote_append (s t : String) :
    readString? (quote s ++ t).toList = some (s.toUTF8.data.toList, t.toList) := by
  have hbody := readInterpreted?_flatMap_quoteChar s.toList t.toList
  rw [flatMap_utf8EncodeChar] at hbody
  rw [String.toList_append, quote, String.toList_ofList, quoteChars, List.cons_append,
    List.append_assoc, List.singleton_append, readString?, if_pos rfl, hbody]

/-- What has been read stays read when more follows. -/
theorem readInterpreted?_append {l rest : List Char} {bytes : List UInt8}
    (h : readInterpreted? l = some (bytes, rest)) (more : List Char) :
    readInterpreted? (l ++ more) = some (bytes, rest ++ more) := by
  fun_induction readInterpreted? l generalizing bytes rest with
  | case1 => cases h
  | case2 r =>
      obtain ⟨rfl, rfl⟩ := Prod.mk.inj (Option.some.inj h)
      rw [List.cons_append, readInterpreted?.eq_def]
      rfl
  | case3 a b r _ ih =>
      simp only [Option.bind_eq_some_iff, Option.map_eq_some_iff] at h
      obtain ⟨byte, hbyte, ⟨bytes', rest'⟩, hread, heq⟩ := h
      obtain ⟨rfl, rfl⟩ := Prod.mk.inj heq
      simp [readInterpreted?, hbyte, ih hread]
  | case4 e r hx _ ih =>
      simp only [Option.bind_eq_some_iff, Option.map_eq_some_iff] at h
      obtain ⟨byte, hbyte, ⟨bytes', rest'⟩, hread, heq⟩ := h
      obtain ⟨rfl, rfl⟩ := Prod.mk.inj heq
      -- `x` is not an escape of one letter, so the text that follows plays no part
      have hne : e ≠ 'x' := by
        rintro rfl
        cases hbyte
      rw [List.cons_append, List.cons_append, readInterpreted?.eq_def]
      simp [hne, hbyte, ih hread]
  | case5 => cases h
  | case6 => cases h
  | case7 c r hquote hbackslash hlf ih =>
      simp only [Option.map_eq_some_iff] at h
      obtain ⟨⟨bytes', rest'⟩, hread, heq⟩ := h
      obtain ⟨rfl, rfl⟩ := Prod.mk.inj heq
      rw [List.cons_append, readInterpreted?.eq_def]
      simp [hquote, hbackslash, hlf, ih hread]

theorem readString?_append {l rest : List Char} {bytes : List UInt8}
    (h : readString? l = some (bytes, rest)) (more : List Char) :
    readString? (l ++ more) = some (bytes, rest ++ more) := by
  cases l with
  | nil => cases h
  | cons c r =>
      rw [readString?] at h
      split at h
      · next hquote =>
        rw [List.cons_append, readString?, if_pos hquote, readInterpreted?_append h]
      · cases h

/-! ### The characters of a literal -/

theorem not_isControl_digitChar : ∀ n < 16, ¬IsControl (Nat.digitChar n) := by
  decide

theorem not_isControl_of_mem_escape {e d : Char} (he : ¬IsControl e) (h : d ∈ ['\\', e]) :
    ¬IsControl d := by
  rcases List.mem_pair.1 h with rfl | rfl
  · decide
  · exact he

theorem not_isControl_of_mem_quoteChar {c d : Char} (h : d ∈ quoteChar c) : ¬IsControl d := by
  unfold quoteChar at h
  split_ifs at h with _ _ _ _ _ hcontrol
  · exact not_isControl_of_mem_escape (by decide) h
  · exact not_isControl_of_mem_escape (by decide) h
  · exact not_isControl_of_mem_escape (by decide) h
  · exact not_isControl_of_mem_escape (by decide) h
  · exact not_isControl_of_mem_escape (by decide) h
  · rcases List.mem_append.1 h with h | h
    · exact not_isControl_of_mem_escape (by decide) h
    · rcases List.mem_pair.1 h with rfl | rfl <;>
        exact not_isControl_digitChar _ (Nat.mod_lt _ (by decide))
  · rw [List.mem_singleton.1 h]
    exact hcontrol

theorem not_isControl_of_mem_quote {s : String} {c : Char} (h : c ∈ (quote s).toList) :
    ¬IsControl c := by
  rw [quote, String.toList_ofList, quoteChars, List.mem_cons, List.mem_append,
    List.mem_singleton, List.mem_flatMap] at h
  rcases h with rfl | ⟨d, -, hd⟩ | rfl
  · decide
  · exact not_isControl_of_mem_quoteChar hd
  · decide

/-! ### Literals beside each other -/

/-- Two texts that start with a literal are the same where the literals and what follows
them are. -/
theorem quote_append_eq_iff {s s' t t' : String} :
    quote s ++ t = quote s' ++ t' ↔ s = s' ∧ t = t' := by
  constructor
  · intro h
    have hread := readString?_quote_append s t
    rw [h, readString?_quote_append, Option.some_inj, Prod.mk.injEq, Array.toList_inj,
      String.toList_inj] at hread
    obtain ⟨hbytes, ht⟩ := hread
    exact ⟨(String.toByteArray_inj.1 (ByteArray.ext hbytes)).symm, ht.symm⟩
  · rintro ⟨rfl, rfl⟩
    rfl

/-- A literal is not complete before its end. -/
theorem isSome_readString?_iff_of_isPrefix {s : String} {l : List Char}
    (h : l <+: (quote s).toList) : (readString? l).isSome ↔ l = (quote s).toList := by
  have hwhole := readString?_quote_append s ""
  rw [String.append_empty] at hwhole
  constructor
  · intro hread
    obtain ⟨⟨bytes, rest⟩, hread⟩ := Option.isSome_iff_exists.1 hread
    obtain ⟨more, hmore⟩ := h
    -- what is left of the part and the rest of the literal are together what is left of the literal
    rw [← hmore, readString?_append hread, Option.some_inj, Prod.mk.injEq] at hwhole
    have hnil : rest ++ more = [] := by simpa using hwhole.2
    rw [← hmore, (List.append_eq_nil_iff.1 hnil).2, List.append_nil]
  · rintro rfl
    rw [hwhole]
    rfl

/-- Literals are a prefix-free code: whatever follows a literal, reading stops at its end
and gives the bytes of the text that was quoted. -/
theorem quote_prefixFree :
    (∀ s t : String, readString? (quote s ++ t).toList = some (s.toUTF8.data.toList, t.toList)) ∧
    (∀ s : String, ∀ c ∈ (quote s).toList, ¬IsControl c) ∧
    (∀ s s' t t' : String, quote s ++ t = quote s' ++ t' ↔ s = s' ∧ t = t') ∧
    Function.Injective quote ∧
    ∀ (s : String) (l : List Char), l <+: (quote s).toList →
      ((readString? l).isSome ↔ l = (quote s).toList) := by
  refine ⟨readString?_quote_append, fun s c => not_isControl_of_mem_quote,
    fun s s' t t' => quote_append_eq_iff, ?_, fun s l => isSome_readString?_iff_of_isPrefix⟩
  intro s s' h
  have hquote : quote s ++ "" = quote s' ++ "" := by rw [h]
  exact (quote_append_eq_iff.1 hquote).1

/-- A backslash before a quote, and a control character before hexadecimal digits. -/
example : quote "\\\"\x010a" = "\"\\\\\\\"\\x010a\"" := by decide

end GoCell.Go
