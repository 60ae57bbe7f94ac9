import GoCell.Proofs.Json.ValueText

/-!
Strings and numbers as they may be spelled. A string is read as the characters that it
stands for, if it stands for any, and is passed over in any case.
-/

namespace GoCell.Json

/-! ### Strings -/

open StringPart (decode)

theorem codeUnit_chars (u : CodeUnit) (r : List Char) : codeUnit (u.chars ++ r) = .ok u.value := by
  simp [codeUnit, CodeUnit.chars, CodeUnit.value, HexDigit.value_eq]

theorem scanText_plain {c : Char} (hquote : c ≠ '"') (hslash : c ≠ '\\')
    (hcontrol : 0x20 ≤ c.toNat) (r : List Char) :
    scanText (c :: r) = (scanText r).map fun (cs, rest) => (c :: cs, rest) := by
  rw [scanText.eq_def]
  simp [hquote, hslash, Nat.not_lt.2 hcontrol]

/-- Reading goes by the first code unit, and by what follows it if it is a high surrogate. -/
theorem scanText_unit (u : CodeUnit) (r : List Char) :
    scanText ((StringPart.unit u).chars ++ r) =
      if isLowSurrogate u.value then .error .loneSurrogate
      else if isHighSurrogate u.value then
        match lowSurrogate r, r with
        | .error f, _ => .error f
        | .ok low, _ :: _ :: _ :: _ :: _ :: _ :: r =>
          (scanText r).map fun (cs, rest) =>
            (Char.ofNat (0x10000 + (u.value - 0xd800) * 0x400 + (low - 0xdc00)) :: cs, rest)
        | .ok _, _ => .error .endInString
      else (scanText r).map fun (cs, rest) => (Char.ofNat u.value :: cs, rest) := by
  have hunit := codeUnit_chars u r
  rw [StringPart.chars, List.cons_append, List.cons_append, scanText.eq_def]
  simp only [Char.reduceEq, if_true, if_false, hunit]
  rfl

theorem lowSurrogate_unit (u : CodeUnit) (r : List Char) :
    lowSurrogate ((StringPart.unit u).chars ++ r) =
      if isLowSurrogate u.value then .ok u.value else .error .loneSurrogate := by
  have hunit := codeUnit_chars u r
  rw [StringPart.chars, List.cons_append, List.cons_append, lowSurrogate]
  simp only [ne_eq, not_true_eq_false, if_false, hunit]
  rfl

/-- A low surrogate is a code unit. -/
theorem exists_lowSurrogate_eq_error {parts : List StringPart}
    (h : ∀ u parts', parts ≠ .unit u :: parts') (rest : List Char) :
    ∃ f, lowSurrogate (parts.flatMap StringPart.chars ++ '"' :: rest) = .error f := by
  cases parts with
  | nil => exact ⟨_, rfl⟩
  | cons part parts =>
      cases part with
      | plain c hquote hslash hcontrol =>
          exact ⟨.unfinishedSurrogate, by simp [StringPart.chars, lowSurrogate, hslash]⟩
      | escape e c hescape =>
          have hne : e ≠ 'u' := by
            rintro rfl
            cases hescape
          exact ⟨.unfinishedSurrogate, by simp [StringPart.chars, lowSurrogate, hne]⟩
      | unit u => exact absurd rfl (h u parts)

theorem toOption_scanText_cons {c : Char} {l r rest : List Char} {o : Option (List Char)}
    (hread : scanText l = (scanText r).map fun (cs, rest) => (c :: cs, rest))
    (h : (scanText r).toOption = o.map (·, rest)) :
    (scanText l).toOption = (o.map (c :: ·)).map (·, rest) := by
  rw [hread, toOption_map, h]
  cases o <;> rfl

/-- The content of a string, its closing quote, and whatever follows. -/
theorem toOption_scanText (parts : List StringPart) (rest : List Char) :
    (scanText (parts.flatMap StringPart.chars ++ '"' :: rest)).toOption =
      (decode parts).map (·, rest) := by
  -- a high surrogate looks one part ahead, so the induction is that of the decoder
  fun_induction decode parts with
  | case1 =>
      rw [List.flatMap_nil, List.nil_append, scanText.eq_def]
      rfl
  | case2 c hquote hslash hcontrol parts ih =>
      exact toOption_scanText_cons (scanText_plain hquote hslash hcontrol _) ih
  | case3 e c h parts ih =>
      have hne : e ≠ 'u' := by
        rintro rfl
        cases h
      exact toOption_scanText_cons (scanText_escape hne h _) ih
  | case4 u parts hlow =>
      rw [List.flatMap_cons, List.append_assoc, scanText_unit, if_pos hlow]
      rfl
  | case5 u hlow hhigh v parts hpair ih =>
      have hnext := lowSurrogate_unit v (parts.flatMap StringPart.chars ++ '"' :: rest)
      rw [if_pos hpair] at hnext
      refine toOption_scanText_cons ?_ ih
      rw [List.flatMap_cons, List.append_assoc, scanText_unit, if_neg hlow, if_pos hhigh,
        List.flatMap_cons, List.append_assoc, hnext]
      rfl
  | case6 u hlow hhigh v parts hpair =>
      have hnext := lowSurrogate_unit v (parts.flatMap StringPart.chars ++ '"' :: rest)
      rw [if_neg hpair] at hnext
      rw [List.flatMap_cons, List.append_assoc, scanText_unit, if_neg hlow, if_pos hhigh,
        List.flatMap_cons, List.append_assoc, hnext]
      rfl
  | case7 u parts hlow hhigh hnot =>
      obtain ⟨f, hnext⟩ := exists_lowSurrogate_eq_error hnot rest
      rw [List.flatMap_cons, List.append_assoc, scanText_unit, if_neg hlow, if_pos hhigh, hnext]
      rfl
  | case8 u parts hlow hhigh ih =>
      refine toOption_scanText_cons ?_ ih
      rw [List.flatMap_cons, List.append_assoc, scanText_unit, if_neg hlow, if_neg hhigh]

/-- What is passed over need not stand for anything. -/
theorem skipText_parts (parts : List StringPart) (rest : List Char) :
    skipText (parts.flatMap StringPart.chars ++ '"' :: rest) = .ok rest := by
  induction parts with
  | nil =>
      rw [List.flatMap_nil, List.nil_append, skipText.eq_def]
      rfl
  | cons part parts ih =>
      rw [List.flatMap_cons, List.append_assoc, skipText.eq_def]
      cases part with
      | plain c hquote hslash hcontrol =>
          simp [StringPart.chars, hquote, hslash, Nat.not_lt.2 hcontrol, ih]
      | escape e c h =>
          have hne : e ≠ 'u' := by
            rintro rfl
            cases h
          simp [StringPart.chars, hne, h, ih]
      | unit u =>
          have hunit := codeUnit_chars u (parts.flatMap StringPart.chars ++ '"' :: rest)
          simp only [StringPart.chars, List.cons_append, Char.reduceEq, if_true, if_false, hunit]
          exact ih

/-! ### Numbers -/

theorem IsFraction.exists_scanFraction_eq {l : List Char} (h : IsFraction l) :
    ∃ f, ∀ atEnd r, (∀ c ∈ r.head?, c.isDigit = false ∧ c ≠ '.') →
      scanFraction atEnd (l ++ r) = .ok (f, r) := by
  cases h with
  | absent =>
      refine ⟨none, fun atEnd r hr => ?_⟩
      cases r with
      | nil => rfl
      | cons c r => simp [scanFraction, (hr c rfl).2]
  | @present ds hdigits =>
      obtain ⟨hne, hdigits⟩ := isDigits_iff.1 hdigits
      refine ⟨some ds, fun atEnd r hr => ?_⟩
      have hscan := scanDigits_append atEnd hne hdigits fun c hc => (hr c hc).1
      simp [scanFraction, hscan, Except.map]

theorem IsExponent.exists_scanExponent_eq {l : List Char} (h : IsExponent l) :
    ∃ e, ∀ atEnd r, EndsNumber r → scanExponent atEnd (l ++ r) = .ok (e, r) := by
  cases h with
  | absent =>
      refine ⟨none, fun atEnd r hr => ?_⟩
      cases r with
      | nil => rfl
      | cons c r =>
          obtain ⟨-, -, hlower, hupper⟩ := hr c rfl
          simp [scanExponent, hlower, hupper]
  | @present mark sign ds hmark hsign hdigits =>
      obtain ⟨negative, hsign⟩ : ∃ negative, IsSign negative sign := by
        rcases hsign with rfl | rfl | rfl
        · exact ⟨false, .absent⟩
        · exact ⟨false, .plus⟩
        · exact ⟨true, .minus⟩
      refine ⟨some (if negative then -(readDigits ds : Int) else readDigits ds),
        fun atEnd r hr => ?_⟩
      have hsigned := takeSign_append_of_isDigits hsign hdigits r
      obtain ⟨hne, hdigits⟩ := isDigits_iff.1 hdigits
      have hscan := scanDigits_append atEnd hne hdigits fun c hc => (hr c hc).1
      rw [List.cons_append, List.append_assoc, scanExponent, if_pos hmark, hsigned]
      simp only [hscan, bind, Except.bind]

theorem IsExponent.head?_append {l r : List Char} (h : IsExponent l) (hr : EndsNumber r) :
    ∀ c ∈ (l ++ r).head?, c.isDigit = false ∧ c ≠ '.' := by
  cases h with
  | absent => exact fun c hc => ⟨(hr c hc).1, (hr c hc).2.1⟩
  | present hmark _ _ => rcases hmark with rfl | rfl <;> simp

theorem IsFraction.head?_append {l r : List Char} (h : IsFraction l)
    (hr : ∀ c ∈ r.head?, c.isDigit = false) : ∀ c ∈ (l ++ r).head?, c.isDigit = false := by
  cases h with
  | absent => exact hr
  | present _ => simp

/-- A number is read the same before everything that ends it. -/
theorem IsNumber.exists_scanNumber_eq {l : List Char} (h : IsNumber l) :
    ∃ n, ∀ atEnd rest, EndsNumber rest → scanNumber atEnd (l ++ rest) = .ok (n, rest) := by
  obtain ⟨hsign, hwhole, hzero, hfraction, hexponent⟩ := h
  rename_i sign whole fraction exponent
  obtain ⟨hne, hdigits⟩ := isDigits_iff.1 hwhole
  obtain ⟨f, hf⟩ := hfraction.exists_scanFraction_eq
  obtain ⟨e, he⟩ := hexponent.exists_scanExponent_eq
  have hlength : ¬(whole.head? = some '0' ∧ 1 < whole.length) := by
    rintro ⟨hhead, hlong⟩
    rw [hzero hhead] at hlong
    exact absurd hlong (by decide)
  refine ⟨⟨!sign.isEmpty, whole, f, e⟩, fun atEnd rest hrest => ?_⟩
  have hmore := hexponent.head?_append hrest
  have hparts : scanDigits atEnd (whole ++ (fraction ++ (exponent ++ rest))) =
      .ok (whole, fraction ++ (exponent ++ rest)) :=
    scanDigits_append atEnd hne hdigits (hfraction.head?_append fun c hc => (hmore c hc).1)
  rw [List.append_assoc, List.append_assoc, List.append_assoc]
  -- the sign is matched before anything is read
  rcases hsign with rfl | rfl
  · rw [List.nil_append, scanNumber.eq_2]
    · simp only [hparts, hlength, hf atEnd _ hmore, he atEnd _ hrest, bind, Except.bind, if_false]
      rfl
    · intro r heq
      obtain ⟨c, ds, rfl⟩ := List.exists_cons_of_ne_nil hne
      have hdigit := hdigits c List.mem_cons_self
      rw [(List.cons.inj heq).1] at hdigit
      cases hdigit
  · rw [List.singleton_append, scanNumber]
    simp only [hparts, hlength, hf atEnd _ hmore, he atEnd _ hrest, bind, Except.bind, if_false]
    rfl

end GoCell.Json
