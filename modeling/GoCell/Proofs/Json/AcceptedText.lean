import GoCell.Proofs.Json.ValueReader

/-!
What can be read is the text of a value. Each reader takes a text of the grammar off the front
of what it is given, after space where it skips some; so the grammar leaves out no text that is
accepted.
-/

namespace GoCell.Json

theorem exists_spaces (l : List Char) : ∃ space, IsSpaces space ∧ l = space ++ skipSpace l :=
  ⟨l.takeWhile isSpace, fun _ hc => List.mem_takeWhile_imp hc,
    List.takeWhile_append_dropWhile.symm⟩

/-! ### Tokens -/

theorem eq_append_of_scanWord {word l rest : List Char} (h : scanWord word l = .ok rest) :
    l = word ++ rest := by
  fun_induction scanWord word l with
  | case1 l =>
      cases h
      rfl
  | case2 => cases h
  | case3 w ws r ih => rw [ih h, List.cons_append]
  | case4 => cases h

theorem exists_codeUnit {a b c d : Char} {r : List Char} {n : Nat}
    (h : codeUnit (a :: b :: c :: d :: r) = .ok n) : ∃ u : CodeUnit, u.chars = [a, b, c, d] := by
  unfold codeUnit at h
  dsimp only at h
  split at h
  · next x y z w hdigits =>
    simp only [List.take_succ_cons, List.take_zero, List.mapM_cons, List.mapM_nil,
      Option.pure_def, Option.bind_eq_bind, Option.bind_eq_some_iff, Option.some.injEq] at hdigits
    obtain ⟨x, hx, ys, ⟨y, hy, zs, ⟨z, hz, ws, ⟨w, hw, -, -⟩, -⟩, -⟩, -⟩ := hdigits
    exact ⟨⟨⟨a, x, hx⟩, ⟨b, y, hy⟩, ⟨c, z, hz⟩, ⟨d, w, hw⟩⟩, rfl⟩
  · cases h

theorem exists_unit_of_lowSurrogate {a b c d e f : Char} {r : List Char} {n : Nat}
    (h : lowSurrogate (a :: b :: c :: d :: e :: f :: r) = .ok n) :
    ∃ u : CodeUnit, (StringPart.unit u).chars = [a, b, c, d, e, f] := by
  unfold lowSurrogate at h
  dsimp only at h
  split at h
  · cases h
  · next hslash =>
    split at h
    · cases h
    · next hu =>
      obtain ⟨low, hlow, -⟩ := bind_eq_ok_iff.1 h
      obtain ⟨u, hchars⟩ := exists_codeUnit hlow
      exact ⟨u, by rw [StringPart.chars, hchars, not_not.1 hslash, not_not.1 hu]⟩

/-- A string ends, or it goes on with a part, or with two for a pair of surrogates. -/
theorem scanText_cases {l cs rest : List Char} (h : scanText l = .ok (cs, rest)) :
    l = '"' :: rest ∨ ∃ part parts l' cs', scanText l' = .ok (cs', rest) ∧
      l = (part :: parts).flatMap StringPart.chars ++ l' := by
  rw [scanText.eq_def] at h
  split at h
  · cases h
  split at h
  · next hquote =>
    cases h
    exact .inl (by rw [hquote])
  refine .inr ?_
  split at h
  · next hslash =>
    subst hslash
    split at h
    · cases h
    split at h
    · next hu =>
      subst hu
      split at h
      · cases h
      · next unit a b c d r hunit =>
        obtain ⟨u, hchars⟩ := exists_codeUnit hunit
        split at h
        · cases h
        split at h
        · split at h
          · cases h
          · next low a' b' c' d' e' f' r hlow =>
            obtain ⟨v, hpair⟩ := exists_unit_of_lowSurrogate hlow
            obtain ⟨⟨cs', _⟩, hread, heq⟩ := map_eq_ok_iff.1 h
            cases heq
            refine ⟨.unit u, [.unit v], r, cs', hread, ?_⟩
            rw [List.flatMap_cons, List.flatMap_singleton, hpair, StringPart.chars, hchars]
            rfl
          · cases h
        · obtain ⟨⟨cs', _⟩, hread, heq⟩ := map_eq_ok_iff.1 h
          cases heq
          exact ⟨.unit u, [], r, cs', hread, by simp [StringPart.chars, hchars]⟩
      · cases h
    · split at h
      · next e r hu _ x hx =>
        obtain ⟨⟨cs', _⟩, hread, heq⟩ := map_eq_ok_iff.1 h
        cases heq
        exact ⟨.escape e x hx, [], r, cs', hread, rfl⟩
      · cases h
  split at h
  · cases h
  · next c r hquote hslash hcontrol =>
    obtain ⟨⟨cs', _⟩, hread, heq⟩ := map_eq_ok_iff.1 h
    cases heq
    exact ⟨.plain c hquote hslash (Nat.not_lt.1 hcontrol), [], r, cs', hread, rfl⟩

theorem StringPart.length_chars_pos (part : StringPart) : 0 < part.chars.length := by
  cases part <;> simp [chars]

/-- A string that is read is made of parts. -/
theorem exists_parts_of_scanText {l cs rest : List Char} (h : scanText l = .ok (cs, rest)) :
    ∃ parts : List StringPart, l = parts.flatMap StringPart.chars ++ '"' :: rest := by
  induction hn : l.length using Nat.strongRecOn generalizing l cs with
  | ind n ih =>
      rcases scanText_cases h with rfl | ⟨part, parts, l', cs', hread, rfl⟩
      · exact ⟨[], rfl⟩
      · have hpos := part.length_chars_pos
        rw [List.flatMap_cons, List.length_append, List.length_append] at hn
        obtain ⟨parts', rfl⟩ := ih l'.length (by omega) hread rfl
        exact ⟨part :: parts ++ parts', by rw [List.flatMap_append, List.append_assoc]⟩

/-! ### Numbers -/

theorem isDigits_of_scanDigits {atEnd : Fault} {l ds rest : List Char}
    (h : scanDigits atEnd l = .ok (ds, rest)) : isDigits ds ∧ l = ds ++ rest := by
  unfold scanDigits at h
  split at h
  · cases h
  · cases h
  · next hend hmore =>
    cases h
    refine ⟨isDigits_iff.2 ⟨fun hnil => ?_, fun _ hc => List.mem_takeWhile_imp hc⟩,
      List.takeWhile_append_dropWhile.symm⟩
    cases hrest : l.dropWhile Char.isDigit with
    | nil => exact hend hnil hrest
    | cons c r => exact hmore c r hnil hrest

theorem exists_fraction_of_scanFraction {atEnd : Fault} {l rest : List Char}
    {f : Option (List Char)} (h : scanFraction atEnd l = .ok (f, rest)) :
    ∃ fraction, IsFraction fraction ∧ l = fraction ++ rest := by
  unfold scanFraction at h
  split at h
  · cases h
    exact ⟨[], .absent, rfl⟩
  split at h
  · next hpoint =>
    subst hpoint
    obtain ⟨⟨ds, _⟩, hscan, heq⟩ := map_eq_ok_iff.1 h
    cases heq
    obtain ⟨hdigits, rfl⟩ := isDigits_of_scanDigits hscan
    exact ⟨'.' :: ds, .present hdigits, rfl⟩
  · cases h
    exact ⟨[], .absent, rfl⟩

theorem exists_sign_of_takeSign {l rest : List Char} {negative : Bool}
    (h : takeSign l = (negative, rest)) :
    ∃ sign, (sign = [] ∨ sign = ['+'] ∨ sign = ['-']) ∧ l = sign ++ rest := by
  unfold takeSign at h
  split at h
  · cases h
    exact ⟨['-'], .inr (.inr rfl), rfl⟩
  · cases h
    exact ⟨['+'], .inr (.inl rfl), rfl⟩
  · cases h
    exact ⟨[], .inl rfl, rfl⟩

theorem exists_exponent_of_scanExponent {atEnd : Fault} {l rest : List Char} {e : Option Int}
    (h : scanExponent atEnd l = .ok (e, rest)) :
    ∃ exponent, IsExponent exponent ∧ l = exponent ++ rest := by
  unfold scanExponent at h
  split at h
  · cases h
    exact ⟨[], .absent, rfl⟩
  split at h
  · next mark r hmark =>
    obtain ⟨⟨ds, _⟩, hscan, heq⟩ := bind_eq_ok_iff.1 h
    cases heq
    obtain ⟨sign, hsign, hr⟩ := exists_sign_of_takeSign (l := r) rfl
    obtain ⟨hdigits, hrest⟩ := isDigits_of_scanDigits hscan
    refine ⟨mark :: (sign ++ ds), .present hmark hsign hdigits, ?_⟩
    rw [List.cons_append, List.append_assoc, ← hrest, ← hr]
  · cases h
    exact ⟨[], .absent, rfl⟩

theorem eq_singleton_of_head? {c : Char} {l : List Char} (h : l.head? = some c)
    (hlength : l.length ≤ 1) : l = [c] := by
  obtain ⟨r, rfl⟩ := List.head?_eq_some_iff.1 h
  rw [List.length_eq_zero_iff.1 (show r.length = 0 by simpa using hlength)]

theorem exists_number_of_scanNumber {atEnd : Fault} {l rest : List Char} {n : Literal}
    (h : scanNumber atEnd l = .ok (n, rest)) : ∃ number, IsNumber number ∧ l = number ++ rest := by
  unfold scanNumber at h
  split at h
  next negative unsigned hunsigned =>
  obtain ⟨sign, hsign, hl⟩ : ∃ sign, (sign = [] ∨ sign = ['-']) ∧ l = sign ++ unsigned := by
    split at hunsigned
    · cases hunsigned
      exact ⟨['-'], .inr rfl, rfl⟩
    · cases hunsigned
      exact ⟨[], .inl rfl, rfl⟩
  obtain ⟨⟨whole, afterWhole⟩, hwhole, h⟩ := bind_eq_ok_iff.1 h
  dsimp only at h
  split at h
  · cases h
  next hzero =>
  obtain ⟨⟨_, afterFraction⟩, hscanFraction, h⟩ := bind_eq_ok_iff.1 h
  obtain ⟨⟨_, _⟩, hscanExponent, h⟩ := bind_eq_ok_iff.1 h
  cases h
  obtain ⟨hdigits, rfl⟩ := isDigits_of_scanDigits hwhole
  obtain ⟨fraction, hfraction, rfl⟩ := exists_fraction_of_scanFraction hscanFraction
  obtain ⟨exponent, hexponent, rfl⟩ := exists_exponent_of_scanExponent hscanExponent
  refine ⟨_, .mk hsign hdigits (fun hhead => ?_) hfraction hexponent, by simp [hl]⟩
  exact eq_singleton_of_head? hhead (Nat.not_lt.1 fun hlong => hzero ⟨hhead, hlong⟩)

/-! ### Containers -/

/-- Whether a reader takes nothing but space and the text of a value. -/
def TakesValue {α : Type} (read : List Char → Scan α) : Prop :=
  ∀ {l a rest}, read l = .ok (a, rest) →
    ∃ space content, IsSpaces space ∧ IsValue content ∧ l = space ++ (content ++ rest)

/-- What stands before an entry: a comma if another entry does. -/
def separator (isFirst : Bool) : List Char := if isFirst then [] else [',']

theorem entryChars_cons (isFirst : Bool) (l : List Char) (ls : List (List Char)) :
    entryChars isFirst (l :: ls) = separator isFirst ++ (l ++ entryChars false ls) := by
  cases isFirst with
  | true => exact entryChars_true_cons l ls
  | false => exact entryChars_false_cons l ls

theorem nextItem_cases {isFirst : Bool} {l : List Char} {next : Next (List Char)}
    (h : nextItem isFirst l = .ok next) :
    (∃ space rest, IsSpaces space ∧ l = space ++ ']' :: rest ∧ next = .close rest) ∨
      ∃ space before rest, IsSpaces space ∧ IsSpaces before ∧
        l = space ++ (separator isFirst ++ (before ++ rest)) ∧ next = .entry rest := by
  obtain ⟨space, hspace, hl⟩ := exists_spaces l
  unfold nextItem at h
  split at h
  · cases h
  next c r hskip =>
  rw [hskip] at hl
  split at h
  · next hclose =>
    cases h
    exact .inl ⟨space, r, hspace, by rw [hl, hclose], rfl⟩
  split at h
  · next hfirst =>
    cases h
    exact .inr ⟨space, [], c :: r, hspace, isSpaces_nil, by rw [hl, hfirst]; rfl, rfl⟩
  next hfirst =>
  rw [Bool.not_eq_true] at hfirst
  split at h
  · next hcomma =>
    obtain ⟨before, hbefore, hr⟩ := exists_spaces r
    split at h
    · cases h
    next c' r' hskip' =>
    rw [hskip'] at hr
    split at h
    · cases h
    · cases h
      exact .inr ⟨space, before, c' :: r', hspace, hbefore, by rw [hl, hr, hfirst, hcomma]; rfl, rfl⟩
  · cases h

/-- The elements of an array and its closing bracket. -/
theorem exists_items_of_readItems {α : Type} {item : List Char → Scan α} (hitem : TakesValue item)
    {bound : Nat} {isFirst : Bool} {l rest : List Char} {as : List α}
    (h : readItems item bound isFirst l = .ok (as, rest)) :
    ∃ (space : List Char) (items : List (Spaced (List Char))), IsSpaces space ∧
      (∀ e ∈ items, IsValue e.content) ∧
      l = space ++ (entryChars isFirst (items.map (Spaced.chars id)) ++ ']' :: rest) := by
  induction bound generalizing isFirst l as with
  | zero => cases h
  | succ bound ih =>
      obtain ⟨next, hnext, h⟩ := bind_eq_ok_iff.1 h
      rcases nextItem_cases hnext with ⟨space, rest', hspace, rfl, rfl⟩ |
        ⟨space, before, l', hspace, hbefore, rfl, rfl⟩
      · cases h
        exact ⟨space, [], hspace, by simp, by simp⟩
      · obtain ⟨⟨a, l''⟩, hread, h⟩ := bind_eq_ok_iff.1 h
        obtain ⟨⟨as', _⟩, hmore, heq⟩ := bind_eq_ok_iff.1 h
        cases heq
        obtain ⟨indent, content, hindent, hvalue, rfl⟩ := hitem hread
        obtain ⟨after, items, hafter, hvalues, rfl⟩ := ih hmore
        refine ⟨space, ⟨before ++ indent, content, after, ?_, hafter⟩ :: items, hspace,
          List.forall_mem_cons.2 ⟨hvalue, hvalues⟩, ?_⟩
        · exact List.forall_mem_append.2 ⟨hbefore, hindent⟩
        · simp [entryChars_cons, Spaced.chars]

theorem nextMember_cases {isFirst : Bool} {l : List Char} {next : Next (String × List Char)}
    (h : nextMember isFirst l = .ok next) :
    (∃ space rest, IsSpaces space ∧ l = space ++ '\x7d' :: rest ∧ next = .close rest) ∨
      ∃ space before parts key rest, IsSpaces space ∧ IsSpaces before ∧
        l = space ++ (separator isFirst ++ (before ++ (stringChars parts ++ rest))) ∧
        next = .entry (key, rest) := by
  obtain ⟨space, hspace, hl⟩ := exists_spaces l
  unfold nextMember at h
  dsimp only at h
  split at h
  · cases h
  next c r hskip =>
  rw [hskip] at hl
  split at h
  · next hclose =>
    cases h
    exact .inl ⟨space, r, hspace, by rw [hl, hclose], rfl⟩
  refine .inr ?_
  split at h
  · next hfirst =>
    split at h
    · next hquote =>
      obtain ⟨⟨cs, rest⟩, hscan, heq⟩ := map_eq_ok_iff.1 h
      cases heq
      obtain ⟨parts, rfl⟩ := exists_parts_of_scanText hscan
      refine ⟨space, [], parts, _, rest, hspace, isSpaces_nil, ?_, rfl⟩
      rw [hl, hfirst, hquote, stringChars_append]
      rfl
    · cases h
  next hfirst =>
  rw [Bool.not_eq_true] at hfirst
  split at h
  · next hcomma =>
    obtain ⟨before, hbefore, hr⟩ := exists_spaces r
    split at h
    · cases h
    next c' r' hskip' =>
    rw [hskip'] at hr
    split at h
    · next hquote =>
      obtain ⟨⟨cs, rest⟩, hscan, heq⟩ := map_eq_ok_iff.1 h
      cases heq
      obtain ⟨parts, rfl⟩ := exists_parts_of_scanText hscan
      refine ⟨space, before, parts, _, rest, hspace, hbefore, ?_, rfl⟩
      rw [hl, hr, hfirst, hcomma, hquote, stringChars_append]
      rfl
    split at h
    · cases h
    · cases h
  · cases h

theorem exists_spaces_of_scanColon {l rest : List Char} (h : scanColon l = .ok rest) :
    ∃ space, IsSpaces space ∧ l = space ++ ':' :: rest := by
  obtain ⟨space, hspace, hl⟩ := exists_spaces l
  unfold scanColon at h
  split at h
  · cases h
  next c r hskip =>
  rw [hskip] at hl
  split at h
  · next hcolon =>
    cases h
    exact ⟨space, hspace, by rw [hl, hcolon]⟩
  · cases h

/-- The members of an object and its closing bracket. -/
theorem exists_members_of_foldMembers {depth : Nat} (hvalue : TakesValue (readValue depth))
    {bound : Nat} {isFirst : Bool} {l rest : List Char} {before read : List (String × Json)}
    (h : foldMembers (readMember depth) bound isFirst before l = .ok (read, rest)) :
    ∃ (space : List Char) (members : List Member), IsSpaces space ∧
      (∀ m ∈ members, IsValue m.value.content) ∧
      l = space ++ (entryChars isFirst (members.map Member.chars) ++ '\x7d' :: rest) := by
  induction bound generalizing isFirst l before with
  | zero => cases h
  | succ bound ih =>
      obtain ⟨next, hnext, h⟩ := bind_eq_ok_iff.1 h
      rcases nextMember_cases hnext with ⟨space, rest', hspace, rfl, rfl⟩ |
        ⟨space, indent, parts, key, l', hspace, hindent, rfl, rfl⟩
      · cases h
        exact ⟨space, [], hspace, by simp, by simp⟩
      · obtain ⟨⟨set, l''⟩, hmember, hmore⟩ := bind_eq_ok_iff.1 h
        obtain ⟨fromValue, hcolon, hset⟩ := bind_eq_ok_iff.1 hmember
        obtain ⟨⟨j, _⟩, hread, heq⟩ := bind_eq_ok_iff.1 hset
        cases heq
        obtain ⟨gap, hgap, rfl⟩ := exists_spaces_of_scanColon hcolon
        obtain ⟨gap', content, hgap', hcontent, rfl⟩ := hvalue hread
        obtain ⟨after, members, hafter, hvalues, rfl⟩ := ih hmore
        refine ⟨space, ⟨⟨indent, parts, gap, hindent, hgap⟩,
          ⟨gap', content, after, hgap', hafter⟩⟩ :: members, hspace,
          List.forall_mem_cons.2 ⟨hcontent, hvalues⟩, ?_⟩
        simp [entryChars_cons, Member.chars, Spaced.chars]

/-! ### Documents -/

/-- A value is text of the grammar if what stands in it is. -/
theorem takesValue_of_inner {depth : Nat}
    (hinner : ∀ inner, depth = inner + 1 → TakesValue (readValue inner)) :
    TakesValue (readValue depth) := by
  intro l j rest h
  obtain ⟨space, hspace, hl⟩ := exists_spaces l
  refine ⟨space, ?_⟩
  suffices ∃ content, IsValue content ∧ skipSpace l = content ++ rest by
    obtain ⟨content, hvalue, hskip⟩ := this
    exact ⟨content, hspace, hvalue, by rw [← hskip, ← hl]⟩
  rw [readValue.eq_1] at h
  split at h
  · cases h
  next c r hskip =>
  rw [hskip]
  split at h
  · next hc =>
    obtain ⟨_, hword, heq⟩ := map_eq_ok_iff.1 h
    cases heq
    exact ⟨_, .null, by rw [hc, eq_append_of_scanWord hword]; rfl⟩
  split at h
  · next hc =>
    obtain ⟨_, hword, heq⟩ := map_eq_ok_iff.1 h
    cases heq
    exact ⟨_, .true, by rw [hc, eq_append_of_scanWord hword]; rfl⟩
  split at h
  · next hc =>
    obtain ⟨_, hword, heq⟩ := map_eq_ok_iff.1 h
    cases heq
    exact ⟨_, .false, by rw [hc, eq_append_of_scanWord hword]; rfl⟩
  split at h
  · next hc =>
    obtain ⟨⟨cs, _⟩, hscan, heq⟩ := map_eq_ok_iff.1 h
    cases heq
    obtain ⟨parts, rfl⟩ := exists_parts_of_scanText hscan
    exact ⟨_, .string parts, by rw [hc, stringChars_append]⟩
  split at h
  · obtain ⟨⟨n, _⟩, hscan, h⟩ := bind_eq_ok_iff.1 h
    obtain ⟨_, _, heq⟩ := bind_eq_ok_iff.1 h
    cases heq
    obtain ⟨number, hnumber, hl⟩ := exists_number_of_scanNumber hscan
    exact ⟨number, .number hnumber, hl⟩
  split at h
  · next hc =>
    split at h
    · cases h
    next inner =>
    obtain ⟨⟨js, _⟩, hread, heq⟩ := map_eq_ok_iff.1 h
    cases heq
    obtain ⟨space', items, hspace', hvalues, rfl⟩ :=
      exists_items_of_readItems (hinner inner rfl) hread
    exact ⟨_, .array hspace' hvalues, by simp [hc, arrayChars]⟩
  split at h
  · next hc =>
    split at h
    · cases h
    next inner =>
    obtain ⟨⟨ms, _⟩, hread, heq⟩ := map_eq_ok_iff.1 h
    cases heq
    obtain ⟨space', members, hspace', hvalues, rfl⟩ :=
      exists_members_of_foldMembers (hinner inner rfl) hread
    exact ⟨_, .object hspace' hvalues, by simp [hc, objectChars]⟩
  · cases h

theorem takesValue_readValue (depth : Nat) : TakesValue (readValue depth) := by
  induction depth with
  | zero => exact takesValue_of_inner fun inner h => absurd h (Nat.succ_ne_zero inner).symm
  | succ depth ih =>
      refine takesValue_of_inner fun inner h => ?_
      rwa [← Nat.succ.inj h]

/-- The text of a document is that of a value with space around it. -/
theorem exists_content_of_parse {text : String} {j : Json} (h : parse text = .ok j) :
    ∃ before content after, IsSpaces before ∧ IsValue content ∧ IsSpaces after ∧
      text.toList = before ++ (content ++ after) := by
  obtain ⟨rest, hread, hspace⟩ := exists_readValue_of_parse h
  obtain ⟨before, content, hbefore, hvalue, hl⟩ := takesValue_readValue maxDepth hread
  obtain ⟨after, hafter, hrest⟩ := exists_spaces rest
  rw [hspace, List.append_nil] at hrest
  exact ⟨before, content, rest, hbefore, hvalue, hrest ▸ hafter, hl⟩

theorem Literal.toJson_ne_object (n : Literal) (members : List (String × Json)) :
    n.toJson ≠ .ok (.object members) := by
  intro h
  unfold toJson at h
  dsimp only at h
  split at h
  · cases h
  split at h
  · cases h
  split at h <;> cases h

theorem exists_brace_of_readValue {depth : Nat} {l rest : List Char}
    {members : List (String × Json)} (h : readValue depth l = .ok (.object members, rest)) :
    ∃ r, skipSpace l = '\x7b' :: r := by
  rw [readValue.eq_1] at h
  split at h
  · cases h
  next c r hskip =>
  by_cases hbrace : c = '\x7b'
  · exact ⟨r, by rw [hskip, hbrace]⟩
  -- every other first character gives something else
  exfalso
  iterate 4
    split at h
    · obtain ⟨_, -, heq⟩ := map_eq_ok_iff.1 h
      cases heq
  split at h
  · obtain ⟨⟨n, _⟩, -, h⟩ := bind_eq_ok_iff.1 h
    obtain ⟨_, hjson, heq⟩ := bind_eq_ok_iff.1 h
    cases heq
    exact n.toJson_ne_object members hjson
  split at h
  · split at h
    · cases h
    · obtain ⟨_, -, heq⟩ := map_eq_ok_iff.1 h
      cases heq
  cases h

/-- The text of an object is one of the grammar. -/
theorem exists_objectText_of_parse {text : String} {members : List (String × Json)}
    (h : parse text = .ok (.object members)) : ∃ o : ObjectText, o.text = text := by
  obtain ⟨before, content, after, hbefore, hvalue, hafter, htext⟩ := exists_content_of_parse h
  obtain ⟨rest, hread, -⟩ := exists_readValue_of_parse h
  obtain ⟨c, r, rfl, hstart⟩ := hvalue.exists_cons
  rw [htext] at hread
  obtain ⟨r', hbrace⟩ := exists_brace_of_readValue hread
  rw [hstart.skipSpace_append hbefore, List.cons_append] at hbrace
  obtain ⟨space, members', rfl, hspace, hvalues⟩ := hstart.object (List.cons.inj hbrace).1
  refine ⟨⟨before, space, members', after, hbefore, hspace, hafter, hvalues⟩, ?_⟩
  rw [ObjectText.text, ← (List.cons.inj hbrace).1, ← htext, String.ofList_toList]

end GoCell.Json
