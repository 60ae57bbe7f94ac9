/-!
Shell patterns: `*` stands for any text, `?` for any character, and brackets for
one of a set. A quoted character stands for itself.
-/

namespace GoCell.Shell

/-- A character of a pattern, and whether it is quoted. -/
abbrev Mark := Char × Bool

/-- Whether `matchRest` holds of a text without some of its first characters. -/
def anySuffix (matchRest : List Char → Bool) : List Char → Bool
  | [] => matchRest []
  | c :: r => matchRest (c :: r) || anySuffix matchRest r

/-- The characters of a set, as ranges, and the pattern after its bracket. A bracket
that comes first is a member. -/
def scanSet : List (Char × Char) → List Mark → Option (List (Char × Char) × List Mark)
  | _, [] => none
  | [], (c, _) :: ('-', false) :: (d, q) :: r =>
    if d = ']' ∧ !q then some ([(c, c), ('-', '-')], r) else scanSet [(c, d)] r
  | [], (c, _) :: r => scanSet [(c, c)] r
  | set, (']', false) :: r => some (set, r)
  | set, (c, _) :: ('-', false) :: (d, q) :: r =>
    if d = ']' ∧ !q then some ((c, c) :: ('-', '-') :: set, r) else scanSet ((c, d) :: set) r
  | set, (c, _) :: r => scanSet ((c, c) :: set) r

/-- Whether a text matches a pattern of at most `bound` characters. -/
def matchWithin : Nat → List Mark → List Char → Bool
  | _, [], l => l.isEmpty
  | 0, _, _ => false
  | bound + 1, ('*', false) :: p, l => anySuffix (matchWithin bound p) l
  | bound + 1, ('?', false) :: p, l =>
    match l with
    | _ :: r => matchWithin bound p r
    | [] => false
  | bound + 1, ('[', false) :: p, l =>
    let (negated, body) := match p with
      | ('!', false) :: q => (true, q)
      | p => (false, p)
    match l, scanSet [] body with
    | c :: r, some (set, rest) =>
      (set.any fun (lo, hi) => lo ≤ c && c ≤ hi) != negated && matchWithin bound rest r
    | c :: r, none => c == '[' && matchWithin bound p r
    | [], _ => false
  | bound + 1, (x, _) :: p, l =>
    match l with
    | c :: r => c == x && matchWithin bound p r
    | [] => false

/-- Whether a text as a whole matches a pattern. -/
def matchPattern (p : List Mark) (l : List Char) : Bool := matchWithin p.length p l

/-- Whether a pattern has any character with a meaning of its own. -/
def isPattern (p : List Mark) : Bool :=
  p.any fun (c, quoted) => !quoted && (c == '*' || c == '?' || c == '[')

/-- A text without the shortest or longest prefix that matches. -/
def cutStart (longest : Bool) (p : List Mark) (l : List Char) : List Char :=
  let cuts := (List.range (l.length + 1)).filter fun n => matchPattern p (l.take n)
  match if longest then cuts.getLast? else cuts.head? with
  | some n => l.drop n
  | none => l

/-- A text without the shortest or longest suffix that matches. -/
def cutEnd (longest : Bool) (p : List Mark) (l : List Char) : List Char :=
  let cuts := (List.range (l.length + 1)).filter fun n => matchPattern p (l.drop n)
  match if longest then cuts.head? else cuts.getLast? with
  | some n => l.take n
  | none => l

end GoCell.Shell
