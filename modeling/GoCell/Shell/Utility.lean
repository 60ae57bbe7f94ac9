import GoCell.Files.Tree
import GoCell.Shell.Format
import GoCell.Shell.Pattern
import GoCell.Shell.Stream
import GoCell.Text.Line

/-!
The programs that scripts call: each turns its arguments and its input into output
and a status.
-/

namespace GoCell.Shell

open Text (encodeUtf8)

/-- What a program does. One that is `endless` reads or waits for ever. -/
structure Reply where
  out : ByteStream := {}
  err : String := ""
  status : Nat := 0
  endless : Bool := false
  /-- The milliseconds it takes. -/
  elapsed : Nat := 0

namespace Reply

def ofBytes (bytes : List UInt8) : Reply := { out := .ofBytes bytes }

def ofText (text : String) : Reply := .ofBytes (encodeUtf8 text)

def failure (status : Nat) (err : String) : Reply := { status, err }

end Reply

/-- The files that a program can read. -/
abbrev ReadFile := String → Except FileError ByteStream

/-- What a program says of an input that it cannot open. -/
def openFailure (program name : String) (e : FileError) : String :=
  let what := match program with
    | "head" | "tail" => "cannot open '" ++ name ++ "' for reading"
    | "tac" => "failed to open '" ++ name ++ "' for reading"
    | "rev" => "cannot open " ++ name
    | "sort" => "cannot read: " ++ name
    | _ => name
  program ++ ": " ++ what ++ ": " ++ e.text ++ "\n"

/-- The inputs that a program was given by name, joined, and what failed. -/
def readInputs (program : String) (readFile : ReadFile) (stdin : ByteStream) :
    List String → ByteStream × String
  | [] => ({}, "")
  | name :: names =>
    let (rest, err) := readInputs program readFile stdin names
    if name = "-" then (stdin.append rest, err)
    else match readFile name with
      | .ok s => (s.append rest, err)
      | .error e =>
        let err := if program = "sort" then "" else err
        (rest, openFailure program name e ++ err)

/-- The named inputs, or the standard input where none is named. -/
def inputs (program : String) (readFile : ReadFile) (names : List String)
    (stdin : ByteStream) : ByteStream × String :=
  if names.isEmpty then (stdin, "") else readInputs program readFile stdin names

/-- A reply made from inputs of which some may have failed. -/
def fromInputs (program : String) (readFile : ReadFile) (names : List String)
    (stdin : ByteStream) (use : ByteStream → Reply) : Reply :=
  let (s, err) := inputs program readFile names stdin
  let reply := use s
  if err = "" then reply
  else
    let counts := program = "wc" ∧ names.length = 1
    { reply with
      out := if counts then {} else reply.out
      err := err ++ reply.err
      status := if program = "sort" then 2 else 1 }

/-- A reply that needs all of its input. -/
def wholeInput (use : List UInt8 → List UInt8) (s : ByteStream) : Reply :=
  if s.isFinite then .ofBytes (use s.bytes) else { endless := true }

/-- The lines of some bytes, without their ends. -/
def byteLines (bytes : List UInt8) : List (List UInt8) :=
  let pieces := bytes.splitOn 10
  if pieces.getLast? == some [] then pieces.dropLast else pieces

def unlines (lines : List (List UInt8)) : List UInt8 := lines.flatMap (· ++ [10])

/-- The first lines of some bytes, with their ends. -/
def firstLines : Nat → List UInt8 → List UInt8
  | 0, _ => []
  | _, [] => []
  | n + 1, b :: r => if b = 10 then b :: firstLines n r else b :: firstLines (n + 1) r

/-- The options and the operands of a program. Letters in `valued` take a value. -/
def splitOptions (valued : List Char) : List String → List (Char × String) × List String
  | [] => ([], [])
  | "--" :: rest => ([], rest)
  | word :: rest =>
    match word.toList with
    | '-' :: c :: r =>
      if c.isDigit then
        let (options, operands) := splitOptions valued rest
        (('n', String.ofList (c :: r)) :: options, operands)
      else if valued.contains c then
        match r, rest with
        | [], value :: rest =>
          let (options, operands) := splitOptions valued rest
          ((c, value) :: options, operands)
        | r, rest =>
          let (options, operands) := splitOptions valued rest
          ((c, String.ofList r) :: options, operands)
      else
        let (options, operands) := splitOptions valued rest
        ((c :: r).map (·, "") ++ options, operands)
    | _ =>
      let (options, operands) := splitOptions valued rest
      (options, word :: operands)

/-- A count, which may have a unit. -/
def readCount (s : String) : Nat :=
  let ds := s.toList.takeWhile Char.isDigit
  let unit := match s.toList.dropWhile Char.isDigit with
    | 'k' :: _ | 'K' :: _ => 1024
    | 'M' :: _ => 1024 * 1024
    | 'b' :: _ => 512
    | _ => 1
  readDigits ds * unit

def head (readFile : ReadFile) (arguments : List String) (stdin : ByteStream) : Reply :=
  let (options, names) := splitOptions ['n', 'c'] arguments
  fromInputs "head" readFile names stdin fun s =>
    match options.lookup 'c' with
    | some n => .ofBytes (s.take (readCount n))
    | none =>
      let given := (options.lookup 'n').getD "10"
      let n := readCount given
      if given.toList.head? = some '-' then wholeInput (fun bytes =>
        let n := readCount (given.drop 1).toString
        firstLines ((byteLines bytes).length - n) bytes) s
      else if s.isFinite then .ofBytes (firstLines n s.bytes)
      else if s.cycle.contains 10 then
        .ofBytes (firstLines n (s.unroll (s.bytes.length + (n + 1) * s.cycle.length)))
      else { endless := true }

def tail (readFile : ReadFile) (arguments : List String) (stdin : ByteStream) : Reply :=
  let (options, names) := splitOptions ['n', 'c'] arguments
  let fromStart (n : String) : Bool := n.toList.head? == some '+'
  let count (n : String) : Nat := readCount (String.ofList (n.toList.dropWhile (!·.isDigit)))
  fromInputs "tail" readFile names stdin <| wholeInput fun bytes =>
    match options.lookup 'c' with
    | some n =>
      if fromStart n then bytes.drop (count n - 1) else bytes.drop (bytes.length - count n)
    | none =>
      let n := (options.lookup 'n').getD "10"
      let skipped := if fromStart n then count n - 1 else (byteLines bytes).length - count n
      bytes.drop (firstLines skipped bytes).length

/-- The members of a character class of `tr`. -/
def namedClass (name : String) : List UInt8 :=
  let all := (List.range 128).map UInt8.ofNat
  let having (p : Char → Bool) : List UInt8 := all.filter fun b => p (Char.ofNat b.toNat)
  match name with
  | "alpha" => having Char.isAlpha
  | "digit" => having Char.isDigit
  | "alnum" => having Char.isAlphanum
  | "lower" => having Char.isLower
  | "upper" => having Char.isUpper
  | "space" => [9, 10, 11, 12, 13, 32]
  | "blank" => [9, 32]
  | "punct" => having fun c => '!' ≤ c && c ≤ '~' && !c.isAlphanum
  | _ => []

/-- The bytes that an operand of `tr` lists. -/
def trSet : Nat → List Char → List UInt8
  | 0, _ => []
  | _, [] => []
  | bound + 1, '[' :: ':' :: r =>
    let name := r.takeWhile (· ≠ ':')
    namedClass (String.ofList name) ++ trSet bound (r.drop (name.length + 2))
  | bound + 1, '\\' :: r =>
    let (bytes, rest) := escape false r
    match rest with
    | some rest => bytes ++ trSet bound rest
    | none => bytes
  | bound + 1, a :: '-' :: b :: r =>
    ((List.range (b.toNat + 1 - a.toNat)).map fun n => UInt8.ofNat (a.toNat + n)) ++
      trSet bound r
  | bound + 1, c :: r => charBytes c ++ trSet bound r

/-- Equal neighbours in a set become one. -/
def squeeze (set : List UInt8) : List UInt8 → List UInt8
  | [] => []
  | [b] => [b]
  | a :: b :: r =>
    if a = b ∧ set.contains a then squeeze set (b :: r) else a :: squeeze set (b :: r)

def tr (arguments : List String) (stdin : ByteStream) : Reply :=
  let (options, operands) := splitOptions [] arguments
  let has (c : Char) : Bool := (options.lookup c).isSome
  let sets := operands.map fun s => trSet (s.length + 1) s.toList
  let first := sets.head?.getD []
  let second := (sets[1]?).getD []
  let inFirst (b : UInt8) : Bool := first.contains b != (has 'c' || has 'C')
  let translate (b : UInt8) : UInt8 :=
    if !inFirst b then b
    else if has 'c' || has 'C' then second.getLast?.getD b
    else match second[first.idxOf b]? with
      | some x => x
      | none => second.getLast?.getD b
  let changed := if has 'd' then stdin.flatMap fun b => if inFirst b then [] else [b]
    else if second.isEmpty then stdin
    else stdin.flatMap fun b => [translate b]
  if !stdin.isFinite && changed.isFinite then { endless := true }
  else if has 's' then
    let set := if second.isEmpty then first else second
    if changed.isFinite then .ofBytes (squeeze set changed.bytes) else { out := changed }
  else { out := changed }

/-- A number with leading spaces. -/
def padLeft (width : Nat) (ds : List Char) : List Char :=
  List.replicate (width - ds.length) ' ' ++ ds

def wc (readFile : ReadFile) (arguments : List String) (stdin : ByteStream) : Reply :=
  let (options, names) := splitOptions [] arguments
  let has (c : Char) : Bool := (options.lookup c).isSome
  let all := options.isEmpty
  fromInputs "wc" readFile names stdin fun s =>
    if !s.isFinite then { endless := true }
    else
      let text := (Text.decodeUtf8 s.bytes).toList
      let columns := (if all || has 'l' then [s.bytes.count 10] else []) ++
        (if all || has 'w' then [(Text.words text).length] else []) ++
        (if has 'm' then [text.length] else []) ++
        (if all || has 'c' then [s.bytes.length] else [])
      let width := if columns.length ≤ 1 then 1
        else if names.isEmpty then 7
        else (writeNat s.bytes.length).length
      let numbers := [' '].intercalate (columns.map fun n => padLeft width (writeNat n))
      let name := match names with
        | name :: _ => ' ' :: name.toList
        | [] => []
      .ofText (String.ofList (numbers ++ name ++ ['\n']))

/-- Whether one line comes before another, byte by byte. -/
def bytesLe : List UInt8 → List UInt8 → Bool
  | [], _ => true
  | _ :: _, [] => false
  | a :: as, b :: bs => a < b || (a == b && bytesLe as bs)

def lineNumber (line : List UInt8) : Int :=
  match skipBlank (toChars line) with
  | '-' :: r => -(readDigits (r.takeWhile Char.isDigit) : Int)
  | l => readDigits (l.takeWhile Char.isDigit)

def sort (readFile : ReadFile) (arguments : List String) (stdin : ByteStream) : Reply :=
  let (options, names) := splitOptions ['k', 't'] arguments
  let has (c : Char) : Bool := (options.lookup c).isSome
  let le (a b : List UInt8) : Bool :=
    if has 'n' then
      lineNumber a < lineNumber b || (lineNumber a == lineNumber b && bytesLe a b)
    else bytesLe a b
  fromInputs "sort" readFile names stdin <| wholeInput fun bytes =>
    let sorted := (byteLines bytes).mergeSort le
    let sorted := if has 'u' then sorted.eraseReps else sorted
    unlines (if has 'r' then sorted.reverse else sorted)

/-- Runs of equal lines, with their lengths. -/
def lineRuns : List (List UInt8) → List (Nat × List UInt8)
  | [] => []
  | line :: lines =>
    match lineRuns lines with
    | (n, first) :: runs =>
      if first = line then (n + 1, first) :: runs else (1, line) :: (n, first) :: runs
    | [] => [(1, line)]

def uniq (readFile : ReadFile) (arguments : List String) (stdin : ByteStream) : Reply :=
  let (options, names) := splitOptions [] arguments
  let has (c : Char) : Bool := (options.lookup c).isSome
  fromInputs "uniq" readFile names stdin <| wholeInput fun bytes =>
    let runs := lineRuns (byteLines bytes)
    let runs := if has 'd' then runs.filter (1 < ·.1) else if has 'u' then runs.filter (·.1 == 1)
      else runs
    unlines (runs.map fun (n, line) =>
      if has 'c' then asciiBytes (padLeft 7 (writeNat n)) ++ 32 :: line else line)

/-- The fields or characters that a list such as `1,3-5` names. -/
def cutRanges (list : String) : List (Nat × Option Nat) :=
  (list.toList.splitOn ',').map fun piece =>
    match piece.splitOn '-' with
    | [n] => (readDigits n, some (readDigits n))
    | [a, []] => (readDigits a, none)
    | a :: b :: _ => (readDigits a, some (readDigits b))
    | [] => (0, none)

def inCut (ranges : List (Nat × Option Nat)) (n : Nat) : Bool :=
  ranges.any fun (lo, hi) => lo ≤ n && (match hi with | some hi => n ≤ hi | none => true)

/-- The elements at the places that a list names, counted from one. -/
def cutItems {α : Type} (ranges : List (Nat × Option Nat)) (l : List α) : List α :=
  (l.zipIdx.filter fun (_, i) => inCut ranges (i + 1)).map (·.1)

def cut (readFile : ReadFile) (arguments : List String) (stdin : ByteStream) : Reply :=
  let (options, names) := splitOptions ['d', 'f', 'c', 'b'] arguments
  let separator := ((options.lookup 'd').bind fun d => (encodeUtf8 d).head?).getD 9
  let cutLine (line : List UInt8) : List UInt8 :=
    match options.lookup 'f', (options.lookup 'c').or (options.lookup 'b') with
    | some list, _ =>
      if line.contains separator then
        [separator].intercalate (cutItems (cutRanges list) (line.splitOn separator))
      else line
    | none, some list => cutItems (cutRanges list) line
    | none, none => line
  fromInputs "cut" readFile names stdin <| wholeInput fun bytes =>
    unlines ((byteLines bytes).map cutLine)

def seq (arguments : List String) : Reply :=
  match arguments.map integerArgument with
  | [some last] => .ofText (listed 1 1 last)
  | [some first, some last] => .ofText (listed first 1 last)
  | [some first, some step, some last] => .ofText (listed first step last)
  | [] => .failure 1 "seq: missing operand\nTry 'seq --help' for more information.\n"
  | _ =>
    let bad := (arguments.find? fun a => (integerArgument a).isNone).getD ""
    .failure 1 ("seq: invalid floating point argument: '" ++ bad ++
      "'\nTry 'seq --help' for more information.\n")
where
  listed (first step last : Int) : String :=
    let count := if step = 0 then 0 else (Int.fdiv (last - first) step + 1).toNat
    String.join ((List.range count).map fun n : Nat =>
      String.ofList (writeInt (first + n * step)) ++ "\n")

/-- Milliseconds, from a decimal number of seconds that may have another unit. -/
def readMillis? (s : String) : Option Nat :=
  let (number, unit) := match s.toList.getLast? with
    | some 's' => (s.toList.dropLast, 1000)
    | some 'm' => (s.toList.dropLast, 60000)
    | some 'h' => (s.toList.dropLast, 3600000)
    | some 'd' => (s.toList.dropLast, 86400000)
    | _ => (s.toList, 1000)
  match Numeral.read? number with
  | some n =>
    if n.negative ∨ n.exponent ≠ 0 then none
    else some (readDigits (n.whole ++ n.fraction) * unit / Nat.pow 10 n.fraction.length)
  | none => none

def sleep (arguments : List String) : Reply :=
  let bad := arguments.filter fun a => a ≠ "infinity" && (readMillis? a).isNone
  let hint := "Try 'sleep --help' for more information.\n"
  if arguments.isEmpty then .failure 1 ("sleep: missing operand\n" ++ hint)
  else if !bad.isEmpty then
    .failure 1 (String.join (bad.map fun a => "sleep: invalid time interval '" ++ a ++ "'\n") ++
      hint)
  else if arguments.contains "infinity" then { endless := true }
  else { elapsed := (arguments.filterMap readMillis?).foldl (· + ·) 0 }

def basename (arguments : List String) : Reply :=
  match arguments with
  | [] => .failure 1 "basename: missing operand\nTry 'basename --help' for more information.\n"
  | path :: more =>
    let name := (Path.names path).getLast?.getD (if path = "" then "" else "/")
    let ending := more.head?.getD ""
    let kept := if ending.toList.isSuffixOf name.toList && name ≠ ending then
        String.ofList (name.toList.take (name.length - ending.length))
      else name
    .ofText (kept ++ "\n")

def dirname (arguments : List String) : Reply :=
  match arguments with
  | [] => .failure 1 "dirname: missing operand\nTry 'dirname --help' for more information.\n"
  | paths =>
    .ofText (String.join (paths.map fun path =>
      let names := (Path.names path).dropLast
      let root := if Path.isAbsolute path then "/" else ""
      let text := root ++ "/".intercalate names
      (if text = "" then "." else text) ++ "\n"))

/-- The program with a name, on its arguments. -/
def utility? (readFile : ReadFile) (name : String) (arguments : List String)
    (stdin : ByteStream) : Option Reply :=
  match name with
  | "cat" =>
    let names := arguments.filter fun a => a = "-" || a.toList.head? != some '-'
    some (fromInputs "cat" readFile names stdin fun s => { out := s })
  | "head" => some (head readFile arguments stdin)
  | "tail" => some (tail readFile arguments stdin)
  | "tr" => some (tr arguments stdin)
  | "wc" => some (wc readFile arguments stdin)
  | "sort" => some (sort readFile arguments stdin)
  | "uniq" => some (uniq readFile arguments stdin)
  | "cut" => some (cut readFile arguments stdin)
  | "rev" =>
    some (fromInputs "rev" readFile arguments stdin <| wholeInput fun bytes =>
      unlines ((byteLines bytes).map List.reverse))
  | "tac" =>
    some (fromInputs "tac" readFile arguments stdin <| wholeInput fun bytes =>
      unlines (byteLines bytes).reverse)
  | "seq" => some (seq arguments)
  | "yes" =>
    let word := if arguments.isEmpty then "y" else " ".intercalate arguments
    some { out := { cycle := encodeUtf8 word ++ [10] } }
  | "sleep" => some (sleep arguments)
  | "basename" => some (basename arguments)
  | "dirname" => some (dirname arguments)
  | "true" => some {}
  | "false" => some { status := 1 }
  | "echo" =>
    let (newline, arguments) := match arguments with
      | "-n" :: r => (false, r)
      | as => (true, as)
    some (.ofText (" ".intercalate arguments ++ (if newline then "\n" else "")))
  | "printf" =>
    match arguments with
    | [] => some (.failure 1
        "printf: missing operand\nTry 'printf --help' for more information.\n")
    | format :: arguments =>
      let p := printFormatted format arguments
      some {
        out := .ofBytes p.out
        err := String.join (p.faults.map fun f => "printf: " ++ f ++ "\n")
        status := if p.faults.isEmpty then 0 else 1 }
  | _ => none

end GoCell.Shell
