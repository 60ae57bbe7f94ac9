import GoCell.Cell.Reader
import GoCell.Toolchain.Command

/-!
The words of the command line. Options that hold for every action may stand before
its name or after it; what stands after it counts.
-/

namespace GoCell.CommandLine

inductive Action
  | generate (file : Option String) (fromStdin : Bool) (json : Bool)
  | run (file : String) (command : String) (timeout : Duration) (shape : Option ResultShape)
      (references : Option String)
  | decode (shape : ResultShape)
  | help

structure Invocation where
  settings : Settings
  action : Action

/-- The options that may stand in one place: those without a value, and those with. -/
structure Spec where
  switches : List String
  valued : List String

/-- The options and the operands that were found in one place. -/
structure Found where
  switches : List String := []
  values : List (String × String) := []
  operands : List String := []

namespace Found

def has (f : Found) (name : String) : Bool := f.switches.contains name

def value? (f : Found) (name : String) : Option String := f.values.lookup name

/-- Adds a switch, which may be given once. -/
def addSwitch (f : Found) (name : String) : Option Found :=
  if f.has name then none else some { f with switches := name :: f.switches }

/-- Adds an option with its value, which may be given once. -/
def addValue (f : Found) (name value : String) : Option Found :=
  if (f.value? name).isSome then none else some { f with values := (name, value) :: f.values }

def addOperand (f : Found) (word : String) : Found :=
  { f with operands := f.operands ++ [word] }

end Found

/-- Whether a word looks like an option. -/
def isOption (word : String) : Bool :=
  match word.toList with
  | '-' :: _ :: _ => true
  | _ => false

/-- An option and its value where both are in one word. -/
def splitWord (word : String) : String × Option String :=
  match word.toList.dropWhile (· ≠ '=') with
  | _ :: value =>
    (String.ofList (word.toList.takeWhile (· ≠ '=')), some (String.ofList value))
  | [] => (word, none)

/-- Reads options and operands. With `single` the first operand ends them, and the
words after it are returned. -/
def scan (spec : Spec) (single : Bool) : Found → List String → Option (Found × List String)
  | f, [] => some (f, [])
  | f, "--" :: words => if single then none else some (words.foldl Found.addOperand f, [])
  | f, word :: words =>
    if !isOption word then
      if single then some (f.addOperand word, words) else scan spec single (f.addOperand word) words
    else
      let (name, attached) := splitWord word
      match attached, words with
      | none, words =>
        if spec.switches.contains name then
          match f.addSwitch name with
          | some f => scan spec single f words
          | none => none
        else if spec.valued.contains name then
          match words with
          | value :: words =>
            if isOption value then none
            else match f.addValue name value with
              | some f => scan spec single f words
              | none => none
          | [] => none
        else none
      | some value, words =>
        if spec.valued.contains name then
          match f.addValue name value with
          | some f => scan spec single f words
          | none => none
        else none

/-- The options that hold for every action. -/
def globalSpec : Spec := ⟨["--strict", "--help", "-h"], ["--default-package"]⟩

/-- The options of an action, those for every action included. -/
def actionSpec (name : String) : Spec :=
  let (switches, valued) := match name with
    | "generate" => (["--stdin", "--json"], [])
    | "run" => ([], ["--command", "--timeout-secs", "--shape", "--refs"])
    | _ => ([], ["--shape"])
  ⟨switches ++ globalSpec.switches, valued ++ globalSpec.valued⟩

/-- A path, which is never empty. -/
def path? (word : String) : Option String := if word = "" then none else some word

/-- A number of seconds, below `2 ^ 64`. -/
def seconds? (word : String) : Option Duration :=
  let digits := match word.toList with
    | '+' :: r => r
    | l => l
  if isDigits digits ∧ readDigits digits < Nat.pow 2 64 then some (.ofSeconds (readDigits digits))
  else none

/-- The value of an option that may be absent; none if it is given and malformed. -/
def optional {α : Type} (read : String → Option α) : Option String → Option (Option α)
  | none => some none
  | some word => (read word).map some

def generateAction (f : Found) : Option Action := do
  let fromStdin := f.has "--stdin"
  match f.operands with
  | [] => if fromStdin then some (.generate none true (f.has "--json")) else none
  | [word] => return .generate (some (← path? word)) fromStdin (f.has "--json")
  | _ => none

def runAction (f : Found) : Option Action := do
  match f.operands with
  | [word] =>
    let timeout ← optional seconds? (f.value? "--timeout-secs")
    let shape ← optional ResultShape.ofName? (f.value? "--shape")
    let references ← optional path? (f.value? "--refs")
    return .run (← path? word) ((f.value? "--command").getD "go")
      (timeout.getD (.ofSeconds 30)) shape references
  | _ => none

def decodeAction (f : Found) : Option Action := do
  let shape ← optional ResultShape.ofName? (f.value? "--shape")
  if f.operands.isEmpty then return .decode (shape.getD .table) else none

/-- The action with a name. -/
def action? (name : String) (f : Found) : Option Action :=
  match name with
  | "generate" => generateAction f
  | "run" => runAction f
  | "decode" => decodeAction f
  | _ => none

def asksHelp (f : Found) : Bool := f.has "--help" || f.has "-h"

/-- Reads the words of the command line; none where they are misused. -/
def parse (words : List String) : Option Invocation := do
  let (outer, rest) ← scan globalSpec true {} words
  if asksHelp outer then return ⟨{}, .help⟩
  match outer.operands with
  | ["help"] => if rest.length ≤ 1 then return ⟨{}, .help⟩ else none
  | [name] =>
    let (inner, _) ← scan (actionSpec name) false {} rest
    if asksHelp inner then return ⟨{}, .help⟩
    let package := (inner.value? "--default-package").or (outer.value? "--default-package")
    let settings : Settings := {
      package := package.getD "main"
      strict := outer.has "--strict" || inner.has "--strict" }
    return ⟨settings, ← action? name inner⟩
  | _ => none

end GoCell.CommandLine
