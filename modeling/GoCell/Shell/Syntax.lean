/-!
The syntax of shell scripts: words with their quoting kept, redirections, and
commands.
-/

namespace GoCell.Shell

/-- A piece of a word. Parameters, command substitutions and arithmetic keep their
source text. -/
inductive Piece
  | text (quoted : Bool) (cs : List Char)
  | parameter (quoted : Bool) (source : List Char)
  | command (quoted : Bool) (source : List Char)
  | arithmetic (quoted : Bool) (source : List Char)

abbrev Word := List Piece

inductive RedirectKind
  | read
  | write
  | append
  | duplicate
  | content

/-- A redirection of a file descriptor. For `content` the word is what is read. -/
structure Redirect where
  descriptor : Nat
  kind : RedirectKind
  word : Word

inductive Command
  | simple (line : Nat) (assignments : List (String × Word)) (words : List Word)
      (redirects : List Redirect)
  | pipeline (negated : Bool) (stages : List Command)
  | both (first second : Command)
  | either (first second : Command)
  | sequence (commands : List Command)
  | background (body : Command)
  | redirected (body : Command) (redirects : List Redirect)
  | subshell (body : Command)
  | branch (condition thenBody elseBody : Command)
  | loop (untilTrue : Bool) (condition body : Command)
  | each (name : String) (words : Option (List Word)) (body : Command)
  | select (subject : Word) (clauses : List (List Word × Command))
  | define (name : String) (body : Command)

/-- The command that does nothing. -/
def Command.skip : Command := .sequence []

end GoCell.Shell
