/-! # Scripts

What a shell runs. A word is made of parts, each of which becomes text when the word is used; a
command is made of words and of other commands.

* `Part`, `Word`: the parts of words.
* `Redirect`: where a command's streams lead.
* `Command`: the commands. -/

namespace PaneRelay.Shell

mutual

/-- **A part of a word.** A part that is quoted is not split into words again. -/
inductive Part where
  /-- Text as it stands. -/
  | text (s : List Char) (quoted : Bool)
  /-- The value of a variable, or what an operator makes of it with another word. -/
  | value (name : List Char) (change : Option (List Char × List Part)) (quoted : Bool)
  /-- The length of a variable's value. -/
  | length (name : List Char)
  /-- The value of a sum. -/
  | sum (e : List Part) (quoted : Bool)
  /-- The output of commands. -/
  | output (body : List Command) (quoted : Bool)

/-- **Where a stream leads.** -/
inductive Redirect where
  /-- Where another stream leads, or nowhere for a dash. -/
  | same (fd : Nat) (other : List Part)
  /-- To a file. -/
  | file (fd : Nat) (name : List Part)

/-- **A command.** -/
inductive Command where
  /-- Settings of variables, and a program with its arguments. -/
  | simple (settings : List (List Char × List Part)) (words : List (List Part))
  /-- Commands whose outputs are the inputs of those after them. -/
  | pipeline (stages : List Command)
  /-- A command whose success is failure. -/
  | negated (c : Command)
  /-- Two commands, of which the second runs if the first succeeds. -/
  | both (first second : Command)
  /-- Two commands, of which the second runs if the first fails. -/
  | either (first second : Command)
  /-- Several commands. -/
  | group (body : List Command)
  /-- Several commands that change nothing outside. -/
  | apart (body : List Command)
  /-- Commands that are repeated while others succeed, or until they do. -/
  | loop (till : Bool) (test body : List Command)
  /-- One of two groups of commands, as others succeed or fail. -/
  | branch (test yes no : List Command)
  /-- Commands that are repeated for each word. -/
  | each (name : List Char) (words : List (List Part)) (body : List Command)
  /-- The commands of the first pattern that fits a word. -/
  | choose (word : List Part) (cases : List (List (List Part) × List Command))
  /-- A name given to a command. -/
  | define (name : List Char) (body : Command)
  /-- A command whose streams lead elsewhere. -/
  | redirected (c : Command) (redirects : List Redirect)

end

/-- A word: its parts. -/
abbrev Word := List Part

end PaneRelay.Shell
