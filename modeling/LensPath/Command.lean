import LensPath.Span
import LensPath.Text.Basic

/-!
The command line: what can be asked of the program, and how its arguments say so. Options and
positional arguments stand in any order, `--` ends the options, and the first argument that does
not fit is refused.
-/

namespace LensPath

inductive Shell
  | bash
  | elvish
  | fish
  | powershell
  | zsh
deriving DecidableEq, Repr

def Shell.all : List Shell := [.bash, .elvish, .fish, .powershell, .zsh]

def Shell.name : Shell → String
  | bash => "bash"
  | elvish => "elvish"
  | fish => "fish"
  | powershell => "powershell"
  | zsh => "zsh"

inductive Command
  | lex (path : String)
  | parse (path : String)
  | highlight (path : String) (offset : Nat)
  | check (model root : String) (isWrite : Bool) (path : String)
  | inspect (manifest : String)
  | completions (shell : Shell)
deriving DecidableEq, Repr

inductive Request
  | help
  | version
  | run (verbosity : Nat) (command : Command)
deriving DecidableEq, Repr

namespace Command

def offsetOfText? (text : String) : Option Nat :=
  (Text.natural? text).filter (· < offsetBound)

structure Grammar where
  flags : List String := []
  options : List (String × (String → Bool)) := []
  positionals : Nat := 1
  positionalTest : String → Bool := fun _ => true
  hasVersion : Bool := false
  /-- The first positional argument ends the arguments of the grammar. -/
  endsAtPositional : Bool := false

structure Gathered where
  verbosity : Nat := 0
  flags : List String := []
  options : List (String × String) := []
  positionals : List String := []
  /-- The arguments that belong to no grammar yet. -/
  rest : List String := []

inductive Outcome
  | refused
  | help
  | version
  | gathered (arguments : Gathered)

inductive Form
  | ending
  | long (name : String) (value : Option String)
  | short (letters : List Char)
  | positional (text : String)

/-- The form of an argument. A dash alone is positional. -/
def formOf (argument : String) : Form :=
  match argument.toList with
  | ['-', '-'] => .ending
  | '-' :: '-' :: name =>
      match name.dropWhile (· != '=') with
      | [] => .long (String.ofList name) none
      | _ :: value =>
          .long (String.ofList (name.takeWhile (· != '='))) (some (String.ofList value))
  | '-' :: letter :: letters => .short (letter :: letters)
  | _ => .positional argument

def isSeparateValue (text : String) : Bool :=
  match formOf text with
  | .positional _ => true
  | _ => false

def takeShort (grammar : Grammar) (gathered : Gathered) : List Char → Outcome
  | [] => .gathered gathered
  | 'v' :: letters =>
      takeShort grammar { gathered with verbosity := gathered.verbosity + 1 } letters
  | 'h' :: _ => .help
  | 'V' :: _ => if grammar.hasVersion then .version else .refused
  | _ => .refused

def takeFlag (grammar : Grammar) (gathered : Gathered) (name : String) : Outcome :=
  if name == "verbose" then .gathered { gathered with verbosity := gathered.verbosity + 1 }
  else if name == "help" then .help
  else if name == "version" && grammar.hasVersion then .version
  else if grammar.flags.contains name && !gathered.flags.contains name then
    .gathered { gathered with flags := name :: gathered.flags }
  else .refused

/-- The effect of an option with its value. An option is given once. -/
def takeOption (grammar : Grammar) (gathered : Gathered) (name value : String) : Outcome :=
  match grammar.options.lookup name with
  | some test =>
      if test value && (gathered.options.lookup name).isNone then
        .gathered { gathered with options := (name, value) :: gathered.options }
      else .refused
  | none => .refused

def takePositional (grammar : Grammar) (gathered : Gathered) (text : String) : Outcome :=
  if gathered.positionals.length < grammar.positionals && grammar.positionalTest text then
    .gathered { gathered with positionals := gathered.positionals ++ [text] }
  else .refused

def takePositionals (grammar : Grammar) (gathered : Gathered) : List String → Outcome
  | [] => .gathered gathered
  | text :: rest =>
      match takePositional grammar gathered text with
      | .gathered gathered => takePositionals grammar gathered rest
      | outcome => outcome

def gather (grammar : Grammar) (gathered : Gathered) : List String → Outcome
  | [] => .gathered gathered
  | argument :: rest =>
      match formOf argument with
      | .ending =>
          if grammar.endsAtPositional then .refused else takePositionals grammar gathered rest
      | .short letters =>
          match takeShort grammar gathered letters with
          | .gathered gathered => gather grammar gathered rest
          | outcome => outcome
      | .positional text =>
          if grammar.endsAtPositional then .gathered { gathered with rest := argument :: rest }
          else
            match takePositional grammar gathered text with
            | .gathered gathered => gather grammar gathered rest
            | outcome => outcome
      | .long name (some value) =>
          match takeOption grammar gathered name value with
          | .gathered gathered => gather grammar gathered rest
          | outcome => outcome
      | .long name none =>
          if (grammar.options.lookup name).isSome then
            match rest with
            | [] => .refused
            | value :: rest =>
                if isSeparateValue value then
                  match takeOption grammar gathered name value with
                  | .gathered gathered => gather grammar gathered rest
                  | outcome => outcome
                else .refused
          else
            match takeFlag grammar gathered name with
            | .gathered gathered => gather grammar gathered rest
            | outcome => outcome

structure Entry where
  name : String
  grammar : Grammar
  build : Gathered → Option Command

def entries : List Entry := [
  { name := "lex"
    grammar := {}
    build := fun given => given.positionals.head?.map .lex },
  { name := "parse"
    grammar := {}
    build := fun given => given.positionals.head?.map .parse },
  { name := "highlight"
    grammar := { options := [("offset", fun text => (offsetOfText? text).isSome)] }
    build := fun given => do
      let path ← given.positionals.head?
      match given.options.lookup "offset" with
      | some text => return .highlight path (← offsetOfText? text)
      | none => return .highlight path 0 },
  { name := "check"
    grammar :=
      { flags := ["write"]
        options := [("model", fun text => !text.isEmpty), ("root", fun _ => true)] }
    build := fun given => do
      let model ← given.options.lookup "model"
      let root ← given.options.lookup "root"
      let path ← given.positionals.head?
      return .check model root (given.flags.contains "write") path },
  { name := "inspect"
    grammar := { positionalTest := fun text => !text.isEmpty }
    build := fun given => given.positionals.head?.map .inspect },
  { name := "completions"
    grammar := { positionalTest := fun text => Shell.all.any (·.name == text) }
    build := fun given => do
      let name ← given.positionals.head?
      let shell ← Shell.all.find? (·.name == name)
      return .completions shell }]

def names : List String := entries.map Entry.name

def topGrammar : Grammar := { hasVersion := true, endsAtPositional := true }

def helpOn : List String → Option Request
  | [] => some .help
  | [name] => if ("help" :: names).contains name then some .help else none
  | _ => none

def ofCommand (topVerbosity : Nat) (name : String) (arguments : List String) :
    Option Request := do
  let entry ← entries.find? (·.name == name)
  match gather entry.grammar {} arguments with
  | .refused => none
  | .help => some .help
  | .version => some .version
  | .gathered given =>
      let verbosity := if given.verbosity == 0 then topVerbosity else given.verbosity
      return .run verbosity (← entry.build given)

/-- The request that all arguments make; `none` if they make none. How much is to be logged is
what the arguments after the command name say, if they say anything about it. -/
def ofArguments? (arguments : List String) : Option Request :=
  match gather topGrammar {} arguments with
  | .refused => none
  | .help => some .help
  | .version => some .version
  | .gathered given =>
      match given.rest with
      | [] => none
      | "help" :: rest => helpOn rest
      | name :: rest => ofCommand given.verbosity name rest

def usageText : String :=
  "Check lens paths against a type model\n\n" ++
    "Usage: lensc [-v]... COMMAND\n\nCommands:\n" ++
    "  lex PATH\n" ++
    "  parse PATH\n" ++
    "  highlight [--offset N] PATH\n" ++
    "  check --model FILE --root TYPE [--write] PATH\n" ++
    "  inspect MANIFEST\n" ++
    "  completions SHELL\n"

def versionText : String := "lensc 0.1.0\n"

def inputFile? : Command → Option String
  | check model _ _ _ => some model
  | inspect manifest => some manifest
  | _ => none

end Command

def Shell.completionScript (shell : Shell) : String :=
  let words := " ".intercalate Command.names
  match shell with
  | .bash => "complete -W '" ++ words ++ "' lensc\n"
  | .elvish => "set edit:completion:arg-completer[lensc] = \x7b|@words| put " ++ words ++ " \x7d\n"
  | .fish => "complete -c lensc -n __fish_use_subcommand -f -a '" ++ words ++ "'\n"
  | .powershell =>
      "Register-ArgumentCompleter -Native -CommandName lensc -ScriptBlock \x7b -split '" ++
        words ++ "' \x7d\n"
  | .zsh => "#compdef lensc\n_arguments '1:command:(" ++ words ++ ")'\n"

end LensPath
