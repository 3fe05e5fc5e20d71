import LensPath.Log
import LensPath.Log.Pattern
import LensPath.Text.Alphanumeric
import LensPath.Text.Basic
import LensPath.Text.Cut

/-!
Directives of log filters: up to which level the events of some targets are shown. A directive
may ask for a field, and for a span of the program that the events happen in.
-/

namespace LensPath.Log

/-- Why a text is no directive. A text is torn when a part of it would begin or end inside a
character. -/
inductive Refusal
  | malformed
  | torn
deriving DecidableEq, Repr

structure Directive where
  /-- The text that the targets start with. -/
  target : String := ""
  span : Option String := none
  field : Option String := none
  /-- The pattern of the value that the field has in the span. -/
  value : Option String := none
  /-- The highest rank of the events that are shown; none are at zero. -/
  limit : Nat
deriving DecidableEq, Repr

namespace Directive

/-- The program has no spans, so that a directive on spans concerns no event. -/
def concerns (directive : Directive) (event : Event) : Bool :=
  directive.span.isNone && directive.value.isNone &&
    directive.target.toList.isPrefixOf event.target.toList &&
    directive.field.all event.hasField

/-- Of two directives on one event the longer target has precedence, then the greater name of a
field, and any field over none. -/
def yieldsTo (directive other : Directive) : Bool :=
  directive.target.length < other.target.length ||
    directive.target.length == other.target.length &&
      directive.field.getD "" ≤ other.field.getD ""

/-- The rank that a text stands for: a level in any case, `off`, or a number. Nothing at all
stands for errors. -/
def limitOfText? (text : String) : Option Nat :=
  match Text.natural? text with
  | some limit => if limit ≤ Level.trace.rank then some limit else none
  | none =>
      let upper := text.map Char.toUpper
      if text.isEmpty then some Level.error.rank
      else if upper == "OFF" then some 0
      else (Level.all.find? (·.display == upper)).map Level.rank

/-! ## Reading directives

The marks of a directive are searched for in the text without the blanks around it, and the parts
between them are cut at the same places out of the text with its blanks. -/

def startsTarget (c : Char) : Bool :=
  c == '-' || c == ':' || c == '_' || Text.isAlphanumeric c

def nextMark? (isMark : Char → Bool) : List Char → (place : Nat) → Option (Nat × Char × List Char)
  | [], _ => none
  | c :: rest, place =>
      if isMark c then some (place, c, rest) else nextMark? isMark rest (place + c.utf8Size)

def part (text : List Char) (start stop : Nat) : Except Refusal String :=
  match Text.cut? text start stop with
  | some piece => .ok (String.ofList piece)
  | none => .error .torn

/-- The directive with the level that the text ends with. Without a level everything is shown. -/
def withLevel (directive : Directive) (text : List Char) (start : Nat) :
    Except Refusal Directive := do
  let level ← part text start (Text.byteLength text)
  if level.isEmpty then return { directive with limit := Level.trace.rank }
  else
    match limitOfText? level with
    | some limit => return { directive with limit }
    | none => .error .malformed

def afterBrackets (directive : Directive) (text : List Char) (place : Nat) :
    List Char → Except Refusal Directive
  | [] => .ok directive
  | '=' :: _ => directive.withLevel text (place + 1)
  | _ => .error .malformed

def inBraces (directive : Directive) (text : List Char) (start : Nat) (rest : List Char) :
    Except Refusal Directive :=
  match nextMark? (· == '\x7d') rest start with
  | none => .error .malformed
  | some (stop, _, rest) => do
      let written ← part text start stop
      if written.isEmpty then .error .malformed
      else
        match rest with
        | ']' :: rest =>
            let parts := written.splitOn "="
            let value := parts[1]?
            if value.all (Pattern.isWellFormed ·.toList) then
              afterBrackets { directive with field := parts.head?, value } text (stop + 2) rest
            else .error .malformed
        | _ => .error .malformed

def inBrackets (directive : Directive) (text : List Char) (start : Nat) (rest : List Char) :
    Except Refusal Directive :=
  match nextMark? (fun c => c == ']' || c == '\x7b') rest start with
  | none => .error .malformed
  | some (stop, mark, rest) => do
      let name ← part text start stop
      if mark == ']' then
        afterBrackets { directive with span := some name } text (stop + 1) rest
      else
        let span := if name.isEmpty then none else some name
        inBraces { directive with span } text (stop + 1) rest

/-- A text without marks is a level, or else a target. -/
def ofPlainText (text : String) : Directive :=
  match limitOfText? text with
  | some limit => { limit }
  | none => { target := text, limit := Level.trace.rank }

def ofText (text : List Char) : Except Refusal Directive :=
  match Text.trim text with
  | [] => .error .malformed
  | '[' :: rest => inBrackets { limit := Level.trace.rank } text 1 rest
  | first :: rest =>
      if startsTarget first then
        match nextMark? (fun c => c == '=' || c == '[') (first :: rest) 0 with
        | none => .ok (ofPlainText (String.ofList text))
        | some (stop, mark, rest) => do
            let target ← part text 0 stop
            let directive : Directive := { target, limit := Level.trace.rank }
            if mark == '=' then directive.withLevel text (stop + 1)
            else directive.inBrackets text (stop + 1) rest
      else .error .malformed

end Directive

end LensPath.Log
