import LensPath.Path
import LensPath.Token

/-!
Reading a path from its text. The grammar is `segment (. segment)*` with a segment being a name
or a name followed by `()`. A text that is no path still yields the longest part of it that can
be used, together with what is wrong after it.
-/

namespace LensPath

inductive Expectation
  | name
  | closeParen
  | dotOrEnd
deriving DecidableEq, Repr

def Expectation.display : Expectation → String
  | name => "identifier"
  | closeParen => "')'"
  | dotOrEnd => "'.' or end of path"

inductive Problem
  | stray (char : StrayChar)
  | unexpected (expected : Expectation) (found : Token.Located)
deriving DecidableEq, Repr

namespace Problem

/-- The text at fault; empty at the end of the text. -/
def span : Problem → Span
  | stray char => char.span
  | unexpected _ found => found.span

def message : Problem → String
  | stray char => char.message
  | unexpected expected found =>
      "expected " ++ expected.display ++ ", found '" ++ found.token.display ++ "'"

def display (problem : Problem) : String := problem.message ++ " at " ++ problem.span.display

end Problem

namespace Lexed

/-- The problem at the head of the remaining tokens. After the last of them a stray character
is to blame before a missing token is. -/
def problemAt (lexed : Lexed) (expected : Expectation) : List Token.Located → Problem
  | found :: _ => .unexpected expected found
  | [] =>
      match lexed.stray with
      | some char => .stray char
      | none => .unexpected expected lexed.finish

end Lexed

def Segment.take : List Token.Located →
    Except (Expectation × List Token.Located) (Segment × List Token.Located)
  | ⟨.name name, nameSpan⟩ :: ⟨.openParen, _⟩ :: ⟨.closeParen, close⟩ :: rest =>
      .ok (⟨.method, name, nameSpan, nameSpan.hull close⟩, rest)
  | ⟨.name _, _⟩ :: ⟨.openParen, _⟩ :: rest => .error (.closeParen, rest)
  | ⟨.name name, nameSpan⟩ :: rest => .ok (⟨.property, name, nameSpan, nameSpan⟩, rest)
  | rest => .error (.name, rest)

theorem Segment.take_shorter {tokens rest : List Token.Located} {segment : Segment}
    (taken : Segment.take tokens = .ok (segment, rest)) : rest.length < tokens.length := by
  unfold Segment.take at taken
  split at taken <;> cases taken <;> simp only [List.length_cons] <;> omega

structure Gathered where
  segments : List Segment
  separators : List Span
  problem : Option Problem
deriving DecidableEq, Repr

namespace Gathered

/-- Puts a segment and a dot in front. The dot counts only if a segment follows it. -/
def prepend (segment : Segment) (dot : Span) (gathered : Gathered) : Gathered :=
  if gathered.segments.isEmpty then ⟨[segment], [], gathered.problem⟩
  else ⟨segment :: gathered.segments, dot :: gathered.separators, gathered.problem⟩

def ofTokens (lexed : Lexed) (tokens : List Token.Located) : Gathered :=
  match _ : Segment.take tokens with
  | .error (expected, rest) => ⟨[], [], some (lexed.problemAt expected rest)⟩
  | .ok (segment, []) => ⟨[segment], [], lexed.stray.map .stray⟩
  | .ok (segment, ⟨.dot, dot⟩ :: rest) => prepend segment dot (ofTokens lexed rest)
  | .ok (segment, found :: _) => ⟨[segment], [], some (.unexpected .dotOrEnd found)⟩
termination_by tokens.length
decreasing_by
  have shorter := Segment.take_shorter (by assumption)
  simp only [List.length_cons] at shorter
  omega

end Gathered

/-- What a text yields: the longest usable path at its head, and why the path ends before the
text does. -/
structure Reading where
  path : Path
  problem : Option Problem
deriving DecidableEq, Repr

namespace Reading

def ofLexed (lexed : Lexed) : Reading :=
  let gathered := Gathered.ofTokens lexed lexed.tokens
  ⟨(Path.ofParts? gathered.segments gathered.separators).getD .empty, gathered.problem⟩

def ofString (source : String) : Reading := ofLexed (Lexed.ofString source)

def isComplete (reading : Reading) : Bool := reading.problem.isNone

end Reading

def Path.ofString (source : String) : Path := (Reading.ofString source).path

end LensPath
