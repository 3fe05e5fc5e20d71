import LensPath.Diagnostic
import LensPath.Path.Reading
import LensPath.Text.Basic
import LensPath.Text.Width

/-!
Reports: a message over a picture of the text that it is about. The picture has the lines of a
range of the text, and a label under it; the places of the range are counted in characters.
-/

namespace LensPath

namespace Text

def endsLine (c : Char) : Bool :=
  c == '\n' || c == '\r' || c == '\x0b' || c == '\x0c' || c == '\u0085' || c == '\u2028' ||
    c == '\u2029'

def lines : List Char → List (List Char)
  | [] => []
  | '\r' :: '\n' :: rest => ['\r', '\n'] :: lines rest
  | c :: rest =>
      if endsLine c then [c] :: lines rest
      else
        match lines rest with
        | [] => [[c]]
        | first :: others => (c :: first) :: others

end Text

structure Report where
  title : String
  source : String
  range : Span
  /-- The code of an error; a warning has none. -/
  code : Option String
  message : String
  label : String
  note : Option String
deriving DecidableEq, Repr

namespace Report

def heading (report : Report) : String :=
  match report.code with
  | some code => "[" ++ code ++ "] Error: " ++ report.message
  | none => "Warning: " ++ report.message

/-- The character from which the label hangs. -/
def hook (range : Span) : Nat := (range.start + range.stop) / 2

/-- The columns of the character at a place of the line. A tab reaches up to the next place that
four divides. -/
def columns (place : Nat) (c : Char) : Nat :=
  if c == '\t' then 4 - place % 4
  else if Text.isBlankChar c then 1
  else Text.width c

def drawn (line : List Char) : String :=
  String.ofList <| List.flatten <| line.mapIdx fun place c =>
    if Text.isBlankChar c then List.replicate (columns place c) ' ' else [c]

/-- A sign in the columns under one character: at first the sign itself, then what fills them. -/
structure Sign where
  first : Char
  fill : Char

namespace Sign

def space : Sign := ⟨' ', ' '⟩

def bar : Sign := ⟨'─', '─'⟩

def spread (sign : Sign) : Nat → List Char
  | 0 => []
  | count + 1 => sign.first :: List.replicate count sign.fill

end Sign

/-- Signs under the characters of a line, or one column each behind its end. -/
def under (line : List Char) (count : Nat) (sign : Nat → Sign) : String :=
  let widths := line.mapIdx columns
  String.ofList <| (List.range count).flatMap fun place =>
    (sign place).spread (widths[place]?.getD 1)

def marks (line : List Char) (range : Span) : String :=
  under line (range.stop + 1) fun place =>
    if place == hook range then if range.isEmpty then ⟨'│', ' '⟩ else ⟨'┬', '─'⟩
    else if range.start ≤ place && place < range.stop then .bar
    else .space

def arrow (line : List Char) (range : Span) (label : String) : String :=
  under line (range.stop + 2) (fun place =>
    if place == hook range then ⟨'╰', '─'⟩
    else if hook range < place then .bar
    else .space) ++ " " ++ label

structure Row where
  number : Nat
  /-- How many characters are before the line. -/
  offset : Nat
  /-- The characters of the line, with what ends it. -/
  chars : List Char

namespace Row

def ofLines (number offset : Nat) : List (List Char) → List Row
  | [] => []
  | line :: rest => ⟨number, offset, line⟩ :: ofLines (number + 1) (offset + line.length) rest

def all (source : String) : List Row := ofLines 1 0 (Text.lines source.toList)

/-- The line that a place is on. The end of the text is on its last line. -/
def find? (source : String) (place : Nat) : Option Row :=
  if place ≤ source.length then ((all source).filter (·.offset ≤ place)).getLast? else none

def text (row : Row) : List Char := Text.trimRight row.chars

def stop (row : Row) : Nat := row.offset + row.chars.length

end Row

def blanks (count : Nat) : String := String.ofList (List.replicate count ' ')

def numbered (width : Nat) (row : Row) : String :=
  let number := toString row.number
  " " ++ blanks (width - number.length) ++ number ++ " │ "

def unnumbered (width : Nat) : String := blanks (width + 2) ++ "│ "

/-- A line with the label under a range of it. A range that ends behind it is not drawn. -/
def pictureOnRow (report : Report) (width : Nat) (row : Row) : List String :=
  let range : Span := ⟨report.range.start - row.offset, report.range.stop - row.offset⟩
  if row.chars.length < range.stop then [unnumbered width]
  else [
    numbered width row ++ drawn row.text,
    unnumbered width ++ marks row.text range,
    unnumbered width ++ arrow row.text range report.label]

/-- The first and the last line of a range with the label under them. The lines between them are
left out, and so is the last line when the range ends behind it. -/
def pictureOverRows (report : Report) (width : Nat) (first last : Row) : List String :=
  let reaches : Bool := report.range.stop ≤ last.stop
  let isGapless : Bool := reaches && last.number == first.number + 1
  [numbered width first ++ "╭─▶ " ++ drawn first.text] ++
  (if isGapless then [] else [blanks (width + 2) ++ "┆ ┆"]) ++
  if reaches then [
    numbered width last ++ "├─▶ " ++ drawn last.text,
    unnumbered width ++ "│",
    unnumbered width ++ "╰───" ++ under last.text (last.chars.length + 2) (fun _ => .bar) ++
      " " ++ report.label]
  else []

/-- What stands before the note when the range is on several lines. It belongs to a picture of
the first line of the text. -/
def noteIndent (report : Report) : String :=
  match Row.all report.source with
  | row :: _ => if report.range.start == row.stop then "│   " else "    "
  | [] => ""

def pictured (report : Report) (first last : Row) : List String :=
  let width := (toString last.number).length
  let isOneRow := first.number == last.number
  let indent := if isOneRow then "" else report.noteIndent
  [blanks (width + 2) ++ "╭─[" ++ report.title ++ ":" ++ toString first.number ++ ":" ++
      toString (report.range.start - first.offset + 1) ++ "]",
    blanks (width + 2) ++ "│"] ++
  (if isOneRow then report.pictureOnRow width first
    else report.pictureOverRows width first last) ++
  (match report.note with
    | some note => [
        unnumbered width ++ indent,
        unnumbered width ++ indent ++ "Note: " ++ note]
    | none => []) ++
  ["──" ++ String.ofList (List.replicate width '─') ++ "╯"]

/-- The lines of a report. Only the message is shown when the range is not in the text. -/
def lines (report : Report) : List String :=
  let lastPlace := max report.range.start (report.range.stop - 1)
  match Row.find? report.source report.range.start, Row.find? report.source lastPlace with
  | some first, some last => report.heading :: report.pictured first last
  | _, _ => [report.heading]

def clamp (range : Span) (source : String) : Span :=
  let stop := min range.stop source.utf8ByteSize
  ⟨min range.start stop, stop⟩

/-- The range of a diagnostic in the text of its path, which starts at `offset`. -/
def rangeOf (diagnostic : Diagnostic) (source : String) (offset : Nat) : Span :=
  match diagnostic.span? with
  | some span => clamp ⟨span.start - offset, span.stop - offset⟩ source
  | none => ⟨0, source.utf8ByteSize⟩

def labelOf : Diagnostic → String
  | .blankPath => "path is empty"
  | .propertyNotFound .. => "no such property"
  | .methodNotFound .. => "no such method"
  | .methodWritten .. => "cannot assign through a method call"

def ofDiagnostic (title source : String) (offset : Nat) (diagnostic : Diagnostic) : Report where
  title := title
  source := source
  range := rangeOf diagnostic source offset
  code := some diagnostic.key.text
  message := diagnostic.message
  label := labelOf diagnostic
  note := none

def ofProblem (title source kept : String) (problem : Problem) : Report where
  title := title
  source := source
  range := clamp problem.span source
  code := none
  message := problem.message
  label := "path is not well-formed from here"
  note := some <|
    if kept.isEmpty then "no segment could be parsed" else "only '" ++ kept ++ "' is used"

end Report

end LensPath
