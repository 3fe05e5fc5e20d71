import LensPath.Text.Alphanumeric
import LensPath.Text.Basic

/-!
Patterns that the values of fields are compared with: numbers and regular expressions. The
program has no spans whose fields could have values, so that only the form of a pattern counts.

An expression works on characters, or on bytes where the flag `u` is off. There are no tables
behind it that tell letters or fold cases, which leaves classes such as `\w`, the edges of words
and the flag `i` to expressions on bytes; and those may not match a part of a character.
-/

namespace LensPath.Log.Pattern

structure Mode where
  onCharacters : Bool := true
  ignoresCase : Bool := false
  /-- Blanks and comments in the expression do not count. -/
  skipsBlanks : Bool := false

namespace Mode

def set (mode : Mode) (flag : Char) (value : Bool) : Mode :=
  match flag with
  | 'u' => { mode with onCharacters := value }
  | 'i' => { mode with ignoresCase := value }
  | 'x' => { mode with skipsBlanks := value }
  | _ => mode

/-- The mode after the flags before a `-` are switched on, and those after it off. -/
def setAll (mode : Mode) (flags : List Char) : Mode :=
  let on := (flags.takeWhile (· != '-')).foldl (fun mode flag => mode.set flag true) mode
  (flags.dropWhile (· != '-')).foldl (fun mode flag => mode.set flag false) on

def allowsLiteral (mode : Mode) (c : Char) (isByte : Bool) : Bool :=
  if mode.onCharacters then !mode.ignoresCase else !isByte || c.toNat < 0x80

def allowsMember (mode : Mode) (c : Char) : Bool :=
  if mode.onCharacters then !mode.ignoresCase else c.toNat < 0x80

def allowsNamed (mode : Mode) (isNegated : Bool) : Bool :=
  if mode.onCharacters then !mode.ignoresCase else !isNegated

end Mode

structure State where
  rest : List Char
  mode : Mode
  names : List (List Char)

abbrev Reader := StateT State Option

namespace Reader

def peek? : Reader (Option Char) := return (← get).rest.head?

def mode : Reader Mode := return (← get).mode

def setMode (mode : Mode) : Reader Unit := modify ({ · with mode })

def setRest (rest : List Char) : Reader Unit := modify ({ · with rest })

def take : Reader Char := do
  match (← get).rest with
  | c :: rest => setRest rest; return c
  | [] => failure

def takeIf (c : Char) : Reader Bool := do
  match (← get).rest with
  | next :: rest => if next == c then setRest rest; return true else return false
  | [] => return false

def expect (c : Char) : Reader Unit := do guard (← takeIf c)

/-- The text without the blanks at its head, or the comment that it begins in. -/
def dropBlanks (inComment : Bool) : List Char → List Char
  | [] => []
  | c :: rest =>
      if inComment then dropBlanks (c != '\n') rest
      else if Text.isBlankChar c then dropBlanks false rest
      else if c == '#' then dropBlanks true rest
      else c :: rest

def skipBlanks : Reader Unit := do
  if (← mode).skipsBlanks then setRest (dropBlanks false (← get).rest)

/-- Takes as many characters as pass a test, and the blanks after each. -/
def takeWhile (test : Char → Bool) : Reader (List Char) := do go (← get).rest.length
where
  go : Nat → Reader (List Char)
    | 0 => return []
    | fuel + 1 => do
        match ← peek? with
        | some c =>
            if test c then
              let _ ← take
              skipBlanks
              return c :: (← go fuel)
            else return []
        | none => return []

end Reader

open Reader

/-! ## Escapes -/

inductive Escape
  | literal (c : Char) (isByte : Bool)
  /-- A class of letters, digits or blanks. -/
  | named (isNegated : Bool)
  | edgeOfText
  | edgeOfWord

def isHex (c : Char) : Bool := (Text.hexValue? c).isSome

def ofHex (digits : List Char) : Reader Char := do
  let value := digits.foldl (fun value c => value * 16 + (Text.hexValue? c).getD 0) 0
  guard (!digits.isEmpty && value.isValidChar)
  return .ofNat value

def readHexDigits : Nat → Reader (List Char)
  | 0 => return []
  | count + 1 => do
      let c ← take
      guard (isHex c)
      skipBlanks
      return c :: (← readHexDigits count)

/-- A character by its number: so many digits, or any number of them in braces. -/
def readHex (count : Nat) (isByte : Bool) : Reader Escape := do
  skipBlanks
  if ← takeIf '\x7b' then
    skipBlanks
    let digits ← Reader.takeWhile isHex
    expect '\x7d'
    skipBlanks
    return .literal (← ofHex digits) false
  else return .literal (← ofHex (← readHexDigits count)) isByte

def wordEdges : List String := ["start", "end", "start-half", "end-half"]

def readSide : Reader Unit := do
  let before ← get
  if ← takeIf '\x7b' then
    skipBlanks
    match ← peek? with
    | none => failure
    | some first =>
        let isLetter (c : Char) := c.isAlpha || c == '-'
        if isLetter first then
          let side ← Reader.takeWhile isLetter
          expect '\x7d'
          guard (wordEdges.contains (String.ofList side))
        else set before

def readEscape : Reader Escape := do
  let c ← take
  match c with
  | 'x' => readHex 2 true
  | 'u' => readHex 4 false
  | 'U' => readHex 8 false
  | 'd' | 's' | 'w' => return .named false
  | 'D' | 'S' | 'W' => return .named true
  | 'a' => return .literal '\x07' false
  | 'f' => return .literal '\x0c' false
  | 't' => return .literal '\t' false
  | 'n' => return .literal '\n' false
  | 'r' => return .literal '\r' false
  | 'v' => return .literal '\x0b' false
  | 'A' | 'z' => return .edgeOfText
  | 'b' => readSide; return .edgeOfWord
  | 'B' | '<' | '>' => return .edgeOfWord
  | c =>
      guard (c.toNat < 0x80 && !c.isAlphanum)
      return .literal c false

/-! ## Classes in brackets

The answer of a reader here is how deep the class is nested. -/

def classNames : List String :=
  ["alnum", "alpha", "ascii", "blank", "cntrl", "digit", "graph", "lower", "print", "punct",
    "space", "upper", "word", "xdigit"]

/-- A class by its name between colons, after its bracket: whether it is negated, and the text
after it. -/
def namedClass? : List Char → Option (Bool × List Char)
  | ':' :: rest =>
      let isNegated := rest.head? == some '^'
      let rest := if isNegated then rest.tail else rest
      match rest.dropWhile (· != ':') with
      | ':' :: ']' :: after =>
          if classNames.contains (String.ofList (rest.takeWhile (· != ':'))) then
            some (isNegated, after)
          else none
      | _ => none
  | _ => none

def depthOfMembers : List Nat → Nat
  | [] => 0
  | [depth] => depth
  | depths => depths.foldl max 0 + 1

/-- The depth of members and what an operator combines them with. -/
def depthOfOperation (left : Option Nat) (members : List Nat) : Nat :=
  match left with
  | some left => max left (depthOfMembers members) + 1
  | none => depthOfMembers members

def readPlainMember : Reader Escape := do
  match ← take with
  | '\\' => readEscape
  | c => return .literal c false

/-- The next character that is no blank, as far as one can tell behind the `#` of a comment. -/
def nextSolid? (skipsBlanks : Bool) (text : List Char) : Option Char :=
  if skipsBlanks then
    match text.dropWhile Text.isBlankChar with
    | '#' :: rest => (rest.dropWhile Text.isBlankChar).head?.or text.head?
    | rest => rest.head?.or text.head?
  else text.head?

def readMember : Reader Unit := do
  let first ← readPlainMember
  skipBlanks
  let state ← get
  let allows := state.mode.allowsMember
  let isRange :=
    match state.rest with
    | '-' :: rest =>
        let next := nextSolid? state.mode.skipsBlanks rest
        next != some ']' && next != some '-'
    | _ => false
  if isRange then
    expect '-'
    skipBlanks
    match first, ← readPlainMember with
    | .literal start _, .literal stop _ =>
        guard (start ≤ stop && allows start && allows stop)
    | _, _ => failure
  else
    match first with
    | .literal c _ => guard (allows c)
    | .named isNegated => guard (!state.mode.onCharacters && !isNegated)
    | _ => failure

/-- The dashes at the head of a class, which are members of it. -/
def readDashes : Nat → Reader (List Nat)
  | 0 => return []
  | fuel + 1 => do
      if ← takeIf '-' then
        guard ((← mode).allowsMember '-')
        skipBlanks
        return 0 :: (← readDashes fuel)
      else return []

/-- A class after its bracket. A bracket that closes it is a member if it is the first one. -/
def readClass (readMembers : List Nat → Reader Nat) : Reader Nat := do
  skipBlanks
  if ← takeIf '^' then
    guard (← mode).onCharacters
    skipBlanks
  let dashes ← readDashes (← get).rest.length
  if dashes.isEmpty then
    if ← takeIf ']' then
      guard ((← mode).allowsMember ']')
      return (← readMembers [0]) + 1
  return (← readMembers dashes) + 1

def readMembers : Nat → (left : Option Nat) → (members : List Nat) → Reader Nat
  | 0, _, _ => failure
  | fuel + 1, left, members => do
      skipBlanks
      let combined := depthOfOperation left members
      match (← get).rest with
      | ']' :: rest => setRest rest; return combined
      | '&' :: '&' :: rest | '-' :: '-' :: rest | '~' :: '~' :: rest =>
          setRest rest
          readMembers fuel (some combined) []
      | '[' :: rest =>
          match namedClass? rest with
          | some (isNegated, after) =>
              guard ((← mode).allowsNamed isNegated)
              setRest after
              readMembers fuel left (0 :: members)
          | none =>
              setRest rest
              let depth ← readClass (readMembers fuel none)
              readMembers fuel left (depth :: members)
      | _ =>
          readMember
          readMembers fuel left (0 :: members)

/-! ## Groups and repetitions -/

structure Piece where
  depth : Nat := 0
  isRepeatable : Bool := true

namespace Piece

def sequence : List Piece → Piece
  | [] => { isRepeatable := false }
  | [piece] => piece
  | pieces => { depth := depthOfMembers (pieces.map depth) }

def choice : List Piece → Piece
  | [piece] => piece
  | pieces => { depth := depthOfMembers (pieces.map depth) }

def nested (piece : Piece) : Piece := { depth := piece.depth + 1 }

end Piece

def repeatLast : List Piece → Reader (List Piece)
  | piece :: pieces => do
      guard piece.isRepeatable
      return piece.nested :: pieces
  | [] => failure

/-- A count of repetitions, below 2³². -/
def readCount : Reader Nat := do
  setRest ((← get).rest.dropWhile Text.isBlankChar)
  let digits ← Reader.takeWhile Text.isDigit
  setRest ((← get).rest.dropWhile Text.isBlankChar)
  skipBlanks
  let count := Text.ofDigits digits
  guard (!digits.isEmpty && count < 4294967296)
  return count

def readBounds : Reader Unit := do
  skipBlanks
  let least ← readCount
  if ← takeIf ',' then
    skipBlanks
    if (← peek?) != some '\x7d' then
      guard (least ≤ (← readCount))
  expect '\x7d'
  skipBlanks

def isNameChar (isFirst : Bool) (c : Char) : Bool :=
  if isFirst then c == '_' || Text.isAlphabetic c
  else c == '_' || c == '.' || c == '[' || c == ']' || Text.isAlphanumeric c

/-- The name of a group and the bracket that closes it. No two groups have the same name. -/
def readName : Reader Unit := do
  let state ← get
  let name := state.rest.takeWhile (· != '>')
  match name with
  | first :: others =>
      guard (isNameChar true first && others.all (isNameChar false))
      guard (!state.names.contains name)
      set { state with rest := state.rest.drop name.length, names := name :: state.names }
      expect '>'
  | [] => failure

/-- Flags: each of them at most once, with something behind the `-`. -/
def areFlags (flags : List Char) : Bool :=
  flags.all "imsUuRx-".toList.contains && flags.getLast? != some '-' &&
    flags.eraseDups.length == flags.length

/-- A group after its parenthesis. Flags alone hold up to the end of the group around them. -/
def readGroup (readPieces : Reader Piece) : Reader Piece := do
  let outer ← mode
  let body : Reader Piece := do
    let piece ← readPieces
    expect ')'
    setMode outer
    return piece.nested
  skipBlanks
  match (← get).rest with
  | '?' :: 'P' :: '<' :: rest | '?' :: '<' :: rest => setRest rest; readName; body
  | '?' :: rest =>
      let flags := rest.takeWhile fun c => c != ':' && c != ')'
      guard (areFlags flags)
      setRest (rest.drop flags.length)
      setMode (outer.setAll flags)
      if ← takeIf ':' then body
      else
        expect ')'
        guard (!flags.isEmpty)
        return { isRepeatable := false }
  | _ => body

def readPieces : Nat → (choices pieces : List Piece) → Reader Piece
  | 0, _, _ => failure
  | fuel + 1, choices, pieces => do
      skipBlanks
      let mode ← mode
      match ← peek? with
      | none | some ')' => return .choice (.sequence pieces :: choices)
      | some '|' =>
          expect '|'
          readPieces fuel (.sequence pieces :: choices) []
      | some '(' =>
          expect '('
          let group ← readGroup (readPieces fuel [] [])
          readPieces fuel choices (group :: pieces)
      | some '[' =>
          expect '['
          let depth ← readClass (readMembers fuel none)
          readPieces fuel choices ({ depth } :: pieces)
      | some '\x7b' =>
          let pieces ← repeatLast pieces
          expect '\x7b'
          readBounds
          let _ ← takeIf '?'
          readPieces fuel choices pieces
      | some c =>
          let _ ← take
          if c == '?' || c == '*' || c == '+' then
            let pieces ← repeatLast pieces
            let _ ← takeIf '?'
            readPieces fuel choices pieces
          else
            match c with
            | '\\' =>
                match ← readEscape with
                | .literal c isByte => guard (mode.allowsLiteral c isByte)
                | .named isNegated => guard (!mode.onCharacters && !isNegated)
                | .edgeOfWord => guard (!mode.onCharacters)
                | .edgeOfText => pure ()
            | '.' => guard mode.onCharacters
            | '^' | '$' => pure ()
            | c => guard (mode.allowsLiteral c false)
            readPieces fuel choices ({} :: pieces)

/-! ## Patterns -/

def maxDepth : Nat := 250

def isExpression (text : List Char) : Bool :=
  match readPieces (text.length + 1) [] [] { rest := text, mode := {}, names := [] } with
  | some (piece, state) => state.rest.isEmpty && piece.depth ≤ maxDepth
  | none => false

def withoutSign : List Char → List Char
  | '+' :: rest | '-' :: rest => rest
  | text => text

def isExponent : List Char → Bool
  | [] => true
  | mark :: rest =>
      let digits := withoutSign rest
      (mark == 'e' || mark == 'E') && !digits.isEmpty && digits.all Text.isDigit

/-- A number in base ten, with or without a point and an exponent, or one that is none. -/
def isNumber (text : List Char) : Bool :=
  let unsigned := withoutSign text
  let whole := unsigned.takeWhile Text.isDigit
  let (hasFraction, rest) :=
    match unsigned.dropWhile Text.isDigit with
    | '.' :: rest => (rest.head?.any Text.isDigit, rest.dropWhile Text.isDigit)
    | rest => (false, rest)
  (!whole.isEmpty || hasFraction) && isExponent rest ||
    ["inf", "infinity", "nan"].contains (String.ofList (unsigned.map Char.toLower))

def isWellFormed (text : List Char) : Bool := isNumber text || isExpression text

end LensPath.Log.Pattern
