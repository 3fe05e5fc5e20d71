import LensPath.Token

/-!
Tokens one at a time. A scanner yields the tokens of its text in order; once it has yielded
nothing it yields nothing ever after.
-/

namespace LensPath

structure Scanner where
  offset : Nat
  rest : List Char
  finished : Bool
  stray : Option StrayChar
deriving DecidableEq, Repr

namespace Scanner

def ofString (source : String) : Scanner := ⟨0, source.toList, false, none⟩

def next (scanner : Scanner) : Option Token.Located × Scanner :=
  if scanner.finished then (none, scanner)
  else
    match Token.take? scanner.rest with
    | some (token, rest) =>
        (some (token.locate scanner.offset),
          { scanner with offset := scanner.offset + token.width, rest := rest })
    | none =>
        (none,
          { scanner with
            finished := true
            stray := StrayChar.head? scanner.rest scanner.offset })

theorem next_shorter {scanner : Scanner} {token : Token.Located} {after : Scanner}
    (yielded : scanner.next = (some token, after)) :
    after.rest.length < scanner.rest.length := by
  unfold next at yielded
  split at yielded
  · cases yielded
  · split at yielded
    · next taken =>
        cases yielded
        exact Token.take?_shorter taken
    · cases yielded

/-- Every token still to come, and the scanner after the first refusal. -/
def drain (scanner : Scanner) : List Token.Located × Scanner :=
  match _ : scanner.next with
  | (none, after) => ([], after)
  | (some token, after) =>
      let run := drain after
      (token :: run.1, run.2)
termination_by scanner.rest.length
decreasing_by exact next_shorter (by assumption)

end Scanner

end LensPath
