import LensPath.Log.Directive

/-!
Log filters: directives together, and which events they show.
-/

namespace LensPath.Log

abbrev Filter := List Directive

namespace Filter

def ofLevel (level : Level) : Filter := [{ limit := level.rank }]

/-- The directive that decides on an event; the last of those that yield to each other. -/
def deciding (filter : Filter) (event : Event) : Option Directive :=
  filter.foldl (fun best directive =>
    if directive.concerns event && best.all (·.yieldsTo directive) then some directive
    else best) none

/-- An event that no directive concerns is not shown. -/
def shows (filter : Filter) (event : Event) : Bool :=
  match filter.deciding event with
  | some directive => event.level.rank ≤ directive.limit
  | none => false

/-- The filter of a text: directives with commas between them. Where nothing stands between two
commas there is no directive. -/
def ofText (text : String) : Except Refusal Filter :=
  ((text.splitOn ",").filter (!·.isEmpty)).mapM fun part => Directive.ofText part.toList

def ofVerbosity : Nat → Filter
  | 0 => ofLevel .warn
  | 1 => ofLevel .debug
  | _ => ofLevel .trace

/-- The filter of a run: a text that names one, or else the level that is asked for. A text that
is torn leaves the run without a filter. -/
def ofRun? (text : Option String) (verbosity : Nat) : Option Filter :=
  match text.map ofText with
  | some (.ok filter) => some filter
  | some (.error .torn) => none
  | some (.error .malformed) | none => some (ofVerbosity verbosity)

end Filter

end LensPath.Log
