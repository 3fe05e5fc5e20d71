import LensPath.Command
import LensPath.Highlight
import LensPath.Log.Filter
import LensPath.Log.Journal
import LensPath.Path.Walk
import LensPath.Report
import LensPath.Resolution.Summary
import LensPath.Token.Listing

/-!
Runs of the program: what each command prints, logs and reports, in order, and how it ends.
-/

namespace LensPath

inductive FileFault
  | missing
  | notDirectory
  | directory
  | nameTooLong
  | notText
  | other (reason : String)
deriving DecidableEq, Repr

def FileFault.message : FileFault → String
  | missing => "No such file or directory (os error 2)"
  | notDirectory => "Not a directory (os error 20)"
  | directory => "Is a directory (os error 21)"
  | nameTooLong => "File name too long (os error 36)"
  | notText => "stream did not contain valid UTF-8"
  | other reason => reason

inductive Failure
  | unreadable (file : String) (fault : FileFault)
  | invalidJson (file : String) (error : Json.Error)
  | unknownType (name : String)
deriving DecidableEq, Repr

def Failure.message : Failure → String
  | unreadable file fault => "cannot read '" ++ file ++ "': " ++ fault.message
  | invalidJson file error => "invalid JSON in '" ++ file ++ "': " ++ error.message
  | unknownType name => "unknown root type '" ++ name ++ "'"

inductive Output
  | print (text : String)
  | report (report : Report)
  | event (event : Log.Event)
deriving DecidableEq, Repr

/-- How a run ends: with nothing to complain about, with a report, with a failure, with
arithmetic that has no answer, or before it starts, because it has no log filter. -/
inductive Ending
  | clean
  | flawed
  | failed (failure : Failure)
  | faulted (fault : Fault)
  | unfiltered
deriving DecidableEq, Repr

def Ending.exitCode : Ending → Nat
  | clean => 0
  | flawed | failed _ => 1
  | faulted _ | unfiltered => 101

structure Run where
  outputs : List Output
  ending : Ending
deriving DecidableEq, Repr

namespace Run

def ofOutputs (outputs : List Output) (isClean : Bool) : Run :=
  ⟨outputs, if isClean then .clean else .flawed⟩

def ofFailure (failure : Failure) : Run := ⟨[], .failed failure⟩

def ofFault (fault : Fault) : Run := ⟨[], .faulted fault⟩

def unfiltered : Run := ⟨[], .unfiltered⟩

def after (outputs : List Output) (run : Run) : Run :=
  { run with outputs := outputs ++ run.outputs }

def events (events : List Log.Event) : List Output := events.map .event

def stdout (run : Run) : String :=
  String.join <| run.outputs.filterMap fun
    | .print text => some text
    | _ => none

def stderrLines (run : Run) (filter : Log.Filter) : List String :=
  (run.outputs.flatMap fun
    | .print _ => []
    | .report report => report.lines
    | .event event => if filter.shows event then [event.render] else []) ++
  match run.ending with
  | .failed failure => ["error: " ++ failure.message]
  | _ => []

end Run

/-! ## Commands on a path alone -/

def runLex (source : String) : Run :=
  let lexed := Lexed.ofString source
  .ofOutputs (Run.events lexed.events ++ [.print lexed.table]) true

def runParse (source : String) : Run :=
  let reading := Reading.ofString source
  let path := reading.path
  let counts :=
    "Segments: " ++ toString path.length ++ " (" ++ toString path.methodCount ++
      " method calls)\n"
  let reports := reading.problem.toList.map fun problem =>
    Output.report (.ofProblem "path" source path.display problem)
  .ofOutputs (Run.events (Reading.events source) ++ [.print (path.outline ++ counts)] ++ reports)
    reading.isComplete

namespace Highlight

def text (source : String) (offset : Nat) (highlight : Highlight) : Except Fault String := do
  let start ← Offset.sub highlight.span.start offset
  let stop ← Offset.sub highlight.span.stop offset
  match Text.cut? source.toList start stop with
  | some shown => return String.ofList shown
  | none => throw (.unsliced start stop)

def row (highlight : Highlight) (shown : String) : String :=
  padCell 8 highlight.span.display ++ " " ++ padCell 8 highlight.kind.display ++ " " ++ shown ++
    "\n"

/-- The rows of highlights, up to the first fault. -/
def rows (source : String) (offset : Nat) : List Highlight → String × Option Fault
  | [] => ("", none)
  | highlight :: rest =>
      match highlight.text source offset with
      | .error fault => ("", some fault)
      | .ok shown =>
          let (others, fault) := rows source offset rest
          (highlight.row shown ++ others, fault)

end Highlight

def runHighlight (source : String) (offset : Nat) : Run :=
  match highlights source offset with
  | .error fault => .ofFault fault
  | .ok found =>
      let events := if Text.isBlank source then [] else Reading.events source
      let (rows, fault) := Highlight.rows source offset found
      ⟨Run.events events ++ [.print rows], fault.elim .clean .faulted⟩

/-! ## Commands on types -/

def reportsOn (root : String) (lens : Lens) (diagnostics : List Diagnostic) : List Output :=
  let title := root ++ " \"" ++ lens.path ++ "\""
  diagnostics.map fun diagnostic =>
    .report (.ofDiagnostic title lens.path lens.offset diagnostic)

/-- Checks a lens. When nothing is wrong with it, its resolution is summed up. -/
def runCheck (table : TypeTable) (root : String) (lens : Lens) : Run :=
  if table.contains root then
    let events := table.model.checkEvents root lens
    match table.model.check root lens with
    | .error fault => .ofFault fault
    | .ok [] =>
        let path := Path.ofString lens.path
        let again := Reading.events lens.path ++ table.model.resolveEvents root path
        match table.model.summary root path with
        | .error fault => .ofFault fault
        | .ok summary =>
            .ofOutputs (Run.events (events ++ again) ++ [.print (summary ++ "\n")]) true
    | .ok diagnostics =>
        .ofOutputs (Run.events events ++ reportsOn root lens diagnostics) false
  else .ofFailure (.unknownType root)

def okLine (root : String) (lens : Lens) : String :=
  "ok    " ++ root ++ " \"" ++ lens.path ++ "\" (" ++ lens.mode.display ++ ")\n"

def lensOutputs (root : String) (lens : Lens) (diagnostics : List Diagnostic) : List Output :=
  if diagnostics.isEmpty then [.print (okLine root lens)] else reportsOn root lens diagnostics

namespace RootInspection

def checked (inspection : RootInspection) : List (Lens × List Diagnostic) :=
  inspection.lenses.zip (inspection.found.getD [])

def outputs (inspection : RootInspection) : List Output :=
  inspection.checked.flatMap fun (lens, diagnostics) =>
    lensOutputs inspection.root lens diagnostics

def isClean (inspection : RootInspection) : Bool :=
  inspection.checked.all fun (_, diagnostics) => diagnostics.isEmpty

end RootInspection

def runInspect (manifest : Manifest) : Run :=
  match manifest.inspect with
  | .error fault => .ofFault fault
  | .ok inspections =>
      .ofOutputs (Run.events manifest.inspectEvents ++ inspections.flatMap RootInspection.outputs)
        (inspections.all RootInspection.isClean)

/-! ## Files -/

def runFile (file : String) (content : Except FileFault ByteArray) (shape : Json.Shape α)
    (next : α → Run) : Run :=
  match content with
  | .error fault => .ofFailure (.unreadable file fault)
  | .ok bytes =>
      match String.fromUTF8? bytes with
      | none => .ofFailure (.unreadable file .notText)
      | some text =>
          match Json.decode shape text with
          | .error error => .ofFailure (.invalidJson file error)
          | .ok value =>
              let loaded : Log.Event :=
                { level := .debug
                  target := "lensc::manifest"
                  message := "loaded JSON input"
                  fields := [("path", file)] }
              (next value).after [.event loaded]

def Command.run (files : String → Except FileFault ByteArray) : Command → Run
  | lex path => runLex path
  | parse path => runParse path
  | highlight path offset => runHighlight path offset
  | check model root isWrite path =>
      runFile model (files model) TypeTable.shape fun table =>
        runCheck table root ⟨path, if isWrite then .write else .read, 0⟩
  | inspect manifest => runFile manifest (files manifest) Manifest.shape runInspect
  | completions shell => .ofOutputs [.print shell.completionScript] true

def Command.runLogged (files : String → Except FileFault ByteArray) (filterText : Option String)
    (verbosity : Nat) (command : Command) : Run × Log.Filter :=
  match Log.Filter.ofRun? filterText verbosity with
  | some filter => (command.run files, filter)
  | none => (.unfiltered, [])

end LensPath
