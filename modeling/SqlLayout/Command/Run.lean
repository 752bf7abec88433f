import SqlLayout.Command.Arguments
import SqlLayout.Command.Report
import SqlLayout.Files.Source
import SqlLayout.Style.Discover

/-!
What the commands do to a workspace and what they print.
-/

namespace SqlLayout.Command

/-- Why a command fails. -/
inductive Fault
  | error (e : Error)
  /-- The file with the style cannot be used. -/
  | load (path : String) (e : Error)
  /-- The standard input cannot be read. -/
  | input (fault : FileFault)
  deriving DecidableEq, Repr

/-- The text of an error with its cause. -/
def errorWithCause : Error → String
  | .io text => (Error.io text).message ++ ": " ++ text
  | e => e.message

/-- The text of a fault. -/
def Fault.message : Fault → String
  | .error e => errorWithCause e
  | .load path e => "failed to load " ++ path ++ ": " ++ errorWithCause e
  | .input fault => "failed to read stdin: " ++ fault.message

/-! ### Sources -/

/-- The source of a file in its layout; none if a program has written the file. -/
def reviseFile (style : Style) (w : Workspace) (path : String) : Outcome (Option Host.Revision) :=
  if isGenerated path then .ok none
  else do
    let source ← w.text path
    let revision ← (Host.layOut style source).mapError fun
      | .source text => .source (path ++ ": " ++ text)
      | e => e
    return some revision

/-- A report on a source, if some constant of it has a new literal. -/
def reportOn (path : String) : Option Host.Revision → Option FileReport
  | some r => if r.isChanged then some ⟨path, r.changes⟩ else none
  | none => none

/-- The reports on those of the given files that are not in their layout. -/
def check (style : Style) (w : Workspace) (files : List String) : Outcome (List FileReport) :=
  files.filterMapM fun path => do return reportOn path (← reviseFile style w path)

/-- What `fix` leaves: the workspace, the files that it has written, and the error that ended it. -/
structure Repair where
  workspace : Workspace
  fixed : List FileReport := []
  error : Option Error := none

/-- Writes the given files in their layout, one after the other, up to the first that fails. -/
def fix (style : Style) : Workspace → List String → Repair
  | w, [] => { workspace := w }
  | w, path :: files =>
    match reviseFile style w path with
    | .error e => { workspace := w, error := some e }
    | .ok revision =>
      match revision, reportOn path revision with
      | some r, some report =>
        let rest := fix style (w.write path r.source) files
        { rest with fixed := report :: rest.fixed }
      | _, _ => fix style w files

/-- The files that paths stand for. -/
def expand (w : Workspace) (paths : List String) : List String :=
  paths.flatMap w.sources

/-! ### Commands -/

/-- What a command answers, and the files that it has written. -/
structure Answer where
  exit : Nat
  output : String := ""
  complaint : String := ""
  written : List String := []
  deriving DecidableEq, Repr, Inhabited

/-- The answer of a command that fails after it has printed something. -/
def Answer.failed (output : String) (f : Fault) : Answer where
  exit := 1
  output := output
  complaint := "Error: " ++ f.message ++ "\n"

/-- The style of a command: the one in the given file, or the one that is found, with the options that
are given. -/
def styleFor (w : Workspace) (o : Options) : Except Fault Style := do
  let style ← match o.config with
    | some path => (Style.load w path).mapError (.load path)
    | none => (Style.discover w).mapError .error
  return {
    indent := o.indent.getD style.indent
    functionCase := o.functionCase.getD style.functionCase
    joinIndented := o.joinIndented.getD style.joinIndented
    onOwnLine := o.onOwnLine.getD style.onOwnLine }

/-- Prints a script in its layout. -/
def runFormat (style : Style) (sql : Option String) (input : ByteArray) : Answer :=
  let result : Except Fault String := do
    let sql ← match sql with
      | some sql => pure sql
      | none => (decodeText input).mapError .input
    (format style sql).mapError .error
  match result with
  | .ok text => { exit := 0, output := text }
  | .error f => .failed "" f

/-- Writes sources in their layout and tells which. -/
def runFix (style : Style) (verbose : Bool) (w : Workspace) (paths : List String) :
    Workspace × Answer :=
  let repair := fix style w (expand w paths)
  let output := String.join (repair.fixed.map FileReport.fixedLine)
  let written := repair.fixed.map (·.path)
  match repair.error with
  | some e => (repair.workspace, { Answer.failed output (.error e) with written })
  | none =>
    let summary :=
      if verbose then "Done: " ++ toString repair.fixed.length ++ " files rewritten\n" else ""
    (repair.workspace, { exit := 0, output := output ++ summary, written })

/-- The text of a report. -/
def reportText (json : Bool) (reports : List FileReport) : String :=
  if json then reportJson reports ++ "\n"
  else if reports.isEmpty then "✓ all SQL constants are formatted\n"
  else String.join (reports.map FileReport.lines)

/-- Tells which sources are not in their layout. -/
def runCheck (style : Style) (json : Bool) (w : Workspace) (paths : List String) : Answer :=
  match check style w (expand w paths) with
  | .ok reports => { exit := if reports.isEmpty then 0 else 1, output := reportText json reports }
  | .error e => .failed "" (.error e)

/-- The name and the version of the program. -/
def versionLine : String := "pgsqlfmt 0.1.0\n"

/-- Carries out a request; `input` is the standard input. -/
def run (w : Workspace) (input : ByteArray) : Request → Workspace × Answer
  | .version => (w, { exit := 0, output := versionLine })
  | .help => (w, { exit := 0 })
  | .misuse => (w, { exit := 2 })
  | .run options task =>
    match styleFor w options with
    | .error f => (w, .failed "" f)
    | .ok style =>
      match task with
      | .format sql => (w, runFormat style sql input)
      | .fix paths => runFix style options.verbose w paths
      | .check paths json => (w, runCheck style json w paths)

end SqlLayout.Command
