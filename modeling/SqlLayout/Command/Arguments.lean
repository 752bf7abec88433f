import SqlLayout.Style.OfToml

/-!
The command line: options, which may stand before or after the name of a command, and the command
with its operands.
-/

namespace SqlLayout.Command

/-- What to do. -/
inductive Task
  /-- Lay out a script: the given one, or the standard input. -/
  | format (sql : Option String)
  /-- Lay out the SQL constants of sources. -/
  | fix (paths : List String)
  /-- List the SQL constants of sources that are not in their layout. -/
  | check (paths : List String) (json : Bool)
  deriving DecidableEq, Repr

/-- The options. An option that is not given leaves the style as it is. -/
structure Options where
  config : Option String := none
  indent : Option IndentUnit := none
  functionCase : Option NameCase := none
  joinIndented : Option Bool := none
  onOwnLine : Option Bool := none
  verbose : Bool := false
  deriving DecidableEq, Repr, Inhabited

/-- What a command line asks for. -/
inductive Request
  | run (options : Options) (task : Task)
  | version
  | help
  /-- The command line cannot be read. -/
  | misuse
  deriving DecidableEq, Repr

/-- The names of the options that take a value. -/
inductive ValueOption
  | config
  | indent
  | functionCase
  | joinIndent
  | joinBreak
  deriving DecidableEq, Repr

/-- The names of the options that take no value. -/
inductive Flag
  | verbose
  | version
  | help
  | json
  deriving DecidableEq, Repr

/-- An option by its name. -/
inductive OptionName
  | value (name : ValueOption)
  | flag (name : Flag)
  deriving DecidableEq, Repr

/-- The options with their long spellings. -/
def longNames : List (String × OptionName) :=
  [("config", .value .config), ("indent", .value .indent), ("func-case", .value .functionCase),
    ("join-start-indent", .value .joinIndent), ("join-line-break", .value .joinBreak),
    ("verbose", .flag .verbose), ("version", .flag .version), ("help", .flag .help),
    ("json", .flag .json)]

/-- The options with their short spellings. -/
def shortNames : List (Char × OptionName) :=
  [('c', .value .config), ('v', .flag .verbose), ('V', .flag .version), ('h', .flag .help)]

def indentValues : List (String × IndentUnit) :=
  [("tab", .tab), ("two-spaces", .twoSpaces)]

def functionCaseValues : List (String × NameCase) :=
  [("lower", .lower), ("upper", .upper)]

def joinIndentValues : List (String × Bool) :=
  [("none", false), ("one-space", true)]

def joinBreakValues : List (String × Bool) :=
  [("on-clause", true), ("off", false)]

/-- Sets an option, unless its value is none that the option takes. -/
def Options.set? (o : Options) (name : ValueOption) (value : String) : Option Options :=
  match name with
  | .config => if value == "" then none else some { o with config := some value }
  | .indent => (indentValues.lookup value).map fun v => { o with indent := some v }
  | .functionCase => (functionCaseValues.lookup value).map fun v => { o with functionCase := some v }
  | .joinIndent => (joinIndentValues.lookup value).map fun v => { o with joinIndented := some v }
  | .joinBreak => (joinBreakValues.lookup value).map fun v => { o with onOwnLine := some v }

/-- The options of two places; those of the second place win. -/
def Options.merge (o p : Options) : Options where
  config := p.config.or o.config
  indent := p.indent.or o.indent
  functionCase := p.functionCase.or o.functionCase
  joinIndented := p.joinIndented.or o.joinIndented
  onOwnLine := p.onOwnLine.or o.onOwnLine
  verbose := o.verbose || p.verbose

/-- The arguments of one place as far as they have been read: before the name of a command, or after
it. -/
structure Reading where
  options : Options := {}
  json : Bool := false
  /-- The options that have been given here; none may be given twice. -/
  given : List OptionName := []
  operands : List String := []
  deriving Repr, Inhabited

/-- Why the reading of arguments ends early. -/
inductive Stop
  | version
  | help
  | misuse
  deriving DecidableEq, Repr

/-- The request that ends the reading. -/
def Stop.request : Stop → Request
  | .version => .version
  | .help => .help
  | .misuse => .misuse

/-- Notes an option that must not have been given before. -/
def Reading.note (r : Reading) (name : OptionName) : Except Stop Reading :=
  if r.given.contains name then .error .misuse else .ok { r with given := name :: r.given }

/-- A flag; `allowed` tells which flags exist here. -/
def Reading.flag (allowed : List Flag) (r : Reading) (flag : Flag) : Except Stop Reading := do
  if !allowed.contains flag then throw .misuse
  else
    let r ← r.note (.flag flag)
    match flag with
    | .verbose => return { r with options := { r.options with verbose := true } }
    | .json => return { r with json := true }
    | .version => throw .version
    | .help => throw .help

/-- An option with its value. -/
def Reading.value (r : Reading) (name : ValueOption) (value : String) : Except Stop Reading := do
  let r ← r.note (.value name)
  match r.options.set? name value with
  | some options => return { r with options }
  | none => throw .misuse

/-- What one argument asks for: nothing more, or the next argument as the value of an option. -/
inductive Progress
  | done (reading : Reading)
  | awaits (reading : Reading) (name : ValueOption)

/-- A long option, without its dashes. -/
def Reading.long (allowed : List Flag) (r : Reading) (text : String) : Except Stop Progress :=
  let (name, rest) := (text.toList.takeWhile (· != '='), text.toList.dropWhile (· != '='))
  match longNames.lookup (String.ofList name), rest with
  | some (.value o), '=' :: v => .done <$> r.value o (String.ofList v)
  | some (.value o), _ => .ok (.awaits r o)
  | some (.flag f), [] => .done <$> r.flag allowed f
  | _, _ => .error .misuse

/-- Short options after one dash. What follows an option that takes a value is its value. -/
def Reading.short (allowed : List Flag) : List Char → Reading → Except Stop Progress
  | [], r => .ok (.done r)
  | c :: rest, r =>
    match shortNames.lookup c with
    | some (.flag f) => do Reading.short allowed rest (← r.flag allowed f)
    | some (.value o) =>
      match rest with
      | [] => .ok (.awaits r o)
      | '=' :: v => .done <$> r.value o (String.ofList v)
      | v => .done <$> r.value o (String.ofList v)
    | none => .error .misuse

/-- An argument that is an option, and not an operand. -/
def isOption (text : String) : Bool :=
  text.startsWith "-" && text != "-"

/-- One argument that is an option. -/
def Reading.option (allowed : List Flag) (r : Reading) (text : String) : Except Stop Progress :=
  if text.startsWith "--" then r.long allowed (String.ofList (text.toList.drop 2))
  else Reading.short allowed (text.toList.drop 1) r

/-- Reads arguments up to the first operand if `untilOperand` is set, and to the end if not. After
two dashes all arguments are operands. It gives the arguments that are left. -/
def Reading.arguments (allowed : List Flag) (untilOperand : Bool) :
    List String → Reading → Except Stop (Reading × List String)
  | [], r => .ok (r, [])
  | text :: rest, r =>
    if text == "--" then
      if untilOperand then .error .misuse
      else .ok ({ r with operands := r.operands ++ rest }, [])
    else if isOption text then do
      match ← r.option allowed text with
      | .done r => Reading.arguments allowed untilOperand rest r
      | .awaits r name =>
        match rest with
        | value :: rest =>
          if isOption value then throw .misuse
          else Reading.arguments allowed untilOperand rest (← r.value name value)
        | [] => throw .misuse
    else if untilOperand then .ok (r, text :: rest)
    else Reading.arguments allowed untilOperand rest { r with operands := r.operands ++ [text] }

/-- The task of a command, given by its name and its arguments. -/
def taskOf (command : String) (r : Reading) : Option Task :=
  match command, r.operands with
  | "format", [] => some (.format none)
  | "format", [sql] => some (.format (some sql))
  | "fix", p :: ps => if (p :: ps).contains "" then none else some (.fix (p :: ps))
  | "check", p :: ps => if (p :: ps).contains "" then none else some (.check (p :: ps) r.json)
  | _, _ => none

/-- The names of the commands. -/
def commands : List String :=
  ["format", "fix", "check"]

/-- The request for help on the command with the given name, or on all of them. -/
def helpStop : List String → Stop
  | [] => .help
  | [command] => if command == "help" || commands.contains command then .help else .misuse
  | _ => .misuse

/-- The request of a command line. `fromEnvironment` is the file with the style that the environment
names; it must not be empty, unless an option in each of the two places names a file. -/
def Request.ofArguments (fromEnvironment : Option String) (arguments : List String) : Request :=
  let request : Except Stop Request := do
    let (before, rest) ← Reading.arguments [.verbose, .version, .help] true arguments {}
    match rest with
    | [] => throw .misuse
    | command :: rest =>
      if command == "help" then throw (helpStop rest)
      else if !(commands.contains command) then throw .misuse
      else
        let flags := [Flag.verbose, .help] ++ if command == "check" then [.json] else []
        let (after, _) ← Reading.arguments flags false rest {}
        match taskOf command after with
        | none => throw .misuse
        | some task =>
          let isGiven := before.options.config.isSome && after.options.config.isSome
          if fromEnvironment == some "" && !isGiven then throw .misuse
          else
            let options := before.options.merge after.options
            return .run { options with config := options.config.or fromEnvironment } task
  match request with
  | .ok r => r
  | .error stop => stop.request

end SqlLayout.Command
