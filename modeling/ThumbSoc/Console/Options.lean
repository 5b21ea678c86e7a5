/-!
# The command line

The options of the console and how they are written: short options can be grouped, the last
one of a group may take a value, and a value is attached, with or without an equals sign, or
is the next argument. An option cannot be given twice, and there are no other arguments.

Reading goes from left to right and stops at the first defect, or at a request for help or
the version.
-/

namespace ThumbSoc.Console

/-- What a run of the console is asked to do. -/
structure Options where
  /-- The program to load. -/
  file : String
  /-- The cycle budget. -/
  cycles : Nat := 1000000
  /-- Whether every instruction is logged. -/
  verbose : Bool := false
  /-- The port of a debugger, which is accepted and not used. -/
  debugPort : Option Nat := none
  cores : Nat := 2
  deriving DecidableEq, Repr

/-- What a command line asks for. -/
inductive Request where
  | run (options : Options)
  | help
  | version
  deriving DecidableEq, Repr

/-- The options that take a value. -/
inductive Setting where
  | file
  | cycles
  | debugPort
  | cores
  deriving DecidableEq, Repr

/-- The defects of a command line. -/
inductive UsageError where
  | unknown (argument : String)
  | unexpected (argument : String)
  | missingValue (setting : Setting)
  | invalidValue (setting : Setting) (value : String)
  | repeated (name : String)
  | missingFile
  deriving DecidableEq, Repr

namespace Setting

/-- The long name. -/
def name : Setting → String
  | file => "--file"
  | cycles => "--cycles"
  | debugPort => "--gdb"
  | cores => "--cores"

/-- The setting of a short option. -/
def ofShort? : Char → Option Setting
  | 'f' => some file
  | 'c' => some cycles
  | 'g' => some debugPort
  | _ => none

/-- The setting of a long option. -/
def ofLong? : String → Option Setting
  | "file" => some file
  | "cycles" => some cycles
  | "gdb" => some debugPort
  | "cores" => some cores
  | _ => none

end Setting

/-- The wording of the defect. -/
def UsageError.message : UsageError → String
  | unknown argument => s!"unexpected argument '{argument}' found"
  | unexpected argument => s!"unexpected argument '{argument}' found"
  | missingValue setting => s!"a value is required for '{setting.name}' but none was supplied"
  | invalidValue setting value => s!"invalid value '{value}' for '{setting.name}'"
  | repeated name => s!"the argument '{name}' cannot be used multiple times"
  | missingFile => "the required argument '--file' was not provided"

/-! ### Numbers -/

/-- The number that a nonempty sequence of decimal digits denotes. -/
def digits? (cs : List Char) : Option Nat :=
  if cs.isEmpty || !cs.all Char.isDigit then none
  else some (cs.foldl (fun n c => 10 * n + (c.toNat - '0'.toNat)) 0)

/-- An unsigned number of at most 64 bits, with or without a plus sign. -/
def unsigned? (value : String) : Option Nat := do
  let n ← match value.toList with
    | '+' :: cs => digits? cs
    | cs => digits? cs
  if n < UInt64.size then some n else none

/-- A port number, with or without a sign; under a minus sign only zero is one. -/
def port? (value : String) : Option Nat := do
  match value.toList with
  | '-' :: cs => if (← digits? cs) = 0 then some 0 else none
  | _ =>
    let n ← unsigned? value
    if n < UInt16.size then some n else none

/-! ### Reading -/

/-- The options given so far. -/
structure Given where
  file : Option String := none
  cycles : Option Nat := none
  verbose : Bool := false
  debugPort : Option Nat := none
  cores : Option Nat := none

namespace Given

/-- Whether a setting was given. -/
def has (given : Given) : Setting → Bool
  | .file => given.file.isSome
  | .cycles => given.cycles.isSome
  | .debugPort => given.debugPort.isSome
  | .cores => given.cores.isSome

/-- Adds a setting, if its value is a good one. -/
def assign? (given : Given) (setting : Setting) (value : String) : Option Given :=
  match setting with
  | .file => if value.isEmpty then none else some { given with file := some value }
  | .cycles => (unsigned? value).map fun n => { given with cycles := some n }
  | .debugPort => (port? value).map fun n => { given with debugPort := some n }
  | .cores => (unsigned? value).map fun n => { given with cores := some n }

/-- Adds a setting that was not given before. -/
def assign (given : Given) (setting : Setting) (value : String) : Except UsageError Given :=
  if given.has setting then .error (.repeated setting.name)
  else
    match given.assign? setting value with
    | some given => .ok given
    | none => .error (.invalidValue setting value)

/-- Adds the request to log every instruction. -/
def verbosely (given : Given) : Except UsageError Given :=
  if given.verbose then .error (.repeated "--verbose") else .ok { given with verbose := true }

/-- The options of a complete command line. -/
def options (given : Given) : Except UsageError Options :=
  match given.file with
  | none => .error .missingFile
  | some file =>
    let defaults : Options := { file }
    .ok { file
          cycles := given.cycles.getD defaults.cycles
          verbose := given.verbose
          debugPort := given.debugPort
          cores := given.cores.getD defaults.cores }

end Given

/-- What the text of an argument leaves to be done. -/
inductive Reading where
  /-- The argument is dealt with. -/
  | done (given : Given)
  /-- The value of the setting is the next argument. -/
  | awaiting (given : Given) (setting : Setting)
  /-- The command line asks for help or the version. -/
  | request (request : Request)

/-- Reads a group of short options. -/
def readGroup (given : Given) : List Char → Except UsageError Reading
  | [] => .ok (.done given)
  | 'h' :: _ => .ok (.request .help)
  | 'V' :: _ => .ok (.request .version)
  | 'v' :: rest => do readGroup (← given.verbosely) rest
  | c :: rest =>
    match Setting.ofShort? c with
    | none => .error (.unknown (String.ofList ['-', c]))
    | some setting =>
      match rest with
      | [] => .ok (.awaiting given setting)
      | '=' :: value => do return .done (← given.assign setting (String.ofList value))
      | value => do return .done (← given.assign setting (String.ofList value))

/-- Reads a long option, without its leading dashes. -/
def readLong (given : Given) (text : List Char) : Except UsageError Reading :=
  let name := String.ofList (text.takeWhile (· ≠ '='))
  let value := match text.dropWhile (· ≠ '=') with
    | [] => none
    | _ :: rest => some (String.ofList rest)
  match name, value with
  | "help", none => .ok (.request .help)
  | "version", none => .ok (.request .version)
  | "verbose", none => do return .done (← given.verbosely)
  | _, _ =>
    match Setting.ofLong? name, value with
    | none, _ => .error (.unknown ("--" ++ String.ofList text))
    | some setting, none => .ok (.awaiting given setting)
    | some setting, some value => do return .done (← given.assign setting value)

/-- Reads one argument. -/
def readArgument (given : Given) (argument : String) : Except UsageError Reading :=
  match argument.toList with
  | '-' :: '-' :: text => readLong given text
  | '-' :: c :: rest => readGroup given (c :: rest)
  | _ => .error (.unexpected argument)

/-- Whether an argument is written like an option and so is no value. -/
def isOptionLike (argument : String) : Bool :=
  argument.startsWith "-" && argument ≠ "-"

/-- Reads the arguments, given what the earlier ones said. Two dashes end the options. -/
def readArguments (given : Given) : List String → Except UsageError Request
  | [] => do return .run (← given.options)
  | "--" :: [] => do return .run (← given.options)
  | "--" :: argument :: _ => .error (.unexpected argument)
  | argument :: rest => do
    match ← readArgument given argument with
    | .done given => readArguments given rest
    | .request request => return request
    | .awaiting given setting =>
      match rest with
      | [] => throw (.missingValue setting)
      | value :: rest =>
        if isOptionLike value then throw (.missingValue setting)
        else readArguments (← given.assign setting value) rest

/-- What a command line asks for. -/
def Request.ofArguments (arguments : List String) : Except UsageError Request :=
  readArguments {} arguments

end ThumbSoc.Console
