import CallFrame.CommandLine.Argument
import CallFrame.CommandLine.Outcome
import CallFrame.Text.ControlSequence

/-!
# A reader of command lines

An option and its value are two arguments, or one argument with an equals sign between them.
Each option is given once, in any order. A request for help is answered on the output.

Arguments are read in order. A value in an argument of its own is only looked at when the
next option begins, or at the end; an argument that cannot be taken at all comes before the
faults of such a value. A value behind an equals sign is looked at on the spot.

This is one reader of arguments. What is said of runs elsewhere is said for any reader, and needs
this one only where a run has to begin.
-/

namespace CallFrame

namespace CommandLine

namespace Flag

/-- The option with a given name. -/
def ofName? (name : String) : Option Flag :=
  if name = "binary" then some .binary
  else if name = "pc" then some .pc
  else if name = "sp" then some .sp
  else if name = "expr" then some .expr
  else none

/-- The option as it is written, with a word for its value. -/
def usage : Flag → String
  | .binary => "--binary <BINARY>"
  | .pc => "--pc <PC>"
  | .sp => "--sp <SP>"
  | .expr => "--expr <EXPR>"

end Flag

/-- The name of the option that asks for help. -/
def helpName : String := "help"

/-- The letter of the option that asks for help. -/
def helpLetter : Char := 'h'

/-- The lines that tell how the program is used. -/
def helpLines : List String := [
  "Computes the canonical frame address for a pc from `.debug_frame`",
  "",
  "Usage: cfa-probe [OPTIONS]",
  "",
  "Options:",
  "      --binary <BINARY>  Object file to read the call frame information from. " ++
    "Defaults to the probe itself",
  "      --pc <PC>          Program counter, in hex. Defaults to wherever the probe is " ++
    "right now",
  "      --sp <SP>          Stack pointer, in hex. Defaults to the probe's own stack pointer",
  "      --expr <EXPR>      Location expression to evaluate against the CFA, as hex bytes " ++
    "(`9c116822`: DW_OP_call_frame_cfa DW_OP_consts -24 DW_OP_plus)",
  "  -h, --help             Print help"]

/-- Why a command line is refused. -/
inductive Refusal where
  /-- The value of an option cannot be read. -/
  | invalidValue (flag : Flag) (value : String) (fault : ValueFault)
  /-- The argument is neither an option nor the value of one. -/
  | unexpected (argument : String)
  /-- The option has no value, or an empty one where this is none. -/
  | missingValue (flag : Flag)
  /-- The request for help has a value. -/
  | unneededValue (value : String)
  /-- The option is given twice. -/
  | repeated (flag : Flag)
  deriving DecidableEq

namespace Refusal

/-- The words in which a refused command line is reported. What the user gave is repeated
without control sequences. -/
def message : Refusal → String
  | .invalidValue flag value fault =>
    s!"error: invalid value '{ControlSequence.remove value}' for '{flag.usage}': {fault.message}"
  | .unexpected argument =>
    s!"error: unexpected argument '{ControlSequence.remove argument}' found"
  | .missingValue flag =>
    s!"error: a value is required for '{flag.usage}' but none was supplied"
  | .unneededValue value =>
    s!"error: unexpected value '{ControlSequence.remove value}' for '--{helpName}' found; " ++
      "no more were expected"
  | .repeated flag =>
    s!"error: the argument '{flag.usage}' cannot be used multiple times"

/-- The outcome of a refused command line. -/
def outcome (refusal : Refusal) : Outcome where
  code := 2
  complaints := [refusal.message]

end Refusal

namespace Options

/-- Whether an option was read. -/
def has (options : Options) : Flag → Bool
  | .binary => options.binary.isSome
  | .pc => options.pc.isSome
  | .sp => options.sp.isSome
  | .expr => options.expression.isSome

/-- The options read so far and one more. -/
def set (options : Options) (flag : Flag) (value : String) : Except Refusal Options :=
  if options.has flag then
    .error (.repeated flag)
  else
    match flag with
    | .binary =>
      if value = "" then .error (.missingValue .binary)
      else .ok { options with binary := some value }
    | .pc =>
      Except.mapError (Refusal.invalidValue .pc value) <|
        (fun pc => { options with pc := some pc }) <$> address value
    | .sp =>
      Except.mapError (Refusal.invalidValue .sp value) <|
        (fun sp => { options with sp := some sp }) <$> address value
    | .expr =>
      Except.mapError (Refusal.invalidValue .expr value) <|
        (fun bytes => { options with expression := some bytes }) <$> bytes value

end Options

/-- An option whose value, if it is there already, was not looked at. -/
inductive Pending where
  /-- There is no such option. -/
  | nothing
  /-- The option waits for its value. -/
  | value (flag : Flag)
  /-- The value of the option is there. -/
  | complete (flag : Flag) (value : String)
  deriving DecidableEq

/-- The options read so far, with the pending one. -/
def Options.settle (options : Options) : Pending → Except Refusal Options
  | .nothing => .ok options
  | .value flag => .error (.missingValue flag)
  | .complete flag value => options.set flag value

/-- What a command line asks for. -/
inductive Command where
  /-- How the program is used. -/
  | help
  /-- A lookup. -/
  | lookup (options : Options)
  deriving DecidableEq

namespace Command

/-- The end of the arguments. -/
def finish (options : Options) (pending : Pending) : Except Refusal Command := do
  let options ← options.settle pending
  return .lookup options

/-- A request for help. What is pending has to be right. -/
def askHelp (options : Options) (pending : Pending) : Except Refusal Command := do
  let _ ← options.settle pending
  return .help

/-- Reads arguments in order. -/
def read : Options → Pending → List String → Except Refusal Command
  | options, pending, [] => finish options pending
  | options, pending, argument :: rest =>
    match Argument.ofText argument with
    | .separator =>
      match rest with
      | [] => finish options pending
      | next :: _ => .error (.unexpected next)
    | .long name value =>
      match Flag.ofName? name, value with
      | some flag, some value => do
        let options ← options.settle pending
        let options ← options.set flag value
        read options .nothing rest
      | some flag, none => do
        let options ← options.settle pending
        read options (.value flag) rest
      | none, value =>
        if name = helpName then
          match value with
          | some value => .error (.unneededValue value)
          | none => askHelp options pending
        else
          .error (.unexpected s!"--{name}")
    | .short letter =>
      if letter = helpLetter then askHelp options pending
      else .error (.unexpected (String.ofList ['-', letter]))
    | .plain text =>
      match pending with
      | .value flag => read options (.complete flag text) rest
      | _ => .error (.unexpected text)

/-- What the arguments of the command line ask for. -/
def ofArguments (arguments : List String) : Except Refusal Command :=
  read {} .nothing arguments

/-- Reads the options of a lookup. Every other command line ends with an outcome of its own. -/
def reader : ArgumentReader := fun arguments =>
  match ofArguments arguments with
  | .error refusal => .error refusal.outcome
  | .ok .help => .error { code := 0, output := helpLines }
  | .ok (.lookup options) => .ok options

end Command

end CommandLine

end CallFrame
