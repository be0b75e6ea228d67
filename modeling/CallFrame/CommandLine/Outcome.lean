import CallFrame.Expression
import CallFrame.CommandLine.Options

/-!
# The outcome of a command line

The program prints the frame address of the function at the program counter, and behind it
the value of the location expression if one is given. What was printed before a failure stays
printed.

What there is to say about the work goes to the log, one line for each message. The first
step that fails is reported there by the program, and nothing is said behind that. Some steps of
the library log their own fault before they hand it on: reading a file, loading its sections,
reading a common information entry, the replay, and the evaluation of an expression. So the same
fault may stand in the log twice. The search for a frame description leaves its fault to the
caller, and so does the question where the program's own file is.

How arguments are read is left to a reader of arguments. Where it does not come to options, it
decides on the outcome itself. Otherwise the exit status is one when something fails, and zero
when nothing does.
-/

namespace CallFrame

namespace CommandLine

/-- Who has written a line of the log. -/
inductive Origin where
  | program
  | library
  deriving DecidableEq

/-- What a line of the log is about. -/
inductive Level where
  /-- The course of the work. -/
  | info
  /-- A failure. -/
  | error
  deriving DecidableEq

/-- The word that a line of the log begins with. -/
def Level.name : Level → String
  | .info => "INFO"
  | .error => "ERROR"

/-- A line of the log. -/
structure LogLine where
  origin : Origin
  level : Level
  text : String
  deriving DecidableEq

/-- What a run leaves behind. -/
structure Outcome where
  /-- The exit status. -/
  code : UInt32
  /-- The lines of the output. -/
  output : List String := []
  /-- The lines of the log. -/
  log : List LogLine := []
  /-- What is said about a refused command line. This happens before there is a log. -/
  complaints : List String := []
  deriving DecidableEq

/-- What reads the arguments of a command line. It comes to options, or the run ends there. -/
abbrev ArgumentReader := List String → Except Outcome Options

/-- What the library logs of a step that logs its own fault, if it fails. -/
def echoes {ε α : Type} (words : ε → String) : Except ε α → List LogLine
  | .ok _ => []
  | .error fault => [{ origin := .library, level := .error, text := words fault }]

/-- What the library logs while it looks for a frame address. -/
def lookupEchoes (frames : FrameSection) (settings : Settings) (pc sp : UInt64) :
    List LogLine :=
  match frames.find pc settings.maxRecords with
  | .error _ => []
  | .ok description =>
    let common := frames.commonEntry description.commonOffset
    echoes Fault.message common ++
      match common with
      | .error _ => []
      | .ok common =>
        echoes Fault.message
          (description.frameAddress frames.order settings.offsetTiming common pc sp)

/-- What the library logs while it reads a file. -/
def fileEchoes : FileFault → List LogLine
  | .unknownProgram => []
  | fault => [{ origin := .library, level := .error, text := fault.message }]

/-- The words in which a failed lookup or evaluation is reported. -/
def faultText (fault : Fault) : String :=
  s!"{fault.message} ({fault.kind.name})"

/-- The words in which a file without sections to give is reported. The path is named here, since
the fault does not name it. -/
def fileFaultText (path : String) (fault : FileFault) : String :=
  s!"{path}: {fault.message}"

/-- The words about the sections that were found. -/
def sizesText (sections : DebugSections) : String :=
  s!".debug_frame is {sections.frames.length} bytes, .debug_info is {sections.info.length} bytes"

/-- The output line of a frame address, with the name of the symbol at the counter. -/
def addressLine (pc : UInt64) (symbol : Option String) (sp cfa : UInt64) : String :=
  match symbol with
  | some name =>
    s!"pc={Hex.marked pc.toNat} ({name}) sp={Hex.marked sp.toNat} cfa={Hex.marked cfa.toNat}"
  | none => s!"pc={Hex.marked pc.toNat} sp={Hex.marked sp.toNat} cfa={Hex.marked cfa.toNat}"

/-- The output line of a location. -/
def locationLine (location : UInt64) : String :=
  s!"location={Hex.marked location.toNat}"

namespace Outcome

/-- The outcome with another output line in front of the others. -/
def print (line : String) (outcome : Outcome) : Outcome :=
  { outcome with output := line :: outcome.output }

/-- The outcome with another line of the program in front of the log. -/
def report (level : Level) (text : String) (outcome : Outcome) : Outcome :=
  { outcome with log := { origin := .program, level, text } :: outcome.log }

/-- The outcome of a run that has nothing more to do. -/
def success : Outcome where
  code := 0

/-- The outcome of a run that fails, with what the library has logged of that. -/
def failure (echoes : List LogLine) (text : String) : Outcome where
  code := 1
  log := echoes ++ [{ origin := .program, level := .error, text }]

/-- The rest of a run that has a frame address. -/
def ofAddress (options : Options) (cfa : UInt64) : Outcome :=
  match options.expression with
  | none => success
  | some expression =>
    match Expression.evaluate expression cfa with
    | .ok location => success.print (locationLine location)
    | .error fault =>
      failure (echoes Fault.message (Expression.evaluate expression cfa)) (faultText fault)

/-- The rest of a run that has found the sections. -/
def ofSections (world : World) (options : Options) (sections : DebugSections) : Outcome :=
  let pc := options.counter world
  let sp := options.stackPointer world
  report .info (sizesText sections) <|
    match sections.frameAddress {} pc sp with
    | .ok cfa => (ofAddress options cfa).print (addressLine pc (world.symbolName pc) sp cfa)
    | .error fault => failure (lookupEchoes sections.frameSection {} pc sp) (faultText fault)

/-- The rest of a run that has read the file. -/
def ofFile (world : World) (options : Options) (file : ObjectFile) : Outcome :=
  match file.debugSections world.objects with
  | .error fault =>
    failure (echoes FileFault.message (file.debugSections world.objects))
      (fileFaultText file.path fault)
  | .ok sections => ofSections world options sections

/-- The run with the given options. -/
def ofOptions (world : World) (options : Options) : Outcome :=
  match options.file world with
  | .error fault => failure (fileEchoes fault) fault.message
  | .ok file => ofFile world options file

/-- The run with the given arguments. -/
def ofArguments (reader : ArgumentReader) (world : World) (arguments : List String) : Outcome :=
  match reader arguments with
  | .error outcome => outcome
  | .ok options => ofOptions world options

end Outcome

end CommandLine

end CallFrame
