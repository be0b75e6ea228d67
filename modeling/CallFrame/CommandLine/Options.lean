import CallFrame.CommandLine.Value
import CallFrame.ObjectFile

/-!
# Options of the command line

The command line may name a file, a program counter, a stack pointer and a location
expression. The file of the program itself stands in for one that is not named, and the
registers of the program for a counter or a stack pointer; where they cannot be told, zero does.
-/

namespace CallFrame

namespace CommandLine

/-- The options that take a value. -/
inductive Flag where
  /-- The file to look into. -/
  | binary
  /-- The program counter. -/
  | pc
  /-- The stack pointer. -/
  | sp
  /-- The location expression to evaluate. -/
  | expr
  deriving DecidableEq

/-- The name that an option is given by. -/
def Flag.name : Flag → String
  | .binary => "binary"
  | .pc => "pc"
  | .sp => "sp"
  | .expr => "expr"

/-- The options that are given. -/
structure Options where
  /-- The file to look into. -/
  binary : Option String := none
  /-- The program counter. -/
  pc : Option UInt64 := none
  /-- The stack pointer. -/
  sp : Option UInt64 := none
  /-- The location expression to evaluate. -/
  expression : Option Bytes := none
  deriving DecidableEq

/-- What a run finds around it. -/
structure World where
  /-- What reads the objects in files. -/
  objects : ObjectReader
  /-- The content of a file, if it can be read. -/
  files : String → Option Bytes
  /-- The path of the program itself, if it can be found out. -/
  ownPath : Option String
  /-- The program counter and the stack pointer of the program itself, where they can be told. -/
  here : Option (UInt64 × UInt64)
  /-- The name of the symbol at an address, if one is known. -/
  symbolName : UInt64 → Option String

namespace Options

/-- The program counter of the lookup. -/
def counter (options : Options) (world : World) : UInt64 :=
  (options.pc.or (world.here.map Prod.fst)).getD 0

/-- The stack pointer of the lookup. -/
def stackPointer (options : Options) (world : World) : UInt64 :=
  (options.sp.or (world.here.map Prod.snd)).getD 0

/-- Reads the file of the lookup. -/
def file (options : Options) (world : World) : Except FileFault ObjectFile :=
  match options.binary with
  | some path => ObjectFile.read world.files path
  | none => ObjectFile.readOwn world.files world.ownPath

end Options

end CommandLine

end CallFrame
