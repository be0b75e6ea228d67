import CallFrame.CommandLine.Command
import CallFrame.Elf.File

/-!
# The command line program

Finds out what a run needs of the world around it, and leaves everything else to
`CallFrame.CommandLine.Outcome`. Only ELF files are read, registers are not looked at, and no
symbols are known.
-/

open CallFrame CallFrame.CommandLine

/-- The content of a file, if it can be read. -/
def readFile (path : String) : IO (Option Bytes) := do
  try
    let content ← IO.FS.readBinFile path
    return some content.data.toList
  catch _ =>
    return none

/-- The path of the program itself, if it can be found out. -/
def ownPath : IO (Option String) := do
  try
    let path ← IO.appPath
    return some (toString path)
  catch _ =>
    return none

/-- The run with the given options. No other file is read than theirs. -/
def runWith (options : Options) : IO Outcome := do
  let ownPath ← ownPath
  let content ←
    match options.binary.or ownPath with
    | some path => readFile path
    | none => pure none
  return Outcome.ofOptions
    { objects := Elf.reader
      files := fun _ => content
      ownPath
      here := none
      symbolName := fun _ => none }
    options

/-- Runs the program with its arguments and gives the exit status. -/
def main (arguments : List String) : IO UInt32 := do
  let outcome ←
    match Command.reader arguments with
    | .error outcome => pure outcome
    | .ok options => runWith options
  for line in outcome.complaints do
    IO.eprintln line
  for line in outcome.log do
    IO.eprintln s!"{line.level.name} {line.text}"
  for line in outcome.output do
    IO.println line
  return outcome.code
