/-!
# Arguments of the command line

An argument that begins with two dashes names an option, and may have the value of the option
behind an equals sign. One dash is for options of one letter. Two dashes alone end the
options. Everything else, a single dash included, is a plain text.
-/

namespace CallFrame

namespace CommandLine

/-- What an argument looks like. -/
inductive Argument where
  /-- The end of the options. -/
  | separator
  /-- An option, with the value behind its equals sign if it has one. -/
  | long (name : String) (value : Option String)
  /-- An option of one letter. Whatever follows the letter is left aside. -/
  | short (letter : Char)
  /-- A text that is no option. -/
  | plain (text : String)
  deriving DecidableEq

namespace Argument

/-- What follows the first equals sign of a text, if it has one. -/
def valueOf (text : List Char) : Option String :=
  match text.dropWhile (· ≠ '=') with
  | [] => none
  | _ :: value => some (String.ofList value)

/-- The look of an argument. -/
def ofText (argument : String) : Argument :=
  match argument.toList with
  | ['-', '-'] => .separator
  | '-' :: '-' :: text => .long (String.ofList (text.takeWhile (· ≠ '='))) (valueOf text)
  | '-' :: letter :: _ => .short letter
  | _ => .plain argument

end Argument

end CommandLine

end CallFrame
