import CallFrame.Bytes
import CallFrame.Text.Quoted

/-!
# Values on the command line

Addresses are hexadecimal numbers of 64 bits, with or without the mark `0x`. A location
expression is a text of hexadecimal digits, two for each byte. Both are read without
guessing: a text is taken as a whole or refused with the reason.
-/

namespace CallFrame

namespace CommandLine

/-- Why a value is refused. -/
inductive ValueFault where
  /-- The text is not the numeral of an address. -/
  | notNumber (text : String) (cause : Hex.NumeralFault)
  /-- The text cannot be cut into pairs of ASCII characters. -/
  | notPairs (text : String)
  /-- One of the pairs is not the numeral of a byte. -/
  | notByte (text : String) (cause : Hex.NumeralFault)
  deriving DecidableEq

namespace ValueFault

/-- The words in which a refused value is reported. -/
def message : ValueFault → String
  | .notNumber text cause => s!"invalid hex number {Quoted.encode text}: {cause.message}"
  | .notPairs text => s!"expected pairs of hex digits, got {Quoted.encode text}"
  | .notByte text cause => s!"invalid hex byte in {Quoted.encode text}: {cause.message}"

end ValueFault

/-- The address that a text stands for. -/
def address (text : String) : Except ValueFault UInt64 :=
  match Hex.number UInt64.size (Hex.unmarked text.toList) with
  | .ok n => .ok (UInt64.ofNat n)
  | .error cause => .error (.notNumber text cause)

/-- The bytes that a text stands for. -/
def bytes (text : String) : Except ValueFault Bytes :=
  let digits := Hex.unmarked text.toList
  if (digits.all fun c => c.toNat < 128) ∧ digits.length % 2 = 0 then
    match Hex.pairs digits with
    | .ok bytes => .ok bytes
    | .error cause => .error (.notByte text cause)
  else
    .error (.notPairs text)

end CommandLine

end CallFrame
