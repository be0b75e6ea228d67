import CallFrame.Text.Hex
import CallFrame.Text.Unprintable

/-!
# Quoted text

A text is shown between double quotes, so that one can see where it begins and ends and
what is in it. The quote and the backslash are escaped by a backslash, four control
characters have letters of their own, and every other unprintable character is written as
its code point.
-/

namespace CallFrame

namespace Quoted

/-- The written form of a character by its code point. -/
def codePoint (c : Char) : List Char :=
  ['\\', 'u', '\x7b'] ++ Hex.digits c.toNat ++ ['\x7d']

/-- The written form of one character. -/
def escape (c : Char) : List Char :=
  if c = '\x00' then ['\\', '0']
  else if c = '\t' then ['\\', 't']
  else if c = '\r' then ['\\', 'r']
  else if c = '\n' then ['\\', 'n']
  else if c = '\x22' ∨ c = '\\' then ['\\', c]
  else if Unprintable.mem c.toNat then codePoint c
  else [c]

/-- The written form of a text, with its quotes. -/
def encode (text : String) : String :=
  String.ofList (['\x22'] ++ text.toList.flatMap escape ++ ['\x22'])

end Quoted

end CallFrame
